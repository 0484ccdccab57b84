import Offside.Proofs.Places

/-!
# The balance of blocks

The widths of the open blocks increase strictly, and the depth of a lexer rises and falls with the
block tokens that are pulled from it: `Pulls.balance_eq`. The scanner gives no such tokens, so the
depth changes only where layout settles. `settleLevels` does the work of layout on the list of all
open widths, the outermost one included, and `settleLevels_levels` says that it does the same.
-/

namespace Offside

/-! ### Widths -/

namespace Widths

variable {widths : Widths} {width : Nat}

/-- The open widths increase strictly from the outermost block on. -/
def Ordered (widths : Widths) : Prop :=
  widths.levels.Pairwise (· < ·)

theorem levels_cons (width : Nat) (widths : Widths) :
    levels (width :: widths) = widths.levels ++ [width] := by
  simp [levels]

theorem getLast?_levels (widths : Widths) : widths.levels.getLast? = some widths.innermost := by
  cases widths with
  | nil => rfl
  | cons width widths =>
    rw [levels_cons, List.getLast?_concat]
    rfl

theorem dropLast_levels (width : Nat) (widths : Widths) :
    (levels (width :: widths)).dropLast = widths.levels := by
  rw [levels_cons, List.dropLast_concat]

theorem ordered_nil : Ordered [] :=
  List.pairwise_singleton _ 0

theorem Ordered.le_innermost (h : widths.Ordered) :
    ∀ level ∈ widths.levels, level ≤ widths.innermost := by
  intro level hlevel
  cases widths with
  | nil =>
    rw [List.mem_singleton.1 hlevel]
    exact Nat.zero_le _
  | cons width widths =>
    rw [Ordered, levels_cons, List.pairwise_append] at h
    rw [levels_cons] at hlevel
    obtain hlevel | hlevel := List.mem_append.1 hlevel
    · exact Nat.le_of_lt (h.2.2 level hlevel width List.mem_cons_self)
    · exact Nat.le_of_eq (List.mem_singleton.1 hlevel)

theorem Ordered.cons (h : widths.Ordered) (hwidth : widths.innermost < width) :
    Ordered (width :: widths) := by
  rw [Ordered, levels_cons, List.pairwise_append]
  refine ⟨h, List.pairwise_singleton _ _, ?_⟩
  intro level hlevel inner hinner
  rw [List.mem_singleton.1 hinner]
  exact Nat.lt_of_le_of_lt (h.le_innermost level hlevel) hwidth

theorem Ordered.tail (h : Ordered (width :: widths)) : widths.Ordered := by
  rw [Ordered, levels_cons, List.pairwise_append] at h
  exact h.1

end Widths

/-! ### Listed widths -/

namespace Layout

/-- What is due in a phase, told from the list of all open widths. The end of the list is read and
taken off, which fails where nothing is left. -/
def settleLevels (levels : List Nat) : Phase → Option (Option (Entry × Phase × List Nat))
  | .seek => some none
  | .compare width place =>
    levels.getLast?.map fun innermost =>
      if innermost < width then some (indentation place, .seek, levels ++ [width])
      else if width < innermost then
        some (deindentation place, .close width place, levels.dropLast)
      else none
  | .close width place =>
    levels.getLast?.map fun innermost =>
      if width < innermost then some (deindentation place, .close width place, levels.dropLast)
      else if innermost < width then some (inconsistentDedent place, .seek, levels)
      else none
  | .flush place =>
    some (if 1 < levels.length then some (deindentation place, .flush place, levels.dropLast)
      else none)

/-- What is due, with the open blocks listed. -/
def listed : Entry × Phase × Widths → Entry × Phase × List Nat
  | (entry, phase, widths) => (entry, phase, widths.levels)

/-- The end of the listed widths is there whenever it is read, and the outermost block stays. -/
theorem settleLevels_levels (widths : Widths) (phase : Phase) :
    settleLevels widths.levels phase = some ((settle widths phase).map listed) := by
  have hpop {width : Nat} (hlt : width < widths.innermost) :
      widths.levels.dropLast = Widths.levels widths.tail := by
    obtain ⟨inner, hwidths⟩ := Widths.eq_cons_of_lt_innermost hlt
    rw [hwidths, Widths.dropLast_levels, List.tail_cons]
  cases phase with
  | seek => rfl
  | compare width place =>
    rw [settleLevels, settle, Widths.getLast?_levels, Option.map_some]
    split_ifs with hopen hclose
    · rw [← Widths.levels_cons]
      rfl
    · rw [hpop hclose]
      rfl
    · rfl
  | close width place =>
    rw [settleLevels, settle, Widths.getLast?_levels, Option.map_some]
    split_ifs with hclose hreport
    · rw [hpop hclose]
      rfl
    · rfl
    · rfl
  | flush place =>
    cases widths with
    | nil => rfl
    | cons inner widths =>
      have hlength : 1 < (Widths.levels (inner :: widths)).length := by simp [Widths.levels]
      rw [settleLevels, if_pos hlength, Widths.dropLast_levels]
      rfl

end Layout

/-! ### Block tokens -/

def Entry.isToken (kind : TokenKind) : Entry → Bool
  | .token t => t.kind == kind
  | .error _ => false

/-- How many more blocks a stream opens than it closes. -/
def balance (entries : List Entry) : Int :=
  entries.countP (Entry.isToken .indentation) - entries.countP (Entry.isToken .deindentation)

@[simp]
theorem balance_nil : balance [] = 0 := rfl

theorem balance_append (first second : List Entry) :
    balance (first ++ second) = balance first + balance second := by
  unfold balance
  rw [List.countP_append, List.countP_append]
  push_cast
  omega

theorem balance_cons (entry : Entry) (entries : List Entry) :
    balance (entry :: entries) = balance [entry] + balance entries :=
  balance_append [entry] entries

theorem balance_indentation (place : Int) : balance [Layout.indentation place] = 1 := rfl

theorem balance_deindentation (place : Int) : balance [Layout.deindentation place] = -1 := rfl

theorem balance_inconsistentDedent (place : Int) :
    balance [Layout.inconsistentDedent place] = 0 := rfl

theorem Entry.balance_of_isRaw {entry : Entry} (h : entry.isRaw = true) : balance [entry] = 0 := by
  cases entry with
  | error error => rfl
  | token token =>
    obtain ⟨kind, span, value⟩ := token
    cases kind with
    | indentation => cases h
    | deindentation => cases h
    | _ => rfl

theorem Scanner.balance_of_next {distinguish : Bool} {scanner : Scanner} {entry : Entry}
    (h : (scanner.next distinguish).1 = .entry entry) : balance [entry] = 0 := by
  obtain ⟨lexeme, -, hspelled, -⟩ := spelled_of_next h
  exact Entry.balance_of_isRaw hspelled.isRaw

namespace Layout

variable {widths widths' : Widths} {phase phase' : Phase} {entry : Entry}

theorem ordered_settle (h : settle widths phase = some (entry, phase', widths'))
    (hordered : widths.Ordered) : widths'.Ordered := by
  obtain ⟨place, -, ⟨width, hlt, -, -, rfl⟩ | ⟨inner, rfl, -, -⟩ | ⟨-, -, rfl⟩⟩ := settle_cases h
  · exact hordered.cons hlt
  · exact hordered.tail
  · exact hordered

theorem depth_settle (h : settle widths phase = some (entry, phase', widths')) :
    (widths'.depth : Int) = widths.depth + balance [entry] := by
  obtain ⟨place, -, ⟨width, -, rfl, -, rfl⟩ | ⟨inner, rfl, rfl, -⟩ | ⟨rfl, -, rfl⟩⟩ :=
    settle_cases h
  · rw [balance_indentation]
    rfl
  · rw [balance_deindentation]
    simp [Widths.depth]
  · rw [balance_inconsistentDedent, add_zero]

end Layout

/-! ### Pulls -/

namespace Lexer.Pulls

variable {lexer lexer' : Lexer} {iterator iterator' : Iterator} {outcome : Outcome}

theorem ordered (h : lexer.Pulls iterator outcome iterator' lexer')
    (hordered : lexer.widths.Ordered) : lexer'.widths.Ordered := by
  induction h with
  | due hsettle => exact Layout.ordered_settle hsettle hordered
  | seekEnd _ _ _ _ ih => exact ih hordered
  | _ => exact hordered

theorem balance_eq (h : lexer.Pulls iterator outcome iterator' lexer') :
    (lexer'.widths.depth : Int) = lexer.widths.depth + balance outcome.yielded := by
  induction h with
  | due hsettle => exact Layout.depth_settle hsettle
  | @raw lexer entry hnext =>
    have hentry : balance (Outcome.entry entry).yielded = 0 := Scanner.balance_of_next hnext
    rw [hentry, add_zero]
    rfl
  | @seek lexer _ entry _ _ hnext =>
    have hentry : balance (Outcome.entry entry).yielded = 0 := Scanner.balance_of_next hnext
    rw [hentry, add_zero]
    rfl
  | seekEnd _ _ _ _ ih => exact ih
  | _ => exact (add_zero _).symm

/-- Where the stream of an iterator with layout ends, all blocks are closed. -/
theorem widths_eq_nil (h : lexer.Pulls iterator outcome iterator' lexer') {phase : Phase}
    (hiterator : iterator = .layout phase) (houtcome : outcome = .finished) :
    lexer'.widths = [] := by
  induction h generalizing phase with
  | closed hclosed => exact hclosed
  | seekEnd _ _ _ _ ih => exact ih rfl houtcome
  | _ => simp_all

theorem layout_of_entry (h : lexer.Pulls iterator outcome iterator' lexer') {phase : Phase}
    {entry : Entry} (hiterator : iterator = .layout phase) (houtcome : outcome = .entry entry) :
    ∃ phase', iterator' = .layout phase' := by
  induction h generalizing phase with
  | due => exact ⟨_, rfl⟩
  | seek => exact ⟨_, rfl⟩
  | seekEnd _ _ _ _ ih => exact ih rfl houtcome
  | _ => simp_all

end Lexer.Pulls

/-! ### Runs -/

/-- A run never closes more blocks than are open, and at its normal end none is. -/
theorem Lexer.balance_run (lexer : Lexer) (phase : Phase) :
    (∀ front, front <+: (lexer.run false (.layout phase)).entries →
      0 ≤ lexer.widths.depth + balance front) ∧
    ((lexer.run false (.layout phase)).ending = .finished →
      lexer.widths.depth + balance (lexer.run false (.layout phase)).entries = 0) := by
  have hempty (lexer : Lexer) (front : List Entry) (hfront : front <+: []) :
      0 ≤ lexer.widths.depth + balance front := by
    rw [List.prefix_nil.1 hfront, balance_nil]
    omega
  generalize hiterator : Iterator.layout phase = iterator
  induction lexer, iterator using pull_induction generalizing phase with
  | finished lexer iterator houtcome =>
    subst hiterator
    have hpulls := lexer.pulls_pull (.layout phase)
    have hbalance := hpulls.balance_eq
    have hclosed := hpulls.widths_eq_nil rfl houtcome
    rw [run_of_finished houtcome]
    rw [houtcome, hclosed] at hbalance
    exact ⟨hempty lexer, fun _ => hbalance.symm⟩
  | failed lexer iterator fault houtcome =>
    rw [run_of_failed houtcome]
    exact ⟨hempty lexer, nofun⟩
  | entry lexer iterator entry houtcome ih =>
    subst hiterator
    have hpulls := lexer.pulls_pull (.layout phase)
    have hbalance := hpulls.balance_eq
    obtain ⟨phase', hphase⟩ := hpulls.layout_of_entry rfl houtcome
    rw [houtcome] at hbalance
    rw [run_of_entry houtcome (.inl rfl)]
    obtain ⟨hfront, hend⟩ := ih phase' hphase.symm
    have hshift (others : List Entry) :
        (lexer.widths.depth : Int) + balance (entry :: others) =
          (lexer.pull (.layout phase)).lexer.widths.depth + balance others := by
      rw [balance_cons, hbalance]
      exact (add_assoc _ _ _).symm
    refine ⟨fun front hpre => ?_, fun hending => ?_⟩
    · obtain rfl | ⟨others, rfl, hothers⟩ := List.prefix_cons_iff.1 hpre
      · exact hempty lexer [] (List.prefix_refl [])
      · rw [hshift]
        exact hfront others hothers
    · exact (hshift _).trans (hend hending)

end Offside
