import Mathlib
import Offside.Proofs.RawEntries

/-!
# Handing a lexer over

A stream may be pulled in pieces, each by an iterator of its own, when every piece but the first
begins with a raw entry. Before a raw entry nothing is due any more, whatever the phase is, so a
pull that yields one does what the first pull of a new iterator does: `pull_eq_pull_tokens`. The
iterator that is left behind then keeps nothing that the next one would miss.
-/

namespace Offside

/-- A piece of a stream that layout puts nothing in before. -/
def BeginsRaw (entries : List Entry) : Prop :=
  ∃ entry ∈ entries.head?, entry.isRaw = true

instance : DecidablePred BeginsRaw :=
  fun entries => inferInstanceAs (Decidable (∃ entry ∈ entries.head?, entry.isRaw = true))

theorem BeginsRaw.append {first : List Entry} (h : BeginsRaw first) (second : List Entry) :
    BeginsRaw (first ++ second) := by
  obtain ⟨entry, hentry, hraw⟩ := h
  refine ⟨entry, ?_, hraw⟩
  rw [List.head?_append, Option.mem_def.1 hentry]
  rfl

theorem beginsRaw_flatten_append {pieces : List (List Entry)} {rest : List Entry}
    (hpieces : ∀ piece ∈ pieces, BeginsRaw piece) (hrest : BeginsRaw rest) :
    BeginsRaw (pieces.flatten ++ rest) := by
  cases pieces with
  | nil => exact hrest
  | cons piece pieces =>
    rw [List.flatten_cons, List.append_assoc]
    exact (hpieces piece List.mem_cons_self).append _

namespace Lexer

variable {lexer : Lexer} {iterator : Iterator} {phase : Phase} {entry : Entry}
  {others : List Entry}

theorem pull_of_run (h : (lexer.run false iterator).entries = entry :: others) :
    (lexer.pull iterator).outcome = .entry entry ∧
      ((lexer.pull iterator).lexer.run false (lexer.pull iterator).iterator).entries = others ∧
      ((lexer.pull iterator).lexer.run false (lexer.pull iterator).iterator).ending =
        (lexer.run false iterator).ending := by
  cases houtcome : (lexer.pull iterator).outcome with
  | finished =>
    rw [run_of_finished houtcome] at h
    cases h
  | failed fault =>
    rw [run_of_failed houtcome] at h
    cases h
  | entry found =>
    rw [run_of_entry houtcome (.inl rfl)] at h ⊢
    obtain ⟨rfl, hothers⟩ := List.cons.inj h
    exact ⟨rfl, hothers, rfl⟩

/-- An iterator from which a raw entry is pulled might as well be a new one. -/
theorem pull_eq_pull_tokens (h : (lexer.pull (.layout phase)).outcome = .entry entry)
    (hraw : entry.isRaw = true) : lexer.pull (.layout phase) = lexer.pull .tokens := by
  cases hsettle : Layout.settle lexer.widths phase with
  | some due =>
    obtain ⟨found, phase', widths⟩ := due
    rw [pull_of_settle hsettle] at h
    obtain rfl : found = entry := Outcome.entry.inj h
    have hnone := Layout.rawEntries_settle hsettle
    rw [rawEntries_singleton_of_isRaw hraw] at hnone
    cases hnone
  | none =>
    refine pull_of_settle_none hsettle ?_
    rintro ⟨place, rfl⟩
    rw [pull_of_flush (by simp [pullDue?, hsettle])] at h
    cases h

theorem run_eq_run_tokens (h : BeginsRaw (lexer.run false (.layout phase)).entries) :
    lexer.run false (.layout phase) = lexer.run false .tokens := by
  obtain ⟨entry, hentry, hraw⟩ := h
  obtain ⟨others, hothers⟩ := List.head?_eq_some_iff.1 hentry
  exact run_congr (pull_eq_pull_tokens (pull_of_run hothers).1 hraw)

end Lexer

namespace Sharing

variable {sharing : Sharing} {number : Nat} {iterator : Iterator} {phase : Phase}
  {past piece rest : List Entry} {ending : Ending}

/-- Makes a new iterator with layout and pulls from it so many times. -/
def handOver (sharing : Sharing) (count : Nat) : Sharing :=
  (sharing.step .tokens).after (List.replicate count (.pull sharing.iterators.length))

/-- What was yielded so far, and what an iterator is still to yield when nothing else is pulled. -/
structure Stands (iterator : Iterator) (past rest : List Entry) (ending : Ending)
    (sharing : Sharing) : Prop where
  yielded_eq : sharing.yielded = past
  entries_eq : (sharing.lexer.run false iterator).entries = rest
  ending_eq : (sharing.lexer.run false iterator).ending = ending

/-- **Pulling a piece.** It is taken from the front of what the iterator is still to yield. -/
theorem Stands.after_pulls (h : sharing.Stands (.layout phase) past (piece ++ rest) ending)
    (hiterator : sharing.iterators[number]? = some (.layout phase)) :
    ∃ phase', (sharing.after (List.replicate piece.length (.pull number))).Stands
      (.layout phase') (past ++ piece) rest ending := by
  induction piece generalizing sharing phase past with
  | nil =>
    rw [List.append_nil]
    exact ⟨phase, h⟩
  | cons entry piece ih =>
    obtain ⟨houtcome, hentries, hending⟩ := Lexer.pull_of_run h.entries_eq
    obtain ⟨phase', hphase⟩ :=
      (sharing.lexer.pulls_pull (.layout phase)).layout_of_entry rfl houtcome
    have hnext : (sharing.pull number (.layout phase)).Stands (.layout phase') (past ++ [entry])
        (piece ++ rest) ending := by
      rw [hphase] at hentries hending
      refine ⟨?_, hentries, hending.trans h.ending_eq⟩
      rw [pull, houtcome, h.yielded_eq]
      rfl
    have hnumber : number < sharing.iterators.length := (List.getElem?_eq_some_iff.1 hiterator).1
    obtain ⟨phase'', hstands⟩ := ih hnext (by rw [pull, List.getElem?_set_self hnumber, hphase])
    refine ⟨phase'', ?_⟩
    rw [List.append_cons, List.length_cons, List.replicate_succ, after, List.foldl_cons,
      step_pull hiterator]
    exact hstands

/-- **Handing over once.** A new iterator takes the piece, and yet another one is to yield all of
the rest when that begins with a raw entry. -/
theorem Stands.handOver (h : sharing.Stands .tokens past (piece ++ rest) ending)
    (hrest : BeginsRaw rest) :
    (sharing.handOver piece.length).Stands .tokens (past ++ piece) rest ending := by
  have hnew : (sharing.step .tokens).Stands .tokens past (piece ++ rest) ending :=
    ⟨h.yielded_eq, h.entries_eq, h.ending_eq⟩
  obtain ⟨phase, hyielded, hentries, hending⟩ := hnew.after_pulls List.getElem?_concat_length
  have hfresh := Lexer.run_eq_run_tokens (hentries.symm ▸ hrest)
  rw [hfresh] at hentries hending
  exact ⟨hyielded, hentries, hending⟩

theorem Stands.foldl_handOver {pieces : List (List Entry)}
    (h : sharing.Stands .tokens past (pieces.flatten ++ rest) ending)
    (hpieces : ∀ piece ∈ pieces.tail, BeginsRaw piece) (hrest : pieces ≠ [] → BeginsRaw rest) :
    ((pieces.map List.length).foldl Sharing.handOver sharing).Stands .tokens
      (past ++ pieces.flatten) rest ending := by
  induction pieces generalizing sharing past with
  | nil =>
    rw [List.flatten_nil, List.append_nil]
    exact h
  | cons piece pieces ih =>
    have hlast := hrest (List.cons_ne_nil _ _)
    rw [List.flatten_cons, List.append_assoc] at h
    rw [List.flatten_cons, ← List.append_assoc]
    exact ih (h.handOver (beginsRaw_flatten_append hpieces hlast))
      (fun next hnext => hpieces next (List.mem_of_mem_tail hnext)) fun _ => hlast

end Sharing

/-- **Handing a lexer over.** Let a permissive stream be cut into pieces that all begin with a raw
entry, the first one aside. Iterators are made one after another over one lexer, and each is left
when it has yielded as many entries as its piece has. Then they have yielded the pieces, and the
last iterator yields the last piece and comes to its end. -/
theorem handing_over {settings : Settings} (hpermissive : settings.isStrict = false)
    {source : String} {file : Option String} {front : List (List Entry)} {last : List Entry}
    (h : lex settings source file = .ok (front.flatten ++ last))
    (hcuts : ∀ piece ∈ (front ++ [last]).tail, BeginsRaw piece) :
    let shared (pieces : List (List Entry)) : Sharing :=
      (pieces.map List.length).foldl Sharing.handOver
        { lexer := Lexer.ofSettings settings source file }
    (∀ pieces, pieces <+: front → (shared pieces).yielded = pieces.flatten) ∧
      ((shared front).lexer.run false .tokens).entries = last ∧
      ((shared front).lexer.run false .tokens).ending = .finished := by
  intro shared
  obtain ⟨hentries, hending⟩ := run_of_lex hpermissive h
  have hstands (pieces others : List (List Entry)) (hfront : front = pieces ++ others) :
      (shared pieces).Stands .tokens pieces.flatten (others.flatten ++ last) .finished := by
    subst hfront
    rw [List.flatten_append, List.append_assoc] at hentries
    have hstart : Sharing.Stands .tokens [] (pieces.flatten ++ (others.flatten ++ last)) .finished
        { lexer := Lexer.ofSettings settings source file } := ⟨rfl, hentries, hending⟩
    cases pieces with
    | nil => exact hstart
    | cons piece pieces =>
      have hcuts' : ∀ piece ∈ pieces ++ (others ++ [last]), BeginsRaw piece := by
        simpa only [List.cons_append, List.tail_cons, List.append_assoc] using hcuts
      rw [List.forall_mem_append, List.forall_mem_append, List.forall_mem_singleton] at hcuts'
      obtain ⟨hpieces, hothers, hlast⟩ := hcuts'
      exact hstart.foldl_handOver hpieces fun _ => beginsRaw_flatten_append hothers hlast
  obtain ⟨-, hlast, hfinished⟩ := hstands front [] (List.append_nil front).symm
  refine ⟨?_, hlast, hfinished⟩
  rintro pieces ⟨others, hfront⟩
  exact (hstands pieces others hfront.symm).yielded_eq

/-- Iterators are left inside two blocks, and one behind a dedent that fits neither of them. -/
theorem handing_over_nested :
    let source := "a\n b\n   c\n  d"
    let front : List (List Entry) :=
      [[.token ⟨.identifier, ⟨0, 1⟩, .text "a"⟩, .token ⟨.newline, ⟨1, 3⟩, .text "\n "⟩,
          Layout.indentation 3],
        [.token ⟨.identifier, ⟨3, 4⟩, .text "b"⟩, .token ⟨.newline, ⟨4, 8⟩, .text "\n   "⟩,
          Layout.indentation 8],
        [.token ⟨.identifier, ⟨8, 9⟩, .text "c"⟩],
        [.token ⟨.newline, ⟨9, 12⟩, .text "\n  "⟩, Layout.deindentation 12,
          Layout.inconsistentDedent 12]]
    let last : List Entry :=
      [.token ⟨.identifier, ⟨12, 13⟩, .text "d"⟩, Layout.deindentation 13]
    let handed :=
      [3, 3, 1, 3].foldl Sharing.handOver { lexer := Lexer.ofSettings {} source (some "a") }
    Settings.isStrict {} = false ∧
      lex {} source (some "a") = .ok (front.flatten ++ last) ∧
      (∀ piece ∈ (front ++ [last]).tail, BeginsRaw piece) ∧
      handed.yielded = front.flatten ∧ (handed.lexer.run false .tokens).entries = last := by
  intro source front last handed
  have hpermissive : Settings.isStrict {} = false := rfl
  have hlex : lex {} source (some "a") = .ok (front.flatten ++ last) := by cbv
  have hcuts : ∀ piece ∈ (front ++ [last]).tail, BeginsRaw piece := by decide
  obtain ⟨hfront, hlast, -⟩ := handing_over hpermissive hlex hcuts
  exact ⟨hpermissive, hlex, hcuts, hfront front List.prefix_rfl, hlast⟩

end Offside
