import Offside.Proofs.BlockBalance

/-!
# Sharing a lexer

Any number of iterators may pull from one lexer, in any order. `shared_lexer` says what holds after
every pull. Each pull keeps the invariant whatever the others have done to the lexer before, so an
iterator may be left at any place and taken up again.
-/

namespace Offside

/-- A lexer, the iterators that were made over it, and all that they have yielded, in the order of
the pulls. -/
structure Sharing where
  lexer : Lexer
  iterators : List Iterator := []
  yielded : List Entry := []

/-- Iterators are counted in the order in which they were made. -/
inductive Move where
  | tokens
  | raw
  | pull (number : Nat)
  deriving DecidableEq, Repr

namespace Sharing

variable {sharing : Sharing} {source : String} {number : Nat} {iterator : Iterator}

def pull (sharing : Sharing) (number : Nat) (iterator : Iterator) : Sharing :=
  { lexer := (sharing.lexer.pull iterator).lexer
    iterators := sharing.iterators.set number (sharing.lexer.pull iterator).iterator
    yielded := sharing.yielded ++ (sharing.lexer.pull iterator).outcome.yielded }

def step (sharing : Sharing) : Move → Sharing
  | .tokens => { sharing with iterators := sharing.iterators ++ [.tokens] }
  | .raw => { sharing with iterators := sharing.iterators ++ [.raw] }
  | .pull number =>
    match sharing.iterators[number]? with
    | some iterator => sharing.pull number iterator
    | none => sharing

def after (sharing : Sharing) (moves : List Move) : Sharing :=
  moves.foldl step sharing

theorem step_pull (h : sharing.iterators[number]? = some iterator) :
    sharing.step (.pull number) = sharing.pull number iterator := by
  rw [step, h]

theorem forall_after {P : Sharing → Prop}
    (hopen : ∀ {sharing : Sharing} {iterator : Iterator}, iterator = .raw ∨ iterator = .tokens →
      P sharing → P { sharing with iterators := sharing.iterators ++ [iterator] })
    (hpull : ∀ {sharing : Sharing} {number : Nat} {iterator : Iterator},
      sharing.iterators[number]? = some iterator → P sharing → P (sharing.pull number iterator))
    (h : P sharing) (moves : List Move) : P (sharing.after moves) := by
  induction moves generalizing sharing with
  | nil => exact h
  | cons move moves ih =>
    apply ih
    cases move with
    | tokens => exact hopen (.inr rfl) h
    | raw => exact hopen (.inl rfl) h
    | pull number =>
      cases hiterator : sharing.iterators[number]? with
      | none =>
        rw [step, hiterator]
        exact h
      | some iterator =>
        rw [step_pull hiterator]
        exact hpull hiterator h

/-! ### The invariant -/

structure Sound (source : String) (sharing : Sharing) : Prop where
  source_eq : sharing.lexer.source = source
  inside : sharing.lexer.scanner.Inside source.toList
  ordered : sharing.lexer.widths.Ordered
  balanced : balance sharing.yielded = sharing.lexer.widths.depth

theorem sound_ofSettings (settings : Settings) (source : String) (file : Option String) :
    Sound source { lexer := Lexer.ofSettings settings source file } :=
  ⟨rfl, Scanner.inside_ofSource source, Widths.ordered_nil, rfl⟩

theorem Sound.pull (h : sharing.Sound source) (number : Nat) (iterator : Iterator) :
    (sharing.pull number iterator).Sound source := by
  have hpulls := sharing.lexer.pulls_pull iterator
  refine ⟨?_, ?_, hpulls.ordered h.ordered, ?_⟩
  · exact hpulls.source_eq.trans h.source_eq
  · exact hpulls.inside h.inside
  · calc balance (sharing.pull number iterator).yielded
        = balance sharing.yielded +
            balance (sharing.lexer.pull iterator).outcome.yielded := balance_append _ _
      _ = sharing.lexer.widths.depth +
            balance (sharing.lexer.pull iterator).outcome.yielded := by rw [h.balanced]
      _ = (sharing.lexer.pull iterator).lexer.widths.depth := hpulls.balance_eq.symm

theorem Sound.after (h : sharing.Sound source) (moves : List Move) :
    (sharing.after moves).Sound source := by
  refine forall_after ?_ ?_ h moves
  · exact fun _ h => ⟨h.source_eq, h.inside, h.ordered, h.balanced⟩
  · exact fun _ h => h.pull _ _

theorem position_le_step (sharing : Sharing) (move : Move) :
    sharing.lexer.scanner.position ≤ (sharing.step move).lexer.scanner.position := by
  cases move with
  | tokens => exact le_rfl
  | raw => exact le_rfl
  | pull number =>
    cases hiterator : sharing.iterators[number]? with
    | none =>
      rw [step, hiterator]
    | some iterator =>
      rw [step_pull hiterator]
      exact (sharing.lexer.pulls_pull iterator).position_le

theorem depth_of_finished {phase : Phase}
    (hiterator : sharing.iterators[number]? = some (.layout phase))
    (hfinished : (sharing.lexer.pull (.layout phase)).outcome = .finished) :
    (sharing.step (.pull number)).lexer.widths.depth = 0 := by
  have hwidths := (sharing.lexer.pulls_pull (.layout phase)).widths_eq_nil rfl hfinished
  rw [step_pull hiterator]
  exact congrArg List.length hwidths

end Sharing

/-- **Sharing a lexer.** Whatever iterators are made over a lexer and whatever is pulled from them
in whatever order: the open widths begin with zero and increase, and wherever an iterator goes on it
takes no more off them than there is. The scanner stays in the source and does not go back, the
depth is the balance of all that was yielded, and it is zero when an iterator with layout comes to
its end. The stream of a single iterator never closes more blocks than it has opened and closes them
all by its end. -/
theorem shared_lexer (settings : Settings) (source : String) (file : Option String)
    (moves : List Move) :
    let lexer := Lexer.ofSettings settings source file
    let sharing := Sharing.after { lexer := lexer } moves
    sharing.lexer.widths.levels.head? = some 0 ∧
      sharing.lexer.widths.levels.Pairwise (· < ·) ∧
      (∀ phase, Layout.settleLevels sharing.lexer.widths.levels phase =
        some ((Layout.settle sharing.lexer.widths phase).map Layout.listed)) ∧
      sharing.lexer.scanner.position ≤ source.length ∧
      (∀ move, sharing.lexer.scanner.position ≤ (sharing.step move).lexer.scanner.position) ∧
      balance sharing.yielded = sharing.lexer.widths.depth ∧
      (∀ number phase, sharing.iterators[number]? = some (.layout phase) →
        (sharing.lexer.pull (.layout phase)).outcome = .finished →
          (sharing.step (.pull number)).lexer.widths.depth = 0) ∧
      (∀ front, front <+: (lexer.run false .tokens).entries → 0 ≤ balance front) ∧
      ((lexer.run false .tokens).ending = .finished →
        balance (lexer.run false .tokens).entries = 0) := by
  intro lexer sharing
  have hsound : sharing.Sound source := (Sharing.sound_ofSettings settings source file).after moves
  have hdepth : (lexer.widths.depth : Int) = 0 := rfl
  obtain ⟨hfront, hend⟩ := lexer.balance_run .seek
  simp only [hdepth, zero_add] at hfront hend
  refine ⟨rfl, hsound.ordered, ?_, ?_, sharing.position_le_step, hsound.balanced, ?_, hfront, hend⟩
  · exact Layout.settleLevels_levels sharing.lexer.widths
  · exact hsound.inside.position_le
  · intro number phase hiterator hfinished
    exact Sharing.depth_of_finished hiterator hfinished

/-- One iterator opens a block, another takes the line in it and reaches the end of the input, and
the first closes the block and comes to its end. -/
theorem shared_lexer_indented :
    let moves : List Move :=
      [.tokens, .raw, .pull 0, .pull 0, .pull 0, .pull 1, .pull 1, .pull 0]
    let sharing := Sharing.after { lexer := Lexer.ofSettings {} "a\n b" } moves
    sharing.iterators[0]? = some (.layout (.flush 4)) ∧
      (sharing.lexer.pull (.layout (.flush 4))).outcome = .finished ∧
      (sharing.step (.pull 0)).lexer.widths.depth = 0 := by
  intro moves sharing
  have hiterator : sharing.iterators[0]? = some (.layout (.flush 4)) := rfl
  have hfinished : (sharing.lexer.pull (.layout (.flush 4))).outcome = .finished := rfl
  obtain ⟨-, -, -, -, -, -, hdepth, -⟩ := shared_lexer {} "a\n b" none moves
  exact ⟨hiterator, hfinished, hdepth 0 _ hiterator hfinished⟩

end Offside
