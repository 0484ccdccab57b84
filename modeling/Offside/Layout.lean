import Offside.Entry
import Offside.Line

/-!
# Layout

Blocks are told by the widths of their lines. After each newline the width of the line to come is
compared with the innermost open block: a greater width opens a block, a smaller one closes blocks,
and at the end of the input all blocks are closed. The work after one newline is cut into steps that
each yield one entry, so that it can be left and taken up again.
-/

namespace Offside

/-- The widths of the open blocks, innermost first. The outermost block, of width zero, is always
open and is not listed. -/
abbrev Widths := List Nat

namespace Widths

def innermost (widths : Widths) : Nat :=
  widths.headD 0

/-- All open widths, outermost first. -/
def levels (widths : Widths) : List Nat :=
  0 :: widths.reverse

def depth (widths : Widths) : Nat :=
  widths.length

theorem eq_cons_of_lt_innermost {widths : Widths} {width : Nat} (h : width < widths.innermost) :
    ∃ inner, widths = inner :: widths.tail := by
  cases widths with
  | nil => exact absurd h (Nat.not_lt_zero width)
  | cons inner widths => exact ⟨inner, rfl⟩

theorem length_of_lt_innermost {widths : Widths} {width : Nat} (h : width < widths.innermost) :
    widths.length = widths.tail.length + 1 := by
  obtain ⟨inner, hwidths⟩ := eq_cons_of_lt_innermost h
  rw [hwidths, List.tail_cons, List.length_cons]

end Widths

/-- Where the layout of a stream stands: at the next raw entry, behind a newline whose line has not
been compared yet or for which blocks are being closed, or at the end of the input, where all blocks
are closed. A width goes with the place of the entries that it gives rise to. -/
inductive Phase where
  | seek
  | compare (width : Nat) (place : Int)
  | close (width : Nat) (place : Int)
  | flush (place : Int)
  deriving DecidableEq, Repr

namespace Layout

def indentation (place : Int) : Entry :=
  .token { kind := .indentation, span := .point place }

def deindentation (place : Int) : Entry :=
  .token { kind := .deindentation, span := .point place }

def inconsistentDedent (place : Int) : Entry :=
  .error { kind := .inconsistentDedent, span := .point place }

/-- The width of the line behind a newline, in characters. -/
def lineWidth? (newline : Payload) : Except Text.Unwritable Nat :=
  newline.render.map fun text => (lastLine '\n' text.toList).length

/-- The width behind a newline that can be written out, as those of a scanner can. -/
def lineWidth (newline : Payload) : Nat :=
  (lineWidth? newline).toOption.getD 0

theorem lineWidth_text (text : String) :
    lineWidth (.text text) = (lastLine '\n' text.toList).length := rfl

def after : Entry → Phase
  | .token ⟨.newline, span, value⟩ => .compare (lineWidth value) span.stop
  | _ => .seek

/-- The phase behind any entry. There is none behind a newline that cannot be written out. -/
def after? : Entry → Except Text.Unwritable Phase
  | .token ⟨.newline, span, value⟩ => (lineWidth? value).map fun width => .compare width span.stop
  | _ => .ok .seek

/-- The entry that is due in a phase, if any, with the phase and the open blocks behind it. -/
def settle (widths : Widths) : Phase → Option (Entry × Phase × Widths)
  | .seek => none
  | .compare width place =>
    if widths.innermost < width then some (indentation place, .seek, width :: widths)
    else if width < widths.innermost then
      some (deindentation place, .close width place, widths.tail)
    else none
  | .close width place =>
    if width < widths.innermost then some (deindentation place, .close width place, widths.tail)
    else if widths.innermost < width then some (inconsistentDedent place, .seek, widths)
    else none
  | .flush place =>
    if widths.isEmpty then none else some (deindentation place, .flush place, widths.tail)

/-- A bound on the number of entries that are due in a phase, the open blocks left aside. -/
def pending : Phase → Nat
  | .compare .. => 2
  | .close .. => 1
  | _ => 0

theorem settle_lt {widths widths' : Widths} {phase phase' : Phase} {entry : Entry}
    (h : settle widths phase = some (entry, phase', widths')) :
    pending phase' + widths'.length < pending phase + widths.length := by
  unfold settle at h
  repeat' split at h
  all_goals simp only [Option.some.injEq, Prod.mk.injEq, reduceCtorEq] at h
  all_goals obtain ⟨-, rfl, rfl⟩ := h
  all_goals simp only [pending, List.length_cons, List.length_tail]
  · omega
  · have := Widths.length_of_lt_innermost ‹_›
    omega
  · have := Widths.length_of_lt_innermost ‹_›
    omega
  · omega
  · have : 0 < widths.length := by
      cases widths <;> simp_all
    omega

/-- All entries that are due from a phase on, each with the blocks open behind it, and the blocks
that are open in the end. -/
def settleAll (widths : Widths) (phase : Phase) : List (Entry × Widths) × Widths :=
  match _h : settle widths phase with
  | none => ([], widths)
  | some (entry, phase', widths') =>
    let (entries, final) := settleAll widths' phase'
    ((entry, widths') :: entries, final)
  termination_by pending phase + widths.length
  decreasing_by exact settle_lt _h

/-- The layout of a list of raw entries that ends at `place`, begun with the given blocks open. -/
def arrange (place : Int) (widths : Widths) : List Entry → List (Entry × Widths) × Widths
  | [] => settleAll widths (.flush place)
  | entry :: entries =>
    let (due, widths') := settleAll widths (after entry)
    let (others, final) := arrange place widths' entries
    ((entry, widths) :: due ++ others, final)

/-- What comes of laying out entries from elsewhere: the entries up to the end or to a fault, each
with the blocks open behind it, and the blocks that are open then. -/
structure Applied where
  entries : List (Entry × Widths)
  widths : Widths
  fault : Option Text.Unwritable := none
  deriving DecidableEq, Repr

def Applied.behind (due : List (Entry × Widths)) (applied : Applied) : Applied :=
  { applied with entries := due ++ applied.entries }

/-- The layout of any entries, which need not come from a scanner. -/
def apply (place : Int) (widths : Widths) : List Entry → Applied
  | [] =>
    let (due, final) := settleAll widths (.flush place)
    { entries := due, widths := final }
  | entry :: entries =>
    match after? entry with
    | .error fault => { entries := [(entry, widths)], widths := widths, fault := some fault }
    | .ok phase =>
      let (due, widths') := settleAll widths phase
      (apply place widths' entries).behind ((entry, widths) :: due)

end Layout

end Offside
