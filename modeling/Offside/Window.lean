/-!
# Windows of a sequence

The part of a sequence between two bounds. A negative bound counts from the end; a bound that lies
outside then moves to the nearer end.
-/

namespace Offside

/-- Where a bound falls in a sequence of `length` elements. -/
def bound (length : Nat) (i : Int) : Nat :=
  if i < 0 then (length + i).toNat else min i.toNat length

theorem bound_of_le {length i : Nat} (h : i ≤ length) : bound length i = i := by
  rw [bound, if_neg (by omega)]
  omega

def window {α : Type} (start stop : Int) (elements : List α) : List α :=
  (elements.take (bound elements.length stop)).drop (bound elements.length start)

theorem window_of_le {α : Type} {start stop : Nat} {elements : List α}
    (hle : start ≤ stop) (hstop : stop ≤ elements.length) :
    window start stop elements = (elements.take stop).drop start := by
  rw [window, bound_of_le hstop, bound_of_le (Nat.le_trans hle hstop)]

end Offside
