import Offside.Json
import Offside.Json.Complaint
import Offside.Text.Hex

/-!
# Reading the strings of JSON

A string is read from behind its opening quote. `readString_length`: the rest is shorter than the
text.
-/

namespace Offside.Json

/-- Why a string cannot be read: it is not closed, or there is a complaint with so many characters
left. -/
inductive StringFault where
  | unclosed
  | complaint (complaint : Complaint) (left : Nat)
  deriving DecidableEq, Repr

/-- A string that is not closed is complained of at its opening quote. -/
def StringFault.stop (opening : Nat) : StringFault → Stop
  | unclosed => .complaint .openString opening
  | complaint what left => .complaint what left

def replacement : Char := '\uFFFD'

def isHighUnit (n : Nat) : Bool :=
  0xD800 ≤ n && n < 0xDC00

def isLowUnit (n : Nat) : Bool :=
  0xDC00 ≤ n && n < 0xE000

/-- A surrogate that stands alone is no character. -/
def unitChar (n : Nat) : Char :=
  if isHighUnit n || isLowUnit n then replacement else Char.ofNat n

def pairChar (high low : Nat) : Char :=
  Char.ofNat (0x10000 + (high - 0xD800) * 0x400 + (low - 0xDC00))

/-- Four hexadecimal digits, with something after them. -/
def readUnit? : List Char → Option (Nat × List Char)
  | a :: b :: c :: d :: next :: rest =>
    (Text.hexNumber? [a, b, c, d]).map fun n => (n, next :: rest)
  | _ => none

def readCodeUnit (text : List Char) : Except StringFault (Char × List Char) :=
  match readUnit? text with
  | none => .error (.complaint .badCodeUnit (text.length + 1))
  | some (high, rest) =>
    match isHighUnit high, rest with
    | true, '\\' :: 'u' :: second =>
      match readUnit? second with
      | none => .error (.complaint .badCodeUnit (second.length + 1))
      | some (low, after) =>
        if isLowUnit low then .ok (pairChar high low, after) else .ok (unitChar high, rest)
    | _, _ => .ok (unitChar high, rest)

def simpleEscape? (c : Char) : Option Char :=
  if c = '"' ∨ c = '\\' ∨ c = '/' then some c
  else if c = 'b' then some '\x08'
  else if c = 'f' then some '\x0C'
  else if c = 'n' then some '\n'
  else if c = 'r' then some '\r'
  else if c = 't' then some '\t'
  else none

def readEscape : List Char → Except StringFault (Char × List Char)
  | [] => .error .unclosed
  | c :: rest =>
    if c = 'u' then readCodeUnit rest
    else match simpleEscape? c with
      | some d => .ok (d, rest)
      | none => .error (.complaint .badEscape (rest.length + 2))

theorem readUnit?_length {text rest : List Char} {n : Nat}
    (h : readUnit? text = some (n, rest)) : rest.length < text.length := by
  unfold readUnit? at h
  split at h
  · simp only [Option.map_eq_some_iff, Prod.mk.injEq] at h
    obtain ⟨_, _, _, rfl⟩ := h
    simp
  · simp at h

theorem readCodeUnit_length {text rest : List Char} {c : Char}
    (h : readCodeUnit text = .ok (c, rest)) : rest.length < text.length := by
  unfold readCodeUnit at h
  split at h
  · simp at h
  · rename_i first
    have hfirst := readUnit?_length first
    split at h
    · split at h
      · simp at h
      · rename_i second
        have hsecond := readUnit?_length second
        simp only [List.length_cons] at hfirst
        split at h <;> simp only [Except.ok.injEq, Prod.mk.injEq] at h <;> obtain ⟨-, rfl⟩ := h
        · omega
        · simp only [List.length_cons]
          omega
    · simp only [Except.ok.injEq, Prod.mk.injEq] at h
      obtain ⟨-, rfl⟩ := h
      exact hfirst

theorem readEscape_length {text rest : List Char} {c : Char}
    (h : readEscape text = .ok (c, rest)) : rest.length < text.length := by
  unfold readEscape at h
  split at h
  · simp at h
  · split at h
    · have := readCodeUnit_length h
      simp only [List.length_cons]
      omega
    · split at h
      · simp only [Except.ok.injEq, Prod.mk.injEq] at h
        obtain ⟨-, rfl⟩ := h
        simp
      · simp at h

def readString : List Char → Except StringFault (List Char × List Char)
  | [] => .error .unclosed
  | c :: rest =>
    if c = '"' then .ok ([], rest)
    else if c = '\\' then
      match _h : readEscape rest with
      | .error fault => .error fault
      | .ok (d, after) => (readString after).map fun (text, left) => (d :: text, left)
    else if c.toNat < 0x20 then .error (.complaint .controlCharacter (rest.length + 1))
    else (readString rest).map fun (text, left) => (c :: text, left)
  termination_by text => text.length
  decreasing_by
    · have := readEscape_length _h
      simp only [List.length_cons]
      omega
    · simp

theorem readString_length {text string rest : List Char}
    (h : readString text = .ok (string, rest)) : rest.length < text.length := by
  induction hlen : text.length using Nat.strongRecOn generalizing text string with
  | ind n ih =>
    subst hlen
    unfold readString at h
    split at h
    · simp at h
    · split at h
      · simp only [Except.ok.injEq, Prod.mk.injEq] at h
        obtain ⟨-, rfl⟩ := h
        simp
      · split at h
        · split at h
          · simp at h
          · rename_i after hescape
            have hshort := readEscape_length hescape
            cases hread : readString after with
            | error => simp [hread, Except.map] at h
            | ok found =>
              obtain ⟨inner, left⟩ := found
              simp only [hread, Except.map, Except.ok.injEq, Prod.mk.injEq] at h
              obtain ⟨-, rfl⟩ := h
              have := ih after.length (by simp only [List.length_cons]; omega) hread rfl
              simp only [List.length_cons]
              omega
        · split at h
          · simp at h
          · rename_i tail _ _ _
            cases hread : readString tail with
            | error => simp [hread, Except.map] at h
            | ok found =>
              obtain ⟨inner, left⟩ := found
              simp only [hread, Except.map, Except.ok.injEq, Prod.mk.injEq] at h
              obtain ⟨-, rfl⟩ := h
              have := ih tail.length (by simp) hread rfl
              simp only [List.length_cons]
              omega

end Offside.Json
