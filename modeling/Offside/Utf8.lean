import Offside.Text.Hex

/-!
# UTF-8

A text as bytes, and bytes as a text. `decode` refuses bytes that encode no text and says what is
wrong with them; `decodeLossy` reads on, with one replacement character for each part it cannot
read.
-/

namespace Offside.Utf8

def encode (text : List Char) : List UInt8 :=
  text.flatMap String.utf8EncodeChar

def size (text : List Char) : Nat :=
  text.foldr (fun c size => c.utf8Size + size) 0

@[simp]
theorem encode_nil : encode [] = [] := rfl

@[simp]
theorem encode_cons (c : Char) (text : List Char) :
    encode (c :: text) = String.utf8EncodeChar c ++ encode text := by
  simp [encode]

@[simp]
theorem encode_append (first second : List Char) :
    encode (first ++ second) = encode first ++ encode second := by
  simp [encode]

@[simp]
theorem size_nil : size [] = 0 := rfl

@[simp]
theorem size_cons (c : Char) (text : List Char) : size (c :: text) = c.utf8Size + size text := rfl

@[simp]
theorem size_append (first second : List Char) :
    size (first ++ second) = size first + size second := by
  induction first with
  | nil => simp
  | cons c first ih => simp [ih, Nat.add_assoc]

theorem size_pos {text : List Char} (h : text ≠ []) : 0 < size text := by
  cases text with
  | nil => exact absurd rfl h
  | cons c text => exact Nat.lt_of_lt_of_le c.utf8Size_pos (Nat.le_add_right _ _)

theorem length_encode (text : List Char) : (encode text).length = size text := by
  induction text with
  | nil => rfl
  | cons c text ih => simp [ih]

def IsAscii (text : List Char) : Prop :=
  ∀ c ∈ text, c.toNat < 0x80

instance (text : List Char) : Decidable (IsAscii text) :=
  inferInstanceAs (Decidable (∀ c ∈ text, c.toNat < 0x80))

/-- How many bytes stand in front of each character of a text and behind the last one, of which
`total` stand in front of the text. -/
def offsets (total : Nat) : List Char → List Nat
  | [] => [total]
  | c :: text => total :: offsets (total + (String.utf8EncodeChar c).length) text

inductive Reason where
  | badStart
  | badContinuation
  | truncated
  deriving DecidableEq, Repr

def Reason.message : Reason → String
  | badStart => "invalid start byte"
  | badContinuation => "invalid continuation byte"
  | truncated => "unexpected end of data"

/-- What stands at the front of some bytes: a character or a part that is none, with the number of
bytes that it takes up. -/
inductive Front where
  | char (c : Char) (width : Nat)
  | flaw (reason : Reason) (width : Nat)
  deriving DecidableEq, Repr

/-- What a leading byte announces: how many bytes follow, between which bounds the first of them
lies, and the leading bits of the code point. -/
structure Lead where
  following : Nat
  low : Nat
  high : Nat
  bits : Nat
  deriving DecidableEq, Repr

/-- The bounds leave out the longer spellings of a code point, surrogates, and all that lies above
the last code point. -/
def lead? (byte : Nat) : Option Lead :=
  if byte < 0x80 then some ⟨0, 0, 0, byte⟩
  else if byte < 0xC2 then none
  else if byte < 0xE0 then some ⟨1, 0x80, 0xBF, byte - 0xC0⟩
  else if byte = 0xE0 then some ⟨2, 0xA0, 0xBF, 0⟩
  else if byte = 0xED then some ⟨2, 0x80, 0x9F, 0xD⟩
  else if byte < 0xF0 then some ⟨2, 0x80, 0xBF, byte - 0xE0⟩
  else if byte = 0xF0 then some ⟨3, 0x90, 0xBF, 0⟩
  else if byte < 0xF4 then some ⟨3, 0x80, 0xBF, byte - 0xF0⟩
  else if byte = 0xF4 then some ⟨3, 0x80, 0x8F, 4⟩
  else none

/-- Reads the bytes that are still to follow, the first of them between `low` and `high`. A flaw
takes up what was read before it. -/
def follow (low high bits width : Nat) : Nat → List UInt8 → Front
  | 0, _ => .char (Char.ofNat bits) width
  | _ + 1, [] => .flaw .truncated width
  | following + 1, byte :: rest =>
    if low ≤ byte.toNat ∧ byte.toNat ≤ high then
      follow 0x80 0xBF (bits * 64 + (byte.toNat - 0x80)) (width + 1) following rest
    else
      .flaw .badContinuation width

def front (byte : UInt8) (rest : List UInt8) : Front :=
  match lead? byte.toNat with
  | none => .flaw .badStart 1
  | some lead => follow lead.low lead.high lead.bits 1 lead.following rest

/-- The first part of some bytes that is no character. -/
structure Flaw where
  reason : Reason
  position : Nat
  width : Nat
  byte : UInt8
  deriving DecidableEq, Repr

def Flaw.message (flaw : Flaw) : String :=
  let place :=
    if flaw.width = 1 then
      "byte 0x" ++ String.ofList (Text.hexDigits 2 flaw.byte.toNat) ++ " in position " ++
        toString flaw.position
    else
      "bytes in position " ++ toString flaw.position ++ "-" ++
        toString (flaw.position + flaw.width - 1)
  "'utf-8' codec can't decode " ++ place ++ ": " ++ flaw.reason.message

def decodeFrom (position : Nat) : List UInt8 → Except Flaw (List Char)
  | [] => .ok []
  | byte :: rest =>
    match front byte rest with
    | .char c width =>
      (decodeFrom (position + width) (rest.drop (width - 1))).map (c :: ·)
    | .flaw reason width => .error ⟨reason, position, width, byte⟩
  termination_by bytes => bytes.length
  decreasing_by
    simp only [List.length_drop, List.length_cons]
    omega

def decode (bytes : List UInt8) : Except Flaw (List Char) :=
  decodeFrom 0 bytes

def replacement : Char := '\uFFFD'

def decodeLossy : List UInt8 → List Char
  | [] => []
  | byte :: rest =>
    match front byte rest with
    | .char c width => c :: decodeLossy (rest.drop (width - 1))
    | .flaw _ width => replacement :: decodeLossy (rest.drop (width - 1))
  termination_by bytes => bytes.length
  decreasing_by
    all_goals
      simp only [List.length_drop, List.length_cons]
      omega

end Offside.Utf8
