import Offside.Json.StringReader

/-!
# Reading JSON

The reader keeps a stack of the lists and objects that are still open and looks at the rest of the
text. Each step takes at least one character. The place of a complaint is turned into a line and a
column at the end.
-/

namespace Offside.Json

def isSpace (c : Char) : Bool :=
  c == ' ' || c == '\t' || c == '\n' || c == '\r'

def skipSpace (text : List Char) : List Char :=
  text.dropWhile isSpace

theorem length_skipSpace_le (text : List Char) : (skipSpace text).length ≤ text.length :=
  (List.dropWhile_sublist isSpace).length_le

/-! ### Numbers -/

def isNonzeroDigit (c : Char) : Bool :=
  '1' ≤ c && c ≤ '9'

/-- The digits before a fraction: one zero, or any number of digits that begin with no zero. -/
def wholePart? : List Char → Option (List Char × List Char)
  | [] => none
  | c :: rest =>
    if isNonzeroDigit c then some (c :: rest.takeWhile Text.isDigit, rest.dropWhile Text.isDigit)
    else if c = '0' then some ([c], rest)
    else none

/-- A point and at least one digit, or nothing. -/
def fraction : List Char → List Char × List Char
  | '.' :: rest =>
    if (rest.takeWhile Text.isDigit).isEmpty then ([], '.' :: rest)
    else ('.' :: rest.takeWhile Text.isDigit, rest.dropWhile Text.isDigit)
  | text => ([], text)

def exponentSign : List Char → List Char × List Char
  | c :: rest => if c = '+' ∨ c = '-' then ([c], rest) else ([], c :: rest)
  | [] => ([], [])

/-- A letter, perhaps a sign, and at least one digit, or nothing. -/
def exponent : List Char → List Char × List Char
  | [] => ([], [])
  | c :: rest =>
    let signed := exponentSign rest
    if (c = 'e' ∨ c = 'E') ∧ ¬(signed.2.takeWhile Text.isDigit).isEmpty then
      (c :: signed.1 ++ signed.2.takeWhile Text.isDigit, signed.2.dropWhile Text.isDigit)
    else ([], c :: rest)

/-- A number without its sign. -/
def readMagnitude? (negative : Bool) (text : List Char) :
    Option (Except Text.TooManyDigits Json × List Char) :=
  (wholePart? text).map fun (whole, rest) =>
    let (part, rest) := fraction rest
    let (power, rest) := exponent rest
    let value :=
      if part.isEmpty && power.isEmpty then
        (Text.number? whole).map fun n => int (if negative then -n else n)
      else
        .ok (real (String.ofList ((if negative then ['-'] else []) ++ whole ++ part ++ power)))
    (value, rest)

def readNumber? : List Char → Option (Except Text.TooManyDigits Json × List Char)
  | '-' :: rest => readMagnitude? true rest
  | text => readMagnitude? false text

theorem wholePart?_length {text whole rest : List Char}
    (h : wholePart? text = some (whole, rest)) : rest.length < text.length := by
  unfold wholePart? at h
  split at h
  · simp at h
  · rename_i c tail
    have hdrop := (List.dropWhile_sublist Text.isDigit (l := tail)).length_le
    split at h
    · simp only [Option.some.injEq, Prod.mk.injEq] at h
      obtain ⟨-, rfl⟩ := h
      simp only [List.length_cons]
      omega
    · split at h <;> simp at h
      obtain ⟨-, rfl⟩ := h
      simp

theorem fraction_length (text : List Char) : (fraction text).2.length ≤ text.length := by
  unfold fraction
  split
  · rename_i tail
    have hdrop := (List.dropWhile_sublist Text.isDigit (l := tail)).length_le
    split
    · simp
    · simp only [List.length_cons]
      omega
  · simp

theorem exponentSign_length (text : List Char) : (exponentSign text).2.length ≤ text.length := by
  unfold exponentSign
  split
  · split <;> simp
  · simp

theorem exponent_length (text : List Char) : (exponent text).2.length ≤ text.length := by
  unfold exponent
  split
  · simp
  · rename_i c rest
    have hdrop :=
      (List.dropWhile_sublist Text.isDigit (l := (exponentSign rest).2)).length_le
    have hsign := exponentSign_length rest
    dsimp only
    split <;> simp only [List.length_cons] <;> omega

theorem readMagnitude?_length {negative : Bool} {text rest : List Char}
    {value : Except Text.TooManyDigits Json}
    (h : readMagnitude? negative text = some (value, rest)) :
    rest.length < text.length := by
  unfold readMagnitude? at h
  simp only [Option.map_eq_some_iff, Prod.mk.injEq] at h
  obtain ⟨⟨whole, tail⟩, hwhole, -, rfl⟩ := h
  have hpart := fraction_length tail
  have hpower := exponent_length (fraction tail).2
  exact Nat.lt_of_le_of_lt (Nat.le_trans hpower hpart) (wholePart?_length hwhole)

theorem readNumber?_length {text rest : List Char} {value : Except Text.TooManyDigits Json}
    (h : readNumber? text = some (value, rest)) : rest.length < text.length := by
  unfold readNumber? at h
  split at h
  · have := readMagnitude?_length h
    simp only [List.length_cons]
    omega
  · exact readMagnitude?_length h

/-! ### Words -/

/-- The values that are written as a word. -/
def words : List (List Char × Json) :=
  [("null".toList, null), ("true".toList, bool true), ("false".toList, bool false),
    ("NaN".toList, real "nan"), ("Infinity".toList, real "inf"),
    ("-Infinity".toList, real "-inf")]

def readWord? (text : List Char) : Option (Json × List Char) :=
  words.findSome? fun (word, value) =>
    if word.isPrefixOf text then some (value, text.drop word.length) else none

theorem readWord?_length {text rest : List Char} {value : Json}
    (h : readWord? text = some (value, rest)) : rest.length < text.length := by
  obtain ⟨⟨word, _⟩, hmem, hword⟩ := List.exists_of_findSome?_eq_some h
  have hpos : 0 < word.length := by
    simp [words] at hmem
    rcases hmem with h | h | h | h | h | h <;> simp [h.1]
  dsimp only at hword
  split at hword
  · rename_i hpre
    have hle := (List.isPrefixOf_iff_prefix.1 hpre).length_le
    simp only [Option.some.injEq, Prod.mk.injEq] at hword
    obtain ⟨-, rfl⟩ := hword
    simp only [List.length_drop]
    omega
  · simp at hword

/-! ### Values -/

/-- A list or an object that is still open: what was read of it, the items last first, and the name
of the field that is being read. -/
inductive Frame where
  | list (items : List Json)
  | object (fields : List (String × Json)) (key : String)

/-- What the reader is about to do: read a value, read the name of a field of an object, or go on
behind a value. -/
inductive Task where
  | value
  | name (fields : List (String × Json))
  | behind (value : Json)

inductive Step where
  | go (frames : List Frame) (task : Task) (text : List Char)
  | done (value : Json)
  | stop (stop : Stop)

/-- White space has been skipped, and the value is no string, list or object. -/
def stepScalar (frames : List Frame) (text : List Char) : Step :=
  match readWord? text with
  | some (value, after) => .go frames (.behind value) after
  | none =>
    match readNumber? text with
    | some (.ok value, after) => .go frames (.behind value) after
    | some (.error fault, _) => .stop (.tooManyDigits fault)
    | none => .stop (.complaint .noValue text.length)

def stepString (frames : List Frame) (rest : List Char) : Step :=
  match readString rest with
  | .error fault => .stop (fault.stop (rest.length + 1))
  | .ok (text, after) => .go frames (.behind (string (String.ofList text))) after

def stepObject (frames : List Frame) (rest : List Char) : Step :=
  match skipSpace rest with
  | '\x7d' :: after => .go frames (.behind (object [])) after
  | text => .go frames (.name []) text

def stepList (frames : List Frame) (rest : List Char) : Step :=
  match skipSpace rest with
  | ']' :: after => .go frames (.behind (list [])) after
  | text => .go (.list [] :: frames) .value text

def stepValue (frames : List Frame) (text : List Char) : Step :=
  match skipSpace text with
  | [] => .stop (.complaint .noValue 0)
  | c :: rest =>
    if c = '"' then stepString frames rest
    else if c = '\x7b' then
      if frames.length < nestingLimit then stepObject frames rest else .stop (.tooDeep .object)
    else if c = '[' then
      if frames.length < nestingLimit then stepList frames rest else .stop (.tooDeep .list)
    else stepScalar frames (c :: rest)

def stepColon (frames : List Frame) (fields : List (String × Json)) (key : String)
    (text : List Char) : Step :=
  match skipSpace text with
  | ':' :: after => .go (.object fields key :: frames) .value after
  | left => .stop (.complaint .noColon left.length)

def stepName (frames : List Frame) (fields : List (String × Json)) (text : List Char) : Step :=
  match skipSpace text with
  | '"' :: rest =>
    match readString rest with
    | .error fault => .stop (fault.stop (rest.length + 1))
    | .ok (key, after) => stepColon frames fields (String.ofList key) after
  | left => .stop (.complaint .noName left.length)

def stepBehind (value : Json) (text : List Char) : List Frame → Step
  | [] =>
    match skipSpace text with
    | [] => .done value
    | left => .stop (.complaint .extraData left.length)
  | .list items :: frames =>
    match skipSpace text with
    | ']' :: after => .go frames (.behind (list (items.reverse ++ [value]))) after
    | ',' :: after => .go (.list (value :: items) :: frames) .value after
    | left => .stop (.complaint .noComma left.length)
  | .object fields key :: frames =>
    match skipSpace text with
    | '\x7d' :: after => .go frames (.behind (object (put key value fields))) after
    | ',' :: after => .go frames (.name (put key value fields)) after
    | left => .stop (.complaint .noComma left.length)

def step (frames : List Frame) (task : Task) (text : List Char) : Step :=
  match task with
  | .value => stepValue frames text
  | .name fields => stepName frames fields text
  | .behind value => stepBehind value text frames

theorem stepScalar_length {frames after : List Frame} {text rest : List Char} {task : Task}
    (h : stepScalar frames text = .go after task rest) : rest.length < text.length := by
  unfold stepScalar at h
  split at h
  · rename_i hword
    simp only [Step.go.injEq] at h
    exact h.2.2 ▸ readWord?_length hword
  · split at h <;> simp only [Step.go.injEq, reduceCtorEq] at h
    rename_i hnumber
    exact h.2.2 ▸ readNumber?_length hnumber

theorem stepString_length {frames after : List Frame} {text rest : List Char} {task : Task}
    (h : stepString frames text = .go after task rest) : rest.length < text.length := by
  unfold stepString at h
  split at h <;> simp only [Step.go.injEq, reduceCtorEq] at h
  rename_i hstring
  exact h.2.2 ▸ readString_length hstring

theorem stepObject_length {frames after : List Frame} {text rest : List Char} {task : Task}
    (h : stepObject frames text = .go after task rest) : rest.length ≤ text.length := by
  have hskip := length_skipSpace_le text
  unfold stepObject at h
  split at h <;> simp only [Step.go.injEq] at h <;> obtain ⟨-, -, rfl⟩ := h
  · rename_i hspace
    rw [hspace, List.length_cons] at hskip
    omega
  · exact hskip

theorem stepList_length {frames after : List Frame} {text rest : List Char} {task : Task}
    (h : stepList frames text = .go after task rest) : rest.length ≤ text.length := by
  have hskip := length_skipSpace_le text
  unfold stepList at h
  split at h <;> simp only [Step.go.injEq] at h <;> obtain ⟨-, -, rfl⟩ := h
  · rename_i hspace
    rw [hspace, List.length_cons] at hskip
    omega
  · exact hskip

theorem stepValue_length {frames after : List Frame} {text rest : List Char} {task : Task}
    (h : stepValue frames text = .go after task rest) : rest.length < text.length := by
  have hskip := length_skipSpace_le text
  unfold stepValue at h
  split at h
  · simp at h
  · rename_i hspace
    rw [hspace, List.length_cons] at hskip
    split at h
    · have := stepString_length h
      omega
    · split at h
      · split at h
        · have := stepObject_length h
          omega
        · simp at h
      · split at h
        · split at h
          · have := stepList_length h
            omega
          · simp at h
        · have := stepScalar_length h
          simp only [List.length_cons] at this
          omega

theorem stepColon_length {frames after : List Frame} {fields : List (String × Json)} {key : String}
    {text rest : List Char} {task : Task}
    (h : stepColon frames fields key text = .go after task rest) : rest.length < text.length := by
  have hskip := length_skipSpace_le text
  unfold stepColon at h
  split at h <;> simp only [Step.go.injEq, reduceCtorEq] at h
  rename_i hspace
  obtain ⟨-, -, rfl⟩ := h
  rw [hspace, List.length_cons] at hskip
  omega

theorem stepName_length {frames after : List Frame} {fields : List (String × Json)}
    {text rest : List Char} {task : Task} (h : stepName frames fields text = .go after task rest) :
    rest.length < text.length := by
  have hskip := length_skipSpace_le text
  unfold stepName at h
  split at h
  · rename_i hspace
    rw [hspace, List.length_cons] at hskip
    split at h
    · simp at h
    · rename_i hstring
      have := readString_length hstring
      have := stepColon_length h
      omega
  · simp at h

theorem stepBehind_length {frames after : List Frame} {value : Json} {text rest : List Char}
    {task : Task} (h : stepBehind value text frames = .go after task rest) :
    rest.length < text.length := by
  have hskip := length_skipSpace_le text
  unfold stepBehind at h
  split at h <;> split at h <;> simp only [Step.go.injEq, reduceCtorEq] at h <;>
    obtain ⟨-, -, rfl⟩ := h <;> rename_i hspace <;> rw [hspace, List.length_cons] at hskip <;>
    omega

theorem step_length {frames after : List Frame} {task next : Task} {text rest : List Char}
    (h : step frames task text = .go after next rest) : rest.length < text.length := by
  unfold step at h
  split at h
  · exact stepValue_length h
  · exact stepName_length h
  · exact stepBehind_length h

def run (frames : List Frame) (task : Task) (text : List Char) : Except Stop Json :=
  match _h : step frames task text with
  | .go after next rest => run after next rest
  | .done value => .ok value
  | .stop stop => .error stop
  termination_by text.length
  decreasing_by exact step_length _h

/-! ### Documents -/

/-- A document must not begin with a byte order mark. -/
def readDocument (document : List Char) : Except Stop Json :=
  if document.head? = some '\uFEFF' then .error (.complaint .byteOrderMark document.length)
  else run [] .value document

def read (document : String) : Except ReadFault Json :=
  (readDocument document.toList).mapError (Stop.locate document.toList)

end Offside.Json
