import Offside.Proofs.PrintedNumbers
import Offside.Proofs.PrintedStrings

/-!
# Printed values

Reading undoes printing, whatever the layout: `read_print_append`. The reader goes through a printed
value and comes to stand behind it, with the lists and objects around it as they were. The induction
is on the value, and the lists and objects around it are arbitrary.
-/

namespace Offside.Json

/-- A value that can be read back, with lists and objects in one another so many deep. Its numbers
are whole and convertible, and no name occurs twice in one object. -/
inductive Legible : Nat → Json → Prop where
  | null {room : Nat} : Legible room null
  | bool {room : Nat} (value : Bool) : Legible room (bool value)
  | int {room : Nat} {n : Int} (convertible : Text.Convertible n.natAbs) : Legible room (int n)
  | string {room : Nat} (text : String) : Legible room (string text)
  | list {room : Nat} {items : List Json} (legible : ∀ item ∈ items, Legible room item) :
      Legible (room + 1) (list items)
  | object {room : Nat} {fields : List (String × Json)} (nodup : (fields.map Prod.fst).Nodup)
      (legible : ∀ field ∈ fields, Legible room field.2) : Legible (room + 1) (object fields)

theorem Legible.mono {room room' : Nat} {value : Json} (h : Legible room value)
    (hle : room ≤ room') : Legible room' value := by
  induction h generalizing room' with
  | null => exact .null
  | bool value => exact .bool value
  | int hn => exact .int hn
  | string text => exact .string text
  | list _ ih =>
    obtain ⟨room', rfl⟩ := Nat.exists_eq_add_of_lt hle
    exact .list fun item hitem => ih item hitem (by omega)
  | object hnodup _ ih =>
    obtain ⟨room', rfl⟩ := Nat.exists_eq_add_of_lt hle
    exact .object hnodup fun field hfield => ih field hfield (by omega)

variable {frames after : List Frame} {task next : Task} {text rest gap : List Char}
  {indent : Option Int} {level room : Nat}

/-! ### Steps -/

theorem run_of_go (h : step frames task text = .go after next rest) :
    run frames task text = run after next rest := by
  rw [run]
  split <;> simp_all

theorem run_of_done {value : Json} (h : step frames task text = .done value) :
    run frames task text = .ok value := by
  rw [run]
  split <;> simp_all

theorem run_of_stop {stop : Stop} (h : step frames task text = .stop stop) :
    run frames task text = .error stop := by
  rw [run]
  split <;> simp_all

theorem run_congr (h : step frames task text = step after next rest) :
    run frames task text = run after next rest := by
  cases hstep : step after next rest with
  | go frames' task' text' => rw [run_of_go hstep, run_of_go (h.trans hstep)]
  | done value => rw [run_of_done hstep, run_of_done (h.trans hstep)]
  | stop stop => rw [run_of_stop hstep, run_of_stop (h.trans hstep)]

/-! ### White space -/

theorem skipSpace_append (hgap : ∀ c ∈ gap, isSpace c = true) :
    skipSpace (gap ++ text) = skipSpace text :=
  List.dropWhile_append_of_pos hgap

theorem skipSpace_cons {c : Char} (hc : isSpace c = false) : skipSpace (c :: text) = c :: text :=
  List.dropWhile_cons_of_neg (by simp [hc])

theorem run_value_blank : run frames .value (' ' :: text) = run frames .value text := by
  apply run_congr
  rfl

theorem run_value_gap (hgap : ∀ c ∈ gap, isSpace c = true) :
    run frames .value (gap ++ text) = run frames .value text := by
  apply run_congr
  simp only [step, stepValue, skipSpace_append hgap]

theorem run_name_gap {fields : List (String × Json)} (hgap : ∀ c ∈ gap, isSpace c = true) :
    run frames (.name fields) (gap ++ text) = run frames (.name fields) text := by
  apply run_congr
  simp only [step, stepName, skipSpace_append hgap]

theorem isSpace_lineBreak (indent : Option Int) (level : Nat) :
    ∀ c ∈ lineBreak indent level, isSpace c = true := by
  intro c hc
  cases indent with
  | none => cases hc
  | some blanks =>
    obtain rfl | hblank := List.mem_cons.1 hc
    · rfl
    · rw [List.eq_of_mem_replicate hblank]
      rfl

theorem exists_separator_eq (indent : Option Int) (level : Nat) :
    ∃ gap, separator indent level = ',' :: gap ∧ ∀ c ∈ gap, isSpace c = true := by
  cases indent with
  | none => exact ⟨[' '], rfl, by simp [isSpace]⟩
  | some blanks => exact ⟨_, rfl, isSpace_lineBreak (some blanks) level⟩

theorem endsNumber_cons {c : Char}
    (hc : Text.isDigit c = false ∧ c ≠ '.' ∧ c ≠ 'e' ∧ c ≠ 'E') : EndsNumber (c :: rest) := by
  intro d hd
  rw [← Option.some.inj hd]
  exact hc

theorem EndsNumber.gap_append (hgap : ∀ c ∈ gap, isSpace c = true) (hrest : EndsNumber rest) :
    EndsNumber (gap ++ rest) := by
  cases gap with
  | nil => exact hrest
  | cons c gap =>
    have hc := hgap c List.mem_cons_self
    simp only [isSpace, Bool.or_eq_true, beq_iff_eq] at hc
    apply endsNumber_cons
    obtain ((rfl | rfl) | rfl) | rfl := hc <;> decide

/-! ### Strings and scalars -/

theorem printString_append (text : String) (rest : List Char) :
    printString text ++ rest = '"' :: (text.toList.flatMap escape ++ '"' :: rest) := by
  simp [printString]

theorem run_string (text : String) :
    run frames .value (printString text ++ rest) = run frames (.behind (string text)) rest := by
  apply run_of_go
  rw [printString_append, step, stepValue, skipSpace_cons rfl]
  simp [stepString, readString_escape]

theorem run_name (fields : List (String × Json)) (key : String) :
    run frames (.name fields) (printString key ++ ':' :: rest) =
      run (.object fields key :: frames) .value rest := by
  apply run_of_go
  rw [printString_append, step, stepName, skipSpace_cons rfl]
  simp only [readString_escape]
  rw [stepColon, skipSpace_cons rfl, String.ofList_toList]
  rfl

/-- The first character of a value that is no string, list or object. -/
def StartsScalar (c : Char) : Prop :=
  isSpace c = false ∧ c ≠ '"' ∧ c ≠ '\x7b' ∧ c ≠ '['

theorem step_scalar {c : Char} {tail : List Char} (hc : StartsScalar c) :
    step frames .value (c :: tail) = stepScalar frames (c :: tail) := by
  obtain ⟨hspace, hquote, hbrace, hbracket⟩ := hc
  rw [step, stepValue, skipSpace_cons hspace]
  simp only [hquote, hbrace, hbracket, if_false]

theorem isSpace_of_isDigit {c : Char} (hc : Text.isDigit c = true) : isSpace c = false := by
  have hne {d : Char} (hd : Text.isDigit d = false) : c ≠ d := Text.ne_of_isDigit hc hd
  simp [isSpace, hne (d := ' ') rfl, hne (d := '\t') rfl, hne (d := '\n') rfl, hne (d := '\r') rfl]

theorem startsScalar_int {c : Char} {tail : List Char} {n : Int}
    (htext : (toString n).toList = c :: tail) : StartsScalar c := by
  obtain ⟨c', tail', htext', hhead⟩ := int_head n
  obtain ⟨rfl, rfl⟩ := List.cons.inj (htext.symm.trans htext')
  obtain hdigit | ⟨rfl, -⟩ := hhead
  · exact ⟨isSpace_of_isDigit hdigit, Text.ne_of_isDigit hdigit rfl, Text.ne_of_isDigit hdigit rfl,
      Text.ne_of_isDigit hdigit rfl⟩
  · exact ⟨rfl, by decide, by decide, by decide⟩

theorem run_int {n : Int} (hn : Text.Convertible n.natAbs) (hrest : EndsNumber rest) :
    run frames .value ((toString n).toList ++ rest) = run frames (.behind (int n)) rest := by
  apply run_of_go
  have hword : readWord? ((toString n).toList ++ rest) = none := readWord?_int n
  have hnumber := readNumber?_int hn hrest
  obtain ⟨c, tail, htext, -⟩ := int_head n
  rw [htext, List.cons_append] at hword hnumber ⊢
  rw [step_scalar (startsScalar_int htext), stepScalar, hword]
  simp only [hnumber]

theorem run_word {value : Json} {c : Char} {tail : List Char} (hc : StartsScalar c)
    (hword : readWord? (c :: tail ++ rest) = some (value, rest)) :
    run frames .value (c :: tail ++ rest) = run frames (.behind value) rest := by
  apply run_of_go
  rw [List.cons_append, step_scalar hc, stepScalar, ← List.cons_append, hword]

theorem run_null : run frames .value ("null".toList ++ rest) = run frames (.behind null) rest := by
  change run frames .value (['n', 'u', 'l', 'l'] ++ rest) = _
  apply run_word ⟨rfl, by decide, by decide, by decide⟩
  simp [readWord?, words]

theorem run_bool (value : Bool) :
    run frames .value ((if value then "true".toList else "false".toList) ++ rest) =
      run frames (.behind (bool value)) rest := by
  cases value with
  | true =>
    change run frames .value (['t', 'r', 'u', 'e'] ++ rest) = _
    apply run_word ⟨rfl, by decide, by decide, by decide⟩
    simp [readWord?, words]
  | false =>
    change run frames .value (['f', 'a', 'l', 's', 'e'] ++ rest) = _
    apply run_word ⟨rfl, by decide, by decide, by decide⟩
    simp [readWord?, words]

/-! ### Items -/

/-- Reading the printed value comes to stand behind the value, with what is around it unchanged. -/
def ReadsBack (indent : Option Int) (room : Nat) (value : Json) : Prop :=
  ∀ (frames : List Frame) (level : Nat) (rest : List Char), frames.length + room ≤ nestingLimit →
    EndsNumber rest →
      run frames .value (printValue indent level value ++ rest) = run frames (.behind value) rest

section Items

variable {before items : List Json} {value : Json}

theorem run_list_comma :
    run (.list before :: frames) (.behind value) (',' :: rest) =
      run (.list (value :: before) :: frames) .value rest := by
  apply run_of_go
  rw [step, stepBehind, skipSpace_cons rfl]
  rfl

theorem run_list_close (hgap : ∀ c ∈ gap, isSpace c = true) :
    run (.list before :: frames) (.behind value) (gap ++ ']' :: rest) =
      run frames (.behind (list (before.reverse ++ [value]))) rest := by
  apply run_of_go
  rw [step, stepBehind, skipSpace_append hgap, skipSpace_cons rfl]
  rfl

theorem run_list_nil (hroom : frames.length < nestingLimit) :
    run frames .value ('[' :: ']' :: rest) = run frames (.behind (list [])) rest := by
  apply run_of_go
  rw [step, stepValue, skipSpace_cons rfl]
  simp [hroom, stepList, skipSpace_cons (c := ']') rfl]

theorem run_list_cons {c : Char} {tail : List Char} (hroom : frames.length < nestingLimit)
    (hgap : ∀ c ∈ gap, isSpace c = true) (hspace : isSpace c = false) (hc : c ≠ ']') :
    run frames .value ('[' :: (gap ++ c :: tail)) =
      run (.list [] :: frames) .value (c :: tail) := by
  apply run_of_go
  rw [step, stepValue, skipSpace_cons rfl]
  simp [hroom, stepList, skipSpace_append hgap, skipSpace_cons hspace, hc]

theorem endsNumber_items (items : List Json) (hgap : ∀ c ∈ gap, isSpace c = true) :
    EndsNumber (printItems indent level items ++ (gap ++ ']' :: rest)) := by
  cases items with
  | nil =>
    rw [printItems, List.nil_append]
    exact EndsNumber.gap_append hgap (endsNumber_cons (by decide))
  | cons item items =>
    obtain ⟨space, hseparator, -⟩ := exists_separator_eq indent level
    rw [printItems, hseparator, List.append_assoc, List.append_assoc, List.cons_append]
    exact endsNumber_cons (by decide)

theorem run_items (hitems : ∀ item ∈ items, ReadsBack indent room item)
    (hroom : frames.length + 1 + room ≤ nestingLimit) (hgap : ∀ c ∈ gap, isSpace c = true)
    (before : List Json) (value : Json) :
    run (.list before :: frames) (.behind value)
        (printItems indent level items ++ (gap ++ ']' :: rest)) =
      run frames (.behind (list (before.reverse ++ value :: items))) rest := by
  induction items generalizing before value with
  | nil => rw [printItems, List.nil_append, run_list_close hgap]
  | cons item items ih =>
    rw [List.forall_mem_cons] at hitems
    obtain ⟨space, hseparator, hspace⟩ := exists_separator_eq indent level
    have hitem := hitems.1 (.list (value :: before) :: frames) level
      (printItems indent level items ++ (gap ++ ']' :: rest)) hroom (endsNumber_items items hgap)
    rw [printItems, hseparator, List.append_assoc, List.append_assoc, List.cons_append,
      run_list_comma, run_value_gap hspace, hitem, ih hitems.2, List.reverse_cons,
      List.append_assoc]
    rfl

end Items

/-! ### Fields -/

section Fields

variable {before fields : List (String × Json)} {key : String} {value : Json}

theorem put_of_not_mem (hkey : key ∉ before.map Prod.fst) :
    put key value before = before ++ [(key, value)] := by
  induction before with
  | nil => rfl
  | cons field before ih =>
    rw [List.map_cons, List.mem_cons, not_or] at hkey
    rw [put, if_neg (Ne.symm hkey.1), ih hkey.2]
    rfl

theorem run_object_nil (hroom : frames.length < nestingLimit) :
    run frames .value ('\x7b' :: '\x7d' :: rest) = run frames (.behind (object [])) rest := by
  apply run_of_go
  rw [step, stepValue, skipSpace_cons rfl]
  simp [hroom, stepObject, skipSpace_cons (c := '\x7d') rfl]

theorem run_object_cons (hroom : frames.length < nestingLimit)
    (hgap : ∀ c ∈ gap, isSpace c = true) :
    run frames .value ('\x7b' :: (gap ++ (printString key ++ rest))) =
      run frames (.name []) (printString key ++ rest) := by
  apply run_of_go
  rw [step, stepValue, skipSpace_cons rfl, printString_append]
  simp [hroom, stepObject, skipSpace_append hgap, skipSpace_cons (c := '"') rfl]

theorem run_object_comma (hkey : key ∉ before.map Prod.fst) :
    run (.object before key :: frames) (.behind value) (',' :: rest) =
      run frames (.name (before ++ [(key, value)])) rest := by
  apply run_of_go
  rw [step, stepBehind, skipSpace_cons rfl, ← put_of_not_mem hkey]
  rfl

theorem run_object_close (hkey : key ∉ before.map Prod.fst) (hgap : ∀ c ∈ gap, isSpace c = true) :
    run (.object before key :: frames) (.behind value) (gap ++ '\x7d' :: rest) =
      run frames (.behind (object (before ++ [(key, value)]))) rest := by
  apply run_of_go
  rw [step, stepBehind, skipSpace_append hgap, skipSpace_cons rfl, ← put_of_not_mem hkey]
  rfl

theorem endsNumber_fields (fields : List (String × Json)) (hgap : ∀ c ∈ gap, isSpace c = true) :
    EndsNumber (printFields indent level fields ++ (gap ++ '\x7d' :: rest)) := by
  cases fields with
  | nil =>
    rw [printFields, List.nil_append]
    exact EndsNumber.gap_append hgap (endsNumber_cons (by decide))
  | cons field fields =>
    obtain ⟨space, hseparator, -⟩ := exists_separator_eq indent level
    rw [printFields, hseparator]
    simp only [List.append_assoc, List.cons_append]
    exact endsNumber_cons (by decide)

theorem run_field (hvalue : ReadsBack indent room value)
    (hroom : frames.length + 1 + room ≤ nestingLimit) (hrest : EndsNumber rest) :
    run frames (.name before)
        (printString key ++ ':' :: ' ' :: (printValue indent level value ++ rest)) =
      run (.object before key :: frames) (.behind value) rest := by
  rw [run_name, run_value_blank]
  exact hvalue _ _ _ hroom hrest

theorem not_mem_of_nodup (hkeys : ((before ++ (key, value) :: fields).map Prod.fst).Nodup) :
    key ∉ before.map Prod.fst := by
  intro hmem
  rw [List.map_append, List.map_cons] at hkeys
  exact (List.nodup_append.1 hkeys).2.2 key hmem key List.mem_cons_self rfl

theorem run_fields (hfields : ∀ field ∈ fields, ReadsBack indent room field.2)
    (hroom : frames.length + 1 + room ≤ nestingLimit) (hgap : ∀ c ∈ gap, isSpace c = true)
    (hkeys : ((before ++ (key, value) :: fields).map Prod.fst).Nodup) :
    run (.object before key :: frames) (.behind value)
        (printFields indent level fields ++ (gap ++ '\x7d' :: rest)) =
      run frames (.behind (object (before ++ (key, value) :: fields))) rest := by
  have hnew := not_mem_of_nodup hkeys
  induction fields generalizing before key value with
  | nil => rw [printFields, List.nil_append, run_object_close hnew hgap]
  | cons field fields ih =>
    obtain ⟨key', value'⟩ := field
    rw [List.forall_mem_cons] at hfields
    obtain ⟨space, hseparator, hspace⟩ := exists_separator_eq indent level
    have hassoc : before ++ (key, value) :: (key', value') :: fields =
        before ++ [(key, value)] ++ (key', value') :: fields := by
      simp
    have htext : printFields indent level ((key', value') :: fields) ++ (gap ++ '\x7d' :: rest) =
        ',' :: (space ++ (printString key' ++ ':' :: ' ' :: (printValue indent level value' ++
          (printFields indent level fields ++ (gap ++ '\x7d' :: rest))))) := by
      simp [printFields, hseparator]
    rw [hassoc] at hkeys ⊢
    rw [htext, run_object_comma hnew, run_name_gap hspace,
      run_field hfields.1 hroom (endsNumber_fields fields hgap)]
    exact ih hfields.2 hkeys (not_mem_of_nodup hkeys)

end Fields

/-! ### Values -/

/-- A legible value begins with no white space, no bracket that closes and no byte order mark. -/
theorem printValue_head {value : Json} (hvalue : Legible room value) (indent : Option Int)
    (level : Nat) :
    ∃ c tail, printValue indent level value = c :: tail ∧
      isSpace c = false ∧ c ≠ ']' ∧ c ≠ '\uFEFF' := by
  cases hvalue with
  | null => exact ⟨_, _, rfl, by decide, by decide, by decide⟩
  | bool value => cases value <;> exact ⟨_, _, rfl, by decide, by decide, by decide⟩
  | string text => exact ⟨_, _, rfl, by decide, by decide, by decide⟩
  | @int _ n _ =>
    obtain ⟨c, tail, htext, hhead⟩ := int_head n
    refine ⟨c, tail, htext, (startsScalar_int htext).1, ?_⟩
    obtain hdigit | ⟨rfl, -⟩ := hhead
    · exact ⟨Text.ne_of_isDigit hdigit rfl, Text.ne_of_isDigit hdigit rfl⟩
    · decide
  | @list _ items _ => cases items <;> exact ⟨_, _, rfl, by decide, by decide, by decide⟩
  | @object _ fields _ _ => cases fields <;> exact ⟨_, _, rfl, by decide, by decide, by decide⟩

theorem readsBack_list {items : List Json} (hlegible : ∀ item ∈ items, Legible room item)
    (hitems : ∀ item ∈ items, ReadsBack indent room item) :
    ReadsBack indent (room + 1) (list items) := by
  intro frames level rest hroom _
  have hopen : frames.length < nestingLimit := by omega
  have hinner : frames.length + 1 + room ≤ nestingLimit := by omega
  cases items with
  | nil => exact run_list_nil hopen
  | cons item items =>
    rw [List.forall_mem_cons] at hlegible hitems
    have hclose := isSpace_lineBreak indent level
    have htext : printValue indent level (list (item :: items)) ++ rest =
        '[' :: (lineBreak indent (level + 1) ++ (printValue indent (level + 1) item ++
          (printItems indent (level + 1) items ++ (lineBreak indent level ++ ']' :: rest)))) := by
      simp [printValue]
    have hfirst := hitems.1 (.list [] :: frames) (level + 1)
      (printItems indent (level + 1) items ++ (lineBreak indent level ++ ']' :: rest)) hinner
      (endsNumber_items items hclose)
    obtain ⟨c, tail, hitem, hspace, hc, -⟩ := printValue_head hlegible.1 indent (level + 1)
    rw [hitem, List.cons_append] at hfirst htext
    rw [htext, run_list_cons hopen (isSpace_lineBreak indent (level + 1)) hspace hc, hfirst]
    exact run_items hitems.2 hinner hclose [] item

theorem readsBack_object {fields : List (String × Json)} (hnodup : (fields.map Prod.fst).Nodup)
    (hfields : ∀ field ∈ fields, ReadsBack indent room field.2) :
    ReadsBack indent (room + 1) (object fields) := by
  intro frames level rest hroom _
  have hopen : frames.length < nestingLimit := by omega
  have hinner : frames.length + 1 + room ≤ nestingLimit := by omega
  cases fields with
  | nil => exact run_object_nil hopen
  | cons field fields =>
    obtain ⟨key, value⟩ := field
    rw [List.forall_mem_cons] at hfields
    have hclose := isSpace_lineBreak indent level
    have htext : printValue indent level (object ((key, value) :: fields)) ++ rest =
        '\x7b' :: (lineBreak indent (level + 1) ++ (printString key ++ ':' :: ' ' ::
          (printValue indent (level + 1) value ++ (printFields indent (level + 1) fields ++
            (lineBreak indent level ++ '\x7d' :: rest))))) := by
      simp [printValue]
    rw [htext, run_object_cons hopen (isSpace_lineBreak indent (level + 1)),
      run_field hfields.1 hinner (endsNumber_fields fields hclose)]
    exact run_fields hfields.2 hinner hclose hnodup

theorem readsBack_of_legible {value : Json} (hvalue : Legible room value) :
    ReadsBack indent room value := by
  induction hvalue with
  | null =>
    intro frames level rest _ _
    exact run_null
  | bool value =>
    intro frames level rest _ _
    exact run_bool value
  | int hn =>
    intro frames level rest _ hrest
    exact run_int hn hrest
  | string text =>
    intro frames level rest _ _
    exact run_string text
  | list hlegible ih => exact readsBack_list hlegible ih
  | object hnodup _ ih => exact readsBack_object hnodup ih

theorem endsNumber_space (hgap : ∀ c ∈ gap, isSpace c = true) : EndsNumber gap := by
  have hend : EndsNumber [] := by simp [EndsNumber]
  have hgap' := hend.gap_append hgap
  rwa [List.append_nil] at hgap'

theorem run_behind_space {value : Json} (hgap : ∀ c ∈ gap, isSpace c = true) :
    run [] (.behind value) gap = .ok value := by
  have hskip : skipSpace (gap ++ []) = skipSpace [] := skipSpace_append hgap
  rw [List.append_nil] at hskip
  apply run_of_done
  rw [step, stepBehind, hskip]
  rfl

/-- **Reading undoes printing.** The layout that a value is printed in does not matter, nor does
white space behind it. -/
theorem read_print_append (indent : Option Int) {value : Json}
    (hvalue : Legible nestingLimit value) {space : String}
    (hspace : ∀ c ∈ space.toList, isSpace c = true) :
    read (print indent value ++ space) = .ok value := by
  obtain ⟨c, tail, htext, -, -, hmark⟩ := printValue_head hvalue indent 0
  have hdocument : readDocument (printValue indent 0 value ++ space.toList) =
      run [] .value (printValue indent 0 value ++ space.toList) := by
    rw [readDocument, if_neg]
    rw [htext]
    exact fun hhead => hmark (Option.some.inj hhead)
  have hback : ReadsBack indent nestingLimit value := readsBack_of_legible hvalue
  have hrun := hback [] 0 space.toList (Nat.le_of_eq (Nat.zero_add _)) (endsNumber_space hspace)
  rw [read, print, String.toList_append, String.toList_ofList, hdocument, hrun,
    run_behind_space hspace]
  rfl

end Offside.Json
