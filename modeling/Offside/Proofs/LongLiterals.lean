import Offside.Proofs.RawEntries
import Offside.Proofs.Seams

/-!
# Long literals

A literal of many significant digits is an overflow and is not converted. So only leading zeros can
make a literal too long to be converted, and such a literal is all that a permissive lexer stops at:
`lex_ok_iff_not_overlong`. Which literals of a text are too long can be told from the text alone:
`stopsAt_stream` relates this to what the scanner finds, lexeme by lexeme.
-/

namespace Offside

/-- More digits than are converted, of which few enough are significant for a conversion. -/
structure TooLong (digits : List Char) : Prop where
  limit_lt : Text.digitLimit < digits.length
  significant_le : (digits.dropWhile (· == '0')).length ≤ Lexeme.maxDigits

/-- A literal that is too long begins `after`, and `before` does not end in one of its digits. -/
structure LongBetween (before after : List Char) : Prop where
  starts : ∀ c ∈ before.getLast?, Text.isDigit c = false
  tooLong : TooLong (after.takeWhile Text.isDigit)

/-- Some literal of the text is too long. -/
def Overlong (text : List Char) : Prop :=
  ∃ before after, text = before ++ after ∧ LongBetween before after

/-- The first literal that is too long stands behind `before`. -/
structure FirstLong (text before after : List Char) : Prop where
  eq_append : text = before ++ after
  long : LongBetween before after
  none_before : ¬Overlong before

theorem FirstLong.overlong {text before after : List Char} (h : FirstLong text before after) :
    Overlong text :=
  ⟨before, after, h.eq_append, h.long⟩

/-! ### Texts -/

theorem not_tooLong_nil : ¬TooLong [] :=
  fun h => absurd h.limit_lt (Nat.not_lt_zero _)

section Texts

variable {front before after rest text : List Char}

theorem LongBetween.exists_digit (h : LongBetween before after) :
    ∃ c tail, after = c :: tail ∧ Text.isDigit c = true := by
  cases after with
  | nil => exact absurd h.tooLong not_tooLong_nil
  | cons c tail =>
    refine ⟨c, tail, rfl, ?_⟩
    by_contra hc
    have hnothing : (c :: tail).takeWhile Text.isDigit = [] := List.takeWhile_cons_of_neg hc
    exact not_tooLong_nil (hnothing ▸ h.tooLong)

theorem LongBetween.of_append (h : LongBetween (front ++ before) after) :
    LongBetween before after :=
  ⟨fun c hc => h.starts c (List.mem_getLast?_append_of_mem_getLast? hc), h.tooLong⟩

theorem not_overlong_of_length_le (h : text.length ≤ Text.digitLimit) :
    ¬Overlong text := by
  rintro ⟨before, after, rfl, hlong⟩
  have hlimit := hlong.tooLong.limit_lt
  have htake := (List.takeWhile_sublist (p := Text.isDigit) (l := after)).length_le
  rw [List.length_append] at h
  omega

theorem takeWhile_replicate_zero (n : Nat) :
    (List.replicate n '0').takeWhile Text.isDigit = List.replicate n '0' := by
  rw [List.takeWhile_eq_self_iff]
  intro c hc
  rw [List.eq_of_mem_replicate hc]
  rfl

theorem tooLong_replicate_zero {n : Nat} (h : Text.digitLimit < n) :
    TooLong (List.replicate n '0') := by
  have hsignificant : (List.replicate n '0').dropWhile (· == '0') = [] := by
    rw [List.dropWhile_eq_nil_iff]
    intro c hc
    rw [List.eq_of_mem_replicate hc]
    rfl
  refine ⟨?_, ?_⟩
  · rwa [List.length_replicate]
  · rw [hsignificant]
    exact Nat.zero_le _

theorem overlong_replicate_zero_iff {n : Nat} :
    Overlong (List.replicate n '0') ↔ Text.digitLimit < n := by
  constructor
  · intro h
    by_contra hle
    refine not_overlong_of_length_le ?_ h
    rw [List.length_replicate]
    exact Nat.le_of_not_lt hle
  · intro hlt
    refine ⟨[], List.replicate n '0', rfl, nofun, ?_⟩
    rw [takeWhile_replicate_zero]
    exact tooLong_replicate_zero hlt

theorem not_overlong_nil : ¬Overlong [] :=
  not_overlong_of_length_le (Nat.zero_le _)

theorem Overlong.of_append (h : Overlong (front ++ rest))
    (hfront : ∀ c ∈ front, Text.isDigit c = false) : Overlong rest := by
  obtain ⟨before, after, htext, hlong⟩ := h
  obtain ⟨back, rfl, rfl⟩ | ⟨back, rfl, rfl⟩ := List.append_eq_append_iff.1 htext
  · exact ⟨back, after, rfl, hlong.of_append⟩
  · obtain ⟨c, tail, hafter, hdigit⟩ := hlong.exists_digit
    cases back with
    | nil => exact ⟨[], rest, rfl, nofun, hlong.tooLong⟩
    | cons d back =>
      obtain ⟨rfl, -⟩ := List.cons.inj hafter
      rw [hfront d (by simp)] at hdigit
      cases hdigit

/-- A literal in front of a text adds no literal but itself. -/
theorem Overlong.of_append_literal (h : Overlong (front ++ rest))
    (hfront : ∀ c ∈ front, Text.isDigit c = true)
    (hrest : ∀ c ∈ rest.head?, Text.isDigit c = false) : TooLong front ∨ Overlong rest := by
  obtain ⟨before, after, htext, hlong⟩ := h
  obtain ⟨back, rfl, rfl⟩ | ⟨back, rfl, rfl⟩ := List.append_eq_append_iff.1 htext
  · exact .inr ⟨back, after, rfl, hlong.of_append⟩
  · have hbefore : before = [] := by
      by_contra hne
      have hlast := hlong.starts _ (List.getLast?_eq_some_getLast hne)
      rw [hfront _ (List.mem_append_left _ (List.getLast_mem hne))] at hlast
      cases hlast
    have hdigits : (back ++ rest).takeWhile Text.isDigit = back := by
      rw [(takeWhile_append_of_stop hrest back).1, List.takeWhile_eq_self_iff]
      exact fun c hc => hfront c (List.mem_append_right _ hc)
    rw [hbefore, List.nil_append]
    exact .inl (hdigits ▸ hlong.tooLong)

theorem FirstLong.append (h : FirstLong rest before after)
    (hfront : ∀ c ∈ front, Text.isDigit c = false) :
    FirstLong (front ++ rest) (front ++ before) after := by
  refine ⟨?_, ⟨fun c hc => ?_, h.long.tooLong⟩, fun hoverlong => ?_⟩
  · rw [h.eq_append, List.append_assoc]
  · rw [List.getLast?_append, Option.mem_def, Option.or_eq_some_iff] at hc
    obtain hbefore | ⟨-, hlast⟩ := hc
    · exact h.long.starts c hbefore
    · exact hfront c (List.mem_of_getLast? hlast)
  · exact h.none_before (hoverlong.of_append hfront)

theorem FirstLong.append_literal (h : FirstLong rest before after)
    (hfront : ∀ c ∈ front, Text.isDigit c = true) (hshort : ¬TooLong front)
    (hrest : ∀ c ∈ rest.head?, Text.isDigit c = false) :
    FirstLong (front ++ rest) (front ++ before) after := by
  obtain ⟨htext, hlong, hnone⟩ := h
  -- The literal in front ends before the one that is too long begins.
  have hne : before ≠ [] := by
    rintro rfl
    obtain ⟨c, tail, rfl, hdigit⟩ := hlong.exists_digit
    rw [hrest c (by rw [htext]; rfl)] at hdigit
    cases hdigit
  have hhead : ∀ c ∈ before.head?, Text.isDigit c = false := by
    intro c hc
    refine hrest c ?_
    rw [htext, List.head?_append_of_ne_nil _ hne]
    exact hc
  refine ⟨?_, ⟨?_, hlong.tooLong⟩, fun hoverlong => ?_⟩
  · rw [htext, List.append_assoc]
  · rw [List.getLast?_append_of_ne_nil _ hne]
    exact hlong.starts
  · exact (hoverlong.of_append_literal hfront hhead).elim hshort hnone

end Texts

/-! ### Lexemes -/

namespace Lexeme

variable {distinguish : Bool} {first : Char} {rest : List Char} {fault : Text.TooManyDigits}

theorem classifyInteger_eq_error_iff {digits : List Char} :
    classifyInteger distinguish digits = .error fault ↔
      TooLong digits ∧ fault = ⟨digits.length⟩ := by
  constructor
  · intro h
    rw [classifyInteger, Text.number?] at h
    by_cases hsignificant : maxDigits < (digits.dropWhile (· == '0')).length
    · rw [if_pos hsignificant] at h
      cases h
    rw [if_neg hsignificant] at h
    by_cases hlimit : digits.length ≤ Text.digitLimit
    · rw [if_pos hlimit] at h
      cases h
    rw [if_neg hlimit] at h
    exact ⟨⟨Nat.lt_of_not_le hlimit, Nat.le_of_not_lt hsignificant⟩, (Except.error.inj h).symm⟩
  · rintro ⟨⟨hlimit, hsignificant⟩, rfl⟩
    rw [classifyInteger, if_neg (Nat.not_lt.2 hsignificant), Text.number?,
      if_neg (Nat.not_le.2 hlimit)]
    rfl

theorem classify_of_isDigit (hdigit : Text.isDigit first = true) (lexeme : List Char) :
    classify distinguish first lexeme = classifyInteger distinguish lexeme := by
  have hnewline : first ≠ '\n' := by
    rintro rfl
    cases hdigit
  rw [classify, if_neg hnewline, if_neg (by simp [isLetter_of_isDigit hdigit]), if_pos hdigit]

theorem classify_eq_error_iff :
    classify distinguish first (munch first rest).1 = .error fault ↔
      Text.isDigit first = true ∧ TooLong (munch first rest).1 ∧
        fault = ⟨(munch first rest).1.length⟩ := by
  constructor
  · intro h
    rw [classify] at h
    split_ifs at h with hnewline hletter hdigit
    exact ⟨hdigit, classifyInteger_eq_error_iff.1 h⟩
  · rintro ⟨hdigit, h⟩
    rw [classify_of_isDigit hdigit]
    exact classifyInteger_eq_error_iff.2 h

theorem isDigit_munch_of_not (hfirst : Text.isDigit first = false) :
    ∀ c ∈ (munch first rest).1, Text.isDigit c = false := by
  intro c hc
  refine eq_false_of_ne_true fun hdigit => ?_
  rw [isClass_of_mem_munch .digit hc hdigit] at hfirst
  cases hfirst

end Lexeme

/-! ### Streams -/

/-- The literal that ends the stream of a text is the first one that is too long. -/
def StopsAt (text : List Char) : Option Text.TooManyDigits → Prop
  | none => ¬Overlong text
  | some fault => ∃ before after, FirstLong text before after ∧
      fault = ⟨(after.takeWhile Text.isDigit).length⟩

namespace StopsAt

variable {front rest text : List Char} {fault : Option Text.TooManyDigits}

theorem eq_none_iff (h : StopsAt text fault) : fault = none ↔ ¬Overlong text := by
  cases fault with
  | none => exact ⟨fun _ => h, fun _ => rfl⟩
  | some fault =>
    obtain ⟨before, after, hfirst, -⟩ := h
    exact ⟨nofun, fun hnone => absurd hfirst.overlong hnone⟩

theorem append (h : StopsAt rest fault) (hfront : ∀ c ∈ front, Text.isDigit c = false) :
    StopsAt (front ++ rest) fault := by
  cases fault with
  | none => exact fun hoverlong => h (hoverlong.of_append hfront)
  | some fault =>
    obtain ⟨before, after, hfirst, hcount⟩ := h
    exact ⟨front ++ before, after, hfirst.append hfront, hcount⟩

theorem append_literal (h : StopsAt rest fault) (hfront : ∀ c ∈ front, Text.isDigit c = true)
    (hshort : ¬TooLong front) (hrest : ∀ c ∈ rest.head?, Text.isDigit c = false) :
    StopsAt (front ++ rest) fault := by
  cases fault with
  | none => exact fun hoverlong => (hoverlong.of_append_literal hfront hrest).elim hshort h
  | some fault =>
    obtain ⟨before, after, hfirst, hcount⟩ := h
    exact ⟨front ++ before, after, hfirst.append_literal hfront hshort hrest, hcount⟩

theorem of_error {distinguish : Bool} {first : Char} {fault : Text.TooManyDigits}
    (h : Lexeme.classify distinguish first (Lexeme.munch first rest).1 = .error fault) :
    StopsAt (first :: rest) (some fault) := by
  obtain ⟨hdigit, hlong, rfl⟩ := Lexeme.classify_eq_error_iff.1 h
  have hlexeme : (Lexeme.munch first rest).1 = (first :: rest).takeWhile Text.isDigit := by
    rw [Lexeme.munch_of_isDigit hdigit, List.takeWhile_cons_of_pos hdigit]
  rw [hlexeme] at hlong ⊢
  exact ⟨[], first :: rest, ⟨rfl, ⟨nofun, hlong⟩, not_overlong_nil⟩, rfl⟩

theorem lexeme {distinguish : Bool} {first : Char} {reading : Lexeme.Reading}
    (hreading : Lexeme.classify distinguish first (Lexeme.munch first rest).1 = .ok reading)
    (h : StopsAt (Lexeme.munch first rest).2 fault) : StopsAt (first :: rest) fault := by
  rw [← Lexeme.munch_append first rest]
  cases hdigit : Text.isDigit first with
  | false => exact h.append (Lexeme.isDigit_munch_of_not hdigit)
  | true =>
    refine h.append_literal (Lexeme.isDigit_of_mem_munch hdigit) ?_ ?_
    · intro hlong
      rw [Lexeme.classify_eq_error_iff.2 ⟨hdigit, hlong, rfl⟩] at hreading
      cases hreading
    · rw [Lexeme.munch_of_isDigit hdigit]
      exact fun c hc => eq_false_of_mem_head?_dropWhile hc

end StopsAt

theorem stopsAt_stream {distinguish : Bool} (text : List Char) (position offset : Nat) :
    StopsAt text (Scanner.stream distinguish ⟨text, position, offset⟩).fault := by
  induction text using Scanner.lexeme_induction distinguish generalizing position offset with
  | nil =>
    rw [Scanner.stream_nil]
    exact not_overlong_nil
  | blank first rest hblank ih =>
    rw [Scanner.stream_blank hblank]
    have hlayout : isLayout first = true := by rw [isLayout, hblank, Bool.true_or]
    exact (ih _ _).append (List.forall_mem_singleton.2 (isDigit_of_isLayout hlayout))
  | fault first rest fault hblank hreading =>
    rw [Scanner.stream_fault hblank hreading]
    exact .of_error hreading
  | lexeme first rest reading hblank hreading ih =>
    rw [Scanner.stream_lexeme hblank hreading, RawStream.fault_prepend]
    exact .lexeme hreading (ih _ _)

theorem stopsAt_rawStream (settings : Settings) (source : String) :
    StopsAt source.toList (rawStream settings source).fault :=
  stopsAt_stream source.toList 0 0

/-! ### Sources -/

section Sources

variable {settings : Settings} {source : String} {file : Option String}

theorem exists_scan_eq_ok_iff :
    (∃ entries, scan settings source = .ok entries) ↔ ¬Overlong source.toList := by
  rw [← (stopsAt_rawStream settings source).eq_none_iff, scan_eq_stream]
  cases (rawStream settings source).fault with
  | none => exact ⟨fun _ => rfl, fun _ => ⟨_, rfl⟩⟩
  | some fault => exact ⟨nofun, nofun⟩

theorem exists_lex_eq_ok_iff (hpermissive : settings.isStrict = false) :
    (∃ entries, lex settings source file = .ok entries) ↔ ¬Overlong source.toList := by
  rw [← (stopsAt_rawStream settings source).eq_none_iff, lex_of_permissive hpermissive]
  cases (rawStream settings source).fault with
  | none => exact ⟨fun _ => rfl, fun _ => ⟨_, rfl⟩⟩
  | some fault => exact ⟨nofun, nofun⟩

/-- A permissive lexer and a scan are at fault for the same reason. -/
theorem fault_rawStream_of_error (hpermissive : settings.isStrict = false) {fault : LexFault}
    (h : lex settings source file = .error fault ∨ scan settings source = .error fault) :
    ∃ digits, (rawStream settings source).fault = some digits ∧ fault = .tooManyDigits digits := by
  rw [lex_of_permissive hpermissive, scan_eq_stream] at h
  cases hfault : (rawStream settings source).fault with
  | none =>
    rw [hfault] at h
    obtain h | h := h
    all_goals cases h
  | some digits =>
    rw [hfault, or_self] at h
    exact ⟨digits, rfl, (Except.error.inj h).symm⟩

end Sources

/-- **What stops a lexer.** A permissive stream exists, and so does the raw one, just when no
literal of the source is too long. Nothing but the first literal that is too long is ever at fault,
and the fault tells its length. -/
theorem lex_ok_iff_not_overlong {settings : Settings} (hpermissive : settings.isStrict = false)
    (source : String) (file : Option String) :
    ((∃ entries, lex settings source file = .ok entries) ↔ ¬Overlong source.toList) ∧
      ((∃ entries, scan settings source = .ok entries) ↔ ¬Overlong source.toList) ∧
      ∀ fault, lex settings source file = .error fault ∨ scan settings source = .error fault →
        ∃ before after, FirstLong source.toList before after ∧
          fault = .tooManyDigits ⟨(after.takeWhile Text.isDigit).length⟩ := by
  refine ⟨exists_lex_eq_ok_iff hpermissive, exists_scan_eq_ok_iff, fun fault h => ?_⟩
  obtain ⟨digits, hfault, rfl⟩ := fault_rawStream_of_error hpermissive h
  have hstops := stopsAt_rawStream settings source
  rw [hfault] at hstops
  obtain ⟨before, after, hfirst, rfl⟩ := hstops
  exact ⟨before, after, hfirst, rfl⟩

/-- One zero too many. -/
theorem lex_ok_iff_not_overlong_zeros :
    let zeros (n : Nat) : String := String.ofList (List.replicate n '0')
    Settings.isStrict {} = false ∧
      ((∃ entries, lex {} (zeros 4300) = .ok entries) ∧
        ∃ entries, scan {} (zeros 4300) = .ok entries) ∧
      ((¬∃ entries, lex {} (zeros 4301) = .ok entries) ∧
        ¬∃ entries, scan {} (zeros 4301) = .ok entries) := by
  intro zeros
  have hzeros (n : Nat) : Overlong (zeros n).toList ↔ Text.digitLimit < n := by
    rw [String.toList_ofList, overlong_replicate_zero_iff]
  have hpermissive : Settings.isStrict {} = false := rfl
  obtain ⟨hlex, hscan, -⟩ := lex_ok_iff_not_overlong hpermissive (zeros 4300) none
  obtain ⟨hlex', hscan', -⟩ := lex_ok_iff_not_overlong hpermissive (zeros 4301) none
  rw [hzeros] at hlex hscan hlex' hscan'
  refine ⟨hpermissive, ⟨hlex.2 (by decide), hscan.2 (by decide)⟩, ?_, ?_⟩
  · exact fun h => hlex'.1 h (by decide)
  · exact fun h => hscan'.1 h (by decide)

/-- Bad input does stop a permissive lexer. -/
theorem not_forall_lex_ok :
    ¬∀ (settings : Settings) (source : String) (file : Option String),
      settings.isStrict = false →
        (∃ entries, lex settings source file = .ok entries) ∧
          ∃ entries, scan settings source = .ok entries := by
  intro h
  obtain ⟨hlex, -⟩ := h {} (String.ofList (List.replicate 4301 '0')) none rfl
  rw [exists_lex_eq_ok_iff rfl, String.toList_ofList, overlong_replicate_zero_iff] at hlex
  exact hlex (by decide)

end Offside
