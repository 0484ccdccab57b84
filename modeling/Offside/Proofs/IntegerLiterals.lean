import Offside.Proofs.LongLiterals

/-!
# Integer literals

Whether a literal fits in 64 bits is told by its number, but a literal with too many significant
digits is not converted to find out. `classifyIntegerBy_eq_literal` says that the shortcut comes to
the same, and that it keeps from the conversion all that is too long for it, unless only leading
zeros make it so. What a scanner makes of a run of digits follows: `next_digits` where it stands at
the run, `overlapping_of_not_overlong` where it begins at the front of the source.
-/

namespace Offside

namespace Lexeme

/-- What a literal says: its number if that fits in 64 bits, or else that it overflows, with all of
its text. -/
def literal (distinguish : Bool) (digits : List Char) : Reading :=
  if Nat.ofDigitChars 10 digits 0 ≤ 2 ^ 63 - 1 then
    .token .integer (.number (Nat.ofDigitChars 10 digits 0))
  else overflow distinguish digits

/-- A reading without the text of an error. -/
def Reading.meaning : Reading → Reading
  | .token kind value => .token kind value
  | .error kind _ => .error kind ""

/-- Few enough digits for a conversion, or too many significant ones for a number that fits. -/
def Readable (digits : List Char) : Prop :=
  digits.length ≤ Text.digitLimit ∨ maxDigits < (digits.dropWhile (· == '0')).length

instance : DecidablePred Readable :=
  fun digits => inferInstanceAs (Decidable (digits.length ≤ _ ∨ _))

/-- Reads a literal by means of any conversion. -/
def classifyIntegerBy (convert : List Char → Except Text.TooManyDigits Nat) (distinguish : Bool)
    (digits : List Char) : Except Text.TooManyDigits Reading :=
  if maxDigits < (digits.dropWhile (· == '0')).length then .ok (overflow distinguish digits)
  else
    (convert digits).map fun n =>
      if n ≤ maxInteger then .token .integer (.number n) else overflow distinguish digits

theorem classifyIntegerBy_number? (distinguish : Bool) (digits : List Char) :
    classifyIntegerBy Text.number? distinguish digits = classifyInteger distinguish digits := rfl

variable {distinguish : Bool} {digits zeros : List Char}

/-- **The shortcut.** It decides as the number would, and what it leaves to the conversion is never
more than that can take. -/
theorem classifyIntegerBy_eq_literal {convert : List Char → Except Text.TooManyDigits Nat}
    (hconvert : ∀ short, short.length ≤ Text.digitLimit → convert short = Text.number? short)
    (hdigits : ∀ c ∈ digits, Text.isDigit c = true) (hreadable : Readable digits) :
    classifyIntegerBy convert distinguish digits = .ok (literal distinguish digits) := by
  have hmax : maxInteger = 2 ^ 63 - 1 := rfl
  by_cases hlong : maxDigits < (digits.dropWhile (· == '0')).length
  · have hlarge : 2 ^ 63 - 1 < Nat.ofDigitChars 10 digits 0 :=
      hmax ▸ maxInteger_lt_ofDigitChars hdigits hlong
    rw [classifyIntegerBy, if_pos hlong, literal, if_neg (Nat.not_le.2 hlarge)]
  · have hshort := hreadable.resolve_right hlong
    rw [classifyIntegerBy, if_neg hlong, hconvert digits hshort, Text.number?, if_pos hshort,
      Except.map, hmax, literal]

theorem ofDigitChars_zeros_append (hzeros : ∀ c ∈ zeros, c = '0') (digits : List Char) :
    Nat.ofDigitChars 10 (zeros ++ digits) 0 = Nat.ofDigitChars 10 digits 0 := by
  have hskip : (zeros ++ digits).dropWhile (· == '0') = digits.dropWhile (· == '0') :=
    List.dropWhile_append_of_pos fun c hc => beq_iff_eq.2 (hzeros c hc)
  rw [← ofDigitChars_dropWhile_zero (zeros ++ digits), hskip, ofDigitChars_dropWhile_zero]

theorem meaning_literal_zeros (hzeros : ∀ c ∈ zeros, c = '0') (digits : List Char) :
    (literal distinguish (zeros ++ digits)).meaning = (literal distinguish digits).meaning := by
  rw [literal, literal, ofDigitChars_zeros_append hzeros]
  split <;> rfl

end Lexeme

open Lexeme (literal)

/-! ### Runs of digits -/

/-- A run of digits of a text with no digit next to it. -/
structure DigitRun (text before digits after : List Char) : Prop where
  eq_append : text = before ++ (digits ++ after)
  ne_nil : digits ≠ []
  isDigit : ∀ c ∈ digits, Text.isDigit c = true
  starts : ∀ c ∈ before.getLast?, Text.isDigit c = false
  stops : ∀ c ∈ after.head?, Text.isDigit c = false

/-- The part of the source that a run of digits takes up. -/
def digitSpan (offset : Nat) (digits : List Char) : Span :=
  ⟨offset, ↑(offset + Utf8.size digits)⟩

/-- The entries that have some part of a span in common. -/
def overlapping (span : Span) (entries : List Entry) : List Entry :=
  entries.filter fun entry => entry.span.start < span.stop && span.start < entry.span.stop

theorem overlapping_append (span : Span) (first second : List Entry) :
    overlapping span (first ++ second) = overlapping span first ++ overlapping span second :=
  List.filter_append first second

theorem overlapping_eq_nil {span : Span} {entries : List Entry}
    (h : ∀ entry ∈ entries, entry.span.stop ≤ span.start ∨ span.stop ≤ entry.span.start) :
    overlapping span entries = [] := by
  refine List.filter_eq_nil_iff.2 fun entry hentry hoverlaps => ?_
  simp only [Bool.and_eq_true, decide_eq_true_eq] at hoverlaps
  have hapart := h entry hentry
  omega

namespace DigitRun

variable {text before digits after zeros : List Char}

theorem exists_first (h : DigitRun text before digits after) :
    ∃ first rest, digits = first :: rest ∧ Text.isDigit first = true := by
  obtain ⟨first, rest, rfl⟩ := List.exists_cons_of_ne_nil h.ne_nil
  exact ⟨first, rest, rfl, h.isDigit first List.mem_cons_self⟩

theorem zeros_append (h : DigitRun text before digits after) (hzeros : ∀ c ∈ zeros, c = '0') :
    DigitRun (before ++ (zeros ++ digits ++ after)) before (zeros ++ digits) after := by
  refine ⟨rfl, fun hnil => h.ne_nil (List.append_eq_nil_iff.1 hnil).2, ?_, h.starts, h.stops⟩
  refine List.forall_mem_append.2 ⟨fun c hc => ?_, h.isDigit⟩
  rw [hzeros c hc]
  rfl

theorem munch_eq {first : Char} {rest : List Char}
    (h : DigitRun text before (first :: rest) after) :
    Lexeme.munch first (rest ++ after) = (first :: rest, after) := by
  have hall : ∀ c ∈ rest, Text.isDigit c = true :=
    fun c hc => h.isDigit c (List.mem_cons_of_mem first hc)
  obtain ⟨htake, hdrop⟩ := takeWhile_append_of_stop h.stops rest
  rw [Lexeme.munch_of_isDigit (h.isDigit first List.mem_cons_self), htake, hdrop,
    List.takeWhile_eq_self_iff.2 hall, List.dropWhile_eq_nil_iff.2 hall, List.nil_append]

theorem not_joins (h : DigitRun text before digits after) : ¬Joins before (digits ++ after) := by
  intro hjoins
  obtain ⟨first, rest, rfl, hfirst⟩ := h.exists_first
  obtain ⟨c, d, hc, hd, hborder⟩ := hjoins.exists_border
  obtain rfl : first = d := Option.some.inj hd
  obtain ⟨-, rfl⟩ | ⟨p, hp, hpc, hpd⟩ := hborder
  · cases hfirst
  · rw [hp.unique .digit hpd hfirst, h.starts c hc] at hpc
    cases hpc

end DigitRun

/-! ### Scanners -/

namespace Scanner

variable {distinguish : Bool} {text before digits after : List Char} {position offset : Nat}

/-- **One literal.** A scanner that stands at a run of digits reads it in one go and stands behind
it. -/
theorem next_digits (h : DigitRun text before digits after) (hreadable : Lexeme.Readable digits)
    (position offset : Nat) :
    next distinguish ⟨digits ++ after, position, offset⟩ =
      (.entry ((literal distinguish digits).entry (digitSpan offset digits)),
        ⟨after, position + digits.length, offset + Utf8.size digits⟩) := by
  obtain ⟨first, rest, rfl, hfirst⟩ := h.exists_first
  have hblank : isBlank first = false := (isLayout_eq_false_iff.1 (isLayout_of_isDigit hfirst)).1
  have hmunch := h.munch_eq
  have hreading : Lexeme.classify distinguish first (Lexeme.munch first (rest ++ after)).1 =
      .ok (literal distinguish (first :: rest)) := by
    rw [hmunch, Lexeme.classify_of_isDigit hfirst, ← Lexeme.classifyIntegerBy_number?]
    exact Lexeme.classifyIntegerBy_eq_literal (fun _ _ => rfl) h.isDigit hreadable
  rw [List.cons_append, next_lexeme hblank hreading, hmunch]
  rfl

theorem within_stream {entry : Entry}
    (h : entry ∈ (stream distinguish ⟨text, position, offset⟩).entries) :
    (offset : Int) ≤ entry.span.start ∧ entry.span.stop ≤ ↑(offset + Utf8.size text) := by
  obtain ⟨earlier, later, hsplit⟩ := List.append_of_mem h
  obtain ⟨front, first, rest, reading, -, start, rfl, -, -, rfl, rfl, -⟩ := split_stream hsplit
  have hsize := congrArg Utf8.size (Lexeme.munch_append first rest)
  rw [Utf8.size_append] at hsize
  rw [Lexeme.span_entry, Utf8.size_append]
  dsimp only
  omega

/-- What a text is read as from its front: all that stands before a run of digits, the literal, and
all that stands behind it. -/
theorem stream_digits (h : DigitRun text before digits after)
    (hreadable : Lexeme.Readable digits) (hbefore : ¬Overlong before) :
    stream distinguish ⟨text, 0, 0⟩ =
      (stream distinguish ⟨after, before.length + digits.length,
          Utf8.size before + Utf8.size digits⟩).prepend
        ((stream distinguish ⟨before, 0, 0⟩).entries ++
          [(literal distinguish digits).entry (digitSpan (Utf8.size before) digits)]) := by
  have hfault : (stream distinguish ⟨before, 0, 0⟩).fault = none :=
    (stopsAt_stream before 0 0).eq_none_iff.2 hbefore
  have hnext : next distinguish ⟨digits ++ after, before.length, Utf8.size before⟩ = _ :=
    next_digits h hreadable before.length (Utf8.size before)
  rw [h.eq_append, stream_append (seamless_of_not_joins h.not_joins) 0 0 hfault, Nat.zero_add,
    Nat.zero_add, stream_of_entry (congrArg Prod.fst hnext), hnext, RawStream.prepend_prepend]

theorem overlapping_of_not_overlong (h : DigitRun text before digits after)
    (hreadable : Lexeme.Readable digits) (hbefore : ¬Overlong before) :
    overlapping (digitSpan (Utf8.size before) digits) (stream distinguish ⟨text, 0, 0⟩).entries =
      [(literal distinguish digits).entry (digitSpan (Utf8.size before) digits)] := by
  set span := digitSpan (Utf8.size before) digits with hspan
  have hearlier : overlapping span (stream distinguish ⟨before, 0, 0⟩).entries = [] := by
    refine overlapping_eq_nil fun entry hentry => .inl ?_
    have hstop := (within_stream hentry).2
    rwa [Nat.zero_add] at hstop
  have hlater : overlapping span (stream distinguish ⟨after, before.length + digits.length,
      Utf8.size before + Utf8.size digits⟩).entries = [] :=
    overlapping_eq_nil fun entry hentry => .inr (within_stream hentry).1
  have hself : overlapping span [(literal distinguish digits).entry span] =
      [(literal distinguish digits).entry span] := by
    have hsize := Utf8.size_pos h.ne_nil
    refine List.filter_eq_self.2 (List.forall_mem_singleton.2 ?_)
    rw [Lexeme.span_entry, hspan, digitSpan]
    simp only [Bool.and_eq_true, decide_eq_true_eq]
    omega
  rw [stream_digits h hreadable hbefore, RawStream.entries_prepend, overlapping_append,
    overlapping_append, hearlier, hlater, hself]
  rfl

theorem overlapping_of_overlong (h : DigitRun text before digits after)
    (hbefore : Overlong before) :
    overlapping (digitSpan (Utf8.size before) digits) (stream distinguish ⟨text, 0, 0⟩).entries =
        [] ∧
      ∃ fault, (stream distinguish ⟨text, 0, 0⟩).fault = some fault := by
  cases hfault : (stream distinguish ⟨before, 0, 0⟩).fault with
  | none => exact absurd hbefore ((stopsAt_stream before 0 0).eq_none_iff.1 hfault)
  | some fault =>
    rw [h.eq_append, stream_append_of_fault (seamless_of_not_joins h.not_joins) 0 0 hfault]
    refine ⟨overlapping_eq_nil fun entry hentry => .inl ?_, fault, hfault⟩
    have hstop := (within_stream hentry).2
    rwa [Nat.zero_add] at hstop

end Scanner

/-- **Integer literals.** Let a run of digits be short enough for a conversion, or have more digits
than the largest integer, leading zeros aside. A scanner that comes to it reads it in one go, as the
integer of its number if that is at most `2 ^ 63 - 1`, and as one error with all of the run if not.
In the scan of a source this is the only entry that overlaps with the run; a scan that is cut off by
a literal in front of it does not come to it. Leading zeros change nothing but the text of an error.
The count of the digits never refuses a number that fits, and what it leaves to the conversion is
never too long for that. -/
theorem integer_literals {source : String} {before digits after : List Char}
    (hrun : DigitRun source.toList before digits after) (hreadable : Lexeme.Readable digits)
    (settings : Settings) :
    let distinguish := settings.distinguishes
    let span := digitSpan (Utf8.size before) digits
    let scanned := (Lexer.ofSettings settings source).run false .raw
    (∀ position offset, Scanner.next distinguish ⟨digits ++ after, position, offset⟩ =
      (.entry ((literal distinguish digits).entry (digitSpan offset digits)),
        ⟨after, position + digits.length, offset + Utf8.size digits⟩)) ∧
      (¬Overlong before →
        overlapping span scanned.entries = [(literal distinguish digits).entry span]) ∧
      (Overlong before → overlapping span scanned.entries = [] ∧
        ∃ fault, scanned.ending = .failed fault) ∧
      (∀ zeros, (∀ c ∈ zeros, c = '0') → Lexeme.Readable (zeros ++ digits) →
        ∃ reading : Lexeme.Reading, reading.meaning = (literal distinguish digits).meaning ∧
          ∀ position offset, Scanner.next distinguish ⟨zeros ++ digits ++ after, position, offset⟩ =
            (.entry (reading.entry (digitSpan offset (zeros ++ digits))),
              ⟨after, position + (zeros ++ digits).length,
                offset + Utf8.size (zeros ++ digits)⟩)) ∧
      (Lexeme.maxDigits < (digits.dropWhile (· == '0')).length →
        2 ^ 63 - 1 < Nat.ofDigitChars 10 digits 0) ∧
      ∀ convert, (∀ short, short.length ≤ Text.digitLimit → convert short = Text.number? short) →
        Lexeme.classifyIntegerBy convert distinguish digits =
          Lexeme.classifyInteger distinguish digits := by
  intro distinguish span scanned
  obtain ⟨hentries, hending⟩ := (Lexer.ofSettings settings source).run_raw
  change scanned.entries = (Scanner.stream distinguish ⟨source.toList, 0, 0⟩).entries at hentries
  change scanned.ending = (Scanner.stream distinguish ⟨source.toList, 0, 0⟩).ending at hending
  rw [hentries, hending]
  refine ⟨Scanner.next_digits hrun hreadable,
    Scanner.overlapping_of_not_overlong hrun hreadable, ?_, ?_, ?_, ?_⟩
  · intro hbefore
    obtain ⟨hnothing, fault, hfault⟩ := Scanner.overlapping_of_overlong hrun hbefore
    refine ⟨hnothing, fault, ?_⟩
    rw [RawStream.ending, hfault]
  · intro zeros hzeros hzerosReadable
    refine ⟨literal distinguish (zeros ++ digits), Lexeme.meaning_literal_zeros hzeros digits, ?_⟩
    exact Scanner.next_digits (hrun.zeros_append hzeros) hzerosReadable
  · exact maxInteger_lt_ofDigitChars hrun.isDigit
  · intro convert hconvert
    rw [← Lexeme.classifyIntegerBy_number?,
      Lexeme.classifyIntegerBy_eq_literal hconvert hrun.isDigit hreadable,
      Lexeme.classifyIntegerBy_eq_literal (fun _ _ => rfl) hrun.isDigit hreadable]

/-- The largest integer with leading zeros, behind a character of two bytes, and the next number. -/
theorem integer_literals_limit :
    let source := "é 0009223372036854775807-9223372036854775808"
    let largest := "0009223372036854775807".toList
    let tooLarge := "9223372036854775808".toList
    let scanned := (Lexer.ofSettings {} source).run false .raw
    DigitRun source.toList ['é', ' '] largest ('-' :: tooLarge) ∧ Lexeme.Readable largest ∧
      DigitRun source.toList (['é', ' '] ++ largest ++ ['-']) tooLarge [] ∧
      Lexeme.Readable tooLarge ∧
      overlapping ⟨3, 25⟩ scanned.entries =
        [.token ⟨.integer, ⟨3, 25⟩, .number 9223372036854775807⟩] ∧
      overlapping ⟨26, 45⟩ scanned.entries =
        [.error ⟨.integerOverflow, ⟨26, 45⟩, "9223372036854775808"⟩] := by
  intro source largest tooLarge scanned
  have hlast (front : List Char) {c d : Char} (hd : Text.isDigit d = false)
      (hc : c ∈ (front ++ [d]).getLast?) : Text.isDigit c = false := by
    rw [List.getLast?_concat] at hc
    exact Option.some.inj hc ▸ hd
  have hlargest : DigitRun source.toList ['é', ' '] largest ('-' :: tooLarge) :=
    ⟨by decide, by decide, List.all_eq_true.1 (by decide), fun _ => hlast ['é'] rfl,
      fun _ hc => Option.some.inj hc ▸ rfl⟩
  have htooLarge : DigitRun source.toList (['é', ' '] ++ largest ++ ['-']) tooLarge [] :=
    ⟨by decide, by decide, List.all_eq_true.1 (by decide), fun _ => hlast _ rfl, nofun⟩
  have hreadable : Lexeme.Readable largest := by decide
  have hreadable' : Lexeme.Readable tooLarge := by decide
  obtain ⟨-, hfits, -⟩ := integer_literals hlargest hreadable {}
  obtain ⟨-, hflows, -⟩ := integer_literals htooLarge hreadable' {}
  refine ⟨hlargest, hreadable, htooLarge, hreadable', ?_, ?_⟩
  · exact hfits (not_overlong_of_length_le (by decide))
  · exact hflows (not_overlong_of_length_le (by decide))

end Offside
