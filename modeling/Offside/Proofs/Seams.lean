import Mathlib.Data.List.TakeWhile
import Mathlib.Tactic.SplitIfs
import Offside.Proofs.RawStream

/-!
# Seams

What becomes of the stream of a text when the text is moved in a source or has another text behind
it. `stream_shift`: moving a text moves the spans and changes nothing else. `stream_append`: the
stream goes on behind the text as long as no lexeme reaches over the seam.
-/

namespace Offside

/-! ### Moving -/

namespace Entry

def shift (distance : Int) : Entry → Entry
  | .token t => .token { t with span := ⟨t.span.start + distance, t.span.stop + distance⟩ }
  | .error e => .error { e with span := ⟨e.span.start + distance, e.span.stop + distance⟩ }

/-- An entry without its place. -/
def reading : Entry → Lexeme.Reading
  | .token t => .token t.kind t.value
  | .error e => .error e.kind e.text

@[simp]
theorem reading_shift (distance : Int) (entry : Entry) :
    (entry.shift distance).reading = entry.reading := by
  cases entry <;> rfl

end Entry

@[simp]
theorem Lexeme.Reading.reading_entry (reading : Lexeme.Reading) (span : Span) :
    (reading.entry span).reading = reading := by
  cases reading <;> rfl

theorem Lexeme.Reading.entry_shift (reading : Lexeme.Reading) (start stop distance : Int) :
    (reading.entry ⟨start, stop⟩).shift distance =
      reading.entry ⟨start + distance, stop + distance⟩ := by
  cases reading <;> rfl

def RawStream.shift (distance : Int) (stream : RawStream) : RawStream :=
  { stream with entries := stream.entries.map (Entry.shift distance) }

namespace Scanner

variable {distinguish : Bool}

theorem stream_shift (text : List Char) (position position' offset distance : Nat) :
    stream distinguish ⟨text, position, offset + distance⟩ =
      (stream distinguish ⟨text, position', offset⟩).shift distance := by
  induction text using lexeme_induction distinguish generalizing position position' offset with
  | nil => rw [stream_nil, stream_nil]; rfl
  | blank first rest hblank ih =>
    rw [stream_blank hblank, stream_blank hblank, Nat.add_right_comm]
    exact ih _ _ _
  | fault first rest fault hblank hreading =>
    rw [stream_fault hblank hreading, stream_fault hblank hreading]
    rfl
  | lexeme first rest reading hblank hreading ih =>
    rw [stream_lexeme hblank hreading, stream_lexeme hblank hreading, Nat.add_right_comm, ih]
    simp only [RawStream.shift, RawStream.prepend, List.map_cons, List.map_append,
      Lexeme.Reading.entry_shift]
    push_cast
    rfl

/-! ### Joining -/

/-- No lexeme of a text reaches farther when something stands behind the text. -/
def Seamless (text suffix : List Char) : Prop :=
  ∀ first rest, first :: rest <:+ text → isBlank first = false →
    Lexeme.munch first (rest ++ suffix) =
      ((Lexeme.munch first rest).1, (Lexeme.munch first rest).2 ++ suffix)

theorem Seamless.of_suffix {text text' suffix : List Char} (h : Seamless text suffix)
    (hsuffix : text' <:+ text) : Seamless text' suffix :=
  fun first rest hrest => h first rest (hrest.trans hsuffix)

theorem stream_append {text suffix : List Char} (hseam : Seamless text suffix)
    (position offset : Nat) (hfault : (stream distinguish ⟨text, position, offset⟩).fault = none) :
    stream distinguish ⟨text ++ suffix, position, offset⟩ =
      (stream distinguish ⟨suffix, position + text.length, offset + Utf8.size text⟩).prepend
        (stream distinguish ⟨text, position, offset⟩).entries := by
  induction text using lexeme_induction distinguish generalizing position offset with
  | nil => rw [stream_nil]; rfl
  | blank first rest hblank ih =>
    rw [stream_blank hblank] at hfault ⊢
    rw [List.cons_append, stream_blank hblank,
      ih (hseam.of_suffix (List.suffix_cons first rest)) _ _ hfault, List.length_cons,
      Utf8.size_cons, Nat.add_right_comm position, Nat.add_assoc position, Nat.add_assoc offset]
  | fault first rest fault hblank hreading =>
    rw [stream_fault hblank hreading] at hfault
    cases hfault
  | lexeme first rest reading hblank hreading ih =>
    rw [stream_lexeme hblank hreading] at hfault ⊢
    have hmunch := hseam first rest List.suffix_rfl hblank
    have hrest : (Lexeme.munch first rest).2 <:+ first :: rest :=
      ⟨_, Lexeme.munch_append first rest⟩
    have hlength := congrArg List.length (Lexeme.munch_append first rest)
    have hsize := congrArg Utf8.size (Lexeme.munch_append first rest)
    rw [List.length_append] at hlength
    rw [Utf8.size_append] at hsize
    rw [List.cons_append, stream_lexeme hblank (by rw [hmunch]; exact hreading), hmunch,
      ih (hseam.of_suffix hrest) _ _ hfault, ← hlength, ← hsize, Nat.add_assoc position,
      Nat.add_assoc offset, RawStream.prepend_prepend]
    rfl

theorem stream_append_of_fault {text suffix : List Char} (hseam : Seamless text suffix)
    (position offset : Nat) {fault : Text.TooManyDigits}
    (hfault : (stream distinguish ⟨text, position, offset⟩).fault = some fault) :
    stream distinguish ⟨text ++ suffix, position, offset⟩ =
      stream distinguish ⟨text, position, offset⟩ := by
  induction text using lexeme_induction distinguish generalizing position offset with
  | nil =>
    rw [stream_nil] at hfault
    cases hfault
  | blank first rest hblank ih =>
    rw [stream_blank hblank] at hfault ⊢
    rw [List.cons_append, stream_blank hblank]
    exact ih (hseam.of_suffix (List.suffix_cons first rest)) _ _ hfault
  | fault first rest found hblank hreading =>
    have hmunch := hseam first rest List.suffix_rfl hblank
    rw [List.cons_append, stream_fault hblank hreading,
      stream_fault hblank (by rw [hmunch]; exact hreading)]
  | lexeme first rest reading hblank hreading ih =>
    have hmunch := hseam first rest List.suffix_rfl hblank
    have hrest : (Lexeme.munch first rest).2 <:+ first :: rest :=
      ⟨_, Lexeme.munch_append first rest⟩
    rw [stream_lexeme hblank hreading] at hfault ⊢
    rw [List.cons_append, stream_lexeme hblank (by rw [hmunch]; exact hreading), hmunch,
      ih (hseam.of_suffix hrest) _ _ hfault]

end Scanner

/-! ### Where no lexeme reaches over -/

/-- A lexeme that ends in the one character goes on with the other. -/
def Bonds (c d : Char) : Prop :=
  isLetter c = true ∧ isLetter d = true ∨ Text.isDigit c = true ∧ Text.isDigit d = true ∨
    c = '-' ∧ d = '>'

/-- A lexeme reaches over the seam between two texts. -/
inductive Joins : List Char → List Char → Prop where
  | pair {before after : List Char} {c d : Char} (bonds : Bonds c d) :
      Joins (before ++ [c]) (d :: after)
  | newlines {before blanks after : List Char} {d : Char} (blank : ∀ c ∈ blanks, isBlank c = true)
      (next : isLayout d = true) : Joins (before ++ '\n' :: blanks) (d :: after)

namespace Joins

variable {before after : List Char}

theorem append_left (front : List Char) (h : Joins before after) :
    Joins (front ++ before) after := by
  cases h with
  | pair bonds =>
    rw [← List.append_assoc]
    exact .pair bonds
  | newlines blank next =>
    rw [← List.append_assoc]
    exact .newlines blank next

/-- The characters at the seam are the two of an arrow, or of one class. -/
theorem exists_border (h : Joins before after) :
    ∃ c d, before.getLast? = some c ∧ after.head? = some d ∧
      (c = '-' ∧ d = '>' ∨ ∃ p, IsClass p ∧ p c = true ∧ p d = true) := by
  cases h with
  | pair bonds =>
    refine ⟨_, _, List.getLast?_concat, rfl, ?_⟩
    obtain hletter | hdigit | harrow := bonds
    · exact .inr ⟨isLetter, .letter, hletter⟩
    · exact .inr ⟨Text.isDigit, .digit, hdigit⟩
    · exact .inl harrow
  | @newlines before blanks after d blank next =>
    have hlast : isLayout (blanks.getLast?.getD '\n') = true := by
      cases hblanks : blanks.getLast? with
      | none => rfl
      | some c => exact isLayout_of_isBlank (blank c (List.mem_of_getLast? hblanks))
    have hborder : (before ++ '\n' :: blanks).getLast? = some (blanks.getLast?.getD '\n') := by
      simp [List.getLast?_cons]
    exact ⟨_, _, hborder, rfl, .inr ⟨isLayout, .layout, hlast, next⟩⟩

theorem of_run {p : Char → Bool} (hp : IsClass p) {first d : Char} {rest : List Char}
    (hfirst : isBlank first = false) (hrun : ∀ c ∈ first :: rest, p c = true) (hd : p d = true) :
    Joins (first :: rest) (d :: after) := by
  have hconcat : (first :: rest).dropLast ++ [(first :: rest).getLast (List.cons_ne_nil _ _)] =
      first :: rest := List.dropLast_concat_getLast _
  have hlast := hrun _ (List.getLast_mem (List.cons_ne_nil first rest))
  cases hp with
  | layout =>
    obtain rfl := eq_newline_of_isLayout (hrun first List.mem_cons_self) hfirst
    have hnewline : '\n' ∈ '\n' :: rest := List.mem_cons_self
    obtain ⟨before, blanks, hsplit, hnone⟩ := exists_lastLine hnewline
    rw [hsplit] at hrun ⊢
    refine .newlines (fun c hc => isBlank_of_isLayout (hrun c (by simp [hc])) ?_) hd
    rintro rfl
    exact hnone hc
  | letter =>
    rw [← hconcat]
    exact .pair (.inl ⟨hlast, hd⟩)
  | digit =>
    rw [← hconcat]
    exact .pair (.inr (.inl ⟨hlast, hd⟩))

end Joins

namespace Lexeme

variable {first : Char} {rest suffix : List Char}

/-- A lexeme is a run of characters of one class or a mark. -/
theorem munch_cases (hblank : isBlank first = false) :
    (∃ p, IsClass p ∧ p first = true ∧
      ∀ rest, munch first rest = (first :: rest.takeWhile p, rest.dropWhile p)) ∨
    ((∀ p, IsClass p → p first = false) ∧
      ∀ rest, munch first rest =
        if first = '-' ∧ rest.head? = some '>' then (['-', '>'], rest.tail)
        else ([first], rest)) := by
  by_cases hnewline : first = '\n'
  · subst hnewline
    exact .inl ⟨isLayout, .layout, rfl, fun rest => by rw [munch, if_pos rfl]⟩
  by_cases hletter : isLetter first = true
  · refine .inl ⟨isLetter, .letter, hletter, fun rest => ?_⟩
    rw [munch, if_neg hnewline, if_pos hletter]
  by_cases hdigit : Text.isDigit first = true
  · refine .inl ⟨Text.isDigit, .digit, hdigit, fun rest => ?_⟩
    rw [munch, if_neg hnewline, if_neg hletter, if_pos hdigit]
  refine .inr ⟨fun p hp => ?_, fun rest => ?_⟩
  · cases hp <;> simp_all [isLayout]
  · rw [munch, if_neg hnewline, if_neg hletter, if_neg hdigit]

theorem isClass_of_mem_munch {p : Char → Bool} (hp : IsClass p) {c : Char}
    (hc : c ∈ (munch first rest).1) (hpc : p c = true) : p first = true := by
  have hrun {q : Char → Bool} (hq : IsClass q) (hfirst : q first = true)
      (hc : c ∈ first :: rest.takeWhile q) : p first = true := by
    obtain rfl | hc := List.mem_cons.1 hc
    · exact hpc
    · rwa [hp.unique hq hpc (List.mem_takeWhile_imp hc)]
  rw [munch] at hc
  split_ifs at hc with hnewline hletter hdigit harrow
  · exact hrun .layout (hnewline ▸ rfl) hc
  · exact hrun .letter hletter hc
  · exact hrun .digit hdigit hc
  · obtain rfl | hc := List.mem_cons.1 hc
    · rwa [harrow.1]
    · obtain rfl := List.mem_singleton.1 hc
      cases hp <;> cases hpc
  · rwa [← List.mem_singleton.1 hc]

theorem munch_of_run {p : Char → Bool} (hp : IsClass p) (hblank : isBlank first = false)
    (hfirst : p first = true) (hrest : ∀ c ∈ rest, p c = true) :
    munch first rest = (first :: rest, []) := by
  obtain ⟨q, hq, hqfirst, hmunch⟩ | ⟨hnone, -⟩ := munch_cases hblank
  · obtain rfl := hq.unique hp hqfirst hfirst
    rw [hmunch, List.takeWhile_eq_self_iff.2 hrest, List.dropWhile_eq_nil_iff.2 hrest]
  · rw [hnone p hp] at hfirst
    cases hfirst

end Lexeme

theorem takeWhile_append_of_border {p : Char → Bool} {rest suffix : List Char}
    (hborder : rest.dropWhile p = [] → ∀ c ∈ suffix.head?, p c = false) :
    (rest ++ suffix).takeWhile p = rest.takeWhile p ∧
      (rest ++ suffix).dropWhile p = rest.dropWhile p ++ suffix := by
  induction rest with
  | nil =>
    have hstop := hborder rfl
    cases suffix <;> simp_all
  | cons c rest ih =>
    by_cases hc : p c = true
    · rw [List.dropWhile_cons_of_pos hc] at hborder
      simp [hc, ih hborder]
    · simp [hc]

theorem takeWhile_append_of_stop {p : Char → Bool} {suffix : List Char}
    (hstop : ∀ c ∈ suffix.head?, p c = false) (rest : List Char) :
    (rest ++ suffix).takeWhile p = rest.takeWhile p ∧
      (rest ++ suffix).dropWhile p = rest.dropWhile p ++ suffix :=
  takeWhile_append_of_border fun _ => hstop

namespace Lexeme

variable {first : Char} {rest suffix : List Char}

/-- A lexeme keeps its end, unless it is all of its text and joins with what stands behind. -/
theorem munch_append_of_not_joins (hblank : isBlank first = false)
    (h : (munch first rest).2 = [] → ¬Joins (first :: rest) suffix) :
    munch first (rest ++ suffix) = ((munch first rest).1, (munch first rest).2 ++ suffix) := by
  obtain ⟨p, hp, hfirst, hmunch⟩ | ⟨-, hmunch⟩ := munch_cases hblank
  · rw [hmunch] at h
    rw [hmunch, hmunch]
    have hborder : rest.dropWhile p = [] → ∀ c ∈ suffix.head?, p c = false := by
      intro hall c hc
      obtain ⟨after, rfl⟩ := List.head?_eq_some_iff.1 hc
      refine eq_false_of_ne_true fun hpc => h hall (.of_run hp hblank ?_ hpc)
      exact List.forall_mem_cons.2 ⟨hfirst, List.dropWhile_eq_nil_iff.1 hall⟩
    obtain ⟨htake, hdrop⟩ := takeWhile_append_of_border hborder
    rw [htake, hdrop]
  · rw [hmunch] at h
    rw [hmunch, hmunch]
    cases rest with
    | cons c rest =>
      rw [List.cons_append, List.head?_cons, List.head?_cons]
      split <;> rfl
    | nil =>
      rw [if_neg (by simp)] at h
      have hmark : ¬(first = '-' ∧ suffix.head? = some '>') := by
        rintro ⟨rfl, hhead⟩
        obtain ⟨after, rfl⟩ := List.head?_eq_some_iff.1 hhead
        have hjoins : Joins ([] ++ ['-']) ('>' :: after) := .pair (.inr (.inr ⟨rfl, rfl⟩))
        exact h rfl hjoins
      rw [List.nil_append, if_neg hmark, if_neg (by simp)]
      rfl

theorem not_joins_munch (hblank : isBlank first = false) :
    ¬Joins (munch first rest).1 (munch first rest).2 := by
  intro h
  obtain ⟨c, d, hc, hd, hborder⟩ := h.exists_border
  obtain ⟨p, hp, hfirst, hmunch⟩ | ⟨hnone, hmunch⟩ := munch_cases hblank
  · rw [hmunch] at hc hd
    have hpc : p c = true := by
      obtain rfl | hc := List.mem_cons.1 (List.mem_of_getLast? hc)
      · exact hfirst
      · exact List.mem_takeWhile_imp hc
    have hpd : p d = false := eq_false_of_mem_head?_dropWhile hd
    obtain ⟨rfl, -⟩ | ⟨q, hq, hqc, hqd⟩ := hborder
    · cases hp <;> cases hpc
    · rw [hp.unique hq hpc hqc, hqd] at hpd
      cases hpd
  · rw [hmunch] at hc hd
    by_cases harrow : first = '-' ∧ rest.head? = some '>'
    · rw [if_pos harrow] at hc
      obtain rfl := Option.some.inj hc
      obtain ⟨hmark, -⟩ | ⟨q, hq, hqc, -⟩ := hborder
      · exact absurd hmark (by decide)
      · cases hq <;> cases hqc
    · rw [if_neg harrow] at hc hd
      obtain rfl : first = c := Option.some.inj hc
      obtain ⟨hmark, rfl⟩ | ⟨q, hq, hqc, -⟩ := hborder
      · exact harrow ⟨hmark, hd⟩
      · rw [hnone q hq] at hqc
        cases hqc

end Lexeme

namespace Scanner

theorem seamless_of_not_joins {text suffix : List Char} (h : ¬Joins text suffix) :
    Seamless text suffix := by
  rintro first rest ⟨front, rfl⟩ hblank
  exact Lexeme.munch_append_of_not_joins hblank fun _ hjoins => h (hjoins.append_left front)

end Scanner

theorem seamless_of_newline {text suffix : List Char} (htext : '\n' ∉ text)
    (hsuffix : ∀ c ∈ suffix.head?, c = '\n') : Scanner.Seamless text suffix := by
  apply Scanner.seamless_of_not_joins
  intro h
  cases h with
  | pair bonds =>
    obtain rfl := hsuffix _ rfl
    obtain ⟨-, hletter⟩ | ⟨-, hdigit⟩ | ⟨-, hmark⟩ := bonds
    · cases hletter
    · cases hdigit
    · exact absurd hmark (by decide)
  | newlines => exact htext (by simp)

end Offside
