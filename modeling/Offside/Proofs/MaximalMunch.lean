import Mathlib
import Offside.Proofs.Decimals
import Offside.Proofs.LexicalGrammar
import Offside.Proofs.RawStream

/-!
# Maximal munch

The tokenizer that the lexical grammar asks for: it skips a blank, and otherwise takes the longest
match of any pattern, or one character when no pattern matches. It tries every pattern on every
prefix and knows nothing of character classes. `scan_eq_maximalMunch` says that a scan, wherever it
gives a stream at all, gives this one.
-/

namespace Offside

namespace Pattern

/-- The pattern that reaches farthest into a text, the one listed first of those that reach equally
far. There is none when no pattern matches. -/
def best? (text : List Char) : Option Pattern :=
  (all.argmax fun pattern => pattern.reach text).filter fun pattern => pattern.reach text ≠ 0

theorem reach_ne_zero_of_best? {text : List Char} {pattern : Pattern}
    (h : best? text = some pattern) : pattern.reach text ≠ 0 := by
  simpa using (Option.filter_eq_some_iff.1 h).2

def reading (distinguish : Bool) (lexeme : List Char) : Pattern → Lexeme.Reading
  | literal _ kind => .token kind .nothing
  | identifier => .token .identifier (.text (String.ofList lexeme))
  | newline => .token .newline (.text (String.ofList lexeme))
  | integer =>
    if Nat.ofDigitChars 10 lexeme 0 ≤ 2 ^ 63 - 1 then
      .token .integer (.number (Nat.ofDigitChars 10 lexeme 0))
    else
      .error (if distinguish then .integerOverflow else .unrecognizedToken) (String.ofList lexeme)

end Pattern

/-- The entries of a text that stands at a byte offset. -/
def munchFrom (distinguish : Bool) (offset : Nat) : List Char → List Entry
  | [] => []
  | first :: rest =>
    if first = ' ' ∨ first = '\t' then munchFrom distinguish (offset + 1) rest
    else match _hbest : Pattern.best? (first :: rest) with
      | some pattern =>
        let width := pattern.reach (first :: rest)
        let lexeme := (first :: rest).take width
        let stop := offset + Utf8.size lexeme
        (pattern.reading distinguish lexeme).entry ⟨offset, stop⟩ ::
          munchFrom distinguish stop ((first :: rest).drop width)
      | none =>
        let stop := offset + first.utf8Size
        .error ⟨.unrecognizedToken, ⟨offset, stop⟩, String.singleton first⟩ ::
          munchFrom distinguish stop rest
  termination_by text => text.length
  decreasing_by
    · simp
    · have := Pattern.reach_ne_zero_of_best? _hbest
      simp only [List.length_drop, List.length_cons]
      omega
    · simp

namespace Pattern

/-! ### The pattern that wins -/

theorem forall_mem_all {p : Pattern → Prop}
    (hliteral : ∀ entry ∈ literals, p (literal entry.1 entry.2))
    (hidentifier : p identifier) (hinteger : p integer) (hnewline : p newline) :
    ∀ pattern ∈ all, p pattern := by
  intro pattern hmem
  obtain hword | hclass := List.mem_append.1 hmem
  · obtain ⟨entry, hentry, rfl⟩ := List.mem_map.1 hword
    exact hliteral entry hentry
  · simp only [List.mem_cons, List.not_mem_nil, or_false] at hclass
    rcases hclass with rfl | rfl | rfl
    · exact hidentifier
    · exact hinteger
    · exact hnewline

theorem best?_eq_some {text : List Char} {pattern : Pattern} (hmem : pattern ∈ all)
    (hpos : 0 < pattern.reach text)
    (hmax : ∀ other ∈ all, other.reach text < pattern.reach text ∨
      other.reach text = pattern.reach text ∧ all.idxOf pattern ≤ all.idxOf other) :
    best? text = some pattern := by
  rw [best?, Option.filter_eq_some_iff, List.argmax_eq_some_iff]
  refine ⟨⟨hmem, ?_, ?_⟩, decide_eq_true (Nat.ne_of_gt hpos)⟩
  · intro other hother
    obtain hlt | ⟨heq, -⟩ := hmax other hother
    · exact Nat.le_of_lt hlt
    · exact Nat.le_of_eq heq
  · intro other hother hle
    obtain hlt | ⟨-, hindex⟩ := hmax other hother
    · omega
    · exact hindex

theorem best?_eq_some_of_others {text : List Char} {pattern : Pattern} (hmem : pattern ∈ all)
    (hpos : 0 < pattern.reach text)
    (hothers : ∀ other ∈ all, other ≠ pattern → other.reach text = 0) :
    best? text = some pattern := by
  refine best?_eq_some hmem hpos fun other hother => ?_
  by_cases hsame : other = pattern
  · exact .inr ⟨by rw [hsame], by rw [hsame]⟩
  · rw [hothers other hother hsame]
    exact .inl hpos

theorem best?_eq_none {text : List Char} (h : ∀ pattern ∈ all, pattern.reach text = 0) :
    best? text = none := by
  cases hbest : best? text with
  | none => rfl
  | some pattern =>
    obtain ⟨hmax, -⟩ := Option.filter_eq_some_iff.1 hbest
    exact absurd (h pattern (List.argmax_mem hmax)) (reach_ne_zero_of_best? hbest)

section Front

variable {first : Char} {rest : List Char}

theorem reach_identifier : identifier.reach (first :: rest) =
    if isLetter first then (rest.takeWhile isLetter).length + 1 else 0 :=
  reach_run (fun _ => mem_matches_oneOrMore matches_letter) first rest

theorem reach_integer : integer.reach (first :: rest) =
    if Text.isDigit first then (rest.takeWhile Text.isDigit).length + 1 else 0 :=
  reach_run (fun _ => mem_matches_oneOrMore matches_digit) first rest

theorem reach_newline : newline.reach (first :: rest) =
    if first = '\n' then (rest.takeWhile isLayout).length + 1 else 0 := by
  rw [reach_run (fun _ => mem_matches_newline)]
  simp

theorem reach_literal_eq_zero {p : Char → Bool} {word : List Char} {kind : TokenKind}
    (hfirst : p first = true) (hword : word.head?.any p = false) :
    (literal word kind).reach (first :: rest) = 0 := by
  cases word with
  | nil => simp [reach_literal]
  | cons c word =>
    rw [reach_literal, if_neg]
    intro hpre
    rw [(List.cons_prefix_cons.1 hpre).1] at hword
    simp [hfirst] at hword

theorem reach_word {word : List Char} {kind : TokenKind} (hword : ∀ c ∈ word, isLetter c = true)
    (hfirst : isLetter first = true) :
    (literal word kind).reach (first :: rest) < (rest.takeWhile isLetter).length + 1 ∨
      (literal word kind).reach (first :: rest) = (rest.takeWhile isLetter).length + 1 ∧
        word = first :: rest.takeWhile isLetter := by
  rw [reach_literal]
  split
  · rename_i hpre
    have hrun : word <+: first :: rest.takeWhile isLetter := by
      obtain ⟨after, hafter⟩ := hpre
      rw [← List.takeWhile_cons_of_pos hfirst, ← hafter, List.takeWhile_append_of_pos hword]
      exact List.prefix_append _ _
    have hle := hrun.length_le
    rw [List.length_cons] at hle
    obtain hlt | heq := Nat.lt_or_eq_of_le hle
    · exact .inl hlt
    · exact .inr ⟨heq, hrun.eq_of_length heq⟩
  · exact .inl (Nat.succ_pos _)

theorem best?_newline : best? ('\n' :: rest) = some newline := by
  refine best?_eq_some_of_others (by decide) (by simp [reach_newline]) ?_
  apply forall_mem_all
  · intro entry hentry _
    have hhead : ∀ entry ∈ literals, entry.1.head?.any (· == '\n') = false := by decide
    exact reach_literal_eq_zero (p := (· == '\n')) rfl (hhead entry hentry)
  · intro _
    rw [reach_identifier, if_neg (by decide)]
  · intro _
    rw [reach_integer, if_neg (by decide)]
  · exact fun h => absurd rfl h

theorem best?_digit (hdigit : Text.isDigit first = true) :
    best? (first :: rest) = some integer := by
  refine best?_eq_some_of_others (by decide) (by simp [reach_integer, hdigit]) ?_
  apply forall_mem_all
  · intro entry hentry _
    have hhead : ∀ entry ∈ literals, entry.1.head?.any Text.isDigit = false := by decide
    exact reach_literal_eq_zero hdigit (hhead entry hentry)
  · intro _
    rw [reach_identifier, if_neg (by simp [isLetter_of_isDigit hdigit])]
  · exact fun h => absurd rfl h
  · intro _
    rw [reach_newline, if_neg]
    rintro rfl
    exact absurd hdigit (by decide)

/-- Of a run of letters the pattern is that of a keyword if the run is one. -/
def ofWord (run : List Char) : Pattern :=
  if run = ['d', 'e', 'f'] then literal run .defKeyword
  else if run = ['r', 'e', 't', 'u', 'r', 'n'] then literal run .returnKeyword
  else identifier

theorem ofWord_mem_all (run : List Char) :
    ofWord run ∈ all ∧ all.idxOf (ofWord run) ≤ all.idxOf identifier := by
  unfold ofWord
  split
  · rename_i hdef
    rw [hdef]
    decide
  · split
    · rename_i hreturn
      rw [hreturn]
      decide
    · decide

theorem reach_ofWord (hletter : isLetter first = true) :
    (ofWord (first :: rest.takeWhile isLetter)).reach (first :: rest) =
      (rest.takeWhile isLetter).length + 1 := by
  have hpre : first :: rest.takeWhile isLetter <+: first :: rest := by
    rw [List.prefix_cons_inj]
    exact List.takeWhile_prefix _
  unfold ofWord
  split
  · rw [reach_literal, if_pos hpre, List.length_cons]
  · split
    · rw [reach_literal, if_pos hpre, List.length_cons]
    · rw [reach_identifier, if_pos hletter]

theorem reach_literals (hletter : isLetter first = true) {entry : List Char × TokenKind}
    (hentry : entry ∈ literals) :
    (literal entry.1 entry.2).reach (first :: rest) < (rest.takeWhile isLetter).length + 1 ∨
      (literal entry.1 entry.2).reach (first :: rest) = (rest.takeWhile isLetter).length + 1 ∧
        entry.1 = first :: rest.takeWhile isLetter := by
  have hall : literals.all
      (fun entry => entry.1.all isLetter || !entry.1.head?.any isLetter) = true := by decide
  have hcases := List.all_eq_true.1 hall entry hentry
  rw [Bool.or_eq_true, Bool.not_eq_true'] at hcases
  obtain hletters | hhead := hcases
  · exact reach_word (List.all_eq_true.1 hletters) hletter
  · rw [reach_literal_eq_zero hletter hhead]
    exact .inl (Nat.succ_pos _)

theorem best?_letter (hletter : isLetter first = true) :
    best? (first :: rest) = some (ofWord (first :: rest.takeWhile isLetter)) := by
  have hreach : (ofWord (first :: rest.takeWhile isLetter)).reach (first :: rest) = _ :=
    reach_ofWord hletter
  have hinteger : integer.reach (first :: rest) = 0 := by
    rw [reach_integer, if_neg]
    intro hdigit
    rw [isLetter_of_isDigit hdigit] at hletter
    exact absurd hletter (by decide)
  have hnewline : newline.reach (first :: rest) = 0 := by
    rw [reach_newline, if_neg]
    rintro rfl
    exact absurd hletter (by decide)
  refine best?_eq_some (ofWord_mem_all _).1 (by omega) (forall_mem_all ?_ ?_ ?_ ?_)
  · intro entry hentry
    rw [hreach]
    obtain hlt | ⟨heq, hrun⟩ := reach_literals hletter hentry
    · exact .inl hlt
    · have hindex : ∀ entry ∈ literals, entry.1.head?.any isLetter = true →
          all.idxOf (ofWord entry.1) ≤ all.idxOf (literal entry.1 entry.2) := by decide
      rw [← hrun]
      exact .inr ⟨heq, hindex entry hentry (by rw [hrun]; exact hletter)⟩
  · rw [hreach, reach_identifier, if_pos hletter]
    exact .inr ⟨rfl, (ofWord_mem_all _).2⟩
  · exact .inl (by omega)
  · exact .inl (by omega)

/-- Where no class reaches, the only literal that the text begins with wins. -/
theorem best?_literal {text : List Char} (entry : List Char × TokenKind) (hentry : entry ∈ literals)
    (hpre : entry.1 <+: text) (hne : entry.1 ≠ [])
    (honly : ∀ other ∈ literals, other.1 <+: text → other = entry)
    (hclasses : identifier.reach text = 0 ∧ integer.reach text = 0 ∧ newline.reach text = 0) :
    best? text = some (literal entry.1 entry.2) := by
  refine best?_eq_some_of_others ?_ ?_ (forall_mem_all ?_ ?_ ?_ ?_)
  · exact List.mem_append_left _ (List.mem_map.2 ⟨entry, hentry, rfl⟩)
  · rw [reach_literal, if_pos hpre]
    exact List.length_pos_iff.2 hne
  · intro other hother hdistinct
    rw [reach_literal, if_neg]
    intro hpre'
    rw [honly other hother hpre'] at hdistinct
    exact hdistinct rfl
  · exact fun _ => hclasses.1
  · exact fun _ => hclasses.2.1
  · exact fun _ => hclasses.2.2

theorem best?_mark (hletter : isLetter first = false) (hdigit : Text.isDigit first = false)
    (hnewline : first ≠ '\n') :
    best? (first :: rest) =
      if first = '-' ∧ rest.head? = some '>' then some (literal ['-', '>'] .arrow)
      else if first = '(' then some (literal ['('] .leftParen)
      else if first = ')' then some (literal [')'] .rightParen)
      else if first = ':' then some (literal [':'] .colon)
      else none := by
  have hclasses : identifier.reach (first :: rest) = 0 ∧ integer.reach (first :: rest) = 0 ∧
      newline.reach (first :: rest) = 0 := by
    simp [reach_identifier, reach_integer, reach_newline, hletter, hdigit, hnewline]
  split_ifs with harrow hleft hright hcolon
  · obtain ⟨rfl, hhead⟩ := harrow
    obtain ⟨tail, rfl⟩ := List.head?_eq_some_iff.1 hhead
    exact best?_literal (['-', '>'], .arrow) (by decide) (by simp) (by simp)
      (by simp [literals]) hclasses
  · subst first
    exact best?_literal (['('], .leftParen) (by decide) (by simp) (by simp)
      (by simp [literals]) hclasses
  · subst first
    exact best?_literal ([')'], .rightParen) (by decide) (by simp) (by simp)
      (by simp [literals]) hclasses
  · subst first
    exact best?_literal ([':'], .colon) (by decide) (by simp) (by simp)
      (by simp [literals]) hclasses
  · have hhead : ∀ c : Char, isLetter c = true → c ≠ first := by
      rintro c hc rfl
      simp [hletter] at hc
    refine best?_eq_none (forall_mem_all ?_ hclasses.1 hclasses.2.1 hclasses.2.2)
    have hmarks : '(' ≠ first ∧ ')' ≠ first ∧ ('-' = first → ¬['>'] <+: rest) ∧ ':' ≠ first := by
      refine ⟨Ne.symm hleft, Ne.symm hright, ?_, Ne.symm hcolon⟩
      rintro rfl ⟨tail, rfl⟩
      exact harrow ⟨rfl, rfl⟩
    simpa [literals, reach_literal, hhead 'd' rfl, hhead 'r' rfl] using hmarks

end Front

/-! ### What the pattern makes of a lexeme -/

theorem reading_ofWord (distinguish : Bool) (run : List Char) :
    (ofWord run).reading distinguish run = Lexeme.classifyWord run := by
  unfold ofWord Lexeme.classifyWord
  split
  · rfl
  · split <;> rfl

theorem reading_integer {distinguish : Bool} {digits : List Char} {reading : Lexeme.Reading}
    (hdigits : ∀ c ∈ digits, Text.isDigit c = true)
    (hreading : Lexeme.classifyInteger distinguish digits = .ok reading) :
    integer.reading distinguish digits = reading := by
  rw [Lexeme.classifyInteger] at hreading
  split at hreading
  · rename_i hlong
    have hlarge : ¬Nat.ofDigitChars 10 digits 0 ≤ 2 ^ 63 - 1 :=
      Nat.not_le_of_lt (maxInteger_lt_ofDigitChars hdigits hlong)
    rw [Pattern.reading, if_neg hlarge]
    exact Except.ok.inj hreading
  · rw [Text.number?] at hreading
    split at hreading
    · exact Except.ok.inj hreading
    · cases hreading

section Classify

variable {distinguish : Bool} {first : Char} {rest : List Char} {reading : Lexeme.Reading}

theorem best?_of_classifyPunctuation (hnewline : first ≠ '\n') (hletter : ¬isLetter first = true)
    (hdigit : ¬Text.isDigit first = true)
    (hreading : Lexeme.classifyPunctuation (Lexeme.munch first rest).1 = reading) :
    (∃ pattern, best? (first :: rest) = some pattern ∧
      pattern.reach (first :: rest) = (Lexeme.munch first rest).1.length ∧
      pattern.reading distinguish (Lexeme.munch first rest).1 = reading) ∨
    best? (first :: rest) = none ∧ Lexeme.munch first rest = ([first], rest) ∧
      reading = .error .unrecognizedToken (String.singleton first) := by
  have hbest : best? (first :: rest) = _ :=
    best?_mark (eq_false_of_ne_true hletter) (eq_false_of_ne_true hdigit) hnewline
  rw [Lexeme.munch, if_neg hnewline, if_neg hletter, if_neg hdigit] at hreading ⊢
  by_cases harrow : first = '-' ∧ rest.head? = some '>'
  · rw [if_pos harrow] at hbest hreading ⊢
    obtain ⟨rfl, hhead⟩ := harrow
    obtain ⟨tail, rfl⟩ := List.head?_eq_some_iff.1 hhead
    exact .inl ⟨_, hbest, by simp [reach_literal], hreading⟩
  rw [if_neg harrow] at hbest hreading ⊢
  by_cases hleft : first = '('
  · subst first
    exact .inl ⟨_, hbest, by simp [reach_literal], hreading⟩
  rw [if_neg hleft] at hbest
  by_cases hright : first = ')'
  · subst first
    exact .inl ⟨_, hbest, by simp [reach_literal], hreading⟩
  rw [if_neg hright] at hbest
  by_cases hcolon : first = ':'
  · subst first
    exact .inl ⟨_, hbest, by simp [reach_literal], hreading⟩
  rw [if_neg hcolon] at hbest
  refine .inr ⟨hbest, rfl, ?_⟩
  rw [← hreading, String.singleton_eq_ofList]
  simp [Lexeme.classifyPunctuation, hleft, hright, hcolon]

/-- What the first character makes of a lexeme is what the pattern that wins makes of it. -/
theorem best?_of_classify
    (hreading : Lexeme.classify distinguish first (Lexeme.munch first rest).1 = .ok reading) :
    (∃ pattern, best? (first :: rest) = some pattern ∧
      pattern.reach (first :: rest) = (Lexeme.munch first rest).1.length ∧
      pattern.reading distinguish (Lexeme.munch first rest).1 = reading) ∨
    best? (first :: rest) = none ∧ Lexeme.munch first rest = ([first], rest) ∧
      reading = .error .unrecognizedToken (String.singleton first) := by
  rw [Lexeme.classify] at hreading
  by_cases hnewline : first = '\n'
  · subst first
    rw [if_pos rfl] at hreading
    refine .inl ⟨newline, best?_newline, ?_, Except.ok.inj hreading⟩
    simp [reach_newline, Lexeme.munch]
  rw [if_neg hnewline] at hreading
  by_cases hletter : isLetter first = true
  · have hmunch : (Lexeme.munch first rest).1 = first :: rest.takeWhile isLetter := by
      rw [Lexeme.munch, if_neg hnewline, if_pos hletter]
    rw [if_pos hletter, hmunch] at hreading
    refine .inl ⟨_, best?_letter hletter, ?_, ?_⟩
    · rw [reach_ofWord hletter, hmunch, List.length_cons]
    · rw [hmunch, reading_ofWord]
      exact Except.ok.inj hreading
  rw [if_neg hletter] at hreading
  by_cases hdigit : Text.isDigit first = true
  · have hmunch : (Lexeme.munch first rest).1 = first :: rest.takeWhile Text.isDigit := by
      rw [Lexeme.munch, if_neg hnewline, if_neg hletter, if_pos hdigit]
    rw [if_pos hdigit, hmunch] at hreading
    refine .inl ⟨integer, best?_digit hdigit, ?_, ?_⟩
    · rw [reach_integer, if_pos hdigit, hmunch, List.length_cons]
    · rw [hmunch]
      refine reading_integer ?_ hreading
      rw [List.forall_mem_cons]
      exact ⟨hdigit, fun c hc => List.all_eq_true.1 List.all_takeWhile c hc⟩
  rw [if_neg hdigit] at hreading
  exact best?_of_classifyPunctuation hnewline hletter hdigit (Except.ok.inj hreading)

end Classify

end Pattern

/-! ### The stream -/

section Front

variable {distinguish : Bool} {first : Char} {rest : List Char} {offset : Nat}

theorem munchFrom_nil : munchFrom distinguish offset [] = [] := by
  rw [munchFrom]

theorem munchFrom_blank (hblank : isBlank first = true) :
    munchFrom distinguish offset (first :: rest) =
      munchFrom distinguish (offset + first.utf8Size) rest := by
  rw [munchFrom]
  simp only [isBlank, Bool.or_eq_true, beq_iff_eq] at hblank
  rw [if_pos hblank]
  obtain rfl | rfl := hblank <;> rfl

theorem munchFrom_lexeme {reading : Lexeme.Reading} (hblank : isBlank first = false)
    (hreading : Lexeme.classify distinguish first (Lexeme.munch first rest).1 = .ok reading) :
    munchFrom distinguish offset (first :: rest) =
      reading.entry ⟨offset, ↑(offset + Utf8.size (Lexeme.munch first rest).1)⟩ ::
        munchFrom distinguish (offset + Utf8.size (Lexeme.munch first rest).1)
          (Lexeme.munch first rest).2 := by
  have hnotBlank : ¬(first = ' ' ∨ first = '\t') := by
    simpa [isBlank] using hblank
  rw [munchFrom, if_neg hnotBlank]
  obtain ⟨pattern, hbest, hreach, rfl⟩ | ⟨hbest, hmunch, rfl⟩ :=
    Pattern.best?_of_classify hreading
  · split
    · rename_i found hfound
      obtain rfl : pattern = found := Option.some.inj (hbest.symm.trans hfound)
      rw [hreach, ← Lexeme.munch_append first rest]
      simp
    · rename_i hfound
      simp [hbest] at hfound
  · split
    · rename_i found hfound
      simp [hbest] at hfound
    · rw [hmunch]
      simp [Lexeme.Reading.entry]

end Front

def maximalMunch (distinguish : Bool) (source : String) : List Entry :=
  munchFrom distinguish 0 source.toList

theorem munchFrom_eq_stream {distinguish : Bool} (text : List Char) (position offset : Nat)
    (hfault : (Scanner.stream distinguish ⟨text, position, offset⟩).fault = none) :
    munchFrom distinguish offset text =
      (Scanner.stream distinguish ⟨text, position, offset⟩).entries := by
  induction text using Scanner.lexeme_induction distinguish generalizing position offset with
  | nil => rw [munchFrom_nil, Scanner.stream_nil]
  | blank first rest hblank ih =>
    rw [Scanner.stream_blank hblank] at hfault ⊢
    rw [munchFrom_blank hblank]
    exact ih _ _ hfault
  | fault first rest fault hblank hreading =>
    rw [Scanner.stream_fault hblank hreading] at hfault
    cases hfault
  | lexeme first rest reading hblank hreading ih =>
    rw [Scanner.stream_lexeme hblank hreading] at hfault ⊢
    rw [munchFrom_lexeme hblank hreading, ih _ _ hfault]
    rfl

/-- **Maximal munch.** A stream that a scan gives is that of the tokenizer which takes the longest
match everywhere. -/
theorem scan_eq_maximalMunch {settings : Settings} {source : String} {entries : List Entry}
    (h : scan settings source = .ok entries) :
    entries = maximalMunch settings.distinguishes source := by
  have hstream : Scanner.stream settings.distinguishes ⟨source.toList, 0, 0⟩ = ⟨entries, none⟩ :=
    scan_eq_ok_iff.1 h
  rw [maximalMunch, munchFrom_eq_stream _ 0 0 (congrArg RawStream.fault hstream), hstream]

def mixedSource : String :=
  "def defx->-\n\t\n 00 9223372036854775808é"

def mixedEntries : List Entry :=
  [.token ⟨.defKeyword, ⟨0, 3⟩, .nothing⟩, .token ⟨.identifier, ⟨4, 8⟩, .text "defx"⟩,
    .token ⟨.arrow, ⟨8, 10⟩, .nothing⟩, .error ⟨.unrecognizedToken, ⟨10, 11⟩, "-"⟩,
    .token ⟨.newline, ⟨11, 15⟩, .text "\n\t\n "⟩, .token ⟨.integer, ⟨15, 17⟩, .number 0⟩,
    .error ⟨.integerOverflow, ⟨18, 37⟩, "9223372036854775808"⟩,
    .error ⟨.unrecognizedToken, ⟨37, 39⟩, "é"⟩]

theorem scan_mixedSource :
    scan {} mixedSource = .ok mixedEntries ∧
      mixedEntries = maximalMunch (Settings.distinguishes {}) mixedSource := by
  have h : scan {} mixedSource = .ok mixedEntries := by cbv
  exact ⟨h, scan_eq_maximalMunch h⟩

end Offside
