import Mathlib.Data.List.Chain
import Offside.Proofs.LexicalGrammar
import Offside.Proofs.PrintedNumbers
import Offside.Proofs.Readings
import Offside.Proofs.Spelling

/-!
# Scanned words

A token without its place is a word. The lists of words that a source can scan to are those whose
words are each the meaning of some lexeme and in which no two newlines are neighbours, and a list of
that kind is scanned from its own lexemes, written with a space between neighbours: `exact_image`.
-/

namespace Offside

open Lexeme (Reading)

structure Word where
  kind : TokenKind
  value : Payload
  deriving DecidableEq, Repr

namespace Word

def reading (word : Word) : Reading :=
  .token word.kind word.value

/-- The words that lexemes stand for. -/
inductive Scannable : Word → Prop where
  | literal (text : List Char) (kind : TokenKind) (listed : (text, kind) ∈ Pattern.literals) :
      Scannable ⟨kind, .nothing⟩
  | identifier {text : List Char} (letters : text ∈ Pattern.identifier.expression.matches')
      (free : text ∉ ["def".toList, "return".toList]) :
      Scannable ⟨.identifier, .text (String.ofList text)⟩
  | integer {n : Nat} (fits : n < 2 ^ 63) : Scannable ⟨.integer, .number n⟩
  | newline {text : List Char} (run : text ∈ Pattern.newline.expression.matches') :
      Scannable ⟨.newline, .text (String.ofList text)⟩

def Apart (word next : Word) : Prop :=
  ¬(word.kind = .newline ∧ next.kind = .newline)

/-- A word that carries nothing is written as the literal of its kind. -/
def lexeme (word : Word) : List Char :=
  match word.value with
  | .nothing =>
    ((Pattern.literals.find? fun literal => literal.2 == word.kind).map Prod.fst).getD []
  | value => value.plain.toList

/-- What is written between a word and the words behind it. -/
def gap (word : Word) : List Word → List Char
  | [] => []
  | _ :: _ => if word.kind = .newline then [] else [' ']

def write : List Word → List Char
  | [] => []
  | word :: words => word.lexeme ++ (word.gap words ++ write words)

end Word

/-- A list of words of which each is the meaning of a lexeme and no two neighbours are newlines. -/
structure Scannable (words : List Word) : Prop where
  each : ∀ word ∈ words, word.Scannable
  apart : words.IsChain Word.Apart

/-- The scan of a source consists of the words and has no errors. -/
def ScansTo (settings : Settings) (source : String) (words : List Word) : Prop :=
  ∃ entries, scan settings source = .ok entries ∧ errorsIn entries = [] ∧
    entries.map Entry.reading = words.map Word.reading

theorem scansTo_iff {settings : Settings} {source : String} {words : List Word} :
    ScansTo settings source words ↔
      Scanner.readings settings.distinguishes source.toList =
        { all := words.map Word.reading } := by
  rw [← readings_rawStream]
  constructor
  · rintro ⟨entries, hscan, -, hwords⟩
    rw [scan_eq_ok_iff.1 hscan, RawStream.readings, hwords]
  · intro hreadings
    have hwords : (rawStream settings source).entries.map Entry.reading = words.map Word.reading :=
      congrArg Readings.all hreadings
    have hfault : (rawStream settings source).fault = none := congrArg Readings.fault hreadings
    refine ⟨_, scan_eq_ok_iff.2 (congrArg (RawStream.mk _) hfault), ?_, hwords⟩
    refine errorsIn_eq_nil_iff.2 fun reading hreading => ?_
    obtain ⟨word, -, rfl⟩ := List.mem_map.1 (hwords ▸ hreading)
    rfl

/-! ### What lexemes stand for -/

section Lexemes

variable {distinguish : Bool} {first : Char} {rest : List Char} {word : Word}

theorem le_maxInteger_iff {n : Nat} : n ≤ Lexeme.maxInteger ↔ n < 2 ^ 63 :=
  Nat.lt_succ_iff.symm

theorem scannable_classifyWord {letters : List Char}
    (hletters : letters ∈ Pattern.identifier.expression.matches')
    (h : Lexeme.classifyWord letters = word.reading) : word.Scannable := by
  obtain ⟨kind, value⟩ := word
  rw [Lexeme.classifyWord] at h
  split_ifs at h with hdef hreturn
  · cases h
    exact .literal "def".toList _ (by decide)
  · cases h
    exact .literal "return".toList _ (by decide)
  · cases h
    refine .identifier hletters ?_
    simp only [List.mem_cons, List.not_mem_nil, or_false]
    exact not_or.2 ⟨hdef, hreturn⟩

theorem scannable_of_classify
    (h : Lexeme.classify distinguish first (Lexeme.munch first rest).1 = .ok word.reading) :
    word.Scannable := by
  rw [Lexeme.classify] at h
  split_ifs at h with hnewline hletter hdigit
  · obtain ⟨kind, value⟩ := word
    cases h
    subst hnewline
    rw [Lexeme.munch_newline]
    exact .newline (mem_matches_newline.2
      ⟨_, _, rfl, rfl, fun c hc => List.mem_takeWhile_imp hc⟩)
  · refine scannable_classifyWord ?_ (Except.ok.inj h)
    rw [Lexeme.munch, if_neg hnewline, if_pos hletter]
    exact (mem_matches_oneOrMore matches_letter).2
      ⟨first, _, rfl, hletter, fun c hc => List.mem_takeWhile_imp hc⟩
  · obtain ⟨hle, hword⟩ | hword := classifyInteger_cases h
    · obtain ⟨kind, value⟩ := word
      cases hword
      exact .integer (le_maxInteger_iff.1 hle)
    · cases hword
  · obtain ⟨kind, value⟩ := word
    rw [Lexeme.classifyPunctuation] at h
    split_ifs at h
    · cases h
      exact .literal "->".toList _ (by decide)
    · cases h
      exact .literal "(".toList _ (by decide)
    · cases h
      exact .literal ")".toList _ (by decide)
    · cases h
      exact .literal ":".toList _ (by decide)
    · cases h

end Lexemes

theorem apart_of_classify {distinguish : Bool} {first : Char} {rest : List Char} {word next : Word}
    (hreading : Lexeme.classify distinguish first (Lexeme.munch first rest).1 = .ok word.reading)
    (hnext : next.reading ∈ (Scanner.readings distinguish (Lexeme.munch first rest).2).all.head?) :
    word.Apart next := by
  rintro ⟨hword, hnextKind⟩
  by_cases hfirst : first = '\n'
  · subst hfirst
    rw [Lexeme.munch_newline] at hnext
    refine Scanner.ne_newline_of_mem_head? (fun c hc => eq_false_of_mem_head?_dropWhile hc) hnext
      next.value ?_
    rw [Word.reading, hnextKind]
  · refine ne_newline_of_classify hfirst hreading word.value ?_
    rw [Word.reading, hword]

/-- Whatever a text scans to without errors is a list of that kind. -/
theorem scannable_of_readings {distinguish : Bool} {text : List Char} {words : List Word}
    (h : Scanner.readings distinguish text = { all := words.map Word.reading }) :
    Scannable words := by
  induction text using Scanner.lexeme_induction distinguish generalizing words with
  | nil =>
    rw [Scanner.readings_nil] at h
    obtain rfl := List.map_eq_nil_iff.1 (congrArg Readings.all h).symm
    exact ⟨List.forall_mem_nil _, .nil⟩
  | blank first rest hblank ih =>
    rw [Scanner.readings_blank hblank] at h
    exact ih h
  | fault first rest fault hblank hreading =>
    rw [Scanner.readings_fault hblank hreading] at h
    cases congrArg Readings.fault h
  | lexeme first rest reading hblank hreading ih =>
    rw [Scanner.readings_lexeme hblank hreading] at h
    have hfault : (Scanner.readings distinguish (Lexeme.munch first rest).2).fault = none :=
      congrArg Readings.fault h
    obtain ⟨word, words, rfl, rfl, hwords⟩ :=
      List.map_eq_cons_iff.1 (congrArg Readings.all h).symm
    have hrest : Scanner.readings distinguish (Lexeme.munch first rest).2 =
        { all := words.map Word.reading } := by
      rw [hwords, ← hfault]
    obtain ⟨heach, hapart⟩ := ih hrest
    refine ⟨List.forall_mem_cons.2 ⟨scannable_of_classify hreading, heach⟩, ?_⟩
    refine List.isChain_cons.2 ⟨fun next hnext => apart_of_classify hreading ?_, hapart⟩
    rw [hrest, List.head?_map]
    exact Option.mem_map_of_mem Word.reading hnext

/-! ### Writing -/

section Digits

variable {n : Nat}

theorem length_toDigits_le (hn : n ≤ Lexeme.maxInteger) :
    (Nat.toDigits 10 n).length ≤ Lexeme.maxDigits := by
  have hlt : n < 10 ^ Lexeme.maxDigits := Nat.lt_of_le_of_lt hn (by decide)
  exact Nat.length_toDigits_le_iff (by decide) (by decide) |>.2 hlt

theorem classifyInteger_toDigits (hn : n ≤ Lexeme.maxInteger) (distinguish : Bool) :
    Lexeme.classifyInteger distinguish (Nat.toDigits 10 n) =
      .ok (.token .integer (.number n)) := by
  have hlength := length_toDigits_le hn
  have hsignificant :=
    (List.dropWhile_sublist (· == '0') (l := Nat.toDigits 10 n)).length_le
  have hconvertible : Text.Convertible n := Nat.le_trans hlength (by decide)
  rw [Lexeme.classifyInteger, if_neg (by omega), Text.number?_toDigits hconvertible, Except.map,
    if_pos hn]

end Digits

namespace Word

variable {word : Word} {words : List Word}

theorem lexeme_literal : ∀ literal ∈ Pattern.literals,
    (⟨literal.2, .nothing⟩ : Word).lexeme = literal.1 := by
  decide

theorem lexeme_number (kind : TokenKind) (n : Nat) :
    (⟨kind, .number n⟩ : Word).lexeme = Nat.toDigits 10 n :=
  Json.toString_of_nonneg (Int.natCast_nonneg n)

theorem lexeme_text (kind : TokenKind) (text : List Char) :
    (⟨kind, .text (String.ofList text)⟩ : Word).lexeme = text :=
  String.toList_ofList

/-- The lexeme of a word is read as the word, all of it. -/
theorem Scannable.reads (h : word.Scannable) (distinguish : Bool) :
    ∃ first rest, word.lexeme = first :: rest ∧ isBlank first = false ∧
      Lexeme.munch first rest = (first :: rest, []) ∧
      Lexeme.classify distinguish first (first :: rest) = .ok word.reading := by
  cases h with
  | literal text kind listed =>
    rw [lexeme_literal _ listed]
    simp only [Pattern.literals, List.mem_cons, Prod.mk.injEq, List.not_mem_nil, or_false] at listed
    obtain ⟨rfl, rfl⟩ | ⟨rfl, rfl⟩ | ⟨rfl, rfl⟩ | ⟨rfl, rfl⟩ | ⟨rfl, rfl⟩ | ⟨rfl, rfl⟩ := listed
    all_goals exact ⟨_, _, rfl, rfl, rfl, rfl⟩
  | @identifier text letters free =>
    obtain ⟨c, rest, rfl, hc, hrest⟩ := (mem_matches_oneOrMore matches_letter).1 letters
    rw [List.mem_cons, List.mem_singleton, not_or] at free
    have hdef : c :: rest ≠ ['d', 'e', 'f'] := free.1
    have hreturn : c :: rest ≠ ['r', 'e', 't', 'u', 'r', 'n'] := free.2
    obtain ⟨hblank, hnewline⟩ := isLayout_eq_false_iff.1 (isLayout_of_isLetter hc)
    refine ⟨c, rest, lexeme_text _ _, hblank, Lexeme.munch_of_run .letter hblank hc hrest, ?_⟩
    rw [Lexeme.classify, if_neg hnewline, if_pos hc, Lexeme.classifyWord, if_neg hdef,
      if_neg hreturn]
    rfl
  | @integer n fits =>
    obtain ⟨c, rest, hdigits, hc⟩ := Text.toDigits_cons n
    have hrest : ∀ d ∈ rest, Text.isDigit d = true := by
      intro d hd
      apply Text.isDigit_of_mem_toDigits
      rw [hdigits]
      exact List.mem_cons_of_mem c hd
    obtain ⟨hblank, hnewline⟩ := isLayout_eq_false_iff.1 (isLayout_of_isDigit hc)
    refine ⟨c, rest, (lexeme_number _ n).trans hdigits, hblank,
      Lexeme.munch_of_run .digit hblank hc hrest, ?_⟩
    rw [Lexeme.classify, if_neg hnewline, if_neg (by simp [isLetter_of_isDigit hc]), if_pos hc,
      ← hdigits, classifyInteger_toDigits (le_maxInteger_iff.2 fits)]
    rfl
  | @newline text run =>
    obtain ⟨c, rest, rfl, hc, hrest⟩ := mem_matches_newline.1 run
    obtain rfl := eq_of_beq hc
    exact ⟨_, rest, lexeme_text _ _, rfl, Lexeme.munch_of_run .layout rfl rfl hrest, rfl⟩

theorem Scannable.isLayout_eq_true (h : word.Scannable) (hkind : word.kind = .newline) :
    ∀ c ∈ word.lexeme, isLayout c = true := by
  cases h with
  | literal text kind listed =>
    obtain rfl : kind = .newline := hkind
    simp [Pattern.literals] at listed
  | identifier => cases hkind
  | integer => cases hkind
  | newline run =>
    rw [lexeme_text]
    obtain ⟨c, rest, rfl, hc, hrest⟩ := mem_matches_newline.1 run
    obtain rfl := eq_of_beq hc
    exact List.forall_mem_cons.2 ⟨rfl, hrest⟩

theorem Scannable.isLayout_eq_false (h : word.Scannable) (hkind : word.kind ≠ .newline) :
    ∀ c ∈ word.lexeme, isLayout c = false := by
  cases h with
  | literal text kind listed =>
    rw [lexeme_literal _ listed]
    have hplain : ∀ literal ∈ Pattern.literals, ∀ c ∈ literal.1, isLayout c = false := by
      simp [Pattern.literals, isLayout, isBlank]
    exact hplain _ listed
  | identifier letters =>
    rw [lexeme_text]
    obtain ⟨first, rest, rfl, hfirst, hrest⟩ := (mem_matches_oneOrMore matches_letter).1 letters
    rw [List.forall_mem_cons]
    exact ⟨isLayout_of_isLetter hfirst, fun c hc => isLayout_of_isLetter (hrest c hc)⟩
  | integer =>
    rw [lexeme_number]
    exact fun c hc => isLayout_of_isDigit (Text.isDigit_of_mem_toDigits hc)
  | newline => exact absurd rfl hkind

theorem head?_write_cons (h : word.Scannable) :
    (write (word :: words)).head? = word.lexeme.head? := by
  obtain ⟨first, rest, hlexeme, -⟩ := h.reads false
  rw [write, hlexeme]
  rfl

theorem not_joins_write (h : word.Scannable) (hwords : ∀ next ∈ words, next.Scannable)
    (hapart : ∀ next ∈ words.head?, word.Apart next) :
    ¬Joins word.lexeme (word.gap words ++ write words) := by
  intro hjoins
  obtain ⟨c, d, hc, hd, hborder⟩ := hjoins.exists_border
  have hmem := List.mem_of_getLast? hc
  cases words with
  | nil => cases hd
  | cons next words =>
    by_cases hkind : word.kind = .newline
    · -- A newline stands next to a lexeme that does not begin with a character of its run.
      have hnext : next.kind ≠ .newline := fun hnext => hapart next rfl ⟨hkind, hnext⟩
      rw [gap, if_pos hkind, List.nil_append,
        head?_write_cons (hwords next List.mem_cons_self)] at hd
      have hlayoutC := h.isLayout_eq_true hkind c hmem
      have hlayoutD := (hwords next List.mem_cons_self).isLayout_eq_false hnext d
        (List.mem_of_head? hd)
      obtain ⟨rfl, -⟩ | ⟨p, hp, hpc, hpd⟩ := hborder
      · cases hlayoutC
      · rw [IsClass.unique .layout hp hlayoutC hpc, hpd] at hlayoutD
        cases hlayoutD
    · -- Any other word has a space behind it, and its last character is not one of a newline.
      rw [gap, if_neg hkind] at hd
      obtain rfl := Option.some.inj hd
      have hlayoutC := h.isLayout_eq_false hkind c hmem
      obtain ⟨-, hmark⟩ | ⟨p, hp, hpc, hpd⟩ := hborder
      · exact absurd hmark (by decide)
      · rw [IsClass.unique .layout hp rfl hpd, hpc] at hlayoutC
        cases hlayoutC

end Word

variable {words : List Word}

theorem readings_gap {distinguish : Bool} (word : Word) (text : List Char) :
    Scanner.readings distinguish (word.gap words ++ text) = Scanner.readings distinguish text := by
  cases words with
  | nil => rfl
  | cons next words =>
    rw [Word.gap]
    split
    · rfl
    · exact Scanner.readings_blank rfl

/-- A list of that kind is read back from what is written for it. -/
theorem Scannable.readings_write (h : Scannable words) (distinguish : Bool) :
    Scanner.readings distinguish (Word.write words) = { all := words.map Word.reading } := by
  induction words with
  | nil => exact Scanner.readings_nil
  | cons word words ih =>
    obtain ⟨hword, hwords⟩ := List.forall_mem_cons.1 h.each
    obtain ⟨hapart, hchain⟩ := List.isChain_cons.1 h.apart
    have hjoins := Word.not_joins_write hword hwords hapart
    obtain ⟨first, rest, hlexeme, hblank, hmunch, hreading⟩ := hword.reads distinguish
    rw [hlexeme] at hjoins
    have hall := Lexeme.munch_append_of_not_joins hblank fun _ => hjoins
    rw [hmunch, List.nil_append] at hall
    have hfirst : Lexeme.classify distinguish first
        (Lexeme.munch first (rest ++ (word.gap words ++ Word.write words))).1 =
          .ok word.reading := by
      rw [hall, hreading]
    rw [Word.write, hlexeme, List.cons_append, Scanner.readings_lexeme hblank hfirst, hall,
      readings_gap, ih ⟨hwords, hchain⟩]
    rfl

/-- **The exact image of the scanner.** A list of words is what some source scans to without errors
just when it is scannable, and then it is also scanned from its lexemes, written with one space
between neighbours and nothing behind a newline. -/
theorem exact_image (settings : Settings) (words : List Word) :
    ((∃ source, ScansTo settings source words) ↔ Scannable words) ∧
      (ScansTo settings (String.ofList (Word.write words)) words ↔ Scannable words) := by
  have hwritten (h : Scannable words) :
      ScansTo settings (String.ofList (Word.write words)) words := by
    rw [scansTo_iff, String.toList_ofList]
    exact h.readings_write settings.distinguishes
  have hscannable {source : String} (h : ScansTo settings source words) : Scannable words :=
    scannable_of_readings (scansTo_iff.1 h)
  exact ⟨⟨fun ⟨_, h⟩ => hscannable h, fun h => ⟨_, hwritten h⟩⟩, ⟨hscannable, hwritten⟩⟩

example :
    Word.write [⟨.identifier, .text "f"⟩, ⟨.newline, .text "\n\t"⟩, ⟨.integer, .number 10⟩,
      ⟨.arrow, .nothing⟩] = "f \n\t10 ->".toList := by decide

end Offside
