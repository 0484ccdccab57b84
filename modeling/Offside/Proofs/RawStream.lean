import Offside.Lexing
import Offside.Proofs.Pulling

/-!
# Raw streams

Everything that a scanner reads up to the end of its text, or up to a literal that cannot be
converted. The stream of a text is determined from its front: a blank is passed over, and a lexeme
becomes one entry. `scan_eq_stream` says that a scan of a source is the stream of its text.
-/

namespace Offside

/-- The raw entries of a text, with the literal that ended them if one did. -/
structure RawStream where
  entries : List Entry := []
  fault : Option Text.TooManyDigits := none
  deriving DecidableEq, Repr

namespace RawStream

def prepend (entries : List Entry) (stream : RawStream) : RawStream :=
  { stream with entries := entries ++ stream.entries }

@[simp]
theorem entries_prepend (entries : List Entry) (stream : RawStream) :
    (stream.prepend entries).entries = entries ++ stream.entries := rfl

@[simp]
theorem fault_prepend (entries : List Entry) (stream : RawStream) :
    (stream.prepend entries).fault = stream.fault := rfl

@[simp]
theorem prepend_prepend (first second : List Entry) (stream : RawStream) :
    (stream.prepend second).prepend first = stream.prepend (first ++ second) := by
  simp [prepend]

def ending (stream : RawStream) : Ending :=
  match stream.fault with
  | none => .finished
  | some fault => .failed fault

end RawStream

namespace Scanner

variable {distinguish : Bool}

def stream (distinguish : Bool) (scanner : Scanner) : RawStream :=
  match _h : (scanner.next distinguish).1 with
  | .finished => {}
  | .failed fault => { fault := some fault }
  | .entry entry => ((scanner.next distinguish).2.stream distinguish).prepend [entry]
  termination_by scanner.rest.length
  decreasing_by exact next_length _h

theorem stream_of_finished {scanner : Scanner} (h : (scanner.next distinguish).1 = .finished) :
    scanner.stream distinguish = {} := by
  unfold stream
  split <;> simp_all

theorem stream_of_failed {scanner : Scanner} {fault : Text.TooManyDigits}
    (h : (scanner.next distinguish).1 = .failed fault) :
    scanner.stream distinguish = { fault := some fault } := by
  unfold stream
  split <;> simp_all

theorem stream_of_entry {scanner : Scanner} {entry : Entry}
    (h : (scanner.next distinguish).1 = .entry entry) :
    scanner.stream distinguish =
      ((scanner.next distinguish).2.stream distinguish).prepend [entry] := by
  rw [stream]
  split <;> simp_all

theorem stream_congr {first second : Scanner}
    (h : first.next distinguish = second.next distinguish) :
    first.stream distinguish = second.stream distinguish := by
  cases hnext : (second.next distinguish).1 with
  | finished => rw [stream_of_finished hnext, stream_of_finished (h ▸ hnext)]
  | failed fault => rw [stream_of_failed hnext, stream_of_failed (h ▸ hnext)]
  | entry entry => rw [stream_of_entry hnext, stream_of_entry (h ▸ hnext), h]

/-! ### The front of a text -/

section Front

variable {first : Char} {rest : List Char} {position offset : Nat}

theorem next_nil :
    next distinguish ⟨[], position, offset⟩ = (.finished, ⟨[], position, offset⟩) := by
  simp [next, skipBlanks, pass]

theorem next_blank (hblank : isBlank first = true) :
    next distinguish ⟨first :: rest, position, offset⟩ =
      next distinguish ⟨rest, position + 1, offset + first.utf8Size⟩ := by
  have hskip : skipBlanks ⟨first :: rest, position, offset⟩ =
      skipBlanks ⟨rest, position + 1, offset + first.utf8Size⟩ := by
    simp only [skipBlanks, pass, List.takeWhile_cons, List.dropWhile_cons, hblank, if_true,
      List.length_cons, Utf8.size_cons, Scanner.mk.injEq, true_and]
    omega
  rw [next, hskip, next]

theorem skipBlanks_cons (hblank : isBlank first = false) :
    skipBlanks ⟨first :: rest, position, offset⟩ = ⟨first :: rest, position, offset⟩ := by
  simp [skipBlanks, pass, hblank]

theorem next_lexeme {reading : Lexeme.Reading} (hblank : isBlank first = false)
    (hreading : Lexeme.classify distinguish first (Lexeme.munch first rest).1 = .ok reading) :
    next distinguish ⟨first :: rest, position, offset⟩ =
      (.entry (reading.entry ⟨offset, ↑(offset + Utf8.size (Lexeme.munch first rest).1)⟩),
        ⟨(Lexeme.munch first rest).2, position + (Lexeme.munch first rest).1.length,
          offset + Utf8.size (Lexeme.munch first rest).1⟩) := by
  rw [next, skipBlanks_cons hblank]
  simp [hreading, pass]

theorem next_fault {fault : Text.TooManyDigits} (hblank : isBlank first = false)
    (hfault : Lexeme.classify distinguish first (Lexeme.munch first rest).1 = .error fault) :
    next distinguish ⟨first :: rest, position, offset⟩ =
      (.failed fault, ⟨first :: rest, position, offset⟩) := by
  rw [next, skipBlanks_cons hblank]
  simp [hfault]

theorem stream_nil : stream distinguish ⟨[], position, offset⟩ = {} :=
  stream_of_finished (by rw [next_nil])

theorem stream_blank (hblank : isBlank first = true) :
    stream distinguish ⟨first :: rest, position, offset⟩ =
      stream distinguish ⟨rest, position + 1, offset + first.utf8Size⟩ :=
  stream_congr (next_blank hblank)

theorem stream_lexeme {reading : Lexeme.Reading} (hblank : isBlank first = false)
    (hreading : Lexeme.classify distinguish first (Lexeme.munch first rest).1 = .ok reading) :
    stream distinguish ⟨first :: rest, position, offset⟩ =
      (stream distinguish ⟨(Lexeme.munch first rest).2,
          position + (Lexeme.munch first rest).1.length,
          offset + Utf8.size (Lexeme.munch first rest).1⟩).prepend
        [reading.entry ⟨offset, ↑(offset + Utf8.size (Lexeme.munch first rest).1)⟩] := by
  have hnext : next distinguish ⟨first :: rest, position, offset⟩ = _ :=
    next_lexeme hblank hreading
  rw [stream_of_entry (congrArg Prod.fst hnext), hnext]

theorem stream_fault {fault : Text.TooManyDigits} (hblank : isBlank first = false)
    (hfault : Lexeme.classify distinguish first (Lexeme.munch first rest).1 = .error fault) :
    stream distinguish ⟨first :: rest, position, offset⟩ = { fault := some fault } :=
  stream_of_failed (by rw [next_fault hblank hfault])

end Front

/-- Induction on a text, lexeme by lexeme. -/
@[elab_as_elim]
theorem lexeme_induction (distinguish : Bool) {motive : List Char → Prop} (nil : motive [])
    (blank : ∀ first rest, isBlank first = true → motive rest → motive (first :: rest))
    (fault : ∀ first rest fault, isBlank first = false →
      Lexeme.classify distinguish first (Lexeme.munch first rest).1 = .error fault →
        motive (first :: rest))
    (lexeme : ∀ first rest reading, isBlank first = false →
      Lexeme.classify distinguish first (Lexeme.munch first rest).1 = .ok reading →
        motive (Lexeme.munch first rest).2 → motive (first :: rest))
    (text : List Char) : motive text := by
  induction hlength : text.length using Nat.strongRecOn generalizing text with
  | ind n ih =>
    subst hlength
    cases text with
    | nil => exact nil
    | cons first rest =>
      cases hblank : isBlank first with
      | true => exact blank first rest hblank (ih _ (Nat.lt_succ_self _) rest rfl)
      | false =>
        cases hreading : Lexeme.classify distinguish first (Lexeme.munch first rest).1 with
        | error found => exact fault first rest found hblank hreading
        | ok reading =>
          have hshort := Nat.lt_succ_of_le (Lexeme.munch_length first rest)
          exact lexeme first rest reading hblank hreading (ih _ hshort _ rfl)

/-- An entry of a stream is read from a lexeme of the text, and the stream goes on behind it. -/
theorem split_stream {text : List Char} {position offset : Nat} {before after : List Entry}
    {entry : Entry}
    (h : (stream distinguish ⟨text, position, offset⟩).entries = before ++ entry :: after) :
    ∃ front first rest reading position' start, text = front ++ first :: rest ∧
      isBlank first = false ∧
      Lexeme.classify distinguish first (Lexeme.munch first rest).1 = .ok reading ∧
      start = offset + Utf8.size front ∧
      entry = reading.entry ⟨start, ↑(start + Utf8.size (Lexeme.munch first rest).1)⟩ ∧
      stream distinguish ⟨text, position, offset⟩ =
        (stream distinguish ⟨(Lexeme.munch first rest).2, position',
          start + Utf8.size (Lexeme.munch first rest).1⟩).prepend (before ++ [entry]) := by
  induction text using lexeme_induction distinguish generalizing position offset before with
  | nil => simp [stream_nil] at h
  | blank first rest hblank ih =>
    rw [stream_blank hblank] at h ⊢
    obtain ⟨front, c, tail, reading, position', start, htext, hc, hreading, hstart, hends⟩ := ih h
    refine ⟨first :: front, c, tail, reading, position', start, ?_, hc, hreading, ?_, hends⟩
    · rw [htext, List.cons_append]
    · rw [hstart, Utf8.size_cons, Nat.add_assoc]
  | fault first rest fault hblank hreading =>
    rw [stream_fault hblank hreading] at h
    simp at h
  | lexeme first rest reading hblank hreading ih =>
    rw [stream_lexeme hblank hreading] at h ⊢
    obtain ⟨rfl, hhead⟩ | ⟨before, rfl, hothers⟩ := List.cons_eq_append_iff.1 h
    · obtain ⟨rfl, -⟩ := List.cons.inj hhead
      exact ⟨[], first, rest, reading, _, offset, rfl, hblank, hreading, rfl, rfl, rfl⟩
    · obtain ⟨front, c, tail, found, position', start, htext, hc, hfound, hstart, hentry,
        hstream⟩ := ih hothers
      refine ⟨(Lexeme.munch first rest).1 ++ front, c, tail, found, position', start, ?_, hc,
        hfound, ?_, hentry, ?_⟩
      · rw [List.append_assoc, ← htext, Lexeme.munch_append]
      · rw [hstart, Utf8.size_append, Nat.add_assoc]
      · rw [hstream, RawStream.prepend_prepend]
        rfl

end Scanner

/-! ### Scans -/

theorem Lexer.run_raw (lexer : Lexer) :
    (lexer.run false .raw).entries = (lexer.scanner.stream lexer.distinguish).entries ∧
      (lexer.run false .raw).ending = (lexer.scanner.stream lexer.distinguish).ending := by
  induction lexer using next_induction with
  | finished lexer hnext =>
    rw [run_of_finished (congrArg Pull.outcome (pull_raw_of_finished hnext)),
      Scanner.stream_of_finished hnext]
    exact ⟨rfl, rfl⟩
  | failed lexer fault hnext =>
    rw [run_of_failed (congrArg Pull.outcome (pull_raw_of_failed hnext)),
      Scanner.stream_of_failed hnext]
    exact ⟨rfl, rfl⟩
  | entry lexer entry hnext ih =>
    have hpull := pull_raw_of_entry hnext
    rw [run_of_entry (congrArg Pull.outcome hpull) (.inl rfl), Scanner.stream_of_entry hnext,
      hpull]
    obtain ⟨hentries, hending⟩ := ih lexer.widths
    exact ⟨congrArg (entry :: ·) hentries, hending⟩

def rawStream (settings : Settings) (source : String) : RawStream :=
  (Scanner.ofSource source).stream settings.distinguishes

theorem scan_eq_stream (settings : Settings) (source : String) :
    scan settings source =
      match (rawStream settings source).fault with
      | none => .ok (rawStream settings source).entries
      | some fault => .error (.tooManyDigits fault) := by
  obtain ⟨hentries, hending⟩ := (Lexer.ofSettings settings source).run_raw
  change _ = (rawStream settings source).entries at hentries
  change _ = (rawStream settings source).ending at hending
  rw [scan, Run.result, hending, hentries, RawStream.ending]
  cases (rawStream settings source).fault <;> rfl

theorem scan_eq_ok_iff {settings : Settings} {source : String} {entries : List Entry} :
    scan settings source = .ok entries ↔ rawStream settings source = { entries := entries } := by
  rw [scan_eq_stream]
  obtain ⟨found, fault⟩ := rawStream settings source
  cases fault <;> simp

theorem scan_lexeme (settings : Settings) (first : Char) (rest : List Char)
    (reading : Lexeme.Reading) (hblank : isBlank first = false)
    (hmunch : (Lexeme.munch first rest).2 = [])
    (hreading :
      Lexeme.classify settings.distinguishes first (Lexeme.munch first rest).1 = .ok reading) :
    scan settings (String.ofList (first :: rest)) =
      .ok [reading.entry ⟨0, Utf8.size (first :: rest)⟩] := by
  have hlexeme : (Lexeme.munch first rest).1 = first :: rest := by
    rw [← Lexeme.munch_append, hmunch, List.append_nil]
  rw [scan_eq_ok_iff, rawStream, Scanner.ofSource, String.toList_ofList,
    Scanner.stream_lexeme hblank hreading, hmunch, Scanner.stream_nil, hlexeme]
  simp [RawStream.prepend]

end Offside
