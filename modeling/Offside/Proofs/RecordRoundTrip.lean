import Offside.Proofs.Places
import Offside.Proofs.PrintedValues
import Offside.Proofs.RawStream
import Offside.Record

/-!
# The round trip of a stream

A stream that is printed as JSON is read back as it was: `readEntries?_printEntries`. Every record
comes back from its own value, and the values of entries are legible as long as their numbers can be
converted, as those of lexed sources can.
-/

namespace Offside

namespace Record

/-! ### Records -/

theorem fetch_of_lookup {key : String} {fields : List (String × Json)} {value : Json}
    (h : fields.lookup key = some value) : fetch key (.object fields) = .ok value := by
  rw [fetch, h]

theorem kindOf_of_name {Kind : Type} {ofName? : String → Option Kind} {name : String} {kind : Kind}
    (h : ofName? name = some kind) : kindOf ofName? (.string name) = .ok kind := by
  rw [kindOf, h]

theorem fetch_start (start stop : Json) : fetch "start" (spanJson start stop) = .ok start :=
  fetch_of_lookup rfl

theorem fetch_end (start stop : Json) : fetch "end" (spanJson start stop) = .ok stop :=
  fetch_of_lookup rfl

theorem ofJson_toJson (record : Record) : ofJson record.toJson = .ok record := by
  cases record with
  | token kind start stop value =>
    have hspan : fetch "span" (token kind start stop value).toJson = .ok (spanJson start stop) :=
      fetch_of_lookup rfl
    have htype : fetch "type" (token kind start stop value).toJson = .ok (.string kind.name) :=
      fetch_of_lookup rfl
    have hkind := kindOf_of_name (TokenKind.ofName?_name kind)
    rw [toJson] at hspan htype ⊢
    simp [ofJson, List.lookup_cons, hspan, fetch_start, fetch_end, htype, hkind, bind, Except.bind,
      pure, Except.pure]
  | error kind start stop text =>
    have hspan : fetch "span" (error kind start stop text).toJson = .ok (spanJson start stop) :=
      fetch_of_lookup rfl
    have htype : fetch "kind" (error kind start stop text).toJson = .ok (.string kind.name) :=
      fetch_of_lookup rfl
    have hkind := kindOf_of_name (ErrorKind.ofName?_name kind)
    rw [toJson] at hspan htype ⊢
    simp [ofJson, List.lookup_cons, hspan, fetch_start, fetch_end, htype, hkind, bind, Except.bind,
      pure, Except.pure]

theorem mapM_ofJson (records : List Record) : (records.map toJson).mapM ofJson = .ok records := by
  induction records with
  | nil => rfl
  | cons record records ih =>
    rw [List.map_cons, List.mapM_cons, ofJson_toJson, ih]
    rfl

theorem mapM_typed? (entries : List Entry) : (entries.map ofEntry).mapM typed? = some entries := by
  induction entries with
  | nil => rfl
  | cons entry entries ih =>
    rw [List.map_cons, List.mapM_cons, typed?_ofEntry, ih]
    rfl

/-! ### Legible records -/

theorem legible_spanJson {room : Nat} {start stop : Json} (hstart : Json.Legible room start)
    (hstop : Json.Legible room stop) : Json.Legible (room + 1) (spanJson start stop) := by
  apply Json.Legible.object
  · simp
  · simp [hstart, hstop]

theorem legible_payloadJson {room : Nat} {payload : Payload}
    (h : ∀ n, payload = .number n → Text.Convertible n.natAbs) :
    Json.Legible room (payloadJson payload) := by
  cases payload with
  | nothing => exact .null
  | text s => exact .string s
  | number n => exact .int (h n rfl)

end Record

/-- All numbers of an entry can be read back. -/
structure Entry.Storable (entry : Entry) : Prop where
  start : Text.Convertible entry.span.start.natAbs
  stop : Text.Convertible entry.span.stop.natAbs
  number : ∀ n ∈ entry.number?, Text.Convertible n.natAbs

namespace Entry

theorem Storable.legible {entry : Entry} (h : entry.Storable) :
    Json.Legible 2 (Record.ofEntry entry).toJson := by
  have hspan : Json.Legible 1 (Record.spanJson (.int entry.span.start) (.int entry.span.stop)) :=
    Record.legible_spanJson (.int h.start) (.int h.stop)
  cases entry with
  | token t =>
    obtain ⟨kind, span, value⟩ := t
    have hvalue : Json.Legible 1 (Record.payloadJson value) := by
      apply Record.legible_payloadJson
      rintro n rfl
      exact h.number n rfl
    apply Json.Legible.object
    · simp
    · simp only [List.forall_mem_cons]
      exact ⟨.string _, hspan, .string _, hvalue, nofun⟩
  | error e =>
    apply Json.Legible.object
    · simp
    · simp only [List.forall_mem_cons]
      exact ⟨.string _, .string _, hspan, .string _, nofun⟩

theorem Within.storable {size : Nat} {entry : Entry} (h : entry.Within size)
    (hsize : size < 10 ^ Text.digitLimit) : entry.Storable := by
  have hstart := h.start_nonneg
  have hle := h.start_le_stop
  have hstop := h.stop_le
  refine ⟨?_, ?_, fun n hn => ?_⟩
  · apply Text.convertible_iff.mpr
    exact Nat.lt_of_le_of_lt (by omega) hsize
  · apply Text.convertible_iff.mpr
    exact Nat.lt_of_le_of_lt (by omega) hsize
  · obtain ⟨hnonneg, hmax⟩ := h.number_le n hn
    apply Text.convertible_iff.mpr
    calc n.natAbs ≤ Lexeme.maxInteger := by omega
      _ < 10 ^ 19 := by decide
      _ ≤ 10 ^ Text.digitLimit := Nat.pow_le_pow_right (by decide) (by decide)

end Entry

/-! ### Streams -/

theorem readRecords_print_append (indent : Option Int) {records : List Record}
    (h : ∀ record ∈ records, Json.Legible 2 record.toJson) {space : String}
    (hspace : ∀ c ∈ space.toList, Json.isSpace c = true) :
    readRecords (Json.print indent (.list (records.map Record.toJson)) ++ space) = .ok records := by
  have hlegible : Json.Legible 3 (.list (records.map Record.toJson)) := by
    apply Json.Legible.list
    simpa using h
  have hread := Json.read_print_append indent (hlegible.mono (by decide)) hspace
  rw [readRecords, hread]
  change ((records.map Record.toJson).mapM Record.ofJson).mapError StreamFault.record = _
  rw [Record.mapM_ofJson]
  rfl

theorem readRecords_printEntries_append (indent : Option Int) {entries : List Entry}
    (h : ∀ entry ∈ entries, entry.Storable) {space : String}
    (hspace : ∀ c ∈ space.toList, Json.isSpace c = true) :
    readRecords (printEntries indent entries ++ space) = .ok (entries.map Record.ofEntry) := by
  have hrecords : ∀ record ∈ entries.map Record.ofEntry, Json.Legible 2 record.toJson := by
    intro record hrecord
    obtain ⟨entry, hentry, rfl⟩ := List.mem_map.1 hrecord
    exact (h entry hentry).legible
  have hread := readRecords_print_append indent hrecords hspace
  rwa [List.map_map] at hread

theorem readRecords_printEntries (indent : Option Int) {entries : List Entry}
    (h : ∀ entry ∈ entries, entry.Storable) :
    readRecords (printEntries indent entries) = .ok (entries.map Record.ofEntry) := by
  have hspace : ∀ c ∈ "".toList, Json.isSpace c = true := nofun
  have hread := readRecords_printEntries_append indent h hspace
  rwa [String.append_empty] at hread

theorem storable_of_lexed {settings : Settings} {source : String} {file : Option String}
    {entries : List Entry} (hsize : Utf8.size source.toList < 10 ^ Text.digitLimit)
    (h : lex settings source file = .ok entries ∨ scan settings source = .ok entries) :
    ∀ entry ∈ entries, entry.Storable := by
  intro entry hentry
  obtain hlex | hscan := h
  · exact (within_of_lex hlex entry hentry).storable hsize
  · exact (within_of_scan hscan entry hentry).storable hsize

theorem read_printEntries_of_storable (indent : Option Int) {entries : List Entry}
    (h : ∀ entry ∈ entries, entry.Storable) :
    readRecords (printEntries indent entries) = .ok (entries.map Record.ofEntry) ∧
      readEntries? (printEntries indent entries) = some entries := by
  have hread := readRecords_printEntries indent h
  refine ⟨hread, ?_⟩
  rw [readEntries?, hread]
  exact Record.mapM_typed? entries

theorem Entry.storable_iff {entry : Entry} :
    entry.Storable ↔ ∀ n ∈ entry.numbers, Text.isWritable n = true := by
  simp only [numbers, List.forall_mem_append, List.forall_mem_cons, List.not_mem_nil,
    IsEmpty.forall_iff, implies_true, and_true, Option.mem_toList, Text.isWritable_iff]
  exact ⟨fun h => ⟨⟨h.start, h.stop⟩, h.number⟩, fun h => ⟨h.1.1, h.1.2, h.2⟩⟩

/-- A stream is written unless its indent is too large or one of its numbers is too long. -/
theorem writeEntries_eq_ok_iff {indent : Option Int} {entries : List Entry} {text : String} :
    writeEntries indent entries = .ok text ↔
      (∀ blanks ∈ indent, -2 ^ 63 ≤ blanks ∧ blanks < 2 ^ 63) ∧
        (∀ entry ∈ entries, entry.Storable) ∧ printEntries indent entries = text := by
  have hindent : indent.all fitsIndex = true ↔
      ∀ blanks ∈ indent, -2 ^ 63 ≤ blanks ∧ blanks < 2 ^ 63 := by
    have hmax : Span.maxLength = 2 ^ 63 - 1 := rfl
    simp only [Option.all_eq_true, fitsIndex, Bool.and_eq_true, decide_eq_true_eq, hmax]
    exact forall₂_congr fun blanks _ => and_congr (by omega) (by omega)
  have hnumbers : (entries.flatMap Entry.numbers).all Text.isWritable = true ↔
      ∀ entry ∈ entries, entry.Storable := by
    simp only [List.all_eq_true, List.mem_flatMap, forall_exists_index, and_imp, Entry.storable_iff]
    exact ⟨fun h entry hentry n hn => h n entry hentry hn,
      fun h n entry hentry hn => h entry hentry n hn⟩
  rw [← hindent, ← hnumbers, writeEntries]
  cases indent.all fitsIndex <;> cases (entries.flatMap Entry.numbers).all Text.isWritable <;> simp

/-- Whatever is written is read back. -/
theorem readEntries?_of_writeEntries {indent : Option Int} {entries : List Entry} {text : String}
    (h : writeEntries indent entries = .ok text) : readEntries? text = some entries := by
  obtain ⟨-, hstorable, rfl⟩ := writeEntries_eq_ok_iff.1 h
  exact (read_printEntries_of_storable indent hstorable).2

end Offside
