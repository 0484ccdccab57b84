import Mathlib
import Offside.Proofs.ReadingOrder
import Offside.Proofs.Slices

/-!
# Offset tables

A scanner counts the bytes that it passes over, and the span of its entry is the one that the table
of the source gives for the places where the entry begins and ends: `Scanner.span?_of_next`. The
same is true of all spans of a stream, those that layout puts in included: `tabled_of_lex`.
-/

namespace Offside

/-! ### Tables -/

namespace Utf8

theorem getElem?_offsets (total : Nat) {text : List Char} {i : Nat} (hi : i ≤ text.length) :
    (offsets total text)[i]? = some (total + size (text.take i)) := by
  induction text generalizing total i with
  | nil =>
    obtain rfl := Nat.le_zero.1 hi
    rfl
  | cons c text ih =>
    cases i with
    | zero => rfl
    | succ i =>
      rw [offsets, List.getElem?_cons_succ, ih _ (Nat.le_of_succ_le_succ hi), List.take_succ_cons,
        size_cons, String.length_utf8EncodeChar, Nat.add_assoc]

theorem getLastD_offsets (total : Nat) (text : List Char) (default : Nat) :
    (offsets total text).getLastD default = total + size text := by
  induction text generalizing total default with
  | nil => rfl
  | cons c text ih =>
    rw [offsets, List.getLastD_cons, ih, size_cons, String.length_utf8EncodeChar, Nat.add_assoc]

theorem IsAscii.size_eq {text : List Char} (h : IsAscii text) : size text = text.length := by
  rw [← length_encode, encode_of_isAscii h, List.length_map]

theorem IsAscii.size_take {text : List Char} (h : IsAscii text) {i : Nat} (hi : i ≤ text.length) :
    size (text.take i) = i := by
  have htake : IsAscii (text.take i) := fun c hc => h c (List.mem_of_mem_take hc)
  rw [htake.size_eq, List.length_take, Nat.min_eq_left hi]

end Utf8

namespace OffsetTable

theorem stop_ofSource (source : String) : (ofSource source).stop = Utf8.size source.toList := by
  rw [ofSource]
  split_ifs with hascii
  · exact hascii.size_eq.symm
  · exact (Utf8.getLastD_offsets 0 source.toList 0).trans (Nat.zero_add _)

theorem span?_ofSource (source : String) {i j : Nat} (hi : i ≤ source.toList.length)
    (hj : j ≤ source.toList.length) :
    (ofSource source).span? i j =
      some ⟨Utf8.size (source.toList.take i), Utf8.size (source.toList.take j)⟩ := by
  rw [ofSource]
  split_ifs with hascii
  · rw [hascii.size_take hi, hascii.size_take hj]
    rfl
  · simp only [span?, Utf8.getElem?_offsets 0 hi, Utf8.getElem?_offsets 0 hj, Nat.zero_add]
    rfl

end OffsetTable

/-! ### Scanners -/

namespace Scanner

variable {distinguish : Bool} {scanner : Scanner} {source : String} {entry : Entry}

theorem Inside.offset_eq_size_take {text : List Char} (h : scanner.Inside text) :
    scanner.offset = Utf8.size (text.take scanner.position) := by
  obtain ⟨front, rfl, hposition, hoffset⟩ := h
  rw [hposition, List.take_left, hoffset]

/-- The span of an entry is the one that the table gives for the places of the scanner. -/
theorem span?_of_next (h : scanner.Inside source.toList)
    (hentry : (scanner.next distinguish).1 = .entry entry) :
    (OffsetTable.ofSource source).span? scanner.skipBlanks.position
      (scanner.next distinguish).2.position = some entry.span := by
  have hbehind := h.next distinguish
  obtain ⟨lexeme, -, -, -, hspan, -⟩ := spelled_of_next hentry
  rw [OffsetTable.span?_ofSource source h.skipBlanks.position_le hbehind.position_le, hspan,
    h.skipBlanks.offset_eq_size_take, hbehind.offset_eq_size_take]

end Scanner

/-- The table knows where a source ends. -/
theorem Lexer.stop_eq_table (lexer : Lexer) :
    lexer.stop = (OffsetTable.ofSource lexer.source).stop :=
  congrArg Nat.cast (OffsetTable.stop_ofSource lexer.source).symm

/-! ### Streams -/

/-- The table of a source gives a span for two of its places. -/
def Span.Tabled (source : String) (span : Span) : Prop :=
  ∃ start stop, start ≤ stop ∧ stop ≤ source.toList.length ∧
    (OffsetTable.ofSource source).span? start stop = some span

theorem Span.tabled_of_isBoundary {source : String} {span : Span}
    (hstart : Location.IsBoundary source span.start) (hstop : Location.IsBoundary source span.stop)
    (hle : span.start ≤ span.stop) : span.Tabled source := by
  obtain ⟨start, stop⟩ := span
  obtain ⟨front, hfront, rfl⟩ := hstart
  obtain ⟨whole, hwhole, rfl⟩ := hstop
  refine ⟨front.length, whole.length, ?_, hwhole.length_le, ?_⟩
  · exact (Utf8.prefix_of_size_le hfront hwhole (Int.ofNat_le.1 hle)).length_le
  · rw [OffsetTable.span?_ofSource source hfront.length_le hwhole.length_le,
      ← List.prefix_iff_eq_take.1 hfront, ← List.prefix_iff_eq_take.1 hwhole]

/-- Layout puts nothing at a place that the table does not know. -/
theorem tabled_of_lex {settings : Settings} {source : String} {file : Option String}
    {entries : List Entry} (hpermissive : settings.isStrict = false)
    (h : lex settings source file = .ok entries) : ∀ entry ∈ entries, entry.span.Tabled source :=
  fun entry hentry => Span.tabled_of_isBoundary (isBoundary_start_of_lex hpermissive h entry hentry)
    (isBoundary_stop_of_lex h entry hentry) (within_of_lex h entry hentry).start_le_stop

theorem tabled_of_scan {settings : Settings} {source : String} {entries : List Entry}
    (h : scan settings source = .ok entries) : ∀ entry ∈ entries, entry.span.Tabled source := by
  intro entry hentry
  have hstream := scan_eq_ok_iff.1 h
  have htiled : Tiled 0 source.toList (rawStream settings source).entries :=
    tiled_stream source.toList 0 0 (congrArg RawStream.fault hstream)
  rw [hstream] at htiled
  obtain ⟨start, stop, hlt, hstop, hspan, -⟩ := htiled.exists_bounds hentry
  refine ⟨start, stop, hlt.le, hstop, ?_⟩
  rw [OffsetTable.span?_ofSource source (hlt.le.trans hstop) hstop, hspan]

end Offside
