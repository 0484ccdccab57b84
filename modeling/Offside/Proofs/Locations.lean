import Mathlib
import Offside.Location
import Offside.Proofs.Utf8RoundTrip

/-!
# Locations

Between two characters of a source the line and the column count newlines and characters of what
stands in front: `Location.ofOffset_size`. There later offsets have later places, in the order of
lines and then of columns: `Location.strictMonoOn_place`.
-/

namespace Offside

/-! ### Bytes -/

namespace Utf8

theorem ascii_of_mem_utf8EncodeChar {c : Char} {byte : UInt8}
    (h : byte ∈ String.utf8EncodeChar c) : byte.toNat = c.val.toNat ∨ 0x80 ≤ byte.toNat := by
  rw [String.utf8EncodeChar] at h
  generalize c.val.toNat = n at h ⊢
  split_ifs at h <;>
    simp only [List.mem_cons, List.not_mem_nil, or_false] at h
  · rw [h, UInt8.toNat_ofNat']
    omega
  all_goals
    refine .inr ?_
    rcases h with rfl | rfl | rfl | rfl
  all_goals
    rw [UInt8.toNat_ofNat']
    omega

theorem mem_utf8EncodeChar_iff {c : Char} : 10 ∈ String.utf8EncodeChar c ↔ c = '\n' := by
  constructor
  · intro h
    obtain hsame | hhigh := ascii_of_mem_utf8EncodeChar h
    · exact Char.ext (UInt32.toNat_inj.1 hsame.symm)
    · exact absurd hhigh (by decide)
  · rintro rfl
    decide

theorem encode_newline_cons (text : List Char) : encode ('\n' :: text) = 10 :: encode text := rfl

theorem not_mem_encode {text : List Char} (h : '\n' ∉ text) : 10 ∉ encode text := by
  rw [encode, List.mem_flatMap]
  rintro ⟨c, hc, hbyte⟩
  obtain rfl := mem_utf8EncodeChar_iff.1 hbyte
  exact h hc

theorem count_encode (text : List Char) : (encode text).count 10 = text.count '\n' := by
  induction text with
  | nil => rfl
  | cons c text ih =>
    by_cases hc : c = '\n'
    · rw [hc, encode_newline_cons, List.count_cons_self, List.count_cons_self, ih]
    · have hnone : (String.utf8EncodeChar c).count 10 = 0 :=
        List.count_eq_zero.2 fun h => hc (mem_utf8EncodeChar_iff.1 h)
      rw [encode_cons, List.count_append, hnone, List.count_cons_of_ne hc, ih, Nat.zero_add]

theorem lastLine_encode (text : List Char) :
    lastLine 10 (encode text) = encode (lastLine '\n' text) := by
  by_cases hnewline : '\n' ∈ text
  · obtain ⟨before, line, rfl, hline⟩ := exists_lastLine hnewline
    rw [encode_append, encode_newline_cons, lastLine_append hline,
      lastLine_append (not_mem_encode hline)]
  · rw [lastLine_of_not_mem hnewline, lastLine_of_not_mem (not_mem_encode hnewline)]

theorem decodeLossy_encode (text : List Char) : decodeLossy (encode text) = text := by
  induction text with
  | nil => rw [encode_nil, decodeLossy]
  | cons c text ih =>
    obtain ⟨byte, more, hencode, hfront⟩ := front_encode c (encode text)
    rw [encode_cons, hencode, List.cons_append, decodeLossy, hfront]
    dsimp only
    rw [Nat.add_sub_cancel, List.drop_left, ih]

end Utf8

/-! ### Places -/

namespace Location

/-- Line and column, in the order in which a text is read. -/
def place (location : Location) : ℤ ×ₗ ℤ :=
  toLex (location.line, location.column)

/-- **Between two characters** the line and the column are told by the text in front. -/
theorem ofOffset_size {source : String} {front : List Char} (h : front <+: source.toList)
    (file : Option String) :
    ofOffset source (Utf8.size front) file =
      { line := lineNumber '\n' front
        column := (lastLine '\n' front).length + 1
        offset := Utf8.size front
        stop := Utf8.size front
        file := file } := by
  obtain ⟨back, hsource⟩ := h
  have hsize : Utf8.size front ≤ (Utf8.encode source.toList).length := by
    rw [Utf8.length_encode, ← hsource, Utf8.size_append]
    exact Nat.le_add_right _ _
  have hbefore : (Utf8.encode source.toList).take (Utf8.size front) = Utf8.encode front := by
    rw [← hsource, Utf8.encode_append, ← Utf8.length_encode front]
    exact List.take_left
  rw [ofOffset, bound_of_le hsize, hbefore, lineNumber, Utf8.count_encode, Utf8.lastLine_encode,
    Utf8.decodeLossy_encode, lineNumber]

def behind (front : List Char) : ℤ ×ₗ ℤ :=
  toLex (lineNumber '\n' front, (lastLine '\n' front).length + 1)

theorem place_ofOffset_size {source : String} {front : List Char} (h : front <+: source.toList)
    (file : Option String) : (ofOffset source (Utf8.size front) file).place = behind front := by
  rw [ofOffset_size h, place, behind]

theorem behind_lt_concat (front : List Char) (c : Char) : behind front < behind (front ++ [c]) := by
  rw [behind, behind, Prod.Lex.lt_iff]
  by_cases hc : c = '\n'
  · left
    subst hc
    simp [lineNumber]
  · right
    rw [lastLine_concat hc]
    simp [lineNumber, hc]

theorem behind_lt_append (front : List Char) {more : List Char} (h : more ≠ []) :
    behind front < behind (front ++ more) := by
  induction more using List.reverseRecOn with
  | nil => exact absurd rfl h
  | append_singleton more c ih =>
    rw [← List.append_assoc]
    by_cases hmore : more = []
    · rw [hmore, List.append_nil]
      exact behind_lt_concat front c
    · exact (ih hmore).trans (behind_lt_concat (front ++ more) c)

/-- The offset lies between two characters of the source, or at one of its ends. -/
def IsBoundary (source : String) (offset : Int) : Prop :=
  ∃ front, front <+: source.toList ∧ offset = Utf8.size front

/-- **Places follow offsets.** Between characters a later offset has a later place. -/
theorem strictMonoOn_place (source : String) (file : Option String) :
    StrictMonoOn (fun offset => (ofOffset source offset file).place)
      {offset | IsBoundary source offset} := by
  rintro _ ⟨first, hfirst, rfl⟩ _ ⟨second, hsecond, rfl⟩ hlt
  dsimp only
  rw [place_ofOffset_size hfirst, place_ofOffset_size hsecond]
  obtain ⟨more, rfl⟩ | ⟨more, rfl⟩ := List.prefix_or_prefix_of_prefix hfirst hsecond
  · refine behind_lt_append first ?_
    rintro rfl
    rw [List.append_nil] at hlt
    exact absurd hlt (lt_irrefl _)
  · rw [Utf8.size_append] at hlt
    omega

end Location

end Offside
