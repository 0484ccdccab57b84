import Mathlib
import Offside.Proofs.Locations

/-!
# Slices

Bytes of a source that are cut out anywhere are a text only if the cuts lie between characters, or
if nothing is cut out: `exact_slices`. A byte inside a character begins no other one, and the bytes
of a text stand in front of those of another text only if the one stands in front of the other. A
source of ASCII characters may be sliced without being encoded: `Span.slice_of_isAscii`.
-/

namespace Offside

/-! ### Windows -/

theorem window_map {α β : Type} (f : α → β) (start stop : Int) (elements : List α) :
    window start stop (elements.map f) = (window start stop elements).map f := by
  simp only [window, List.length_map, List.map_take, List.map_drop]

/-! ### Bytes -/

namespace Utf8

/-- No character begins with a byte that stands inside one. -/
theorem front_of_mem_tail {c : Char} {byte : UInt8} (h : byte ∈ (String.utf8EncodeChar c).tail)
    (rest : List UInt8) : front byte rest = .flaw .badStart 1 := by
  have hbounds : 0x80 ≤ byte.toNat ∧ byte.toNat < 0xC0 := by
    rw [String.utf8EncodeChar] at h
    generalize c.val.toNat = n at h
    split_ifs at h <;>
      simp only [List.tail_cons, List.mem_cons, List.not_mem_nil, or_false] at h
    all_goals
      rcases h with rfl | rfl | rfl
    all_goals
      rw [UInt8.toNat_ofNat']
      omega
  rw [front, lead?, if_neg (by omega), if_pos (by omega)]

/-- The bytes of one text stand in front of those of another only if the text does. -/
theorem prefix_of_encode_prefix {first second : List Char} (h : encode first <+: encode second) :
    first <+: second := by
  induction first generalizing second with
  | nil => exact List.nil_prefix
  | cons c first ih =>
    cases second with
    | nil =>
      have hlength := h.length_le
      rw [length_encode, size_cons, encode_nil, List.length_nil] at hlength
      exact absurd c.utf8Size_pos (by omega)
    | cons d second =>
      obtain ⟨rest, hrest⟩ := h
      obtain ⟨byte, more, hc, hfront⟩ := front_encode c (encode first ++ rest)
      obtain ⟨byte', more', hd, hfront'⟩ := front_encode d (encode second)
      -- Both characters are read from the front of the same bytes.
      rw [encode_cons, encode_cons, hc, hd] at hrest
      obtain ⟨rfl, hbytes⟩ := List.cons.inj hrest
      have hsame : more ++ (encode first ++ rest) = more' ++ encode second :=
        (List.append_assoc ..).symm.trans hbytes
      rw [hsame, hfront'] at hfront
      obtain ⟨rfl, -⟩ := Front.char.inj hfront
      obtain ⟨-, rfl⟩ := List.cons.inj (hc.symm.trans hd)
      exact (List.prefix_cons_inj d).2 (ih ⟨rest, List.append_cancel_left hsame⟩)

theorem between_or_inside {text : List Char} {n : Nat} (h : n ≤ size text) :
    (∃ before after, text = before ++ after ∧ n = size before) ∨
      ∃ before c after k, text = before ++ c :: after ∧ n = size before + k ∧ 0 < k ∧
        k < c.utf8Size := by
  induction text generalizing n with
  | nil => exact .inl ⟨[], [], rfl, Nat.le_zero.1 h⟩
  | cons c text ih =>
    by_cases hfirst : n < c.utf8Size
    · rcases n.eq_zero_or_pos with rfl | hpos
      · exact .inl ⟨[], c :: text, rfl, rfl⟩
      · exact .inr ⟨[], c, text, n, rfl, (Nat.zero_add n).symm, hpos, hfirst⟩
    · rw [size_cons] at h
      obtain ⟨before, after, rfl, hn⟩ | ⟨before, d, after, k, rfl, hn, hpos, hk⟩ :=
        @ih (n - c.utf8Size) (by omega)
      · refine .inl ⟨c :: before, after, rfl, ?_⟩
        rw [size_cons]
        omega
      · refine .inr ⟨c :: before, d, after, k, rfl, ?_, hpos, hk⟩
        rw [size_cons]
        omega

theorem decode_inside {before after : List Char} {c : Char} {k stop : Nat} (hpos : 0 < k)
    (hk : k < c.utf8Size) (hstop : size before + k < stop) :
    ∃ flaw, decode (((encode (before ++ c :: after)).take stop).drop (size before + k)) =
      .error flaw := by
  have hdrop : (encode (before ++ c :: after)).drop (size before + k) =
      (String.utf8EncodeChar c).drop k ++ encode after := by
    rw [encode_append, ← length_encode, List.drop_length_add_append, encode_cons,
      List.drop_append_of_le_length (by rw [String.length_utf8EncodeChar]; exact hk.le)]
  obtain ⟨byte, rest, hbytes⟩ : ∃ byte rest, (String.utf8EncodeChar c).drop k = byte :: rest := by
    refine List.exists_cons_of_ne_nil fun hnil => ?_
    rw [List.drop_eq_nil_iff, String.length_utf8EncodeChar] at hnil
    omega
  have hmem : byte ∈ (String.utf8EncodeChar c).tail := by
    have hhead : byte ∈ (String.utf8EncodeChar c).drop k := hbytes ▸ List.mem_cons_self
    rw [← List.drop_one]
    exact (List.drop_sublist_drop_left _ hpos).mem hhead
  obtain ⟨n, hn⟩ : ∃ n, stop - (size before + k) = n + 1 := ⟨stop - (size before + k) - 1, by omega⟩
  rw [List.drop_take, hdrop, hbytes, hn, List.cons_append, List.take_succ_cons, decode, decodeFrom,
    front_of_mem_tail hmem]
  exact ⟨_, rfl⟩

/-- Bytes that are cut out of an encoded text and are a text themselves are cut out between
characters. -/
theorem exists_of_decode {text part : List Char} {start stop : Nat} (hlt : start < stop)
    (hstop : stop ≤ size text)
    (h : decode (((encode text).take stop).drop start) = .ok part) :
    ∃ before after, text = before ++ part ++ after ∧ start = size before ∧
      stop = size (before ++ part) := by
  obtain ⟨before, after, rfl, rfl⟩ | ⟨before, c, after, k, rfl, rfl, hpos, hk⟩ :=
    between_or_inside (hlt.le.trans hstop)
  · have hpart := encode_of_decode h
    rw [List.drop_take, encode_append, ← length_encode before, List.drop_left] at hpart
    obtain ⟨after, rfl⟩ := prefix_of_encode_prefix (hpart ▸ List.take_prefix _ _)
    refine ⟨before, after, (List.append_assoc ..).symm, rfl, ?_⟩
    have hlength := congrArg List.length hpart
    rw [List.length_take, length_encode, length_encode, length_encode] at hlength
    rw [size_append] at hstop ⊢
    omega
  · obtain ⟨flaw, hflaw⟩ := @decode_inside before after c k stop hpos hk hlt
    rw [hflaw] at h
    cases h

theorem prefix_of_size_le {first second text : List Char} (hfirst : first <+: text)
    (hsecond : second <+: text) (hle : size first ≤ size second) : first <+: second := by
  obtain h | ⟨more, rfl⟩ := List.prefix_or_prefix_of_prefix hfirst hsecond
  · exact h
  · by_cases hmore : more = []
    · rw [hmore, List.append_nil]
    · have hpos := size_pos hmore
      rw [size_append] at hle
      omega

theorem eq_nil_of_encode_eq_nil {text : List Char} (h : encode text = []) : text = [] := by
  by_contra hne
  have hpos := size_pos hne
  rw [← length_encode, h, List.length_nil] at hpos
  exact absurd hpos (lt_irrefl 0)

/-! ### ASCII -/

theorem encode_of_isAscii {text : List Char} (h : IsAscii text) :
    encode text = text.map fun c => UInt8.ofNat c.toNat := by
  induction text with
  | nil => rfl
  | cons c text ih =>
    obtain ⟨hc, htext⟩ := List.forall_mem_cons.1 h
    have hfirst : c.val.toNat ≤ 0x7F := Nat.le_of_lt_succ hc
    rw [encode_cons, ih htext, String.utf8EncodeChar, if_pos hfirst]
    rfl

theorem IsAscii.window {text : List Char} (h : IsAscii text) (start stop : Int) :
    IsAscii (window start stop text) :=
  fun c hc => h c (List.mem_of_mem_take (List.mem_of_mem_drop hc))

end Utf8

/-! ### Spans -/

namespace Span

/-- The bytes of ASCII characters are sliced as the characters are, wherever the bounds lie. -/
theorem slice_of_isAscii {source : String} (h : Utf8.IsAscii source.toList) (span : Span) :
    span.slice source = .ok (span.sliceAscii source) := by
  rw [slice, Utf8.encode_of_isAscii h, window_map,
    ← Utf8.encode_of_isAscii (h.window span.start span.stop), Utf8.decode_encode]
  rfl

theorem quickSlice_eq_slice (source : String) (span : Span) :
    span.quickSlice source = span.slice source := by
  rw [quickSlice]
  split_ifs with hascii
  · exact (slice_of_isAscii hascii span).symm
  · rfl

section Bounds

variable {source : String} {start stop : Nat}

theorem slice_eq_decode (hle : start ≤ stop) (hstop : stop ≤ Utf8.size source.toList) :
    slice source ⟨start, stop⟩ =
      (Utf8.decode (((Utf8.encode source.toList).take stop).drop start)).map String.ofList := by
  rw [slice, window_of_le hle (hstop.trans_eq (Utf8.length_encode _).symm)]

theorem slice_eq_ok_iff (hle : start ≤ stop) (hstop : stop ≤ Utf8.size source.toList)
    {text : String} :
    slice source ⟨start, stop⟩ = .ok text ↔
      Utf8.decode (((Utf8.encode source.toList).take stop).drop start) = .ok text.toList := by
  rw [slice_eq_decode hle hstop]
  cases Utf8.decode (((Utf8.encode source.toList).take stop).drop start) with
  | error flaw => exact ⟨nofun, nofun⟩
  | ok part =>
    constructor
    · intro h
      rw [← Except.ok.inj h, String.toList_ofList]
    · intro h
      rw [Except.ok.inj h, Except.map, String.ofList_toList]

theorem encode_of_slice (hle : start ≤ stop) (hstop : stop ≤ Utf8.size source.toList)
    {text : String} (h : slice source ⟨start, stop⟩ = .ok text) :
    Utf8.encode text.toList = ((Utf8.encode source.toList).take stop).drop start :=
  Utf8.encode_of_decode ((slice_eq_ok_iff hle hstop).1 h)

theorem exists_slice {first second : List Char} (hfirst : first <+: source.toList)
    (hsecond : second <+: source.toList) (hle : Utf8.size first ≤ Utf8.size second) :
    ∃ text, slice source ⟨Utf8.size first, Utf8.size second⟩ = .ok text := by
  have hlength := (Utf8.prefix_of_size_le hfirst hsecond hle).length_le
  have hslice := slice_take source hlength
  rw [← List.prefix_iff_eq_take.1 hfirst, ← List.prefix_iff_eq_take.1 hsecond] at hslice
  exact ⟨_, hslice⟩

/-- What is sliced stands between the two characters at the bounds. -/
theorem exists_of_slice (hlt : start < stop) (hstop : stop ≤ Utf8.size source.toList)
    {text : String} (h : slice source ⟨start, stop⟩ = .ok text) :
    ∃ before after, source.toList = before ++ text.toList ++ after ∧ start = Utf8.size before ∧
      stop = Utf8.size (before ++ text.toList) :=
  Utf8.exists_of_decode hlt hstop ((slice_eq_ok_iff hlt.le hstop).1 h)

end Bounds

end Span

/-- **Slices are exact.** A span within a source slices a text if it is empty or lies between
characters at both ends, and otherwise its bytes cannot be decoded. The text is what stands between
the two ends, so it is encoded by the bytes of the span. That ASCII sources are not encoded makes no
difference. -/
theorem exact_slices {source : String} {start stop : Nat} (hle : start ≤ stop)
    (hstop : stop ≤ Utf8.size source.toList) :
    let span : Span := ⟨start, stop⟩
    let Apart := start = stop ∨
      Location.IsBoundary source start ∧ Location.IsBoundary source stop
    ((∃ text, span.slice source = .ok text) ↔ Apart) ∧
      (¬Apart → ∃ flaw, span.slice source = .error flaw) ∧
      (∀ text, span.slice source = .ok text →
        (start = stop → text = "") ∧
        (start < stop → ∃ before after, source.toList = before ++ text.toList ++ after ∧
          start = Utf8.size before ∧ stop = Utf8.size (before ++ text.toList)) ∧
        Utf8.encode text.toList = ((Utf8.encode source.toList).take stop).drop start) ∧
      span.quickSlice source = span.slice source := by
  intro span Apart
  have hiff : (∃ text, span.slice source = .ok text) ↔ Apart := by
    constructor
    · rintro ⟨text, htext⟩
      obtain hsame | hlt := hle.eq_or_lt
      · exact .inl hsame
      · obtain ⟨before, after, hsource, hstart, hend⟩ := Span.exists_of_slice hlt hstop htext
        exact .inr ⟨⟨before, ⟨text.toList ++ after, by rw [hsource, List.append_assoc]⟩,
          congrArg Nat.cast hstart⟩, ⟨_, ⟨after, hsource.symm⟩, congrArg Nat.cast hend⟩⟩
    · rintro (rfl | ⟨⟨first, hfirst, hstart⟩, second, hsecond, hend⟩)
      · exact ⟨"", (Span.slice_eq_ok_iff hle hstop).2 (by simp [Utf8.decode, Utf8.decodeFrom])⟩
      · obtain rfl := Int.ofNat_inj.1 hstart
        obtain rfl := Int.ofNat_inj.1 hend
        exact Span.exists_slice hfirst hsecond hle
  refine ⟨hiff, fun hapart => ?_, fun text htext => ⟨?_, ?_, ?_⟩, Span.quickSlice_eq_slice _ _⟩
  · cases hslice : span.slice source with
    | error flaw => exact ⟨flaw, rfl⟩
    | ok text => exact absurd (hiff.1 ⟨text, hslice⟩) hapart
  · rintro rfl
    have hbytes := Span.encode_of_slice hle hstop htext
    rw [List.drop_take, Nat.sub_self, List.take_zero] at hbytes
    exact String.toList_eq_nil_iff.1 (Utf8.eq_nil_of_encode_eq_nil hbytes)
  · exact fun hlt => Span.exists_of_slice hlt hstop htext
  · exact Span.encode_of_slice hle hstop htext

/-- Characters of one, two and four bytes: a span between characters, one that begins inside a
character, and an empty one inside a character. -/
theorem exact_slices_widths :
    let source := "aé😀"
    7 ≤ Utf8.size source.toList ∧ Span.slice source ⟨1, 7⟩ = .ok "é😀" ∧
      Location.IsBoundary source 1 ∧
      Utf8.encode "é😀".toList = ((Utf8.encode source.toList).take 7).drop 1 ∧
      Span.slice source ⟨2, 7⟩ = .error ⟨.badStart, 0, 1, 0xA9⟩ ∧
      ¬Location.IsBoundary source 2 ∧
      Span.slice source ⟨5, 5⟩ = .ok "" := by
  intro source
  have hsize : Utf8.size source.toList = 7 := by decide
  have hslice : Span.slice source ⟨1, 7⟩ = .ok "é😀" := by cbv
  have hrefused : Span.slice source ⟨2, 7⟩ = .error ⟨.badStart, 0, 1, 0xA9⟩ := by cbv
  have hend : Location.IsBoundary source 7 := ⟨source.toList, List.prefix_rfl, by rw [hsize]; rfl⟩
  obtain ⟨hbetween, -, hread, -⟩ := @exact_slices source 1 7 (by decide) hsize.ge
  obtain ⟨hinside, -⟩ := @exact_slices source 2 7 (by decide) hsize.ge
  obtain ⟨hempty, -, hnothing, -⟩ := @exact_slices source 5 5 (by decide) (by omega)
  refine ⟨hsize.ge, hslice, ?_, (hread _ hslice).2.2, hrefused, fun hstart => ?_, ?_⟩
  · obtain hsame | ⟨hstart, -⟩ := hbetween.1 ⟨_, hslice⟩
    · exact absurd hsame (by decide)
    · exact hstart
  · obtain ⟨text, htext⟩ := hinside.2 (.inr ⟨hstart, hend⟩)
    cases htext.symm.trans hrefused
  · obtain ⟨text, htext⟩ := hempty.2 (.inl rfl)
    rw [(hnothing text htext).1 rfl] at htext
    exact htext

end Offside
