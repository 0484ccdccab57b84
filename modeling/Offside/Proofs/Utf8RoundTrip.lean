import Mathlib.Tactic.SplitIfs
import Offside.Span

/-!
# Decoding what was encoded

The bytes of a text are decoded to the text, and no other bytes are: `decode_encode` and
`encode_of_decode`. The bytes between two characters of a text encode what stands between them, so a
span with such bounds slices it: `Span.slice_take`.
-/

namespace Offside

namespace Utf8

/-! ### One character -/

theorem lead?_one {n : Nat} (h : n < 0x80) : lead? n = some ⟨0, 0, 0, n⟩ := by
  rw [lead?, if_pos h]

theorem lead?_two {n : Nat} (hlow : 0xC2 ≤ n) (hhigh : n < 0xE0) :
    lead? n = some ⟨1, 0x80, 0xBF, n - 0xC0⟩ := by
  rw [lead?, if_neg (by omega), if_neg (by omega), if_pos hhigh]

/-- The second byte of three is bounded from below for the longer spellings and from above for the
surrogates. -/
theorem lead?_three {n : Nat} (hlow : 0xE0 ≤ n) (hhigh : n < 0xF0) :
    lead? n = some ⟨2, if n = 0xE0 then 0xA0 else 0x80, if n = 0xED then 0x9F else 0xBF,
      n - 0xE0⟩ := by
  rw [lead?, if_neg (by omega), if_neg (by omega), if_neg (by omega)]
  by_cases hfirst : n = 0xE0
  · rw [if_pos hfirst, hfirst]
    rfl
  rw [if_neg hfirst, if_neg hfirst]
  by_cases hsurrogate : n = 0xED
  · rw [if_pos hsurrogate, hsurrogate]
    rfl
  rw [if_neg hsurrogate, if_neg hsurrogate, if_pos hhigh]

/-- The second byte of four is bounded from below for the longer spellings and from above for the
last code point. -/
theorem lead?_four {n : Nat} (hlow : 0xF0 ≤ n) (hhigh : n < 0xF5) :
    lead? n = some ⟨3, if n = 0xF0 then 0x90 else 0x80, if n = 0xF4 then 0x8F else 0xBF,
      n - 0xF0⟩ := by
  rw [lead?, if_neg (by omega), if_neg (by omega), if_neg (by omega), if_neg (by omega),
    if_neg (by omega), if_neg (by omega)]
  by_cases hfirst : n = 0xF0
  · rw [if_pos hfirst, hfirst]
    rfl
  rw [if_neg hfirst, if_neg hfirst]
  by_cases hlast : n = 0xF4
  · rw [if_neg (by omega), if_pos hlast, hlast]
    rfl
  rw [if_pos (by omega), if_neg hlast]

theorem follow_cons {low high bits width following n : Nat} {rest : List UInt8} (hlow : low ≤ n)
    (hhigh : n ≤ high) (hbyte : n < 0x100) :
    follow low high bits width (following + 1) (UInt8.ofNat n :: rest) =
      follow 0x80 0xBF (bits * 64 + (n - 0x80)) (width + 1) following rest := by
  rw [follow, UInt8.toNat_ofNat', Nat.mod_eq_of_lt hbyte, if_pos ⟨hlow, hhigh⟩]

theorem front_of_lead? {n following low high bits : Nat} {rest : List UInt8} (hbyte : n < 0x100)
    (hlead : lead? n = some ⟨following, low, high, bits⟩) :
    front (UInt8.ofNat n) rest = follow low high bits 1 following rest := by
  rw [front, UInt8.toNat_ofNat', Nat.mod_eq_of_lt hbyte, hlead]

theorem front_encode (c : Char) (rest : List UInt8) :
    ∃ byte more, String.utf8EncodeChar c = byte :: more ∧
      front byte (more ++ rest) = .char c (more.length + 1) := by
  have hvalid : c.val.toNat < 0xD800 ∨ 0xDFFF < c.val.toNat ∧ c.val.toNat < 0x110000 := c.valid
  have hchar : Char.ofNat c.val.toNat = c := Char.ofNat_toNat c
  rw [String.utf8EncodeChar]
  generalize c.val.toNat = n at hvalid hchar
  split_ifs with hone htwo hthree
  · refine ⟨_, _, rfl, ?_⟩
    rw [front_of_lead? (by omega) (lead?_one (by omega)), follow, hchar]
    rfl
  · refine ⟨_, _, rfl, ?_⟩
    have hlead : n / 64 % 32 = n / 64 := by omega
    have hbits : (n / 64 + 192 - 192) * 64 + (n % 64 + 128 - 128) = n := by omega
    rw [hlead, front_of_lead? (by omega) (lead?_two (by omega) (by omega)), List.cons_append,
      follow_cons (by omega) (by omega) (by omega), follow, hbits, hchar]
    rfl
  · refine ⟨_, _, rfl, ?_⟩
    have hlead : n / 4096 % 16 = n / 4096 := by omega
    have hbits : ((n / 4096 + 224 - 224) * 64 + (n / 64 % 64 + 128 - 128)) * 64 +
        (n % 64 + 128 - 128) = n := by omega
    rw [hlead, front_of_lead? (by omega) (lead?_three (by omega) (by omega)), List.cons_append,
      follow_cons (by split <;> omega) (by split <;> omega) (by omega), List.cons_append,
      follow_cons (by omega) (by omega) (by omega), follow, hbits, hchar]
    rfl
  · refine ⟨_, _, rfl, ?_⟩
    have hlead : n / 262144 % 8 = n / 262144 := by omega
    have hbits : (((n / 262144 + 240 - 240) * 64 + (n / 4096 % 64 + 128 - 128)) * 64 +
        (n / 64 % 64 + 128 - 128)) * 64 + (n % 64 + 128 - 128) = n := by omega
    rw [hlead, front_of_lead? (by omega) (lead?_four (by omega) (by omega)), List.cons_append,
      follow_cons (by split <;> omega) (by split <;> omega) (by omega), List.cons_append,
      follow_cons (by omega) (by omega) (by omega), List.cons_append,
      follow_cons (by omega) (by omega) (by omega), follow, hbits, hchar]
    rfl

/-! ### One character of some bytes -/

theorem lead?_cases {n : Nat} {lead : Lead} (h : lead? n = some lead) :
    (n < 0x80 ∧ lead = ⟨0, 0, 0, n⟩) ∨
    (0xC2 ≤ n ∧ n < 0xE0 ∧ lead = ⟨1, 0x80, 0xBF, n - 0xC0⟩) ∨
    (0xE0 ≤ n ∧ n < 0xF0 ∧ lead = ⟨2, if n = 0xE0 then 0xA0 else 0x80,
      if n = 0xED then 0x9F else 0xBF, n - 0xE0⟩) ∨
    (0xF0 ≤ n ∧ n < 0xF5 ∧ lead = ⟨3, if n = 0xF0 then 0x90 else 0x80,
      if n = 0xF4 then 0x8F else 0xBF, n - 0xF0⟩) := by
  by_cases hone : n < 0x80
  · rw [lead?_one hone] at h
    exact .inl ⟨hone, (Option.some.inj h).symm⟩
  by_cases hnone : n < 0xC2
  · rw [lead?, if_neg hone, if_pos hnone] at h
    cases h
  have hlow : 0xC2 ≤ n := Nat.le_of_not_lt hnone
  by_cases htwo : n < 0xE0
  · rw [lead?_two hlow htwo] at h
    exact .inr (.inl ⟨hlow, htwo, (Option.some.inj h).symm⟩)
  have hlow : 0xE0 ≤ n := Nat.le_of_not_lt htwo
  by_cases hthree : n < 0xF0
  · rw [lead?_three hlow hthree] at h
    exact .inr (.inr (.inl ⟨hlow, hthree, (Option.some.inj h).symm⟩))
  have hlow : 0xF0 ≤ n := Nat.le_of_not_lt hthree
  by_cases hfour : n < 0xF5
  · rw [lead?_four hlow hfour] at h
    exact .inr (.inr (.inr ⟨hlow, hfour, (Option.some.inj h).symm⟩))
  · rw [lead?, if_neg hone, if_neg hnone, if_neg htwo, if_neg (by omega), if_neg (by omega),
      if_neg hthree, if_neg (by omega), if_neg (by omega), if_neg (by omega)] at h
    cases h

section Follow

variable {low high bits width total following : Nat} {byte : UInt8} {bytes rest : List UInt8}
  {c : Char}

theorem follow_zero_eq_char (h : follow low high bits width 0 bytes = .char c total) :
    c = Char.ofNat bits ∧ total = width := by
  obtain ⟨hc, hwidth⟩ := Front.char.inj h
  exact ⟨hc.symm, hwidth.symm⟩

theorem follow_succ_eq_char
    (h : follow low high bits width (following + 1) bytes = .char c total) :
    ∃ byte rest, bytes = byte :: rest ∧ low ≤ byte.toNat ∧ byte.toNat ≤ high ∧
      follow 0x80 0xBF (bits * 64 + (byte.toNat - 0x80)) (width + 1) following rest =
        .char c total := by
  cases bytes with
  | nil => cases h
  | cons byte rest =>
    by_cases hbounds : low ≤ byte.toNat ∧ byte.toNat ≤ high
    · rw [follow, if_pos hbounds] at h
      exact ⟨byte, rest, rfl, hbounds.1, hbounds.2, h⟩
    · rw [follow, if_neg hbounds] at h
      cases h

/-- A second byte that is bounded more narrowly behind a special leading byte is a following byte.
-/
theorem lower_bound {n second special low : Nat} (hlow : 0x80 ≤ low)
    (h : (if n = special then low else 0x80) ≤ second) :
    0x80 ≤ second ∧ (n = special → low ≤ second) := by
  split at h
  · exact ⟨Nat.le_trans hlow h, fun _ => h⟩
  · rename_i hne
    exact ⟨h, fun heq => absurd heq hne⟩

theorem upper_bound {n second special high : Nat} (hhigh : high ≤ 0xBF)
    (h : second ≤ if n = special then high else 0xBF) :
    second ≤ 0xBF ∧ (n = special → second ≤ high) := by
  split at h
  · exact ⟨Nat.le_trans h hhigh, fun _ => h⟩
  · rename_i hne
    exact ⟨h, fun heq => absurd heq hne⟩

theorem ofNat_eq_of_toNat (byte : UInt8) {n : Nat} (h : n = byte.toNat) :
    UInt8.ofNat n = byte := by
  rw [h, UInt8.ofNat_toNat]

theorem val_ofNat {n : Nat} (h : n.isValidChar) : (Char.ofNat n).val.toNat = n := by
  rw [Char.ofNat, dif_pos h]
  rfl

/-- The bytes that are read as a character are its bytes: no character is read from a spelling of
another length. -/
theorem encode_of_front (h : front byte rest = .char c width) :
    String.utf8EncodeChar c ++ rest.drop (width - 1) = byte :: rest := by
  have hbyte : byte.toNat < 0x100 := byte.toNat_lt
  rw [front] at h
  split at h
  · cases h
  rename_i lead hlead
  -- The narrower bounds of a second byte are what keeps the code point from being too small for its
  -- spelling, a surrogate or too large.
  obtain ⟨hhigh, rfl⟩ | ⟨hlow, hhigh, rfl⟩ | ⟨hlow, hhigh, rfl⟩ | ⟨hlow, hhigh, rfl⟩ :=
    lead?_cases hlead
  all_goals dsimp only at h
  · obtain ⟨hc, rfl⟩ := follow_zero_eq_char h
    rw [hc, String.utf8EncodeChar, val_ofNat (.inl (by omega)), if_pos (by omega),
      UInt8.ofNat_toNat]
    rfl
  · obtain ⟨second, rest, rfl, hlow₂, hhigh₂, h⟩ := follow_succ_eq_char h
    obtain ⟨hc, rfl⟩ := follow_zero_eq_char h
    rw [hc, String.utf8EncodeChar, val_ofNat (.inl (by omega)), if_neg (by omega),
      if_pos (by omega), ofNat_eq_of_toNat byte (by omega), ofNat_eq_of_toNat second (by omega)]
    rfl
  · obtain ⟨second, rest, rfl, hlow₂, hhigh₂, h⟩ := follow_succ_eq_char h
    obtain ⟨third, rest, rfl, hlow₃, hhigh₃, h⟩ := follow_succ_eq_char h
    obtain ⟨hc, rfl⟩ := follow_zero_eq_char h
    obtain ⟨hlow₂, hlong⟩ := lower_bound (by decide) hlow₂
    obtain ⟨hhigh₂, hsurrogate⟩ := upper_bound (by decide) hhigh₂
    have hvalid : Nat.isValidChar (((byte.toNat - 0xE0) * 64 + (second.toNat - 0x80)) * 64 +
        (third.toNat - 0x80)) := by
      unfold Nat.isValidChar
      omega
    rw [hc, String.utf8EncodeChar, val_ofNat hvalid, if_neg (by omega), if_neg (by omega),
      if_pos (by omega), ofNat_eq_of_toNat byte (by omega), ofNat_eq_of_toNat second (by omega),
      ofNat_eq_of_toNat third (by omega)]
    rfl
  · obtain ⟨second, rest, rfl, hlow₂, hhigh₂, h⟩ := follow_succ_eq_char h
    obtain ⟨third, rest, rfl, hlow₃, hhigh₃, h⟩ := follow_succ_eq_char h
    obtain ⟨fourth, rest, rfl, hlow₄, hhigh₄, h⟩ := follow_succ_eq_char h
    obtain ⟨hc, rfl⟩ := follow_zero_eq_char h
    obtain ⟨hlow₂, hlong⟩ := lower_bound (by decide) hlow₂
    obtain ⟨hhigh₂, hlast⟩ := upper_bound (by decide) hhigh₂
    rw [hc, String.utf8EncodeChar, val_ofNat (.inr (by omega)), if_neg (by omega),
      if_neg (by omega), if_neg (by omega), ofNat_eq_of_toNat byte (by omega),
      ofNat_eq_of_toNat second (by omega), ofNat_eq_of_toNat third (by omega),
      ofNat_eq_of_toNat fourth (by omega)]
    rfl

end Follow

/-! ### Texts -/

theorem decodeFrom_encode (position : Nat) (text : List Char) :
    decodeFrom position (encode text) = .ok text := by
  induction text generalizing position with
  | nil => rw [encode_nil, decodeFrom]
  | cons c text ih =>
    obtain ⟨byte, more, hencode, hfront⟩ := front_encode c (encode text)
    rw [encode_cons, hencode, List.cons_append, decodeFrom, hfront]
    dsimp only
    rw [Nat.add_sub_cancel, List.drop_left, ih]
    rfl

theorem decode_encode (text : List Char) : decode (encode text) = .ok text :=
  decodeFrom_encode 0 text

theorem encode_of_decodeFrom {position : Nat} {bytes : List UInt8} {text : List Char}
    (h : decodeFrom position bytes = .ok text) : encode text = bytes := by
  induction position, bytes using decodeFrom.induct generalizing text with
  | case1 position =>
    rw [decodeFrom] at h
    obtain rfl := Except.ok.inj h
    rfl
  | case2 position byte rest c width hfront ih =>
    rw [decodeFrom, hfront] at h
    dsimp only at h
    cases hrest : decodeFrom (position + width) (rest.drop (width - 1)) with
    | error flaw =>
      rw [hrest] at h
      cases h
    | ok tail =>
      rw [hrest] at h
      obtain rfl := Except.ok.inj h
      rw [encode_cons, ih hrest, encode_of_front hfront]
  | case3 position byte rest reason width hfront =>
    rw [decodeFrom, hfront] at h
    cases h

theorem encode_of_decode {bytes : List UInt8} {text : List Char} (h : decode bytes = .ok text) :
    encode text = bytes :=
  encode_of_decodeFrom h

theorem take_encode (text : List Char) (n : Nat) :
    (encode text).take (size (text.take n)) = encode (text.take n) := by
  calc (encode text).take (size (text.take n))
      = (encode (text.take n) ++ encode (text.drop n)).take (encode (text.take n)).length := by
        rw [← encode_append, List.take_append_drop, length_encode]
    _ = encode (text.take n) := List.take_left

theorem drop_encode (text : List Char) (n : Nat) :
    (encode text).drop (size (text.take n)) = encode (text.drop n) := by
  calc (encode text).drop (size (text.take n))
      = (encode (text.take n) ++ encode (text.drop n)).drop (encode (text.take n)).length := by
        rw [← encode_append, List.take_append_drop, length_encode]
    _ = encode (text.drop n) := List.drop_left

theorem drop_take_encode (text : List Char) {i j : Nat} (h : i ≤ j) :
    ((encode text).take (size (text.take j))).drop (size (text.take i)) =
      encode ((text.take j).drop i) := by
  have htake : text.take i = (text.take j).take i := by
    rw [List.take_take, Nat.min_eq_left h]
  rw [take_encode, htake, drop_encode]

theorem size_take_le (text : List Char) (n : Nat) : size (text.take n) ≤ size text := by
  calc size (text.take n) ≤ size (text.take n) + size (text.drop n) := Nat.le_add_right _ _
    _ = size text := by rw [← size_append, List.take_append_drop]

end Utf8

/-! ### Spans -/

theorem Span.slice_take (source : String) {i j : Nat} (h : i ≤ j) :
    Span.slice source ⟨Utf8.size (source.toList.take i), Utf8.size (source.toList.take j)⟩ =
      .ok (String.ofList ((source.toList.take j).drop i)) := by
  have hle : Utf8.size (source.toList.take i) ≤ Utf8.size (source.toList.take j) := by
    have htake := Utf8.size_take_le (source.toList.take j) i
    rwa [List.take_take, Nat.min_eq_left h] at htake
  have hlength : Utf8.size (source.toList.take j) ≤ (Utf8.encode source.toList).length := by
    rw [Utf8.length_encode]
    exact Utf8.size_take_le _ _
  rw [slice, window_of_le hle hlength, Utf8.drop_take_encode _ h, Utf8.decode_encode]
  rfl

end Offside
