import Mathlib
import Offside.Proofs.Locations

/-!
# Offsets

The line and the column of any offset whatever, inside a character or out of the source as well:
`exact_locations`. The part of a character that an offset cuts off is no character, but is read as
a single one: `Utf8.decodeLossy_take`. It holds no newline, so it stands on the line of its
character.
-/

namespace Offside

/-! ### Bounds -/

theorem bound_of_length_le {length : Nat} {i : Int} (h : length ≤ i) : bound length i = length := by
  rw [bound, if_neg (by omega)]
  omega

theorem bound_of_neg {length : Nat} {i : Int} (h : i < 0) :
    bound length i = bound length (max 0 (length + i)) := by
  rw [bound, if_pos h, bound, if_neg (by omega)]
  omega

/-! ### Parts of characters -/

namespace Utf8

section Follow

variable {low high bits width total following : Nat} {bytes : List UInt8} {c : Char}

/-- Where bytes are still to follow and come to an end, what was read before them is one flaw. -/
theorem follow_take (h : follow low high bits width following bytes = .char c total) {k : Nat}
    (hk : k < following) :
    follow low high bits width following (bytes.take k) = .flaw .truncated (width + k) := by
  induction following generalizing low high bits width bytes k with
  | zero => exact absurd hk (Nat.not_lt_zero k)
  | succ following ih =>
    obtain ⟨byte, rest, rfl, hlow, hhigh, hrest⟩ := follow_succ_eq_char h
    cases k with
    | zero => rfl
    | succ k =>
      rw [List.take_succ_cons, follow, if_pos ⟨hlow, hhigh⟩, ih hrest (Nat.lt_of_succ_lt_succ hk),
        Nat.add_assoc, Nat.add_comm 1 k]

theorem total_of_follow (h : follow low high bits width following bytes = .char c total) :
    total = width + following := by
  induction following generalizing low high bits width bytes with
  | zero => exact (follow_zero_eq_char h).2
  | succ following ih =>
    obtain ⟨byte, rest, rfl, -, -, hrest⟩ := follow_succ_eq_char h
    rw [ih hrest, Nat.add_assoc, Nat.add_comm 1]

end Follow

theorem front_take {c : Char} {k : Nat} (hk : k + 1 < c.utf8Size) :
    ∃ byte more, (String.utf8EncodeChar c).take (k + 1) = byte :: more ∧
      front byte more = .flaw .truncated (more.length + 1) := by
  obtain ⟨byte, more, hencode, hfront⟩ := front_encode c []
  have hlength : c.utf8Size = more.length + 1 := by
    rw [← String.length_utf8EncodeChar, hencode, List.length_cons]
  refine ⟨byte, more.take k, by rw [hencode, List.take_succ_cons], ?_⟩
  rw [List.append_nil, front] at hfront
  rw [front]
  split at hfront
  · cases hfront
  · rename_i lead hlead
    have htotal := total_of_follow hfront
    rw [follow_take hfront (k := k) (by omega), List.length_take, Nat.min_eq_left (by omega),
      Nat.add_comm 1]

theorem decodeLossy_encode_append (text : List Char) (bytes : List UInt8) :
    decodeLossy (encode text ++ bytes) = text ++ decodeLossy bytes := by
  induction text with
  | nil => rfl
  | cons c text ih =>
    obtain ⟨byte, more, hencode, hfront⟩ := front_encode c (encode text ++ bytes)
    rw [encode_cons, hencode, List.append_assoc, List.cons_append, decodeLossy, hfront]
    dsimp only
    rw [Nat.add_sub_cancel, List.drop_left, ih, List.cons_append]

/-- One replacement stands for the part of a character. -/
theorem decodeLossy_take {c : Char} {k : Nat} (hpos : 0 < k) (hk : k < c.utf8Size) :
    decodeLossy ((String.utf8EncodeChar c).take k) = [replacement] := by
  obtain ⟨k, rfl⟩ := Nat.exists_eq_succ_of_ne_zero hpos.ne'
  obtain ⟨byte, more, hbytes, hfront⟩ := front_take hk
  rw [hbytes, decodeLossy, hfront]
  dsimp only
  rw [Nat.add_sub_cancel, List.drop_length, decodeLossy]

theorem not_mem_utf8EncodeChar {c : Char} (h : 1 < c.utf8Size) : 10 ∉ String.utf8EncodeChar c := by
  intro hmem
  obtain rfl := mem_utf8EncodeChar_iff.1 hmem
  exact absurd h (by decide)

end Utf8

namespace Location

/-! ### Offsets -/

variable {source : String} {file : Option String}

theorem line_column_congr {offset offset' : Int}
    (h : bound (Utf8.size source.toList) offset = bound (Utf8.size source.toList) offset') :
    (ofOffset source offset file).line = (ofOffset source offset' file).line ∧
      (ofOffset source offset file).column = (ofOffset source offset' file).column := by
  rw [← Utf8.length_encode] at h
  rw [ofOffset, ofOffset, h]
  exact ⟨rfl, rfl⟩

/-- Inside a character the line is that of the character, and the part of it that is cut off takes
up one column. -/
theorem ofOffset_inside {front back : List Char} {c : Char} {k : Nat}
    (hsource : source.toList = front ++ c :: back) (hpos : 0 < k) (hk : k < c.utf8Size) :
    (ofOffset source (Utf8.size front + k : Nat) file).line = lineNumber '\n' front ∧
      (ofOffset source (Utf8.size front + k : Nat) file).column =
        (lastLine '\n' front).length + 1 + 1 := by
  have hsize : Utf8.size front + k ≤ (Utf8.encode source.toList).length := by
    rw [Utf8.length_encode, hsource, Utf8.size_append, Utf8.size_cons]
    omega
  have hbefore : (Utf8.encode source.toList).take (Utf8.size front + k) =
      Utf8.encode front ++ (String.utf8EncodeChar c).take k := by
    rw [hsource, Utf8.encode_append, ← Utf8.length_encode front, List.take_length_add_append,
      Utf8.encode_cons, List.take_append_of_le_length]
    rw [String.length_utf8EncodeChar]
    exact hk.le
  have hpart : 10 ∉ (String.utf8EncodeChar c).take k := fun hmem =>
    Utf8.not_mem_utf8EncodeChar (lt_of_le_of_lt hpos hk) (List.mem_of_mem_take hmem)
  rw [ofOffset, bound_of_le hsize, hbefore, lineNumber, List.count_append,
    List.count_eq_zero.2 hpart, Utf8.count_encode, lastLine_append_of_not_mem hpart,
    Utf8.lastLine_encode, Utf8.decodeLossy_encode_append, Utf8.decodeLossy_take hpos hk,
    List.length_append]
  exact ⟨rfl, rfl⟩

end Location

/-- **Locations are right at every offset.** Between two characters the line counts the newlines in
front and the column the characters behind the last of them. Inside a character an offset has the
line of the character and the next column. Offsets behind the end are at the end, and negative ones
count from it. -/
theorem exact_locations (source : String) (file : Option String) :
    let line (offset : Int) := (Location.ofOffset source offset file).line
    let column (offset : Int) := (Location.ofOffset source offset file).column
    let offset (i : Nat) := Utf8.size (source.toList.take i)
    let size := Utf8.size source.toList
    (∀ i ≤ source.length,
      line (offset i) = 1 + (source.toList.take i).count '\n' ∧
        ∃ before last, source.toList.take i = before ++ last ∧
          (before = [] ∨ ['\n'] <:+ before) ∧ '\n' ∉ last ∧ column (offset i) = 1 + last.length) ∧
    (∀ i c k, source.toList[i]? = some c → 0 < k → k < c.utf8Size →
      line (offset i + k : Nat) = line (offset i) ∧
        column (offset i + k : Nat) = column (offset i) + 1) ∧
    (∀ beyond : Int, size < beyond → line beyond = line size ∧ column beyond = column size) ∧
    ∀ negative : Int, negative < 0 →
      line negative = line (max 0 (size + negative)) ∧
        column negative = column (max 0 (size + negative)) := by
  intro line column offset size
  have hbetween (i : Nat) : line (offset i) = lineNumber '\n' (source.toList.take i) ∧
      column (offset i) = (lastLine '\n' (source.toList.take i)).length + 1 := by
    have hplace := Location.ofOffset_size (List.take_prefix i source.toList) file
    exact ⟨congrArg Location.line hplace, congrArg Location.column hplace⟩
  refine ⟨fun i hi => ⟨?_, ?_⟩, fun i c k hc hpos hk => ?_, fun beyond hbeyond => ?_,
    fun negative hnegative => ?_⟩
  · rw [(hbetween i).1, lineNumber]
    push_cast
    exact add_comm _ _
  · obtain ⟨before, hsplit, hbefore, hlast⟩ := exists_split_lastLine '\n' (source.toList.take i)
    refine ⟨before, _, hsplit, hbefore, hlast, ?_⟩
    rw [(hbetween i).2, add_comm]
  · obtain ⟨hi, rfl⟩ := List.getElem?_eq_some_iff.1 hc
    have hsource : source.toList = source.toList.take i ++ source.toList[i] ::
        source.toList.drop (i + 1) := by
      rw [← List.drop_eq_getElem_cons hi, List.take_append_drop]
    obtain ⟨hline, hcolumn⟩ := @Location.ofOffset_inside source file _ _ _ k hsource hpos hk
    exact ⟨hline.trans (hbetween i).1.symm,
      hcolumn.trans (congrArg (· + 1) (hbetween i).2.symm)⟩
  · refine Location.line_column_congr ?_
    rw [bound_of_length_le hbeyond.le, bound_of_length_le le_rfl]
  · exact Location.line_column_congr (bound_of_neg hnegative)

/-- Two lines with characters of two and of four bytes: an offset between characters, one inside a
character, one behind the end and one that is negative. -/
theorem exact_locations_widths :
    let source := "é\nx😀b"
    let line (offset : Int) := (Location.ofOffset source offset none).line
    let column (offset : Int) := (Location.ofOffset source offset none).column
    Utf8.size source.toList = 9 ∧ (line 8 = 2 ∧ column 8 = 3) ∧ (line 7 = 2 ∧ column 7 = 3) ∧
      (line 20 = 2 ∧ column 20 = 4) ∧ line (-5) = 2 ∧ column (-5) = 2 := by
  intro source line column
  have hsize : Utf8.size source.toList = 9 := by decide
  have hthree : Utf8.size (source.toList.take 3) = 4 := by decide
  have hfour : Utf8.size (source.toList.take 4) = 8 := by decide
  have hcolumn : (Location.ofOffset "é\nx😀b" 8).column = 3 := by cbv
  have hfront : Location.ofOffset "é\nx😀b" 4 =
      { line := 2, column := 2, offset := 4, stop := 4 } := by cbv
  have hend : Location.ofOffset "é\nx😀b" 9 =
      { line := 2, column := 4, offset := 9, stop := 9 } := by cbv
  obtain ⟨hbetween, hinside, hbeyond, hnegative⟩ := exact_locations source none
  have hline := (hbetween 4 (by decide)).1
  have hpart := hinside 3 '😀' 3 (by decide) (by decide) (by decide)
  have hlast := hbeyond 20 (by rw [hsize]; decide)
  have hwrapped := hnegative (-5) (by decide)
  dsimp only at hline hpart hlast hwrapped
  rw [hthree] at hpart
  rw [hfour] at hline
  rw [hsize] at hlast hwrapped
  refine ⟨hsize, ⟨hline.trans (by decide), hcolumn⟩, ?_, ?_, ?_⟩
  · exact ⟨hpart.1.trans (congrArg Location.line hfront),
      hpart.2.trans (congrArg (·.column + 1) hfront)⟩
  · exact ⟨hlast.1.trans (congrArg Location.line hend),
      hlast.2.trans (congrArg Location.column hend)⟩
  · exact ⟨hwrapped.1.trans (congrArg Location.line hfront),
      hwrapped.2.trans (congrArg Location.column hfront)⟩

end Offside
