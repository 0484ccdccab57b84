/-!
# Lines

The number of the line that a sequence ends in, and the part of the sequence that stands on it. The
sequence is one of characters or of bytes.
-/

namespace Offside

variable {α : Type} [BEq α]

/-- Lines count from one. -/
def lineNumber (newline : α) (sequence : List α) : Nat :=
  sequence.count newline + 1

/-- What stands after the last newline; all of it when there is none. -/
def lastLine (newline : α) (sequence : List α) : List α :=
  (sequence.reverse.takeWhile (· != newline)).reverse

theorem bne_of_mem_reverse [LawfulBEq α] {newline : α} {line : List α} (h : newline ∉ line) :
    ∀ a ∈ line.reverse, (a != newline) = true := by
  intro a ha
  rw [bne_iff_ne]
  rintro rfl
  exact h (List.mem_reverse.1 ha)

theorem lastLine_append [LawfulBEq α] {newline : α} {before line : List α} (h : newline ∉ line) :
    lastLine newline (before ++ newline :: line) = line := by
  rw [lastLine, List.reverse_append, List.reverse_cons, List.append_assoc,
    List.takeWhile_append_of_pos (bne_of_mem_reverse h)]
  simp

theorem lastLine_append_of_not_mem [LawfulBEq α] {newline : α} {line : List α}
    (h : newline ∉ line) (before : List α) :
    lastLine newline (before ++ line) = lastLine newline before ++ line := by
  rw [lastLine, List.reverse_append, List.takeWhile_append_of_pos (bne_of_mem_reverse h),
    List.reverse_append, List.reverse_reverse, lastLine]

theorem lastLine_of_not_mem [LawfulBEq α] {newline : α} {sequence : List α}
    (h : newline ∉ sequence) : lastLine newline sequence = sequence := by
  have htake : (sequence.reverse ++ []).takeWhile (· != newline) = sequence.reverse ++ [] :=
    List.takeWhile_append_of_pos (bne_of_mem_reverse h)
  rw [List.append_nil] at htake
  rw [lastLine, htake, List.reverse_reverse]

theorem lastLine_concat [LawfulBEq α] {newline a : α} (h : a ≠ newline) (sequence : List α) :
    lastLine newline (sequence ++ [a]) = lastLine newline sequence ++ [a] := by
  have hline : (a != newline) = true := bne_iff_ne.2 h
  rw [lastLine, List.reverse_append, List.reverse_singleton, List.singleton_append,
    List.takeWhile_cons, if_pos hline, List.reverse_cons, lastLine]

theorem exists_lastLine {β : Type} {newline : β} {sequence : List β} (h : newline ∈ sequence) :
    ∃ before line, sequence = before ++ newline :: line ∧ newline ∉ line := by
  obtain ⟨front, back, hreverse, hnone⟩ :=
    List.eq_append_cons_of_mem (List.mem_reverse.2 h)
  refine ⟨back.reverse, front.reverse, ?_, fun hmem => hnone (List.mem_reverse.1 hmem)⟩
  rw [← List.reverse_reverse sequence, hreverse]
  simp

/-- The last line is what stands behind the last newline, or all of the sequence. -/
theorem exists_split_lastLine [LawfulBEq α] (newline : α) (sequence : List α) :
    ∃ before, sequence = before ++ lastLine newline sequence ∧
      (before = [] ∨ [newline] <:+ before) ∧ newline ∉ lastLine newline sequence := by
  by_cases hnewline : newline ∈ sequence
  · obtain ⟨before, line, rfl, hline⟩ := exists_lastLine hnewline
    rw [lastLine_append hline]
    exact ⟨before ++ [newline], by simp, .inr (List.suffix_append _ _), hline⟩
  · rw [lastLine_of_not_mem hnewline]
    exact ⟨[], rfl, .inl rfl, hnewline⟩

theorem lastLine_append_newline [LawfulBEq α] (newline : α) (before sequence : List α) :
    lastLine newline (before ++ newline :: sequence) = lastLine newline (newline :: sequence) := by
  have hmem : newline ∈ newline :: sequence := List.mem_cons_self
  obtain ⟨front, line, hsequence, hline⟩ := exists_lastLine hmem
  rw [hsequence, ← List.append_assoc, lastLine_append hline, lastLine_append hline]

end Offside
