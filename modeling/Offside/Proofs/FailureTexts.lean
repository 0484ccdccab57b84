import Mathlib.Data.List.DropRight
import Offside.Proofs.StrictLexing

/-!
# The texts of failures

A failure tells its place before its message: the parts of the place that are known, with a colon
between them. The place is put together with a colon behind every part, and all the colons that it
then ends in are taken away: `message_of_parts`. So the name of a file loses colons of its own where
it is the last part, and nowhere else: `failure_texts`.
-/

namespace Offside

theorem join_map_append_colon {texts : List String} (h : texts ≠ []) :
    String.join (texts.map (· ++ ":")) = ":".intercalate texts ++ ":" := by
  induction texts with
  | nil => exact absurd rfl h
  | cons text texts ih =>
    cases texts with
    | nil => simp
    | cons next texts =>
      rw [List.map_cons, String.join_cons, ih (List.cons_ne_nil _ _), String.intercalate_cons_cons]
      simp only [String.append_assoc]

theorem exists_intercalate_concat (separator : String) (texts : List String) (last : String) :
    ∃ before, separator.intercalate (texts ++ [last]) = before ++ last := by
  by_cases h : texts = []
  · refine ⟨"", ?_⟩
    rw [h, List.nil_append, String.intercalate_singleton, String.empty_append]
  · refine ⟨separator.intercalate texts ++ separator, ?_⟩
    rw [String.intercalate_append_of_ne_nil h (List.cons_ne_nil _ _), String.intercalate_singleton]

namespace Failure

/-! ### Colons at the end -/

def EndsInColon (text : String) : Prop :=
  text.toList.getLast? = some ':'

theorem dropColons_eq (text : String) :
    dropColons text = String.ofList (text.toList.rdropWhile (· == ':')) :=
  rfl

theorem dropColons_append_colon (text : String) : dropColons (text ++ ":") = dropColons text := by
  rw [dropColons_eq, dropColons_eq, String.toList_append]
  exact congrArg String.ofList (List.rdropWhile_concat_pos _ _ _ rfl)

theorem dropColons_eq_self_iff {text : String} : dropColons text = text ↔ ¬EndsInColon text := by
  rw [← String.toList_inj, dropColons_eq, String.toList_ofList, List.rdropWhile_eq_self_iff,
    EndsInColon]
  constructor
  · intro h hends
    obtain ⟨hne, hlast⟩ := List.mem_getLast?_eq_getLast hends
    exact h hne (beq_iff_eq.2 hlast.symm)
  · intro h hne hlast
    rw [List.getLast?_eq_some_getLast hne, beq_iff_eq.1 hlast] at h
    exact h rfl

/-- What is taken away from a text is colons, and all of those that it ends in. -/
theorem exists_dropColons (text : String) :
    ∃ colons : String, text = dropColons text ++ colons ∧ (∀ c ∈ colons.toList, c = ':') ∧
      ¬EndsInColon (dropColons text) := by
  refine ⟨String.ofList (text.toList.rtakeWhile (· == ':')), ?_, ?_, ?_⟩
  · rw [dropColons_eq, ← String.ofList_append, List.rdropWhile_append_rtakeWhile,
      String.ofList_toList]
  · intro c hc
    rw [String.toList_ofList] at hc
    exact beq_iff_eq.1 (List.mem_rtakeWhile_imp (p := (· == ':')) hc)
  · rw [← dropColons_eq_self_iff, dropColons_eq, dropColons_eq, String.toList_ofList,
      List.rdropWhile_idempotent]

theorem not_endsInColon_number (before : String) (n : Int) :
    ¬EndsInColon (before ++ toString n) := by
  rw [← dropColons_eq_self_iff, ← dropColons_append_colon, dropColons_number]

/-! ### Parts of a place -/

/-- The name of the file, unless there is none or it is empty. -/
def filePart (failure : Failure) : List String :=
  match failure.file with
  | none => []
  | some file => if file.isEmpty then [] else [file]

/-- The parts of the place that are known, written out. -/
def parts (failure : Failure) : List String :=
  failure.filePart ++ failure.numbers.map toString

/-- The message behind all parts of the place, with a colon between any two. -/
def fullMessage (failure : Failure) : String :=
  if failure.parts = [] then failure.error.message
  else ":".intercalate failure.parts ++ " " ++ failure.error.message

/-- All that is known of the place is the name of a file, which ends in a colon. -/
def Clipped (failure : Failure) : Prop :=
  failure.line = none ∧ ∃ file, failure.file = some file ∧ EndsInColon file

theorem place_eq_join (failure : Failure) :
    failure.place = String.join (failure.parts.map (· ++ ":")) := by
  obtain ⟨error, line, column, file⟩ := failure
  cases file with
  | none =>
    cases line <;> cases column <;> simp [place, parts, filePart, numbers, String.append_assoc]
  | some file =>
    by_cases hfile : file = "" <;> cases line <;> cases column <;>
      simp [place, parts, filePart, numbers, hfile, String.append_assoc]

section Message

variable {failure : Failure}

theorem message_of_no_parts (h : failure.parts = []) : failure.message = failure.error.message := by
  have hplace : failure.place.isEmpty = true := by
    rw [place_eq_join, h]
    rfl
  rw [message, if_pos hplace]

theorem message_of_parts (h : failure.parts ≠ []) :
    failure.message =
      dropColons (":".intercalate failure.parts) ++ " " ++ failure.error.message := by
  have hplace : failure.place = ":".intercalate failure.parts ++ ":" := by
    rw [place_eq_join, join_map_append_colon h]
  have hne : failure.place.isEmpty = false := by
    rw [hplace]
    simp
  rw [message, hne, hplace, dropColons_append_colon]
  rfl

theorem exists_number_of_line {line : Int} (h : failure.line = some line) :
    ∃ front, ∃ n : Int, failure.parts = front ++ [toString n] := by
  rw [parts, numbers, h]
  cases failure.column with
  | none => exact ⟨_, line, rfl⟩
  | some column => exact ⟨_, column, (List.append_assoc _ [toString line] _).symm⟩

theorem exists_file_of_filePart (h : failure.filePart ≠ []) :
    ∃ file, failure.file = some file ∧ failure.filePart = [file] := by
  rw [filePart] at h ⊢
  cases hfile : failure.file with
  | none =>
    rw [hfile] at h
    exact absurd rfl h
  | some file =>
    rw [hfile] at h
    refine ⟨file, rfl, ?_⟩
    by_cases hempty : file.isEmpty = true
    · exact absurd (if_pos hempty) h
    · exact if_neg hempty

theorem Clipped.parts_eq (h : failure.Clipped) :
    ∃ file, failure.file = some file ∧ EndsInColon file ∧ failure.parts = [file] := by
  obtain ⟨hline, file, hfile, hends⟩ := h
  refine ⟨file, hfile, hends, ?_⟩
  have hname : ¬file.isEmpty = true := by
    intro hempty
    rw [String.isEmpty_iff.1 hempty] at hends
    cases hends
  rw [parts, filePart, numbers, hfile, hline]
  dsimp only
  rw [if_neg hname, List.map_nil, List.append_nil]

theorem endsInColon_iff_clipped (h : failure.parts ≠ []) :
    EndsInColon (":".intercalate failure.parts) ↔ failure.Clipped := by
  constructor
  · intro hends
    cases hline : failure.line with
    | some line =>
      obtain ⟨front, n, hparts⟩ := exists_number_of_line hline
      obtain ⟨before, htext⟩ := exists_intercalate_concat ":" front (toString n)
      rw [hparts, htext] at hends
      exact absurd hends (not_endsInColon_number before n)
    | none =>
      have hnumbers : failure.numbers = [] := by rw [numbers, hline]
      rw [parts, hnumbers, List.map_nil, List.append_nil] at h hends
      obtain ⟨file, hfile, hname⟩ := exists_file_of_filePart h
      rw [hname, String.intercalate_singleton] at hends
      exact ⟨hline, file, hfile, hends⟩
  · intro hclipped
    obtain ⟨file, -, hends, hparts⟩ := hclipped.parts_eq
    rwa [hparts, String.intercalate_singleton]

theorem message_eq_fullMessage_iff : failure.message = failure.fullMessage ↔ ¬failure.Clipped := by
  by_cases h : failure.parts = []
  · rw [message_of_no_parts h, fullMessage, if_pos h]
    refine iff_of_true rfl fun hclipped => ?_
    obtain ⟨file, -, -, hparts⟩ := hclipped.parts_eq
    rw [h] at hparts
    cases hparts
  · rw [message_of_parts h, fullMessage, if_neg h, String.append_left_inj, String.append_left_inj,
      dropColons_eq_self_iff, endsInColon_iff_clipped h]

theorem Clipped.message_eq (h : failure.Clipped) :
    ∃ file, failure.file = some file ∧
      failure.message = dropColons file ++ " " ++ failure.error.message := by
  obtain ⟨file, hfile, -, hparts⟩ := h.parts_eq
  refine ⟨file, hfile, ?_⟩
  rw [message_of_parts (by simp [hparts]), hparts, String.intercalate_singleton]

end Message

/-- **The text of a failure.** A failure comes about unless a number of its place is too long. Its
text is the message behind all parts of the place that are known, each written out, with a colon
between any two, except where there is no line and the name of the file ends in a colon. Then, and
only then, something is lost: all the colons that the name ends in. -/
theorem failure_texts (error : LexError) (line column : Option Int) (file : Option String) :
    let failure : Failure := { error := error, line := line, column := column, file := file }
    (make error line column file =
        if ∀ n ∈ failure.numbers, Text.Convertible n.natAbs then .ok failure
        else .error .tooManyDigits) ∧
      (failure.message = failure.fullMessage ↔ ¬failure.Clipped) ∧
      (failure.Clipped → ∃ stem colons : String, file = some (stem ++ colons) ∧
        (∀ c ∈ colons.toList, c = ':') ∧ ¬EndsInColon stem ∧
        failure.message = stem ++ " " ++ error.message) := by
  intro failure
  refine ⟨?_, message_eq_fullMessage_iff, fun hclipped => ?_⟩
  · simp only [make, List.all_eq_true, Text.isWritable_iff]
    rfl
  · obtain ⟨name, hfile, hmessage⟩ := hclipped.message_eq
    obtain ⟨colons, hname, hcolons, hstem⟩ := exists_dropColons name
    refine ⟨dropColons name, colons, ?_, hcolons, hstem, hmessage⟩
    rw [← hname]
    exact hfile

/-- A name that could be taken for a name with a line and a column, and a line that is too long. -/
theorem failure_texts_colon :
    let error : LexError := ⟨.unrecognizedToken, ⟨0, 1⟩, "#"⟩
    let named : Failure := { error := error, file := some "f:1:2:", column := some 5 }
    let located : Failure := { named with line := some (-1) }
    make error none (some 5) (some "f:1:2:") = .ok named ∧
      named.Clipped ∧ named.message ≠ named.fullMessage ∧
      named.message = "f:1:2 unrecognized input '#'" ∧
      make error (some (-1)) (some 5) (some "f:1:2:") = .ok located ∧
      ¬located.Clipped ∧ located.message = located.fullMessage ∧
      located.fullMessage = "f:1:2::-1:5 unrecognized input '#'" ∧
      make error (some (10 ^ Text.digitLimit)) = .error .tooManyDigits := by
  intro error named located
  have hnamed : named.Clipped := ⟨rfl, "f:1:2:", rfl, rfl⟩
  have hlocated : ¬located.Clipped := fun h => nomatch h.1
  obtain ⟨hmade, hlost, -⟩ := failure_texts error none (some 5) (some "f:1:2:")
  obtain ⟨hplaced, hkept, -⟩ := failure_texts error (some (-1)) (some 5) (some "f:1:2:")
  obtain ⟨hrefused, -⟩ := failure_texts error (some (10 ^ Text.digitLimit)) none none
  refine ⟨?_, hnamed, fun hmessage => hlost.1 hmessage hnamed, by decide +kernel, ?_, hlocated,
    hkept.2 hlocated, by decide +kernel, ?_⟩
  · rw [hmade, if_pos (by decide)]
  · rw [hplaced, if_pos (by decide)]
  · rw [hrefused, if_neg]
    exact fun h => Text.not_convertible_limit (h _ List.mem_cons_self)

/-- The name of a file is not always written out. -/
theorem not_forall_message_eq_fullMessage :
    ¬∀ error line column file, ∃ failure, make error line column file = .ok failure ∧
      failure.message = failure.fullMessage := by
  intro h
  obtain ⟨failure, hmade, hmessage⟩ := h ⟨.unrecognizedToken, ⟨0, 1⟩, "#"⟩ none none (some "a:")
  obtain rfl := Except.ok.inj hmade
  revert hmessage
  decide

end Failure

end Offside
