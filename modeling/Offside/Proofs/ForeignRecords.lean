import Offside.Proofs.RecordReading

/-!
# Foreign records

Objects that are tagged neither as a token nor as an error are refused, but for a reason that hangs
on their span: without a tag for that alone, with another tag only after the span has been looked
at. `refuses_of_foreign` tells the fault, and `foreign_records` when it is one of value, also for a
stream in which the object is the first that is refused.
-/

namespace Offside

theorem bind_eq_error_iff {Fault α β : Type} {first : Except Fault α} {next : α → Except Fault β}
    {fault : Fault} :
    first >>= next = .error fault ↔
      first = .error fault ∨ ∃ value, first = .ok value ∧ next value = .error fault := by
  cases first with
  | error other =>
    constructor
    · intro h
      exact .inl (congrArg Except.error (Except.error.inj h))
    · rintro (h | ⟨_, hvalue, -⟩)
      · exact congrArg Except.error (Except.error.inj h)
      · cases hvalue
  | ok value =>
    constructor
    · intro h
      exact .inr ⟨value, rfl, h⟩
    · rintro (h | ⟨_, hvalue, h⟩)
      · cases h
      · obtain rfl := Except.ok.inj hvalue
        exact h

theorem mapM_append_of_error {Fault α β : Type} {f : α → Except Fault β} {front : List α} {item : α}
    {fault : Fault} (hfront : ∀ other ∈ front, ∃ result, f other = .ok result)
    (h : f item = .error fault) (back : List α) :
    (front ++ item :: back).mapM f = .error fault := by
  induction front with
  | nil =>
    rw [List.nil_append, List.mapM_cons, h]
    rfl
  | cons other front ih =>
    obtain ⟨⟨result, hresult⟩, hrest⟩ := List.forall_mem_cons.1 hfront
    rw [List.cons_append, List.mapM_cons, hresult, ih hrest]
    rfl

namespace Record

/-- An object that is not tagged, or with something that names neither class of records. -/
structure IsForeign (value : Json) : Prop where
  isObject : ∃ fields, value = .object fields
  tag_ne_token : tag value ≠ .string "Token"
  tag_ne_error : tag value ≠ .string "LexError"

theorem isForeign_of_name {fields : List (String × Json)} {name : String}
    (h : fields.lookup "_type" = some (.string name)) (htoken : name ≠ "Token")
    (herror : name ≠ "LexError") : IsForeign (.object fields) := by
  have htag : tag (.object fields) = .string name := tag_of_field? h
  refine ⟨⟨fields, rfl⟩, ?_, ?_⟩
  · rw [htag]
    exact fun hname => htoken (Json.string.inj hname)
  · rw [htag]
    exact fun hname => herror (Json.string.inj hname)

section Foreign

variable {value : Json} {fault : RecordFault}

/-! ### Faults of a span -/

theorem category_of_fetch {key : String} (h : fetch key value = .error fault) :
    fault.category = .key ∨ fault.category = .type := by
  cases value with
  | object fields =>
    rw [fetch] at h
    cases hlookup : fields.lookup key with
    | none =>
      rw [hlookup] at h
      obtain rfl := Except.error.inj h
      exact .inl rfl
    | some found =>
      rw [hlookup] at h
      cases h
  | _ =>
    obtain rfl := Except.error.inj h
    exact .inr rfl

theorem category_of_bounds (h : bounds value = .error fault) :
    fault.category = .key ∨ fault.category = .type := by
  simp only [bounds, bind_eq_error_iff] at h
  obtain (h | ⟨span, -, h⟩) | ⟨start, -, (h | ⟨span, -, h⟩) | ⟨stop, -, h⟩⟩ := h
  any_goals exact category_of_fetch h
  cases h

/-! ### The refusal -/

/-- A foreign object is refused with such a fault. -/
inductive Refuses (value : Json) : RecordFault → Prop where
  | untagged (tag_eq : tag value = .null) : Refuses value .noTag
  | unknown {start stop : Json} (tag_ne : tag value ≠ .null)
      (hasBounds : HasBounds value start stop) : Refuses value (.unknownTag (tag value))
  | unbounded {fault : RecordFault} (tag_ne : tag value ≠ .null)
      (bounds_eq : bounds value = .error fault) : Refuses value fault

theorem refuses_of_foreign (h : IsForeign value) :
    ∃ fault, ofJson value = .error fault ∧ Refuses value fault := by
  obtain ⟨fields, rfl⟩ := h.isObject
  by_cases hnull : tag (.object fields) = .null
  · exact ⟨_, ofJson_of_tag_eq_null hnull, .untagged hnull⟩
  · rw [ofJson_of_tag_ne_null hnull]
    cases hbounds : bounds (.object fields) with
    | error fault => exact ⟨fault, rfl, .unbounded hnull hbounds⟩
    | ok found =>
      refine ⟨_, ?_, .unknown hnull (bounds_eq_ok_iff.1 hbounds)⟩
      exact ofTagged_of_foreign h.tag_ne_token h.tag_ne_error

theorem Refuses.category_eq_value_iff (h : Refuses value fault) :
    fault.category = .value ↔ tag value = .null ∨ ∃ start stop, HasBounds value start stop := by
  cases h with
  | untagged htag => exact iff_of_true rfl (.inl htag)
  | unknown _ hbounds => exact iff_of_true rfl (.inr ⟨_, _, hbounds⟩)
  | unbounded htag hbounds =>
    apply iff_of_false
    · intro hvalue
      have hcategory := category_of_bounds hbounds
      rw [hvalue] at hcategory
      obtain h | h := hcategory
      all_goals cases h
    · rintro (hnull | ⟨start, stop, hfound⟩)
      · exact htag hnull
      · rw [bounds_eq_ok_iff.2 hfound] at hbounds
        cases hbounds

end Foreign

/-- **Foreign records.** An object that is tagged neither as a token nor as an error is refused, and
so is every stream in which it is the first object that is no record. The fault is one of value just
when the object has no tag or has a span with both bounds; else it is that of looking the bounds up,
since they are looked up before the tag is told to be unknown. -/
theorem foreign_records {value : Json} (h : IsForeign value) :
    ∃ fault, ofJson value = .error fault ∧
      (fault.category = .value ↔ tag value = .null ∨ ∃ start stop, HasBounds value start stop) ∧
      (fault.category ≠ .value → bounds value = .error fault) ∧
      ∀ text front back, Json.read text = .ok (.list (front ++ value :: back)) →
        (∀ item ∈ front, IsReadable item) → readRecords text = .error (.record fault) := by
  obtain ⟨fault, hfault, hrefuses⟩ := refuses_of_foreign h
  refine ⟨fault, hfault, hrefuses.category_eq_value_iff, ?_, ?_⟩
  · intro hcategory
    cases hrefuses with
    | untagged => exact absurd rfl hcategory
    | unknown => exact absurd rfl hcategory
    | unbounded _ hbounds => exact hbounds
  · intro text front back hread hfront
    have hmapM : (front ++ value :: back).mapM ofJson = .error fault := by
      refine mapM_append_of_error (fun item hitem => ?_) hfault back
      obtain ⟨record, hrecord⟩ := exists_reads_iff.2 (hfront item hitem)
      exact ⟨record, ofJson_eq_ok_iff.2 hrecord⟩
    rw [readRecords, hread]
    change ((front ++ value :: back).mapM ofJson).mapError StreamFault.record = _
    rw [hmapM]
    rfl

/-- A record in front of an object that has a tag of its own but no span. -/
theorem foreign_records_spanless :
    let first := Record.token .colon (.int 0) (.int 1) .null
    let value := Json.object [("_type", .string "Comment"), ("text", .string "#")]
    let text := Json.print none (.list [first.toJson, value])
    IsForeign value ∧ IsReadable first.toJson ∧
      Json.read text = .ok (.list [first.toJson, value]) ∧
      ofJson value = .error (.missingField "span") ∧
      readRecords text = .error (.record (.missingField "span")) := by
  intro first value text
  have hforeign : IsForeign value := isForeign_of_name rfl (by decide) (by decide)
  have hfirst : IsReadable first.toJson :=
    exists_reads_iff.1 ⟨_, ofJson_eq_ok_iff.1 (ofJson_toJson first)⟩
  have hread : Json.read text = .ok (.list [first.toJson, value]) := by
    have hspan : Json.Legible 1 (spanJson (.int 0) (.int 1)) :=
      legible_spanJson (.int (by decide)) (.int (by decide))
    have hlegible : Json.Legible 3 (.list [first.toJson, value]) := by
      apply Json.Legible.list
      simp only [List.forall_mem_cons]
      refine ⟨.object (by simp) ?_, .object (by simp) ?_, nofun⟩
      · simp only [List.forall_mem_cons]
        exact ⟨.string _, hspan, .string _, .null, nofun⟩
      · simp only [List.forall_mem_cons]
        exact ⟨.string _, .string _, nofun⟩
    have hspace : ∀ c ∈ "".toList, Json.isSpace c = true := nofun
    have hprinted := Json.read_print_append none (hlegible.mono (by decide)) hspace
    rwa [String.append_empty] at hprinted
  obtain ⟨fault, hfault, -, -, hstream⟩ := foreign_records hforeign
  obtain rfl : fault = .missingField "span" := (Except.error.inj hfault).symm
  have hrefused := hstream text [first.toJson] [] hread (List.forall_mem_singleton.2 hfirst)
  exact ⟨hforeign, hfirst, hread, hfault, hrefused⟩

/-- A tag of another name is not always told to be unknown. -/
theorem not_forall_category_eq_value :
    ¬∀ value, IsForeign value → ∃ fault, ofJson value = .error fault ∧ fault.category = .value := by
  intro h
  have hforeign : IsForeign (.object [("_type", .string "Comment")]) :=
    isForeign_of_name rfl (by decide) (by decide)
  obtain ⟨fault, hfault, hcategory⟩ := h _ hforeign
  obtain rfl : fault = .missingField "span" := (Except.error.inj hfault).symm
  cases hcategory

end Record

end Offside
