import Offside.Proofs.RecordRoundTrip

/-!
# Reading records

Which JSON values are read as records, and what of such a value a record keeps.
`ofJson_of_tag_ne_null` takes the reading apart along the tag of a value, and `ofJson_eq_ok_iff`
tells the record that comes of it. `readable_records` says that nothing is read but the objects with
a span and a known kind, and that the record, written again, is the object without the fields that
do not count.
-/

namespace Offside

theorem bind_eq_ok_iff {Fault α β : Type} {first : Except Fault α} {next : α → Except Fault β}
    {result : β} :
    first >>= next = .ok result ↔ ∃ value, first = .ok value ∧ next value = .ok result := by
  cases first with
  | error fault => exact ⟨nofun, nofun⟩
  | ok value =>
    constructor
    · intro h
      exact ⟨value, rfl, h⟩
    · rintro ⟨_, hvalue, h⟩
      obtain rfl := Except.ok.inj hvalue
      exact h

namespace Json

/-- The fields of some names, in the order of the names. Where a field is missing, the value that is
given with its name stands for it, if there is one. -/
def pick (names : List (String × Option Json)) (value : Json) : Json :=
  .object (names.filterMap fun (name, missing) =>
    ((value.field? name).or missing).map fun found => (name, found))

/-- Puts something else in the place of the value of a field. -/
def adjust (name : String) (f : Json → Json) : Json → Json
  | object fields =>
    .object (fields.map fun (key, value) => (key, if key = name then f value else value))
  | value => value

theorem exists_fields_of_field? {name : String} {value found : Json}
    (h : value.field? name = some found) : ∃ fields, value = .object fields := by
  cases value with
  | object fields => exact ⟨fields, rfl⟩
  | _ => cases h

end Json

/-- Among kinds that are found by their names, a name finds the kind that has it and no other. -/
theorem find?_eq_some_iff_of_names {Kind : Type} {all : List Kind} {nameOf : Kind → String}
    (hfound : ∀ kind, (all.find? fun other => nameOf other == nameOf kind) = some kind)
    {name : String} {kind : Kind} :
    (all.find? fun other => nameOf other == name) = some kind ↔ name = nameOf kind := by
  constructor
  · intro h
    have hkind : (nameOf kind == name) = true :=
      List.find?_some (p := fun other => nameOf other == name) h
    exact (beq_iff_eq.1 hkind).symm
  · rintro rfl
    exact hfound kind

theorem TokenKind.ofName?_eq_some_iff {name : String} {kind : TokenKind} :
    ofName? name = some kind ↔ name = kind.name :=
  find?_eq_some_iff_of_names ofName?_name

theorem ErrorKind.ofName?_eq_some_iff {name : String} {kind : ErrorKind} :
    ofName? name = some kind ↔ name = kind.name :=
  find?_eq_some_iff_of_names ofName?_name

namespace Record

/-! ### The steps of the reading -/

theorem fetch_eq_ok_iff {key : String} {value found : Json} :
    fetch key value = .ok found ↔ value.field? key = some found := by
  cases value with
  | object fields =>
    rw [fetch, Json.field?]
    cases fields.lookup key with
    | none => simp
    | some other =>
      constructor
      · exact fun h => congrArg some (Except.ok.inj h)
      · exact fun h => congrArg Except.ok (Option.some.inj h)
  | _ => simp [fetch, Json.field?]

theorem kindOf_eq_ok_iff {Kind : Type} {ofName? : String → Option Kind} {value : Json}
    {kind : Kind} :
    kindOf ofName? value = .ok kind ↔ ∃ name, value = .string name ∧ ofName? name = some kind := by
  constructor
  · intro h
    cases value with
    | string name =>
      refine ⟨name, rfl, ?_⟩
      rw [kindOf] at h
      cases hname : ofName? name with
      | none =>
        rw [hname] at h
        cases h
      | some other =>
        rw [hname] at h
        exact congrArg some (Except.ok.inj h)
    | _ => cases h
  · rintro ⟨name, rfl, hname⟩
    exact kindOf_of_name hname

def bounds (value : Json) : Except RecordFault (Json × Json) := do
  let start ← fetch "span" value >>= fetch "start"
  let stop ← fetch "span" value >>= fetch "end"
  return (start, stop)

def tag (value : Json) : Json :=
  (value.field? "_type").getD .null

/-- The rest of the reading, when the tag is there and the span has been looked at. -/
def ofTagged (value tag start stop : Json) : Except RecordFault Record :=
  match tag with
  | .string "Token" => do
    let kind ← fetch "type" value >>= kindOf TokenKind.ofName?
    return .token kind start stop ((value.field? "value").getD .null)
  | .string "LexError" => do
    let kind ← fetch "kind" value >>= kindOf ErrorKind.ofName?
    return .error kind start stop ((value.field? "text").getD (.string ""))
  | tag => .error (.unknownTag tag)

theorem ofTagged_of_foreign {value tag start stop : Json} (htoken : tag ≠ .string "Token")
    (herror : tag ≠ .string "LexError") :
    ofTagged value tag start stop = .error (.unknownTag tag) := by
  rw [ofTagged]
  · exact htoken
  · exact herror

theorem ofJson_of_tag_eq_null {fields : List (String × Json)} (h : tag (.object fields) = .null) :
    ofJson (.object fields) = .error .noTag := by
  rw [tag, Json.field?] at h
  rw [ofJson, h]
  rfl

theorem ofJson_of_tag_ne_null {fields : List (String × Json)} (h : tag (.object fields) ≠ .null) :
    ofJson (.object fields) =
      bounds (.object fields) >>= fun found =>
        ofTagged (.object fields) (tag (.object fields)) found.1 found.2 := by
  rw [tag, Json.field?] at h ⊢
  rw [ofJson]
  generalize (fields.lookup "_type").getD .null = tag at h
  simp only [bounds, bind_assoc, pure_bind]
  rw [if_neg Bool.false_ne_true]
  by_cases htoken : tag = .string "Token"
  · subst htoken
    simp only [ofTagged, bind_assoc]
    rfl
  · by_cases herror : tag = .string "LexError"
    · subst herror
      simp only [ofTagged, bind_assoc]
      rfl
    · simp only [ofTagged_of_foreign htoken herror]
      rfl

/-! ### What is read -/

/-- A value has a span with such bounds. -/
def HasBounds (value start stop : Json) : Prop :=
  ∃ span, value.field? "span" = some span ∧
    span.field? "start" = some start ∧ span.field? "end" = some stop

/-- A value is read as a record of its class. A token without a value has none, and an error without
a text has an empty one. -/
inductive Reads (value : Json) : Record → Prop where
  | token {kind : TokenKind} {start stop : Json}
      (tag_eq : value.field? "_type" = some (.string "Token"))
      (hasBounds : HasBounds value start stop)
      (kind_eq : value.field? "type" = some (.string kind.name)) :
      Reads value (.token kind start stop ((value.field? "value").getD .null))
  | error {kind : ErrorKind} {start stop : Json}
      (tag_eq : value.field? "_type" = some (.string "LexError"))
      (hasBounds : HasBounds value start stop)
      (kind_eq : value.field? "kind" = some (.string kind.name)) :
      Reads value (.error kind start stop ((value.field? "text").getD (.string "")))

section Reading

variable {value start stop : Json} {record : Record}

theorem bounds_eq_ok_iff : bounds value = .ok (start, stop) ↔ HasBounds value start stop := by
  simp only [bounds, bind_eq_ok_iff, fetch_eq_ok_iff, HasBounds]
  constructor
  · rintro ⟨first, ⟨span, hspan, hfirst⟩, last, ⟨again, hagain, hlast⟩, hbounds⟩
    obtain ⟨rfl, rfl⟩ := Prod.mk.inj (Except.ok.inj hbounds)
    rw [hspan] at hagain
    obtain rfl := Option.some.inj hagain
    exact ⟨span, hspan, hfirst, hlast⟩
  · rintro ⟨span, hspan, hstart, hstop⟩
    exact ⟨start, ⟨span, hspan, hstart⟩, stop, ⟨span, hspan, hstop⟩, rfl⟩

theorem kind_eq_ok_iff {Kind : Type} {ofName? : String → Option Kind} {nameOf : Kind → String}
    (hname : ∀ {name kind}, ofName? name = some kind ↔ name = nameOf kind) {key : String}
    {kind : Kind} :
    fetch key value >>= kindOf ofName? = .ok kind ↔
      value.field? key = some (.string (nameOf kind)) := by
  simp only [bind_eq_ok_iff, fetch_eq_ok_iff, kindOf_eq_ok_iff, hname]
  constructor
  · rintro ⟨_, hfield, _, rfl, rfl⟩
    exact hfield
  · intro hfield
    exact ⟨_, hfield, _, rfl, rfl⟩

theorem ofTagged_token_eq_ok_iff :
    ofTagged value (.string "Token") start stop = .ok record ↔
      ∃ kind : TokenKind, value.field? "type" = some (.string kind.name) ∧
        record = .token kind start stop ((value.field? "value").getD .null) := by
  simp only [ofTagged, bind_eq_ok_iff, kind_eq_ok_iff TokenKind.ofName?_eq_some_iff, pure,
    Except.pure, Except.ok.injEq, @eq_comm _ record]

theorem ofTagged_error_eq_ok_iff :
    ofTagged value (.string "LexError") start stop = .ok record ↔
      ∃ kind : ErrorKind, value.field? "kind" = some (.string kind.name) ∧
        record = .error kind start stop ((value.field? "text").getD (.string "")) := by
  simp only [ofTagged, bind_eq_ok_iff, kind_eq_ok_iff ErrorKind.ofName?_eq_some_iff, pure,
    Except.pure, Except.ok.injEq, @eq_comm _ record]

theorem tag_of_field? {found : Json} (h : value.field? "_type" = some found) :
    tag value = found := by
  rw [tag, h, Option.getD_some]

theorem field?_of_tag (h : tag value = .string "Token" ∨ tag value = .string "LexError") :
    value.field? "_type" = some (tag value) := by
  rw [tag] at h ⊢
  cases hfield : value.field? "_type" with
  | none =>
    rw [hfield] at h
    obtain h | h := h
    all_goals cases h
  | some found => rfl

theorem reads_of_ofTagged (hbounds : HasBounds value start stop)
    (h : ofTagged value (tag value) start stop = .ok record) : Reads value record := by
  by_cases htoken : tag value = .string "Token"
  · have hfield := field?_of_tag (.inl htoken)
    rw [htoken] at h hfield
    obtain ⟨kind, hkind, rfl⟩ := ofTagged_token_eq_ok_iff.1 h
    exact .token hfield hbounds hkind
  · by_cases herror : tag value = .string "LexError"
    · have hfield := field?_of_tag (.inr herror)
      rw [herror] at h hfield
      obtain ⟨kind, hkind, rfl⟩ := ofTagged_error_eq_ok_iff.1 h
      exact .error hfield hbounds hkind
    · rw [ofTagged_of_foreign htoken herror] at h
      cases h

theorem ofJson_of_hasBounds {found : Json} (htag : value.field? "_type" = some found)
    (hnull : found ≠ .null) (hbounds : HasBounds value start stop) :
    ofJson value = ofTagged value found start stop := by
  obtain ⟨fields, rfl⟩ := Json.exists_fields_of_field? htag
  have hfound := tag_of_field? htag
  rw [← hfound] at hnull ⊢
  rw [ofJson_of_tag_ne_null hnull, bounds_eq_ok_iff.2 hbounds]
  rfl

theorem ofJson_eq_ok_iff : ofJson value = .ok record ↔ Reads value record := by
  constructor
  · intro h
    cases value with
    | object fields =>
      by_cases hnull : tag (.object fields) = .null
      · rw [ofJson_of_tag_eq_null hnull] at h
        cases h
      · rw [ofJson_of_tag_ne_null hnull] at h
        obtain ⟨⟨start, stop⟩, hbounds, h⟩ := bind_eq_ok_iff.1 h
        exact reads_of_ofTagged (bounds_eq_ok_iff.1 hbounds) h
    | _ => cases h
  · intro h
    cases h with
    | token htag hbounds hkind =>
      rw [ofJson_of_hasBounds htag nofun hbounds]
      exact ofTagged_token_eq_ok_iff.2 ⟨_, hkind, rfl⟩
    | error htag hbounds hkind =>
      rw [ofJson_of_hasBounds htag nofun hbounds]
      exact ofTagged_error_eq_ok_iff.2 ⟨_, hkind, rfl⟩

end Reading

/-! ### What a record keeps -/

/-- An object with a span that has both bounds, and with a tag and a kind that belongs to it. -/
structure IsReadable (value : Json) : Prop where
  hasBounds : ∃ start stop, HasBounds value start stop
  tagged :
    (value.field? "_type" = some (.string "Token") ∧
        ∃ kind : TokenKind, value.field? "type" = some (.string kind.name)) ∨
      (value.field? "_type" = some (.string "LexError") ∧
        ∃ kind : ErrorKind, value.field? "kind" = some (.string kind.name))

/-- The fields that a record is written with, in alphabetical order, and what stands for one that is
missing where the record is read. -/
def parts : Record → List (String × Option Json)
  | token .. => [("_type", none), ("span", none), ("type", none), ("value", some .null)]
  | error .. => [("_type", none), ("kind", none), ("span", none), ("text", some (.string ""))]

def spanParts : List (String × Option Json) :=
  [("end", none), ("start", none)]

section Keeping

variable {value start stop : Json} {record : Record}

theorem exists_reads_iff : (∃ record, Reads value record) ↔ IsReadable value := by
  constructor
  · rintro ⟨record, h⟩
    cases h with
    | token htag hbounds hkind => exact ⟨⟨_, _, hbounds⟩, .inl ⟨htag, _, hkind⟩⟩
    | error htag hbounds hkind => exact ⟨⟨_, _, hbounds⟩, .inr ⟨htag, _, hkind⟩⟩
  · rintro ⟨⟨start, stop, hbounds⟩, ⟨htag, kind, hkind⟩ | ⟨htag, kind, hkind⟩⟩
    · exact ⟨_, .token htag hbounds hkind⟩
    · exact ⟨_, .error htag hbounds hkind⟩

theorem HasBounds.pick_span (h : HasBounds value start stop) :
    ∃ span, value.field? "span" = some span ∧ span.pick spanParts = spanJson start stop := by
  obtain ⟨span, hspan, hstart, hstop⟩ := h
  refine ⟨span, hspan, ?_⟩
  simp [Json.pick, spanParts, spanJson, hstart, hstop]

/-- A record is written as the object that it was read from, less what does not count. -/
theorem Reads.toJson_eq (h : Reads value record) :
    record.toJson = (value.pick record.parts).adjust "span" (Json.pick spanParts) := by
  cases h with
  | token htag hbounds hkind =>
    obtain ⟨span, hspan, hpick⟩ := hbounds.pick_span
    cases hvalue : value.field? "value" <;>
      simp [toJson, parts, Json.pick, Json.adjust, htag, hspan, hkind, hvalue, ← hpick]
  | error htag hbounds hkind =>
    obtain ⟨span, hspan, hpick⟩ := hbounds.pick_span
    cases htext : value.field? "text" <;>
      simp [toJson, parts, Json.pick, Json.adjust, htag, hspan, hkind, htext, ← hpick]

end Keeping

/-- **Reading records.** A value is read as a record just when it is an object with a span that has
both bounds, tagged as a token or as an error and with the name of a token kind or of an error kind.
Written again, the record is that object with the four fields of its class only and with the bounds
of its span only, where a missing value is nothing and a missing text is empty; and that is read as
the same record. -/
theorem readable_records (value : Json) :
    ((∃ record, ofJson value = .ok record) ↔ IsReadable value) ∧
      ∀ record, ofJson value = .ok record →
        record.toJson = (value.pick record.parts).adjust "span" (Json.pick spanParts) ∧
          ofJson record.toJson = .ok record := by
  simp only [ofJson_eq_ok_iff]
  refine ⟨exists_reads_iff, fun record h => ⟨h.toJson_eq, ?_⟩⟩
  exact ofJson_eq_ok_iff.1 (ofJson_toJson record)

/-- An error with a text that is no text, bounds that are no numbers, and fields that do not count.
-/
theorem readable_records_odd :
    let span := Json.object [("width", .int 3), ("start", .list []), ("end", .bool true)]
    let value := Json.object [("type", .string "COLON"), ("span", span), ("text", .int 7),
      ("kind", .string "INTEGER_OVERFLOW"), ("_type", .string "LexError")]
    ofJson value = .ok (.error .integerOverflow (.list []) (.bool true) (.int 7)) ∧
      IsReadable value ∧
      toJson (.error .integerOverflow (.list []) (.bool true) (.int 7)) =
        .object [("_type", .string "LexError"), ("kind", .string "INTEGER_OVERFLOW"),
          ("span", .object [("end", .bool true), ("start", .list [])]), ("text", .int 7)] := by
  intro span value
  have hread : ofJson value = .ok (.error .integerOverflow (.list []) (.bool true) (.int 7)) := rfl
  obtain ⟨hreadable, hwritten⟩ := readable_records value
  exact ⟨hread, hreadable.1 ⟨_, hread⟩, (hwritten _ hread).1⟩

end Record

end Offside
