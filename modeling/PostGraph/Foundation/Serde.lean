import PostGraph.Foundation.Text

/-! # Serialized values

Data is written in a text format, and read from one, by way of values: scalars,
sequences and mappings. A record is the mapping of its fields, and may leave some
of them out. It comes back as it was if each of its fields does.
-/

namespace Foundation.Serde

/-- A value of a text format. A plain scalar comes with its text, as which it is read
where a string is wanted. -/
inductive Value where
  | null (text : Text)
  | bool (value : Bool) (text : Text)
  | number (value : Nat) (text : Text)
  | string (value : Text)
  /-- Any other scalar, such as a negative number. -/
  | other (text : Text)
  | sequence (items : List Value)
  | mapping (entries : List (Text × Value))

abbrev Value.ofNull : Value := .null "null".toList

abbrev Value.ofBool (value : Bool) : Value :=
  .bool value (if value then "true".toList else "false".toList)

abbrev Value.ofNat (value : Nat) : Value := .number value (Nat.toDigits 10 value)

/-- Plain scalars have the text that a writer gives them, and no mapping has a key
twice. -/
inductive Value.Writable : Value → Prop where
  | null : Writable .ofNull
  | bool (value : Bool) : Writable (.ofBool value)
  | number (value : Nat) : Writable (.ofNat value)
  | string (value : Text) : Writable (.string value)
  | sequence {items : List Value} (hitems : ∀ item ∈ items, item.Writable) :
      Writable (.sequence items)
  | mapping {entries : List (Text × Value)} (hkeys : (entries.map Prod.fst).Nodup)
      (hentries : ∀ entry ∈ entries, entry.2.Writable) : Writable (.mapping entries)

/-- Why a value cannot be read. -/
inductive Error where
  | invalidType (expected : Text)
  | invalidValue (expected : Text)
  | missingField (field : Text)
  | duplicateField (field : Text)
  | custom (message : Text)

class Serialize (α : Type) where
  serialize : α → Value

class Deserialize (α : Type) where
  deserialize : Value → Except Error α

export Serialize (serialize)
export Deserialize (deserialize)

/-! ## Scalars and sequences -/

instance : Serialize Bool := ⟨.ofBool⟩

instance : Deserialize Bool where
  deserialize
    | .bool value _ => .ok value
    | _ => .error (.invalidType "a boolean".toList)

instance : Serialize Text := ⟨.string⟩

instance : Deserialize Text where
  deserialize
    | .string value | .null value | .bool _ value | .number _ value | .other value => .ok value
    | _ => .error (.invalidType "a string".toList)

instance : Serialize UInt32 := ⟨fun value => .ofNat value.toNat⟩

instance : Deserialize UInt32 where
  deserialize
    | .number value _ =>
        if value < UInt32.size then .ok (.ofNat value) else .error (.invalidValue "u32".toList)
    | _ => .error (.invalidType "u32".toList)

instance : Serialize Nat := ⟨.ofNat⟩

/-- Natural numbers stand for numbers of 64 bits. -/
instance : Deserialize Nat where
  deserialize
    | .number value _ =>
        if value < UInt64.size then .ok value else .error (.invalidValue "u64".toList)
    | _ => .error (.invalidType "u64".toList)

instance {α : Type} [Serialize α] : Serialize (List α) where
  serialize items := .sequence (items.map serialize)

instance {α : Type} [Deserialize α] : Deserialize (List α) where
  deserialize
    | .sequence items => items.mapM deserialize
    | _ => .error (.invalidType "a sequence".toList)

instance {α : Type} [Deserialize α] : Deserialize (Option α) where
  deserialize
    | .null _ => .ok none
    | value => some <$> deserialize value

/-- The data has a serialized form other than null, from which the result is read. -/
structure ReadsAs {α : Type} [Serialize α] [Deserialize α] (data result : α) : Prop where
  writable : (serialize data).Writable
  ne_null : ∀ text, serialize data ≠ .null text
  deserialize_serialize : deserialize (serialize data) = .ok result

/-- The data is read back as it was. -/
abbrev Survives {α : Type} [Serialize α] [Deserialize α] (data : α) : Prop :=
  ReadsAs data data

theorem survives_bool (value : Bool) : Survives value := ⟨.bool value, nofun, rfl⟩

theorem survives_text (value : Text) : Survives value := ⟨.string value, nofun, rfl⟩

theorem survives_u32 (value : UInt32) : Survives value where
  writable := .number value.toNat
  ne_null := nofun
  deserialize_serialize := by
    simp only [serialize, deserialize, if_pos value.toNat_lt, UInt32.ofNat_toNat]

theorem survives_u64 {value : Nat} (hvalue : value < UInt64.size) : Survives value where
  writable := .number value
  ne_null := nofun
  deserialize_serialize := if_pos hvalue

/-- Items that are read back one by one are read back together. -/
theorem mapM_map {α β ε : Type} {items : List α} {write : α → β} {read : β → Except ε α}
    (hread : ∀ item ∈ items, read (write item) = .ok item) :
    (items.map write).mapM read = .ok items := by
  induction items with
  | nil => rfl
  | cons first rest ih =>
      have hfirst := hread first List.mem_cons_self
      have hrest := ih fun item hitem => hread item (List.mem_cons_of_mem first hitem)
      rw [List.map_cons, List.mapM_cons, hfirst, hrest]
      rfl

/-- Either all items are read, each as if it were alone, or one of them cannot be. -/
theorem mapM_cases {α β ε : Type} (read : α → Except ε β) (items : List α) :
    (∃ results, items.mapM read = .ok results ∧ items.map read = results.map .ok) ∨
      ∃ error, items.mapM read = .error error ∧ ∃ item ∈ items, read item = .error error := by
  induction items with
  | nil => exact .inl ⟨[], rfl, rfl⟩
  | cons first rest ih =>
      rw [List.mapM_cons]
      cases hfirst : read first with
      | error error => exact .inr ⟨error, rfl, first, List.mem_cons_self, hfirst⟩
      | ok result =>
          rcases ih with ⟨results, hresults, hmap⟩ | ⟨error, herror, item, hitem, hread⟩
          · refine .inl ⟨result :: results, ?_, ?_⟩
            · rw [hresults]
              rfl
            · rw [List.map_cons, hfirst, hmap, List.map_cons]
          · refine .inr ⟨error, ?_, item, List.mem_cons_of_mem first hitem, hread⟩
            rw [herror]
            rfl

section Parts

variable {α : Type} [Serialize α] [Deserialize α]

theorem survives_list {items : List α} (hitems : ∀ item ∈ items, Survives item) :
    Survives items where
  writable := by
    apply Value.Writable.sequence
    intro value hvalue
    obtain ⟨item, hitem, rfl⟩ := List.mem_map.mp hvalue
    exact (hitems item hitem).writable
  ne_null := nofun
  deserialize_serialize := mapM_map fun item hitem => (hitems item hitem).deserialize_serialize

/-! ## Records -/

/-- A field of a record with its value, which may be left out. -/
abbrev Field := Text × Option Value

def Field.present (name : Text) (data : α) : Field := (name, some (serialize data))

def Field.skipNone (name : Text) (data : Option α) : Field := (name, data.map serialize)

def Field.skipIf (skip : Bool) (name : Text) (data : α) : Field :=
  (name, if skip then none else some (serialize data))

/-- The entries of a record for the fields that are not left out. -/
def written (fields : List Field) : List (Text × Value) :=
  fields.filterMap fun field => field.2.map (field.1, ·)

def record (fields : List Field) : Value := .mapping (written fields)

/-- The entries of a value that is read as a record. -/
def entries (expected : Text) : Value → Except Error (List (Text × Value))
  | .mapping entries => .ok entries
  | _ => .error (.invalidType expected)

/-- The value with the given key, if there is one. -/
def find (entries : List (Text × Value)) (name : Text) : Except Error (Option Value) :=
  match entries.filter (·.1 = name) with
  | [] => .ok none
  | [(_, value)] => .ok (some value)
  | _ => .error (.duplicateField name)

def required (entries : List (Text × Value)) (name : Text) : Except Error α := do
  match ← find entries name with
  | some value => deserialize value
  | none => .error (.missingField name)

def defaulted (entries : List (Text × Value)) (name : Text) (absent : α) : Except Error α := do
  match ← find entries name with
  | some value => deserialize value
  | none => .ok absent

def optional (entries : List (Text × Value)) (name : Text) : Except Error (Option α) :=
  defaulted entries name none

/-- Data that is written and read as a record. -/
class Record (α : Type) where
  /-- What an error calls the record. -/
  expecting : Text
  fields : α → List Field
  visitMap : List (Text × Value) → Except Error α

instance {α : Type} [Record α] : Serialize α where
  serialize data := record (Record.fields data)

instance {α : Type} [Record α] : Deserialize α where
  deserialize value := do Record.visitMap (← entries (Record.expecting α) value)

/-! ## Records that are read back -/

/-- What is written of a field has no key twice. -/
def Field.Writable (field : Field) : Prop := ∀ value ∈ field.2, value.Writable

theorem Field.writable_present {name : Text} {data result : α} (hdata : ReadsAs data result) :
    (Field.present name data).Writable := by
  intro value hvalue
  cases hvalue
  exact hdata.writable

theorem Field.writable_skipNone {name : Text} {data : Option α} {result : α → α}
    (hdata : ∀ some ∈ data, ReadsAs some (result some)) :
    (Field.skipNone name data).Writable := by
  intro value hvalue
  obtain ⟨some, hsome, rfl⟩ := Option.map_eq_some_iff.mp hvalue
  exact (hdata some hsome).writable

theorem Field.writable_skipIf {skip : Bool} {name : Text} {data result : α}
    (hdata : ReadsAs data result) : (Field.skipIf skip name data).Writable := by
  intro value hvalue
  cases skip with
  | true => cases hvalue
  | false =>
      cases hvalue
      exact hdata.writable

theorem mem_written {fields : List Field} {entry : Text × Value} :
    entry ∈ written fields ↔ (entry.1, some entry.2) ∈ fields := by
  simp only [written, List.mem_filterMap, Option.map_eq_some_iff]
  constructor
  · rintro ⟨⟨name, _⟩, hfield, value, rfl, rfl⟩
    exact hfield
  · intro hfield
    exact ⟨_, hfield, entry.2, rfl, rfl⟩

/-- The keys of a record are names of fields, in their order. -/
theorem written_sublist (fields : List Field) :
    List.Sublist ((written fields).map Prod.fst) (fields.map Prod.fst) := by
  induction fields with
  | nil => exact .slnil
  | cons field rest ih =>
      obtain ⟨name, value⟩ := field
      cases value with
      | none => exact ih.cons name
      | some value => exact ih.cons_cons name

theorem writable_record {fields : List Field} (hnames : (fields.map Prod.fst).Nodup)
    (hfields : ∀ field ∈ fields, field.Writable) : (record fields).Writable := by
  apply Value.Writable.mapping ((written_sublist fields).nodup hnames)
  intro entry hentry
  exact hfields _ (mem_written.mp hentry) entry.2 rfl

theorem written_cons (name : Text) (value : Option Value) (fields : List Field) :
    written ((name, value) :: fields) = value.toList.map (name, ·) ++ written fields := by
  cases value <;> rfl

/-- The entries with the name of a field are the one it is written as, if any. -/
theorem filter_written {fields : List Field} (hnames : (fields.map Prod.fst).Nodup) {name : Text}
    {value : Option Value} (hfield : (name, value) ∈ fields) :
    (written fields).filter (·.1 = name) = value.toList.map (name, ·) := by
  induction fields with
  | nil => cases hfield
  | cons field rest ih =>
      -- the field is the first one, and no other has its name, or it is one of the others
      obtain ⟨first, firstValue⟩ := field
      obtain ⟨hfresh, hrest⟩ := List.nodup_cons.mp hnames
      rw [written_cons, List.filter_append]
      rcases List.mem_cons.mp hfield with hhead | htail
      · cases hhead
        have hothers : (written rest).filter (·.1 = name) = [] := by
          rw [List.filter_eq_nil_iff]
          intro entry hentry hname
          have hkey : entry.1 = name := of_decide_eq_true hname
          exact hfresh (hkey ▸ List.mem_map.mpr ⟨_, mem_written.mp hentry, rfl⟩)
        rw [hothers, List.append_nil, List.filter_eq_self]
        intro entry hentry
        obtain ⟨_, _, rfl⟩ := List.mem_map.mp hentry
        exact decide_eq_true rfl
      · have hne : first ≠ name := by
          rintro rfl
          exact hfresh (List.mem_map.mpr ⟨_, htail, rfl⟩)
        have hfirst : (firstValue.toList.map (first, ·)).filter (·.1 = name) = [] := by
          rw [List.filter_eq_nil_iff]
          intro entry hentry
          obtain ⟨_, _, rfl⟩ := List.mem_map.mp hentry
          simpa using hne
        rw [hfirst, List.nil_append, ih hrest htail]

theorem find_written {fields : List Field} (hnames : (fields.map Prod.fst).Nodup) {name : Text}
    {value : Option Value} (i : Nat) (hfield : fields[i]? = some (name, value)) :
    find (written fields) name = .ok value := by
  rw [find, filter_written hnames (List.mem_of_getElem? hfield)]
  cases value <;> rfl

theorem required_written {fields : List Field} (hnames : (fields.map Prod.fst).Nodup)
    {name : Text} {data result : α} (i : Nat) (hfield : fields[i]? = some (.present name data))
    (hdata : ReadsAs data result) : required (written fields) name = .ok result := by
  rw [required, find_written hnames i hfield]
  exact hdata.deserialize_serialize

theorem deserialize_some {data result : α} (hdata : ReadsAs data result) :
    deserialize (serialize data) = .ok (some result) := by
  have hread := hdata.deserialize_serialize
  have hnull := hdata.ne_null
  generalize serialize data = value at hread hnull
  -- null would be read as no data
  cases value with
  | null text => exact absurd rfl (hnull text)
  | _ => exact congrArg (some <$> ·) hread

theorem optional_written {fields : List Field} (hnames : (fields.map Prod.fst).Nodup)
    {name : Text} {data : Option α} {result : α → α} (i : Nat)
    (hfield : fields[i]? = some (.skipNone name data))
    (hdata : ∀ some ∈ data, ReadsAs some (result some)) :
    optional (written fields) name = .ok (data.map result) := by
  rw [optional, defaulted, find_written hnames i hfield]
  cases data with
  | none => rfl
  | some data => exact deserialize_some (hdata data rfl)

theorem optional_survives {fields : List Field} (hnames : (fields.map Prod.fst).Nodup)
    {name : Text} {data : Option α} (i : Nat) (hfield : fields[i]? = some (.skipNone name data))
    (hdata : ∀ some ∈ data, Survives some) : optional (written fields) name = .ok data := by
  rw [optional_written hnames i hfield hdata, Option.map_id']

theorem defaulted_written {fields : List Field} (hnames : (fields.map Prod.fst).Nodup)
    {name : Text} {skip : Bool} {data absent : α} (i : Nat)
    (hfield : fields[i]? = some (.skipIf skip name data)) (hskip : skip = true → data = absent)
    (hdata : Survives data) : defaulted (written fields) name absent = .ok data := by
  rw [defaulted, find_written hnames i hfield]
  cases skip with
  | true => exact congrArg Except.ok (hskip rfl).symm
  | false => exact hdata.deserialize_serialize

end Parts

theorem readsAs_record {α : Type} [Record α] {data result : α}
    (hnames : ((Record.fields data).map Prod.fst).Nodup)
    (hfields : ∀ field ∈ Record.fields data, field.Writable)
    (hvisit : Record.visitMap (written (Record.fields data)) = .ok result) :
    ReadsAs data result where
  writable := writable_record hnames hfields
  ne_null := nofun
  deserialize_serialize := hvisit

/-! ## What was read -/

theorem except_bind_eq_ok {ε α β : Type} {first : Except ε α} {next : α → Except ε β} {b : β}
    (h : first >>= next = .ok b) : ∃ a, first = .ok a ∧ next a = .ok b := by
  cases first with
  | error error => cases h
  | ok a => exact ⟨a, rfl, h⟩

theorem map_some_eq_ok {ε α : Type} {read : Except ε α} {a : α}
    (h : some <$> read = .ok (some a)) : read = .ok a := by
  cases read with
  | error error => cases h
  | ok found =>
      cases h
      rfl

section Reading

variable {α : Type} [Deserialize α] {entries : List (Text × Value)} {name : Text}

/-- A required field was read from some value. -/
theorem required_eq_ok {data : α} (h : required entries name = .ok data) :
    ∃ value, deserialize value = .ok data := by
  obtain ⟨found, -, hfound⟩ := except_bind_eq_ok h
  cases found with
  | none => cases hfound
  | some value => exact ⟨value, hfound⟩

theorem deserialize_eq_some {value : Value} {data : α} (h : deserialize value = .ok (some data)) :
    deserialize value = .ok data := by
  cases value with
  | null text => cases h
  | _ => exact map_some_eq_ok h

/-- An optional field that is there was read from some value. -/
theorem optional_eq_some {data : α} (h : optional entries name = .ok (some data)) :
    ∃ value, deserialize value = .ok data := by
  obtain ⟨found, -, hfound⟩ := except_bind_eq_ok h
  cases found with
  | none => cases hfound
  | some value => exact ⟨value, deserialize_eq_some hfound⟩

end Reading

theorem deserialize_nat_lt {value : Value} {number : Nat} (h : deserialize value = .ok number) :
    number < UInt64.size := by
  cases value with
  | number read text =>
      obtain ⟨hlt, rfl⟩ : read < UInt64.size ∧ read = number := by
        change (if read < UInt64.size then Except.ok read else _) = _ at h
        split at h
        next hlt => exact ⟨hlt, Except.ok.inj h⟩
        next => cases h
      exact hlt
  | _ => cases h

/-- A record was read from its entries. -/
theorem record_eq_ok {α : Type} [Record α] {value : Value} {data : α}
    (h : deserialize value = .ok data) : ∃ entries, Record.visitMap entries = .ok data := by
  obtain ⟨entries, -, hvisit⟩ := except_bind_eq_ok h
  exact ⟨entries, hvisit⟩

end Foundation.Serde
