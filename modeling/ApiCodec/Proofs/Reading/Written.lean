import ApiCodec.Proofs.Reading.Fields

set_option autoImplicit false

namespace ApiCodec

theorem Assoc.insert_of_notMem {α : Type} {key : String} {value : α} {entries : List (String × α)}
    (fresh : key ∉ keys entries) : insert key value entries = entries ++ [(key, value)] := by
  induction entries with
  | nil => rfl
  | cons entry rest ih =>
      obtain ⟨k, v⟩ := entry
      simp only [keys, List.map_cons, List.mem_cons, not_or] at fresh
      rw [insert, if_neg (Ne.symm fresh.1), ih fresh.2]
      rfl

/-- The map of entries with different keys is made of these entries. -/
theorem Assoc.ofList_of_nodup {α : Type} {entries : List (String × α)}
    (distinct : (keys entries).Nodup) : ofList entries = entries := by
  have step : ∀ (rest map : List (String × α)), (keys (map ++ rest)).Nodup →
      rest.foldl (fun map entry => insert entry.1 entry.2 map) map = map ++ rest := by
    intro rest
    induction rest with
    | nil => exact fun map _ => (List.append_nil map).symm
    | cons entry rest ih =>
        intro map distinct
        obtain ⟨key, value⟩ := entry
        have fresh : key ∉ keys map := by
          simp only [keys, List.map_append, List.map_cons, List.nodup_append] at distinct
          exact fun member => distinct.2.2 key member key (by simp) rfl
        change rest.foldl _ (insert key value map) = _
        rw [insert_of_notMem fresh, ih _ (by simpa using distinct), List.append_assoc]
        rfl
  exact step entries [] distinct

namespace Shape

variable {α : Type}

/-- What is read from a value is read again from what it is written as. -/
def ReadsBack (read : Json → Result α) (write : α → Json) (value : Json) : Prop :=
  ∀ a, read value = .ok a → read (write a) = .ok a

@[simp] theorem get?_always (name key : String) (value : Json) :
    Assoc.get? key (always name value) = if name = key then some value else none := rfl

@[simp] theorem get?_given (name key : String) (write : α → Json) (a : Option α) :
    Assoc.get? key (given name write a) = if name = key then a.map write else none := by
  cases a <;> simp [given, Assoc.get?]

@[simp] theorem get?_givenString (name key : String) (text : Option String) :
    Assoc.get? key (givenString name text) = if name = key then text.map .str else none :=
  get?_given name key .str text

@[simp] theorem get?_givenBool (name key : String) (b : Option Bool) :
    Assoc.get? key (givenBool name b) = if name = key then b.map .bool else none :=
  get?_given name key .bool b

@[simp] theorem get?_items (name key : String) (values : List Json) :
    Assoc.get? key (items name values) =
      if name = key then if values.isEmpty then none else some (.arr values) else none := by
  unfold items
  split <;> simp [Assoc.get?]

theorem name_of_mem_given {name : String} {write : α → Json} {a : Option α} {field : String × Json}
    (member : field ∈ given name write a) : field.1 = name := by
  cases a with
  | none => cases member
  | some a =>
      cases List.mem_singleton.mp member
      rfl

theorem name_of_mem_items {name : String} {values : List Json} {field : String × Json}
    (member : field ∈ items name values) : field.1 = name := by
  unfold items at member
  split at member
  · cases member
  · cases List.mem_singleton.mp member
    rfl

@[simp] theorem get?_entries (name key : String) (fields : WrittenFields) :
    Assoc.get? key (entries name fields) =
      if name = key then if fields.isEmpty then none else some (.obj fields) else none := by
  unfold entries
  split <;> simp [Assoc.get?]

theorem listOf_map {write : α → Json} {as : List α} {read : PartReader (.arr (as.map write)) α}
    (again : ∀ a ∈ as, ∀ h, read (write a) h = .ok a) :
    listOf (.arr (as.map write)) read = .ok as := by
  refine listOf_eq_ok_iff.mpr ⟨_, rfl, ?_⟩
  rw [List.forall₂_map_left_iff, List.forall₂_same]
  intro a member
  have written : write a ∈ as.map write := List.mem_map_of_mem member
  exact ⟨sizeOf_item_lt written, again a member _⟩

theorem mapOf_mapValues {write : α → Json} {map : List (String × α)}
    {read : PartReader (.obj (mapValues write map)) α} (distinct : (Assoc.keys map).Nodup)
    (again : ∀ entry ∈ map, ∀ h, read (write entry.2) h = .ok entry.2) :
    mapOf (.obj (mapValues write map)) read = .ok map := by
  refine mapOf_eq_ok_iff.mpr ⟨_, map, rfl, ?_, (Assoc.ofList_of_nodup distinct).symm⟩
  unfold mapValues
  rw [List.forall₂_map_left_iff, List.forall₂_same]
  intro entry member
  have written : (entry.1, write entry.2) ∈ mapValues write map :=
    List.mem_map.mpr ⟨entry, member, rfl⟩
  exact ⟨rfl, sizeOf_field_lt written, again entry member _⟩

theorem union_of_ok {name : String} {reading : Unit → Result α} {rest : List (Unit → Result α)}
    {a : α} (success : reading () = .ok a) : union name (reading :: rest) = .ok a := by
  rw [union, success]

theorem union_of_error {name : String} {reading : Unit → Result α} {rest : List (Unit → Result α)}
    (failed : ∃ e, reading () = .error e) : union name (reading :: rest) = union name rest := by
  obtain ⟨e, failed⟩ := failed
  rw [union, failed]

namespace Record

variable {title name : String} {names : List String} {fields : List (String × Json)}

def ofFields (title : String) (names : List String) (fields : List (String × Json)) :
    Record (.obj fields) :=
  { title, names
    fields := fieldParts _ fields fun _ h => sizeOf_field_lt h
    length := none }

theorem ends_ofFields : (ofFields title names fields).Ends := by
  intro length same
  cases same

theorem find?_fieldParts {whole : Json} :
    ∀ {fields : List (String × Json)} (smaller : ∀ field ∈ fields, sizeOf field.2 < sizeOf whole),
      ((fieldParts whole fields smaller).find? (·.1 == name)).map (fun field => field.2.1) =
        Assoc.get? name fields
  | [], _ => rfl
  | (key, value) :: rest, smaller => by
      unfold Assoc.get? fieldParts
      by_cases same : key = name
      · rw [List.find?_cons_of_pos (by simpa using same), if_pos same]
        rfl
      · rw [List.find?_cons_of_neg (by simpa using same), if_neg same, find?_fieldParts]

/-- A record finds what its object has under a name. -/
theorem find?_ofFields :
    ((ofFields title names fields).find? name).map (fun found => found.2.1) =
      Assoc.get? name fields := by
  rw [← find?_fieldParts fun _ h => sizeOf_field_lt h, List.find?_eq_bind_findIdx?_getElem?]
  unfold find? ofFields
  simp only
  split
  · rename_i place known
    rw [known, Option.bind_some, Option.map_map]
    rfl
  · rename_i absent
    rw [absent]
    rfl

theorem exists_find?_ofFields (title : String) (names : List String) {part : Json}
    (written : Assoc.get? name fields = some part) :
    ∃ found, (ofFields title names fields).find? name = some found ∧ found.2.1 = part :=
  Option.map_eq_some_iff.mp (find?_ofFields.trans written)

theorem find?_ofFields_eq_none (absent : Assoc.get? name fields = none) :
    (ofFields title names fields).find? name = none :=
  Option.map_eq_none_iff.mp (find?_ofFields.trans absent)

theorem required_ofFields {part : Json} {read : PartReader (.obj fields) α} {a : α}
    (written : Assoc.get? name fields = some part) (again : ∀ h, read part h = .ok a) :
    ((ofFields title names fields).required name read).run = .ok a := by
  obtain ⟨found, known, rfl⟩ := exists_find?_ofFields title names written
  exact required_eq_ok_iff.mpr ⟨found, known, again _⟩

theorem defaulted_ofFields {part : Json} {read : PartReader (.obj fields) α} {own a : α}
    (written : Assoc.get? name fields = some part) (again : ∀ h, read part h = .ok a) :
    ((ofFields title names fields).defaulted name own read).run = .ok a := by
  obtain ⟨found, known, rfl⟩ := exists_find?_ofFields title names written
  exact defaulted_eq_ok_iff.mpr (Or.inl ⟨found, known, again _⟩)

theorem optional_ofFields {write : α → Json} {read : PartReader (.obj fields) α} {a : Option α}
    (written : Assoc.get? name fields = a.map write)
    (again : ∀ b ∈ a, (write b).isNull = false ∧ ∀ h, read (write b) h = .ok b) :
    ((ofFields title names fields).optional name read).run = .ok a := by
  refine optional_eq_ok_iff.mpr ?_
  cases a with
  | none => exact Or.inr ⟨find?_ofFields_eq_none written, rfl, rfl⟩
  | some b =>
      obtain ⟨⟨place, part, smaller⟩, known, rfl⟩ :=
        exists_find?_ofFields title names written
      obtain ⟨present, reads⟩ := again b rfl
      refine Or.inl ⟨_, known, ?_⟩
      simp only [present]
      exact ⟨b, reads smaller, rfl⟩

theorem list_ofFields {write : α → Json} {read : PartReader (.obj fields) α} {as : List α}
    (written : Assoc.get? name fields =
      if (as.map write).isEmpty then none else some (.arr (as.map write)))
    (again : ∀ a ∈ as, ∀ h, read (write a) h = .ok a) :
    ((ofFields title names fields).list name read).run = .ok as := by
  cases as with
  | nil => exact defaulted_eq_ok_iff.mpr (Or.inr ⟨find?_ofFields_eq_none written, rfl⟩)
  | cons a as => exact defaulted_ofFields written fun h => listOf_map fun a member _ => again a member _

theorem map_ofFields {write : α → Json} {read : PartReader (.obj fields) α}
    {map : List (String × α)}
    (written : Assoc.get? name fields =
      if (mapValues write map).isEmpty then none else some (.obj (mapValues write map)))
    (distinct : (Assoc.keys map).Nodup)
    (again : ∀ entry ∈ map, ∀ h, read (write entry.2) h = .ok entry.2) :
    ((ofFields title names fields).map name read).run = .ok map := by
  cases map with
  | nil => exact defaulted_eq_ok_iff.mpr (Or.inr ⟨find?_ofFields_eq_none written, rfl⟩)
  | cons entry map =>
      exact defaulted_ofFields written fun h =>
        mapOf_mapValues distinct fun entry member _ => again entry member _

theorem optionalString_ofFields {text : Option String}
    (written : Assoc.get? name fields = text.map .str) :
    ((ofFields title names fields).optionalString name).run = .ok text :=
  optional_ofFields written fun _ _ => ⟨rfl, fun _ => rfl⟩

theorem strings_ofFields {texts : List String}
    (written : Assoc.get? name fields =
      if (texts.map Json.str).isEmpty then none else some (.arr (texts.map .str))) :
    ((ofFields title names fields).strings name).run = .ok texts :=
  list_ofFields written fun _ _ _ => rfl

theorem map_fieldParts_val {whole : Json} :
    ∀ {fields : List (String × Json)} (smaller : ∀ field ∈ fields, sizeOf field.2 < sizeOf whole),
      (fieldParts whole fields smaller).map (fun field => (field.1, field.2.1)) = fields
  | [], _ => rfl
  | (key, value) :: rest, smaller => by
      rw [fieldParts, List.map_cons, map_fieldParts_val]

theorem others_ofFields :
    (ofFields title names fields).others = fields.filter fun field => !names.contains field.1 := by
  have split : (ofFields title names fields).others =
      (((ofFields title names fields).fields.map fun field => (field.1, field.2.1)).filter
        fun field => !names.contains field.1) := by
    rw [List.filter_map]
    rfl
  rw [split]
  exact congrArg _ (map_fieldParts_val fun _ h => sizeOf_field_lt h)

/-- The other fields of a record have names that it does not declare. -/
theorem notMem_names_of_mem_others {whole : Json} {r : Record whole}
    (opened : openRecord title names whole = .ok r) {field : String × Json}
    (member : field ∈ r.others) : field.1 ∉ names := by
  cases whole with
  | obj fields =>
      cases Except.ok.inj opened
      change field ∈ (ofFields title names fields).others at member
      rw [others_ofFields, List.mem_filter] at member
      simpa using member.2
  | null => cases opened
  | bool b => cases opened
  | num n => cases opened
  | str s => cases opened
  | arr items => cases opened

variable {whole : Json} {r : Record whole} {read : Json → Result α} {write : α → Json}

theorem required_again (inside : r.Inside)
    (back : ∀ part, sizeOf part < sizeOf whole → ReadsBack read write part) {a : α}
    (success : (r.required name fun v _ => read v).run = .ok a)
    (written : Assoc.get? name fields = some (write a)) :
    ((ofFields title names fields).required name fun v _ => read v).run = .ok a :=
  required_ofFields written fun _ =>
    of_required (P := fun a => read (write a) = .ok a) inside success
      fun part smaller _ found => back part smaller a found

theorem defaulted_again (inside : r.Inside)
    (back : ∀ part, sizeOf part < sizeOf whole → ReadsBack read write part) {own a : α}
    (known : read (write own) = .ok own)
    (success : (r.defaulted name own fun v _ => read v).run = .ok a)
    (written : Assoc.get? name fields = some (write a)) :
    ((ofFields title names fields).defaulted name own fun v _ => read v).run = .ok a :=
  defaulted_ofFields written fun _ =>
    of_defaulted (P := fun a => read (write a) = .ok a) inside success known
      fun part smaller _ found => back part smaller a found

theorem optional_again (inside : r.Inside)
    (back : ∀ part, sizeOf part < sizeOf whole → ReadsBack read write part)
    (solid : ∀ a, (write a).isNull = false) {a : Option α}
    (success : (r.optional name fun v _ => read v).run = .ok a)
    (written : Assoc.get? name fields = a.map write) :
    ((ofFields title names fields).optional name fun v _ => read v).run = .ok a := by
  have again : ∀ b ∈ a, read (write b) = .ok b :=
    of_optional inside success fun part smaller b _ _ found => back part smaller b found
  exact optional_ofFields written fun b member => ⟨solid b, fun _ => again b member⟩

theorem optionalAny_again (inside : r.Inside) {a : Option Json}
    (success : (r.optional name fun v _ => any v).run = .ok a)
    (written : Assoc.get? name fields = a.map id) :
    ((ofFields title names fields).optional name fun v _ => any v).run = .ok a := by
  have solid : ∀ b ∈ a, b.isNull = false := by
    refine of_optional inside success fun part _ b _ solid found => ?_
    cases Except.ok.inj found
    exact solid
  exact optional_ofFields written fun b member => ⟨solid b member, fun _ => rfl⟩

theorem list_again (inside : r.Inside)
    (back : ∀ part, sizeOf part < sizeOf whole → ReadsBack read write part) {as : List α}
    (success : (r.list name fun v _ => read v).run = .ok as)
    (written : Assoc.get? name fields =
      if (as.map write).isEmpty then none else some (.arr (as.map write))) :
    ((ofFields title names fields).list name fun v _ => read v).run = .ok as := by
  have again : ∀ a ∈ as, read (write a) = .ok a :=
    of_list inside success fun part smaller a _ found => back part smaller a found
  exact list_ofFields written fun a member _ => again a member

theorem map_again (inside : r.Inside)
    (back : ∀ part, sizeOf part < sizeOf whole → ReadsBack read write part)
    {map : List (String × α)} (success : (r.map name fun v _ => read v).run = .ok map)
    (written : Assoc.get? name fields =
      if (mapValues write map).isEmpty then none else some (.obj (mapValues write map))) :
    ((ofFields title names fields).map name fun v _ => read v).run = .ok map := by
  have again : ∀ entry ∈ map, read (write entry.2) = .ok entry.2 :=
    of_map inside success (P := fun a => read (write a) = .ok a)
      fun part smaller a _ found => back part smaller a found
  exact map_ofFields written (nodup_keys_map success) fun entry member _ => again entry member

end Record

end Shape

end ApiCodec
