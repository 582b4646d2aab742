import ApiCodec.Proofs.Reading.Declared
import ApiCodec.Proofs.Flatten.Outline
import Mathlib.Data.List.Forall2
import Mathlib.Logic.Relation

set_option autoImplicit false

namespace ApiCodec

/-- The items of an array and the values of an object's fields. -/
inductive Json.HasPart : Json → Json → Prop
  | item {items : List Json} {part : Json} (member : part ∈ items) : HasPart (.arr items) part
  | field {fields : List (String × Json)} {key : String} {part : Json}
      (member : (key, part) ∈ fields) : HasPart (.obj fields) part

def Json.Contains : Json → Json → Prop := Relation.TransGen HasPart

theorem Json.HasPart.contains {whole part : Json} (h : whole.HasPart part) : whole.Contains part :=
  .single h

theorem Assoc.mem_ofList {α : Type} {entries : List (String × α)} {entry : String × α}
    (member : entry ∈ ofList entries) : entry ∈ entries := by
  have step : ∀ (rest map : List (String × α)),
      entry ∈ rest.foldl (fun map next => insert next.1 next.2 map) map →
        entry ∈ map ∨ entry ∈ rest := by
    intro rest
    induction rest with
    | nil => exact fun map member => Or.inl member
    | cons first rest ih =>
        intro map member
        rcases ih _ member with member | member
        · rcases mem_insert member with rfl | member
          · exact Or.inr List.mem_cons_self
          · exact Or.inl member
        · exact Or.inr (List.mem_cons_of_mem _ member)
  rcases step entries [] member with member | member
  · cases member
  · exact member

namespace Shape

variable {α β : Type}

theorem map_eq_ok_iff {ε : Type} {x : Except ε α} {f : α → β} {b : β} :
    x.map f = .ok b ↔ ∃ a, x = .ok a ∧ b = f a := by
  cases x with
  | error e => simp [Except.map]
  | ok a => simp [Except.map, eq_comm]

theorem map_eq_error_iff {ε : Type} {x : Except ε α} {f : α → β} {e : ε} :
    x.map f = .error e ↔ x = .error e := by
  cases x <;> simp [Except.map]

theorem collect_eq_ok_iff {results : List (Result α)} {as : List α} :
    collect results = .ok as ↔ results = as.map .ok := by
  induction results generalizing as with
  | nil => cases as <;> simp [collect]
  | cons first rest ih =>
      cases first with
      | error e => cases as <;> simp [collect]
      | ok a =>
          cases as with
          | nil =>
              simp only [collect, List.map_nil, reduceCtorEq, iff_false]
              split <;> simp
          | cons a' as =>
              simp only [collect, List.map_cons, List.cons.injEq, ← ih]
              split
              · rename_i others found
                rw [found]
                simp
              · rename_i e failed
                rw [failed]
                simp

/-- What is reported of several readings is the fault of one of them. -/
theorem mem_of_collect_eq_error {results : List (Result α)} {cause : ShapeError}
    (failed : collect results = .error cause) : .error cause ∈ results := by
  induction results with
  | nil => cases failed
  | cons first rest ih =>
      cases first with
      | error e =>
          cases Except.error.inj failed
          exact List.mem_cons_self
      | ok a =>
          simp only [collect] at failed
          split at failed
          · cases failed
          · rename_i e later
            cases Except.error.inj failed
            exact List.mem_cons_of_mem _ (ih later)

theorem map_itemParts {whole : Json} {read : PartReader whole α} :
    ∀ {items : List Json} (smaller : ∀ item ∈ items, sizeOf item < sizeOf whole) {as : List α},
      (itemParts whole items smaller).map (fun part => read part.1 part.2) = as.map .ok ↔
        List.Forall₂ (fun item a => ∃ h, read item h = .ok a) items as
  | [], _, as => by cases as <;> simp [itemParts]
  | item :: rest, smaller, as => by
      cases as with
      | nil => simp [itemParts]
      | cons a as =>
          simp only [itemParts, List.map_cons, List.cons.injEq, List.forall₂_cons,
            map_itemParts fun part hp => smaller part (List.mem_cons_of_mem _ hp)]
          exact and_congr_left' ⟨fun read => ⟨_, read⟩, fun ⟨_, read⟩ => read⟩

theorem listOf_eq_ok_iff {value : Json} {read : PartReader value α} {as : List α} :
    listOf value read = .ok as ↔
      ∃ items, value = .arr items ∧
        List.Forall₂ (fun item a => ∃ h, read item h = .ok a) items as := by
  cases value with
  | arr items =>
      simp only [listOf, collect_eq_ok_iff, map_itemParts, Json.arr.injEq, exists_eq_left']
  | null => simp [listOf]
  | bool b => simp [listOf]
  | num n => simp [listOf]
  | str s => simp [listOf]
  | obj fields => simp [listOf]

def ReadsEntry {whole : Json} (read : PartReader whole α) (field : String × Json)
    (entry : String × α) : Prop :=
  field.1 = entry.1 ∧ ∃ h, read field.2 h = .ok entry.2

theorem map_fieldParts {whole : Json} {read : PartReader whole α} :
    ∀ {fields : List (String × Json)}
      (smaller : ∀ field ∈ fields, sizeOf field.2 < sizeOf whole) {entries : List (String × α)},
      ((fieldParts whole fields smaller).map fun (key, part) =>
          (read part.1 part.2).map fun a => (key, a)) = entries.map .ok ↔
        List.Forall₂ (ReadsEntry read) fields entries
  | [], _, entries => by cases entries <;> simp [fieldParts]
  | (key, value) :: rest, smaller, entries => by
      cases entries with
      | nil => simp [fieldParts]
      | cons entry entries =>
          obtain ⟨name, a⟩ := entry
          simp only [fieldParts, List.map_cons, List.cons.injEq, List.forall₂_cons,
            map_fieldParts fun field hf => smaller field (List.mem_cons_of_mem _ hf)]
          refine and_congr_left' ?_
          unfold ReadsEntry
          have smaller := smaller (key, value) List.mem_cons_self
          cases found : read value smaller with
          | error e => simp [Except.map, found]
          | ok a' => simp [Except.map, found, smaller]

theorem mapOf_eq_ok_iff {value : Json} {read : PartReader value α} {entries : List (String × α)} :
    mapOf value read = .ok entries ↔
      ∃ fields found, value = .obj fields ∧ List.Forall₂ (ReadsEntry read) fields found ∧
        entries = Assoc.ofList found := by
  cases value with
  | obj fields =>
      change Except.map _ (collect _) = .ok entries ↔ _
      simp only [map_eq_ok_iff, collect_eq_ok_iff, map_fieldParts, Json.obj.injEq, exists_and_left,
        exists_eq_left']
  | null => simp [mapOf]
  | bool b => simp [mapOf]
  | num n => simp [mapOf]
  | str s => simp [mapOf]
  | arr items => simp [mapOf]

theorem of_listOf {P : α → Prop} {value : Json} {read : PartReader value α} {as : List α}
    (success : listOf value read = .ok as)
    (holds : ∀ part h a, value.HasPart part → read part h = .ok a → P a) : ∀ a ∈ as, P a := by
  obtain ⟨items, rfl, each⟩ := listOf_eq_ok_iff.mp success
  intro a member
  obtain ⟨item, inside, h, read⟩ := exists_of_forall₂_left each.flip member
  exact holds item h a (.item inside) read

theorem of_mapOf {P : α → Prop} {value : Json} {read : PartReader value α}
    {entries : List (String × α)} (success : mapOf value read = .ok entries)
    (holds : ∀ part h a, value.HasPart part → read part h = .ok a → P a) :
    ∀ entry ∈ entries, P entry.2 := by
  obtain ⟨fields, found, rfl, each, rfl⟩ := mapOf_eq_ok_iff.mp success
  intro entry member
  obtain ⟨⟨key, part⟩, inside, _, h, read⟩ :=
    exists_of_forall₂_left each.flip (Assoc.mem_ofList member)
  exact holds part h entry.2 (.field inside) read

/-- What a union of two gives is given by one of them. -/
theorem of_union {name : String} {first second : Unit → Result α} {a : α}
    (success : union name [first, second] = .ok a) : first () = .ok a ∨ second () = .ok a := by
  simp only [union] at success
  split at success
  · rename_i b found
    exact Or.inl (found.trans success)
  · split at success
    · rename_i b found
      exact Or.inr (found.trans success)
    · cases success

theorem bind_eq_ok_iff {ε : Type} {x : Except ε α} {f : α → Except ε β} {b : β} :
    x >>= f = .ok b ↔ ∃ a, x = .ok a ∧ f a = .ok b := by
  cases x with
  | error e => simp [bind, Except.bind]
  | ok a => simp [bind, Except.bind]

theorem Gather.exists_seq {f : Gather (α → β)} {a : Gather α} {P : β → Prop} :
    (∃ b, (f <*> a).run = .ok b ∧ P b) ↔ ∃ g, f.run = .ok g ∧ ∃ x, a.run = .ok x ∧ P (g x) := by
  constructor
  · rintro ⟨b, success, holds⟩
    obtain ⟨g, x, rfl, left, right⟩ := Gather.seq_eq_ok success
    exact ⟨g, left, x, right, holds⟩
  · rintro ⟨g, left, x, right, holds⟩
    refine ⟨g x, ?_, holds⟩
    change (Gather.apply f a).run = _
    simp only [Gather.apply, left, right]

theorem Gather.exists_map {f : α → β} {a : Gather α} {P : β → Prop} :
    (∃ b, (f <$> a).run = .ok b ∧ P b) ↔ ∃ x, a.run = .ok x ∧ P (f x) := by
  have same : f <$> a = Gather.ok f <*> a := rfl
  rw [same, exists_seq]
  simp [Gather.ok]

theorem Gather.exists_pure {a : α} {P : α → Prop} :
    (∃ b, (pure a : Gather α).run = .ok b ∧ P b) ↔ P a := by
  change (∃ b, Except.ok a = Except.ok b ∧ P b) ↔ P a
  simp

/-- A record read from an array has no items after its last field. -/
def Record.Ends {whole : Json} (r : Record whole) : Prop :=
  ∀ length, r.length = some length → length ≤ r.names.length

theorem Record.finish_eq_ok_iff {whole : Json} {r : Record whole} {fields : Gather α} {a : α} :
    r.finish fields = .ok a ↔ fields.run = .ok a ∧ r.Ends := by
  unfold Record.finish Record.Ends
  cases fields.run with
  | error fault => simp
  | ok b =>
      cases r.length with
      | none => simp
      | some length =>
          simp only [Option.some.injEq, forall_eq']
          split
          · rename_i beyond
            simp [Nat.not_le.mpr beyond]
          · rename_i within
            simp [Nat.le_of_not_lt within]

theorem Record.gathered_eq_ok_iff {whole : Json} {opened : Result (Record whole)}
    {fields : Record whole → Gather α} {a : α} :
    (do let r ← opened; r.finish (fields r) : Result α) = .ok a ↔
      ∃ r, opened = .ok r ∧ r.Ends ∧ ∃ b, (fields r).run = .ok b ∧ b = a := by
  simp only [bind_eq_ok_iff, finish_eq_ok_iff, exists_eq_right]
  exact exists_congr fun r => and_congr_right' and_comm

theorem mem_itemParts {whole : Json} {part : Part whole} :
    ∀ {items : List Json} {smaller : ∀ item ∈ items, sizeOf item < sizeOf whole},
      part ∈ itemParts whole items smaller → part.1 ∈ items
  | [], _, member => by cases member
  | item :: rest, smaller, member => by
      rcases List.mem_cons.mp member with rfl | member
      · exact List.mem_cons_self
      · exact List.mem_cons_of_mem _ (mem_itemParts member)

theorem mem_fieldParts {whole : Json} {field : String × Part whole} :
    ∀ {fields : List (String × Json)} {smaller : ∀ field ∈ fields, sizeOf field.2 < sizeOf whole},
      field ∈ fieldParts whole fields smaller → (field.1, field.2.1) ∈ fields
  | [], _, member => by cases member
  | (key, value) :: rest, smaller, member => by
      rcases List.mem_cons.mp member with rfl | member
      · exact List.mem_cons_self
      · exact List.mem_cons_of_mem _ (mem_fieldParts member)

namespace Record

variable {whole : Json} {r : Record whole} {title name : String} {names : List String}

def Inside (r : Record whole) : Prop := ∀ field ∈ r.fields, whole.HasPart field.2.1

theorem inside_of_openRecord (opened : openRecord title names whole = .ok r) : r.Inside := by
  cases whole with
  | obj fields =>
      cases Except.ok.inj opened
      exact fun field member => .field (mem_fieldParts member)
  | null => cases opened
  | bool b => cases opened
  | num n => cases opened
  | str s => cases opened
  | arr items => cases opened

theorem inside_of_record (opened : record title names whole = .ok r) : r.Inside := by
  cases whole with
  | obj fields =>
      cases Except.ok.inj opened
      exact fun field member => .field (mem_fieldParts member)
  | arr items =>
      cases Except.ok.inj opened
      intro field member
      have item : field.2 ∈ itemParts _ items fun _ h => sizeOf_item_lt h :=
        (List.of_mem_zip member).2
      exact .item (mem_itemParts item)
  | null => cases opened
  | bool b => cases opened
  | num n => cases opened
  | str s => cases opened

theorem hasPart_of_find? (inside : r.Inside) {found : Nat × Part whole}
    (known : r.find? name = some found) : whole.HasPart found.2.1 := by
  unfold find? at known
  split at known
  · rename_i place _
    obtain ⟨field, there, rfl⟩ := Option.map_eq_some_iff.mp known
    exact inside field (List.mem_of_getElem? there)
  · cases known

theorem readAt_eq_ok_iff {place : Nat} {part : Part whole} {read : PartReader whole α} {a : α} :
    (readAt place part read).run = .ok a ↔ read part.1 part.2 = .ok a := by
  unfold readAt
  cases read part.1 part.2 <;> simp [Gather.ok, Gather.fail]

theorem required_eq_ok_iff {read : PartReader whole α} {a : α} :
    (r.required name read).run = .ok a ↔
      ∃ found, r.find? name = some found ∧ read found.2.1 found.2.2 = .ok a := by
  unfold required
  cases r.find? name with
  | none => by_cases array : r.length.isSome <;> simp [array, tooShort, Gather.fail]
  | some found => simp only [readAt_eq_ok_iff, Option.some.injEq, exists_eq_left']

theorem defaulted_eq_ok_iff {value : α} {read : PartReader whole α} {a : α} :
    (r.defaulted name value read).run = .ok a ↔
      (∃ found, r.find? name = some found ∧ read found.2.1 found.2.2 = .ok a) ∨
        r.find? name = none ∧ a = value := by
  unfold defaulted
  cases r.find? name with
  | none => simp [Gather.ok, eq_comm]
  | some found =>
      simp only [readAt_eq_ok_iff, Option.some.injEq, exists_eq_left', reduceCtorEq, false_and,
        or_false]

theorem optional_eq_ok_iff {read : PartReader whole α} {a : Option α} :
    (r.optional name read).run = .ok a ↔
      (∃ found, r.find? name = some found ∧
        if found.2.1.isNull then a = none else ∃ b, read found.2.1 found.2.2 = .ok b ∧ a = some b) ∨
      r.find? name = none ∧ r.length = none ∧ a = none := by
  unfold optional
  cases r.find? name with
  | none =>
      cases r.length with
      | none =>
          simp only [Gather.ok, Option.isSome_none, Bool.false_eq_true, if_false, Except.ok.injEq,
            reduceCtorEq, false_and, exists_false, false_or, true_and]
          exact eq_comm
      | some length => simp [tooShort, Gather.fail]
  | some found =>
      simp only [Option.some.injEq, exists_eq_left', reduceCtorEq, false_and, or_false]
      split
      · simp only [Gather.ok, Except.ok.injEq]
        exact eq_comm
      · rw [readAt_eq_ok_iff, map_eq_ok_iff]

variable {P : α → Prop}

theorem of_required (inside : r.Inside) {read : PartReader whole α} {a : α}
    (success : (r.required name read).run = .ok a)
    (holds : ∀ part h, whole.Contains part → read part h = .ok a → P a) : P a := by
  obtain ⟨found, known, read⟩ := required_eq_ok_iff.mp success
  exact holds _ _ (hasPart_of_find? inside known).contains read

theorem of_optional (inside : r.Inside) {read : PartReader whole α} {a : Option α}
    (success : (r.optional name read).run = .ok a)
    (holds : ∀ part h b, whole.Contains part → part.isNull = false → read part h = .ok b → P b) :
    ∀ b ∈ a, P b := by
  rintro b rfl
  rcases optional_eq_ok_iff.mp success with ⟨found, known, reading⟩ | ⟨_, _, none⟩
  · split at reading
    · cases reading
    · rename_i null
      obtain ⟨b', read, same⟩ := reading
      cases Option.some.inj same
      exact holds _ _ b (hasPart_of_find? inside known).contains (by simpa using null) read
  · cases none

theorem of_defaulted (inside : r.Inside) {value : α} {read : PartReader whole α} {a : α}
    (success : (r.defaulted name value read).run = .ok a) (own : P value)
    (holds : ∀ part h, whole.Contains part → read part h = .ok a → P a) : P a := by
  rcases defaulted_eq_ok_iff.mp success with ⟨found, known, read⟩ | ⟨_, rfl⟩
  · exact holds _ _ (hasPart_of_find? inside known).contains read
  · exact own

theorem of_list (inside : r.Inside) {read : PartReader whole α} {as : List α}
    (success : (r.list name read).run = .ok as)
    (holds : ∀ part h a, whole.Contains part → read part h = .ok a → P a) : ∀ a ∈ as, P a :=
  of_defaulted (P := fun as => ∀ a ∈ as, P a) inside success (by simp) fun _ _ inner read =>
    of_listOf read fun part _ a item => holds part _ a (inner.tail item)

theorem of_map (inside : r.Inside) {read : PartReader whole α} {entries : List (String × α)}
    (success : (r.map name read).run = .ok entries)
    (holds : ∀ part h a, whole.Contains part → read part h = .ok a → P a) :
    ∀ entry ∈ entries, P entry.2 :=
  of_defaulted (P := fun entries => ∀ entry ∈ entries, P entry.2) inside success (by simp)
    fun _ _ inner read => of_mapOf read fun part _ a field => holds part _ a (inner.tail field)

end Record

end Shape

end ApiCodec
