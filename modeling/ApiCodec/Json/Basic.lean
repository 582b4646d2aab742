import ApiCodec.Number.Binary64

set_option autoImplicit false

namespace ApiCodec

/-- A number of a JSON document, of the kind in which it was written. -/
inductive Number
  | int (n : Int)
  | float (x : Binary64)
  deriving DecidableEq, Repr, Inhabited

/-- A JSON value. -/
inductive Json
  | null
  | bool (b : Bool)
  | num (n : Number)
  | str (s : String)
  | arr (items : List Json)
  | obj (fields : List (String × Json))
  deriving Repr, Inhabited

namespace Assoc

variable {α β : Type}

def get? (key : String) : List (String × α) → Option α
  | [] => none
  | (k, v) :: rest => if k = key then some v else get? key rest

/-- Whether a map holds a key. -/
def has (key : String) (entries : List (String × α)) : Bool :=
  entries.any fun (k, _) => k == key

/-- Sets the value of a key: in place if the map has it, at the end if not. -/
def insert (key : String) (value : α) : List (String × α) → List (String × α)
  | [] => [(key, value)]
  | (k, v) :: rest => if k = key then (k, value) :: rest else (k, v) :: insert key value rest

/-- The map of a list of entries, the last value of a key winning at the place of its first. -/
def ofList (entries : List (String × α)) : List (String × α) :=
  entries.foldl (fun map (key, value) => insert key value map) []

def keys (entries : List (String × α)) : List String := entries.map Prod.fst

theorem get?_insert (key other : String) (value : α) (entries : List (String × α)) :
    get? other (insert key value entries) =
      if key = other then some value else get? other entries := by
  induction entries with
  | nil => simp [insert, get?]
  | cons entry rest ih =>
      obtain ⟨k, v⟩ := entry
      simp only [insert]
      split
      · next h => subst h; by_cases h : k = other <;> simp [get?, h]
      · next h =>
          simp only [get?, ih]
          split
          · next h' => subst h'; simp [Ne.symm h]
          · rfl

theorem keys_insert (key : String) (value : α) (entries : List (String × α)) :
    keys (insert key value entries) =
      if key ∈ keys entries then keys entries else keys entries ++ [key] := by
  induction entries with
  | nil => simp [insert, keys]
  | cons entry rest ih =>
      obtain ⟨k, v⟩ := entry
      simp only [insert]
      split
      · next h => subst h; simp [keys]
      · next h =>
          simp only [keys, List.map_cons] at ih ⊢
          rw [ih]
          by_cases hm : key ∈ rest.map Prod.fst
          · simp [hm]
          · simp [hm, Ne.symm h]

theorem nodup_keys_insert {key : String} {value : α} {entries : List (String × α)}
    (h : (keys entries).Nodup) : (keys (insert key value entries)).Nodup := by
  rw [keys_insert]
  split
  · exact h
  · next hm =>
      rw [List.nodup_append]
      exact ⟨h, by simp, by intro a ha b hb hab; simp at hb; exact hm (hb ▸ hab ▸ ha)⟩

theorem nodup_keys_ofList (entries : List (String × α)) : (keys (ofList entries)).Nodup := by
  have step : ∀ (rest map : List (String × α)), (keys map).Nodup →
      (keys (rest.foldl (fun map (key, value) => insert key value map) map)).Nodup := by
    intro rest
    induction rest with
    | nil => exact fun map distinct => distinct
    | cons entry rest ih => exact fun map distinct => ih _ (nodup_keys_insert distinct)
  exact step entries [] List.nodup_nil

theorem get?_eq_none_iff {key : String} {entries : List (String × α)} :
    get? key entries = none ↔ key ∉ keys entries := by
  induction entries with
  | nil => simp [get?, keys]
  | cons entry rest ih =>
      obtain ⟨k, v⟩ := entry
      simp only [get?, keys, List.map_cons, List.mem_cons, not_or] at ih ⊢
      split
      · next h => simp [h]
      · next h => simp [ih, Ne.symm h]

theorem mem_of_get? {key : String} {value : α} {entries : List (String × α)}
    (h : get? key entries = some value) : (key, value) ∈ entries := by
  induction entries with
  | nil => simp [get?] at h
  | cons entry rest ih =>
      obtain ⟨k, v⟩ := entry
      simp only [get?] at h
      split at h
      · next hk => simp at h; simp [hk, h]
      · exact List.mem_cons_of_mem _ (ih h)

theorem has_iff {key : String} {entries : List (String × α)} :
    has key entries ↔ key ∈ keys entries := by
  simp [has, keys]

theorem get?_of_mem {key : String} {value : α} {entries : List (String × α)}
    (distinct : (keys entries).Nodup) (h : (key, value) ∈ entries) : get? key entries = some value := by
  induction entries with
  | nil => cases h
  | cons entry rest ih =>
      obtain ⟨k, v⟩ := entry
      simp only [keys, List.map_cons, List.nodup_cons] at distinct
      rcases List.mem_cons.1 h with h | h
      · cases h
        simp [get?]
      · have hne : k ≠ key := by
          rintro rfl
          exact distinct.1 (List.mem_map.2 ⟨_, h, rfl⟩)
        simp only [get?, hne, if_false]
        exact ih distinct.2 h

theorem mem_keys_iff {key : String} {entries : List (String × α)} :
    key ∈ keys entries ↔ ∃ value, get? key entries = some value := by
  cases h : get? key entries with
  | none => simp [get?_eq_none_iff.1 h]
  | some value =>
      have hmem : (key, value) ∈ entries := mem_of_get? h
      have hkey : key ∈ keys entries := List.mem_map.2 ⟨_, hmem, rfl⟩
      simp [hkey]

theorem mem_insert {key : String} {value : α} {entries : List (String × α)} {entry : String × α}
    (h : entry ∈ insert key value entries) : entry = (key, value) ∨ entry ∈ entries := by
  induction entries with
  | nil => exact .inl (List.mem_singleton.1 h)
  | cons first rest ih =>
      obtain ⟨k, v⟩ := first
      simp only [insert] at h
      split at h
      · next hk =>
          rcases List.mem_cons.1 h with rfl | h
          · exact .inl (by rw [hk])
          · exact .inr (List.mem_cons_of_mem _ h)
      · rcases List.mem_cons.1 h with rfl | h
        · exact .inr (by simp)
        · rcases ih h with h | h
          · exact .inl h
          · exact .inr (List.mem_cons_of_mem _ h)

theorem get?_mapKeyed (f : String → α → β) (key : String) (entries : List (String × α)) :
    get? key (entries.map fun (k, v) => (k, f k v)) = (get? key entries).map (f key) := by
  induction entries with
  | nil => rfl
  | cons entry rest ih =>
      obtain ⟨k, v⟩ := entry
      simp only [List.map_cons, get?]
      split
      · rename_i same
        rw [same]
        rfl
      · exact ih

theorem get?_map (f : α → β) (key : String) (entries : List (String × α)) :
    get? key (entries.map fun (k, v) => (k, f v)) = (get? key entries).map f :=
  get?_mapKeyed (fun _ => f) key entries

theorem get?_append (key : String) (entries others : List (String × α)) :
    get? key (entries ++ others) = (get? key entries).or (get? key others) := by
  induction entries with
  | nil => simp [get?]
  | cons entry rest ih =>
      obtain ⟨k, v⟩ := entry
      simp only [List.cons_append, get?]
      split
      · rfl
      · exact ih

end Assoc

namespace Number

/-- Equality of numbers of one kind, by value. -/
def eqv : Number → Number → Bool
  | .int m, .int n => m == n
  | .float x, .float y => x.eqv y
  | _, _ => false

def toBinary64? : Number → Option Binary64
  | .int n => Binary64.ofInt? n
  | .float x => some x

end Number

namespace Json

mutual

/-- Equality of values; the order of an object's fields does not count. -/
def eqv : Json → Json → Bool
  | .null, .null => true
  | .bool a, .bool b => a == b
  | .num a, .num b => a.eqv b
  | .str a, .str b => a == b
  | .arr xs, .arr ys => eqvItems xs ys
  | .obj xs, .obj ys => xs.length == ys.length && eqvFields xs ys
  | _, _ => false

def eqvItems : List Json → List Json → Bool
  | [], [] => true
  | x :: xs, y :: ys => eqv x y && eqvItems xs ys
  | _, _ => false

def eqvFields : List (String × Json) → List (String × Json) → Bool
  | [], _ => true
  | (key, x) :: xs, ys =>
      (match Assoc.get? key ys with
        | some y => eqv x y
        | none => false) && eqvFields xs ys

end

def isNull : Json → Bool
  | .null => true
  | _ => false

def isString : Json → Bool
  | .str _ => true
  | _ => false

def field? (key : String) : Json → Option Json
  | .obj fields => Assoc.get? key fields
  | _ => none

/-- Text as a value, or null. -/
def ofString? : Option String → Json
  | some s => .str s
  | none => .null

def ofStrings (texts : List String) : Json := .arr (texts.map .str)

end Json

end ApiCodec
