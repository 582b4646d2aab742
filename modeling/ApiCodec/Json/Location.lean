import ApiCodec.Json.Basic
import ApiCodec.Text.Segments

set_option autoImplicit false

namespace ApiCodec.Json

/-- The name that a segment spells. -/
def unescape (segment : List Char) : List Char :=
  Text.replaceChars ['~', '0'] ['~'] (Text.replaceChars ['~', '1'] ['/'] segment)

/-- The item at the position whose decimal text is `name`, the first item standing at `position`. -/
def item? (name : String) (position : Nat) : List Json → Option Json
  | [] => none
  | item :: rest => if toString position = name then some item else item? name (position + 1) rest

/-- The part of a value that a segment names. -/
def step? (segment : List Char) : Json → Option Json
  | .obj fields => Assoc.get? (String.ofList (unescape segment)) fields
  | .arr items => item? (String.ofList (unescape segment)) 0 items
  | _ => none

/-- The place that segments lead to, one after the other. -/
def follow? : List (List Char) → Json → Option Json
  | [], value => some value
  | segment :: rest, value => (step? segment value).bind (follow? rest)

/-- The place that a path leads to; the empty path leads to the whole value. -/
def at? (path : List Char) (value : Json) : Option Json :=
  match path with
  | [] => some value
  | c :: rest => if c = '/' then follow? (Text.splitOn '/' rest) value else none

/-- All ways to spell a text whose characters may each be spelled in several ways. -/
def spellingsBy (spell : Char → List (List Char)) : List Char → List (List Char)
  | [] => [[]]
  | c :: rest => (spell c).flatMap fun front => (spellingsBy spell rest).map (front ++ ·)

theorem append_mem_spellingsBy {spell : Char → List (List Char)} {c : Char}
    (front : List Char) {back text : List Char} (hfront : front ∈ spell c)
    (hback : back ∈ spellingsBy spell text) : front ++ back ∈ spellingsBy spell (c :: text) := by
  simp only [spellingsBy, List.mem_flatMap, List.mem_map]
  exact ⟨front, hfront, back, hback, rfl⟩

/-- A text is among the spellings of what is left of it when a two-character pattern is replaced
by one character. -/
theorem mem_spellingsBy_replaceChars (a b r : Char) (text : List Char) :
    text ∈ spellingsBy (fun c => if c = r then [[a, b], [c]] else [[c]])
      (Text.replaceChars [a, b] [r] text) := by
  suffices h : ∀ n (text : List Char), text.length ≤ n →
      text ∈ spellingsBy (fun c => if c = r then [[a, b], [c]] else [[c]])
        (Text.replaceFrom [a, b] [r] 0 text) by
    exact h _ text (Nat.le_refl _)
  intro n
  induction n with
  | zero =>
      intro text h
      simp [List.eq_nil_of_length_eq_zero (Nat.le_zero.1 h), Text.replaceFrom, spellingsBy]
  | succ n ih =>
      intro text h
      have hself (c : Char) : [c] ∈ (if c = r then [[a, b], [c]] else [[c]] : List (List Char)) := by
        split <;> simp
      cases text with
      | nil => simp [Text.replaceFrom, spellingsBy]
      | cons c rest =>
          simp only [Text.replaceFrom]
          split
          · next hp =>
              cases rest with
              | nil => simp at hp
              | cons d rest =>
                  simp at hp
                  obtain ⟨rfl, rfl⟩ := hp
                  exact append_mem_spellingsBy [a, b] (by simp)
                    (ih rest (by simp at h; omega))
          · exact append_mem_spellingsBy [c] (hself c) (ih rest (by simpa using h))

def spellings (name : List Char) : List (List Char) :=
  (spellingsBy (fun c => if c = '~' then [['~', '0'], [c]] else [[c]]) name).flatMap
    (spellingsBy fun c => if c = '/' then [['~', '1'], [c]] else [[c]])

theorem mem_spellings_unescape (segment : List Char) : segment ∈ spellings (unescape segment) := by
  simp only [spellings, unescape, List.mem_flatMap]
  exact ⟨_, mem_spellingsBy_replaceChars '~' '0' '~' _, mem_spellingsBy_replaceChars '~' '1' '/' _⟩

/-- The paths through a part of the given name that go on as the given paths do. -/
def addressesUnder (name : String) (paths : List (List Char)) : List (List Char) :=
  (spellings name.toList).flatMap fun segment => paths.map fun path => '/' :: segment ++ path

mutual

/-- All paths that lead to a place of a value. -/
def addresses : Json → List (List Char)
  | .obj fields => [] :: fieldAddresses fields
  | .arr items => [] :: itemAddresses 0 items
  | .null => [[]]
  | .bool _ => [[]]
  | .num _ => [[]]
  | .str _ => [[]]

def fieldAddresses : List (String × Json) → List (List Char)
  | [] => []
  | (key, value) :: rest => addressesUnder key (addresses value) ++ fieldAddresses rest

def itemAddresses (position : Nat) : List Json → List (List Char)
  | [] => []
  | item :: rest =>
      addressesUnder (toString position) (addresses item) ++ itemAddresses (position + 1) rest

end

theorem nil_mem_addresses (value : Json) : [] ∈ addresses value := by
  cases value <;> simp [addresses]

theorem mem_addressesUnder {segment path : List Char} {name : String} {paths : List (List Char)}
    (hname : String.ofList (unescape segment) = name) (hpath : path ∈ paths) :
    '/' :: segment ++ path ∈ addressesUnder name paths := by
  simp only [addressesUnder, List.mem_flatMap, List.mem_map]
  refine ⟨segment, ?_, path, hpath, rfl⟩
  rw [← hname, String.toList_ofList]
  exact mem_spellings_unescape segment

theorem mem_fieldAddresses {segment path : List Char} {value : Json} :
    ∀ {fields : List (String × Json)},
      Assoc.get? (String.ofList (unescape segment)) fields = some value →
      path ∈ addresses value → '/' :: segment ++ path ∈ fieldAddresses fields
  | [], h, _ => by simp [Assoc.get?] at h
  | (key, first) :: rest, h, hpath => by
      simp only [Assoc.get?] at h
      simp only [fieldAddresses, List.mem_append]
      split at h
      · next hk =>
          simp only [Option.some.injEq] at h
          subst h
          exact Or.inl (mem_addressesUnder hk.symm hpath)
      · exact Or.inr (mem_fieldAddresses h hpath)

theorem mem_itemAddresses {segment path : List Char} {value : Json} :
    ∀ {items : List Json} {position : Nat},
      item? (String.ofList (unescape segment)) position items = some value →
      path ∈ addresses value → '/' :: segment ++ path ∈ itemAddresses position items
  | [], _, h, _ => by simp [item?] at h
  | first :: rest, position, h, hpath => by
      simp only [item?] at h
      simp only [itemAddresses, List.mem_append]
      split at h
      · next hk =>
          simp only [Option.some.injEq] at h
          subst h
          exact Or.inl (mem_addressesUnder hk.symm hpath)
      · exact Or.inr (mem_itemAddresses h hpath)

theorem mem_addresses_of_step? {segment path : List Char} {value part : Json}
    (h : step? segment value = some part) (hpath : path ∈ addresses part) :
    '/' :: segment ++ path ∈ addresses value := by
  cases value with
  | obj fields => exact List.mem_cons_of_mem _ (mem_fieldAddresses h hpath)
  | arr items => exact List.mem_cons_of_mem _ (mem_itemAddresses h hpath)
  | _ => simp [step?] at h

/-- Segments written one after the other, each led by a slash. -/
def joinSegments (segments : List (List Char)) : List Char := segments.flatMap ('/' :: ·)

theorem joinSegments_mem_addresses {segments : List (List Char)} {value place : Json}
    (h : follow? segments value = some place) : joinSegments segments ∈ addresses value := by
  induction segments generalizing value with
  | nil => exact nil_mem_addresses value
  | cons segment rest ih =>
      obtain ⟨part, hstep, hrest⟩ := Option.bind_eq_some_iff.1 h
      exact mem_addresses_of_step? hstep (ih hrest)

theorem joinSegments_splitOn (text : List Char) :
    joinSegments (Text.splitOn '/' text) = '/' :: text := by
  induction text with
  | nil => rfl
  | cons c rest ih =>
      simp only [Text.splitOn]
      split
      · next h => subst h; simp [joinSegments] at ih ⊢; exact ih
      · cases hs : Text.splitOn '/' rest with
        | nil => exact absurd hs (Text.splitOn_ne_nil '/' rest)
        | cons piece pieces =>
            rw [hs] at ih
            simp [joinSegments] at ih ⊢
            exact ih

/-- Every path that leads to a place of a value is among its addresses. -/
theorem mem_addresses {path : List Char} {value place : Json}
    (h : at? path value = some place) : path ∈ addresses value := by
  cases path with
  | nil => exact nil_mem_addresses value
  | cons c rest =>
      simp only [at?] at h
      split at h
      · next hc => rw [hc, ← joinSegments_splitOn]; exact joinSegments_mem_addresses h
      · simp at h

end ApiCodec.Json
