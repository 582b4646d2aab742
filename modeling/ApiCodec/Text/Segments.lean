set_option autoImplicit false

namespace ApiCodec.Text

/-- The pieces of a text between the occurrences of a separator: one more than it occurs. -/
def splitOn (sep : Char) : List Char → List (List Char)
  | [] => [[]]
  | c :: rest =>
      if c = sep then [] :: splitOn sep rest
      else
        match splitOn sep rest with
        | [] => [[c]]
        | piece :: pieces => (c :: piece) :: pieces

theorem splitOn_ne_nil (sep : Char) (text : List Char) : splitOn sep text ≠ [] := by
  cases text with
  | nil => simp [splitOn]
  | cons c rest =>
      simp only [splitOn]
      split
      · simp
      · split <;> simp

theorem intercalate_splitOn (sep : Char) (text : List Char) :
    [sep].intercalate (splitOn sep text) = text := by
  induction text with
  | nil => rfl
  | cons c rest ih =>
      simp only [splitOn]
      split
      · next h =>
          subst h
          cases hs : splitOn c rest with
          | nil => exact absurd hs (splitOn_ne_nil c rest)
          | cons piece pieces =>
              rw [hs] at ih
              simp [List.intercalate, List.intersperse] at ih ⊢
              exact ih
      · cases hs : splitOn sep rest with
        | nil => exact absurd hs (splitOn_ne_nil sep rest)
        | cons piece pieces =>
            rw [hs] at ih
            cases pieces <;> simp_all [List.intercalate, List.intersperse]

theorem not_mem_of_mem_splitOn {sep : Char} {text piece : List Char}
    (h : piece ∈ splitOn sep text) : sep ∉ piece := by
  induction text generalizing piece with
  | nil => simp [splitOn] at h; simp [h]
  | cons c rest ih =>
      simp only [splitOn] at h
      split at h
      · rcases List.mem_cons.1 h with rfl | h
        · simp
        · exact ih h
      · next hc =>
          cases hs : splitOn sep rest with
          | nil => exact absurd hs (splitOn_ne_nil sep rest)
          | cons first pieces =>
              rw [hs] at h
              rcases List.mem_cons.1 h with rfl | h
              · have hfirst : sep ∉ first := ih (by simp [hs])
                simp [hfirst, Ne.symm hc]
              · exact ih (by simp [hs, h])

/-- A text without the separator is one piece. -/
theorem splitOn_plain {sep : Char} {text : List Char} (plain : sep ∉ text) :
    splitOn sep text = [text] := by
  induction text with
  | nil => rfl
  | cons c rest ih =>
      obtain ⟨different, plain⟩ := List.ne_and_not_mem_of_not_mem_cons plain
      simp only [splitOn, if_neg (Ne.symm different), ih plain]

/-- The pieces on both sides of a separator. -/
theorem splitOn_append_sep (sep : Char) (text rest : List Char) :
    splitOn sep (text ++ sep :: rest) = splitOn sep text ++ splitOn sep rest := by
  induction text with
  | nil => simp [splitOn]
  | cons c text ih =>
      by_cases h : c = sep
      · subst h
        simp [splitOn, ih]
      · simp only [List.cons_append, splitOn, if_neg h, ih]
        cases hs : splitOn sep text with
        | nil => exact absurd hs (splitOn_ne_nil sep text)
        | cons piece pieces => rfl

theorem splitOn_append {sep : Char} {piece : List Char} (rest : List Char) (plain : sep ∉ piece) :
    splitOn sep (piece ++ sep :: rest) = piece :: splitOn sep rest := by
  rw [splitOn_append_sep, splitOn_plain plain]
  rfl

/-- Cutting gives back what was joined. -/
theorem splitOn_intercalate {sep : Char} {pieces : List (List Char)} (nonempty : pieces ≠ [])
    (plain : ∀ piece ∈ pieces, sep ∉ piece) :
    splitOn sep ([sep].intercalate pieces) = pieces := by
  induction pieces with
  | nil => exact absurd rfl nonempty
  | cons piece pieces ih =>
      obtain ⟨here, later⟩ := List.forall_mem_cons.mp plain
      cases pieces with
      | nil => simpa using splitOn_plain here
      | cons second pieces =>
          rw [List.intercalate_cons_cons, List.append_assoc, List.singleton_append,
            splitOn_append _ here, ih (by simp) later]

/-- A text without the separator goes to the last piece. -/
theorem splitOn_append_plain {sep : Char} (text : List Char) {ending : List Char}
    (plain : sep ∉ ending) :
    splitOn sep (text ++ ending) =
      (splitOn sep text).dropLast ++ [(splitOn sep text).getLastD [] ++ ending] := by
  induction text with
  | nil => simpa [splitOn] using splitOn_plain plain
  | cons c text ih =>
      by_cases h : c = sep
      · subst h
        cases hs : splitOn c text with
        | nil => exact absurd hs (splitOn_ne_nil c text)
        | cons piece pieces => simp [splitOn, ih, hs]
      · cases hs : splitOn sep text with
        | nil => exact absurd hs (splitOn_ne_nil sep text)
        | cons piece pieces =>
            rw [hs] at ih
            cases pieces <;> simp_all [splitOn]

/-- The text before and after the first occurrence of a separator. -/
def cutChars? (sep : Char) : List Char → Option (List Char × List Char)
  | [] => none
  | c :: rest =>
      if c = sep then some ([], rest)
      else (cutChars? sep rest).map fun (before, after) => (c :: before, after)

theorem eq_of_cutChars? {sep : Char} {text before after : List Char}
    (h : cutChars? sep text = some (before, after)) :
    text = before ++ sep :: after ∧ sep ∉ before := by
  induction text generalizing before with
  | nil => simp [cutChars?] at h
  | cons c rest ih =>
      simp only [cutChars?] at h
      split at h
      · next hc => simp at h; obtain ⟨rfl, rfl⟩ := h; simp [hc]
      · next hc =>
          obtain ⟨⟨front, back⟩, hcut, heq⟩ := Option.map_eq_some_iff.1 h
          simp only [Prod.mk.injEq] at heq
          obtain ⟨rfl, rfl⟩ := heq
          obtain ⟨rfl, hfront⟩ := ih hcut
          simp [hfront, Ne.symm hc]

theorem cutChars?_append {sep : Char} {before : List Char} (after : List Char) (h : sep ∉ before) :
    cutChars? sep (before ++ sep :: after) = some (before, after) := by
  induction before with
  | nil => simp [cutChars?]
  | cons c rest ih =>
      obtain ⟨hc, hrest⟩ := List.ne_and_not_mem_of_not_mem_cons h
      simp [cutChars?, Ne.symm hc, ih hrest]

theorem cutChars?_eq_none_iff {sep : Char} {text : List Char} :
    cutChars? sep text = none ↔ sep ∉ text := by
  induction text with
  | nil => simp [cutChars?]
  | cons c rest ih =>
      simp only [cutChars?]
      split
      · next h => simp [h]
      · next h => simp [ih, Ne.symm h]

/-- The pieces of a string between the occurrences of a separator. -/
def segments (sep : Char) (text : String) : List String :=
  (splitOn sep text.toList).map String.ofList

/-- The text before and after the first occurrence of a separator. -/
def cut? (sep : Char) (text : String) : Option (String × String) :=
  (cutChars? sep text.toList).map fun (before, after) => (String.ofList before, String.ofList after)

/-- A text without its final run of a character. -/
def trimEndChars (c : Char) (text : List Char) : List Char :=
  (text.reverse.dropWhile (· == c)).reverse

/-- A string without its final run of a character. -/
def trimEnd (c : Char) (text : String) : String :=
  String.ofList (trimEndChars c text.toList)

/-- Replaces the occurrences of a pattern, after stepping over `skip` characters that an
occurrence already covered. -/
def replaceFrom (pattern replacement : List Char) : Nat → List Char → List Char
  | _, [] => []
  | skip + 1, _ :: rest => replaceFrom pattern replacement skip rest
  | 0, c :: rest =>
      if pattern.isPrefixOf (c :: rest) then
        replacement ++ replaceFrom pattern replacement (pattern.length - 1) rest
      else c :: replaceFrom pattern replacement 0 rest

/-- Replaces every occurrence of a non-empty pattern. -/
def replaceChars (pattern replacement text : List Char) : List Char :=
  replaceFrom pattern replacement 0 text

/-- Replaces every occurrence of a non-empty pattern in a string. -/
def replace (pattern replacement text : String) : String :=
  String.ofList (replaceChars pattern.toList replacement.toList text.toList)

def occurs (pattern : List Char) : List Char → Bool
  | [] => pattern.isEmpty
  | c :: rest => pattern.isPrefixOf (c :: rest) || occurs pattern rest

def contains (pattern text : String) : Bool :=
  occurs pattern.toList text.toList

/-- The placeholder of a name in a text: the name in braces. -/
def placeholder (name : List Char) : List Char := '\x7b' :: name ++ ['\x7d']

theorem replaceFrom_eq_self {pattern text : List Char} (replacement : List Char)
    (h : occurs pattern text = false) : replaceFrom pattern replacement 0 text = text := by
  induction text with
  | nil => rfl
  | cons c rest ih =>
      simp only [occurs, Bool.or_eq_false_iff] at h
      simp [replaceFrom, h.1, ih h.2]

end ApiCodec.Text
