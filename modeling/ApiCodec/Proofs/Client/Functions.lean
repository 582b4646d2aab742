import ApiCodec.Emit.Client
import ApiCodec.Proofs.Text.Quoting
import ApiCodec.Proofs.Text.Spelling
import Mathlib.Data.List.Forall2

set_option autoImplicit false

namespace ApiCodec.Emit

open Text (isSpelled isSpelled_camelCase)

/-- How a list in braces goes on behind one of its items. -/
def GoesOn (text : List Char) : Prop := text.head? = some ',' ∨ text.head? = some ' '

/-- In a list in braces, such items tell where they end. -/
def Delimited (IsItem : String → Prop) : Prop :=
  ∀ {x y : String} {s t : List Char}, IsItem x → IsItem y → GoesOn s → GoesOn t →
    x.toList ++ s = y.toList ++ t → x = y ∧ s = t

/-- A list in braces behind its first item. -/
def restOf : List String → List Char
  | [] => [' ', '\x7d']
  | x :: rest => ',' :: ' ' :: (x.toList ++ restOf rest)

theorem goesOn_restOf (xs : List String) (s : List Char) : GoesOn (restOf xs ++ s) := by
  cases xs with
  | nil => exact Or.inr rfl
  | cons x rest => exact Or.inl rfl

theorem toList_braced (x : String) (rest : List String) :
    (braced (x :: rest)).toList = '\x7b' :: ' ' :: (x.toList ++ restOf rest) := by
  have list : (", ".intercalate (x :: rest) ++ " \x7d").toList = x.toList ++ restOf rest := by
    induction rest generalizing x with
    | nil =>
        rw [String.intercalate_singleton, String.toList_append]
        rfl
    | cons y rest ih =>
        have more := ih y
        rw [String.toList_append] at more
        rw [String.intercalate_cons_cons, String.toList_append, String.toList_append,
          String.toList_append, List.append_assoc, List.append_assoc, more]
        rfl
  rw [braced, String.append_assoc, String.toList_append, list]
  rfl

section

variable {IsItem : String → Prop} (delimited : Delimited IsItem)

include delimited

theorem restOf_append_inj {xs ys : List String} {s t : List Char} (items : ∀ x ∈ xs, IsItem x)
    (others : ∀ y ∈ ys, IsItem y) (same : restOf xs ++ s = restOf ys ++ t) : xs = ys ∧ s = t := by
  induction xs generalizing ys with
  | nil =>
      cases ys with
      | nil => exact ⟨rfl, List.append_cancel_left same⟩
      | cons y ys => cases (List.cons.inj same).1
  | cons x xs ih =>
      cases ys with
      | nil => cases (List.cons.inj same).1
      | cons y ys =>
          obtain ⟨first, later⟩ := List.forall_mem_cons.mp items
          obtain ⟨second, later'⟩ := List.forall_mem_cons.mp others
          have behind : x.toList ++ (restOf xs ++ s) = y.toList ++ (restOf ys ++ t) := by
            rw [← List.append_assoc, ← List.append_assoc]
            exact (List.cons.inj (List.cons.inj same).2).2
          obtain ⟨rfl, more⟩ :=
            delimited first second (goesOn_restOf xs s) (goesOn_restOf ys t) behind
          obtain ⟨rfl, rests⟩ := ih later later' more
          exact ⟨rfl, rests⟩

theorem braced_append_inj {xs ys : List String} {s t : List Char} (given : xs ≠ [])
    (given' : ys ≠ []) (items : ∀ x ∈ xs, IsItem x) (others : ∀ y ∈ ys, IsItem y)
    (same : (braced xs).toList ++ s = (braced ys).toList ++ t) : xs = ys ∧ s = t := by
  obtain ⟨x, xs, rfl⟩ := List.exists_cons_of_ne_nil given
  obtain ⟨y, ys, rfl⟩ := List.exists_cons_of_ne_nil given'
  refine restOf_append_inj delimited items others ?_
  rw [toList_braced, toList_braced] at same
  have behind := (List.cons.inj (List.cons.inj same).2).2
  exact congrArg (',' :: ' ' :: ·) behind

end

/-- What a list is mapped to tells all that each element's image tells. -/
theorem map_eq_of_map_eq {α β γ : Type} {f : α → β} {g : α → γ}
    (tells : ∀ a b, f a = f b → g a = g b) {as bs : List α} (same : as.map f = bs.map f) :
    as.map g = bs.map g := by
  rw [← List.forall₂_eq_eq_eq, List.forall₂_map_left_iff, List.forall₂_map_right_iff] at same ⊢
  exact same.imp tells

theorem toList_namedVariable (p : Parameter) (s : List Char) :
    (namedVariable p).toList ++ s =
      '[' :: ((literal p.name).toList ++ ("]: ".toList ++ ((variableOf p).toList ++ s))) := by
  have opened : "[".toList = ['['] := by decide
  simp only [namedVariable, String.toList_append, List.append_assoc, opened, List.cons_append,
    List.nil_append]

theorem variableOf_congr {p q : Parameter} (same : p.name = q.name) : variableOf p = variableOf q := by
  rw [variableOf, variableOf, same]

theorem namedVariable_append_inj {p q : Parameter} {s t : List Char}
    (same : (namedVariable p).toList ++ s = (namedVariable q).toList ++ t) :
    p.name = q.name ∧ s = t := by
  rw [toList_namedVariable, toList_namedVariable] at same
  obtain ⟨name, behind⟩ := Json.quote_append_inj (List.cons.inj same).2
  rw [variableOf_congr name] at behind
  exact ⟨name, List.append_cancel_left (List.append_cancel_left behind)⟩

theorem name_of_namedVariable_eq {p q : Parameter} (same : namedVariable p = namedVariable q) :
    p.name = q.name :=
  (namedVariable_append_inj (congrArg (fun text : String => text.toList ++ []) same)).1

theorem delimited_namedVariable : Delimited fun x => ∃ p, namedVariable p = x := by
  rintro _ _ s t ⟨p, rfl⟩ ⟨q, rfl⟩ _ _ same
  obtain ⟨name, rests⟩ := namedVariable_append_inj same
  exact ⟨by rw [namedVariable, namedVariable, name, variableOf_congr name], rests⟩

theorem toList_destructured_cons (p : Parameter) (ps : List Parameter) (s : List Char) :
    (destructured (p :: ps)).toList ++ s =
      '(' :: ((braced ((p :: ps).map namedVariable)).toList ++ ')' :: s) := by
  rw [destructured, if_neg (by simp), String.toList_append, String.toList_append, List.append_assoc,
    List.append_assoc]
  rfl

/-- The parameters of a function tell their names, and where they end. -/
theorem destructured_append_inj {ps qs : List Parameter} {s t : List Char}
    (same : (destructured ps).toList ++ s = (destructured qs).toList ++ t) :
    ps.map (·.name) = qs.map (·.name) ∧ s = t := by
  cases ps with
  | nil =>
      cases qs with
      | nil => exact ⟨rfl, List.append_cancel_left same⟩
      | cons q qs =>
          rw [toList_destructured_cons, List.map_cons, toList_braced] at same
          cases (List.cons.inj (List.cons.inj same).2).1
  | cons p ps =>
      cases qs with
      | nil =>
          rw [toList_destructured_cons, List.map_cons, toList_braced] at same
          cases (List.cons.inj (List.cons.inj same).2).1
      | cons q qs =>
          rw [toList_destructured_cons, toList_destructured_cons] at same
          have items : ∀ (rs : List Parameter), ∀ x ∈ rs.map namedVariable, ∃ r, namedVariable r = x :=
            fun rs x member => (List.mem_map.mp member).imp fun _ found => found.2
          obtain ⟨fields, behind⟩ := braced_append_inj delimited_namedVariable
            (List.cons_ne_nil _ _) (List.cons_ne_nil _ _) (items (p :: ps)) (items (q :: qs))
            (List.cons.inj same).2
          exact ⟨map_eq_of_map_eq (fun _ _ => name_of_namedVariable_eq) fields,
            (List.cons.inj behind).2⟩

/-- What a header is sent with: a text, a parameter, or a parameter behind a word. -/
inductive HeaderContent
  | constant (value : String)
  | parameter (p : Parameter)
  | token (word : String) (plain : '\x60' ∉ word.toList) (p : Parameter)

def HeaderContent.written : HeaderContent → String
  | .constant value => literal value
  | .parameter p => variableOf p
  | .token word _ p => "`" ++ word ++ " $\x7b" ++ variableOf p ++ "\x7d`"

/-- What is left of a text behind the content of a header. -/
def afterContent : List Char → List Char
  | '"' :: rest => Json.afterString rest
  | '\x60' :: rest => (rest.dropWhile (· != '\x60')).tail
  | text => text.dropWhile isSpelled

theorem dropWhile_append_of_all {test : Char → Bool} {word : List Char} {c : Char}
    (all : ∀ d ∈ word, test d) (fails : test c = false) (rest : List Char) :
    (word ++ c :: rest).dropWhile test = c :: rest := by
  rw [List.dropWhile_append_of_pos all, List.dropWhile_cons_of_neg (by simp [fails])]

theorem isSpelled_variableOf (p : Parameter) : ∀ c ∈ (variableOf p).toList, isSpelled c := by
  intro c member
  simp only [variableOf, CodeName.of] at member
  exact isSpelled_camelCase _ c member

theorem afterContent_cons {c : Char} (quote : c ≠ '"') (tick : c ≠ '\x60') (rest : List Char) :
    afterContent (c :: rest) = (c :: rest).dropWhile isSpelled := by
  rw [afterContent]
  · exact fun _ same => quote (List.cons.inj same).1
  · exact fun _ same => tick (List.cons.inj same).1

theorem afterContent_spelled {word : List Char} {c : Char} (spelled : ∀ d ∈ word, isSpelled d)
    (stops : c = ',' ∨ c = ' ') (rest : List Char) : afterContent (word ++ c :: rest) = c :: rest := by
  have fails : isSpelled c = false := by rcases stops with rfl | rfl <;> decide
  have behind := dropWhile_append_of_all spelled fails rest
  cases word with
  | nil =>
      rcases stops with rfl | rfl
      · rwa [List.nil_append, afterContent_cons (by decide) (by decide)]
      · rwa [List.nil_append, afterContent_cons (by decide) (by decide)]
  | cons d word =>
      have first := spelled d List.mem_cons_self
      have quote : d ≠ '"' := by rintro rfl; cases first
      have tick : d ≠ '\x60' := by rintro rfl; cases first
      rwa [List.cons_append, afterContent_cons quote tick]

theorem afterContent_written (content : HeaderContent) {s : List Char} (goesOn : GoesOn s) :
    afterContent (content.written.toList ++ s) = s := by
  cases content with
  | constant value =>
      have chars : (literal value).toList ++ s =
          '"' :: (value.toList.flatMap Json.escapeChar ++ '"' :: s) := Json.toList_quote_append _ _
      rw [HeaderContent.written, chars, afterContent, Json.afterString_string]
  | parameter p =>
      have spelled := isSpelled_variableOf p
      rcases goesOn with first | first
      · obtain ⟨rest, rfl⟩ := List.head?_eq_some_iff.mp first
        exact afterContent_spelled spelled (Or.inl rfl) rest
      · obtain ⟨rest, rfl⟩ := List.head?_eq_some_iff.mp first
        exact afterContent_spelled spelled (Or.inr rfl) rest
  | token word plain p =>
      have chars : (HeaderContent.token word plain p).written.toList ++ s =
          '\x60' :: ((word.toList ++ " $\x7b".toList ++ (variableOf p).toList ++ ['\x7d']) ++
            '\x60' :: s) := by
        simp only [HeaderContent.written, String.toList_append, List.append_assoc]
        rfl
      have inside : ∀ c ∈ word.toList ++ " $\x7b".toList ++ (variableOf p).toList ++ ['\x7d'],
          (c != '\x60') = true := by
        intro c member
        rw [bne_iff_ne]
        rintro rfl
        simp only [List.mem_append, or_assoc] at member
        rcases member with inWord | dollar | inName | brace
        · exact plain inWord
        · exact absurd dollar (by decide)
        · cases isSpelled_variableOf p _ inName
        · exact absurd brace (by decide)
      rw [chars, afterContent, dropWhile_append_of_all inside (by decide)]
      rfl

theorem HeaderContent.written_append_inj {a b : HeaderContent} {s t : List Char} (first : GoesOn s)
    (second : GoesOn t) (same : a.written.toList ++ s = b.written.toList ++ t) :
    a.written = b.written ∧ s = t := by
  have rests : s = t := by
    rw [← afterContent_written a first, ← afterContent_written b second, same]
  rw [rests, List.append_cancel_right_eq] at same
  exact ⟨String.toList_inj.mp same, rests⟩

def headerField (header : String × String) : String := literal header.1 ++ ": " ++ header.2

/-- A function that makes the headers of a request of the parameters that it takes. -/
structure HeadersMaker where
  taken : List Parameter
  fields : List (String × HeaderContent)

namespace HeadersMaker

/-- The headers by name, as they are written. -/
def headers (m : HeadersMaker) : List (String × String) :=
  m.fields.map fun field => (field.1, field.2.written)

def object (m : HeadersMaker) : String :=
  if m.headers = [] then "\x7b\x7d" else braced (m.headers.map headerField)

def function (m : HeadersMaker) : String :=
  destructured m.taken ++ " => (" ++ m.object ++ ")"

theorem headerField_append_inj {name other : String} {a b : HeaderContent} {s t : List Char}
    (first : GoesOn s) (second : GoesOn t)
    (same : (headerField (name, a.written)).toList ++ s =
      (headerField (other, b.written)).toList ++ t) :
    (name, a.written) = (other, b.written) ∧ s = t := by
  simp only [headerField, String.toList_append, List.append_assoc] at same
  obtain ⟨rfl, behind⟩ := Json.quote_append_inj same
  obtain ⟨content, rests⟩ :=
    HeaderContent.written_append_inj first second (List.append_cancel_left behind)
  exact ⟨by rw [content], rests⟩

theorem headerField_injective {field other : String × HeaderContent}
    (same : headerField (field.1, field.2.written) = headerField (other.1, other.2.written)) :
    (field.1, field.2.written) = (other.1, other.2.written) := by
  have chars := congrArg (fun text : String => text.toList ++ [',']) same
  exact (headerField_append_inj (Or.inl rfl) (Or.inl rfl) chars).1

theorem delimited_headerField :
    Delimited fun x => ∃ field : String × HeaderContent,
      headerField (field.1, field.2.written) = x := by
  rintro _ _ s t ⟨field, rfl⟩ ⟨other, rfl⟩ first second same
  obtain ⟨header, rests⟩ := headerField_append_inj first second same
  exact ⟨congrArg headerField header, rests⟩

variable {m other : HeadersMaker}

theorem toList_function (m : HeadersMaker) :
    m.function.toList =
      (destructured m.taken).toList ++ (" => (".toList ++ (m.object.toList ++ [')'])) := by
  simp only [function, String.toList_append, List.append_assoc]
  rfl

theorem toList_object_of_cons {x : String × String} {rest : List (String × String)}
    (given : m.headers = x :: rest) :
    m.object.toList =
      '\x7b' :: ' ' :: ((headerField x).toList ++ restOf (rest.map headerField)) := by
  rw [object, given, if_neg (List.cons_ne_nil x rest), List.map_cons, toList_braced]

theorem object_of_nil (empty : m.headers = []) : m.object = "\x7b\x7d" := if_pos empty

theorem exists_field {x : String} (member : x ∈ m.headers.map headerField) :
    ∃ field : String × HeaderContent, headerField (field.1, field.2.written) = x := by
  rw [headers, List.map_map] at member
  exact (List.mem_map.mp member).imp fun _ found => found.2

/-- The text of an object tells the headers in it. -/
theorem headers_eq_of_object {s t : List Char}
    (same : m.object.toList ++ s = other.object.toList ++ t) : m.headers = other.headers := by
  cases first : m.headers with
  | nil =>
      cases second : other.headers with
      | nil => rfl
      | cons y ys =>
          rw [object_of_nil first, toList_object_of_cons second] at same
          cases (List.cons.inj (List.cons.inj same).2).1
  | cons x xs =>
      cases second : other.headers with
      | nil =>
          rw [object_of_nil second, toList_object_of_cons first] at same
          cases (List.cons.inj (List.cons.inj same).2).1
      | cons y ys =>
          have given : m.headers ≠ [] := first ▸ List.cons_ne_nil x xs
          have given' : other.headers ≠ [] := second ▸ List.cons_ne_nil y ys
          rw [object, object, if_neg given, if_neg given'] at same
          have fields := (braced_append_inj delimited_headerField (List.map_eq_nil_iff.not.mpr given)
            (List.map_eq_nil_iff.not.mpr given') (fun _ => exists_field) (fun _ => exists_field)
            same).1
          rw [headers, headers, List.map_map, List.map_map] at fields
          rw [← first, ← second]
          exact map_eq_of_map_eq (fun _ _ => headerField_injective) fields

/-- The text of a function tells the headers that it makes. -/
theorem headers_eq_of_function_eq (same : m.function = other.function) :
    m.headers = other.headers := by
  have chars := congrArg String.toList same
  rw [toList_function, toList_function] at chars
  exact headers_eq_of_object (List.append_cancel_left (destructured_append_inj chars).2)

end HeadersMaker

/-- A text is the function that makes an object of some headers, and of no others. -/
structure MakesHeaders (text : String) (headers : List (String × String)) : Prop where
  maker : ∃ m : HeadersMaker, text = m.function
  only : ∀ m : HeadersMaker, text = m.function → m.headers = headers

/-- A function that makes the URL of a request of the parameters that it takes. -/
structure UrlMaker where
  taken : List Parameter
  /-- The path behind that of the service, with variables in it. -/
  path : List Char

namespace UrlMaker

def function (m : UrlMaker) : String :=
  destructured m.taken ++ " => `$\x7bbasePath\x7d" ++ String.ofList m.path ++ "`"

theorem toList_function (m : UrlMaker) :
    m.function.toList =
      (destructured m.taken).toList ++ (" => `$\x7bbasePath\x7d".toList ++ (m.path ++ ['\x60'])) := by
  simp only [function, String.toList_append, String.toList_ofList, List.append_assoc]
  rfl

/-- The text of a function tells the names that it takes and the path that it makes of them. -/
theorem function_inj {m other : UrlMaker} (same : m.function = other.function) :
    m.taken.map (·.name) = other.taken.map (·.name) ∧ m.path = other.path := by
  have chars := congrArg String.toList same
  rw [toList_function, toList_function] at chars
  obtain ⟨names, behind⟩ := destructured_append_inj chars
  exact ⟨names, List.append_cancel_right (List.append_cancel_left behind)⟩

end UrlMaker

end ApiCodec.Emit
