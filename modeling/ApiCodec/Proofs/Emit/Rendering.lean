import ApiCodec.Emit.DefinitionModule

set_option autoImplicit false

namespace ApiCodec.Emit

mutual

/-- The text of a part. Without a list there is nothing to repeat. -/
def Piece.written (scope : Scope) : Piece → String
  | .text text => text
  | .value place => valueText (place.find? scope)
  | .comment place => commentText (valueText (place.find? scope))
  | .each name items body =>
      String.join (((itemsOf (items.find? scope)).getD []).map fun item =>
        writtenAll ((name, item) :: scope) body)
  | .choose test yes no => if test.eval scope then writtenAll scope yes else writtenAll scope no

/-- The text of parts, one after the other. -/
def writtenAll (scope : Scope) : List Piece → String
  | [] => ""
  | piece :: rest => piece.written scope ++ writtenAll scope rest

end

mutual

/-- Whether a part finds a list wherever it repeats. -/
def Piece.Listed (scope : Scope) : Piece → Prop
  | .text _ => True
  | .value _ => True
  | .comment _ => True
  | .each name items body =>
      ∃ found, itemsOf (items.find? scope) = some found ∧
        ∀ item ∈ found, AllListed ((name, item) :: scope) body
  | .choose test yes no => if test.eval scope then AllListed scope yes else AllListed scope no

/-- Whether parts find lists wherever they repeat. -/
def AllListed (scope : Scope) : List Piece → Prop
  | [] => True
  | piece :: rest => piece.Listed scope ∧ AllListed scope rest

end

theorem concatAll_eq_join {render : Json → Option String} {text : Json → String}
    {items : List Json} (each : ∀ item ∈ items, render item = some (text item)) :
    concatAll render items = some (String.join (items.map text)) := by
  induction items with
  | nil => rfl
  | cons item rest ih =>
      have first := each item List.mem_cons_self
      have others := ih fun other member => each other (List.mem_cons_of_mem _ member)
      simp [concatAll, first, others, String.join_cons]

mutual

theorem Piece.render_of_listed :
    ∀ (scope : Scope) (piece : Piece), piece.Listed scope →
      piece.render scope = some (piece.written scope)
  | _, .text _, _ => rfl
  | _, .value _, _ => rfl
  | _, .comment _, _ => rfl
  | scope, .each name items body, ⟨found, known, each⟩ => by
      simp only [Piece.render, Piece.written, known, Option.getD_some]
      exact concatAll_eq_join fun item member =>
        renderAll_of_listed ((name, item) :: scope) body (each item member)
  | scope, .choose test yes no, listed => by
      unfold Piece.Listed at listed
      unfold Piece.render Piece.written
      by_cases holds : test.eval scope
      · simp only [holds, if_true] at listed ⊢
        exact renderAll_of_listed scope yes listed
      · simp only [holds] at listed ⊢
        exact renderAll_of_listed scope no listed

/-- A template that finds lists where it repeats is rendered, and as what it is written. -/
theorem renderAll_of_listed :
    ∀ (scope : Scope) (pieces : List Piece), AllListed scope pieces →
      renderAll scope pieces = some (writtenAll scope pieces)
  | _, [], _ => rfl
  | scope, piece :: rest, ⟨first, others⟩ => by
      have first := Piece.render_of_listed scope piece first
      have others := renderAll_of_listed scope rest others
      simp [renderAll, first, others, writtenAll]

end

@[simp] theorem writtenAll_nil (scope : Scope) : writtenAll scope [] = "" := rfl

@[simp] theorem writtenAll_cons (scope : Scope) (piece : Piece) (rest : List Piece) :
    writtenAll scope (piece :: rest) = piece.written scope ++ writtenAll scope rest := rfl

theorem writtenAll_append (scope : Scope) (pieces others : List Piece) :
    writtenAll scope (pieces ++ others) = writtenAll scope pieces ++ writtenAll scope others := by
  induction pieces with
  | nil => simp
  | cons piece rest ih => simp only [List.cons_append, writtenAll_cons, ih, String.append_assoc]

@[simp] theorem allListed_nil (scope : Scope) : AllListed scope [] := trivial

@[simp] theorem allListed_cons {scope : Scope} {piece : Piece} {rest : List Piece} :
    AllListed scope (piece :: rest) ↔ piece.Listed scope ∧ AllListed scope rest := Iff.rfl

theorem allListed_append {scope : Scope} {pieces others : List Piece} :
    AllListed scope (pieces ++ others) ↔ AllListed scope pieces ∧ AllListed scope others := by
  induction pieces with
  | nil => simp
  | cons piece rest ih => simp only [List.cons_append, allListed_cons, ih, and_assoc]

@[simp] theorem written_text (scope : Scope) (text : String) :
    (Piece.text text).written scope = text := rfl

@[simp] theorem listed_text (scope : Scope) (text : String) : (Piece.text text).Listed scope :=
  trivial

@[simp] theorem find?_at1 (scope : Scope) (name : String) :
    (at1 name).find? scope = Assoc.get? name scope := rfl

@[simp] theorem find?_at2 (scope : Scope) (name field : String) :
    (at2 name field).find? scope = fieldOf (Assoc.get? name scope) field := rfl

@[simp] theorem find?_at3 (scope : Scope) (name field inner : String) :
    (at3 name field inner).find? scope =
      fieldOf (fieldOf (Assoc.get? name scope) field) inner := rfl

/-- The fields of a value, as a template sees them. -/
def scopeOf : Json → Scope
  | .obj fields => fields
  | _ => []

/-- A template whose parts find lists where they repeat is rendered. -/
theorem render_of_listed {name : String} {value : Json} {pieces : List Piece}
    (known : Assoc.get? name templates = some pieces) (listed : AllListed (scopeOf value) pieces) :
    render name value = .ok (writtenAll (scopeOf value) pieces) := by
  have rendered := renderAll_of_listed (scopeOf value) pieces listed
  have text : renderTemplate name value = some (writtenAll (scopeOf value) pieces) := by
    unfold renderTemplate
    rw [known, ← rendered]
    cases value <;> rfl
  unfold render
  rw [text]

end ApiCodec.Emit
