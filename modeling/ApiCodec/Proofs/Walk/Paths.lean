import ApiCodec.Build.Definitions

set_option autoImplicit false

namespace ApiCodec

open Document

namespace Document

mutual

/-- The references of a node that are followed, in order. -/
def SchemaNode.paths : SchemaNode → List String
  | .ref path => [path]
  | .inline schema => schema.paths

/-- The references of a schema that are followed, in order. Of several compositions one counts. -/
def Schema.paths : Schema → List String
  | { properties, items, additional, oneOf, anyOf, allOf, .. } =>
      propertyPaths properties ++ itemPaths items ++ additionalPaths additional ++
        (if !oneOf.isEmpty then nodePaths oneOf
        else if !anyOf.isEmpty then nodePaths anyOf
        else nodePaths allOf)

def propertyPaths : List (String × SchemaNode) → List String
  | [] => []
  | (_, node) :: rest => node.paths ++ propertyPaths rest

def itemPaths : Option ItemsSchema → List String
  | none => []
  | some (.one node) => node.paths
  | some (.list []) => []
  | some (.list (node :: _)) => node.paths

def additionalPaths : Option AdditionalSchema → List String
  | none => []
  | some (.flag _) => []
  | some (.node values) => values.paths

def nodePaths : List SchemaNode → List String
  | [] => []
  | node :: rest => node.paths ++ nodePaths rest

end

end Document

/-- The targets promoted by steps one after the other, or why one of them fails. -/
abbrev Trail := Except TransformError (List Pointer)

namespace Trail

def append (first second : Trail) : Trail := do return (← first) ++ (← second)

@[simp] theorem error_append (e : TransformError) (second : Trail) :
    append (.error e) second = .error e := rfl

@[simp] theorem ok_append_error (promoted : List Pointer) (e : TransformError) :
    append (.ok promoted) (.error e) = .error e := rfl

@[simp] theorem ok_append_ok (promoted more : List Pointer) :
    append (.ok promoted) (.ok more) = .ok (promoted ++ more) := rfl

@[simp] theorem nil_append (trail : Trail) : append (.ok []) trail = trail := by
  cases trail <;> rfl

@[simp] theorem append_nil (trail : Trail) : append trail (.ok []) = trail := by
  cases trail <;> simp

/-- Why a trail after another fails: one of them does. -/
theorem append_eq_error {first second : Trail} {e : TransformError}
    (failed : append first second = .error e) : first = .error e ∨ second = .error e := by
  cases first with
  | error e' => exact Or.inl failed
  | ok promoted =>
      cases second with
      | error e' => exact Or.inr failed
      | ok more => cases failed

theorem append_assoc (first second third : Trail) :
    append (append first second) third = append first (append second third) := by
  cases first with
  | error e => rfl
  | ok promoted =>
      cases second with
      | error e => rfl
      | ok more => cases third <;> simp

end Trail

namespace Transform

variable {ν α β : Type}

/-- The targets that a step promotes, or why it fails. -/
def trail (t : Transform ν α) : Trail :=
  match t with
  | .error e => .error e
  | .ok a => .ok a.promoted

theorem eq_error_of_trail {t : Transform ν α} {e : TransformError} (failed : t.trail = .error e) :
    t = .error e := by
  cases t with
  | error e' => exact congrArg Except.error (Except.error.inj failed)
  | ok a => cases failed

/-- Where the targets of a second step do not depend on the first, both are walked in order. -/
theorem trail_bind (t : Transform ν α) {next : α → Transform ν β} (rest : Trail)
    (same : ∀ a, (next a).trail = rest) : (t >>= next).trail = t.trail.append rest := by
  rw [bind_eq]
  cases t with
  | error e => rfl
  | ok a =>
      rw [← same a.value]
      simp only [andThen]
      cases next a.value <;> rfl

@[simp] theorem trail_pure (a : α) : (pure a : Transform ν α).trail = .ok [] := rfl

theorem trail_bind_pure (t : Transform ν α) (f : α → β) :
    (t >>= fun a => pure (f a)).trail = t.trail := by
  rw [trail_bind t _ fun a => trail_pure (f a), Trail.append_nil]

@[simp] theorem trail_map (f : α → β) (t : Transform ν α) : (f <$> t).trail = t.trail := by
  rw [map_eq_pure_bind, trail_bind_pure]

end Transform

/-- Follows references that stand in the file `base`, one after the other. -/
def trailOf (follow : Pointer → Transform Notice Node) (base : Option String) : List String → Trail
  | [] => .ok []
  | path :: rest => (resolve follow base path).trail.append (trailOf follow base rest)

theorem trailOf_append (follow : Pointer → Transform Notice Node) (base : Option String)
    (first second : List String) :
    trailOf follow base (first ++ second) =
      (trailOf follow base first).append (trailOf follow base second) := by
  induction first with
  | nil => simp [trailOf]
  | cons path rest ih => simp only [List.cons_append, trailOf, ih, Trail.append_assoc]

/-- A step that walks along references fails where it comes to one that does. -/
theorem exists_resolve_eq_error {ν α : Type} {t : Transform ν α}
    {follow : Pointer → Transform Notice Node} {base : Option String} {paths : List String}
    (walks : t.trail = trailOf follow base paths) {e : TransformError} (failed : t = .error e) :
    ∃ path ∈ paths, resolve follow base path = .error e := by
  rw [failed, Transform.trail] at walks
  induction paths with
  | nil => cases walks
  | cons path rest ih =>
      rcases Trail.append_eq_error walks.symm with first | later
      · exact ⟨path, List.mem_cons_self, Transform.eq_error_of_trail first⟩
      · obtain ⟨other, member, failed⟩ := ih later.symm
        exact ⟨other, List.mem_cons_of_mem _ member, failed⟩

/-- A step that walks along references comes to the end if all of them can be followed. -/
theorem exists_resolve_eq_ok {ν α : Type} {t : Transform ν α}
    {follow : Pointer → Transform Notice Node} {base : Option String} {paths : List String}
    (walks : t.trail = trailOf follow base paths) {a : Traced ν α} (success : t = .ok a)
    {path : String} (member : path ∈ paths) : ∃ b, resolve follow base path = .ok b := by
  obtain ⟨before, after, rfl⟩ := List.append_of_mem member
  rw [success, trailOf_append, trailOf] at walks
  cases first : resolve follow base path with
  | error e =>
      rw [first] at walks
      cases around : trailOf follow base before <;> rw [around] at walks <;> cases walks
  | ok b => exact ⟨b, rfl⟩

theorem trail_composed (kind : CompositionKind) (notes : List Notice)
    (members : Transform Notice (List Node)) : (composed kind notes members).trail = members.trail := by
  refine (Transform.trail_bind _ members.trail fun _ => ?_).trans (Trail.nil_append _)
  exact Transform.trail_bind_pure members _

section

variable (follow : Pointer → Transform Notice Node) (base : Option String)

mutual

/-- What a node promotes is what its references do. -/
theorem trail_normalizeNode (node : SchemaNode) :
    (normalizeNode follow base node).trail = trailOf follow base node.paths := by
  match node with
  | .ref path => simp only [normalizeNode, SchemaNode.paths, trailOf, Trail.append_nil]
  | .inline schema =>
      simp only [normalizeNode, SchemaNode.paths]
      rw [Transform.trail_bind_pure, trail_normalizeSchema schema]

theorem trail_normalizeSchema (schema : Schema) :
    (normalizeSchema follow base schema).trail = trailOf follow base schema.paths := by
  match schema with
  | { types, format, title, description, default, nullable, properties, required, additional,
      items, allOf, oneOf, anyOf, discriminator, values, limits, example?, disjoint,
      extensibleValues, importFrom } =>
      simp only [normalizeSchema, Schema.paths]
      rw [trailOf_append, trailOf_append, trailOf_append, Trail.append_assoc, Trail.append_assoc,
        ← trail_normalizeProperties properties, ← trail_normalizeItems items,
        ← trail_normalizeAdditional additional]
      refine Transform.trail_bind _ _ fun _ => ?_
      refine Transform.trail_bind _ _ fun _ => ?_
      refine Transform.trail_bind _ _ fun _ => ?_
      by_cases one : (!oneOf.isEmpty) = true
      · rw [if_pos one, if_pos one, Transform.trail_bind_pure, trail_composed,
          trail_normalizeNodes oneOf]
      · rw [if_neg one, if_neg one]
        by_cases any : (!anyOf.isEmpty) = true
        · rw [if_pos any, if_pos any, Transform.trail_bind_pure, trail_composed,
            trail_normalizeNodes anyOf]
        · rw [if_neg any, if_neg any]
          by_cases all : (!allOf.isEmpty) = true
          · rw [if_pos all, Transform.trail_bind_pure, trail_composed, trail_normalizeNodes allOf]
          · have none : allOf = [] := by simpa using all
            subst none
            rfl

theorem trail_normalizeProperties (properties : List (String × SchemaNode)) :
    (normalizeProperties follow base properties).trail =
      trailOf follow base (propertyPaths properties) := by
  match properties with
  | [] => rfl
  | (name, node) :: rest =>
      rw [propertyPaths, trailOf_append, ← trail_normalizeNode node,
        ← trail_normalizeProperties rest]
      refine Transform.trail_bind _ _ fun _ => ?_
      rw [Transform.trail_bind_pure]

theorem trail_normalizeItems (items : Option ItemsSchema) :
    (normalizeItems follow base items).trail = trailOf follow base (itemPaths items) := by
  match items with
  | none => rfl
  | some (.one node) =>
      rw [itemPaths, ← trail_normalizeNode node, normalizeItems, Transform.trail_bind_pure]
  | some (.list []) => rfl
  | some (.list (node :: rest)) =>
      rw [itemPaths, ← trail_normalizeNode node, normalizeItems]
      split
      · refine (Transform.trail_bind _ (normalizeNode follow base node).trail fun _ => ?_).trans
          (Trail.nil_append _)
        rw [Transform.trail_bind_pure]
      · rw [Transform.trail_bind_pure]

theorem trail_normalizeAdditional (additional : Option AdditionalSchema) :
    (normalizeAdditional follow base additional).trail =
      trailOf follow base (additionalPaths additional) := by
  match additional with
  | none => rfl
  | some (.flag _) => rfl
  | some (.node values) =>
      rw [additionalPaths, ← trail_normalizeNode values, normalizeAdditional,
        Transform.trail_bind_pure]

theorem trail_normalizeNodes (nodes : List SchemaNode) :
    (normalizeNodes follow base nodes).trail = trailOf follow base (nodePaths nodes) := by
  match nodes with
  | [] => rfl
  | node :: rest =>
      rw [nodePaths, trailOf_append, ← trail_normalizeNode node, ← trail_normalizeNodes rest]
      refine Transform.trail_bind _ _ fun _ => ?_
      rw [Transform.trail_bind_pure]

end

end

/-- A schema without references always has its one form. -/
theorem exists_normalizeSchema_of_plain {schema : Schema} (plain : schema.paths = [])
    (follow : Pointer → Transform Notice Node) (base : Option String) :
    ∃ t, normalizeSchema follow base schema = .ok t := by
  have trail := trail_normalizeSchema follow base schema
  rw [plain, trailOf] at trail
  cases found : normalizeSchema follow base schema with
  | error e =>
      rw [found] at trail
      cases trail
  | ok t => exact ⟨t, rfl⟩

end ApiCodec
