import ApiCodec.Build.Model
import ApiCodec.Proofs.Dialect.Outcome
import ApiCodec.Proofs.Dialect.Pointers

set_option autoImplicit false

namespace ApiCodec

open Document

/-- A moved reference comes to the same. -/
theorem resolve_toComponents (follow : Pointer → Transform Notice Node) (path : String) :
    (resolve follow none (toComponents path)).outcome = (resolve follow none path).outcome := by
  have parsed := Pointer.parse_toComponents path
  unfold resolve
  generalize Pointer.parse path = before at parsed
  generalize Pointer.parse (toComponents path) = after at parsed
  cases parsed with
  | error e e' => rfl
  | @ok p p' moved =>
      have moved := moved.relativeTo
      simp only [moved.isExternal, moved.kind, moved.name]
      split
      · rename_i external
        rw [moved.away external]
      · split
        · rfl
        · rfl

theorem mapNodePaths_isEmpty (f : String → String) (nodes : List SchemaNode) :
    (mapNodePaths f nodes).isEmpty = nodes.isEmpty := by
  cases nodes <;> rfl

theorem outcome_composed {kind : CompositionKind} {notes : List Notice}
    {members members' : Transform Notice (List Node)} (same : members'.outcome = members.outcome) :
    (composed kind notes members').outcome = (composed kind notes members).outcome := by
  unfold composed
  simp only [Transform.outcome_bind, Transform.outcome_tell, same]

section

variable (follow : Pointer → Transform Notice Node)

mutual

theorem outcome_normalizeNode (node : SchemaNode) :
    (normalizeNode follow none (node.mapPaths toComponents)).outcome =
      (normalizeNode follow none node).outcome := by
  match node with
  | .ref path =>
      simp only [SchemaNode.mapPaths, normalizeNode]
      exact resolve_toComponents follow path
  | .inline schema =>
      simp only [SchemaNode.mapPaths, normalizeNode, Transform.outcome_bind,
        outcome_normalizeSchema schema]

theorem outcome_normalizeSchema (schema : Schema) :
    (normalizeSchema follow none (schema.mapPaths toComponents)).outcome =
      (normalizeSchema follow none schema).outcome := by
  match schema with
  | { types, format, title, description, default, nullable, properties, required, additional,
      items, allOf, oneOf, anyOf, discriminator, values, limits, example?, disjoint,
      extensibleValues, importFrom } =>
      simp only [Schema.mapPaths, normalizeSchema, mapNodePaths_isEmpty, Transform.outcome_bind,
        outcome_normalizeProperties properties, outcome_normalizeItems items,
        outcome_normalizeAdditional additional]
      -- The rest is done under each way in which members combine.
      congr 1
      funext found
      congr 1
      funext node
      congr 1
      funext more
      split
      · rw [Transform.outcome_bind, outcome_composed (outcome_normalizeNodes oneOf),
          ← Transform.outcome_bind]
      · split
        · rw [Transform.outcome_bind, outcome_composed (outcome_normalizeNodes anyOf),
            ← Transform.outcome_bind]
        · split
          · rw [Transform.outcome_bind, outcome_composed (outcome_normalizeNodes allOf),
              ← Transform.outcome_bind]
          · rfl

theorem outcome_normalizeProperties (properties : List (String × SchemaNode)) :
    (normalizeProperties follow none (mapPropertyPaths toComponents properties)).outcome =
      (normalizeProperties follow none properties).outcome := by
  match properties with
  | [] => rfl
  | (name, node) :: rest =>
      simp only [mapPropertyPaths, normalizeProperties, Transform.outcome_bind,
        outcome_normalizeNode node, outcome_normalizeProperties rest]

theorem outcome_normalizeItems (items : Option ItemsSchema) :
    (normalizeItems follow none (mapItemPaths toComponents items)).outcome =
      (normalizeItems follow none items).outcome := by
  match items with
  | none => rfl
  | some (.one node) =>
      simp only [mapItemPaths, normalizeItems, Transform.outcome_bind, outcome_normalizeNode node]
  | some (.list []) => rfl
  | some (.list (node :: rest)) =>
      simp only [mapItemPaths, mapNodePaths, normalizeItems, mapNodePaths_isEmpty]
      split
      · simp only [Transform.outcome_bind, Transform.outcome_note, outcome_normalizeNode node]
      · simp only [Transform.outcome_bind, Transform.outcome_pure, outcome_normalizeNode node]

theorem outcome_normalizeAdditional (additional : Option AdditionalSchema) :
    (normalizeAdditional follow none (mapAdditionalPaths toComponents additional)).outcome =
      (normalizeAdditional follow none additional).outcome := by
  match additional with
  | none => rfl
  | some (.flag allowed) => rfl
  | some (.node values) =>
      simp only [mapAdditionalPaths, normalizeAdditional, Transform.outcome_bind,
        outcome_normalizeNode values]

theorem outcome_normalizeNodes (nodes : List SchemaNode) :
    (normalizeNodes follow none (mapNodePaths toComponents nodes)).outcome =
      (normalizeNodes follow none nodes).outcome := by
  match nodes with
  | [] => rfl
  | node :: rest =>
      simp only [mapNodePaths, normalizeNodes, Transform.outcome_bind, outcome_normalizeNode node,
        outcome_normalizeNodes rest]

end

end

theorem addAlias_translated (aliases : List (String × String)) (name : String) (node : SchemaNode) :
    addAlias aliases (name, node.translated) = addAlias aliases (name, node) := by
  cases node with
  | inline schema => rfl
  | ref path =>
      have parsed := Pointer.parse_toComponents path
      simp only [addAlias, SchemaNode.translated, SchemaNode.mapPaths, SchemaNode.path?,
        Option.map_some]
      generalize Pointer.parse path = before at parsed
      generalize Pointer.parse (toComponents path) = after at parsed
      cases parsed with
      | error e e' => rfl
      | @ok p p' moved =>
          simp only [moved.isExternal]
          cases external : p.isExternal with
          | true => rw [moved.away external]
          | false => rfl

theorem publishedAliases_translated (definitions : List (String × SchemaNode)) :
    publishedAliases (definitions.map fun (name, node) => (name, node.translated)) =
      publishedAliases definitions := by
  unfold publishedAliases
  rw [List.foldl_map]
  congr 1
  funext aliases entry
  exact addAlias_translated aliases entry.1 entry.2

theorem outcome_normalizeTopLevel (s : Sources) (node : SchemaNode) :
    (s.normalizeTopLevel node.translated).outcome = (s.normalizeTopLevel node).outcome := by
  cases node with
  | ref path =>
      simp only [SchemaNode.translated, SchemaNode.mapPaths, Sources.normalizeTopLevel,
        Transform.outcome_map, resolve_toComponents]
  | inline schema => exact outcome_normalizeSchema (s.follow []) schema

theorem outcome_topLevel (s : Sources) (definitions : List (String × SchemaNode)) :
    (Workspace.topLevel s (definitions.map fun (name, node) => (name, node.translated))).outcome =
      (Workspace.topLevel s definitions).outcome := by
  induction definitions with
  | nil => rfl
  | cons entry rest ih =>
      obtain ⟨name, node⟩ := entry
      simp only [List.map_cons, Workspace.topLevel, Transform.outcome_bind, Transform.outcome_about,
        outcome_normalizeTopLevel, ih]

end ApiCodec
