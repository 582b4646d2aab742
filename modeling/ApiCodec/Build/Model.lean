import ApiCodec.Build.Operations

set_option autoImplicit false

/-!
The model of a whole document. Targets that were promoted on the way are published one after the
other; publishing one may promote others, but no key is published twice, and every published key
leads to a node of a fragment, so the queue runs empty.
-/

namespace ApiCodec

open Document

/-- Adds the external target that a name at the top is a bare pointer to, unless it has a name. -/
def addAlias (aliases : List (String × String)) (entry : String × SchemaNode) :
    List (String × String) :=
  match entry.2.path?.map Pointer.parse with
  | some (.ok pointer) =>
      let key := (pointer.relativeTo none).key
      if pointer.isExternal && !Assoc.has key aliases then aliases ++ [(key, entry.1)] else aliases
  | _ => aliases

/-- The external targets for which a name at the top of the document is a bare pointer, with that
name. -/
def publishedAliases (definitions : List (String × SchemaNode)) : List (String × String) :=
  definitions.foldl addAlias []

/-- A target of another file that was published: where it stands, its name and what it stands for. -/
structure Publication where
  target : Pointer
  name : String
  definition : Definition

namespace Sources

/-- What external pointers of a document are followed into. -/
def ofCatalog (catalog : Catalog) (fragments : Fragments) : Sources :=
  { fragments
    aliases := publishedAliases catalog.definitions
    declared := Assoc.keys catalog.definitions }

theorem key_mem_of_materialize {s : Sources} {p : Pointer} {d : Traced Notice Definition}
    (h : s.materialize p = .ok d) : p.key ∈ s.fragments.keys := by
  simp only [materialize] at h
  split at h
  · cases h
  · next node hload => exact key_mem_of_load hload

def publish (s : Sources) (p : Pointer) : Sources :=
  { s with aliases := s.aliases ++ [(p.key, s.publishedName p)] }

/-- How many pointers lead to nodes that are not published. -/
def unpublished (s : Sources) : Nat :=
  s.fragments.keys.countP fun key => !(Assoc.keys s.aliases).contains key

theorem unpublished_publish_lt {s : Sources} {p : Pointer} (hkey : p.key ∈ s.fragments.keys)
    (hnew : ¬ Assoc.has p.key s.aliases) : (s.publish p).unpublished < s.unpublished := by
  have hseen : p.key ∉ Assoc.keys s.aliases := by
    simpa [Assoc.has, Assoc.keys] using hnew
  have hlt := NameSet.countP_lt_countP hkey hseen
  have hcount : (s.publish p).unpublished =
      s.fragments.keys.countP fun key => !(p.key :: Assoc.keys s.aliases).contains key := by
    simp only [unpublished, publish, Assoc.keys, List.map_append, List.map_cons, List.map_nil]
    congr 1
    funext key
    have hmem : key ∈ s.aliases.map Prod.fst ++ [p.key] ↔ key ∈ p.key :: s.aliases.map Prod.fst := by
      rw [List.mem_append, List.mem_singleton, List.mem_cons]
      exact or_comm
    simp only [List.contains_eq_mem, hmem]
  rw [hcount]
  exact hlt

/-- Whether a target has a name already. -/
def isPublished (s : Sources) (p : Pointer) : Bool := Assoc.has p.key s.aliases

theorem not_isPublished_head {s : Sources} {queue rest : List Pointer} {p : Pointer}
    (h : queue.dropWhile s.isPublished = p :: rest) : ¬ Assoc.has p.key s.aliases := by
  have hhead := List.head?_dropWhile_not s.isPublished queue
  rw [h] at hhead
  simpa [isPublished] using hhead

/-- Publishes the targets of a queue and those that are promoted on the way, each once. -/
def publishAll (s : Sources) (queue : List Pointer) : Transform Diagnostic (List Publication) :=
  match _ : queue.dropWhile s.isPublished with
  | [] => return []
  | p :: rest =>
      match _ : (s.publish p).materialize p with
      | .error e => .fail e
      | .ok found => do
          Transform.tell (found.notes.map (Diagnostic.mk (s.publishedName p)))
          return ⟨p, s.publishedName p, found.value⟩ ::
            (← (s.publish p).publishAll (rest ++ found.promoted))
termination_by s.unpublished
decreasing_by
  exact unpublished_publish_lt (key_mem_of_materialize (s := s.publish p) (by assumption))
    (not_isPublished_head (by assumption))

end Sources

namespace Workspace

/-- A document with the files that it refers to. -/
def ofDocument (document : Document) (fragments : Fragments) : Workspace :=
  let catalog := Catalog.ofDocument document
  { catalog, sources := .ofCatalog catalog fragments }

def topLevel (s : Sources) : List (String × SchemaNode) → Transform Diagnostic Definitions
  | [] => return []
  | (name, node) :: rest => do
      let definition ← (s.normalizeTopLevel node).about name
      return (name, definition) :: (← topLevel s rest)

def allOperations (w : Workspace) : List (String × PathItem) → Transform Diagnostic (List Operation)
  | [] => return []
  | (path, item) :: rest => do
      let first ← w.operations path item
      return first ++ (← w.allOperations rest)

/-- What the document declares itself. -/
def parts (w : Workspace) : Transform Diagnostic (Definitions × List Operation) := do
  let definitions ← topLevel w.sources w.catalog.definitions
  let operations ← w.allOperations w.catalog.paths
  return (definitions, operations)

end Workspace

def Operation.title (op : Operation) : String := Text.upper op.method.name ++ " " ++ op.path

/-- Reports each operation whose id an earlier one has. `seen` are the first operations of each id. -/
def duplicateIds (seen : List (String × Operation)) : List Operation → List Diagnostic
  | [] => []
  | op :: rest =>
      match Assoc.get? op.id seen with
      | some first => ⟨op.title, .duplicateId op.id first.title⟩ :: duplicateIds seen rest
      | none => duplicateIds (seen ++ [(op.id, op)]) rest

def unknownNames (definitions : Definitions) (subject : String) (names : List String) :
    List Diagnostic :=
  (names.filter fun name => !Assoc.has name definitions).map fun name =>
    ⟨subject, .unknownDefinition name⟩

/-- Reports each name in definitions and operations that is no definition. -/
def danglingNames (definitions : Definitions) (operations : List Operation) : List Diagnostic :=
  definitions.flatMap (fun (name, definition) => unknownNames definitions name definition.names) ++
    operations.flatMap fun op => unknownNames definitions op.id op.importedTypes

/-- All that a document comes to. -/
structure Assembly where
  /-- The definitions at the top of the document. -/
  declared : Definitions
  operations : List Operation
  /-- The targets of other files that were published, in order. -/
  published : List Publication
  notes : List Diagnostic

namespace Assembly

/-- The declared definitions, then the published ones. A published target takes the place of what
has its name. -/
def definitions (a : Assembly) : Definitions :=
  a.published.foldl (fun table p => Assoc.insert p.name p.definition table) a.declared

def diagnostics (a : Assembly) : List Diagnostic :=
  a.notes ++ duplicateIds [] a.operations ++ danglingNames a.definitions a.operations

end Assembly

/-- Builds all that a document declares, then publishes what has to be. -/
def Workspace.assemble (w : Workspace) : Except TransformError Assembly :=
  match w.parts with
  | .error e => .error e
  | .ok parts =>
      match w.sources.publishAll parts.promoted with
      | .error e => .error e
      | .ok published =>
          .ok
            { declared := parts.value.1
              operations := parts.value.2
              published := published.value
              notes := parts.notes ++ published.notes }

namespace Model

def ofAssembly (info : SpecInfo) (a : Assembly) : Model :=
  { info
    definitions := a.definitions
    operations := a.operations
    diagnostics := a.diagnostics }

def ofDocument (document : Document) (fragments : Fragments) : Except TransformError Model :=
  let workspace := Workspace.ofDocument document fragments
  workspace.assemble.map (ofAssembly workspace.catalog.info)

/-- The model of a document that is yet to be read, with the files that it refers to. -/
def ofJson (root : Json) (fragments : Fragments) : Except TransformError Model :=
  match Document.ofJson root with
  | .error cause => .error (.parse cause)
  | .ok document => ofDocument document fragments

end Model

end ApiCodec
