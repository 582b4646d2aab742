import ApiCodec.Yaml.Token

set_option autoImplicit false

/-!
The node that a YAML document holds. `Node.read?` takes a text with at most one document. Aliases
stand for the nodes that they name, as long as the result nests at most 128 deep and an alias is
followed at most a hundred times for each event of the document.
-/

namespace ApiCodec.Yaml

inductive Node
  | scalar (text : String) (style : ScalarStyle) (tag : Option String)
  | sequence (tag : Option String) (items : List Node)
  | mapping (tag : Option String) (entries : List (Node × Node))
  /-- The node with an anchor of a number. -/
  | linked (anchor : Nat)
  deriving Repr

/-- A node with nothing written for it. -/
def Node.blank (tag : Option String) : Node := .scalar "" .plain tag

/-- The state of putting tokens together. -/
structure Composer where
  tokens : List Token
  /-- The starts that tag handles stand for. -/
  handles : List (List Char × List Char)
  /-- The numbers of the anchors seen so far. -/
  anchors : List (List Char × Nat) := []
  /-- The nodes with anchors, the latest first. -/
  targets : List (Nat × Node) := []
  /-- How many events were seen so far. -/
  events : Nat := 0

abbrev Compose := StateT Composer Option

namespace Compose

def peek : Compose (Option Token) := do return (← get).tokens.head?

def skip : Compose Unit := modify fun c => { c with tokens := c.tokens.tail }

def event (count : Nat) : Compose Unit := modify fun c => { c with events := c.events + count }

def nextIsOneOf (tokens : List Token) : Compose Bool := do
  match ← peek with
  | some token => return tokens.contains token
  | none => return false

/-- Takes a given token if it is next. -/
def accept (token : Token) : Compose Bool := do
  if (← peek) == some token then
    skip
    return true
  return false

/-- Gives an anchor its number; a name seen before is given a new one. -/
def register (name : List Char) : Compose Nat := do
  let c ← get
  let number := c.anchors.length
  set
    { c with
      anchors :=
        if c.anchors.any (·.1 == name) then
          c.anchors.map fun (n, k) => if n = name then (n, number) else (n, k)
        else c.anchors ++ [(name, number)] }
  return number

/-- The handles that stand for themselves unless a directive declares them. -/
def defaultHandles : List (List Char × List Char) :=
  [(['!'], ['!']), (['!', '!'], "tag:yaml.org,2002:".toList)]

/-- The full text of a tag. -/
def resolveTag (handle suffix : List Char) : Compose String := do
  if handle.isEmpty then return String.ofList suffix
  match ((← get).handles ++ defaultHandles).lookup handle with
  | some start => return String.ofList (start ++ suffix)
  | none => failure

/-- Anchor and tag before a node, in any order. -/
def properties : Compose (Option (List Char) × Option String) := do
  let tag? : Compose (Option String) := do
    match ← peek with
    | some (.tag handle suffix) =>
        skip
        return some (← resolveTag handle suffix)
    | _ => return none
  let anchor? : Compose (Option (List Char)) := do
    match ← peek with
    | some (.anchor name) =>
        skip
        return some name
    | _ => return none
  match ← anchor? with
  | some name => return (some name, ← tag?)
  | none =>
      let tag ← tag?
      if tag.isSome then return (← anchor?, tag) else return (none, none)

/-- Keeps the node of an anchor. -/
def remember (number : Option Nat) (node : Node) : Compose Node := do
  match number with
  | some number => modify fun c => { c with targets := (number, node) :: c.targets }
  | none => pure ()
  return node

/-- The sort of collection whose parts are being read. -/
inductive Place
  | node (block indentless : Bool)
  | blockSequence
  | indentlessSequence
  | blockMapping
  | flowSequence (first : Bool)
  | flowMapping (first : Bool)

/-- What was read at a place: a node, items or entries. -/
inductive Parts
  | node (node : Node)
  | items (items : List Node)
  | entries (entries : List (Node × Node))

def Parts.node? : Parts → Option Node
  | .node root => some root
  | _ => none

def Parts.items? : Parts → Option (List Node)
  | .items list => some list
  | _ => none

def Parts.entries? : Parts → Option (List (Node × Node))
  | .entries list => some list
  | _ => none

/-- Reads what stands at a place. The budget bounds how often one place is entered from another;
every second time takes a token. -/
def parts : Nat → Place → Compose Parts
  | 0, _ => failure
  | budget + 1, place => do
      let nodeAt (block indentless : Bool) : Compose Node := do
        (← parts budget (.node block indentless)).node?
      let blank : Compose Node := do
        event 1
        return .blank none
      -- the node after an indicator, unless one of the given tokens follows
      let nodeUnless (stops : List Token) (block indentless : Bool) : Compose Node := do
        if (← peek).isNone || (← nextIsOneOf stops) then blank else nodeAt block indentless
      let valueUnless (stops : List Token) (block : Bool) : Compose Node := do
        if ← accept .value then nodeUnless stops block block else blank
      match place with
      | .node block indentless =>
          match ← peek with
          | some (.starred name) =>
              skip
              event 1
              match (← get).anchors.lookup name with
              | some number => return .node (.linked number)
              | none => failure
          | _ =>
              let (name, tag) ← properties
              let number ← name.mapM register
              let collection (at_ : Place) : Compose Parts := do
                event 2
                parts budget at_
              let sequence (at_ : Place) : Compose Parts := do
                let items ← (← collection at_).items?
                return .node (← remember number (.sequence tag items))
              let mapping (at_ : Place) : Compose Parts := do
                let entries ← (← collection at_).entries?
                return .node (← remember number (.mapping tag entries))
              match ← peek with
              | some (.scalar text style) =>
                  skip
                  event 1
                  let tag := if tag = some "!" then none else tag
                  return .node (← remember number (.scalar (String.ofList text) style tag))
              | some .blockEntry =>
                  if indentless then sequence .indentlessSequence
                  else if name.isSome || tag.isSome then
                    event 1
                    return .node (← remember number (.blank tag))
                  else failure
              | some .flowSequenceStart =>
                  skip
                  sequence (.flowSequence true)
              | some .flowMappingStart =>
                  skip
                  mapping (.flowMapping true)
              | next =>
                  if block && next = some .blockSequenceStart then
                    skip
                    sequence .blockSequence
                  else if block && next = some .blockMappingStart then
                    skip
                    mapping .blockMapping
                  else if name.isSome || tag.isSome then
                    event 1
                    return .node (← remember number (.blank tag))
                  else failure
      | .blockSequence =>
          if ← accept .blockEntry then
            let item ← nodeUnless [.blockEntry, .blockEnd] true false
            return .items (item :: (← (← parts budget .blockSequence).items?))
          else if ← accept .blockEnd then return .items []
          else failure
      | .indentlessSequence =>
          if ← accept .blockEntry then
            let item ← nodeUnless [.blockEntry, .key, .value, .blockEnd] true false
            return .items (item :: (← (← parts budget .indentlessSequence).items?))
          else return .items []
      | .blockMapping =>
          if ← accept .blockEnd then return .entries []
          else
            let stops := [Token.key, .value, .blockEnd]
            let key ←
              if ← accept .key then nodeUnless stops true true
              else if ← nextIsOneOf [.value] then blank
              else failure
            let value ← valueUnless stops true
            return .entries ((key, value) :: (← (← parts budget .blockMapping).entries?))
      | .flowSequence first =>
          if ← accept .flowSequenceEnd then return .items []
          if !first then
            if !(← accept .flowEntry) then failure
          if ← accept .flowSequenceEnd then return .items []
          let item ←
            if ← accept .key then
              event 2
              let key ← nodeUnless [.value, .flowEntry, .flowSequenceEnd] false false
              let value ← valueUnless [.flowEntry, .flowSequenceEnd] false
              pure (Node.mapping none [(key, value)])
            else nodeAt false false
          return .items (item :: (← (← parts budget (.flowSequence false)).items?))
      | .flowMapping first =>
          if ← accept .flowMappingEnd then return .entries []
          if !first then
            if !(← accept .flowEntry) then failure
          if ← accept .flowMappingEnd then return .entries []
          let entry ←
            if ← accept .key then
              let key ← nodeUnless [.value, .flowEntry, .flowMappingEnd] false false
              let value ← valueUnless [.flowEntry, .flowMappingEnd] false
              pure (key, value)
            else
              let key ← nodeAt false false
              pure (key, ← blank)
          return .entries (entry :: (← (← parts budget (.flowMapping false)).entries?))

/-- The directives before a document. At most one names a version, 1.1 or 1.2; no two declare the
same tag handle. -/
def directives : Nat → Bool → Compose Bool
  | 0, seen => return seen
  | budget + 1, seen => do
      match ← peek with
      | some (.versionDirective major minor) =>
          if seen || major ≠ 1 || (minor ≠ 1 && minor ≠ 2) then failure
          skip
          directives budget true
      | some (.tagDirective handle start) =>
          let c ← get
          if c.handles.any (·.1 == handle) then failure
          set { c with tokens := c.tokens.tail, handles := (handle, start) :: c.handles }
          directives budget seen
      | _ => return seen

def skipDocumentEnds : Nat → Compose Unit
  | 0 => return ()
  | budget + 1 => do
      if ← accept .documentEnd then skipDocumentEnds budget

def document : Compose (Option Node) := do
  let budget := 2 * (← get).tokens.length + 4
  let isDirective : Token → Bool
    | .versionDirective _ _ => true
    | .tagDirective _ _ => true
    | _ => false
  match ← peek with
  | none => return none
  | some token =>
      let root ←
        if isDirective token || token = .documentStart then
          let _ ← directives budget false
          if !(← accept .documentStart) then failure
          match ← peek with
          | none => pure (Node.blank none)
          | some next =>
              if isDirective next || next = .documentStart || next = .documentEnd then
                pure (Node.blank none)
              else (← parts budget (.node true false)).node?
        else
          (← parts budget (.node true false)).node?
      skipDocumentEnds budget
      if (← peek).isSome then failure
      return some root

end Compose

/-- How deep collections may nest once aliases are replaced. -/
def depthLimit : Nat := 128

/-- The state of replacing aliases: how many may still be replaced. -/
abbrev Expand := StateT Nat Option

mutual

/-- A node with its aliases replaced; `depth` more levels of collections may open. The budget
bounds how often a node is entered. -/
def Node.expand (targets : List (Nat × Node)) : Nat → Nat → Node → Expand Node
  | 0, _, _ => failure
  | _ + 1, _, .scalar text style tag => return .scalar text style tag
  | _ + 1, 0, .sequence _ _ => failure
  | budget + 1, depth + 1, .sequence tag items => do
      return .sequence tag (← expandItems targets budget depth items)
  | _ + 1, 0, .mapping _ _ => failure
  | budget + 1, depth + 1, .mapping tag entries => do
      return .mapping tag (← expandEntries targets budget depth entries)
  | budget + 1, depth, .linked number => do
      let left ← get
      if left = 0 then failure
      set (left - 1)
      match targets.lookup number with
      | some node => node.expand targets budget depth
      | none => failure

def expandItems (targets : List (Nat × Node)) : Nat → Nat → List Node → Expand (List Node)
  | _, _, [] => return []
  | 0, _, _ => failure
  | budget + 1, depth, item :: rest => do
      let item ← item.expand targets budget depth
      return item :: (← expandItems targets (budget + 1) depth rest)

def expandEntries (targets : List (Nat × Node)) :
    Nat → Nat → List (Node × Node) → Expand (List (Node × Node))
  | _, _, [] => return []
  | 0, _, _ => failure
  | budget + 1, depth, (key, value) :: rest => do
      let key ← key.expand targets budget depth
      let value ← value.expand targets budget depth
      return (key, value) :: (← expandEntries targets (budget + 1) depth rest)

end

/-- The node of the only document of a text, a blank one if there is no document; `none` if the
text is not YAML. The flag tells whether there is a document. -/
def Node.read? (text : String) : Option (Option Node) := do
  let tokens ← tokenize text.toList
  let (root, c) ← Compose.document.run { tokens, handles := [] }
  match root with
  | none => some none
  | some node =>
      let (expanded, _) ← (node.expand c.targets (4 * depthLimit) depthLimit).run (100 * c.events)
      some (some expanded)

end ApiCodec.Yaml
