import ApiCodec.Proofs.Flatten.Follow
import ApiCodec.Proofs.Flatten.Names

set_option autoImplicit false

namespace ApiCodec

open Document

namespace Sources

/-- The external pointers that are met on the way from a node in the file `base`, each with the
keys of the targets around it. The keys around the node itself are given first. -/
inductive Meets (s : Sources) :
    List String → Option String → SchemaNode → List String → Pointer → Prop
  | here {stack : List String} {base : Option String} {path : String} {p : Pointer}
      (points : Pointer.within base path = .ok p) (external : p.isExternal) :
      Meets s stack base (.ref path) stack p
  | target {stack around : List String} {base : Option String} {path : String} {p q : Pointer}
      {node : SchemaNode} (points : Pointer.within base path = .ok p) (external : p.isExternal)
      (absent : Assoc.get? p.key s.aliases = none) (fresh : p.key ∉ stack)
      (loaded : s.load SchemaNode.read p = .ok node)
      (inner : Meets s (p.key :: stack) p.file node around q) :
      Meets s stack base (.ref path) around q
  | part {stack around : List String} {base : Option String} {schema : Schema} {q : Pointer}
      {part : Slot × SchemaNode} (member : part ∈ schema.outline.parts)
      (inner : Meets s stack base part.2 around q) :
      Meets s stack base (.inline schema) around q

/-- At a local reference no external pointer is met. -/
theorem not_meets_local {s : Sources} {stack around : List String} {base : Option String}
    {path : String} {p q : Pointer} (points : Pointer.within base path = .ok p)
    (inside : ¬ p.isExternal) : ¬ s.Meets stack base (.ref path) around q := by
  intro met
  cases met with
  | here points' external =>
      cases Except.ok.inj (points.symm.trans points')
      exact inside external
  | target points' external _ _ _ _ =>
      cases Except.ok.inj (points.symm.trans points')
      exact inside external

/-- Whether a pointer met inside the targets `around` closes a cycle. -/
def Cyclic (s : Sources) (around : List String) (p : Pointer) : Prop :=
  Assoc.get? p.key s.aliases = none ∧ p.key ∈ around

theorem follow_of_published {s : Sources} {around : List String} {p : Pointer} {name : String}
    (known : Assoc.get? p.key s.aliases = some name) :
    s.follow around p = .ok ⟨.ref name, [], []⟩ := by
  rw [follow_eq, known]
  rfl

theorem follow_of_cyclic {s : Sources} {around : List String} {p : Pointer}
    (cyclic : s.Cyclic around p) :
    s.follow around p = .ok ⟨.ref (s.publishedName p), [], [p]⟩ := by
  rw [follow_eq, cyclic.1]
  simp only [if_pos cyclic.2]
  rfl

/-- A pointer that is met is followed, and the targets promoted on the way are promoted by the
node. -/
theorem Meets.follows {s : Sources} {stack around : List String} {base : Option String}
    {node : SchemaNode} {p : Pointer} (met : s.Meets stack base node around p) :
    ∀ {t : Traced Notice Node}, normalizeNode (s.follow stack) base node = .ok t →
      ∃ u, s.follow around p = .ok u ∧ u.promoted ⊆ t.promoted := by
  induction met with
  | here points external =>
      intro t success
      obtain ⟨p', points', found⟩ := resolve_eq_ok success
      cases Except.ok.inj (points.symm.trans points')
      rcases found with ⟨_, followed⟩ | ⟨inside, _⟩ | ⟨inside, _⟩
      · exact ⟨t, followed, List.Subset.refl _⟩
      · exact absurd external inside
      · exact absurd external inside
  | target points external absent fresh loaded inner ih =>
      intro t success
      obtain ⟨p', points', found⟩ := resolve_eq_ok success
      cases Except.ok.inj (points.symm.trans points')
      rcases found with ⟨_, followed⟩ | ⟨inside, _⟩ | ⟨inside, _⟩
      · rcases followed_of_follow followed with
          ⟨name, known, _⟩ | ⟨_, inside, _⟩ | ⟨_, _, node, loaded', success⟩
        · rw [absent] at known
          cases known
        · exact absurd inside fresh
        · cases Except.ok.inj (loaded.symm.trans loaded')
          exact ih success
      · exact absurd external inside
      · exact absurd external inside
  | @part stack around base schema q part member inner ih =>
      intro t success
      obtain ⟨u, found, outlined, rfl⟩ := inline_eq_ok success
      obtain ⟨v, hv, _, normalized⟩ := exists_of_forall₂_left outlined.gathered.each member
      obtain ⟨w, followed, promoted⟩ := ih normalized
      refine ⟨w, followed, ?_⟩
      intro q hq
      rw [outlined.gathered.promoted]
      exact List.mem_flatMap.mpr ⟨v, hv, promoted hq⟩

/-- The targets that are promoted are those that are met inside themselves. -/
theorem mem_promoted_iff {s : Sources} {stack : List String} {base : Option String}
    {node : SchemaNode} {t : Traced Notice Node}
    (success : normalizeNode (s.follow stack) base node = .ok t) (p : Pointer) :
    p ∈ t.promoted ↔ ∃ around, s.Meets stack base node around p ∧ s.Cyclic around p := by
  constructor
  · revert p
    refine normalizeNode_induction (motive := fun stack base node t => ∀ p, p ∈ t.promoted →
      ∃ around, s.Meets stack base node around p ∧ s.Cyclic around p) ?_ stack base node t success
    exact
      { published := fun _ _ _ p member => by cases member
        cyclic := fun {stack _ _ p} points external absent inside q member => by
          cases List.mem_singleton.mp member
          exact ⟨stack, .here points external, absent, inside⟩
        placed := fun points external absent fresh loaded _ ih q member => by
          obtain ⟨around, met, cyclic⟩ := ih q member
          exact ⟨around, .target points external absent fresh loaded met, cyclic⟩
        named := fun _ _ _ p member => by cases member
        untyped := fun _ _ _ p member => by cases member
        inline := fun {_ _ schema t found} outlined ih q member => by
          rw [outlined.gathered.promoted] at member
          obtain ⟨u, hu, member⟩ := List.mem_flatMap.mp member
          obtain ⟨part, paired⟩ := exists_mem_zip_right outlined.gathered.each hu
          obtain ⟨around, met, cyclic⟩ := ih part u paired q member
          exact ⟨around, .part (List.of_mem_zip paired).1 met, cyclic⟩ }
  · rintro ⟨around, met, cyclic⟩
    obtain ⟨u, followed, promoted⟩ := met.follows success
    rw [follow_of_cyclic cyclic] at followed
    cases Except.ok.inj followed
    exact promoted (by simp)

/-- The pointers that are met lead into files. -/
theorem Meets.anchored {s : Sources} {stack around : List String} {base : Option String}
    {node : SchemaNode} {p : Pointer} (met : s.Meets stack base node around p)
    (plain : FileName base) : p.Anchored ∧ p.isExternal := by
  induction met with
  | here points external => exact ⟨Pointer.anchored_of_within plain points, external⟩
  | target points _ _ _ _ _ ih => exact ih (Pointer.anchored_of_within plain points).file
  | part _ _ ih => exact ih plain

theorem anchored_of_promoted {s : Sources} {stack : List String} {base : Option String}
    {node : SchemaNode} {t : Traced Notice Node}
    (success : normalizeNode (s.follow stack) base node = .ok t) (plain : FileName base)
    {p : Pointer} (member : p ∈ t.promoted) : p.Anchored ∧ p.isExternal := by
  obtain ⟨around, met, _⟩ := (mem_promoted_iff success p).mp member
  exact met.anchored plain

/-- The targets around a pointer that is met are those around the node, or they were found in a
fragment. -/
theorem Meets.mem_around {s : Sources} {stack around : List String} {base : Option String}
    {node : SchemaNode} {p : Pointer} (met : s.Meets stack base node around p) {key : String}
    (member : key ∈ around) : key ∈ stack ∨ key ∈ s.fragments.keys := by
  induction met with
  | here _ _ => exact Or.inl member
  | target _ _ _ _ loaded _ ih =>
      rcases ih member with member | known
      · rcases List.mem_cons.mp member with rfl | member
        · exact Or.inr (key_mem_of_load loaded)
        · exact Or.inl member
      · exact Or.inr known
  | part _ _ ih => exact ih member

end Sources

/-- The references that stand in a node. -/
inductive Document.SchemaNode.Mentions : SchemaNode → String → Prop
  | here {path : String} : Mentions (.ref path) path
  | part {schema : Schema} {part : Slot × SchemaNode} {path : String}
      (member : part ∈ schema.outline.parts) (inner : Mentions part.2 path) :
      Mentions (.inline schema) path

/-- The names of definitions that local pointers of a node in the file `base` use. -/
def Document.SchemaNode.NamesLocal (node : SchemaNode) (base : Option String) (name : String) :
    Prop :=
  ∃ path p, node.Mentions path ∧ Pointer.within base path = .ok p ∧ ¬ p.isExternal ∧
    p.kind = .definition ∧ p.name = name

def Notice.isAboutSchema : Notice → Bool
  | .untypedPointer _ => true
  | .moreItemSchemas _ => true
  | .allOfIgnored => true
  | _ => false

namespace Sources

/-- Following a pointer gives a name. -/
def Returns (s : Sources) (around : List String) (p : Pointer) (name : String) : Prop :=
  ∃ u, s.follow around p = .ok u ∧ u.value = .ref name

theorem Cyclic.returns {s : Sources} {around : List String} {p : Pointer}
    (cyclic : s.Cyclic around p) : s.Returns around p (s.publishedName p) :=
  ⟨_, follow_of_cyclic cyclic, rfl⟩

/-- A node found in another file becomes a name only if it is that of an alias or of a target that
was promoted. -/
theorem name_of_normalizeNode {s : Sources} {stack : List String} {base : Option String}
    {node : SchemaNode} {t : Traced Notice Node}
    (success : normalizeNode (s.follow stack) base node = .ok t) {file name : String}
    (away : base = some file) (named : t.value = .ref name) :
    (∃ key, Assoc.get? key s.aliases = some name) ∨
      ∃ p ∈ t.promoted, name = s.publishedName p := by
  revert file name
  refine normalizeNode_induction (motive := fun _ base _ t => ∀ {file name : String},
    base = some file → t.value = .ref name →
      (∃ key, Assoc.get? key s.aliases = some name) ∨
        ∃ p ∈ t.promoted, name = s.publishedName p) ?_ stack base node t success
  exact
    { published := fun {_ _ _ p _} _ _ known file name _ named => by
        cases named
        exact Or.inl ⟨p.key, known⟩
      cyclic := fun {_ _ _ p} _ _ _ _ file name _ named => by
        cases named
        exact Or.inr ⟨p, by simp, rfl⟩
      placed := fun _ external _ _ _ _ ih file name _ named => by
        obtain ⟨inner, known⟩ := Pointer.exists_file external
        exact ih known named
      named := fun {_ _ path p} points inside _ file name away _ => by
        subst away
        exact absurd (Pointer.isExternal_of_within points) inside
      untyped := fun {_ _ path p} _ _ _ file name _ named => by cases named
      inline := fun _ _ file name _ named => by cases named }

/-- A name that following a pointer gives is that of an alias or of a target that was promoted. -/
theorem name_of_follow {s : Sources} {around : List String} {p : Pointer} {u : Traced Notice Node}
    {name : String} (external : p.isExternal) (followed : s.follow around p = .ok u)
    (named : u.value = .ref name) :
    (∃ key, Assoc.get? key s.aliases = some name) ∨
      ∃ q ∈ u.promoted, name = s.publishedName q := by
  rcases followed_of_follow followed with ⟨_, known, rfl⟩ | ⟨_, _, rfl⟩ | ⟨_, _, node, _, success⟩
  · cases named
    exact Or.inl ⟨p.key, known⟩
  · cases named
    exact Or.inr ⟨p, by simp, rfl⟩
  · obtain ⟨file, known⟩ := Pointer.exists_file external
    exact name_of_normalizeNode success known named

/-- Every name in the form of a node was given by an external pointer that was met, or it is that of
a local pointer. -/
theorem name_of_occurrences {s : Sources} {stack : List String} {base : Option String}
    {node : SchemaNode} {t : Traced Notice Node}
    (success : normalizeNode (s.follow stack) base node = .ok t) {name : String}
    (member : name ∈ t.value.occurrences) :
    (∃ around p, s.Meets stack base node around p ∧ s.Returns around p name) ∨
      node.NamesLocal base name := by
  revert name
  refine normalizeNode_induction (motive := fun stack base node t => ∀ {name : String},
    name ∈ t.value.occurrences →
      (∃ around p, s.Meets stack base node around p ∧ s.Returns around p name) ∨
        node.NamesLocal base name) ?_ stack base node t success
  exact
    { published := fun {stack _ _ p given} points external known name member => by
        cases List.mem_singleton.mp member
        exact Or.inl ⟨stack, p, .here points external, _, follow_of_published known, rfl⟩
      cyclic := fun {stack _ _ p} points external absent inside name member => by
        cases List.mem_singleton.mp member
        exact Or.inl ⟨stack, p, .here points external, Cyclic.returns ⟨absent, inside⟩⟩
      placed := fun {stack _ _ p node t} points external absent fresh loaded _ ih name member => by
        rcases ih member with ⟨around, q, met, returned⟩ | ⟨path, q, _, points', inside, _⟩
        · exact Or.inl ⟨around, q, .target points external absent fresh loaded met, returned⟩
        · obtain ⟨file, known⟩ := Pointer.exists_file external
          rw [known] at points'
          exact absurd (Pointer.isExternal_of_within points') inside
      named := fun {_ _ path p} points inside definition name member => by
        cases List.mem_singleton.mp member
        exact Or.inr ⟨path, p, .here, points, inside, definition, rfl⟩
      untyped := fun {_ _ path p} _ _ _ name member => by cases member
      inline := fun {_ _ schema t found} outlined ih name member => by
        simp only [Node.occurrences] at member
        rw [Definition.occurrences_eq, outlined.parts, List.flatMap_map] at member
        obtain ⟨u, hu, member⟩ := List.mem_flatMap.mp member
        obtain ⟨part, paired⟩ := exists_mem_zip_right outlined.gathered.each hu
        have hpart := (List.of_mem_zip paired).1
        rcases ih part u paired member with ⟨around, p, met, returned⟩ | ⟨path, p, mentioned, rest⟩
        · exact Or.inl ⟨around, p, .part hpart met, returned⟩
        · exact Or.inr ⟨path, p, .part hpart mentioned, rest⟩ }

/-- All that is reported on the way from a node to its form is about schemas. -/
theorem isAboutSchema_of_mem_notes {s : Sources} {stack : List String} {base : Option String}
    {node : SchemaNode} {t : Traced Notice Node}
    (success : normalizeNode (s.follow stack) base node = .ok t) :
    ∀ n ∈ t.notes, n.isAboutSchema := by
  refine normalizeNode_induction (motive := fun _ _ _ t => ∀ n ∈ t.notes, n.isAboutSchema) ?_
    stack base node t success
  exact
    { published := fun _ _ _ n member => by cases member
      cyclic := fun _ _ _ _ n member => by cases member
      placed := fun _ _ _ _ _ _ ih => ih
      named := fun _ _ _ n member => by cases member
      untyped := fun _ _ _ => List.forall_mem_singleton.mpr rfl
      inline := fun {_ _ schema t found} outlined ih n member => by
        rcases outlined.gathered.notes n member with ⟨_, rfl⟩ | rfl | ⟨u, hu, below⟩
        · rfl
        · rfl
        · obtain ⟨part, paired⟩ := exists_mem_zip_right outlined.gathered.each hu
          exact ih part u paired n below }

/-- Bringing a node to its form never reports an unknown definition. -/
theorem unknownDefinition_notMem_notes {s : Sources} {stack : List String} {base : Option String}
    {node : SchemaNode} {t : Traced Notice Node}
    (success : normalizeNode (s.follow stack) base node = .ok t) (name : String) :
    Notice.unknownDefinition name ∉ t.notes := by
  intro member
  cases isAboutSchema_of_mem_notes success _ member

end Sources

end ApiCodec
