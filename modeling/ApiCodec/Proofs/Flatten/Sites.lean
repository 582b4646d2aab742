import ApiCodec.Build.Model
import ApiCodec.Proofs.Flatten.Meets

set_option autoImplicit false

namespace ApiCodec

open Document

/-- A schema that an operation uses, with the file in which it stands. -/
structure Site where
  base : Option String
  node : SchemaNode

def TypeRef.occurrences : TypeRef → List String
  | .named name => [name]
  | .inline definition => definition.occurrences
  | .file => []
  | .binary => []

theorem TypeRef.addNames_eq (names : List String) (type : TypeRef) :
    type.addNames names = type.occurrences.foldl addName names := by
  cases type with
  | named name => rfl
  | inline definition => exact Definition.addNames_eq names definition
  | file => rfl
  | binary => rfl

/-- Notes without a word on unknown definitions. -/
def Quiet (notes : List Notice) : Prop := ∀ name, Notice.unknownDefinition name ∉ notes

theorem Quiet.nil : Quiet [] := by
  intro name member
  cases member

theorem Quiet.append {notes others : List Notice} (front : Quiet notes) (back : Quiet others) :
    Quiet (notes ++ others) := by
  intro name member
  rcases List.mem_append.mp member with member | member
  · exact front name member
  · exact back name member

theorem Quiet.single {n : Notice} (other : ∀ name, n ≠ .unknownDefinition name) : Quiet [n] := by
  intro name member
  exact other name (List.mem_singleton.mp member).symm

/-- Diagnostics without a word on unknown definitions. -/
def QuietDiagnostics (notes : List Diagnostic) : Prop :=
  ∀ subject name, (⟨subject, .unknownDefinition name⟩ : Diagnostic) ∉ notes

theorem QuietDiagnostics.nil : QuietDiagnostics [] := by
  intro subject name member
  cases member

theorem QuietDiagnostics.append {notes others : List Diagnostic} (front : QuietDiagnostics notes)
    (back : QuietDiagnostics others) : QuietDiagnostics (notes ++ others) := by
  intro subject name member
  rcases List.mem_append.mp member with member | member
  · exact front subject name member
  · exact back subject name member

theorem Quiet.about {notes : List Notice} (quiet : Quiet notes) (subject : String) :
    QuietDiagnostics (notes.map (Diagnostic.mk subject)) := by
  intro other name member
  obtain ⟨notice, noted, same⟩ := List.mem_map.mp member
  cases same
  exact quiet name noted

namespace Workspace

section

variable (w : Workspace)

def parameterSites (subject : String) (nodes : List ParameterNode) : List Site :=
  nodes.flatMap fun node =>
    match w.resolveParameter subject node with
    | .ok ⟨some (declared, base), _, _⟩ => declared.effectiveSchema?.toList.map (Site.mk base)
    | _ => []

/-- The schema of a request body of its own. -/
def bodySites (op : Document.Operation) : List Site :=
  match w.catalog.requestBody op with
  | .ok (some body) =>
      match body.content with
      | [] => []
      | (contentType, media) :: _ =>
          if "multipart/".toList.isPrefixOf contentType.toList then []
          else media.schema.toList.map (Site.mk none)
  | _ => []

/-- The schemas of responses that are bare references. -/
def responseSites (responses : List (String × ResponseNode)) : List Site :=
  responses.flatMap fun (_, node) =>
    match w.catalog.response node with
    | .error _ => []
    | .ok declared =>
        match w.catalog.responseSchema? declared with
        | some (_, .ref path) => [⟨none, .ref path⟩]
        | _ => []

def operationSites (id : String) (op : Document.Operation) : List Site :=
  w.parameterSites id op.parameters ++ (w.bodySites op ++ w.responseSites op.responses)

def entrySites (key : String) (op : Document.Operation) : List Site :=
  match HttpMethod.ofName? key, op.operationId with
  | some _, some id => w.operationSites id op
  | _, _ => []

def pathSites (path : String) (item : PathItem) : List Site :=
  w.parameterSites path item.parameters ++
    match item.operations with
    | .error _ => []
    | .ok declared => declared.flatMap fun (key, op) => w.entrySites key op

/-- The schemas that the operations of the document use, in order. -/
def sites : List Site := w.catalog.paths.flatMap fun (path, item) => w.pathSites path item

end

/-- Bringing some schemas to their forms promotes these targets and finds these names. -/
def Uses (w : Workspace) (sites : List Site) (promoted : List Pointer) (names : List String) :
    Prop :=
  ∃ found : List (Traced Notice Node),
    List.Forall₂ (fun site t => w.sources.normalize site.base site.node = .ok t) sites found ∧
      promoted = found.flatMap (·.promoted) ∧
      ∀ name ∈ names, ∃ t ∈ found, name ∈ t.value.occurrences

namespace Uses

variable {w : Workspace} {sites others : List Site} {promoted more : List Pointer}
  {names extra : List String}

theorem nil : w.Uses [] [] [] := ⟨[], .nil, rfl, by simp⟩

theorem single {base : Option String} {node : SchemaNode} {t : Traced Notice Node}
    (success : w.sources.normalize base node = .ok t) :
    w.Uses [⟨base, node⟩] t.promoted t.value.occurrences :=
  ⟨[t], .cons success .nil, by simp, fun _ member => ⟨t, by simp, member⟩⟩

theorem mono (uses : w.Uses sites promoted names) (fewer : extra ⊆ names) :
    w.Uses sites promoted extra := by
  obtain ⟨found, each, all, covered⟩ := uses
  exact ⟨found, each, all, fun name member => covered name (fewer member)⟩

theorem append (front : w.Uses sites promoted names) (back : w.Uses others more extra) :
    w.Uses (sites ++ others) (promoted ++ more) (names ++ extra) := by
  obtain ⟨found, each, all, covered⟩ := front
  obtain ⟨found', each', all', covered'⟩ := back
  refine ⟨found ++ found', List.rel_append each each', by rw [all, all', List.flatMap_append], ?_⟩
  intro name member
  rcases List.mem_append.mp member with member | member
  · obtain ⟨t, ht, occurs⟩ := covered name member
    exact ⟨t, List.mem_append_left _ ht, occurs⟩
  · obtain ⟨t, ht, occurs⟩ := covered' name member
    exact ⟨t, List.mem_append_right _ ht, occurs⟩

end Uses

/-- Looking up a parameter reports nothing. -/
theorem eq_of_parameterTarget {w : Workspace} {p : Pointer}
    {t : Traced Notice (Option ParameterNode)} (success : w.parameterTarget p = .ok t) :
    t = ⟨t.value, [], []⟩ := by
  unfold parameterTarget at success
  split at success
  · split at success
    · cases Transform.value_eq_ok_iff.mp success
      rfl
    · cases Transform.value_eq_ok_iff.mp success
      rfl
    · exact absurd success Transform.fail_ne_ok
  · cases Transform.value_eq_ok_iff.mp success
    rfl

theorem parameterTarget_quiet {w : Workspace} {p : Pointer} {t : Traced Notice (Option ParameterNode)}
    (success : w.parameterTarget p = .ok t) : t.promoted = [] ∧ Quiet t.notes := by
  rw [eq_of_parameterTarget success]
  exact ⟨rfl, Quiet.nil⟩

/-- A note and nothing else. -/
theorem eq_of_noted {α : Type} {n : Notice} {a : α} {t : Traced Notice α}
    (success : (do Transform.note n; return a : Transform Notice α) = .ok t) :
    t = ⟨a, [n], []⟩ := by
  simp only [Transform.bind_eq_ok_iff, Transform.note_eq_ok_iff, Transform.pure_eq_ok_iff] at success
  obtain ⟨_, _, rfl, rfl, rfl⟩ := success
  rfl

theorem followParameter_quiet {w : Workspace} {subject : String} {steps : Nat}
    {base : Option String} {path : String}
    {t : Traced Notice (Option (Document.Parameter × Option String))}
    (success : w.followParameter subject steps base path = .ok t) :
    t.promoted = [] ∧ Quiet t.notes := by
  induction steps generalizing base path t with
  | zero =>
      unfold followParameter at success
      cases eq_of_noted success
      exact ⟨rfl, Quiet.single (by simp)⟩
  | succ steps ih =>
      unfold followParameter at success
      split at success
      · cases eq_of_noted success
        exact ⟨rfl, Quiet.single (by simp)⟩
      · rename_i parsed _
        simp only at success
        split at success
        · rw [Transform.bind_eq_ok_iff] at success
          obtain ⟨a, b, target, next, rfl⟩ := success
          obtain ⟨silent, quiet⟩ := parameterTarget_quiet target
          have rest : b.promoted = [] ∧ Quiet b.notes := by
            split at next
            · cases Transform.pure_eq_ok_iff.mp next
              exact ⟨rfl, Quiet.nil⟩
            · exact ih next
            · cases eq_of_noted next
              exact ⟨rfl, Quiet.single (by simp)⟩
          exact ⟨by rw [silent, rest.1]; rfl, quiet.append rest.2⟩
        · exact absurd success Transform.fail_ne_ok
        · cases eq_of_noted success
          exact ⟨rfl, Quiet.single (by simp)⟩

theorem resolveParameter_quiet {w : Workspace} {subject : String} {node : ParameterNode}
    {t : Traced Notice (Option (Document.Parameter × Option String))}
    (success : w.resolveParameter subject node = .ok t) : t.promoted = [] ∧ Quiet t.notes := by
  cases node with
  | inline parameter =>
      cases Transform.value_eq_ok_iff.mp success
      exact ⟨rfl, Quiet.nil⟩
  | ref path => exact followParameter_quiet success

/-- A parameter is found in the document or in a file with a plain name. -/
theorem fileName_of_followParameter {w : Workspace} {subject : String} {steps : Nat}
    {base : Option String} {path : String} {declared : Document.Parameter} {file : Option String}
    {notes : List Notice} {promoted : List Pointer} (plain : FileName base)
    (success : w.followParameter subject steps base path =
      .ok ⟨some (declared, file), notes, promoted⟩) : FileName file := by
  induction steps generalizing base path notes promoted with
  | zero =>
      unfold followParameter at success
      cases eq_of_noted success
  | succ steps ih =>
      unfold followParameter at success
      split at success
      · cases eq_of_noted success
      · rename_i parsed pointed
        have anchored := (Pointer.anchored_of_parse pointed).relativeTo plain
        simp only at success
        split at success
        · rw [Transform.bind_eq_ok_iff] at success
          obtain ⟨a, b, target, next, same⟩ := success
          obtain ⟨value, bNotes, bPromoted⟩ := b
          obtain ⟨rfl, _, _⟩ := Traced.mk.inj same
          split at next
          · cases Transform.pure_eq_ok_iff.mp next
            exact anchored.file
          · exact ih anchored.file next
          · cases eq_of_noted next
        · exact absurd success Transform.fail_ne_ok
        · cases eq_of_noted success

theorem fileName_of_parameterSites {w : Workspace} {subject : String} {nodes : List ParameterNode}
    {site : Site} (member : site ∈ w.parameterSites subject nodes) : FileName site.base := by
  obtain ⟨node, _, member⟩ := List.mem_flatMap.mp member
  split at member
  · rename_i declared base notes promoted resolved
    obtain ⟨schema, _, rfl⟩ := List.mem_map.mp member
    cases node with
    | inline parameter =>
        cases Transform.value_eq_ok_iff.mp resolved
        exact fileName_none
    | ref path => exact fileName_of_followParameter fileName_none resolved
  · cases member

/-- Every schema that an operation uses stands in the document or in a file with a plain name. -/
theorem fileName_of_sites {w : Workspace} {site : Site} (member : site ∈ w.sites) :
    FileName site.base := by
  have bodies : ∀ op, site ∈ w.bodySites op → FileName site.base := by
    intro op member
    unfold bodySites at member
    split at member
    · split at member
      · cases member
      · split at member
        · cases member
        · obtain ⟨schema, _, rfl⟩ := List.mem_map.mp member
          exact fileName_none
    · cases member
  have answers : ∀ responses, site ∈ w.responseSites responses → FileName site.base := by
    intro responses member
    obtain ⟨⟨status, node⟩, _, member⟩ := List.mem_flatMap.mp member
    simp only at member
    split at member
    · cases member
    · split at member
      · cases List.mem_singleton.mp member
        exact fileName_none
      · cases member
  obtain ⟨⟨path, item⟩, _, member⟩ := List.mem_flatMap.mp member
  rcases List.mem_append.mp member with member | member
  · exact fileName_of_parameterSites member
  · split at member
    · cases member
    · obtain ⟨⟨key, op⟩, _, member⟩ := List.mem_flatMap.mp member
      simp only [entrySites] at member
      split at member
      · rcases List.mem_append.mp member with member | member
        · exact fileName_of_parameterSites member
        · rcases List.mem_append.mp member with member | member
          · exact bodies op member
          · exact answers _ member
      · cases member

theorem normalize_quiet {w : Workspace} {base : Option String} {node : SchemaNode}
    {t : Traced Notice Node} (success : w.sources.normalize base node = .ok t) : Quiet t.notes :=
  fun name => Sources.unknownDefinition_notMem_notes success name

theorem typeRef_uses {w : Workspace} {base : Option String} {node : SchemaNode}
    {t : Traced Notice TypeRef} (success : w.typeRef base node = .ok t) :
    w.Uses [⟨base, node⟩] t.promoted t.value.occurrences ∧ Quiet t.notes := by
  unfold typeRef at success
  rw [Transform.bind_eq_ok_iff] at success
  obtain ⟨a, b, normalized, next, rfl⟩ := success
  have uses := Uses.single normalized
  have quiet := normalize_quiet normalized
  have rest : b.promoted = [] ∧ b.notes = [] ∧ b.value.occurrences ⊆ a.value.occurrences := by
    split at next
    · rename_i name named
      cases Transform.pure_eq_ok_iff.mp next
      rw [named]
      exact ⟨rfl, rfl, List.Subset.refl _⟩
    · rename_i definition placed
      split at next
      · cases Transform.pure_eq_ok_iff.mp next
        exact ⟨rfl, rfl, List.nil_subset _⟩
      · cases Transform.pure_eq_ok_iff.mp next
        rw [placed]
        exact ⟨rfl, rfl, List.Subset.refl _⟩
  obtain ⟨promoted, notes, names⟩ := rest
  rw [promoted, notes, List.append_nil, List.append_nil]
  exact ⟨uses.mono names, quiet⟩

theorem typedParameter_uses {w : Workspace} {declared : Document.Parameter} {base : Option String}
    {t : Traced Notice Parameter} (success : w.typedParameter declared base = .ok t) :
    w.Uses (declared.effectiveSchema?.toList.map (Site.mk base)) t.promoted
        t.value.type.occurrences ∧
      Quiet t.notes := by
  unfold typedParameter at success
  simp only at success
  split at success
  · rename_i node known
    simp only [Transform.bind_eq_ok_iff, Transform.pure_eq_ok_iff] at success
    obtain ⟨a, _, typed, rfl, rfl⟩ := success
    rw [known]
    simpa using typeRef_uses typed
  · rename_i absent
    simp only [Transform.bind_eq_ok_iff, Transform.note_eq_ok_iff, Transform.pure_eq_ok_iff]
      at success
    obtain ⟨_, _, rfl, ⟨_, _, rfl, rfl, rfl⟩, rfl⟩ := success
    rw [absent]
    exact ⟨Uses.nil, Quiet.single (by simp)⟩

theorem parameters_uses {w : Workspace} {subject : String} {nodes : List ParameterNode}
    {t : Traced Notice (List Parameter)} (success : w.parameters subject nodes = .ok t) :
    w.Uses (w.parameterSites subject nodes) t.promoted (t.value.flatMap (·.type.occurrences)) ∧
      Quiet t.notes := by
  induction nodes generalizing t with
  | nil =>
      cases Transform.pure_eq_ok_iff.mp success
      exact ⟨Uses.nil, Quiet.nil⟩
  | cons node rest ih =>
      unfold parameters at success
      rw [Transform.bind_eq_ok_iff] at success
      obtain ⟨a, b, resolved, next, rfl⟩ := success
      obtain ⟨silent, quiet⟩ := resolveParameter_quiet resolved
      have head : w.parameterSites subject (node :: rest) =
          (match a.value with
            | some (declared, base) => declared.effectiveSchema?.toList.map (Site.mk base)
            | none => []) ++ w.parameterSites subject rest := by
        unfold parameterSites
        rw [List.flatMap_cons, resolved]
        obtain ⟨_ | ⟨declared, base⟩, notes, promoted⟩ := a <;> rfl
      rw [head, silent, List.nil_append]
      split at next
      · rename_i gone
        obtain ⟨uses, others⟩ := ih next
        rw [gone]
        exact ⟨uses, quiet.append others⟩
      · rename_i declared base known
        simp only [Transform.bind_eq_ok_iff, Transform.pure_eq_ok_iff] at next
        obtain ⟨c, _, typed, ⟨d, _, others, rfl, rfl⟩, rfl⟩ := next
        obtain ⟨first, firstQuiet⟩ := typedParameter_uses typed
        obtain ⟨uses, restQuiet⟩ := ih others
        rw [known]
        refine ⟨?_, quiet.append (firstQuiet.append (restQuiet.append Quiet.nil))⟩
        simpa using first.append uses

theorem requestBody_uses {w : Workspace} {op : Document.Operation} {t : Traced Notice (List Parameter)}
    (success : w.requestBody op = .ok t) :
    w.Uses (w.bodySites op) t.promoted (t.value.flatMap (·.type.occurrences)) ∧ Quiet t.notes := by
  unfold requestBody at success
  unfold bodySites
  split at success
  · rename_i cause failed
    cases eq_of_noted success
    rw [failed]
    exact ⟨Uses.nil, Quiet.single (by simp)⟩
  · rename_i absent
    cases Transform.pure_eq_ok_iff.mp success
    rw [absent]
    exact ⟨Uses.nil, Quiet.nil⟩
  · rename_i body known
    rw [known]
    split at success
    · rename_i empty
      cases Transform.pure_eq_ok_iff.mp success
      simp only [empty]
      exact ⟨Uses.nil, Quiet.nil⟩
    · rename_i contentType media rest first
      simp only [first]
      split at success
      · rename_i form
        cases Transform.pure_eq_ok_iff.mp success
        rw [if_pos form]
        exact ⟨Uses.nil, Quiet.nil⟩
      · rename_i plain
        rw [if_neg plain]
        split at success
        · rename_i node declared
          simp only [Transform.bind_eq_ok_iff, Transform.pure_eq_ok_iff] at success
          obtain ⟨a, _, typed, rfl, rfl⟩ := success
          obtain ⟨uses, quiet⟩ := typeRef_uses typed
          rw [declared]
          simpa [bodyParameter] using And.intro uses quiet
        · rename_i undeclared
          cases eq_of_noted success
          rw [undeclared]
          exact ⟨Uses.nil, Quiet.single (by simp)⟩

theorem defaultType_name? (status : String) : (defaultType status).name? = none := by
  unfold defaultType
  split <;> rfl

theorem responseType_uses {w : Workspace} {status : String} {response : Document.Response}
    {t : Traced Notice ResponseType} (success : w.responseType status response = .ok t) :
    w.Uses
        (match w.catalog.responseSchema? response with
          | some (_, .ref path) => [⟨none, .ref path⟩]
          | _ => [])
        t.promoted t.value.name?.toList ∧
      Quiet t.notes := by
  unfold responseType at success
  split at success
  · rename_i contentType path known
    rw [Transform.bind_eq_ok_iff] at success
    obtain ⟨a, b, normalized, next, rfl⟩ := success
    have rest : b.promoted = [] ∧ b.notes = [] ∧ b.value.name?.toList ⊆ a.value.occurrences := by
      split at next
      · rename_i name named
        cases Transform.pure_eq_ok_iff.mp next
        rw [named]
        exact ⟨rfl, rfl, List.Subset.refl _⟩
      · cases Transform.pure_eq_ok_iff.mp next
        rw [defaultType_name?]
        exact ⟨rfl, rfl, List.nil_subset _⟩
    obtain ⟨promoted, notes, names⟩ := rest
    simp only [known]
    rw [promoted, notes, List.append_nil, List.append_nil]
    exact ⟨(Uses.single normalized).mono names, normalize_quiet normalized⟩
  · rename_i contentType schema known
    simp only [known]
    split at success
    · cases Transform.pure_eq_ok_iff.mp success
      exact ⟨Uses.nil, Quiet.nil⟩
    · cases Transform.pure_eq_ok_iff.mp success
      rw [defaultType_name?]
      exact ⟨Uses.nil, Quiet.nil⟩
  · rename_i absent
    cases Transform.pure_eq_ok_iff.mp success
    simp only [absent, defaultType_name?]
    exact ⟨Uses.nil, Quiet.nil⟩

theorem responses_uses {w : Workspace} {responses : List (String × ResponseNode)}
    {t : Traced Notice (List Response)} (success : w.responses responses = .ok t) :
    w.Uses (w.responseSites responses) t.promoted (t.value.filterMap (·.type.name?)) ∧
      Quiet t.notes := by
  induction responses generalizing t with
  | nil =>
      cases Transform.pure_eq_ok_iff.mp success
      exact ⟨Uses.nil, Quiet.nil⟩
  | cons entry rest ih =>
      obtain ⟨status, node⟩ := entry
      unfold responses at success
      unfold responseSites
      rw [List.flatMap_cons]
      split at success
      · rename_i cause failed
        simp only [Transform.bind_eq_ok_iff, Transform.note_eq_ok_iff] at success
        obtain ⟨_, b, rfl, others, rfl⟩ := success
        obtain ⟨uses, quiet⟩ := ih others
        simp only [failed]
        exact ⟨uses, (Quiet.single (by simp)).append quiet⟩
      · rename_i declared known
        simp only [Transform.bind_eq_ok_iff, Transform.pure_eq_ok_iff] at success
        obtain ⟨a, _, typed, ⟨b, _, others, rfl, rfl⟩, rfl⟩ := success
        obtain ⟨first, firstQuiet⟩ := responseType_uses typed
        obtain ⟨uses, quiet⟩ := ih others
        simp only [known]
        refine ⟨?_, firstQuiet.append (quiet.append Quiet.nil)⟩
        rw [List.append_nil]
        refine (first.append uses).mono ?_
        rw [List.filterMap_cons]
        cases a.value.name? <;> simp

theorem collect_occurrences {schemes : List (String × SecurityScheme)} {taken : List String}
    {requirements : List SecurityRequirement} {p : Parameter}
    (member : p ∈ (AuthHeaders.collect schemes taken requirements).1) : p.type.occurrences = [] := by
  induction requirements generalizing taken with
  | nil => cases member
  | cons requirement rest ih =>
      rcases requirement with _ | ⟨⟨name, scopes⟩, others⟩
      · exact ih member
      · unfold AuthHeaders.collect at member
        simp only at member
        split at member
        · exact ih member
        · split at member
          · rename_i parameter made
            rcases List.mem_cons.mp member with rfl | member
            · unfold AuthHeaders.ofName at made
              split at made
              · cases made
              · split at made
                · cases Except.ok.inj made
                  rfl
                · cases made
            · exact ih member
          · exact ih member

theorem collect_quiet (schemes : List (String × SecurityScheme)) (taken : List String)
    (requirements : List SecurityRequirement) :
    Quiet (AuthHeaders.collect schemes taken requirements).2 := by
  have ignored : ∀ used others, Quiet (AuthHeaders.ignoredNotes used others) := by
    intro used others
    unfold AuthHeaders.ignoredNotes
    split
    · exact Quiet.nil
    · exact Quiet.single (by simp)
  induction requirements generalizing taken with
  | nil => exact Quiet.nil
  | cons requirement rest ih =>
      rcases requirement with _ | ⟨⟨name, scopes⟩, others⟩
      · exact ih taken
      · unfold AuthHeaders.collect
        simp only
        split
        · exact (ignored name others).append (ih taken)
        · split
          · exact (ignored name others).append (ih _)
          · rename_i notice failed
            have other : ∀ unknown, notice ≠ .unknownDefinition unknown := by
              rintro unknown rfl
              unfold AuthHeaders.ofName at failed
              split at failed
              · cases failed
              · split at failed <;> cases failed
            rw [← List.singleton_append]
            exact (ignored name others).append ((Quiet.single other).append (ih taken))

/-- The names that operations use are those of their parameters and responses. -/
theorem mem_usedNames {parameters : List Parameter} {responses : List Response} {name : String} :
    name ∈ usedNames parameters responses ↔
      name ∈ parameters.flatMap (·.type.occurrences) ∨ name ∈ responses.filterMap (·.type.name?) := by
  have ofParameters : ∀ names : List String,
      name ∈ parameters.foldl (fun names p => p.type.addNames names) names ↔
        name ∈ names ∨ name ∈ parameters.flatMap (·.type.occurrences) := by
    induction parameters with
    | nil => simp
    | cons p rest ih =>
        intro names
        rw [List.foldl_cons, ih, TypeRef.addNames_eq, mem_foldl_addName, List.flatMap_cons,
          List.mem_append, or_assoc]
  unfold usedNames
  simp only
  rw [NameSet.mem_ofList, List.mem_append, ofParameters []]
  simp

theorem operation_uses {w : Workspace} {method : HttpMethod} {path id : String}
    {op : Document.Operation} {shared auth : List Parameter} {t : Traced Notice Operation}
    (success : w.operation method path id op shared auth = .ok t) :
    Quiet t.notes ∧ ∃ names, w.Uses (w.operationSites id op) t.promoted names ∧
      t.value.importedTypes.Nodup ∧ ∀ name ∈ t.value.importedTypes,
        name ∈ names ∨ name ∈ (shared ++ auth).flatMap (·.type.occurrences) := by
  unfold operation at success
  simp only [Transform.bind_eq_ok_iff, Transform.tell_eq_ok_iff, Transform.pure_eq_ok_iff] at success
  obtain ⟨a, _, declared, ⟨_, _, rfl, ⟨b, _, body, ⟨c, _, responses, rfl, rfl⟩, rfl⟩, rfl⟩, rfl⟩ :=
    success
  obtain ⟨usesA, quietA⟩ := parameters_uses declared
  obtain ⟨usesB, quietB⟩ := requestBody_uses body
  obtain ⟨usesC, quietC⟩ := responses_uses responses
  have own : Quiet (authHeaders w.catalog.schemes (op.security.getD [])).2 := collect_quiet _ _ _
  refine ⟨quietA.append (own.append (quietB.append (quietC.append Quiet.nil))),
    a.value.flatMap (·.type.occurrences) ++ (b.value.flatMap (·.type.occurrences) ++
      c.value.filterMap (·.type.name?)), ?_, NameSet.nodup_ofList _, ?_⟩
  · simpa [operationSites] using usesA.append (usesB.append usesC)
  · intro name member
    rcases mem_usedNames.mp member with member | member
    · obtain ⟨p, hp, occurs⟩ := List.mem_flatMap.mp member
      simp only [List.mem_append, List.mem_filter] at hp
      simp only [List.mem_append, List.mem_flatMap]
      rcases hp with ((((hp | hp) | hp) | hp) | hp) | hp
      · exact Or.inr ⟨p, Or.inl hp.1, occurs⟩
      · exact Or.inr ⟨p, Or.inr hp, occurs⟩
      · rw [collect_occurrences hp.1] at occurs
        cases occurs
      · exact Or.inl (Or.inl ⟨p, hp.1, occurs⟩)
      · exact Or.inl (Or.inl ⟨p, hp.1, occurs⟩)
      · exact Or.inl (Or.inr (Or.inl ⟨p, hp, occurs⟩))
    · exact Or.inl (List.mem_append_right _ (List.mem_append_right _ member))

theorem entry_uses {w : Workspace} {path key : String} {shared auth : List Parameter}
    {op : Document.Operation} {t : Traced Notice (List Operation)}
    (success : w.entry path shared auth key op = .ok t) :
    Quiet t.notes ∧ ∃ names, w.Uses (w.entrySites key op) t.promoted names ∧
      ∀ made ∈ t.value, made.importedTypes.Nodup ∧ ∀ name ∈ made.importedTypes,
        name ∈ names ∨ name ∈ (shared ++ auth).flatMap (·.type.occurrences) := by
  unfold entry at success
  unfold entrySites
  split at success
  · rename_i unknown
    cases eq_of_noted success
    rw [unknown]
    exact ⟨Quiet.single (by simp), [], Uses.nil, by simp⟩
  · rename_i method known
    rw [known]
    split at success
    · rename_i anonymous
      cases eq_of_noted success
      rw [anonymous]
      exact ⟨Quiet.single (by simp), [], Uses.nil, by simp⟩
    · rename_i id named
      simp only [Transform.bind_eq_ok_iff, Transform.pure_eq_ok_iff] at success
      obtain ⟨a, _, made, rfl, rfl⟩ := success
      obtain ⟨quiet, names, uses, covered⟩ := operation_uses made
      rw [named]
      refine ⟨quiet.append Quiet.nil, names, by simpa using uses, ?_⟩
      intro made member
      cases List.mem_singleton.mp member
      exact covered

theorem entries_uses {w : Workspace} {path : String} {shared auth : List Parameter}
    {declared : List (String × Document.Operation)} {t : Traced Diagnostic (List Operation)}
    (success : w.entries path shared auth declared = .ok t) :
    QuietDiagnostics t.notes ∧
      ∃ names, w.Uses (declared.flatMap fun (key, op) => w.entrySites key op) t.promoted names ∧
        ∀ made ∈ t.value, made.importedTypes.Nodup ∧ ∀ name ∈ made.importedTypes,
          name ∈ names ∨ name ∈ (shared ++ auth).flatMap (·.type.occurrences) := by
  induction declared generalizing t with
  | nil =>
      cases Transform.pure_eq_ok_iff.mp success
      exact ⟨QuietDiagnostics.nil, [], Uses.nil, by simp⟩
  | cons first rest ih =>
      obtain ⟨key, op⟩ := first
      unfold entries at success
      simp only [Transform.bind_eq_ok_iff, Transform.about_eq_ok_iff, Transform.pure_eq_ok_iff]
        at success
      obtain ⟨_, _, ⟨a, made, rfl⟩, ⟨b, _, others, rfl, rfl⟩, rfl⟩ := success
      obtain ⟨quiet, names, uses, covered⟩ := entry_uses made
      obtain ⟨quiet', names', uses', covered'⟩ := ih others
      refine ⟨(quiet.about _).append (quiet'.append QuietDiagnostics.nil), names ++ names', ?_, ?_⟩
      · simpa using uses.append uses'
      · intro op member
        rcases List.mem_append.mp member with member | member
        · obtain ⟨distinct, covered⟩ := covered op member
          refine ⟨distinct, fun name used => ?_⟩
          rcases covered name used with found | common
          · exact Or.inl (List.mem_append_left _ found)
          · exact Or.inr common
        · obtain ⟨distinct, covered'⟩ := covered' op member
          refine ⟨distinct, fun name used => ?_⟩
          rcases covered' name used with found | common
          · exact Or.inl (List.mem_append_right _ found)
          · exact Or.inr common

theorem operations_uses {w : Workspace} {path : String} {item : PathItem}
    {t : Traced Diagnostic (List Operation)} (success : w.operations path item = .ok t) :
    QuietDiagnostics t.notes ∧
      w.Uses (w.pathSites path item) t.promoted (t.value.flatMap (·.importedTypes)) ∧
        ∀ made ∈ t.value, made.importedTypes.Nodup := by
  unfold operations at success
  simp only [Transform.bind_eq_ok_iff, Transform.about_eq_ok_iff] at success
  obtain ⟨_, b, ⟨a, common, rfl⟩, next, rfl⟩ := success
  unfold sharedParameters at common
  simp only [Transform.bind_eq_ok_iff, Transform.tell_eq_ok_iff, Transform.pure_eq_ok_iff] at common
  obtain ⟨_, _, rfl, ⟨c, _, parameters, ⟨_, _, rfl, rfl, rfl⟩, rfl⟩, rfl⟩ := common
  obtain ⟨usesC, quietC⟩ := parameters_uses parameters
  have reference : Quiet (item.path?.toList.map Notice.pathItemReference) := by
    intro name member
    obtain ⟨path, _, same⟩ := List.mem_map.mp member
    cases same
  have auth : Quiet (authHeaders w.catalog.schemes w.catalog.security).2 := collect_quiet _ _ _
  unfold pathSites
  cases read : item.operations with
  | error cause =>
      rw [read] at next
      exact absurd next Transform.fail_ne_ok
  | ok declared =>
      rw [read] at next
      obtain ⟨quiet, names, uses, covered⟩ := entries_uses next
      refine ⟨((reference.append (quietC.append (auth.append Quiet.nil))).about path).append quiet, ?_⟩
      have both := usesC.append uses
      simp only [List.nil_append, List.append_nil] at both ⊢
      refine ⟨both.mono ?_, fun made hmade => (covered made hmade).1⟩
      intro name member
      obtain ⟨made, hmade, used⟩ := List.mem_flatMap.mp member
      rcases (covered made hmade).2 name used with found | common
      · exact List.mem_append_right _ found
      · rw [List.flatMap_append, List.mem_append] at common
        rcases common with common | common
        · exact List.mem_append_left _ common
        · obtain ⟨p, hp, occurs⟩ := List.mem_flatMap.mp common
          rw [collect_occurrences hp] at occurs
          cases occurs

/-- The operations of a document use the schemas at its sites. -/
theorem allOperations_uses {w : Workspace} {paths : List (String × PathItem)}
    {t : Traced Diagnostic (List Operation)} (success : w.allOperations paths = .ok t) :
    QuietDiagnostics t.notes ∧
      w.Uses (paths.flatMap fun (path, item) => w.pathSites path item) t.promoted
          (t.value.flatMap (·.importedTypes)) ∧
        ∀ made ∈ t.value, made.importedTypes.Nodup := by
  induction paths generalizing t with
  | nil =>
      cases Transform.pure_eq_ok_iff.mp success
      exact ⟨QuietDiagnostics.nil, Uses.nil, by simp⟩
  | cons first rest ih =>
      obtain ⟨path, item⟩ := first
      unfold allOperations at success
      simp only [Transform.bind_eq_ok_iff, Transform.pure_eq_ok_iff] at success
      obtain ⟨a, _, own, ⟨b, _, others, rfl, rfl⟩, rfl⟩ := success
      obtain ⟨quiet, uses, distinct⟩ := operations_uses own
      obtain ⟨quiet', uses', distinct'⟩ := ih others
      refine ⟨quiet.append (quiet'.append QuietDiagnostics.nil), ?_, ?_⟩
      · simpa using uses.append uses'
      · intro made member
        rcases List.mem_append.mp member with member | member
        · exact distinct made member
        · exact distinct' made member

end Workspace

end ApiCodec
