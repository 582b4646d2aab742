import ApiCodec.Proofs.Decoder.Overrides
import ApiCodec.Proofs.Emit.Contexts
import ApiCodec.Proofs.Emit.Sources

set_option autoImplicit false

namespace ApiCodec.Emit

open Document

inductive Composed
  | constant (name : String)
  | pair (first second : Composed)

namespace Composed

def text : Composed → String
  | constant name => name
  | pair first second => "r.composeResponseDecoders(" ++ first.text ++ ", " ++ second.text ++ ")"

/-- The constants in an expression, from left to right. -/
def constants : Composed → List String
  | constant name => [name]
  | pair first second => first.constants ++ second.constants

/-- All that is composed stands on the left, so that a constant is tried after those before it. -/
inductive IsLeftNested : Composed → Prop
  | constant (name : String) : IsLeftNested (.constant name)
  | pair {first : Composed} (name : String) (nested : IsLeftNested first) :
      IsLeftNested (.pair first (.constant name))

/-- The expression that goes on with further constants. -/
def extend (e : Composed) (names : List String) : Composed :=
  names.foldl (fun e name => .pair e (.constant name)) e

variable {e : Composed}

theorem text_extend (e : Composed) (names : List String) :
    (e.extend names).text = names.foldl
      (fun composed next => "r.composeResponseDecoders(" ++ composed ++ ", " ++ next ++ ")")
      e.text := by
  induction names generalizing e with
  | nil => rfl
  | cons name rest ih => exact ih (.pair e (.constant name))

theorem constants_extend (e : Composed) (names : List String) :
    (e.extend names).constants = e.constants ++ names := by
  induction names generalizing e with
  | nil => exact (List.append_nil _).symm
  | cons name rest ih =>
      have more := ih (.pair e (.constant name))
      rwa [constants, constants, List.append_assoc, List.singleton_append] at more

theorem IsLeftNested.extend (nested : e.IsLeftNested) (names : List String) :
    (e.extend names).IsLeftNested := by
  induction names generalizing e with
  | nil => exact nested
  | cons name rest ih => exact ih (.pair name nested)

end Composed

/-- Any number of decoders but none are composed as one expression of all of them. -/
theorem exists_composed {names : List String} (given : names ≠ []) :
    ∃ e : Composed, composeDecoders names = e.text ∧ e.IsLeftNested ∧ e.constants = names := by
  cases names with
  | nil => exact absurd rfl given
  | cons first rest =>
      have text : composeDecoders (first :: rest) = ((Composed.constant first).extend rest).text :=
        (Composed.text_extend (.constant first) rest).symm
      exact ⟨_, text, (Composed.IsLeftNested.constant first).extend rest,
        Composed.constants_extend (.constant first) rest⟩

/-- The type parameters of the entry at a position. -/
def genericsAt (index : Nat) : List String := ["A" ++ toString index, "C" ++ toString index]

theorem ne_of_first {c d : Char} (apart : c ≠ d) (left right : String) :
    String.singleton c ++ left ≠ String.singleton d ++ right := by
  intro same
  have chars := congrArg String.toList same
  rw [String.toList_append, String.toList_append, String.toList_singleton,
    String.toList_singleton] at chars
  exact apart (List.cons.inj chars).1

theorem value_ne_encoded (m n : Nat) : "A" ++ toString m ≠ "C" ++ toString n :=
  ne_of_first (c := 'A') (d := 'C') (by decide) (toString m) (toString n)

theorem nodup_genericsAt (index : Nat) : (genericsAt index).Nodup := by
  simp [genericsAt]

theorem disjoint_genericsAt {index other : Nat} (apart : index ≠ other) :
    (genericsAt index).Disjoint (genericsAt other) := by
  have numbers : ∀ name, name ++ toString index ≠ name ++ toString other :=
    fun name => (numbered_injective name).ne apart
  simp only [genericsAt, List.disjoint_left, List.mem_cons, List.not_mem_nil, or_false]
  rintro _ (rfl | rfl) (same | same)
  · exact numbers "A" same
  · exact value_ne_encoded index other same
  · exact value_ne_encoded other index same.symm
  · exact numbers "C" same

theorem nodup_generics (n : Nat) : ((List.range n).flatMap genericsAt).Nodup :=
  List.nodup_flatMap.mpr
    ⟨fun index _ => nodup_genericsAt index, List.nodup_range.imp fun apart => disjoint_genericsAt apart⟩

theorem length_generics (n : Nat) : ((List.range n).flatMap genericsAt).length = 2 * n := by
  induction n with
  | zero => rfl
  | succ n ih => rw [List.range_succ, List.flatMap_append, List.length_append, ih]; rfl

theorem unknown_notMem_generics (n : Nat) : "unknown" ∉ (List.range n).flatMap genericsAt := by
  intro member
  obtain ⟨index, _, at_index⟩ := List.mem_flatMap.mp member
  simp only [genericsAt, List.mem_cons, List.not_mem_nil, or_false] at at_index
  rcases at_index with same | same
  · exact ne_of_first (c := 'u') (d := 'A') (by decide) "nknown" (toString index) same
  · exact ne_of_first (c := 'u') (d := 'C') (by decide) "nknown" (toString index) same

/-- Joining what the parts of a list are joined from is joining all of it. -/
theorem intercalate_flatMap {α : Type} (sep : String) {pieces : α → List String} {items : List α}
    (filled : ∀ item ∈ items, pieces item ≠ []) :
    sep.intercalate (items.flatMap pieces) =
      sep.intercalate (items.map fun item => sep.intercalate (pieces item)) := by
  induction items with
  | nil => rfl
  | cons item rest ih =>
      have here := filled item List.mem_cons_self
      have others : ∀ other ∈ rest, pieces other ≠ [] :=
        fun other member => filled other (List.mem_cons_of_mem item member)
      cases rest with
      | nil => simp
      | cons next rest =>
          have more : (next :: rest).flatMap pieces ≠ [] := by
            simp [others next List.mem_cons_self]
          rw [List.flatMap_cons, String.intercalate_append_of_ne_nil here more, ih others]
          exact (String.intercalate_cons_of_ne_nil (List.cons_ne_nil _ _)).symm

namespace EntryDecoder

/-- The type parameters of an entry. -/
def generics (d : EntryDecoder) : List String := [d.value, d.encoded]

def constant (d : EntryDecoder) : String := "d" ++ toString d.status

structure Serves (d : EntryDecoder) (entry : DecoderEntry) : Prop where
  status : d.status = entry.status
  defaultCodec : d.defaultCodec = codecOf entry.strategy
  headers : d.headers = unionOf entry.headers
  decoder : d.decoder = entryDecoder entry.strategy (toString entry.status) (unionOf entry.headers)

theorem generics_of (index : Nat) (entry : DecoderEntry) :
    (of index entry).generics = genericsAt index := rfl

theorem serves_of (index : Nat) (entry : DecoderEntry) : (of index entry).Serves entry :=
  ⟨rfl, rfl, rfl, rfl⟩

theorem parameters_eq (d : EntryDecoder) : d.parameters = ", ".intercalate d.generics := by
  rw [generics, String.intercalate_cons_cons, String.intercalate_singleton, parameters]

/-- A type parameter and the type that it is unless another is given. -/
def assigned (parameter type : String) : String := parameter ++ " = " ++ type

theorem parametersWithDefaults_eq (d : EntryDecoder) :
    d.parametersWithDefaults =
      ", ".intercalate (d.generics.map (assigned · (defaultType d.defaultCodec))) := by
  simp only [generics, List.map_cons, List.map_nil, String.intercalate_cons_cons,
    String.intercalate_singleton, parametersWithDefaults, assigned, String.append_assoc]

end EntryDecoder

/-- The types that the type parameters of an entry are unless others are given. -/
def defaultsOf (entry : DecoderEntry) : List String :=
  let type := defaultType (codecOf entry.strategy)
  [type, type]

section Serving

variable {entries : List DecoderEntry} {decoders : List EntryDecoder}

def ServeAll (entries : List DecoderEntry) (decoders : List EntryDecoder) : Prop :=
  List.Forall₂ (fun entry decoder => decoder.Serves entry) entries decoders

theorem serveAll_zipIdx (entries : List DecoderEntry) (start : Nat) :
    ServeAll entries
      ((entries.zipIdx start).map fun entry => EntryDecoder.of entry.2 entry.1) := by
  induction entries generalizing start with
  | nil => exact .nil
  | cons entry rest ih => exact .cons (EntryDecoder.serves_of start entry) (ih (start + 1))

theorem ServeAll.statuses (serve : ServeAll entries decoders) :
    decoders.map (·.status) = entries.map (·.status) := by
  induction serve with
  | nil => rfl
  | cons first _ ih => rw [List.map_cons, List.map_cons, first.status, ih]

/-- The defaults are assigned to the type parameters one by one. -/
theorem ServeAll.defaults (serve : ServeAll entries decoders) :
    (decoders.flatMap fun d =>
        d.generics.map (EntryDecoder.assigned · (defaultType d.defaultCodec))) =
      List.zipWith EntryDecoder.assigned (decoders.flatMap EntryDecoder.generics)
        (entries.flatMap defaultsOf) := by
  induction serve with
  | nil => rfl
  | @cons entry d _ _ first _ ih =>
      have here : d.generics.map (EntryDecoder.assigned · (defaultType d.defaultCodec)) =
          List.zipWith EntryDecoder.assigned d.generics (defaultsOf entry) := by
        rw [first.defaultCodec]
        rfl
      have both : d.generics.length = (defaultsOf entry).length := rfl
      rw [List.flatMap_cons, List.flatMap_cons, List.flatMap_cons, here, ih,
        List.zipWith_append both]

theorem ServeAll.results (serve : ServeAll entries decoders) :
    decoders.map EntryDecoder.result =
      List.zipWith (fun entry value => responseType entry.status value entry.headers) entries
        (decoders.map (·.value)) := by
  induction serve with
  | nil => rfl
  | @cons entry d _ _ first _ ih =>
      have here : d.result = responseType entry.status d.value entry.headers := by
        unfold EntryDecoder.result responseType
        rw [first.status, first.headers]
      rw [List.map_cons, List.map_cons, List.zipWith_cons_cons, here, ih]

end Serving

namespace OperationDecoder

variable {plan : DecoderPlan}

def typeParameters (d : OperationDecoder) : List String := d.entries.flatMap EntryDecoder.generics

def constants (d : OperationDecoder) : List String := d.entries.map EntryDecoder.constant

structure Follows (d : OperationDecoder) (plan : DecoderPlan) : Prop where
  entries : ServeAll plan.entries d.entries
  count : d.typeParameters.length = 2 * plan.entries.length
  distinct : d.typeParameters.Nodup
  declared : d.generics = ", ".intercalate d.typeParameters
  defaulted :
    d.genericsWithDefaults =
      ", ".intercalate (List.zipWith EntryDecoder.assigned d.typeParameters
        (plan.entries.flatMap defaultsOf))
  /-- The body of a response is of the first type parameter of its entry. -/
  result :
    d.result =
      " | ".intercalate
        (List.zipWith (fun entry value => responseType entry.status value entry.headers)
          plan.entries (d.entries.map (·.value)))
  values : (d.entries.map (·.value)).Sublist d.typeParameters
  constants : d.constants.Nodup
  /-- The composed expression has each constant once, in the order of the entries. -/
  composed : ∃ e : Composed, d.composed = e.text ∧ e.IsLeftNested ∧ e.constants = d.constants
  /-- The type parameters of the primary status are those of the one entry for it. -/
  primary :
    ∃ e ∈ d.entries, (∀ other ∈ d.entries, other.status = plan.primary ↔ other = e) ∧
      [d.primaryValue, d.primaryEncoded] = e.generics
  status : d.primaryStatus = plan.primary
  known : "unknown" ∉ [d.primaryValue, d.primaryEncoded]

theorem entries_of (plan : DecoderPlan) :
    (of plan).entries = plan.entries.zipIdx.map fun entry => EntryDecoder.of entry.2 entry.1 :=
  List.mapIdx_eq_zipIdx_map

theorem serveAll_of (plan : DecoderPlan) : ServeAll plan.entries (of plan).entries := by
  rw [entries_of]
  exact serveAll_zipIdx plan.entries 0

theorem typeParameters_of (plan : DecoderPlan) :
    (of plan).typeParameters = (List.range plan.entries.length).flatMap genericsAt :=
  calc
    (of plan).typeParameters
        = plan.entries.zipIdx.flatMap fun entry => genericsAt entry.2 := by
          rw [typeParameters, entries_of, List.flatMap_map]
          exact List.flatMap_congr fun entry _ => EntryDecoder.generics_of entry.2 entry.1
    _ = (plan.entries.zipIdx.map Prod.snd).flatMap genericsAt := (List.flatMap_map _ _ _).symm
    _ = (List.range plan.entries.length).flatMap genericsAt := by
          rw [List.zipIdx_map_snd, List.range_eq_range']

theorem constants_of (plan : DecoderPlan) :
    (of plan).constants = plan.statuses.map fun status => "d" ++ toString status := by
  rw [DecoderPlan.statuses, ← (serveAll_of plan).statuses, List.map_map]
  rfl

theorem generics_eq (d : OperationDecoder) : d.generics = ", ".intercalate d.typeParameters := by
  have joined : d.entries.map EntryDecoder.parameters =
      d.entries.map fun e => ", ".intercalate e.generics :=
    List.map_congr_left fun e _ => e.parameters_eq
  rw [generics, joined, typeParameters]
  exact (intercalate_flatMap ", " fun _ _ => List.cons_ne_nil _ _).symm

theorem genericsWithDefaults_eq {d : OperationDecoder} (serve : ServeAll plan.entries d.entries) :
    d.genericsWithDefaults =
      ", ".intercalate (List.zipWith EntryDecoder.assigned d.typeParameters
        (plan.entries.flatMap defaultsOf)) := by
  have joined : d.entries.map EntryDecoder.parametersWithDefaults =
      d.entries.map fun e =>
        ", ".intercalate (e.generics.map (EntryDecoder.assigned · (defaultType e.defaultCodec))) :=
    List.map_congr_left fun e _ => e.parametersWithDefaults_eq
  rw [genericsWithDefaults, joined, typeParameters, ← serve.defaults]
  exact (intercalate_flatMap ", " fun _ _ => List.cons_ne_nil _ _).symm

/-- Both type parameters of the primary status come from one search. -/
theorem primaryGenerics_of (plan : DecoderPlan) :
    [(of plan).primaryValue, (of plan).primaryEncoded] =
      match (of plan).entries.find? (·.status == plan.primary) with
      | some e => e.generics
      | none => ["unknown", "unknown"] := by
  have value : (of plan).primaryValue =
      (((of plan).entries.find? (·.status == plan.primary)).map (·.value)).getD "unknown" := rfl
  have encoded : (of plan).primaryEncoded =
      (((of plan).entries.find? (·.status == plan.primary)).map (·.encoded)).getD "unknown" := rfl
  rw [value, encoded]
  cases (of plan).entries.find? (·.status == plan.primary) <;> rfl

theorem values_sublist (d : OperationDecoder) :
    (d.entries.map (·.value)).Sublist d.typeParameters := by
  rw [typeParameters]
  induction d.entries with
  | nil => exact .slnil
  | cons e rest ih => exact ((ih.cons e.encoded).cons_cons e.value)

/-- A status with an entry is the status of one decoder, whose type parameters are the primary ones. -/
theorem exists_primary (distinct : plan.statuses.Nodup) (known : plan.primary ∈ plan.statuses) :
    ∃ e ∈ (of plan).entries,
      (∀ other ∈ (of plan).entries, other.status = plan.primary ↔ other = e) ∧
      [(of plan).primaryValue, (of plan).primaryEncoded] = e.generics := by
  have statuses : (of plan).entries.map (·.status) = plan.statuses := (serveAll_of plan).statuses
  rw [← statuses] at distinct known
  obtain ⟨first, there, same⟩ := List.mem_map.mp known
  cases found : (of plan).entries.find? (·.status == plan.primary) with
  | none => exact absurd (by simpa using same) (List.find?_eq_none.mp found first there)
  | some e =>
      have member := List.mem_of_find?_eq_some found
      have status : e.status = plan.primary := by simpa using List.find?_some found
      refine ⟨e, member, fun other inside => ⟨fun again => ?_, fun eq => eq ▸ status⟩, ?_⟩
      · exact List.inj_on_of_nodup_map distinct inside member (again.trans status.symm)
      · rw [primaryGenerics_of, found]

/-- The decoder for a plan whose statuses are distinct, the primary one among them, follows it. -/
theorem follows_of (distinct : plan.statuses.Nodup) (known : plan.primary ∈ plan.statuses) :
    (of plan).Follows plan := by
  have serve := serveAll_of plan
  have parameters := typeParameters_of plan
  have constants : (of plan).constants.Nodup := by
    rw [constants_of]
    exact distinct.map (numbered_injective "d")
  have given : (of plan).constants ≠ [] := by
    rw [constants_of]
    exact List.map_eq_nil_iff.not.mpr (List.ne_nil_of_mem known)
  obtain ⟨e, member, only, pair⟩ := exists_primary distinct known
  exact
    { entries := serve
      count := by rw [parameters, length_generics]
      distinct := by rw [parameters]; exact nodup_generics _
      declared := generics_eq _
      defaulted := genericsWithDefaults_eq serve
      result := by rw [result, serve.results]
      values := values_sublist _
      constants
      composed := exists_composed given
      primary := ⟨e, member, only, pair⟩
      status := rfl
      known := by
        intro unknown
        rw [pair] at unknown
        have named : "unknown" ∈ (of plan).typeParameters := List.mem_flatMap.mpr ⟨e, member, unknown⟩
        rw [parameters] at named
        exact unknown_notMem_generics _ named }

end OperationDecoder

namespace EntryDecoder

section

variable (e : EntryDecoder) (outer : Scope)

theorem written_status :
    (fieldAt "e" "status").written (("e", e.toJson) :: outer) = toString e.status := rfl

theorem written_defaultCodec :
    (fieldAt "e" "default_codec").written (("e", e.toJson) :: outer) = e.defaultCodec := rfl

theorem written_value : (fieldAt "e" "a").written (("e", e.toJson) :: outer) = e.value := rfl

theorem written_encoded : (fieldAt "e" "c").written (("e", e.toJson) :: outer) = e.encoded := rfl

theorem written_decoder : (fieldAt "e" "decoder").written (("e", e.toJson) :: outer) = e.decoder :=
  rfl

theorem written_headers : (fieldAt "e" "headers").written (("e", e.toJson) :: outer) = e.headers :=
  rfl

end

end EntryDecoder

namespace OperationDecoder

/-- What the template of an operation writes where it names the parts of a decoder. -/
structure WrittenIn (d : OperationDecoder) (scope : Scope) : Prop where
  declared : (innerAt "op" "decoder" "generics_decl").written scope = d.generics
  used : (innerAt "op" "decoder" "generics").written scope = d.generics
  defaulted :
    (innerAt "op" "decoder" "generics_with_defaults").written scope = d.genericsWithDefaults
  result : (innerAt "op" "decoder" "result_union").written scope = d.result
  composed : (innerAt "op" "decoder" "composed").written scope = d.composed
  primaryValue : (innerAt "op" "decoder" "primary_a").written scope = d.primaryValue
  primaryEncoded : (innerAt "op" "decoder" "primary_c").written scope = d.primaryEncoded
  primaryStatus :
    (innerAt "op" "decoder" "primary_status").written scope = toString d.primaryStatus
  entries : ∀ body,
    (Piece.each "e" (at3 "op" "decoder" "entries") body).written scope =
      String.join (d.entries.map fun e => writtenAll (("e", e.toJson) :: scope) body)
  constants : ∀ e ∈ d.entries,
    writtenAll (("e", e.toJson) :: scope) [.text "d", fieldAt "e" "status"] = e.constant
  parameters : ∀ e ∈ d.entries,
    writtenAll (("e", e.toJson) :: scope) [fieldAt "e" "a", .text ", ", fieldAt "e" "c"] =
      ", ".intercalate e.generics

theorem writtenIn_scope {d : OperationDecoder} {r : RequestType} (made : r.decoder = some d)
    (outer : Scope) : d.WrittenIn (r.scope outer) := by
  have value : fieldOf (Assoc.get? "op" (r.scope outer)) "decoder" = some d.toJson := by
    rw [decoder_scope, made]
    rfl
  have part : ∀ name, (at3 "op" "decoder" name).find? (r.scope outer) =
      fieldOf (some d.toJson) name := by
    intro name
    rw [← value]
    rfl
  have written : ∀ name, (innerAt "op" "decoder" name).written (r.scope outer) =
      valueText (fieldOf (some d.toJson) name) := fun name => congrArg valueText (part name)
  exact
    { declared := written "generics_decl"
      used := written "generics"
      defaulted := written "generics_with_defaults"
      result := written "result_union"
      composed := written "composed"
      primaryValue := written "primary_a"
      primaryEncoded := written "primary_c"
      primaryStatus := written "primary_status"
      entries := by
        intro body
        have items : itemsOf (fieldOf (some d.toJson) "entries") =
            some (d.entries.map EntryDecoder.toJson) := rfl
        rw [Piece.written, part, items, Option.getD_some, List.map_map]
        rfl
      constants := by
        intro e _
        rw [writtenAll_cons, writtenAll_cons, writtenAll_nil, String.append_empty, written_text,
          EntryDecoder.written_status, EntryDecoder.constant]
      parameters := by
        intro e _
        rw [writtenAll_cons, writtenAll_cons, writtenAll_cons, writtenAll_nil, String.append_empty,
          written_text, EntryDecoder.written_value, EntryDecoder.written_encoded, ← e.parameters_eq,
          EntryDecoder.parameters, String.append_assoc] }

def primaryCodec (d : OperationDecoder) : String :=
  "t.Type<" ++ d.primaryValue ++ ", " ++ d.primaryEncoded ++ ">"

def codecsType (d : OperationDecoder) (name : CodeName) : String :=
  name.pascal ++ "ResponsesT<" ++ d.generics ++ ">"

def responsesDeclaration (d : OperationDecoder) (name : CodeName) : Declaration :=
  { lead := "\n"
    exported := true
    kind := .constant
    name := name.camel ++ "DefaultResponses"
    rest :=
      " = \x7b\n" ++
        String.join (d.entries.map fun e =>
          "  " ++ toString e.status ++ ": " ++ e.defaultCodec ++ ",\n") ++ "\x7d;\n\n" }

/-- The type of the codecs, with a field for each response. -/
def typeDeclaration (d : OperationDecoder) (name : CodeName) : Declaration :=
  { lead := ""
    exported := true
    kind := .type
    name := name.pascal ++ "ResponsesT"
    rest :=
      "<" ++ d.generics ++ "> = \x7b\n" ++
        String.join (d.entries.map fun e =>
          "  " ++ toString e.status ++ ": t.Type<" ++ e.parameters ++ ">;\n") ++ "\x7d;\n\n" }

/-- The decoder itself, which takes other codecs. -/
def decoderDeclaration (d : OperationDecoder) (name : CodeName) : Declaration :=
  { lead := ""
    exported := true
    kind := .function
    name := name.camel ++ "Decoder"
    rest :=
      "<" ++ d.genericsWithDefaults ++ ">(\n  overrideTypes:\n    | Partial<" ++ d.codecsType name ++
        ">\n    | " ++ d.primaryCodec ++ "\n    | undefined = \x7b\x7d\n): r.ResponseDecoder<" ++
        d.result ++ "> \x7b\n  const isDecoder = (d: any): d is " ++ d.primaryCodec ++
        " =>\n    typeof d[\"_A\"] !== \"undefined\";\n\n  const type = \x7b\n    ...((" ++
        name.camel ++ "DefaultResponses as unknown) as " ++ d.codecsType name ++
        "),\n    ...(isDecoder(overrideTypes) ? \x7b " ++ toString d.primaryStatus ++
        ": overrideTypes \x7d : overrideTypes)\n  \x7d;\n\n" ++
        String.join (d.entries.map fun e =>
          "  const " ++ e.constant ++ " = (" ++ e.decoder ++ ") as r.ResponseDecoder<" ++ e.result ++
            ">;\n") ++
        "\n  return " ++ d.composed ++ ";\n\x7d\n\n" }

/-- All that is declared for a decoder; the last one takes no other codecs. -/
def declarations (d : OperationDecoder) (name : CodeName) : List Declaration :=
  [d.responsesDeclaration name, d.typeDeclaration name, d.decoderDeclaration name,
   { lead := "// Decodes the declared responses with their default types\n"
     exported := true
     kind := .constant
     name := name.camel ++ "DefaultDecoder"
     rest := " = () => " ++ name.camel ++ "Decoder();\n" }]

section

variable {d : OperationDecoder} {r : RequestType} (made : r.decoder = some d) (outer : Scope)

theorem written_camel : (fieldAt "op" "camel").written (r.scope outer) = r.operation.name.camel := rfl

theorem written_pascal :
    (fieldAt "op" "pascal").written (r.scope outer) = r.operation.name.pascal := rfl

include made

theorem declaration_defaultResponsesStatement :
    defaultResponsesStatement.declaration (r.scope outer) =
      d.responsesDeclaration r.operation.name := by
  simp only [defaultResponsesStatement, responsesDeclaration, Statement.declaration, writtenAll_cons,
    writtenAll_nil, written_text, (writtenIn_scope made outer).entries, written_camel,
    EntryDecoder.written_status, EntryDecoder.written_defaultCodec, String.append_assoc,
    String.append_empty]

theorem declaration_responsesTypeStatement :
    responsesTypeStatement.declaration (r.scope outer) = d.typeDeclaration r.operation.name := by
  have writes := writtenIn_scope made outer
  simp only [responsesTypeStatement, typeDeclaration, Statement.declaration, writtenAll_cons,
    writtenAll_nil, written_text, writes.entries, writes.declared, written_pascal,
    EntryDecoder.written_status, EntryDecoder.written_value, EntryDecoder.written_encoded,
    EntryDecoder.parameters, String.append_assoc, String.append_empty]

theorem declaration_decoderStatement :
    decoderStatement.declaration (r.scope outer) = d.decoderDeclaration r.operation.name := by
  have writes := writtenIn_scope made outer
  have constant : ∀ e : EntryDecoder, e.constant = "d" ++ toString e.status := fun _ => rfl
  have result : ∀ e : EntryDecoder, e.result =
      "r.IResponseType<" ++ toString e.status ++ ", " ++ e.value ++ ", " ++ e.headers ++ ">" :=
    fun _ => rfl
  -- The texts of the template are cut where parts of the decoder begin and end.
  have constants : "  const d" = "  const " ++ "d" := by decide
  have results : ") as r.ResponseDecoder<r.IResponseType<" =
      ") as r.ResponseDecoder<" ++ "r.IResponseType<" := by decide
  have ending : ">>;\n" = ">" ++ ">;\n" := by decide
  have overrides : ">>\n    | t.Type<" = ">" ++ (">\n    | " ++ "t.Type<") := by decide
  have none : ">\n    | undefined = \x7b\x7d\n): r.ResponseDecoder<" =
      ">" ++ "\n    | undefined = \x7b\x7d\n): r.ResponseDecoder<" := by decide
  have guard : "> \x7b\n  const isDecoder = (d: any): d is t.Type<" =
      "> \x7b\n  const isDecoder = (d: any): d is " ++ "t.Type<" := by decide
  have guarded : "> =>\n    typeof d[\"_A\"] !== \"undefined\";\n\n  const type = \x7b\n    ...((" =
      ">" ++ " =>\n    typeof d[\"_A\"] !== \"undefined\";\n\n  const type = \x7b\n    ...((" := by
    decide
  have spread : ">),\n    ...(isDecoder(overrideTypes) ? \x7b " =
      ">" ++ "),\n    ...(isDecoder(overrideTypes) ? \x7b " := by decide
  simp only [decoderStatement, decoderDeclaration, Statement.declaration, writtenAll_cons,
    writtenAll_nil, written_text, writes.entries, writes.used, writes.defaulted, writes.result,
    writes.composed, writes.primaryValue, writes.primaryEncoded, writes.primaryStatus,
    written_camel, written_pascal,
    EntryDecoder.written_status, EntryDecoder.written_value, EntryDecoder.written_headers,
    EntryDecoder.written_decoder, codecsType, primaryCodec, constant, result, constants, results,
    ending, overrides, none, guard, guarded, spread, String.append_assoc, String.append_empty]

/-- The template declares for a decoder what it should. -/
theorem declarationsOf_decoderStatements :
    declarationsOf (r.scope outer) decoderStatements = d.declarations r.operation.name := by
  simp only [declarationsOf, decoderStatements, List.map_cons, List.map_nil,
    declaration_defaultResponsesStatement made, declaration_responsesTypeStatement made,
    declaration_decoderStatement made]
  simp only [declarations, defaultDecoderStatement, Statement.declaration, writtenAll_cons,
    writtenAll_nil, written_text, written_camel, String.append_assoc, String.append_empty]

theorem written_operationPieces_of_decoder :
    writtenAll (r.scope outer) operationPieces =
      writtenAll (r.scope outer) requestTypeStatement.pieces ++
        textOf (d.declarations r.operation.name) := by
  have split : Statement.all r.statements =
      requestTypeStatement.pieces ++ Statement.all decoderStatements := by
    rw [RequestType.statements, made]
    rfl
  rw [written_operationPieces, ← writtenAll_all, split, writtenAll_append, writtenAll_all,
    declarationsOf_decoderStatements made]

end

end OperationDecoder

/-- For each operation that was built and each choice of default types with which it has a plan, the
decoder follows the plan: each entry has two type parameters of its own, a constant of its own and its
place in the composed expression, and the primary ones are those of an entry. This is the decoder that
is generated: the template writes its parts as they are, and behind the request type of the operation
what is declared for it. -/
theorem decoder_follows_plan {w : Workspace} {path : String} {item : PathItem}
    {t : Traced Diagnostic (List Operation)} {op : Operation}
    (success : w.operations path item = .ok t) (member : op ∈ t.value)
    {defaults : DefaultTypes} {plan : DecoderPlan}
    (planned : DecoderPlan.ofOperation? defaults op = some plan) :
    (OperationDecoder.of plan).Follows plan ∧
    ∀ o : Options, o.responseDecoders = true → o.defaultTypes = defaults →
      (RequestType.of o op).decoder = some (OperationDecoder.of plan) ∧
      ∀ outer, (OperationDecoder.of plan).WrittenIn ((RequestType.of o op).scope outer) ∧
        writtenAll ((RequestType.of o op).scope outer) operationPieces =
          writtenAll ((RequestType.of o op).scope outer) requestTypeStatement.pieces ++
            textOf ((OperationDecoder.of plan).declarations op.name) := by
  have describes := DecoderPlan.describes_of_operation (w.nodup_statuses success op member) planned
  refine ⟨OperationDecoder.follows_of describes.distinct describes.primary_mem, ?_⟩
  rintro o asked rfl
  have made : (RequestType.of o op).decoder = some (OperationDecoder.of plan) := by
    simp only [RequestType.of, asked, if_true, planned, Option.map_some]
  exact ⟨made, fun outer => ⟨OperationDecoder.writtenIn_scope made outer,
    OperationDecoder.written_operationPieces_of_decoder made outer⟩⟩

/-- A decoder whose primary entry is the second one. -/
theorem decoder_follows_plan_listing :
    ∃ t op,
      (Workspace.ofDocument (.ofDefinitions []) []).operations "/items" Sample.listing = .ok t ∧
      op ∈ t.value ∧ DecoderPlan.ofOperation? ⟨"Page", absentType⟩ op = some Sample.listingPlan ∧
      (OperationDecoder.of Sample.listingPlan).Follows Sample.listingPlan ∧
      (RequestType.of { responseDecoders := true, defaultSuccessType := "Page" } op).decoder =
        some (OperationDecoder.of Sample.listingPlan) := by
  let run : Except TransformError (Traced Diagnostic (List Operation)) :=
    (Workspace.ofDocument (.ofDefinitions []) []).operations "/items" Sample.listing
  have planned : run.toOption.map (fun t =>
      t.value.map (DecoderPlan.ofOperation? ⟨"Page", absentType⟩)) =
        some [some Sample.listingPlan] := by
    decide +kernel
  obtain ⟨t, success, plans⟩ := exists_ok_of_map planned
  obtain ⟨op, same, plan⟩ := List.map_eq_singleton_iff.mp plans
  have member : op ∈ t.value := by simp [same]
  obtain ⟨follows, generated⟩ := decoder_follows_plan success member plan
  exact ⟨t, op, success, member, plan, follows, (generated _ rfl rfl).1⟩

example : (OperationDecoder.of Sample.listingPlan).composed =
    "r.composeResponseDecoders(d404, d200)" := by decide +kernel

end ApiCodec.Emit
