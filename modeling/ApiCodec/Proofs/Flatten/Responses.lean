import ApiCodec.Build.Operations
import ApiCodec.Proofs.Flatten.Run
import ApiCodec.Proofs.Walk.Paths

set_option autoImplicit false

namespace ApiCodec

open Document

/-- Whether the values of a schema are the content of a file. -/
def Document.Schema.IsBinary (schema : Schema) : Prop :=
  schema.format = some "binary" ∨ schema.types = some (.one .file)

/-- The response with its body under another schema, where the dialect has it. -/
def Catalog.withResponseSchema (c : Catalog) (node : SchemaNode) (response : Document.Response) :
    Document.Response :=
  match c.dialect with
  | .swagger2 => { response with schema := some node }
  | .openApi3 =>
      match response.content with
      | [] => response
      | (contentType, media) :: rest =>
          { response with content := (contentType, { media with schema := some node }) :: rest }

theorem Catalog.responseSchema?_withResponseSchema {c : Catalog} {response : Document.Response}
    {contentType : Option String} {old : SchemaNode}
    (declared : c.responseSchema? response = some (contentType, old)) (node : SchemaNode) :
    c.responseSchema? (c.withResponseSchema node response) = some (contentType, node) := by
  unfold responseSchema? withResponseSchema at *
  cases dialect : c.dialect with
  | swagger2 =>
      simp only [dialect, Option.map_eq_some_iff] at declared ⊢
      obtain ⟨_, _, same⟩ := declared
      exact ⟨node, rfl, congrArg (·, node) (Prod.mk.inj same).1⟩
  | openApi3 =>
      simp only [dialect] at declared ⊢
      cases body : response.content with
      | nil => simp [body] at declared
      | cons entry rest =>
          simp only [body, Option.map_eq_some_iff] at declared ⊢
          obtain ⟨_, _, same⟩ := declared
          exact ⟨node, rfl, congrArg (·, node) (Prod.mk.inj same).1⟩

/-- A reference of the document leads to a schema in another file, which holds no references and is
not published under a name. -/
structure Sources.PutsInPlace (s : Sources) (path : String) (p : Pointer) (schema : Schema) :
    Prop where
  points : Pointer.within none path = .ok p
  external : p.isExternal
  unpublished : Assoc.get? p.key s.aliases = none
  target : s.load SchemaNode.read p = .ok (.inline schema)
  plain : schema.paths = []

/-- What a target that is not published comes to is put in place of the pointer. -/
theorem Sources.PutsInPlace.exists_normalize {s : Sources} {path : String} {p : Pointer}
    {schema : Schema} (places : s.PutsInPlace path p schema) :
    ∃ t d, s.normalize none (.ref path) = .ok t ∧ t.value = .inline d := by
  obtain ⟨raw, parsed, rfl⟩ := Pointer.within_eq_ok_iff.mp places.points
  obtain ⟨d, placed⟩ := exists_normalizeSchema_of_plain places.plain
    (fun q => s.follow [(raw.relativeTo none).key] q) (raw.relativeTo none).file
  refine ⟨⟨.inline d.value, d.notes, d.promoted⟩, d.value, ?_, rfl⟩
  rw [Sources.normalize, normalizeNode, resolve, parsed]
  simp only [places.external, if_true]
  rw [Sources.follow, places.unpublished]
  simp only [List.not_mem_nil, dite_false]
  split
  · rename_i e failed
    rw [places.target] at failed
    cases failed
  · rename_i node found
    rw [places.target] at found
    cases found
    rw [normalizeNode, Transform.bind_eq_ok_iff]
    exact ⟨d, _, placed, Transform.pure_eq_ok_iff.mpr rfl, by simp⟩

namespace Workspace

variable {w : Workspace} (status : String) {response : Document.Response}
  {contentType : Option String}

theorem defaultType_ne_binary (status : String) : defaultType status ≠ .binary := by
  unfold defaultType
  split <;> simp

/-- A response whose schema stands in it is binary if the schema is. -/
theorem responseType_of_inline {schema : Schema}
    (declared : w.catalog.responseSchema? response = some (contentType, .inline schema)) :
    ∃ u, w.responseType status response = .ok u ∧
      (schema.IsBinary → u.value = .binary) ∧ (¬ schema.IsBinary → u.value = defaultType status) := by
  unfold responseType
  rw [declared]
  by_cases binary : schema.IsBinary
  · refine ⟨⟨.binary, [], []⟩, ?_, fun _ => rfl, fun other => absurd binary other⟩
    exact if_pos binary
  · refine ⟨⟨defaultType status, [], []⟩, ?_, fun other => absurd other binary, fun _ => rfl⟩
    exact if_neg binary

/-- A response whose schema is put in place of a pointer is never binary. -/
theorem responseType_of_places {path : String} {p : Pointer} {schema : Schema}
    (declared : w.catalog.responseSchema? response = some (contentType, .ref path))
    (places : w.sources.PutsInPlace path p schema) :
    ∃ t, w.responseType status response = .ok t ∧ t.value = defaultType status := by
  obtain ⟨found, d, normal, placed⟩ := places.exists_normalize
  refine ⟨⟨defaultType status, found.notes, found.promoted⟩, ?_, rfl⟩
  unfold responseType
  rw [declared]
  refine Transform.bind_eq_ok_iff.mpr ⟨found, ⟨defaultType status, [], []⟩, normal, ?_, by simp⟩
  rw [placed]
  rfl

end Workspace

open Workspace in
/-- A response whose schema is a pointer to one in another file, and the same response with that
schema in place of the pointer. Both have a type, the first always the one for which no definition
is named; so they have the same type exactly if the schema is not binary. -/
theorem inlined_response_type_iff (w : Workspace) (status : String) {response : Document.Response}
    {contentType : Option String} {path : String} {p : Pointer} {schema : Schema}
    (declared : w.catalog.responseSchema? response = some (contentType, .ref path))
    (places : w.sources.PutsInPlace path p schema) :
    ∃ t u, w.responseType status response = .ok t ∧
      w.responseType status (w.catalog.withResponseSchema (.inline schema) response) = .ok u ∧
      t.value = defaultType status ∧ (schema.IsBinary → u.value = .binary) ∧
      (t.value = u.value ↔ ¬ schema.IsBinary) := by
  obtain ⟨t, pointed, ofPointer⟩ := responseType_of_places status declared places
  obtain ⟨u, standing, ofBinary, ofOther⟩ := responseType_of_inline status
    (Catalog.responseSchema?_withResponseSchema declared (.inline schema))
  refine ⟨t, u, pointed, standing, ofPointer, ofBinary, ?_⟩
  rw [ofPointer]
  constructor
  · intro same binary
    exact defaultType_ne_binary status (same.trans (ofBinary binary))
  · exact fun other => (ofOther other).symm

namespace Sample

/-- A file with a text and with a picture. -/
def albumFiles : Fragments :=
  [("album.yaml", .obj
    [("Caption", .obj [("type", .str "string")]),
     ("Photo", .obj [("type", .str "string"), ("format", .str "binary")])])]

def album : Workspace := .ofDocument (.ofDefinitions []) albumFiles

/-- A response with a reference as its schema. -/
def answer (path : String) : Document.Response :=
  { description := "", schema := some (.ref path), content := [], headers := [] }

theorem responseSchema?_answer (path : String) :
    album.catalog.responseSchema? (answer path) = some (none, .ref path) := rfl

/-- The format of a schema, and whether it is no file and holds no references. -/
def lookedAt : SchemaNode → Option (Option String × Bool)
  | .ref _ => none
  | .inline schema => some (schema.format, schema.types != some (.one .file) && schema.paths.isEmpty)

/-- A reference into the file leads to a text of some format. -/
theorem places_album (path : String) (format : Option String)
    (read : ((Pointer.within none path).toOption.map fun p =>
        (p.isExternal && (Assoc.get? p.key album.sources.aliases).isNone,
          (album.sources.load SchemaNode.read p).toOption.map lookedAt)) =
      some (true, some (some (format, true)))) :
    ∃ p schema, album.sources.PutsInPlace path p schema ∧ schema.format = format ∧
      schema.types ≠ some (.one .file) := by
  obtain ⟨p, points, facts⟩ := exists_ok_of_map read
  obtain ⟨place, facts⟩ := Prod.mk.inj facts
  obtain ⟨external, unpublished⟩ := Bool.and_eq_true_iff.mp place
  obtain ⟨node, loaded, facts⟩ := exists_ok_of_map facts
  cases node with
  | ref path => cases facts
  | inline schema =>
      obtain ⟨known, facts⟩ := Prod.mk.inj (Option.some.inj facts)
      obtain ⟨noFile, plain⟩ := Bool.and_eq_true_iff.mp facts
      exact ⟨p, schema, ⟨points, external, Option.isNone_iff_eq_none.mp unpublished, loaded,
        List.isEmpty_iff.mp plain⟩, known, bne_iff_ne.mp noFile⟩

end Sample

/-- A text in another file: the response has the type that it has with the text in place. -/
theorem inlined_response_type_caption :
    ∃ p schema t u, Sample.album.sources.PutsInPlace "album.yaml#/Caption" p schema ∧
      Sample.album.responseType "200" (Sample.answer "album.yaml#/Caption") = .ok t ∧
      Sample.album.responseType "200" (Sample.album.catalog.withResponseSchema (.inline schema)
        (Sample.answer "album.yaml#/Caption")) = .ok u ∧
      t.value = .defaultSuccess ∧ t.value = u.value := by
  obtain ⟨p, schema, places, format, noFile⟩ :=
    Sample.places_album "album.yaml#/Caption" none (by decide +kernel)
  obtain ⟨t, u, pointed, standing, default, _, same⟩ :=
    inlined_response_type_iff Sample.album "200"
      (Sample.responseSchema?_answer "album.yaml#/Caption") places
  have text : ¬ schema.IsBinary := by
    rw [Document.Schema.IsBinary, format]
    rintro (binary | file)
    · cases binary
    · exact noFile file
  exact ⟨p, schema, t, u, places, pointed, standing, default, same.mpr text⟩

/-- A picture in another file: the response is taken for one that names no definition, though it is
binary with the picture in place. -/
theorem inlined_photo_differs :
    ∃ p schema t u, Sample.album.sources.PutsInPlace "album.yaml#/Photo" p schema ∧
      Sample.album.responseType "200" (Sample.answer "album.yaml#/Photo") = .ok t ∧
      Sample.album.responseType "200" (Sample.album.catalog.withResponseSchema (.inline schema)
        (Sample.answer "album.yaml#/Photo")) = .ok u ∧
      t.value = .defaultSuccess ∧ u.value = .binary := by
  obtain ⟨p, schema, places, format, _⟩ :=
    Sample.places_album "album.yaml#/Photo" (some "binary") (by decide +kernel)
  have declared := Sample.responseSchema?_answer "album.yaml#/Photo"
  obtain ⟨t, pointed, ofPointer⟩ := Workspace.responseType_of_places "200" declared places
  obtain ⟨u, standing, ofBinary, _⟩ := Workspace.responseType_of_inline "200"
    (Catalog.responseSchema?_withResponseSchema declared (.inline schema))
  exact ⟨p, schema, t, u, places, pointed, standing, ofPointer, ofBinary (Or.inl format)⟩

end ApiCodec
