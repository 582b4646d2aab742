import ApiCodec.Proofs.Emit.Known
import ApiCodec.Proofs.Emit.Resolution
import ApiCodec.Proofs.Files.Writing

set_option autoImplicit false

namespace ApiCodec

open Text (splitOn)

namespace Emit

def ownNames (definitions : Definitions) : List String :=
  (definitions.filter fun entry => entry.2.importFrom.isNone).map Prod.fst

def outputPaths (model : Model) (options : Options) : List String :=
  (ownNames model.definitions).map definitionPath ++
    ((if options.normalized.requestTypes then [requestTypesFile] else []) ++
      if options.client then [clientFile] else [])

theorem path_sources (model : Model) (options : Options) :
    (sources model options).map Source.path = outputPaths model options := by
  have definitions : (definitionSources options.normalized model.definitions).map Source.path =
      (ownNames model.definitions).map definitionPath := by
    rw [definitionSources, ownNames, List.map_map, List.map_map]
    rfl
  have requestTypes : (requestTypesSources options.normalized model).map Source.path =
      if options.normalized.requestTypes then [requestTypesFile] else [] := by
    unfold requestTypesSources
    split <;> rfl
  have client : (clientSources options.normalized model).map Source.path =
      if options.client then [clientFile] else [] := by
    have asked : options.normalized.client = options.client := rfl
    unfold clientSources
    rw [asked]
    split <;> rfl
  rw [sources, List.map_append, List.map_append, definitions, requestTypes, client, outputPaths,
    List.append_assoc]

theorem splitOn_definitionPath (name : String) :
    splitOn '/' (definitionPath name).toList =
      "definitions".toList ::
        (Path.front name.toList ++ [Path.lastSegment name.toList ++ ".ts".toList]) := by
  have plain : '/' ∉ "definitions".toList := by decide
  have ending : '/' ∉ ".ts".toList := by decide
  rw [toList_definitionPath, Text.splitOn_append _ plain, Text.splitOn_append_plain _ ending]
  rfl

theorem isName_fileName (name : String) :
    Path.IsName (Path.lastSegment name.toList ++ ".ts".toList) := by
  apply Path.isName_of_length
  simp

theorem isAbsolute_definitionPath (name : String) :
    Path.isAbsolute (definitionPath name).toList = false := by
  rw [toList_definitionPath]
  rfl

theorem namesFile_definitionPath (name : String) : Path.NamesFile (definitionPath name) := by
  rw [Path.NamesFile, Path.lastSegment, splitOn_definitionPath, ← List.cons_append,
    List.getLastD_concat]
  exact isName_fileName name

/-- Whether the file of a definition is outside of the output directory: whether the name, which
stands in a directory of its own, goes up further than to that. -/
def leadsOut (name : String) : Bool := Path.leaves 1 (Path.front name.toList)

theorem leaves_definitionPath (name : String) :
    Path.leaves 0 (splitOn '/' (definitionPath name).toList) = leadsOut name := by
  have directory : Path.IsName "definitions".toList := by decide
  rw [splitOn_definitionPath, Path.leaves_name directory,
    Path.leaves_append_name _ _ (isName_fileName name)]
  rfl

/-- A name without slashes is the name of a file. -/
theorem normalize_definitionPath {name : String} (plain : '/' ∉ name.toList) :
    Path.normalize (definitionPath name) = definitionPath name := by
  have first : Path.IsName "definitions".toList := by decide
  have split : splitOn '/' (definitionPath name).toList =
      ["definitions".toList, name.toList ++ ".ts".toList] := by
    have one := Text.splitOn_plain plain
    rw [splitOn_definitionPath, Path.front, Path.lastSegment, one]
    rfl
  have last : Path.IsName (name.toList ++ ".ts".toList) := Path.isName_of_length (by simp)
  have names : ∀ segment ∈ ["definitions".toList, name.toList ++ ".ts".toList],
      Path.IsName segment := by
    simp only [List.mem_cons, List.not_mem_nil, or_false]
    rintro segment (rfl | rfl)
    · exact first
    · exact last
  apply String.toList_injective
  rw [Path.normalize, String.toList_ofList, Path.normalizeChars_eq, isAbsolute_definitionPath,
    Path.stackOf, split, Path.foldl_push_names [] names, List.append_nil, Path.written,
    List.reverse_reverse, ← split, Text.intercalate_splitOn]
  rfl

/-- No definition's file leads out of the output directory, and none has the place of another
generated file. -/
structure KeptApart (definitions : Definitions) (o : Options) : Prop where
  inside : ∀ name ∈ ownNames definitions, leadsOut name = false
  distinct : (ownNames definitions).Pairwise fun name other =>
    Path.normalize (definitionPath name) ≠ Path.normalize (definitionPath other)
  requestTypes : o.requestTypes → ∀ name ∈ ownNames definitions,
    Path.normalize (definitionPath name) ≠ requestTypesFile
  client : o.client → ∀ name ∈ ownNames definitions,
    Path.normalize (definitionPath name) ≠ clientFile

theorem mem_outputPaths {model : Model} {options : Options} {p : String}
    (member : p ∈ outputPaths model options) :
    (∃ name ∈ ownNames model.definitions, definitionPath name = p) ∨ p = requestTypesFile ∨
      p = clientFile := by
  unfold outputPaths at member
  rcases List.mem_append.mp member with member | member
  · exact Or.inl (List.mem_map.mp member)
  · rcases List.mem_append.mp member with member | member
    · split at member
      · exact Or.inr (Or.inl (List.mem_singleton.mp member))
      · cases member
    · split at member
      · exact Or.inr (Or.inr (List.mem_singleton.mp member))
      · cases member

theorem relative_outputPaths {model : Model} {options : Options} :
    ∀ p ∈ outputPaths model options, Path.isAbsolute p.toList = false := by
  intro p member
  rcases mem_outputPaths member with ⟨name, _, rfl⟩ | rfl | rfl
  · exact isAbsolute_definitionPath name
  · rfl
  · rfl

theorem namesFile_outputPaths {model : Model} {options : Options} :
    ∀ p ∈ outputPaths model options, Path.NamesFile p := by
  intro p member
  rcases mem_outputPaths member with ⟨name, _, rfl⟩ | rfl | rfl
  · exact namesFile_definitionPath name
  · decide
  · decide

theorem stays_outputPaths_iff {model : Model} {options : Options} :
    (∀ p ∈ outputPaths model options, Path.leaves 0 (splitOn '/' p.toList) = false) ↔
      ∀ name ∈ ownNames model.definitions, leadsOut name = false := by
  constructor
  · intro stays name member
    rw [← leaves_definitionPath]
    exact stays _ (List.mem_append_left _ (List.mem_map_of_mem member))
  · intro stays p member
    rcases mem_outputPaths member with ⟨name, inside, rfl⟩ | rfl | rfl
    · rw [leaves_definitionPath]
      exact stays name inside
    · decide
    · decide

theorem pairwise_outputPaths_iff {model : Model} {options : Options} :
    ((outputPaths model options).Pairwise fun p q => Path.normalize p ≠ Path.normalize q) ↔
      ((ownNames model.definitions).Pairwise fun name other =>
        Path.normalize (definitionPath name) ≠ Path.normalize (definitionPath other)) ∧
      (options.normalized.requestTypes → ∀ name ∈ ownNames model.definitions,
        Path.normalize (definitionPath name) ≠ requestTypesFile) ∧
      (options.client → ∀ name ∈ ownNames model.definitions,
        Path.normalize (definitionPath name) ≠ clientFile) := by
  have requestTypes : Path.normalize requestTypesFile = requestTypesFile := by decide
  have client : Path.normalize clientFile = clientFile := by decide
  have apart : requestTypesFile ≠ clientFile := by decide
  unfold outputPaths
  rw [List.pairwise_append, List.pairwise_map]
  cases options.normalized.requestTypes <;> cases options.client <;>
    simp [requestTypes, client, apart, forall_and]

theorem keptApart_iff {model : Model} {options : Options} :
    ((∀ p ∈ outputPaths model options, Path.leaves 0 (splitOn '/' p.toList) = false) ∧
        (outputPaths model options).Pairwise fun p q => Path.normalize p ≠ Path.normalize q) ↔
      KeptApart model.definitions options.normalized := by
  rw [stays_outputPaths_iff, pairwise_outputPaths_iff]
  constructor
  · rintro ⟨inside, distinct, requestTypes, client⟩
    exact ⟨inside, distinct, requestTypes, client⟩
  · intro apart
    exact ⟨apart.inside, apart.distinct, apart.requestTypes, apart.client⟩

/-- Names without slashes are kept apart. -/
theorem keptApart_of_plain {definitions : Definitions} {o : Options}
    (keys : (Assoc.keys definitions).Nodup)
    (plain : ∀ name ∈ ownNames definitions, '/' ∉ name.toList) : KeptApart definitions o := by
  have nodup : (ownNames definitions).Nodup :=
    keys.sublist (List.filter_sublist.map Prod.fst)
  have inDirectory : ∀ name ∈ ownNames definitions, ∀ other, '/' ∉ other.toList →
      Path.normalize (definitionPath name) ≠ other := by
    intro name member other otherPlain same
    rw [normalize_definitionPath (plain name member)] at same
    refine otherPlain (same ▸ ?_)
    rw [toList_definitionPath]
    exact List.mem_append_right _ List.mem_cons_self
  refine ⟨?_, ?_, ?_, ?_⟩
  · intro name member
    rw [leadsOut, Path.front, Text.splitOn_plain (plain name member)]
    rfl
  · refine nodup.imp_of_mem ?_
    intro name other member member' different same
    rw [normalize_definitionPath (plain name member),
      normalize_definitionPath (plain other member')] at same
    exact different (definitionPath_injective same)
  · exact fun _ name member => inDirectory name member requestTypesFile (by decide)
  · exact fun _ name member => inDirectory name member clientFile (by decide)

section

variable {model : Model} {options : Options}

/-- Generated files have their paths and places from those of the model. -/
theorem map_path_files : ((sources model options).map Source.file).map GeneratedFile.path =
    outputPaths model options := by
  rw [← path_sources, List.map_map]
  rfl

theorem files_keptApart_iff :
    ((∀ output, ∀ file ∈ (sources model options).map Source.file,
          Path.Below output.toList (Files.join output file.path).toList) ∧
        ∀ output, ((sources model options).map Source.file).Pairwise fun file other =>
          Path.normalize (Files.join output file.path) ≠
            Path.normalize (Files.join output other.path)) ↔
      KeptApart model.definitions options.normalized := by
  rw [← keptApart_iff, ← Path.kept_apart_iff relative_outputPaths namesFile_outputPaths,
    ← map_path_files]
  simp only [List.forall_mem_map, List.pairwise_map]

/-- Below the place of a directory, the files of a model have places of their own. -/
theorem placeOf_files (apart : KeptApart model.definitions options.normalized)
    (tree : Files.Tree) (output : String) :
    (∀ file ∈ (sources model options).map Source.file, ∃ below, below ≠ [] ∧
        tree.placeOf (Files.join output file.path) = tree.placeOf output ++ below) ∧
      (((sources model options).map Source.file).map fun file =>
        tree.placeOf (Files.join output file.path)).Nodup := by
  obtain ⟨stays, distinct⟩ := keptApart_iff.mpr apart
  have place : ∀ p ∈ outputPaths model options, tree.placeOf (Files.join output p) =
      tree.placeOf output ++ (Path.stack p.toList).reverse.map String.ofList :=
    fun p member => tree.placeOf_join output (relative_outputPaths p member) (stays p member)
  constructor
  · intro file member
    have inside : file.path ∈ outputPaths model options := by
      rw [← map_path_files]
      exact List.mem_map_of_mem member
    refine ⟨_, ?_, place file.path inside⟩
    have nonempty := Path.stack_ne_nil (namesFile_outputPaths file.path inside)
    simpa using nonempty
  · have places : (((sources model options).map Source.file).map fun file =>
        tree.placeOf (Files.join output file.path)) =
        (outputPaths model options).map fun p => tree.placeOf (Files.join output p) := by
      rw [← map_path_files]
      simp only [List.map_map]
      rfl
    rw [places, List.Nodup, List.pairwise_map]
    refine distinct.imp_of_mem ?_
    intro p q inside inside' different same
    rw [place p inside, place q inside'] at same
    have sameStack : Path.stack p.toList = Path.stack q.toList := by
      have text : Function.Injective String.ofList := fun _ _ => String.ofList_inj.mp
      exact List.reverse_injective (List.map_injective_iff.mpr text (List.append_cancel_left same))
    refine different (String.ofList_inj.mpr (Path.normalizeChars_eq_iff.mpr ⟨?_, sameStack⟩))
    rw [relative_outputPaths p inside, relative_outputPaths q inside']

end

end Emit

open Emit CommandLine

/-- Where generated files are. Each is below every directory that they may be written to, and at a
place of its own, exactly if no definition's name leads out of that directory and no two lead to one
place or to that of the request types or the client; where no definition is declared twice, names
without slashes never do. Then a run that writes the files writes below the directory and nowhere
else, and afterwards each file has its text. -/
theorem files_kept_apart_iff {document : Document} {fragments : Fragments} {model : Model}
    {options : Options} {files : List GeneratedFile}
    (built : Model.ofDocument document fragments = .ok model)
    (success : generate model options = .ok files) :
    (((∀ output, ∀ file ∈ files,
            Path.Below output.toList (Files.join output file.path).toList) ∧
          ∀ output, files.Pairwise fun file other =>
            Path.normalize (Files.join output file.path) ≠
              Path.normalize (Files.join output other.path)) ↔
        KeptApart model.definitions options.normalized) ∧
      ((Assoc.keys (Catalog.ofDocument document).definitions).Nodup →
        (∀ name ∈ ownNames model.definitions, '/' ∉ name.toList) →
        KeptApart model.definitions options.normalized) ∧
      (KeptApart model.definitions options.normalized →
        ∀ output desk result after,
          (files.forM (DryRun.host.writeFile output)).run.run desk = (result, after) →
          (∀ file ∈ files, ∃ below, below ≠ [] ∧
            desk.tree.placeOf (Files.join output file.path) =
              desk.tree.placeOf output ++ below) ∧
          Files.Tree.Writes
            (files.map fun file => desk.tree.placeOf (Files.join output file.path))
            desk.tree after.tree ∧
          (result = .ok () → ∀ file ∈ files,
            after.tree.entry? (desk.tree.placeOf (Files.join output file.path)) =
              some (.file file.content))) := by
  obtain ⟨_, rfl⟩ := generate_eq_ok_iff.mp success
  refine ⟨files_keptApart_iff,
    fun keys => keptApart_of_plain (Model.nodup_keys_of_ofDocument keys built), ?_⟩
  intro apart output desk result after ran
  obtain ⟨below, distinct⟩ := placeOf_files apart desk.tree output
  obtain ⟨writes, texts⟩ := writes_of_forM ran
  exact ⟨below, writes, fun complete => texts complete distinct⟩

def Sample.texts (names : List String) : Document :=
  .ofDefinitions (names.map fun name => (name, .inline (.ofType .string)))

/-- Names with slashes are kept apart if they lead to places of their own below the directory. -/
theorem files_kept_apart_texts :
    ∃ model files, Model.ofDocument (Sample.texts ["pets/Cat", "../Dog"]) [] = .ok model ∧
      generate model { client := true } = .ok files ∧
      KeptApart model.definitions { client := true, requestTypes := true } ∧
      (∀ output, ∀ file ∈ files,
        Path.Below output.toList (Files.join output file.path).toList) ∧
      ∀ output desk after,
        (files.forM (DryRun.host.writeFile output)).run.run desk = (.ok (), after) →
        ∀ file ∈ files, after.tree.entry? (desk.tree.placeOf (Files.join output file.path)) =
          some (.file file.content) := by
  obtain ⟨model, built, names⟩ := exists_ok_of_map
    (x := Model.ofDocument (Sample.texts ["pets/Cat", "../Dog"]) [])
    (f := fun m => ownNames m.definitions) (b := ["pets/Cat", "../Dog"]) (by decide +kernel)
  have success : generate model { client := true } =
      .ok ((sources model { client := true }).map Source.file) :=
    generate_eq_ok_iff.mpr ⟨fun _ => ⟨Or.inl rfl, Or.inl rfl⟩, rfl⟩
  have apart : KeptApart model.definitions (Options.normalized { client := true }) := by
    refine ⟨?_, ?_, fun _ => ?_, fun _ => ?_⟩ <;> rw [names] <;> decide +kernel
  obtain ⟨places, _, written⟩ := files_kept_apart_iff built success
  refine ⟨model, _, built, success, ⟨apart.inside, apart.distinct, ?_, ?_⟩,
    (places.mpr apart).1, ?_⟩
  · exact fun _ => apart.requestTypes rfl
  · exact fun _ => apart.client rfl
  · intro output desk after ran
    exact (written apart output desk (.ok ()) after ran).2.2 rfl

/-- A name may lead out of the directory, and two names to one place. -/
theorem names_lead_out :
    ∃ model files, Model.ofDocument (Sample.texts ["../../escape", "Pet", "./Pet"]) [] = .ok model ∧
      generate model {} = .ok files ∧
      (∃ file ∈ files, ¬ Path.Below "out".toList (Files.join "out" file.path).toList) ∧
      ¬ files.Pairwise fun file other =>
        Path.normalize (Files.join "out" file.path) ≠
          Path.normalize (Files.join "out" other.path) := by
  obtain ⟨model, built, names⟩ := exists_ok_of_map
    (x := Model.ofDocument (Sample.texts ["../../escape", "Pet", "./Pet"]) [])
    (f := fun m => ownNames m.definitions) (b := ["../../escape", "Pet", "./Pet"])
    (by decide +kernel)
  have success : generate model {} = .ok ((sources model {}).map Source.file) :=
    generate_eq_ok_iff.mpr ⟨fun asked => absurd asked (by decide), rfl⟩
  have paths : ((sources model {}).map Source.file).map GeneratedFile.path =
      ["definitions/../../escape.ts", "definitions/Pet.ts", "definitions/./Pet.ts"] := by
    rw [map_path_files, outputPaths, names]
    decide
  refine ⟨model, _, built, success, ?_, ?_⟩
  · have first : "definitions/../../escape.ts" ∈
        ((sources model {}).map Source.file).map GeneratedFile.path := by
      rw [paths]
      exact List.mem_cons_self
    obtain ⟨file, member, path⟩ := List.mem_map.mp first
    refine ⟨file, member, fun below => ?_⟩
    obtain ⟨inner, _, _, same⟩ := below.inside
    -- The path comes to `escape.ts`, which does not begin with the directory.
    have ends := congrArg List.getLast? same
    have bottom : (Path.stack "out".toList).getLast? = some "out".toList := by decide
    rw [path, List.getLast?_append, bottom, Option.some_or] at ends
    revert ends
    decide
  · intro distinct
    have onPaths : (((sources model {}).map Source.file).map GeneratedFile.path).Pairwise
        fun p q => Path.normalize (Files.join "out" p) ≠ Path.normalize (Files.join "out" q) :=
      List.pairwise_map.mpr distinct
    rw [paths] at onPaths
    revert onPaths
    decide +kernel

end ApiCodec
