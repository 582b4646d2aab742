import ApiCodec.Proofs.Bundle.Ending
import ApiCodec.Proofs.Files.Lookup
import ApiCodec.Proofs.Reading.ReferenceText
import Mathlib.Data.Finset.Prod
import Mathlib.Data.Set.Finite.Range

set_option autoImplicit false

/-!
Loading from a file system in which paths may have any length. A file is kept under its path from
the document, so one that leads back to itself by way of the root, under a path with more `..`, is
loaded again and again; `bundling_ends_iff` says that nothing else keeps loading from its end.
-/

namespace ApiCodec

open Relation (TransGen)

/-- A value has a reference with a file name, or without one; those to other hosts do not count. -/
def Json.Links (value : Json) (target : Option String) : Prop :=
  ∃ path, value.Mentions path ∧ Text.contains "://" path = false ∧
    ∃ p, Pointer.parse path = .ok p ∧ p.file = target

theorem refersTo_iff {base : Option String} {value : Json} {file : String} :
    RefersTo base value file ↔
      ∃ target, value.Links target ∧ Pointer.anchor target base = some file := by
  constructor
  · rintro ⟨path, mentions, near, p, parsed, leads⟩
    exact ⟨p.file, ⟨path, mentions, near, p, parsed, rfl⟩, leads⟩
  · rintro ⟨_, ⟨path, mentions, near, p, parsed, rfl⟩, leads⟩
    exact ⟨path, mentions, near, p, parsed, leads⟩

theorem refersTo_reference {base : Option String} {target file : String} {p : Pointer}
    (near : Text.contains "://" target = false) (parsed : Pointer.parse target = .ok p) :
    RefersTo base (Json.reference target) file ↔ Pointer.anchor p.file base = some file := by
  have leads : targetFile? base target = Pointer.anchor p.file base := by
    rw [targetFile?, if_neg (ne_true_of_eq_false near), parsed]
    rfl
  rw [← mem_targetFiles_iff, ← leads]
  simp [targetFiles, Json.reference, Json.references, fieldReferences]

namespace Bundle

section

variable {ε : Type} {load : String → Except ε Json} {root : Json} {file next : String}

theorem Leads.exists_anchor (leads : Leads load file next) :
    ∃ value target, load file = .ok value ∧ value.Links target ∧
      Pointer.anchor target (some file) = some next := by
  obtain ⟨value, loaded, refers⟩ := leads
  obtain ⟨target, links, anchored⟩ := refersTo_iff.mp refers
  exact ⟨value, target, loaded, links, anchored⟩

theorem Needs.isResolved (needed : Needs load root file) : Path.IsResolved file := by
  induction needed with
  | root refers =>
      obtain ⟨target, _, anchored⟩ := refersTo_iff.mp refers
      cases target with
      | none => cases anchored
      | some target =>
          cases Option.some.inj anchored
          exact Path.isResolved_normalize target
  | file _ _ refers ih =>
      obtain ⟨target, _, anchored⟩ := refersTo_iff.mp refers
      cases target with
      | none =>
          cases Option.some.inj anchored
          exact ih
      | some target =>
          cases Option.some.inj anchored
          exact Path.isResolved_joinRelative _ target

/-- No reference leads from an absolute path to a relative one. -/
theorem Leads.relative (leads : Leads load file next)
    (relative : Path.isAbsolute next.toList = false) : Path.isAbsolute file.toList = false := by
  obtain ⟨_, target, _, _, anchored⟩ := leads.exists_anchor
  cases target with
  | none =>
      cases Option.some.inj anchored
      exact relative
  | some target =>
      cases Option.some.inj anchored
      rw [Path.isAbsolute_joinRelative, Bool.or_eq_false_iff] at relative
      exact relative.2

theorem Leads.ups_le (leads : Leads load file next) (named : Path.NamesFile file)
    (relative : Path.isAbsolute next.toList = false) : Path.ups file ≤ Path.ups next := by
  have fileRelative := leads.relative relative
  obtain ⟨_, target, _, _, anchored⟩ := leads.exists_anchor
  cases target with
  | none =>
      cases Option.some.inj anchored
      exact Nat.le_refl _
  | some target =>
      cases Option.some.inj anchored
      rw [Path.isAbsolute_joinRelative, Bool.or_eq_false_iff] at relative
      exact Path.ups_le_ups_joinRelative fileRelative relative.1 named

/-- What holds a value is led on alike from further up. -/
theorem Leads.climbed (leads : Leads load file next) (resolved : Path.IsResolved file)
    (named : Path.NamesFile file) (relative : Path.isAbsolute next.toList = false) {n : Nat}
    (alike : ∀ value, load file = .ok value → load (Path.climbed n file) = .ok value) :
    Leads load (Path.climbed n file) (Path.climbed n next) := by
  have fileRelative := leads.relative relative
  obtain ⟨value, target, loaded, links, anchored⟩ := leads.exists_anchor
  refine ⟨value, alike value loaded, refersTo_iff.mpr ⟨target, links, ?_⟩⟩
  cases target with
  | none =>
      cases Option.some.inj anchored
      rfl
  | some target =>
      cases Option.some.inj anchored
      rw [Path.isAbsolute_joinRelative, Bool.or_eq_false_iff] at relative
      exact congrArg some (Path.joinRelative_climbed fileRelative relative.1 resolved named n)

end

end Bundle

namespace Files.Tree

variable {t : Tree}

/-- The value of the file that a path leads to, however long the path is. -/
def document (t : Tree) (path : String) : Except BundleError Json :=
  readDocument path (t.fetch path)

theorem document_eq_ok_iff {path : String} {value : Json} :
    t.document path = .ok value ↔
      ∃ text, t.fetch path = .ok text ∧ (TextFormat.ofPath path).read text = .ok value := by
  unfold document readDocument
  cases t.fetch path with
  | error fault => simp
  | ok text =>
      cases read : (TextFormat.ofPath path).read text with
      | error cause => simp [read]
      | ok found => simp [read]

theorem document_reference {path target : String}
    (found : t.fetch path = .ok (Json.reference target).compact) (json : Files.isJson path)
    (plain : Json.ArePlain target.toList) :
    t.document path = .ok (Json.reference target) := by
  refine document_eq_ok_iff.mpr ⟨_, found, ?_⟩
  rw [TextFormat.ofPath, if_pos json, TextFormat.read, Json.read?_compact_reference plain]

theorem namesFile_of_document (rooted : t.Rooted) {directory file : String} {value : Json}
    (loaded : t.document (Files.join directory file) = .ok value) : Path.NamesFile file := by
  obtain ⟨text, read, _⟩ := document_eq_ok_iff.mp loaded
  have named := namesFile_of_fetch rooted read
  unfold Path.NamesFile Files.join at named
  rw [String.toList_ofList, Path.lastSegment_join] at named
  exact named

theorem document_climbed {directory file : String} (resolved : Path.IsResolved file)
    (relative : Path.isAbsolute file.toList = false) (named : Path.NamesFile file)
    (high : (t.placeOf directory).length ≤ Path.ups file) (n : Nat) (value : Json) :
    t.document (Files.join directory (Path.climbed n file)) = .ok value ↔
      t.document (Files.join directory file) = .ok value := by
  have last : ∀ path, Path.lastSegment (Files.join directory path).toList =
      Path.lastSegment path.toList := by
    intro path
    rw [Files.join, String.toList_ofList, Path.lastSegment_join]
  have joined : Path.NamesFile (Files.join directory file) := by
    unfold Path.NamesFile
    rw [last]
    exact named
  have format : TextFormat.ofPath (Files.join directory (Path.climbed n file)) =
      TextFormat.ofPath (Files.join directory file) := by
    unfold TextFormat.ofPath
    rw [isJson_congr joined]
    rw [last, last, Path.lastSegment_climbed relative resolved named]
  rw [document_eq_ok_iff, document_eq_ok_iff, fetch_climbed resolved relative named high, format]

end Files.Tree

namespace Bundle

open Files (Tree)

/-- Some needed file refers to itself, directly or through others, by a path with more `..`: both
paths lead to one place, since the root is reached before the last `..` is taken. -/
def ClimbsRound (t : Tree) (path : String) (root : Json) : Prop :=
  ∃ file n, 0 < n ∧ Needs (t.document ∘ place path) root file ∧
    TransGen (Leads (t.document ∘ place path)) file (Path.climbed n file) ∧
    t.seek (place path (Path.climbed n file)) = t.seek (place path file)

/-- How far below the root the directory of the document is. -/
def depth (t : Tree) (path : String) : Nat := (t.placeOf ((Files.parent? path).getD "")).length

section

variable {t : Tree} {path file other : String} {root : Json}

theorem Leads.exists_document (leads : Leads (t.document ∘ place path) file other) :
    ∃ value, t.document (place path file) = .ok value := by
  obtain ⟨value, loaded, _⟩ := leads
  rw [Function.comp_apply] at loaded
  exact ⟨value, loaded⟩

theorem Leads.named (rooted : t.Rooted) (leads : Leads (t.document ∘ place path) file other) :
    Path.NamesFile file := by
  obtain ⟨value, loaded⟩ := leads.exists_document
  unfold place at loaded
  exact Files.Tree.namesFile_of_document rooted loaded

theorem relative_of_leadsTo {ε : Type} {load : String → Except ε Json}
    (leads : TransGen (Leads load) file other) (relative : Path.isAbsolute other.toList = false) :
    Path.isAbsolute file.toList = false := by
  induction leads with
  | single first => exact first.relative relative
  | tail _ last ih => exact ih (last.relative relative)

theorem ups_le_of_leadsTo (rooted : t.Rooted)
    (leads : TransGen (Leads (t.document ∘ place path)) file other)
    (relative : Path.isAbsolute other.toList = false) : Path.ups file ≤ Path.ups other := by
  induction leads with
  | single first => exact first.ups_le (first.named rooted) relative
  | tail _ last ih =>
      exact Nat.le_trans (ih (last.relative relative)) (last.ups_le (last.named rooted) relative)

theorem document_place_climbed (resolved : Path.IsResolved file)
    (relative : Path.isAbsolute file.toList = false) (named : Path.NamesFile file)
    (high : depth t path ≤ Path.ups file) (n : Nat) (value : Json) :
    (t.document ∘ place path) (Path.climbed n file) = .ok value ↔
      (t.document ∘ place path) file = .ok value := by
  rw [Function.comp_apply, Function.comp_apply, place, place]
  exact Files.Tree.document_climbed resolved relative named high n value

/-- A reference that is followed from as far up as the root is, is followed from further up too. -/
theorem Leads.climbed_of_high (rooted : t.Rooted)
    (needed : Needs (t.document ∘ place path) root file)
    (leads : Leads (t.document ∘ place path) file other)
    (relative : Path.isAbsolute other.toList = false) (high : depth t path ≤ Path.ups file)
    (n : Nat) :
    Leads (t.document ∘ place path) (Path.climbed n file) (Path.climbed n other) := by
  have named := leads.named rooted
  have fileRelative := leads.relative relative
  have alike : ∀ value, (t.document ∘ place path) file = .ok value →
      (t.document ∘ place path) (Path.climbed n file) = .ok value := fun value =>
    (document_place_climbed needed.isResolved fileRelative named high n value).mpr
  exact leads.climbed needed.isResolved named relative alike

theorem leadsTo_climbed (rooted : t.Rooted) (needed : Needs (t.document ∘ place path) root file)
    (leads : TransGen (Leads (t.document ∘ place path)) file other)
    (relative : Path.isAbsolute other.toList = false) (high : depth t path ≤ Path.ups file)
    (n : Nat) :
    TransGen (Leads (t.document ∘ place path)) (Path.climbed n file) (Path.climbed n other) := by
  induction leads with
  | single first => exact .single (first.climbed_of_high rooted needed relative high n)
  | tail before last ih =>
      have midRelative := last.relative relative
      have higher := Nat.le_trans high (ups_le_of_leadsTo rooted before midRelative)
      have further := last.climbed_of_high rooted (needed.leadsTo before) relative higher n
      exact (ih midRelative).tail further

/-- What tells a loaded file from those that it leads to. -/
def codeOf (t : Tree) (path file : String) : Bool × Nat × Files.Place :=
  (Path.isAbsolute file.toList, min (Path.ups file) (depth t path), t.placeOf (place path file))

@[irreducible]
def codes (t : Tree) (path : String) : Finset (Bool × Nat × Files.Place) :=
  Finset.univ ×ˢ Finset.range (depth t path + 1) ×ˢ (t.entries.map Prod.fst).toFinset

theorem Leads.placeOf_mem (leads : Leads (t.document ∘ place path) file other) :
    t.placeOf (place path file) ∈ t.entries.map Prod.fst := by
  obtain ⟨value, loaded⟩ := leads.exists_document
  obtain ⟨text, read, _⟩ := Files.Tree.document_eq_ok_iff.mp loaded
  exact Files.Tree.placeOf_mem_of_fetch read

theorem codeOf_mem (leads : Leads (t.document ∘ place path) file other) :
    codeOf t path file ∈ codes t path := by
  have there := leads.placeOf_mem
  have low : min (Path.ups file) (depth t path) < depth t path + 1 :=
    Nat.lt_succ_of_le (Nat.min_le_right _ _)
  unfold codeOf codes
  rw [Finset.mem_product, Finset.mem_product]
  exact ⟨Finset.mem_univ _, Finset.mem_range.mpr low, List.mem_toFinset.mpr there⟩

/-- Only climbing round leads from a loaded file to another one with its code. -/
theorem eq_of_codeOf (rooted : t.Rooted) (flat : ¬ ClimbsRound t path root)
    (needed : Needs (t.document ∘ place path) root file)
    (leads : TransGen (Leads (t.document ∘ place path)) file other) {next : String}
    (further : Leads (t.document ∘ place path) other next)
    (same : codeOf t path other = codeOf t path file) : other = file := by
  obtain ⟨root, same⟩ := Prod.mk.inj same
  obtain ⟨level, there⟩ := Prod.mk.inj same
  have resolved := needed.isResolved
  have otherResolved := (needed.leadsTo leads).isResolved
  have named : Path.NamesFile file := by
    obtain ⟨_, first, _⟩ := TransGen.head'_iff.mp leads
    exact first.named rooted
  have otherNamed := further.named rooted
  by_cases absolute : Path.isAbsolute file.toList
  · have otherAbsolute : Path.isAbsolute other.toList := root.trans absolute
    rw [place, place, Files.join, Files.join, Path.joinChars_of_absolute _ absolute,
      Path.joinChars_of_absolute _ otherAbsolute, String.ofList_toList, String.ofList_toList]
      at there
    exact Files.Tree.eq_of_placeOf_absolute resolved otherResolved absolute otherAbsolute there
  · have relative : Path.isAbsolute file.toList = false := eq_false_of_ne_true absolute
    have otherRelative : Path.isAbsolute other.toList = false := root.trans relative
    have le := ups_le_of_leadsTo rooted leads otherRelative
    have climbed : other = Path.climbed (Path.ups other - Path.ups file) file :=
      Files.Tree.eq_climbed_of_placeOf resolved otherResolved relative otherRelative named
        otherNamed there level le
    by_cases equal : Path.ups other = Path.ups file
    · rw [equal, Nat.sub_self, Path.climbed_zero resolved] at climbed
      exact climbed
    · -- More ways up at one level: the root was reached before, so the file climbs round.
      have more : 0 < Path.ups other - Path.ups file := by omega
      have high : depth t path ≤ Path.ups file := by omega
      have alike : t.seek (place path (Path.climbed (Path.ups other - Path.ups file) file)) =
          t.seek (place path file) :=
        Files.Tree.seek_climbed resolved relative named high _
      exact absurd ⟨file, _, more, needed, climbed ▸ leads, alike⟩ flat

theorem finite_of_not_climbsRound (rooted : t.Rooted) (flat : ¬ ClimbsRound t path root) :
    {file | Needs (t.document ∘ place path) root file}.Finite := by
  have coded : ∀ file next, Needs (t.document ∘ place path) root file →
      Leads (t.document ∘ place path) file next → codeOf t path file ∈ codes t path :=
    fun _ _ _ leads => codeOf_mem leads
  apply finite_needs coded
  intro file other next needed leads further same
  exact eq_of_codeOf rooted flat needed leads further same

/-- A file that climbs round is needed under paths with ever more `..`. -/
theorem infinite_of_climbsRound (rooted : t.Rooted) (climbs : ClimbsRound t path root) :
    {file | Needs (t.document ∘ place path) root file}.Infinite := by
  obtain ⟨file, n, positive, needed, leads, alike⟩ := climbs
  have resolved := needed.isResolved
  obtain ⟨next, first, _⟩ := TransGen.head'_iff.mp leads
  have named := first.named rooted
  have relative : Path.isAbsolute file.toList = false :=
    relative_of_leadsTo leads (Path.isAbsolute_climbed_of_pos positive file)
  have high : depth t path ≤ Path.ups file := by
    obtain ⟨value, loaded⟩ := first.exists_document
    obtain ⟨text, read, _⟩ := Files.Tree.document_eq_ok_iff.mp loaded
    obtain ⟨_, _, here, found, _⟩ := Files.Tree.fetch_eq_ok_iff.mp read
    have there := Files.Tree.placeOf_of_seek found
    have above := Files.Tree.placeOf_of_seek (alike.trans found)
    exact Files.Tree.high_of_placeOf resolved relative named positive (above.trans there.symm)
  have each : ∀ k, Needs (t.document ∘ place path) root (Path.climbed (k * n) file) := by
    intro k
    induction k with
    | zero => rwa [Nat.zero_mul, Path.climbed_zero resolved]
    | succ k ih =>
        have round := leadsTo_climbed rooted needed leads
          (Path.isAbsolute_climbed relative n) high (k * n)
        rw [Path.climbed_climbed relative, Nat.add_comm, ← Nat.succ_mul] at round
        exact ih.leadsTo round
  apply Set.infinite_of_injective_forall_mem (f := fun k => Path.climbed (k * n) file) _ each
  intro k l same
  have count := congrArg Path.ups same
  rw [Path.ups_climbed relative, Path.ups_climbed relative] at count
  exact Nat.eq_of_mul_eq_mul_right positive (Nat.add_left_cancel count)

/-- Nothing is left out: if all that is needed can be loaded, climbing round goes on at any limit. -/
theorem load_eq_none_of_climbsRound (rooted : t.Rooted) (opened : t.document path = .ok root)
    (given : ∀ file, Needs (t.document ∘ place path) root file →
      ∃ value, t.document (place path file) = .ok value)
    (climbs : ClimbsRound t path root) (limit : Nat) : load t.document limit path = .ok none := by
  by_contra ends
  exact infinite_of_climbsRound rooted climbs (finite_needs_of_ne_none opened given ends)

end

/-- Whether loading from a tree without a limit on the length of paths ends. The document needs
finitely many files exactly if none of them climbs round, and then loading comes to a result; if
moreover all that it needs can be loaded, it comes to the document with its files then, and to no
end otherwise. Short paths are looked up as usual. -/
theorem bundling_ends_iff (t : Tree) (rooted : t.Rooted) (path : String) (root : Json)
    (opened : t.document path = .ok root) :
    ({file | Needs (t.document ∘ place path) root file}.Finite ↔ ¬ ClimbsRound t path root) ∧
      (¬ ClimbsRound t path root → ∃ result, Returns t.document path result) ∧
      ((∀ file, Needs (t.document ∘ place path) root file →
          ∃ value, t.document (place path file) = .ok value) →
        (¬ ClimbsRound t path root → ∃ b, Returns t.document path (.ok b)) ∧
          (ClimbsRound t path root → ∀ limit, load t.document limit path = .ok none)) ∧
      ∀ file : String, file.utf8ByteSize ≤ Files.longestPath →
        t.document file = readDocument file (t.read file) := by
  have finite_iff : {file | Needs (t.document ∘ place path) root file}.Finite ↔
      ¬ ClimbsRound t path root :=
    ⟨fun finite climbs => infinite_of_climbsRound rooted climbs finite,
      finite_of_not_climbsRound rooted⟩
  have returns : ¬ ClimbsRound t path root → ∃ result, Returns t.document path result :=
    fun flat => exists_returns opened (finite_iff.mpr flat)
  refine ⟨finite_iff, returns, fun given => ⟨?_, ?_⟩, ?_⟩
  · intro flat
    obtain ⟨result, comes⟩ := returns flat
    obtain ⟨b, rfl⟩ := returns_ok_of_given opened given comes
    exact ⟨b, comes⟩
  · exact load_eq_none_of_climbsRound rooted opened given
  · intro file short
    rw [Files.Tree.document, Files.Tree.fetch_eq_read short]

/-- Two files that refer to each other by way of the directory above. -/
def Sample.shelf : Tree where
  entries :=
    [(["home"], .directory),
     (["home", "a.json"], .file (Json.reference "../home/b.json").compact),
     (["home", "b.json"], .file (Json.reference "../home/a.json").compact)]
  workingDirectory := ["home"]

theorem document_shelf_a :
    (Sample.shelf.document ∘ place "a.json") "../home/a.json" =
      .ok (Json.reference "../home/b.json") :=
  Files.Tree.document_reference (by decide) (by decide) (by decide)

theorem document_shelf_b :
    (Sample.shelf.document ∘ place "a.json") "../home/b.json" =
      .ok (Json.reference "../home/a.json") :=
  Files.Tree.document_reference (by decide) (by decide) (by decide)

theorem mem_of_needs_shelf {file : String}
    (needed : Needs (Sample.shelf.document ∘ place "a.json") (Json.reference "../home/b.json")
      file) :
    file = "../home/a.json" ∨ file = "../home/b.json" := by
  have toFirst : ∀ base file, RefersTo base (Json.reference "../home/a.json") file →
      Pointer.anchor (some "../home/a.json") base = some file := fun _ _ =>
    (refersTo_reference (by decide) (p := ⟨some "../home/a.json", .other, "", "a", ""⟩)
      (by decide)).mp
  have toSecond : ∀ base file, RefersTo base (Json.reference "../home/b.json") file →
      Pointer.anchor (some "../home/b.json") base = some file := fun _ _ =>
    (refersTo_reference (by decide) (p := ⟨some "../home/b.json", .other, "", "b", ""⟩)
      (by decide)).mp
  induction needed with
  | root refers => exact Or.inr (Option.some.inj (toSecond _ _ refers).symm)
  | file _ loaded refers ih =>
      rcases ih with rfl | rfl
      · cases Except.ok.inj (document_shelf_a.symm.trans loaded)
        exact Or.inr (Option.some.inj (toSecond _ _ refers).symm)
      · cases Except.ok.inj (document_shelf_b.symm.trans loaded)
        exact Or.inl (Option.some.inj (toFirst _ _ refers).symm)

/-- The document is needed under a path of its own, and that is where it ends. -/
theorem bundling_ends_on_shelf :
    Sample.shelf.Rooted ∧
      Sample.shelf.document "a.json" = .ok (Json.reference "../home/b.json") ∧
      ¬ ClimbsRound Sample.shelf "a.json" (Json.reference "../home/b.json") ∧
      ∃ b, Returns Sample.shelf.document "a.json" (.ok b) := by
  have rooted : Sample.shelf.Rooted := Files.Tree.rooted_of_entries (by decide)
  have opened : Sample.shelf.document "a.json" = .ok (Json.reference "../home/b.json") :=
    Files.Tree.document_reference (by decide) (by decide) (by decide)
  have finite : {file | Needs (Sample.shelf.document ∘ place "a.json")
      (Json.reference "../home/b.json") file}.Finite :=
    (Set.toFinite {"../home/a.json", "../home/b.json"}).subset fun _ => mem_of_needs_shelf
  obtain ⟨finite_iff, _, ends, _⟩ := bundling_ends_iff Sample.shelf rooted "a.json" _ opened
  have flat := finite_iff.mp finite
  refine ⟨rooted, opened, flat, (ends fun file needed => ?_).1 flat⟩
  rcases mem_of_needs_shelf needed with rfl | rfl
  · exact ⟨_, document_shelf_a⟩
  · exact ⟨_, document_shelf_b⟩

/-- A file at the root that refers to itself as if it were one directory up. -/
def Sample.alone : Tree where
  entries := [(["a.json"], .file (Json.reference "../a.json").compact)]
  workingDirectory := []

theorem refersTo_alone {base : Option String} {file : String} :
    RefersTo base (Json.reference "../a.json") file ↔
      Pointer.anchor (some "../a.json") base = some file :=
  refersTo_reference (by decide) (p := ⟨some "../a.json", .other, "", "a", ""⟩) (by decide)

theorem isResolved_alone : Path.IsResolved "../a.json" :=
  (by decide : Path.normalize "../a.json" = "../a.json")

theorem document_alone (n : Nat) :
    (Sample.alone.document ∘ place "a.json") (Path.climbed n "../a.json") =
      .ok (Json.reference "../a.json") := by
  have above : (Sample.alone.document ∘ place "a.json") "../a.json" =
      .ok (Json.reference "../a.json") :=
    Files.Tree.document_reference (by decide) (by decide) (by decide)
  exact (document_place_climbed isResolved_alone (by decide) (by decide)
    (by decide) n _).mpr above

/-- The reference leads from each of the paths to the one with one more `..`. -/
theorem joinRelative_alone (n : Nat) :
    Path.joinRelative (Path.climbed n "../a.json") "../a.json" =
      Path.climbed (n + 1) "../a.json" := by
  have relative : Path.isAbsolute "../a.json".toList = false := by decide
  have first : Path.joinRelative "../a.json" "../a.json" = Path.climbed 1 "../a.json" := by
    decide
  rw [Path.joinRelative_climbed relative relative isResolved_alone (by decide), first,
    Path.climbed_climbed relative, Nat.add_comm]

theorem exists_climbed_of_needs_alone {file : String}
    (needed : Needs (Sample.alone.document ∘ place "a.json") (Json.reference "../a.json") file) :
    ∃ n, file = Path.climbed n "../a.json" := by
  induction needed with
  | root leads =>
      refine ⟨0, ?_⟩
      rw [Path.climbed_zero isResolved_alone]
      exact (Option.some.inj (refersTo_alone.mp leads)).symm.trans isResolved_alone
  | file _ loaded leads ih =>
      obtain ⟨n, rfl⟩ := ih
      cases Except.ok.inj ((document_alone n).symm.trans loaded)
      exact ⟨n + 1,
        (Option.some.inj (refersTo_alone.mp leads)).symm.trans (joinRelative_alone n)⟩

theorem climbsRound_alone : ClimbsRound Sample.alone "a.json" (Json.reference "../a.json") := by
  have start : Path.climbed 0 "../a.json" = "../a.json" := Path.climbed_zero isResolved_alone
  have here := document_alone 0
  have next := joinRelative_alone 0
  rw [start] at here next
  refine ⟨"../a.json", 1, Nat.one_pos, .root (refersTo_alone.mpr ?_), .single ⟨_, here, ?_⟩, ?_⟩
  · exact congrArg some isResolved_alone
  · exact refersTo_alone.mpr (congrArg some next)
  · decide

/-- All that is needed can be loaded, and there is always more of it. -/
theorem loads_itself_forever :
    Sample.alone.Rooted ∧
      Sample.alone.document "a.json" = .ok (Json.reference "../a.json") ∧
      (∀ limit, load Sample.alone.document limit "a.json" = .ok none) ∧
      ¬ ∃ result, Returns Sample.alone.document "a.json" result := by
  have rooted : Sample.alone.Rooted := Files.Tree.rooted_of_entries (by decide)
  have opened : Sample.alone.document "a.json" = .ok (Json.reference "../a.json") :=
    Files.Tree.document_reference (by decide) (by decide) (by decide)
  have given : ∀ file, Needs (Sample.alone.document ∘ place "a.json") (Json.reference "../a.json")
      file → ∃ value, Sample.alone.document (place "a.json" file) = .ok value := by
    intro file needed
    obtain ⟨n, rfl⟩ := exists_climbed_of_needs_alone needed
    have loaded := document_alone n
    rw [Function.comp_apply] at loaded
    exact ⟨_, loaded⟩
  have endless := load_eq_none_of_climbsRound rooted opened given climbsRound_alone
  refine ⟨rooted, opened, endless, ?_⟩
  rintro ⟨result, limit, ends⟩
  have both := (endless limit).symm.trans (ends limit (Nat.le_refl limit))
  cases result with
  | error _ => cases both
  | ok _ => cases both

end Bundle

end ApiCodec
