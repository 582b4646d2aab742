import ApiCodec.CommandLine.DryRun
import ApiCodec.Proofs.Files.Placement

set_option autoImplicit false

namespace ApiCodec

namespace Files.Tree

variable {t t' t'' : Tree} {path content : String}

theorem lookup_map (place : Place) (entry : Entry) (other : Place)
    (entries : List (Place × Entry)) :
    (entries.map fun (key, old) => (key, if key = place then entry else old)).lookup other =
      (entries.lookup other).map fun old => if other = place then entry else old := by
  induction entries with
  | nil => rfl
  | cons first rest ih =>
      obtain ⟨key, old⟩ := first
      rw [List.map_cons, List.lookup_cons, List.lookup_cons, ih]
      by_cases found : other = key
      · subst found
        simp
      · rw [beq_eq_false_iff_ne.mpr found]

theorem any_iff_lookup {entries : List (Place × Entry)} {place : Place} :
    entries.any (·.1 == place) ↔ entries.lookup place ≠ none := by
  rw [ne_eq, List.lookup_eq_none_iff]
  simp only [List.any_eq_true, beq_iff_eq, bne_iff_ne, ne_eq, not_forall, not_not, exists_prop,
    eq_comm (a := place)]

theorem entry?_put (t : Tree) {place : Place} (below : place ≠ []) (entry : Entry)
    (other : Place) :
    entry? (t.put place entry) other = if other = place then some entry else t.entry? other := by
  unfold entry?
  by_cases root : other = []
  · subst root
    rw [if_neg (Ne.symm below)]
    rfl
  · have notRoot : ¬ other.isEmpty = true := by simpa using root
    rw [if_neg notRoot, if_neg notRoot]
    unfold put
    by_cases there : t.entries.any (·.1 == place)
    · rw [if_pos there, lookup_map]
      obtain ⟨old, found⟩ := Option.ne_none_iff_exists'.mp (any_iff_lookup.mp there)
      by_cases same : other = place
      · rw [if_pos same, same, found]
        simp
      · simp [same]
    · have absent : t.entries.lookup place = none := not_not.mp (mt any_iff_lookup.mpr there)
      rw [if_neg there, List.lookup_append]
      by_cases same : other = place
      · subst same
        simp [absent]
      · have elsewhere : [(place, entry)].lookup other = none := by
          rw [List.lookup_cons, beq_eq_false_iff_ne.mpr same]
          rfl
        rw [if_neg same, elsewhere, Option.or_none]

/-- Files were written at some places: elsewhere all that was there is still there, and no file was
made. -/
structure Writes (places : List Place) (t t' : Tree) : Prop where
  workingDirectory : t'.workingDirectory = t.workingDirectory
  kept : ∀ place, place ∉ places → ∀ entry, t.entry? place = some entry →
    t'.entry? place = some entry
  files : ∀ place, place ∉ places → ∀ text, t'.entry? place = some (.file text) →
    t.entry? place = some (.file text)

namespace Writes

variable {places others : List Place}

theorem refl (t : Tree) : Writes [] t t :=
  ⟨rfl, fun _ _ _ same => same, fun _ _ _ same => same⟩

theorem trans (first : Writes places t t') (second : Writes others t' t'') :
    Writes (places ++ others) t t'' where
  workingDirectory := second.workingDirectory.trans first.workingDirectory
  kept place outside entry there := by
    rw [List.mem_append, not_or] at outside
    exact second.kept place outside.2 entry (first.kept place outside.1 entry there)
  files place outside text there := by
    rw [List.mem_append, not_or] at outside
    exact first.files place outside.1 text (second.files place outside.2 text there)

/-- Nothing was written that need not be. -/
theorem mono (writes : Writes places t t') (fewer : places ⊆ others) : Writes others t t' :=
  ⟨writes.workingDirectory,
    fun place outside => writes.kept place fun member => outside (fewer member),
    fun place outside => writes.files place fun member => outside (fewer member)⟩

theorem placeOf (writes : Writes places t t') (path : String) :
    t'.placeOf path = t.placeOf path := by
  unfold Tree.placeOf
  rw [writes.workingDirectory]

theorem of_put {place : Place} (below : place ≠ []) (text : String) :
    Writes [place] t (t.put place (.file text)) where
  workingDirectory := rfl
  kept other outside entry there := by
    rw [entry?_put t below, if_neg (by simpa using outside), there]
  files other outside text there := by
    rwa [entry?_put t below, if_neg (by simpa using outside)] at there

end Writes

theorem writes_of_write (success : t.write path content = .ok t') :
    Writes [t.placeOf path] t t' ∧ t'.entry? (t.placeOf path) = some (.file content) := by
  obtain ⟨below, rfl⟩ := put_of_write success
  exact ⟨Writes.of_put below content, by rw [entry?_put t below, if_pos rfl]⟩

theorem writes_of_makeDirectory (success : t.makeDirectory path = .ok t') : Writes [] t t' := by
  unfold makeDirectory at success
  split at success
  · cases success
  · simp only at success
    split at success
    · cases success
    · split at success
      · cases success
      · split at success
        · cases success
        · split at success
          · cases success
          · rename_i place found
            split at success
            · cases success
            · rename_i free
              have below : place ≠ [] := by
                rw [eq_of_child found]
                simp
              have free : t.entry? place = none := by simpa using free
              rw [← Except.ok.inj success]
              refine ⟨rfl, ?_, ?_⟩
              · intro other _ entry there
                have differs : other ≠ place := by
                  rintro rfl
                  rw [free] at there
                  cases there
                rw [entry?_put t below, if_neg differs, there]
              · intro other _ text there
                rw [entry?_put t below] at there
                split at there
                · cases there
                · exact there

theorem writes_of_ensureDirectory (success : t.ensureDirectory path = .ok t') :
    Writes [] t t' := by
  unfold ensureDirectory at success
  split at success
  · rename_i made
    rw [← Except.ok.inj success]
    exact writes_of_makeDirectory made
  · split at success
    · split at success
      · rw [← Except.ok.inj success]
        exact Writes.refl t
      · cases success
    · cases success

theorem writes_ensureAll (t : Tree) (paths : List String) : Writes [] t (t.ensureAll paths).1 := by
  induction paths with
  | nil => exact Writes.refl t
  | cons path parents ih =>
      unfold ensureAll
      split
      · rename_i made
        exact writes_of_ensureDirectory made
      · split
        · rename_i made
          rw [made] at ih
          exact ih
        · rename_i made
          rw [made] at ih
          split
          · rename_i last
            exact ih.trans (writes_of_ensureDirectory last)
          · exact ih
      · exact Writes.refl t

theorem writes_makeDirectories (t : Tree) (path : String) :
    Writes [] t (t.makeDirectories path).1 :=
  writes_ensureAll t _

end Files.Tree

namespace CommandLine

open Files (Fault Tree)

section

variable {α β : Type}

theorem run_bind (step : Step DryRun α) (next : α → Step DryRun β) (desk : Desk) :
    (step >>= next).run.run desk =
      match step.run.run desk with
      | (.ok a, after) => (next a).run.run after
      | (.error failure, after) => (.error failure, after) := by
  rw [ExceptT.run_bind, StateT.run_bind]
  rcases StateT.run step.run desk with ⟨_ | _, _⟩ <;> rfl

theorem run_attempt (failure : Fault → Failure) (step : DryRun (Except Fault α)) (desk : Desk) :
    (attempt failure step).run.run desk =
      ((step.run desk).1.mapError failure, (step.run desk).2) := by
  unfold attempt
  rw [ExceptT.run_mk, StateT.run_bind]
  rcases step.run desk with ⟨_ | _, _⟩ <;> rfl

end

section

open Files.Tree

variable {directory : String} {desk after : Desk} {result : Except Failure Unit}

theorem writes_of_attempt_makeDirectories {failure : Fault → Failure} {path : String}
    (ran : (attempt failure (DryRun.host.makeDirectories path)).run.run desk = (result, after)) :
    Writes [] desk.tree after.tree := by
  rw [run_attempt] at ran
  rw [← (Prod.mk.inj ran).2]
  exact writes_makeDirectories desk.tree path

theorem writes_of_attempt_write {failure : Fault → Failure} {path content : String}
    (ran : (attempt failure (DryRun.host.write path content)).run.run desk = (result, after)) :
    Writes [desk.tree.placeOf path] desk.tree after.tree ∧
      (result = .ok () →
        after.tree.entry? (desk.tree.placeOf path) = some (.file content)) := by
  rw [run_attempt] at ran
  cases written : desk.tree.write path content with
  | ok tree =>
      have step : (DryRun.host.write path content).run desk = (.ok (), { desk with tree }) := by
        simp [DryRun.host, DryRun.change, written]
        rfl
      rw [step] at ran
      obtain ⟨_, rfl⟩ := Prod.mk.inj ran
      obtain ⟨writes, there⟩ := writes_of_write written
      exact ⟨writes, fun _ => there⟩
  | error fault =>
      have step : (DryRun.host.write path content).run desk = (.error fault, desk) := by
        simp [DryRun.host, DryRun.change, written]
        rfl
      rw [step] at ran
      obtain ⟨rfl, rfl⟩ := Prod.mk.inj ran
      exact ⟨(Writes.refl _).mono (List.nil_subset _), by rintro ⟨⟩⟩

/-- A file is written at its place, unless the run ends before that. -/
theorem writes_of_writeFile {file : Emit.GeneratedFile}
    (ran : (DryRun.host.writeFile directory file).run.run desk = (result, after)) :
    Writes [desk.tree.placeOf (Files.join directory file.path)] desk.tree after.tree ∧
      (result = .ok () →
        after.tree.entry? (desk.tree.placeOf (Files.join directory file.path)) =
          some (.file file.content)) := by
  unfold Host.writeFile at ran
  simp only at ran
  split at ran
  · rw [run_bind] at ran
    split at ran
    · rename_i _ middle made
      have directories := writes_of_attempt_makeDirectories made
      have written := writes_of_attempt_write ran
      rw [directories.placeOf] at written
      exact ⟨directories.trans written.1, written.2⟩
    · rename_i _ failure middle made
      obtain ⟨rfl, rfl⟩ := Prod.mk.inj ran
      exact ⟨(writes_of_attempt_makeDirectories made).mono (List.nil_subset _),
        by rintro ⟨⟩⟩
  · exact writes_of_attempt_write ran

/-- A run of files writes at their places only, also where it is refused; afterwards each file has
its text if no two have one place. -/
theorem writes_of_forM {files : List Emit.GeneratedFile}
    (ran : (files.forM (DryRun.host.writeFile directory)).run.run desk = (result, after)) :
    Writes (files.map fun file => desk.tree.placeOf (Files.join directory file.path))
        desk.tree after.tree ∧
      (result = .ok () →
        (files.map fun file => desk.tree.placeOf (Files.join directory file.path)).Nodup →
        ∀ file ∈ files, after.tree.entry? (desk.tree.placeOf (Files.join directory file.path)) =
          some (.file file.content)) := by
  induction files generalizing desk with
  | nil =>
      obtain ⟨_, rfl⟩ := Prod.mk.inj ran
      exact ⟨Writes.refl _, fun _ _ _ member => absurd member List.not_mem_nil⟩
  | cons first rest ih =>
      have steps : (first :: rest).forM (DryRun.host.writeFile directory) =
          DryRun.host.writeFile directory first >>= fun _ =>
            rest.forM (DryRun.host.writeFile directory) := rfl
      rw [steps, run_bind] at ran
      split at ran
      · rename_i _ middle made
        obtain ⟨here, own⟩ := writes_of_writeFile made
        obtain ⟨others, texts⟩ := ih ran
        simp only [here.placeOf] at others texts
        refine ⟨here.trans others, ?_⟩
        intro success distinct
        obtain ⟨apart, distinct⟩ := List.nodup_cons.mp distinct
        refine List.forall_mem_cons.mpr ⟨?_, texts success distinct⟩
        -- What is written later is elsewhere, so that the file is kept.
        exact others.kept _ apart _ (own rfl)
      · rename_i _ failure middle made
        obtain ⟨rfl, rfl⟩ := Prod.mk.inj ran
        exact ⟨(writes_of_writeFile made).1.mono (by simp), by rintro ⟨⟩⟩

end

end CommandLine

end ApiCodec
