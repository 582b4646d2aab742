import ApiCodec.Proofs.Bundle.Needs
import ApiCodec.Proofs.Flatten.Run
import Mathlib.Data.List.Nodup
import Mathlib.Data.List.Perm.Subperm

set_option autoImplicit false

namespace ApiCodec.Bundle

variable {ε : Type}

/-- Where a file that the document at a path refers to is looked up. -/
def place (path file : String) : String := Files.join ((Files.parent? path).getD "") file

/-- A loader that keeps the paths it is asked for. -/
def logged (loader : String → Except ε Json) (path : String) :
    StateT (List String) (Except ε) Json := do
  modify (· ++ [path])
  loader path

section

variable {load : String → Except ε Json} {root : Json}

structure Appends (load : String → Except ε Json) (before after : Progress) (files : List String)
    (added : Fragments) : Prop where
  fragments : after.fragments = before.fragments ++ added
  pending : after.pending =
    (added.map fun entry => (some entry.1, entry.2)).reverse ++ before.pending
  loaded : ∀ entry ∈ added, load entry.1 = .ok entry.2
  keys : Assoc.keys added ⊆ files
  nodup : (Assoc.keys before.fragments).Nodup → (Assoc.keys after.fragments).Nodup

theorem keys_append (first second : Fragments) :
    Assoc.keys (first ++ second) = Assoc.keys first ++ Assoc.keys second :=
  List.map_append

theorem exists_appends {files : List String} {before after : Progress}
    (success : loadFiles load before files = .ok after) :
    ∃ added, Appends load before after files added := by
  induction files generalizing before with
  | nil =>
      cases Except.ok.inj success
      exact ⟨[], by simp, by simp, by simp, by simp [Assoc.keys], id⟩
  | cons file rest ih =>
      simp only [loadFiles] at success
      by_cases known : Assoc.has file before.fragments
      · rw [if_pos known] at success
        obtain ⟨added, adds⟩ := ih success
        exact ⟨added, adds.fragments, adds.pending, adds.loaded,
          List.subset_cons_of_subset _ adds.keys, adds.nodup⟩
      · rw [if_neg known] at success
        obtain ⟨value, given, later⟩ := Shape.bind_eq_ok_iff.mp success
        obtain ⟨added, adds⟩ := ih later
        have fresh : file ∉ Assoc.keys before.fragments := fun member =>
          known (Assoc.has_iff.mpr member)
        refine ⟨(file, value) :: added, ?_, ?_, ?_, ?_, ?_⟩
        · rw [adds.fragments, List.append_assoc, List.singleton_append]
        · simp [adds.pending]
        · exact List.forall_mem_cons.mpr ⟨given, adds.loaded⟩
        · exact List.cons_subset_cons _ adds.keys
        · intro distinct
          apply adds.nodup
          show (Assoc.keys (before.fragments ++ [(file, value)])).Nodup
          rw [keys_append]
          exact distinct.append (List.nodup_singleton file) (by simpa [Assoc.keys] using fresh)

/-- Files that the loader gives are loaded. -/
theorem exists_loadFiles {files : List String} (before : Progress)
    (given : ∀ file ∈ files, ∃ value, load file = .ok value) :
    ∃ after, loadFiles load before files = .ok after := by
  induction files generalizing before with
  | nil => exact ⟨before, rfl⟩
  | cons file rest ih =>
      obtain ⟨⟨value, here⟩, later⟩ := List.forall_mem_cons.mp given
      simp only [loadFiles]
      by_cases known : Assoc.has file before.fragments
      · rw [if_pos known]
        exact ih _ later
      · rw [if_neg known, here]
        exact ih _ later

/-- One round of loading: any pending document is taken, and the files that it refers to are loaded
in any order. -/
inductive Round (load : String → Except ε Json) : Progress → Progress → Prop
  | take {fragments : Fragments} {before after : List (Option String × Json)}
      {file : Option String} {value : Json} {files : List String} {next : Progress}
      (order : files.Perm (targetFiles file value))
      (success : loadFiles load ⟨fragments, before ++ after⟩ files = .ok next) :
      Round load ⟨fragments, before ++ (file, value) :: after⟩ next

/-- What may be loaded after a number of rounds. -/
inductive Rounds (load : String → Except ε Json) (root : Json) : Nat → Progress → Prop
  | start : Rounds load root 0 ⟨[], [(none, root)]⟩
  | next {n : Nat} {p q : Progress} (before : Rounds load root n p) (round : Round load p q) :
      Rounds load root (n + 1) q

/-- What holds after any number of rounds. -/
structure Progress.Sound (load : String → Except ε Json) (root : Json) (n : Nat) (p : Progress) :
    Prop where
  nodup : (Assoc.keys p.fragments).Nodup
  loaded : ∀ entry ∈ p.fragments, load entry.1 = .ok entry.2
  needed : ∀ file ∈ Assoc.keys p.fragments, Needs load root file
  settled : p.Settled root
  known : p.pending ⊆ p.sources root
  /-- Every round takes one of the documents that came to be pending. -/
  count : n + p.pending.length = p.fragments.length + 1

theorem sound_start : Progress.Sound load root 0 ⟨[], [(none, root)]⟩ where
  nodup := List.nodup_nil
  loaded := by simp
  needed := by simp [Assoc.keys]
  settled := fun _ member => Or.inl member
  known := fun _ member => member
  count := rfl

/-- What a known document refers to is needed. -/
theorem Progress.Sound.needs_of_refersTo {n : Nat} {p : Progress} (sound : p.Sound load root n)
    {source : Option String × Json} (member : source ∈ p.sources root) {file : String}
    (refers : RefersTo source.1 source.2 file) : Needs load root file := by
  rcases List.mem_cons.mp member with rfl | member
  · exact .root refers
  · obtain ⟨entry, there, rfl⟩ := List.mem_map.mp member
    have needed : Needs load root entry.1 := sound.needed _ (List.mem_map_of_mem there)
    exact .file needed (sound.loaded entry there) refers

theorem Progress.Sound.round {n : Nat} {p q : Progress} (sound : p.Sound load root n)
    (round : Round load p q) : q.Sound load root (n + 1) := by
  cases round with
  | @take fragments before after file value files _ order success =>
    obtain ⟨added, appends⟩ := exists_appends success
    have adds := adds_of_loadFiles success
    have taken : (file, value) ∈ Progress.sources root ⟨fragments, before ++ (file, value) :: after⟩ :=
      sound.known (List.mem_append_right _ List.mem_cons_self)
    have more : Progress.sources root ⟨fragments, before ++ (file, value) :: after⟩ ⊆
        q.sources root :=
      List.cons_subset_cons _ (List.map_subset _ adds.kept)
    refine ⟨appends.nodup sound.nodup, ?_, ?_, ?_, ?_, ?_⟩
    · intro entry member
      rw [appends.fragments] at member
      rcases List.mem_append.mp member with old | new
      · exact sound.loaded entry old
      · exact appends.loaded entry new
    · intro other member
      rw [appends.fragments, keys_append] at member
      rcases List.mem_append.mp member with old | new
      · exact sound.needed other old
      · have target : other ∈ targetFiles file value := order.subset (appends.keys new)
        exact sound.needs_of_refersTo taken (mem_targetFiles_iff.mp target)
    · -- Only the document that was taken is no longer pending, and its files are loaded.
      have reordered : Progress.Settled root ⟨fragments, (file, value) :: (before ++ after)⟩ := by
        intro source member
        rcases sound.settled source member with pending | covered
        · exact Or.inl (List.perm_middle.subset pending)
        · exact Or.inr covered
      exact reordered.next
        ⟨adds.kept, adds.pending, List.Subset.trans order.symm.subset adds.loaded, adds.queued⟩
    · intro source member
      rw [appends.pending] at member
      rcases List.mem_append.mp member with new | old
      · obtain ⟨entry, there, rfl⟩ := List.mem_map.mp (List.mem_reverse.mp new)
        apply List.mem_cons_of_mem
        apply List.mem_map_of_mem
        rw [appends.fragments]
        exact List.mem_append_right _ there
      · apply more
        apply sound.known
        exact List.perm_middle.symm.subset (List.mem_cons_of_mem _ old)
    · have count := sound.count
      rw [appends.fragments, appends.pending]
      simp only [List.length_append, List.length_cons, List.length_reverse, List.length_map]
        at count ⊢
      omega

theorem Rounds.sound {n : Nat} {p : Progress} (rounds : Rounds load root n p) :
    p.Sound load root n := by
  induction rounds with
  | start => exact sound_start
  | next _ round ih => exact ih.round round

/-- When nothing is pending, exactly the files that are needed are loaded. -/
theorem Progress.Sound.mem_keys_iff {n : Nat} {p : Progress} (sound : p.Sound load root n)
    (finished : p.pending = []) {file : String} :
    file ∈ Assoc.keys p.fragments ↔ Needs load root file := by
  have covered : ∀ source ∈ p.sources root,
      targetFiles source.1 source.2 ⊆ Assoc.keys p.fragments := by
    intro source member
    rcases sound.settled source member with pending | covered
    · rw [finished] at pending
      cases pending
    · exact covered
  constructor
  · exact sound.needed file
  · intro needed
    induction needed with
    | root refers => exact covered _ List.mem_cons_self (mem_targetFiles_iff.mpr refers)
    | @file file next value _ given refers ih =>
        obtain ⟨entry, there, rfl⟩ := List.mem_map.mp ih
        cases (sound.loaded entry there).symm.trans given
        exact covered _ (List.mem_cons_of_mem _ (List.mem_map_of_mem there))
          (mem_targetFiles_iff.mpr refers)

/-- While all that is needed can be loaded, a round succeeds whatever is taken in whatever order. -/
theorem Progress.Sound.exists_next {n : Nat} {p : Progress} (sound : p.Sound load root n)
    (given : ∀ file, Needs load root file → ∃ value, load file = .ok value)
    {source : Option String × Json} (pending : source ∈ p.pending) {files : List String}
    (order : files.Perm (targetFiles source.1 source.2)) (before : Progress) :
    ∃ next, loadFiles load before files = .ok next := by
  apply exists_loadFiles
  intro file member
  have target : file ∈ targetFiles source.1 source.2 := order.subset member
  exact given file (sound.needs_of_refersTo (sound.known pending) (mem_targetFiles_iff.mp target))

/-- Two lists of files that are loaded from the same places have the same files. -/
theorem perm_of_keys {some others : Fragments} (nodup : (Assoc.keys some).Nodup)
    (nodup' : (Assoc.keys others).Nodup) (loaded : ∀ entry ∈ some, load entry.1 = .ok entry.2)
    (loaded' : ∀ entry ∈ others, load entry.1 = .ok entry.2)
    (same : ∀ file, file ∈ Assoc.keys some ↔ file ∈ Assoc.keys others) : some.Perm others := by
  have subset : ∀ {these those : Fragments}, (∀ entry ∈ these, load entry.1 = .ok entry.2) →
      (∀ entry ∈ those, load entry.1 = .ok entry.2) →
      Assoc.keys these ⊆ Assoc.keys those → these ⊆ those := by
    intro these those here there keys entry member
    obtain ⟨other, found, key⟩ := List.mem_map.mp (keys (List.mem_map_of_mem member))
    have value : entry.2 = other.2 := by
      have given := here entry member
      rw [← key, there other found] at given
      exact (Except.ok.inj given).symm
    have equal : entry = other := Prod.ext key.symm value
    exact equal ▸ found
  apply (List.perm_ext_iff_of_nodup (List.Nodup.of_map _ nodup) (List.Nodup.of_map _ nodup')).mpr
  intro entry
  exact ⟨fun member => subset loaded loaded' (fun file => (same file).mp) member,
    fun member => subset loaded' loaded (fun file => (same file).mpr) member⟩

/-- Nothing is loaded that is not there in the end, so no rounds are left after that many. -/
theorem Progress.Sound.rounds_le {n m : Nat} {p q : Progress} (sound : p.Sound load root n)
    (last : q.Sound load root m) (finished : q.pending = []) : n ≤ q.fragments.length + 1 := by
  have fewer : Assoc.keys p.fragments ⊆ Assoc.keys q.fragments := fun file member =>
    (last.mem_keys_iff finished).mpr (sound.needed file member)
  have shorter : p.fragments.length ≤ q.fragments.length := by
    simpa [Assoc.keys] using (sound.nodup.subperm fewer).length_le
  have count := sound.count
  omega

/-- When nothing is pending, the same files are loaded whatever was taken in whatever order. -/
theorem Progress.Sound.perm {n m : Nat} {p q : Progress} (sound : p.Sound load root n)
    (last : q.Sound load root m) (finished : p.pending = []) (finished' : q.pending = []) :
    p.fragments.Perm q.fragments := by
  apply perm_of_keys sound.nodup last.nodup sound.loaded last.loaded
  intro file
  exact (sound.mem_keys_iff finished).trans (last.mem_keys_iff finished').symm

/-- The first pending document may be taken. -/
theorem round_of_first {fragments : Fragments} {file : Option String} {value : Json}
    {rest : List (Option String × Json)} {next : Progress}
    (success : loadFiles load ⟨fragments, rest⟩ (targetFiles file value) = .ok next) :
    Round load ⟨fragments, (file, value) :: rest⟩ next := by
  show Round load ⟨fragments, [] ++ (file, value) :: rest⟩ next
  exact .take (List.Perm.refl _) success

theorem exists_rounds_of_follow {n limit : Nat} {p : Progress} {fragments : Fragments}
    (rounds : Rounds load root n p) (success : follow load limit p = .ok (some fragments)) :
    ∃ m, Rounds load root m ⟨fragments, []⟩ := by
  induction limit generalizing n p with
  | zero =>
      obtain ⟨loaded, pending⟩ := p
      cases pending with
      | nil =>
          cases Except.ok.inj success
          exact ⟨n, rounds⟩
      | cons first rest => cases success
  | succ limit ih =>
      obtain ⟨loaded, pending⟩ := p
      cases pending with
      | nil =>
          cases Except.ok.inj success
          exact ⟨n, rounds⟩
      | cons first rest =>
          obtain ⟨next, added, later⟩ := Shape.bind_eq_ok_iff.mp success
          exact ih (rounds.next (round_of_first added)) later

/-- A limit that suffices may be raised. -/
theorem follow_mono {limit more : Nat} (le : limit ≤ more) {p : Progress}
    (enough : follow load limit p ≠ .ok none) : follow load more p = follow load limit p := by
  induction limit generalizing more p with
  | zero =>
      obtain ⟨loaded, pending⟩ := p
      cases pending with
      | nil => cases more <;> rfl
      | cons first rest => exact absurd rfl enough
  | succ limit ih =>
      obtain ⟨more, rfl⟩ : ∃ m, more = m + 1 := ⟨more - 1, by omega⟩
      obtain ⟨loaded, pending⟩ := p
      cases pending with
      | nil => rfl
      | cons first rest =>
          have shorter : limit ≤ more := Nat.le_of_succ_le_succ le
          simp only [follow] at enough ⊢
          cases added : loadFiles load ⟨loaded, rest⟩ (targetFiles first.1 first.2) with
          | error cause => rfl
          | ok next =>
              rw [added] at enough
              exact ih shorter enough

end

section

variable {loader : String → Except ε Json} {path : String} {root : Json}

theorem load_eq (opened : loader path = .ok root) (limit : Nat) :
    load loader limit path =
      (follow (loader ∘ place path) limit ⟨[], [(none, root)]⟩).map
        (Option.map fun fragments => ⟨root, fragments⟩) := by
  rw [load, opened]
  show (follow (loader ∘ place path) limit _ >>= _) = _
  cases follow (loader ∘ place path) limit ⟨[], [(none, root)]⟩ <;> rfl

theorem load_eq_some_iff {limit : Nat} {b : Bundle} :
    load loader limit path = .ok (some b) ↔
      loader path = .ok b.root ∧
        follow (loader ∘ place path) limit ⟨[], [(none, b.root)]⟩ = .ok (some b.fragments) := by
  constructor
  · intro loaded
    obtain ⟨root, opened, _⟩ := Shape.bind_eq_ok_iff.mp loaded
    rw [load_eq opened] at loaded
    obtain ⟨found, followed, made⟩ := Shape.map_eq_ok_iff.mp loaded
    obtain ⟨fragments, rfl, rfl⟩ := Option.map_eq_some_iff.mp made.symm
    exact ⟨opened, followed⟩
  · rintro ⟨opened, followed⟩
    rw [load_eq opened, followed]
    rfl

theorem load_eq_none_iff (opened : loader path = .ok root) (limit : Nat) :
    load loader limit path = .ok none ↔
      follow (loader ∘ place path) limit ⟨[], [(none, root)]⟩ = .ok none := by
  rw [load_eq opened]
  cases follow (loader ∘ place path) limit ⟨[], [(none, root)]⟩ with
  | error cause => simp [Except.map]
  | ok found => simp [Except.map]

theorem load_mono (opened : loader path = .ok root) {limit more : Nat} (le : limit ≤ more)
    (enough : load loader limit path ≠ .ok none) :
    load loader more path = load loader limit path := by
  have followed : follow (loader ∘ place path) limit ⟨[], [(none, root)]⟩ ≠ .ok none :=
    mt (load_eq_none_iff opened limit).mpr enough
  rw [load_eq opened, load_eq opened, follow_mono le followed]

/-- Loading ends after a number of rounds. -/
theorem exists_rounds_of_load {limit : Nat} {b : Bundle}
    (loaded : load loader limit path = .ok (some b)) :
    ∃ n, Rounds (loader ∘ place path) b.root n ⟨b.fragments, []⟩ := by
  obtain ⟨_, followed⟩ := load_eq_some_iff.mp loaded
  exact exists_rounds_of_follow .start followed

end

section

variable {loader : String → Except ε Json} {lookup : String → String}

theorem run_logged {path : String} {value : Json} (given : loader path = .ok value)
    (log : List String) : (logged loader path).run log = .ok (value, log ++ [path]) := by
  rw [logged, given]
  rfl

/-- Loading a list of files asks for those that it appends, each once. -/
theorem loadFiles_logged {files : List String} {before after : Progress}
    (success : loadFiles (fun file => loader (lookup file)) before files = .ok after)
    (log : List String) :
    ∃ added, after.fragments = before.fragments ++ added ∧
      (loadFiles (fun file => logged loader (lookup file)) before files).run log =
        .ok (after, log ++ (Assoc.keys added).map lookup) := by
  induction files generalizing before log with
  | nil =>
      cases Except.ok.inj success
      exact ⟨[], by simp, by simp [loadFiles, Assoc.keys]; rfl⟩
  | cons file rest ih =>
      simp only [loadFiles] at success ⊢
      by_cases known : Assoc.has file before.fragments
      · rw [if_pos known] at success ⊢
        exact ih success log
      · rw [if_neg known] at success ⊢
        obtain ⟨value, given, later⟩ := Shape.bind_eq_ok_iff.mp success
        obtain ⟨added, fragments, asked⟩ := ih later (log ++ [lookup file])
        refine ⟨(file, value) :: added, ?_, ?_⟩
        · rw [fragments, List.append_assoc, List.singleton_append]
        · rw [StateT.run_bind, run_logged given]
          exact asked.trans (by simp [Assoc.keys])

theorem follow_logged {limit : Nat} {p : Progress} {fragments : Fragments}
    (success : follow (fun file => loader (lookup file)) limit p = .ok (some fragments))
    (log : List String) :
    ∃ added, fragments = p.fragments ++ added ∧
      (follow (fun file => logged loader (lookup file)) limit p).run log =
        .ok (some fragments, log ++ (Assoc.keys added).map lookup) := by
  induction limit generalizing p log with
  | zero =>
      obtain ⟨loaded, pending⟩ := p
      cases pending with
      | nil =>
          cases Except.ok.inj success
          refine ⟨[], (List.append_nil _).symm, ?_⟩
          simp only [Assoc.keys, List.map_nil, List.append_nil]
          rfl
      | cons first rest => cases success
  | succ limit ih =>
      obtain ⟨loaded, pending⟩ := p
      cases pending with
      | nil =>
          cases Except.ok.inj success
          refine ⟨[], (List.append_nil _).symm, ?_⟩
          simp only [Assoc.keys, List.map_nil, List.append_nil]
          rfl
      | cons first rest =>
          obtain ⟨next, added, later⟩ := Shape.bind_eq_ok_iff.mp success
          obtain ⟨new, here, asked⟩ := loadFiles_logged added log
          obtain ⟨more, there, followed⟩ := ih later (log ++ (Assoc.keys new).map lookup)
          refine ⟨new ++ more, by rw [there, here, List.append_assoc], ?_⟩
          rw [follow, StateT.run_bind, asked]
          exact followed.trans (by rw [keys_append, List.map_append, List.append_assoc])

/-- Loading asks for the document and then for each file that it is loaded with, once. -/
theorem load_logged {limit : Nat} {path : String} {b : Bundle}
    (loaded : load loader limit path = .ok (some b)) :
    (load (logged loader) limit path).run [] =
      .ok (some b, path :: (Assoc.keys b.fragments).map (place path)) := by
  obtain ⟨given, followed⟩ := load_eq_some_iff.mp loaded
  have followed : follow (fun file => loader (place path file)) limit ⟨[], [(none, b.root)]⟩ =
      .ok (some b.fragments) := followed
  obtain ⟨added, here, asked⟩ := follow_logged followed [path]
  rw [List.nil_append] at here
  rw [← here] at asked
  refine Shape.bind_eq_ok_iff.mpr ⟨_, run_logged given [], ?_⟩
  exact Shape.bind_eq_ok_iff.mpr ⟨_, asked, rfl⟩

end

/-- What a document is loaded with: exactly the files that it needs, each as the loader gives it.
Every file is asked for once, a higher limit changes nothing, and if pending documents are taken in
another order, and references followed in another order, the same files are loaded: no such choice
fails, and after as many rounds as there are documents nothing is pending. -/
theorem loads_reachable_files (loader : String → Except ε Json) (limit : Nat) (path : String)
    (b : Bundle) (loaded : load loader limit path = .ok (some b)) :
    loader path = .ok b.root ∧
      IsLeast {files | Closes (loader ∘ place path) b.root files}
        {file | file ∈ Assoc.keys b.fragments} ∧
      (∀ entry ∈ b.fragments, loader (place path entry.1) = .ok entry.2) ∧
      (Assoc.keys b.fragments).Nodup ∧
      (load (logged loader) limit path).run [] =
        .ok (some b, path :: (Assoc.keys b.fragments).map (place path)) ∧
      (∀ more, limit ≤ more → load loader more path = .ok (some b)) ∧
      ∀ n p, Rounds (loader ∘ place path) b.root n p →
        n ≤ b.fragments.length + 1 ∧
        (p.pending = [] → p.fragments.Perm b.fragments) ∧
        ∀ before source after, p.pending = before ++ source :: after →
          ∀ files, files.Perm (targetFiles source.1 source.2) →
            ∃ next, loadFiles (loader ∘ place path) ⟨p.fragments, before ++ after⟩ files =
              .ok next := by
  obtain ⟨given, _⟩ := load_eq_some_iff.mp loaded
  obtain ⟨m, rounds⟩ := exists_rounds_of_load loaded
  have sound := rounds.sound
  have whole : ∀ file, file ∈ Assoc.keys b.fragments ↔ Needs (loader ∘ place path) b.root file :=
    fun file => sound.mem_keys_iff rfl
  have answered : ∀ file, Needs (loader ∘ place path) b.root file →
      ∃ value, (loader ∘ place path) file = .ok value := by
    intro file needed
    obtain ⟨entry, there, rfl⟩ := List.mem_map.mp ((whole file).mpr needed)
    exact ⟨entry.2, sound.loaded entry there⟩
  refine ⟨given, ?_, sound.loaded, sound.nodup, load_logged loaded, ?_, ?_⟩
  · rw [show {file | file ∈ Assoc.keys b.fragments} =
      {file | Needs (loader ∘ place path) b.root file} from Set.ext whole]
    exact isLeast_needs
  · intro more le
    have ends : load loader limit path ≠ .ok none := by
      rw [loaded]
      simp
    exact (load_mono given le ends).trans loaded
  · intro n p others
    refine ⟨others.sound.rounds_le sound rfl, fun finished => others.sound.perm sound finished rfl,
      ?_⟩
    intro before source after pending files order
    have member : source ∈ p.pending := by
      rw [pending]
      exact List.mem_append_right _ List.mem_cons_self
    exact others.sound.exists_next answered member order _

/-- Files that refer to themselves and to each other. -/
def Sample.tangle : List (String × Json) :=
  [("api/root.yaml", .obj
      [("paths", .arr
        [Json.reference "a.yaml#/A", Json.reference "https://host/x.yaml",
          Json.reference "#/definitions/X", Json.reference "c.yaml#X"])]),
   ("api/a.yaml", .obj
      [("A", Json.reference "#/B"), ("B", .obj [("items", Json.reference "sub/b.yaml")])]),
   ("api/sub/b.yaml", .obj
      [("up", Json.reference "../a.yaml#/A"), ("here", Json.reference "./b.yaml")])]

def Sample.ofTangle (path : String) : Except String Json :=
  match Assoc.get? path tangle with
  | some value => .ok value
  | none => .error path

/-- Of the four references two lead to no file. -/
theorem loads_tangled_files :
    ∃ b, load Sample.ofTangle 4 "api/root.yaml" = .ok (some b) ∧
      IsLeast {files | Closes (Sample.ofTangle ∘ place "api/root.yaml") b.root files}
        {file | file ∈ ["a.yaml", "sub/b.yaml"]} ∧
      (load (logged Sample.ofTangle) 4 "api/root.yaml").run [] =
        .ok (some b, ["api/root.yaml", "api/a.yaml", "api/sub/b.yaml"]) ∧
      ∀ n p, Rounds (Sample.ofTangle ∘ place "api/root.yaml") b.root n p →
        n ≤ 3 ∧ (p.pending = [] → p.fragments.Perm b.fragments) := by
  obtain ⟨found, success, facts⟩ := exists_ok_of_map
    (x := load Sample.ofTangle 4 "api/root.yaml")
    (f := fun found => found.map fun b => Assoc.keys b.fragments)
    (b := some ["a.yaml", "sub/b.yaml"]) (by decide)
  obtain ⟨b, rfl, keys⟩ := Option.map_eq_some_iff.mp facts
  obtain ⟨_, least, _, _, asked, _, rounds⟩ := loads_reachable_files _ _ _ b success
  have length : b.fragments.length = 2 := by simpa [Assoc.keys] using congrArg List.length keys
  have places : ["a.yaml", "sub/b.yaml"].map (place "api/root.yaml") =
      ["api/a.yaml", "api/sub/b.yaml"] := by decide
  rw [keys] at least asked
  rw [places] at asked
  refine ⟨b, success, least, asked, fun n p reached => ?_⟩
  obtain ⟨bounded, same, _⟩ := rounds n p reached
  rw [length] at bounded
  exact ⟨bounded, same⟩

end ApiCodec.Bundle
