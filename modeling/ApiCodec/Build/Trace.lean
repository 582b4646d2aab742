import ApiCodec.Model.Basic

set_option autoImplicit false

namespace ApiCodec

/-- A value with what was found on the way to it. -/
structure Traced (ν α : Type) where
  value : α
  notes : List ν
  /-- External targets that are needed under a name of their own. -/
  promoted : List Pointer

/-- A step that reports notes of type `ν`. -/
def Transform (ν α : Type) : Type := Except TransformError (Traced ν α)

namespace Transform

variable {ν μ α β : Type}

def value (a : α) : Transform ν α := .ok ⟨a, [], []⟩

def fail (e : TransformError) : Transform ν α := .error e

/-- Both steps, one after the other. -/
def andThen (t : Transform ν α) (next : α → Transform ν β) : Transform ν β :=
  match t with
  | .error e => .error e
  | .ok a =>
      match next a.value with
      | .error e => .error e
      | .ok b => .ok ⟨b.value, a.notes ++ b.notes, a.promoted ++ b.promoted⟩

instance : Monad (Transform ν) where
  pure := value
  bind := andThen

theorem bind_eq (t : Transform ν α) (next : α → Transform ν β) : t >>= next = t.andThen next := rfl

theorem pure_eq (a : α) : (pure a : Transform ν α) = .ok ⟨a, [], []⟩ := rfl

theorem andThen_value (t : Transform ν α) : t.andThen value = t := by
  rcases t with e | ⟨a, notes, promoted⟩
  · rfl
  · simp only [andThen, value, List.append_nil]
    rfl

theorem value_andThen (a : α) (next : α → Transform ν β) : (value a).andThen next = next a := by
  simp only [andThen, value]
  rcases next a with e | ⟨b, notes, promoted⟩ <;> rfl

theorem andThen_assoc {γ : Type} (t : Transform ν α) (f : α → Transform ν β)
    (g : β → Transform ν γ) :
    (t.andThen f).andThen g = t.andThen fun a => (f a).andThen g := by
  rcases t with e | ⟨a, notes, promoted⟩
  · rfl
  · simp only [andThen]
    rcases f a with e | ⟨b, notes', promoted'⟩
    · rfl
    · simp only
      rcases g b with e | ⟨c, notes'', promoted''⟩
      · rfl
      · simp only [List.append_assoc]
        rfl

instance : LawfulMonad (Transform ν) :=
  LawfulMonad.mk' (Transform ν) andThen_value value_andThen andThen_assoc

def tell (notes : List ν) : Transform ν Unit := .ok ⟨(), notes, []⟩

def note (n : ν) : Transform ν Unit := tell [n]

/-- Asks for a target to be published. -/
def promote (p : Pointer) : Transform ν Unit := .ok ⟨(), [], [p]⟩

/-- The step with its notes changed. -/
def mapNotes (f : ν → μ) (t : Transform ν α) : Transform μ α :=
  match t with
  | .error e => .error e
  | .ok a => .ok ⟨a.value, a.notes.map f, a.promoted⟩

/-- The step with its notices said to be about a subject. -/
def about (subject : String) (t : Transform Notice α) : Transform Diagnostic α :=
  mapNotes (Diagnostic.mk subject) t

theorem bind_eq_ok_iff {t : Transform ν α} {next : α → Transform ν β} {r : Traced ν β} :
    t >>= next = .ok r ↔
      ∃ a b, t = .ok a ∧ next a.value = .ok b ∧
        r = ⟨b.value, a.notes ++ b.notes, a.promoted ++ b.promoted⟩ := by
  rw [bind_eq]
  constructor
  · intro success
    unfold andThen at success
    split at success
    · cases success
    · rename_i a
      split at success
      · cases success
      · rename_i b found
        exact ⟨a, b, rfl, found, (Except.ok.inj success).symm⟩
  · rintro ⟨a, b, rfl, found, rfl⟩
    simp only [andThen, found]
    rfl

theorem map_eq_ok_iff {f : α → β} {t : Transform ν α} {r : Traced ν β} :
    f <$> t = .ok r ↔ ∃ a, t = .ok a ∧ r = ⟨f a.value, a.notes, a.promoted⟩ := by
  rw [map_eq_pure_bind, bind_eq_ok_iff]
  constructor
  · rintro ⟨a, b, found, hb, rfl⟩
    cases hb
    exact ⟨a, found, by simp⟩
  · rintro ⟨a, found, rfl⟩
    exact ⟨a, ⟨f a.value, [], []⟩, found, rfl, by simp⟩

@[simp] theorem pure_eq_ok_iff {a : α} {r : Traced ν α} :
    (pure a : Transform ν α) = .ok r ↔ r = ⟨a, [], []⟩ := by
  rw [pure_eq]
  constructor
  · intro success
    exact (Except.ok.inj success).symm
  · rintro rfl
    rfl

@[simp] theorem value_eq_ok_iff {a : α} {r : Traced ν α} :
    (value a : Transform ν α) = .ok r ↔ r = ⟨a, [], []⟩ := pure_eq_ok_iff

@[simp] theorem fail_ne_ok {e : TransformError} {r : Traced ν α} :
    (fail e : Transform ν α) ≠ .ok r := by
  intro success
  cases success

@[simp] theorem tell_eq_ok_iff {notes : List ν} {r : Traced ν Unit} :
    tell notes = .ok r ↔ r = ⟨(), notes, []⟩ := by
  constructor
  · intro success
    exact (Except.ok.inj success).symm
  · rintro rfl
    rfl

@[simp] theorem note_eq_ok_iff {n : ν} {r : Traced ν Unit} :
    note n = .ok r ↔ r = ⟨(), [n], []⟩ := tell_eq_ok_iff

@[simp] theorem promote_eq_ok_iff {p : Pointer} {r : Traced ν Unit} :
    (promote p : Transform ν Unit) = .ok r ↔ r = ⟨(), [], [p]⟩ := by
  constructor
  · intro success
    exact (Except.ok.inj success).symm
  · rintro rfl
    rfl

theorem about_eq_ok_iff {subject : String} {t : Transform Notice α} {r : Traced Diagnostic α} :
    t.about subject = .ok r ↔
      ∃ a, t = .ok a ∧ r = ⟨a.value, a.notes.map (Diagnostic.mk subject), a.promoted⟩ := by
  cases t with
  | error e =>
      constructor
      · intro success
        cases success
      · rintro ⟨a, found, _⟩
        cases found
  | ok a =>
      constructor
      · intro success
        exact ⟨a, rfl, (Except.ok.inj success).symm⟩
      · rintro ⟨_, found, rfl⟩
        cases found
        rfl

theorem bind_eq_error_iff {t : Transform ν α} {next : α → Transform ν β} {e : TransformError} :
    t >>= next = .error e ↔ t = .error e ∨ ∃ a, t = .ok a ∧ next a.value = .error e := by
  rw [bind_eq]
  constructor
  · intro failed
    unfold andThen at failed
    split at failed
    · rename_i e'
      exact Or.inl (congrArg Except.error (Except.error.inj failed))
    · rename_i a
      split at failed
      · rename_i e' later
        cases Except.error.inj failed
        exact Or.inr ⟨a, rfl, later⟩
      · cases failed
  · rintro (rfl | ⟨a, rfl, later⟩)
    · rfl
    · simp only [andThen, later]
      rfl

theorem map_eq_error_iff {f : α → β} {t : Transform ν α} {e : TransformError} :
    f <$> t = .error e ↔ t = .error e := by
  rw [map_eq_pure_bind, bind_eq_error_iff]
  constructor
  · rintro (failed | ⟨a, _, failed⟩)
    · exact failed
    · cases failed
  · exact Or.inl

theorem about_eq_error_iff {subject : String} {t : Transform Notice α} {e : TransformError} :
    t.about subject = .error e ↔ t = .error e := by
  constructor
  · intro failed
    cases t with
    | error e' => exact congrArg Except.error (Except.error.inj failed)
    | ok a => cases failed
  · rintro rfl
    rfl

end Transform

end ApiCodec
