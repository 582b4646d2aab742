import ApiCodec.Build.Trace

set_option autoImplicit false

namespace ApiCodec.Transform

variable {ν α β : Type}

/-- The value of a step that succeeds. -/
def outcome : Transform ν α → Option α
  | .ok a => some a.value
  | .error _ => none

@[simp] theorem outcome_value (a : α) : (value a : Transform ν α).outcome = some a := rfl

@[simp] theorem outcome_pure (a : α) : (pure a : Transform ν α).outcome = some a := rfl

@[simp] theorem outcome_tell (notes : List ν) : (tell notes).outcome = some () := rfl

@[simp] theorem outcome_note (n : ν) : (note n).outcome = some () := rfl

@[simp] theorem outcome_bind (t : Transform ν α) (next : α → Transform ν β) :
    (t >>= next).outcome = t.outcome.bind fun a => (next a).outcome := by
  rw [bind_eq]
  cases t with
  | error e => rfl
  | ok a =>
      unfold andThen
      simp only [outcome, Option.bind_some]
      cases next a.value <;> rfl

@[simp] theorem outcome_map (f : α → β) (t : Transform ν α) :
    (f <$> t).outcome = t.outcome.map f := by
  rw [map_eq_pure_bind, outcome_bind]
  cases t.outcome <;> rfl

@[simp] theorem outcome_about (subject : String) (t : Transform Notice α) :
    (t.about subject).outcome = t.outcome := by
  cases t <;> rfl

/-- The images of what two steps give, one after the other. -/
theorem outcome_map_append (f : α → β) (t u : Transform ν (List α)) :
    (t >>= fun first => u >>= fun rest => pure (first ++ rest)).outcome.map (List.map f) =
      (t.outcome.map (List.map f)).bind fun first =>
        (u.outcome.map (List.map f)).map fun rest => first ++ rest := by
  simp only [outcome_bind, outcome_pure]
  cases t.outcome with
  | none => rfl
  | some first =>
      cases u.outcome with
      | none => rfl
      | some rest => simp

end ApiCodec.Transform
