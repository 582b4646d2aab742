import ApiCodec.Proofs.Flatten.Outline

set_option autoImplicit false

/-!
Structures unfolded to trees. A place of a structure is missing, a link to another place, or a node
with parts. Links count no depth; a chain of links without end is a tree of its own kind.
`unfolding_eq_of_simulation` compares two structures by a simulation in which one side may follow
links that the other has already followed, but not forever.
-/

namespace ApiCodec

inductive View (α : Type)
  /-- A name that stands for nothing. -/
  | missing (name : String)
  | link (next : α)
  | node (outline : Outline α)

/-- A place unfolded to some depth. -/
inductive Unfolding
  /-- The depth is used up. -/
  | cut
  /-- A chain of links that has no end. -/
  | endless
  | missing (name : String)
  | node (face : Face) (parts : List (Slot × Unfolding))

/-- What stands at the end of a chain of links. -/
inductive Landing (α : Type)
  | missing (name : String)
  | node (outline : Outline α)

def Landing.view {α : Type} : Landing α → View α
  | .missing name => .missing name
  | .node outline => .node outline

theorem Landing.view_ne_link {α : Type} {r : Landing α} {y : α} : r.view ≠ .link y := by
  cases r <;> simp [view]

namespace View

variable {α β : Type}

/-- A number of links, followed one after the other. -/
inductive Steps (view : α → View α) : Nat → α → α → Prop
  | refl (x : α) : Steps view 0 x x
  | step {n : Nat} {x y z : α} (link : view x = .link y) (rest : Steps view n y z) :
      Steps view (n + 1) x z

/-- The chain of links from a place has an end. -/
def Lands (view : α → View α) (x : α) (r : Landing α) : Prop :=
  ∃ n y, Steps view n x y ∧ view y = r.view

theorem Steps.trans {view : α → View α} {m n : Nat} {x y z : α} (first : Steps view m x y)
    (second : Steps view n y z) : Steps view (n + m) x z := by
  induction first with
  | refl x => exact second
  | step link rest ih => exact .step link (ih second)

/-- A chain of links passes through every place on the way to its end. -/
theorem Steps.rest {view : α → View α} {m n : Nat} {x y z : α} {r : Landing α}
    (first : Steps view m x y) (all : Steps view n x z) (final : view z = r.view) :
    ∃ rest, n = rest + m ∧ Steps view rest y z := by
  induction first generalizing n with
  | refl x => exact ⟨n, rfl, all⟩
  | step link _ ih =>
      cases all with
      | refl =>
          rw [link] at final
          exact absurd final.symm Landing.view_ne_link
      | step link' others =>
          rw [link] at link'
          cases link'
          obtain ⟨rest, rfl, steps⟩ := ih others
          exact ⟨rest, rfl, steps⟩

theorem Lands.of_steps {view : α → View α} {n : Nat} {x y : α} {r : Landing α}
    (steps : Steps view n x y) (lands : Lands view y r) : Lands view x r := by
  obtain ⟨m, z, others, final⟩ := lands
  exact ⟨_, z, steps.trans others, final⟩

theorem Lands.after {view : α → View α} {n : Nat} {x y : α} {r : Landing α}
    (steps : Steps view n x y) (lands : Lands view x r) : Lands view y r := by
  obtain ⟨m, z, all, final⟩ := lands
  obtain ⟨rest, _, others⟩ := steps.rest all final
  exact ⟨rest, z, others, final⟩

theorem Lands.unique {view : α → View α} {x : α} {r r' : Landing α} (lands : Lands view x r)
    (lands' : Lands view x r') : r = r' := by
  obtain ⟨n, y, steps, final⟩ := lands
  obtain ⟨m, z, others, final'⟩ := lands'.after steps
  cases others with
  | refl =>
      rw [final] at final'
      cases r <;> cases r' <;> cases final' <;> rfl
  | step link _ =>
      rw [final] at link
      exact absurd link Landing.view_ne_link

open Classical in
/-- What stands at the end of the chain of links from a place, if it has an end. -/
noncomputable def landing? (view : α → View α) (x : α) : Option (Landing α) :=
  if found : ∃ r, Lands view x r then some found.choose else none

theorem landing?_eq_some_iff {view : α → View α} {x : α} {r : Landing α} :
    landing? view x = some r ↔ Lands view x r := by
  unfold landing?
  split
  · rename_i found
    constructor
    · intro same
      cases Option.some.inj same
      exact found.choose_spec
    · intro lands
      rw [found.choose_spec.unique lands]
  · rename_i endless
    constructor
    · intro same
      cases same
    · intro lands
      exact absurd ⟨r, lands⟩ endless

theorem landing?_eq_none_iff {view : α → View α} {x : α} :
    landing? view x = none ↔ ∀ r, ¬ Lands view x r := by
  rw [Option.eq_none_iff_forall_ne_some]
  simp only [ne_eq, landing?_eq_some_iff]

/-- A place unfolded to a depth. -/
noncomputable def unfolding (view : α → View α) : Nat → α → Unfolding
  | 0, _ => .cut
  | depth + 1, x =>
      match landing? view x with
      | none => .endless
      | some (.missing name) => .missing name
      | some (.node outline) =>
          .node outline.face (outline.map (unfolding view depth)).parts

/-- Links count no depth. -/
theorem unfolding_of_steps {view : α → View α} {n : Nat} {x y : α} (steps : Steps view n x y)
    (depth : Nat) : unfolding view depth x = unfolding view depth y := by
  cases depth with
  | zero => rfl
  | succ depth =>
      have same : landing? view x = landing? view y := by
        cases found : landing? view y with
        | none =>
            rw [landing?_eq_none_iff] at found ⊢
            exact fun r lands => found r (lands.after steps)
        | some r =>
            rw [landing?_eq_some_iff] at found ⊢
            exact .of_steps steps found
      simp only [unfolding, same]

theorem unfolding_of_lands {view : α → View α} {x : α} {o : Outline α}
    (lands : Lands view x (.node o)) (depth : Nat) :
    unfolding view (depth + 1) x = .node o.face (o.map (unfolding view depth)).parts := by
  simp only [unfolding, landing?_eq_some_iff.mpr lands]

/-- How a place of one structure stands for a place of another. The number bounds how often the
second may move on alone. -/
inductive Matches (R : Nat → α → β → Prop) (viewA : α → View α) (viewB : β → View β) (k : Nat)
    (x : α) (y : β) : Prop
  | missing {name : String} (left : Lands viewA x (.missing name)) (right : viewB y = .missing name)
  | node {o : Outline α} {o' : Outline β} (left : Lands viewA x (.node o))
      (right : viewB y = .node o') (alike : Outline.Alike (fun p q => ∃ k', R k' p q) o o')
  /-- The second side moves on alone. -/
  | stay {k' : Nat} {y' : β} (right : viewB y = .link y') (less : k' < k) (related : R k' x y')
  | move {n k' : Nat} {x' : α} {y' : β} (left : Steps viewA (n + 1) x x')
      (right : viewB y = .link y') (related : R k' x' y')

/-- The ends of two chains correspond. -/
inductive Agree (R : Nat → α → β → Prop) : Landing α → Landing β → Prop
  | missing (name : String) : Agree R (.missing name) (.missing name)
  | node {o : Outline α} {o' : Outline β} (alike : Outline.Alike (fun p q => ∃ k, R k p q) o o') :
      Agree R (.node o) (.node o')

variable {R : Nat → α → β → Prop} {viewA : α → View α} {viewB : β → View β}

/-- Where the second side comes to an end, the first comes to one that corresponds. -/
theorem lands_left (simulation : ∀ k x y, R k x y → Matches R viewA viewB k x y) {n : Nat} {y z : β}
    (steps : Steps viewB n y z) {r' : Landing β} (final : viewB z = r'.view) {k : Nat} {x : α}
    (related : R k x y) : ∃ r, Lands viewA x r ∧ Agree R r r' := by
  induction steps generalizing k x with
  | refl y =>
      cases simulation k x y related with
      | missing left right =>
          rw [right] at final
          cases r' <;> cases final
          exact ⟨_, left, .missing _⟩
      | node left right alike =>
          rw [right] at final
          cases r' <;> cases final
          exact ⟨_, left, .node alike⟩
      | stay right _ _ => exact absurd (final.symm.trans right) Landing.view_ne_link
      | move _ right _ => exact absurd (final.symm.trans right) Landing.view_ne_link
  | step link _ ih =>
      cases simulation k x _ related with
      | missing _ right =>
          rw [link] at right
          cases right
      | node _ right _ =>
          rw [link] at right
          cases right
      | stay right _ related =>
          rw [link] at right
          cases right
          exact ih final related
      | move left right related =>
          rw [link] at right
          cases right
          obtain ⟨r, lands, agree⟩ := ih final related
          exact ⟨r, .of_steps left lands, agree⟩

/-- Where the first side comes to an end, so does the second: it moves on alone only so often, and
whenever both move the first side has less of its chain left. -/
theorem lands_right (simulation : ∀ k x y, R k x y → Matches R viewA viewB k x y) (n k : Nat) :
    ∀ (x : α) (y : β) (z : α) (r : Landing α), Steps viewA n x z → viewA z = r.view → R k x y →
      ∃ r', Lands viewB y r' := by
  induction n using Nat.strongRecOn generalizing k with
  | ind n shorter =>
      induction k using Nat.strongRecOn with
      | ind k fewer =>
          intro x y z r steps final related
          cases simulation k x y related with
          | missing _ right => exact ⟨.missing _, 0, y, .refl y, right⟩
          | node _ right _ => exact ⟨.node _, 0, y, .refl y, right⟩
          | stay right less related =>
              obtain ⟨r', lands⟩ := fewer _ less x _ z r steps final related
              exact ⟨r', .of_steps (.step right (.refl _)) lands⟩
          | move left right related =>
              obtain ⟨rest, rfl, others⟩ := left.rest steps final
              obtain ⟨r', lands⟩ := shorter rest (by omega) _ _ _ z r others final related
              exact ⟨r', .of_steps (.step right (.refl _)) lands⟩

/-- Places that correspond unfold to the same tree. -/
theorem unfolding_eq_of_simulation
    (simulation : ∀ k x y, R k x y → Matches R viewA viewB k x y) (depth : Nat) :
    ∀ (k : Nat) (x : α) (y : β), R k x y →
      unfolding viewA depth x = unfolding viewB depth y := by
  induction depth with
  | zero => exact fun _ _ _ _ => rfl
  | succ depth ih =>
      intro k x y related
      cases right : landing? viewB y with
      | none =>
          have left : landing? viewA x = none := by
            rw [landing?_eq_none_iff] at right ⊢
            rintro r ⟨n, z, steps, final⟩
            obtain ⟨r', lands⟩ := lands_right simulation n k x y z r steps final related
            exact right r' lands
          simp only [unfolding, left, right]
      | some r' =>
          obtain ⟨n, z, steps, final⟩ := landing?_eq_some_iff.mp right
          obtain ⟨r, lands, agree⟩ := lands_left simulation steps final related
          have left := landing?_eq_some_iff.mpr lands
          cases agree with
          | missing name => simp only [unfolding, left, right]
          | node alike =>
              have parts := Outline.Alike.map_eq (alike.mono fun p _ q _ corresponds => by
                obtain ⟨k', related⟩ := corresponds
                exact ih k' p.2 q.2 related)
              simp only [unfolding, left, right, alike.face, parts]

end View

end ApiCodec
