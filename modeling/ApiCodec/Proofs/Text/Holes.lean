import ApiCodec.Text.Segments
import Mathlib.Data.List.Basic

set_option autoImplicit false

/-!
Texts with holes. A hole is a name in braces, without braces in between. Every text is cut into holes
and single characters in exactly one way (`exists_cut`, `Cut.unique`); where names are looked for in
holes, to replace them one after the other or all at once is to replace pieces of the cut.
-/

namespace ApiCodec.Text

def isBrace (c : Char) : Bool := c == '\x7b' || c == '\x7d'

def Braceless (text : List Char) : Prop := ∀ c ∈ text, isBrace c = false

instance (text : List Char) : Decidable (Braceless text) :=
  List.decidableBAll (isBrace · = false) text

/-- A text whose first brace closes what was opened before it. -/
def Closes (text : List Char) : Prop := text.find? isBrace = some '\x7d'

/-- A piece of a text: a single character, or a hole with its name. -/
inductive Piece
  | char (c : Char)
  | hole (name : List Char)
  deriving DecidableEq

def Piece.write : Piece → List Char
  | .char c => [c]
  | .hole name => placeholder name

/-- The text of several pieces. -/
def write (pieces : List Piece) : List Char := pieces.flatMap Piece.write

/-- How a text is cut. An opening brace stands for itself only if no hole begins with it. -/
inductive Cut : List Char → List Piece → Prop
  | nil : Cut [] []
  | char {c : Char} {text : List Char} {pieces : List Piece}
      (alone : c = '\x7b' → ¬ Closes text) (rest : Cut text pieces) :
      Cut (c :: text) (.char c :: pieces)
  | hole {name text : List Char} {pieces : List Piece} (braceless : Braceless name)
      (rest : Cut text pieces) : Cut (placeholder name ++ text) (.hole name :: pieces)

section

variable {name other text text' : List Char}

theorem placeholder_append :
    placeholder name ++ text = '\x7b' :: (name ++ '\x7d' :: text) := by
  simp [placeholder]

theorem closes_of_braceless (braceless : Braceless name) : Closes (name ++ '\x7d' :: text) := by
  have none : name.find? isBrace = none := by
    rw [List.find?_eq_none]
    intro c member
    rw [braceless c member]
    exact Bool.false_ne_true
  rw [Closes, List.find?_append, none, Option.none_or, List.find?_cons_of_pos (by rfl)]

/-- A text whose first brace closes begins with a name. -/
theorem exists_of_closes (closes : Closes text) :
    ∃ name rest, Braceless name ∧ text = name ++ '\x7d' :: rest := by
  obtain ⟨_, name, rest, rfl, before⟩ := List.find?_eq_some_iff_append.mp closes
  refine ⟨name, rest, fun c member => ?_, rfl⟩
  simpa using before c member

/-- A name ends at the first brace after it. -/
theorem eq_of_append_close (braceless : Braceless name) (braceless' : Braceless other)
    (same : name ++ '\x7d' :: text = other ++ '\x7d' :: text') : name = other ∧ text = text' := by
  induction name generalizing other with
  | nil =>
      cases other with
      | nil => exact ⟨rfl, (List.cons.inj same).2⟩
      | cons c rest =>
          have closing := braceless' c List.mem_cons_self
          rw [← (List.cons.inj same).1] at closing
          cases closing
  | cons c rest ih =>
      cases other with
      | nil =>
          have closing := braceless c List.mem_cons_self
          rw [(List.cons.inj same).1] at closing
          cases closing
      | cons d others =>
          obtain ⟨rfl, tails⟩ := List.cons.inj same
          obtain ⟨rfl, rfl⟩ := ih (List.forall_mem_cons.mp braceless).2
            (List.forall_mem_cons.mp braceless').2 tails
          exact ⟨rfl, rfl⟩

theorem placeholder_prefix_iff (braceless : Braceless name) (braceless' : Braceless other) :
    (placeholder name).isPrefixOf (placeholder other ++ text) ↔ name = other := by
  rw [List.isPrefixOf_iff_prefix]
  constructor
  · rintro ⟨rest, same⟩
    rw [placeholder_append, placeholder_append] at same
    exact (eq_of_append_close braceless braceless' (List.cons.inj same).2).1
  · rintro rfl
    exact List.prefix_append _ _

/-- Where a name in braces begins, a hole does. -/
theorem closes_of_prefix {c : Char} (braceless : Braceless name)
    (begins : (placeholder name).isPrefixOf (c :: text)) : c = '\x7b' ∧ Closes text := by
  obtain ⟨rest, same⟩ := List.isPrefixOf_iff_prefix.mp begins
  rw [placeholder_append] at same
  obtain ⟨rfl, rfl⟩ := List.cons.inj same
  exact ⟨rfl, closes_of_braceless braceless⟩

/-- No name in braces begins where no brace opens. -/
theorem not_prefix_of_ne {c : Char} (inside : c ≠ '\x7b') :
    (placeholder name).isPrefixOf (c :: text) = false := by
  rw [Bool.eq_false_iff]
  intro begins
  obtain ⟨rest, same⟩ := List.isPrefixOf_iff_prefix.mp begins
  rw [placeholder_append] at same
  exact inside (List.cons.inj same).1.symm

/-- After the brace that opens it, a hole has no other. -/
theorem ne_open_of_hole (braceless : Braceless name) : ∀ c ∈ name ++ ['\x7d'], c ≠ '\x7b' := by
  intro c member same
  rcases List.mem_append.mp member with member | member
  · have brace := braceless c member
    rw [same] at brace
    cases brace
  · rw [List.mem_singleton.mp member] at same
    cases same

theorem occurs_append_of_ne {front : List Char} (inside : ∀ c ∈ front, c ≠ '\x7b') :
    occurs (placeholder name) (front ++ text) = occurs (placeholder name) text := by
  induction front with
  | nil => rfl
  | cons c rest ih =>
      obtain ⟨first, others⟩ := List.forall_mem_cons.mp inside
      rw [List.cons_append, occurs, not_prefix_of_ne first, Bool.false_or, ih others]

/-- A name in braces occurs in a hole and after it. -/
theorem occurs_hole (braceless : Braceless name) (braceless' : Braceless other) :
    occurs (placeholder name) (placeholder other ++ text) ↔
      name = other ∨ occurs (placeholder name) text := by
  rw [placeholder_append, occurs, ← placeholder_append, Bool.or_eq_true,
    placeholder_prefix_iff braceless braceless', List.append_cons,
    occurs_append_of_ne (ne_open_of_hole braceless')]

end

theorem exists_cut (text : List Char) : ∃ pieces, Cut text pieces := by
  induction size : text.length using Nat.strongRecOn generalizing text with
  | ind size ih =>
      cases text with
      | nil => exact ⟨[], .nil⟩
      | cons c rest =>
          by_cases opens : c = '\x7b' ∧ Closes rest
          · obtain ⟨rfl, closes⟩ := opens
            obtain ⟨name, after, braceless, rfl⟩ := exists_of_closes closes
            obtain ⟨pieces, cut⟩ := ih after.length (by
              rw [← size, List.length_cons, List.length_append, List.length_cons]
              omega) after rfl
            exact ⟨.hole name :: pieces, placeholder_append ▸ .hole braceless cut⟩
          · obtain ⟨pieces, cut⟩ := ih rest.length (by
              rw [← size, List.length_cons]
              omega) rest rfl
            exact ⟨.char c :: pieces, .char (fun same closes => opens ⟨same, closes⟩) cut⟩

namespace Cut

variable {text : List Char} {pieces : List Piece}

theorem write_eq (cut : Cut text pieces) : write pieces = text := by
  induction cut with
  | nil => rfl
  | char _ _ ih => exact congrArg (_ :: ·) ih
  | hole _ _ ih => exact congrArg (placeholder _ ++ ·) ih

theorem unique {others : List Piece} (cut : Cut text pieces) (cut' : Cut text others) :
    pieces = others := by
  induction cut generalizing others with
  | nil =>
      generalize empty : ([] : List Char) = text at cut'
      cases cut' with
      | nil => rfl
      | char _ _ => cases empty
      | hole _ _ => cases empty
  | @char c text pieces alone rest ih =>
      generalize same : c :: text = whole at cut'
      cases cut' with
      | nil => cases same
      | char alone' rest' =>
          obtain ⟨rfl, rfl⟩ := List.cons.inj same
          rw [ih rest']
      | hole braceless rest' =>
          rw [placeholder_append] at same
          obtain ⟨rfl, rfl⟩ := List.cons.inj same
          exact absurd (closes_of_braceless braceless) (alone rfl)
  | @hole name text pieces braceless rest ih =>
      generalize same : placeholder name ++ text = whole at cut'
      rw [placeholder_append] at same
      cases cut' with
      | nil => cases same
      | char alone' rest' =>
          obtain ⟨rfl, rfl⟩ := List.cons.inj same
          exact absurd (closes_of_braceless braceless) (alone' rfl)
      | hole braceless' rest' =>
          rw [placeholder_append] at same
          obtain ⟨rfl, rfl⟩ :=
            eq_of_append_close braceless braceless' (List.cons.inj same).2
          rw [ih rest']

theorem occurs_iff {name : List Char} (braceless : Braceless name) (cut : Cut text pieces) :
    occurs (placeholder name) text ↔ .hole name ∈ pieces := by
  induction cut with
  | nil =>
      constructor
      · intro found
        cases found
      · intro member
        cases member
  | @char c text pieces alone rest ih =>
      have other : (placeholder name).isPrefixOf (c :: text) = false := by
        rw [Bool.eq_false_iff]
        intro begins
        obtain ⟨opens, closes⟩ := closes_of_prefix braceless begins
        exact alone opens closes
      have differ : Piece.hole name ≠ .char c := by simp
      rw [occurs, other, Bool.false_or, ih, List.mem_cons, or_iff_right differ]
  | @hole own text pieces plain rest ih =>
      rw [List.mem_cons, Piece.hole.injEq, ← ih, occurs_hole braceless plain]

end Cut

/-- Replaces the occurrences of several patterns in one pass, after stepping over `skip` characters
that an occurrence already covered. Where several patterns occur, the first is taken. -/
def replaceEachFrom (table : List (List Char × List Char)) : Nat → List Char → List Char
  | _, [] => []
  | skip + 1, _ :: rest => replaceEachFrom table skip rest
  | 0, c :: rest =>
      match table.find? fun row => row.1.isPrefixOf (c :: rest) with
      | some row => row.2 ++ replaceEachFrom table (row.1.length - 1) rest
      | none => c :: replaceEachFrom table 0 rest

/-- Replaces every occurrence of several non-empty patterns at once. -/
def replaceEach (table : List (List Char × List Char)) (text : List Char) : List Char :=
  replaceEachFrom table 0 text

/-- To replace one pattern is to replace each of a single one. -/
theorem replaceChars_eq (pattern replacement text : List Char) :
    replaceChars pattern replacement text = replaceEach [(pattern, replacement)] text := by
  unfold replaceChars replaceEach
  fun_induction replaceFrom pattern replacement 0 text with
  | case1 skip => cases skip <;> rfl
  | case2 skip c rest ih => exact ih
  | case3 c rest begins ih =>
      rw [replaceEachFrom, List.find?_cons]
      simp only [begins, ih]
  | case4 c rest other ih =>
      rw [replaceEachFrom, List.find?_cons, List.find?_nil]
      simp only [other, ih]

/-- What a hole is replaced by: a dollar sign, and a hole of another name. -/
def filling (name : List Char) : List Char := '$' :: placeholder name

/-- Names in braces with what they are replaced by. -/
def fillings (rows : List (List Char × List Char)) : List (List Char × List Char) :=
  rows.map fun row => (placeholder row.1, filling row.2)

theorem fillings_singleton (row : List Char × List Char) :
    fillings [row] = [(placeholder row.1, filling row.2)] := rfl

def Piece.fill (value : List Char → Option (List Char)) : Piece → List Piece
  | .char c => [.char c]
  | .hole name =>
      match value name with
      | some other => [.char '$', .hole other]
      | none => [.hole name]

theorem write_append (front back : List Piece) : write (front ++ back) = write front ++ write back :=
  List.flatMap_append

theorem replaceEachFrom_append_of_length {table : List (List Char × List Char)}
    {front text : List Char} {skip : Nat} (covered : front.length = skip) :
    replaceEachFrom table skip (front ++ text) = replaceEachFrom table 0 text := by
  subst covered
  induction front with
  | nil => rfl
  | cons c rest ih => exact ih

section

variable {rows : List (List Char × List Char)}

theorem find?_fillings (text : List Char) :
    (fillings rows).find? (fun row => row.1.isPrefixOf text) =
      (rows.find? fun row => (placeholder row.1).isPrefixOf text).map
        fun row => (placeholder row.1, filling row.2) := by
  rw [fillings, List.find?_map]
  rfl

theorem replaceEachFrom_append_of_ne {front text : List Char} (inside : ∀ c ∈ front, c ≠ '\x7b') :
    replaceEachFrom (fillings rows) 0 (front ++ text) =
      front ++ replaceEachFrom (fillings rows) 0 text := by
  induction front with
  | nil => rfl
  | cons c rest ih =>
      obtain ⟨first, others⟩ := List.forall_mem_cons.mp inside
      have none : rows.find? (fun row => (placeholder row.1).isPrefixOf (c :: (rest ++ text))) =
          none := by
        rw [List.find?_eq_none]
        intro row _ begins
        rw [not_prefix_of_ne first] at begins
        cases begins
      rw [List.cons_append, replaceEachFrom, find?_fillings, none]
      exact congrArg (c :: ·) (ih others)

/-- At a hole the first row of its name is found. -/
theorem find?_hole (plain : ∀ row ∈ rows, Braceless row.1) {name text : List Char}
    (braceless : Braceless name) :
    rows.find? (fun row => (placeholder row.1).isPrefixOf (placeholder name ++ text)) =
      (rows.lookup name).map fun other => (name, other) := by
  induction rows with
  | nil => rfl
  | cons row rest ih =>
      obtain ⟨first, others⟩ := List.forall_mem_cons.mp plain
      obtain ⟨own, value⟩ := row
      rw [List.lookup_cons, List.find?_cons]
      by_cases same : own = name
      · subst same
        rw [(placeholder_prefix_iff first braceless).mpr rfl, beq_self_eq_true]
        rfl
      · have other : (placeholder own).isPrefixOf (placeholder name ++ text) = false := by
          rw [Bool.eq_false_iff]
          exact mt (placeholder_prefix_iff first braceless).mp same
        rw [other, beq_false_of_ne (Ne.symm same)]
        exact ih others

end

namespace Cut

variable {text : List Char} {pieces : List Piece}

/-- To replace names in braces all at once is to fill the holes of these names. -/
theorem replaceEach_eq {rows : List (List Char × List Char)}
    (plain : ∀ row ∈ rows, Braceless row.1) (cut : Cut text pieces) :
    replaceEach (fillings rows) text = write (pieces.flatMap (Piece.fill (List.lookup · rows))) := by
  unfold replaceEach
  induction cut with
  | nil => rfl
  | @char c text pieces alone rest ih =>
      have none : rows.find? (fun row => (placeholder row.1).isPrefixOf (c :: text)) = none := by
        rw [List.find?_eq_none]
        intro row member begins
        obtain ⟨opens, closes⟩ := closes_of_prefix (plain row member) begins
        exact alone opens closes
      rw [replaceEachFrom, find?_fillings, none, List.flatMap_cons, write_append, ← ih]
      rfl
  | @hole name text pieces braceless rest ih =>
      rw [List.flatMap_cons, write_append, ← ih, placeholder_append, replaceEachFrom, find?_fillings,
        ← placeholder_append, find?_hole plain braceless, List.append_cons]
      cases found : rows.lookup name with
      | none =>
          simp only [Option.map_none]
          rw [replaceEachFrom_append_of_ne (ne_open_of_hole braceless)]
          simp [Piece.fill, found, write, Piece.write, placeholder]
      | some other =>
          simp only [Option.map_some]
          rw [replaceEachFrom_append_of_length (by simp [placeholder])]
          simp [Piece.fill, found, write, Piece.write, filling]

end Cut

/-- The holes of a text in which those of one name are filled. -/
theorem hole_mem_fill_iff {own other name : List Char} {pieces : List Piece} :
    .hole name ∈ pieces.flatMap (Piece.fill (List.lookup · [(own, other)])) ↔
      (.hole name ∈ pieces ∧ name ≠ own) ∨ (.hole own ∈ pieces ∧ name = other) := by
  rw [List.mem_flatMap]
  constructor
  · rintro ⟨piece, inside, member⟩
    cases piece with
    | char c => simp [Piece.fill] at member
    | hole found =>
        by_cases same : found = own
        · refine Or.inr ⟨same ▸ inside, ?_⟩
          simpa [Piece.fill, same] using member
        · have differ : (found == own) = false := beq_false_of_ne same
          have here : name = found := by simpa [Piece.fill, List.lookup_cons, differ] using member
          exact Or.inl ⟨here ▸ inside, here ▸ same⟩
  · rintro (⟨inside, differ⟩ | ⟨inside, rfl⟩)
    · have differ : (name == own) = false := beq_false_of_ne differ
      exact ⟨_, inside, by simp [Piece.fill, List.lookup_cons, differ]⟩
    · exact ⟨_, inside, by simp [Piece.fill]⟩

/-- Filling holes changes nothing about which brace is the first. -/
theorem find?_isBrace_fill (value : List Char → Option (List Char)) (pieces : List Piece) :
    (write (pieces.flatMap (Piece.fill value))).find? isBrace = (write pieces).find? isBrace := by
  induction pieces with
  | nil => rfl
  | cons piece rest ih =>
      rw [List.flatMap_cons, write_append, ← List.singleton_append, write_append, List.find?_append,
        List.find?_append, ih]
      congr 1
      cases piece with
      | char c => rfl
      | hole name =>
          cases found : value name with
          | none => simp only [Piece.fill, found]
          | some other =>
              simp only [Piece.fill, found]
              rfl

/-- A text with holes filled is cut where it was cut before. -/
theorem Cut.fill {text : List Char} {pieces : List Piece} {value : List Char → Option (List Char)}
    (braceless : ∀ name other, value name = some other → Braceless other)
    (cut : Cut text pieces) :
    Cut (write (pieces.flatMap (Piece.fill value))) (pieces.flatMap (Piece.fill value)) := by
  induction cut with
  | nil => exact .nil
  | @char c text pieces alone rest ih =>
      refine .char (fun opens closes => alone opens ?_) ih
      have first := find?_isBrace_fill value pieces
      rw [rest.write_eq] at first
      exact first.symm.trans closes
  | @hole name text pieces plain rest ih =>
      rw [List.flatMap_cons]
      cases found : value name with
      | none =>
          simp only [Piece.fill, found]
          exact .hole plain ih
      | some other =>
          simp only [Piece.fill, found]
          exact .char (fun opens => by cases opens) (.hole (braceless name other found) ih)

/-- What a hole becomes when rows fill holes one after the other. A row may fill what a row before it
has put there. -/
def inTurn : List (List Char × List Char) → List Char → List Piece
  | [], name => [.hole name]
  | (own, other) :: rest, name =>
      if own = name then .char '$' :: inTurn rest other else inTurn rest name

def Piece.fillInTurn (rows : List (List Char × List Char)) : Piece → List Piece
  | .char c => [.char c]
  | .hole name => inTurn rows name

theorem flatMap_fillInTurn_nil (pieces : List Piece) :
    pieces.flatMap (Piece.fillInTurn []) = pieces := by
  induction pieces with
  | nil => rfl
  | cons piece rest ih =>
      rw [List.flatMap_cons, ih]
      cases piece <;> rfl

/-- Filling with the first row and then with the others in turn. -/
theorem flatMap_fillInTurn_cons (row : List Char × List Char)
    (rest : List (List Char × List Char)) (pieces : List Piece) :
    (pieces.flatMap (Piece.fill (List.lookup · [row]))).flatMap (Piece.fillInTurn rest) =
      pieces.flatMap (Piece.fillInTurn (row :: rest)) := by
  obtain ⟨own, other⟩ := row
  rw [List.flatMap_assoc]
  congr 1
  funext piece
  cases piece with
  | char c => rfl
  | hole name =>
      by_cases same : own = name
      · simp [Piece.fill, Piece.fillInTurn, inTurn, same]
      · have differ : (name == own) = false := beq_false_of_ne (Ne.symm same)
        simp [Piece.fill, Piece.fillInTurn, inTurn, List.lookup_cons, same, differ]

theorem braceless_of_lookup {rows : List (List Char × List Char)}
    (plain : ∀ row ∈ rows, Braceless row.2) {name other : List Char}
    (found : rows.lookup name = some other) : Braceless other := by
  obtain ⟨before, after, rfl, _⟩ := List.lookup_eq_some_iff.mp found
  exact plain _ (List.mem_append_right _ List.mem_cons_self)

theorem Cut.fillInTurn {text : List Char} {pieces : List Piece}
    {rows : List (List Char × List Char)} (plain : ∀ row ∈ rows, Braceless row.2)
    (cut : Cut text pieces) :
    Cut (write (pieces.flatMap (Piece.fillInTurn rows))) (pieces.flatMap (Piece.fillInTurn rows)) := by
  induction rows generalizing text pieces with
  | nil => rwa [flatMap_fillInTurn_nil, cut.write_eq]
  | cons row rest ih =>
      obtain ⟨first, others⟩ := List.forall_mem_cons.mp plain
      rw [← flatMap_fillInTurn_cons]
      exact ih others (cut.fill fun _ _ => braceless_of_lookup (List.forall_mem_singleton.mpr first))

/-- A hole behind dollar signs. -/
inductive Filled : List Piece → Prop
  | hole (name : List Char) : Filled [.hole name]
  | dollar {pieces : List Piece} (rest : Filled pieces) : Filled (.char '$' :: pieces)

theorem Filled.append_inj {a b front back : List Piece} (filled : Filled a) (filled' : Filled b)
    (same : a ++ front = b ++ back) : a = b ∧ front = back := by
  induction filled generalizing b with
  | hole name =>
      cases filled' with
      | hole other =>
          obtain ⟨here, tails⟩ := List.cons.inj same
          exact ⟨congrArg (fun piece => [piece]) here, tails⟩
      | dollar rest => cases (List.cons.inj same).1
  | dollar rest ih =>
      cases filled' with
      | hole other => cases (List.cons.inj same).1
      | dollar rest' =>
          obtain ⟨rfl, rfl⟩ := ih rest' (List.cons.inj same).2
          exact ⟨rfl, rfl⟩

theorem filled_fill (value : List Char → Option (List Char)) (name : List Char) :
    Filled (Piece.fill value (.hole name)) := by
  cases found : value name with
  | none =>
      simp only [Piece.fill, found]
      exact .hole name
  | some other =>
      simp only [Piece.fill, found]
      exact .dollar (.hole other)

theorem filled_inTurn (rows : List (List Char × List Char)) (name : List Char) :
    Filled (inTurn rows name) := by
  fun_induction inTurn rows name with
  | case1 name => exact .hole name
  | case2 own other rest ih => exact .dollar ih
  | case3 own other rest name _ ih => exact ih

section

variable {rows : List (List Char × List Char)} {pieces : List Piece}

/-- Both ways of filling agree on a text exactly if they agree on its holes. -/
theorem flatMap_fillInTurn_eq_iff :
    pieces.flatMap (Piece.fillInTurn rows) = pieces.flatMap (Piece.fill (List.lookup · rows)) ↔
      ∀ name, .hole name ∈ pieces →
        inTurn rows name = Piece.fill (List.lookup · rows) (.hole name) := by
  induction pieces with
  | nil => simp
  | cons piece rest ih =>
      rw [List.flatMap_cons, List.flatMap_cons]
      cases piece with
      | char c =>
          have tail : (∀ name, .hole name ∈ .char c :: rest →
              inTurn rows name = Piece.fill (List.lookup · rows) (.hole name)) ↔
              ∀ name, .hole name ∈ rest →
                inTurn rows name = Piece.fill (List.lookup · rows) (.hole name) := by
            simp
          rw [tail, ← ih]
          exact List.cons_inj_right _
      | hole own =>
          constructor
          · intro same name member
            obtain ⟨first, others⟩ := (filled_inTurn rows own).append_inj (filled_fill _ own) same
            rcases List.mem_cons.mp member with here | later
            · rw [Piece.hole.inj here]
              exact first
            · exact ih.mp others name later
          · intro agree
            rw [ih.mpr fun name later => agree name (List.mem_cons_of_mem _ later)]
            exact congrArg (· ++ _) (agree own List.mem_cons_self)

theorem inTurn_eq_hole_iff {name : List Char} :
    inTurn rows name = [.hole name] ↔ ∀ row ∈ rows, name ≠ row.1 := by
  induction rows with
  | nil => simp [inTurn]
  | cons row rest ih =>
      obtain ⟨own, other⟩ := row
      rw [inTurn, List.forall_mem_cons, ← ih]
      by_cases same : own = name
      · rw [if_pos same]
        constructor
        · intro found
          cases (List.cons.inj found).1
        · intro other
          exact absurd same.symm other.1
      · rw [if_neg same]
        exact (and_iff_right (Ne.symm same)).symm

/-- A hole is filled the same in turn as at once exactly if what is put into it is not the name of a
row after the one that fills it. -/
theorem inTurn_eq_fill_iff (distinct : rows.Pairwise fun row later => row.1 ≠ later.1)
    {name : List Char} :
    inTurn rows name = Piece.fill (List.lookup · rows) (.hole name) ↔
      rows.Pairwise fun row later => row.1 = name → row.2 ≠ later.1 := by
  induction rows with
  | nil => exact ⟨fun _ => .nil, fun _ => rfl⟩
  | cons row rest ih =>
      obtain ⟨own, other⟩ := row
      obtain ⟨first, others⟩ := List.pairwise_cons.mp distinct
      rw [inTurn, List.pairwise_cons]
      by_cases same : own = name
      · subst same
        have quiet : rest.Pairwise fun row later => row.1 = own → row.2 ≠ later.1 :=
          List.pairwise_of_forall_mem_list fun row member later _ here =>
            absurd here.symm (first row member)
        rw [if_pos rfl, and_iff_left quiet]
        simp only [Piece.fill, List.lookup_cons_self, forall_const]
        rw [List.cons_inj_right, inTurn_eq_hole_iff]
      · have differ : (name == own) = false := beq_false_of_ne (Ne.symm same)
        rw [if_neg same]
        simp only [Piece.fill, List.lookup_cons, differ] at ih ⊢
        rw [ih others]
        exact (and_iff_right fun later _ here => absurd here same).symm

/-- Filling in turn comes to filling at once exactly if no row puts a name into a hole of the text
that a row after it fills. -/
theorem fillInTurn_eq_fill_iff (distinct : rows.Pairwise fun row later => row.1 ≠ later.1) :
    pieces.flatMap (Piece.fillInTurn rows) = pieces.flatMap (Piece.fill (List.lookup · rows)) ↔
      rows.Pairwise fun row later => .hole row.1 ∈ pieces → row.2 ≠ later.1 := by
  rw [flatMap_fillInTurn_eq_iff]
  simp only [inTurn_eq_fill_iff distinct, List.pairwise_iff_forall_sublist]
  constructor
  · intro each row later inside member
    exact each row.1 member inside rfl
  · intro apart name member row later inside here
    exact apart inside (here ▸ member)

/-- Filling the holes of a text in turn comes to replacing their names in the text at once exactly if
no row puts a name into a hole of the text that a row after it fills. -/
theorem Cut.write_fillInTurn_eq_iff {text : List Char}
    (distinct : rows.Pairwise fun row later => row.1 ≠ later.1)
    (names : ∀ row ∈ rows, Braceless row.1) (values : ∀ row ∈ rows, Braceless row.2)
    (cut : Cut text pieces) :
    write (pieces.flatMap (Piece.fillInTurn rows)) = replaceEach (fillings rows) text ↔
      rows.Pairwise fun row later => .hole row.1 ∈ pieces → row.2 ≠ later.1 := by
  have apart := cut.fillInTurn values
  have atOnce : Cut (write (pieces.flatMap (Piece.fill (List.lookup · rows)))) _ :=
    cut.fill fun _ _ => braceless_of_lookup values
  rw [cut.replaceEach_eq names, ← fillInTurn_eq_fill_iff distinct]
  constructor
  · intro same
    rw [same] at apart
    exact apart.unique atOnce
  · exact congrArg write

end

end ApiCodec.Text
