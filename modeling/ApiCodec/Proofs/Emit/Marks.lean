import ApiCodec.Proofs.Emit.Rendering
import ApiCodec.Proofs.Text.Escaping

set_option autoImplicit false

/-!
Templates read character by character, each of which is known to come from the template or from a
value. A comment is closed if nothing but an end mark of the template ends it. Which zone a template
leaves is found before any value is known (`allLeave`), and it is left with any values in it
(`after_marksAll`).
-/

namespace ApiCodec

namespace Emit

/-- Where a character comes from. -/
inductive Origin
  | template
  | value
  /-- A value that is escaped for a comment. -/
  | escaped
  deriving DecidableEq, Repr

/-- A character of a generated file. -/
structure Mark where
  char : Char
  origin : Origin
  deriving DecidableEq, Repr

def marksOf (origin : Origin) (text : String) : List Mark := text.toList.map (⟨·, origin⟩)

mutual

/-- The characters of a part. -/
def Piece.marks (scope : Scope) : Piece → List Mark
  | .text text => marksOf .template text
  | .value place => marksOf .value (valueText (place.find? scope))
  | .comment place => marksOf .escaped (commentText (valueText (place.find? scope)))
  | .each name items body =>
      ((itemsOf (items.find? scope)).getD []).flatMap fun item =>
        marksAll ((name, item) :: scope) body
  | .choose test yes no => if test.eval scope then marksAll scope yes else marksAll scope no

/-- The characters of parts, one after the other. -/
def marksAll (scope : Scope) : List Piece → List Mark
  | [] => []
  | piece :: rest => piece.marks scope ++ marksAll scope rest

end

theorem marksAll_append (scope : Scope) (pieces others : List Piece) :
    marksAll scope (pieces ++ others) = marksAll scope pieces ++ marksAll scope others := by
  induction pieces with
  | nil => rfl
  | cons piece rest ih => simp only [List.cons_append, marksAll, ih, List.append_assoc]

@[simp] theorem chars_marksOf (origin : Origin) (text : String) :
    (marksOf origin text).map Mark.char = text.toList := by
  simp [marksOf, Function.comp_def]

mutual

theorem Piece.chars_marks (scope : Scope) : ∀ piece : Piece,
    (piece.marks scope).map Mark.char = (piece.written scope).toList
  | .text _ => chars_marksOf _ _
  | .value _ => chars_marksOf _ _
  | .comment _ => chars_marksOf _ _
  | .each name items body => by
      have one : ∀ item, (marksAll ((name, item) :: scope) body).map Mark.char =
          (writtenAll ((name, item) :: scope) body).toList :=
        fun item => chars_marksAll ((name, item) :: scope) body
      simp only [Piece.marks, Piece.written, List.map_flatMap, one]
      induction (itemsOf (items.find? scope)).getD [] with
      | nil => rfl
      | cons item rest ih => simp [String.join_cons, ih]
  | .choose test yes no => by
      unfold Piece.marks Piece.written
      split
      · exact chars_marksAll scope yes
      · exact chars_marksAll scope no

/-- The marked characters are those of the text. -/
theorem chars_marksAll (scope : Scope) : ∀ pieces : List Piece,
    (marksAll scope pieces).map Mark.char = (writtenAll scope pieces).toList
  | [] => rfl
  | piece :: rest => by
      simp [marksAll, piece.chars_marks scope, chars_marksAll scope rest]

end

/-- Each line that an escaped value begins is led by a star. -/
def LinesLed (marks : List Mark) : Prop :=
  Text.FollowedBy ⟨'\n', .escaped⟩ ([' ', '*', ' '].map (⟨·, .escaped⟩)) marks

theorem linesLed_marksOf {origin : Origin} (other : origin ≠ .escaped) (text : String) :
    LinesLed (marksOf origin text) := by
  apply Text.followedBy_of_notMem
  intro member
  obtain ⟨_, _, same⟩ := List.mem_map.mp member
  exact other (congrArg Mark.origin same)

theorem linesLed_escaped (text : String) : LinesLed (marksOf .escaped (commentText text)) := by
  have injective : Function.Injective fun c => (⟨c, .escaped⟩ : Mark) :=
    fun _ _ same => congrArg Mark.char same
  exact (followedBy_commentText text).map injective

mutual

theorem Piece.linesLed_marks : ∀ (scope : Scope) (piece : Piece), LinesLed (piece.marks scope)
  | _, .text _ => linesLed_marksOf Origin.noConfusion _
  | _, .value _ => linesLed_marksOf Origin.noConfusion _
  | _, .comment _ => linesLed_escaped _
  | scope, .each name items body => by
      unfold Piece.marks
      induction (itemsOf (items.find? scope)).getD [] with
      | nil => exact Text.followedBy_nil
      | cons item rest ih => exact (linesLed_marksAll ((name, item) :: scope) body).append ih
  | scope, .choose test yes no => by
      unfold Piece.marks
      split
      · exact linesLed_marksAll scope yes
      · exact linesLed_marksAll scope no

/-- Whatever the values are, each line that an escaped one begins is led by a star. -/
theorem linesLed_marksAll : ∀ (scope : Scope) (pieces : List Piece),
    LinesLed (marksAll scope pieces)
  | _, [] => Text.followedBy_nil
  | scope, piece :: rest => (piece.linesLed_marks scope).append (linesLed_marksAll scope rest)

end

/-- Where the next character of a file stands. -/
inductive Zone
  | code
  /-- In code, after a slash of the template. -/
  | slash
  | comment
  /-- In a comment, after a star of the template. -/
  | ownStar
  /-- In a comment, after a star of a value. -/
  | otherStar
  deriving DecidableEq, Repr

namespace Zone

/-- The zone in a comment after a character that does not end it. -/
def within (m : Mark) : Zone :=
  if m.char = '*' then if m.origin = .template then .ownStar else .otherStar else .comment

/-- The zone after a character. There is none after an end mark that is not all of the template.
Comments are those that the template begins: values in code are passed over. -/
def next : Zone → Mark → Option Zone
  | .code, m => some (if m.origin = .template ∧ m.char = '/' then .slash else .code)
  | .slash, m =>
      some (if m.origin ≠ .template then .code else if m.char = '*' then .comment
        else if m.char = '/' then .slash else .code)
  | .comment, m => some (within m)
  | .ownStar, m =>
      if m.char ≠ '/' then some (within m) else if m.origin = .template then some .code else none
  | .otherStar, m => if m.char = '/' then none else some (within m)

/-- The zone after several characters. -/
def after (zone : Zone) (marks : List Mark) : Option Zone := marks.foldlM next zone

@[simp] theorem after_nil (zone : Zone) : zone.after [] = some zone := rfl

@[simp] theorem after_cons (zone : Zone) (m : Mark) (rest : List Mark) :
    zone.after (m :: rest) = (zone.next m).bind (·.after rest) := rfl

theorem after_append (zone : Zone) (marks others : List Mark) :
    zone.after (marks ++ others) = (zone.after marks).bind (·.after others) :=
  List.foldlM_append

/-- Whether a file that may be in one zone may as well be in another: a star of a value may stand
in a comment or not. -/
def Covers (zone other : Zone) : Prop := other = zone ∨ (zone = .otherStar ∧ other = .comment)

theorem Covers.refl (zone : Zone) : zone.Covers zone := Or.inl rfl

theorem covers_code {other : Zone} : Covers .code other ↔ other = .code := by
  simp [Covers]

theorem covers_comment {other : Zone} : Covers .comment other ↔ other = .comment := by
  simp [Covers]

/-- What may happen after a star of a value may happen without one. -/
theorem Covers.next {zone other left : Zone} (covers : zone.Covers other) {m : Mark}
    (step : zone.next m = some left) : ∃ real, other.next m = some real ∧ left.Covers real := by
  obtain rfl | ⟨rfl, rfl⟩ := covers
  · exact ⟨left, step, .refl left⟩
  · by_cases slash : m.char = '/'
    · simp [Zone.next, slash] at step
    · simp only [Zone.next, slash, if_false] at step
      exact ⟨left, step, .refl left⟩

theorem Covers.after {zone other left : Zone} (covers : zone.Covers other) {marks : List Mark}
    (run : zone.after marks = some left) :
    ∃ real, other.after marks = some real ∧ left.Covers real := by
  induction marks generalizing zone other with
  | nil =>
      cases run
      exact ⟨other, rfl, covers⟩
  | cons m rest ih =>
      obtain ⟨middle, step, more⟩ := Option.bind_eq_some_iff.mp run
      obtain ⟨real, stepped, covered⟩ := covers.next step
      obtain ⟨last, done, lastly⟩ := ih covered more
      exact ⟨last, by rw [after_cons, stepped]; exact done, lastly⟩

/-- A value in code is passed over. -/
theorem after_value (text : String) : Zone.code.after (marksOf .value text) = some .code := by
  unfold marksOf
  induction text.toList with
  | nil => rfl
  | cons c rest ih => simpa [next] using ih

/-- A comment after a character of a value. -/
def inside (star : Bool) : Zone := if star then .otherStar else .comment

theorem covers_inside (star : Bool) : Covers .otherStar (inside star) := by
  cases star <;> simp [Covers, inside]

theorem next_inside {origin : Origin} (other : origin ≠ .template) (star : Bool) (c : Char) :
    (inside star).next ⟨c, origin⟩ =
      if star && c == '/' then none else some (inside (c == '*')) := by
  cases star <;> simp [inside, next, within, other]

/-- A value in a comment stays there unless it ends the comment. -/
theorem after_inside {origin : Origin} (other : origin ≠ .template) (star : Bool)
    (text : List Char) :
    ∃ last, (inside star).after (text.map (⟨·, origin⟩)) =
      if Text.endsComment star text then none else some (inside last) := by
  induction text generalizing star with
  | nil => exact ⟨star, rfl⟩
  | cons c rest ih =>
      obtain ⟨last, run⟩ := ih (c == '*')
      refine ⟨last, ?_⟩
      rw [List.map_cons, after_cons, next_inside other, Text.endsComment]
      cases star && c == '/' with
      | true => rfl
      | false => exact run

end Zone

mutual

/-- The zone that a part leaves, if that is the same for all values. -/
def Piece.leaves (zone : Zone) : Piece → Option Zone
  | .text text => zone.after (marksOf .template text)
  | .value _ => if zone = .code then some .code else none
  | .comment _ => if zone = .comment then some .otherStar else none
  | .each _ _ body => if allLeave zone body = some zone then some zone else none
  | .choose _ yes no => if allLeave zone yes = allLeave zone no then allLeave zone yes else none

def allLeave (zone : Zone) : List Piece → Option Zone
  | [] => some zone
  | piece :: rest => (piece.leaves zone).bind fun zone => allLeave zone rest

end

mutual

theorem Piece.after_marks :
    ∀ (piece : Piece) (scope : Scope) {zone other left : Zone}, zone.Covers other →
      piece.leaves zone = some left →
      ∃ real, other.after (piece.marks scope) = some real ∧ left.Covers real
  | .text _, _, _, _, _, covers, leaves => covers.after leaves
  | .value place, scope, zone, other, left, covers, leaves => by
      obtain ⟨rfl, ⟨⟩⟩ := Option.ite_none_right_eq_some.mp leaves
      rw [Zone.covers_code] at covers
      subst covers
      exact ⟨_, Zone.after_value _, .refl _⟩
  | .comment place, scope, zone, other, left, covers, leaves => by
      obtain ⟨rfl, ⟨⟩⟩ := Option.ite_none_right_eq_some.mp leaves
      rw [Zone.covers_comment] at covers
      subst covers
      let text := commentText (valueText (place.find? scope))
      obtain ⟨last, run⟩ : ∃ last, Zone.comment.after (marksOf .escaped text) =
          if Text.endsComment false text.toList then none else some (.inside last) :=
        Zone.after_inside Origin.noConfusion false text.toList
      rw [endsComment_commentText] at run
      exact ⟨_, run, Zone.covers_inside last⟩
  | .each name items body, scope, zone, other, left, covers, leaves => by
      obtain ⟨same, ⟨⟩⟩ := Option.ite_none_right_eq_some.mp leaves
      unfold Piece.marks
      induction (itemsOf (items.find? scope)).getD [] generalizing other with
      | nil => exact ⟨other, rfl, covers⟩
      | cons item rest ih =>
          obtain ⟨middle, run, covered⟩ :=
            after_marksAll body ((name, item) :: scope) covers same
          obtain ⟨real, more, lastly⟩ := ih middle covered
          refine ⟨real, ?_, lastly⟩
          rw [List.flatMap_cons, Zone.after_append, run]
          exact more
  | .choose test yes no, scope, zone, other, left, covers, leaves => by
      obtain ⟨same, chosen⟩ := Option.ite_none_right_eq_some.mp leaves
      unfold Piece.marks
      split
      · exact after_marksAll yes scope covers chosen
      · exact after_marksAll no scope covers (same.symm.trans chosen)

/-- The zone that a template leaves is left with any values in it. -/
theorem after_marksAll :
    ∀ (pieces : List Piece) (scope : Scope) {zone other left : Zone}, zone.Covers other →
      allLeave zone pieces = some left →
      ∃ real, other.after (marksAll scope pieces) = some real ∧ left.Covers real
  | [], _, _, other, _, covers, leaves => by
      cases leaves
      exact ⟨other, rfl, covers⟩
  | piece :: rest, scope, zone, other, left, covers, leaves => by
      obtain ⟨middle, first, more⟩ := Option.bind_eq_some_iff.mp leaves
      obtain ⟨here, run, covered⟩ := piece.after_marks scope covers first
      obtain ⟨real, ran, lastly⟩ := after_marksAll rest scope covered more
      refine ⟨real, ?_, lastly⟩
      rw [marksAll, Zone.after_append, run]
      exact ran

end

/-- A template that leaves code in code does so with any values in it. -/
theorem after_marksAll_code {pieces : List Piece} (leaves : allLeave .code pieces = some .code)
    (scope : Scope) : Zone.code.after (marksAll scope pieces) = some .code := by
  obtain ⟨real, run, covered⟩ := after_marksAll pieces scope (.refl .code) leaves
  rw [Zone.covers_code.mp covered] at run
  exact run

end Emit

end ApiCodec
