import ApiCodec.Emit.Template

set_option autoImplicit false

namespace ApiCodec

namespace Text

/-- Whether a comment ends within a text, `star` telling whether a star stands before it. -/
def endsComment (star : Bool) : List Char → Bool
  | [] => false
  | c :: rest => (star && c == '/') || endsComment (c == '*') rest

theorem isPrefixOf_pair (a b c : Char) (rest : List Char) :
    List.isPrefixOf [a, b] (c :: rest) = (c == a && rest.head? == some b) := by
  cases rest <;> simp [List.isPrefixOf, Bool.beq_comm]

theorem endsComment_eq (star : Bool) (text : List Char) :
    endsComment star text = ((star && text.head? == some '/') || occurs ['*', '/'] text) := by
  induction text generalizing star with
  | nil => simp [endsComment, occurs]
  | cons c rest ih =>
      simp only [endsComment, ih, occurs, isPrefixOf_pair, List.head?_cons, Option.some_beq_some]

/-- With its end marks taken apart, a text ends a comment only by a slash that it begins with. -/
theorem endsComment_escaped (star : Bool) (skip : Nat) (text : List Char) :
    endsComment star (replaceFrom ['*', '/'] ['*', '\\', '/'] skip text) =
      (star && (text.drop skip).head? == some '/') := by
  induction text generalizing star skip with
  | nil => cases skip <;> simp [replaceFrom, endsComment]
  | cons c rest ih =>
      cases skip with
      | succ skip => simp only [replaceFrom, ih, List.drop_succ_cons]
      | zero =>
          cases mark : List.isPrefixOf ['*', '/'] (c :: rest) with
          | true =>
              -- the backslash parts the star that is written from the slash that follows
              have begins : c = '*' := by
                rw [isPrefixOf_pair, Bool.and_eq_true_iff] at mark
                simpa using mark.1
              simp only [replaceFrom, mark, if_true, List.cons_append, List.nil_append]
              simp [endsComment, ih, begins]
          | false =>
              have apart : (c == '*' && rest.head? == some '/') = false :=
                (isPrefixOf_pair _ _ _ _).symm.trans mark
              simp only [replaceFrom, mark, endsComment, ih, apart, List.drop_zero, List.head?_cons,
                Option.some_beq_some, Bool.or_false, Bool.false_eq_true, if_false]

/-- Leading the lines of a text neither brings nor takes an end mark. -/
theorem endsComment_led (star : Bool) (text : List Char) :
    endsComment star (replaceFrom ['\n'] ['\n', ' ', '*', ' '] 0 text) = endsComment star text := by
  induction text generalizing star with
  | nil => rfl
  | cons c rest ih =>
      by_cases newline : c = '\n'
      · subst newline
        simp [replaceFrom, endsComment, ih]
      · have apart : List.isPrefixOf ['\n'] (c :: rest) = false := by
          simp [List.isPrefixOf, Ne.symm newline]
        simp only [replaceFrom, apart, endsComment, ih, Bool.false_eq_true, if_false]

section FollowedBy

variable {α β : Type} {item : α} {lead : List α}

/-- Whether each occurrence of an item in a list is followed by certain others. -/
def FollowedBy (item : α) (lead list : List α) : Prop :=
  ∀ rest, item :: rest <:+ list → lead <+: rest

theorem followedBy_nil : FollowedBy item lead [] := by
  intro rest suffix
  cases List.suffix_nil.mp suffix

theorem followedBy_cons {first : α} {list : List α} :
    FollowedBy item lead (first :: list) ↔
      (first = item → lead <+: list) ∧ FollowedBy item lead list := by
  simp only [FollowedBy, List.suffix_cons_iff, List.cons.injEq, or_imp, forall_and]
  constructor
  · rintro ⟨here, later⟩
    exact ⟨fun same => here list ⟨same.symm, rfl⟩, later⟩
  · rintro ⟨here, later⟩
    refine ⟨?_, later⟩
    rintro rest ⟨same, rfl⟩
    exact here same.symm

theorem FollowedBy.append {list other : List α} (first : FollowedBy item lead list)
    (second : FollowedBy item lead other) : FollowedBy item lead (list ++ other) := by
  induction list with
  | nil => exact second
  | cons head rest ih =>
      obtain ⟨here, later⟩ := followedBy_cons.mp first
      refine followedBy_cons.mpr ⟨fun same => ?_, ih later⟩
      exact (here same).trans (List.prefix_append rest other)

theorem FollowedBy.map {f : α → β} (injective : Function.Injective f) {list : List α}
    (followed : FollowedBy item lead list) :
    FollowedBy (f item) (lead.map f) (list.map f) := by
  induction list with
  | nil => exact followedBy_nil
  | cons head rest ih =>
      obtain ⟨here, later⟩ := followedBy_cons.mp followed
      exact followedBy_cons.mpr ⟨fun same => (here (injective same)).map f, ih later⟩

theorem followedBy_of_notMem {list : List α} (absent : item ∉ list) :
    FollowedBy item lead list := by
  intro rest suffix
  exact absurd (suffix.subset List.mem_cons_self) absent

end FollowedBy

/-- What is put in for a newline begins with one and goes on with the lead of the line. -/
theorem followedBy_replaceFrom (text : List Char) :
    FollowedBy '\n' [' ', '*', ' '] (replaceFrom ['\n'] ['\n', ' ', '*', ' '] 0 text) := by
  induction text with
  | nil => exact followedBy_nil
  | cons c rest ih =>
      by_cases newline : c = '\n'
      · subst newline
        simp [replaceFrom, followedBy_cons, ih]
      · have apart : List.isPrefixOf ['\n'] (c :: rest) = false := by
          simp [List.isPrefixOf, Ne.symm newline]
        simp [replaceFrom, apart, followedBy_cons, newline, ih]

end Text

namespace Emit

theorem toList_commentText (text : String) :
    (commentText text).toList =
      Text.replaceFrom ['\n'] ['\n', ' ', '*', ' '] 0
        (Text.replaceFrom ['*', '/'] ['*', '\\', '/'] 0 text.toList) := by
  simp [commentText, Text.replace, Text.replaceChars]

/-- An escaped text has no end mark. -/
theorem endsComment_commentText (text : String) :
    Text.endsComment false (commentText text).toList = false := by
  simp [toList_commentText, Text.endsComment_led, Text.endsComment_escaped]

theorem contains_commentText (text : String) : Text.contains "*/" (commentText text) = false := by
  have ends := endsComment_commentText text
  rw [Text.endsComment_eq] at ends
  simpa [Text.contains] using ends

/-- Each line of an escaped text after the first is led by a star. -/
theorem followedBy_commentText (text : String) :
    Text.FollowedBy '\n' [' ', '*', ' '] (commentText text).toList := by
  rw [toList_commentText]
  exact Text.followedBy_replaceFrom _

end Emit

end ApiCodec
