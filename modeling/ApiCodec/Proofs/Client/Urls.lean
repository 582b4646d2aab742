import ApiCodec.Proofs.Client.Functions
import ApiCodec.Proofs.Parameters.Overriding
import ApiCodec.Proofs.Text.Holes
import Mathlib.Data.List.Nodup

set_option autoImplicit false

/-!
Parameters in the URLs of requests. The client replaces the names in braces of a path one after the
other. That comes to replacing them all at once exactly if no parameter of the path is held by a
variable that has the name of a later one (`url_filled_at_once_iff`).
-/

namespace ApiCodec

open Document

namespace Emit

open Text (Braceless Cut occurs placeholder replaceEach)

def pathParameters (op : Operation) : List Parameter := op.parameters.filter (·.location == .path)

def place (p : Parameter) : List Char × List Char := (p.name.toList, (variableOf p).toList)

/-- Names in braces with the variables that take their places. -/
def places (parameters : List Parameter) : List (List Char × List Char) :=
  Text.fillings (parameters.map place)

theorem braceless_variableOf (p : Parameter) : Braceless (variableOf p).toList := by
  intro c member
  have spelled := isSpelled_variableOf p c member
  by_contra brace
  rw [Bool.not_eq_false, Text.isBrace, Bool.or_eq_true, beq_iff_eq, beq_iff_eq] at brace
  rcases brace with rfl | rfl <;> cases spelled

theorem place_fst (p : Parameter) : (place p).1 = p.name.toList := by rw [place]

theorem place_snd (p : Parameter) : (place p).2 = (variableOf p).toList := by rw [place]

section

variable {parameters : List Parameter}

theorem braceless_place_fst (plain : ∀ p ∈ parameters, Braceless p.name.toList) :
    ∀ row ∈ parameters.map place, Braceless row.1 := by
  rw [List.forall_mem_map]
  simpa only [place_fst] using plain

theorem braceless_place_snd (parameters : List Parameter) :
    ∀ row ∈ parameters.map place, Braceless row.2 := by
  rw [List.forall_mem_map]
  simpa only [place_snd] using fun p _ => braceless_variableOf p

theorem pairwise_place (distinct : parameters.Pairwise fun p q => p.name ≠ q.name) :
    (parameters.map place).Pairwise fun row later => row.1 ≠ later.1 := by
  rw [List.pairwise_map]
  simpa only [place_fst, ne_eq, String.toList_inj] using distinct

theorem pairwise_map_place_iff {pieces : List Text.Piece} :
    ((parameters.map place).Pairwise fun row later => .hole row.1 ∈ pieces → row.2 ≠ later.1) ↔
      parameters.Pairwise fun p q => .hole p.name.toList ∈ pieces → variableOf p ≠ q.name := by
  rw [List.pairwise_map]
  simp only [place_fst, place_snd, ne_eq, String.toList_inj]

end

/-- The parameters that fill a hole of a text when their holes are filled one after the other. -/
def usedIn : List Parameter → List Text.Piece → List Parameter
  | [], _ => []
  | p :: rest, pieces =>
      (if .hole p.name.toList ∈ pieces then [p] else []) ++
        usedIn rest (pieces.flatMap (Text.Piece.fill (List.lookup · [place p])))

section

variable {text : List Char} {pieces : List Text.Piece} {used : List Parameter}

theorem substitute_eq {p : Parameter} (plain : Braceless p.name.toList) (cut : Cut text pieces) :
    substitute (text, used) p =
      (Text.write (pieces.flatMap (Text.Piece.fill (List.lookup · [place p]))),
        used ++ if .hole p.name.toList ∈ pieces then [p] else []) := by
  have filled : Text.replaceChars (placeholder p.name.toList)
      ('$' :: placeholder (variableOf p).toList) text =
        Text.write (pieces.flatMap (Text.Piece.fill (List.lookup · [place p]))) := by
    rw [Text.replaceChars_eq, ← cut.replaceEach_eq (List.forall_mem_singleton.mpr plain),
      Text.fillings_singleton, place, Text.filling]
  have occurs_iff := cut.occurs_iff plain
  by_cases member : .hole p.name.toList ∈ pieces
  · simp only [substitute, occurs_iff.mpr member, if_pos member, if_true, filled]
  · have absent : occurs (placeholder p.name.toList) text = false := by
      rw [Bool.eq_false_iff]
      exact mt occurs_iff.mp member
    have same := Text.replaceFrom_eq_self ('$' :: placeholder (variableOf p).toList) absent
    rw [← Text.replaceChars, filled] at same
    simp only [substitute, absent, if_neg member, same, List.append_nil, Bool.false_eq_true, if_false]

theorem foldl_substitute {parameters : List Parameter}
    (plain : ∀ p ∈ parameters, Braceless p.name.toList) (cut : Cut text pieces) :
    parameters.foldl substitute (text, used) =
      (Text.write (pieces.flatMap (Text.Piece.fillInTurn (parameters.map place))),
        used ++ usedIn parameters pieces) := by
  induction parameters generalizing text pieces used with
  | nil => rw [List.foldl_nil, List.map_nil, Text.flatMap_fillInTurn_nil, cut.write_eq, usedIn,
      List.append_nil]
  | cons p rest ih =>
      obtain ⟨first, others⟩ := List.forall_mem_cons.mp plain
      have filled : Cut _ (pieces.flatMap (Text.Piece.fill (List.lookup · [place p]))) :=
        cut.fill fun _ _ => Text.braceless_of_lookup (braceless_place_snd [p])
      rw [List.foldl_cons, substitute_eq first cut, ih others filled, List.map_cons,
        Text.flatMap_fillInTurn_cons, usedIn, List.append_assoc]

/-- Where no variable has the name of a later parameter, the parameters used are those whose name in
braces the text has from the start. -/
theorem usedIn_eq_filter {parameters : List Parameter}
    (distinct : parameters.Pairwise fun p q => p.name ≠ q.name)
    (apart : parameters.Pairwise fun p q =>
      .hole p.name.toList ∈ pieces → variableOf p ≠ q.name) :
    usedIn parameters pieces = parameters.filter (.hole ·.name.toList ∈ pieces) := by
  induction parameters generalizing pieces with
  | nil => rfl
  | cons p rest ih =>
      obtain ⟨differ, distinct⟩ := List.pairwise_cons.mp distinct
      obtain ⟨first, others⟩ := List.pairwise_cons.mp apart
      -- Filling the holes of `p` neither makes nor removes one of a parameter after it.
      have kept : ∀ q ∈ rest,
          .hole q.name.toList ∈ pieces.flatMap (Text.Piece.fill (List.lookup · [place p])) ↔
            .hole q.name.toList ∈ pieces := by
        intro q later
        rw [place, Text.hole_mem_fill_iff]
        constructor
        · rintro (⟨inside, _⟩ | ⟨inside, same⟩)
          · exact inside
          · exact absurd (String.toList_inj.mp same).symm (first q later inside)
        · exact fun inside =>
            Or.inl ⟨inside, fun same => differ q later (String.toList_inj.mp same).symm⟩
      have apart' := others.imp_of_mem fun {q _} later _ each inside =>
        each ((kept q later).mp inside)
      have rest_eq := ih distinct apart'
      rw [List.filter_congr fun q later => decide_eq_decide.mpr (kept q later)] at rest_eq
      rw [usedIn, rest_eq, List.filter_cons]
      simp only [decide_eq_true_iff]
      split
      · exact List.singleton_append
      · exact List.nil_append _

theorem usedIn_subset (parameters : List Parameter) (pieces : List Text.Piece) :
    usedIn parameters pieces ⊆ parameters := by
  induction parameters generalizing pieces with
  | nil => exact List.Subset.refl []
  | cons p rest ih =>
      rw [usedIn]
      refine List.append_subset.mpr ⟨?_, List.subset_cons_of_subset p (ih _)⟩
      split
      · exact List.cons_subset.mpr ⟨List.mem_cons_self, List.nil_subset _⟩
      · exact List.nil_subset _

end

/-- Among parameters with names of their own, those of some names are told by the names. -/
theorem eq_of_map_name_eq {parameters ps qs : List Parameter}
    (distinct : parameters.Pairwise fun p q => p.name ≠ q.name) (given : ps ⊆ parameters)
    (given' : qs ⊆ parameters) (same : ps.map (·.name) = qs.map (·.name)) : ps = qs := by
  induction ps generalizing qs with
  | nil => exact (List.map_eq_nil_iff.mp same.symm).symm
  | cons p ps ih =>
      obtain ⟨q, qs, rfl, name, names⟩ := List.map_eq_cons_iff.mp same.symm
      obtain ⟨inside, rest⟩ := List.cons_subset.mp given
      obtain ⟨inside', rest'⟩ := List.cons_subset.mp given'
      have once : (parameters.map (·.name)).Nodup := List.pairwise_map.mpr distinct
      rw [List.inj_on_of_nodup_map once inside' inside name, ih rest rest' names.symm]

section

variable {op : Operation} (plain : ∀ p ∈ pathParameters op, Braceless p.name.toList)

include plain

theorem urlOf_eq {pieces : List Text.Piece} (cut : Cut op.path.toList pieces) :
    urlOf op =
      (Text.write (pieces.flatMap (Text.Piece.fillInTurn ((pathParameters op).map place))),
        usedIn (pathParameters op) pieces) := by
  rw [urlOf, ← pathParameters, foldl_substitute plain cut, List.nil_append]

theorem snd_urlOf_subset : (urlOf op).2 ⊆ pathParameters op := by
  obtain ⟨pieces, cut⟩ := Text.exists_cut op.path.toList
  rw [urlOf_eq plain cut]
  exact usedIn_subset _ _

theorem urlOf_eq_iff (distinct : (pathParameters op).Pairwise fun p q => p.name ≠ q.name) :
    urlOf op =
        (replaceEach (places (pathParameters op)) op.path.toList,
          (pathParameters op).filter fun p => occurs (placeholder p.name.toList) op.path.toList) ↔
      (pathParameters op).Pairwise fun p q =>
        occurs (placeholder p.name.toList) op.path.toList → variableOf p ≠ q.name := by
  obtain ⟨pieces, cut⟩ := Text.exists_cut op.path.toList
  have texts := cut.write_fillInTurn_eq_iff
    (pairwise_place distinct) (braceless_place_fst plain) (braceless_place_snd (pathParameters op))
  have found : ∀ p ∈ pathParameters op,
      (occurs (placeholder p.name.toList) op.path.toList ↔ .hole p.name.toList ∈ pieces) :=
    fun p member => cut.occurs_iff (plain p member)
  have apart : ((pathParameters op).Pairwise fun p q =>
      occurs (placeholder p.name.toList) op.path.toList → variableOf p ≠ q.name) ↔
        (pathParameters op).Pairwise fun p q =>
          .hole p.name.toList ∈ pieces → variableOf p ≠ q.name := by
    refine List.Pairwise.iff_of_mem fun {p q} member _ => ?_
    rw [found p member]
  rw [urlOf_eq plain cut, places, Prod.mk.injEq, texts, pairwise_map_place_iff, apart,
    and_iff_left_iff_imp]
  intro apart
  rw [usedIn_eq_filter distinct apart]
  refine List.filter_congr fun p member => ?_
  rw [Bool.eq_iff_iff, decide_eq_true_iff]
  exact (found p member).symm

end

theorem urlFunction_eq (op : Operation) :
    urlFunction op = UrlMaker.function ⟨(urlOf op).2, (urlOf op).1⟩ := rfl

end Emit

open Emit Text in
/-- Where the parameters of a path have names of their own, without braces, the URL is the path with
all names in braces replaced at once, and takes the parameters that the path names, exactly if no
parameter that the path names is held by a variable that has the name of a later one; and exactly
then the function is written so that the client makes its URLs with. -/
theorem url_filled_at_once_iff (op : Operation)
    (distinct : (pathParameters op).Pairwise fun p q => p.name ≠ q.name)
    (plain : ∀ p ∈ pathParameters op, Braceless p.name.toList) :
    (urlOf op =
        (replaceEach (places (pathParameters op)) op.path.toList,
          (pathParameters op).filter fun p => occurs (placeholder p.name.toList) op.path.toList) ↔
      (pathParameters op).Pairwise fun p q =>
        occurs (placeholder p.name.toList) op.path.toList → variableOf p ≠ q.name) ∧
    (urlFunction op =
        UrlMaker.function
          { taken := (pathParameters op).filter fun p =>
              occurs (placeholder p.name.toList) op.path.toList
            path := replaceEach (places (pathParameters op)) op.path.toList } ↔
      (pathParameters op).Pairwise fun p q =>
        occurs (placeholder p.name.toList) op.path.toList → variableOf p ≠ q.name) := by
  refine ⟨urlOf_eq_iff plain distinct, Iff.trans ⟨fun written => ?_, fun same => ?_⟩
    (urlOf_eq_iff plain distinct)⟩
  · rw [urlFunction_eq] at written
    obtain ⟨names, path⟩ := UrlMaker.function_inj written
    exact Prod.ext path
      (eq_of_map_name_eq distinct (snd_urlOf_subset plain) (List.filter_subset_self _) names)
  · rw [urlFunction_eq, same]

namespace Sample

def visits (names : List String) : PathItem :=
  { summary := none, description := none, servers := none, path? := none, parameters := []
    entries :=
      [("get", .obj
        [("operationId", .str "visit"),
         ("parameters", .arr (names.map fun name => .obj
           [("name", .str name), ("in", .str "path"), ("required", .bool true),
            ("type", .str "string")])),
         ("responses", .obj [])])] }

/-- A path, and the parameters in it with the variables that hold them. -/
def visited (op : Operation) : String × List (String × String) :=
  (op.path, (Emit.pathParameters op).map fun p => (p.name, Emit.variableOf p))

/-- What is read of a path whose parameters have variables of their own. -/
theorem toys_read :
    ((posts.operations "/pets/\x7bpetId\x7d/\x7btoy-id\x7d" (visits ["petId", "toy-id"])).toOption.map
        fun t => t.value.map fun op => (visited op, Emit.urlFunction op)) =
      some [(("/pets/\x7bpetId\x7d/\x7btoy-id\x7d", [("petId", "petId"), ("toy-id", "toyId")]),
        "(\x7b [\"petId\"]: petId, [\"toy-id\"]: toyId \x7d) => " ++
          "`$\x7bbasePath\x7d/pets/$\x7bpetId\x7d/$\x7btoyId\x7d`")] := by
  decide +kernel

/-- What is read of a path in which one variable has the name of another parameter. -/
theorem grid_read :
    ((posts.operations "/grid/\x7bpoint-x-y\x7d/\x7bpointXY\x7d"
        (visits ["point-x-y", "pointXY"])).toOption.map
        fun t => t.value.map fun op =>
          (visited op, [String.ofList (Emit.urlOf op).1,
            String.ofList (Text.replaceEach (Emit.places (Emit.pathParameters op)) op.path.toList),
            Emit.urlFunction op])) =
      some [(("/grid/\x7bpoint-x-y\x7d/\x7bpointXY\x7d",
          [("point-x-y", "pointXY"), ("pointXY", "pointXy")]),
        ["/grid/$$\x7bpointXy\x7d/$\x7bpointXy\x7d", "/grid/$\x7bpointXY\x7d/$\x7bpointXy\x7d",
          "(\x7b [\"point-x-y\"]: pointXY, [\"pointXY\"]: pointXy \x7d) => " ++
            "`$\x7bbasePath\x7d/grid/$$\x7bpointXy\x7d/$\x7bpointXy\x7d`"])] := by
  decide +kernel

end Sample

open Emit Text in
/-- A path with one parameter whose variable is spelled as the parameter, and one whose variable is
not. -/
theorem url_filled_at_once_toys :
    ∃ t op,
      Sample.posts.operations "/pets/\x7bpetId\x7d/\x7btoy-id\x7d"
        (Sample.visits ["petId", "toy-id"]) = .ok t ∧ t.value = [op] ∧
      Sample.visited op =
        ("/pets/\x7bpetId\x7d/\x7btoy-id\x7d", [("petId", "petId"), ("toy-id", "toyId")]) ∧
      urlFunction op =
        "(\x7b [\"petId\"]: petId, [\"toy-id\"]: toyId \x7d) => " ++
          "`$\x7bbasePath\x7d/pets/$\x7bpetId\x7d/$\x7btoyId\x7d`" ∧
      urlOf op =
        (replaceEach (places (pathParameters op)) op.path.toList,
          (pathParameters op).filter fun p => occurs (placeholder p.name.toList) op.path.toList) ∧
      urlFunction op =
        UrlMaker.function
          { taken := (pathParameters op).filter fun p =>
              occurs (placeholder p.name.toList) op.path.toList
            path := replaceEach (places (pathParameters op)) op.path.toList } := by
  obtain ⟨t, success, facts⟩ := exists_ok_of_map Sample.toys_read
  obtain ⟨op, made, found⟩ := List.map_eq_singleton_iff.mp facts
  obtain ⟨visited, text⟩ := Prod.mk.inj found
  have placed := (Prod.mk.inj visited).2
  have distinct : ((pathParameters op).map fun p => (p.name, variableOf p)).Pairwise
      fun p q => p.1 ≠ q.1 := by
    rw [placed]
    decide
  have plain : ∀ row ∈ (pathParameters op).map fun p => (p.name, variableOf p),
      Braceless row.1.toList := by
    rw [placed, List.forall_mem_cons, List.forall_mem_singleton]
    exact ⟨by decide, by decide⟩
  have apart : ((pathParameters op).map fun p => (p.name, variableOf p)).Pairwise
      fun p q => p.2 ≠ q.1 := by
    rw [placed]
    decide
  rw [List.pairwise_map] at distinct apart
  rw [List.forall_mem_map] at plain
  have later : (pathParameters op).Pairwise fun p q =>
      occurs (placeholder p.name.toList) op.path.toList → variableOf p ≠ q.name := by
    refine apart.imp ?_
    intro p q differ _
    simpa only using differ
  obtain ⟨url, written⟩ := url_filled_at_once_iff op distinct plain
  exact ⟨t, op, success, made, visited, text, url.mpr later, written.mpr later⟩

open Emit Text in
/-- A name in braces that a replacement has put into the path is replaced again: the URL does not take
the first parameter, and has a dollar sign too many. -/
theorem replaced_name_replaced_again :
    ∃ t op,
      Sample.posts.operations "/grid/\x7bpoint-x-y\x7d/\x7bpointXY\x7d"
        (Sample.visits ["point-x-y", "pointXY"]) = .ok t ∧ t.value = [op] ∧
      Sample.visited op =
        ("/grid/\x7bpoint-x-y\x7d/\x7bpointXY\x7d",
          [("point-x-y", "pointXY"), ("pointXY", "pointXy")]) ∧
      String.ofList (urlOf op).1 = "/grid/$$\x7bpointXy\x7d/$\x7bpointXy\x7d" ∧
      String.ofList (replaceEach (places (pathParameters op)) op.path.toList) =
        "/grid/$\x7bpointXY\x7d/$\x7bpointXy\x7d" ∧
      urlFunction op =
        "(\x7b [\"point-x-y\"]: pointXY, [\"pointXY\"]: pointXy \x7d) => " ++
          "`$\x7bbasePath\x7d/grid/$$\x7bpointXy\x7d/$\x7bpointXy\x7d`" := by
  obtain ⟨t, success, facts⟩ := exists_ok_of_map Sample.grid_read
  obtain ⟨op, made, found⟩ := List.map_eq_singleton_iff.mp facts
  obtain ⟨visited, texts⟩ := Prod.mk.inj found
  simp only [List.cons.injEq, and_true] at texts
  obtain ⟨inTurn, atOnce, text⟩ := texts
  exact ⟨t, op, success, made, visited, inTurn, atOnce, text⟩

end ApiCodec
