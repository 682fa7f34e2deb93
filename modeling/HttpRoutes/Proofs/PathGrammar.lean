import HttpRoutes.Proofs.Compilation
import HttpRoutes.Proofs.TemplateText

/-!
# The grammar of paths

A path is a slash and then pieces with slashes between them, each of which has no brace or is a name
without braces that braces enclose. What follows these rules is a path and nothing else is, and the
first piece that breaks them decides the error.

* `Grammatical piece` : a piece that follows the rules (`Segment.exists_parse_eq_ok_iff`);
* `FirstBad path piece` : the leftmost piece of a path that does not;
* `Rejected path cause` : the rules for the error (`validatePath_eq_error_iff`);
* `Template.parse_follows_grammar` : which paths are read, what they are read as, and the error of
  those that are not.
-/

namespace HttpRoutes

/-! ## Pieces -/

def Braceless (text : List Char) : Prop :=
  '\x7b' ∉ text ∧ '\x7d' ∉ text

/-- A piece of a path has no brace, or braces enclose a name that has none and is not empty. -/
inductive Grammatical : List Char → Prop
  | literal {text : List Char} (h : Braceless text) : Grammatical text
  | param {name : List Char} (hne : name ≠ []) (h : Braceless name) :
    Grammatical ('\x7b' :: (name ++ ['\x7d']))

theorem plain_iff_braceless {text : String} (hslash : '/' ∉ text.toList) :
    Plain text ↔ Braceless text.toList :=
  and_iff_right hslash

namespace Segment

/-- The grammatical pieces are those that well-formed segments are written as. -/
theorem grammatical_iff {text : List Char} (hslash : '/' ∉ text) :
    Grammatical text ↔ ∃ segment : Segment, segment.WellFormed ∧ segment.piece = text := by
  constructor
  · rintro (h | ⟨hne, h⟩)
    · refine ⟨literal (String.ofList text), ?_, String.toList_ofList⟩
      exact (plain_iff_braceless (by rwa [String.toList_ofList])).mpr (by rwa [String.toList_ofList])
    · next name =>
      have hslash' : '/' ∉ (String.ofList name).toList := by
        rw [String.toList_ofList]
        exact fun hmem => hslash (List.mem_cons_of_mem _ (List.mem_append_left _ hmem))
      refine ⟨param (String.ofList name), ⟨?_, (plain_iff_braceless hslash').mpr ?_⟩, ?_⟩
      · rwa [ne_eq, ← String.toList_eq_nil_iff, String.toList_ofList]
      · rwa [String.toList_ofList]
      · rw [piece, String.toList_ofList]
  · rintro ⟨segment, hwf, rfl⟩
    cases segment with
    | literal text => exact .literal hwf.2
    | param name => exact .param (mt String.toList_eq_nil_iff.mp hwf.1) hwf.2.2

theorem exists_parse_eq_ok_iff (path : String) {text : List Char} (hslash : '/' ∉ text) :
    (∃ segment, parse path text = .ok segment) ↔ Grammatical text := by
  simp only [parse_eq_ok_iff hslash, grammatical_iff hslash]

/-- What is said about a piece of `path` that is not grammatical. -/
def complaint (path : String) (text : List Char) : RouteError :=
  if text = ['\x7b', '\x7d'] then .emptyParamName path
  else .malformedSegment path (String.ofList text)

/-- A piece that stands for no segment has one complaint, whatever else is wrong with it. -/
theorem eq_complaint_of_parse {path : String} {text : List Char} {cause : RouteError}
    (h : parse path text = .error cause) : cause = complaint path text := by
  unfold parse at h
  split at h
  · next hname =>
    cases h
    exact (if_pos (eq_of_braced? hname)).symm
  · next c name hname =>
    split at h
    · cases h
      have hne : text ≠ ['\x7b', '\x7d'] := by
        rw [eq_of_braced? hname]
        simp
      rw [complaint, if_neg hne]
    · cases h
  · next hnone =>
    split at h
    · cases h
      have hne : text ≠ ['\x7b', '\x7d'] := by
        rintro rfl
        cases hnone
      rw [complaint, if_neg hne]
    · cases h

theorem parse_eq_error_iff {path : String} {text : List Char} {cause : RouteError}
    (hslash : '/' ∉ text) :
    parse path text = .error cause ↔ ¬ Grammatical text ∧ cause = complaint path text := by
  rw [← exists_parse_eq_ok_iff path hslash]
  constructor
  · intro h
    refine ⟨?_, eq_complaint_of_parse h⟩
    rintro ⟨segment, hsegment⟩
    cases h.symm.trans hsegment
  · rintro ⟨hbad, rfl⟩
    cases hparse : parse path text with
    | ok segment => exact absurd ⟨segment, hparse⟩ hbad
    | error cause => rw [eq_complaint_of_parse hparse]

end Segment

/-! ## Paths -/

/-- The leftmost piece of a path, a slash being before it, that is not grammatical. -/
def FirstBad (path : String) (piece : List Char) : Prop :=
  ∃ rest before after, path.toList = '/' :: rest ∧ rest.splitOn '/' = before ++ piece :: after ∧
    (∀ earlier ∈ before, Grammatical earlier) ∧ ¬ Grammatical piece

/-- Why a path is no template. -/
inductive Rejected (path : String) : RouteError → Prop
  | relative (h : path.toList.head? ≠ some '/') : Rejected path (.missingLeadingSlash path)
  | unnamed (h : FirstBad path ['\x7b', '\x7d']) : Rejected path (.emptyParamName path)
  | malformed {piece : List Char} (hne : piece ≠ ['\x7b', '\x7d']) (h : FirstBad path piece) :
    Rejected path (.malformedSegment path (String.ofList piece))

theorem rejected_iff {path : String} {cause : RouteError} :
    Rejected path cause ↔
      (path.toList.head? ≠ some '/' ∧ cause = .missingLeadingSlash path) ∨
        ∃ piece, FirstBad path piece ∧ cause = Segment.complaint path piece := by
  constructor
  · intro h
    cases h with
    | relative h => exact Or.inl ⟨h, rfl⟩
    | unnamed h => exact Or.inr ⟨_, h, (if_pos rfl).symm⟩
    | malformed hne h => exact Or.inr ⟨_, h, (if_neg hne).symm⟩
  · rintro (⟨h, rfl⟩ | ⟨piece, h, rfl⟩)
    · exact .relative h
    · by_cases hpiece : piece = ['\x7b', '\x7d']
      · rw [Segment.complaint, if_pos hpiece]
        exact .unnamed (hpiece ▸ h)
      · rw [Segment.complaint, if_neg hpiece]
        exact .malformed hpiece h

section Absolute

variable {path : String} {rest : List Char}

theorem failure?_validatePath (hpath : path.toList = '/' :: rest) :
    failure? (validatePath path) =
      (rest.splitOn '/').findSome? fun piece => failure? (Segment.parse path piece) := by
  rw [validatePath, failure?_map, ← failure?_mapM, Template.parse, hpath]
  rfl

theorem failure?_parse_eq_none_iff {piece : List Char} (hpiece : piece ∈ rest.splitOn '/') :
    failure? (Segment.parse path piece) = none ↔ Grammatical piece :=
  failure?_eq_none_iff.trans (Segment.exists_parse_eq_ok_iff path (slash_notMem_of_mem_splitOn hpiece))

/-- A run over the pieces stops at the first one that is not grammatical. -/
theorem failure?_validatePath_eq_some_iff (hpath : path.toList = '/' :: rest)
    {cause : RouteError} :
    failure? (validatePath path) = some cause ↔
      ∃ piece, FirstBad path piece ∧ cause = Segment.complaint path piece := by
  rw [failure?_validatePath hpath, List.findSome?_eq_some_iff]
  constructor
  · rintro ⟨before, piece, after, hsplit, hcause, hbefore⟩
    have hmem : piece ∈ rest.splitOn '/' := by simp [hsplit]
    have herror := failure?_eq_some_iff.mp hcause
    obtain ⟨hbad, rfl⟩ :=
      (Segment.parse_eq_error_iff (slash_notMem_of_mem_splitOn hmem)).mp herror
    refine ⟨piece, ⟨rest, before, after, hpath, hsplit, fun earlier hearlier => ?_, hbad⟩, rfl⟩
    have hearlier' : earlier ∈ rest.splitOn '/' := by simp [hsplit, hearlier]
    exact (failure?_parse_eq_none_iff hearlier').mp (hbefore earlier hearlier)
  · rintro ⟨piece, ⟨rest', before, after, hpath', hsplit, hbefore, hbad⟩, rfl⟩
    obtain rfl : rest' = rest := (List.cons.inj (hpath'.symm.trans hpath)).2
    have hmem : piece ∈ rest'.splitOn '/' := by simp [hsplit]
    refine ⟨before, piece, after, hsplit, ?_, fun earlier hearlier => ?_⟩
    · rw [failure?_eq_some_iff, Segment.parse_eq_error_iff (slash_notMem_of_mem_splitOn hmem)]
      exact ⟨hbad, rfl⟩
    · have hearlier' : earlier ∈ rest'.splitOn '/' := by simp [hsplit, hearlier]
      exact (failure?_parse_eq_none_iff hearlier').mpr (hbefore earlier hearlier)

theorem validatePath_eq_ok_iff_of_absolute (hpath : path.toList = '/' :: rest) :
    validatePath path = .ok () ↔ ∀ piece ∈ rest.splitOn '/', Grammatical piece := by
  have hok : failure? (validatePath path) = none ↔ validatePath path = .ok () :=
    failure?_eq_none_iff.trans ⟨fun ⟨(), h⟩ => h, fun h => ⟨(), h⟩⟩
  rw [← hok, failure?_validatePath hpath, List.findSome?_eq_none_iff]
  exact forall₂_congr fun piece hpiece => failure?_parse_eq_none_iff hpiece

end Absolute

theorem validatePath_of_relative {path : String} (h : path.toList.head? ≠ some '/') :
    validatePath path = .error (.missingLeadingSlash path) := by
  unfold validatePath Template.parse
  split
  · next rest hpath => exact absurd (by rw [hpath]; rfl) h
  · rfl

theorem validatePath_eq_ok_iff {path : String} :
    validatePath path = .ok () ↔
      ∃ rest, path.toList = '/' :: rest ∧ ∀ piece ∈ rest.splitOn '/', Grammatical piece := by
  constructor
  · intro h
    by_cases hhead : path.toList.head? = some '/'
    · obtain ⟨rest, hpath⟩ := List.head?_eq_some_iff.mp hhead
      exact ⟨rest, hpath, (validatePath_eq_ok_iff_of_absolute hpath).mp h⟩
    · rw [validatePath_of_relative hhead] at h
      cases h
  · rintro ⟨rest, hpath, hpieces⟩
    exact (validatePath_eq_ok_iff_of_absolute hpath).mpr hpieces

/-- **The first piece that is not grammatical decides the error,** unless the path does not even
start with a slash. -/
theorem validatePath_eq_error_iff {path : String} {cause : RouteError} :
    validatePath path = .error cause ↔ Rejected path cause := by
  rw [rejected_iff]
  by_cases hhead : path.toList.head? = some '/'
  · obtain ⟨rest, hpath⟩ := List.head?_eq_some_iff.mp hhead
    rw [← failure?_eq_some_iff, failure?_validatePath_eq_some_iff hpath]
    simp [hhead]
  · have hfirst : ∀ piece, ¬ FirstBad path piece := by
      rintro piece ⟨rest, -, -, hpath, -⟩
      exact hhead (by rw [hpath]; rfl)
    rw [validatePath_of_relative hhead]
    simp [hhead, hfirst, eq_comm]

/-! ## Templates -/

/-- **The paths that are read are those that follow the grammar,** and of all others the first piece
that breaks the rules decides the error. -/
theorem Template.parse_follows_grammar :
    (∀ path : String,
      (validatePath path = .ok () ↔
        ∃ rest, path.toList = '/' :: rest ∧ ∀ piece ∈ rest.splitOn '/', Grammatical piece) ∧
      (validatePath path = .ok () →
        ∃ template, parse path = .ok template ∧ template.render = path) ∧
      ∀ cause, validatePath path = .error cause ↔ Rejected path cause) ∧
    ∀ template : Template, template ≠ [] → (∀ segment ∈ template, segment.WellFormed) →
      parse template.render = .ok template := by
  refine ⟨fun path => ⟨validatePath_eq_ok_iff, fun hvalid => ?_, fun cause =>
    validatePath_eq_error_iff⟩, fun template hne hwf => parse_eq_ok_iff.mpr ⟨hne, hwf, rfl⟩⟩
  cases hparse : parse path with
  | ok template => exact ⟨template, rfl, render_of_parse hparse⟩
  | error cause =>
    rw [validatePath, hparse] at hvalid
    cases hvalid

/-- The segments of a path that ends with a slash, behind which an empty one stands. -/
def userPosts : Template :=
  [.literal "users", .param "id", .literal "posts", .literal ""]

theorem userPosts_parse_follows_grammar :
    (validatePath "/users/{id}/posts/" = .ok () ∧
      ∃ template, Template.parse "/users/{id}/posts/" = .ok template ∧
        template.render = "/users/{id}/posts/") ∧
    ((userPosts ≠ [] ∧ ∀ segment ∈ userPosts, segment.WellFormed) ∧
      Template.parse userPosts.render = .ok userPosts) ∧
    Rejected "/a/b\x7bc\x7d/\x7b\x7d" (.malformedSegment "/a/b\x7bc\x7d/\x7b\x7d" "b\x7bc\x7d") := by
  obtain ⟨hpaths, htemplates⟩ := Template.parse_follows_grammar
  have hvalid : validatePath "/users/{id}/posts/" = .ok () := by decide
  have hwf : userPosts ≠ [] ∧ ∀ segment ∈ userPosts, segment.WellFormed := by decide
  refine ⟨⟨hvalid, (hpaths _).2.1 hvalid⟩, ⟨hwf, htemplates userPosts hwf.1 hwf.2⟩, ?_⟩
  exact ((hpaths _).2.2 _).mp (by decide)

end HttpRoutes
