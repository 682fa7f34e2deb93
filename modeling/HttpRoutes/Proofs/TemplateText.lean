import HttpRoutes.Proofs.Templates

/-!
# The text of a template

Well-formed segments are those that can be read back from a path: their texts have no slash and no
brace, and a parameter has a name.

* `Plain text` : a text without slashes and braces;
* `Segment.WellFormed` : a segment that a piece of a path can stand for
  (`Segment.parse_eq_ok_iff`);
* `Template.parse_eq_ok_iff` : what is read from a path is the one template whose text it is;
* `Route.template_of_path_eq` : the template of a route whose path is the text of a template.
-/

namespace HttpRoutes

variable {α : Type}

/-- A text without slashes and braces. -/
def Plain (text : String) : Prop :=
  '/' ∉ text.toList ∧ '\x7b' ∉ text.toList ∧ '\x7d' ∉ text.toList

instance (text : String) : Decidable (Plain text) :=
  inferInstanceAs (Decidable (_ ∧ _ ∧ _))

theorem plain_ofList_iff {text : List Char} (hslash : '/' ∉ text) :
    Plain (String.ofList text) ↔ text.any Segment.isBrace = false := by
  simp only [Plain, String.toList_ofList, List.any_eq_false, Segment.isBrace, Bool.or_eq_true,
    beq_iff_eq, not_or, hslash, not_false_eq_true, true_and]
  constructor
  · rintro ⟨hopen, hclose⟩ c hc
    exact ⟨fun h => hopen (h ▸ hc), fun h => hclose (h ▸ hc)⟩
  · intro h
    exact ⟨fun hopen => (h _ hopen).1 rfl, fun hclose => (h _ hclose).2 rfl⟩

namespace Segment

/-- A literal text is plain, and so is the name of a parameter, which is not empty. -/
def WellFormed : Segment → Prop
  | literal text => Plain text
  | param name => name ≠ "" ∧ Plain name

instance : ∀ segment : Segment, Decidable segment.WellFormed
  | literal text => inferInstanceAs (Decidable (Plain text))
  | param name => inferInstanceAs (Decidable (name ≠ "" ∧ Plain name))

theorem WellFormed.slash_notMem_piece {segment : Segment} (h : segment.WellFormed) :
    '/' ∉ segment.piece := by
  cases segment with
  | literal text => exact h.1
  | param name => simp [piece, h.2.1]

theorem braced?_piece_param (name : String) : braced? (param name).piece = some name.toList := by
  simp [braced?, piece]

theorem braced?_eq_none_of_plain {text : String} (h : Plain text) : braced? text.toList = none := by
  unfold braced?
  split
  · next rest htext => exact absurd (by rw [htext]; exact List.mem_cons_self) h.2.1
  · rfl

/-- **A piece of a path stands for the one well-formed segment that is written as it.** -/
theorem parse_eq_ok_iff {path : String} {text : List Char} {segment : Segment}
    (hslash : '/' ∉ text) :
    parse path text = .ok segment ↔ segment.WellFormed ∧ segment.piece = text := by
  constructor
  · intro h
    refine ⟨?_, piece_of_parse h⟩
    unfold parse at h
    split at h
    · cases h
    · next c name hname =>
      rw [eq_of_braced? hname] at hslash
      split at h
      · cases h
      · next hplain =>
        cases h
        refine ⟨by simp [← String.toList_eq_nil_iff], (plain_ofList_iff ?_).mpr ?_⟩
        · exact fun hmem => hslash (List.mem_cons_of_mem _ (List.mem_append_left _ hmem))
        · simpa using hplain
    · split at h
      · cases h
      · next hplain =>
        cases h
        exact (plain_ofList_iff hslash).mpr (by simpa using hplain)
  · rintro ⟨hwf, rfl⟩
    cases segment with
    | literal plain =>
      have hany : plain.toList.any isBrace = false :=
        (plain_ofList_iff hslash).mp (by rwa [piece, String.ofList_toList])
      rw [parse, piece, braced?_eq_none_of_plain hwf]
      simp [hany]
    | param name =>
      obtain ⟨hne, hplain⟩ := hwf
      obtain ⟨c, rest, hname⟩ := List.exists_cons_of_ne_nil (mt String.toList_eq_nil_iff.mp hne)
      have hany : (c :: rest).any isBrace = false := by
        rw [← hname]
        exact (plain_ofList_iff hplain.1).mp (by rwa [String.ofList_toList])
      rw [parse, braced?_piece_param, hname]
      dsimp only
      rw [if_neg (by rw [hany]; exact Bool.false_ne_true), ← hname, String.ofList_toList]

end Segment

namespace Template

/-- **A path is read as the one template of well-formed segments that is written as it.** -/
theorem parse_eq_ok_iff {path : String} {template : Template} :
    parse path = .ok template ↔
      template ≠ [] ∧ (∀ segment ∈ template, segment.WellFormed) ∧ template.render = path := by
  constructor
  · intro h
    have hpieces := pieces?_of_parse h
    obtain ⟨hne, hslash, -⟩ := pieces?_eq_some_iff.mp hpieces
    refine ⟨fun hnil => hne (by rw [hnil]; rfl), ?_, render_of_parse h⟩
    unfold parse at h
    split at h
    · next rest hpath =>
      rw [pieces?_of_toList hpath] at hpieces
      rw [mapM_eq_ok_iff, Option.some.inj hpieces, List.forall₂_map_left_iff,
        List.forall₂_same] at h
      intro segment hsegment
      have hpiece := hslash _ (List.mem_map_of_mem hsegment)
      exact ((Segment.parse_eq_ok_iff hpiece).mp (h segment hsegment)).1
    · cases h
  · rintro ⟨hne, hwf, rfl⟩
    have hpieces : pieces? template.render = some (template.map Segment.piece) := by
      refine pieces?_eq_some_iff.mpr ⟨by simpa using hne, ?_, toList_render template⟩
      intro piece hpiece
      obtain ⟨segment, hsegment, rfl⟩ := List.mem_map.mp hpiece
      exact (hwf segment hsegment).slash_notMem_piece
    unfold parse
    split
    · next rest hpath =>
      rw [pieces?_of_toList hpath] at hpieces
      rw [mapM_eq_ok_iff, Option.some.inj hpieces, List.forall₂_map_left_iff, List.forall₂_same]
      intro segment hsegment
      have hsegment := hwf segment hsegment
      exact (Segment.parse_eq_ok_iff hsegment.slash_notMem_piece).mpr ⟨hsegment, rfl⟩
    · next hno =>
      have hpath := toList_render template
      rw [slashed_eq_cons_intercalate (by simpa using hne)] at hpath
      exact absurd hpath (hno _)

end Template

namespace Route

theorem Valid.wellFormed {route : Route α} (h : route.Valid) :
    ∀ segment ∈ route.template, segment.WellFormed :=
  (Template.parse_eq_ok_iff.mp h.parse).2.1

theorem valid_of_path_eq {route : Route α} {template : Template} (hne : template ≠ [])
    (hwf : ∀ segment ∈ template, segment.WellFormed) (hpath : route.path = template.render) :
    route.Valid := by
  have hparse := Template.parse_eq_ok_iff.mpr ⟨hne, hwf, hpath.symm⟩
  rw [Valid, validatePath, hparse]
  rfl

/-- A route whose path is the text of well-formed segments has these segments, also if there are
none. -/
theorem template_of_path_eq {route : Route α} {template : Template}
    (hwf : ∀ segment ∈ template, segment.WellFormed) (hpath : route.path = template.render) :
    route.template = template := by
  by_cases hne : template = []
  · subst hne
    rw [Route.template, hpath]
    rfl
  · exact Template.map_ofPiece_of_parse (Template.parse_eq_ok_iff.mpr ⟨hne, hwf, hpath.symm⟩)

end Route

end HttpRoutes
