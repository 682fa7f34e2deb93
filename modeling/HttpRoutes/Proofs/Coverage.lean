import HttpRoutes.Proofs.GroupedResolution

/-!
# Rows that no request reaches

A row of a listing covers another one if it fits every path that the other one fits. A row is dead
when an earlier one covers it, and only then: else it answers the path in which its parameters have
a value that no literal of the table has.

* `Template.Covers`, `Route.Covers` : one template or row covers another, segment by segment
  (`Template.fits_of_covers`);
* `freshPiece templates` : a text that no literal of `templates` is (`freshPiece_ne`);
* `Template.filled value` : the pieces of a path that fits, all parameters having one value
  (`Template.covers_of_fits_filled`);
* `Tree.first_to_serve_of_endpoint_eq` : a row answers only as the first one that serves;
* `Tree.row_reached_iff_not_covered` : the rows that are reached.
-/

namespace HttpRoutes

variable {α : Type}

namespace Template

/-- Two templates have as many segments, and each segment of the first one is a parameter or is the
segment of the second one. -/
def Covers (upper lower : Template) : Prop :=
  List.Forall₂ (fun segment other => segment.isParam ∨ segment = other) upper lower

theorem fits_of_covers {upper lower : Template} {pieces : List (List Char)}
    (hcovers : Covers upper lower) (hfits : List.Forall₂ Segment.Fits lower pieces) :
    List.Forall₂ Segment.Fits upper pieces := by
  induction hcovers generalizing pieces with
  | nil => exact hfits
  | @cons segment other _ _ hsegment _ ih =>
    cases hfits with
    | cons hother hrest =>
      refine .cons ?_ (ih hrest)
      rcases hsegment with hparam | rfl
      · cases segment with
        | literal text => cases hparam
        | param name => trivial
      · exact hother

/-! ## A path for a template -/

/-- A text that is longer than every segment of some templates. -/
def freshPiece (templates : List Template) : List Char :=
  List.replicate ((templates.flatten.map Segment.piece).flatten.length + 1) '-'

theorem slash_notMem_freshPiece (templates : List Template) : '/' ∉ freshPiece templates := by
  simp [freshPiece, List.mem_replicate]

theorem freshPiece_ne {templates : List Template} {template : Template} {text : String}
    (htemplate : template ∈ templates) (htext : .literal text ∈ template) :
    freshPiece templates ≠ text.toList := by
  have hmem : text.toList ∈ templates.flatten.map Segment.piece :=
    List.mem_map.mpr ⟨.literal text, List.mem_flatten.mpr ⟨template, htemplate, htext⟩, rfl⟩
  have hle := (List.sublist_flatten_of_mem hmem).length_le
  intro heq
  have hlength := congrArg List.length heq
  rw [freshPiece, List.length_replicate] at hlength
  omega

/-- The pieces of a path that fits a template: its literals, and `value` for each parameter. -/
def filled (value : List Char) (template : Template) : List (List Char) :=
  template.map fun
    | .literal text => text.toList
    | .param _ => value

theorem fits_filled (value : List Char) (template : Template) :
    List.Forall₂ Segment.Fits template (template.filled value) := by
  rw [filled, List.forall₂_map_right_iff, List.forall₂_same]
  intro segment _
  cases segment with
  | literal text => rfl
  | param name => trivial

/-- A template whose literals are not `value` fits the pieces of another one only by covering it. -/
theorem covers_of_fits_filled {value : List Char} {upper lower : Template}
    (hvalue : ∀ text, .literal text ∈ upper → value ≠ text.toList)
    (hfits : List.Forall₂ Segment.Fits upper (lower.filled value)) : Covers upper lower := by
  rw [filled, List.forall₂_map_right_iff] at hfits
  induction hfits with
  | nil => exact .nil
  | @cons segment other upper lower hsegment _ ih =>
    refine .cons ?_ (ih fun text htext => hvalue text (List.mem_cons_of_mem _ htext))
    cases segment with
    | param name => exact Or.inl rfl
    | literal text =>
      right
      cases other with
      | literal text' =>
        obtain rfl : text' = text := String.toList_injective hsegment
        rfl
      | param name => exact absurd hsegment (hvalue text List.mem_cons_self)

theorem pieces?_filled {value : List Char} {template : Template} (hvalue : '/' ∉ value)
    (hne : template ≠ []) (hslash : ∀ segment ∈ template, '/' ∉ segment.piece) :
    pieces? (String.ofList (slashed (template.filled value))) = some (template.filled value) := by
  refine pieces?_eq_some_iff.mpr ⟨by simpa [filled] using hne, ?_, String.toList_ofList⟩
  intro piece hpiece
  obtain ⟨segment, hsegment, rfl⟩ := List.mem_map.mp hpiece
  cases segment with
  | literal text => exact hslash _ hsegment
  | param name => exact hvalue

end Template

/-! ## Reached rows -/

/-- A row has the method of another one and covers its template. -/
def Route.Covers (upper lower : Route α) : Prop :=
  upper.method = lower.method ∧ upper.template.Covers lower.template

theorem Route.Covers.serves {upper lower : Route α} {method path : String}
    (h : upper.Covers lower) (hserves : lower.Serves method path) : upper.Serves method path := by
  obtain ⟨hmethod, pieces, hpieces, hfits⟩ := hserves
  exact ⟨h.1 ▸ hmethod, pieces, hpieces, Template.fits_of_covers h.2 hfits⟩

/-- The path of a row with a fresh value for every parameter. -/
def Route.freshPath (routes : List (Route α)) (row : Route α) : String :=
  String.ofList (slashed (row.template.filled (Template.freshPiece (routes.map Route.template))))

theorem Route.pieces?_freshPath (routes : List (Route α)) {row : Route α} (h : row.Valid) :
    pieces? (row.freshPath routes) =
      some (row.template.filled (Template.freshPiece (routes.map Route.template))) := by
  obtain ⟨hne, hslash⟩ := h.pieces
  exact Template.pieces?_filled (Template.slash_notMem_freshPiece _)
    (fun hnil => hne (by rw [hnil]; rfl)) hslash

/-- On its fresh path only the rows that cover a row stand in its way. -/
theorem Route.covers_of_serves_freshPath {routes : List (Route α)} {other row : Route α}
    (hother : other ∈ routes) (h : row.Valid)
    (hserves : other.Serves row.method.name (row.freshPath routes)) : other.Covers row := by
  obtain ⟨hmethod, pieces, hpieces, hfits⟩ := hserves
  obtain rfl := Option.some.inj ((row.pieces?_freshPath routes h).symm.trans hpieces)
  refine ⟨Method.name_inj hmethod, Template.covers_of_fits_filled ?_ hfits⟩
  intro text htext
  exact Template.freshPiece_ne (List.mem_map_of_mem hother) htext

/-- Among rows with different endpoints, a row answers a request only as the first one that serves
it. -/
theorem Tree.first_to_serve_of_endpoint_eq {missing : α} {routes before after : List (Route α)}
    {row : Route α} {method path : String} (valid : ∀ route ∈ routes, route.Valid)
    (distinct : (routes.map Route.endpoint).Nodup) (absent : missing ∉ routes.map Route.endpoint)
    (hsplit : Route.arranged routes = before ++ row :: after)
    (hanswer : ((grouped missing routes).resolve method path).endpoint = row.endpoint) :
    row.Serves method path ∧ ∀ earlier ∈ before, ¬ earlier.Serves method path := by
  have hperm := Route.arranged_perm routes
  have hrow : row ∈ routes := hperm.mem_iff.mp (by rw [hsplit]; simp)
  rcases exists_first_or_none (Route.Serves method path) (Route.arranged routes) with
    ⟨front, first, back, hfront, hnone, hmethod, pieces, hpieces, hfits⟩ | hnone
  · rw [resolve_grouped_of_first valid hfront hnone hmethod hpieces hfits] at hanswer
    have hfirst : first ∈ routes := hperm.mem_iff.mp (by rw [hfront]; simp)
    obtain rfl : first = row := List.inj_on_of_nodup_map distinct hfirst hrow hanswer
    -- the row stands once in the listing, so what is before it is the same in both splits
    have hnodup : (Route.arranged routes).Nodup := hperm.nodup_iff.mpr (distinct.of_map _)
    rw [hfront, List.nodup_middle, List.nodup_cons, List.mem_append, not_or] at hnodup
    obtain ⟨⟨hnotfront, hnotback⟩, -⟩ := hnodup
    obtain ⟨rfl, -⟩ := (List.append_cons_inj_of_notMem hnotfront hnotback).mp
      (hfront.symm.trans hsplit)
    exact ⟨⟨hmethod, pieces, hpieces, hfits⟩, hnone⟩
  · rw [resolve_grouped_of_none valid hnone] at hanswer
    exact absurd (List.mem_map.mpr ⟨row, hrow, hanswer.symm⟩) absent

/-- **A row of a grouped tree is reached by some request if and only if no row that is listed before
it covers it.** -/
theorem Tree.row_reached_iff_not_covered (missing : α) (routes : List (Route α))
    (valid : ∀ route ∈ routes, validatePath route.path = .ok ())
    (distinct : (routes.map Route.endpoint).Nodup) (absent : missing ∉ routes.map Route.endpoint) :
    ∃ tree, Tree.ofRoutes missing routes = .ok tree ∧
      ∀ row ∈ routes, ∃ before after, tree.routes = before ++ row :: after ∧
        ((∃ method path, (tree.resolve method path).endpoint = row.endpoint) ↔
          ∀ earlier ∈ before, ¬ earlier.Covers row) := by
  refine ⟨grouped missing routes, ofRoutes_eq_ok missing valid, fun row hrow => ?_⟩
  rw [routes_grouped missing valid]
  have hperm := Route.arranged_perm routes
  obtain ⟨before, after, hsplit⟩ := List.append_of_mem (hperm.mem_iff.mpr hrow)
  have hvalid : row.Valid := valid row hrow
  refine ⟨before, after, hsplit, ?_, ?_⟩
  · -- a covering row is met first, so that the answer is never that of `row`
    rintro ⟨method, path, hanswer⟩ earlier hearlier hcovers
    obtain ⟨hserves, hnone⟩ := first_to_serve_of_endpoint_eq valid distinct absent hsplit hanswer
    exact hnone earlier hearlier (hcovers.serves hserves)
  · intro huncovered
    refine ⟨row.method.name, row.freshPath routes, ?_⟩
    have hnone : ∀ earlier ∈ before, ¬ earlier.Serves row.method.name (row.freshPath routes) := by
      intro earlier hearlier hserves
      have hmem : earlier ∈ routes := hperm.mem_iff.mp (by rw [hsplit]; simp [hearlier])
      exact huncovered earlier hearlier (Route.covers_of_serves_freshPath hmem hvalid hserves)
    rw [resolve_grouped_of_first valid hsplit hnone rfl (row.pieces?_freshPath routes hvalid)
      (Template.fits_filled _ _)]

/-- A table whose second row is covered under another name, and whose last one is listed first. -/
def shadowedTable : List (Route String) :=
  [⟨.get, "/{a}/{y}", "Any"⟩, ⟨.get, "/{b}/x", "Shadowed"⟩, ⟨.get, "/u/x", "Literal"⟩]

theorem shadowedTable_row_reached_iff_not_covered :
    ((∀ route ∈ shadowedTable, validatePath route.path = .ok ()) ∧
        (shadowedTable.map Route.endpoint).Nodup ∧
        "Missing" ∉ shadowedTable.map Route.endpoint) ∧
      ∃ tree, Tree.ofRoutes "Missing" shadowedTable = .ok tree ∧
        ∀ row ∈ shadowedTable, ∃ before after, tree.routes = before ++ row :: after ∧
          ((∃ method path, (tree.resolve method path).endpoint = row.endpoint) ↔
            ∀ earlier ∈ before, ¬ earlier.Covers row) :=
  ⟨⟨by decide, by decide, by decide⟩,
    Tree.row_reached_iff_not_covered "Missing" shadowedTable (by decide) (by decide) (by decide)⟩

end HttpRoutes
