import HttpRoutes.Proofs.Chains
import HttpRoutes.Route
import Mathlib.Data.List.Forall2

/-!
# Templates against paths

A template and a path are both a slash and pieces with slashes between them, so they are compared
piece by piece.

* `pieces? path` : the pieces of a path that starts with a slash (`pieces?_eq_some_iff`);
* `Segment.piece` : the piece that a segment is written as;
* `Template.render_of_parse` : a template that is read from a path is written as that path;
* `Template.Fits` : a path has the pieces that a template asks for;
* `Template.captured` : what the parameters of a template capture;
* `Route.template`, `Route.chain` : the template of a route and the chain that it stands for;
* `Route.Serves` : a route answers a request (`Route.hit?_chain_eq_some_iff`).
-/

namespace HttpRoutes

variable {α : Type}

/-! ## Pieces -/

/-- Pieces, each with a slash before it. -/
def slashed (pieces : List (List Char)) : List Char :=
  pieces.flatMap ('/' :: ·)

theorem slashed_cons (piece : List Char) (pieces : List (List Char)) :
    slashed (piece :: pieces) = '/' :: (piece ++ slashed pieces) := by
  simp [slashed]

theorem slashed_cases (pieces : List (List Char)) :
    slashed pieces = [] ∨ ∃ tail, slashed pieces = '/' :: tail := by
  cases pieces with
  | nil => exact Or.inl rfl
  | cons piece pieces => exact Or.inr ⟨_, slashed_cons piece pieces⟩

theorem slashed_eq_cons_intercalate {pieces : List (List Char)} (h : pieces ≠ []) :
    slashed pieces = '/' :: ['/'].intercalate pieces := by
  induction pieces with
  | nil => exact absurd rfl h
  | cons piece pieces ih =>
    rw [slashed_cons]
    cases pieces with
    | nil => simp [slashed]
    | cons next pieces =>
      rw [ih (List.cons_ne_nil _ _), List.intercalate_cons_cons]
      simp

/-- The pieces between the slashes of a path that starts with one. -/
def pieces? (path : String) : Option (List (List Char)) :=
  match path.toList with
  | '/' :: rest => some (rest.splitOn '/')
  | _ => none

theorem pieces?_of_toList {path : String} {rest : List Char} (h : path.toList = '/' :: rest) :
    pieces? path = some (rest.splitOn '/') := by
  simp [pieces?, h]

theorem slash_notMem_of_mem_splitOn {text piece : List Char} (h : piece ∈ text.splitOn '/') :
    '/' ∉ piece := by
  induction text generalizing piece with
  | nil => simp_all
  | cons c text ih =>
    rw [List.splitOn_cons_eq_if_modifyHead] at h
    split at h
    · rcases List.mem_cons.mp h with rfl | h
      · exact List.not_mem_nil
      · exact ih h
    · next hc =>
      obtain ⟨first, rest, hsplit⟩ := List.exists_cons_of_ne_nil (List.splitOn_ne_nil '/' text)
      rw [hsplit, List.modifyHead_cons] at h
      rcases List.mem_cons.mp h with rfl | h
      · have hfirst : '/' ∉ first := ih (by rw [hsplit]; exact List.mem_cons_self)
        intro hmem
        rcases List.mem_cons.mp hmem with rfl | hmem
        · simp at hc
        · exact hfirst hmem
      · exact ih (by rw [hsplit]; exact List.mem_cons_of_mem _ h)

theorem pieces?_eq_some_iff {path : String} {pieces : List (List Char)} :
    pieces? path = some pieces ↔
      pieces ≠ [] ∧ (∀ piece ∈ pieces, '/' ∉ piece) ∧ path.toList = slashed pieces := by
  constructor
  · intro h
    unfold pieces? at h
    split at h
    · next rest hpath =>
      obtain rfl := Option.some.inj h
      have hne := List.splitOn_ne_nil '/' rest
      refine ⟨hne, fun piece hpiece => slash_notMem_of_mem_splitOn hpiece, ?_⟩
      rw [slashed_eq_cons_intercalate hne, List.intercalate_splitOn, hpath]
    · cases h
  · rintro ⟨hne, hslash, hpath⟩
    rw [slashed_eq_cons_intercalate hne] at hpath
    rw [pieces?_of_toList hpath, List.splitOn_intercalate '/' hslash hne]

/-! ## Reading and writing templates -/

namespace Segment

/-- What stands for a segment between the slashes of a path. -/
def piece : Segment → List Char
  | literal text => text.toList
  | param name => '\x7b' :: (name.toList ++ ['\x7d'])

theorem toList_render (segment : Segment) : segment.render.toList = '/' :: segment.piece := by
  cases segment <;> simp [render, piece]

theorem eq_of_braced? {piece name : List Char} (h : braced? piece = some name) :
    piece = '\x7b' :: (name ++ ['\x7d']) := by
  unfold braced? at h
  split at h
  · next rest =>
    obtain ⟨hlast, hname⟩ := Option.ite_none_right_eq_some.mp h
    obtain ⟨front, rfl⟩ := List.getLast?_eq_some_iff.mp hlast
    rw [← Option.some.inj hname, List.dropLast_concat]
  · cases h

theorem piece_of_parse {path : String} {text : List Char} {segment : Segment}
    (h : parse path text = .ok segment) : segment.piece = text := by
  unfold parse at h
  split at h
  · cases h
  · next c name hname =>
    split at h <;> cases h
    rw [piece, String.toList_ofList, eq_of_braced? hname]
  · split at h <;> cases h
    rw [piece, String.toList_ofList]

/-- What a piece stands for: a parameter if braces enclose it, and else its own text. -/
def ofPiece (text : List Char) : Segment :=
  if text.head? = some '\x7b' ∧ text.getLast? = some '\x7d' then
    param (String.ofList text.tail.dropLast)
  else literal (String.ofList text)

theorem eq_ofPiece_of_parse {path : String} {text : List Char} {segment : Segment}
    (h : parse path text = .ok segment) : segment = ofPiece text := by
  unfold parse at h
  split at h
  · cases h
  · next c name hname =>
    split at h <;> cases h
    have hlast : ('\x7b' :: (c :: name ++ ['\x7d'])).getLast? = some '\x7d' :=
      List.getLast?_concat (l := '\x7b' :: c :: name)
    rw [eq_of_braced? hname, ofPiece, if_pos ⟨rfl, hlast⟩, List.tail_cons, List.dropLast_concat]
  · split at h
    · cases h
    · next hplain =>
      cases h
      rw [ofPiece, if_neg]
      rintro ⟨hhead, -⟩
      obtain ⟨rest, rfl⟩ := List.head?_eq_some_iff.mp hhead
      simp [isBrace] at hplain

end Segment

theorem mapM_eq_ok_iff {β γ ε : Type} {f : β → Except ε γ} {xs : List β} {ys : List γ} :
    xs.mapM f = .ok ys ↔ List.Forall₂ (fun x y => f x = .ok y) xs ys := by
  constructor
  · intro h
    induction xs generalizing ys with
    | nil =>
      obtain rfl : [] = ys := by simpa [pure, Except.pure] using h
      exact .nil
    | cons x xs ih =>
      rw [List.mapM_cons] at h
      cases hx : f x with
      | error e => simp [hx, bind, Except.bind] at h
      | ok y =>
        cases hxs : xs.mapM f with
        | error e => simp [hx, hxs, bind, Except.bind] at h
        | ok rest =>
          obtain rfl : y :: rest = ys := by
            simpa [hx, hxs, bind, Except.bind, pure, Except.pure] using h
          exact .cons hx (ih hxs)
  · intro h
    induction h with
    | nil => rfl
    | cons hx _ ih =>
      rw [List.mapM_cons, hx, ih]
      rfl

namespace Template

theorem pieces?_of_parse {path : String} {template : Template} (h : parse path = .ok template) :
    pieces? path = some (template.map Segment.piece) := by
  unfold parse at h
  split at h
  · next rest hpath =>
    have hmap : rest.splitOn '/' = template.map Segment.piece := by
      rw [← List.forall₂_eq_eq_eq, List.forall₂_map_right_iff]
      exact (mapM_eq_ok_iff.mp h).imp fun piece segment hparse =>
        (Segment.piece_of_parse hparse).symm
    rw [pieces?_of_toList hpath, hmap]
  · cases h

theorem toList_render (template : Template) :
    template.render.toList = slashed (template.map Segment.piece) := by
  unfold render slashed
  induction template with
  | nil => rfl
  | cons segment template ih =>
    rw [List.map_cons, String.join_cons, String.toList_append, Segment.toList_render, ih]
    rfl

theorem map_ofPiece_of_parse {path : String} {template : Template}
    (h : parse path = .ok template) :
    ((pieces? path).getD []).map Segment.ofPiece = template := by
  unfold parse at h
  split at h
  · next rest hpath =>
    rw [pieces?_of_toList hpath, Option.getD_some, ← List.forall₂_eq_eq_eq,
      List.forall₂_map_left_iff]
    exact (mapM_eq_ok_iff.mp h).imp fun piece segment hparse =>
      (Segment.eq_ofPiece_of_parse hparse).symm
  · cases h

/-- **A template that is read from a path is written as that path.** -/
theorem render_of_parse {path : String} {template : Template} (h : parse path = .ok template) :
    template.render = path := by
  apply String.toList_injective
  rw [toList_render, (pieces?_eq_some_iff.mp (pieces?_of_parse h)).2.2]

end Template

/-! ## Fitting a path -/

/-- A literal segment fits its own text, a parameter every text. -/
def Segment.Fits : Segment → List Char → Prop
  | .literal text, piece => piece = text.toList
  | .param _, _ => True

def Segment.binding? : Segment → List Char → Option (String × String)
  | .literal _, _ => none
  | .param name, piece => some (name, String.ofList piece)

/-- The step that takes a segment off a path. -/
def Segment.step : Segment → Step
  | .literal text => .literal (Segment.literal text).render
  | .param name => .capture name

namespace Template

/-- A path starts with a slash and has one piece for each segment, which the segment fits. -/
def Fits (template : Template) (path : String) : Prop :=
  ∃ pieces, pieces? path = some pieces ∧ List.Forall₂ Segment.Fits template pieces

/-- What the parameters of a template capture from pieces, from left to right. -/
def captured (template : Template) (pieces : List (List Char)) : List (String × String) :=
  (template.zip pieces).filterMap fun (segment, piece) => segment.binding? piece

theorem captured_literal (text : String) (template : Template) (piece : List Char)
    (pieces : List (List Char)) :
    captured (.literal text :: template) (piece :: pieces) = captured template pieces := rfl

theorem captured_param (name : String) (template : Template) (piece : List Char)
    (pieces : List (List Char)) :
    captured (.param name :: template) (piece :: pieces) =
      (name, String.ofList piece) :: captured template pieces := rfl

def names (template : Template) : List String :=
  (template.map Segment.step).filterMap Step.name?

/-- The steps of a template make up slashed pieces only, so that a literal never ends inside a
piece. -/
theorem fits_of_spells {template : Template} {values : List String} {path : List Char}
    (slashless : ∀ segment ∈ template, '/' ∉ segment.piece)
    (h : Spells (template.map Segment.step) values path) :
    ∃ pieces, (∀ piece ∈ pieces, '/' ∉ piece) ∧ path = slashed pieces ∧
      List.Forall₂ Segment.Fits template pieces ∧
      template.names.zip values = template.captured pieces := by
  induction template generalizing values path with
  | nil =>
    cases h
    exact ⟨[], by simp, rfl, .nil, rfl⟩
  | cons segment template ih =>
    have htail := fun other hother => slashless other (List.mem_cons_of_mem segment hother)
    cases segment with
    | literal text =>
      cases h with
      | literal _ below =>
        obtain ⟨pieces, hpieces, rfl, hfits, hcaptured⟩ := ih htail below
        have htext : '/' ∉ text.toList := slashless (.literal text) List.mem_cons_self
        refine ⟨text.toList :: pieces, ?_, ?_, .cons rfl hfits, hcaptured⟩
        · exact List.forall_mem_cons.mpr ⟨htext, hpieces⟩
        · rw [slashed_cons, Segment.toList_render]
          rfl
    | param name =>
      cases h with
      | capture _ value hvalue _ below =>
        obtain ⟨pieces, hpieces, rfl, hfits, hcaptured⟩ := ih htail below
        refine ⟨value.toList :: pieces, ?_, ?_, .cons trivial hfits, ?_⟩
        · exact List.forall_mem_cons.mpr ⟨hvalue, hpieces⟩
        · rw [slashed_cons]
        · rw [captured_param, String.ofList_toList, ← hcaptured]
          rfl

theorem spells_of_fits {template : Template} {pieces : List (List Char)}
    (hfits : List.Forall₂ Segment.Fits template pieces) (hpieces : ∀ piece ∈ pieces, '/' ∉ piece) :
    ∃ values, Spells (template.map Segment.step) values (slashed pieces) ∧
      template.names.zip values = template.captured pieces := by
  induction hfits with
  | nil => exact ⟨[], .done, rfl⟩
  | @cons segment piece template pieces hfit _ ih =>
    obtain ⟨values, hvalues, hcaptured⟩ :=
      ih fun other hother => hpieces other (List.mem_cons_of_mem _ hother)
    have hpiece : '/' ∉ piece := hpieces piece List.mem_cons_self
    rw [slashed_cons]
    cases segment with
    | literal text =>
      have hstep := Spells.literal (Segment.literal text).render hvalues
      rw [Segment.toList_render, Segment.piece, ← hfit] at hstep
      exact ⟨values, hstep, hcaptured⟩
    | param name =>
      have hstep := Spells.capture name (String.ofList piece) (by rwa [String.toList_ofList])
        (slashed_cases pieces) hvalues
      rw [String.toList_ofList] at hstep
      refine ⟨_, hstep, ?_⟩
      rw [captured_param, ← hcaptured]
      rfl

end Template

/-! ## Routes -/

namespace Route

/-- What the pieces of the path of a route stand for. -/
def template (route : Route α) : Template :=
  ((pieces? route.path).getD []).map Segment.ofPiece

/-- The chain that a route stands for. -/
def chain (route : Route α) : Chain α :=
  ⟨route.template.map Segment.step, route.method, route.endpoint⟩

/-- A route has the requested method, and its template fits the path. -/
def Serves (method path : String) (route : Route α) : Prop :=
  route.method.name = method ∧ route.template.Fits path

/-- The path of a route is a template. -/
def Valid (route : Route α) : Prop :=
  validatePath route.path = .ok ()

theorem Valid.parse {route : Route α} (h : route.Valid) :
    Template.parse route.path = .ok route.template := by
  unfold Valid validatePath at h
  cases hparse : Template.parse route.path with
  | error e => simp [hparse, Except.map] at h
  | ok read => rw [template, Template.map_ofPiece_of_parse hparse]

theorem Valid.render {route : Route α} (h : route.Valid) : route.template.render = route.path :=
  Template.render_of_parse h.parse

theorem Valid.pieces {route : Route α} (h : route.Valid) :
    route.template.map Segment.piece ≠ [] ∧ ∀ segment ∈ route.template, '/' ∉ segment.piece := by
  obtain ⟨hne, hslash, -⟩ := pieces?_eq_some_iff.mp (Template.pieces?_of_parse h.parse)
  exact ⟨hne, fun segment hsegment => hslash _ (List.mem_map_of_mem hsegment)⟩

/-- **The chain of a route hits where its template fits,** with what the parameters capture. -/
theorem hit?_chain_eq_some_iff {route : Route α} (h : route.Valid) {method path : String}
    {hit : Hit α} :
    route.chain.hit? method path.toList = some hit ↔
      route.method.name = method ∧ ∃ pieces, pieces? path = some pieces ∧
        List.Forall₂ Segment.Fits route.template pieces ∧
        hit = ⟨route.endpoint, route.template.captured pieces⟩ := by
  obtain ⟨hne, hslash⟩ := h.pieces
  rw [Chain.hit?_eq_some_iff]
  refine and_congr_right fun _ => ?_
  constructor
  · rintro ⟨values, hspells, rfl⟩
    obtain ⟨pieces, hpieces, hpath, hfits, hcaptured⟩ := Template.fits_of_spells hslash hspells
    refine ⟨pieces, pieces?_eq_some_iff.mpr ⟨?_, hpieces, hpath⟩, hfits, ?_⟩
    · rintro rfl
      exact hne (List.map_eq_nil_iff.mpr (List.forall₂_nil_right_iff.mp hfits))
    · exact congrArg (Hit.mk route.endpoint) hcaptured
  · rintro ⟨pieces, hsome, hfits, rfl⟩
    obtain ⟨-, hpieces, hpath⟩ := pieces?_eq_some_iff.mp hsome
    obtain ⟨values, hspells, hcaptured⟩ := Template.spells_of_fits hfits hpieces
    rw [← hpath] at hspells
    exact ⟨values, hspells, congrArg (Hit.mk route.endpoint) hcaptured.symm⟩

end Route

end HttpRoutes
