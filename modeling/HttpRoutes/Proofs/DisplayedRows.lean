import HttpRoutes.Proofs.Regrouping

/-!
# Requests for the rows of a listing

Whoever reads a row of a listing can make a request of it: the method, and the path with some text in
the place of each parameter. The tree that was listed answers it, perhaps by a row above. The one row
that does not show its path is that of a leaf at the top: the path is empty and a slash is shown.

* `Instantiates shown path` : a path with texts in the place of the parameters that `shown` has
  (`Route.Valid.instantiates_iff`);
* `Tree.WholeSegments` : every node of a tree takes one or more whole segments;
* `Tree.Aligned.resolve_ne_missing` : a tree answers the requests for its rows;
* `Tree.listed_rows_answered` : the same with what is displayed;
* `topLeaf_slash_not_answered` : the slash that a leaf at the top shows is no request for it.
-/

namespace HttpRoutes

variable {α : Type}

/-! ## Paths for a row -/

/-- A path with the pieces that `shown` has, but with any texts in the place of its parameters. -/
def Instantiates (shown path : String) : Prop :=
  List.Forall₂ (fun piece value => (Segment.ofPiece piece).Fits value)
    (shown.toList.splitOn '/') (path.toList.splitOn '/')

instance : ∀ (segment : Segment) (piece : List Char), Decidable (segment.Fits piece)
  | .literal text, piece => inferInstanceAs (Decidable (piece = text.toList))
  | .param _, _ => inferInstanceAs (Decidable True)

instance (shown path : String) : Decidable (Instantiates shown path) :=
  inferInstanceAs (Decidable (List.Forall₂ _ _ _))

/-- Nothing stands before the slash that a path starts with. -/
theorem pieces?_eq_some_iff_splitOn {path : String} {pieces : List (List Char)} :
    pieces? path = some pieces ↔ pieces ≠ [] ∧ path.toList.splitOn '/' = [] :: pieces := by
  constructor
  · intro h
    obtain ⟨hne, -, -⟩ := pieces?_eq_some_iff.mp h
    refine ⟨hne, ?_⟩
    unfold pieces? at h
    split at h
    · next rest hpath =>
      rw [hpath, List.splitOn_cons_eq_if_modifyHead, if_pos (beq_self_eq_true '/'),
        Option.some.inj h]
    · cases h
  · rintro ⟨hne, hsplit⟩
    refine pieces?_eq_some_iff.mpr ⟨hne, fun piece hpiece => ?_, ?_⟩
    · exact slash_notMem_of_mem_splitOn (hsplit ▸ List.mem_cons_of_mem [] hpiece)
    · have hjoin : ['/'].intercalate (path.toList.splitOn '/') = path.toList :=
        List.intercalate_splitOn '/'
      obtain ⟨first, rest, rfl⟩ := List.exists_cons_of_ne_nil hne
      rw [← hjoin, hsplit, slashed_eq_cons_intercalate hne, List.intercalate_cons_cons]
      rfl

namespace Route

/-- The paths for a row are those that its template fits. -/
theorem Valid.instantiates_iff {row : Route α} (h : row.Valid) {path : String} :
    Instantiates row.path path ↔ row.template.Fits path := by
  have hpieces := Template.pieces?_of_parse h.parse
  obtain ⟨hne, hsplit⟩ := pieces?_eq_some_iff_splitOn.mp hpieces
  have hfits : ∀ values, List.Forall₂ (fun piece value => (Segment.ofPiece piece).Fits value)
      (row.template.map Segment.piece) values ↔
        List.Forall₂ Segment.Fits row.template values := by
    intro values
    conv_rhs => rw [template, hpieces, Option.getD_some]
    rw [List.forall₂_map_left_iff, List.forall₂_map_left_iff, List.forall₂_map_left_iff]
  rw [Instantiates, hsplit, List.forall₂_cons_left_iff, Template.Fits]
  simp only [pieces?_eq_some_iff_splitOn, hfits]
  constructor
  · rintro ⟨first, values, rfl, hvalues, hpath⟩
    refine ⟨values, ⟨?_, hpath⟩, hvalues⟩
    rintro rfl
    exact hne (by rw [List.forall₂_nil_right_iff.mp hvalues]; rfl)
  · rintro ⟨values, ⟨-, hpath⟩, hvalues⟩
    exact ⟨[], values, rfl, hvalues, hpath⟩

theorem eq_nil_of_instantiates_empty {path : String} (h : Instantiates "" path) :
    path.toList = [] := by
  obtain ⟨first, rest, hfirst, hrest, hpath⟩ := List.forall₂_cons_left_iff.mp h
  obtain rfl : first = [] := hfirst
  obtain rfl : rest = [] := List.forall₂_nil_left_iff.mp hrest
  have hjoin : ['/'].intercalate (path.toList.splitOn '/') = path.toList :=
    List.intercalate_splitOn '/'
  rw [← hjoin, hpath]
  rfl

/-- The chain of a row hits on the paths for the row, also if it takes nothing off the path. -/
theorem hit?_chain_ne_none {row : Route α} (valid : row.path ≠ "" → row.Valid) {path : String}
    (h : Instantiates row.path path) : row.chain.hit? row.method.name path.toList ≠ none := by
  by_cases hempty : row.path = ""
  · have htemplate : row.template = [] := by
      rw [template, hempty]
      rfl
    rw [hempty] at h
    rw [eq_nil_of_instantiates_empty h, chain, htemplate]
    simp [Chain.hit?, captures?]
  · obtain ⟨pieces, hpieces, hfits⟩ := (valid hempty).instantiates_iff.mp h
    rw [Option.ne_none_iff_exists']
    exact ⟨_, (hit?_chain_eq_some_iff (valid hempty)).mpr ⟨rfl, pieces, hpieces, hfits, rfl⟩⟩

end Route

/-! ## Answers -/

/-- A tree answers the requests for the rows of its listing, and not with its missing endpoint. -/
theorem Tree.Aligned.resolve_ne_missing {tree : Tree α} (h : tree.Aligned)
    (absent : tree.missing ∉ tree.routes.map Route.endpoint) {row : Route α}
    (hrow : row ∈ tree.routes) {path : String} (hpath : Instantiates row.path path) :
    (tree.resolve row.method.name path).endpoint ≠ tree.missing := by
  rw [ne_eq, resolve_endpoint_eq_missing_iff absent, ← h.findSome?_routes,
    List.findSome?_eq_none_iff]
  intro hnone
  exact row.hit?_chain_ne_none (h.valid hrow) hpath (hnone row hrow)

/-- Every path node of a tree and every parameter node takes whole segments, and at least one. -/
structure Tree.WholeSegments (tree : Tree α) : Prop where
  aligned : tree.Aligned
  lead_ne_empty : ∀ level ∈ tree.levels, ∀ node ∈ level, node.step? ≠ some (.literal "")

/-- Only a leaf at the top has no path. -/
theorem Tree.WholeSegments.leaf_mem {tree : Tree α} (h : tree.WholeSegments) {row : Route α}
    (hrow : row ∈ tree.routes) (hempty : row.path = "") :
    .leaf row.method row.endpoint ∈ tree.branches := by
  rw [routes, Branch.routesAll_eq_flatMap, List.mem_flatMap] at hrow
  obtain ⟨node, hnode, hrow⟩ := hrow
  cases node with
  | path lead below =>
    obtain ⟨inner, -, rfl⟩ := List.mem_map.mp hrow
    have hlead : lead = "" := (String.append_eq_empty_iff.mp hempty).1
    exact absurd (by rw [hlead]; rfl) (h.lead_ne_empty _ List.mem_cons_self _ hnode)
  | param name below =>
    obtain ⟨inner, -, rfl⟩ := List.mem_map.mp hrow
    have hname : (Segment.param name).render = "" := (String.append_eq_empty_iff.mp hempty).1
    have hrender := Segment.toList_render (.param name)
    rw [hname] at hrender
    cases hrender
  | leaf method endpoint =>
    obtain rfl := List.mem_singleton.mp hrow
    exact hnode

/-! ## What is displayed -/

/-- The path that a row shows is its own, but a slash if that is empty. -/
theorem Route.display_eq_iff {row : Route String} {shown : String} :
    row.display = row.method.name ++ " " ++ shown ++ " -> " ++ row.endpoint ↔
      shown = if row.path = "" then "/" else row.path := by
  rw [display, String.append_left_inj, String.append_left_inj, String.append_right_inj, eq_comm]

/-- **What a listing displays is answered,** the row of a leaf at the top aside, which shows a slash
where the request for it has the empty path. -/
theorem Tree.listed_rows_answered (tree : Tree String) (whole : tree.WholeSegments)
    (absent : tree.missing ∉ tree.routes.map Route.endpoint) :
    ∀ row ∈ tree.routes,
      (∀ path, Instantiates row.path path →
        (tree.resolve row.method.name path).endpoint ≠ tree.missing) ∧
      ∃ shown, row.display = row.method.name ++ " " ++ shown ++ " -> " ++ row.endpoint ∧
        (shown = row.path ∨
          shown = "/" ∧ row.path = "" ∧ .leaf row.method row.endpoint ∈ tree.branches) := by
  intro row hrow
  refine ⟨fun path hpath => whole.aligned.resolve_ne_missing absent hrow hpath,
    _, Route.display_eq_iff.mpr rfl, ?_⟩
  split
  · next hempty => exact Or.inr ⟨rfl, hempty, whole.leaf_mem hrow hempty⟩
  · exact Or.inl rfl

/-- A tree with a leaf at the top, a prefix of two segments and parameters. -/
def pingTree : Tree String :=
  ⟨"Missing",
    [.leaf .head "Ping",
      .path "/users/all" [.leaf .get "All"],
      .param "id" [.leaf .get "ById", .path "/posts" [.param "post" [.leaf .get "Post"]]]]⟩

theorem pingTree_listed_rows_answered :
    (pingTree.WholeSegments ∧ pingTree.missing ∉ pingTree.routes.map Route.endpoint) ∧
      (⟨.get, "/{id}/posts/{post}", "Post"⟩ ∈ pingTree.routes ∧
        Instantiates "/{id}/posts/{post}" "/7/posts/") ∧
      (pingTree.resolve "GET" "/7/posts/").endpoint ≠ pingTree.missing := by
  have whole : pingTree.WholeSegments := by
    have hall : (Step.literal "/users/all").Aligned := ⟨["users", "all"], by decide, by decide⟩
    have hid : (Step.capture "id").Aligned := by constructor <;> decide
    have hposts : (Step.literal "/posts").Aligned := ⟨["posts"], by decide, by decide⟩
    have hpost : (Step.capture "post").Aligned := by constructor <;> decide
    constructor <;>
      simp [Tree.Aligned, Tree.levels, pingTree, Branch.levelsAll, Branch.levels,
        Branch.Aligned, Branch.step?, hall, hid, hposts, hpost]
  have absent : pingTree.missing ∉ pingTree.routes.map Route.endpoint := by decide
  have hrow : ⟨.get, "/{id}/posts/{post}", "Post"⟩ ∈ pingTree.routes := by decide
  have hpath : Instantiates "/{id}/posts/{post}" "/7/posts/" := by decide
  exact ⟨⟨whole, absent⟩, ⟨hrow, hpath⟩,
    (Tree.listed_rows_answered pingTree whole absent _ hrow).1 _ hpath⟩

/-- The path shown for a row is not always one to ask for: a leaf at the top shows a slash, and the
request for the slash falls back to the missing endpoint. -/
theorem topLeaf_slash_not_answered :
    ¬ ∀ tree : Tree String, tree.WholeSegments →
      tree.missing ∉ tree.routes.map Route.endpoint →
      ∀ row ∈ tree.routes, ∀ shown,
        row.display = row.method.name ++ " " ++ shown ++ " -> " ++ row.endpoint →
        ∀ path, Instantiates shown path →
          (tree.resolve row.method.name path).endpoint ≠ tree.missing := by
  intro h
  have whole : (⟨"Missing", [.leaf .head "Ping"]⟩ : Tree String).WholeSegments := by
    constructor <;>
      simp [Tree.Aligned, Tree.levels, Branch.levelsAll, Branch.levels, Branch.Aligned,
        Branch.step?]
  exact h _ whole (by decide) ⟨.head, "", "Ping"⟩ (by decide) "/" (by decide) "/" (by decide)
    (by decide)

end HttpRoutes
