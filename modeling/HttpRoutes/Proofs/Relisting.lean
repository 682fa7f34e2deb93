import HttpRoutes.Proofs.CanonicalTree
import HttpRoutes.Proofs.Regrouping

/-!
# Grouping the listing of a canonical tree

The rows that a canonical tree lists, grouped, are the tree again.

* `Branch.rows` : the rows of branches, with the segments to be placed from there;
* `Branch.CanonicalBelow.inGroups_rows` : the rows of a level stand in the groups of its nodes;
* `Branch.CanonicalBelow.following_rows` : the rows that go on with a segment are those below its
  node;
* `Branch.CanonicalBelow.level_rows` : grouped, the rows of a level are the level;
* `Tree.grouping_undoes_listing` : canonical trees come back from their listing, and so does every
  tree that grouping makes.
-/

namespace HttpRoutes

variable {α : Type}

namespace Branch

theorem WellFormed.aligned {node : Branch α} (h : node.WellFormed) : node.Aligned := by
  intro step hstep
  cases node with
  | path lead below =>
    obtain ⟨⟨text, hplain, rfl⟩, -⟩ := h
    obtain rfl := Option.some.inj hstep
    exact ⟨[text], List.forall_mem_singleton.mpr hplain, by simp [String.join_cons]⟩
  | param name below =>
    obtain rfl := Option.some.inj hstep
    exact h.1
  | leaf _ _ => cases hstep

theorem CanonicalBelow.aligned {branches : List (Branch α)} (h : CanonicalBelow branches) :
    ∀ level ∈ branches :: levelsAll branches, ∀ node ∈ level, node.Aligned :=
  fun level hlevel node hnode => ((h level hlevel).nodes node hnode).aligned

/-! ## The rows of branches -/

/-- The routes below branches, to be placed from there. -/
def rows (branches : List (Branch α)) : List (Pending α) :=
  (routesAll branches).map Route.pending

theorem rows_flatMap {β : Type} (items : List β) (f : β → List (Branch α)) :
    rows (items.flatMap f) = items.flatMap fun item => rows (f item) := by
  rw [rows, routesAll_eq_flatMap, List.flatMap_assoc, List.map_flatMap]
  simp only [rows, routesAll_eq_flatMap]

theorem mem_rows_iff {branches : List (Branch α)} {row : Pending α} :
    row ∈ rows branches ↔ ∃ node ∈ branches, row ∈ rows [node] := by
  have hrows := rows_flatMap branches fun node => [node]
  rw [List.flatMap_singleton'] at hrows
  rw [hrows, List.mem_flatMap]

theorem rows_leaves {leaves : List (Branch α)} (h : ∀ node ∈ leaves, node.isLeaf = true) :
    (rows leaves).map Pending.leaf = leaves ∧ ∀ row ∈ rows leaves, row.segments = [] := by
  induction leaves with
  | nil => exact ⟨rfl, fun _ hrow => nomatch hrow⟩
  | cons node leaves ih =>
    obtain ⟨hnode, hleaves⟩ := List.forall_mem_cons.mp h
    obtain ⟨hrows, hnil⟩ := ih hleaves
    cases node with
    | path _ _ => cases hnode
    | param _ _ => cases hnode
    | leaf method endpoint =>
      have hrow : rows (leaf method endpoint :: leaves) = ⟨method, [], endpoint⟩ :: rows leaves :=
        rfl
      rw [hrow]
      exact ⟨congrArg _ hrows, List.forall_mem_cons.mpr ⟨rfl, hnil⟩⟩

end Branch

/-- A route with one more segment to place. -/
def Pending.push (segment : Segment) (row : Pending α) : Pending α :=
  { row with segments := segment :: row.segments }

theorem Route.pending_under {segment : Segment} (hsegment : segment.WellFormed) {row : Route α}
    {template : Template} (hwf : ∀ other ∈ template, other.WellFormed)
    (hpath : row.path = template.render) :
    (row.under segment.render).pending = row.pending.push segment := by
  have hwhole : (row.under segment.render).template = segment :: template := by
    refine template_of_path_eq (List.forall_mem_cons.mpr ⟨hsegment, hwf⟩) ?_
    rw [Route.under, hpath, Template.render, Template.render, List.map_cons, String.join_cons]
  rw [pending, pending, hwhole, template_of_path_eq hwf hpath]
  rfl

namespace Branch

theorem rows_branch {segment : Segment} (hsegment : segment.WellFormed) {below : List (Branch α)}
    (h : CanonicalBelow below) :
    rows [segment.branch below] = (rows below).map (Pending.push segment) := by
  have hroutes : routesAll [segment.branch below] =
      (routesAll below).map (Route.under segment.render) := by
    cases segment <;> exact List.append_nil _
  rw [rows, hroutes, rows, List.map_map, List.map_map]
  refine List.map_congr_left fun row hrow => ?_
  obtain ⟨template, hwf, hpath⟩ := exists_template_of_mem_routesAll h.aligned row hrow
  exact Route.pending_under hsegment hwf hpath

mutual

theorem routes_ne_nil : ∀ node : Branch α, node.WellFormed →
    (∀ level ∈ node.levels, ∀ other ∈ level, other.WellFormed) → node.routes ≠ []
  | path lead below, hnode, hlevels => by
    obtain ⟨hbelow, hdeeper⟩ := List.forall_mem_cons.mp hlevels
    rw [routes, ne_eq, List.map_eq_nil_iff]
    exact routesAll_ne_nil below hnode.2 hbelow hdeeper
  | param name below, hnode, hlevels => by
    obtain ⟨hbelow, hdeeper⟩ := List.forall_mem_cons.mp hlevels
    rw [routes, ne_eq, List.map_eq_nil_iff]
    exact routesAll_ne_nil below hnode.2 hbelow hdeeper
  | leaf _ _, _, _ => List.cons_ne_nil _ _

/-- Below well-formed nodes there are leaves. -/
theorem routesAll_ne_nil : ∀ nodes : List (Branch α), nodes ≠ [] →
    (∀ node ∈ nodes, node.WellFormed) →
    (∀ level ∈ levelsAll nodes, ∀ node ∈ level, node.WellFormed) → routesAll nodes ≠ []
  | [], hne, _, _ => absurd rfl hne
  | node :: nodes, _, hnodes, hlevels => by
    obtain ⟨hnode, -⟩ := List.forall_mem_cons.mp hnodes
    obtain ⟨hbelow, -⟩ := List.forall_mem_append.mp hlevels
    rw [routesAll, ne_eq, List.append_eq_nil_iff, not_and_or]
    exact Or.inl (routes_ne_nil node hnode hbelow)

end

namespace CanonicalBelow

theorem rows_ne_nil {branches : List (Branch α)} (h : CanonicalBelow branches)
    (hne : branches ≠ []) : rows branches ≠ [] := by
  rw [rows, ne_eq, List.map_eq_nil_iff]
  refine routesAll_ne_nil branches hne (h branches List.mem_cons_self).nodes ?_
  exact fun level hlevel => (h level (List.mem_cons_of_mem _ hlevel)).nodes

/-- A node with a segment has canonical levels below it, and its rows start with the segment. -/
theorem of_head? {branches : List (Branch α)} (h : CanonicalBelow branches) {node : Branch α}
    (hnode : node ∈ branches) {segment : Segment} (hhead : node.head? = some segment) :
    CanonicalBelow node.children ∧ rows node.children ≠ [] ∧
      node = segment.branch node.children ∧
      rows [node] = (rows node.children).map (Pending.push segment) := by
  obtain ⟨hsegment, hne, heq⟩ :=
    ((h branches List.mem_cons_self).nodes node hnode).eq_branch hhead
  have hstep : node.step?.isSome := by
    rw [heq]
    cases segment <;> rfl
  have hbelow : CanonicalBelow node.children := forall_level_children h hnode hstep
  have hrows := rows_branch hsegment hbelow
  rw [← heq] at hrows
  exact ⟨hbelow, hbelow.rows_ne_nil hne, heq, hrows⟩

/-- The group of a segment is one node. -/
theorem filter_head?_eq_branch {branches : List (Branch α)} (h : CanonicalBelow branches)
    {segment : Segment} (hk : some segment ∈ (branches.map head?).eraseDups) :
    ∃ below, branches.filter (·.head? = some segment) = [segment.branch below] ∧
      CanonicalBelow below ∧ rows below ≠ [] ∧
      rows [segment.branch below] = (rows below).map (Pending.push segment) := by
  obtain ⟨node, hnode, hhead⟩ := List.mem_map.mp (List.mem_eraseDups.mp hk)
  obtain ⟨hbelow, hne, heq, hrows⟩ := h.of_head? hnode hhead
  have hfilter := (h branches List.mem_cons_self).filter_head? hnode hhead
  refine ⟨node.children, ?_, hbelow, hne, ?_⟩
  · rw [hfilter, ← heq]
  · rw [← hrows, ← heq]

end CanonicalBelow

theorem isLeaf_of_mem_filter_head? (branches : List (Branch α)) :
    ∀ node ∈ branches.filter (·.head? = none), node.isLeaf = true :=
  fun _ hnode => head?_eq_none_iff.mp (of_decide_eq_true (List.mem_filter.mp hnode).2)

namespace CanonicalBelow

/-- The rows of a canonical level stand in the groups of its nodes. -/
theorem inGroups_rows {branches : List (Branch α)} (h : CanonicalBelow branches) :
    InGroups (fun row : Pending α => row.segments.head?) (branches.map head?).eraseDups
      fun k => rows (branches.filter (·.head? = k)) := by
  have hgroups := inGroups_filter head? branches
  refine ⟨hgroups.nodup, fun k hk => ?_, fun k hk => ?_⟩
  · cases k with
    | none =>
      intro row hrow
      rw [(rows_leaves (isLeaf_of_mem_filter_head? branches)).2 row hrow]
      rfl
    | some segment =>
      obtain ⟨below, hsingle, -, -, hrows⟩ := h.filter_head?_eq_branch hk
      rw [hsingle, hrows]
      exact List.forall_mem_map.mpr fun _ _ => rfl
  · cases k with
    | none =>
      intro hnil
      have hleaves := (rows_leaves (isLeaf_of_mem_filter_head? branches)).1
      rw [hnil] at hleaves
      exact hgroups.ne_nil none hk hleaves.symm
    | some segment =>
      obtain ⟨below, hsingle, -, hne, hrows⟩ := h.filter_head?_eq_branch hk
      rw [hsingle, hrows, ne_eq, List.map_eq_nil_iff]
      exact hne

theorem flatMap_rows_filter {branches : List (Branch α)} (h : CanonicalBelow branches) :
    ((branches.map head?).eraseDups.flatMap fun k => rows (branches.filter (·.head? = k))) =
      rows branches := by
  rw [← rows_flatMap, (h branches List.mem_cons_self).contiguous.flatMap_filter]

theorem heads_rows {branches : List (Branch α)} (h : CanonicalBelow branches) :
    Pending.heads (rows branches) = (branches.map head?).eraseDups := by
  rw [Pending.heads, ← h.flatMap_rows_filter]
  exact headOrder_eq_of_inGroups h.inGroups_rows
    (h branches List.mem_cons_self).pairwise_isParamHead

theorem filter_rows {branches : List (Branch α)} (h : CanonicalBelow branches)
    {k : Option Segment} (hk : k ∈ (branches.map head?).eraseDups) :
    (rows branches).filter (·.segments.head? = k) = rows (branches.filter (·.head? = k)) := by
  rw [← h.flatMap_rows_filter]
  exact h.inGroups_rows.filter_flatMap hk

/-- The rows that go on with a segment are the rows below its node. -/
theorem following_rows {branches : List (Branch α)} (h : CanonicalBelow branches)
    {segment : Segment} (hk : some segment ∈ (branches.map head?).eraseDups) :
    ∃ below, branches.filter (·.head? = some segment) = [segment.branch below] ∧
      CanonicalBelow below ∧ Pending.following segment (rows branches) = rows below := by
  obtain ⟨below, hsingle, hbelow, -, hbranch⟩ := h.filter_head?_eq_branch hk
  refine ⟨below, hsingle, hbelow, ?_⟩
  rw [Pending.following, h.filter_rows hk, hsingle, hbranch, List.map_map]
  exact List.map_id _

/-- Where no row has a segment left, there are only leaves. -/
theorem isLeaf_of_segments_eq_nil {branches : List (Branch α)} (h : CanonicalBelow branches)
    (hnil : ∀ row ∈ rows branches, row.segments = []) : ∀ node ∈ branches, node.isLeaf = true := by
  intro node hnode
  cases hhead : node.head? with
  | none => exact head?_eq_none_iff.mp hhead
  | some segment =>
    obtain ⟨-, hne, -, hrows⟩ := h.of_head? hnode hhead
    obtain ⟨row, hrow⟩ := List.exists_mem_of_ne_nil _ hne
    have hmem : row.push segment ∈ rows [node] := hrows ▸ List.mem_map_of_mem hrow
    exact absurd (hnil _ (mem_rows_iff.mpr ⟨node, hnode, hmem⟩)) (List.cons_ne_nil _ _)

/-- **Grouping the rows of canonical levels gives the levels back.** -/
theorem level_rows {depth : Nat} {branches : List (Branch α)} (h : CanonicalBelow branches)
    (hdepth : ∀ row ∈ rows branches, row.segments.length ≤ depth) :
    Pending.level depth (rows branches) = branches := by
  induction depth generalizing branches with
  | zero =>
    have hleaves := h.isLeaf_of_segments_eq_nil fun row hrow =>
      List.length_eq_zero_iff.mp (Nat.le_zero.mp (hdepth row hrow))
    rw [Pending.level, (rows_leaves hleaves).1]
  | succ depth ih =>
    -- the heads of the rows are those of the nodes, and what follows a head are the rows below it
    have hsplit := (h branches List.mem_cons_self).contiguous.flatMap_filter
    rw [Pending.level_succ, h.heads_rows]
    refine Eq.trans (List.flatMap_congr fun k hk => ?_) hsplit
    cases k with
    | none =>
      rw [Pending.group, Pending.following_none, h.filter_rows hk,
        (rows_leaves (isLeaf_of_mem_filter_head? branches)).1]
    | some segment =>
      obtain ⟨below, hsingle, hbelow, hfollowing⟩ := h.following_rows hk
      have hshort := Pending.length_le_of_mem_following segment hdepth
      rw [hfollowing] at hshort
      rw [Pending.group, hfollowing, ih hbelow hshort, hsingle]

end CanonicalBelow

end Branch

/-! ## Trees -/

namespace Tree

/-- The rows that a canonical tree lists are routes with templates. -/
theorem Canonical.valid {tree : Tree α} (h : tree.Canonical) :
    ∀ route ∈ tree.routes, route.Valid := by
  have hbelow : Branch.CanonicalBelow tree.branches := h.levels
  intro route hroute
  obtain ⟨template, hwf, hpath⟩ :=
    Branch.exists_template_of_mem_routesAll hbelow.aligned route hroute
  have hrow : route.pending ∈ Branch.rows tree.branches := List.mem_map_of_mem hroute
  obtain ⟨node, hnode, hrow⟩ := Branch.mem_rows_iff.mp hrow
  refine Route.valid_of_path_eq (fun hnil => ?_) hwf hpath
  have htemplate : route.pending.segments = [] := (Route.template_of_path_eq hwf hpath).trans hnil
  cases hhead : node.head? with
  | none =>
    rw [Branch.head?_eq_none_iff, h.top node hnode] at hhead
    cases hhead
  | some segment =>
    obtain ⟨-, -, -, hrows⟩ := hbelow.of_head? hnode hhead
    rw [hrows] at hrow
    obtain ⟨row, -, heq⟩ := List.mem_map.mp hrow
    rw [← heq] at htemplate
    cases htemplate

theorem Canonical.ofRoutes_routes {tree : Tree α} (h : tree.Canonical) :
    Tree.ofRoutes tree.missing tree.routes = .ok tree := by
  have hlevel : Pending.branches (Branch.rows tree.branches) = tree.branches :=
    Branch.CanonicalBelow.level_rows h.levels fun _ => Pending.length_le_maxDepth
  have hgrouped : Tree.grouped tree.missing tree.routes = tree :=
    congrArg (Tree.mk tree.missing) hlevel
  rw [Tree.ofRoutes_eq_ok tree.missing h.valid, hgrouped]

/-- **Grouping the listing of a canonical tree gives that tree, node for node,** and so the tree of
routes is the tree of its own listing. -/
theorem grouping_undoes_listing :
    (∀ tree : Tree α, tree.Canonical → Tree.ofRoutes tree.missing tree.routes = .ok tree) ∧
      ∀ (missing : α) (routes : List (Route α)),
        (∀ route ∈ routes, validatePath route.path = .ok ()) →
          ∃ tree, Tree.ofRoutes missing routes = .ok tree ∧
            Tree.ofRoutes missing tree.routes = .ok tree := by
  refine ⟨fun tree h => h.ofRoutes_routes, fun missing routes valid => ?_⟩
  have hcanonical := Tree.canonical_grouped missing valid
  exact ⟨Tree.grouped missing routes, Tree.ofRoutes_eq_ok missing valid,
    hcanonical.ofRoutes_routes⟩

end Tree

/-- A canonical tree: leaves between other nodes, an empty segment, and two parameters. -/
def docsTree : Tree String :=
  ⟨"Missing",
    [.path "/docs"
      [.path "/new" [.leaf .get "Form"], .leaf .get "All", .leaf .post "Create",
        .path "/" [.leaf .get "Slash"],
        .param "id" [.leaf .get "One", .param "page" [.leaf .get "Page"]],
        .param "name" [.leaf .put "Rename"]]]⟩

theorem docsTree_grouping_undoes_listing :
    docsTree.Canonical ∧ Tree.ofRoutes docsTree.missing docsTree.routes = .ok docsTree ∧
      (∀ route ∈ usersTable, validatePath route.path = .ok ()) ∧
      ∃ tree, Tree.ofRoutes "Missing" usersTable = .ok tree ∧
        Tree.ofRoutes "Missing" tree.routes = .ok tree :=
  ⟨by decide, Tree.grouping_undoes_listing.1 docsTree (by decide), by decide,
    Tree.grouping_undoes_listing.2 "Missing" usersTable (by decide)⟩

end HttpRoutes
