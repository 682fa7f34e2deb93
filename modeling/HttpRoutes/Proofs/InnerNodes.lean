import HttpRoutes.Proofs.Compilation
import HttpRoutes.Proofs.Relisting

/-!
# The nodes of the tree of routes

The tree that grouping makes has a leaf for each route and an inner node for each way in which the
template of some route starts.

* `Branch.trails`, `Tree.trails` : the inner nodes in pre-order, each by the steps down to it;
* `Branch.mem_levelsAll_of_mem_levels` : the levels below a node are levels of the whole;
* `Pending.starts` : the starts of the unplaced segments, in the order of the inner nodes
  (`Pending.mem_starts`, `Pending.nodup_starts`, `Pending.trailsAll_level`);
* `Tree.Represents` : what the tree of routes looks like (`Tree.represents_routes`).
-/

namespace HttpRoutes

variable {α : Type}

namespace Branch

mutual

/-- The inner nodes of a branch in pre-order, each by the steps down to it, its own being the
last. -/
def trails : Branch α → List (List Step)
  | path lead below => [.literal lead] :: (trailsAll below).map (.literal lead :: ·)
  | param name below => [.capture name] :: (trailsAll below).map (.capture name :: ·)
  | leaf _ _ => []

def trailsAll : List (Branch α) → List (List Step)
  | [] => []
  | branch :: branches => trails branch ++ trailsAll branches

end

theorem trailsAll_eq_flatMap (branches : List (Branch α)) :
    trailsAll branches = branches.flatMap trails := by
  induction branches with
  | nil => rfl
  | cons branch branches ih => rw [trailsAll, ih, List.flatMap_cons]

theorem trailsAll_flatMap {β : Type} (items : List β) (f : β → List (Branch α)) :
    trailsAll (items.flatMap f) = items.flatMap fun item => trailsAll (f item) := by
  simp only [trailsAll_eq_flatMap, List.flatMap_assoc]

theorem trailsAll_branch (segment : Segment) (below : List (Branch α)) :
    trailsAll [segment.branch below] =
      [segment.step] :: (trailsAll below).map (segment.step :: ·) := by
  cases segment <;> exact List.append_nil _

theorem trailsAll_of_isLeaf {nodes : List (Branch α)} (h : ∀ node ∈ nodes, node.isLeaf = true) :
    trailsAll nodes = [] := by
  rw [trailsAll_eq_flatMap, List.flatMap_eq_nil_iff]
  intro node hnode
  have hleaf := h node hnode
  cases node <;> simp_all [isLeaf, trails]

/-! ## Leaves below a node -/

mutual

theorem mem_levels_of_mem_levels {node : Branch α} {deeper : List (Branch α)}
    (hdeeper : deeper ∈ node.levels) : ∀ branch : Branch α,
    (∃ level ∈ branch.levels, node ∈ level) → deeper ∈ branch.levels
  | path _ below, ⟨level, hlevel, hnode⟩ =>
    List.mem_cons_of_mem _ (mem_levelsAll_of_mem_levels hdeeper below ⟨level, hlevel, hnode⟩)
  | param _ below, ⟨level, hlevel, hnode⟩ =>
    List.mem_cons_of_mem _ (mem_levelsAll_of_mem_levels hdeeper below ⟨level, hlevel, hnode⟩)
  | leaf _ _, ⟨_, hlevel, _⟩ => nomatch hlevel

/-- The levels below a node of any level are levels of the whole. -/
theorem mem_levelsAll_of_mem_levels {node : Branch α} {deeper : List (Branch α)}
    (hdeeper : deeper ∈ node.levels) : ∀ branches : List (Branch α),
    (∃ level ∈ branches :: levelsAll branches, node ∈ level) → deeper ∈ levelsAll branches
  | [], ⟨level, hlevel, hnode⟩ => by
    obtain rfl := List.mem_singleton.mp hlevel
    cases hnode
  | branch :: branches, ⟨level, hlevel, hnode⟩ => by
    have hrest := mem_levelsAll_of_mem_levels hdeeper branches
    rw [levelsAll, List.mem_append]
    rcases List.mem_cons.mp hlevel with rfl | hlevel
    · rcases List.mem_cons.mp hnode with rfl | hnode
      · exact Or.inl hdeeper
      · exact Or.inr (hrest ⟨branches, List.mem_cons_self, hnode⟩)
    · rcases List.mem_append.mp hlevel with hlevel | hlevel
      · exact Or.inl (mem_levels_of_mem_levels hdeeper branch ⟨level, hlevel, hnode⟩)
      · exact Or.inr (hrest ⟨level, List.mem_cons_of_mem _ hlevel, hnode⟩)

end

mutual

theorem exists_isLeaf_of_routes_ne_nil : ∀ node : Branch α, node.routes ≠ [] →
    node.isLeaf = false → ∃ deeper ∈ node.levels, ∃ other ∈ deeper, other.isLeaf = true
  | path _ below, hroutes, _ =>
    exists_isLeaf_of_routesAll_ne_nil below (mt List.map_eq_nil_iff.mpr hroutes)
  | param _ below, hroutes, _ =>
    exists_isLeaf_of_routesAll_ne_nil below (mt List.map_eq_nil_iff.mpr hroutes)
  | leaf _ _, _, hleaf => nomatch hleaf

/-- Where routes are listed, a leaf stands. -/
theorem exists_isLeaf_of_routesAll_ne_nil : ∀ nodes : List (Branch α), routesAll nodes ≠ [] →
    ∃ level ∈ nodes :: levelsAll nodes, ∃ other ∈ level, other.isLeaf = true
  | [], hroutes => absurd rfl hroutes
  | node :: nodes, hroutes => by
    by_cases hleaf : node.isLeaf = true
    · exact ⟨_, List.mem_cons_self, node, List.mem_cons_self, hleaf⟩
    rw [Bool.not_eq_true] at hleaf
    by_cases hnode : node.routes = []
    · rw [routesAll, hnode, List.nil_append] at hroutes
      obtain ⟨level, hlevel, other, hother, hisLeaf⟩ :=
        exists_isLeaf_of_routesAll_ne_nil nodes hroutes
      rcases List.mem_cons.mp hlevel with rfl | hlevel
      · exact ⟨_, List.mem_cons_self, other, List.mem_cons_of_mem _ hother, hisLeaf⟩
      · refine ⟨level, List.mem_cons_of_mem _ ?_, other, hother, hisLeaf⟩
        exact List.mem_append_right _ hlevel
    · obtain ⟨deeper, hdeeper, hother⟩ := exists_isLeaf_of_routes_ne_nil node hnode hleaf
      exact ⟨deeper, List.mem_cons_of_mem _ (List.mem_append_left _ hdeeper), hother⟩

end

/-- In a tree of well-formed nodes every inner node has a leaf below it. -/
theorem CanonicalBelow.exists_isLeaf {branches : List (Branch α)} (h : CanonicalBelow branches)
    {level : List (Branch α)} (hlevel : level ∈ branches :: levelsAll branches) {node : Branch α}
    (hnode : node ∈ level) (hinner : node.isLeaf = false) :
    ∃ deeper ∈ node.levels, ∃ other ∈ deeper, other.isLeaf = true := by
  refine exists_isLeaf_of_routes_ne_nil node ?_ hinner
  refine routes_ne_nil node ((h level hlevel).nodes node hnode) fun deeper hdeeper => ?_
  have hmem := mem_levelsAll_of_mem_levels hdeeper branches ⟨level, hlevel, hnode⟩
  exact (h deeper (List.mem_cons_of_mem _ hmem)).nodes

end Branch

/-- The inner nodes of a tree in pre-order, each by the steps down to it. -/
def Tree.trails (tree : Tree α) : List (List Step) :=
  Branch.trailsAll tree.branches

/-! ## How templates start -/

namespace Pending

/-- How the unplaced segments of routes start, up to `depth` segments: the shorter start before the
longer one, and different heads in the order of their branches. -/
def starts : Nat → List (Pending α) → List Template
  | 0, _ => []
  | depth + 1, routes =>
    (heads routes).flatMap fun
      | none => []
      | some head => [head] :: (starts depth (following head routes)).map (head :: ·)

/-- **The inner nodes are the starts of the templates, one for one and in the same order.** -/
theorem trailsAll_level (depth : Nat) (routes : List (Pending α)) :
    Branch.trailsAll (level depth routes) = (starts depth routes).map (List.map Segment.step) := by
  induction depth generalizing routes with
  | zero => exact Branch.trailsAll_of_isLeaf isLeaf_of_mem_leaves
  | succ depth ih =>
    rw [level_succ, Branch.trailsAll_flatMap, starts, List.map_flatMap]
    refine List.flatMap_congr fun head _ => ?_
    rcases head with _ | head
    · exact Branch.trailsAll_of_isLeaf isLeaf_of_mem_leaves
    · simp only [group, Branch.trailsAll_branch, ih, List.map_map, List.map_cons, List.map_nil]
      rfl

theorem exists_cons_prefix_iff {routes : List (Pending α)} {head : Segment} {rest : Template} :
    (∃ route ∈ routes, head :: rest <+: route.segments) ↔
      ∃ route ∈ following head routes, rest <+: route.segments := by
  constructor
  · rintro ⟨route, hroute, more, hmore⟩
    have hhead : route.segments.head? = some head := by rw [← hmore]; rfl
    refine ⟨route.tail, ?_, more, ?_⟩
    · exact List.mem_map_of_mem (List.mem_filter.mpr ⟨hroute, decide_eq_true hhead⟩)
    · rw [tail, ← hmore]
      rfl
  · rintro ⟨route, hroute, hprefix⟩
    obtain ⟨whole, hwhole, hsegments⟩ := mem_following hroute
    exact ⟨whole, hwhole, by rw [hsegments]; exact List.cons_prefix_cons.mpr ⟨rfl, hprefix⟩⟩

theorem some_mem_heads_iff {routes : List (Pending α)} {head : Segment} :
    some head ∈ heads routes ↔ following head routes ≠ [] := by
  refine ⟨following_ne_nil, fun hne => ?_⟩
  obtain ⟨route, hroute⟩ := List.exists_mem_of_ne_nil _ hne
  obtain ⟨whole, hwhole, hsegments⟩ := mem_following hroute
  exact mem_heads_iff.mpr ⟨whole, hwhole, by rw [hsegments]; rfl⟩

theorem nil_notMem_starts (depth : Nat) (routes : List (Pending α)) : [] ∉ starts depth routes := by
  cases depth with
  | zero => exact List.not_mem_nil
  | succ depth =>
    rw [starts, List.mem_flatMap]
    rintro ⟨_ | head, -, hmem⟩
    · cases hmem
    · simp at hmem

theorem cons_mem_starts_iff {depth : Nat} {routes : List (Pending α)} {head : Segment}
    {rest : Template} : head :: rest ∈ starts (depth + 1) routes ↔
      following head routes ≠ [] ∧ (rest = [] ∨ rest ∈ starts depth (following head routes)) := by
  rw [starts, List.mem_flatMap, ← some_mem_heads_iff]
  constructor
  · rintro ⟨_ | other, hother, hmem⟩
    · cases hmem
    · simp only [List.mem_cons, List.cons.injEq, List.mem_map] at hmem
      rcases hmem with ⟨rfl, rfl⟩ | ⟨_, hrest, rfl, rfl⟩
      · exact ⟨hother, Or.inl rfl⟩
      · exact ⟨hother, Or.inr hrest⟩
  · rintro ⟨hhead, hrest⟩
    refine ⟨some head, hhead, ?_⟩
    rcases hrest with rfl | hrest
    · exact List.mem_cons_self
    · exact List.mem_cons_of_mem _ (List.mem_map_of_mem hrest)

/-- The starts are the templates that some route goes on with, the empty one aside. -/
theorem mem_starts {depth : Nat} {routes : List (Pending α)}
    (hdepth : ∀ route ∈ routes, route.segments.length ≤ depth) {start : Template} :
    start ∈ starts depth routes ↔ start ≠ [] ∧ ∃ route ∈ routes, start <+: route.segments := by
  induction depth generalizing routes start with
  | zero =>
    refine iff_of_false List.not_mem_nil ?_
    rintro ⟨hne, route, hroute, hprefix⟩
    have hlength := hprefix.length_le.trans (hdepth route hroute)
    exact hne (List.length_eq_zero_iff.mp (Nat.le_zero.mp hlength))
  | succ depth ih =>
    rcases start with _ | ⟨head, rest⟩
    · simp [nil_notMem_starts]
    rw [cons_mem_starts_iff, exists_cons_prefix_iff, ih (length_le_of_mem_following head hdepth)]
    have hne : following head routes ≠ [] ↔ ∃ route, route ∈ following head routes :=
      ⟨List.exists_mem_of_ne_nil _, fun ⟨_, hroute⟩ => List.ne_nil_of_mem hroute⟩
    by_cases hrest : rest = []
    · simp [hrest, hne]
    · simp only [hrest, false_or, ne_eq, not_false_eq_true, true_and, reduceCtorEq,
        and_iff_right_iff_imp]
      rintro ⟨route, hroute, -⟩
      exact List.ne_nil_of_mem hroute

theorem nodup_starts (depth : Nat) (routes : List (Pending α)) : (starts depth routes).Nodup := by
  induction depth generalizing routes with
  | zero => exact List.nodup_nil
  | succ depth ih =>
    rw [starts, List.nodup_flatMap]
    constructor
    · intro head _
      rcases head with _ | head
      · exact List.nodup_nil
      · refine List.nodup_cons.mpr ⟨?_, (ih _).map (List.cons_injective)⟩
        simp [nil_notMem_starts]
    · -- starts of two groups differ in their heads
      refine (nodup_headOrder _).imp fun {first second} hne => ?_
      rcases first with _ | first
      · exact fun _ hmem => nomatch hmem
      rcases second with _ | second
      · exact fun _ _ hmem => nomatch hmem
      intro start hfirst hsecond
      have hhead : ∀ {head : Segment} {inner : List Template},
          start ∈ [head] :: inner.map (head :: ·) → start.head? = some head := by
        intro head inner hmem
        rcases List.mem_cons.mp hmem with rfl | hmem
        · rfl
        · obtain ⟨_, -, rfl⟩ := List.mem_map.mp hmem
          rfl
      exact hne ((hhead hfirst).symm.trans (hhead hsecond))

end Pending

/-! ## The tree -/

/-- What the tree of routes looks like. A leaf is given by its chain: a route of `n` segments has a
leaf below `n` inner nodes, whose steps are those of its segments. -/
structure Tree.Represents (tree : Tree α) (routes : List (Route α)) : Prop where
  levels : ∀ level ∈ tree.levels, Branch.Canonical level
  leafBelow : ∀ level ∈ tree.levels, ∀ node ∈ level, node.isLeaf = false →
    ∃ deeper ∈ node.levels, ∃ other ∈ deeper, other.isLeaf = true
  top : ∀ node ∈ tree.branches, node.isLeaf = false
  leaves : tree.chains.Perm (routes.map fun route =>
    ⟨route.template.map Segment.step, route.method, route.endpoint⟩)
  inner : ∃ starts : List Template, starts.Nodup ∧
    (∀ start, start ∈ starts ↔ start ≠ [] ∧ ∃ route ∈ routes, start <+: route.template) ∧
    tree.trails = starts.map (List.map Segment.step)

theorem Tree.represents_grouped (missing : α) {routes : List (Route α)}
    (h : ∀ route ∈ routes, route.Valid) : (Tree.grouped missing routes).Represents routes := by
  have hcanonical := Tree.canonical_grouped missing h
  refine ⟨hcanonical.levels, fun level hlevel node hnode => ?_, hcanonical.top, ?_, ?_⟩
  · exact Branch.CanonicalBelow.exists_isLeaf hcanonical.levels hlevel hnode
  · rw [Tree.chains_grouped]
    exact (Route.arranged_perm routes).map Route.chain
  · let pending := routes.map Route.pending
    refine ⟨Pending.starts (Pending.maxDepth pending) pending, Pending.nodup_starts _ _,
      fun start => ?_, Pending.trailsAll_level _ _⟩
    rw [Pending.mem_starts fun _ => Pending.length_le_maxDepth]
    simp [pending, Route.pending]

/-- **What grouping hands to a backend** is one tree, whose leaves are the routes and whose inner
nodes are the starts of their templates, each of them once. -/
theorem Tree.represents_routes (missing : α) (routes : List (Route α))
    (valid : ∀ route ∈ routes, validatePath route.path = .ok ()) :
    ∃ tree, Tree.ofRoutes missing routes = .ok tree ∧
      (∀ {β γ : Type} (backend : Backend α β γ),
        backend.ofRoutes missing routes = .ok (backend.tree tree)) ∧
      (∀ route ∈ routes, Template.parse route.path = .ok route.template) ∧
      tree.Represents routes := by
  have htree := Tree.ofRoutes_eq_ok missing valid
  refine ⟨_, htree, fun backend => ?_, fun route hroute => ?_,
    Tree.represents_grouped missing valid⟩
  · rw [Backend.ofRoutes_eq_map, htree]
    rfl
  · exact Route.Valid.parse (valid route hroute)

theorem usersTable_represents_routes :
    (∀ route ∈ usersTable, validatePath route.path = .ok ()) ∧
      ∃ tree, Tree.ofRoutes "Missing" usersTable = .ok tree ∧
        (∀ {β γ : Type} (backend : Backend String β γ),
          backend.ofRoutes "Missing" usersTable = .ok (backend.tree tree)) ∧
        (∀ route ∈ usersTable, Template.parse route.path = .ok route.template) ∧
        tree.Represents usersTable :=
  ⟨by decide, Tree.represents_routes "Missing" usersTable (by decide)⟩

example : (Tree.ofRoutes "Missing" [⟨.get, "/", "Root"⟩, ⟨.get, "/{a}", "A"⟩,
      ⟨.get, "/a/", "Slash"⟩]).map Tree.trails =
    .ok [[.literal "/"], [.literal "/a"], [.literal "/a", .literal "/"], [.capture "a"]] := by
  decide

end HttpRoutes
