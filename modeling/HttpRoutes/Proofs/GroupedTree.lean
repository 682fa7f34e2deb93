import HttpRoutes.Proofs.LevelGroups
import HttpRoutes.Proofs.Templates
import Mathlib.Order.Fin.Basic

/-!
# The tree of a list of routes

* `Tree.grouped missing routes` : the tree of routes whose paths are templates
  (`Tree.ofRoutes_eq_ok`);
* `Route.arranged` : the routes in the order in which grouping puts their templates;
* `Tree.chains_grouped`, `Tree.routes_grouped` : the chains of the tree are those of the arranged
  routes, and the listing shows these routes as they are;
* `Route.ListedBefore routes i j` : where route `i` of a list stands before route `j`
  (`Tree.routes_listed_in_template_order`);
* `Route.listingOrder routes` : the positions of routes in the order of the listing
  (`Route.map_get_listingOrder`, `Route.mem_before_of_precedes`).
-/

namespace HttpRoutes

variable {α : Type}

namespace Pending

/-- The chain that the unplaced segments of a route stand for. -/
def chain (route : Pending α) : Chain α :=
  ⟨route.segments.map Segment.step, route.method, route.endpoint⟩

theorem chainsAll_leaves {routes : List (Pending α)} (h : ∀ route ∈ routes, route.segments = []) :
    Branch.chainsAll (routes.map leaf) = routes.map chain := by
  rw [Branch.chainsAll_eq_flatMap, List.flatMap_map, List.map_eq_flatMap]
  refine List.flatMap_congr fun route hroute => ?_
  rw [chain, h route hroute]
  rfl

theorem chains_branch (segment : Segment) (below : List (Branch α)) :
    (segment.branch below).chains = (Branch.chainsAll below).map (Chain.under segment.step) := by
  cases segment <;> rfl

theorem under_chain_tail {head : Segment} {route : Pending α}
    (h : route.segments.head? = some head) : route.tail.chain.under head.step = route.chain := by
  obtain ⟨method, segments, endpoint⟩ := route
  cases segments with
  | nil => cases h
  | cons segment segments =>
    obtain rfl : segment = head := by simpa using h
    rfl

/-- **The chains of grouped routes are the chains of the routes, put into the order of their
templates.** -/
theorem chainsAll_level {depth : Nat} {routes : List (Pending α)}
    (hdepth : ∀ route ∈ routes, route.segments.length ≤ depth) :
    Branch.chainsAll (level depth routes) = (arrange segments depth routes).map chain := by
  induction depth generalizing routes with
  | zero =>
    refine chainsAll_leaves fun route hroute => ?_
    exact List.length_eq_zero_iff.mp (Nat.le_zero.mp (hdepth route hroute))
  | succ depth ih =>
    rw [level_succ, Branch.chainsAll_flatMap, heads, arrange, List.map_flatMap]
    refine List.flatMap_congr fun head _ => ?_
    cases head with
    | none =>
      rw [group, ← following_none, arrange_of_key_nil, chainsAll_leaves]
      · exact fun route hroute => segments_eq_nil_of_mem_following hroute
      · intro route hroute
        rw [segments_eq_nil_of_mem_following hroute, List.tail_nil]
    | some head =>
      rw [group, Branch.chainsAll, Branch.chainsAll, List.append_nil, chains_branch,
        ih (length_le_of_mem_following head hdepth), following, arrange_map, List.map_map,
        List.map_map]
      refine List.map_congr_left fun route hroute => ?_
      exact under_chain_tail (of_decide_eq_true (List.mem_filter.mp (mem_arrange.mp hroute)).2)

end Pending

/-! ## Routes with templates -/

namespace Route

def pending (route : Route α) : Pending α :=
  ⟨route.method, route.template, route.endpoint⟩

/-- Routes in the order in which grouping puts their templates. -/
def arranged (routes : List (Route α)) : List (Route α) :=
  arrange template (Pending.maxDepth (routes.map pending)) routes

theorem arranged_perm (routes : List (Route α)) : (arranged routes).Perm routes :=
  arrange_perm _ _ routes

theorem length_template_le {routes : List (Route α)} {route : Route α} (h : route ∈ routes) :
    route.template.length ≤ Pending.maxDepth (routes.map pending) :=
  Pending.length_le_maxDepth (List.mem_map_of_mem (f := pending) h)

theorem Valid.ofRoute {route : Route α} (h : route.Valid) :
    Pending.ofRoute route = .ok route.pending := by
  rw [Pending.ofRoute, h.parse]
  rfl

theorem Valid.route_chain {route : Route α} (h : route.Valid) : route.chain.route = route := by
  have hrender : Step.render ∘ Segment.step = Segment.render := by
    funext segment
    cases segment <;> rfl
  have hpath : String.join (route.chain.steps.map Step.render) = route.path := by
    rw [chain, List.map_map, hrender]
    exact h.render
  rw [Chain.route, hpath]
  rfl

end Route

/-- The tree of routes, their paths being templates. -/
def Tree.grouped (missing : α) (routes : List (Route α)) : Tree α :=
  ⟨missing, Pending.branches (routes.map Route.pending)⟩

theorem Tree.ofRoutes_eq_ok (missing : α) {routes : List (Route α)}
    (h : ∀ route ∈ routes, route.Valid) :
    Tree.ofRoutes missing routes = .ok (Tree.grouped missing routes) := by
  have hmap : routes.mapM Pending.ofRoute = .ok (routes.map Route.pending) := by
    rw [mapM_eq_ok_iff, List.forall₂_map_right_iff, List.forall₂_same]
    exact fun route hroute => (h route hroute).ofRoute
  rw [Tree.ofRoutes, hmap]
  rfl

theorem Tree.chains_grouped (missing : α) (routes : List (Route α)) :
    (Tree.grouped missing routes).chains = (Route.arranged routes).map Route.chain := by
  rw [Tree.chains, Tree.grouped, Pending.branches, Pending.chainsAll_level
    fun _ => Pending.length_le_maxDepth, arrange_map, List.map_map]
  rfl

/-- **The listing of a grouped tree shows the routes as they are, in the order of their
templates.** -/
theorem Tree.routes_grouped (missing : α) {routes : List (Route α)}
    (h : ∀ route ∈ routes, route.Valid) :
    (Tree.grouped missing routes).routes = Route.arranged routes := by
  rw [Tree.routes_eq_map_chains, Tree.chains_grouped, List.map_map]
  refine (List.map_congr_left fun route hroute => ?_).trans (List.map_id _)
  exact (h route (mem_arrange.mp hroute)).route_chain

/-! ## The order of the listing -/

/-- Where route `i` of a list is listed before route `j`. Of two routes with the same path the first
one in the list is; else they agree on some segments and part at the next one, where the end of a
path is a head of its own. There a parameter is behind what is none, and of two heads of one kind
the one goes first that occurs first among the routes that share those segments. -/
def Route.ListedBefore (routes : List (Route α)) (i j : Fin routes.length) : Prop :=
  ((routes.get i).path = (routes.get j).path ∧ i < j) ∨
    ∃ k, SplitsAt (fun m => (routes.get m).template) (List.finRange routes.length) k i j

theorem Route.listedBefore_iff_precedes {routes : List (Route α)}
    (h : ∀ route ∈ routes, route.Valid) (i j : Fin routes.length) :
    Route.ListedBefore routes i j ↔
      Precedes (fun m => (routes.get m).template) (List.finRange routes.length) i j := by
  have hpath : (routes.get i).path = (routes.get j).path ↔
      (routes.get i).template = (routes.get j).template := by
    constructor
    · intro heq
      rw [template, template, heq]
    · intro heq
      rw [← (h _ (routes.get_mem i)).render, heq, (h _ (routes.get_mem j)).render]
  rw [ListedBefore, Precedes, hpath]

namespace Route

/-- The positions of routes in the order in which these are listed. -/
def listingOrder (routes : List (Route α)) : List (Fin routes.length) :=
  arrange (fun m => (routes.get m).template) (Pending.maxDepth (routes.map pending))
    (List.finRange routes.length)

theorem map_get_listingOrder (routes : List (Route α)) :
    (listingOrder routes).map routes.get = arranged routes := by
  rw [listingOrder, ← arrange_map, List.map_get_finRange, arranged]

theorem listingOrder_perm (routes : List (Route α)) :
    (listingOrder routes).Perm (List.finRange routes.length) :=
  arrange_perm _ _ _

theorem mem_listingOrder {routes : List (Route α)} (i : Fin routes.length) :
    i ∈ listingOrder routes :=
  (listingOrder_perm routes).mem_iff.mpr (List.mem_finRange i)

theorem pairwise_listingOrder (routes : List (Route α)) :
    (listingOrder routes).Pairwise
      (Precedes (fun m => (routes.get m).template) (List.finRange routes.length)) :=
  pairwise_arrange (List.pairwise_lt_finRange routes.length) fun m _ =>
    length_template_le (routes.get_mem m)

/-- What is listed before a position stands before it in the order. -/
theorem mem_before_of_precedes {routes : List (Route α)} {before after : List (Fin routes.length)}
    {i j : Fin routes.length} (hsplit : listingOrder routes = before ++ i :: after)
    (h : Precedes (fun m => (routes.get m).template) (List.finRange routes.length) j i) :
    j ∈ before := by
  have hpairs := pairwise_listingOrder routes
  have hj := mem_listingOrder j
  rw [hsplit] at hpairs hj
  obtain ⟨hafter, -⟩ := List.pairwise_cons.mp (List.pairwise_append.mp hpairs).2.1
  rcases List.mem_append.mp hj with hj | hj
  · exact hj
  rcases List.mem_cons.mp hj with rfl | hj
  · exact absurd h h.asymm
  · exact absurd h (hafter j hj).asymm

end Route

theorem pair_sublist_or {β : Type} {items : List β} {i j : β} (hi : i ∈ items) (hj : j ∈ items)
    (hne : i ≠ j) : [i, j].Sublist items ∨ [j, i].Sublist items := by
  obtain ⟨before, after, rfl⟩ := List.append_of_mem hi
  rcases List.mem_append.mp hj with hj | hj
  · right
    exact (List.singleton_sublist.mpr hj).append (List.singleton_sublist.mpr List.mem_cons_self)
  · left
    have hafter : j ∈ after := (List.mem_cons.mp hj).resolve_left hne.symm
    exact ((List.singleton_sublist.mpr hafter).cons_cons i).trans (List.sublist_append_right _ _)

/-- **The listing of a tree of routes is a permutation of the routes, and where each of them stands
is settled by their templates.** -/
theorem Tree.routes_listed_in_template_order (missing : α) (routes : List (Route α))
    (valid : ∀ route ∈ routes, validatePath route.path = .ok ()) :
    ∃ tree, Tree.ofRoutes missing routes = .ok tree ∧ tree.routes.Perm routes ∧
      ∃ order : List (Fin routes.length),
        order.Perm (List.finRange routes.length) ∧ tree.routes = order.map routes.get ∧
        ∀ i j, [i, j].Sublist order ↔ Route.ListedBefore routes i j := by
  have hlisted := Tree.routes_grouped missing valid
  refine ⟨Tree.grouped missing routes, Tree.ofRoutes_eq_ok missing valid, ?_, ?_⟩
  · rw [hlisted]
    exact Route.arranged_perm routes
  let key : Fin routes.length → Template := fun m => (routes.get m).template
  let depth := Pending.maxDepth (routes.map Route.pending)
  have hperm := arrange_perm key depth (List.finRange routes.length)
  have hpairs : (arrange key depth (List.finRange routes.length)).Pairwise
      (Precedes key (List.finRange routes.length)) :=
    pairwise_arrange (List.pairwise_lt_finRange _) fun m _ =>
      Route.length_template_le (routes.get_mem m)
  refine ⟨arrange key depth (List.finRange routes.length), hperm, ?_, fun i j => ?_⟩
  · rw [hlisted, Route.arranged, ← arrange_map, List.map_get_finRange]
  rw [Route.listedBefore_iff_precedes valid]
  constructor
  · exact fun hsub => List.pairwise_iff_forall_sublist.mp hpairs hsub
  · intro hbefore
    have hne : i ≠ j := by
      rintro rfl
      exact hbefore.asymm hbefore
    have hmem := fun m => hperm.mem_iff.mpr (List.mem_finRange m)
    rcases pair_sublist_or (hmem i) (hmem j) hne with hsub | hsub
    · exact hsub
    · exact absurd (List.pairwise_iff_forall_sublist.mp hpairs hsub) hbefore.asymm

/-- A table in which literals, parameters and ends of paths meet, one row being there twice. -/
def usersTable : List (Route String) :=
  [⟨.get, "/users/{id}", "ById"⟩, ⟨.get, "/users/{id}/posts", "Posts"⟩, ⟨.get, "/users/me", "Me"⟩,
    ⟨.post, "/users", "Create"⟩, ⟨.get, "/users/me", "Me"⟩]

theorem usersTable_listed_in_template_order :
    (∀ route ∈ usersTable, validatePath route.path = .ok ()) ∧
      ∃ tree, Tree.ofRoutes "Missing" usersTable = .ok tree ∧ tree.routes.Perm usersTable ∧
        ∃ order : List (Fin usersTable.length),
          order.Perm (List.finRange usersTable.length) ∧ tree.routes = order.map usersTable.get ∧
          ∀ i j, [i, j].Sublist order ↔ Route.ListedBefore usersTable i j :=
  ⟨by decide, Tree.routes_listed_in_template_order "Missing" usersTable (by decide)⟩

example : (Tree.ofRoutes "Missing" usersTable).map (fun tree => tree.routes.map Route.endpoint) =
    .ok ["Me", "Me", "Create", "ById", "Posts"] := by
  cbv

end HttpRoutes
