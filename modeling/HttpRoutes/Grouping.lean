import HttpRoutes.Route
import HttpRoutes.Tree

/-!
# Grouping routes into a tree

Routes that start with the same segment share a branch. Within a level the branches stand in the
order in which their heads first occur, those of parameters behind all others.

* `addToGroup` : an item more in groups that are kept in the order of their first items;
* `Pending` : a route with the segments that are not yet placed;
* `Pending.groups`, `Pending.orderedGroups` : the routes of a level by their first segments, in the
  order in which they come and in the order in which branches are made of them;
* `Pending.level`, `Pending.branches` : the branches of routes;
* `Tree.ofRoutes` : the tree of a list of routes.
-/

namespace HttpRoutes

variable {α : Type}

/-- Puts an item behind the others of its group. A key that has no group gets one, behind all
others. -/
def addToGroup {κ β : Type} [DecidableEq κ] (key : κ) (item : β) :
    List (κ × List β) → List (κ × List β)
  | [] => [(key, [item])]
  | (other, items) :: groups =>
    if other = key then (other, items ++ [item]) :: groups
    else (other, items) :: addToGroup key item groups

/-- A route of which `segments` are still to be placed. -/
structure Pending (α : Type) where
  method : Method
  segments : Template
  endpoint : α
  deriving DecidableEq, Repr

/-- The branch of a segment with the branches `inner` below it. -/
def Segment.branch (segment : Segment) (inner : List (Branch α)) : Branch α :=
  match segment with
  | literal text => .path (literal text).render inner
  | param name => .param name inner

namespace Pending

def ofRoute (route : Route α) : Except RouteError (Pending α) :=
  (Template.parse route.path).map fun segments => ⟨route.method, segments, route.endpoint⟩

def leaf (route : Pending α) : Branch α :=
  .leaf route.method route.endpoint

/-- The route without its first segment, if it has one. -/
def tail (route : Pending α) : Pending α :=
  { route with segments := route.segments.tail }

/-- Routes by their heads, each of them without its head. -/
def groups (routes : List (Pending α)) : List (Option Segment × List (Pending α)) :=
  routes.foldl (fun groups route => addToGroup route.segments.head? route.tail groups) []

/-- Whether a head is a parameter. Routes that end here have the head `none`, which is not. -/
def isParamHead (head : Option Segment) : Bool :=
  head.any Segment.isParam

/-- The groups of routes, those of parameters behind all others. -/
def orderedGroups (routes : List (Pending α)) : List (Option Segment × List (Pending α)) :=
  let (params, others) := (groups routes).partition fun group => isParamHead group.1
  others ++ params

/-- The branches of routes with at most `depth` segments to place. -/
def level : Nat → List (Pending α) → List (Branch α)
  | 0, routes => routes.map leaf
  | depth + 1, routes =>
    (orderedGroups routes).flatMap fun
      | (none, ending) => ending.map leaf
      | (some head, following) => [head.branch (level depth following)]

def maxDepth (routes : List (Pending α)) : Nat :=
  routes.foldr (fun route depth => max route.segments.length depth) 0

theorem length_le_maxDepth {routes : List (Pending α)} {route : Pending α} (h : route ∈ routes) :
    route.segments.length ≤ maxDepth routes := by
  induction routes with
  | nil => cases h
  | cons first rest ih =>
    simp only [maxDepth, List.foldr_cons]
    rcases List.mem_cons.mp h with rfl | h
    · exact Nat.le_max_left _ _
    · exact Nat.le_trans (ih h) (Nat.le_max_right _ _)

def branches (routes : List (Pending α)) : List (Branch α) :=
  level (maxDepth routes) routes

end Pending

/-- The tree of a list of routes. The first route whose path is no template decides the error. -/
def Tree.ofRoutes (missing : α) (routes : List (Route α)) : Except RouteError (Tree α) :=
  (routes.mapM Pending.ofRoute).map fun pending => ⟨missing, Pending.branches pending⟩

end HttpRoutes
