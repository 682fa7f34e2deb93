import HttpRoutes.Route
import HttpRoutes.Tree

/-!
# The listing of a tree

* `Branch.routes`, `Branch.routesAll` : the routes below branches, in the order of the leaves;
* `Tree.routes` : the routes of a tree.

The path of a route is everything that stands above its leaf, parameters between braces. It is
empty for a leaf at the top.
-/

namespace HttpRoutes

variable {α : Type}

namespace Branch

mutual

/-- The routes of a branch, with paths that start at the branch. -/
def routes : Branch α → List (Route α)
  | path lead below => (routesAll below).map (Route.under lead)
  | param name below => (routesAll below).map (Route.under (Segment.param name).render)
  | leaf method endpoint => [⟨method, "", endpoint⟩]

def routesAll : List (Branch α) → List (Route α)
  | [] => []
  | branch :: branches => routes branch ++ routesAll branches

end

theorem routesAll_eq_flatMap (branches : List (Branch α)) :
    routesAll branches = branches.flatMap routes := by
  induction branches with
  | nil => rfl
  | cons branch branches ih => rw [routesAll, ih, List.flatMap_cons]

theorem routesAll_append (first second : List (Branch α)) :
    routesAll (first ++ second) = routesAll first ++ routesAll second := by
  simp only [routesAll_eq_flatMap, List.flatMap_append]

end Branch

def Tree.routes (tree : Tree α) : List (Route α) :=
  Branch.routesAll tree.branches

end HttpRoutes
