import HttpRoutes.Grouping
import HttpRoutes.Listing

/-!
# Backends

A backend says what to make of each construct of a route tree. A tree is compiled from its leaves
upwards; routes are compiled while they are grouped, without a tree in between.

* `Backend` : what stands for the root, a path, a parameter and a leaf;
* `Backend.branch`, `Backend.tree` : a branch and a tree, compiled;
* `Backend.level`, `Backend.ofRoutes` : routes, grouped and compiled;
* `Backend.listing` : the backend of the listing.
-/

namespace HttpRoutes

variable {α β γ : Type}

/-- What a compiled branch is (`β`), what a compiled tree is (`γ`), and how they are made. -/
structure Backend (α β γ : Type) where
  root (missing : α) (branches : List β) : γ
  path (lead : String) (below : List β) : β
  param (name : String) (below : List β) : β
  leaf (method : Method) (endpoint : α) : β

namespace Backend

variable (backend : Backend α β γ)

mutual

def branch : Branch α → β
  | .path lead below => backend.path lead (branches below)
  | .param name below => backend.param name (branches below)
  | .leaf method endpoint => backend.leaf method endpoint

def branches : List (Branch α) → List β
  | [] => []
  | first :: rest => branch first :: branches rest

end

def tree (tree : Tree α) : γ :=
  backend.root tree.missing (backend.branches tree.branches)

/-! ## Routes -/

def segment (head : Segment) (below : List β) : β :=
  match head with
  | .literal text => backend.path (Segment.literal text).render below
  | .param name => backend.param name below

def leafOf (route : Pending α) : β :=
  backend.leaf route.method route.endpoint

/-- The compiled branches of routes with at most `depth` segments to place. -/
def level : Nat → List (Pending α) → List β
  | 0, routes => routes.map backend.leafOf
  | depth + 1, routes =>
    (Pending.orderedGroups routes).flatMap fun
      | (none, ending) => ending.map backend.leafOf
      | (some head, following) => [backend.segment head (level depth following)]

/-- Routes, compiled under `missing`. The first route whose path is no template decides the
error. -/
def ofRoutes (missing : α) (routes : List (Route α)) : Except RouteError γ :=
  (routes.mapM Pending.ofRoute).map fun pending =>
    backend.root missing (backend.level (Pending.maxDepth pending) pending)

/-- The backend that lists the routes of a tree behind its missing endpoint. -/
def listing : Backend α (List (Route α)) (α × List (Route α)) where
  root missing branches := (missing, branches.flatten)
  path lead below := below.flatten.map (Route.under lead)
  param name below := below.flatten.map (Route.under (Segment.param name).render)
  leaf method endpoint := [⟨method, "", endpoint⟩]

end Backend

end HttpRoutes
