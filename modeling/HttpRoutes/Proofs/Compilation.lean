import HttpRoutes.Backend
import HttpRoutes.Proofs.GroupedTree

/-!
# Compiling routes

Whatever the backend is, compiling routes is compiling the tree of the routes, and it fails at the
first route whose path is no template.

* `failure?` : why a computation fails, if it does (`failure?_mapM`);
* `Backend.level_eq_map`, `Backend.ofRoutes_eq_map` : routes are compiled as their tree is;
* `Backend.tree_listing` : the listing of a tree is what a backend makes of it;
* `Backend.failure?_ofRoutes` : why routes are not compiled.
-/

namespace HttpRoutes

variable {α β γ : Type}

/-! ## Failures -/

section Failure

variable {ε : Type}

/-- Why a computation fails, if it does. -/
def failure? : Except ε γ → Option ε
  | .ok _ => none
  | .error cause => some cause

theorem failure?_eq_some_iff {result : Except ε γ} {cause : ε} :
    failure? result = some cause ↔ result = .error cause := by
  cases result <;> simp [failure?]

theorem failure?_eq_none_iff {result : Except ε γ} :
    failure? result = none ↔ ∃ value, result = .ok value := by
  cases result <;> simp [failure?]

theorem failure?_map (f : β → γ) (result : Except ε β) :
    failure? (result.map f) = failure? result := by
  cases result <;> rfl

/-- **A run over items fails as the first item does that fails.** -/
theorem failure?_mapM (f : β → Except ε γ) (items : List β) :
    failure? (items.mapM f) = items.findSome? fun item => failure? (f item) := by
  induction items with
  | nil => rfl
  | cons first rest ih =>
    rw [List.mapM_cons, List.findSome?_cons, ← ih]
    cases f first with
    | error cause => rfl
    | ok value => cases rest.mapM f <;> rfl

end Failure

namespace Backend

variable (backend : Backend α β γ)

/-! ## Trees -/

theorem branches_eq_map (nodes : List (Branch α)) :
    backend.branches nodes = nodes.map backend.branch := by
  induction nodes with
  | nil => rfl
  | cons node nodes ih => rw [branches, ih, List.map_cons]

theorem map_leaves (routes : List (Pending α)) :
    (routes.map Pending.leaf).map backend.branch = routes.map backend.leafOf := by
  rw [List.map_map]
  rfl

theorem branch_segment (head : Segment) (below : List (Branch α)) :
    backend.branch (head.branch below) = backend.segment head (below.map backend.branch) := by
  rw [← branches_eq_map]
  cases head <;> rfl

/-- **Grouping routes into a backend makes of them what the backend makes of their branches.** -/
theorem level_eq_map (depth : Nat) (routes : List (Pending α)) :
    backend.level depth routes = (Pending.level depth routes).map backend.branch := by
  induction depth generalizing routes with
  | zero => exact (backend.map_leaves routes).symm
  | succ depth ih =>
    rw [level, Pending.level, List.map_flatMap]
    refine List.flatMap_congr fun group _ => ?_
    obtain ⟨head, routes⟩ := group
    cases head with
    | none => exact (backend.map_leaves routes).symm
    | some head =>
      dsimp only
      rw [ih, List.map_singleton, branch_segment]

theorem ofRoutes_eq_map (missing : α) (routes : List (Route α)) :
    backend.ofRoutes missing routes = (Tree.ofRoutes missing routes).map backend.tree := by
  rw [ofRoutes, Tree.ofRoutes]
  cases routes.mapM Pending.ofRoute with
  | error cause => rfl
  | ok pending =>
    simp only [Except.map, level_eq_map, tree, branches_eq_map, Pending.branches]

mutual

theorem branch_listing : ∀ node : Branch α, listing.branch node = node.routes
  | .path lead below => congrArg (List.map (Route.under lead)) (flatten_branches_listing below)
  | .param name below =>
    congrArg (List.map (Route.under (Segment.param name).render)) (flatten_branches_listing below)
  | .leaf _ _ => rfl

theorem flatten_branches_listing : ∀ nodes : List (Branch α),
    (listing.branches nodes).flatten = Branch.routesAll nodes
  | [] => rfl
  | node :: nodes => by
    rw [branches, List.flatten_cons, branch_listing node, flatten_branches_listing nodes]
    rfl

end

/-- The listing is what one of the backends makes of a tree. -/
theorem tree_listing (tree : Tree α) : listing.tree tree = (tree.missing, tree.routes) :=
  congrArg (Prod.mk tree.missing) (flatten_branches_listing tree.branches)

/-! ## Routes that are not compiled -/

/-- **Routes are not compiled because of the first path that is no template.** -/
theorem failure?_ofRoutes (missing : α) (routes : List (Route α)) :
    failure? (backend.ofRoutes missing routes) =
      routes.findSome? fun route => failure? (validatePath route.path) := by
  rw [ofRoutes, failure?_map, failure?_mapM]
  refine congrArg (routes.findSome? ·) (funext fun route => ?_)
  rw [Pending.ofRoute, validatePath, failure?_map, failure?_map]

end Backend

end HttpRoutes
