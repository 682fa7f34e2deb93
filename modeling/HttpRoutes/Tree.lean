import HttpRoutes.Method

/-!
# Route trees

* `Branch` : a path prefix or a parameter with branches below it, or a leaf;
* `Tree` : branches, and the endpoint that answers when none of them does.

The order of branches is the order in which they are tried.
-/

namespace HttpRoutes

inductive Branch (α : Type) where
  /-- The branches `below` apply to what follows the text `lead`. -/
  | path (lead : String) (below : List (Branch α))
  /-- The branches `below` apply to what follows one segment, which is bound to `name`. -/
  | param (name : String) (below : List (Branch α))
  /-- The endpoint of a method where the path ends. -/
  | leaf (method : Method) (endpoint : α)

structure Tree (α : Type) where
  /-- The endpoint of the requests that nothing matches. -/
  missing : α
  branches : List (Branch α)

end HttpRoutes
