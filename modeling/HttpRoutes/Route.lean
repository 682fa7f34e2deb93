import HttpRoutes.Method
import HttpRoutes.Template

/-!
# Routes

* `Route` : a method, a full path and the endpoint they lead to;
* `Route.parse` : a route from texts, checked;
* `Route.display` : the line that shows a route.
-/

namespace HttpRoutes

/-- A method and a path, and the endpoint that answers them. -/
structure Route (α : Type) where
  method : Method
  path : String
  endpoint : α
  deriving DecidableEq, Repr

namespace Route

/-- A route from the texts of its method and path; a bad method is reported before a bad path. -/
def parse {α : Type} (method path : String) (endpoint : α) : Except RouteError (Route α) := do
  let method ← Method.parse method
  validatePath path
  return ⟨method, path, endpoint⟩

/-- A route with `lead` in front of its path. -/
def under {α : Type} (lead : String) (route : Route α) : Route α :=
  { route with path := lead ++ route.path }

/-- The method, the path and the endpoint; an empty path shows as a slash. -/
def display (route : Route String) : String :=
  route.method.name ++ " " ++ (if route.path = "" then "/" else route.path) ++ " -> " ++
    route.endpoint

end Route

end HttpRoutes
