import HttpRoutes.RequestLine
import HttpRoutes.Tree

/-!
# Resolving a request in a tree

Branches are tried in order, each of them as deep as it goes, and the first leaf that is reached
with its method and at the end of the path answers.

* `Hit` : the endpoint of a leaf and what was captured on the way to it;
* `Branch.hit?`, `Branch.firstHit?` : the first hit in one branch and in several;
* `firstBindings` : of several bindings of one name, the first;
* `Resolution` : the answer to a request;
* `Tree.resolve` : the first hit in a tree, or its missing endpoint.
-/

namespace HttpRoutes

variable {α : Type}

/-- A leaf that was reached, with the captured segments from the top down. -/
structure Hit (α : Type) where
  endpoint : α
  captures : List (String × String)
  deriving DecidableEq, Repr

/-- A hit one parameter further up. -/
def Hit.capture (name value : String) (hit : Hit α) : Hit α :=
  { hit with captures := (name, value) :: hit.captures }

namespace Branch

mutual

/-- The first leaf below a branch that answers `method` when `remaining` is left of the path. -/
def hit? (method : String) : Branch α → List Char → Option (Hit α)
  | leaf target endpoint, remaining =>
    if remaining.isEmpty && target.name == method then some ⟨endpoint, []⟩ else none
  | path lead below, remaining =>
    match lead.toList.isPrefixOf? remaining with
    | some rest => firstHit? method below rest
    | none => none
  | param name below, remaining =>
    match remaining with
    | '/' :: tail =>
      (firstHit? method below (tail.dropWhile (· != '/'))).map
        (Hit.capture name (String.ofList (tail.takeWhile (· != '/'))))
    | _ => none

def firstHit? (method : String) : List (Branch α) → List Char → Option (Hit α)
  | [], _ => none
  | branch :: branches, remaining =>
    match hit? method branch remaining with
    | some hit => some hit
    | none => firstHit? method branches remaining

end

theorem firstHit?_eq_findSome? (method : String) (branches : List (Branch α))
    (remaining : List Char) :
    firstHit? method branches remaining = branches.findSome? (hit? method · remaining) := by
  induction branches with
  | nil => rfl
  | cons branch branches ih =>
    rw [firstHit?, List.findSome?_cons]
    split <;> simp_all

theorem firstHit?_append (method : String) (first second : List (Branch α))
    (remaining : List Char) :
    firstHit? method (first ++ second) remaining =
      (firstHit? method first remaining).or (firstHit? method second remaining) := by
  simp only [firstHit?_eq_findSome?, List.findSome?_append]

end Branch

/-- Of the bindings of one name only the first stays, at its place. -/
def firstBindings : List (String × String) → List (String × String)
  | [] => []
  | (name, value) :: rest => (name, value) :: (firstBindings rest).filter (·.1 != name)

/-- The answer to a request: an endpoint and the parameters, the topmost one first. -/
structure Resolution (α : Type) where
  endpoint : α
  params : List (String × String)
  deriving DecidableEq, Repr

/-- The answer of a tree to a method text and a path text. -/
def Tree.resolve (tree : Tree α) (method path : String) : Resolution α :=
  match Branch.firstHit? method tree.branches path.toList with
  | some hit => ⟨hit.endpoint, firstBindings hit.captures⟩
  | none => ⟨tree.missing, []⟩

def Tree.answer (tree : Tree α) (line : RequestLine) : Resolution α :=
  tree.resolve line.method line.path

end HttpRoutes
