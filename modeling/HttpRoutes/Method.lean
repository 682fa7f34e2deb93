import HttpRoutes.RouteError

/-!
# Request methods

* `Method` : the nine methods that a route can be bound to;
* `Method.all` : each of them once, in their fixed order;
* `Method.name` : the name on a request line;
* `Method.parse` : the method of a name, case counting (`Method.parse_eq_ok_iff`).
-/

namespace HttpRoutes

inductive Method where
  | get
  | post
  | put
  | delete
  | options
  | patch
  | head
  | connect
  | trace
  deriving DecidableEq, Repr

namespace Method

/-- Every method, in their fixed order. -/
def all : List Method :=
  [get, post, put, delete, options, patch, head, connect, trace]

/-- The name of a method, as a request line has it. -/
def name : Method → String
  | get => "GET"
  | post => "POST"
  | put => "PUT"
  | delete => "DELETE"
  | options => "OPTIONS"
  | patch => "PATCH"
  | head => "HEAD"
  | connect => "CONNECT"
  | trace => "TRACE"

def ofName? (text : String) : Option Method :=
  all.find? (·.name == text)

def parse (text : String) : Except RouteError Method :=
  match ofName? text with
  | some method => .ok method
  | none => .error (.unknownMethod text)

theorem mem_all (method : Method) : method ∈ all := by
  cases method <;> decide

theorem parse_name (method : Method) : parse method.name = .ok method := by
  cases method <;> rfl

theorem name_eq_of_ofName? {text : String} {method : Method} (h : ofName? text = some method) :
    method.name = text := by
  simpa using List.find?_some h

theorem name_inj {first second : Method} (h : first.name = second.name) : first = second := by
  have hparse : (Except.ok first : Except RouteError Method) = .ok second := by
    rw [← parse_name first, h, parse_name]
  exact Except.ok.inj hparse

/-- The names of the methods are the texts that are accepted. -/
theorem parse_eq_ok_iff {text : String} {method : Method} :
    parse text = .ok method ↔ method.name = text := by
  constructor
  · intro h
    unfold parse at h
    split at h
    · next found eq => cases h; exact name_eq_of_ofName? eq
    · cases h
  · rintro rfl
    exact parse_name method

end Method

end HttpRoutes
