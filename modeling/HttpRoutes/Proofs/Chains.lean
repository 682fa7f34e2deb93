import HttpRoutes.Listing
import HttpRoutes.Resolution
import Mathlib.Data.List.Basic

/-!
# The chains of a route tree

A chain is what stands between the top of a tree and one of its leaves. The listing shows the
chains one after the other, and a request is answered by the first of them that accepts it.

* `Step`, `Chain` : a step takes a fixed text off the path or captures one segment;
* `Branch.chains`, `Tree.chains` : the chains of a tree, in the order of the leaves;
* `Chain.route` : how the listing shows a chain (`Tree.routes_eq_map_chains`);
* `Spells steps values path` : with the captured texts `values` the steps make up `path`;
* `captures?` : those texts computed, so that there is at most one choice (`Spells.unique`);
* `Branch.firstHit?_eq_findSome?_chainsAll` : backtracking tries the chains in order;
* `addBinding` : the captures are bound from the top down, and a bound name keeps its value
  (`firstBindings_eq_foldl`).
-/

namespace HttpRoutes

variable {α : Type}

/-! ## Steps and chains -/

/-- One step from the top of a tree towards a leaf: a text that is next in the path, or a slash and
a text without slashes that is bound to a name. -/
inductive Step where
  | literal (lead : String)
  | capture (name : String)
  deriving DecidableEq, Repr

/-- What the listing shows for a step. -/
def Step.render : Step → String
  | literal lead => lead
  | capture name => "/\x7b" ++ name ++ "\x7d"

def Step.name? : Step → Option String
  | literal _ => none
  | capture name => some name

/-- The steps to a leaf, and the leaf. -/
structure Chain (α : Type) where
  steps : List Step
  method : Method
  endpoint : α
  deriving DecidableEq, Repr

namespace Chain

def under (step : Step) (chain : Chain α) : Chain α :=
  { chain with steps := step :: chain.steps }

/-- How the listing shows a chain. -/
def route (chain : Chain α) : Route α :=
  ⟨chain.method, String.join (chain.steps.map Step.render), chain.endpoint⟩

/-- The names that a chain binds, from the top down. -/
def names (chain : Chain α) : List String :=
  chain.steps.filterMap Step.name?

theorem route_under (step : Step) (chain : Chain α) :
    (chain.under step).route = chain.route.under step.render := by
  simp [route, under, Route.under, String.join_cons]

theorem map_route_under (step : Step) (chains : List (Chain α)) :
    (chains.map (under step)).map route = (chains.map route).map (Route.under step.render) := by
  rw [List.map_map, List.map_map]
  exact List.map_congr_left fun chain _ => route_under step chain

end Chain

namespace Branch

mutual

/-- The chains of a branch, in the order of its leaves. -/
def chains : Branch α → List (Chain α)
  | path lead below => (chainsAll below).map (Chain.under (.literal lead))
  | param name below => (chainsAll below).map (Chain.under (.capture name))
  | leaf method endpoint => [⟨[], method, endpoint⟩]

def chainsAll : List (Branch α) → List (Chain α)
  | [] => []
  | branch :: branches => chains branch ++ chainsAll branches

end

theorem chainsAll_eq_flatMap (branches : List (Branch α)) :
    chainsAll branches = branches.flatMap chains := by
  induction branches with
  | nil => rfl
  | cons branch branches ih => rw [chainsAll, ih, List.flatMap_cons]

theorem chainsAll_flatMap {β : Type} (items : List β) (f : β → List (Branch α)) :
    chainsAll (items.flatMap f) = items.flatMap fun item => chainsAll (f item) := by
  simp only [chainsAll_eq_flatMap, List.flatMap_assoc]

mutual

theorem routes_eq_map_chains : ∀ branch : Branch α, branch.routes = branch.chains.map Chain.route
  | path lead below => by
    rw [routes, chains, routesAll_eq_map_chainsAll below, Chain.map_route_under]
    rfl
  | param name below => by
    rw [routes, chains, routesAll_eq_map_chainsAll below, Chain.map_route_under]
    rfl
  | leaf method endpoint => rfl

theorem routesAll_eq_map_chainsAll :
    ∀ branches : List (Branch α), routesAll branches = (chainsAll branches).map Chain.route
  | [] => rfl
  | branch :: branches => by
    rw [routesAll, chainsAll, List.map_append, routes_eq_map_chains branch,
      routesAll_eq_map_chainsAll branches]

end

end Branch

def Tree.chains (tree : Tree α) : List (Chain α) :=
  Branch.chainsAll tree.branches

theorem Tree.routes_eq_map_chains (tree : Tree α) : tree.routes = tree.chains.map Chain.route :=
  Branch.routesAll_eq_map_chainsAll tree.branches

/-! ## What a chain accepts -/

/-- With the texts `values` for their captures the steps make up exactly `path`. A captured text has
no slash in it, and the path ends behind it or goes on with a slash. -/
inductive Spells : List Step → List String → List Char → Prop where
  | done : Spells [] [] []
  | literal {steps : List Step} {values : List String} {rest : List Char} (lead : String)
      (below : Spells steps values rest) :
      Spells (.literal lead :: steps) values (lead.toList ++ rest)
  | capture {steps : List Step} {values : List String} {rest : List Char} (name value : String)
      (slashless : '/' ∉ value.toList) (ends : rest = [] ∨ ∃ tail, rest = '/' :: tail)
      (below : Spells steps values rest) :
      Spells (.capture name :: steps) (value :: values) ('/' :: (value.toList ++ rest))

/-- The texts that the steps capture when they make up `path`. -/
def captures? : List Step → List Char → Option (List String)
  | [], path => if path.isEmpty then some [] else none
  | .literal lead :: steps, path => (lead.toList.isPrefixOf? path).bind (captures? steps)
  | .capture _ :: steps, path =>
    match path with
    | '/' :: tail =>
      (captures? steps (tail.dropWhile (· != '/'))).map
        (String.ofList (tail.takeWhile (· != '/')) :: ·)
    | _ => none

theorem isPrefixOf?_append {β : Type} [BEq β] (first second items : List β) :
    (first ++ second).isPrefixOf? items =
      (first.isPrefixOf? items).bind second.isPrefixOf? := by
  induction first generalizing items with
  | nil => rfl
  | cons item first ih =>
    cases items with
    | nil => rfl
    | cons other items =>
      rw [List.cons_append, List.isPrefixOf?, List.isPrefixOf?, ih]
      split <;> rfl

theorem slash_notMem_takeWhile (tail : List Char) : '/' ∉ tail.takeWhile (· != '/') := by
  intro h
  have := List.all_eq_true.mp (List.all_takeWhile (p := (· != '/')) (l := tail)) '/' h
  simp at this

theorem dropWhile_slash_cases (tail : List Char) :
    tail.dropWhile (· != '/') = [] ∨ ∃ after, tail.dropWhile (· != '/') = '/' :: after := by
  have hhead := List.head?_dropWhile_not (· != '/') tail
  cases hdrop : tail.dropWhile (· != '/') with
  | nil => exact Or.inl rfl
  | cons c after =>
    rw [hdrop] at hhead
    have hc : c = '/' := by simpa using hhead
    exact Or.inr ⟨after, by rw [hc]⟩

theorem takeWhile_dropWhile_of_slashless {value rest : List Char} (hvalue : '/' ∉ value)
    (hrest : rest = [] ∨ ∃ tail, rest = '/' :: tail) :
    (value ++ rest).takeWhile (· != '/') = value ∧ (value ++ rest).dropWhile (· != '/') = rest := by
  have hall : ∀ c ∈ value, (c != '/') = true := by
    intro c hc
    simp only [bne_iff_ne, ne_eq]
    rintro rfl
    exact hvalue hc
  rw [List.takeWhile_append_of_pos hall, List.dropWhile_append_of_pos hall]
  rcases hrest with rfl | ⟨tail, rfl⟩ <;> simp

theorem Spells.of_captures? {steps : List Step} {values : List String} {path : List Char}
    (h : captures? steps path = some values) : Spells steps values path := by
  induction steps generalizing values path with
  | nil =>
    simp only [captures?, Option.ite_none_right_eq_some, List.isEmpty_iff, Option.some.injEq] at h
    obtain ⟨rfl, rfl⟩ := h
    exact .done
  | cons step steps ih =>
    cases step with
    | literal lead =>
      rw [captures?, Option.bind_eq_some_iff] at h
      obtain ⟨rest, hrest, h⟩ := h
      rw [← List.isPrefixOf?_eq_some_iff_append_eq.mp hrest]
      exact .literal lead (ih h)
    | capture name =>
      rw [captures?.eq_def] at h
      dsimp only at h
      split at h
      · next tail =>
        obtain ⟨inner, hinner, rfl⟩ := Option.map_eq_some_iff.mp h
        have hcut : tail = (String.ofList (tail.takeWhile (· != '/'))).toList ++
            tail.dropWhile (· != '/') := by
          rw [String.toList_ofList, List.takeWhile_append_dropWhile]
        conv => arg 3; rw [hcut]
        refine .capture name _ ?_ (dropWhile_slash_cases tail) (ih hinner)
        rw [String.toList_ofList]
        exact slash_notMem_takeWhile tail
      · cases h

theorem Spells.captures?_eq {steps : List Step} {values : List String} {path : List Char}
    (h : Spells steps values path) : captures? steps path = some values := by
  induction h with
  | done => rfl
  | literal lead below ih =>
    rw [captures?, List.isPrefixOf?_eq_some_iff_append_eq.mpr rfl, Option.bind_some, ih]
  | capture name value slashless ends below ih =>
    obtain ⟨htake, hdrop⟩ := takeWhile_dropWhile_of_slashless slashless ends
    rw [captures?, htake, hdrop, ih, Option.map_some, String.ofList_toList]

theorem captures?_eq_some_iff {steps : List Step} {values : List String} {path : List Char} :
    captures? steps path = some values ↔ Spells steps values path :=
  ⟨Spells.of_captures?, Spells.captures?_eq⟩

/-- A path leaves no choice of the captured texts. -/
theorem Spells.unique {steps : List Step} {values others : List String} {path : List Char}
    (h : Spells steps values path) (h' : Spells steps others path) : values = others :=
  Option.some.inj (h.captures?_eq.symm.trans h'.captures?_eq)

/-- The method of a chain is the requested one and its steps make up the path. -/
def Chain.Accepts (method path : String) (chain : Chain α) : Prop :=
  chain.method.name = method ∧ ∃ values, Spells chain.steps values path.toList

/-- The hit of a chain that accepts a request. -/
def Chain.hit? (method : String) (chain : Chain α) (path : List Char) : Option (Hit α) :=
  if chain.method.name = method then
    (captures? chain.steps path).map fun values => ⟨chain.endpoint, chain.names.zip values⟩
  else none

namespace Chain

theorem hit?_eq_some_iff {method : String} {chain : Chain α} {path : List Char} {hit : Hit α} :
    chain.hit? method path = some hit ↔
      chain.method.name = method ∧ ∃ values, Spells chain.steps values path ∧
        hit = ⟨chain.endpoint, chain.names.zip values⟩ := by
  simp only [hit?, Option.ite_none_right_eq_some, Option.map_eq_some_iff, captures?_eq_some_iff,
    eq_comm (a := hit)]

theorem hit?_eq_none_iff {method path : String} {chain : Chain α} :
    chain.hit? method path.toList = none ↔ ¬ chain.Accepts method path := by
  rw [Option.eq_none_iff_forall_not_mem]
  constructor
  · rintro h ⟨hmethod, values, hspells⟩
    exact h _ (hit?_eq_some_iff.mpr ⟨hmethod, values, hspells, rfl⟩)
  · intro h hit hhit
    obtain ⟨hmethod, values, hspells, -⟩ := hit?_eq_some_iff.mp hhit
    exact h ⟨hmethod, values, hspells⟩

theorem hit?_under_literal (method lead : String) (chain : Chain α) (path : List Char) :
    (chain.under (.literal lead)).hit? method path =
      (lead.toList.isPrefixOf? path).bind (chain.hit? method) := by
  unfold hit? under
  dsimp only
  rw [captures?]
  cases lead.toList.isPrefixOf? path with
  | none => simp
  | some rest => rfl

theorem hit?_under_capture (method name : String) (chain : Chain α) (tail : List Char) :
    (chain.under (.capture name)).hit? method ('/' :: tail) =
      (chain.hit? method (tail.dropWhile (· != '/'))).map
        (Hit.capture name (String.ofList (tail.takeWhile (· != '/')))) := by
  unfold hit? under
  dsimp only
  split
  · rw [captures?, Option.map_map, Option.map_map]
    rfl
  · rfl

theorem hit?_under_capture_of_slashless (method name : String) (chain : Chain α) {path : List Char}
    (h : ∀ tail, path ≠ '/' :: tail) : (chain.under (.capture name)).hit? method path = none := by
  have hstuck : captures? (.capture name :: chain.steps) path = none := by
    rw [captures?.eq_def]
    dsimp only
    split
    · next tail => exact absurd rfl (h tail)
    · rfl
  simp [hit?, under, hstuck]

end Chain

namespace Branch

-- The two statements recurse into each other as trees and lists of branches do.
mutual

theorem hit?_eq_findSome?_chains (method : String) : ∀ (branch : Branch α) (remaining : List Char),
    hit? method branch remaining = branch.chains.findSome? (Chain.hit? method · remaining)
  | leaf target endpoint, remaining => by
    rw [hit?, chains, List.findSome?_singleton, Chain.hit?, captures?]
    by_cases hmethod : target.name = method <;> cases remaining <;> simp [hmethod, Chain.names]
  | path lead below, remaining => by
    rw [hit?, chains, List.findSome?_map]
    simp only [Function.comp_def, Chain.hit?_under_literal]
    cases lead.toList.isPrefixOf? remaining with
    | none => exact (List.findSome?_eq_none_iff.mpr fun _ _ => rfl).symm
    | some rest => exact firstHit?_eq_findSome?_chainsAll method below rest
  | param name below, remaining => by
    rw [chains, List.findSome?_map, hit?.eq_def]
    dsimp only
    split
    · next tail =>
      rw [firstHit?_eq_findSome?_chainsAll method below, List.map_findSome?]
      simp only [Function.comp_def, Chain.hit?_under_capture]
    · next h =>
      refine (List.findSome?_eq_none_iff.mpr fun chain _ => ?_).symm
      exact Chain.hit?_under_capture_of_slashless method name chain h

theorem firstHit?_eq_findSome?_chainsAll (method : String) :
    ∀ (branches : List (Branch α)) (remaining : List Char),
      firstHit? method branches remaining =
        (chainsAll branches).findSome? (Chain.hit? method · remaining)
  | [], _ => rfl
  | branch :: branches, remaining => by
    rw [firstHit?, chainsAll, List.findSome?_append,
      hit?_eq_findSome?_chains method branch remaining,
      firstHit?_eq_findSome?_chainsAll method branches remaining]
    cases branch.chains.findSome? (Chain.hit? method · remaining) <;> rfl

end

end Branch

/-! ## Bindings -/

/-- One more binding, unless its name is bound already. -/
def addBinding (bound : List (String × String)) (binding : String × String) :
    List (String × String) :=
  if binding.1 ∈ bound.map Prod.fst then bound else bound ++ [binding]

theorem foldl_addBinding (bindings bound : List (String × String)) :
    bindings.foldl addBinding bound =
      bound ++ (firstBindings bindings).filter (·.1 ∉ bound.map Prod.fst) := by
  induction bindings generalizing bound with
  | nil => simp [firstBindings]
  | cons binding rest ih =>
    rw [List.foldl_cons, ih, addBinding, firstBindings]
    split
    · next hbound =>
      rw [List.filter_cons_of_neg (by simpa using hbound), List.filter_filter]
      congr 1
      apply List.filter_congr
      intro other _
      by_cases hname : other.1 = binding.1 <;> simp_all
    · next hbound =>
      rw [List.filter_cons_of_pos (by simpa using hbound), List.filter_filter, List.append_assoc,
        List.singleton_append]
      congr 2
      apply List.filter_congr
      intro other _
      simp only [List.map_append, List.map_cons, List.map_nil, List.mem_append,
        List.mem_singleton, not_or, Bool.decide_and, decide_not]
      rfl

/-- Binding pair after pair keeps of every name the first pair. -/
theorem firstBindings_eq_foldl (bindings : List (String × String)) :
    firstBindings bindings = bindings.foldl addBinding [] := by
  simp [foldl_addBinding]

/-! ## The first chain that accepts -/

theorem Tree.resolve_eq (tree : Tree α) (method path : String) :
    tree.resolve method path =
      match tree.chains.findSome? (Chain.hit? method · path.toList) with
      | some hit => ⟨hit.endpoint, hit.captures.foldl addBinding []⟩
      | none => ⟨tree.missing, []⟩ := by
  rw [Tree.resolve, Branch.firstHit?_eq_findSome?_chainsAll, Tree.chains]
  cases (Branch.chainsAll tree.branches).findSome? (Chain.hit? method · path.toList) with
  | none => rfl
  | some hit => exact congrArg (Resolution.mk hit.endpoint) (firstBindings_eq_foldl hit.captures)

/-- **The listing shows the chains of a tree, and the first chain that accepts a request answers
it,** with the only texts that it can capture bound from the top down. -/
theorem Tree.first_accepting_chain_answers (tree : Tree α) :
    tree.routes = tree.chains.map Chain.route ∧
      ∀ method path,
        (∃ before chain after values,
            tree.chains = before ++ chain :: after ∧
            (∀ earlier ∈ before, ¬ earlier.Accepts method path) ∧
            chain.method.name = method ∧
            Spells chain.steps values path.toList ∧
            (∀ others, Spells chain.steps others path.toList → others = values) ∧
            tree.resolve method path =
              ⟨chain.endpoint, (chain.names.zip values).foldl addBinding []⟩) ∨
          (∀ chain ∈ tree.chains, ¬ chain.Accepts method path) ∧
            tree.resolve method path = ⟨tree.missing, []⟩ := by
  refine ⟨tree.routes_eq_map_chains, fun method path => ?_⟩
  rw [tree.resolve_eq method path]
  cases hfirst : tree.chains.findSome? (Chain.hit? method · path.toList) with
  | some hit =>
    obtain ⟨before, chain, after, hsplit, hhit, hbefore⟩ := List.findSome?_eq_some_iff.mp hfirst
    obtain ⟨hmethod, values, hspells, rfl⟩ := Chain.hit?_eq_some_iff.mp hhit
    refine Or.inl ⟨before, chain, after, values, hsplit, ?_, hmethod, hspells, ?_, rfl⟩
    · exact fun earlier hearlier => Chain.hit?_eq_none_iff.mp (hbefore earlier hearlier)
    · exact fun others hothers => hothers.unique hspells
  | none =>
    refine Or.inr ⟨fun chain hchain => ?_, rfl⟩
    exact Chain.hit?_eq_none_iff.mp (List.findSome?_eq_none_iff.mp hfirst chain hchain)

end HttpRoutes
