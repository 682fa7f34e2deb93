import HttpRoutes.Proofs.GroupedTree

/-!
# Resolving a request in a grouped tree

The tree of a list of routes answers a request as a scan of its listing does: with the first row
that serves it.

* `exists_first_or_none` : of the members of a list with a property there is a first one, or there
  are none;
* `Tree.resolve_grouped_of_first`, `Tree.resolve_grouped_of_none` : the answer in either case;
* `Tree.first_fitting_row_answers` : the answer as a scan of the listing.
-/

namespace HttpRoutes

variable {α : Type}

theorem exists_first_or_none {β : Type} (p : β → Prop) (items : List β) :
    (∃ before item after, items = before ++ item :: after ∧ (∀ earlier ∈ before, ¬ p earlier) ∧
      p item) ∨ ∀ item ∈ items, ¬ p item := by
  induction items with
  | nil => exact Or.inr (by simp)
  | cons first rest ih =>
    by_cases hfirst : p first
    · exact Or.inl ⟨[], first, rest, rfl, by simp, hfirst⟩
    · rcases ih with ⟨before, item, after, rfl, hbefore, hitem⟩ | hnone
      · refine Or.inl ⟨first :: before, item, after, rfl, ?_, hitem⟩
        exact List.forall_mem_cons.mpr ⟨hfirst, hbefore⟩
      · exact Or.inr (List.forall_mem_cons.mpr ⟨hfirst, hnone⟩)

theorem Route.hit?_chain_eq_none_iff {route : Route α} (h : route.Valid) {method path : String} :
    route.chain.hit? method path.toList = none ↔ ¬ route.Serves method path := by
  rw [Option.eq_none_iff_forall_not_mem]
  constructor
  · rintro hnone ⟨hmethod, pieces, hpieces, hfits⟩
    exact hnone _ ((Route.hit?_chain_eq_some_iff h).mpr ⟨hmethod, pieces, hpieces, hfits, rfl⟩)
  · intro hserves hit hhit
    obtain ⟨hmethod, pieces, hpieces, hfits, -⟩ := (Route.hit?_chain_eq_some_iff h).mp hhit
    exact hserves ⟨hmethod, pieces, hpieces, hfits⟩

namespace Tree

variable {missing : α} {routes : List (Route α)} {method path : String}

theorem resolve_grouped (missing : α) (routes : List (Route α)) (method path : String) :
    (grouped missing routes).resolve method path =
      match (Route.arranged routes).findSome? (fun row => row.chain.hit? method path.toList) with
      | some hit => ⟨hit.endpoint, hit.captures.foldl addBinding []⟩
      | none => ⟨missing, []⟩ := by
  rw [resolve_eq, chains_grouped, List.findSome?_map]
  rfl

theorem resolve_grouped_of_first (valid : ∀ route ∈ routes, route.Valid)
    {before after : List (Route α)} {row : Route α} {pieces : List (List Char)}
    (hsplit : Route.arranged routes = before ++ row :: after)
    (hbefore : ∀ earlier ∈ before, ¬ earlier.Serves method path)
    (hmethod : row.method.name = method) (hpieces : pieces? path = some pieces)
    (hfits : List.Forall₂ Segment.Fits row.template pieces) :
    (grouped missing routes).resolve method path =
      ⟨row.endpoint, (row.template.captured pieces).foldl addBinding []⟩ := by
  have hvalid : ∀ other ∈ before ++ row :: after, other.Valid := fun other hother =>
    valid other (mem_arrange.mp (hsplit ▸ hother))
  have hnone : before.findSome? (fun row => row.chain.hit? method path.toList) = none :=
    List.findSome?_eq_none_iff.mpr fun earlier hearlier =>
      (Route.hit?_chain_eq_none_iff (hvalid earlier (List.mem_append_left _ hearlier))).mpr
        (hbefore earlier hearlier)
  have hsome := (Route.hit?_chain_eq_some_iff (hvalid row (by simp))).mpr
    ⟨hmethod, pieces, hpieces, hfits, rfl⟩
  rw [resolve_grouped, hsplit, List.findSome?_append, hnone, Option.none_or,
    List.findSome?_cons_of_isSome (by rw [hsome]; rfl), hsome]

theorem resolve_grouped_of_none (valid : ∀ route ∈ routes, route.Valid)
    (hnone : ∀ row ∈ Route.arranged routes, ¬ row.Serves method path) :
    (grouped missing routes).resolve method path = ⟨missing, []⟩ := by
  have hfind : (Route.arranged routes).findSome? (fun row => row.chain.hit? method path.toList) =
      none :=
    List.findSome?_eq_none_iff.mpr fun row hrow =>
      (Route.hit?_chain_eq_none_iff (valid row (mem_arrange.mp hrow))).mpr (hnone row hrow)
  rw [resolve_grouped, hfind]

/-- **The tree of a list of routes answers a request with the first row of its listing that has the
method and whose template fits the path,** and binds the parameters of that row from left to
right. -/
theorem first_fitting_row_answers (missing : α) (routes : List (Route α))
    (valid : ∀ route ∈ routes, validatePath route.path = .ok ()) :
    ∃ tree, Tree.ofRoutes missing routes = .ok tree ∧
      ∀ method path,
        (∃ before row after pieces,
            tree.routes = before ++ row :: after ∧
            (∀ earlier ∈ before, ¬ earlier.Serves method path) ∧
            row.method.name = method ∧
            pieces? path = some pieces ∧
            List.Forall₂ Segment.Fits row.template pieces ∧
            tree.resolve method path =
              ⟨row.endpoint, (row.template.captured pieces).foldl addBinding []⟩) ∨
          (∀ row ∈ tree.routes, ¬ row.Serves method path) ∧
            tree.resolve method path = ⟨missing, []⟩ := by
  refine ⟨grouped missing routes, ofRoutes_eq_ok missing valid, fun method path => ?_⟩
  rw [routes_grouped missing valid]
  rcases exists_first_or_none (Route.Serves method path) (Route.arranged routes) with
    ⟨before, row, after, hsplit, hbefore, hmethod, pieces, hpieces, hfits⟩ | hnone
  · exact Or.inl ⟨before, row, after, pieces, hsplit, hbefore, hmethod, hpieces, hfits,
      resolve_grouped_of_first valid hsplit hbefore hmethod hpieces hfits⟩
  · exact Or.inr ⟨hnone, resolve_grouped_of_none valid hnone⟩

theorem usersTable_first_fitting_row_answers :
    (∀ route ∈ usersTable, validatePath route.path = .ok ()) ∧
      ∃ tree, Tree.ofRoutes "Missing" usersTable = .ok tree ∧
        ∀ method path,
          (∃ before row after pieces,
              tree.routes = before ++ row :: after ∧
              (∀ earlier ∈ before, ¬ earlier.Serves method path) ∧
              row.method.name = method ∧
              pieces? path = some pieces ∧
              List.Forall₂ Segment.Fits row.template pieces ∧
              tree.resolve method path =
                ⟨row.endpoint, (row.template.captured pieces).foldl addBinding []⟩) ∨
            (∀ row ∈ tree.routes, ¬ row.Serves method path) ∧
              tree.resolve method path = ⟨"Missing", []⟩ :=
  ⟨by decide, first_fitting_row_answers "Missing" usersTable (by decide)⟩

example : (Tree.ofRoutes "Missing" usersTable).map (·.resolve "GET" "/users//posts") =
    .ok ⟨"Posts", [("id", "")]⟩ := by
  cbv

end Tree

end HttpRoutes
