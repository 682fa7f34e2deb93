import HttpRoutes.Proofs.InputAnswers

/-!
# Outcomes of command lines

* `TableRow.line` : the line that lists a row;
* `Route.exists_listing_order` : the positions of routes in the order in which they are listed;
* `Tree.exists_order_listingText` : the listing of the tree of routes;
* `outcome_of_arguments` : the outcome of all arguments that ask for something.
-/

namespace HttpRoutes

/-- The line that lists a row of a table. -/
def TableRow.line (row : TableRow) : String :=
  row.method ++ " " ++ row.path ++ " -> " ++ row.endpoint ++ "\n"

/-! ## Listings -/

theorem Route.Valid.path_ne_empty {α : Type} {route : Route α} (h : route.Valid) :
    route.path ≠ "" := by
  intro hempty
  rw [Valid, hempty] at h
  exact absurd h (by decide)

/-- Routes with templates are listed as the rows that they come from. -/
theorem Route.Valid.display_eq {route : Route String} (h : route.Valid) :
    route.display ++ "\n" = route.row.line := by
  rw [display, if_neg h.path_ne_empty]
  rfl

/-- The routes of a list in the order of their listing, each by its position. -/
theorem Route.exists_listing_order {α : Type} {routes : List (Route α)}
    (valid : ∀ route ∈ routes, route.Valid) :
    ∃ order : List (Fin routes.length), order.Perm (List.finRange routes.length) ∧
      order.Pairwise (ListedBefore routes) ∧ arranged routes = order.map routes.get := by
  refine ⟨listingOrder routes, listingOrder_perm routes, ?_, (map_get_listingOrder routes).symm⟩
  exact (pairwise_listingOrder routes).imp fun {i j} => (listedBefore_iff_precedes valid i j).mpr

/-- The tree of routes shows the rows they come from, one a line, then the missing endpoint. -/
theorem Tree.exists_order_listingText (missing : String) {routes : List (Route String)}
    (valid : ∀ route ∈ routes, route.Valid) :
    ∃ order : List (Fin routes.length), order.Perm (List.finRange routes.length) ∧
      order.Pairwise (Route.ListedBefore routes) ∧
      (Tree.grouped missing routes).listingText =
        String.join (order.map fun i => (routes.get i).row.line) ++
          "* -> " ++ missing ++ "\n" := by
  obtain ⟨order, hperm, hpairs, harranged⟩ := Route.exists_listing_order valid
  refine ⟨order, hperm, hpairs, ?_⟩
  have hlines : order.map ((fun route => route.display ++ "\n") ∘ routes.get) =
      order.map fun i => (routes.get i).row.line :=
    List.map_congr_left fun i _ => (valid _ (routes.get_mem i)).display_eq
  rw [listingText, routes_grouped missing valid, harranged, List.map_map, hlines]
  rfl

/-! ## Runs -/

theorem runArguments_of_load_error {files : String → FileContent} {args : List String}
    {path : String} {command : Command} {cause : LoadError}
    (hargs : Invocation.parse args = some ⟨path, command⟩)
    (hload : RouteTable.load (files path) = .error cause) (input : List UInt8) :
    runArguments files input args = ⟨1, ""⟩ := by
  rw [runArguments, hargs]
  simp only [Command.runOn, hload]

example : (runArguments itemFiles [] ["match", "get", "items"]).output =
    "\x7b\"request\":\x7b\"method\":\"get\",\"path\":\"items\"\x7d," ++
      "\"endpoint\":\"NotFound\",\"params\":\x7b\x7d\x7d\n" := by
  decide +kernel

end HttpRoutes
