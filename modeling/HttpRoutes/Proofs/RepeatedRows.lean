import HttpRoutes.Proofs.DroppedRows
import HttpRoutes.Proofs.TableProblems

/-!
# Rows that repeat an earlier one

A row with the method and the path of an earlier one is never the first to serve a request, and
without it all other rows are listed as before. Such rows are those that validation reports.

* `Route.isRepeated routes i` : row `i` repeats an earlier row (`Route.isRepeated_iff`);
* `Route.exists_unrepeated` : the first of all rows with a method and a path repeats none;
* `Route.unrepeated` : the rows that repeat none;
* `Route.isRepeated_iff_exists_duplicate` : a table reports these rows as duplicates;
* `Tree.resolves_without_repeated_rows` : what the tree of all rows and that of these rows share.
-/

namespace HttpRoutes

variable {α : Type}

namespace Route

/-- Whether row `i` has the method and the path of a row above it. -/
def isRepeated (routes : List (Route α)) (i : Fin routes.length) : Bool :=
  (routes.take i).any fun earlier =>
    earlier.method = (routes.get i).method ∧ earlier.path = (routes.get i).path

/-- The routes without those that have the method and the path of an earlier one. -/
def unrepeated (routes : List (Route α)) : List (Route α) :=
  keep routes fun i => !isRepeated routes i

variable {routes : List (Route α)}

theorem isRepeated_iff {i : Fin routes.length} :
    isRepeated routes i = true ↔ ∃ j < i, (routes.get j).method = (routes.get i).method ∧
      (routes.get j).path = (routes.get i).path := by
  simp only [isRepeated, List.any_eq_true, List.mem_take_iff_getElem, decide_eq_true_eq]
  constructor
  · rintro ⟨_, ⟨j, hj, rfl⟩, hsame⟩
    rw [Nat.lt_min] at hj
    exact ⟨⟨j, hj.2⟩, Fin.lt_def.mpr hj.1, hsame⟩
  · rintro ⟨j, hlt, hsame⟩
    exact ⟨_, ⟨j, Nat.lt_min.mpr ⟨hlt, j.isLt⟩, rfl⟩, hsame⟩

/-- Some row that repeats none stands at the place of each row or above, with its method and its
path. -/
theorem exists_unrepeated (i : Fin routes.length) :
    ∃ j ≤ i, isRepeated routes j = false ∧ (routes.get j).method = (routes.get i).method ∧
      (routes.get j).path = (routes.get i).path := by
  induction i using WellFoundedLT.induction with
  | ind i ih =>
    cases hrepeated : isRepeated routes i with
    | false => exact ⟨i, le_rfl, hrepeated, rfl, rfl⟩
    | true =>
      obtain ⟨earlier, hlt, hmethod, hpath⟩ := isRepeated_iff.mp hrepeated
      obtain ⟨j, hle, hj, hmethod', hpath'⟩ := ih earlier hlt
      exact ⟨j, hle.trans hlt.le, hj, hmethod'.trans hmethod, hpath'.trans hpath⟩

theorem template_eq_of_path_eq {route other : Route α} (h : route.path = other.path) :
    route.template = other.template := by
  rw [template, template, h]

theorem spares_unrepeated (routes : List (Route α)) :
    Spares (fun m => (routes.get m).template) (fun i => !isRepeated routes i)
      (List.finRange routes.length) := by
  intro dropped _ _ _ _ _ _
  obtain ⟨j, hle, hj, -, hpath⟩ := exists_unrepeated dropped
  exact ⟨j, List.mem_finRange j, by simp [hj], hle, template_eq_of_path_eq hpath⟩

/-- The first row of the listing that serves a request repeats none: what it would repeat has its
template and is listed before it. -/
theorem isRepeated_eq_false_of_first {method path : String}
    {before after : List (Fin routes.length)} {i : Fin routes.length}
    (hsplit : listingOrder routes = before ++ i :: after)
    (hbefore : ∀ earlier ∈ before, ¬ (routes.get earlier).Serves method path)
    (hserves : (routes.get i).Serves method path) : isRepeated routes i = false := by
  rw [Bool.eq_false_iff]
  intro hrepeated
  obtain ⟨j, hlt, hmethod, hpath⟩ := isRepeated_iff.mp hrepeated
  have htemplate := template_eq_of_path_eq hpath
  refine hbefore j (mem_before_of_precedes hsplit (Or.inl ⟨htemplate, hlt⟩)) ?_
  rw [Serves, hmethod, htemplate]
  exact hserves

end Route

/-! ## Reported rows -/

theorem Route.isRepeated_iff_exists_duplicate {routes : List (Route α)} {table : RouteTable}
    (hrows : table.rows.map (fun row => (row.method, row.path)) =
      routes.map fun route => (route.method.name, route.path)) (i : Fin routes.length) :
    isRepeated routes i = true ↔
      ∃ first method path, .duplicate i first method path ∈ table.problems := by
  have hrow : ∀ k : Fin routes.length, ∃ row, table.rows[k.val]? = some row ∧
      row.method = (routes.get k).method.name ∧ row.path = (routes.get k).path := by
    intro k
    have hk := congrArg (·[k.val]?) hrows
    simp only [List.getElem?_map, List.getElem?_eq_getElem k.isLt, Option.map_some,
      Option.map_eq_some_iff, Prod.mk.injEq] at hk
    exact hk
  obtain ⟨row, hi, hmethod, hpath⟩ := hrow i
  rw [RouteTable.exists_duplicate_iff, isRepeated_iff]
  constructor
  · rintro ⟨j, hlt, hmethod', hpath'⟩
    obtain ⟨other, hj, hname, hsame⟩ := hrow j
    refine ⟨row, hi, j, hlt, other, hj, ?_, ?_⟩
    · rw [hname, hmethod', hmethod]
    · rw [hsame, hpath', hpath]
  · rintro ⟨_, hi', j, hlt, other, hj, hmethod', hpath'⟩
    obtain rfl := Option.some.inj (hi.symm.trans hi')
    obtain ⟨_, hj', hname, hsame⟩ := hrow ⟨j, hlt.trans i.isLt⟩
    obtain rfl := Option.some.inj (hj.symm.trans hj')
    refine ⟨⟨j, hlt.trans i.isLt⟩, hlt, Method.name_inj ?_, ?_⟩
    · rw [← hname, hmethod', hmethod]
    · rw [← hsame, hpath', hpath]

namespace Tree

/-- **Rows that repeat an earlier one can be removed:** without them, every request is resolved
alike. -/
theorem resolves_without_repeated_rows (missing : α) (routes : List (Route α))
    (valid : ∀ route ∈ routes, validatePath route.path = .ok ()) :
    ∃ tree other, Tree.ofRoutes missing routes = .ok tree ∧
      Tree.ofRoutes missing (Route.unrepeated routes) = .ok other ∧
      (∀ method path, other.resolve method path = tree.resolve method path) ∧
      (∃ order : List (Fin routes.length), order.Perm (List.finRange routes.length) ∧
        order.Pairwise (Route.ListedBefore routes) ∧
        tree.routes = order.map routes.get ∧
        other.routes = (order.filter fun i => !Route.isRepeated routes i).map routes.get) ∧
      ∀ table : RouteTable, table.rows.map (fun row => (row.method, row.path)) =
          routes.map (fun route => (route.method.name, route.path)) →
        ∀ i : Fin routes.length, Route.isRepeated routes i = true ↔
          ∃ first method path, .duplicate i first method path ∈ table.problems := by
  have hvalid : ∀ route ∈ Route.unrepeated routes, route.Valid := fun route hroute =>
    valid route (Route.mem_of_mem_keep hroute)
  refine ⟨grouped missing routes, grouped missing (Route.unrepeated routes),
    ofRoutes_eq_ok missing valid, ofRoutes_eq_ok missing hvalid, fun method path => ?_, ?_,
    fun table hrows => Route.isRepeated_iff_exists_duplicate hrows⟩
  · refine resolve_keep missing method path valid (Route.spares_unrepeated routes) ?_
    intro before i after hsplit hbefore hserves
    rw [Route.isRepeated_eq_false_of_first hsplit hbefore hserves]
    rfl
  · refine ⟨Route.listingOrder routes, Route.listingOrder_perm routes, ?_, ?_, ?_⟩
    · refine (Route.pairwise_listingOrder routes).imp fun {i j} => ?_
      exact (Route.listedBefore_iff_precedes valid i j).mpr
    · rw [routes_grouped missing valid, Route.map_get_listingOrder]
    · rw [routes_grouped missing hvalid]
      exact Route.arranged_keep (Route.spares_unrepeated routes)

/-- Rows of which the third one repeats the first one. -/
def repeatingRoutes : List (Route String) :=
  [⟨.get, "/{id}", "ById"⟩, ⟨.get, "/all", "All"⟩, ⟨.get, "/{id}", "Again"⟩, ⟨.put, "/{id}", "Put"⟩]

def repeatingTable : RouteTable :=
  ⟨"Missing",
    [⟨"GET", "/{id}", "ById"⟩, ⟨"GET", "/all", "All"⟩, ⟨"GET", "/{id}", "Again"⟩,
      ⟨"PUT", "/{id}", "Put"⟩],
    ⟨"info"⟩⟩

theorem repeatingRoutes_resolve_without_repeated_rows :
    ((∀ route ∈ repeatingRoutes, validatePath route.path = .ok ()) ∧
        repeatingTable.rows.map (fun row => (row.method, row.path)) =
          repeatingRoutes.map (fun route => (route.method.name, route.path)) ∧
        Route.unrepeated repeatingRoutes =
          [⟨.get, "/{id}", "ById"⟩, ⟨.get, "/all", "All"⟩, ⟨.put, "/{id}", "Put"⟩]) ∧
      ∃ tree other, Tree.ofRoutes "Missing" repeatingRoutes = .ok tree ∧
        Tree.ofRoutes "Missing" (Route.unrepeated repeatingRoutes) = .ok other ∧
        (∀ method path, other.resolve method path = tree.resolve method path) ∧
        (∃ order : List (Fin repeatingRoutes.length),
          order.Perm (List.finRange repeatingRoutes.length) ∧
          order.Pairwise (Route.ListedBefore repeatingRoutes) ∧
          tree.routes = order.map repeatingRoutes.get ∧
          other.routes =
            (order.filter fun i => !Route.isRepeated repeatingRoutes i).map repeatingRoutes.get) ∧
        ∀ i : Fin repeatingRoutes.length, Route.isRepeated repeatingRoutes i = true ↔
          ∃ first method path, .duplicate i first method path ∈ repeatingTable.problems := by
  have valid : ∀ route ∈ repeatingRoutes, validatePath route.path = .ok () := by decide
  have hrows : repeatingTable.rows.map (fun row => (row.method, row.path)) =
      repeatingRoutes.map (fun route => (route.method.name, route.path)) := rfl
  obtain ⟨tree, other, htree, hother, hresolve, hlisting, hreported⟩ :=
    resolves_without_repeated_rows "Missing" repeatingRoutes valid
  exact ⟨⟨valid, hrows, by decide⟩, tree, other, htree, hother, hresolve, hlisting,
    hreported repeatingTable hrows⟩

end Tree

end HttpRoutes
