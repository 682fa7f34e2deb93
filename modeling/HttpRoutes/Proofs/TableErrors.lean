import HttpRoutes.CommandLine.Run
import HttpRoutes.Proofs.Compilation

/-!
# Validating and compiling a table

The problems of a table are collected by a check of their own, which stops nowhere, while compiling
stops at the first bad row. They agree on which tables can be compiled and on the first error.

* `TableRow.causes` : what is wrong with the method and the path of a row
  (`TableRow.failure?_route`);
* `RouteTable.routeProblems` : those problems of a table that are such causes
  (`RouteTable.routeProblems_eq`);
* `RouteTable.FirstRouteProblem` : the first of them;
* `RouteTable.validation_agrees_with_compilation` : they decide whether a table is compiled.
-/

namespace HttpRoutes

/-- The row and the cause of a problem that a method or a path is. -/
def Problem.route? : Problem → Option (Nat × RouteError)
  | badRoute index cause => some (index, cause)
  | _ => none

/-- The row that stands for a route in a table. -/
def Route.row (route : Route String) : TableRow :=
  ⟨route.method.name, route.path, route.endpoint⟩

/-! ## Rows -/

namespace TableRow

/-- What is wrong with the method and the path of a row, in this order. -/
def causes (row : TableRow) : List RouteError :=
  (failure? (Method.parse row.method)).toList ++ (failure? (validatePath row.path)).toList

/-- The same, each with the position of the row. -/
def causesAt (row : TableRow) (index : Nat) : List (Nat × RouteError) :=
  row.causes.map fun cause => (index, cause)

theorem causesAt_eq_nil {row : TableRow} (h : row.causes.head? = none) (index : Nat) :
    row.causesAt index = [] := by
  rw [causesAt, List.head?_eq_none_iff.mp h]
  rfl

theorem failure?_route (row : TableRow) : failure? row.route = row.causes.head? := by
  rw [route, Route.parse, causes]
  cases Method.parse row.method with
  | error cause => rfl
  | ok method => cases validatePath row.path <;> rfl

theorem causes_eq_cons_iff {row : TableRow} {cause : RouteError} : row.causes.head? = some cause ↔
    Method.parse row.method = .error cause ∨
      (∃ method, Method.parse row.method = .ok method) ∧ validatePath row.path = .error cause := by
  rw [causes]
  cases Method.parse row.method with
  | error other => simp [failure?]
  | ok method =>
    rw [← failure?_eq_some_iff, ← failure?_eq_some_iff]
    simp [failure?]

theorem row_of_route_eq_ok {row : TableRow} {route : Route String} (h : row.route = .ok route) :
    row = route.row ∧ route.Valid := by
  rw [TableRow.route, Route.parse] at h
  cases hmethod : Method.parse row.method with
  | error cause => simp [hmethod, bind, Except.bind] at h
  | ok method =>
    cases hpath : validatePath row.path with
    | error cause => simp [hmethod, hpath, bind, Except.bind] at h
    | ok _ =>
      obtain rfl : ⟨method, row.path, row.endpoint⟩ = route := by
        simpa [hmethod, hpath, bind, Except.bind, pure, Except.pure] using h
      refine ⟨?_, hpath⟩
      rw [Route.row, Method.parse_eq_ok_iff.mp hmethod]

theorem filterMap_complaint {γ : Type} (index : Nat) (result : Except RouteError γ) :
    (complaint index result).filterMap Problem.route? =
      (failure? result).toList.map fun cause => (index, cause) := by
  cases result <;> rfl

theorem filterMap_problems (seen : FirstSeen) (index : Nat) (row : TableRow) :
    (problems seen index row).filterMap Problem.route? = row.causesAt index := by
  have hendpoint : (if Text.allBlank row.endpoint then
      [Problem.emptyEndpoint index] else []).filterMap Problem.route? = [] := by
    split <;> rfl
  rw [problems, List.filterMap_append, List.filterMap_append, List.filterMap_append, hendpoint,
    filterMap_complaint, filterMap_complaint, List.append_nil, causesAt, causes, List.map_append]
  split <;> exact List.append_nil _

theorem filterMap_problemsFrom (seen : FirstSeen) (index : Nat) (rows : List TableRow) :
    (problemsFrom seen index rows).filterMap Problem.route? =
      (rows.zipIdx index).flatMap fun row => row.1.causesAt row.2 := by
  induction rows generalizing seen index with
  | nil => rfl
  | cons row rows ih =>
    rw [problemsFrom, List.filterMap_append, filterMap_problems, ih, List.zipIdx_cons,
      List.flatMap_cons]

end TableRow

namespace RouteTable

/-- The problems of a table that are wrong methods and wrong paths, each with its row. -/
def routeProblems (table : RouteTable) : List (Nat × RouteError) :=
  table.problems.filterMap Problem.route?

theorem routeProblems_eq (table : RouteTable) :
    table.routeProblems = table.rows.zipIdx.flatMap fun row => row.1.causesAt row.2 := by
  have hmissing : (if Text.allBlank table.missing then [Problem.emptyMissing] else []).filterMap
      Problem.route? = [] := by
    split <;> rfl
  have hlevel : (if isLogLevel table.observability.logLevel then []
      else [Problem.unknownLogLevel table.observability.logLevel]).filterMap
      Problem.route? = [] := by
    split <;> rfl
  rw [routeProblems, problems, List.filterMap_append, List.filterMap_append, hmissing, hlevel,
    TableRow.filterMap_problemsFrom]
  rfl

theorem mem_routeProblems {table : RouteTable} {index : Nat} {cause : RouteError} :
    (index, cause) ∈ table.routeProblems ↔ .badRoute index cause ∈ table.problems := by
  rw [routeProblems, List.mem_filterMap]
  constructor
  · rintro ⟨problem, hproblem, hroute⟩
    cases problem with
    | badRoute i c =>
      obtain ⟨rfl, rfl⟩ := Prod.mk.inj (Option.some.inj hroute)
      exact hproblem
    | _ => cases hroute
  · exact fun hproblem => ⟨_, hproblem, rfl⟩

/-- The first problem of a table that is a wrong method or a wrong path. No lower row has one, and
of one row the method goes before the path. -/
structure FirstRouteProblem (table : RouteTable) (index : Nat) (cause : RouteError) : Prop where
  head : table.routeProblems.head? = some (index, cause)
  lowest : ∀ other ∈ table.routeProblems, index ≤ other.1
  methodFirst : ∃ row, table.rows[index]? = some row ∧
    (Method.parse row.method = .error cause ∨
      (∃ method, Method.parse row.method = .ok method) ∧ validatePath row.path = .error cause)

theorem failure?_flatRoutes (table : RouteTable) :
    failure? table.flatRoutes = table.rows.findSome? fun row => row.causes.head? := by
  rw [flatRoutes, failure?_mapM]
  exact congrArg (table.rows.findSome? ·) (funext TableRow.failure?_route)

theorem firstRouteProblem_of_failure? {table : RouteTable} {cause : RouteError}
    (h : failure? table.flatRoutes = some cause) :
    ∃ index, table.FirstRouteProblem index cause := by
  rw [failure?_flatRoutes, List.findSome?_eq_some_iff] at h
  obtain ⟨before, row, after, hrows, hcause, hbefore⟩ := h
  obtain ⟨more, hcauses⟩ : ∃ more, row.causes = cause :: more :=
    List.head?_eq_some_iff.mp hcause
  have hnone : (before.zipIdx.flatMap fun row => row.1.causesAt row.2) = [] := by
    refine List.flatMap_eq_nil_iff.mpr fun earlier hearlier => ?_
    exact TableRow.causesAt_eq_nil (hbefore _ (List.fst_mem_of_mem_zipIdx hearlier)) _
  have hproblems : table.routeProblems = (before.length, cause) ::
      (more.map (fun cause => (before.length, cause)) ++
        (after.zipIdx (before.length + 1)).flatMap fun row => row.1.causesAt row.2) := by
    rw [routeProblems_eq, hrows, List.zipIdx_append, List.flatMap_append, hnone, List.zipIdx_cons,
      List.flatMap_cons, TableRow.causesAt, hcauses, Nat.zero_add]
    rfl
  refine ⟨before.length, ?_, ?_, row, ?_, TableRow.causes_eq_cons_iff.mp hcause⟩
  · rw [hproblems, List.head?_cons]
  · rw [hproblems]
    refine List.forall_mem_cons.mpr ⟨Nat.le_refl _, List.forall_mem_append.mpr ⟨?_, ?_⟩⟩
    · exact List.forall_mem_map.mpr fun _ _ => Nat.le_refl _
    · intro other hother
      obtain ⟨later, hlater, hother⟩ := List.mem_flatMap.mp hother
      obtain ⟨_, -, rfl⟩ := List.mem_map.mp hother
      exact Nat.le_of_succ_le (List.le_snd_of_mem_zipIdx hlater)
  · rw [hrows, List.getElem?_append_right (Nat.le_refl _), Nat.sub_self, List.getElem?_cons_zero]

/-- The rows of a table are routes if none of its problems is a wrong method or a wrong path. -/
theorem routeProblems_eq_nil_iff {table : RouteTable} :
    table.routeProblems = [] ↔ ∃ routes, table.flatRoutes = .ok routes := by
  rw [← failure?_eq_none_iff]
  constructor
  · intro h
    refine Option.eq_none_iff_forall_not_mem.mpr fun cause hcause => ?_
    obtain ⟨index, hfirst⟩ := firstRouteProblem_of_failure? hcause
    have hhead := hfirst.head
    rw [h] at hhead
    cases hhead
  · intro h
    rw [failure?_flatRoutes, List.findSome?_eq_none_iff] at h
    rw [routeProblems_eq, List.flatMap_eq_nil_iff]
    exact fun row hrow => TableRow.causesAt_eq_nil (h _ (List.fst_mem_of_mem_zipIdx hrow)) _

theorem exists_flatRoutes_eq_error_iff {table : RouteTable} :
    (∃ cause, table.flatRoutes = .error cause) ↔
      ∃ index cause, .badRoute index cause ∈ table.problems := by
  constructor
  · rintro ⟨cause, hcause⟩
    obtain ⟨index, hfirst⟩ := firstRouteProblem_of_failure? (failure?_eq_some_iff.mpr hcause)
    exact ⟨index, cause, mem_routeProblems.mp (List.mem_of_head? hfirst.head)⟩
  · rintro ⟨index, cause, hproblem⟩
    cases hroutes : table.flatRoutes with
    | error cause => exact ⟨cause, rfl⟩
    | ok routes =>
      have hnone := routeProblems_eq_nil_iff.mpr ⟨routes, hroutes⟩
      have hmem := mem_routeProblems.mpr hproblem
      rw [hnone] at hmem
      cases hmem

/-- The routes of a table are its rows. -/
theorem rows_of_flatRoutes_eq_ok {table : RouteTable} {routes : List (Route String)}
    (h : table.flatRoutes = .ok routes) :
    routes.map Route.row = table.rows ∧ ∀ route ∈ routes, route.Valid := by
  rw [flatRoutes, mapM_eq_ok_iff] at h
  generalize table.rows = rows at h ⊢
  induction h with
  | nil => exact ⟨rfl, fun _ hroute => nomatch hroute⟩
  | cons hroute _ ih =>
    obtain ⟨rfl, hvalid⟩ := TableRow.row_of_route_eq_ok hroute
    obtain ⟨hrows, hvalids⟩ := ih
    exact ⟨congrArg _ hrows, List.forall_mem_cons.mpr ⟨hvalid, hvalids⟩⟩

/-- A table that is accepted has no problems. -/
theorem problems_eq_nil_of_parse {text : String} {table : RouteTable}
    (h : parse text = .ok table) : table.problems = [] := by
  unfold parse at h
  split at h
  · unfold validated at h
    split at h
    · next hproblems =>
      cases h
      exact hproblems
    · cases h
  · cases h

end RouteTable

/-! ## What is compiled -/

namespace Backend

variable {α β γ : Type} (backend : Backend α β γ)

theorem exists_ofRoutes_eq_ok {missing : α} {routes : List (Route α)}
    (valid : ∀ route ∈ routes, route.Valid) : ∃ out, backend.ofRoutes missing routes = .ok out := by
  rw [ofRoutes_eq_map, Tree.ofRoutes_eq_ok missing valid]
  exact ⟨_, rfl⟩

theorem exists_ofRoutes_eq_error_iff {missing : α} {routes : List (Route α)} :
    (∃ cause, backend.ofRoutes missing routes = .error cause) ↔
      ∃ route ∈ routes, ∃ cause, validatePath route.path = .error cause := by
  simp only [← failure?_eq_some_iff, failure?_ofRoutes, ← Option.isSome_iff_exists,
    List.findSome?_isSome_iff]

theorem ofRoutes_eq_error_iff {missing : α} {routes : List (Route α)} {cause : RouteError} :
    backend.ofRoutes missing routes = .error cause ↔
      ∃ (before : List (Route α)) (route : Route α) (after : List (Route α)),
        routes = before ++ route :: after ∧
        (∀ earlier ∈ before, validatePath earlier.path = .ok ()) ∧
        validatePath route.path = .error cause := by
  have hok : ∀ path, failure? (validatePath path) = none ↔ validatePath path = .ok () :=
    fun path => failure?_eq_none_iff.trans ⟨fun ⟨_, h⟩ => h, fun h => ⟨(), h⟩⟩
  simp only [← failure?_eq_some_iff, failure?_ofRoutes, List.findSome?_eq_some_iff, ← hok]
  simp only [and_comm]

end Backend

namespace RouteTable

/-- A table without problems has routes and a tree. -/
theorem exists_tree_of_problems {table : RouteTable} (h : table.problems = []) :
    ∃ routes, table.flatRoutes = .ok routes ∧ routes.map Route.row = table.rows ∧
      (∀ route ∈ routes, route.Valid) ∧ table.tree = .ok (Tree.grouped table.missing routes) := by
  have hnone : table.routeProblems = [] := by
    rw [routeProblems, h]
    rfl
  obtain ⟨routes, hroutes⟩ := routeProblems_eq_nil_iff.mp hnone
  obtain ⟨hrows, hvalid⟩ := rows_of_flatRoutes_eq_ok hroutes
  refine ⟨routes, hroutes, hrows, hvalid, ?_⟩
  rw [tree, hroutes]
  exact Tree.ofRoutes_eq_ok table.missing hvalid

theorem exists_flatRoutes_of_parse {text : String} {table : RouteTable}
    (h : parse text = .ok table) :
    ∃ routes, table.flatRoutes = .ok routes ∧ ∀ route ∈ routes, route.Valid := by
  obtain ⟨routes, hroutes, -, hvalid, -⟩ := exists_tree_of_problems (problems_eq_nil_of_parse h)
  exact ⟨routes, hroutes, hvalid⟩

/-- A table that is loaded has routes and a tree. -/
theorem exists_tree_of_load {file : FileContent} {table : RouteTable}
    (h : load file = .ok table) :
    ∃ routes, table.flatRoutes = .ok routes ∧ routes.map Route.row = table.rows ∧
      (∀ route ∈ routes, route.Valid) ∧ table.tree = .ok (Tree.grouped table.missing routes) := by
  obtain ⟨text, htext⟩ : ∃ text, parse text = .ok table := by
    unfold load at h
    split at h
    · cases h
    · split at h
      · exact ⟨_, h⟩
      · cases h
  exact exists_tree_of_problems (problems_eq_nil_of_parse htext)

/-- **Validation and compilation agree** on which methods and paths are wrong, and on the first of
them. -/
theorem validation_agrees_with_compilation :
    (∀ table : RouteTable,
      ((∃ cause, table.flatRoutes = .error cause) ↔
        ∃ index cause, .badRoute index cause ∈ table.problems) ∧
      (∀ cause, table.flatRoutes = .error cause → ∃ index, table.FirstRouteProblem index cause) ∧
      ∀ routes, table.flatRoutes = .ok routes →
        routes.map Route.row = table.rows ∧
          ∀ {β γ : Type} (backend : Backend String β γ) (missing : String),
            ∃ out, backend.ofRoutes missing routes = .ok out) ∧
    (∀ {α β γ : Type} (backend : Backend α β γ) (missing : α) (routes : List (Route α)),
      ((∃ cause, backend.ofRoutes missing routes = .error cause) ↔
        ∃ route ∈ routes, ∃ cause, validatePath route.path = .error cause) ∧
      ∀ cause, backend.ofRoutes missing routes = .error cause →
        ∃ (before : List (Route α)) (route : Route α) (after : List (Route α)),
          routes = before ++ route :: after ∧
          (∀ earlier ∈ before, validatePath earlier.path = .ok ()) ∧
          validatePath route.path = .error cause) ∧
    ∀ (text : String) (table : RouteTable), parse text = .ok table →
      (∃ tree, table.tree = .ok tree) ∧ ∃ routes, table.flatRoutes = .ok routes ∧
        ∀ {β γ : Type} (backend : Backend String β γ),
          ∃ out, backend.ofRoutes table.missing routes = .ok out := by
  refine ⟨fun table => ⟨exists_flatRoutes_eq_error_iff, fun cause hcause => ?_,
    fun routes hroutes => ?_⟩, fun backend missing routes => ⟨?_, fun cause => ?_⟩,
    fun text table hparse => ?_⟩
  · exact firstRouteProblem_of_failure? (failure?_eq_some_iff.mpr hcause)
  · obtain ⟨hrows, hvalid⟩ := rows_of_flatRoutes_eq_ok hroutes
    exact ⟨hrows, fun backend missing => backend.exists_ofRoutes_eq_ok hvalid⟩
  · exact backend.exists_ofRoutes_eq_error_iff
  · exact backend.ofRoutes_eq_error_iff.mp
  · obtain ⟨routes, hroutes, hvalid⟩ := exists_flatRoutes_of_parse hparse
    refine ⟨⟨Tree.grouped table.missing routes, ?_⟩, routes, hroutes,
      fun backend => backend.exists_ofRoutes_eq_ok hvalid⟩
    rw [tree, hroutes]
    exact Tree.ofRoutes_eq_ok table.missing hvalid

end RouteTable

/-- A table in which other problems stand between the wrong methods and paths. -/
def brokenTable : RouteTable :=
  ⟨" ", [⟨"GET", "/a", "A"⟩, ⟨"GET", "/a", ""⟩, ⟨"get", "b", "B"⟩,
    ⟨"POST", "/users/\x7b\x7d", "C"⟩], ⟨"loud"⟩⟩

def itemText : String :=
  "[[routes]]\nmethod = \"GET\"\npath = \"/items/{id}\"\nendpoint = \"Item\"\n"

def itemTable : RouteTable :=
  ⟨"NotFound", [⟨"GET", "/items/{id}", "Item"⟩], ⟨"info"⟩⟩

theorem brokenTable_validation_agrees_with_compilation :
    (brokenTable.flatRoutes = .error (.unknownMethod "get") ∧
      ∃ index, brokenTable.FirstRouteProblem index (.unknownMethod "get")) ∧
    (itemTable.flatRoutes = .ok [⟨.get, "/items/{id}", "Item"⟩] ∧
      [⟨.get, "/items/{id}", "Item"⟩].map Route.row = itemTable.rows) ∧
    (Backend.listing.ofRoutes "Missing" [⟨.get, "/ok", "Ok"⟩, ⟨.get, "users", "Bad"⟩] =
        .error (.missingLeadingSlash "users") ∧
      ∃ (before : List (Route String)) (route : Route String) (after : List (Route String)),
        [⟨.get, "/ok", "Ok"⟩, ⟨.get, "users", "Bad"⟩] = before ++ route :: after ∧
          (∀ earlier ∈ before, validatePath earlier.path = .ok ()) ∧
          validatePath route.path = .error (.missingLeadingSlash "users")) ∧
    RouteTable.parse itemText = .ok itemTable ∧ ∃ tree, itemTable.tree = .ok tree := by
  obtain ⟨htables, hroutes, haccepted⟩ := RouteTable.validation_agrees_with_compilation
  have hbroken : brokenTable.flatRoutes = .error (.unknownMethod "get") := by decide
  have hitem : itemTable.flatRoutes = .ok [⟨.get, "/items/{id}", "Item"⟩] := by decide
  have hbad : Backend.listing.ofRoutes "Missing" [⟨.get, "/ok", "Ok"⟩, ⟨.get, "users", "Bad"⟩] =
      .error (.missingLeadingSlash "users") := by
    decide
  have hparse : RouteTable.parse itemText = .ok itemTable := by decide +kernel
  exact ⟨⟨hbroken, (htables brokenTable).2.1 _ hbroken⟩,
    ⟨hitem, ((htables itemTable).2.2 _ hitem).1⟩,
    ⟨hbad, (hroutes Backend.listing "Missing" _).2 _ hbad⟩, hparse,
    (haccepted itemText itemTable hparse).1⟩

end HttpRoutes
