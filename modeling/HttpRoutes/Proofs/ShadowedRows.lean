import HttpRoutes.Proofs.Coverage
import HttpRoutes.Proofs.OrderIndependence
import HttpRoutes.Proofs.Outcomes
import HttpRoutes.Proofs.TableProblems

/-!
# Rows of an accepted table that no request reaches

No two rows of an accepted table have the same method and path. Still a row may have no request of
its own: another one may fit every path that it fits, under another name for a parameter. Which of
the two is listed first is then a matter of the order of the names in the table.

* `Route.Shadows routes upper lower` : `upper` takes every request for `lower`, because of the order
  in which two names stand in `routes` (`Route.shadows_of_covers`, `Route.Shadows.listedBefore`);
* `Tree.grouped_reached_iff_not_shadowed` : the routes of a grouped tree that are reached;
* `RouteTable.row_reached_iff_not_shadowed` : the rows of an accepted table that are reached;
* `RouteTable.accepted_row_unreached` : there are such tables with a row that is not.
-/

namespace HttpRoutes

variable {α : Type}

/-! ## The order of names -/

/-- Of two results that a function has, the one that occurs first is the first of the two in the
list of them. -/
theorem pair_sublist_eraseDups_filterMap_iff {ι κ : Type} [Preorder ι] [BEq κ] [LawfulBEq κ]
    {items : List ι} (hsorted : items.Pairwise (· < ·)) (f : ι → Option κ) {first second : κ}
    (hsecond : second ∈ items.filterMap f) :
    [first, second].Sublist (items.filterMap f).eraseDups ↔
      OccursBefore items f (some first) (some second) := by
  have hpairs : (items.filterMap f).eraseDups.Pairwise
      fun x y => OccursBefore items f (some x) (some y) := by
    have hmap : items.filterMap f = (items.map f).filterMap id := by
      rw [List.filterMap_map, Function.id_comp]
    have hinj : ∀ (k l : Option κ) (m : κ), id k = some m → id l = some m → k = l :=
      fun _ _ _ hk hl => hk.trans hl.symm
    rw [hmap, eraseDups_filterMap hinj, List.pairwise_filterMap]
    refine (pairwise_eraseDups_map f items hsorted).imp fun hbefore x hx y hy => ?_
    obtain rfl : _ = some x := hx
    obtain rfl : _ = some y := hy
    exact hbefore
  constructor
  · exact fun hsub => List.pairwise_iff_forall_sublist.mp hpairs hsub
  · intro hbefore
    have hne : first ≠ second := fun heq => hbefore.ne (congrArg some heq)
    obtain ⟨item, hitem, hfirst, hall⟩ := hbefore
    have hmem : first ∈ items.filterMap f := List.mem_filterMap.mpr ⟨item, hitem, hfirst⟩
    rcases pair_sublist_or (List.mem_eraseDups.mpr hmem) (List.mem_eraseDups.mpr hsecond) hne with
      hsub | hsub
    · exact hsub
    · obtain ⟨item', hitem', hsecond', hall'⟩ := List.pairwise_iff_forall_sublist.mp hpairs hsub
      exact absurd (hall item' hitem' hsecond') (hall' item hitem hfirst).asymm

namespace Template

theorem getElem?_length_append (front : Template) (segment : Segment) (back : Template) :
    (front ++ segment :: back)[front.length]? = some segment := by
  rw [List.getElem?_append_right le_rfl, Nat.sub_self, List.getElem?_cons_zero]

theorem nameAfter?_eq_some_iff {lead template : Template} {name : String} :
    nameAfter? lead template = some name ↔
      template.take lead.length = lead ∧ template[lead.length]? = some (.param name) := by
  rw [nameAfter?, Option.bind_eq_some_iff]
  simp only [List.isPrefixOf?_eq_some_iff_append_eq]
  constructor
  · rintro ⟨rest, rfl, hname⟩
    obtain ⟨segment, hhead, hname⟩ := Option.bind_eq_some_iff.mp hname
    cases segment with
    | literal text => cases hname
    | param other =>
      obtain rfl := Option.some.inj hname
      obtain ⟨back, rfl⟩ := List.head?_eq_some_iff.mp hhead
      exact ⟨List.take_left, getElem?_length_append lead _ back⟩
  · rintro ⟨hlead, hname⟩
    refine ⟨template.drop lead.length, ?_, ?_⟩
    · conv_rhs => rw [← List.take_append_drop lead.length template, hlead]
    · rw [List.head?_drop, hname]
      rfl

/-- Where a template parts from one that it covers, it has a parameter. -/
theorem Covers.exists_split {upper lower : Template} (h : Covers upper lower) {k : Nat}
    (hagree : upper.take k = lower.take k) (hdiffer : upper[k]? ≠ lower[k]?) :
    ∃ (front : Template) (name : String) (other : Segment) (back back' : Template),
      front.length = k ∧ upper = front ++ .param name :: back ∧ lower = front ++ other :: back' ∧
        Covers back back' := by
  have hlength : upper.length = lower.length := h.length_eq
  rcases Nat.lt_or_ge k upper.length with hk | hk
  · have hk' : k < lower.length := hlength ▸ hk
    have hupper := List.take_append_drop k upper
    have hlower := List.take_append_drop k lower
    have hdrop := List.forall₂_drop k h
    rw [List.drop_eq_getElem_cons hk] at hupper hdrop
    rw [List.drop_eq_getElem_cons hk', ← hagree] at hlower
    rw [List.drop_eq_getElem_cons hk', List.forall₂_cons] at hdrop
    obtain ⟨hhead, hback⟩ := hdrop
    rw [List.getElem?_eq_getElem hk, List.getElem?_eq_getElem hk'] at hdiffer
    rcases hhead with hparam | hsame
    · obtain ⟨name, hname⟩ : ∃ name, upper[k] = .param name := by
        cases hsegment : upper[k] with
        | literal text =>
          rw [hsegment] at hparam
          cases hparam
        | param name => exact ⟨name, rfl⟩
      rw [hname] at hupper
      exact ⟨_, name, _, _, _, List.length_take_of_le hk.le, hupper.symm, hlower.symm, hback⟩
    · exact absurd (congrArg some hsame) hdiffer
  · rw [List.getElem?_eq_none hk, List.getElem?_eq_none (hlength ▸ hk)] at hdiffer
    exact absurd rfl hdiffer

theorem covers_append {front upper lower : Template} (h : Covers upper lower) :
    Covers (front ++ upper) (front ++ lower) := by
  induction front with
  | nil => exact h
  | cons segment front ih => exact .cons (Or.inr rfl) ih

end Template

/-! ## Shadows -/

namespace Route

/-- Two routes have one method, and their templates agree up to a parameter that each names in its
own way. Of the two names that of `upper` stands first behind those segments in `routes`, and from
there on `upper` covers `lower`. -/
def Shadows (routes : List (Route α)) (upper lower : Route α) : Prop :=
  upper.method = lower.method ∧
    ∃ (front : Template) (name name' : String) (back back' : Template),
      upper.template = front ++ .param name :: back ∧
      lower.template = front ++ .param name' :: back' ∧
      Template.Covers back back' ∧ [name, name'].Sublist (namesAfter front routes)

theorem Shadows.covers {routes : List (Route α)} {upper lower : Route α}
    (h : Shadows routes upper lower) : upper.Covers lower := by
  obtain ⟨hmethod, front, name, name', back, back', hupper, hlower, hback, -⟩ := h
  refine ⟨hmethod, ?_⟩
  rw [hupper, hlower]
  exact Template.covers_append (.cons (Or.inl rfl) hback)

/-- A name stands before another one if some row with it is above all rows with the other one. -/
theorem pair_sublist_namesAfter_iff {routes : List (Route α)} {front back : Template}
    {name name' : String} {j : Fin routes.length}
    (hj : (routes.get j).template = front ++ .param name' :: back) :
    [name, name'].Sublist (namesAfter front routes) ↔
      OccursBefore
        ((List.finRange routes.length).filter fun m =>
          (routes.get m).template.take front.length = front)
        (fun m => (routes.get m).template[front.length]?)
        (some (.param name)) (some (.param name')) := by
  let name? : Fin routes.length → Option String := fun m =>
    Template.nameAfter? front (routes.get m).template
  have hnames : namesAfter front routes =
      ((List.finRange routes.length).filterMap name?).eraseDups := by
    conv_lhs => rw [namesAfter, Template.namesAfter, ← routes.map_get_finRange, List.map_map,
      List.filterMap_map]
    rfl
  have hname' : name? j = some name' :=
    Template.nameAfter?_eq_some_iff.mpr
      ⟨by rw [hj, List.take_left], by rw [hj, Template.getElem?_length_append]⟩
  have hmem : name' ∈ (List.finRange routes.length).filterMap name? :=
    List.mem_filterMap.mpr ⟨j, List.mem_finRange j, hname'⟩
  rw [hnames, pair_sublist_eraseDups_filterMap_iff (List.pairwise_lt_finRange _) _ hmem]
  simp only [OccursBefore, name?, Template.nameAfter?_eq_some_iff, List.mem_filter,
    decide_eq_true_eq, and_assoc, and_imp]

/-- A route that shadows another one is listed before it. -/
theorem Shadows.listedBefore {routes : List (Route α)} {i j : Fin routes.length}
    (h : Shadows routes (routes.get i) (routes.get j)) : ListedBefore routes i j := by
  obtain ⟨-, front, name, name', back, back', hupper, hlower, -, hnames⟩ := h
  have hbefore := (pair_sublist_namesAfter_iff hlower).mp hnames
  refine Or.inr ⟨front.length, ?_, ?_, ?_⟩
  · rw [hupper, hlower, List.take_left, List.take_left]
  · rw [hupper, hlower, Template.getElem?_length_append, Template.getElem?_length_append]
    exact hbefore.ne
  · rw [hupper, hlower, List.take_left, Template.getElem?_length_append,
      Template.getElem?_length_append]
    exact Or.inr ⟨rfl, hbefore⟩

/-- A route that is listed before another one and covers it shadows it, unless they have one
path. -/
theorem shadows_of_covers {routes : List (Route α)} {i j : Fin routes.length}
    (hbefore : ListedBefore routes i j) (hpath : (routes.get i).path ≠ (routes.get j).path)
    (hcovers : (routes.get i).Covers (routes.get j)) :
    Shadows routes (routes.get i) (routes.get j) := by
  rcases hbefore with ⟨hsame, -⟩ | ⟨k, hagree, hdiffer, hhead⟩
  · exact absurd hsame hpath
  obtain ⟨hmethod, hcovers⟩ := hcovers
  obtain ⟨front, name, other, back, back', rfl, hupper, hlower, hback⟩ :=
    hcovers.exists_split hagree hdiffer
  rw [hupper, hlower, List.take_left, Template.getElem?_length_append,
    Template.getElem?_length_append] at hhead
  rcases hhead with ⟨hparam, -⟩ | ⟨hkind, hoccurs⟩
  · cases hparam
  cases other with
  | literal text => cases hkind
  | param name' =>
    exact ⟨hmethod, front, name, name', back, back', hupper, hlower, hback,
      (pair_sublist_namesAfter_iff hlower).mpr hoccurs⟩

/-- A listing split at a route: before it stand the routes that are listed before it. -/
theorem exists_listing_split {routes : List (Route α)} (valid : ∀ route ∈ routes, route.Valid)
    (j : Fin routes.length) :
    ∃ before after : List (Fin routes.length),
      arranged routes = before.map routes.get ++ routes.get j :: after.map routes.get ∧
        ∀ i, i ∈ before ↔ ListedBefore routes i j := by
  obtain ⟨before, after, hsplit⟩ := List.append_of_mem (mem_listingOrder j)
  refine ⟨before, after, ?_, fun i => ?_⟩
  · rw [← map_get_listingOrder, hsplit, List.map_append, List.map_cons]
  rw [listedBefore_iff_precedes valid]
  constructor
  · intro hi
    have hpairs := pairwise_listingOrder routes
    rw [hsplit] at hpairs
    exact (List.pairwise_append.mp hpairs).2.2 i hi j List.mem_cons_self
  · exact mem_before_of_precedes hsplit

end Route

/-! ## Reached rows -/

/-- **A route of a grouped tree is reached by some request if and only if none shadows it**, where no
two of the routes have the same method and path. -/
theorem Tree.grouped_reached_iff_not_shadowed {missing : α} {routes : List (Route α)}
    (valid : ∀ route ∈ routes, route.Valid)
    (distinct : (routes.map Route.endpoint).Nodup) (absent : missing ∉ routes.map Route.endpoint)
    (unrepeated : ∀ i j : Fin routes.length, (routes.get i).method = (routes.get j).method →
      (routes.get i).path = (routes.get j).path → i = j) (j : Fin routes.length) :
    (∃ method path, ((grouped missing routes).resolve method path).endpoint =
        (routes.get j).endpoint) ↔
      ∀ upper ∈ routes, ¬ Route.Shadows routes upper (routes.get j) := by
  obtain ⟨before, after, hsplit, hbefore⟩ := Route.exists_listing_split valid j
  have hvalid : (routes.get j).Valid := valid _ (routes.get_mem j)
  constructor
  · rintro ⟨method, path, hanswer⟩ upper hupper hshadows
    obtain ⟨i, rfl⟩ := List.get_of_mem hupper
    obtain ⟨hserves, hnone⟩ := first_to_serve_of_endpoint_eq valid distinct absent hsplit hanswer
    have hi : i ∈ before := (hbefore i).mpr hshadows.listedBefore
    exact hnone _ (List.mem_map_of_mem hi) (hshadows.covers.serves hserves)
  · intro hunshadowed
    let path := (routes.get j).freshPath routes
    have hnone : ∀ earlier ∈ before.map routes.get,
        ¬ earlier.Serves (routes.get j).method.name path := by
      intro earlier hearlier hserves
      obtain ⟨i, hi, rfl⟩ := List.mem_map.mp hearlier
      have hlisted := (hbefore i).mp hi
      have hcovers := Route.covers_of_serves_freshPath (routes.get_mem i) hvalid hserves
      have hpath : (routes.get i).path ≠ (routes.get j).path := by
        intro hsame
        obtain rfl := unrepeated i j hcovers.1 hsame
        rw [Route.listedBefore_iff_precedes valid] at hlisted
        exact hlisted.asymm hlisted
      exact hunshadowed _ (routes.get_mem i) (Route.shadows_of_covers hlisted hpath hcovers)
    refine ⟨(routes.get j).method.name, path, ?_⟩
    rw [resolve_grouped_of_first valid hsplit hnone rfl (Route.pieces?_freshPath routes hvalid)
      (Template.fits_filled _ _)]

namespace RouteTable

/-- No row of a table without problems has the method and the path of a later one. -/
theorem not_declaredAt_of_lt {table : RouteTable} (h : table.problems = []) {index : Nat}
    {row : TableRow} (hrow : table.rows[index]? = some row) {earlier : Nat}
    (hlt : earlier < index) : ¬ TableRow.DeclaredAt table.rows earlier row := by
  intro hdeclared
  obtain ⟨_, _, _, hproblem⟩ := exists_duplicate_iff.mpr ⟨row, hrow, earlier, hlt, hdeclared⟩
  rw [h] at hproblem
  cases hproblem

theorem unrepeated_of_problems {table : RouteTable} (h : table.problems = [])
    {routes : List (Route String)} (hrows : routes.map Route.row = table.rows)
    (i j : Fin routes.length) (hmethod : (routes.get i).method = (routes.get j).method)
    (hpath : (routes.get i).path = (routes.get j).path) : i = j := by
  have hrow : ∀ k : Fin routes.length, table.rows[k.val]? = some (routes.get k).row := by
    intro k
    rw [← hrows, List.getElem?_map, List.getElem?_eq_getElem k.isLt]
    rfl
  have hname := congrArg Method.name hmethod
  rcases lt_trichotomy i j with hlt | heq | hlt
  · exact absurd ⟨_, hrow i, hname, hpath⟩ (not_declaredAt_of_lt h (hrow j) hlt)
  · exact heq
  · exact absurd ⟨_, hrow j, hname.symm, hpath.symm⟩ (not_declaredAt_of_lt h (hrow i) hlt)

/-- **A row of an accepted table is reached by some request if and only if no row shadows it.** -/
theorem row_reached_iff_not_shadowed (table : RouteTable) (accepted : table.validated = .ok table)
    (distinct : (table.rows.map TableRow.endpoint).Nodup)
    (absent : table.missing ∉ table.rows.map TableRow.endpoint) :
    ∃ routes tree, table.flatRoutes = .ok routes ∧ table.tree = .ok tree ∧
      routes.map Route.row = table.rows ∧
      ∀ row ∈ routes, (∃ method path, (tree.resolve method path).endpoint = row.endpoint) ↔
        ∀ upper ∈ routes, ¬ Route.Shadows routes upper row := by
  have hproblems := validated_eq_ok_iff.mp accepted
  obtain ⟨routes, hroutes, hrows, valid, htree⟩ := exists_tree_of_problems hproblems
  refine ⟨routes, _, hroutes, htree, hrows, fun row hrow => ?_⟩
  have hendpoints : table.rows.map TableRow.endpoint = routes.map Route.endpoint := by
    rw [← hrows, List.map_map]
    rfl
  rw [hendpoints] at distinct absent
  obtain ⟨j, rfl⟩ := List.get_of_mem hrow
  exact Tree.grouped_reached_iff_not_shadowed valid distinct absent
    (unrepeated_of_problems hproblems hrows) j

end RouteTable

/-- A table that names its first parameter in two ways. The first row shadows the second one, but
not the third one, which has one segment. -/
def renamedTable : RouteTable :=
  ⟨"Missing",
    [⟨"GET", "/{a}/{y}", "Any"⟩, ⟨"GET", "/{b}/x", "Shadowed"⟩, ⟨"GET", "/{b}", "Short"⟩],
    ⟨"info"⟩⟩

theorem renamedTable_row_reached_iff_not_shadowed :
    (renamedTable.validated = .ok renamedTable ∧
        (renamedTable.rows.map TableRow.endpoint).Nodup ∧
        renamedTable.missing ∉ renamedTable.rows.map TableRow.endpoint) ∧
      ∃ routes tree, renamedTable.flatRoutes = .ok routes ∧ renamedTable.tree = .ok tree ∧
        routes.map Route.row = renamedTable.rows ∧
        ∀ row ∈ routes, (∃ method path, (tree.resolve method path).endpoint = row.endpoint) ↔
          ∀ upper ∈ routes, ¬ Route.Shadows routes upper row := by
  have accepted : renamedTable.validated = .ok renamedTable :=
    RouteTable.validated_eq_ok_iff.mpr (by decide)
  have distinct : (renamedTable.rows.map TableRow.endpoint).Nodup := by decide
  have absent : renamedTable.missing ∉ renamedTable.rows.map TableRow.endpoint := by decide
  exact ⟨⟨accepted, distinct, absent⟩,
    RouteTable.row_reached_iff_not_shadowed renamedTable accepted distinct absent⟩

/-- Not every row of an accepted table is reached, even if no endpoint is there twice. -/
theorem RouteTable.accepted_row_unreached :
    ¬ ∀ table : RouteTable, table.validated = .ok table →
      (table.rows.map TableRow.endpoint).Nodup →
      table.missing ∉ table.rows.map TableRow.endpoint →
      ∃ tree, table.tree = .ok tree ∧
        ∀ row ∈ table.rows, ∃ method path,
          (tree.resolve method path).endpoint = row.endpoint := by
  intro h
  let routes : List (Route String) :=
    [⟨.get, "/{a}/{y}", "Any"⟩, ⟨.get, "/{b}/x", "Shadowed"⟩, ⟨.get, "/{b}", "Short"⟩]
  have hproblems : renamedTable.problems = [] := by decide
  obtain ⟨tree, htree, hreached⟩ :=
    h renamedTable (validated_eq_ok_iff.mpr hproblems) (by decide) (by decide)
  obtain ⟨_, hroutes, hrows, hvalid, hgrouped⟩ := exists_tree_of_problems hproblems
  obtain rfl : routes = _ := Except.ok.inj hroutes
  obtain rfl := Except.ok.inj (hgrouped.symm.trans htree)
  have hshadows : Route.Shadows routes ⟨.get, "/{a}/{y}", "Any"⟩ ⟨.get, "/{b}/x", "Shadowed"⟩ :=
    ⟨rfl, [], "a", "b", [.param "y"], [.literal "x"], by decide, by decide,
      .cons (Or.inl rfl) .nil, by decide⟩
  exact (Tree.grouped_reached_iff_not_shadowed hvalid (by decide) (by decide)
    (unrepeated_of_problems hproblems hrows) ⟨1, by decide⟩).mp
      (hreached ⟨"GET", "/{b}/x", "Shadowed"⟩ (by decide)) _ (by decide) hshadows

end HttpRoutes
