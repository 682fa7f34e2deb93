import HttpRoutes.Proofs.DroppedRows
import HttpRoutes.Proofs.OrderIndependence

/-!
# Appending rows to a list of routes

Rows behind a list find their places in the listing between the rows of the list, which they do not
move. So a request that gets another answer because of them gets it from one of them.

* `Route.keep_append` : the rows of the list are kept, those behind it are not;
* `Route.arranged_sublist_append` : the listing of the list is in that of the longer one;
* `Tree.resolve_append` : what the longer list answers;
* `Tree.appended_rows_answer_for_themselves` : both for the trees of the two lists.
-/

namespace HttpRoutes

variable {α : Type}

theorem filter_val_lt_map_get {β : Type} (items : List β) (n : Nat) :
    ((List.finRange items.length).filter fun i => i.val < n).map items.get = items.take n := by
  induction items generalizing n with
  | nil => simp
  | cons item items ih =>
    have hpositions : List.finRange (item :: items).length =
        ⟨0, Nat.succ_pos _⟩ :: (List.finRange items.length).map Fin.succ := List.finRange_succ
    cases n with
    | zero => simp
    | succ n =>
      rw [hpositions, List.filter_cons_of_pos (by simp), List.map_cons, List.filter_map, List.map_map,
        List.take_succ_cons, ← ih n]
      simp [Function.comp_def]

namespace Route

/-- The position is one in the list `routes`, and not in what is appended to it. -/
def isWithin (routes : List (Route α)) {n : Nat} (i : Fin n) : Bool :=
  i.val < routes.length

theorem keep_append (routes extra : List (Route α)) :
    keep (routes ++ extra) (isWithin routes) = routes := by
  rw [keep]
  exact (filter_val_lt_map_get (routes ++ extra) routes.length).trans List.take_left

/-- What is appended stands before nothing in the list, so that no head loses its place without
it. -/
theorem spares_append (routes extra : List (Route α)) :
    Spares (fun m => ((routes ++ extra).get m).template) (isWithin routes)
      (List.finRange (routes ++ extra).length) := by
  intro dropped _ hdropped kept _ hkept hlt
  have hout : routes.length ≤ dropped.val := by simpa [isWithin] using hdropped
  have hin : kept.val < routes.length := by simpa [isWithin] using hkept
  rw [Fin.lt_def] at hlt
  omega

theorem arranged_sublist_append (routes extra : List (Route α)) :
    (arranged routes).Sublist (arranged (routes ++ extra)) := by
  have hkept := arranged_keep (spares_append routes extra)
  rw [keep_append] at hkept
  rw [hkept, ← map_get_listingOrder (routes ++ extra)]
  exact List.filter_sublist.map _

theorem get_mem_of_not_isWithin {routes extra : List (Route α)} {i : Fin (routes ++ extra).length}
    (h : isWithin routes i = false) : (routes ++ extra).get i ∈ extra := by
  have hout : routes.length ≤ i.val := by simpa [isWithin] using h
  rw [List.get_eq_getElem, List.getElem_append_right hout]
  exact List.getElem_mem _

end Route

namespace Tree

/-- The first row that serves a request is one of the list, and then that of the list alone, or it
has been appended. -/
theorem resolve_append (missing : α) {routes extra : List (Route α)}
    (valid : ∀ route ∈ routes ++ extra, route.Valid) (method path : String) :
    (grouped missing (routes ++ extra)).resolve method path =
        (grouped missing routes).resolve method path ∨
      ∃ row ∈ extra, (grouped missing (routes ++ extra)).AnswersWith method path row := by
  by_cases hextra : ∃ row ∈ extra, (grouped missing (routes ++ extra)).AnswersWith method path row
  · exact Or.inr hextra
  left
  have hkeep := resolve_keep missing method path valid (Route.spares_append routes extra)
  rw [Route.keep_append] at hkeep
  refine (hkeep fun before i after hsplit hbefore hserves => ?_).symm
  cases hwithin : Route.isWithin routes i with
  | true => rfl
  | false =>
    refine absurd ⟨_, Route.get_mem_of_not_isWithin hwithin, ?_⟩ hextra
    obtain ⟨hmethod, pieces, hpieces, hfits⟩ := hserves
    have harranged := Route.map_get_listingOrder (routes ++ extra)
    rw [hsplit, List.map_append, List.map_cons] at harranged
    exact ⟨hmethod, pieces, hpieces, hfits, resolve_grouped_of_first valid harranged.symm
      (List.forall_mem_map.mpr hbefore) hmethod hpieces hfits⟩

/-- **Appended rows answer for themselves only:** a request is answered as without them, or by one
of them that fits it. -/
theorem appended_rows_answer_for_themselves (missing : α) (routes extra : List (Route α))
    (valid : ∀ route ∈ routes ++ extra, validatePath route.path = .ok ()) :
    ∃ tree longer, Tree.ofRoutes missing routes = .ok tree ∧
      Tree.ofRoutes missing (routes ++ extra) = .ok longer ∧
      tree.routes.Sublist longer.routes ∧
      ∀ method path,
        (longer.resolve method path = tree.resolve method path ∨
          ∃ row ∈ extra, longer.AnswersWith method path row) ∧
        ((∀ row ∈ extra, ¬ row.Serves method path) →
          longer.resolve method path = tree.resolve method path) := by
  have hvalid : ∀ route ∈ routes, route.Valid := fun route hroute =>
    valid route (List.mem_append_left extra hroute)
  refine ⟨grouped missing routes, grouped missing (routes ++ extra),
    ofRoutes_eq_ok missing hvalid, ofRoutes_eq_ok missing valid, ?_, fun method path => ?_⟩
  · rw [routes_grouped missing hvalid, routes_grouped missing valid]
    exact Route.arranged_sublist_append routes extra
  · have hanswer := resolve_append missing valid method path
    refine ⟨hanswer, fun hnone => hanswer.resolve_right ?_⟩
    rintro ⟨row, hrow, hmethod, pieces, hpieces, hfits, -⟩
    exact hnone row hrow ⟨hmethod, pieces, hpieces, hfits⟩

/-- Rows of which the first is listed in front of the parameters of `usersTable`. -/
def laterRows : List (Route String) :=
  [⟨.get, "/users/all", "All"⟩, ⟨.get, "/users/{name}/{tab}", "Tab"⟩]

theorem usersTable_appended_rows_answer_for_themselves :
    ((∀ route ∈ usersTable ++ laterRows, validatePath route.path = .ok ()) ∧
        ∀ row ∈ laterRows, ¬ row.Serves "GET" "/users/me") ∧
      ∃ tree longer, Tree.ofRoutes "Missing" usersTable = .ok tree ∧
        Tree.ofRoutes "Missing" (usersTable ++ laterRows) = .ok longer ∧
        tree.routes.Sublist longer.routes ∧
        (∀ method path, longer.resolve method path = tree.resolve method path ∨
          ∃ row ∈ laterRows, longer.AnswersWith method path row) ∧
        longer.resolve "GET" "/users/me" = tree.resolve "GET" "/users/me" := by
  have valid : ∀ route ∈ usersTable ++ laterRows, validatePath route.path = .ok () := by decide
  have hvalid : ∀ row ∈ laterRows, row.Valid := fun row hrow =>
    valid row (List.mem_append_right usersTable hrow)
  have hnone : ∀ row ∈ laterRows, ¬ row.Serves "GET" "/users/me" := by
    intro row hrow
    rw [← Route.hit?_chain_eq_none_iff (hvalid row hrow)]
    revert row
    decide
  obtain ⟨tree, longer, htree, hlonger, hlisted, hanswer⟩ :=
    appended_rows_answer_for_themselves "Missing" usersTable laterRows valid
  exact ⟨⟨valid, hnone⟩, tree, longer, htree, hlonger, hlisted,
    fun method path => (hanswer method path).1, (hanswer "GET" "/users/me").2 hnone⟩

end Tree

end HttpRoutes
