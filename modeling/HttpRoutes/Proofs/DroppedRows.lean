import HttpRoutes.Proofs.GroupedResolution

/-!
# Dropping rows from a list of routes

Where rows are dropped, the others keep their order in the listing, as long as no head loses its
place: a dropped row that stands above a kept one leaves a kept row with its template above itself.

* `Spares key p items` : no head loses its place when only the items with `p` are kept;
* `Precedes.filter`, `filter_arrange` : the kept items stand in the order in which they stood;
* `Route.keep routes p` : the routes at the positions with `p` (`Route.arranged_keep`);
* `Tree.resolve_keep` : when a request is answered as before.
-/

namespace HttpRoutes

variable {α : Type}

/-! ## Items that are kept -/

section Order

variable {ι κ : Type} [Preorder ι] {key : ι → Template} {p : ι → Bool} {items : List ι}

/-- Of the items only those with `p` are kept. If one that is dropped stands before one that is
kept, then the template of the former is also that of a kept item, which stands no later. -/
def Spares (key : ι → Template) (p : ι → Bool) (items : List ι) : Prop :=
  ∀ dropped ∈ items, p dropped = false → ∀ kept ∈ items, p kept → dropped < kept →
    ∃ other ∈ items, p other ∧ other ≤ dropped ∧ key other = key dropped

theorem Spares.filter (h : Spares key p items) (q : Template → Bool) :
    Spares key p (items.filter fun item => q (key item)) := by
  intro dropped hdropped hpdropped kept hkept hpkept hlt
  obtain ⟨hdropped, hq⟩ := List.mem_filter.mp hdropped
  obtain ⟨other, hother, hpother, hle, hkey⟩ :=
    h dropped hdropped hpdropped kept (List.mem_filter.mp hkept).1 hpkept hlt
  exact ⟨other, List.mem_filter.mpr ⟨hother, by rw [hkey]; exact hq⟩, hpother, hle, hkey⟩

/-- What stands before all items with some head still does, if one of these is kept. -/
theorem OccursBefore.filter (head : Template → κ) (hspares : Spares key p items)
    {first second : κ} (h : OccursBefore items (fun item => head (key item)) first second) {j : ι}
    (hj : j ∈ items) (hkept : p j) (hsecond : head (key j) = second) :
    OccursBefore (items.filter p) (fun item => head (key item)) first second := by
  obtain ⟨item, hitem, hfirst, hall⟩ := h
  have hall' : ∀ other ∈ items.filter p, head (key other) = second → item < other :=
    fun other hother => hall other (List.mem_filter.mp hother).1
  cases hp : p item with
  | true => exact ⟨item, List.mem_filter.mpr ⟨hitem, hp⟩, hfirst, hall'⟩
  | false =>
    obtain ⟨instead, hinstead, hp', hle, hkey⟩ :=
      hspares item hitem hp j hj hkept (hall j hj hsecond)
    refine ⟨instead, List.mem_filter.mpr ⟨hinstead, hp'⟩, (congrArg head hkey).trans hfirst, ?_⟩
    exact fun other hother hother' => lt_of_le_of_lt hle (hall' other hother hother')

theorem Precedes.filter (hspares : Spares key p items) {i j : ι} (hj : j ∈ items) (hkept : p j)
    (h : Precedes key items i j) : Precedes key (items.filter p) i j := by
  rcases h with hsame | ⟨k, hagree, hdiffer, hhead⟩
  · exact Or.inl hsame
  refine Or.inr ⟨k, hagree, hdiffer, ?_⟩
  rcases hhead with hkind | ⟨hkind, hoccurs⟩
  · exact Or.inl hkind
  refine Or.inr ⟨hkind, ?_⟩
  rw [List.filter_comm]
  have hj' : j ∈ items.filter fun m => (key m).take k = (key i).take k :=
    List.mem_filter.mpr ⟨hj, by simp [hagree]⟩
  exact OccursBefore.filter (fun template => template[k]?)
    (hspares.filter fun template => template.take k = (key i).take k) hoccurs hj' hkept rfl

/-- **Kept items are grouped into the order in which they stood among all items.** Both orders are
permutations of the kept items that put each two of them in the same way. -/
theorem filter_arrange {depth depth' : Nat} (hsorted : items.Pairwise (· < ·))
    (hdepth : ∀ item ∈ items, (key item).length ≤ depth)
    (hdepth' : ∀ item ∈ items.filter p, (key item).length ≤ depth')
    (hspares : Spares key p items) :
    (arrange key depth items).filter p = arrange key depth' (items.filter p) := by
  have hmem : ∀ item ∈ (arrange key depth items).filter p, item ∈ items ∧ p item := by
    intro item hitem
    obtain ⟨hitem, hp⟩ := List.mem_filter.mp hitem
    exact ⟨mem_arrange.mp hitem, hp⟩
  have hkept : ((arrange key depth items).filter p).Pairwise (Precedes key (items.filter p)) := by
    refine ((pairwise_arrange hsorted hdepth).filter p).imp_of_mem fun {i j} _ hj hbefore => ?_
    obtain ⟨hj, hp⟩ := hmem j hj
    exact hbefore.filter hspares hj hp
  have hperm : ((arrange key depth items).filter p).Perm (arrange key depth' (items.filter p)) :=
    ((arrange_perm key depth items).filter p).trans (arrange_perm key depth' _).symm
  refine hperm.eq_of_pairwise (fun i j _ _ hbefore hafter => ?_) hkept
    (pairwise_arrange (hsorted.filter p) hdepth')
  exact absurd hafter hbefore.asymm

end Order

/-! ## Routes that are kept -/

namespace Route

/-- The routes at the positions where `p` holds, in the order of the list. -/
def keep (routes : List (Route α)) (p : Fin routes.length → Bool) : List (Route α) :=
  ((List.finRange routes.length).filter p).map routes.get

theorem mem_of_mem_keep {routes : List (Route α)} {p : Fin routes.length → Bool} {route : Route α}
    (h : route ∈ keep routes p) : route ∈ routes := by
  obtain ⟨i, -, rfl⟩ := List.mem_map.mp h
  exact routes.get_mem i

/-- **The routes that are kept are listed in the order of all routes.** -/
theorem arranged_keep {routes : List (Route α)} {p : Fin routes.length → Bool}
    (hspares : Spares (fun m => (routes.get m).template) p (List.finRange routes.length)) :
    arranged (keep routes p) = ((listingOrder routes).filter p).map routes.get := by
  have hdepth : ∀ m ∈ (List.finRange routes.length).filter p,
      (routes.get m).template.length ≤ Pending.maxDepth ((keep routes p).map pending) :=
    fun m hm => length_template_le (List.mem_map_of_mem hm)
  rw [listingOrder, filter_arrange (List.pairwise_lt_finRange routes.length)
    (fun m _ => length_template_le (routes.get_mem m)) hdepth hspares, ← arrange_map]
  rfl

end Route

/-- **Where the first row that serves a request is kept, the request is answered as before.** -/
theorem Tree.resolve_keep (missing : α) {routes : List (Route α)} {p : Fin routes.length → Bool}
    (method path : String) (valid : ∀ route ∈ routes, route.Valid)
    (hspares : Spares (fun m => (routes.get m).template) p (List.finRange routes.length))
    (hfirst : ∀ before i after, Route.listingOrder routes = before ++ i :: after →
      (∀ earlier ∈ before, ¬ (routes.get earlier).Serves method path) →
        (routes.get i).Serves method path → p i) :
    (grouped missing (Route.keep routes p)).resolve method path =
      (grouped missing routes).resolve method path := by
  have hvalid : ∀ route ∈ Route.keep routes p, route.Valid := fun route hroute =>
    valid route (Route.mem_of_mem_keep hroute)
  have hkept := Route.arranged_keep hspares
  have harranged := Route.map_get_listingOrder routes
  rcases exists_first_or_none (fun i => (routes.get i).Serves method path)
    (Route.listingOrder routes) with ⟨before, i, after, hsplit, hbefore, hserves⟩ | hnone
  · have hp : p i := hfirst before i after hsplit hbefore hserves
    obtain ⟨hmethod, pieces, hpieces, hfits⟩ := hserves
    rw [hsplit, List.map_append, List.map_cons] at harranged
    rw [hsplit, List.filter_append, List.filter_cons_of_pos hp, List.map_append,
      List.map_cons] at hkept
    have hkeptBefore : ∀ earlier ∈ (before.filter p).map routes.get,
        ¬ earlier.Serves method path :=
      List.forall_mem_map.mpr fun m hm => hbefore m (List.mem_filter.mp hm).1
    rw [resolve_grouped_of_first hvalid hkept hkeptBefore hmethod hpieces hfits,
      resolve_grouped_of_first valid harranged.symm (List.forall_mem_map.mpr hbefore) hmethod
        hpieces hfits]
  · have hkeptNone : ∀ row ∈ Route.arranged (Route.keep routes p), ¬ row.Serves method path := by
      rw [hkept]
      exact List.forall_mem_map.mpr fun m hm => hnone m (List.mem_filter.mp hm).1
    have hallNone : ∀ row ∈ Route.arranged routes, ¬ row.Serves method path := by
      rw [← harranged]
      exact List.forall_mem_map.mpr hnone
    rw [resolve_grouped_of_none hvalid hkeptNone, resolve_grouped_of_none valid hallNone]

end HttpRoutes
