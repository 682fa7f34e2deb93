import HttpRoutes.Proofs.Arrangement

/-!
# Items that stand in groups

Grouping undoes itself on items that are grouped already: that is why a tree can be found again in
its listing.

* `Contiguous key items` : items with one key stand together;
* `InGroups key keys group` : groups with different keys, one behind the other;
* `InGroups.filter_flatMap`, `InGroups.eraseDups_map` : the groups and their order, taken from the
  items;
* `inGroups_filter`, `Contiguous.flatMap_filter`, `InGroups.contiguous` : items stand together if
  and only if they stand in groups.
-/

namespace HttpRoutes

variable {β κ : Type}

theorem filter_append_filter_of_pairwise {p : β → Bool} {items : List β}
    (h : items.Pairwise fun earlier later => p earlier → p later) :
    items.filter (!p ·) ++ items.filter p = items := by
  induction items with
  | nil => rfl
  | cons item items ih =>
    obtain ⟨hitem, hrest⟩ := List.pairwise_cons.mp h
    by_cases hp : p item
    · have hall : ∀ later ∈ items, p later := fun later hlater => hitem later hlater hp
      rw [List.filter_cons_of_neg (by simp [hp]), List.filter_cons_of_pos hp,
        List.filter_eq_self.mpr hall, List.filter_eq_nil_iff.mpr (by simpa using hall)]
      rfl
    · rw [List.filter_cons_of_pos (by simp [hp]), List.filter_cons_of_neg hp, List.cons_append,
        ih hrest]

theorem eraseDups_sublist [BEq κ] : ∀ keys : List κ, keys.eraseDups.Sublist keys
  | [] => by simp
  | first :: rest => by
    have hshort := List.length_filter_le (!· == first) rest
    rw [List.eraseDups_cons]
    exact ((eraseDups_sublist _).trans List.filter_sublist).cons_cons first
termination_by keys => keys.length
decreasing_by rw [List.length_cons]; omega

/-! ## Groups one behind the other -/

/-- Items that stand in groups, each of them under its key: `keys` are different, and no group is
empty. -/
structure InGroups (key : β → κ) (keys : List κ) (group : κ → List β) : Prop where
  nodup : keys.Nodup
  key_eq : ∀ k ∈ keys, ∀ item ∈ group k, key item = k
  ne_nil : ∀ k ∈ keys, group k ≠ []

section InGroups

variable {key : β → κ} {keys : List κ} {group : κ → List β}

theorem InGroups.cons {first : κ} (h : InGroups key (first :: keys) group) :
    (∀ item ∈ group first, key item = first) ∧ (∀ item ∈ keys.flatMap group, key item ≠ first) ∧
      InGroups key keys group := by
  obtain ⟨hfirst, hnodup⟩ := List.nodup_cons.mp h.nodup
  obtain ⟨hhere, hthere⟩ := List.forall_mem_cons.mp h.key_eq
  refine ⟨hhere, fun item hitem heq => hfirst ?_, hnodup, hthere,
    (List.forall_mem_cons.mp h.ne_nil).2⟩
  obtain ⟨k, hk, hitem⟩ := List.mem_flatMap.mp hitem
  rwa [← heq, hthere k hk item hitem]

/-- The items of a group are those with its key. -/
theorem InGroups.filter_flatMap [DecidableEq κ] (h : InGroups key keys group) {k : κ}
    (hk : k ∈ keys) : (keys.flatMap group).filter (key · = k) = group k := by
  induction keys with
  | nil => cases hk
  | cons first keys ih =>
    obtain ⟨hhere, hthere, hrest⟩ := h.cons
    rw [List.flatMap_cons, List.filter_append]
    by_cases hk' : k = first
    · subst hk'
      have hself : (group k).filter (key · = k) = group k :=
        List.filter_eq_self.mpr fun item hitem => decide_eq_true (hhere item hitem)
      have hnone : (keys.flatMap group).filter (key · = k) = [] :=
        List.filter_eq_nil_iff.mpr fun item hitem => by simpa using hthere item hitem
      rw [hself, hnone, List.append_nil]
    · have hnone : (group first).filter (key · = k) = [] := by
        refine List.filter_eq_nil_iff.mpr fun item hitem h => hk' ?_
        rw [← of_decide_eq_true h, hhere item hitem]
      rw [hnone, List.nil_append, ih hrest (List.mem_of_ne_of_mem hk' hk)]

/-- The keys of items first occur in the order of the groups. -/
theorem InGroups.eraseDups_map [BEq κ] [LawfulBEq κ] (h : InGroups key keys group) :
    ((keys.flatMap group).map key).eraseDups = keys := by
  induction keys with
  | nil => simp
  | cons first keys ih =>
    obtain ⟨hhere, hthere, hrest⟩ := h.cons
    obtain ⟨item, items, hgroup⟩ := List.exists_cons_of_ne_nil (h.ne_nil first List.mem_cons_self)
    rw [hgroup] at hhere
    obtain ⟨hitem, hitems⟩ := List.forall_mem_cons.mp hhere
    have hskip : (items.map key).filter (!· == first) = [] :=
      List.filter_eq_nil_iff.mpr (List.forall_mem_map.mpr fun other hother => by
        simp [hitems other hother])
    have hkeep : ((keys.flatMap group).map key).filter (!· == first) =
        (keys.flatMap group).map key :=
      List.filter_eq_self.mpr (List.forall_mem_map.mpr fun other hother => by
        simpa using hthere other hother)
    rw [List.flatMap_cons, hgroup, List.cons_append, List.map_cons, hitem, List.eraseDups_cons,
      List.map_append, List.filter_append, hskip, hkeep, List.nil_append, ih hrest]

theorem headOrder_eq_of_inGroups {key : β → Option Segment} {keys : List (Option Segment)}
    {group : Option Segment → List β} (h : InGroups key keys group)
    (hparams : keys.Pairwise fun earlier later =>
      Pending.isParamHead earlier → Pending.isParamHead later) :
    headOrder ((keys.flatMap group).map key) = keys := by
  rw [headOrder, h.eraseDups_map, filter_append_filter_of_pairwise hparams]

end InGroups

/-! ## Items that stand together -/

/-- Between two items with one key there are only items with that key. -/
def Contiguous (key : β → κ) (items : List β) : Prop :=
  ∀ first between last, [first, between, last].Sublist items → key last = key first →
    key between = key first

theorem Contiguous.sublist {key : β → κ} {items others : List β} (h : Contiguous key items)
    (hsub : others.Sublist items) : Contiguous key others :=
  fun first between last hthree => h first between last (hthree.trans hsub)

theorem InGroups.contiguous {key : β → κ} {keys : List κ} {group : κ → List β}
    (h : InGroups key keys group) : Contiguous key (keys.flatMap group) := by
  induction keys with
  | nil => exact fun _ _ _ hsub => nomatch hsub
  | cons k keys ih =>
    obtain ⟨hhere, hthere, hrest⟩ := h.cons
    intro first between last hsub hkey
    rw [List.flatMap_cons] at hsub
    obtain ⟨front, back, hsplit, hfront, hback⟩ := List.sublist_append_iff.mp hsub
    -- either all three stand in the first group or all three behind it
    match front, hsplit with
    | [], hsplit =>
      rw [List.nil_append] at hsplit
      exact ih hrest first between last (hsplit ▸ hback) hkey
    | [a], hsplit | [a, b], hsplit =>
      simp only [List.cons_append, List.nil_append, List.cons.injEq] at hsplit
      have hfirst : key first = k := hhere first (hfront.subset (by simp [hsplit]))
      have hlast : last ∈ back := by simp [← hsplit]
      exact absurd (hkey.trans hfirst) (hthere last (hback.subset hlast))
    | a :: b :: c :: front, hsplit =>
      simp only [List.cons_append, List.cons.injEq] at hsplit
      obtain ⟨rfl, rfl, -⟩ := hsplit
      rw [hhere _ (hfront.subset (by simp)), hhere _ (hfront.subset (by simp))]

variable [BEq κ] [LawfulBEq κ] [DecidableEq κ]

theorem inGroups_filter (key : β → κ) (items : List β) :
    InGroups key (items.map key).eraseDups fun k => items.filter (key · = k) := by
  refine ⟨nodup_eraseDups _, fun k _ item hitem => ?_, fun k hk hnil => ?_⟩
  · exact of_decide_eq_true (List.mem_filter.mp hitem).2
  · obtain ⟨item, hitem, rfl⟩ := List.mem_map.mp (List.mem_eraseDups.mp hk)
    exact List.filter_eq_nil_iff.mp hnil item hitem (decide_eq_true rfl)

/-- Once the key of the first item is left, it does not come back. -/
theorem Contiguous.filter_append_filter {key : β → κ} {first : β} {rest : List β}
    (h : Contiguous key (first :: rest)) :
    (first :: rest).filter (key · = key first) ++ rest.filter (!key · == key first) =
      first :: rest := by
  have hpairs : rest.Pairwise fun earlier later =>
      !key earlier == key first → !key later == key first := by
    refine List.pairwise_iff_forall_sublist.mpr fun {earlier later} hsub hne => ?_
    have hback := h first earlier later (hsub.cons_cons first)
    simp only [Bool.not_eq_true', beq_eq_false_iff_ne] at hne ⊢
    exact mt hback hne
  have hsame : rest.filter (key · = key first) = rest.filter (!!key · == key first) := by
    refine List.filter_congr fun item _ => ?_
    rw [Bool.not_not, Bool.beq_eq_decide_eq]
  rw [List.filter_cons_of_pos (by simp), List.cons_append, hsame,
    filter_append_filter_of_pairwise hpairs]

/-- **Items that stand together are their groups one behind the other.** -/
theorem Contiguous.flatMap_filter {key : β → κ} : ∀ {items : List β}, Contiguous key items →
    ((items.map key).eraseDups.flatMap fun k => items.filter (key · = k)) = items
  | [], _ => by simp
  | first :: rest, h => by
    have hshort := List.length_filter_le (!key · == key first) rest
    have hmap : (rest.map key).filter (!· == key first) =
        (rest.filter (!key · == key first)).map key := by
      rw [List.filter_map]
      rfl
    have hothers : Contiguous key (rest.filter (!key · == key first)) :=
      h.sublist (List.filter_sublist.cons first)
    have hgroups : ∀ k ∈ ((rest.filter (!key · == key first)).map key).eraseDups,
        (first :: rest).filter (key · = k) =
          (rest.filter (!key · == key first)).filter (key · = k) := by
      intro k hk
      obtain ⟨item, hitem, rfl⟩ := List.mem_map.mp (List.mem_eraseDups.mp hk)
      have hne : key item ≠ key first := by simpa using (List.mem_filter.mp hitem).2
      rw [List.filter_cons_of_neg (by simpa using hne.symm), List.filter_filter]
      refine List.filter_congr fun other _ => ?_
      by_cases hother : key other = key item <;> simp [hother, hne]
    rw [List.map_cons, List.eraseDups_cons, hmap, List.flatMap_cons, List.flatMap_congr hgroups,
      hothers.flatMap_filter, h.filter_append_filter]
termination_by items => items.length
decreasing_by rw [List.length_cons]; omega

end HttpRoutes
