import HttpRoutes.Proofs.Arrangement
import Mathlib.Data.List.Induction

/-!
# The groups of a level

The pass over the routes of a level makes one group of each head, in the order in which the heads
first occur, and each group holds the routes with its head in their order.

* `addToGroup_map` : what an item more does to groups with different keys;
* `foldl_addToGroup` : the groups that a pass makes of items;
* `Pending.heads routes`, `Pending.following head routes` : the heads of routes in the order of
  their branches, and the routes that go on behind one of them;
* `Pending.orderedGroups_eq` : the pass makes these groups;
* `Pending.level_succ` : the branches of a level, head by head.
-/

namespace HttpRoutes

/-! ## One pass over items -/

theorem eraseDups_concat {κ : Type} [BEq κ] [LawfulBEq κ] (keys : List κ) (key : κ) :
    (keys ++ [key]).eraseDups = if key ∈ keys then keys.eraseDups else keys.eraseDups ++ [key] := by
  rw [List.eraseDups_append]
  split
  · next hmem => simp [List.removeAll, hmem]
  · next hnew => simp [List.removeAll, hnew, List.eraseDups_cons]

section Pass

variable {β γ κ : Type} [BEq κ] [LawfulBEq κ] [DecidableEq κ]

/-- An item more goes behind the others of its key, and the other groups stay as they are. -/
theorem addToGroup_map {keys : List κ} {key : κ} {group : κ → List β} (item : β)
    (hnodup : keys.Nodup) (hnew : key ∉ keys → group key = []) :
    addToGroup key item (keys.map fun k => (k, group k)) =
      (if key ∈ keys then keys else keys ++ [key]).map fun k =>
        (k, if k = key then group k ++ [item] else group k) := by
  induction keys with
  | nil => simp [addToGroup, hnew List.not_mem_nil]
  | cons first keys ih =>
    obtain ⟨hfirst, hnodup⟩ := List.nodup_cons.mp hnodup
    by_cases hkey : first = key
    · subst hkey
      have hothers : ∀ k ∈ keys, (k, if k = first then group k ++ [item] else group k) =
          (k, group k) := by
        intro k hk
        rw [if_neg fun h : k = first => hfirst (h ▸ hk)]
      simp only [List.map_cons, addToGroup, if_true, List.mem_cons_self,
        List.map_congr_left hothers]
    · have hrest := ih hnodup fun hnotMem => hnew (by simp [Ne.symm hkey, hnotMem])
      simp only [List.map_cons, addToGroup, if_neg hkey, hrest, List.mem_cons, Ne.symm hkey,
        false_or]
      split <;> simp [hkey]

/-- **One pass makes one group of each key,** in the order in which the keys first occur. -/
theorem foldl_addToGroup (key : β → κ) (f : β → γ) (items : List β) :
    items.foldl (fun groups item => addToGroup (key item) (f item) groups) [] =
      (items.map key).eraseDups.map fun k => (k, (items.filter (key · = k)).map f) := by
  -- from the last item: it is in the group of its key and in no other
  induction items using List.reverseRecOn with
  | nil => rfl
  | append_singleton items item ih =>
    have hnew : key item ∉ (items.map key).eraseDups →
        (items.filter (key · = key item)).map f = [] := by
      intro hnotMem
      rw [List.mem_eraseDups] at hnotMem
      rw [List.map_eq_nil_iff, List.filter_eq_nil_iff]
      intro other hother hsame
      exact hnotMem (List.mem_map.mpr ⟨other, hother, of_decide_eq_true hsame⟩)
    rw [List.foldl_append, ih, List.foldl_cons, List.foldl_nil,
      addToGroup_map (f item) (nodup_eraseDups _) hnew, List.map_append, List.map_singleton,
      eraseDups_concat]
    simp only [List.mem_eraseDups]
    refine List.map_congr_left fun k _ => ?_
    rw [List.filter_append, List.map_append]
    by_cases hk : key item = k
    · simp [hk]
    · simp [hk, Ne.symm hk]

end Pass

namespace Pending

variable {α : Type}

/-! ## The groups of routes -/

/-- The heads of routes, each once: in the order of their first occurrence, but parameters last. -/
def heads (routes : List (Pending α)) : List (Option Segment) :=
  headOrder (routes.map (·.segments.head?))

/-- The routes that go on with `head`, without it, or those that end here. -/
def following (head : Option Segment) (routes : List (Pending α)) : List (Pending α) :=
  (routes.filter (·.segments.head? = head)).map tail

theorem mem_heads_iff {routes : List (Pending α)} {head : Option Segment} :
    head ∈ heads routes ↔ ∃ route ∈ routes, route.segments.head? = head := by
  rw [heads, mem_headOrder, List.mem_map]

theorem groups_eq (routes : List (Pending α)) :
    groups routes = (routes.map (·.segments.head?)).eraseDups.map fun head =>
      (head, following head routes) :=
  foldl_addToGroup (fun route : Pending α => route.segments.head?) tail routes

/-- **A level has one group for each of its heads.** -/
theorem orderedGroups_eq (routes : List (Pending α)) :
    orderedGroups routes = (heads routes).map fun head => (head, following head routes) := by
  rw [orderedGroups, groups_eq, List.partition_eq_filter_filter, List.filter_map, List.filter_map]
  exact List.map_append.symm

theorem following_ne_nil {routes : List (Pending α)} {head : Option Segment}
    (h : head ∈ heads routes) : following head routes ≠ [] := by
  obtain ⟨route, hroute, hhead⟩ := mem_heads_iff.mp h
  exact List.ne_nil_of_mem
    (List.mem_map_of_mem (List.mem_filter.mpr ⟨hroute, decide_eq_true hhead⟩))

/-- A route that goes on with a head comes from one that has this head more. -/
theorem mem_following {routes : List (Pending α)} {head : Segment} {route : Pending α}
    (h : route ∈ following head routes) :
    ∃ whole ∈ routes, whole.segments = head :: route.segments := by
  obtain ⟨whole, hwhole, rfl⟩ := List.mem_map.mp h
  obtain ⟨hwhole, hhead⟩ := List.mem_filter.mp hwhole
  exact ⟨whole, hwhole, List.eq_cons_of_mem_head? (of_decide_eq_true hhead)⟩

theorem length_le_of_mem_following {depth : Nat} {routes : List (Pending α)} (head : Segment)
    (h : ∀ route ∈ routes, route.segments.length ≤ depth + 1) :
    ∀ route ∈ following head routes, route.segments.length ≤ depth := by
  intro route hroute
  obtain ⟨whole, hwhole, hsegments⟩ := mem_following hroute
  have hlength := h whole hwhole
  rw [hsegments, List.length_cons] at hlength
  omega

theorem following_none (routes : List (Pending α)) :
    following none routes = routes.filter (·.segments.head? = none) := by
  refine (List.map_congr_left fun route hroute => ?_).trans (List.map_id _)
  have hend := List.head?_eq_none_iff.mp (of_decide_eq_true (List.mem_filter.mp hroute).2)
  rw [tail, hend, List.tail_nil, ← hend]
  rfl

theorem segments_eq_nil_of_mem_following {routes : List (Pending α)} {route : Pending α}
    (h : route ∈ following none routes) : route.segments = [] := by
  rw [following_none] at h
  exact List.head?_eq_none_iff.mp (of_decide_eq_true (List.mem_filter.mp h).2)

/-! ## The branches of a level -/

/-- The branches that grouping makes of one head. -/
def group (depth : Nat) (routes : List (Pending α)) : Option Segment → List (Branch α)
  | none => (following none routes).map leaf
  | some head => [head.branch (level depth (following head routes))]

theorem level_succ (depth : Nat) (routes : List (Pending α)) :
    level (depth + 1) routes = (heads routes).flatMap (group depth routes) := by
  rw [level, orderedGroups_eq, List.flatMap_map]
  refine List.flatMap_congr fun head _ => ?_
  cases head <;> rfl

end Pending

end HttpRoutes
