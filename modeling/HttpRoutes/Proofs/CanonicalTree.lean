import HttpRoutes.Proofs.GroupedTree
import HttpRoutes.Proofs.Groups
import HttpRoutes.Proofs.Levels
import HttpRoutes.Proofs.TemplateText
import Mathlib.Data.List.Pairwise

/-!
# Canonical trees

A tree is canonical if it looks like one that grouping makes.

* `Branch.Canonical level` : what siblings are like there;
* `Branch.head?` : the segment of a node;
* `Branch.Canonical.contiguous`, `Branch.Canonical.of_inGroups` : the nodes of a canonical level
  stand in groups by their segments, each segment having one node;
* `Tree.Canonical`, `Tree.canonical_grouped` : the trees of routes are canonical.
-/

namespace HttpRoutes

variable {α : Type}

namespace Branch

def isLeaf : Branch α → Bool
  | leaf _ _ => true
  | _ => false

def isParam : Branch α → Bool
  | param _ _ => true
  | _ => false

def lead? : Branch α → Option String
  | path lead _ => some lead
  | _ => none

def name? : Branch α → Option String
  | param name _ => some name
  | _ => none

/-- A path node has the text of one segment and branches below it, and so has a parameter node the
name of one. -/
def WellFormed : Branch α → Prop
  | path lead below => (∃ text, Plain text ∧ lead = "/" ++ text) ∧ below ≠ []
  | param name below => (name ≠ "" ∧ Plain name) ∧ below ≠ []
  | leaf _ _ => True

/-- A level as grouping makes it: siblings are different, leaves stand together, and parameters
stand behind all else. -/
structure Canonical (level : List (Branch α)) : Prop where
  nodes : ∀ node ∈ level, node.WellFormed
  leads : (level.filterMap lead?).Nodup
  names : (level.filterMap name?).Nodup
  leaves : ∀ first between last, [first, between, last].Sublist level →
    first.isLeaf = true → last.isLeaf = true → between.isLeaf = true
  params : level.Pairwise fun earlier later => earlier.isParam = true → later.isParam = true

/-! ## Deciding it -/

theorem exists_plain_iff {lead : String} : (∃ text, Plain text ∧ lead = "/" ++ text) ↔
    lead.toList.head? = some '/' ∧ Plain (String.ofList lead.toList.tail) := by
  constructor
  · rintro ⟨text, hplain, rfl⟩
    simpa using hplain
  · rintro ⟨hslash, hplain⟩
    refine ⟨_, hplain, String.toList_inj.mp ?_⟩
    rw [List.eq_cons_of_mem_head? hslash]
    simp

instance : (node : Branch α) → Decidable node.WellFormed
  | path lead below =>
    have : Decidable (∃ text, Plain text ∧ lead = "/" ++ text) :=
      decidable_of_iff _ exists_plain_iff.symm
    have : Decidable (below ≠ []) := decidable_of_iff (below.isEmpty = false) (by simp)
    inferInstanceAs (Decidable (_ ∧ _))
  | param name below =>
    have : Decidable (below ≠ []) := decidable_of_iff (below.isEmpty = false) (by simp)
    inferInstanceAs (Decidable ((name ≠ "" ∧ Plain name) ∧ below ≠ []))
  | leaf _ _ => inferInstanceAs (Decidable True)

theorem forall_isLeaf_iff {level : List (Branch α)} :
    (∀ first between last, [first, between, last].Sublist level →
      first.isLeaf = true → last.isLeaf = true → between.isLeaf = true) ↔
    ∀ first between last, [first, between, last].Sublist (level.map isLeaf) →
      first = true → last = true → between = true := by
  constructor
  · intro h first between last hsub hfirst hlast
    obtain ⟨nodes, hnodes, hmap⟩ := List.sublist_map_iff.mp hsub
    obtain ⟨a, rest, rfl, rfl, hrest⟩ := List.map_eq_cons_iff.mp hmap.symm
    obtain ⟨b, back, rfl, rfl, hback⟩ := List.map_eq_cons_iff.mp hrest
    obtain ⟨c, others, rfl, rfl, hothers⟩ := List.map_eq_cons_iff.mp hback
    obtain rfl := List.map_eq_nil_iff.mp hothers
    exact h a b c hnodes hfirst hlast
  · exact fun h first between last hsub => h _ _ _ (hsub.map isLeaf)

instance (level : List (Branch α)) : Decidable (Canonical level) :=
  have : Decidable (∀ first between last, [first, between, last].Sublist level →
      first.isLeaf = true → last.isLeaf = true → between.isLeaf = true) :=
    decidable_of_iff _ forall_isLeaf_iff.symm
  decidable_of_iff
    ((∀ node ∈ level, node.WellFormed) ∧ (level.filterMap lead?).Nodup ∧
      (level.filterMap name?).Nodup ∧
      (∀ first between last, [first, between, last].Sublist level →
        first.isLeaf = true → last.isLeaf = true → between.isLeaf = true) ∧
      level.Pairwise fun earlier later => earlier.isParam = true → later.isParam = true)
    ⟨fun ⟨nodes, leads, names, leaves, params⟩ => ⟨nodes, leads, names, leaves, params⟩,
      fun h => ⟨h.nodes, h.leads, h.names, h.leaves, h.params⟩⟩

/-! ## The segments of nodes -/

/-- The segment of a node; a leaf has none. -/
def head? : Branch α → Option Segment
  | path lead _ => some (.literal (String.ofList lead.toList.tail))
  | param name _ => some (.param name)
  | leaf _ _ => none

theorem head?_branch (segment : Segment) (below : List (Branch α)) :
    (segment.branch below).head? = some segment := by
  cases segment <;> simp [Segment.branch, head?, Segment.render]

theorem isParamHead_head? (node : Branch α) : Pending.isParamHead node.head? = node.isParam := by
  cases node <;> rfl

theorem head?_eq_none_iff {node : Branch α} : node.head? = none ↔ node.isLeaf = true := by
  cases node <;> simp [head?, isLeaf]

theorem head?_of_lead? {node : Branch α} {lead : String} (h : node.lead? = some lead) :
    node.head? = some (.literal (String.ofList lead.toList.tail)) := by
  cases node with
  | path other _ => rw [head?, Option.some.inj h]
  | param _ _ => cases h
  | leaf _ _ => cases h

theorem head?_of_name? {node : Branch α} {name : String} (h : node.name? = some name) :
    node.head? = some (.param name) := by
  cases node with
  | path _ _ => cases h
  | param other _ => rw [head?, Option.some.inj h]
  | leaf _ _ => cases h

theorem wellFormed_branch {segment : Segment} (hsegment : segment.WellFormed)
    {below : List (Branch α)} (hbelow : below ≠ []) : (segment.branch below).WellFormed := by
  cases segment with
  | literal text => exact ⟨⟨text, hsegment, rfl⟩, hbelow⟩
  | param name => exact ⟨hsegment, hbelow⟩

theorem WellFormed.eq_branch {node : Branch α} (h : node.WellFormed) {segment : Segment}
    (hhead : node.head? = some segment) :
    segment.WellFormed ∧ node.children ≠ [] ∧ node = segment.branch node.children := by
  cases node with
  | path lead below =>
    obtain ⟨⟨text, hplain, rfl⟩, hbelow⟩ := h
    obtain rfl : Segment.literal text = segment := by simpa [head?] using hhead
    exact ⟨hplain, hbelow, rfl⟩
  | param name below =>
    obtain rfl := Option.some.inj hhead
    exact ⟨h.1, h.2, rfl⟩
  | leaf _ _ => cases hhead

/-- Two nodes of a canonical level that are no leaves have different segments. -/
theorem Canonical.pairwise_head? {level : List (Branch α)} (h : Canonical level) :
    level.Pairwise fun node other => ∀ segment, node.head? = some segment →
      other.head? ≠ some segment := by
  have hpairs := (List.pairwise_filterMap.mp h.leads).and (List.pairwise_filterMap.mp h.names)
  refine hpairs.imp_of_mem fun {node other} hnode hother hne segment hhead hhead' => ?_
  obtain ⟨hlead, hname⟩ := hne
  obtain ⟨-, -, hnode⟩ := (h.nodes node hnode).eq_branch hhead
  obtain ⟨-, -, hother⟩ := (h.nodes other hother).eq_branch hhead'
  rw [hnode, hother] at hlead hname
  cases segment with
  | literal text => exact hlead _ rfl _ rfl rfl
  | param name => exact hname _ rfl _ rfl rfl

theorem Canonical.filter_head? {level : List (Branch α)} (h : Canonical level) {node : Branch α}
    (hnode : node ∈ level) {segment : Segment} (hhead : node.head? = some segment) :
    level.filter (·.head? = some segment) = [node] := by
  have hpairs := h.pairwise_head?
  obtain ⟨before, after, rfl⟩ := List.append_of_mem hnode
  obtain ⟨-, hafter, hbefore⟩ := List.pairwise_append.mp hpairs
  have hfront : before.filter (·.head? = some segment) = [] := by
    refine List.filter_eq_nil_iff.mpr fun other hother heq => ?_
    exact hbefore other hother node List.mem_cons_self segment (of_decide_eq_true heq) hhead
  have hback : after.filter (·.head? = some segment) = [] := by
    refine List.filter_eq_nil_iff.mpr fun other hother heq => ?_
    exact (List.pairwise_cons.mp hafter).1 other hother segment hhead (of_decide_eq_true heq)
  rw [List.filter_append, hfront, List.filter_cons_of_pos (by simpa using hhead), hback]
  rfl

/-! ## Canonical levels as groups -/

theorem Canonical.contiguous {level : List (Branch α)} (h : Canonical level) :
    Contiguous head? level := by
  intro first between last hsub hkey
  cases hhead : first.head? with
  | none =>
    rw [hhead, head?_eq_none_iff] at hkey
    exact head?_eq_none_iff.mpr (h.leaves _ _ _ hsub (head?_eq_none_iff.mp hhead) hkey)
  | some segment =>
    have hpair : [first, last].Sublist level :=
      ((List.sublist_cons_self between [last]).cons_cons first).trans hsub
    exact absurd (hkey.trans hhead)
      (List.pairwise_iff_forall_sublist.mp h.pairwise_head? hpair segment hhead)

/-- In a canonical level the segments stand in the order that grouping gives them. -/
theorem Canonical.pairwise_isParamHead {level : List (Branch α)} (h : Canonical level) :
    (level.map head?).eraseDups.Pairwise fun earlier later =>
      Pending.isParamHead earlier → Pending.isParamHead later := by
  refine List.Pairwise.sublist (eraseDups_sublist _) (List.pairwise_map.mpr ?_)
  simp only [isParamHead_head?]
  exact h.params

section OfInGroups

variable {keys : List (Option Segment)} {group : Option Segment → List (Branch α)}

theorem pairwise_head?_of_inGroups (h : InGroups head? keys group)
    (hsingle : ∀ segment, some segment ∈ keys → ∃ node, group (some segment) = [node]) :
    (keys.flatMap group).Pairwise fun node other => ∀ segment, node.head? = some segment →
      other.head? ≠ some segment := by
  refine List.pairwise_flatMap.mpr ⟨fun k hk => ?_, ?_⟩
  · cases k with
    | none =>
      refine List.pairwise_of_forall_mem_list fun node hnode _ _ segment hhead => ?_
      rw [h.key_eq none hk node hnode] at hhead
      cases hhead
    | some segment =>
      obtain ⟨node, hnode⟩ := hsingle segment hk
      rw [hnode]
      exact List.pairwise_singleton _ _
  · refine h.nodup.imp_of_mem fun {k l} hk hl hne node hnode other hother segment hhead hhead' => ?_
    rw [h.key_eq k hk node hnode] at hhead
    rw [h.key_eq l hl other hother] at hhead'
    exact hne (hhead.trans hhead'.symm)

/-- Groups of one node for each segment, with a group of leaves, are a canonical level if parameters
are last. -/
theorem Canonical.of_inGroups (h : InGroups head? keys group)
    (hnodes : ∀ k ∈ keys, ∀ node ∈ group k, node.WellFormed)
    (hsingle : ∀ segment, some segment ∈ keys → ∃ node, group (some segment) = [node])
    (hparams : keys.Pairwise fun earlier later =>
      Pending.isParamHead earlier → Pending.isParamHead later) :
    Canonical (keys.flatMap group) := by
  have hdiffer := pairwise_head?_of_inGroups h hsingle
  refine ⟨fun node hnode => ?_, ?_, ?_, fun first between last hsub hfirst hlast => ?_, ?_⟩
  · obtain ⟨k, hk, hnode⟩ := List.mem_flatMap.mp hnode
    exact hnodes k hk node hnode
  · refine List.pairwise_filterMap.mpr (hdiffer.imp fun hne lead hlead other hother heq => ?_)
    subst heq
    exact hne _ (head?_of_lead? hlead) (head?_of_lead? hother)
  · refine List.pairwise_filterMap.mpr (hdiffer.imp fun hne name hname other hother heq => ?_)
    subst heq
    exact hne _ (head?_of_name? hname) (head?_of_name? hother)
  · rw [← head?_eq_none_iff] at hfirst hlast ⊢
    exact (h.contiguous first between last hsub (hlast.trans hfirst.symm)).trans hfirst
  · simp only [← isParamHead_head?]
    refine List.pairwise_flatMap.mpr ⟨fun k hk => ?_, ?_⟩
    · refine List.pairwise_of_forall_mem_list fun node hnode other hother hparam => ?_
      rwa [h.key_eq k hk other hother, ← h.key_eq k hk node hnode]
    · refine hparams.imp_of_mem fun {k l} hk hl hlater node hnode other hother hparam => ?_
      rw [h.key_eq k hk node hnode] at hparam
      rw [h.key_eq l hl other hother]
      exact hlater hparam

end OfInGroups

theorem canonical_of_isLeaf {leaves : List (Branch α)} (h : ∀ node ∈ leaves, node.isLeaf = true) :
    Canonical leaves := by
  have hleaf : ∀ node ∈ leaves, node.lead? = none ∧ node.name? = none ∧ node.isParam = false ∧
      node.WellFormed := by
    intro node hnode
    have := h node hnode
    cases node with
    | path _ _ => cases this
    | param _ _ => cases this
    | leaf _ _ => exact ⟨rfl, rfl, rfl, trivial⟩
  refine ⟨fun node hnode => (hleaf node hnode).2.2.2, ?_, ?_, fun _ _ _ hsub _ _ => ?_, ?_⟩
  · rw [List.filterMap_eq_nil_iff.mpr fun node hnode => (hleaf node hnode).1]
    exact List.nodup_nil
  · rw [List.filterMap_eq_nil_iff.mpr fun node hnode => (hleaf node hnode).2.1]
    exact List.nodup_nil
  · exact h _ (hsub.subset (by simp))
  · refine List.pairwise_of_forall_mem_list fun node hnode _ _ hparam => ?_
    rw [(hleaf node hnode).2.2.1] at hparam
    cases hparam

/-- All levels are canonical, from the one given down. -/
def CanonicalBelow (branches : List (Branch α)) : Prop :=
  ∀ level ∈ branches :: levelsAll branches, Canonical level

end Branch

/-! ## The levels of routes -/

namespace Pending

theorem isLeaf_of_mem_leaves {routes : List (Pending α)} :
    ∀ node ∈ routes.map leaf, node.isLeaf = true :=
  List.forall_mem_map.mpr fun _ _ => rfl

theorem levelsAll_leaves (routes : List (Pending α)) :
    Branch.levelsAll (routes.map leaf) = [] := by
  rw [Branch.levelsAll_eq_flatMap, List.flatMap_map]
  exact List.flatMap_eq_nil_iff.mpr fun _ _ => rfl

theorem wellFormed_of_mem_following {routes : List (Pending α)} (head : Segment)
    (h : ∀ route ∈ routes, ∀ segment ∈ route.segments, segment.WellFormed) :
    ∀ route ∈ following head routes, head.WellFormed ∧
      ∀ segment ∈ route.segments, segment.WellFormed := by
  intro route hroute
  obtain ⟨whole, hwhole, hsegments⟩ := mem_following hroute
  have hwf := h whole hwhole
  rw [hsegments] at hwf
  exact List.forall_mem_cons.mp hwf

theorem levelsAll_branch (segment : Segment) (below : List (Branch α)) :
    Branch.levelsAll [segment.branch below] = below :: Branch.levelsAll below := by
  cases segment <;> exact List.append_nil _

theorem level_ne_nil {depth : Nat} {routes : List (Pending α)} (hne : routes ≠ [])
    (hdepth : ∀ route ∈ routes, route.segments.length ≤ depth) : level depth routes ≠ [] := by
  intro hnil
  have hchains := chainsAll_level hdepth
  rw [hnil, Branch.chainsAll, eq_comm, List.map_eq_nil_iff] at hchains
  have hperm := arrange_perm segments depth routes
  rw [hchains] at hperm
  exact hne hperm.nil_eq.symm

theorem inGroups_group (depth : Nat) (routes : List (Pending α)) :
    InGroups Branch.head? (heads routes) (group depth routes) := by
  refine ⟨nodup_headOrder _, fun k hk node hnode => ?_, fun k hk => ?_⟩
  · cases k with
    | none => exact Branch.head?_eq_none_iff.mpr (isLeaf_of_mem_leaves node hnode)
    | some head =>
      obtain rfl := List.mem_singleton.mp hnode
      exact Branch.head?_branch head _
  · cases k with
    | none => exact fun hnil => following_ne_nil hk (List.map_eq_nil_iff.mp hnil)
    | some head => exact List.cons_ne_nil _ _

theorem pairwise_isParamHead_heads (routes : List (Pending α)) :
    (heads routes).Pairwise fun earlier later => isParamHead earlier → isParamHead later := by
  refine List.pairwise_append.mpr ⟨?_, ?_, ?_⟩
  · refine List.pairwise_of_forall_mem_list fun head hhead _ _ hparam => ?_
    simp [hparam] at hhead
  · exact List.pairwise_of_forall_mem_list fun _ _ _ hlater _ => (List.mem_filter.mp hlater).2
  · exact fun _ _ _ hlater _ => (List.mem_filter.mp hlater).2

theorem canonical_level_succ {depth : Nat} {routes : List (Pending α)}
    (h : ∀ head, some head ∈ heads routes →
      head.WellFormed ∧ level depth (following head routes) ≠ []) :
    Branch.Canonical (level (depth + 1) routes) := by
  rw [level_succ]
  refine Branch.Canonical.of_inGroups (inGroups_group depth routes) (fun k hk node hnode => ?_)
    (fun _ _ => ⟨_, rfl⟩) (pairwise_isParamHead_heads routes)
  cases k with
  | none => exact (Branch.canonical_of_isLeaf isLeaf_of_mem_leaves).nodes node hnode
  | some head =>
    obtain rfl := List.mem_singleton.mp hnode
    obtain ⟨hhead, hne⟩ := h head hk
    exact Branch.wellFormed_branch hhead hne

theorem exists_head_of_mem_levelsAll {depth : Nat} {routes : List (Pending α)}
    {deeper : List (Branch α)} (h : deeper ∈ Branch.levelsAll (level (depth + 1) routes)) :
    ∃ head : Segment, deeper ∈ level depth (following head routes) ::
      Branch.levelsAll (level depth (following head routes)) := by
  rw [level_succ, Branch.levelsAll_flatMap] at h
  obtain ⟨k, -, hdeeper⟩ := List.mem_flatMap.mp h
  cases k with
  | none =>
    rw [group, levelsAll_leaves] at hdeeper
    cases hdeeper
  | some head =>
    rw [group, levelsAll_branch] at hdeeper
    exact ⟨head, hdeeper⟩

/-- **Grouping makes canonical levels.** -/
theorem canonicalBelow_level {depth : Nat} {routes : List (Pending α)}
    (hwf : ∀ route ∈ routes, ∀ segment ∈ route.segments, segment.WellFormed)
    (hdepth : ∀ route ∈ routes, route.segments.length ≤ depth) :
    Branch.CanonicalBelow (level depth routes) := by
  induction depth generalizing routes with
  | zero =>
    rw [level, Branch.CanonicalBelow, levelsAll_leaves]
    exact List.forall_mem_singleton.mpr (Branch.canonical_of_isLeaf isLeaf_of_mem_leaves)
  | succ depth ih =>
    -- the level itself, then the levels of the routes that follow its heads
    refine List.forall_mem_cons.mpr ⟨canonical_level_succ fun head hhead => ?_, ?_⟩
    · have hne := following_ne_nil hhead
      obtain ⟨route, hroute⟩ := List.exists_mem_of_ne_nil _ hne
      exact ⟨(wellFormed_of_mem_following head hwf route hroute).1,
        level_ne_nil hne (length_le_of_mem_following head hdepth)⟩
    · intro deeper hdeeper
      obtain ⟨head, hdeeper⟩ := exists_head_of_mem_levelsAll hdeeper
      refine ih (fun route hroute => ?_) (length_le_of_mem_following head hdepth) deeper hdeeper
      exact (wellFormed_of_mem_following head hwf route hroute).2

/-- Routes that go on leave no leaves on their level. -/
theorem isLeaf_eq_false_of_mem_level {depth : Nat} {routes : List (Pending α)}
    (h : ∀ route ∈ routes, route.segments ≠ [])
    (hdepth : ∀ route ∈ routes, route.segments.length ≤ depth) :
    ∀ node ∈ level depth routes, node.isLeaf = false := by
  intro node hnode
  cases depth with
  | zero =>
    obtain ⟨route, hroute, -⟩ := List.mem_map.mp hnode
    have hnil := List.length_eq_zero_iff.mp (Nat.le_zero.mp (hdepth route hroute))
    exact absurd hnil (h route hroute)
  | succ depth =>
    rw [level_succ] at hnode
    obtain ⟨k, hk, hnode⟩ := List.mem_flatMap.mp hnode
    cases k with
    | none =>
      obtain ⟨route, hroute, hend⟩ := mem_heads_iff.mp hk
      exact absurd (List.head?_eq_none_iff.mp hend) (h route hroute)
    | some head =>
      obtain rfl := List.mem_singleton.mp hnode
      cases head <;> rfl

end Pending

/-! ## Canonical trees -/

/-- A tree as grouping makes it: its levels are canonical, and no leaf is at the top. -/
structure Tree.Canonical (tree : Tree α) : Prop where
  top : ∀ node ∈ tree.branches, node.isLeaf = false
  levels : ∀ level ∈ tree.levels, Branch.Canonical level

instance (tree : Tree α) : Decidable tree.Canonical :=
  decidable_of_iff
    ((∀ node ∈ tree.branches, node.isLeaf = false) ∧ ∀ level ∈ tree.levels, Branch.Canonical level)
    ⟨fun ⟨top, levels⟩ => ⟨top, levels⟩, fun h => ⟨h.top, h.levels⟩⟩

theorem Tree.canonical_grouped (missing : α) {routes : List (Route α)}
    (h : ∀ route ∈ routes, route.Valid) : (Tree.grouped missing routes).Canonical := by
  constructor
  · refine Pending.isLeaf_eq_false_of_mem_level (List.forall_mem_map.mpr fun route hroute => ?_)
      fun _ => Pending.length_le_maxDepth
    exact (Template.parse_eq_ok_iff.mp (h route hroute).parse).1
  · refine Pending.canonicalBelow_level (List.forall_mem_map.mpr fun route hroute => ?_) fun _ =>
      Pending.length_le_maxDepth
    exact (h route hroute).wellFormed

end HttpRoutes
