import HttpRoutes.Proofs.GroupedResolution

/-!
# The order of a list of routes

Grouping settles most of what the order of a list says, so two lists of the same routes resolve
alike as soon as they agree on the rest: on which of several parameter names comes first behind the
same segments, and on the order of the routes with one method and one path.

* `Template.namesAfter lead templates` : the names behind `lead`, in the order of their first
  occurrence;
* `SameTies` : two lists agree on what grouping leaves open; a group of one and the group of the
  other again do (`SameTies.group`);
* `findSome?_arrange_of_cons` : the groups of a level in which a piece can be found;
* `SameTies.findSome?_arrange_eq` : the search through grouped items has one result for both lists;
* `Route.pairwise_arranged` : behind the same segments no parameter is tried before a literal;
* `Tree.resolution_independent_of_order` : what this says of the trees of two lists.
-/

namespace HttpRoutes

variable {α : Type}

/-! ## First occurrences -/

theorem findSome?_flatMap {β γ κ : Type} (f : β → Option γ) (group : κ → List β) (keys : List κ) :
    (keys.flatMap group).findSome? f = keys.findSome? fun k => (group k).findSome? f := by
  induction keys with
  | nil => rfl
  | cons k keys ih =>
    rw [List.flatMap_cons, List.findSome?_append, List.findSome?_cons, ih]
    cases (group k).findSome? f <;> rfl

/-- Where only one key can give a result, a search gives what that key gives. -/
theorem findSome?_eq_of_only {γ κ : Type} {f : κ → Option γ} {keys : List κ} (key : κ)
    (honly : ∀ k ∈ keys, k ≠ key → f k = none) (habsent : key ∉ keys → f key = none) :
    keys.findSome? f = f key := by
  induction keys with
  | nil => exact (habsent List.not_mem_nil).symm
  | cons k keys ih =>
    have honly' := fun l hl => honly l (List.mem_cons_of_mem k hl)
    rw [List.findSome?_cons]
    by_cases hk : k = key
    · subst hk
      cases hf : f k with
      | some c => rfl
      | none =>
        refine List.findSome?_eq_none_iff.mpr fun l hl => ?_
        by_cases hl' : l = k
        · rw [hl', hf]
        · exact honly' l hl hl'
    · rw [honly k List.mem_cons_self hk]
      exact ih honly' fun hmem => habsent (by simp [Ne.symm hk, hmem])

/-- The first occurrences of images are the images of first occurrences, if different keys have
different images. -/
theorem eraseDups_filterMap {κ μ : Type} [BEq κ] [LawfulBEq κ] [BEq μ] [LawfulBEq μ]
    {f : κ → Option μ} (hinj : ∀ k l m, f k = some m → f l = some m → k = l) :
    ∀ keys : List κ, (keys.filterMap f).eraseDups = keys.eraseDups.filterMap f
  | [] => by simp
  | k :: keys => by
    have hshort := List.length_filter_le (!· == k) keys
    rw [List.eraseDups_cons]
    cases hk : f k with
    | none =>
      rw [List.filterMap_cons_none hk, List.filterMap_cons_none hk,
        ← eraseDups_filterMap hinj (keys.filter (!· == k)), List.filterMap_filter]
      congr 1
      refine List.filterMap_congr fun l _ => ?_
      by_cases hl : l = k <;> simp [hl, hk]
    | some m =>
      rw [List.filterMap_cons_some hk, List.filterMap_cons_some hk, List.eraseDups_cons,
        ← eraseDups_filterMap hinj (keys.filter (!· == k)), List.filterMap_filter,
        List.filter_filterMap]
      congr 2
      refine List.filterMap_congr fun l _ => ?_
      by_cases hl : l = k
      · simp [hl, hk]
      · have hne : f l ≠ some m := fun h => hl (hinj l k m h hk)
        cases hfl : f l with
        | none => simp [hl]
        | some m' =>
          have hm : m' ≠ m := fun h => hne (by rw [hfl, h])
          simp [hl, hm]
termination_by keys => keys.length
decreasing_by all_goals rw [List.length_cons]; omega

theorem eq_of_perm_of_unique {β : Type} {items others : List β} (perm : items.Perm others)
    (unique : ∀ item ∈ items, ∀ other ∈ items, item = other) : items = others := by
  cases items with
  | nil => exact perm.nil_eq
  | cons item rest =>
    have hall : item :: rest = List.replicate (rest.length + 1) item :=
      List.eq_replicate_iff.mpr ⟨rfl, fun other hother =>
        unique other hother item List.mem_cons_self⟩
    rw [hall] at perm ⊢
    exact (List.perm_replicate.mp perm.symm).symm

/-! ## Names behind segments -/

def Segment.name? : Segment → Option String
  | literal _ => none
  | param name => some name

namespace Template

/-- The name of the parameter with which a template goes on behind the segments `lead`. -/
def nameAfter? (lead template : Template) : Option String :=
  (lead.isPrefixOf? template).bind fun rest => rest.head?.bind Segment.name?

/-- The names of the parameters that stand directly behind `lead` in some templates, in the order
in which they first occur. -/
def namesAfter (lead : Template) (templates : List Template) : List String :=
  (templates.filterMap (nameAfter? lead)).eraseDups

theorem nameAfter?_cons (head : Segment) (lead template : Template) :
    nameAfter? (head :: lead) template =
      if template.head? = some head then nameAfter? lead template.tail else none := by
  cases template with
  | nil => rfl
  | cons segment rest =>
    by_cases hsegment : segment = head
    · subst hsegment
      simp [nameAfter?, List.isPrefixOf?]
    · simp [nameAfter?, List.isPrefixOf?, hsegment, Ne.symm hsegment]

theorem nameAfter?_eq_none {lead template : Template}
    (h : ∀ segment ∈ template, segment.isParam = false) : nameAfter? lead template = none := by
  unfold nameAfter?
  cases hrest : lead.isPrefixOf? template with
  | none => rfl
  | some rest =>
    have hsplit := List.isPrefixOf?_eq_some_iff_append_eq.mp hrest
    cases rest with
    | nil => rfl
    | cons segment rest =>
      have hsegment := h segment (by rw [← hsplit]; simp)
      cases segment with
      | literal text => rfl
      | param name => cases hsegment

end Template

section Ties

variable {β γ : Type}

/-- Two lists of items agree on what grouping takes from the order of a list: on which names come
first behind some segments, and on the items of one template that `f` has a result for. -/
structure SameTies (key : β → Template) (f : β → Option γ) (first second : List β) : Prop where
  names : ∀ lead, Template.namesAfter lead (first.map key) =
    Template.namesAfter lead (second.map key)
  items : ∀ template, first.filter (fun item => (f item).isSome ∧ key item = template) =
    second.filter fun item => (f item).isSome ∧ key item = template

theorem namesAfter_group (key : β → Template) (head : Segment) (lead : Template) (items : List β) :
    Template.namesAfter lead ((items.filter fun item => (key item).head? = some head).map
        fun item => (key item).tail) =
      Template.namesAfter (head :: lead) (items.map key) := by
  rw [Template.namesAfter, Template.namesAfter, List.filterMap_map, List.filterMap_map,
    List.filterMap_filter]
  congr 1
  refine List.filterMap_congr fun item _ => ?_
  simp only [Function.comp_apply, Template.nameAfter?_cons, decide_eq_true_eq]

theorem SameTies.group {key : β → Template} {f : β → Option γ} {first second : List β}
    (h : SameTies key f first second) (head : Segment) :
    SameTies (fun item => (key item).tail) f
      (first.filter fun item => (key item).head? = some head)
      (second.filter fun item => (key item).head? = some head) := by
  refine ⟨fun lead => ?_, fun template => ?_⟩
  · rw [namesAfter_group, namesAfter_group, h.names]
  · have hkey : ∀ items : List β, (items.filter fun item => (key item).head? = some head).filter
        (fun item => (f item).isSome ∧ (key item).tail = template) =
          items.filter fun item => (f item).isSome ∧ key item = head :: template := by
      intro items
      rw [List.filter_filter]
      refine List.filter_congr fun item _ => ?_
      rw [← Bool.decide_and, decide_eq_decide]
      cases key item <;> simp [and_comm, and_assoc]
    rw [hkey, hkey, h.items]

theorem findSome?_filter_of_isSome {f : β → Option γ} {p : β → Bool} {items : List β}
    (h : ∀ item ∈ items, (f item).isSome → p item) :
    (items.filter p).findSome? f = items.findSome? f := by
  induction items with
  | nil => rfl
  | cons item items ih =>
    have ih := ih fun other hother => h other (List.mem_cons_of_mem item hother)
    rw [List.filter_cons, List.findSome?_cons]
    split
    · rw [List.findSome?_cons, ih]
    · next hp =>
      have hnone : f item = none :=
        Option.not_isSome_iff_eq_none.mp fun hsome => hp (h item List.mem_cons_self hsome)
      rw [hnone, ih]

/-- What a search finds in one group of a level. -/
def groupFind? (f : β → Option γ) (key : β → Template) (depth : Nat) (items : List β)
    (head : Option Segment) : Option γ :=
  (arrange (fun item => (key item).tail) depth
    (items.filter fun item => (key item).head? = head)).findSome? f

theorem groupFind?_eq_none {f : β → Option γ} {key : β → Template} {depth : Nat} {items : List β}
    {head : Option Segment} (h : ∀ item ∈ items, (key item).head? = head → f item = none) :
    groupFind? f key depth items head = none := by
  rw [groupFind?, List.findSome?_eq_none_iff]
  intro item hitem
  obtain ⟨hitem, hhead⟩ := List.mem_filter.mp (mem_arrange.mp hitem)
  exact h item hitem (of_decide_eq_true hhead)

theorem findSome?_arrange_succ (f : β → Option γ) (key : β → Template) (depth : Nat)
    (items : List β) :
    (arrange key (depth + 1) items).findSome? f =
      (headOrder (items.map fun item => (key item).head?)).findSome?
        (groupFind? f key depth items) := by
  rw [arrange, findSome?_flatMap]
  rfl

/-- Where only items without segments are found, grouping does not matter. -/
theorem findSome?_arrange_of_nil {f : β → Option γ} {key : β → Template} {items : List β}
    (depth : Nat) (hnil : ∀ item ∈ items, (f item).isSome → key item = []) :
    (arrange key depth items).findSome? f = items.findSome? f := by
  cases depth with
  | zero => rfl
  | succ depth =>
    rw [findSome?_arrange_succ, findSome?_eq_of_only none]
    · rw [groupFind?, arrange_of_key_nil]
      · refine findSome?_filter_of_isSome fun item hitem hsome => ?_
        simp [hnil item hitem hsome]
      · intro item hitem
        have hhead := of_decide_eq_true (List.mem_filter.mp hitem).2
        rw [List.head?_eq_none_iff.mp hhead, List.tail_nil]
    · intro head _ hhead
      refine groupFind?_eq_none fun item hitem heq => ?_
      refine Option.not_isSome_iff_eq_none.mp fun hsome => hhead ?_
      rw [← heq, hnil item hitem hsome, List.head?_nil]
    · intro habsent
      refine groupFind?_eq_none fun item hitem heq => absurd ?_ habsent
      exact mem_headOrder.mpr (List.mem_map.mpr ⟨item, hitem, heq⟩)

def paramHeadName? (head : Option Segment) : Option String :=
  head.bind Segment.name?

theorem namesAfter_nil (templates : List Template) :
    Template.namesAfter [] templates =
      (templates.map List.head?).eraseDups.filterMap paramHeadName? := by
  have hinj : ∀ k l m, paramHeadName? k = some m → paramHeadName? l = some m → k = l := by
    intro k l m hk hl
    obtain ⟨first, rfl, hfirst⟩ := Option.bind_eq_some_iff.mp hk
    obtain ⟨second, rfl, hsecond⟩ := Option.bind_eq_some_iff.mp hl
    cases first <;> cases second <;> simp_all [Segment.name?]
  rw [← eraseDups_filterMap hinj, List.filterMap_map]
  rfl

theorem findSome?_filter_isParamHead (f : Option Segment → Option γ)
    (heads : List (Option Segment)) :
    (heads.filter Pending.isParamHead).findSome? f =
      (heads.filterMap paramHeadName?).findSome? fun name => f (some (.param name)) := by
  induction heads with
  | nil => rfl
  | cons head heads ih =>
    match head with
    | none => exact ih
    | some (.literal _) => exact ih
    | some (.param name) =>
      rw [List.filter_cons_of_pos (by rfl), List.filterMap_cons_some (by rfl),
        List.findSome?_cons, List.findSome?_cons, ih]

/-- The only groups of a level in which a piece of a path can be found are that of the literal
which is the piece, and behind it those of the parameters. -/
theorem findSome?_arrange_of_cons {f : β → Option γ} {key : β → Template} {items : List β}
    {piece : List Char} {pieces : List (List Char)} (depth : Nat)
    (hfits : ∀ item ∈ items, (f item).isSome →
      List.Forall₂ Segment.Fits (key item) (piece :: pieces)) :
    (arrange key (depth + 1) items).findSome? f =
      (groupFind? f key depth items (some (.literal (String.ofList piece)))).or
        ((Template.namesAfter [] (items.map key)).findSome? fun name =>
          groupFind? f key depth items (some (.param name))) := by
  have hother : ∀ head, Pending.isParamHead head = false →
      head ≠ some (.literal (String.ofList piece)) → groupFind? f key depth items head = none := by
    intro head hparam hne
    refine groupFind?_eq_none fun item hitem heq => ?_
    refine Option.not_isSome_iff_eq_none.mp fun hsome => ?_
    have hitem := hfits item hitem hsome
    cases hkey : key item with
    | nil => rw [hkey] at hitem; cases hitem
    | cons segment rest =>
      rw [hkey] at hitem heq
      obtain ⟨hsegment, -⟩ := List.forall₂_cons.mp hitem
      subst heq
      cases segment with
      | literal text =>
        apply hne
        rw [hsegment, String.ofList_toList]
        rfl
      | param name => cases hparam
  rw [findSome?_arrange_succ, headOrder, List.findSome?_append]
  congr 1
  · apply findSome?_eq_of_only
    · intro head hhead hne
      exact hother head (by simpa using (List.mem_filter.mp hhead).2) hne
    · intro habsent
      refine groupFind?_eq_none fun item hitem heq => absurd ?_ habsent
      refine List.mem_filter.mpr ⟨List.mem_eraseDups.mpr (List.mem_map.mpr ⟨item, hitem, heq⟩), rfl⟩
  · rw [namesAfter_nil, List.map_map]
    exact findSome?_filter_isParamHead _ _

theorem fits_tail_of_group {f : β → Option γ} {key : β → Template} {items : List β}
    {piece : List Char} {pieces : List (List Char)} (head : Segment)
    (hfits : ∀ item ∈ items, (f item).isSome →
      List.Forall₂ Segment.Fits (key item) (piece :: pieces)) :
    ∀ item ∈ items.filter fun item => (key item).head? = some head, (f item).isSome →
      List.Forall₂ Segment.Fits (key item).tail pieces := by
  intro item hitem hsome
  have hitem := hfits item (List.mem_filter.mp hitem).1 hsome
  cases hkey : key item with
  | nil => rw [hkey] at hitem; cases hitem
  | cons segment rest => rw [hkey] at hitem; exact (List.forall₂_cons.mp hitem).2

/-- **The search for what fits the pieces of a path has one result in two lists that agree on
ties.** -/
theorem SameTies.findSome?_arrange_eq {f : β → Option γ} {key : β → Template}
    {first second : List β} {pieces : List (List Char)} {depth : Nat}
    (h : SameTies key f first second)
    (hfirst : ∀ item ∈ first, (f item).isSome → List.Forall₂ Segment.Fits (key item) pieces)
    (hsecond : ∀ item ∈ second, (f item).isSome → List.Forall₂ Segment.Fits (key item) pieces)
    (hdepth : pieces.length ≤ depth) :
    (arrange key depth first).findSome? f = (arrange key depth second).findSome? f := by
  induction pieces generalizing key first second depth with
  | nil =>
    have hnil : ∀ items : List β,
        (∀ item ∈ items, (f item).isSome → List.Forall₂ Segment.Fits (key item) []) →
          (arrange key depth items).findSome? f =
            (items.filter fun item => (f item).isSome ∧ key item = []).findSome? f := by
      intro items hitems
      have hkey : ∀ item ∈ items, (f item).isSome → key item = [] := fun item hitem hsome =>
        List.forall₂_nil_right_iff.mp (hitems item hitem hsome)
      rw [findSome?_arrange_of_nil depth hkey, findSome?_filter_of_isSome]
      exact fun item hitem hsome => by simp [hsome, hkey item hitem hsome]
    rw [hnil first hfirst, hnil second hsecond, h.items]
  | cons piece pieces ih =>
    obtain ⟨depth, rfl⟩ := Nat.exists_eq_add_one.mpr (Nat.lt_of_lt_of_le (Nat.succ_pos _) hdepth)
    -- the group of a literal and those of the parameters are searched, and they agree on ties again
    have hgroup : ∀ head : Segment, groupFind? f key depth first (some head) =
        groupFind? f key depth second (some head) := fun head =>
      ih (h.group head) (fits_tail_of_group head hfirst) (fits_tail_of_group head hsecond)
        (by simpa using hdepth)
    rw [findSome?_arrange_of_cons depth hfirst, findSome?_arrange_of_cons depth hsecond, hgroup,
      h.names []]
    congr 2
    funext name
    exact hgroup _

end Ties

theorem Precedes.isParamHead {ι : Type} [Preorder ι] {key : ι → Template} {items : List ι} {i j : ι}
    {k : Nat} (h : Precedes key items i j) (hagree : (key i).take k = (key j).take k)
    (hparam : Pending.isParamHead (key i)[k]? = true) :
    Pending.isParamHead (key j)[k]? = true := by
  rcases h with ⟨hkey, -⟩ | ⟨l, hl⟩
  · rwa [← hkey]
  · rcases Nat.lt_or_eq_of_le (hl.le_of_agree hagree) with hlt | rfl
    · have hsame := congrArg (·[k]?) hl.agree
      simp only [List.getElem?_take, hlt, if_true] at hsame
      rwa [← hsame]
    · rcases hl.headBefore with ⟨hother, -⟩ | ⟨hkind, -⟩
      · rw [hparam] at hother
        cases hother
      · rwa [← hkind]

theorem Pending.maxDepth_eq_of_perm {first second : List (Pending α)} (h : first.Perm second) :
    maxDepth first = maxDepth second := by
  induction h with
  | nil => rfl
  | cons route _ ih => exact congrArg (max route.segments.length) ih
  | swap route other rest => exact Nat.max_left_comm _ _ _
  | trans _ _ ih ih' => exact ih.trans ih'

namespace Route

/-- The names of the parameters that stand directly behind `lead` in some routes, in the order in
which they first occur. -/
def namesAfter (lead : Template) (routes : List (Route α)) : List String :=
  Template.namesAfter lead (routes.map template)

/-- The routes with a method and a path, in the order of the list. -/
def withKey (method : Method) (path : String) (routes : List (Route α)) : List (Route α) :=
  routes.filter fun route => route.method = method ∧ route.path = path

/-- Behind the same segments no route that goes on with a parameter is listed before one that does
not. -/
theorem pairwise_arranged (routes : List (Route α)) :
    (arranged routes).Pairwise fun row later => ∀ k,
      row.template.take k = later.template.take k →
        Pending.isParamHead row.template[k]? = true →
          Pending.isParamHead later.template[k]? = true := by
  rw [← map_get_listingOrder, List.pairwise_map]
  exact (pairwise_listingOrder routes).imp fun hbefore k => hbefore.isParamHead

/-- Routes with one template that one request hits have the same method and the same path. -/
theorem key_eq_of_hits {row other : Route α} (hrow : row.Valid) (hother : other.Valid)
    {method path : String} (hhit : (row.chain.hit? method path.toList).isSome)
    (hhit' : (other.chain.hit? method path.toList).isSome)
    (htemplate : other.template = row.template) :
    other.method = row.method ∧ other.path = row.path := by
  obtain ⟨hit, hhit⟩ := Option.isSome_iff_exists.mp hhit
  obtain ⟨hit', hhit'⟩ := Option.isSome_iff_exists.mp hhit'
  have hname := ((hit?_chain_eq_some_iff hrow).mp hhit).1
  have hname' := ((hit?_chain_eq_some_iff hother).mp hhit').1
  refine ⟨Method.name_inj (hname'.trans hname.symm), ?_⟩
  rw [← hother.render, htemplate, hrow.render]

/-- Permuted lists of routes that agree on names and on the routes of one method and path agree on
ties, whatever the request. -/
theorem sameTies {first second : List (Route α)} (valid : ∀ route ∈ first, route.Valid)
    (perm : first.Perm second) (names : ∀ lead, namesAfter lead first = namesAfter lead second)
    (keyed : ∀ method path, withKey method path first = withKey method path second)
    (method path : String) :
    SameTies template (fun row => row.chain.hit? method path.toList) first second := by
  refine ⟨names, fun target => ?_⟩
  let found : Route α → Prop := fun row =>
    (row.chain.hit? method path.toList).isSome ∧ row.template = target
  by_cases hfound : ∃ row ∈ first, found row
  · obtain ⟨row, hrow, hhit, htarget⟩ := hfound
    -- whatever is found for `target` has the method and the path of `row`
    have hwith : ∀ routes : List (Route α), (∀ other ∈ routes, other ∈ first) →
        (routes.filter fun other => found other) =
          (withKey row.method row.path routes).filter fun other => found other := by
      intro routes hmem
      rw [withKey, List.filter_filter]
      refine List.filter_congr fun other hother => ?_
      rw [← Bool.decide_and, decide_eq_decide]
      refine ⟨fun h => ⟨h, ?_⟩, And.left⟩
      exact key_eq_of_hits (valid row hrow) (valid other (hmem other hother)) hhit h.1
        (h.2.trans htarget.symm)
    exact (hwith first fun _ h => h).trans
      ((congrArg _ (keyed row.method row.path)).trans
        (hwith second fun _ h => perm.mem_iff.mpr h).symm)
  · have hnone : ∀ routes : List (Route α), (∀ other ∈ routes, other ∈ first) →
        (routes.filter fun other => found other) = [] := by
      intro routes hmem
      refine List.filter_eq_nil_iff.mpr fun other hother h => hfound ?_
      exact ⟨other, hmem other hother, of_decide_eq_true h⟩
    exact (hnone first fun _ h => h).trans (hnone second fun _ h => perm.mem_iff.mpr h).symm

/-- All routes that a request hits fit the same pieces, of which there are no more than segments. -/
theorem exists_pieces_of_hits {routes : List (Route α)} (valid : ∀ route ∈ routes, route.Valid)
    (method path : String) :
    ∃ pieces : List (List Char), pieces.length ≤ Pending.maxDepth (routes.map pending) ∧
      ∀ row ∈ routes, (row.chain.hit? method path.toList).isSome →
        List.Forall₂ Segment.Fits row.template pieces := by
  by_cases hfound : ∃ row ∈ routes, (row.chain.hit? method path.toList).isSome
  · obtain ⟨row, hrow, hsome⟩ := hfound
    obtain ⟨hit, hhit⟩ := Option.isSome_iff_exists.mp hsome
    obtain ⟨-, pieces, hpieces, hfits, -⟩ := (hit?_chain_eq_some_iff (valid row hrow)).mp hhit
    refine ⟨pieces, hfits.length_eq ▸ length_template_le hrow, fun other hother hsome => ?_⟩
    obtain ⟨hit, hhit⟩ := Option.isSome_iff_exists.mp hsome
    obtain ⟨-, pieces', hpieces', hfits', -⟩ :=
      (hit?_chain_eq_some_iff (valid other hother)).mp hhit
    obtain rfl := Option.some.inj (hpieces.symm.trans hpieces')
    exact hfits'
  · exact ⟨[], Nat.zero_le _, fun row hrow hsome => absurd ⟨row, hrow, hsome⟩ hfound⟩

end Route

namespace Tree

theorem resolve_grouped_eq_of_perm (missing : α) {first second : List (Route α)}
    (valid : ∀ route ∈ first, route.Valid) (perm : first.Perm second)
    (names : ∀ lead, Route.namesAfter lead first = Route.namesAfter lead second)
    (keyed : ∀ method path, Route.withKey method path first = Route.withKey method path second)
    (method path : String) :
    (grouped missing first).resolve method path = (grouped missing second).resolve method path := by
  have hdepth := Pending.maxDepth_eq_of_perm (perm.map Route.pending)
  obtain ⟨pieces, hlength, hfits⟩ := Route.exists_pieces_of_hits valid method path
  have hfind := (Route.sameTies valid perm names keyed method path).findSome?_arrange_eq hfits
    (fun row hrow => hfits row (perm.mem_iff.mpr hrow)) hlength
  rw [resolve_grouped, resolve_grouped, Route.arranged, Route.arranged, ← hdepth, hfind]

/-- A row serves a request, and the answer of a tree is what this row gives: its endpoint, and its
parameters bound from left to right. -/
def AnswersWith (tree : Tree α) (method path : String) (row : Route α) : Prop :=
  row.method.name = method ∧ ∃ pieces, pieces? path = some pieces ∧
    List.Forall₂ Segment.Fits row.template pieces ∧
    tree.resolve method path =
      ⟨row.endpoint, (row.template.captured pieces).foldl addBinding []⟩

theorem literal_answers_before_param (missing : α) {routes : List (Route α)}
    (valid : ∀ route ∈ routes, route.Valid) {literal param : Route α} {k : Nat} {text name : String}
    (hliteral : literal ∈ routes)
    (hagree : literal.template.take k = param.template.take k)
    (htext : literal.template[k]? = some (.literal text))
    (hname : param.template[k]? = some (.param name)) {method path : String}
    (hserves : literal.Serves method path) :
    ∃ row ∈ routes, (grouped missing routes).AnswersWith method path row ∧
      row.template.take (k + 1) ≠ param.template.take (k + 1) := by
  have hlisted : literal ∈ Route.arranged routes := mem_arrange.mpr hliteral
  rcases exists_first_or_none (Route.Serves method path) (Route.arranged routes) with
    ⟨before, row, after, hsplit, hbefore, hmethod, pieces, hpieces, hfits⟩ | hnone
  · refine ⟨row, ?_, ⟨hmethod, pieces, hpieces, hfits, ?_⟩, ?_⟩
    · have hmem : row ∈ Route.arranged routes := by rw [hsplit]; simp
      exact mem_arrange.mp hmem
    · exact resolve_grouped_of_first valid hsplit hbefore hmethod hpieces hfits
    · intro htake
      have hrow : row.template[k]? = some (.param name) := by
        have := congrArg (·[k]?) htake
        simpa [List.getElem?_take, hname] using this
      have hshared : row.template.take k = literal.template.take k := by
        have := congrArg (List.take k) htake
        rw [hagree]
        simpa [List.take_take] using this
      -- the literal route is not tried before `row`, it is not `row`, nor can it stand behind it
      have hpairs := Route.pairwise_arranged routes
      rw [hsplit] at hpairs hlisted
      rcases List.mem_append.mp hlisted with hmem | hmem
      · exact hbefore literal hmem hserves
      rcases List.mem_cons.mp hmem with rfl | hmem
      · rw [htext] at hrow
        cases hrow
      · have hlater := (List.pairwise_cons.mp (List.pairwise_append.mp hpairs).2.1).1 literal hmem
        have hparam := hlater k hshared (by rw [hrow]; rfl)
        rw [htext] at hparam
        cases hparam
  · exact absurd hserves (hnone literal hlisted)

theorem namesAfter_eq_of_perm_of_unique {first second : List (Route α)} (perm : first.Perm second)
    {lead : Template} (unique : ∀ name ∈ Route.namesAfter lead first,
      ∀ other ∈ Route.namesAfter lead first, name = other) :
    Route.namesAfter lead first = Route.namesAfter lead second := by
  have hperm : (Route.namesAfter lead first).Perm (Route.namesAfter lead second) := by
    refine (List.perm_ext_iff_of_nodup (nodup_eraseDups _) (nodup_eraseDups _)).mpr fun name => ?_
    rw [List.mem_eraseDups, List.mem_eraseDups]
    exact ((perm.map _).filterMap _).mem_iff
  exact eq_of_perm_of_unique hperm unique

theorem withKey_eq_of_perm_of_nodup {first second : List (Route α)} (perm : first.Perm second)
    (nodup : (first.map fun route => (route.method, route.path)).Nodup) (method : Method)
    (path : String) : Route.withKey method path first = Route.withKey method path second := by
  have hkey : ∀ route ∈ Route.withKey method path first,
      route ∈ first ∧ (route.method, route.path) = (method, path) := by
    intro route hroute
    obtain ⟨hmem, hkey⟩ := List.mem_filter.mp hroute
    obtain ⟨rfl, rfl⟩ := of_decide_eq_true hkey
    exact ⟨hmem, rfl⟩
  refine eq_of_perm_of_unique (perm.filter _) fun route hroute other hother => ?_
  obtain ⟨hmem, heq⟩ := hkey route hroute
  obtain ⟨hmem', heq'⟩ := hkey other hother
  exact List.inj_on_of_nodup_map nodup hmem hmem' (heq.trans heq'.symm)

/-- **What the order of a list of routes decides:** between the names of a parameter behind the same
segments, and between routes with one method and one path. -/
theorem resolution_independent_of_order (missing : α) (first : List (Route α))
    (valid : ∀ route ∈ first, validatePath route.path = .ok ()) :
    ∃ tree, Tree.ofRoutes missing first = .ok tree ∧
      (∀ second : List (Route α), first.Perm second →
        (∀ lead, Route.namesAfter lead first = Route.namesAfter lead second) →
        (∀ method path, Route.withKey method path first = Route.withKey method path second) →
          ∃ other, Tree.ofRoutes missing second = .ok other ∧
            ∀ method path, tree.resolve method path = other.resolve method path) ∧
      (∀ literal ∈ first, ∀ param ∈ first, ∀ k text name,
        literal.template.take k = param.template.take k →
        literal.template[k]? = some (.literal text) → param.template[k]? = some (.param name) →
          ∀ method path, literal.Serves method path →
            ∃ row ∈ first, tree.AnswersWith method path row ∧
              row.template.take (k + 1) ≠ param.template.take (k + 1)) ∧
      ((∀ lead, ∀ name ∈ Route.namesAfter lead first, ∀ other ∈ Route.namesAfter lead first,
          name = other) →
        (first.map fun route => (route.method, route.path)).Nodup →
          ∀ second : List (Route α), first.Perm second →
            ∃ other, Tree.ofRoutes missing second = .ok other ∧
              ∀ method path, tree.resolve method path = other.resolve method path) := by
  have hperm : ∀ second : List (Route α), first.Perm second →
      (∀ lead, Route.namesAfter lead first = Route.namesAfter lead second) →
      (∀ method path, Route.withKey method path first = Route.withKey method path second) →
        ∃ other, Tree.ofRoutes missing second = .ok other ∧
          ∀ method path,
            (grouped missing first).resolve method path = other.resolve method path := by
    intro second perm names keyed
    have hsecond : ∀ route ∈ second, route.Valid := fun route hroute =>
      valid route (perm.mem_iff.mpr hroute)
    exact ⟨grouped missing second, ofRoutes_eq_ok missing hsecond,
      resolve_grouped_eq_of_perm missing valid perm names keyed⟩
  refine ⟨grouped missing first, ofRoutes_eq_ok missing valid, hperm, ?_, ?_⟩
  · intro literal hliteral param _ k text name hagree htext hname method path hserves
    exact literal_answers_before_param missing valid hliteral hagree htext hname hserves
  · intro unique nodup second perm
    exact hperm second perm (fun lead => namesAfter_eq_of_perm_of_unique perm (unique lead))
      (withKey_eq_of_perm_of_nodup perm nodup)

end Tree

/-- A table in which a literal is declared in front of the parameter rows. -/
def movedUsersTable : List (Route String) :=
  [⟨.get, "/users/me", "Me"⟩, ⟨.get, "/users/{id}", "ById"⟩, ⟨.get, "/users/{id}/posts", "Posts"⟩,
    ⟨.post, "/users", "Create"⟩, ⟨.get, "/users/me", "Me"⟩]

/-- A table of which every order resolves alike. -/
def plainTable : List (Route String) :=
  [⟨.get, "/users/{id}", "ById"⟩, ⟨.get, "/users/me", "Me"⟩]

theorem movedUsersTable_resolves_as_usersTable :
    ((∀ route ∈ usersTable, validatePath route.path = .ok ()) ∧
      usersTable.Perm movedUsersTable ∧
      (∀ lead, Route.namesAfter lead usersTable = Route.namesAfter lead movedUsersTable) ∧
      (∀ method path, Route.withKey method path usersTable =
        Route.withKey method path movedUsersTable) ∧
      (⟨.get, "/users/me", "Me"⟩ : Route String).Serves "GET" "/users/me") ∧
    (∃ tree other, Tree.ofRoutes "Missing" usersTable = .ok tree ∧
      Tree.ofRoutes "Missing" movedUsersTable = .ok other ∧
      (∀ method path, tree.resolve method path = other.resolve method path) ∧
      ∃ row ∈ usersTable, tree.AnswersWith "GET" "/users/me" row ∧
        row.template.take 2 ≠ [.literal "users", .param "id"]) ∧
    ∃ tree other, Tree.ofRoutes "Missing" plainTable = .ok tree ∧
      Tree.ofRoutes "Missing" plainTable.reverse = .ok other ∧
      ∀ method path, tree.resolve method path = other.resolve method path := by
  have valid : ∀ route ∈ usersTable, validatePath route.path = .ok () := by decide
  have perm : usersTable.Perm movedUsersTable := by decide
  have hme : ∀ lead, Template.nameAfter? lead
      (⟨.get, "/users/me", "Me"⟩ : Route String).template = none :=
    fun lead => Template.nameAfter?_eq_none (by decide)
  have names : ∀ lead, Route.namesAfter lead usersTable =
      Route.namesAfter lead movedUsersTable := by
    intro lead
    simp [Route.namesAfter, Template.namesAfter, usersTable, movedUsersTable, List.filterMap_cons,
      hme]
  have keyed : ∀ method path, Route.withKey method path usersTable =
      Route.withKey method path movedUsersTable := by
    intro method path
    by_cases hpath : path = "/users/me"
    · simp [Route.withKey, usersTable, movedUsersTable, List.filter_cons, hpath]
    · simp [Route.withKey, usersTable, movedUsersTable, List.filter_cons, Ne.symm hpath]
  have hserves : (⟨.get, "/users/me", "Me"⟩ : Route String).Serves "GET" "/users/me" :=
    ⟨rfl, ["users".toList, "me".toList], by decide, .cons (by rfl) (.cons (by rfl) .nil)⟩
  have unique : ∀ lead, ∀ name ∈ Route.namesAfter lead plainTable,
      ∀ other ∈ Route.namesAfter lead plainTable, name = other := by
    intro lead name hname other hother
    simp only [Route.namesAfter, Template.namesAfter, plainTable, List.map_cons, List.map_nil,
      List.filterMap_cons, List.filterMap_nil, hme, List.mem_eraseDups] at hname hother
    split at hname <;> simp_all
  obtain ⟨tree, htree, hperm, hliteral, -⟩ :=
    Tree.resolution_independent_of_order "Missing" usersTable valid
  obtain ⟨other, hother, hsame⟩ := hperm movedUsersTable perm names keyed
  obtain ⟨plain, hplain, -, -, hany⟩ :=
    Tree.resolution_independent_of_order "Missing" plainTable (by decide)
  obtain ⟨turned, hturned, hturnedSame⟩ :=
    hany unique (by decide) plainTable.reverse (List.reverse_perm _).symm
  refine ⟨⟨valid, perm, names, keyed, hserves⟩, ⟨tree, other, htree, hother, hsame, ?_⟩,
    plain, turned, hplain, hturned, hturnedSame⟩
  exact hliteral ⟨.get, "/users/me", "Me"⟩ (by decide) ⟨.get, "/users/{id}", "ById"⟩ (by decide) 1
    "me" "id" (by decide) (by decide) (by decide) "GET" "/users/me" hserves

end HttpRoutes
