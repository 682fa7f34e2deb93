import HttpRoutes.Grouping
import Mathlib.Data.List.Nodup
import Mathlib.Data.List.Perm.Basic
import Mathlib.Order.Basic

/-!
# The order that grouping puts items into

Items that have a template are grouped on its first segment, each group on the second one, and so
on. What comes out is a permutation of the items, and where two of them stand is settled at the
first segment in which their templates differ.

* `headOrder heads` : the order of the groups of one level;
* `arrange key depth items` : the items, grouped `depth` times (`arrange_perm`, `arrange_map`);
* `SplitsAt key items k i j` : the items `i` and `j` part at segment `k`, and `i` goes first;
* `Precedes` : they part somewhere, or `i` comes first among equals (`Precedes.asymm`);
* `pairwise_arrange` : grouping puts items into that order.
-/

namespace HttpRoutes

/-! ## The groups of a level -/

/-- Heads in the order in which they first occur, but parameters behind all others. -/
def headOrder (heads : List (Option Segment)) : List (Option Segment) :=
  heads.eraseDups.filter (!Pending.isParamHead ·) ++ heads.eraseDups.filter Pending.isParamHead

theorem mem_headOrder {heads : List (Option Segment)} {head : Option Segment} :
    head ∈ headOrder heads ↔ head ∈ heads := by
  simp only [headOrder, List.mem_append, List.mem_filter, List.mem_eraseDups, ← and_or_left,
    Bool.not_eq_eq_eq_not, Bool.not_true]
  cases Pending.isParamHead head <;> simp

theorem nodup_eraseDups {κ : Type} [BEq κ] [LawfulBEq κ] :
    ∀ keys : List κ, keys.eraseDups.Nodup
  | [] => by simp
  | first :: rest => by
    have hshort := List.length_filter_le (!· == first) rest
    rw [List.eraseDups_cons, List.nodup_cons]
    exact ⟨by simp [List.mem_eraseDups], nodup_eraseDups (rest.filter (!· == first))⟩
termination_by keys => keys.length
decreasing_by rw [List.length_cons]; omega

theorem nodup_headOrder (heads : List (Option Segment)) : (headOrder heads).Nodup := by
  refine List.Nodup.append ((nodup_eraseDups heads).filter _) ((nodup_eraseDups heads).filter _) ?_
  intro head hother hparam
  have h1 := (List.mem_filter.mp hother).2
  have h2 := (List.mem_filter.mp hparam).2
  simp [h2] at h1

/-- Groups with different keys that cover all items hold each item once. -/
theorem perm_flatMap_filter {β κ : Type} [DecidableEq κ] (key : β → κ) {keys : List κ}
    {items : List β} (hnodup : keys.Nodup) (hcover : ∀ item ∈ items, key item ∈ keys) :
    (keys.flatMap fun k => items.filter (key · = k)).Perm items := by
  induction keys generalizing items with
  | nil =>
    obtain rfl : items = [] := List.eq_nil_iff_forall_not_mem.mpr fun item hitem => by
      simpa using hcover item hitem
    simp
  | cons first keys ih =>
    obtain ⟨hfirst, hnodup⟩ := List.nodup_cons.mp hnodup
    -- the items of the other groups are those that the first group leaves
    have hrest : (keys.flatMap fun k => items.filter (key · = k)) =
        keys.flatMap fun k => (items.filter fun i => !decide (key i = first)).filter (key · = k) := by
      refine List.flatMap_congr fun k hk => ?_
      rw [List.filter_filter]
      refine List.filter_congr fun item _ => ?_
      have hne : k ≠ first := fun h => hfirst (h ▸ hk)
      by_cases hkey : key item = k <;> simp [hkey, hne]
    rw [List.flatMap_cons, hrest]
    have hcover' : ∀ item ∈ items.filter (fun i => !decide (key i = first)), key item ∈ keys := by
      intro item hitem
      obtain ⟨hitem, hne⟩ := List.mem_filter.mp hitem
      rcases List.mem_cons.mp (hcover item hitem) with h | h
      · simp [h] at hne
      · exact h
    exact ((ih hnodup hcover').append_left _).trans (List.filter_append_perm _ items)

/-! ## Grouping on every segment -/

section Arrange

variable {β γ : Type}

/-- The items grouped on the first `depth` segments of `key`, one group after the other. -/
def arrange (key : β → Template) : Nat → List β → List β
  | 0, items => items
  | depth + 1, items =>
    (headOrder (items.map fun item => (key item).head?)).flatMap fun head =>
      arrange (fun item => (key item).tail) depth (items.filter fun item => (key item).head? = head)

theorem arrange_perm (key : β → Template) (depth : Nat) (items : List β) :
    (arrange key depth items).Perm items := by
  induction depth generalizing key items with
  | zero => exact .refl items
  | succ depth ih =>
    rw [arrange]
    refine (List.Perm.flatMap_left _ fun head _ => ih _ _).trans ?_
    refine perm_flatMap_filter (fun item => (key item).head?) (nodup_headOrder _) ?_
    intro item hitem
    exact mem_headOrder.mpr (List.mem_map_of_mem hitem)

theorem mem_arrange {key : β → Template} {depth : Nat} {items : List β} {item : β} :
    item ∈ arrange key depth items ↔ item ∈ items :=
  (arrange_perm key depth items).mem_iff

/-- Grouping looks at nothing but the templates. -/
theorem arrange_map (f : β → γ) (key : γ → Template) (depth : Nat) (items : List β) :
    arrange key depth (items.map f) = (arrange (fun item => key (f item)) depth items).map f := by
  induction depth generalizing key items with
  | zero => rfl
  | succ depth ih =>
    rw [arrange, arrange, List.map_map, List.map_flatMap]
    refine List.flatMap_congr fun head _ => ?_
    rw [List.filter_map, ih]
    rfl

theorem arrange_of_key_nil {key : β → Template} {items : List β} (h : ∀ item ∈ items, key item = [])
    (depth : Nat) : arrange key depth items = items := by
  induction depth generalizing key items with
  | zero => rfl
  | succ depth ih =>
    rw [arrange]
    cases items with
    | nil => rfl
    | cons first rest =>
      have hheads : headOrder ((first :: rest).map fun item => (key item).head?) = [none] := by
        have hmap : (first :: rest).map (fun item => (key item).head?) =
            List.replicate (rest.length + 1) none := by
          rw [List.eq_replicate_iff]
          refine ⟨by simp, fun head hhead => ?_⟩
          obtain ⟨item, hitem, rfl⟩ := List.mem_map.mp hhead
          rw [h item hitem]
          rfl
        rw [hmap]
        simp [headOrder, List.replicate_succ, List.eraseDups_cons, Pending.isParamHead]
      have hall : (first :: rest).filter (fun item => (key item).head? = none) = first :: rest := by
        refine List.filter_eq_self.mpr fun item hitem => ?_
        simp [h item hitem]
      rw [hheads, List.flatMap_singleton, hall]
      exact ih fun item hitem => by rw [h item hitem]; rfl

end Arrange

/-! ## Where two items stand -/

section Order

variable {ι κ : Type} [Preorder ι]

/-- Some item with the key `first` stands before every item with the key `second`. -/
def OccursBefore (items : List ι) (key : ι → κ) (first second : κ) : Prop :=
  ∃ item ∈ items, key item = first ∧ ∀ other ∈ items, key other = second → item < other

theorem OccursBefore.ne {items : List ι} {key : ι → κ} {first second : κ}
    (h : OccursBefore items key first second) : first ≠ second := by
  rintro rfl
  obtain ⟨item, hitem, hkey, hall⟩ := h
  exact lt_irrefl item (hall item hitem hkey)

theorem pairwise_eraseDups_map [BEq κ] [LawfulBEq κ] (key : ι → κ) :
    ∀ items : List ι, items.Pairwise (· < ·) →
      (items.map key).eraseDups.Pairwise (OccursBefore items key)
  | [], _ => by simp
  | first :: rest, hsorted => by
    obtain ⟨hfirst, hrest⟩ := List.pairwise_cons.mp hsorted
    have hshort := List.length_filter_le (fun item => !key item == key first) rest
    have ih := pairwise_eraseDups_map key (rest.filter fun item => !key item == key first)
      (hrest.filter _)
    have hmap : (rest.map key).filter (!· == key first) =
        (rest.filter fun item => !key item == key first).map key := by
      rw [List.filter_map]
      rfl
    have hmem : ∀ k ∈ ((rest.filter fun item => !key item == key first).map key).eraseDups,
        k ≠ key first := by
      intro k hk
      obtain ⟨item, hitem, rfl⟩ := List.mem_map.mp (List.mem_eraseDups.mp hk)
      simpa using (List.mem_filter.mp hitem).2
    rw [List.map_cons, List.eraseDups_cons, hmap, List.pairwise_cons]
    constructor
    · intro k hk
      refine ⟨first, List.mem_cons_self, rfl, fun other hother hkey => ?_⟩
      rcases List.mem_cons.mp hother with rfl | hother
      · exact absurd hkey.symm (hmem k hk)
      · exact hfirst other hother
    · refine ih.imp_of_mem fun {k l} _ hl hbefore => ?_
      obtain ⟨item, hitem, hkey, hall⟩ := hbefore
      refine ⟨item, List.mem_cons_of_mem _ (List.mem_filter.mp hitem).1, hkey, ?_⟩
      intro other hother hkey'
      have hne := hmem l hl
      rcases List.mem_cons.mp hother with rfl | hother
      · exact absurd hkey'.symm hne
      · exact hall other (List.mem_filter.mpr ⟨hother, by simpa [hkey'] using hne⟩) hkey'
termination_by items => items.length
decreasing_by rw [List.length_cons]; omega

/-- The first of two heads is no parameter and the second one is, or both are of one kind and the
first one occurs before the second. -/
def HeadBefore (items : List ι) (head : ι → Option Segment) (first second : Option Segment) :
    Prop :=
  (Pending.isParamHead first = false ∧ Pending.isParamHead second = true) ∨
    (Pending.isParamHead first = Pending.isParamHead second ∧ OccursBefore items head first second)

theorem pairwise_headOrder {items : List ι} (head : ι → Option Segment)
    (hsorted : items.Pairwise (· < ·)) :
    (headOrder (items.map head)).Pairwise (HeadBefore items head) := by
  have hoccur := pairwise_eraseDups_map head items hsorted
  refine List.pairwise_append.mpr ⟨?_, ?_, ?_⟩
  · refine (hoccur.filter _).imp_of_mem fun {first second} hf hs hbefore => Or.inr ⟨?_, hbefore⟩
    have h1 := (List.mem_filter.mp hf).2
    have h2 := (List.mem_filter.mp hs).2
    simp_all
  · refine (hoccur.filter _).imp_of_mem fun {first second} hf hs hbefore => Or.inr ⟨?_, hbefore⟩
    rw [(List.mem_filter.mp hf).2, (List.mem_filter.mp hs).2]
  · intro first hf second hs
    refine Or.inl ⟨?_, (List.mem_filter.mp hs).2⟩
    simpa using (List.mem_filter.mp hf).2

theorem HeadBefore.ne {items : List ι} {head : ι → Option Segment} {first second : Option Segment}
    (h : HeadBefore items head first second) : first ≠ second := by
  rcases h with ⟨hf, hs⟩ | ⟨-, hbefore⟩
  · rintro rfl
    simp [hf] at hs
  · exact hbefore.ne

theorem HeadBefore.asymm {items : List ι} {head : ι → Option Segment}
    {first second : Option Segment} (h : HeadBefore items head first second) :
    ¬ HeadBefore items head second first := by
  rintro (⟨hs, hf⟩ | ⟨hkind', item', hitem', hkey', hall'⟩)
  · rcases h with ⟨hf', -⟩ | ⟨hkind, -⟩
    · simp [hf] at hf'
    · simp [hs, hf] at hkind
  · rcases h with ⟨hf, hs⟩ | ⟨-, item, hitem, hkey, hall⟩
    · simp [hf, hs] at hkind'
    · exact lt_asymm (hall item' hitem' hkey') (hall' item hitem hkey)

/-- Two items agree on their first `k` segments and part at the next one, where a template may also
end. Among the items that share those `k` segments the head of `i` comes before that of `j`. -/
structure SplitsAt (key : ι → Template) (items : List ι) (k : Nat) (i j : ι) : Prop where
  agree : (key i).take k = (key j).take k
  differ : (key i)[k]? ≠ (key j)[k]?
  headBefore : HeadBefore (items.filter fun m => (key m).take k = (key i).take k)
    (fun m => (key m)[k]?) (key i)[k]? (key j)[k]?

/-- Two items part at some segment, or have the same template and stand in order. -/
def Precedes (key : ι → Template) (items : List ι) (i j : ι) : Prop :=
  (key i = key j ∧ i < j) ∨ ∃ k, SplitsAt key items k i j

theorem SplitsAt.ne {key : ι → Template} {items : List ι} {k : Nat} {i j : ι}
    (h : SplitsAt key items k i j) : key i ≠ key j :=
  fun heq => h.differ (by rw [heq])

theorem SplitsAt.le_of_agree {key : ι → Template} {items : List ι} {k l : Nat} {i j : ι}
    (h : SplitsAt key items k i j) (hagree : (key i).take l = (key j).take l) : l ≤ k := by
  by_contra hlt
  apply h.differ
  have := congrArg (·[k]?) hagree
  simpa [List.getElem?_take, show k < l by omega] using this

theorem SplitsAt.asymm {key : ι → Template} {items : List ι} {k l : Nat} {i j : ι}
    (h : SplitsAt key items k i j) : ¬ SplitsAt key items l j i := by
  intro h'
  have hle := h.le_of_agree h'.agree.symm
  have hge := h'.le_of_agree h.agree.symm
  obtain rfl : k = l := by omega
  have hback := h'.headBefore
  rw [← h.agree] at hback
  exact h.headBefore.asymm hback

theorem Precedes.asymm {key : ι → Template} {items : List ι} {i j : ι}
    (h : Precedes key items i j) : ¬ Precedes key items j i := by
  rintro (⟨heq', hlt'⟩ | ⟨l, hl⟩)
  · rcases h with ⟨-, hlt⟩ | ⟨k, hk⟩
    · exact lt_asymm hlt hlt'
    · exact hk.ne heq'.symm
  · rcases h with ⟨heq, -⟩ | ⟨k, hk⟩
    · exact hl.ne heq.symm
    · exact hk.asymm hl

theorem take_succ_eq_iff {β : Type} (k : Nat) (a b : List β) :
    a.take (k + 1) = b.take (k + 1) ↔ a.head? = b.head? ∧ a.tail.take k = b.tail.take k := by
  cases a <;> cases b <;> simp

theorem ext_head?_tail {β : Type} {a b : List β} (hhead : a.head? = b.head?)
    (htail : a.tail = b.tail) : a = b := by
  cases a <;> cases b <;> simp_all

/-- What two items of a group part at, they part at one segment later without the grouping. -/
theorem SplitsAt.of_tail {key : ι → Template} {items : List ι} {k : Nat} {i j : ι}
    {head : Option Segment} (hi : (key i).head? = head) (hj : (key j).head? = head)
    (h : SplitsAt (fun item => (key item).tail)
      (items.filter fun item => (key item).head? = head) k i j) :
    SplitsAt key items (k + 1) i j := by
  obtain ⟨hagree, hdiffer, hbefore⟩ := h
  have hfilter : (items.filter fun item => (key item).head? = head).filter
      (fun m => (key m).tail.take k = (key i).tail.take k) =
        items.filter fun m => (key m).take (k + 1) = (key i).take (k + 1) := by
    rw [List.filter_filter]
    refine List.filter_congr fun m _ => ?_
    simp only [take_succ_eq_iff, hi, Bool.decide_and, Bool.and_comm]
  simp only [List.getElem?_tail] at hdiffer hbefore
  refine ⟨(take_succ_eq_iff k _ _).mpr ⟨hi.trans hj.symm, hagree⟩, hdiffer, ?_⟩
  rw [← hfilter]
  exact hbefore

/-- **Grouping puts items into the order of their templates.** -/
theorem pairwise_arrange {key : ι → Template} {depth : Nat} {items : List ι}
    (hsorted : items.Pairwise (· < ·)) (hdepth : ∀ item ∈ items, (key item).length ≤ depth) :
    (arrange key depth items).Pairwise (Precedes key items) := by
  induction depth generalizing key items with
  | zero =>
    have hnil : ∀ item ∈ items, key item = [] := fun item hitem =>
      List.length_eq_zero_iff.mp (Nat.le_zero.mp (hdepth item hitem))
    exact hsorted.imp_of_mem fun hi hj hlt => Or.inl ⟨by rw [hnil _ hi, hnil _ hj], hlt⟩
  | succ depth ih =>
    rw [arrange, List.pairwise_flatMap]
    constructor
    · -- within a group, by induction
      intro head _
      have hshort : ∀ item ∈ items.filter fun item => (key item).head? = head,
          (key item).tail.length ≤ depth := by
        intro item hitem
        have := hdepth item (List.mem_filter.mp hitem).1
        rw [List.length_tail]
        omega
      refine (ih (hsorted.filter _) hshort).imp_of_mem fun {i j} hi hj h => ?_
      have hi := of_decide_eq_true (List.mem_filter.mp (mem_arrange.mp hi)).2
      have hj := of_decide_eq_true (List.mem_filter.mp (mem_arrange.mp hj)).2
      rcases h with ⟨htail, hlt⟩ | ⟨k, hk⟩
      · exact Or.inl ⟨ext_head?_tail (hi.trans hj.symm) htail, hlt⟩
      · exact Or.inr ⟨k + 1, hk.of_tail hi hj⟩
    · -- between two groups, by the order of their heads
      refine (pairwise_headOrder (fun item => (key item).head?) hsorted).imp ?_
      intro first second hbefore i hi j hj
      have hi := of_decide_eq_true (List.mem_filter.mp (mem_arrange.mp hi)).2
      have hj := of_decide_eq_true (List.mem_filter.mp (mem_arrange.mp hj)).2
      rw [← hi, ← hj] at hbefore
      simp only [List.head?_eq_getElem?] at hbefore
      exact Or.inr ⟨0, by simp, hbefore.ne, by simpa using hbefore⟩

end Order

end HttpRoutes
