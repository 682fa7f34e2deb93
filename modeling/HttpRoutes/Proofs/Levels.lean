import HttpRoutes.Proofs.Chains

/-!
# The levels of a route tree

A level is a list of siblings: the topmost branches of a tree, or the branches below one of its
nodes. What a tree is like is said level by level.

* `Branch.levels`, `Branch.levelsAll` : the levels below a branch and below several;
* `Tree.levels` : the levels of a tree, that of the topmost branches first;
* `Branch.step?` : the step that a node takes from the path;
* `Branch.forall_step_of_mem_chainsAll` : the steps of the chains are those of the nodes;
* `Branch.forall_level_children` : the levels below a node are levels of the whole.
-/

namespace HttpRoutes

variable {α : Type}

namespace Branch

mutual

/-- The levels below a branch, in pre-order. -/
def levels : Branch α → List (List (Branch α))
  | path _ below => below :: levelsAll below
  | param _ below => below :: levelsAll below
  | leaf _ _ => []

def levelsAll : List (Branch α) → List (List (Branch α))
  | [] => []
  | branch :: branches => levels branch ++ levelsAll branches

end

/-- The step that a node takes from the path; a leaf takes none. -/
def step? : Branch α → Option Step
  | path lead _ => some (.literal lead)
  | param name _ => some (.capture name)
  | leaf _ _ => none

/-- The branches below a node. -/
def children : Branch α → List (Branch α)
  | path _ below => below
  | param _ below => below
  | leaf _ _ => []

theorem levelsAll_eq_flatMap (branches : List (Branch α)) :
    levelsAll branches = branches.flatMap levels := by
  induction branches with
  | nil => rfl
  | cons branch branches ih => rw [levelsAll, ih, List.flatMap_cons]

theorem levelsAll_flatMap {β : Type} (items : List β) (f : β → List (Branch α)) :
    levelsAll (items.flatMap f) = items.flatMap fun item => levelsAll (f item) := by
  simp only [levelsAll_eq_flatMap, List.flatMap_assoc]

/-- What holds of every level holds of the levels below a node. -/
theorem forall_level_children {p : List (Branch α) → Prop} {branches : List (Branch α)}
    {branch : Branch α} (h : ∀ level ∈ branches :: levelsAll branches, p level)
    (hbranch : branch ∈ branches) (hstep : branch.step?.isSome) :
    ∀ level ∈ branch.children :: levelsAll branch.children, p level := by
  intro level hlevel
  refine h level (List.mem_cons_of_mem _ ?_)
  rw [levelsAll_eq_flatMap]
  refine List.mem_flatMap.mpr ⟨branch, hbranch, ?_⟩
  cases branch with
  | path _ _ => exact hlevel
  | param _ _ => exact hlevel
  | leaf _ _ => cases hstep

mutual

theorem forall_step_of_mem_chains {p : Step → Prop} : ∀ branch : Branch α,
    (∀ step ∈ branch.step?, p step) →
    (∀ level ∈ branch.levels, ∀ node ∈ level, ∀ step ∈ node.step?, p step) →
      ∀ chain ∈ branch.chains, ∀ step ∈ chain.steps, p step
  | path lead below, hstep, hlevels => by
    obtain ⟨hbelow, hdeeper⟩ := List.forall_mem_cons.mp hlevels
    intro chain hchain
    obtain ⟨inner, hinner, rfl⟩ := List.mem_map.mp hchain
    refine List.forall_mem_cons.mpr ⟨hstep _ rfl, ?_⟩
    exact forall_step_of_mem_chainsAll below hbelow hdeeper inner hinner
  | param name below, hstep, hlevels => by
    obtain ⟨hbelow, hdeeper⟩ := List.forall_mem_cons.mp hlevels
    intro chain hchain
    obtain ⟨inner, hinner, rfl⟩ := List.mem_map.mp hchain
    refine List.forall_mem_cons.mpr ⟨hstep _ rfl, ?_⟩
    exact forall_step_of_mem_chainsAll below hbelow hdeeper inner hinner
  | leaf _ _, _, _ => by simp [chains]

/-- What holds of the step of every node of every level holds of all steps of the chains. -/
theorem forall_step_of_mem_chainsAll {p : Step → Prop} : ∀ branches : List (Branch α),
    (∀ node ∈ branches, ∀ step ∈ node.step?, p step) →
    (∀ level ∈ levelsAll branches, ∀ node ∈ level, ∀ step ∈ node.step?, p step) →
      ∀ chain ∈ chainsAll branches, ∀ step ∈ chain.steps, p step
  | [], _, _ => by simp [chainsAll]
  | branch :: branches, hnodes, hlevels => by
    obtain ⟨hbranch, hrest⟩ := List.forall_mem_cons.mp hnodes
    obtain ⟨hbelow, hdeeper⟩ := List.forall_mem_append.mp hlevels
    refine List.forall_mem_append.mpr ⟨?_, ?_⟩
    · exact forall_step_of_mem_chains branch hbranch hbelow
    · exact forall_step_of_mem_chainsAll branches hrest hdeeper

end

end Branch

/-- The levels of a tree: its topmost branches, and then the levels below these in pre-order. -/
def Tree.levels (tree : Tree α) : List (List (Branch α)) :=
  tree.branches :: Branch.levelsAll tree.branches

end HttpRoutes
