import HttpRoutes.Proofs.Compilation
import HttpRoutes.Proofs.Levels

/-!
# Laws of route trees

Branches can be written in several ways that mean the same: nested path nodes or one, one node or
two of the same text side by side, a path node that takes nothing or the branches below it. It does
not matter where in a tree they stand.

* `Branch.Alike first second` : branches with the same routes and the same first hits
  (`Branch.Alike.between`, `Branch.Alike.path`, `Branch.Alike.param`);
* `Context`, `Context.fill` : a tree with a place for branches, and the tree with branches there
  (`Tree.exists_context`);
* `Branch.Alike.fill` : alike branches make alike trees in every context;
* `Branch.alike_path_path`, `Branch.alike_path_append`, `Branch.alike_param_append`,
  `Branch.alike_path_empty` : the laws;
* `Tree.laws_in_context` : the laws at every place of every tree.
-/

namespace HttpRoutes

variable {α : Type}

namespace Branch

/-- In place of each other, branches show the same routes and reach the same leaf. -/
structure Alike (first second : List (Branch α)) : Prop where
  routes : routesAll first = routesAll second
  hits : ∀ method remaining, firstHit? method first remaining = firstHit? method second remaining

theorem firstHit?_cons (method : String) (branch : Branch α) (branches : List (Branch α))
    (remaining : List Char) :
    firstHit? method (branch :: branches) remaining =
      (hit? method branch remaining).or (firstHit? method branches remaining) := by
  rw [firstHit?]
  cases hit? method branch remaining <;> rfl

theorem firstHit?_singleton (method : String) (branch : Branch α) (remaining : List Char) :
    firstHit? method [branch] remaining = hit? method branch remaining := by
  rw [firstHit?_cons, firstHit?, Option.or_none]

theorem routesAll_singleton (branch : Branch α) : routesAll [branch] = branch.routes := by
  rw [routesAll_eq_flatMap, List.flatMap_singleton]

namespace Alike

variable {first second : List (Branch α)}

theorem between (h : Alike first second) (before after : List (Branch α)) :
    Alike (before ++ first ++ after) (before ++ second ++ after) := by
  constructor
  · simp only [routesAll_append, h.routes]
  · intro method remaining
    simp only [firstHit?_append, h.hits]

theorem path (h : Alike first second) (lead : String) :
    Alike [.path lead first] [.path lead second] := by
  constructor
  · rw [routesAll_singleton, routesAll_singleton, Branch.routes, Branch.routes, h.routes]
  · intro method remaining
    simp only [firstHit?_singleton, hit?, h.hits]

theorem param (h : Alike first second) (name : String) :
    Alike [.param name first] [.param name second] := by
  constructor
  · rw [routesAll_singleton, routesAll_singleton, Branch.routes, Branch.routes, h.routes]
  · intro method remaining
    rw [firstHit?_singleton, firstHit?_singleton, hit?.eq_def, hit?.eq_def]
    simp only [h.hits]

end Alike

end Branch

/-! ## Contexts -/

/-- The branches of a tree with a place for some among them, at the top or below nodes. Beside the
place and beside each node above it stand other branches. -/
inductive Context (α : Type) where
  | here (before after : List (Branch α))
  | path (before : List (Branch α)) (lead : String) (inner : Context α) (after : List (Branch α))
  | param (before : List (Branch α)) (name : String) (inner : Context α) (after : List (Branch α))

namespace Context

def fill : Context α → List (Branch α) → List (Branch α)
  | here before after, branches => before ++ branches ++ after
  | path before lead inner after, branches => before ++ [.path lead (inner.fill branches)] ++ after
  | param before name inner after, branches =>
    before ++ [.param name (inner.fill branches)] ++ after

/-- The tree with `branches` at the place. -/
def tree (context : Context α) (missing : α) (branches : List (Branch α)) : Tree α :=
  ⟨missing, context.fill branches⟩

/-- The siblings of what is put at the place. -/
def beside : Context α → List (Branch α) × List (Branch α)
  | here before after => (before, after)
  | path _ _ inner _ => inner.beside
  | param _ _ inner _ => inner.beside

end Context

section Places

variable {before here after : List (Branch α)}

-- The siblings `front` and `back` at the top are those that have been passed on the way to a place.
mutual

theorem Branch.exists_context_of_mem_levels : ∀ (branch : Branch α) (front back : List (Branch α)),
    before ++ here ++ after ∈ branch.levels →
      ∃ context : Context α, context.fill here = front ++ [branch] ++ back ∧
        context.beside = (before, after)
  | path lead below, front, back, h => by
    rcases List.mem_cons.mp h with hbelow | h
    · refine ⟨.path front lead (.here before after) back, ?_, rfl⟩
      rw [Context.fill, Context.fill, hbelow]
    · obtain ⟨inner, hfill, hbeside⟩ := Branch.exists_context_of_mem_levelsAll below [] h
      exact ⟨.path front lead inner back, by rw [Context.fill, hfill]; rfl, hbeside⟩
  | param name below, front, back, h => by
    rcases List.mem_cons.mp h with hbelow | h
    · refine ⟨.param front name (.here before after) back, ?_, rfl⟩
      rw [Context.fill, Context.fill, hbelow]
    · obtain ⟨inner, hfill, hbeside⟩ := Branch.exists_context_of_mem_levelsAll below [] h
      exact ⟨.param front name inner back, by rw [Context.fill, hfill]; rfl, hbeside⟩
  | leaf _ _, _, _, h => nomatch h

theorem Branch.exists_context_of_mem_levelsAll : ∀ (branches front : List (Branch α)),
    before ++ here ++ after ∈ levelsAll branches →
      ∃ context : Context α, context.fill here = front ++ branches ∧
        context.beside = (before, after)
  | [], _, h => nomatch h
  | branch :: branches, front, h => by
    rcases List.mem_append.mp h with h | h
    · obtain ⟨context, hfill, hbeside⟩ := branch.exists_context_of_mem_levels front branches h
      exact ⟨context, by rw [hfill, List.append_assoc]; rfl, hbeside⟩
    · obtain ⟨context, hfill, hbeside⟩ :=
        Branch.exists_context_of_mem_levelsAll branches (front ++ [branch]) h
      exact ⟨context, by rw [hfill, List.append_assoc]; rfl, hbeside⟩

end

/-- **Every place among the branches of a tree is that of a context.** -/
theorem Tree.exists_context {tree : Tree α} (h : before ++ here ++ after ∈ tree.levels) :
    ∃ context : Context α, context.tree tree.missing here = tree ∧
      context.beside = (before, after) := by
  rcases List.mem_cons.mp h with htop | h
  · exact ⟨.here before after, congrArg (Tree.mk tree.missing) htop, rfl⟩
  · obtain ⟨context, hfill, hbeside⟩ := Branch.exists_context_of_mem_levelsAll tree.branches [] h
    exact ⟨context, congrArg (Tree.mk tree.missing) hfill, hbeside⟩

end Places

/-- What stands around alike branches does not tell them apart. -/
theorem Branch.Alike.fill {first second : List (Branch α)} (h : Alike first second)
    (context : Context α) : Alike (context.fill first) (context.fill second) := by
  induction context with
  | here before after => exact h.between before after
  | path before lead inner after ih => exact (ih.path lead).between before after
  | param before name inner after ih => exact (ih.param name).between before after

/-! ## The laws -/

namespace Branch

theorem alike_path_path (first second : String) (below : List (Branch α)) :
    Alike [.path first [.path second below]] [.path (first ++ second) below] := by
  constructor
  · simp only [routesAll_singleton, routes, List.map_map]
    refine List.map_congr_left fun route _ => ?_
    simp [Route.under, String.append_assoc]
  · intro method remaining
    simp only [firstHit?_singleton, hit?, String.toList_append, isPrefixOf?_append]
    cases first.toList.isPrefixOf? remaining <;> rfl

theorem alike_path_append (lead : String) (first second : List (Branch α)) :
    Alike [.path lead (first ++ second)] [.path lead first, .path lead second] := by
  constructor
  · simp only [routesAll, routes, routesAll_append, List.map_append, List.append_nil]
  · intro method remaining
    rw [firstHit?_singleton, firstHit?_cons, firstHit?_singleton, hit?, hit?, hit?]
    cases lead.toList.isPrefixOf? remaining with
    | none => rfl
    | some rest => exact firstHit?_append method first second rest

theorem alike_param_append (name : String) (first second : List (Branch α)) :
    Alike [.param name (first ++ second)] [.param name first, .param name second] := by
  constructor
  · simp only [routesAll, routes, routesAll_append, List.map_append, List.append_nil]
  · intro method remaining
    rw [firstHit?_singleton, firstHit?_cons, firstHit?_singleton]
    simp only [hit?.eq_def method (.param name _)]
    split
    · rw [firstHit?_append, Option.map_or]
    · rfl

theorem alike_path_empty (below : List (Branch α)) : Alike [.path "" below] below := by
  constructor
  · have hunder : (Route.under "" : Route α → Route α) = id := by
      funext route
      simp [Route.under]
    rw [routesAll_singleton, routes, hunder, List.map_id]
  · intro method remaining
    rw [firstHit?_singleton, hit?]
    rfl

end Branch

namespace Tree

/-- Two trees have one listing and resolve every request alike. -/
def Alike (first second : Tree α) : Prop :=
  Backend.listing.tree first = Backend.listing.tree second ∧
    ∀ method path, first.resolve method path = second.resolve method path

theorem alike_in_context (missing : α) (context : Context α) {first second : List (Branch α)}
    (h : Branch.Alike first second) :
    Alike (context.tree missing first) (context.tree missing second) := by
  obtain ⟨hroutes, hhits⟩ := h.fill context
  constructor
  · rw [Backend.tree_listing, Backend.tree_listing]
    exact congrArg (Prod.mk missing) hroutes
  · intro method path
    rw [resolve, resolve]
    dsimp only [Context.tree]
    rw [hhits]

/-- **Four ways to write the same branches,** at every place of every tree: prefixes joined,
branches split under a prefix or under a parameter, and a prefix without text left out. -/
theorem laws_in_context :
    (∀ (tree : Tree α) (before here after : List (Branch α)),
      before ++ here ++ after ∈ tree.levels →
        ∃ context : Context α, context.tree tree.missing here = tree ∧
          context.beside = (before, after)) ∧
    ∀ (missing : α) (context : Context α),
      (∀ first second below,
        Alike (context.tree missing [.path first [.path second below]])
          (context.tree missing [.path (first ++ second) below])) ∧
      (∀ lead first second,
        Alike (context.tree missing [.path lead (first ++ second)])
          (context.tree missing [.path lead first, .path lead second])) ∧
      (∀ name first second,
        Alike (context.tree missing [.param name (first ++ second)])
          (context.tree missing [.param name first, .param name second])) ∧
      ∀ below, Alike (context.tree missing [.path "" below]) (context.tree missing below) := by
  refine ⟨fun tree before here after place => exists_context place, fun missing context =>
    ⟨fun first second below => ?_, fun lead first second => ?_, fun name first second => ?_,
      fun below => ?_⟩⟩
  · exact alike_in_context missing context (Branch.alike_path_path first second below)
  · exact alike_in_context missing context (Branch.alike_path_append lead first second)
  · exact alike_in_context missing context (Branch.alike_param_append name first second)
  · exact alike_in_context missing context (Branch.alike_path_empty below)

/-- A tree in which a segment is cut in two, below a parameter and beside a leaf. -/
def cutPostsTree : Tree String :=
  ⟨"Missing",
    [.path "/users"
      [.param "id" [.leaf .get "ById", .path "/po" [.path "sts" [.leaf .get "Posts"]]]]]⟩

theorem cutPostsTree_laws_in_context :
    [.leaf .get "ById"] ++ [.path "/po" [.path "sts" [.leaf .get "Posts"]]] ++ [] ∈
        cutPostsTree.levels ∧
      ∃ context : Context String,
        context.tree "Missing" [.path "/po" [.path "sts" [.leaf .get "Posts"]]] = cutPostsTree ∧
        context.beside = ([.leaf .get "ById"], []) ∧
        Alike cutPostsTree (context.tree "Missing" [.path "/posts" [.leaf .get "Posts"]]) := by
  have place : [.leaf .get "ById"] ++ [.path "/po" [.path "sts" [.leaf .get "Posts"]]] ++ [] ∈
      cutPostsTree.levels := by
    simp [Tree.levels, cutPostsTree, Branch.levelsAll, Branch.levels]
  obtain ⟨hplaces, hlaws⟩ := laws_in_context (α := String)
  obtain ⟨context, htree, hbeside⟩ := hplaces cutPostsTree _ _ _ place
  have halike := (hlaws "Missing" context).1 "/po" "sts" [.leaf .get "Posts"]
  refine ⟨place, context, htree, hbeside, ?_⟩
  rw [← htree]
  exact halike

end Tree

end HttpRoutes
