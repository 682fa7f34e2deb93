import HttpRoutes.Proofs.GroupedResolution
import HttpRoutes.Proofs.Levels
import HttpRoutes.Proofs.TemplateText

/-!
# Regrouping the routes of a tree

A tree that is built by hand may put several segments into one path node, or none, and may name the
same prefix at several places. If its prefixes end where segments end, each of its chains stands for
a template, so that its listing is a list of routes and can be grouped.

* `Step.Aligned` : a step that takes whole segments off a path;
* `Step.Aligned.exists_template` : the segments that it takes;
* `Chain.hit?_chain_route` : a chain of such steps hits what the row hits that the listing shows
  for it;
* `Tree.resolve_endpoint_eq_missing_iff` : when a tree falls back to its missing endpoint;
* `Tree.regrouped_resolves_alike` : the tree and the grouped tree of its listing.
-/

namespace HttpRoutes

variable {α : Type}

/-! ## Steps of whole segments -/

/-- The text of a path node is put together of slashes with plain texts behind them, and the name of
a parameter is plain and not empty. -/
def Step.Aligned : Step → Prop
  | literal lead => ∃ texts : List String, (∀ text ∈ texts, Plain text) ∧
      lead = String.join (texts.map ("/" ++ ·))
  | capture name => name ≠ "" ∧ Plain name

theorem captures?_literal_append (first second : String) (steps : List Step) (path : List Char) :
    captures? (.literal (first ++ second) :: steps) path =
      captures? (.literal first :: .literal second :: steps) path := by
  simp only [captures?, String.toList_append, isPrefixOf?_append, Option.bind_assoc]

theorem captures?_literal_join (texts : List String) (steps : List Step) (path : List Char) :
    captures? (.literal (String.join (texts.map ("/" ++ ·))) :: steps) path =
      captures? (texts.map (Segment.step ∘ .literal) ++ steps) path := by
  induction texts generalizing path with
  | nil => rfl
  | cons text texts ih =>
    rw [List.map_cons, String.join_cons, captures?_literal_append, captures?]
    change _ = captures? (.literal ("/" ++ text) :: (texts.map _ ++ steps)) path
    rw [captures?]
    congr 1
    funext rest
    exact ih rest

theorem Step.Aligned.exists_template {step : Step} (h : step.Aligned) :
    ∃ template : Template, (∀ segment ∈ template, segment.WellFormed) ∧
      template.render = step.render ∧ template.names = step.name?.toList ∧
      ∀ steps path, captures? (step :: steps) path =
        captures? (template.map Segment.step ++ steps) path := by
  cases step with
  | literal lead =>
    obtain ⟨texts, hplain, rfl⟩ := h
    refine ⟨texts.map .literal, ?_, ?_, ?_, fun steps path => ?_⟩
    · exact List.forall_mem_map.mpr hplain
    · rw [Template.render, List.map_map]
      rfl
    · rw [Template.names, List.map_map, List.filterMap_map]
      exact List.filterMap_eq_nil_iff.mpr fun _ _ => rfl
    · rw [captures?_literal_join, List.map_map]
  | capture name =>
    refine ⟨[.param name], ?_, ?_, rfl, fun _ _ => rfl⟩
    · exact List.forall_mem_singleton.mpr h
    · rw [Template.render, List.map_singleton, String.join_cons]
      simp [Segment.render, Step.render]

theorem captures?_append_congr (front : List Step) {steps others : List Step}
    (h : ∀ path, captures? steps path = captures? others path) (path : List Char) :
    captures? (front ++ steps) path = captures? (front ++ others) path := by
  induction front generalizing path with
  | nil => exact h path
  | cons step front ih =>
    cases step with
    | literal lead => exact congrArg _ (funext ih)
    | capture name =>
      rw [List.cons_append, List.cons_append, captures?.eq_def, captures?.eq_def]
      dsimp only
      split
      · rw [ih]
      · rfl

namespace Template

theorem render_append (first second : Template) :
    render (first ++ second) = first.render ++ second.render := by
  rw [render, render, render, List.map_append, String.join_append]

theorem names_append (first second : Template) :
    names (first ++ second) = first.names ++ second.names := by
  rw [names, names, names, List.map_append, List.filterMap_append]

end Template

/-- Aligned steps stand for a template. -/
theorem exists_template_of_aligned : ∀ steps : List Step, (∀ step ∈ steps, step.Aligned) →
    ∃ template : Template, (∀ segment ∈ template, segment.WellFormed) ∧
      String.join (steps.map Step.render) = template.render ∧
      steps.filterMap Step.name? = template.names ∧
      ∀ path, captures? steps path = captures? (template.map Segment.step) path
  | [], _ => ⟨[], by simp, rfl, rfl, fun _ => rfl⟩
  | step :: steps, h => by
    obtain ⟨hstep, hsteps⟩ := List.forall_mem_cons.mp h
    obtain ⟨front, hfront, hrender, hnames, hcaptures⟩ := hstep.exists_template
    obtain ⟨back, hback, hrender', hnames', hcaptures'⟩ :=
      exists_template_of_aligned steps hsteps
    refine ⟨front ++ back, List.forall_mem_append.mpr ⟨hfront, hback⟩, ?_, ?_, fun path => ?_⟩
    · rw [List.map_cons, String.join_cons, Template.render_append, hrender, hrender']
    · rw [Template.names_append, hnames, ← hnames', List.filterMap_cons]
      cases step.name? <;> rfl
    · rw [hcaptures, List.map_append, captures?_append_congr _ hcaptures']

/-- A chain of aligned steps hits what the row hits that the listing shows for it. -/
theorem Chain.hit?_chain_route {chain : Chain α} (h : ∀ step ∈ chain.steps, step.Aligned)
    (method : String) (path : List Char) :
    chain.route.chain.hit? method path = chain.hit? method path := by
  obtain ⟨template, hwf, hpath, hnames, hcaptures⟩ :=
    exists_template_of_aligned chain.steps h
  have htemplate : chain.route.template = template := Route.template_of_path_eq hwf hpath
  have hnames' : chain.route.chain.names = chain.names := by
    rw [names, names, hnames, ← htemplate]
    rfl
  rw [hit?, hit?, hnames', hcaptures, ← htemplate]
  rfl

/-! ## Trees of whole segments -/

/-- A node takes whole segments; a leaf takes none. -/
def Branch.Aligned (node : Branch α) : Prop :=
  ∀ step ∈ node.step?, step.Aligned

theorem Branch.exists_template_of_mem_routesAll {branches : List (Branch α)}
    (h : ∀ level ∈ branches :: levelsAll branches, ∀ node ∈ level, node.Aligned) :
    ∀ row ∈ routesAll branches, ∃ template : Template,
      (∀ segment ∈ template, segment.WellFormed) ∧ row.path = template.render := by
  obtain ⟨htop, hlevels⟩ := List.forall_mem_cons.mp h
  rw [routesAll_eq_map_chainsAll]
  refine List.forall_mem_map.mpr fun chain hchain => ?_
  have hsteps := forall_step_of_mem_chainsAll branches htop hlevels chain hchain
  obtain ⟨template, hwf, hpath, -, -⟩ := exists_template_of_aligned chain.steps hsteps
  exact ⟨template, hwf, hpath⟩

namespace Tree

/-- Every path node and every parameter node of a tree takes whole segments. -/
def Aligned (tree : Tree α) : Prop :=
  ∀ level ∈ tree.levels, ∀ node ∈ level, node.Aligned

theorem Aligned.findSome?_routes {tree : Tree α} (h : tree.Aligned) (method : String)
    (path : List Char) :
    tree.routes.findSome? (fun row => row.chain.hit? method path) =
      tree.chains.findSome? (Chain.hit? method · path) := by
  rw [routes_eq_map_chains, List.findSome?_map, ← List.head?_filterMap, ← List.head?_filterMap]
  obtain ⟨htop, hlevels⟩ := List.forall_mem_cons.mp h
  congr 1
  refine List.filterMap_congr fun chain hchain => Chain.hit?_chain_route ?_ method path
  exact Branch.forall_step_of_mem_chainsAll tree.branches htop hlevels chain hchain

theorem Aligned.valid {tree : Tree α} (h : tree.Aligned) {row : Route α} (hrow : row ∈ tree.routes)
    (hne : row.path ≠ "") : row.Valid := by
  obtain ⟨template, hwf, hpath⟩ := Branch.exists_template_of_mem_routesAll h row hrow
  refine Route.valid_of_path_eq ?_ hwf hpath
  rintro rfl
  exact hne hpath

/-- A tree whose missing endpoint is that of no leaf falls back to it if and only if none of its
chains hits. -/
theorem resolve_endpoint_eq_missing_iff {tree : Tree α}
    (absent : tree.missing ∉ tree.routes.map Route.endpoint) (method path : String) :
    (tree.resolve method path).endpoint = tree.missing ↔
      tree.chains.findSome? (Chain.hit? method · path.toList) = none := by
  rw [resolve_eq]
  cases hfind : tree.chains.findSome? (Chain.hit? method · path.toList) with
  | none => simp
  | some hit =>
    obtain ⟨chain, hchain, hhit⟩ := List.exists_of_findSome?_eq_some hfind
    obtain ⟨-, values, -, rfl⟩ := Chain.hit?_eq_some_iff.mp hhit
    simp only [reduceCtorEq, iff_false]
    intro heq
    apply absent
    rw [routes_eq_map_chains, List.map_map]
    exact List.mem_map.mpr ⟨chain, hchain, heq⟩

/-- **A tree whose prefixes are whole segments and the grouped tree of its listing fall back to the
missing endpoint for the same requests,** and they resolve every request alike if their listings
agree. -/
theorem regrouped_resolves_alike (tree : Tree α) (aligned : tree.Aligned)
    (listed : ∀ row ∈ tree.routes, row.path ≠ "")
    (absent : tree.missing ∉ tree.routes.map Route.endpoint) :
    ∃ regrouped, Tree.ofRoutes tree.missing tree.routes = .ok regrouped ∧
      ∀ method path,
        ((regrouped.resolve method path).endpoint = tree.missing ↔
          (tree.resolve method path).endpoint = tree.missing) ∧
        (regrouped.routes = tree.routes →
          regrouped.resolve method path = tree.resolve method path) := by
  have valid : ∀ row ∈ tree.routes, row.Valid := fun row hrow =>
    aligned.valid hrow (listed row hrow)
  have hperm := Route.arranged_perm tree.routes
  refine ⟨grouped tree.missing tree.routes, ofRoutes_eq_ok _ valid, fun method path => ⟨?_, ?_⟩⟩
  · have habsent : (grouped tree.missing tree.routes).missing ∉
        (grouped tree.missing tree.routes).routes.map Route.endpoint := by
      rw [routes_grouped _ valid, (hperm.map _).mem_iff]
      exact absent
    refine (resolve_endpoint_eq_missing_iff habsent method path).trans ?_
    rw [resolve_endpoint_eq_missing_iff absent, ← aligned.findSome?_routes, chains_grouped,
      List.findSome?_map, List.findSome?_eq_none_iff, List.findSome?_eq_none_iff]
    simp only [hperm.mem_iff, Function.comp_apply]
  · intro hsame
    rw [routes_grouped _ valid] at hsame
    rw [resolve_grouped, hsame, aligned.findSome?_routes]
    exact (resolve_eq tree method path).symm

end Tree

/-- A tree with a prefix of two segments, a prefix that is there twice and a node that takes
nothing. Grouping keeps the order of its routes. -/
def handBuiltTree : Tree String :=
  ⟨"Missing",
    [.path "/users/all" [.leaf .get "All"],
      .path "/users" [.leaf .post "Create",
        .path "" [.param "id" [.leaf .get "ById", .path "/posts" [.leaf .get "Posts"]]]],
      .path "/log_in" [.leaf .get "LogIn"]]⟩

theorem handBuiltTree_regrouped_resolves_alike :
    (handBuiltTree.Aligned ∧ (∀ row ∈ handBuiltTree.routes, row.path ≠ "") ∧
        handBuiltTree.missing ∉ handBuiltTree.routes.map Route.endpoint) ∧
      ∃ regrouped, Tree.ofRoutes handBuiltTree.missing handBuiltTree.routes = .ok regrouped ∧
        regrouped.routes = handBuiltTree.routes ∧
        ∀ method path,
          ((regrouped.resolve method path).endpoint = handBuiltTree.missing ↔
            (handBuiltTree.resolve method path).endpoint = handBuiltTree.missing) ∧
          regrouped.resolve method path = handBuiltTree.resolve method path := by
  have aligned : handBuiltTree.Aligned := by
    have hall : (Step.literal "/users/all").Aligned := ⟨["users", "all"], by decide, by decide⟩
    have husers : (Step.literal "/users").Aligned := ⟨["users"], by decide, by decide⟩
    have hempty : (Step.literal "").Aligned := ⟨[], by decide, by decide⟩
    have hid : (Step.capture "id").Aligned := by constructor <;> decide
    have hposts : (Step.literal "/posts").Aligned := ⟨["posts"], by decide, by decide⟩
    have hlog : (Step.literal "/log_in").Aligned := ⟨["log_in"], by decide, by decide⟩
    simp [Tree.Aligned, Tree.levels, handBuiltTree, Branch.levelsAll, Branch.levels,
      Branch.Aligned, Branch.step?, hall, husers, hempty, hid, hposts, hlog]
  have listed : ∀ row ∈ handBuiltTree.routes, row.path ≠ "" := by decide
  have absent : handBuiltTree.missing ∉ handBuiltTree.routes.map Route.endpoint := by decide
  have hsame : (Tree.ofRoutes handBuiltTree.missing handBuiltTree.routes).map Tree.routes =
      .ok handBuiltTree.routes := by decide +kernel
  obtain ⟨regrouped, hregrouped, hresolve⟩ :=
    Tree.regrouped_resolves_alike handBuiltTree aligned listed absent
  rw [hregrouped] at hsame
  have hroutes : regrouped.routes = handBuiltTree.routes := Except.ok.inj hsame
  refine ⟨⟨aligned, listed, absent⟩, regrouped, hregrouped, hroutes, fun method path => ?_⟩
  exact ⟨(hresolve method path).1, (hresolve method path).2 hroutes⟩

end HttpRoutes
