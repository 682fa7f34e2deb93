import HttpRoutes.Proofs.PathGrammar
import HttpRoutes.RouteTable.Load
import Mathlib.Data.List.DropRight
import Mathlib.Data.List.TakeWhile
import Mathlib.Data.Nat.Find
import Mathlib.Tactic.MkIffOfInductiveProp

/-!
# The problems of a table

The problems of a table are said here one kind at a time, without the order in which they are looked
for: what each of them is about, and when a table has it. A table reports what it has, each problem
once, those of the settings first and then row by row.

* `Text.trimmed` : a text without the blanks at its ends (`Text.trimmed_eq_empty_iff`);
* `TableRow.DeclaredAt rows index row` : row `index` has the method and the path of `row`;
* `TableRow.FirstSeen.Of seen rows` : a look into what has been seen is a search through `rows`
  (`TableRow.FirstSeen.Of.note`);
* `RouteTable.Has` : the problems that a table has (`RouteTable.mem_problems_iff`,
  `RouteTable.exists_duplicate_iff`);
* `Problem.rank` : where a problem stands (`RouteTable.pairwise_rank_problems`);
* `RouteTable.problems_reported_once_in_order` : the list of the problems of a table.
-/

namespace HttpRoutes

/-! ## Texts and methods -/

namespace Text

/-- A text without the blanks at its ends. -/
def trimmed (text : String) : String :=
  String.ofList ((text.toList.dropWhile isBlank).rdropWhile isBlank)

theorem trimmed_eq_empty_iff {text : String} : trimmed text = "" ↔ allBlank text = true := by
  have hnil : trimmed text = "" ↔ (text.toList.dropWhile isBlank).rdropWhile isBlank = [] := by
    rw [trimmed, ← String.toList_eq_nil_iff, String.toList_ofList]
  rw [hnil, List.rdropWhile_eq_nil_iff, allBlank, List.all_eq_true]
  constructor
  · intro h c hc
    rw [← List.takeWhile_append_dropWhile (p := isBlank) (l := text.toList)] at hc
    rcases List.mem_append.mp hc with hc | hc
    · exact List.mem_takeWhile_imp hc
    · exact h c hc
  · exact fun h c hc => h c ((List.dropWhile_suffix isBlank).subset hc)

end Text

theorem Method.parse_eq_error_iff {text : String} {cause : RouteError} :
    Method.parse text = .error cause ↔
      text ∉ Method.all.map Method.name ∧ cause = .unknownMethod text := by
  unfold Method.parse
  cases hfound : ofName? text with
  | some method =>
    have hmem : text ∈ Method.all.map Method.name :=
      List.mem_map.mpr ⟨method, mem_all method, name_eq_of_ofName? hfound⟩
    simp [hmem]
  | none =>
    have hnotMem : text ∉ Method.all.map Method.name := by
      intro hmem
      obtain ⟨method, hmethod, rfl⟩ := List.mem_map.mp hmem
      exact List.find?_eq_none.mp hfound method hmethod (beq_self_eq_true _)
    simp [hnotMem, eq_comm]

namespace TableRow

/-! ## The problems of a row -/

/-- Row `index` of `rows` has the method text and the path text of `row`. -/
def DeclaredAt (rows : List TableRow) (index : Nat) (row : TableRow) : Prop :=
  ∃ other, rows[index]? = some other ∧ other.method = row.method ∧ other.path = row.path

theorem declaredAt_iff {rows : List TableRow} {index : Nat} {row : TableRow} :
    DeclaredAt rows index row ↔
      ∃ h : index < rows.length, (rows[index].key == row.key) = true := by
  simp [DeclaredAt, key, List.getElem?_eq_some_iff]

/-- A search through the rows above finds the first row with the method and the path. -/
theorem findIdx?_take_eq_some_iff {rows : List TableRow} {index first : Nat} {row : TableRow} :
    (rows.take index).findIdx? (·.key == row.key) = some first ↔
      first < index ∧ DeclaredAt rows first row ∧ ∀ k < first, ¬ DeclaredAt rows k row := by
  simp only [List.findIdx?_eq_some_iff_getElem, List.getElem_take, List.length_take, Nat.lt_min,
    declaredAt_iff]
  constructor
  · rintro ⟨⟨hindex, hlength⟩, hkey, hleast⟩
    exact ⟨hindex, ⟨hlength, hkey⟩, fun k hk ⟨_, hkey'⟩ => hleast k hk hkey'⟩
  · rintro ⟨hindex, ⟨hlength, hkey⟩, hleast⟩
    exact ⟨⟨hindex, hlength⟩, hkey, fun k hk hkey' => hleast k hk ⟨hk.trans hlength, hkey'⟩⟩

/-- A look into what has been seen is a search through `rows`. -/
def FirstSeen.Of (seen : FirstSeen) (rows : List TableRow) : Prop :=
  ∀ key, seen.lookup key = rows.findIdx? (·.key == key)

theorem FirstSeen.of_nil : Of [] [] := fun _ => rfl

/-- One row more: a key that was found is still found where it was, and the key of the row is now
found at least there. -/
theorem FirstSeen.Of.note {seen : FirstSeen} {rows : List TableRow} (h : seen.Of rows)
    (row : TableRow) : (seen.note rows.length row).Of (rows ++ [row]) := by
  intro key
  rw [List.findIdx?_append, List.findIdx?_singleton, ← h key, FirstSeen.note]
  by_cases hkey : row.key = key
  · subst hkey
    cases hlookup : seen.lookup row.key with
    | some first => simp [hlookup]
    | none => simp
  · have hother : (key == row.key) = false := by simpa using Ne.symm hkey
    cases seen.lookup row.key with
    | some _ => simp [hkey]
    | none => simp [hkey, List.lookup_cons, hother]

/-- The problems that the row `index` of a table has. -/
@[mk_iff]
inductive Has (rows : List TableRow) (index : Nat) (row : TableRow) : Problem → Prop
  | unknownMethod (h : row.method ∉ Method.all.map Method.name) :
    Has rows index row (.badRoute index (.unknownMethod row.method))
  | badPath {cause : RouteError} (h : validatePath row.path = .error cause) :
    Has rows index row (.badRoute index cause)
  | emptyEndpoint (h : Text.trimmed row.endpoint = "") : Has rows index row (.emptyEndpoint index)
  /-- Row `first` is above and is the first one with the method and the path. -/
  | duplicate {first : Nat} (hfirst : first < index) (h : DeclaredAt rows first row)
    (hleast : ∀ k < first, ¬ DeclaredAt rows k row) :
    Has rows index row (.duplicate index first row.method row.path)

theorem mem_complaint_iff {γ : Type} {index : Nat} {result : Except RouteError γ}
    {problem : Problem} :
    problem ∈ complaint index result ↔
      ∃ cause, result = .error cause ∧ problem = .badRoute index cause := by
  cases result <;> simp [complaint]

/-- A row reports the problems that it has, whatever the others of them are. -/
theorem mem_problems_iff {rows : List TableRow} {index : Nat} {row : TableRow} {seen : FirstSeen}
    (hseen : seen.Of (rows.take index)) {problem : Problem} :
    problem ∈ problems seen index row ↔ Has rows index row problem := by
  have hmethod : problem ∈ complaint index (Method.parse row.method) ↔
      row.method ∉ Method.all.map Method.name ∧
        problem = .badRoute index (.unknownMethod row.method) := by
    simp only [mem_complaint_iff, Method.parse_eq_error_iff, and_assoc, exists_and_left,
      exists_eq_left]
  have hfirst : (∃ first, first < index ∧ DeclaredAt rows first row ∧
      (∀ k < first, ¬ DeclaredAt rows k row) ∧
        problem = .duplicate index first row.method row.path) ↔
      ∃ first, seen.lookup row.key = some first ∧
        problem = .duplicate index first row.method row.path := by
    simp only [hseen row.key, findIdx?_take_eq_some_iff, and_assoc]
  rw [has_iff, hfirst]
  simp only [problems, List.mem_append, hmethod, mem_complaint_iff, List.mem_ite_nil_right,
    Text.trimmed_eq_empty_iff, List.mem_singleton, or_assoc]
  cases seen.lookup row.key <;> simp

/-- The rows behind the rows `earlier` report what they have. -/
theorem mem_problemsFrom_iff {seen : FirstSeen} {earlier rows : List TableRow}
    (hseen : seen.Of earlier) {problem : Problem} :
    problem ∈ problemsFrom seen earlier.length rows ↔
      ∃ index row, rows[index]? = some row ∧
        Has (earlier ++ rows) (earlier.length + index) row problem := by
  -- what has been seen at a row is what stands above it
  induction rows generalizing seen earlier with
  | nil => simp [problemsFrom]
  | cons row rows ih =>
    have hhere : problem ∈ problems seen earlier.length row ↔
        Has (earlier ++ row :: rows) earlier.length row problem :=
      mem_problems_iff (by rwa [List.take_left])
    have hrest := ih (hseen.note row)
    rw [List.length_append, List.length_singleton, List.append_assoc,
      List.singleton_append] at hrest
    rw [problemsFrom, List.mem_append, hhere, hrest]
    constructor
    · rintro (hhas | ⟨index, other, hother, hhas⟩)
      · exact ⟨0, row, rfl, hhas⟩
      · refine ⟨index + 1, other, hother, ?_⟩
        rwa [Nat.add_comm index, ← Nat.add_assoc]
    · rintro ⟨index, other, hother, hhas⟩
      cases index with
      | zero =>
        obtain rfl : row = other := by simpa using hother
        exact Or.inl hhas
      | succ index =>
        refine Or.inr ⟨index, other, hother, ?_⟩
        rwa [Nat.add_assoc, Nat.add_comm 1]

end TableRow

/-! ## The order of the problems -/

/-- Where a problem stands in the list: behind those of the settings come those of each row, its
method before its path, its endpoint and an earlier row. -/
def Problem.rank : Problem → Nat
  | .emptyMissing => 0
  | .unknownLogLevel _ => 1
  | .badRoute index (.unknownMethod _) => 4 * index + 2
  | .badRoute index _ => 4 * index + 3
  | .emptyEndpoint index => 4 * index + 4
  | .duplicate index _ _ _ => 4 * index + 5

theorem Problem.rank_of_rejected {index : Nat} {path : String} {cause : RouteError}
    (h : Rejected path cause) : (Problem.badRoute index cause).rank = 4 * index + 3 := by
  cases h <;> rfl

namespace TableRow

/-- A row has four places in the list, and each of its checks fills at most its own. -/
theorem map_rank_problems_sublist (seen : FirstSeen) (index : Nat) (row : TableRow) :
    ((problems seen index row).map Problem.rank).Sublist (List.range' (4 * index + 2) 4) := by
  have hmethod : ((complaint index (Method.parse row.method)).map Problem.rank).Sublist
      [4 * index + 2] := by
    cases hparse : Method.parse row.method with
    | ok method => exact List.nil_sublist _
    | error cause =>
      obtain ⟨-, rfl⟩ := Method.parse_eq_error_iff.mp hparse
      exact List.Sublist.refl _
  have hpath : ((complaint index (validatePath row.path)).map Problem.rank).Sublist
      [4 * index + 3] := by
    cases hvalid : validatePath row.path with
    | ok _ => exact List.nil_sublist _
    | error cause =>
      rw [complaint, List.map_singleton,
        Problem.rank_of_rejected (validatePath_eq_error_iff.mp hvalid)]
  have hendpoint : ((if Text.allBlank row.endpoint then
      [Problem.emptyEndpoint index] else []).map Problem.rank).Sublist [4 * index + 4] := by
    split
    · exact List.Sublist.refl _
    · exact List.nil_sublist _
  rw [problems, List.map_append, List.map_append, List.map_append]
  refine ((hmethod.append hpath).append hendpoint).append (?_ : List.Sublist _ [4 * index + 5])
  split
  · exact List.Sublist.refl _
  · exact List.nil_sublist _

theorem map_rank_problemsFrom_sublist (seen : FirstSeen) (index : Nat) (rows : List TableRow) :
    ((problemsFrom seen index rows).map Problem.rank).Sublist
      (List.range' (4 * index + 2) (4 * rows.length)) := by
  induction rows generalizing seen index with
  | nil => exact List.nil_sublist _
  | cons row rows ih =>
    have hrange : List.range' (4 * index + 2) (4 * (row :: rows).length) =
        List.range' (4 * index + 2) 4 ++ List.range' (4 * (index + 1) + 2) (4 * rows.length) := by
      rw [List.length_cons, Nat.mul_succ, Nat.add_comm _ 4, ← List.range'_append_1]
      rfl
    rw [problemsFrom, List.map_append, hrange]
    exact (map_rank_problems_sublist seen index row).append (ih _ _)

end TableRow

namespace RouteTable

/-! ## The problems of the whole -/

/-- The problems that a table has. -/
inductive Has (table : RouteTable) : Problem → Prop
  | emptyMissing (h : Text.trimmed table.missing = "") : Has table .emptyMissing
  /-- The log level is none of the five, the case of its ASCII letters aside. -/
  | unknownLogLevel (h : String.ofList (table.observability.logLevel.toList.map Char.toLower) ∉
      ["trace", "debug", "info", "warn", "error"]) :
    Has table (.unknownLogLevel table.observability.logLevel)
  | row {index : Nat} {row : TableRow} {problem : Problem}
    (hrow : table.rows[index]? = some row) (h : TableRow.Has table.rows index row problem) :
    Has table problem

/-- **A table reports the problems that it has and no others.** -/
theorem mem_problems_iff {table : RouteTable} {problem : Problem} :
    problem ∈ table.problems ↔ table.Has problem := by
  have hrows : problem ∈ TableRow.problemsFrom [] 0 table.rows ↔
      ∃ index row, table.rows[index]? = some row ∧
        TableRow.Has table.rows index row problem := by
    simpa using TableRow.mem_problemsFrom_iff TableRow.FirstSeen.of_nil
  have hlevel : isLogLevel table.observability.logLevel = true ↔
      String.ofList (table.observability.logLevel.toList.map Char.toLower) ∈
        ["trace", "debug", "info", "warn", "error"] := by
    rw [isLogLevel, List.contains_iff_mem, logLevels]
  rw [problems, List.mem_append, List.mem_append, hrows, List.mem_ite_nil_right,
    List.mem_ite_nil_left, hlevel, ← Text.trimmed_eq_empty_iff, List.mem_singleton,
    List.mem_singleton]
  constructor
  · rintro ((⟨h, rfl⟩ | ⟨h, rfl⟩) | ⟨index, row, hrow, hhas⟩)
    · exact .emptyMissing h
    · exact .unknownLogLevel h
    · exact .row hrow hhas
  · intro h
    cases h with
    | emptyMissing h => exact Or.inl (Or.inl ⟨h, rfl⟩)
    | unknownLogLevel h => exact Or.inl (Or.inr ⟨h, rfl⟩)
    | row hrow h => exact Or.inr ⟨_, _, hrow, h⟩

/-- A table reports a row as a duplicate if and only if its method and path stand above. -/
theorem exists_duplicate_iff {table : RouteTable} {index : Nat} :
    (∃ first method path, .duplicate index first method path ∈ table.problems) ↔
      ∃ row, table.rows[index]? = some row ∧
        ∃ earlier < index, TableRow.DeclaredAt table.rows earlier row := by
  constructor
  · rintro ⟨first, method, path, hproblem⟩
    rcases mem_problems_iff.mp hproblem with _ | _ | ⟨hrow, hhas⟩
    cases hhas with
    | duplicate hfirst hdeclared _ => exact ⟨_, hrow, first, hfirst, hdeclared⟩
  · rintro ⟨row, hrow, hearlier⟩
    classical
    obtain ⟨hlt, hdeclared⟩ := Nat.find_spec hearlier
    refine ⟨Nat.find hearlier, row.method, row.path, mem_problems_iff.mpr (.row hrow ?_)⟩
    exact .duplicate hlt hdeclared fun k hk hk' => Nat.find_min hearlier hk ⟨hk.trans hlt, hk'⟩

theorem map_rank_problems_sublist (table : RouteTable) :
    (table.problems.map Problem.rank).Sublist (List.range (4 * table.rows.length + 2)) := by
  have hmissing : ((if Text.allBlank table.missing then [Problem.emptyMissing] else []).map
      Problem.rank).Sublist [0] := by
    split
    · exact List.Sublist.refl _
    · exact List.nil_sublist _
  have hlevel : ((if isLogLevel table.observability.logLevel then []
      else [Problem.unknownLogLevel table.observability.logLevel]).map Problem.rank).Sublist
      [1] := by
    split
    · exact List.nil_sublist _
    · exact List.Sublist.refl _
  have hrows := TableRow.map_rank_problemsFrom_sublist [] 0 table.rows
  rw [problems, List.map_append, List.map_append, List.range_eq_range', Nat.add_comm,
    ← List.range'_append_1]
  exact (hmissing.append hlevel).append hrows

theorem pairwise_rank_problems (table : RouteTable) :
    table.problems.Pairwise (·.rank < ·.rank) := by
  have hsorted := (List.pairwise_lt_range).sublist table.map_rank_problems_sublist
  exact List.pairwise_map.mp hsorted

theorem validated_eq_ok_iff {table : RouteTable} :
    table.validated = .ok table ↔ table.problems = [] := by
  unfold validated
  split <;> simp_all

theorem validated_eq_error_iff {table : RouteTable} {problems : List Problem} :
    table.validated = .error (.invalid problems) ↔ problems ≠ [] ∧ table.problems = problems := by
  unfold validated
  split
  · next hnil =>
    constructor
    · intro h
      cases h
    · rintro ⟨hne, rfl⟩
      exact absurd hnil hne
  · next problem rest hcons =>
    constructor
    · intro h
      cases h
      exact ⟨List.cons_ne_nil _ _, hcons⟩
    · rintro ⟨-, rfl⟩
      rw [hcons]

/-- **The list of the problems of a table** is the one list that holds what the table has, in the
order of the ranks. -/
theorem problems_reported_once_in_order (table : RouteTable) :
    (∀ problems : List Problem, table.problems = problems ↔
      (∀ problem, problem ∈ problems ↔ table.Has problem) ∧
        problems.Pairwise (·.rank < ·.rank)) ∧
    (table.validated = .ok table ↔ table.problems = []) ∧
    ∀ problems : List Problem, table.validated = .error (.invalid problems) ↔
      problems ≠ [] ∧ table.problems = problems := by
  refine ⟨fun problems => ⟨?_, ?_⟩, ?_, fun problems => ?_⟩
  · rintro rfl
    exact ⟨fun _ => mem_problems_iff, table.pairwise_rank_problems⟩
  · rintro ⟨hmem, hsorted⟩
    have hnodup : ∀ {list : List Problem}, list.Pairwise (·.rank < ·.rank) → list.Nodup :=
      fun h => h.imp fun hlt heq => (heq ▸ hlt).false
    have hperm : table.problems.Perm problems :=
      (List.perm_ext_iff_of_nodup (hnodup table.pairwise_rank_problems) (hnodup hsorted)).mpr
        fun problem => mem_problems_iff.trans (hmem problem).symm
    refine hperm.eq_of_pairwise ?_ table.pairwise_rank_problems hsorted
    exact fun _ _ _ _ hlt hgt => absurd hgt hlt.asymm
  · exact validated_eq_ok_iff
  · exact validated_eq_error_iff

end RouteTable

example : RouteTable.problems
    ⟨" ", [⟨"GET", "/a", "A"⟩, ⟨"get", "b", "\t"⟩, ⟨"get", "b", "B"⟩, ⟨"get", "b", "C"⟩], ⟨"loud"⟩⟩ =
      [.emptyMissing, .unknownLogLevel "loud",
        .badRoute 1 (.unknownMethod "get"), .badRoute 1 (.missingLeadingSlash "b"), .emptyEndpoint 1,
        .badRoute 2 (.unknownMethod "get"), .badRoute 2 (.missingLeadingSlash "b"),
        .duplicate 2 1 "get" "b",
        .badRoute 3 (.unknownMethod "get"), .badRoute 3 (.missingLeadingSlash "b"),
        .duplicate 3 1 "get" "b"] := by
  decide

end HttpRoutes
