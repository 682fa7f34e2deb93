import HttpRoutes.Json.Reader
import HttpRoutes.Json.Writer
import Mathlib.Data.List.Basic
import Mathlib.Data.List.TakeWhile

/-!
# Reading written JSON

A value that is written without white space is one line of text and is read as that value.

* `escape_cases` : how a character is written in a string literal;
* `readPieces_escape_append`, `readText_literal_append` : a string literal is read as its string;
* `NumberFree v` : no number occurs in `v`;
* `compactItems_eq`, `compactMembers_eq` : what is in an array or an object, with commas in between;
* `readItems_intercalate`, `readList_intercalate` : items with commas in between are read one by
  one;
* `readValue_compactChars`, `parse_compact_append` : a written value is read as that value;
* `newline_notMem_compactChars` : it is written on one line.
-/

namespace HttpRoutes.Json

/-! ## String literals -/

/-- The escapes by number are those of the controls. -/
theorem hexUnit?_control : ∀ unit < 0x20,
    hexUnit? '0' '0' (Nat.digitChar (unit / 16)) (Nat.digitChar (unit % 16)) = some unit := by
  decide

/-- A character is escaped by a letter or, being a control, by its number, or stands for itself. -/
theorem escape_cases (c : Char) :
    (∃ letter, shortEscape? letter = some c ∧ letter ≠ 'u' ∧ letter ≠ '\n' ∧
      escape c = ['\\', letter]) ∨
    (c.toNat < 0x20 ∧ escape c =
      ['\\', 'u', '0', '0', Nat.digitChar (c.toNat / 16), Nat.digitChar (c.toNat % 16)]) ∨
    (c ≠ '"' ∧ c ≠ '\\' ∧ ¬ c.toNat < 0x20 ∧ escape c = [c]) := by
  by_cases hquote : c = '"'
  · subst hquote; exact Or.inl ⟨'"', by decide⟩
  by_cases hslash : c = '\\'
  · subst hslash; exact Or.inl ⟨'\\', by decide⟩
  by_cases hback : c = '\x08'
  · subst hback; exact Or.inl ⟨'b', by decide⟩
  by_cases htab : c = '\t'
  · subst htab; exact Or.inl ⟨'t', by decide⟩
  by_cases hfeed : c = '\n'
  · subst hfeed; exact Or.inl ⟨'n', by decide⟩
  by_cases hform : c = '\x0c'
  · subst hform; exact Or.inl ⟨'f', by decide⟩
  by_cases hreturn : c = '\r'
  · subst hreturn; exact Or.inl ⟨'r', by decide⟩
  right
  by_cases hcontrol : c.toNat < 0x20
  · exact Or.inl ⟨hcontrol, by simp [escape, *]⟩
  · exact Or.inr ⟨hquote, hslash, hcontrol, by simp [escape, *]⟩

theorem readPieces_letter {letter c : Char} (hletter : letter ≠ 'u')
    (hshort : shortEscape? letter = some c) (rest : List Char) :
    readPieces ('\\' :: letter :: rest) =
      (readPieces rest).map fun (pieces, rest) => (.char c :: pieces, rest) := by
  rw [readPieces]
  · rw [hshort]
    cases readPieces rest <;> rfl
  · simp [hletter]

/-- **An escaped character is read as that character.** -/
theorem readPieces_escape_append (c : Char) (rest : List Char) :
    readPieces (escape c ++ rest) =
      (readPieces rest).map fun (pieces, rest) => (.char c :: pieces, rest) := by
  rcases escape_cases c with ⟨letter, hshort, hletter, -, hescape⟩ | ⟨hcontrol, hescape⟩ |
    ⟨hquote, hslash, hplain, hescape⟩
  · rw [hescape]
    exact readPieces_letter hletter hshort rest
  · have hunit : Piece.ofUnit c.toNat = .char c := by
      rw [Piece.ofUnit, if_neg (by simp; omega), Char.ofNat_toNat]
    rw [hescape]
    simp only [List.cons_append, List.nil_append, readPieces, hexUnit?_control _ hcontrol]
    cases readPieces rest with
    | none => rfl
    | some read => simp [hunit]
  · rw [hescape, List.singleton_append, readPieces, if_neg hplain]
    · exact fun heq => hquote heq
    · simp [hslash]
    · simp [hslash]

theorem readPieces_escaped (cs rest : List Char) :
    readPieces (cs.flatMap escape ++ '"' :: rest) = some (cs.map .char, rest) := by
  induction cs with
  | nil => rfl
  | cons c cs ih =>
    rw [List.flatMap_cons, List.append_assoc, readPieces_escape_append, ih]
    rfl

theorem joinPieces_map_char (cs : List Char) : joinPieces (cs.map .char) = some cs := by
  induction cs with
  | nil => rfl
  | cons c cs ih => rw [List.map_cons, joinPieces, ih, Option.map_some]

theorem literal_eq_cons (content : Option String) :
    literal content = '"' :: (literal content).tail := by
  cases content <;> rfl

/-- **A string literal is read as its string,** and what stands behind it is left. -/
theorem readText_literal_append (content : Option String) (rest : List Char) :
    readText ((literal content).tail ++ rest) = some (content, rest) := by
  cases content with
  | none => rfl
  | some s =>
    rw [literal, List.tail_cons, List.append_assoc, List.singleton_append, readText,
      readPieces_escaped]
    simp [joinPieces_map_char]

/-! ## Written values -/

/-- No number occurs in a value. -/
inductive NumberFree : Json → Prop where
  | null : NumberFree null
  | bool (value : Bool) : NumberFree (bool value)
  | text (content : Option String) : NumberFree (text content)
  | array {items : List Json} (h : ∀ item ∈ items, NumberFree item) : NumberFree (array items)
  | object {members : List (Option String × Json)} (h : ∀ member ∈ members, NumberFree member.2) :
    NumberFree (object members)

/-- A member of an object, as it is written. -/
def memberChars (member : Option String × Json) : List Char :=
  literal member.1 ++ ':' :: compactChars member.2

theorem memberChars_eq_cons (member : Option String × Json) :
    memberChars member = '"' :: (memberChars member).tail := by
  rw [memberChars, literal_eq_cons]
  rfl

theorem compactItems_eq (items : List Json) :
    compactItems items = [','].intercalate (items.map compactChars) := by
  induction items with
  | nil => rfl
  | cons item items ih =>
    cases items with
    | nil => simp [compactItems]
    | cons next items =>
      rw [compactItems, ih]
      · simp [List.intercalate_cons_cons]
      · simp

theorem compactMembers_eq (members : List (Option String × Json)) :
    compactMembers members = [','].intercalate (members.map memberChars) := by
  induction members with
  | nil => rfl
  | cons member members ih =>
    cases members with
    | nil => simp [compactMembers, memberChars]
    | cons next members =>
      rw [compactMembers, ih]
      · simp [memberChars, List.intercalate_cons_cons]
      · simp

/-- What a value starts with when it is written: not with white space, and with no closing
bracket. -/
theorem NumberFree.exists_cons {v : Json} (h : NumberFree v) :
    ∃ c tail, compactChars v = c :: tail ∧ isSpace c = false ∧ c ≠ ']' := by
  cases h with
  | null => exact ⟨'n', _, rfl, by decide⟩
  | bool value => cases value <;> exact ⟨_, _, rfl, by decide⟩
  | text content => exact ⟨'"', _, literal_eq_cons content, by decide⟩
  | array _ => exact ⟨'[', _, rfl, by decide⟩
  | object _ => exact ⟨'\x7b', _, rfl, by decide⟩

/-! ## Items between commas -/

theorem skipSpace_cons {c : Char} (h : isSpace c = false) (rest : List Char) :
    skipSpace (c :: rest) = c :: rest := by
  rw [skipSpace, List.dropWhile_cons_of_neg (by simp [h])]

section Items

variable {β : Type} {close : Char} {item : List Char → Option (β × List Char)}
  {write : β → List Char}

theorem readItems_intercalate (hclose : isSpace close = false) (hcomma : ',' ≠ close) {xs : List β}
    (hread : ∀ x ∈ xs, ∀ rest, item (write x ++ rest) = some (x, rest)) (hne : xs ≠ [])
    {count : Nat} (hcount : xs.length ≤ count) (rest : List Char) :
    readItems close item count ([','].intercalate (xs.map write) ++ close :: rest) =
      some (xs, rest) := by
  induction xs generalizing count with
  | nil => exact absurd rfl hne
  | cons x xs ih =>
    obtain ⟨hx, hxs⟩ := List.forall_mem_cons.mp hread
    obtain ⟨count, rfl⟩ : ∃ n, count = n + 1 := ⟨count - 1, by simp at hcount; omega⟩
    cases xs with
    | nil =>
      simp only [List.map_cons, List.map_nil, List.intercalate_singleton, readItems, hx,
        skipSpace_cons hclose]
      simp
    | cons next xs =>
      have hrest := ih hxs (List.cons_ne_nil _ _) (Nat.le_of_succ_le_succ hcount)
      rw [List.map_cons] at hrest
      simp only [List.map_cons, List.intercalate_cons_cons, List.append_assoc, List.cons_append,
        List.nil_append, readItems, hx, skipSpace_cons (show isSpace ',' = false by decide), hrest]
      simp [hcomma]

theorem length_le_length_intercalate {ys : List (List Char)} (h : ∀ y ∈ ys, y ≠ []) :
    ys.length ≤ ([','].intercalate ys).length := by
  induction ys with
  | nil => exact Nat.le_refl _
  | cons y ys ih =>
    obtain ⟨hy, hys⟩ := List.forall_mem_cons.mp h
    have hpos : 1 ≤ y.length := List.length_pos_of_ne_nil hy
    cases ys with
    | nil => simpa using hpos
    | cons next ys =>
      have := ih hys
      rw [List.intercalate_cons_cons, List.length_append, List.length_cons, List.length_append]
      omega

/-- Items with commas in between are read up to the closing character. -/
theorem readList_intercalate (hclose : isSpace close = false) (hcomma : ',' ≠ close) {xs : List β}
    (hread : ∀ x ∈ xs, ∀ rest, item (write x ++ rest) = some (x, rest))
    (hstart : ∀ x ∈ xs, ∃ c tail, write x = c :: tail ∧ isSpace c = false ∧ c ≠ close)
    (rest : List Char) :
    readList close item ([','].intercalate (xs.map write) ++ close :: rest) = some (xs, rest) := by
  cases xs with
  | nil => simp [readList, skipSpace_cons hclose]
  | cons x xs =>
    obtain ⟨c, tail, hwrite, hspace, hother⟩ := hstart x List.mem_cons_self
    obtain ⟨tail, hall⟩ : ∃ tail, [','].intercalate ((x :: xs).map write) = c :: tail := by
      cases xs with
      | nil => exact ⟨tail, by simp [hwrite]⟩
      | cons next xs =>
        rw [List.map_cons, List.map_cons, List.intercalate_cons_cons, hwrite]
        exact ⟨_, rfl⟩
    -- every item has a character, so the characters that are left are enough of a bound
    have hwritten : ∀ y ∈ (x :: xs).map write, y ≠ [] := by
      refine List.forall_mem_map.mpr fun y hy => ?_
      obtain ⟨c, tail, hwrite, -⟩ := hstart y hy
      rw [hwrite]
      exact List.cons_ne_nil _ _
    have hcount : (x :: xs).length ≤
        ([','].intercalate ((x :: xs).map write) ++ close :: rest).length := by
      have hlength := length_le_length_intercalate hwritten
      rw [List.length_map] at hlength
      rw [List.length_append]
      omega
    have hitems := readItems_intercalate hclose hcomma hread (List.cons_ne_nil x xs) hcount rest
    rw [hall, List.cons_append] at hitems ⊢
    rw [readList, skipSpace_cons hspace]
    simpa [hother] using hitems

end Items

/-! ## Values -/

theorem readMember_memberChars {value : List Char → Option (Json × List Char)}
    {member : Option String × Json}
    (hvalue : ∀ rest, value (compactChars member.2 ++ rest) = some (member.2, rest))
    (rest : List Char) : readMember value (memberChars member ++ rest) = some (member, rest) := by
  obtain ⟨name, v⟩ := member
  simp only [memberChars, List.append_assoc, List.cons_append]
  rw [literal_eq_cons, List.cons_append, readMember, skipSpace_cons (by decide)]
  simp only [readText_literal_append, skipSpace_cons (show isSpace ':' = false by decide), hvalue,
    Option.map_some]

theorem length_le_of_mem_intercalate {ys : List (List Char)} {y : List Char} (h : y ∈ ys) :
    y.length ≤ ([','].intercalate ys).length := by
  induction ys with
  | nil => cases h
  | cons first ys ih =>
    cases ys with
    | nil =>
      obtain rfl := List.mem_singleton.mp h
      simp
    | cons next ys =>
      rw [List.intercalate_cons_cons, List.length_append, List.length_append]
      rcases List.mem_cons.mp h with rfl | h
      · omega
      · have := ih h
        omega

/-- **A written value is read as that value,** and what stands behind it is left. The text of a
value is longer than those of its parts, so its length bounds how deep they nest. -/
theorem NumberFree.readValue_compactChars {v : Json} (h : NumberFree v) {depth : Nat}
    (hdepth : (compactChars v).length ≤ depth + 1) (rest : List Char) :
    readValue (depth + 1) (compactChars v ++ rest) = some (v, rest) := by
  induction h generalizing depth rest with
  | null => rfl
  | bool value => cases value <;> rfl
  | text content =>
    rw [compactChars, literal_eq_cons, List.cons_append, readValue, skipSpace_cons (by decide)]
    simp [readText_literal_append]
  | @array items hitems ih =>
    rw [compactChars, compactItems_eq] at hdepth ⊢
    simp only [List.length_cons, List.length_append, List.length_nil] at hdepth
    obtain ⟨depth, rfl⟩ : ∃ n, depth = n + 1 := ⟨depth - 1, by omega⟩
    have hread : ∀ item ∈ items, ∀ rest,
        readValue (depth + 1) (compactChars item ++ rest) = some (item, rest) := by
      intro item hitem rest
      have := length_le_of_mem_intercalate (List.mem_map_of_mem (f := compactChars) hitem)
      exact ih item hitem (by omega) rest
    have hlist := readList_intercalate (by decide) (by decide) hread
      (fun item hitem => (hitems item hitem).exists_cons) rest
    rw [List.cons_append, readValue, skipSpace_cons (by decide), List.append_assoc,
      List.singleton_append]
    simp only [hlist, Option.map_some]
  | @object members hmembers ih =>
    rw [compactChars, compactMembers_eq] at hdepth ⊢
    simp only [List.length_cons, List.length_append, List.length_nil] at hdepth
    obtain ⟨depth, rfl⟩ : ∃ n, depth = n + 1 := ⟨depth - 1, by omega⟩
    have hread : ∀ member ∈ members, ∀ rest,
        readMember (readValue (depth + 1)) (memberChars member ++ rest) = some (member, rest) := by
      intro member hmember
      refine readMember_memberChars fun rest => ih member hmember ?_ rest
      have := length_le_of_mem_intercalate (List.mem_map_of_mem (f := memberChars) hmember)
      simp only [memberChars, List.length_append, List.length_cons] at this
      omega
    have hstart : ∀ member ∈ members, ∃ c tail, memberChars member = c :: tail ∧
        isSpace c = false ∧ c ≠ '\x7d' :=
      fun member _ => ⟨'"', _, memberChars_eq_cons member, by decide⟩
    have hlist := readList_intercalate (by decide) (by decide) hread hstart rest
    rw [List.cons_append, readValue, skipSpace_cons (by decide), List.append_assoc,
      List.singleton_append]
    simp only [hlist, Option.map_some]

/-- **A value that is written without white space is read as that value,** whatever white space
stands behind it. -/
theorem NumberFree.parse_compact_append {v : Json} (h : NumberFree v) {space : String}
    (hspace : ∀ c ∈ space.toList, isSpace c = true) : parse (v.compact ++ space) = some v := by
  have hlength : (compactChars v).length ≤ (v.compact ++ space).toList.length + 1 := by
    simp only [compact, String.toList_append, String.toList_ofList, List.length_append]
    omega
  have hread := h.readValue_compactChars hlength space.toList
  have htext : (v.compact ++ space).toList = compactChars v ++ space.toList := by
    rw [compact, String.toList_append, String.toList_ofList]
  have hskip : skipSpace space.toList = [] := List.dropWhile_eq_nil_iff.mpr hspace
  rw [← htext] at hread
  rw [parse, hread]
  simp [hskip]

theorem NumberFree.parse_compact {v : Json} (h : NumberFree v) : parse v.compact = some v := by
  have hread := h.parse_compact_append (show ∀ c ∈ "".toList, isSpace c = true by simp)
  rwa [String.append_empty] at hread

/-! ## Lines -/

theorem newline_notMem_escape (c : Char) : '\n' ∉ escape c := by
  have hdigit : ∀ unit < 0x20,
      Nat.digitChar (unit / 16) ≠ '\n' ∧ Nat.digitChar (unit % 16) ≠ '\n' := by decide
  rcases escape_cases c with ⟨letter, -, -, hletter, hescape⟩ | ⟨hcontrol, hescape⟩ |
    ⟨-, -, hplain, hescape⟩
  · simp [hescape, hletter.symm]
  · obtain ⟨hhigh, hlow⟩ := hdigit _ hcontrol
    simp [hescape, hhigh.symm, hlow.symm]
  · rw [hescape, List.mem_singleton]
    rintro rfl
    exact hplain (by decide)

theorem newline_notMem_literal (content : Option String) : '\n' ∉ literal content := by
  cases content with
  | none => decide
  | some s => simp [literal, newline_notMem_escape]

theorem newline_notMem_intercalate {ys : List (List Char)} (h : ∀ y ∈ ys, '\n' ∉ y) :
    '\n' ∉ [','].intercalate ys := by
  induction ys with
  | nil => simp
  | cons y ys ih =>
    obtain ⟨hy, hys⟩ := List.forall_mem_cons.mp h
    cases ys with
    | nil => simpa using hy
    | cons next ys =>
      have := ih hys
      simp [List.intercalate_cons_cons, hy, this]

/-- **A value is written on one line,** whatever its strings hold. -/
theorem NumberFree.newline_notMem_compactChars {v : Json} (h : NumberFree v) :
    '\n' ∉ compactChars v := by
  induction h with
  | null => decide
  | bool value => cases value <;> decide
  | text content => exact newline_notMem_literal content
  | array _ ih =>
    have := newline_notMem_intercalate (List.forall_mem_map.mpr ih)
    simpa [compactChars, compactItems_eq] using this
  | @object members _ ih =>
    have hmembers : ∀ member ∈ members, '\n' ∉ memberChars member := by
      intro member hmember
      simp [memberChars, newline_notMem_literal, ih member hmember]
    have := newline_notMem_intercalate (List.forall_mem_map.mpr hmembers)
    simpa [compactChars, compactMembers_eq] using this

end HttpRoutes.Json
