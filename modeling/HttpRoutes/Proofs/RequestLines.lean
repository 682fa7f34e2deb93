import HttpRoutes.RequestLine
import Mathlib.Data.List.TakeWhile

/-!
# The text of a request line

A request line is two fields, and it does not matter what blanks are around them.

* `Text.IsField` : a text that can be a field;
* `Text.fields_append_cons` : a blank ends a field, so that fields can be taken apart there;
* `Text.exists_first_field`, `Text.fields_append_of_ends` : the first field of a text and the others;
* `Text.fields_eq_pair_iff` : the texts with two fields;
* `RequestLine.WellFormed` : a request line whose parts can be fields;
* `RequestLine.SpacedAs` : a text that shows a request line with blanks around its parts;
* `RequestLine.read_from_spaced_fields` : which texts are request lines, and of which.
-/

namespace HttpRoutes

/-! ## Fields -/

namespace Text

/-- A text that is not empty and has no blank in it. -/
structure IsField (cs : List Char) : Prop where
  ne_nil : cs ≠ []
  unblank : ∀ c ∈ cs, isBlank c = false

theorem fields_append_cons {c : Char} (hc : isBlank c = true) (before after : List Char) :
    fields (before ++ c :: after) = fields before ++ fields after := by
  rw [fields, List.splitOnP_append_cons before after hc, List.filter_append]
  rfl

theorem fields_nil : fields [] = [] := by
  simp [fields]

theorem fields_blank_cons {c : Char} (hc : isBlank c = true) (rest : List Char) :
    fields (c :: rest) = fields rest := by
  have hfields := fields_append_cons hc [] rest
  rwa [fields_nil, List.nil_append, List.nil_append] at hfields

theorem IsField.fields_eq {field : List Char} (h : IsField field) : fields field = [field] := by
  rw [fields, List.splitOnP_eq_singleton h.unblank, List.filter_cons_of_pos (by simp [h.ne_nil])]
  rfl

/-- Blanks in front hold no field. -/
theorem fields_blank_append {run : List Char} (hrun : ∀ c ∈ run, isBlank c = true)
    (after : List Char) : fields (run ++ after) = fields after := by
  induction run with
  | nil => rfl
  | cons c run ih =>
    obtain ⟨hc, hrun⟩ := List.forall_mem_cons.mp hrun
    rw [List.cons_append, fields_blank_cons hc, ih hrun]

theorem fields_of_blank {run : List Char} (hrun : ∀ c ∈ run, isBlank c = true) :
    fields run = [] := by
  have hfields := fields_blank_append hrun []
  rwa [List.append_nil, fields_nil] at hfields

/-- Between two texts blanks separate the fields of both, whatever blanks they are. -/
theorem fields_append_run {run : List Char} (hne : run ≠ []) (hrun : ∀ c ∈ run, isBlank c = true)
    (before after : List Char) : fields (before ++ run ++ after) = fields before ++ fields after := by
  obtain ⟨c, rest, rfl⟩ := List.exists_cons_of_ne_nil hne
  obtain ⟨hc, hrest⟩ := List.forall_mem_cons.mp hrun
  rw [List.append_assoc, List.cons_append, fields_append_cons hc, fields_blank_append hrest]

/-- A field ends where the text does or a blank stands. -/
theorem fields_append_of_ends {field after : List Char} (hfield : IsField field)
    (hends : ∀ c ∈ after.head?, isBlank c = true) :
    fields (field ++ after) = field :: fields after := by
  cases after with
  | nil => rw [List.append_nil, hfield.fields_eq, fields_nil]
  | cons c rest =>
    have hc : isBlank c = true := hends c rfl
    rw [fields_append_cons hc, hfield.fields_eq, fields_blank_cons hc, List.singleton_append]

theorem exists_run {β : Type} (p : β → Bool) (items : List β) :
    ∃ run rest, items = run ++ rest ∧ (∀ item ∈ run, p item = true) ∧
      ∀ item ∈ rest.head?, p item = false := by
  refine ⟨items.takeWhile p, items.dropWhile p, List.takeWhile_append_dropWhile.symm,
    fun item => List.mem_takeWhile_imp, fun item hitem => ?_⟩
  have hhead := List.head?_dropWhile_not p items
  rw [Option.mem_def] at hitem
  rwa [hitem] at hhead

theorem exists_first_field (cs : List Char) :
    (∀ c ∈ cs, isBlank c = true) ∨
      ∃ lead field after, cs = lead ++ (field ++ after) ∧ (∀ c ∈ lead, isBlank c = true) ∧
        IsField field ∧ ∀ c ∈ after.head?, isBlank c = true := by
  obtain ⟨lead, rest, rfl, hlead, hrest⟩ := exists_run isBlank cs
  cases rest with
  | nil =>
    left
    rwa [List.append_nil]
  | cons c rest =>
    obtain ⟨more, after, rfl, hmore, hafter⟩ := exists_run (!isBlank ·) rest
    refine Or.inr ⟨lead, c :: more, after, rfl, hlead, ⟨List.cons_ne_nil c more, ?_⟩, ?_⟩
    · refine List.forall_mem_cons.mpr ⟨hrest c rfl, fun d hd => ?_⟩
      simpa using hmore d hd
    · exact fun d hd => by simpa using hafter d hd

theorem fields_eq_nil_iff {cs : List Char} : fields cs = [] ↔ ∀ c ∈ cs, isBlank c = true := by
  constructor
  · intro h
    rcases exists_first_field cs with hblank | ⟨lead, field, after, rfl, hlead, hfield, hends⟩
    · exact hblank
    · rw [fields_blank_append hlead, fields_append_of_ends hfield hends] at h
      cases h
  · exact fields_of_blank

theorem fields_eq_cons_iff {cs field : List Char} {others : List (List Char)} :
    fields cs = field :: others ↔
      ∃ lead after, cs = lead ++ (field ++ after) ∧ (∀ c ∈ lead, isBlank c = true) ∧
        IsField field ∧ (∀ c ∈ after.head?, isBlank c = true) ∧ fields after = others := by
  constructor
  · intro h
    rcases exists_first_field cs with hblank | ⟨lead, first, after, rfl, hlead, hfirst, hends⟩
    · rw [fields_of_blank hblank] at h
      cases h
    · rw [fields_blank_append hlead, fields_append_of_ends hfirst hends] at h
      obtain ⟨rfl, hothers⟩ := List.cons.inj h
      exact ⟨lead, after, rfl, hlead, hfirst, hends, hothers⟩
  · rintro ⟨lead, after, rfl, hlead, hfield, hends, rfl⟩
    rw [fields_blank_append hlead, fields_append_of_ends hfield hends]

/-- **A text has two fields** if it is these, with blanks between them and perhaps around them. -/
theorem fields_eq_pair_iff {cs first second : List Char} :
    fields cs = [first, second] ↔ IsField first ∧ IsField second ∧
      ∃ lead gap trail, (∀ c ∈ lead, isBlank c = true) ∧ (∀ c ∈ gap, isBlank c = true) ∧
        gap ≠ [] ∧ (∀ c ∈ trail, isBlank c = true) ∧
          cs = lead ++ first ++ gap ++ second ++ trail := by
  constructor
  · intro h
    obtain ⟨lead, after, rfl, hlead, hfirst, hends, hafter⟩ := fields_eq_cons_iff.mp h
    obtain ⟨gap, trail, rfl, hgap, hsecond, -, htrail⟩ := fields_eq_cons_iff.mp hafter
    refine ⟨hfirst, hsecond, lead, gap, trail, hlead, hgap, ?_, fields_eq_nil_iff.mp htrail, ?_⟩
    · -- without a gap the second field would go on where the first one ends
      rintro rfl
      obtain ⟨c, rest, rfl⟩ := List.exists_cons_of_ne_nil hsecond.ne_nil
      have hblank := hends c rfl
      rw [hsecond.unblank c List.mem_cons_self] at hblank
      cases hblank
    · simp only [List.append_assoc]
  · rintro ⟨hfirst, hsecond, lead, gap, trail, hlead, hgap, hne, htrail, rfl⟩
    have hends : ∀ c ∈ trail.head?, isBlank c = true := fun c hc =>
      htrail c (List.mem_of_mem_head? hc)
    rw [List.append_assoc _ second, fields_append_run hne hgap, fields_blank_append hlead,
      hfirst.fields_eq, fields_append_of_ends hsecond hends, fields_of_blank htrail]
    rfl

end Text

/-! ## Request lines -/

namespace RequestLine

/-- The method of a request line can be a field, and so can its path, which starts with a slash. -/
structure WellFormed (line : RequestLine) : Prop where
  method : Text.IsField line.method.toList
  path : Text.IsField line.path.toList
  slash : ∃ rest, line.path = "/" ++ rest

/-- A text is the method of a request line and its path, with blanks between them and perhaps in
front and behind. -/
def SpacedAs (line : RequestLine) (text : String) : Prop :=
  ∃ lead gap trail : String, Text.allBlank lead ∧ Text.allBlank gap ∧ gap ≠ "" ∧
    Text.allBlank trail ∧ text = lead ++ line.method ++ gap ++ line.path ++ trail

theorem spacedAs_iff {line : RequestLine} {text : String} :
    line.SpacedAs text ↔ ∃ lead gap trail, (∀ c ∈ lead, Text.isBlank c = true) ∧
      (∀ c ∈ gap, Text.isBlank c = true) ∧ gap ≠ [] ∧ (∀ c ∈ trail, Text.isBlank c = true) ∧
        text.toList = lead ++ line.method.toList ++ gap ++ line.path.toList ++ trail := by
  simp only [SpacedAs, Text.allBlank, List.all_eq_true]
  constructor
  · rintro ⟨lead, gap, trail, hlead, hgap, hne, htrail, rfl⟩
    refine ⟨lead.toList, gap.toList, trail.toList, hlead, hgap, ?_, htrail, ?_⟩
    · exact fun hnil => hne (String.toList_eq_nil_iff.mp hnil)
    · simp only [String.toList_append]
  · rintro ⟨lead, gap, trail, hlead, hgap, hne, htrail, htext⟩
    refine ⟨String.ofList lead, String.ofList gap, String.ofList trail, ?_⟩
    simp only [String.toList_ofList]
    refine ⟨hlead, hgap, fun hempty => hne ?_, htrail, String.toList_injective ?_⟩
    · rw [← String.toList_ofList (l := gap), hempty]
      rfl
    · simp only [String.toList_append, String.toList_ofList, htext]

theorem parse_eq_ok_iff_fields {text : String} {line : RequestLine} :
    parse text = .ok line ↔
      Text.fields text.toList = [line.method.toList, line.path.toList] ∧
        ∃ rest, line.path = "/" ++ rest := by
  unfold parse
  split
  · next method path hfields =>
    rw [hfields]
    constructor
    · intro h
      cases h
      refine ⟨by simp only [String.toList_ofList], String.ofList path, ?_⟩
      apply String.toList_injective
      simp
    · rintro ⟨hpair, -⟩
      simp only [List.cons.injEq, and_true] at hpair
      rw [hpair.1, hpair.2, String.ofList_toList, String.ofList_toList]
  · next hno =>
    constructor
    · intro h
      cases h
    · rintro ⟨hpair, rest, hpath⟩
      rw [hpath, String.toList_append] at hpair
      exact absurd hpair (hno line.method.toList rest.toList)

/-- **The texts that are request lines,** each of which is one request line only. -/
theorem parse_eq_ok_iff {text : String} {line : RequestLine} :
    parse text = .ok line ↔ line.WellFormed ∧ line.SpacedAs text := by
  rw [parse_eq_ok_iff_fields, Text.fields_eq_pair_iff, spacedAs_iff]
  constructor
  · rintro ⟨⟨hmethod, hpath, hspaced⟩, hslash⟩
    exact ⟨⟨hmethod, hpath, hslash⟩, hspaced⟩
  · rintro ⟨⟨hmethod, hpath, hslash⟩, hspaced⟩
    exact ⟨⟨hmethod, hpath, hspaced⟩, hslash⟩

theorem parse_eq_error_iff {text : String} {cause : RouteError} :
    parse text = .error cause ↔
      cause = .malformedRequestLine text ∧ ∀ line, parse text ≠ .ok line := by
  unfold parse
  split <;> simp [eq_comm]

/-- A blank line is no request line. -/
theorem parse_of_allBlank {text : String} (h : Text.allBlank text) :
    parse text = .error (.malformedRequestLine text) := by
  unfold parse
  rw [Text.fields_of_blank (List.all_eq_true.mp h)]

theorem spacedAs_render (line : RequestLine) : line.SpacedAs line.render :=
  ⟨"", " ", "", by decide, by decide, by decide, by decide, by simp [render]⟩

theorem WellFormed.parse_render {line : RequestLine} (h : line.WellFormed) :
    parse line.render = .ok line :=
  parse_eq_ok_iff.mpr ⟨h, line.spacedAs_render⟩

/-- Blanks in a row can be replaced by others. -/
theorem parse_eq_ok_iff_of_blanks {run other : String} (hne : run ≠ "")
    (hrun : Text.allBlank run) (hne' : other ≠ "") (hother : Text.allBlank other)
    (before after : String) (line : RequestLine) :
    parse (before ++ run ++ after) = .ok line ↔ parse (before ++ other ++ after) = .ok line := by
  have hfields : ∀ blanks : String, blanks ≠ "" → Text.allBlank blanks →
      Text.fields (before ++ blanks ++ after).toList =
        Text.fields before.toList ++ Text.fields after.toList := by
    intro blanks hne hblank
    rw [String.toList_append, String.toList_append, Text.fields_append_run]
    · exact fun hnil => hne (String.toList_eq_nil_iff.mp hnil)
    · exact List.all_eq_true.mp hblank
  rw [parse_eq_ok_iff_fields, parse_eq_ok_iff_fields, hfields run hne hrun,
    hfields other hne' hother]

/-- **A text is a request line if it shows one with blanks around its parts,** whatever blanks these
are, and else it is itself the error. -/
theorem read_from_spaced_fields :
    (∀ text line, parse text = .ok line ↔ line.WellFormed ∧ line.SpacedAs text) ∧
    (∀ text cause, parse text = .error cause ↔ cause = .malformedRequestLine text ∧
      ¬ ∃ line : RequestLine, line.WellFormed ∧ line.SpacedAs text) ∧
    (∀ line : RequestLine, line.WellFormed → parse line.render = .ok line) ∧
    (∀ text line, parse text = .ok line → parse line.render = .ok line) ∧
    ∀ before run other after : String, run ≠ "" → Text.allBlank run → other ≠ "" →
      Text.allBlank other → ∀ line,
        parse (before ++ run ++ after) = .ok line ↔
          parse (before ++ other ++ after) = .ok line := by
  refine ⟨fun _ _ => parse_eq_ok_iff, fun text cause => ?_, fun _ h => h.parse_render,
    fun _ _ h => (parse_eq_ok_iff.mp h).1.parse_render, ?_⟩
  · simp only [parse_eq_error_iff, ne_eq, parse_eq_ok_iff, not_exists]
  · exact fun before run other after hne hrun hne' hother line =>
      parse_eq_ok_iff_of_blanks hne hrun hne' hother before after line

theorem userLine_read_from_spaced_fields :
    ((⟨"GET", "/me"⟩ : RequestLine).WellFormed ∧
        (⟨"GET", "/me"⟩ : RequestLine).SpacedAs "\tGET \u3000/me\n" ∧
        Text.allBlank "\u00a0") ∧
      parse "\tGET \u3000/me\n" = .ok ⟨"GET", "/me"⟩ ∧
      parse (⟨"GET", "/me"⟩ : RequestLine).render = .ok ⟨"GET", "/me"⟩ ∧
      parse ("\tGET" ++ "\u00a0" ++ "/me\n") = .ok ⟨"GET", "/me"⟩ := by
  have hwf : (⟨"GET", "/me"⟩ : RequestLine).WellFormed :=
    ⟨⟨by decide, by simp [Text.isBlank]⟩, ⟨by decide, by simp [Text.isBlank]⟩, "me", by decide⟩
  have hspaced : (⟨"GET", "/me"⟩ : RequestLine).SpacedAs "\tGET \u3000/me\n" :=
    ⟨"\t", " \u3000", "\n", by decide, by decide, by decide, by decide, by decide⟩
  have hnbsp : Text.allBlank "\u00a0" := by decide
  obtain ⟨hread, -, hrender, -, hblanks⟩ := read_from_spaced_fields
  have hparse := (hread _ _).mpr ⟨hwf, hspaced⟩
  refine ⟨⟨hwf, hspaced, hnbsp⟩, hparse, hrender _ hwf, ?_⟩
  exact (hblanks "\tGET" " \u3000" "\u00a0" "/me\n" (by decide) (by decide) (by decide)
    hnbsp _).mp hparse

-- A space without width is no blank.
example : parse "GET\u200b/users" = .error (.malformedRequestLine "GET\u200b/users") := by
  decide

end RequestLine

end HttpRoutes
