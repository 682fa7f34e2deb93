import HttpRoutes.Json.Record
import HttpRoutes.Proofs.JsonText
import HttpRoutes.Proofs.Templates
import HttpRoutes.RequestLine.Json
import HttpRoutes.RouteTable

/-!
# Records as JSON text

Request lines and route tables come back from the JSON that they are written as.

* `RequestLine.read?_toJson`, `TableRow.read?_toJson`, `RouteTable.read?_toJson` : the values;
* `RouteTable.read_back_from_json` : the texts.
-/

namespace HttpRoutes

/-- Items that come back one by one come back as a list. -/
theorem mapM_map_eq_some {β γ : Type} {write : β → γ} {read : γ → Option β}
    (h : ∀ item, read (write item) = some item) (items : List β) :
    (items.map write).mapM read = some items := by
  induction items with
  | nil => rfl
  | cons item items ih =>
    rw [List.map_cons, List.mapM_cons, ih, h]
    rfl

namespace Json

theorem numberFree_ofString (s : String) : NumberFree (.ofString s) :=
  .text (some s)

theorem numberFree_record {members : List (String × Json)}
    (h : ∀ member ∈ members, NumberFree member.2) : NumberFree (.record members) :=
  .object (List.forall_mem_map.mpr h)

@[simp] theorem text?_ofString (s : String) : RecordSource.text? (Json.ofString s) = some s := rfl

end Json

theorem RequestLine.numberFree_toJson (line : RequestLine) : line.toJson.NumberFree :=
  Json.numberFree_record (by simp [Json.numberFree_ofString])

theorem RequestLine.read?_toJson (line : RequestLine) : read? line.toJson = some line := rfl

theorem TableRow.numberFree_toJson (row : TableRow) : row.toJson.NumberFree :=
  Json.numberFree_record (by simp [Json.numberFree_ofString])

theorem TableRow.read?_toJson (row : TableRow) : read? row.toJson = some row := rfl

theorem TableRow.readAll?_toJson (rows : List TableRow) :
    readAll? (Json.array (rows.map toJson)) = some rows :=
  mapM_map_eq_some read?_toJson rows

theorem RouteTable.numberFree_toJson (table : RouteTable) : table.toJson.NumberFree := by
  refine Json.numberFree_record ?_
  have hrows : ∀ item ∈ table.rows.map TableRow.toJson, Json.NumberFree item :=
    List.forall_mem_map.mpr fun row _ => row.numberFree_toJson
  have hobservability : Json.NumberFree
      (.record [("log_level", .ofString table.observability.logLevel)]) :=
    Json.numberFree_record (by simp [Json.numberFree_ofString])
  simp [Json.numberFree_ofString, hobservability, Json.NumberFree.array hrows]

theorem RouteTable.read?_toJson (table : RouteTable) : read? table.toJson = some table := by
  have hfields : RecordSource.fields? ["missing", "routes", "observability"] table.toJson =
      some [some (.ofString table.missing), some (.array (table.rows.map TableRow.toJson)),
        some (.record [("log_level", .ofString table.observability.logLevel)])] := rfl
  have hobservability : Observability.read?
      (Json.record [("log_level", .ofString table.observability.logLevel)]) =
        some table.observability := rfl
  rw [read?, hfields]
  simp [fieldOr, TableRow.readAll?_toJson, hobservability]

/-- **Route tables and request lines come back from their JSON text,** whatever their strings hold,
and the same text is written for what comes back. -/
theorem RouteTable.read_back_from_json :
    (∀ table : RouteTable, ∃ back, (Json.parse table.toJson.compact).bind read? = some back ∧
      back = table ∧ back.toJson.compact = table.toJson.compact) ∧
    ∀ line : RequestLine, ∃ back,
      (Json.parse line.toJson.compact).bind RequestLine.read? = some back ∧
        back = line ∧ back.toJson.compact = line.toJson.compact := by
  refine ⟨fun table => ⟨table, ?_, rfl, rfl⟩, fun line => ⟨line, ?_, rfl, rfl⟩⟩
  · rw [table.numberFree_toJson.parse_compact, Option.bind_some, read?_toJson]
  · rw [line.numberFree_toJson.parse_compact, Option.bind_some, RequestLine.read?_toJson]

end HttpRoutes
