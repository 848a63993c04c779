import Clawforge.Api.Listings

/-!
# CSV exports read back

What a reader of RFC 4180 files makes of an export. `csv_escape` quotes a text with a
comma, a quote or a line feed, but none with only a carriage return, which ends a record
as well; the column names are not escaped at all. The export is read back exactly if
there are column names, none with a special character, and no text has a carriage return
without one of the three (`csv_round_trip_iff`).
-/

namespace Clawforge.CsvExport

open Kit List

/-- What the reader is to give: the column names, and a record for each value. -/
def expectedRecords (values : List Json) (columns : List String) : List Csv.Record :=
  columns.map String.toList :: values.map fun value =>
    columns.map fun column => (columnText value column).toList

/-- The reader gives back the column names and the texts of every value. -/
def ReadsBack (values : List Json) (columns : List String) : Prop :=
  Csv.read (valuesAsCsv values columns).toList =
    some (expectedRecords values columns)

/-- A carriage return comes with a character that `csv_escape` looks for. -/
def ReturnsEscaped (text : String) : Prop :=
  '\r' ∈ text.toList → ',' ∈ text.toList ∨ '"' ∈ text.toList ∨ '\n' ∈ text.toList

/-! ## An export as a file -/

/-- `csv_escape` looks for these characters. -/
def Quoted (text : String) : Prop :=
  ',' ∈ text.toList ∨ '"' ∈ text.toList ∨ '\n' ∈ text.toList

theorem csvEscape_of_quoted {text : String} (h : Quoted text) :
    (csvEscape text).toList = Csv.quote text.toList := by
  have hescape : csvEscape text = "\"" ++ doubleQuotes text ++ "\"" := if_pos h
  rw [hescape]
  simp [Csv.quote, doubleQuotes]

theorem csvEscape_of_not_quoted {text : String} (h : ¬ Quoted text) : csvEscape text = text :=
  if_neg h

theorem csvEscape_toList (text : String) :
    (csvEscape text).toList = text.toList ∨ (csvEscape text).toList = Csv.quote text.toList := by
  by_cases h : Quoted text
  · exact .inr (csvEscape_of_quoted h)
  · rw [csvEscape_of_not_quoted h]
    exact .inl rfl

def nameField (column : String) : Csv.Field := ⟨column.toList, column.toList, .inl rfl⟩

def cell (text : String) : Csv.Field :=
  ⟨(csvEscape text).toList, text.toList, csvEscape_toList text⟩

def cells (columns : List String) (value : Json) : List Csv.Field :=
  columns.map fun column => cell (columnText value column)

def exportRows (values : List Json) (columns : List String) : List (List Csv.Field) :=
  columns.map nameField :: values.map (cells columns)

theorem intercalate_toList (raws : List String) :
    (",".intercalate raws ++ "\n").toList = Csv.line (raws.map String.toList) ++ ['\n'] := by
  rw [String.toList_append, String.toList_intercalate]
  rfl

theorem valuesAsCsv_toList (values : List Json) (columns : List String) :
    (valuesAsCsv values columns).toList =
      Csv.file (exportRows values columns) := by
  -- the lines of the values follow what has been written
  have hlines : ∀ written : String,
      (values.foldl (fun output value =>
        output ++ ",".intercalate (columns.map fun column =>
          csvEscape (columnText value column)) ++ "\n") written).toList =
        written.toList ++ Csv.file (values.map (cells columns)) := by
    induction values with
    | nil => exact fun written => (append_nil _).symm
    | cons value values ih =>
      intro written
      rw [foldl_cons, ih, String.append_assoc, String.toList_append, intercalate_toList,
        append_assoc, map_cons, Csv.file_cons, append_assoc, cells,
        List.map_map, List.map_map]
      rfl
  rw [valuesAsCsv, hlines, intercalate_toList, exportRows, Csv.file_cons, List.map_map,
    append_assoc]
  rfl

theorem records_exportRows (values : List Json) (columns : List String) :
    Csv.records (exportRows values columns) = expectedRecords values columns := by
  simp [Csv.records, exportRows, expectedRecords, cells, cell, nameField, Function.comp_def]

/-! ## Which fields can be read back -/

theorem nameField_written (column : String) :
    (nameField column).Written ↔ Csv.Plain column.toList :=
  Csv.written_self_iff

theorem plain_iff (cs : List Char) :
    Csv.Plain cs ↔ ',' ∉ cs ∧ '"' ∉ cs ∧ '\n' ∉ cs ∧ '\r' ∉ cs := by
  constructor
  · intro h
    refine ⟨fun hc => ?_, fun hc => ?_, fun hc => ?_, fun hc => ?_⟩
    all_goals exact absurd (h _ hc) (by decide)
  · rintro ⟨hcomma, hquote, hlf, hcr⟩ c hc
    have hne : c ≠ ',' ∧ c ≠ '"' ∧ c ≠ '\n' ∧ c ≠ '\r' := by
      refine ⟨?_, ?_, ?_, ?_⟩
      all_goals
        rintro rfl
        contradiction
    simp [Csv.special, hne]

theorem cell_written (text : String) : (cell text).Written ↔ ReturnsEscaped text := by
  show Csv.Written (csvEscape text).toList text.toList ↔ _
  by_cases h : Quoted text
  · rw [csvEscape_of_quoted h]
    exact iff_of_true (.quoted _) fun _ => h
  · rw [csvEscape_of_not_quoted h, Csv.written_self_iff, plain_iff]
    constructor
    · exact fun hplain hcr => absurd hcr hplain.2.2.2
    · intro hreturns
      unfold Quoted at h
      rw [not_or, not_or] at h
      exact ⟨h.1, h.2.1, h.2.2, fun hcr => not_or.2 ⟨h.1, not_or.2 h.2⟩ (hreturns hcr)⟩

/-- **Round trip.** The export is read back as its column names and one record for each value
exactly if it has columns, no name of one has a special character, and no text has a carriage
return without a comma, a quote or a line feed. -/
theorem csv_round_trip_iff (values : List Json) (columns : List String) :
    ReadsBack values columns ↔
      columns ≠ [] ∧ (∀ column ∈ columns, Csv.Plain column.toList) ∧
        ∀ value ∈ values, ∀ column ∈ columns,
          ReturnsEscaped (columnText value column) := by
  unfold ReadsBack
  rw [valuesAsCsv_toList, ← records_exportRows, Csv.read_file_iff, exportRows,
    forall_mem_cons]
  have hnames : (∀ f ∈ columns.map nameField, f.Written) ↔
      ∀ column ∈ columns, Csv.Plain column.toList := by
    rw [List.forall_mem_map]
    exact forall₂_congr fun column _ => nameField_written column
  have hcells : ∀ value, (∀ f ∈ cells columns value, f.Written) ↔
      ∀ column ∈ columns, ReturnsEscaped (columnText value column) := by
    intro value
    rw [cells, List.forall_mem_map]
    exact forall₂_congr fun column _ => cell_written _
  have hempty : ∀ value, cells columns value = [] ↔ columns = [] := fun value =>
    map_eq_nil_iff
  rw [hnames, List.forall_mem_map, ne_eq, map_eq_nil_iff]
  constructor
  · rintro ⟨⟨hcolumns, hplain⟩, hvalues⟩
    exact ⟨hcolumns, hplain, fun value hvalue => (hcells value).1 (hvalues value hvalue).2⟩
  · rintro ⟨hcolumns, hplain, hvalues⟩
    exact ⟨⟨hcolumns, hplain⟩, fun value hvalue =>
      ⟨fun h => hcolumns ((hempty value).1 h), (hcells value).2 (hvalues value hvalue)⟩⟩

/-- An incident whose summary holds a lone carriage return. -/
def returnedIncident : Json :=
  .object [("id", .string "7"), ("summary", .string "scan\rretried")]

/-- The record is cut in two. -/
theorem lone_return_splits_record :
    ¬ ∀ values columns, ReadsBack values columns := by
  intro h
  have hread : Csv.read (valuesAsCsv [returnedIncident] ["id", "summary"]).toList =
      some [["id".toList, "summary".toList], ["7".toList, "scan".toList], ["retried".toList]] := by
    decide
  have hexpected := h [returnedIncident] ["id", "summary"]
  rw [ReadsBack, hread] at hexpected
  exact absurd hexpected (by decide)

end Clawforge.CsvExport
