import AstraIndexator.Acquisition.Validation
import AstraIndexator.Parser.Drafts
import AstraIndexator.Parser.Xlsx

/-!
# CSV files

Every row becomes one element, its cells named by those of the first row.
-/

namespace AstraIndexator

open Text Transaction

/-- The limits of a table next to those of every document. -/
structure TableContext extends ParseContext where
  maxRows : Int := 1000000
  maxColumns : Int := 16384
  maxCellChars : Int := 1000000

namespace CsvDocumentHandler

/-! ## Rows -/

/-- The pairs of the names and the cells. -/
def paired (headers row : List String) : List String :=
  row.mapIdx fun index value => XlsxDocumentHandler.columnKey headers index ++ ": " ++ value

/-- The element of a row. -/
def rowEntry (dialect : CsvDialect) (headers row : List String) (rowIndex : Nat) : Entry where
  kind := .table
  text := some (String.intercalate "; " (paired headers row))
  role := some "TABLE_ROW"
  sourceLocator := [("rowIndex", .int rowIndex), ("columnStart", .int 1),
    ("columnEnd", .int row.length)]
  metadata := [("cells", .arr (row.map .str)), ("headers", .arr (headers.map .str)),
    ("delimiter", .str dialect.delimiter), ("quoteChar", .str dialect.quotechar)]
  locator := locatorText ["row", toString rowIndex]

/-- The variables of the loop over the rows. -/
structure CsvState where
  elements : List DocumentElement := []
  headers : Option (List String) := none

section Parsing

variable (digest : HexDigest) (source : ParsedSource) (context : TableContext)

/-- One row, with its number. -/
def parseRow (dialect : CsvDialect) (state : CsvState) (row : List String × Nat) :
    Except ParserError CsvState := do
  if context.maxRows < row.2 then
    throw ⟨"PARSER_ROW_LIMIT", "CSV row limit exceeded"⟩
  if context.maxColumns < row.1.length then
    throw ⟨"PARSER_COLUMN_LIMIT", "CSV column limit exceeded"⟩
  if ∃ cell ∈ row.1, context.maxCellChars < (cell.length : Int) then
    throw ⟨"PARSER_CELL_TEXT_LIMIT", "CSV cell text exceeds configured limit"⟩
  let headers := state.headers.getD row.1
  let elements ← appendEntry digest source context.toParseContext state.elements
    (rowEntry dialect headers row.1 row.2)
  return { elements, headers := some headers }

/-- `CsvDocumentHandler.parse`, with the dialect the sniffer finds and the rows the reader yields
before it ends or raises. -/
def parse (sniffed : Option CsvDialect) (read : CsvDialect → List (List String) × Bool) :
    Except ParserException ParsedDocument :=
  match sniffed with
  | none => .error (.parserError ⟨"PARSER_CSV_DIALECT", "CSV dialect cannot be determined"⟩)
  | some dialect => do
    let (rows, raises) := read dialect
    let state ← handled ((rows.zipIdx 1).foldlM (parseRow digest source context dialect) {})
    if raises = true then
      throw (.other "csv.Error")
    handled (parsedDocument source context.toParseContext "csv-stream-v1" state.elements [] [] [])

end Parsing

/-! ## All rows -/

/-- The elements of the rows. -/
def rowEntries (dialect : CsvDialect) (rows : List (List String)) : List Entry :=
  rows.mapIdx fun index row => rowEntry dialect (rows.head?.getD []) row (index + 1)

/-- The rows are no more and no larger than the limits allow. -/
structure RowsAdmitted (context : TableContext) (rows : List (List String)) : Prop where
  count : rows ≠ [] → (rows.length : Int) ≤ context.maxRows
  columns : ∀ row ∈ rows, (row.length : Int) ≤ context.maxColumns
  cells : ∀ row ∈ rows, ∀ cell ∈ row, (cell.length : Int) ≤ context.maxCellChars

/-- The cells an element carries. -/
def carriedCells (element : DocumentElement) : List String :=
  match element.metadata.lookup "cells" with
  | some (.arr cells) => cells.filterMap fun cell => match cell with
    | .str text => some text
    | _ => none
  | _ => []

variable {digest : HexDigest} {source : ParsedSource} {context : TableContext}
  {dialect : CsvDialect} {rows : List (List String)}

/-- A row with its number is admitted. -/
def RowAdmitted (context : TableContext) (row : List String × Nat) : Prop :=
  (row.2 : Int) ≤ context.maxRows ∧ (row.1.length : Int) ≤ context.maxColumns ∧
    ∀ cell ∈ row.1, (cell.length : Int) ≤ context.maxCellChars

/-- A turn without the limit of the elements. -/
def readRow (digest : HexDigest) (source : ParsedSource) (context : TableContext)
    (dialect : CsvDialect) (state : CsvState) (row : List String × Nat) : CsvState where
  elements := state.elements ++ [(rowEntry dialect (state.headers.getD row.1) row.1 row.2).element
    digest source context.toParseContext state.elements.length]
  headers := some (state.headers.getD row.1)

theorem parseRow_ok {state state' : CsvState} {row : List String × Nat} :
    parseRow digest source context dialect state row = .ok state' ↔ RowAdmitted context row ∧
      (state.elements.length : Int) < context.limits.maxElements ∧
        state' = readRow digest source context dialect state row := by
  simp only [parseRow, except_guard_ok, except_bind_ok, appendEntry_ok, not_lt, not_exists, not_and,
    RowAdmitted, and_assoc]
  refine and_congr_right fun _ => and_congr_right fun _ => and_congr_right fun _ => ?_
  constructor
  · rintro ⟨elements, hlimit, rfl, h⟩
    exact ⟨hlimit, (Except.ok.inj h).symm⟩
  · rintro ⟨hlimit, rfl⟩
    exact ⟨_, hlimit, rfl, rfl⟩

theorem loop (digest : HexDigest) (source : ParsedSource) (context : TableContext)
    (dialect : CsvDialect) :
    Limited.Loop (parseRow digest source context dialect) (readRow digest source context dialect)
      (RowAdmitted context)
      fun state => (state.elements.length : Int) ≤ context.limits.maxElements where
  taken _ _ _ h := ⟨(parseRow_ok.mp h).1, (parseRow_ok.mp h).2.2⟩
  succeeds _ _ htaken h :=
    parseRow_ok.mpr ⟨htaken, by simpa [readRow, Int.add_one_le_iff] using h, rfl⟩
  earlier _ _ h := by
    rw [readRow, List.length_append] at h
    omega

/-- Behind the first row the names are fixed. -/
theorem run_readRow {headers : List String} {entries : List Entry} (start : Nat)
    (rows : List (List String)) :
    (rows.zipIdx start).foldl (readRow digest source context dialect)
        ⟨drafted digest source context.toParseContext entries, some headers⟩ =
      ⟨drafted digest source context.toParseContext
        (entries ++ rows.mapIdx fun index row => rowEntry dialect headers row (index + start)),
        some headers⟩ := by
  induction rows generalizing entries start with
  | nil => rw [List.mapIdx_nil, List.append_nil]; rfl
  | cons row rows ih =>
    have hstep : readRow digest source context dialect
        ⟨drafted digest source context.toParseContext entries, some headers⟩ (row, start) =
          ⟨drafted digest source context.toParseContext
            (entries ++ [rowEntry dialect headers row start]), some headers⟩ := by
      rw [drafted_concat, ← @length_drafted digest source context.toParseContext entries]
      rfl
    rw [List.zipIdx_cons, List.foldl_cons, hstep, ih, List.append_assoc, List.mapIdx_cons,
      Nat.zero_add]
    simp only [Nat.add_assoc, Nat.add_comm 1 start]
    rfl

theorem elements_readRows :
    ((rows.zipIdx 1).foldl (readRow digest source context dialect) {}).elements =
      drafted digest source context.toParseContext (rowEntries dialect rows) := by
  cases rows with
  | nil => rfl
  | cons row rows =>
    have hrun := @run_readRow digest source context dialect row [rowEntry dialect row row 1] 2 rows
    rw [List.zipIdx_cons, List.foldl_cons]
    show ((rows.zipIdx 2).foldl (readRow digest source context dialect)
      ⟨drafted digest source context.toParseContext [rowEntry dialect row row 1],
        some row⟩).elements = _
    rw [hrun, rowEntries, List.mapIdx_cons]
    rfl

theorem rowsAdmitted_iff : (∀ row ∈ rows.zipIdx 1, RowAdmitted context row) ↔
    RowsAdmitted context rows := by
  constructor
  · intro h
    have hmem : ∀ row ∈ rows, ∃ n, RowAdmitted context (row, n) := by
      intro row hrow
      obtain ⟨i, hi, rfl⟩ := List.getElem_of_mem hrow
      exact ⟨1 + i, h _ (List.mk_add_mem_zipIdx_iff_getElem?.mpr (by simp [hi]))⟩
    refine ⟨fun hne => ?_, fun row hrow => ?_, fun row hrow => ?_⟩
    · have hpos := List.length_pos_iff.mpr hne
      have hlast := h (rows[rows.length - 1], 1 + (rows.length - 1))
        (List.mk_add_mem_zipIdx_iff_getElem?.mpr (by simp))
      have hbound := hlast.1
      dsimp only at hbound
      omega
    · obtain ⟨n, hn⟩ := hmem row hrow
      exact hn.2.1
    · obtain ⟨n, hn⟩ := hmem row hrow
      exact hn.2.2
  · rintro h ⟨row, n⟩ hrow
    obtain ⟨hle, hlt, -⟩ := List.mem_zipIdx hrow
    have hmem : row ∈ rows := List.fst_mem_of_mem_zipIdx hrow
    have hcount := h.count (List.ne_nil_of_mem hmem)
    exact ⟨by dsimp only; omega, h.columns row hmem, h.cells row hmem⟩

/-- The loop over the rows, and `_doc` of what it leaves. -/
theorem readRows_iff {document : ParsedDocument} :
    (do
      let state ← handled ((rows.zipIdx 1).foldlM (parseRow digest source context dialect) {})
      handled (parsedDocument source context.toParseContext "csv-stream-v1" state.elements
        [] [] [])) = .ok document ↔
      RowsAdmitted context rows ∧
      WithinParseLimits context.toParseContext
        (drafted digest source context.toParseContext (rowEntries dialect rows)) ∧
      document = draftedDocument digest source context.toParseContext "csv-stream-v1"
        (rowEntries dialect rows) [] [] [] := by
  rw [← parsedDocument_drafted, ← elements_readRows, ← rowsAdmitted_iff,
    ← (loop digest source context dialect).bind_ok_iff (fun state document h =>
      (withinParseLimits_of_parsedDocument h).count), except_bind_ok, except_bind_ok]
  simp only [handled_ok]

/-- A file is parsed into its rows, if they are within the limits. -/
theorem parse_iff {sniffed : Option CsvDialect}
    {read : CsvDialect → List (List String) × Bool} {document : ParsedDocument} :
    parse digest source context sniffed read = .ok document ↔
      ∃ dialect rows, sniffed = some dialect ∧ read dialect = (rows, false) ∧
        RowsAdmitted context rows ∧
        WithinParseLimits context.toParseContext
          (drafted digest source context.toParseContext (rowEntries dialect rows)) ∧
        document = draftedDocument digest source context.toParseContext "csv-stream-v1"
          (rowEntries dialect rows) [] [] [] := by
  cases sniffed with
  | none =>
    constructor
    · intro h
      cases h
    · rintro ⟨_, _, h, -⟩
      cases h
  | some dialect =>
    rw [parse]
    rcases hread : read dialect with ⟨rows, raises⟩
    cases raises with
    | true =>
      simp only [except_bind_ok, except_guard_ok, not_true_eq_false, false_and, and_false,
        exists_false, false_iff]
      rintro ⟨dialect', rows', hdialect, hread', -⟩
      obtain rfl := Option.some.inj hdialect
      rw [hread] at hread'
      cases hread'
    | false =>
      simp only [Bool.false_eq_true, if_false]
      rw [readRows_iff]
      constructor
      · intro h
        exact ⟨dialect, rows, rfl, hread, h⟩
      · rintro ⟨dialect', rows', hdialect, hread', h⟩
        obtain rfl := Option.some.inj hdialect
        obtain rfl := (Prod.mk.inj (hread.symm.trans hread')).1
        exact h

/-! ## Nothing is lost -/

theorem carriedCells_rowEntries : (drafted digest source context.toParseContext
    (rowEntries dialect rows)).map carriedCells = rows := by
  have hcells : ∀ row : List String, (row.map Json.str).filterMap (fun cell => match cell with
      | .str text => some text
      | _ => none) = row := by
    intro row
    rw [List.filterMap_map]
    exact List.filterMap_some
  refine List.ext_getElem (by simp [rowEntries]) fun i hi hi' => ?_
  simp only [drafted, rowEntries, List.getElem_map, List.getElem_mapIdx]
  exact hcells rows[i]

theorem nodup_rowEntries : ((rowEntries dialect rows).map Entry.locator).Nodup := by
  refine nodup_locators fun i j hi hj h => ?_
  simp only [rowEntries, List.getElem_mapIdx, rowEntry] at h
  exact Nat.succ_injective (numbered_injective (by decide) h)

/-- A file is accepted exactly when the dialect is found, the reader does not raise and the rows
keep the limits.  There is one element for every row, with a name of its own, and the rows are
read back from the elements. -/
theorem parse_rows (digest : HexDigest) (source : ParsedSource) (context : TableContext)
    (sniffed : Option CsvDialect) (read : CsvDialect → List (List String) × Bool)
    (document : ParsedDocument) :
    (parse digest source context sniffed read = .ok document ↔
      ∃ dialect rows, sniffed = some dialect ∧ read dialect = (rows, false) ∧
        RowsAdmitted context rows ∧
        WithinParseLimits context.toParseContext
          (drafted digest source context.toParseContext (rowEntries dialect rows)) ∧
        document = draftedDocument digest source context.toParseContext "csv-stream-v1"
          (rowEntries dialect rows) [] [] []) ∧
    (∀ dialect rows, ((rowEntries dialect rows).map Entry.locator).Nodup) ∧
    (parse digest source context sniffed read = .ok document →
      ∃ dialect, sniffed = some dialect ∧ document.elements.map carriedCells = (read dialect).1) := by
  refine ⟨parse_iff, fun _ _ => nodup_rowEntries, fun h => ?_⟩
  obtain ⟨dialect, rows, hsniffed, hread, -, -, rfl⟩ := parse_iff.mp h
  refine ⟨dialect, hsniffed, ?_⟩
  rw [hread]
  exact carriedCells_rowEntries

end CsvDocumentHandler

end AstraIndexator
