import AstraIndexator.Foundation.JsonDefault
import AstraIndexator.Foundation.JsonRoundTrip
import AstraIndexator.Parser.Html

/-!
# Workbooks

A workbook is read twice, once for the formulas and once for the cached values.  Every
row with a value becomes one element, which carries its cells as the library gave them.
-/

namespace AstraIndexator

open Transaction

/-! ## Cells -/

inductive TemporalType
  | datetime | date | time | timedelta
  deriving DecidableEq

inductive FormulaType
  | arrayFormula | dataTableFormula
  deriving DecidableEq

/-- A cell value that is no text, no boolean and no number, with the text of its `str`. -/
inductive ForeignValue
  | temporal (type : TemporalType) (text : String)
  | formula (type : FormulaType) (text : String)
  deriving DecidableEq

namespace ForeignValue

def typeName : ForeignValue → String
  | temporal .datetime _ => "datetime.datetime"
  | temporal .date _ => "datetime.date"
  | temporal .time _ => "datetime.time"
  | temporal .timedelta _ => "datetime.timedelta"
  | formula .arrayFormula _ => "openpyxl.worksheet.formula.ArrayFormula"
  | formula .dataTableFormula _ => "openpyxl.worksheet.formula.DataTableFormula"

def text : ForeignValue → String
  | temporal _ text => text
  | formula _ text => text

end ForeignValue

/-- What the library finds in a cell. -/
inductive CellValue (py : PythonRuntime)
  | text (s : String)
  | bool (b : Bool)
  | int (n : Int)
  | float (repr : String) (h : Json.IsFloatRepr py repr)
  | foreign (v : ForeignValue)

namespace CellValue

variable {py : PythonRuntime}

/-- `str(value)` -/
def str : CellValue py → String
  | text s => s
  | bool b => if b then "True" else "False"
  | int n => toString n
  | float repr _ => repr
  | foreign v => v.text

def toPy : CellValue py → PyValue ForeignValue
  | text s => .str s
  | bool b => .bool b
  | int n => .int n
  | float repr _ => .float repr
  | foreign v => .other v

end CellValue

/-- A list of Python has fewer members, and a sheet fewer rows and columns. -/
def countBound : Nat := 2 ^ 63

structure Cell (py : PythonRuntime) where
  coordinate : String
  row : Nat
  column : Nat
  value : Option (CellValue py) := none
  numberFormat : String := "General"
  row_lt : row < countBound := by decide
  column_lt : column < countBound := by decide

/-- A sheet in both readings. -/
structure Sheet (py : PythonRuntime) where
  name : String
  maxColumn : Int
  sheetState : String := "visible"
  formulaRows : List (List (Cell py))
  valueRows : List (List (Cell py))

/-- The limits of a workbook next to those of every document. -/
structure WorkbookContext extends ParseContext where
  maxSheets : Int := 1000
  maxRows : Int := 1000000
  maxColumns : Int := 16384
  maxNonEmptyCells : Int := 5000000
  maxCellChars : Int := 1000000
  maxElements_lt : limits.maxElements < countBound := by decide
  maxSheets_lt : maxSheets < countBound := by decide
  maxRows_lt : maxRows < countBound := by decide

/-! ## Elements -/

structure CellRecord (py : PythonRuntime) where
  address : String
  rowIndex : Nat
  columnIndex : Nat
  displayValue : Option (CellValue py)
  formulaText : Option String
  numberFormat : String
  rowIndex_lt : rowIndex < countBound
  columnIndex_lt : columnIndex < countBound

def displayPy {py : PythonRuntime} : Option (CellValue py) → PyValue ForeignValue
  | none => .null
  | some v => v.toPy

def CellRecord.toPy {py : PythonRuntime} (c : CellRecord py) : PyValue ForeignValue := .dict [
  ("address", .str c.address),
  ("rowIndex", .int c.rowIndex),
  ("columnIndex", .int c.columnIndex),
  ("displayValue", displayPy c.displayValue),
  ("formulaPresent", .bool c.formulaText.isSome),
  ("formulaText", .ofOption c.formulaText),
  ("numberFormat", .str c.numberFormat)]

/-- `metadata` of a row. -/
structure RowMetadata (py : PythonRuntime) where
  cells : List (CellRecord py)
  hiddenSheet : Bool
  headerValues : List String

/-- The cells a row carries. -/
def carriedCells {py : PythonRuntime} : Option (RowMetadata py) → List (CellRecord py)
  | none => []
  | some m => m.cells

/-- `source_locator`, of a row or of an empty sheet. -/
structure SheetLocator where
  sheetName : String
  sheetIndex : Nat
  row : Option (Nat × String) := none

/-- A `DocumentElement` as the workbook handler fills it.  The parent, the level, the
geometry, the section path, the style hints and the language keep their defaults. -/
structure SheetElement (py : PythonRuntime) where
  elementId : String
  type : ElementType
  orderIndex : Nat
  text : Option String := none
  sourceLocator : SheetLocator
  role : String
  metadata : Option (RowMetadata py) := none

namespace SheetElement

variable {py : PythonRuntime}

def cells (e : SheetElement py) : List (CellRecord py) := carriedCells e.metadata

/-- `metadata` -/
def metadataDict (e : SheetElement py) : List (String × PyValue ForeignValue) :=
  match e.metadata with
  | none => []
  | some m => [
    ("cells", .list (m.cells.map CellRecord.toPy)),
    ("hiddenSheet", .bool m.hiddenSheet),
    ("headerValues", .list (m.headerValues.map .str))]

/-- `source_locator` -/
def sourceLocatorDict (e : SheetElement py) : List (String × PyValue ForeignValue) :=
  [("sheetName", .str e.sourceLocator.sheetName), ("sheetIndex", .int e.sourceLocator.sheetIndex)] ++
    match e.sourceLocator.row with
    | none => []
    | some (rowIndex, rangeAddress) =>
      [("rowIndex", .int rowIndex), ("rangeAddress", .str rangeAddress)]

end SheetElement

namespace XlsxDocumentHandler

variable {py : PythonRuntime}

/-! ## One cell -/

def formulaText : Option (CellValue py) → Option String
  | some (.text s) => if "=".toList <+: s.toList then some s else none
  | _ => none

/-- The cached value, or a value that is no formula. -/
def displayValue (raw cached : Option (CellValue py)) : Option (CellValue py) :=
  match cached with
  | some v => some v
  | none => if (formulaText raw).isSome then none else raw

/-- The record of a cell that holds something in one of the readings. -/
def cellRecord? (pair : Cell py × Cell py) : Option (CellRecord py) :=
  if pair.1.value.isNone && pair.2.value.isNone then none
  else some {
    address := pair.1.coordinate
    rowIndex := pair.1.row
    columnIndex := pair.1.column
    displayValue := displayValue pair.1.value pair.2.value
    formulaText := formulaText pair.1.value
    numberFormat := pair.1.numberFormat
    rowIndex_lt := pair.1.row_lt
    columnIndex_lt := pair.1.column_lt }

def rendered (c : CellRecord py) : String :=
  match c.displayValue with
  | none => ""
  | some v => v.str

/-- The variables of the loop over the cells of a row. -/
structure RowState (py : PythonRuntime) where
  nonEmptyCells : Nat
  cells : List (CellRecord py) := []
  valuesForText : List String := []

section Parsing

variable (digest : HexDigest) (source : ParsedSource) (context : WorkbookContext)

def parseCell (state : RowState py) (pair : Cell py × Cell py) :
    Except ParserError (RowState py) :=
  match cellRecord? pair with
  | none => return state
  | some cell => do
    let nonEmptyCells := state.nonEmptyCells + 1
    if context.maxNonEmptyCells < nonEmptyCells then
      throw ⟨"PARSER_CELL_LIMIT", "workbook non-empty cell limit exceeded"⟩
    if context.maxCellChars < (rendered cell).length then
      throw ⟨"PARSER_CELL_TEXT_LIMIT", "cell text exceeds configured limit"⟩
    return {
      nonEmptyCells
      cells := state.cells ++ [cell]
      valuesForText := state.valuesForText ++ [rendered cell] }

/-! ## Rows and sheets -/

/-- `_append` -/
def append (elements : List (SheetElement py)) (kind : ElementType) (locator : String)
    (text : Option String) (role : String) (sourceLocator : SheetLocator)
    (metadata : Option (RowMetadata py)) : Except ParserError (List (SheetElement py)) := do
  if context.limits.maxElements ≤ elements.length then
    throw ⟨"PARSER_ELEMENT_LIMIT", "parser element limit exceeded"⟩
  return elements ++ [{
    elementId := eid digest source context.toParseContext locator kind, type := kind,
    orderIndex := elements.length, text, sourceLocator, role, metadata }]

/-- `headers[idx]` where there is one that is not empty, or a name for the column. -/
def columnKey (headers : List String) (index : Nat) : String :=
  match headers[index]? with
  | none => "column_" ++ toString (index + 1)
  | some header => if header = "" then "column_" ++ toString (index + 1) else header

/-- The values with their headers, below the first row. -/
def pairedValues (headers valuesForText : List String) (rowIndex : Nat) : List String :=
  if headers ≠ [] ∧ 1 < rowIndex then
    valuesForText.zipIdx.map fun value => columnKey headers value.2 ++ ": " ++ value.1
  else []

/-- `"; ".join(paired or values_for_text)` -/
def rowText (headers valuesForText : List String) (rowIndex : Nat) : String :=
  let paired := pairedValues headers valuesForText rowIndex
  String.intercalate "; " (if paired ≠ [] then paired else valuesForText)

def rangeAddress (cells : List (CellRecord py)) : String :=
  (cells.head?.map (·.address)).getD "" ++ ":" ++ (cells.getLast?.map (·.address)).getD ""

/-- The variables of the loop over the rows of a sheet. -/
structure SheetState (py : PythonRuntime) where
  elements : List (SheetElement py)
  nonEmptyCells : Nat
  headers : Option (List String) := none
  emittedRows : Nat := 0

/-- One row in both readings, with its number. -/
def parseRow (sheetIndex : Nat) (sheet : Sheet py) (state : SheetState py)
    (row : (List (Cell py) × List (Cell py)) × Nat) : Except ParserError (SheetState py) := do
  if context.maxRows < row.2 then
    throw ⟨"PARSER_ROW_LIMIT", "worksheet row limit exceeded"⟩
  let scanned ← (row.1.1.zip row.1.2).foldlM (parseCell context)
    { nonEmptyCells := state.nonEmptyCells }
  if scanned.cells.isEmpty then
    return { state with nonEmptyCells := scanned.nonEmptyCells }
  else
    let headers := state.headers.getD scanned.valuesForText
    let elements ← append digest source context state.elements .table
      ("sheet:" ++ toString sheetIndex ++ ":row:" ++ toString row.2)
      (some (rowText headers scanned.valuesForText row.2)) "TABLE_ROW"
      { sheetName := sheet.name, sheetIndex
        row := some (row.2, rangeAddress scanned.cells) }
      (some { cells := scanned.cells, hiddenSheet := sheet.sheetState ≠ "visible",
              headerValues := headers })
    return {
      elements
      nonEmptyCells := scanned.nonEmptyCells
      headers := some headers
      emittedRows := state.emittedRows + 1 }

/-- One sheet, with its index. -/
def parseSheet (state : List (SheetElement py) × Nat) (sheet : Sheet py × Nat) :
    Except ParserError (List (SheetElement py) × Nat) := do
  if context.maxColumns < sheet.1.maxColumn then
    throw ⟨"PARSER_COLUMN_LIMIT", "worksheet column limit exceeded"⟩
  let scanned ← ((sheet.1.formulaRows.zip sheet.1.valueRows).zipIdx 1).foldlM
    (parseRow digest source context sheet.2 sheet.1)
    { elements := state.1, nonEmptyCells := state.2 }
  if scanned.emittedRows = 0 then
    let elements ← append digest source context scanned.elements .other
      ("sheet:" ++ toString sheet.2 ++ ":empty") none "EMPTY_SHEET"
      { sheetName := sheet.1.name, sheetIndex := sheet.2 } none
    return (elements, scanned.nonEmptyCells)
  else return (scanned.elements, scanned.nonEmptyCells)

/-- The elements `parse` puts into the document. -/
def parse (workbook : List (Sheet py)) : Except ParserError (List (SheetElement py)) := do
  if context.maxSheets < workbook.length then
    throw ⟨"PARSER_SHEET_LIMIT", "workbook sheet limit exceeded"⟩
  let (elements, _) ← workbook.zipIdx.foldlM (parseSheet digest source context) ([], 0)
  if context.limits.maxElements < elements.length then
    throw ⟨"PARSER_ELEMENT_LIMIT", "parser element limit exceeded"⟩
  if context.limits.maxExtractedChars < (elements.map fun e => (e.text.getD "").length).sum then
    throw ⟨"PARSER_TEXT_LIMIT", "parser extracted character limit exceeded"⟩
  return elements

end Parsing

/-! ## The cells of a workbook -/

def rowCells (row : List (Cell py) × List (Cell py)) : List (CellRecord py) :=
  (row.1.zip row.2).filterMap cellRecord?

/-- The values of a row as text. -/
def rowValues (row : List (Cell py) × List (Cell py)) : List String := (rowCells row).map rendered

def sheetCells (sheet : Sheet py) : List (CellRecord py) :=
  (sheet.formulaRows.zip sheet.valueRows).flatMap rowCells

/-- The cells that hold something, in the order they are read. -/
def workbookCells (workbook : List (Sheet py)) : List (CellRecord py) :=
  workbook.flatMap sheetCells

section Cells

variable {digest : HexDigest} {source : ParsedSource} {context : WorkbookContext}

theorem parseCell_cells {state state' : RowState py} {pair : Cell py × Cell py}
    (h : parseCell context state pair = .ok state') :
    state'.cells = state.cells ++ (cellRecord? pair).toList := by
  unfold parseCell at h
  cases hcell : cellRecord? pair with
  | none =>
    rw [hcell] at h
    cases h
    exact (List.append_nil _).symm
  | some cell =>
    simp only [hcell] at h
    rw [except_guard_ok, except_guard_ok] at h
    obtain ⟨-, -, h⟩ := h
    cases h
    rfl

theorem scanned_cells {row : List (Cell py) × List (Cell py)} {nonEmptyCells : Nat}
    {state : RowState py}
    (h : (row.1.zip row.2).foldlM (parseCell context) { nonEmptyCells } = .ok state) :
    state.cells = rowCells row := by
  have hcells := except_foldlM_flatMap (parseCell context)
    (fun _ _ _ hstep => parseCell_cells hstep) h
  rw [hcells, rowCells, List.filterMap_eq_flatMap_toList]
  rfl

theorem parseCell_values {state state' : RowState py} {pair : Cell py × Cell py}
    (h : parseCell context state pair = .ok state') :
    state'.valuesForText = state.valuesForText ++ ((cellRecord? pair).map rendered).toList := by
  unfold parseCell at h
  cases hcell : cellRecord? pair with
  | none =>
    rw [hcell] at h
    cases h
    exact (List.append_nil _).symm
  | some cell =>
    simp only [hcell] at h
    rw [except_guard_ok, except_guard_ok] at h
    obtain ⟨-, -, h⟩ := h
    cases h
    rfl

theorem scanned_values {row : List (Cell py) × List (Cell py)} {nonEmptyCells : Nat}
    {state : RowState py}
    (h : (row.1.zip row.2).foldlM (parseCell context) { nonEmptyCells } = .ok state) :
    state.valuesForText = rowValues row := by
  have hvalues := except_foldlM_flatMap (parseCell context)
    (fun _ _ _ hstep => parseCell_values hstep) h
  rw [hvalues, rowValues, rowCells, List.map_filterMap, List.filterMap_eq_flatMap_toList]
  rfl

/-- The counters of an element are those of a Python list. -/
structure Counted (e : SheetElement py) : Prop where
  orderIndex : e.orderIndex < countBound
  sheetIndex : e.sourceLocator.sheetIndex < countBound
  rowIndex : ∀ row ∈ e.sourceLocator.row, row.1 < countBound

section Append

variable {elements elements' : List (SheetElement py)} {kind : ElementType} {locator role : String}
  {text : Option String} {sourceLocator : SheetLocator} {metadata : Option (RowMetadata py)}

theorem append_ok (h : append digest source context elements kind locator text role sourceLocator
      metadata = .ok elements') :
    ∃ e : SheetElement py, elements' = elements ++ [e] ∧ e.text = text ∧ e.metadata = metadata ∧
      e.sourceLocator = sourceLocator ∧ e.orderIndex < countBound := by
  unfold append at h
  rw [except_guard_ok] at h
  obtain ⟨hlimit, h⟩ := h
  cases h
  refine ⟨_, rfl, rfl, rfl, rfl, ?_⟩
  have hlt := context.maxElements_lt
  show elements.length < countBound
  omega

/-- What an appended element adds to the cells, and that it is counted. -/
theorem append_cells (h : append digest source context elements kind locator text role
      sourceLocator metadata = .ok elements') :
    elements'.flatMap SheetElement.cells =
      elements.flatMap SheetElement.cells ++ carriedCells metadata := by
  obtain ⟨e, rfl, -, hmetadata, -, -⟩ := append_ok h
  rw [List.flatMap_append, List.flatMap_singleton, SheetElement.cells, hmetadata]

theorem append_counted (h : append digest source context elements kind locator text role
      sourceLocator metadata = .ok elements') (hsheet : sourceLocator.sheetIndex < countBound)
    (hrow : ∀ row ∈ sourceLocator.row, row.1 < countBound) (hall : ∀ e ∈ elements, Counted e) :
    ∀ e ∈ elements', Counted e := by
  obtain ⟨e, rfl, -, -, hlocator, horder⟩ := append_ok h
  rw [List.forall_mem_append, List.forall_mem_singleton]
  exact ⟨hall, horder, by rw [hlocator]; exact hsheet, by rw [hlocator]; exact hrow⟩

end Append

section Row

variable {sheetIndex : Nat} {sheet : Sheet py} {state state' : SheetState py}
  {row : (List (Cell py) × List (Cell py)) × Nat}

/-- A row without a cell leaves the elements and the headers alone.  Another one adds an
element, and its values are the headers when there are none yet. -/
theorem parseRow_cases
    (h : parseRow digest source context sheetIndex sheet state row = .ok state') :
    row.2 < countBound ∧
      ((rowCells row.1 = [] ∧ state'.elements = state.elements ∧ state'.headers = state.headers) ∨
      (rowCells row.1 ≠ [] ∧
        state'.headers = some (state.headers.getD (rowValues row.1)) ∧
        ∃ metadata range, metadata.cells = rowCells row.1 ∧
        append digest source context state.elements .table
          ("sheet:" ++ toString sheetIndex ++ ":row:" ++ toString row.2)
          (some (rowText (state.headers.getD (rowValues row.1)) (rowValues row.1) row.2))
          "TABLE_ROW" { sheetName := sheet.name, sheetIndex, row := some (row.2, range) }
          (some metadata) = .ok state'.elements)) := by
  unfold parseRow at h
  rw [except_guard_ok] at h
  obtain ⟨hlimit, h⟩ := h
  obtain ⟨scanned, hscanned, h⟩ := except_bind_ok.mp h
  have hlt : row.2 < countBound := by
    have := context.maxRows_lt
    omega
  refine ⟨hlt, ?_⟩
  have hcells := scanned_cells hscanned
  have hvalues := scanned_values hscanned
  split at h
  · next hempty =>
    cases h
    refine .inl ⟨?_, rfl, rfl⟩
    rw [← hcells]
    exact List.isEmpty_iff.mp hempty
  · next hempty =>
    obtain ⟨elements, happend, h⟩ := except_bind_ok.mp h
    cases h
    rw [hvalues] at happend ⊢
    refine .inr ⟨?_, rfl, _, _, hcells, happend⟩
    rw [← hcells]
    exact fun hnil => hempty (List.isEmpty_iff.mpr hnil)

theorem parseRow_cells
    (h : parseRow digest source context sheetIndex sheet state row = .ok state') :
    state'.elements.flatMap SheetElement.cells =
      state.elements.flatMap SheetElement.cells ++ rowCells row.1 := by
  obtain ⟨-, ⟨hnone, hsame, -⟩ | ⟨-, -, metadata, _, hcells, happend⟩⟩ := parseRow_cases h
  · rw [hsame, hnone, List.append_nil]
  · rw [append_cells happend, carriedCells, hcells]

theorem parseRow_counted (hsheet : sheetIndex < countBound)
    (hall : ∀ e ∈ state.elements, Counted e)
    (h : parseRow digest source context sheetIndex sheet state row = .ok state') :
    ∀ e ∈ state'.elements, Counted e := by
  obtain ⟨hrow, ⟨-, hsame, -⟩ | ⟨-, -, _, _, -, happend⟩⟩ := parseRow_cases h
  · rw [hsame]
    exact hall
  · refine append_counted happend hsheet (fun r hr => ?_) hall
    cases hr
    exact hrow

end Row

section Sheet

variable {state state' : List (SheetElement py) × Nat} {sheet : Sheet py × Nat}

theorem parseSheet_cells (h : parseSheet digest source context state sheet = .ok state') :
    state'.1.flatMap SheetElement.cells =
      state.1.flatMap SheetElement.cells ++ sheetCells sheet.1 := by
  unfold parseSheet at h
  rw [except_guard_ok] at h
  obtain ⟨scanned, hscanned, h⟩ := except_bind_ok.mp h.2
  have hcells := except_foldlM_flatMap (parseRow digest source context sheet.2 sheet.1)
    (fun _ _ _ hstep => parseRow_cells hstep) hscanned
  dsimp only at hcells
  rw [Traverse.flatMap_zipIdx rowCells] at hcells
  split at h
  · obtain ⟨elements, happend, h⟩ := except_bind_ok.mp h
    cases h
    rw [append_cells happend, hcells, carriedCells, List.append_nil]
    rfl
  · cases h
    exact hcells

theorem parseSheet_counted (hsheet : sheet.2 < countBound) (hall : ∀ e ∈ state.1, Counted e)
    (h : parseSheet digest source context state sheet = .ok state') :
    ∀ e ∈ state'.1, Counted e := by
  unfold parseSheet at h
  rw [except_guard_ok] at h
  obtain ⟨scanned, hscanned, h⟩ := except_bind_ok.mp h.2
  have hcounted : ∀ e ∈ scanned.elements, Counted e :=
    Traverse.foldlM_invariant (P := fun state => ∀ e ∈ state.elements, Counted e)
      (fun _ _ _ _ => parseRow_counted hsheet) hscanned hall
  split at h
  · obtain ⟨elements, happend, h⟩ := except_bind_ok.mp h
    cases h
    exact append_counted happend hsheet (fun r hr => by cases hr) hcounted
  · cases h
    exact hcounted

end Sheet

variable {workbook : List (Sheet py)} {elements : List (SheetElement py)}

theorem parse_ok (h : parse digest source context workbook = .ok elements) :
    workbook.length < countBound ∧ ∃ nonEmptyCells,
      workbook.zipIdx.foldlM (parseSheet digest source context) ([], 0) =
        .ok (elements, nonEmptyCells) := by
  unfold parse at h
  rw [except_guard_ok] at h
  obtain ⟨hlimit, h⟩ := h
  obtain ⟨state, hstate, h⟩ := except_bind_ok.mp h
  dsimp only at h
  rw [except_guard_ok, except_guard_ok] at h
  obtain ⟨-, -, h⟩ := h
  cases h
  have := context.maxSheets_lt
  exact ⟨by omega, state.2, hstate⟩

/-- The elements carry every cell that holds something, in order. -/
theorem parse_cells (h : parse digest source context workbook = .ok elements) :
    elements.flatMap SheetElement.cells = workbookCells workbook := by
  obtain ⟨-, nonEmptyCells, hscanned⟩ := parse_ok h
  have hcells := except_foldlM_flatMap (parseSheet digest source context)
    (fun _ _ _ hstep => parseSheet_cells hstep) hscanned
  dsimp only at hcells
  rw [Traverse.flatMap_zipIdx sheetCells] at hcells
  exact hcells

theorem parse_counted (h : parse digest source context workbook = .ok elements) :
    ∀ e ∈ elements, Counted e := by
  obtain ⟨hsheets, nonEmptyCells, hscanned⟩ := parse_ok h
  refine Traverse.foldlM_invariant (P := fun state => ∀ e ∈ state.1, Counted e)
    (fun state sheet state' hsheet => ?_) hscanned (List.forall_mem_nil _)
  have hindex := List.snd_lt_of_mem_zipIdx hsheet
  exact parseSheet_counted (by omega)

end Cells

end XlsxDocumentHandler

end AstraIndexator
