import AstraIndexator.Foundation.Joined
import AstraIndexator.PreparedArtifacts.WorkbookArtifact

/-!
# Columns of a workbook

The headers of a sheet are the values of its first row with a cell, and the values of a
later row are paired with them by their position.  Empty cells take no position, so the
pairing follows the columns only where both rows leave out the same ones.
-/

namespace AstraIndexator

open Transaction WorkbookArtifact

namespace XlsxDocumentHandler

variable {py : PythonRuntime}

/-! ## Names of columns -/

/-- The name of a column without a header. -/
def columnName (column : Nat) : String := "column_" ++ toString column

/-- A header that is there and not empty. -/
def given (header : Option String) : Option String := header.filter fun name => name ≠ ""

/-- The header of a column. -/
def headerOf (header : List (CellRecord py)) (column : Nat) : Option String :=
  given ((header.find? fun c => decide (c.columnIndex = column)).map rendered)

/-- The header of a column, or its name. -/
def headerName (header : List (CellRecord py)) (column : Nat) : String :=
  (headerOf header column).getD (columnName column)

/-- The values of a row behind the headers of their own columns. -/
def namedValues (header cells : List (CellRecord py)) : List String :=
  cells.map fun c => headerName header c.columnIndex ++ ": " ++ rendered c

/-- The header at a position of the first row and the header of a column name the same. -/
def SameName (position column : Nat) : Option String → Option String → Prop
  | some header, some own => header = own
  | some header, none => header = columnName column
  | none, some own => own = columnName (position + 1)
  | none, none => position + 1 = column

instance (position column : Nat) (positional own : Option String) :
    Decidable (SameName position column positional own) :=
  match positional, own with
  | some header, some own => inferInstanceAs (Decidable (header = own))
  | some header, none => inferInstanceAs (Decidable (header = columnName column))
  | none, some own => inferInstanceAs (Decidable (own = columnName (position + 1)))
  | none, none => inferInstanceAs (Decidable (position + 1 = column))

/-- The cell at each position of a row has the name of the header at that position. -/
def Aligned (header cells : List (CellRecord py)) : Prop :=
  ∀ entry ∈ cells.zipIdx, SameName entry.2 entry.1.columnIndex
    (given (header[entry.2]?.map rendered)) (headerOf header entry.1.columnIndex)

instance (header cells : List (CellRecord py)) : Decidable (Aligned header cells) :=
  inferInstanceAs (Decidable (∀ entry ∈ cells.zipIdx, SameName entry.2 entry.1.columnIndex
    (given (header[entry.2]?.map rendered)) (headerOf header entry.1.columnIndex)))

section Names

variable {header cells : List (CellRecord py)}

theorem columnKey_eq (headers : List String) (k : Nat) :
    columnKey headers k = (given headers[k]?).getD (columnName (k + 1)) := by
  rw [columnKey]
  cases headers[k]? with
  | none => rfl
  | some header =>
    by_cases hempty : header = ""
    · subst hempty
      rfl
    · have hgiven : given (some header) = some header :=
        Option.filter_eq_some_iff.mpr ⟨rfl, decide_eq_true hempty⟩
      dsimp only
      rw [if_neg hempty, hgiven]
      rfl

theorem columnName_inj {m n : Nat} : columnName m = columnName n ↔ m = n := by
  rw [columnName, columnName, String.append_right_inj]
  exact ⟨Joined.toString_injective, congrArg toString⟩

theorem getD_eq_getD_iff (k column : Nat) (positional own : Option String) :
    positional.getD (columnName (k + 1)) = own.getD (columnName column) ↔
      SameName k column positional own := by
  cases positional with
  | none =>
    cases own with
    | none => exact columnName_inj
    | some own => exact eq_comm
  | some header =>
    cases own with
    | none => exact Iff.rfl
    | some own => exact Iff.rfl

/-- The values are paired with the headers of their columns exactly when the row is aligned
with the header. -/
theorem pairedValues_eq_iff {rowIndex : Nat} (hheader : header ≠ []) (hrow : 1 < rowIndex) :
    pairedValues (header.map rendered) (cells.map rendered) rowIndex = namedValues header cells ↔
      Aligned header cells := by
  have hne : header.map rendered ≠ [] := fun hnil => hheader (List.map_eq_nil_iff.mp hnil)
  have hnamed : namedValues header cells = cells.zipIdx.map fun entry =>
      headerName header entry.1.columnIndex ++ ": " ++ rendered entry.1 := by
    rw [namedValues]
    conv_lhs => rw [← List.zipIdx_map_fst 0 cells, List.map_map]
    rfl
  rw [pairedValues, if_pos ⟨hne, hrow⟩, hnamed, List.zipIdx_map, List.map_map, List.map_inj_left]
  have hkey : ∀ entry : CellRecord py × Nat,
      (columnKey (header.map rendered) entry.2 ++ ": " ++ rendered entry.1 =
        headerName header entry.1.columnIndex ++ ": " ++ rendered entry.1) ↔
      SameName entry.2 entry.1.columnIndex (given (header[entry.2]?.map rendered))
        (headerOf header entry.1.columnIndex) := by
    intro entry
    rw [String.append_left_inj, String.append_left_inj, columnKey_eq, List.getElem?_map]
    exact getD_eq_getD_iff entry.2 entry.1.columnIndex _ _
  exact forall₂_congr fun entry _ => hkey entry

end Names

/-! ## Rows below a header -/

/-- The rows of a sheet in both readings, with their numbers. -/
def numberedRows (sheet : Sheet py) : List ((List (Cell py) × List (Cell py)) × Nat) :=
  (sheet.formulaRows.zip sheet.valueRows).zipIdx 1

/-- The rows with a cell below the first such row, which is the header. -/
def dataRows (sheet : Sheet py) : List (((List (Cell py) × List (Cell py)) × Nat) ×
    ((List (Cell py) × List (Cell py)) × Nat)) :=
  match (numberedRows sheet).filter fun r => !(rowCells r.1).isEmpty with
  | [] => []
  | header :: rows => rows.map fun row => (header, row)

/-- Every row below the header has an element, and in its text each value stands behind
the header of its own column, or the name of that column. -/
def KeepsColumns (workbook : List (Sheet py)) (elements : List (SheetElement py)) : Prop :=
  ∀ sheet ∈ workbook.zipIdx, ∀ pair ∈ dataRows sheet.1,
    ∃ e ∈ elements, e.sourceLocator.sheetIndex = sheet.2 ∧
      e.sourceLocator.row.map Prod.fst = some pair.2.2 ∧
      e.text = some (String.intercalate "; "
        (pairedValues (rowValues pair.1.1) (rowValues pair.2.1) pair.2.2)) ∧
      pairedValues (rowValues pair.1.1) (rowValues pair.2.1) pair.2.2 =
        namedValues (rowCells pair.1.1) (rowCells pair.2.1)

/-- Where the header and a row below it are in the sheet. -/
structure DataRow (sheet : Sheet py)
    (header row : (List (Cell py) × List (Cell py)) × Nat) : Prop where
  header_cells : rowCells header.1 ≠ []
  row_cells : rowCells row.1 ≠ []
  rows_split : ∃ above between below,
    numberedRows sheet = above ++ header :: (between ++ row :: below) ∧
      ∀ r ∈ above, rowCells r.1 = []

theorem dataRow_of_mem {sheet : Sheet py}
    {header row : (List (Cell py) × List (Cell py)) × Nat}
    (h : (header, row) ∈ dataRows sheet) : DataRow sheet header row := by
  have hcells : ∀ r : (List (Cell py) × List (Cell py)) × Nat,
      (!(rowCells r.1).isEmpty) = true ↔ rowCells r.1 ≠ [] := by
    intro r
    rw [Bool.not_eq_true', ← Bool.not_eq_true, List.isEmpty_iff]
  rw [dataRows] at h
  split at h
  · exact absurd h List.not_mem_nil
  · next first rows hfilter =>
    obtain ⟨second, hrow, heq⟩ := List.mem_map.mp h
    obtain ⟨rfl, rfl⟩ := Prod.mk.inj heq
    obtain ⟨above, rest, hsplit, habove, hheader, hrest⟩ := List.filter_eq_cons_iff.mp hfilter
    rw [← hrest, List.mem_filter] at hrow
    obtain ⟨between, below, rfl⟩ := List.append_of_mem hrow.1
    refine ⟨(hcells first).mp hheader, (hcells second).mp hrow.2, above, between, below, hsplit, ?_⟩
    intro r hr
    by_contra hne
    exact habove r hr ((hcells r).mpr hne)

theorem DataRow.one_lt {sheet : Sheet py} {header row : (List (Cell py) × List (Cell py)) × Nat}
    (h : DataRow sheet header row) : 1 < row.2 := by
  obtain ⟨above, between, below, hrows, -⟩ := h.rows_split
  have hlist : numberedRows sheet = (above ++ header :: between) ++ row :: below := by
    rw [hrows, List.append_assoc, List.cons_append]
  have hget : (numberedRows sheet)[(above ++ header :: between).length]? = some row := by
    rw [hlist, List.getElem?_append_right (le_refl _), Nat.sub_self]
    rfl
  rw [numberedRows, List.getElem?_zipIdx] at hget
  obtain ⟨entry, -, hentry⟩ := Option.map_eq_some_iff.mp hget
  rw [← hentry, List.length_append, List.length_cons]
  dsimp only
  omega

section Rows

variable {digest : HexDigest} {source : ParsedSource} {context : WorkbookContext}
  {sheetIndex : Nat} {sheet : Sheet py} {state state' : SheetState py}
  {row : (List (Cell py) × List (Cell py)) × Nat}

theorem append_mem {elements elements' : List (SheetElement py)} {kind : ElementType}
    {locator role : String} {text : Option String} {sourceLocator : SheetLocator}
    {metadata : Option (RowMetadata py)} {e : SheetElement py}
    (h : append digest source context elements kind locator text role sourceLocator metadata =
      .ok elements') (he : e ∈ elements) : e ∈ elements' := by
  obtain ⟨added, rfl, -⟩ := append_ok h
  exact List.mem_append_left [added] he

/-- Elements stay. -/
theorem parseRow_mem {e : SheetElement py}
    (h : parseRow digest source context sheetIndex sheet state row = .ok state')
    (he : e ∈ state.elements) : e ∈ state'.elements := by
  obtain ⟨-, ⟨-, hsame, -⟩ | ⟨-, -, _, _, -, happend⟩⟩ := parseRow_cases h
  · rw [hsame]
    exact he
  · exact append_mem happend he

/-- Headers stay. -/
theorem parseRow_headers {headers : List String}
    (h : parseRow digest source context sheetIndex sheet state row = .ok state')
    (hheaders : state.headers = some headers) : state'.headers = some headers := by
  obtain ⟨-, ⟨-, -, hsame⟩ | ⟨-, hset, -⟩⟩ := parseRow_cases h
  · rw [hsame, hheaders]
  · rw [hset, hheaders]
    rfl

theorem parseRow_blank (hblank : rowCells row.1 = [])
    (h : parseRow digest source context sheetIndex sheet state row = .ok state') :
    state'.headers = state.headers := by
  obtain ⟨-, ⟨-, -, hsame⟩ | ⟨hne, -⟩⟩ := parseRow_cases h
  · exact hsame
  · exact absurd hblank hne

/-- A row with a cell has an element with the text of the row. -/
theorem parseRow_element (hne : rowCells row.1 ≠ [])
    (h : parseRow digest source context sheetIndex sheet state row = .ok state') :
    state'.headers = some (state.headers.getD (rowValues row.1)) ∧
      ∃ e ∈ state'.elements, e.sourceLocator.sheetIndex = sheetIndex ∧
        e.sourceLocator.row.map Prod.fst = some row.2 ∧
        e.text = some (rowText (state.headers.getD (rowValues row.1)) (rowValues row.1) row.2) := by
  obtain ⟨-, ⟨hnil, -⟩ | ⟨-, hheaders, _, _, -, happend⟩⟩ := parseRow_cases h
  · exact absurd hnil hne
  · obtain ⟨e, helements, htext, -, hlocator, -⟩ := append_ok happend
    refine ⟨hheaders, e, ?_, ?_, ?_, htext⟩
    · rw [helements]
      exact List.mem_append_right _ (List.mem_singleton_self e)
    · rw [hlocator]
    · rw [hlocator]
      rfl

/-- The element of a row below the header. -/
theorem dataRow_element {header : (List (Cell py) × List (Cell py)) × Nat}
    (hrow : DataRow sheet header row) (hnone : state.headers = none)
    (h : (numberedRows sheet).foldlM (parseRow digest source context sheetIndex sheet) state =
      .ok state') :
    ∃ e ∈ state'.elements, e.sourceLocator.sheetIndex = sheetIndex ∧
      e.sourceLocator.row.map Prod.fst = some row.2 ∧
      e.text = some (rowText (rowValues header.1) (rowValues row.1) row.2) := by
  obtain ⟨hheader, hcells, above, between, below, hrows, hblank⟩ := hrow
  rw [hrows] at h
  obtain ⟨first, second, habove, hfirst, h⟩ := Traverse.foldlM_split h
  obtain ⟨third, fourth, hbetween, hthird, hbelow⟩ := Traverse.foldlM_split h
  have hfirstHeaders : first.headers = none :=
    Traverse.foldlM_invariant (P := fun state => state.headers = none)
      (fun s r s' hr hs hstep => (parseRow_blank (hblank r hr) hstep).trans hs) habove hnone
  have hsecondHeaders : second.headers = some (rowValues header.1) := by
    rw [(parseRow_element hheader hfirst).1, hfirstHeaders]
    rfl
  have hthirdHeaders : third.headers = some (rowValues header.1) :=
    Traverse.foldlM_invariant (P := fun state => state.headers = some (rowValues header.1))
      (fun s r s' _ hs hstep => parseRow_headers hstep hs) hbetween hsecondHeaders
  obtain ⟨-, e, he, hsheet, hnumber, htext⟩ := parseRow_element hcells hthird
  rw [hthirdHeaders] at htext
  have hstays : e ∈ state'.elements :=
    Traverse.foldlM_invariant (P := fun state => e ∈ state.elements)
      (fun s r s' _ hs hstep => parseRow_mem hstep hs) hbelow he
  exact ⟨e, hstays, hsheet, hnumber, htext⟩

end Rows

/-! ## Sheets and workbooks -/

section Workbooks

variable {digest : HexDigest} {source : ParsedSource} {context : WorkbookContext}

/-- The rows of a sheet are read without a header at first, and elements stay. -/
theorem parseSheet_elements {state state' : List (SheetElement py) × Nat} {sheet : Sheet py × Nat}
    (h : parseSheet digest source context state sheet = .ok state') :
    ∃ scanned : SheetState py,
      (numberedRows sheet.1).foldlM (parseRow digest source context sheet.2 sheet.1)
        { elements := state.1, nonEmptyCells := state.2 } = .ok scanned ∧
      ∀ e ∈ scanned.elements, e ∈ state'.1 := by
  unfold parseSheet at h
  rw [except_guard_ok] at h
  obtain ⟨scanned, hscanned, h⟩ := except_bind_ok.mp h.2
  refine ⟨scanned, hscanned, ?_⟩
  split at h
  · obtain ⟨elements, happend, h⟩ := except_bind_ok.mp h
    cases h
    exact fun e he => append_mem happend he
  · cases h
    exact fun e he => he

theorem parseSheet_mem {state state' : List (SheetElement py) × Nat} {sheet : Sheet py × Nat}
    {e : SheetElement py} (h : parseSheet digest source context state sheet = .ok state')
    (he : e ∈ state.1) : e ∈ state'.1 := by
  obtain ⟨scanned, hscanned, hstays⟩ := parseSheet_elements h
  apply hstays
  exact Traverse.foldlM_invariant (P := fun state => e ∈ state.elements)
    (fun s r s' _ hs hstep => parseRow_mem hstep hs) hscanned he

/-- Every row below the header of its sheet has an element with its text. -/
theorem parse_dataRow {workbook : List (Sheet py)} {elements : List (SheetElement py)}
    {sheet : Sheet py × Nat} {header row : (List (Cell py) × List (Cell py)) × Nat}
    (h : parse digest source context workbook = .ok elements) (hsheet : sheet ∈ workbook.zipIdx)
    (hrow : DataRow sheet.1 header row) :
    ∃ e ∈ elements, e.sourceLocator.sheetIndex = sheet.2 ∧
      e.sourceLocator.row.map Prod.fst = some row.2 ∧
      e.text = some (rowText (rowValues header.1) (rowValues row.1) row.2) := by
  obtain ⟨-, nonEmptyCells, hscanned⟩ := parse_ok h
  obtain ⟨before, behind, hsheets⟩ := List.append_of_mem hsheet
  rw [hsheets] at hscanned
  obtain ⟨first, second, -, hfirst, hbehind⟩ := Traverse.foldlM_split hscanned
  obtain ⟨scanned, hrows, hstays⟩ := parseSheet_elements hfirst
  obtain ⟨e, he, hindex, hnumber, htext⟩ := dataRow_element hrow rfl hrows
  refine ⟨e, ?_, hindex, hnumber, htext⟩
  exact Traverse.foldlM_invariant (P := fun state => e ∈ state.1)
    (fun s r s' _ hs hstep => parseSheet_mem hstep hs) hbehind (hstays e he)

theorem rowText_of_dataRow {sheet : Sheet py}
    {header row : (List (Cell py) × List (Cell py)) × Nat} (hrow : DataRow sheet header row) :
    rowText (rowValues header.1) (rowValues row.1) row.2 = String.intercalate "; "
      (pairedValues (rowValues header.1) (rowValues row.1) row.2) := by
  have hheaders : rowValues header.1 ≠ [] := fun hnil =>
    hrow.header_cells (List.map_eq_nil_iff.mp hnil)
  have hpaired : pairedValues (rowValues header.1) (rowValues row.1) row.2 ≠ [] := by
    rw [pairedValues, if_pos ⟨hheaders, hrow.one_lt⟩]
    intro hnil
    have hlength := congrArg List.length hnil
    rw [List.length_map, List.length_zipIdx, rowValues, List.length_map] at hlength
    exact hrow.row_cells (List.eq_nil_of_length_eq_zero hlength)
  rw [rowText, if_pos hpaired]

/-- A workbook keeps its columns exactly when every row below a header is aligned with it. -/
theorem keepsColumns_iff {workbook : List (Sheet py)} {elements : List (SheetElement py)}
    (h : parse digest source context workbook = .ok elements) :
    KeepsColumns workbook elements ↔
      ∀ sheet ∈ workbook, ∀ pair ∈ dataRows sheet,
        Aligned (rowCells pair.1.1) (rowCells pair.2.1) := by
  constructor
  · intro hkeeps sheet hsheet pair hpair
    have hrow := dataRow_of_mem hpair
    obtain ⟨index, hindex⟩ := List.mem_iff_getElem?.mp hsheet
    have hmem : (sheet, index) ∈ workbook.zipIdx := List.mk_mem_zipIdx_iff_getElem?.mpr hindex
    obtain ⟨e, -, -, -, -, hpairs⟩ := hkeeps (sheet, index) hmem pair hpair
    exact (pairedValues_eq_iff hrow.header_cells hrow.one_lt).mp hpairs
  · intro haligned sheet hsheet pair hpair
    have hrow := dataRow_of_mem hpair
    have hmem : sheet.1 ∈ workbook := List.fst_mem_of_mem_zipIdx hsheet
    obtain ⟨e, he, hindex, hnumber, htext⟩ := parse_dataRow h hsheet hrow
    rw [rowText_of_dataRow hrow] at htext
    have hpairs := haligned sheet.1 hmem pair hpair
    exact ⟨e, he, hindex, hnumber, htext,
      (pairedValues_eq_iff hrow.header_cells hrow.one_lt).mpr hpairs⟩

end Workbooks

/-! ## Rows without gaps -/

/-- A row is aligned with a header when both fill their columns from the first on. -/
theorem aligned_of_dense {header cells : List (CellRecord py)}
    (hheader : ∀ entry ∈ header.zipIdx, entry.1.columnIndex = entry.2 + 1)
    (hcells : ∀ entry ∈ cells.zipIdx, entry.1.columnIndex = entry.2 + 1) :
    Aligned header cells := by
  intro entry hentry
  have hcolumn := hcells entry hentry
  have hsame : header.find? (fun c => decide (c.columnIndex = entry.1.columnIndex)) =
      header[entry.2]? := by
    rw [hcolumn]
    cases hat : header[entry.2]? with
    | none =>
      rw [List.find?_eq_none]
      intro c hc
      obtain ⟨k, hk⟩ := List.mem_iff_getElem?.mp hc
      have hck := hheader (c, k) (List.mk_mem_zipIdx_iff_getElem?.mpr hk)
      have hlength := List.getElem?_eq_none_iff.mp hat
      obtain ⟨hlt, -⟩ := List.getElem?_eq_some_iff.mp hk
      dsimp only at hck
      rw [decide_eq_true_eq]
      omega
    | some c =>
      rw [List.find?_eq_some_iff_getElem]
      obtain ⟨hlt, hget⟩ := List.getElem?_eq_some_iff.mp hat
      have hck := hheader (c, entry.2) (List.mk_mem_zipIdx_iff_getElem?.mpr hat)
      refine ⟨decide_eq_true hck, entry.2, hlt, hget, fun j hj => ?_⟩
      have hjk := hheader (header[j], j)
        (List.mk_mem_zipIdx_iff_getElem?.mpr (List.getElem?_eq_getElem (by omega)))
      dsimp only at hjk
      rw [Bool.not_eq_true', decide_eq_false_iff_not]
      omega
  rw [headerOf, hsame]
  cases given (header[entry.2]?.map rendered) with
  | none => exact hcolumn.symm
  | some name => rfl

/-! ## Two sheets -/

theorem keepsColumns_prices : ∃ elements,
    parse Sha256.hexDigest sampleWorkbookSource sampleWorkbookContext [priceSheet] =
      .ok elements ∧ KeepsColumns [priceSheet] elements := by
  have hok : (parse Sha256.hexDigest sampleWorkbookSource sampleWorkbookContext
      [priceSheet]).isOk = true := by decide +kernel
  obtain ⟨elements, hparse⟩ := except_isOk.mp hok
  exact ⟨elements, hparse, (keepsColumns_iff hparse).mpr (by decide +kernel)⟩

/-- A cell of the first rows and columns. -/
def cornerCell (coordinate : String) (row column : Fin 3)
    (value : Option (CellValue plainRuntime)) : Cell plainRuntime where
  coordinate := coordinate
  row := row
  column := column
  value := value
  row_lt := row.isLt.trans (by decide)
  column_lt := column.isLt.trans (by decide)

/-- A sheet with a price and no item in its second row. -/
def unnamedSheet : Sheet plainRuntime where
  name := "Prices"
  maxColumn := 2
  formulaRows := [
    [cornerCell "A1" 1 1 (some (.text "Item")), cornerCell "B1" 1 2 (some (.text "Price"))],
    [cornerCell "A2" 2 1 none, cornerCell "B2" 2 2 (some (.int 3))]]
  valueRows := [
    [cornerCell "A1" 1 1 (some (.text "Item")), cornerCell "B1" 1 2 (some (.text "Price"))],
    [cornerCell "A2" 2 1 none, cornerCell "B2" 2 2 (some (.int 3))]]

/-- The price is read as the item. -/
theorem not_keepsColumns_unnamed : ∃ elements,
    parse Sha256.hexDigest sampleWorkbookSource sampleWorkbookContext [unnamedSheet] =
      .ok elements ∧
    elements.map (fun e => e.text) = [some "Item; Price", some "Item: 3"] ∧
    ¬ KeepsColumns [unnamedSheet] elements := by
  have hok : (parse Sha256.hexDigest sampleWorkbookSource sampleWorkbookContext
      [unnamedSheet]).isOk = true := by decide +kernel
  have htexts : (parse Sha256.hexDigest sampleWorkbookSource sampleWorkbookContext
      [unnamedSheet]).map (fun elements => elements.map fun e => e.text) =
        .ok [some "Item; Price", some "Item: 3"] := by decide +kernel
  obtain ⟨elements, hparse⟩ := except_isOk.mp hok
  rw [hparse] at htexts
  refine ⟨elements, hparse, Except.ok.inj htexts, fun hkeeps => ?_⟩
  have hpair : ∃ pair ∈ dataRows unnamedSheet,
      pairedValues (rowValues pair.1.1) (rowValues pair.2.1) pair.2.2 ≠
        namedValues (rowCells pair.1.1) (rowCells pair.2.1) := by decide +kernel
  obtain ⟨pair, hpair, hne⟩ := hpair
  obtain ⟨e, -, -, -, -, hpairs⟩ := hkeeps (unnamedSheet, 0) List.mem_cons_self pair hpair
  exact hne hpairs

end XlsxDocumentHandler

end AstraIndexator
