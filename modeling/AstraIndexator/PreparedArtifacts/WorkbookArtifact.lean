import AstraIndexator.Foundation.Raises
import AstraIndexator.Normalization.Service
import AstraIndexator.Parser.Xlsx
import AstraIndexator.PreparedArtifacts.RoundTrip

/-!
# Workbooks as prepared artifacts

The elements of a workbook are normalized, turned into dictionaries and encoded.  The
encoder knows dataclasses, enumerations and tuples besides JSON, so a cell that carries
a date, a duration or a formula object stops the publication.
-/

namespace AstraIndexator

open Transaction Prog PreparedArtifactPublisher PreparedArtifactReader

/-! ## Normalization -/

/-- `bool(value)` -/
def ForeignValue.isTruthy : ForeignValue → Bool
  | .temporal .timedelta text => text ≠ "0:00:00"
  | _ => true

/-- `bool(value)` -/
def isTruthyPy : PyValue ForeignValue → Bool
  | .null => false
  | .bool b => b
  | .int n => n ≠ 0
  | .float repr => repr ≠ "0.0" && repr ≠ "-0.0"
  | .str s => s ≠ ""
  | .list items => !items.isEmpty
  | .dict fields => !fields.isEmpty
  | .other v => v.isTruthy

/-- A `NormalizedElement` made of an element of a workbook.  The fields of the element
are copied. -/
structure NormalizedSheetElement (py : PythonRuntime) where
  element : SheetElement py
  normalizedText : Option String
  structuredData : List (String × PyValue ForeignValue) := []
  warnings : List String := []

namespace WorkbookArtifact

variable {py : PythonRuntime}

section Normalizing

variable (service : TextNormalizationService) (unicode : UnicodeLibrary)
  (strOf : PyValue ForeignValue → String)

/-- `metadata.get(key)`, as a condition. -/
def hasEvidence (e : SheetElement py) (key : String) : Bool :=
  isTruthyPy ((e.metadataDict.lookup key).getD .null)

def normalizeCell (cell : PyValue ForeignValue) : String :=
  let value := match cell with
    | .null => ""
    | v => strOf v
  String.ofList (service.normalizeText unicode value.toList false false false).1

/-- The rows that are lists. -/
def normalizedRows (rows : List (PyValue ForeignValue)) : List (List String) :=
  rows.filterMap fun row =>
    match row with
    | .list cells => some (cells.map (normalizeCell service unicode strOf))
    | _ => none

def invalidRows (rows : List (PyValue ForeignValue)) : Nat :=
  (rows.filter fun row =>
    match row with
    | .list _ => false
    | _ => true).length

/-- `normalized_structured_data` and the warnings of a table. -/
def structuredTable (e : SheetElement py) : List (String × PyValue ForeignValue) × List String :=
  match e.metadataDict.lookup "rows" with
  | some (.list rows) =>
    let normalized := normalizedRows service unicode strOf rows
    ([("rows", .list (normalized.map fun row => .list (row.map .str))),
      ("rowCount", .int normalized.length),
      ("columnCount", .int ((normalized.map List.length).foldr max 0))],
      List.replicate (invalidRows rows) "TABLE_ROW_STRUCTURE_INVALID")
  | _ => ([], [])

/-- `_normalize_element` -/
def normalizeElement (e : SheetElement py) : NormalizedSheetElement py :=
  let allowDehyphenation := hasEvidence e "lineWrapHyphenEvidence"
  let paragraphContinuity := e.type = .paragraph && Text.upper e.role ≠ "OCR_TEXT" &&
    !hasEvidence e "preserveLineBreaks"
  let allowLineJoin := hasEvidence e "lineWrapEvidence" || allowDehyphenation ||
    paragraphContinuity
  let normalizedText := e.text.map fun text =>
    String.ofList (service.normalizeText unicode text.toList (e.type = .codeBlock)
      allowDehyphenation allowLineJoin).1
  let structured := if e.type = .table then structuredTable service unicode strOf e else ([], [])
  { element := e, normalizedText, structuredData := structured.1, warnings := structured.2 }

/-- `normalize`.  An element without a geometry is never page furniture. -/
def normalize (documentVersion : Int) (elements : List (SheetElement py)) :
    Except AstraError (List (NormalizedSheetElement py)) := do
  if documentVersion ≤ 0 then
    throw (valueError "NORMALIZATION_INVALID:document_version")
  return elements.map (normalizeElement service unicode strOf)

end Normalizing

/-! ## Assembly and encoding -/

/-- `asdict(element)` -/
def elementRecord (e : NormalizedSheetElement py) : List (String × PyValue ForeignValue) := [
  ("source_element_id", .str e.element.elementId),
  ("type", .str e.element.type.value),
  ("order_index", .int e.element.orderIndex),
  ("original_text", .ofOption e.element.text),
  ("normalized_text", .ofOption e.normalizedText),
  ("parent_element_id", .null),
  ("level", .null),
  ("geometry", .null),
  ("section_path", .list []),
  ("source_locator", .dict e.element.sourceLocatorDict),
  ("style_hints", .dict []),
  ("language_hint", .null),
  ("role", .str e.element.role),
  ("metadata", .dict e.element.metadataDict),
  ("normalized_structured_data", .dict e.structuredData),
  ("suppressed_from_index", .bool false),
  ("suppression_reason", .null),
  ("warnings", .list (e.warnings.map .str))]

/-- `assemble`, as far as the elements go. -/
def assemble (elements : List (NormalizedSheetElement py)) :
    List (List (String × PyValue ForeignValue)) :=
  elements.map elementRecord

/-- `_json_default`, of a value that is no dataclass, no enumeration and no tuple. -/
def jsonDefault (v : ForeignValue) : Except AstraError Json :=
  .error (typeError ("unsupported canonical JSON value: <class '" ++ v.typeName ++ "'>"))

/-- `canonical_json_bytes(dict(record))` -/
def canonicalRecordBytes (py : PythonRuntime) (record : List (String × PyValue ForeignValue)) :
    Except AstraError (List UInt8) := do
  let value ← PyValue.toJson jsonDefault (.dict record)
  canonicalJsonBytes py value

/-! ## Reading the cells of a record -/

def readCell : Json → Option (String × Json)
  | .obj cell =>
    match getOrNull cell "address" with
    | .str address => some (address, getOrNull cell "displayValue")
    | _ => none
  | _ => none

/-- The addresses and the displayed values of the cells of a record. -/
def readCells (record : JsonObject) : List (String × Json) :=
  match getOrNull record "metadata" with
  | .obj metadata =>
    match getOrNull metadata "cells" with
    | .arr cells => cells.filterMap readCell
    | _ => []
  | _ => []

/-- A displayed value in JSON. -/
def displayJson (value : Option (CellValue py)) : Json :=
  (displayPy value).json fun _ => .null

def addressedCell (c : CellRecord py) : String × Json := (c.address, displayJson c.displayValue)

/-! ## The property -/

/-- The records are encoded, the publisher stops at none of them unless its line is too
long, and the cells are read from what is loaded of any publication that succeeds. -/
structure Publishable (py : PythonRuntime) (sha256 : HexDigest) (keyPrefix : String)
    (records : List (List (String × PyValue ForeignValue))) (cells : List (String × Json)) :
    Prop where
  encoded : ∀ record ∈ records, ∃ bytes, canonicalRecordBytes py record = .ok bytes
  published : ∀ r : PublishRequest,
    records.mapM (PyValue.toJsonFields jsonDefault) = .ok r.elements →
    ∀ (kind : PartKind) (stem : String) (e : AstraError),
      encodePartitioned py sha256 kind stem r.elements r.maxRecordsPerPart r.maxBytesPerPart =
        .error e →
      e = artifactTooLargeError ("single prepared artifact record exceeds byte limit: " ++ stem)
  loaded : ∀ r : PublishRequest,
    records.mapM (PyValue.toJsonFields jsonDefault) = .ok r.elements →
    (∀ record ∈ r.fragments, Json.Valid py (.obj record)) → r.compatibility.Valid py →
    ∀ s, wp storeSetting (publish py sha256 keyPrefix r)
      (fun outcome h s' => ∀ p, outcome = .ok p →
        wp storeSetting (loadAt py sha256 keyPrefix p.manifestKey (some p.manifestSha256))
          (fun loaded _ _ => ∃ artifact, loaded = .ok artifact ∧
            artifact.elements.flatMap readCells = cells) h s') [] s

/-- A displayed value that JSON has: no foreign value, no infinity and no integer with
more digits than are converted to text. -/
def IsJsonValue : Option (CellValue py) → Prop
  | some (.int n) => py.admits (toString n.natAbs).toList.length = true
  | some (.float repr _) => repr ∉ ["nan", "inf", "-inf"]
  | some (.foreign _) => False
  | _ => True

instance (value : Option (CellValue py)) : Decidable (IsJsonValue value) :=
  match value with
  | none => isTrue trivial
  | some (.text _) => isTrue trivial
  | some (.bool _) => isTrue trivial
  | some (.int n) =>
    inferInstanceAs (Decidable (py.admits (toString n.natAbs).toList.length = true))
  | some (.float repr _) => inferInstanceAs (Decidable (repr ∉ ["nan", "inf", "-inf"]))
  | some (.foreign _) => isFalse id

/-! ## Encoding -/

/-- The record in JSON. -/
def recordJson (e : NormalizedSheetElement py) : JsonObject :=
  PyValue.jsonFields (fun _ => .null) (elementRecord e)

theorem others_strs (l : List String) :
    (l.map (PyValue.str : String → PyValue ForeignValue)).flatMap PyValue.others = [] := by
  induction l with
  | nil => rfl
  | cons s l ih => simp [PyValue.others]

theorem others_toPy (c : CellRecord py) :
    c.toPy.others = (displayPy c.displayValue).others := by
  cases htext : c.formulaText with
  | none => simp [CellRecord.toPy, PyValue.others, PyValue.ofOption, htext]
  | some text => simp [CellRecord.toPy, PyValue.others, PyValue.ofOption, htext]

theorem others_ofOption (o : Option String) :
    (PyValue.ofOption o : PyValue ForeignValue).others = [] := by
  cases o with
  | none => rfl
  | some s => rfl

theorem others_sourceLocator (e : SheetElement py) :
    (e.sourceLocatorDict).flatMap (fun f => f.2.others) = [] := by
  unfold SheetElement.sourceLocatorDict
  cases e.sourceLocator.row with
  | none => simp [PyValue.others]
  | some row => simp [PyValue.others]

theorem others_metadata (e : SheetElement py) :
    (e.metadataDict).flatMap (fun f => f.2.others) =
      e.cells.flatMap fun c => (displayPy c.displayValue).others := by
  unfold SheetElement.metadataDict SheetElement.cells
  cases e.metadata with
  | none => rfl
  | some m =>
    have hcells : (m.cells.map CellRecord.toPy).flatMap PyValue.others =
        m.cells.flatMap fun c => (displayPy c.displayValue).others := by
      rw [List.flatMap_map]
      exact congrArg (fun f => List.flatMap f m.cells) (funext others_toPy)
    simp only [List.flatMap_cons, List.flatMap_nil, PyValue.others, PyValue.othersItems_eq, hcells,
      others_strs, List.append_nil]
    rfl

section Normalized

variable (service : TextNormalizationService) (unicode : UnicodeLibrary)
  (strOf : PyValue ForeignValue → String) (e : SheetElement py)

/-- A row of a workbook has no `rows`. -/
theorem structuredTable_eq : structuredTable service unicode strOf e = ([], []) := by
  have hrows : e.metadataDict.lookup "rows" = none := by
    unfold SheetElement.metadataDict
    cases e.metadata with
    | none => rfl
    | some m => rfl
  rw [structuredTable, hrows]

theorem normalizeElement_structured :
    (normalizeElement service unicode strOf e).structuredData = [] ∧
      (normalizeElement service unicode strOf e).warnings = [] := by
  unfold normalizeElement
  rw [structuredTable_eq, ite_self]
  exact ⟨rfl, rfl⟩

/-- The foreign leaves of a record are those of its cells. -/
theorem others_elementRecord :
    (PyValue.dict (elementRecord (normalizeElement service unicode strOf e))).others =
      e.cells.flatMap fun c => (displayPy c.displayValue).others := by
  obtain ⟨hstructured, hwarnings⟩ := normalizeElement_structured service unicode strOf e
  have helement : (normalizeElement service unicode strOf e).element = e := rfl
  simp only [elementRecord, PyValue.others, PyValue.othersFields_eq, PyValue.othersItems_eq,
    List.flatMap_cons, List.flatMap_nil, others_ofOption, hstructured, hwarnings, helement,
    others_sourceLocator, others_metadata, List.map_nil, List.nil_append, List.append_nil]

end Normalized

/-! ## Numbers -/

/-- Python converts integers with at least 640 digits. -/
theorem isEncodable_count (hdigits : py.maxDigits = 0 ∨ 640 ≤ py.maxDigits) {n : Nat}
    (h : n < countBound) : (Json.int n).isEncodable py = true := by
  have hlength : (Nat.toDigits 10 n).length ≤ 19 := by
    rw [Nat.length_toDigits_le_iff (by decide) (by decide)]
    exact h.trans (by decide)
  have htext : (toString (n : Int).natAbs).toList = Nat.toDigits 10 n := Nat.toList_repr
  rw [Json.isEncodable, htext, PythonRuntime.admits, Bool.or_eq_true, decide_eq_true_eq,
    decide_eq_true_eq]
  omega

theorem isEncodable_ofOption (o : Option String) :
    ((PyValue.ofOption o : PyValue ForeignValue).json fun _ => .null).isEncodable py = true := by
  cases o with
  | none => rfl
  | some s => rfl

section Encodable

variable (hdigits : py.maxDigits = 0 ∨ 640 ≤ py.maxDigits)

include hdigits

theorem isEncodable_toPy (c : CellRecord py) :
    (c.toPy.json fun _ => .null).isEncodable py = (displayJson c.displayValue).isEncodable py := by
  have hrow := isEncodable_count hdigits c.rowIndex_lt
  have hcolumn := isEncodable_count hdigits c.columnIndex_lt
  simp only [CellRecord.toPy, PyValue.json, PyValue.jsonFields, Json.isEncodable,
    Json.fieldsEncodable, isEncodable_ofOption, Bool.true_and, Bool.and_true] at hrow hcolumn ⊢
  rw [hrow, hcolumn, Bool.true_and, Bool.true_and]
  rfl

theorem isEncodable_sourceLocator {e : SheetElement py}
    (h : XlsxDocumentHandler.Counted e) :
    Json.fieldsEncodable py (PyValue.jsonFields (fun _ => .null) e.sourceLocatorDict) = true := by
  have hsheet := isEncodable_count hdigits h.sheetIndex
  unfold SheetElement.sourceLocatorDict
  cases hlocator : e.sourceLocator.row with
  | none =>
    simp only [List.append_nil, PyValue.jsonFields, PyValue.json, Json.fieldsEncodable,
      Bool.and_true]
    rw [hsheet]
    rfl
  | some row =>
    have hrow := isEncodable_count hdigits (h.rowIndex row hlocator)
    simp only [List.cons_append, List.nil_append, PyValue.jsonFields, PyValue.json,
      Json.fieldsEncodable, Bool.and_true]
    rw [hsheet, hrow]
    rfl

theorem isEncodable_metadata (e : SheetElement py) :
    Json.fieldsEncodable py (PyValue.jsonFields (fun _ => .null) e.metadataDict) = true ↔
      ∀ c ∈ e.cells, (displayJson c.displayValue).isEncodable py = true := by
  unfold SheetElement.metadataDict SheetElement.cells
  cases e.metadata with
  | none => simp [carriedCells, PyValue.jsonFields, Json.fieldsEncodable]
  | some m =>
    have hheaders : Json.itemsEncodable py
        ((m.headerValues.map (PyValue.str : String → PyValue ForeignValue)).map
          (PyValue.json fun _ => .null)) = true := by
      rw [Json.itemsEncodable_iff, List.map_map, List.forall_mem_map]
      exact fun _ _ => rfl
    simp only [PyValue.jsonFields, PyValue.json, PyValue.jsonItems_eq, Json.fieldsEncodable,
      Json.isEncodable, hheaders, Bool.and_true, carriedCells]
    rw [Json.itemsEncodable_iff, List.map_map, List.forall_mem_map]
    exact forall₂_congr fun c _ => by rw [Function.comp_apply, isEncodable_toPy hdigits]

/-- A record is encoded when its displayed values are. -/
theorem isEncodable_record (service : TextNormalizationService) (unicode : UnicodeLibrary)
    (strOf : PyValue ForeignValue → String) {e : SheetElement py}
    (h : XlsxDocumentHandler.Counted e) :
    (Json.obj (recordJson (normalizeElement service unicode strOf e))).isEncodable py = true ↔
      ∀ c ∈ e.cells, (displayJson c.displayValue).isEncodable py = true := by
  obtain ⟨hstructured, hwarnings⟩ := normalizeElement_structured service unicode strOf e
  have helement : (normalizeElement service unicode strOf e).element = e := rfl
  have horder := isEncodable_count hdigits h.orderIndex
  rw [← isEncodable_metadata hdigits e]
  simp only [recordJson, elementRecord, helement, hstructured, hwarnings, PyValue.jsonFields,
    PyValue.json, PyValue.jsonItems, List.map_nil, Json.isEncodable, Json.fieldsEncodable,
    Json.itemsEncodable, isEncodable_ofOption, isEncodable_sourceLocator hdigits h,
    Bool.true_and, Bool.and_true] at horder ⊢
  rw [horder, Bool.true_and]

end Encodable

theorem isJsonValue_iff (value : Option (CellValue py)) :
    IsJsonValue value ↔
      (displayPy value).others = [] ∧ (displayJson value).isEncodable py = true := by
  cases value with
  | none => exact ⟨fun _ => ⟨rfl, rfl⟩, fun _ => trivial⟩
  | some v =>
    cases v with
    | text s => exact ⟨fun _ => ⟨rfl, rfl⟩, fun _ => trivial⟩
    | bool b => exact ⟨fun _ => ⟨rfl, rfl⟩, fun _ => trivial⟩
    | int n => exact ⟨fun h => ⟨rfl, h⟩, fun h => h.2⟩
    | float repr hrepr =>
      simp [IsJsonValue, displayPy, displayJson, CellValue.toPy, PyValue.others, PyValue.json,
        Json.isEncodable, and_assoc]
    | foreign v => simp [IsJsonValue, displayPy, CellValue.toPy, PyValue.others]

/-! ## Reading back -/

theorem valid_ofOption (o : Option String) :
    Json.Valid py ((PyValue.ofOption o : PyValue ForeignValue).json fun _ => .null) := by
  cases o with
  | none => exact .null
  | some s => exact .str s

theorem valid_displayJson (value : Option (CellValue py)) : Json.Valid py (displayJson value) := by
  cases value with
  | none => exact .null
  | some v =>
    cases v with
    | text s => exact .str s
    | bool b => exact .bool b
    | int n => exact .int n
    | float repr hrepr => exact .float hrepr
    | foreign v => exact .null

/-- The dictionary of a cell in JSON. -/
def cellJson (c : CellRecord py) : JsonObject := [
  ("address", .str c.address), ("rowIndex", .int c.rowIndex), ("columnIndex", .int c.columnIndex),
  ("displayValue", displayJson c.displayValue), ("formulaPresent", .bool c.formulaText.isSome),
  ("formulaText", (PyValue.ofOption c.formulaText : PyValue ForeignValue).json fun _ => .null),
  ("numberFormat", .str c.numberFormat)]

theorem valid_cellJson (c : CellRecord py) : Json.Valid py (.obj (cellJson c)) := by
  refine .obj (by simp [cellJson]) ?_
  simp only [cellJson, List.forall_mem_cons]
  exact ⟨.str _, .int _, .int _, valid_displayJson _, .bool _, valid_ofOption _, .str _,
    List.forall_mem_nil _⟩

theorem sorted_displayJson (value : Option (CellValue py)) :
    (displayJson value).sorted = displayJson value := by
  cases value with
  | none => rfl
  | some v =>
    cases v with
    | text s => rfl
    | bool b => rfl
    | int n => rfl
    | float repr hrepr => rfl
    | foreign v => rfl

theorem readCell_sorted (c : CellRecord py) :
    readCell (Json.obj (cellJson c)).sorted = some (addressedCell c) := by
  have hkeys : ((cellJson c).map Prod.fst).Nodup := by
    cases valid_cellJson c with
    | obj keys _ => exact keys
  have haddress : ("address", Json.str c.address) ∈ cellJson c := by simp [cellJson]
  have hdisplay : ("displayValue", displayJson c.displayValue) ∈ cellJson c := by simp [cellJson]
  rw [sorted_obj, readCell, getOrNull_sorted hkeys haddress, getOrNull_sorted hkeys hdisplay,
    sorted_displayJson]
  rfl

section Reading

variable (service : TextNormalizationService) (unicode : UnicodeLibrary)
  (strOf : PyValue ForeignValue → String) (e : SheetElement py)

/-- `metadata` in JSON. -/
def metadataJson (e : SheetElement py) : JsonObject :=
  PyValue.jsonFields (fun _ => .null) e.metadataDict

theorem metadataJson_eq {m : RowMetadata py} (h : e.metadata = some m) :
    metadataJson e = [
      ("cells", .arr (m.cells.map fun c => .obj (cellJson c))),
      ("hiddenSheet", .bool m.hiddenSheet),
      ("headerValues", .arr (m.headerValues.map .str))] := by
  simp only [metadataJson, SheetElement.metadataDict, h, PyValue.jsonFields, PyValue.json,
    PyValue.jsonItems_eq, List.map_map]
  rfl

theorem valid_metadataJson : Json.Valid py (.obj (metadataJson e)) := by
  cases hmetadata : e.metadata with
  | none =>
    have hempty : metadataJson e = [] := by
      simp only [metadataJson, SheetElement.metadataDict, hmetadata]
      rfl
    rw [hempty]
    exact .obj List.nodup_nil (List.forall_mem_nil _)
  | some m =>
    rw [metadataJson_eq e hmetadata]
    refine .obj (by simp) ?_
    simp only [List.forall_mem_cons]
    refine ⟨.arr ?_, .bool _, .arr ?_, List.forall_mem_nil _⟩
    · rw [List.forall_mem_map]
      exact fun c _ => valid_cellJson c
    · rw [List.forall_mem_map]
      exact fun s _ => .str s

theorem valid_sourceLocator :
    Json.Valid py (.obj (PyValue.jsonFields (fun _ => .null) e.sourceLocatorDict)) := by
  unfold SheetElement.sourceLocatorDict
  cases e.sourceLocator.row with
  | none =>
    refine .obj (by simp) ?_
    simp only [List.append_nil, PyValue.jsonFields, List.forall_mem_cons]
    exact ⟨.str _, .int _, List.forall_mem_nil _⟩
  | some row =>
    refine .obj (by simp) ?_
    simp only [List.cons_append, List.nil_append, PyValue.jsonFields, List.forall_mem_cons]
    exact ⟨.str _, .int _, .int _, .str _, List.forall_mem_nil _⟩

theorem keys_recordJson (e : NormalizedSheetElement py) : ((recordJson e).map Prod.fst).Nodup := by
  simp [recordJson, elementRecord]

theorem valid_recordJson :
    Json.Valid py (.obj (recordJson (normalizeElement service unicode strOf e))) := by
  have hempty : Json.Valid py (.obj []) := .obj List.nodup_nil (List.forall_mem_nil _)
  have hlocator := valid_sourceLocator e
  have hmetadata := valid_metadataJson e
  obtain ⟨hstructured, hwarnings⟩ := normalizeElement_structured service unicode strOf e
  refine .obj (keys_recordJson _) ?_
  simp only [recordJson, elementRecord, hstructured, hwarnings, PyValue.jsonFields,
    PyValue.json, PyValue.jsonItems, List.map_nil, List.forall_mem_cons]
  exact ⟨.str _, .str _, .int _, valid_ofOption _, valid_ofOption _, .null, .null, .null,
    .arr (List.forall_mem_nil _), hlocator, hempty, .null, .str _, hmetadata, hempty, .bool _,
    .null, .arr (List.forall_mem_nil _), List.forall_mem_nil _⟩

/-- The cells are read from a record as they were parsed. -/
theorem readCells_sorted :
    readCells (JsonObject.sorted (recordJson (normalizeElement service unicode strOf e))) =
      e.cells.map addressedCell := by
  have hmetadata : ("metadata", Json.obj (metadataJson e)) ∈
      recordJson (normalizeElement service unicode strOf e) := by
    simp [recordJson, elementRecord, metadataJson, normalizeElement, PyValue.json]
  rw [readCells, getOrNull_sorted (keys_recordJson _) hmetadata, sorted_obj]
  cases hcells : e.metadata with
  | none =>
    have hempty : metadataJson e = [] := by
      simp only [metadataJson, SheetElement.metadataDict, hcells]
      rfl
    rw [hempty, SheetElement.cells, hcells]
    rfl
  | some m =>
    have hkeys : ((metadataJson e).map Prod.fst).Nodup := by
      cases valid_metadataJson e with
      | obj keys _ => exact keys
    have hmem : ("cells", Json.arr (m.cells.map fun c => .obj (cellJson c))) ∈ metadataJson e := by
      rw [metadataJson_eq e hcells]
      exact List.mem_cons_self
    dsimp only
    rw [getOrNull_sorted hkeys hmem, Json.sorted_arr, SheetElement.cells, hcells, carriedCells]
    dsimp only
    rw [List.map_map, List.filterMap_map]
    exact List.filterMap_eq_map_iff_forall_eq_some.mpr fun c _ => readCell_sorted c

end Reading

/-! ## The encoder and the publisher -/

theorem jsonDefault_refuses (v : ForeignValue) (j : Json) : jsonDefault v ≠ .ok j :=
  fun h => by cases h

theorem canonicalRecordBytes_ok {record : List (String × PyValue ForeignValue)} :
    (∃ bytes, canonicalRecordBytes py record = .ok bytes) ↔
      (PyValue.dict record).others = [] ∧
        (Json.obj (PyValue.jsonFields (fun _ => .null) record)).isEncodable py = true := by
  constructor
  · intro h
    obtain ⟨bytes, h⟩ := h
    rw [canonicalRecordBytes] at h
    obtain ⟨value, hvalue, h⟩ := except_bind_ok.mp h
    obtain ⟨hothers, rfl⟩ := (PyValue.toJson_ok_iff jsonDefault_refuses).mp hvalue
    exact ⟨hothers, (canonicalJsonBytes_ok.mp h).1⟩
  · intro h
    have hvalue := (PyValue.toJson_ok_iff jsonDefault_refuses).mpr ⟨h.1, rfl⟩
    rw [canonicalRecordBytes, hvalue, except_ok_bind]
    exact ⟨_, canonicalJsonBytes_ok.mpr ⟨h.2, rfl⟩⟩

/-- A record of a workbook is encoded when JSON has the displayed values of its cells. -/
theorem canonicalRecordBytes_normalizeElement (hdigits : py.maxDigits = 0 ∨ 640 ≤ py.maxDigits)
    (service : TextNormalizationService) (unicode : UnicodeLibrary)
    (strOf : PyValue ForeignValue → String) {e : SheetElement py}
    (h : XlsxDocumentHandler.Counted e) :
    (∃ bytes, canonicalRecordBytes py (elementRecord (normalizeElement service unicode strOf e)) =
        .ok bytes) ↔ ∀ c ∈ e.cells, IsJsonValue c.displayValue := by
  rw [canonicalRecordBytes_ok, others_elementRecord, List.flatMap_eq_nil_iff]
  have hencodable := isEncodable_record hdigits service unicode strOf h
  rw [recordJson] at hencodable
  rw [hencodable, ← forall₂_and]
  exact forall₂_congr fun c _ => (isJsonValue_iff c.displayValue).symm

/-- The records of a workbook are encoded when JSON has the displayed value of every cell. -/
theorem encoded_iff (hdigits : py.maxDigits = 0 ∨ 640 ≤ py.maxDigits)
    (service : TextNormalizationService) (unicode : UnicodeLibrary)
    (strOf : PyValue ForeignValue → String) {elements : List (SheetElement py)}
    (h : ∀ e ∈ elements, XlsxDocumentHandler.Counted e) :
    (∀ record ∈ assemble (elements.map (normalizeElement service unicode strOf)),
        ∃ bytes, canonicalRecordBytes py record = .ok bytes) ↔
      ∀ c ∈ elements.flatMap SheetElement.cells, IsJsonValue c.displayValue := by
  have hrecord := fun e he =>
    canonicalRecordBytes_normalizeElement hdigits service unicode strOf (h e he)
  rw [assemble, List.map_map, List.forall_mem_map, List.forall_mem_flatMap]
  exact forall₂_congr hrecord

theorem mapM_toJsonFields {records : List (List (String × PyValue ForeignValue))}
    (h : ∀ record ∈ records, (PyValue.dict record).others = []) :
    records.mapM (PyValue.toJsonFields jsonDefault) =
      .ok (records.map (PyValue.jsonFields fun _ => .null)) := by
  rw [Traverse.mapM_eq_ok, List.forall₂_map_right_iff, List.forall₂_same]
  intro record hrecord
  rw [PyValue.jsonFields_eq]
  apply PyValue.toJsonFields_ok
  intro f hf
  apply PyValue.toJson_ok
  have hothers := h record hrecord
  rw [PyValue.others, PyValue.othersFields_eq, List.flatMap_eq_nil_iff] at hothers
  rw [hothers f hf]
  exact List.forall_mem_nil _

/-- Encodable records stop the publisher only at a line that is too long. -/
theorem encodePartitioned_raises {sha256 : HexDigest} {kind : PartKind} {stem : String}
    {records : List JsonObject} {maxRecords maxBytes : Int}
    (h : ∀ record ∈ records, (Json.obj record).isEncodable py = true) :
    Raises (· = artifactTooLargeError
        ("single prepared artifact record exceeds byte limit: " ++ stem))
      (encodePartitioned py sha256 kind stem records maxRecords maxBytes) := by
  rw [encodePartitioned]
  refine .bind (.foldlM (fun p record hrecord => ?_) _) fun p => .ok _
  rw [addRecord, canonicalJsonBytes_ok.mpr ⟨h record hrecord, rfl⟩, except_ok_bind]
  exact .guard rfl (.ok _)

/-! ## Publication -/

/-- The cells of the elements are read from their records. -/
theorem readCells_elements (service : TextNormalizationService) (unicode : UnicodeLibrary)
    (strOf : PyValue ForeignValue → String) (elements : List (SheetElement py)) :
    ((elements.map fun e => recordJson (normalizeElement service unicode strOf e)).map
        JsonObject.sorted).flatMap readCells =
      (elements.flatMap SheetElement.cells).map addressedCell := by
  induction elements with
  | nil => rfl
  | cons e elements ih =>
    rw [List.map_cons, List.map_cons, List.flatMap_cons, List.flatMap_cons, List.map_append, ih,
      readCells_sorted]

/-- The cells are read from whatever is loaded of a publication of the records. -/
theorem readCells_loaded {sha256 : HexDigest} {keyPrefix : String} {r : PublishRequest}
    {cells : List (String × Json)} (hvalid : r.Valid py)
    (hcells : (r.elements.map JsonObject.sorted).flatMap readCells = cells) (s : ObjectStore) :
    wp storeSetting (publish py sha256 keyPrefix r)
      (fun outcome h s' => ∀ p, outcome = .ok p →
        wp storeSetting (loadAt py sha256 keyPrefix p.manifestKey (some p.manifestSha256))
          (fun loaded _ _ => ∃ artifact, loaded = .ok artifact ∧
            artifact.elements.flatMap readCells = cells) h s') [] s := by
  refine wp_mono (fun outcome h s' hout p hp => ?_) (publish_triple serves_storeSetting
    (fun _ _ _ _ _ _ _ => trivial) (fun _ _ _ _ _ _ _ _ => trivial) [] s trivial)
  subst hp
  obtain ⟨e, payload, hpublication, hs⟩ := hout
  have hloaded := (hpublication.roundTrips (h := h) hvalid hs).loaded
  exact wp_mono (fun loaded _ _ h => ⟨_, h, hcells⟩) hloaded

/-- A workbook is published and read back exactly when JSON has the displayed value of every
cell that holds something. -/
theorem workbook_publishable_iff (hdigits : py.maxDigits = 0 ∨ 640 ≤ py.maxDigits)
    (sha256 : HexDigest) (keyPrefix : String) (digest : HexDigest) (source : ParsedSource)
    (context : WorkbookContext) (service : TextNormalizationService) (unicode : UnicodeLibrary)
    (strOf : PyValue ForeignValue → String) (documentVersion : Int) (workbook : List (Sheet py))
    (elements : List (SheetElement py)) (normalized : List (NormalizedSheetElement py))
    (hparse : XlsxDocumentHandler.parse digest source context workbook = .ok elements)
    (hnormalize : normalize service unicode strOf documentVersion elements = .ok normalized) :
    Publishable py sha256 keyPrefix (assemble normalized)
        ((XlsxDocumentHandler.workbookCells workbook).map addressedCell) ↔
      ∀ c ∈ XlsxDocumentHandler.workbookCells workbook, IsJsonValue c.displayValue := by
  have hcells := XlsxDocumentHandler.parse_cells hparse
  have hcounted := XlsxDocumentHandler.parse_counted hparse
  rw [normalize, except_guard_ok] at hnormalize
  obtain rfl := Except.ok.inj hnormalize.2
  have hencoded := encoded_iff hdigits service unicode strOf hcounted
  rw [hcells] at hencoded
  constructor
  · intro h
    exact hencoded.mp h.encoded
  · intro h
    have hencoded := hencoded.mpr h
    have hothers := fun record hrecord => (canonicalRecordBytes_ok.mp (hencoded record hrecord)).1
    have hrecords : ∀ r : PublishRequest,
        (assemble (elements.map (normalizeElement service unicode strOf))).mapM
          (PyValue.toJsonFields jsonDefault) = .ok r.elements →
        r.elements =
          elements.map fun e => recordJson (normalizeElement service unicode strOf e) := by
      intro r hr
      rw [mapM_toJsonFields hothers, assemble, List.map_map, List.map_map] at hr
      exact (Except.ok.inj hr).symm
    constructor
    · exact hencoded
    · intro r hr kind stem
      apply encodePartitioned_raises
      rw [hrecords r hr, List.forall_mem_map]
      intro e he
      have hrecord := hencoded _ (List.mem_map_of_mem (List.mem_map_of_mem he))
      exact (canonicalRecordBytes_ok.mp hrecord).2
    · intro r hr hfragments hcompatibility s
      have helements : ∀ record ∈ r.elements, Json.Valid py (.obj record) := by
        rw [hrecords r hr, List.forall_mem_map]
        exact fun e _ => valid_recordJson service unicode strOf e
      refine readCells_loaded ⟨helements, hfragments, hcompatibility⟩ ?_ s
      rw [hrecords r hr, ← hcells]
      exact readCells_elements service unicode strOf elements

/-! ## Two workbooks -/

def sampleWorkbookSource : ParsedSource := ⟨"sha", "XLSX"⟩

def sampleWorkbookContext : WorkbookContext := { documentId := 0, documentVersion := 1 }

/-- `str`, of a text. -/
def plainStr : PyValue ForeignValue → String
  | .str s => s
  | _ => ""

/-- A sheet with a formula, in its formulas and in its cached values. -/
def priceSheet : Sheet plainRuntime where
  name := "Prices"
  maxColumn := 2
  formulaRows := [
    [{ coordinate := "A1", row := 1, column := 1, value := some (.text "Item") },
     { coordinate := "B1", row := 1, column := 2, value := some (.text "Price") }],
    [{ coordinate := "A2", row := 2, column := 1, value := some (.text "Tea") },
     { coordinate := "B2", row := 2, column := 2, value := some (.text "=1+2") }]]
  valueRows := [
    [{ coordinate := "A1", row := 1, column := 1, value := some (.text "Item") },
     { coordinate := "B1", row := 1, column := 2, value := some (.text "Price") }],
    [{ coordinate := "A2", row := 2, column := 1, value := some (.text "Tea") },
     { coordinate := "B2", row := 2, column := 2, value := some (.int 3) }]]

/-- A sheet with one cell, a date. -/
def datedSheet : Sheet plainRuntime where
  name := "Dates"
  maxColumn := 1
  formulaRows := [[{ coordinate := "A1", row := 1, column := 1,
                     value := some (.foreign (.temporal .datetime "2024-01-31 00:00:00")) }]]
  valueRows := [[{ coordinate := "A1", row := 1, column := 1,
                   value := some (.foreign (.temporal .datetime "2024-01-31 00:00:00")) }]]

theorem workbook_publishable_prices : ∃ elements,
    XlsxDocumentHandler.parse Sha256.hexDigest sampleWorkbookSource sampleWorkbookContext
      [priceSheet] = .ok elements ∧
    Publishable plainRuntime Sha256.hexDigest "/prepared/v1/"
      (assemble (elements.map (normalizeElement defaultService plainUnicode plainStr)))
      ((XlsxDocumentHandler.workbookCells [priceSheet]).map addressedCell) := by
  have hok : (XlsxDocumentHandler.parse Sha256.hexDigest sampleWorkbookSource
      sampleWorkbookContext [priceSheet]).isOk = true := by decide +kernel
  obtain ⟨elements, hparse⟩ := except_isOk.mp hok
  refine ⟨elements, hparse, ?_⟩
  refine (workbook_publishable_iff (.inr (by decide)) _ _ _ _ _ _ _ _ 1 _ _ _ hparse rfl).mpr ?_
  decide +kernel

/-- The encoder refuses the date of a cell. -/
theorem not_workbook_publishable_dated : ∃ elements,
    XlsxDocumentHandler.parse Sha256.hexDigest sampleWorkbookSource sampleWorkbookContext
      [datedSheet] = .ok elements ∧
    ¬ Publishable plainRuntime Sha256.hexDigest "/prepared/v1/"
      (assemble (elements.map (normalizeElement defaultService plainUnicode plainStr)))
      ((XlsxDocumentHandler.workbookCells [datedSheet]).map addressedCell) := by
  have hok : (XlsxDocumentHandler.parse Sha256.hexDigest sampleWorkbookSource
      sampleWorkbookContext [datedSheet]).isOk = true := by decide +kernel
  obtain ⟨elements, hparse⟩ := except_isOk.mp hok
  refine ⟨elements, hparse, fun h => ?_⟩
  have hcells := (encoded_iff (.inr (by decide)) _ _ _
    (XlsxDocumentHandler.parse_counted hparse)).mp h.encoded
  rw [XlsxDocumentHandler.parse_cells hparse] at hcells
  have hdate : ¬ ∀ c ∈ XlsxDocumentHandler.workbookCells [datedSheet],
      IsJsonValue c.displayValue := by decide +kernel
  exact hdate hcells

end WorkbookArtifact

end AstraIndexator
