import AstraIndexator.Foundation.Nesting
import AstraIndexator.Foundation.Text
import Mathlib.Data.Rat.Defs
import Mathlib.Algebra.Order.Ring.Rat

/-!
# Containers and rich text

The checks a ZIP container and an RTF file pass before they are parsed.  A container is
admitted entry by entry against the resource limits and then recognised by the entries it
must have.  The groups of an RTF file are counted byte by byte.
-/

namespace AstraIndexator

open Text Transaction

/-- `ExtendedFormatValidationError` -/
structure FormatError where
  code : String
  message : String
  deriving DecidableEq

namespace ExtendedFormats

/-! ## Containers -/

structure ContainerPolicy where
  maxContainerEntries : Int := 10000
  maxTotalUncompressedBytes : Int := 500 * 1024 * 1024
  maxSingleEntryUncompressedBytes : Int := 100 * 1024 * 1024
  maxCompressionRatio : Rat := 100
  maxNestedContainerDepth : Int := 0

/-- What the checks read of a `ZipInfo`. -/
structure ZipInfo where
  filename : String
  flagBits : Nat
  fileSize : Nat
  compressSize : Nat
  deriving DecidableEq

/-- An exception of the ZIP library: one that `except (BadZipFile, OSError)` catches, or
another. -/
inductive ZipException
  | unreadable
  | other (name : String)
  deriving DecidableEq

/-- An archive the ZIP library has opened. -/
structure ZipArchive where
  infolist : List ZipInfo
  read : String → Except ZipException (List UInt8)

/-- What leaves `validate_and_identify_zip` besides a result. -/
inductive ContainerException
  | format (e : FormatError)
  | escaped (name : String)
  deriving DecidableEq

def refuse {α : Type} (code message : String) : Except ContainerException α :=
  .error (.format ⟨code, message⟩)

/-- `except (zipfile.BadZipFile, OSError)` -/
def ofZip {α : Type} : Except ZipException α → Except ContainerException α
  | .ok a => .ok a
  | .error .unreadable => refuse "MALFORMED_CONTAINER" "container validation failed"
  | .error (.other name) => .error (.escaped name)

/-- `info.filename.replace("\\", "/")` -/
def entryName (info : ZipInfo) : List Char :=
  info.filename.toList.map fun c => if c = '\\' then '/' else c

def nestedExtensions : List String := [".zip", ".docx", ".xlsx", ".pptx", ".odt", ".epub"]

/-- `name.lower().endswith(…)` -/
def IsNested (name : List Char) : Prop :=
  nestedExtensions.any (fun ext => endsWith (lower (String.ofList name)) ext) = true

instance (name : List Char) : Decidable (IsNested name) := inferInstanceAs (Decidable (_ = _))

/-- The name is absolute or has a component `..`. -/
def EscapesRoot (name : List Char) : Prop := name.head? = some '/' ∨ "..".toList ∈ name.splitOn '/'

instance (name : List Char) : Decidable (EscapesRoot name) := inferInstanceAs (Decidable (_ ∨ _))

section Entries

/- `divide` is the quotient of two integers as the float it is rounded to. -/
variable (divide : Nat → Nat → Rat) (policy : ContainerPolicy)

/-- One turn of the loop over the entries, on the total and the names so far. -/
def admitEntry (state : Int × List (List Char)) (info : ZipInfo) :
    Except ContainerException (Int × List (List Char)) :=
  let name := entryName info
  if EscapesRoot name then refuse "CONTAINER_PATH_TRAVERSAL" "unsafe container entry path"
  else if name ∈ state.2 then
    refuse "CONTAINER_DUPLICATE_ENTRY" "duplicate container entry name"
  else if info.flagBits % 2 = 1 then
    refuse "CONTAINER_ENCRYPTED" "encrypted container entries are unsupported"
  else if policy.maxSingleEntryUncompressedBytes < info.fileSize then
    refuse "CONTAINER_RESOURCE_LIMIT" "container entry too large"
  else if policy.maxTotalUncompressedBytes < state.1 + info.fileSize then
    refuse "CONTAINER_RESOURCE_LIMIT" "container uncompressed total too large"
  else if policy.maxCompressionRatio < divide info.fileSize (max info.compressSize 1) then
    refuse "CONTAINER_RESOURCE_LIMIT" "container compression ratio exceeds limit"
  else if IsNested name ∧ policy.maxNestedContainerDepth = 0 then
    refuse "CONTAINER_NESTING_LIMIT" "nested container processing is disabled"
  else .ok (state.1 + info.fileSize, state.2 ++ [name])

/-- A row of `ZIP_FORMATS`. -/
structure ZipFormat where
  format : String
  contentType : String
  required : List String
  deriving DecidableEq

def zipFormats : List ZipFormat := [
  ⟨"DOCX", "application/vnd.openxmlformats-officedocument.wordprocessingml.document",
    ["[Content_Types].xml", "word/document.xml"]⟩,
  ⟨"XLSX", "application/vnd.openxmlformats-officedocument.spreadsheetml.sheet",
    ["[Content_Types].xml", "xl/workbook.xml"]⟩,
  ⟨"PPTX", "application/vnd.openxmlformats-officedocument.presentationml.presentation",
    ["[Content_Types].xml", "ppt/presentation.xml"]⟩,
  ⟨"EPUB", "application/epub+zip", ["META-INF/container.xml", "mimetype"]⟩,
  ⟨"ODT", "application/vnd.oasis.opendocument.text", ["content.xml", "mimetype"]⟩]

/-- `data[:limit].decode("ascii", errors="ignore").strip()` -/
def declaredType (limit : Nat) (data : List UInt8) : String :=
  strip (String.ofList (((data.take limit).filter fun b => b < 128).map fun b =>
    Char.ofNat b.toNat))

/-- How many bytes of `mimetype` are compared with the content type. -/
def mimetypeLimit? : String → Option Nat
  | "EPUB" => some 64
  | "ODT" => some 128
  | _ => none

/-- The loop over `ZIP_FORMATS`. -/
def identifyFrom (archive : ZipArchive) (names : List (List Char)) :
    List ZipFormat → Except ContainerException (String × String)
  | [] => refuse "UNSUPPORTED_ZIP_CONTAINER" "ZIP package is not an admitted document format"
  | row :: rows =>
    if row.required.all (fun item => item.toList ∈ names) then
      match mimetypeLimit? row.format with
      | none => .ok (row.format, row.contentType)
      | some limit => do
        let data ← ofZip (archive.read "mimetype")
        if declaredType limit data ≠ row.contentType then identifyFrom archive names rows
        else .ok (row.format, row.contentType)
    else identifyFrom archive names rows

/-- `validate_and_identify_zip`.  `opened` is what `zipfile.ZipFile(path)` answers. -/
def validateAndIdentifyZip (opened : Except ZipException ZipArchive) :
    Except ContainerException (String × String) := do
  let archive ← ofZip opened
  if policy.maxContainerEntries < archive.infolist.length then
    throw (.format ⟨"CONTAINER_RESOURCE_LIMIT", "too many container entries"⟩)
  let admitted ← archive.infolist.foldlM (admitEntry divide policy) (0, [])
  identifyFrom archive admitted.2 zipFormats

end Entries

/-! ## Rich text -/

structure RtfScan where
  depth : Int
  escaped : Bool
  deriving DecidableEq

def unbalancedGroups : FormatError := ⟨"MALFORMED_RTF", "unbalanced RTF groups"⟩

/-- One turn of the loop over the bytes of a chunk. -/
def rtfByte (maxGroupDepth : Int) (s : RtfScan) (byte : UInt8) : Except FormatError RtfScan :=
  if s.escaped then .ok { s with escaped := false }
  else if byte = '\\'.toUInt8 then .ok { s with escaped := true }
  else if byte = '{'.toUInt8 then
    if maxGroupDepth < s.depth + 1 then
      .error ⟨"RTF_RESOURCE_LIMIT", "RTF group nesting exceeds limit"⟩
    else .ok { s with depth := s.depth + 1 }
  else if byte = '}'.toUInt8 then
    if s.depth - 1 < 0 then .error unbalancedGroups else .ok { s with depth := s.depth - 1 }
  else .ok s

/-- One turn of the loop over the chunks. -/
def rtfChunk (maxGroupDepth : Int) (s : RtfScan) (chunk : List UInt8) :
    Except FormatError RtfScan :=
  if 0 ∈ chunk then .error ⟨"MALFORMED_RTF", "RTF contains NUL bytes"⟩
  else chunk.foldlM (rtfByte maxGroupDepth) s

/-- `bytes.lstrip()` -/
def lstripBytes (bytes : List UInt8) : List UInt8 :=
  bytes.dropWhile fun b => b = 0x20 || (0x9 ≤ b && b ≤ 0xd)

/-- `b"{\\rtf"` -/
def rtfSignature : List UInt8 := utf8 "\x7b\\rtf".toList

/-- `validate_rtf` of the file whose bytes are read in the given chunks. -/
def validateRtf (maxGroupDepth : Int) (chunks : List (List UInt8)) : Except FormatError Unit := do
  if ¬ rtfSignature <+: lstripBytes (chunks.flatten.take 16) then
    throw ⟨"MALFORMED_RTF", "RTF signature is missing"⟩
  let s ← chunks.foldlM (rtfChunk maxGroupDepth) ⟨0, false⟩
  if s.depth ≠ 0 then throw unbalancedGroups

/-! ## Admission of entries -/

/-- A check that raises at once. -/
theorem refused_ok {ε α : Type} {p : Prop} [Decidable p] {e : ε} {y : Except ε α} {a : α} :
    (if p then .error e else y) = .ok a ↔ ¬ p ∧ y = .ok a := by
  by_cases hp : p
  · rw [if_pos hp]
    constructor
    · intro h
      cases h
    · intro h
      exact absurd hp h.1
  · rw [if_neg hp]
    exact ⟨fun h => ⟨hp, h⟩, And.right⟩

section Admission

variable (divide : Nat → Nat → Rat) (policy : ContainerPolicy)

/-- What an entry must satisfy by itself. -/
structure EntryAdmitted (info : ZipInfo) : Prop where
  confined : ¬ EscapesRoot (entryName info)
  plain : ¬ info.flagBits % 2 = 1
  size : info.fileSize ≤ policy.maxSingleEntryUncompressedBytes
  ratio : divide info.fileSize (max info.compressSize 1) ≤ policy.maxCompressionRatio
  flat : ¬ (IsNested (entryName info) ∧ policy.maxNestedContainerDepth = 0)

/-- `sum(info.file_size for info in infos)` -/
def totalSize (infos : List ZipInfo) : Nat := (infos.map ZipInfo.fileSize).sum

variable {divide policy} {info : ZipInfo} {infos : List ZipInfo} {total : Int}
  {names : List (List Char)} {state : Int × List (List Char)}

theorem admitEntry_ok_iff : admitEntry divide policy (total, names) info = .ok state ↔
    EntryAdmitted divide policy info ∧ entryName info ∉ names ∧
      total + info.fileSize ≤ policy.maxTotalUncompressedBytes ∧
        state = (total + info.fileSize, names ++ [entryName info]) := by
  simp only [admitEntry, refuse, refused_ok, not_lt, Except.ok.injEq]
  constructor
  · rintro ⟨hconfined, hfresh, hplain, hsize, htotal, hratio, hflat, rfl⟩
    exact ⟨⟨hconfined, hplain, hsize, hratio, hflat⟩, hfresh, htotal, rfl⟩
  · rintro ⟨h, hfresh, htotal, rfl⟩
    exact ⟨h.confined, hfresh, h.plain, h.size, htotal, h.ratio, h.flat, rfl⟩

theorem admitEntries_ok_iff :
    infos.foldlM (admitEntry divide policy) (total, names) = .ok state ↔
      (∀ info ∈ infos, EntryAdmitted divide policy info) ∧ (infos.map entryName).Nodup ∧
        (∀ info ∈ infos, entryName info ∉ names) ∧
          (infos ≠ [] → total + totalSize infos ≤ policy.maxTotalUncompressedBytes) ∧
            state = (total + totalSize infos, names ++ infos.map entryName) := by
  induction infos generalizing total names with
  | nil =>
    simp only [List.foldlM_nil, pure, Except.pure, Except.ok.injEq, totalSize, List.map_nil,
      List.sum_nil, List.append_nil, Int.natCast_zero, Int.add_zero]
    constructor
    · rintro rfl
      exact ⟨List.forall_mem_nil _, List.nodup_nil, List.forall_mem_nil _, fun h => absurd rfl h,
        rfl⟩
    · rintro ⟨-, -, -, -, rfl⟩
      rfl
  | cons info infos ih =>
    have hsum : total + totalSize (info :: infos) = total + info.fileSize + totalSize infos := by
      rw [totalSize, List.map_cons, List.sum_cons, Int.natCast_add, Int.add_assoc]
      rfl
    rw [List.foldlM_cons, except_bind_ok, List.map_cons, List.nodup_cons, List.forall_mem_cons,
      List.forall_mem_cons, hsum]
    constructor
    · rintro ⟨next, hinfo, hrest⟩
      obtain ⟨hadmitted, hfresh, htotal, rfl⟩ := admitEntry_ok_iff.mp hinfo
      obtain ⟨hall, hnodup, hnew, hbound, rfl⟩ := ih.mp hrest
      refine ⟨⟨hadmitted, hall⟩, ⟨?_, hnodup⟩, ⟨hfresh, ?_⟩, fun _ => ?_, ?_⟩
      · intro hmem
        obtain ⟨other, hother, heq⟩ := List.mem_map.mp hmem
        exact hnew other hother (List.mem_append_right _ (List.mem_singleton.mpr heq))
      · intro other hother hmem
        exact hnew other hother (List.mem_append_left _ hmem)
      · by_cases hempty : infos = []
        · subst hempty
          exact (Int.add_zero _).symm ▸ htotal
        · exact hbound hempty
      · rw [List.append_assoc, List.singleton_append]
    · rintro ⟨⟨hadmitted, hall⟩, ⟨hnot, hnodup⟩, ⟨hfresh, hnew⟩, hbound, rfl⟩
      have htotal := hbound (List.cons_ne_nil _ _)
      refine ⟨_, admitEntry_ok_iff.mpr ⟨hadmitted, hfresh, by omega, rfl⟩, ih.mpr ⟨hall, hnodup,
        ?_, fun _ => htotal, ?_⟩⟩
      · intro other hother hmem
        rcases List.mem_append.mp hmem with hmem | hmem
        · exact hnew other hother hmem
        · rw [List.mem_singleton] at hmem
          exact hnot (hmem ▸ List.mem_map_of_mem hother)
      · rw [List.append_assoc, List.singleton_append]

/-- The entries of an admitted container. -/
structure EntriesAdmitted (divide : Nat → Nat → Rat) (policy : ContainerPolicy)
    (infos : List ZipInfo) : Prop where
  count : infos.length ≤ policy.maxContainerEntries
  each : ∀ info ∈ infos, EntryAdmitted divide policy info
  distinct : (infos.map entryName).Nodup
  total : infos ≠ [] → totalSize infos ≤ policy.maxTotalUncompressedBytes

end Admission

/-! ## Recognition -/

section Recognition

variable (archive : ZipArchive) (names : List (List Char))

/-- The container has the entries of the row, and its `mimetype` declares the content type where
that is compared. -/
def Recognised (row : ZipFormat) : Prop :=
  (∀ item ∈ row.required, item.toList ∈ names) ∧
    ∀ limit, mimetypeLimit? row.format = some limit →
      ∃ data, archive.read "mimetype" = .ok data ∧ declaredType limit data = row.contentType

/-- The loop goes on behind the row: an entry is missing, or `mimetype` declares another type. -/
def PassedOver (row : ZipFormat) : Prop :=
  (∃ item ∈ row.required, item.toList ∉ names) ∨
    ∃ limit data, mimetypeLimit? row.format = some limit ∧ archive.read "mimetype" = .ok data ∧
      declaredType limit data ≠ row.contentType

/-- The row is the first of the table that is recognised, and the rows before are passed over. -/
def IdentifiedAs (rows : List ZipFormat) (row : ZipFormat) : Prop :=
  ∃ before after, rows = before ++ row :: after ∧
    (∀ other ∈ before, PassedOver archive names other) ∧ Recognised archive names row

variable {archive names} {row other : ZipFormat} {rows : List ZipFormat} {r : String × String}

theorem ofZip_ok_iff {α : Type} {x : Except ZipException α} {a : α} :
    ofZip x = .ok a ↔ x = .ok a := by
  cases x with
  | ok b => simp [ofZip]
  | error e => cases e <;> simp [ofZip, refuse]

theorem identifiedAs_cons : IdentifiedAs archive names (row :: rows) other ↔
    other = row ∧ Recognised archive names row ∨
      PassedOver archive names row ∧ IdentifiedAs archive names rows other := by
  constructor
  · rintro ⟨before, after, hsplit, hbefore, hrow⟩
    cases before with
    | nil =>
      obtain ⟨rfl, -⟩ := List.cons.inj hsplit
      exact .inl ⟨rfl, hrow⟩
    | cons first before =>
      obtain ⟨rfl, hrest⟩ := List.cons.inj hsplit
      obtain ⟨hfirst, hbefore⟩ := List.forall_mem_cons.mp hbefore
      exact .inr ⟨hfirst, before, after, hrest, hbefore, hrow⟩
  · rintro (⟨rfl, hrow⟩ | ⟨hpassed, before, after, rfl, hbefore, hrow⟩)
    · exact ⟨[], rows, rfl, List.forall_mem_nil _, hrow⟩
    · exact ⟨row :: before, after, rfl, List.forall_mem_cons.mpr ⟨hpassed, hbefore⟩, hrow⟩

theorem identifyFrom_ok_iff : identifyFrom archive names rows = .ok r ↔
    ∃ row, IdentifiedAs archive names rows row ∧ r = (row.format, row.contentType) := by
  induction rows with
  | nil =>
    constructor
    · intro h
      cases h
    · rintro ⟨row, ⟨before, after, hsplit, -⟩, -⟩
      exact absurd hsplit.symm (by simp)
  | cons row rows ih =>
    simp only [identifiedAs_cons, or_and_right, exists_or]
    rw [identifyFrom]
    by_cases hrequired : row.required.all (fun item => item.toList ∈ names) = true
    · rw [if_pos hrequired]
      have hitems : ∀ item ∈ row.required, item.toList ∈ names := by simpa using hrequired
      cases hlimit : mimetypeLimit? row.format with
      | none =>
        have hrow : Recognised archive names row := ⟨hitems, fun limit h => by
          rw [hlimit] at h
          cases h⟩
        have hnot : ¬ PassedOver archive names row := by
          rintro (⟨item, hitem, hmissing⟩ | ⟨limit, data, h, -⟩)
          · exact hmissing (hitems item hitem)
          · rw [hlimit] at h
            cases h
        simp [hrow, hnot, eq_comm]
      | some limit =>
        rw [except_bind_ok]
        simp only [ofZip_ok_iff]
        constructor
        · rintro ⟨data, hdata, h⟩
          by_cases hdeclared : declaredType limit data = row.contentType
          · rw [if_neg (not_not.mpr hdeclared)] at h
            refine .inl ⟨row, ⟨rfl, hitems, fun limit' hlimit' => ?_⟩, (Except.ok.inj h).symm⟩
            obtain rfl := Option.some.inj (hlimit.symm.trans hlimit')
            exact ⟨data, hdata, hdeclared⟩
          · rw [if_pos hdeclared] at h
            obtain ⟨other, hother, hr⟩ := ih.mp h
            exact .inr ⟨other, ⟨.inr ⟨limit, data, hlimit, hdata, hdeclared⟩, hother⟩, hr⟩
        · rintro (⟨other, ⟨rfl, hrow⟩, rfl⟩ | ⟨other, ⟨hpassed, hother⟩, hr⟩)
          · obtain ⟨data, hdata, hdeclared⟩ := hrow.2 limit hlimit
            exact ⟨data, hdata, if_neg (not_not.mpr hdeclared)⟩
          · rcases hpassed with ⟨item, hitem, hmissing⟩ | ⟨limit', data, hlimit', hdata, hdeclared⟩
            · exact absurd (hitems item hitem) hmissing
            · obtain rfl := Option.some.inj (hlimit.symm.trans hlimit')
              refine ⟨data, hdata, ?_⟩
              rw [if_pos hdeclared]
              exact ih.mpr ⟨other, hother, hr⟩
    · rw [if_neg hrequired, ih]
      have hmissing : ∃ item ∈ row.required, item.toList ∉ names := by simpa using hrequired
      have hnot : ¬ Recognised archive names row := by
        intro hrow
        obtain ⟨item, hitem, hnot⟩ := hmissing
        exact hnot (hrow.1 item hitem)
      have hpassed : PassedOver archive names row := .inl hmissing
      simp [hnot, hpassed]

end Recognition

/-! ## Where entries land -/

section Landing

/-- One component of a path, followed from a directory. -/
def descend (directory : List (List Char)) (component : List Char) : List (List Char) :=
  if component = [] ∨ component = ".".toList then directory
  else if component = "..".toList then directory.dropLast
  else directory ++ [component]

/-- Where a path leads from a directory. -/
def landing (root : List (List Char)) (name : List Char) : List (List Char) :=
  (name.splitOn '/').foldl descend (if name.head? = some '/' then [] else root)

variable {root directory : List (List Char)} {name : List Char}

theorem prefix_foldl_descend {components : List (List Char)} (h : "..".toList ∉ components)
    (hroot : root <+: directory) : root <+: components.foldl descend directory := by
  induction components generalizing directory with
  | nil => exact hroot
  | cons component components ih =>
    obtain ⟨hne, hrest⟩ := not_or.mp (fun hor => h (List.mem_cons.mpr hor))
    refine ih hrest ?_
    rw [descend]
    split
    · exact hroot
    · rw [if_neg (Ne.symm hne)]
      exact hroot.trans (List.prefix_append _ _)

/-- A path without a component `..` that is not absolute stays below the directory. -/
theorem prefix_landing (h : ¬ EscapesRoot name) : root <+: landing root name := by
  obtain ⟨hrelative, hparent⟩ := not_or.mp h
  rw [landing, if_neg hrelative]
  exact prefix_foldl_descend hparent List.prefix_rfl

end Landing

/-- A container is accepted exactly when its entries are admitted and the first row of the table
that is not passed over is recognised.  No entry of an accepted container leads out of the
directory it is extracted to. -/
theorem validateAndIdentifyZip_ok_iff (divide : Nat → Nat → Rat) (policy : ContainerPolicy)
    (opened : Except ZipException ZipArchive) (r : String × String) :
    (validateAndIdentifyZip divide policy opened = .ok r ↔
      ∃ archive, opened = .ok archive ∧ EntriesAdmitted divide policy archive.infolist ∧
        ∃ row, IdentifiedAs archive (archive.infolist.map entryName) zipFormats row ∧
          r = (row.format, row.contentType)) ∧
    ∀ archive, opened = .ok archive → validateAndIdentifyZip divide policy opened = .ok r →
      ∀ root, ∀ info ∈ archive.infolist, root <+: landing root (entryName info) := by
  have hiff : validateAndIdentifyZip divide policy opened = .ok r ↔
      ∃ archive, opened = .ok archive ∧ EntriesAdmitted divide policy archive.infolist ∧
        ∃ row, IdentifiedAs archive (archive.infolist.map entryName) zipFormats row ∧
          r = (row.format, row.contentType) := by
    simp only [validateAndIdentifyZip, except_bind_ok, except_guard_ok, ofZip_ok_iff,
      admitEntries_ok_iff, identifyFrom_ok_iff, Int.zero_add, List.nil_append]
    constructor
    · rintro ⟨archive, hopened, hcount, state, ⟨heach, hdistinct, -, htotal, rfl⟩, hrow⟩
      exact ⟨archive, hopened, ⟨not_lt.mp hcount, heach, hdistinct, htotal⟩, hrow⟩
    · rintro ⟨archive, hopened, hadmitted, hrow⟩
      exact ⟨archive, hopened, not_lt.mpr hadmitted.count, _, ⟨hadmitted.each, hadmitted.distinct,
        fun _ _ => List.not_mem_nil, hadmitted.total, rfl⟩, hrow⟩
  refine ⟨hiff, fun archive hopened h root info hinfo => ?_⟩
  obtain ⟨archive', hopened', hadmitted, -⟩ := hiff.mp h
  obtain rfl := Except.ok.inj (hopened.symm.trans hopened')
  exact prefix_landing (hadmitted.each info hinfo).confined

/-! ## Groups of rich text -/

section Groups

/-- The marks of RTF. -/
def rtfMarks : Nesting.Marks UInt8 where
  escape := '\\'.toUInt8
  opening := '{'.toUInt8
  closing := '}'.toUInt8
  escape_ne_opening := by decide
  escape_ne_closing := by decide
  opening_ne_closing := by decide

/-- The counter of the code and the scanner of the marks. -/
def RtfScan.ofScan (s : Nesting.Scan) : RtfScan := ⟨s.depth, s.escaped⟩

/-- Both go on. -/
theorem ok_ofScan_iff (s : Nesting.Scan) {r : RtfScan} :
    (.ok (.ofScan s) : Except FormatError RtfScan) = .ok r ↔
      ∃ s', (.ok s : Except Nesting.Fault Nesting.Scan) = .ok s' ∧ r = .ofScan s' := by
  constructor
  · intro h
    exact ⟨s, rfl, (Except.ok.inj h).symm⟩
  · rintro ⟨s', h, rfl⟩
    rw [Except.ok.inj h]

/-- Both refuse. -/
theorem error_ofScan_iff {e : FormatError} {fault : Nesting.Fault} {r : RtfScan} :
    (.error e : Except FormatError RtfScan) = .ok r ↔
      ∃ s', (.error fault : Except Nesting.Fault Nesting.Scan) = .ok s' ∧ r = .ofScan s' := by
  constructor
  · intro h
    cases h
  · rintro ⟨s', h, -⟩
    cases h

theorem rtfByte_ok_iff {maxGroupDepth : Int} {s : Nesting.Scan} {byte : UInt8} {r : RtfScan} :
    rtfByte maxGroupDepth (.ofScan s) byte = .ok r ↔
      ∃ s', Nesting.step rtfMarks maxGroupDepth.toNat s byte = .ok s' ∧ r = .ofScan s' := by
  obtain ⟨depth, escaped⟩ := s
  cases escaped with
  | true => exact ok_ofScan_iff ⟨depth, false⟩
  | false =>
    change rtfByte maxGroupDepth ⟨depth, false⟩ byte = .ok r ↔ _
    by_cases hescape : byte = rtfMarks.escape
    · rw [hescape, Nesting.step_escape]
      exact ok_ofScan_iff ⟨depth, true⟩
    simp only [rtfByte, Bool.false_eq_true, if_false]
    rw [if_neg (show ¬ byte = '\\'.toUInt8 from hescape)]
    by_cases hopening : byte = rtfMarks.opening
    · rw [hopening, if_pos (show rtfMarks.opening = '{'.toUInt8 from rfl)]
      by_cases hdeep : depth + 1 ≤ maxGroupDepth.toNat
      · rw [Nesting.step_opening hdeep, if_neg (by omega)]
        exact ok_ofScan_iff ⟨depth + 1, false⟩
      · rw [Nesting.step_opening_deep hdeep, if_pos (by omega)]
        exact error_ofScan_iff
    rw [if_neg (show ¬ byte = '{'.toUInt8 from hopening)]
    by_cases hclosing : byte = rtfMarks.closing
    · rw [hclosing, if_pos (show rtfMarks.closing = '}'.toUInt8 from rfl)]
      cases depth with
      | zero =>
        rw [Nesting.step_closing_zero, if_pos (by omega)]
        exact error_ofScan_iff
      | succ depth =>
        have hdepth : (depth + 1 : Nat) - (1 : Int) = depth := by omega
        rw [Nesting.step_closing, hdepth, if_neg (by omega)]
        exact ok_ofScan_iff ⟨depth, false⟩
    · rw [if_neg (show ¬ byte = '}'.toUInt8 from hclosing),
        Nesting.step_plain ⟨hescape, hopening, hclosing⟩]
      exact ok_ofScan_iff ⟨depth, false⟩

theorem rtfBytes_ok_iff {maxGroupDepth : Int} {s : Nesting.Scan} {bytes : List UInt8}
    {r : RtfScan} : bytes.foldlM (rtfByte maxGroupDepth) (.ofScan s) = .ok r ↔
      ∃ s', Nesting.scan rtfMarks maxGroupDepth.toNat s bytes = .ok s' ∧ r = .ofScan s' := by
  induction bytes generalizing s with
  | nil =>
    constructor
    · intro h
      exact ⟨s, rfl, (Except.ok.inj h).symm⟩
    · rintro ⟨s', h, rfl⟩
      rw [← Except.ok.inj h]
      rfl
  | cons byte bytes ih =>
    rw [List.foldlM_cons, Nesting.scan_cons]
    simp only [except_bind_ok, rtfByte_ok_iff]
    constructor
    · rintro ⟨next, ⟨s', hstep, rfl⟩, hrest⟩
      obtain ⟨last, hscan, rfl⟩ := ih.mp hrest
      exact ⟨last, ⟨s', hstep, hscan⟩, rfl⟩
    · rintro ⟨last, ⟨s', hstep, hscan⟩, rfl⟩
      exact ⟨_, ⟨s', hstep, rfl⟩, ih.mpr ⟨last, hscan, rfl⟩⟩

/-- Where the chunks are cut does not matter. -/
theorem rtfChunks_ok_iff {maxGroupDepth : Int} {s r : RtfScan} {chunks : List (List UInt8)} :
    chunks.foldlM (rtfChunk maxGroupDepth) s = .ok r ↔
      0 ∉ chunks.flatten ∧ chunks.flatten.foldlM (rtfByte maxGroupDepth) s = .ok r := by
  induction chunks generalizing s with
  | nil => exact ⟨fun h => ⟨List.not_mem_nil, h⟩, And.right⟩
  | cons chunk chunks ih =>
    rw [List.foldlM_cons, List.flatten_cons, List.mem_append, not_or, List.foldlM_append]
    simp only [except_bind_ok, rtfChunk, refused_ok, ih]
    constructor
    · rintro ⟨next, ⟨hzero, hchunk⟩, hzeros, hrest⟩
      exact ⟨⟨hzero, hzeros⟩, next, hchunk, hrest⟩
    · rintro ⟨⟨hzero, hzeros⟩, next, hchunk, hrest⟩
      exact ⟨next, ⟨hzero, hchunk⟩, hzeros, hrest⟩

/-- An RTF file is accepted exactly when it has the signature, no NUL byte, and balanced groups
within the depth, a lone backslash at the end allowed. -/
theorem validateRtf_ok_iff (maxGroupDepth : Int) (chunks : List (List UInt8)) :
    validateRtf maxGroupDepth chunks = .ok () ↔
      rtfSignature <+: lstripBytes (chunks.flatten.take 16) ∧ 0 ∉ chunks.flatten ∧
        ∃ body, Nesting.Nested rtfMarks maxGroupDepth.toNat body ∧
          (chunks.flatten = body ∨ chunks.flatten = body ++ ['\\'.toUInt8]) := by
  have hstart : (⟨0, false⟩ : RtfScan) = .ofScan ⟨0, false⟩ := rfl
  rw [validateRtf, except_guard_ok, not_not, except_bind_ok]
  simp only [rtfChunks_ok_iff, hstart, rtfBytes_ok_iff]
  constructor
  · rintro ⟨hsignature, r, ⟨hzero, s, hscan, rfl⟩, hdepth⟩
    refine ⟨hsignature, hzero, ?_⟩
    obtain ⟨depth, escaped⟩ := s
    have hclosed : depth = 0 := by
      by_contra hne
      rw [if_pos (by simpa [RtfScan.ofScan] using hne)] at hdepth
      cases hdepth
    subst hclosed
    cases escaped with
    | false => exact ⟨_, Nesting.scan_iff.mp hscan, .inl rfl⟩
    | true =>
      obtain ⟨front, heq, hfront⟩ := Nesting.scan_escaped_iff.mp hscan
      exact ⟨front, hfront, .inr heq⟩
  · rintro ⟨hsignature, hzero, body, hbody, heq | heq⟩
    · subst heq
      exact ⟨hsignature, _, ⟨hzero, _, Nesting.scan_iff.mpr hbody, rfl⟩, rfl⟩
    · exact ⟨hsignature, _, ⟨hzero, _, Nesting.scan_escaped_iff.mpr ⟨body, heq, hbody⟩, rfl⟩, rfl⟩

end Groups

end ExtendedFormats

end AstraIndexator
