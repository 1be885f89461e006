import AstraIndexator.Parser.Docx
import AstraIndexator.Splitter.Content

/-!
# Headings above the units

Every unit carries the titles open at its element.  They are the outline of the
document exactly when the levels of the headings are nested.
-/

namespace AstraIndexator

open Text Transaction

namespace LogicalSplitter

variable {splitter : LogicalSplitter}

/-- The heading an element is. -/
def headingOf (element : NormalizedElement) : Option (Outline.Heading (List Char)) :=
  if element.type = .heading ∧ elementText element ≠ [] then
    some ⟨headingLevel element, elementText element⟩
  else none

theorem headingLevel_pos (element : NormalizedElement) : headingLevel element ≠ 0 := by
  rw [headingLevel]
  cases element.level with
  | none => decide
  | some level =>
    dsimp only
    omega

/-- The titles open behind an element. -/
theorem openTitles_eq (titles : List (List Char)) (element : NormalizedElement) :
    openTitles titles element = Outline.cutItem titles (headingOf element) := by
  rw [openTitles, headingOf]
  by_cases hheading : element.type = .heading ∧ elementText element ≠ []
  · rw [if_pos hheading, if_pos hheading, Outline.cutItem, Outline.cut, Outline.kept,
      if_neg (headingLevel_pos element), List.append_left_inj, List.take_eq_take_iff]
    dsimp only
    omega
  · rw [if_neg hheading, if_neg hheading, Outline.cutItem]

/-! ## Units of an element -/

theorem hierarchy_textUnits {element : NormalizedElement} {text : List Char}
    {hierarchy : List (List Char)} {context : List Char} {units : List SplitUnit}
    (h : splitter.textUnits element text hierarchy context = .ok units) :
    ∀ unit ∈ units, unit.hierarchy = hierarchy := by
  rw [textUnits] at h
  obtain ⟨chunks, -, h⟩ := except_bind_ok.mp h
  obtain rfl := Except.ok.inj h
  intro unit hunit
  obtain ⟨index, -, rfl⟩ := List.mem_mapIdx.mp hunit
  rfl

theorem hierarchy_tableUnits {element : NormalizedElement} {hierarchy : List (List Char)}
    {units : List SplitUnit} (h : splitter.tableUnits element hierarchy = .ok units) :
    ∀ unit ∈ units, unit.hierarchy = hierarchy := by
  rw [tableUnits] at h
  cases hrows : element.rows.getD [] with
  | nil =>
    rw [hrows] at h
    by_cases htext : elementText element = []
    · obtain rfl := Except.ok.inj ((if_pos htext).symm.trans h)
      exact List.forall_mem_nil _
    · exact hierarchy_textUnits ((if_neg htext).symm.trans h)
  | cons header others =>
    rw [hrows] at h
    obtain ⟨pieces, -, h⟩ := except_bind_ok.mp h
    obtain rfl := Except.ok.inj h
    intro unit hunit
    obtain ⟨index, -, rfl⟩ := List.mem_mapIdx.mp hunit
    rfl

theorem hierarchy_elementUnits {element : NormalizedElement} {hierarchy : List (List Char)}
    {listIntro : Option (List Char)} {units : List SplitUnit}
    (h : splitter.elementUnits element hierarchy listIntro = .ok units) :
    ∀ unit ∈ units, unit.hierarchy = hierarchy := by
  rw [elementUnits] at h
  by_cases htable : element.type = .table
  · rw [if_pos htable] at h
    exact hierarchy_tableUnits h
  · rw [if_neg htable] at h
    by_cases htext : elementText element = []
    · obtain rfl := Except.ok.inj ((if_pos htext).symm.trans h)
      exact List.forall_mem_nil _
    · exact hierarchy_textUnits ((if_neg htext).symm.trans h)

/-- A stripped text that is not empty shows something. -/
theorem visible_elementText_ne_nil {element : NormalizedElement} (h : elementText element ≠ []) :
    visible (elementText element) ≠ [] := by
  intro hnone
  rw [visible, List.filter_eq_nil_iff] at hnone
  obtain ⟨c, rest, htext⟩ := List.exists_cons_of_ne_nil h
  have hstripped : Stripped (elementText element) := stripped_stripChars _
  have hfirst : isSpace c = false := hstripped.1 c (by rw [htext]; rfl)
  have hmem : c ∈ elementText element := by
    rw [htext]
    exact List.mem_cons_self
  have hspace := hnone c hmem
  rw [hfirst] at hspace
  exact hspace rfl

/-- A heading makes at least one unit. -/
theorem units_ne_nil_of_heading {element : NormalizedElement} {hierarchy : List (List Char)}
    {listIntro : Option (List Char)} {units : List SplitUnit}
    {heading : Outline.Heading (List Char)} (hheading : headingOf element = some heading)
    (h : splitter.elementUnits element hierarchy listIntro = .ok units) : units ≠ [] := by
  rw [headingOf] at hheading
  by_cases hboth : element.type = .heading ∧ elementText element ≠ []
  · have hcontent := visible_elementUnits h
    have htable : ¬ (element.type = .table ∧ element.rows.getD [] ≠ []) := by
      rw [hboth.1]
      exact fun h => absurd h.1 (by decide)
    rw [elementContent, if_neg htable, ← visible_elementText] at hcontent
    rintro rfl
    exact visible_elementText_ne_nil hboth.2 hcontent.symm
  · rw [if_neg hboth] at hheading
    cases hheading

/-! ## Units of the document -/

/-- The units made before the first element that is refused. -/
def yieldedUnits : List (Except String (List SplitUnit)) → List (List SplitUnit)
  | .ok units :: rest => units :: yieldedUnits rest
  | _ => []

/-- Where the units of an element come from. -/
theorem exists_of_yieldedUnits {titles : List (List Char)} {listIntro : Option (List Char)}
    {elements live : List NormalizedElement} {read : List (List SplitUnit)}
    (hlive : live = elements.filter fun element => !element.suppressedFromIndex)
    (hread : read = yieldedUnits (splitter.unitsFrom titles listIntro elements)) :
    read.length ≤ live.length ∧
      ∀ (index : Nat) (units : List SplitUnit), read[index]? = some units →
        ∃ element path listIntro, (live.take read.length)[index]? = some element ∧
          (Outline.cutPaths titles ((live.take read.length).map headingOf))[index]? = some path ∧
          splitter.elementUnits element path listIntro = .ok units := by
  induction elements generalizing titles listIntro live read with
  | nil =>
    obtain rfl : read = [] := hread
    exact ⟨Nat.zero_le _, fun index units h => by cases h⟩
  | cons element elements ih =>
    rw [unitsFrom] at hread
    by_cases hsuppressed : element.suppressedFromIndex = true
    · rw [if_pos hsuppressed] at hread
      rw [List.filter_cons_of_neg (by rw [hsuppressed]; decide)] at hlive
      exact ih hlive hread
    · rw [if_neg hsuppressed] at hread
      rw [List.filter_cons_of_pos (by simpa using hsuppressed)] at hlive
      subst hlive
      cases hunits : splitter.elementUnits element (openTitles titles element)
          (listIntroAfter listIntro element) with
      | error e =>
        rw [hunits] at hread
        obtain rfl : read = [] := hread
        exact ⟨Nat.zero_le _, fun index units h => by cases h⟩
      | ok first =>
        rw [hunits] at hread
        obtain ⟨hlength, hrest⟩ := ih rfl rfl
        subst hread
        refine ⟨Nat.succ_le_succ hlength, ?_⟩
        intro index units hindex
        rw [yieldedUnits, List.length_cons, List.take_succ_cons, List.map_cons,
          Outline.cutPaths_cons, ← openTitles_eq]
        cases index with
        | zero =>
          obtain rfl := Option.some.inj hindex
          exact ⟨element, _, _, rfl, rfl, hunits⟩
        | succ index => exact hrest index units hindex

/-- The elements whose units are made. -/
def readElements (splitter : LogicalSplitter) (document : NormalizedDocument) :
    List NormalizedElement :=
  (liveElements document).take (yieldedUnits (splitter.iterUnits document)).length

/-- The paths of the outline at the elements whose units are made. -/
def readPaths (splitter : LogicalSplitter) (document : NormalizedDocument) :
    List (List (List Char)) :=
  Outline.outlinePaths [] ((splitter.readElements document).map headingOf)

/-- The levels of the headings, in order. -/
def headingLevels (elements : List NormalizedElement) : List Nat :=
  (elements.map headingOf).filterMap fun item => item.map Outline.Heading.level

/-- Every unit carries the outline at its element. -/
def UnitsFollow (splitter : LogicalSplitter) (document : NormalizedDocument) : Prop :=
  ∀ (index : Nat) (units : List SplitUnit) (path : List (List Char)),
    (yieldedUnits (splitter.iterUnits document))[index]? = some units →
      (splitter.readPaths document)[index]? = some path → ∀ unit ∈ units, unit.hierarchy = path

/-- The units carry the outline exactly when the levels are nested. -/
theorem unitsFollow_iff (splitter : LogicalSplitter) (document : NormalizedDocument) :
    splitter.UnitsFollow document ↔
      Outline.Nested [] (headingLevels (splitter.readElements document)) := by
  obtain ⟨hlength, hmade⟩ := @exists_of_yieldedUnits splitter [] none
    (orderedElements document) (liveElements document) _ rfl rfl
  have hnested := Outline.cutPaths_eq_iff Outline.Increasing.nil
    ((splitter.readElements document).map headingOf)
  rw [headingLevels]
  refine Iff.trans ?_ hnested
  constructor
  · intro hfollow
    apply Outline.cutPaths_eq_of_headings
    intro index heading hitem
    rw [List.getElem?_map] at hitem
    obtain ⟨element, helement, hheading⟩ := Option.map_eq_some_iff.mp hitem
    have hbound : index < (yieldedUnits (splitter.iterUnits document)).length := by
      have hindex := (List.getElem?_eq_some_iff.mp helement).1
      rw [readElements, List.length_take] at hindex
      omega
    have hunits := List.getElem?_eq_getElem hbound
    obtain ⟨element', path, listIntro, helement', hpath, hmake⟩ := hmade index _ hunits
    obtain rfl : element = element' := Option.some.inj (helement.symm.trans helement')
    obtain ⟨unit, hunit⟩ := List.exists_mem_of_ne_nil _ (units_ne_nil_of_heading hheading hmake)
    have hbound' : index < (splitter.readPaths document).length := by
      rw [readPaths, Outline.length_outlinePaths, List.length_map]
      exact (List.getElem?_eq_some_iff.mp helement).1
    have houtline := List.getElem?_eq_getElem hbound'
    have hsame := hfollow index _ _ hunits houtline unit hunit
    have hown := hierarchy_elementUnits hmake unit hunit
    refine hpath.trans (Eq.trans ?_ houtline.symm)
    rw [← hsame, hown]
  · intro hpaths index units path hunits houtline unit hunit
    obtain ⟨element, path', listIntro, -, hpath, hmake⟩ := hmade index units hunits
    have hsame : some path' = some path := hpath.symm.trans ((congrArg (·[index]?) hpaths).trans
      houtline)
    rw [hierarchy_elementUnits hmake unit hunit, Option.some.inj hsame]

/-! ## Splitter and parsers -/

/-- The units of a document, the elements of a Markdown text and those of a DOCX body
carry the outline exactly when the levels of their headings are nested, and a Markdown
heading has a title. -/
theorem outline_iff (decimal : DecimalDigits) (digest : HexDigest) (source : ParsedSource)
    (context : ParseContext) (splitter : LogicalSplitter) (document : NormalizedDocument)
    (text : List Char) (shapes : List InlineShape) (children : List DocxChild)
    (parsed : ParsedDocument) :
    (splitter.UnitsFollow document ↔
      Outline.Nested [] (headingLevels (splitter.readElements document))) ∧
    (MarkdownDocumentHandler.parse decimal digest source context text = .ok parsed →
      (ParsedSections.SectionsFollow parsed.elements ↔
        Outline.Nested [] ((MarkdownDocumentHandler.textHeadings text).map
          Outline.Heading.level) ∧
        ∀ heading ∈ MarkdownDocumentHandler.textHeadings text, heading.title ≠ "")) ∧
    (OrderedDocxDocumentHandler.parse decimal digest source context shapes children =
        .ok parsed →
      (ParsedSections.SectionsFollow parsed.elements ↔
        Outline.Nested [] ((OrderedDocxDocumentHandler.bodyHeadings decimal children).map
          Outline.Heading.level))) :=
  ⟨unitsFollow_iff splitter document, MarkdownDocumentHandler.sectionsFollow_parse,
    OrderedDocxDocumentHandler.sectionsFollow_parse⟩

/-- Two headings of the given levels. -/
def headedDocument (first second : Int) : NormalizedDocument where
  documentId := 0
  documentVersion := 1
  normalizerProfile := "general"
  normalizerVersion := "1"
  processingFingerprint := "f"
  elements := [
    ⟨"a", .heading, 0, some "a", some first, none, none, none, none, false⟩,
    ⟨"b", .heading, 1, some "b", some second, none, none, none, none, false⟩]

def sampleSourceFile : ParsedSource := ⟨"sha", "MARKDOWN"⟩

def sampleParse : ParseContext := { documentId := 0, documentVersion := 1 }

theorem outline_nested :
    narrowSplitter.UnitsFollow (headedDocument 1 2) ∧
      ∃ document, MarkdownDocumentHandler.parse asciiDigits Sha256.hexDigest sampleSourceFile
          sampleParse "# a\n## b".toList = .ok document ∧
        ParsedSections.SectionsFollow document.elements := by
  have hok : (MarkdownDocumentHandler.parse asciiDigits Sha256.hexDigest sampleSourceFile
      sampleParse "# a\n## b".toList).isOk = true := by decide +kernel
  obtain ⟨document, hparse⟩ := except_isOk.mp hok
  obtain ⟨hunits, hmarkdown, -⟩ := outline_iff asciiDigits Sha256.hexDigest sampleSourceFile
    sampleParse narrowSplitter (headedDocument 1 2) "# a\n## b".toList [] [] document
  exact ⟨hunits.mpr (by decide +kernel), document, hparse,
    (hmarkdown hparse).mpr (by decide +kernel)⟩

/-- The second of two siblings on the second level is put below the first. -/
theorem not_outline_siblings :
    ¬ narrowSplitter.UnitsFollow (headedDocument 2 2) ∧
      ∃ document, MarkdownDocumentHandler.parse asciiDigits Sha256.hexDigest sampleSourceFile
          sampleParse "## a\n## b".toList = .ok document ∧
        ¬ ParsedSections.SectionsFollow document.elements := by
  have hok : (MarkdownDocumentHandler.parse asciiDigits Sha256.hexDigest sampleSourceFile
      sampleParse "## a\n## b".toList).isOk = true := by decide +kernel
  obtain ⟨document, hparse⟩ := except_isOk.mp hok
  refine ⟨fun hfollow => ?_, document, hparse, fun hfollow => ?_⟩
  · have hnested := (unitsFollow_iff narrowSplitter (headedDocument 2 2)).mp hfollow
    revert hnested
    decide +kernel
  · have hnested := ((MarkdownDocumentHandler.sectionsFollow_parse hparse).mp hfollow).1
    revert hnested
    decide +kernel

end LogicalSplitter

end AstraIndexator
