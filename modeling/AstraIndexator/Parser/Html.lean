import AstraIndexator.Parser.Dom
import AstraIndexator.Foundation.Transaction

/-!
# HTML documents

One element for every tag of content that has text, and one for every image.  An
element is identified by the path of its tag.
-/

namespace AstraIndexator

open Text Transaction

structure ParserError where
  code : String
  message : String
  deriving DecidableEq

structure ParseLimits where
  maxElements : Int := 200000
  maxExtractedChars : Int := 50000000
  maxDomNodes : Int := 500000
  maxEmbeddedImages : Int := 10000
  maxTables : Int := 10000

structure ParseContext where
  documentId : UUID
  documentVersion : Int
  parserProfile : String := "default-v1"
  limits : ParseLimits := {}

/-- What a parser reads of the acquired source. -/
structure ParsedSource where
  sha256 : String
  detectedFormat : String

section Emitting

variable (digest : HexDigest) (source : ParsedSource) (context : ParseContext)

/-- `_eid` -/
def eid (locator : String) (kind : ElementType) : String :=
  deterministicElementId digest context.documentId context.documentVersion source.sha256
    source.detectedFormat locator kind

/-- What `_append` gets besides the locator. -/
structure Emission where
  kind : ElementType
  text : Option String := none
  metadata : List (String × Json) := []
  sourceLocator : List (String × Json) := []
  role : Option String := none
  level : Option Int := none
  sectionPath : List String := []

/-- `_append` -/
def appendElement (elements : List DocumentElement) (locator : String) (emission : Emission) :
    Except ParserError (List DocumentElement) := do
  if context.limits.maxElements ≤ elements.length then
    throw ⟨"PARSER_ELEMENT_LIMIT", "parser element limit exceeded"⟩
  return elements ++ [{
    elementId := eid digest source context locator emission.kind, type := emission.kind,
    orderIndex := elements.length, text := emission.text, level := emission.level,
    sectionPath := emission.sectionPath, sourceLocator := emission.sourceLocator,
    role := emission.role, metadata := emission.metadata }]

/-- `sum(len(e.text or "") for e in elements)` -/
def extractedChars (elements : List DocumentElement) : Nat :=
  (elements.map fun e => (e.text.getD "").length).sum

/-- `_quality` -/
def parseQuality (elements : List DocumentElement) (candidates : List OcrCandidate)
    (warnings pageModes : List String) : ParseQuality where
  status :=
    if candidates ≠ [] then .ocrRequired
    else if extractedChars elements = 0 then .lowSignal
    else .good
  nativeTextChars := extractedChars elements
  ocrCandidateCount := candidates.length
  warnings := warnings
  pageModes := pageModes

/-- `_doc` -/
def parsedDocument (name : String) (elements : List DocumentElement)
    (candidates : List OcrCandidate) (warnings pageModes : List String) :
    Except ParserError ParsedDocument := do
  if context.limits.maxElements < elements.length then
    throw ⟨"PARSER_ELEMENT_LIMIT", "parser element limit exceeded"⟩
  if context.limits.maxExtractedChars < extractedChars elements then
    throw ⟨"PARSER_TEXT_LIMIT", "parser extracted character limit exceeded"⟩
  return {
    schemaVersion := "astra-indexator-document-v1"
    documentId := context.documentId
    documentVersion := context.documentVersion
    sourceSha256 := source.sha256
    detectedFormat := source.detectedFormat
    parser := ⟨name, "m4-v1", context.parserProfile⟩
    elements := elements
    ocrCandidates := candidates
    quality := parseQuality elements candidates warnings pageModes }

end Emitting

theorem appendElement_text {digest : HexDigest} {source : ParsedSource} {context : ParseContext}
    {elements elements' : List DocumentElement} {locator : String} {e : Emission}
    (h : appendElement digest source context elements locator e = .ok elements') :
    elements'.filterMap DocumentElement.text =
      elements.filterMap DocumentElement.text ++ e.text.toList := by
  rw [appendElement, except_guard_ok] at h
  obtain rfl := Except.ok.inj h.2
  rw [List.filterMap_append]
  cases e.text with
  | none => rfl
  | some text => rfl

/-- A turn of a loop over tags adds the text of what the tag emits. -/
theorem emitted_text {digest : HexDigest} {source : ParsedSource} {context : ParseContext}
    {elements elements' : List DocumentElement} {locator : String} {emission : Option Emission}
    (h : (match emission with
      | none => Except.ok elements
      | some e => appendElement digest source context elements locator e) = .ok elements') :
    elements'.filterMap DocumentElement.text =
      elements.filterMap DocumentElement.text ++ (emission.bind Emission.text).toList := by
  cases emission with
  | none =>
    obtain rfl := Except.ok.inj h
    exact (List.append_nil _).symm
  | some e => exact appendElement_text h

theorem elements_parsedDocument {source : ParsedSource} {context : ParseContext} {name : String}
    {elements : List DocumentElement} {candidates : List OcrCandidate}
    {warnings pageModes : List String} {document : ParsedDocument}
    (h : parsedDocument source context name elements candidates warnings pageModes =
      .ok document) : document.elements = elements := by
  rw [parsedDocument] at h
  obtain ⟨-, h⟩ := except_guard_ok.mp h
  obtain ⟨-, h⟩ := except_guard_ok.mp h
  obtain rfl := Except.ok.inj h
  rfl

namespace HtmlDocumentHandler

/-- The tags whose contents are not text of the page. -/
def removedNames : List String := ["script", "style", "noscript", "template"]

/-- The tags that become elements. -/
def contentNames : List String :=
  ["title", "h1", "h2", "h3", "h4", "h5", "h6", "p", "li", "table", "pre", "code", "img"]

/-- An attribute in JSON. -/
def attributeJson : Option AttributeValue → Json
  | none => .null
  | some (.single value) => .str value
  | some (.multiple values) => .arr (values.map Json.str)

/-- `int(name[1])` of a heading, and one for a title. -/
def headingLevel (name : String) : Int :=
  match name.toList with
  | 'h' :: digit :: _ => (digit.toNat : Int) - '0'.toNat
  | _ => 1

/-- The kind and the level of an element with text. -/
def textKind (name : String) : ElementType × Option Int :=
  if name = "title" ∨ "h".toList <+: name.toList then (.heading, some (headingLevel name))
  else if name = "li" then (.listItem, none)
  else if name = "table" then (.table, none)
  else if name = "pre" ∨ name = "code" then (.codeBlock, none)
  else (.paragraph, none)

/-- What the loop emits for a tag, if anything. -/
def emission (ref : TagRef) : Option Emission :=
  let name := lower ref.node.name.name
  let sourceLocator : List (String × Json) :=
    [("domPath", .str (domPath ref)), ("elementId", attributeJson (ref.node.get "id"))]
  if name ∉ contentNames then none
  else if name = "img" then
    some {
      kind := .image
      role := some "HTML_IMAGE_REFERENCE"
      sourceLocator := sourceLocator
      metadata := [("src", attributeJson (ref.node.get "src")),
        ("alt", attributeJson (ref.node.get "alt"))] }
  else if ref.node.getText = "" then none
  else some {
    kind := (textKind name).1
    text := some ref.node.getText
    level := (textKind name).2
    sourceLocator := sourceLocator }

/-- The page without what is no text, as the root of all tags. -/
def page (markup : Contents) : Tag where
  name := ⟨"[document]", by decide, by decide⟩
  attributes := ⟨[], List.nodup_nil⟩
  contents := markup.decompose removedNames

/-- All tags of the page. -/
def nodes (markup : Contents) : List TagRef := (page markup).contents.findAll [page markup]

variable (digest : HexDigest) (source : ParsedSource) (context : ParseContext)

/-- One turn of the loop over the tags. -/
def parseNode (elements : List DocumentElement) (ref : TagRef) :
    Except ParserError (List DocumentElement) :=
  match emission ref with
  | none => .ok elements
  | some e => appendElement digest source context elements (domPath ref) e

/-- `HtmlDocumentHandler.parse` of the tree that is read off the markup. -/
def parse (markup : Contents) : Except ParserError ParsedDocument := do
  if context.limits.maxDomNodes < (nodes markup).length then
    throw ⟨"PARSER_DOM_LIMIT", "HTML DOM node limit exceeded"⟩
  let elements ← (nodes markup).foldlM (parseNode digest source context) []
  parsedDocument source context "beautifulsoup-lxml" elements [] [] []

/-! ## Identity -/

/-- The text the identifier of an emitted element is the digest of. -/
def identityText (ref : TagRef) (e : Emission) : String :=
  unitSeparated [DeliveryIdentity.uuidText context.documentId, toString context.documentVersion,
    source.sha256, source.detectedFormat, domPath ref, e.kind.value]

variable {digest source context}

theorem eid_eq (ref : TagRef) (e : Emission) : eid digest source context (domPath ref) e.kind =
    digest.hexdigest (utf8 (identityText source context ref e).toList) :=
  rfl

/-- The identifiers of the elements the tags emit, in order. -/
def emittedIds (digest : HexDigest) (source : ParsedSource) (context : ParseContext)
    (refs : List TagRef) : List String :=
  refs.filterMap fun ref =>
    (emission ref).map fun e => eid digest source context (domPath ref) e.kind

theorem elementIds_foldlM {refs : List TagRef} {elements elements' : List DocumentElement}
    (h : refs.foldlM (parseNode digest source context) elements = .ok elements') :
    elements'.map DocumentElement.elementId =
      elements.map DocumentElement.elementId ++ emittedIds digest source context refs := by
  induction refs generalizing elements with
  | nil =>
    obtain rfl := Except.ok.inj h
    exact (List.append_nil _).symm
  | cons ref refs ih =>
    rw [List.foldlM_cons] at h
    obtain ⟨next, hnext, h⟩ := except_bind_ok.mp h
    rw [ih h, emittedIds, emittedIds]
    rw [parseNode] at hnext
    cases hemission : emission ref with
    | none =>
      rw [hemission] at hnext
      obtain rfl := Except.ok.inj hnext
      rw [List.filterMap_cons_none (by rw [hemission]; rfl)]
    | some e =>
      rw [hemission] at hnext
      dsimp only at hnext
      rw [appendElement] at hnext
      by_cases hlimit : context.limits.maxElements ≤ elements.length
      · rw [if_pos hlimit] at hnext
        cases hnext
      · rw [if_neg hlimit] at hnext
        obtain rfl := Except.ok.inj hnext
        rw [List.filterMap_cons_some (by rw [hemission]; rfl), List.map_append, List.append_assoc]
        rfl

/-- The identifiers of a parsed document. -/
theorem elementIds_parse {markup : Contents} {document : ParsedDocument}
    (h : parse digest source context markup = .ok document) :
    document.elements.map DocumentElement.elementId =
      emittedIds digest source context (nodes markup) := by
  rw [parse] at h
  by_cases hnodes : context.limits.maxDomNodes < (nodes markup).length
  · rw [if_pos hnodes] at h
    cases h
  · rw [if_neg hnodes] at h
    obtain ⟨elements, helements, h⟩ := except_bind_ok.mp h
    rw [elements_parsedDocument h]
    exact elementIds_foldlM helements

theorem no_separator_value (kind : ElementType) : Char.ofNat 0x1f ∉ kind.value.toList := by
  cases kind <;> decide

/-- The path is read back from the text of the identity. -/
theorem identityText_domPath {ref ref' : TagRef} {e e' : Emission}
    (h : identityText source context ref e = identityText source context ref' e') :
    domPath ref = domPath ref' :=
  (@Joined.join_append_injective _ [DeliveryIdentity.uuidText context.documentId,
    toString context.documentVersion, source.sha256, source.detectedFormat] (domPath ref)
    (domPath ref') e.kind.value e'.kind.value (no_separator_value e.kind)
    (no_separator_value e'.kind) h).1

/-- The digest tells the identities of the emitted elements apart. -/
def DigestSeparates (digest : HexDigest) (source : ParsedSource) (context : ParseContext)
    (refs : List TagRef) : Prop :=
  ∀ ref ∈ refs, ∀ ref' ∈ refs, ∀ e ∈ emission ref, ∀ e' ∈ emission ref',
    digest.hexdigest (utf8 (identityText source context ref e).toList) =
        digest.hexdigest (utf8 (identityText source context ref' e').toList) →
      identityText source context ref e = identityText source context ref' e'

instance (refs : List TagRef) : Decidable (DigestSeparates digest source context refs) :=
  inferInstanceAs (Decidable (∀ ref ∈ refs, ∀ ref' ∈ refs, ∀ e ∈ emission ref, ∀ e' ∈ emission ref',
    _ → _))

/-- Elements of tags with different paths have different identifiers. -/
theorem nodup_emittedIds {refs : List TagRef}
    (hdigest : DigestSeparates digest source context refs) (h : (refs.map domPath).Nodup) :
    (emittedIds digest source context refs).Nodup := by
  rw [List.Nodup, List.pairwise_map] at h
  rw [emittedIds, List.Nodup, List.pairwise_filterMap]
  refine List.Pairwise.imp_of_mem ?_ h
  intro ref ref' hmem hmem' hne id hid id' hid' hsame
  obtain ⟨e, he, rfl⟩ := Option.map_eq_some_iff.mp hid
  obtain ⟨e', he', rfl⟩ := Option.map_eq_some_iff.mp hid'
  rw [eid_eq, eid_eq] at hsame
  exact hne (identityText_domPath (hdigest ref hmem ref' hmem' e he e' he' hsame))

/-- The paths of the tags and the identifiers of the elements are distinct exactly
when no tag of the page has two equal children. -/
theorem identity_iff (digest : HexDigest) (source : ParsedSource) (context : ParseContext)
    (markup : Contents) (document : ParsedDocument)
    (hdigest : DigestSeparates digest source context (nodes markup))
    (h : parse digest source context markup = .ok document) :
    ((nodes markup).map domPath).Nodup ∧ (document.elements.map DocumentElement.elementId).Nodup ↔
      (page markup).ChildrenDiffer ∧ ∀ ref ∈ nodes markup, ref.node.ChildrenDiffer := by
  have hpaths := nodup_domPath_iff (page markup)
  rw [elementIds_parse h]
  constructor
  · intro hboth
    exact hpaths.mp hboth.1
  · intro hdiffer
    have hnodup := hpaths.mpr hdiffer
    exact ⟨hnodup, nodup_emittedIds hdigest hnodup⟩

/-! ## Two paragraphs -/

/-- A paragraph with a text, before others. -/
def paragraph (value : String) (rest : Contents) : Contents :=
  .tag ⟨"p", by decide, by decide⟩ ⟨[], List.nodup_nil⟩ (.string .text value .nil) rest

def sampleSource : ParsedSource := ⟨"sha", "HTML"⟩

def sampleContext : ParseContext := { documentId := 0, documentVersion := 1 }

theorem identity_sample :
    ∃ document, parse Sha256.hexDigest sampleSource sampleContext
        (paragraph "a" (paragraph "b" .nil)) = .ok document ∧
      ((nodes (paragraph "a" (paragraph "b" .nil))).map domPath).Nodup ∧
        (document.elements.map DocumentElement.elementId).Nodup :=
  ⟨_, rfl, (identity_iff Sha256.hexDigest sampleSource sampleContext
    (paragraph "a" (paragraph "b" .nil)) _ (by decide +kernel) rfl).mpr (by decide +kernel)⟩

/-- Two paragraphs with the same text have the same path and the same identifier. -/
theorem not_identity_repeated :
    ∃ document, parse Sha256.hexDigest sampleSource sampleContext
        (paragraph "a" (paragraph "a" .nil)) = .ok document ∧
      ¬ ((nodes (paragraph "a" (paragraph "a" .nil))).map domPath).Nodup ∧
        ¬ (document.elements.map DocumentElement.elementId).Nodup := by
  have hids : emittedIds Sha256.hexDigest sampleSource sampleContext
      (nodes (paragraph "a" (paragraph "a" .nil))) =
        List.replicate 2 (eid Sha256.hexDigest sampleSource sampleContext "/[document][1]/p[1]"
          .paragraph) := rfl
  have hparse : ∃ document, parse Sha256.hexDigest sampleSource sampleContext
      (paragraph "a" (paragraph "a" .nil)) = .ok document := ⟨_, rfl⟩
  obtain ⟨document, hdocument⟩ := hparse
  refine ⟨document, hdocument, by decide +kernel, ?_⟩
  rw [elementIds_parse hdocument, hids, List.nodup_replicate]
  decide

end HtmlDocumentHandler

end AstraIndexator
