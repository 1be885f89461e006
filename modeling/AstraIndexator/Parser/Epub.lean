import AstraIndexator.Foundation.Traverse
import AstraIndexator.Parser.Extraction
import AstraIndexator.Parser.Html

/-!
# Books

The chapters of a book are read in the order of its spine, each as a page of its own.  Both
handlers of markup emit one element for every tag of content they find, whatever tag it
stands in, so a text below two of them is emitted twice.
-/

namespace AstraIndexator

open Text Transaction

/-! ## The handler -/

/-- A file of a book. -/
structure EpubItem where
  id : String
  isDocument : Bool
  fileName : Option String
  content : Contents

structure EpubBook where
  items : List EpubItem
  spine : List String

/-- The limit of a book next to those of every document. -/
structure EpubContext extends ParseContext where
  maxEpubSpineItems : Int := 20000

namespace EpubDocumentHandler

/-- The tags that become elements. -/
def contentNames : List String :=
  ["h1", "h2", "h3", "h4", "h5", "h6", "p", "li", "table", "pre", "img"]

/-- `item.file_name or ""` -/
def href (item : EpubItem) : String := item.fileName.getD ""

/-- Whether the file is the navigation of the book. -/
def isNavigation (itemId : String) (item : EpubItem) : Bool :=
  lower itemId = "nav" || endsWith (lower (href item)) "nav.xhtml" ||
    endsWith (lower (href item)) "nav.html"

/-- `item_by_id.get(item_id)`, where the last file with an identifier counts. -/
def itemById (book : EpubBook) (itemId : String) : Option EpubItem :=
  book.items.reverse.find? fun item => item.id = itemId

/-- The file of an entry of the spine, if it is read. -/
def chapter? (book : EpubBook) (itemId : String) : Option EpubItem :=
  (itemById book itemId).filter fun item => item.isDocument && !isNavigation itemId item

/-- `soup.find_all([...])` -/
def contentTags (item : EpubItem) : List TagRef :=
  (HtmlDocumentHandler.nodes item.content).filter fun ref => ref.node.name.name ∈ contentNames

/-- The kind and the level of an element with text. -/
def textKind (name : String) : ElementType × Option Int :=
  if "h".toList <+: name.toList then (.heading, some (HtmlDocumentHandler.headingLevel name))
  else if name = "li" then (.listItem, none)
  else if name = "table" then (.table, none)
  else if name = "pre" then (.codeBlock, none)
  else (.paragraph, none)

/-- What the loop emits for a tag, if anything. -/
def emission (spineIndex : Nat) (item : EpubItem) (ref : TagRef) : Option Emission :=
  let sourceLocator : List (String × Json) :=
    [("spineIndex", .int spineIndex), ("href", .str (href item)), ("domPath", .str (domPath ref))]
  if ref.node.name.name = "img" then
    some {
      kind := .image
      role := some "EPUB_IMAGE_REFERENCE"
      sourceLocator := sourceLocator
      metadata := [("src", HtmlDocumentHandler.attributeJson (ref.node.get "src")),
        ("alt", HtmlDocumentHandler.attributeJson (ref.node.get "alt"))] }
  else if ref.node.getText = "" then none
  else some {
    kind := (textKind ref.node.name.name).1
    text := some ref.node.getText
    level := (textKind ref.node.name.name).2
    sourceLocator := sourceLocator }

section Parsing

variable (digest : HexDigest) (source : ParsedSource) (context : EpubContext)

/-- One turn of the loop over the tags of a chapter. -/
def parseTag (spineIndex : Nat) (item : EpubItem) (elements : List DocumentElement)
    (tag : TagRef × Nat) : Except ParserError (List DocumentElement) :=
  match emission spineIndex item tag.1 with
  | none => .ok elements
  | some e => appendElement digest source context.toParseContext elements
      ("spine:" ++ toString spineIndex ++ ":node:" ++ toString tag.2) e

/-- One turn of the loop over the spine. -/
def parseEntry (book : EpubBook) (elements : List DocumentElement) (entry : String × Nat) :
    Except ParserError (List DocumentElement) :=
  match chapter? book entry.1 with
  | none => .ok elements
  | some item =>
    (contentTags item).zipIdx.foldlM (parseTag digest source context entry.2 item) elements

/-- `EpubDocumentHandlerV1.parse` -/
def parse (book : EpubBook) : Except ParserError ParsedDocument := do
  if context.maxEpubSpineItems < book.spine.length then
    throw ⟨"PARSER_EPUB_SPINE_LIMIT", "EPUB spine item limit exceeded"⟩
  let elements ← book.spine.zipIdx.foldlM (parseEntry digest source context book) []
  parsedDocument source context.toParseContext "ebooklib-html-structured" elements [] [] []

end Parsing

end EpubDocumentHandler

/-! ## Both handlers -/

/-- The tags whose text is extracted. -/
def HtmlDocumentHandler.isTextTag (name : TagName) : Bool :=
  lower name.name ∈ contentNames && lower name.name ≠ "img"

/-- The tags whose text is extracted. -/
def EpubDocumentHandler.isTextTag (name : TagName) : Bool :=
  name.name ∈ contentNames && name.name ≠ "img"

/-- What one of the two handlers is given. -/
inductive MarkupSource
  | html (markup : Contents)
  | epub (book : EpubBook)

namespace MarkupSource

/-- The document of the handler. -/
def parse (digest : HexDigest) (source : ParsedSource) (context : EpubContext) :
    MarkupSource → Except ParserError ParsedDocument
  | html markup => HtmlDocumentHandler.parse digest source context.toParseContext markup
  | epub book => EpubDocumentHandler.parse digest source context book

/-- The pages that are read. -/
def pages : MarkupSource → List Tag
  | html markup => [HtmlDocumentHandler.page markup]
  | epub book => (book.spine.filterMap (EpubDocumentHandler.chapter? book)).map fun item =>
      HtmlDocumentHandler.page item.content

/-- The tags whose text is extracted. -/
def isContent : MarkupSource → TagName → Bool
  | html _ => HtmlDocumentHandler.isTextTag
  | epub _ => EpubDocumentHandler.isTextTag

/-- Pages beside each other, so that their strings are numbered throughout. -/
def besides : List Tag → Contents
  | [] => .nil
  | page :: rest => .tag page.name page.attributes page.contents (besides rest)

def contents (source : MarkupSource) : Contents := besides source.pages

/-- The texts of the elements are joined of strings of the pages, and every text below a tag
of content is among the strings of exactly one element. -/
structure ExtractedOnce (source : MarkupSource) (document : ParsedDocument) : Prop where
  texts : document.elements.filterMap DocumentElement.text =
    (source.contents.extracts source.isContent 0).map Contents.joinedText
  once : source.contents.ReadOnce source.isContent 0

/-! ## The texts of the elements -/

theorem findAll_nodes (contents : Contents) (ancestors : List Tag) :
    (contents.findAll ancestors).map TagRef.node = contents.descendants := by
  induction contents generalizing ancestors with
  | nil => rfl
  | string kind value rest ih => exact ih ancestors
  | tag name attributes contents rest ih ihRest =>
    rw [Contents.findAll, Contents.descendants, List.map_cons, List.map_append, ih, ihRest]

theorem nodes_nodes (markup : Contents) : (HtmlDocumentHandler.nodes markup).map TagRef.node =
    (HtmlDocumentHandler.page markup).contents.descendants :=
  findAll_nodes _ _

/-- The page itself is no tag of content. -/
theorem isContent_page (source : MarkupSource) :
    ∀ page ∈ source.pages, source.isContent page.name = false := by
  have hhtml : HtmlDocumentHandler.isTextTag ⟨"[document]", by decide, by decide⟩ = false := by
    decide +kernel
  have hepub : EpubDocumentHandler.isTextTag ⟨"[document]", by decide, by decide⟩ = false := by
    decide +kernel
  cases source with
  | html markup => exact List.forall_mem_singleton.mpr hhtml
  | epub book =>
    rw [pages, List.forall_mem_map]
    exact fun _ _ => hepub

theorem contentTexts_besides {isContent : TagName → Bool} {pages : List Tag}
    (h : ∀ page ∈ pages, isContent page.name = false) :
    (besides pages).contentTexts isContent =
      pages.flatMap fun page => page.contents.contentTexts isContent := by
  induction pages with
  | nil => rfl
  | cons page rest ih =>
    have hpage : Contents.contentText isContent ⟨page.name, page.attributes, page.contents⟩ =
        none := by
      rw [Contents.contentText, h page List.mem_cons_self]
      exact if_neg fun hcontent => Bool.false_ne_true hcontent.1
    have hrest := ih fun other hother => h other (List.mem_cons_of_mem _ hother)
    rw [Contents.contentTexts] at hrest
    rw [Contents.contentTexts, besides, Contents.descendants, List.filterMap_cons_none hpage,
      List.filterMap_append, hrest, List.flatMap_cons]
    rfl

/-- The texts that a loop over tags appends. -/
theorem flatMap_contentText (isContent : TagName → Bool) (refs : List TagRef) :
    (refs.flatMap fun ref => (Contents.contentText isContent ref.node).toList) =
      (refs.map TagRef.node).filterMap (Contents.contentText isContent) := by
  rw [List.filterMap_map, List.filterMap_eq_flatMap_toList]
  rfl

variable {digest : HexDigest} {source : ParsedSource} {context : EpubContext}
  {document : ParsedDocument}

section Html

variable {markup : Contents}

theorem html_text (ref : TagRef) :
    (HtmlDocumentHandler.emission ref).bind Emission.text =
      Contents.contentText HtmlDocumentHandler.isTextTag ref.node := by
  rw [HtmlDocumentHandler.emission, Contents.contentText, HtmlDocumentHandler.isTextTag]
  by_cases hname : lower ref.node.name.name ∈ HtmlDocumentHandler.contentNames
  · rw [if_neg (not_not.mpr hname)]
    by_cases himage : lower ref.node.name.name = "img"
    · simp [himage]
    · by_cases htext : ref.node.getText = ""
      · simp [himage, htext]
      · simp [hname, himage, htext]
  · simp [hname]

theorem parseNode_text {elements elements' : List DocumentElement} {ref : TagRef}
    (h : HtmlDocumentHandler.parseNode digest source context.toParseContext elements ref =
      .ok elements') :
    elements'.filterMap DocumentElement.text = elements.filterMap DocumentElement.text ++
      (Contents.contentText HtmlDocumentHandler.isTextTag ref.node).toList := by
  rw [← html_text ref]
  exact emitted_text h

theorem html_texts
    (h : HtmlDocumentHandler.parse digest source context.toParseContext markup = .ok document) :
    document.elements.filterMap DocumentElement.text =
      (contents (.html markup)).contentTexts HtmlDocumentHandler.isTextTag := by
  rw [HtmlDocumentHandler.parse, except_guard_ok] at h
  obtain ⟨elements, helements, h⟩ := except_bind_ok.mp h.2
  have htexts := except_foldlM_flatMap
    (HtmlDocumentHandler.parseNode digest source context.toParseContext)
    (fun _ _ _ hstep => parseNode_text hstep) helements
  have hpage := contentTexts_besides (isContent_page (.html markup))
  rw [pages, List.flatMap_singleton] at hpage
  rw [elements_parsedDocument h, htexts, flatMap_contentText, nodes_nodes, contents, pages]
  exact hpage.symm

end Html

section Epub

variable {book : EpubBook}

/-- Any tag but an image. -/
def isNoImage (name : TagName) : Bool := name.name ≠ "img"

theorem epub_text {spineIndex : Nat} {item : EpubItem} {ref : TagRef} :
    (EpubDocumentHandler.emission spineIndex item ref).bind Emission.text =
      Contents.contentText isNoImage ref.node := by
  rw [EpubDocumentHandler.emission, Contents.contentText, isNoImage]
  by_cases himage : ref.node.name.name = "img"
  · simp [himage]
  · by_cases htext : ref.node.getText = ""
    · simp [himage, htext]
    · simp [himage, htext]

theorem parseTag_text {spineIndex : Nat} {item : EpubItem}
    {elements elements' : List DocumentElement} {tag : TagRef × Nat}
    (h : EpubDocumentHandler.parseTag digest source context spineIndex item elements tag =
      .ok elements') :
    elements'.filterMap DocumentElement.text = elements.filterMap DocumentElement.text ++
      (Contents.contentText isNoImage tag.1.node).toList := by
  rw [← @epub_text spineIndex item tag.1]
  exact emitted_text h

/-- The tags that are not looked for have no text. -/
theorem contentTags_texts (item : EpubItem) :
    ((EpubDocumentHandler.contentTags item).flatMap fun ref =>
        (Contents.contentText isNoImage ref.node).toList) =
      (HtmlDocumentHandler.page item.content).contents.contentTexts
        EpubDocumentHandler.isTextTag := by
  rw [Contents.contentTexts, ← nodes_nodes, ← flatMap_contentText, EpubDocumentHandler.contentTags]
  induction HtmlDocumentHandler.nodes item.content with
  | nil => rfl
  | cons ref refs ih =>
    rw [List.filter_cons, List.flatMap_cons, ← ih]
    by_cases hname : ref.node.name.name ∈ EpubDocumentHandler.contentNames
    · have hsame : Contents.contentText isNoImage ref.node =
          Contents.contentText EpubDocumentHandler.isTextTag ref.node := by
        simp [Contents.contentText, EpubDocumentHandler.isTextTag, isNoImage, hname]
      rw [if_pos (decide_eq_true hname), List.flatMap_cons, hsame]
    · have hnone : Contents.contentText EpubDocumentHandler.isTextTag ref.node = none := by
        simp [Contents.contentText, EpubDocumentHandler.isTextTag, hname]
      rw [decide_eq_false hname, hnone]
      rfl

theorem parseEntry_text {elements elements' : List DocumentElement} {entry : String × Nat}
    (h : EpubDocumentHandler.parseEntry digest source context book elements entry =
      .ok elements') :
    elements'.filterMap DocumentElement.text = elements.filterMap DocumentElement.text ++
      (EpubDocumentHandler.chapter? book entry.1).toList.flatMap fun item =>
        (HtmlDocumentHandler.page item.content).contents.contentTexts
          EpubDocumentHandler.isTextTag := by
  rw [EpubDocumentHandler.parseEntry] at h
  cases hchapter : EpubDocumentHandler.chapter? book entry.1 with
  | none =>
    rw [hchapter] at h
    obtain rfl := Except.ok.inj h
    exact (List.append_nil _).symm
  | some item =>
    rw [hchapter] at h
    have htexts := except_foldlM_flatMap
      (EpubDocumentHandler.parseTag digest source context entry.2 item)
      (fun _ _ _ hstep => parseTag_text hstep) h
    rw [Traverse.flatMap_zipIdx (fun ref : TagRef =>
      (Contents.contentText isNoImage ref.node).toList), contentTags_texts] at htexts
    rw [htexts]
    exact congrArg _ (List.flatMap_singleton _ _).symm

theorem epub_texts (h : EpubDocumentHandler.parse digest source context book = .ok document) :
    document.elements.filterMap DocumentElement.text =
      (contents (.epub book)).contentTexts EpubDocumentHandler.isTextTag := by
  rw [EpubDocumentHandler.parse, except_guard_ok] at h
  obtain ⟨elements, helements, h⟩ := except_bind_ok.mp h.2
  have htexts := except_foldlM_flatMap (EpubDocumentHandler.parseEntry digest source context book)
    (fun _ _ _ hstep => parseEntry_text hstep) helements
  have hpages := contentTexts_besides (isContent_page (.epub book))
  rw [Traverse.flatMap_zipIdx fun itemId =>
    (EpubDocumentHandler.chapter? book itemId).toList.flatMap fun item =>
      (HtmlDocumentHandler.page item.content).contents.contentTexts
        EpubDocumentHandler.isTextTag] at htexts
  rw [pages, List.flatMap_map, List.filterMap_eq_flatMap_toList, List.flatMap_assoc] at hpages
  rw [elements_parsedDocument h, htexts, contents, pages, List.filterMap_nil, List.nil_append,
    List.filterMap_eq_flatMap_toList]
  exact hpages.symm

end Epub

/-! ## Once -/

/-- The texts of the elements are those of the tags of content. -/
theorem parse_texts {source : ParsedSource} {markup : MarkupSource}
    (h : parse digest source context markup = .ok document) :
    document.elements.filterMap DocumentElement.text =
      (markup.contents.extracts markup.isContent 0).map Contents.joinedText := by
  rw [← Contents.contentTexts_eq]
  cases markup with
  | html markup => exact html_texts h
  | epub book => exact epub_texts h

/-- Every text below a tag of content is extracted once exactly when no tag of content with a
text, and no ruby annotation, stands in another tag of content. -/
theorem extractedOnce_iff (digest : HexDigest) (source : ParsedSource) (context : EpubContext)
    (markup : MarkupSource) (document : ParsedDocument)
    (h : parse digest source context markup = .ok document) :
    ExtractedOnce markup document ↔ ∀ tag ∈ markup.contents.descendants,
      markup.isContent tag.name = true → Contents.KeptApart markup.isContent tag := by
  rw [← Contents.readOnce_iff]
  constructor
  · intro hextracted
    exact hextracted.once
  · intro honce
    exact ⟨parse_texts h, honce⟩

/-- A tag with contents, before others. -/
def element (name : TagName) (contents rest : Contents) : Contents :=
  .tag name ⟨[], List.nodup_nil⟩ contents rest

/-- A list with one item, and a paragraph behind it. -/
def listPage : Contents :=
  element ⟨"ul", by decide, by decide⟩
    (element ⟨"li", by decide, by decide⟩ (.string .text "a" .nil) .nil)
    (HtmlDocumentHandler.paragraph "b" .nil)

/-- A list whose item holds a paragraph. -/
def nestedPage : Contents :=
  element ⟨"ul", by decide, by decide⟩
    (element ⟨"li", by decide, by decide⟩ (HtmlDocumentHandler.paragraph "a" .nil) .nil) .nil

def sampleEpubContext : EpubContext := { documentId := 0, documentVersion := 1 }

theorem extractedOnce_list : ∃ document, parse Sha256.hexDigest
    HtmlDocumentHandler.sampleSource sampleEpubContext (.html listPage) = .ok document ∧
      ExtractedOnce (.html listPage) document := by
  have hok : (parse Sha256.hexDigest HtmlDocumentHandler.sampleSource sampleEpubContext
      (.html listPage)).isOk = true := by decide +kernel
  obtain ⟨document, hparse⟩ := except_isOk.mp hok
  exact ⟨document, hparse, (extractedOnce_iff _ _ _ _ _ hparse).mpr (by decide +kernel)⟩

/-- The text of the paragraph is extracted for the item as well. -/
theorem not_extractedOnce_nested : ∃ document, parse Sha256.hexDigest
    HtmlDocumentHandler.sampleSource sampleEpubContext (.html nestedPage) = .ok document ∧
      ¬ ExtractedOnce (.html nestedPage) document := by
  have hok : (parse Sha256.hexDigest HtmlDocumentHandler.sampleSource sampleEpubContext
      (.html nestedPage)).isOk = true := by decide +kernel
  obtain ⟨document, hparse⟩ := except_isOk.mp hok
  have htwice : ¬ (contents (.html nestedPage)).ReadOnce (isContent (.html nestedPage)) 0 := by
    decide +kernel
  exact ⟨document, hparse, fun h => htwice h.once⟩

end MarkupSource

end AstraIndexator
