import AstraIndexator.Parser.Drafts
import AstraIndexator.Splitter.Visible

/-!
# ODT documents

The walk over the tree emits the blocks with text and does not look below them.  Where the text
of a node is all text below it, every visible character below a block is read exactly once.
-/

namespace AstraIndexator

open Text Transaction

/-- A qualified name: the namespace and the local name. -/
structure OdfName where
  uri : String
  localName : String
  deriving DecidableEq

/-- The nodes below an element, in order. -/
inductive OdfNodes
  | nil
  | text (data : List Char) (rest : OdfNodes)
  | element (qname : OdfName) (children rest : OdfNodes)

namespace OdfNodes

/-- The visible characters of all text. -/
def visibleText : OdfNodes → List Char
  | nil => []
  | text data rest => visible data ++ rest.visibleText
  | element _ children rest => children.visibleText ++ rest.visibleText

end OdfNodes

namespace OdtDocumentHandler

/-- `local in {"h", "p", "list", "table"}` -/
def isBlock (qname : OdfName) : Bool := qname.localName ∈ ["h", "p", "list", "table"]

def blockKind (qname : OdfName) : ElementType :=
  if qname.localName = "h" then .heading
  else if qname.localName = "list" then .list
  else if qname.localName = "table" then .table
  else .paragraph

/-- The element of a block, named by its number. -/
def blockEntry (index : Nat) (block : OdfName × List Char) : Entry where
  kind := blockKind block.1
  text := some (String.ofList block.2)
  sourceLocator := [("odfNodeIndex", .int index), ("odfType", .str block.1.localName)]
  locator := locatorText ["node", toString index]

/-! ## The walk -/

/-- The variables of `parse`. -/
structure OdtState where
  elements : List DocumentElement := []
  index : Nat := 0

section Parsing

variable (extractText : OdfName → OdfNodes → List Char) (digest : HexDigest)
  (source : ParsedSource) (context : ParseContext)

def emitBlock (state : OdtState) (block : OdfName × List Char) : Except ParserError OdtState := do
  let elements ← appendEntry digest source context state.elements (blockEntry state.index block)
  return { elements, index := state.index + 1 }

/-- `walk` of the nodes in order, with `teletype.extractText` of an element.  A text node has no
qualified name and no children. -/
def walk : OdfNodes → OdtState → Except ParserError OdtState
  | .nil, state => .ok state
  | .text _ rest, state => walk rest state
  | .element qname children rest, state => do
    let text := stripChars (extractText qname children)
    let state ←
      if isBlock qname = true ∧ text ≠ [] then emitBlock digest source context state (qname, text)
      else walk children state
    walk rest state

/-- `OdtDocumentHandler.parse` of the body the library reads. -/
def parse (qname : OdfName) (body : OdfNodes) : Except ParserError ParsedDocument := do
  let state ← walk extractText digest source context (.element qname body .nil) {}
  parsedDocument source context "odfpy-structured" state.elements [] [] []

end Parsing

/-! ## Blocks -/

/-- The blocks the walk emits. -/
def emittedBlocks (extractText : OdfName → OdfNodes → List Char) :
    OdfNodes → List (OdfName × List Char)
  | .nil => []
  | .text _ rest => emittedBlocks extractText rest
  | .element qname children rest =>
    let text := stripChars (extractText qname children)
    (if isBlock qname = true ∧ text ≠ [] then [(qname, text)]
      else emittedBlocks extractText children) ++ emittedBlocks extractText rest

/-- The topmost blocks, with or without text. -/
def topBlocks : OdfNodes → List (OdfName × OdfNodes)
  | .nil => []
  | .text _ rest => topBlocks rest
  | .element qname children rest =>
    (if isBlock qname = true then [(qname, children)] else topBlocks children) ++ topBlocks rest

/-- The text of an element is the text below it, but for whitespace. -/
def ReadsText (extractText : OdfName → OdfNodes → List Char) : Prop :=
  ∀ qname children, visible (extractText qname children) = children.visibleText

def blockEntries (blocks : List (OdfName × List Char)) : List Entry := blocks.mapIdx blockEntry

variable {extractText : OdfName → OdfNodes → List Char} {digest : HexDigest}
  {source : ParsedSource} {context : ParseContext}

theorem walk_eq (nodes : OdfNodes) (state : OdtState) :
    walk extractText digest source context nodes state =
      (emittedBlocks extractText nodes).foldlM (emitBlock digest source context) state := by
  induction nodes generalizing state with
  | nil => rfl
  | text data rest ih => exact ih state
  | element qname children rest ih ih' =>
    rw [walk, emittedBlocks, List.foldlM_append]
    split
    · rw [List.foldlM_cons]
      simp only [List.foldlM_nil, bind_pure]
      exact bind_congr fun state => ih' state
    · rw [ih]
      exact bind_congr fun state => ih' state

/-- The blocks that were emitted. -/
def reading (digest : HexDigest) (source : ParsedSource) (context : ParseContext)
    (done : List (OdfName × List Char)) : OdtState where
  elements := drafted digest source context (blockEntries done)
  index := done.length

/-- A block without the limit. -/
def addBlock (digest : HexDigest) (source : ParsedSource) (context : ParseContext)
    (state : OdtState) (block : OdfName × List Char) : OdtState where
  elements := state.elements ++ [(blockEntry state.index block).element digest source context
    state.elements.length]
  index := state.index + 1

theorem emitBlock_ok {state state' : OdtState} {block : OdfName × List Char} :
    emitBlock digest source context state block = .ok state' ↔
      (state.elements.length : Int) < context.limits.maxElements ∧
        state' = addBlock digest source context state block := by
  simp only [emitBlock, except_bind_ok, appendEntry_ok]
  constructor
  · rintro ⟨elements, ⟨hlimit, rfl⟩, h⟩
    exact ⟨hlimit, (Except.ok.inj h).symm⟩
  · rintro ⟨hlimit, rfl⟩
    exact ⟨_, ⟨hlimit, rfl⟩, rfl⟩

theorem loop (digest : HexDigest) (source : ParsedSource) (context : ParseContext) :
    Limited.Loop (emitBlock digest source context) (addBlock digest source context)
      (fun _ => True) fun state => (state.elements.length : Int) ≤ context.limits.maxElements where
  taken _ _ _ h := ⟨trivial, (emitBlock_ok.mp h).2⟩
  succeeds _ _ _ h := emitBlock_ok.mpr ⟨by simpa [addBlock, Int.add_one_le_iff] using h, rfl⟩
  earlier _ _ h := by
    rw [addBlock, List.length_append] at h
    omega

theorem run_addBlock (done blocks : List (OdfName × List Char)) :
    blocks.foldl (addBlock digest source context) (reading digest source context done) =
      reading digest source context (done ++ blocks) := by
  induction blocks generalizing done with
  | nil => rw [List.append_nil]; rfl
  | cons block blocks ih =>
    have hstep : addBlock digest source context (reading digest source context done) block =
        reading digest source context (done ++ [block]) := by
      have hentries : blockEntries (done ++ [block]) =
          blockEntries done ++ [blockEntry done.length block] := List.mapIdx_concat
      rw [reading, reading, hentries, drafted_concat, List.length_append]
      simp [addBlock, blockEntries]
    rw [List.foldl_cons, hstep, ih, List.append_assoc]
    rfl

theorem parse_iff {qname : OdfName} {body : OdfNodes} {document : ParsedDocument} :
    parse extractText digest source context qname body = .ok document ↔
      WithinParseLimits context (drafted digest source context
        (blockEntries (emittedBlocks extractText (.element qname body .nil)))) ∧
      document = draftedDocument digest source context "odfpy-structured"
        (blockEntries (emittedBlocks extractText (.element qname body .nil))) [] [] [] := by
  have hrun := @run_addBlock digest source context [] (emittedBlocks extractText
    (.element qname body .nil))
  rw [parse, walk_eq, (loop digest source context).bind_ok_iff
    fun _ _ h => (withinParseLimits_of_parsedDocument h).count, ← parsedDocument_drafted]
  rw [show ({} : OdtState) = reading digest source context [] from rfl, hrun]
  exact and_iff_right fun _ _ => trivial

theorem nodup_blockEntries (blocks : List (OdfName × List Char)) :
    ((blockEntries blocks).map Entry.locator).Nodup := by
  refine nodup_locators fun i j hi hj h => ?_
  simp only [blockEntries, List.getElem_mapIdx, blockEntry] at h
  exact numbered_injective (by decide) h

/-! ## The text -/

theorem stripChars_extractText (h : ReadsText extractText) (qname : OdfName)
    (children : OdfNodes) : stripChars (extractText qname children) = [] ↔
      children.visibleText = [] := by
  rw [← h qname children, ← visible_stripChars]
  constructor
  · intro hnil
    rw [hnil]
    rfl
  · intro hnil
    have hstripped := stripped_stripChars (extractText qname children)
    cases hchars : stripChars (extractText qname children) with
    | nil => rfl
    | cons c cs =>
      rw [hchars] at hnil hstripped
      rw [visible, List.filter_cons_of_pos (by simp [hstripped.head c rfl])] at hnil
      cases hnil

/-- Below a node without visible text nothing is emitted. -/
theorem emittedBlocks_of_blank (h : ReadsText extractText) {nodes : OdfNodes}
    (hblank : nodes.visibleText = []) : emittedBlocks extractText nodes = [] := by
  induction nodes with
  | nil => rfl
  | text data rest ih =>
    rw [OdfNodes.visibleText, List.append_eq_nil_iff] at hblank
    exact ih hblank.2
  | element qname children rest ih ih' =>
    rw [OdfNodes.visibleText, List.append_eq_nil_iff] at hblank
    rw [emittedBlocks, if_neg fun hblock => hblock.2
      ((stripChars_extractText h qname children).mpr hblank.1), ih hblank.1, ih' hblank.2]
    rfl

/-- The emitted blocks are the topmost blocks with text. -/
theorem emittedBlocks_eq (h : ReadsText extractText) (nodes : OdfNodes) :
    emittedBlocks extractText nodes =
      ((topBlocks nodes).map fun block =>
        (block.1, stripChars (extractText block.1 block.2))).filter fun block => block.2 ≠ [] := by
  induction nodes with
  | nil => rfl
  | text data rest ih => exact ih
  | element qname children rest ih ih' =>
    rw [emittedBlocks, topBlocks, List.map_append, List.filter_append, ← ih']
    congr 1
    by_cases hblock : isBlock qname = true
    · rw [if_pos hblock]
      by_cases htext : stripChars (extractText qname children) = []
      · rw [if_neg fun hboth => hboth.2 htext, emittedBlocks_of_blank h
          ((stripChars_extractText h qname children).mp htext)]
        simp [htext]
      · rw [if_pos ⟨hblock, htext⟩]
        simp [htext]
    · rw [if_neg hblock, if_neg fun hboth => hblock hboth.1, ih]

/-- A file is accepted exactly when its blocks are within the limits.  The elements are the
topmost blocks with text, in order and with different names, and they hold the visible text of
the topmost blocks, each character once. -/
theorem parse_blocks (extractText : OdfName → OdfNodes → List Char)
    (hreads : ReadsText extractText) (digest : HexDigest) (source : ParsedSource)
    (context : ParseContext) (qname : OdfName) (body : OdfNodes) (document : ParsedDocument) :
    (parse extractText digest source context qname body = .ok document ↔
      WithinParseLimits context (drafted digest source context
        (blockEntries (emittedBlocks extractText (.element qname body .nil)))) ∧
      document = draftedDocument digest source context "odfpy-structured"
        (blockEntries (emittedBlocks extractText (.element qname body .nil))) [] [] []) ∧
    (emittedBlocks extractText (.element qname body .nil) =
      ((topBlocks (.element qname body .nil)).map fun block =>
        (block.1, stripChars (extractText block.1 block.2))).filter fun block => block.2 ≠ []) ∧
    ((emittedBlocks extractText (.element qname body .nil)).flatMap fun block =>
        visible block.2) =
      (topBlocks (.element qname body .nil)).flatMap (fun block => block.2.visibleText) ∧
    ((blockEntries (emittedBlocks extractText (.element qname body .nil))).map
      Entry.locator).Nodup := by
  refine ⟨parse_iff, emittedBlocks_eq hreads _, ?_, nodup_blockEntries _⟩
  rw [emittedBlocks_eq hreads]
  induction topBlocks (.element qname body .nil) with
  | nil => rfl
  | cons block blocks ih =>
    rw [List.map_cons, List.flatMap_cons, ← ih, ← hreads block.1 block.2, ← visible_stripChars]
    by_cases htext : stripChars (extractText block.1 block.2) = []
    · rw [List.filter_cons_of_neg (by simpa using htext), htext]
      rfl
    · rw [List.filter_cons_of_pos (by simpa using htext), List.flatMap_cons]

/-! ## A list with a paragraph in it -/

def textUri : String := "urn:oasis:names:tc:opendocument:xmlns:text:1.0"

/-- The text of the nodes below an element: line breaks and tabs are written out, and one space
for every run of spaces. -/
def teletypeText : OdfNodes → List Char
  | .nil => []
  | .text data rest => data ++ teletypeText rest
  | .element qname children rest =>
    (if qname = ⟨textUri, "line-break"⟩ then '\n' :: teletypeText children
      else if qname = ⟨textUri, "tab"⟩ then '\t' :: teletypeText children
      else if qname = ⟨textUri, "s"⟩ then ' ' :: teletypeText children
      else teletypeText children) ++ teletypeText rest

theorem visible_teletypeText (nodes : OdfNodes) :
    visible (teletypeText nodes) = nodes.visibleText := by
  induction nodes with
  | nil => rfl
  | text data rest ih => rw [teletypeText, visible_append, ih]; rfl
  | element qname children rest ih ih' =>
    rw [teletypeText, visible_append, ih', OdfNodes.visibleText, ← ih]
    split
    · rw [visible_cons_space (by decide)]
    · split
      · rw [visible_cons_space (by decide)]
      · split
        · rw [visible_cons_space (by decide)]
        · rfl

/-- A heading, an empty paragraph, and a list whose item is a paragraph. -/
def sampleBody : OdfNodes :=
  .element ⟨textUri, "h"⟩ (.text "Title".toList .nil)
    (.element ⟨textUri, "p"⟩ .nil
      (.element ⟨textUri, "list"⟩
        (.element ⟨textUri, "list-item"⟩
          (.element ⟨textUri, "p"⟩ (.text " one".toList .nil) .nil) .nil) .nil))

def officeText : OdfName := ⟨"urn:oasis:names:tc:opendocument:xmlns:office:1.0", "text"⟩

theorem parse_blocks_sample :
    (emittedBlocks (fun _ => teletypeText) (.element officeText sampleBody .nil)).map
      (fun block => (block.1.localName, String.ofList block.2)) =
        [("h", "Title"), ("list", "one")] ∧
    ((emittedBlocks (fun _ => teletypeText) (.element officeText sampleBody .nil)).flatMap
        fun block => visible block.2) =
      (topBlocks (.element officeText sampleBody .nil)).flatMap
        (fun block => block.2.visibleText) :=
  ⟨by decide +kernel, (parse_blocks (fun _ => teletypeText) (fun _ => visible_teletypeText)
    Sha256.hexDigest HtmlDocumentHandler.sampleSource HtmlDocumentHandler.sampleContext officeText
    sampleBody (draftedDocument Sha256.hexDigest HtmlDocumentHandler.sampleSource
      HtmlDocumentHandler.sampleContext "odfpy-structured" [] [] [] [])).2.2.1⟩

end OdtDocumentHandler

end AstraIndexator
