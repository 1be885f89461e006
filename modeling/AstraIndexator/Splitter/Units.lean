import AstraIndexator.Splitter.Sentence
import Mathlib.Data.List.Sort

/-!
# Units

An element is cut into units that keep the hard limits of the profile: sentences
are packed, sentences that are too long are cut at words, words that are too long
at graphemes, and rows of a table are packed like sentences.
-/

namespace AstraIndexator

open Text

/-- `sep.join(parts)` -/
def joinWith (sep : Char) (parts : List (List Char)) : List Char := [sep].intercalate parts

/-- `_Unit` -/
structure SplitUnit where
  text : List Char
  elementIds : List String
  elementType : ElementType
  hierarchy : List (List Char)
  pageFrom : Option Int
  pageTo : Option Int
  languageHint : Option String
  sentenceCount : Nat
  wordCount : Nat
  wordGuardReliable : Bool
  continuationIndex : Nat := 0
  syntheticContext : List Char := []
  forced : Bool := false
  role : Option String := none
  tableRowFrom : Option Nat := none
  tableRowTo : Option Nat := none

/-- A splitter with a valid profile. -/
structure LogicalSplitter where
  unicode : UnicodeText
  digest : HexDigest
  profile : SplitterProfile
  valid : profile.Valid

/-- Chunks that are complete, and the parts of the one that is not. -/
structure Packing (α : Type) where
  chunks : List α
  current : List (List Char)

namespace Packing

variable {α : Type}

/-- The chunks once the current one is complete. -/
def closed (finish : List (List Char) → α) (packing : Packing α) : List α :=
  if packing.current = [] then packing.chunks else packing.chunks ++ [finish packing.current]

end Packing

namespace LogicalSplitter

variable (splitter : LogicalSplitter)

/-- `count_words` with the backend of the profile. -/
def countWords (language : Option String) (text : List Char) : Nat × Bool :=
  AstraIndexator.countWords splitter.unicode splitter.profile.sentenceBoundaryBackend language text

/-- The text has more characters or words than a unit may have. -/
def Oversized (language : Option String) (text : List Char) : Prop :=
  splitter.profile.hardMaxChars < text.length ∨
    (splitter.countWords language text).2 = true ∧
      splitter.profile.hardMaxWords < (splitter.countWords language text).1

instance (language : Option String) (text : List Char) :
    Decidable (splitter.Oversized language text) :=
  inferInstanceAs (Decidable (_ ∨ _))

/-! ## Forced cuts -/

/-- One cluster of the loop of `_grapheme_bounded_chunks`. -/
def graphemeStep (packing : Packing (List Char)) (cluster : List Char) :
    Except String (Packing (List Char)) := do
  let packing : Packing (List Char) :=
    if packing.current ≠ [] ∧
        splitter.profile.hardMaxChars < packing.current.flatten.length + cluster.length then
      ⟨packing.closed List.flatten, []⟩
    else packing
  if splitter.profile.hardMaxChars < cluster.length then
    throw "SPLITTER_GRAPHEME_EXCEEDS_HARD_CHAR_GUARD"
  return ⟨packing.chunks, packing.current ++ [cluster]⟩

/-- `_grapheme_bounded_chunks` -/
def graphemeBoundedChunks (text : List Char) : Except String (List (List Char)) := do
  if splitter.unicode.graphemes text = [] then
    return [[]]
  let packing ← (splitter.unicode.graphemes text).foldlM splitter.graphemeStep ⟨[], []⟩
  return packing.closed List.flatten

/-- One word of the loop of `_force_text_chunks`. -/
def forceStep (language : Option String) (packing : Packing (List Char)) (word : List Char) :
    Except String (Packing (List Char)) :=
  if splitter.profile.hardMaxChars < word.length then do
    let pieces ← splitter.graphemeBoundedChunks word
    return ⟨packing.closed (joinWith ' ') ++ pieces, []⟩
  else if packing.current ≠ [] ∧
      splitter.Oversized language (joinWith ' ' (packing.current ++ [word])) then
    .ok ⟨packing.closed (joinWith ' '), [word]⟩
  else .ok ⟨packing.chunks, packing.current ++ [word]⟩

/-- `_force_text_chunks` -/
def forceTextChunks (language : Option String) (text : List Char) :
    Except String (List (List Char)) :=
  if Words.words isSpace text = [] then splitter.graphemeBoundedChunks text
  else do
    let packing ← (Words.words isSpace text).foldlM (splitter.forceStep language) ⟨[], []⟩
    return packing.closed (joinWith ' ')

/-! ## Texts -/

/-- A chunk of text with the number of its sentences. -/
structure TextChunk where
  text : List Char
  sentenceCount : Nat
  forced : Bool

/-- A chunk of whole sentences. -/
def wholeSentences (sentences : List (List Char)) : TextChunk :=
  ⟨stripChars (joinWith ' ' sentences), sentences.length, false⟩

/-- One sentence of the loop of `_text_units`. -/
def textStep (language : Option String) (packing : Packing TextChunk) (sentence : List Char) :
    Except String (Packing TextChunk) :=
  if splitter.Oversized language sentence then do
    let pieces ← splitter.forceTextChunks language sentence
    return ⟨packing.closed wholeSentences ++ pieces.map fun piece => ⟨piece, 1, true⟩, []⟩
  else if packing.current ≠ [] ∧
      (splitter.Oversized language (stripChars (joinWith ' ' (packing.current ++ [sentence]))) ∨
        splitter.profile.hardMaxSentences < packing.current.length + 1) then
    .ok ⟨packing.closed wholeSentences, [sentence]⟩
  else .ok ⟨packing.chunks, packing.current ++ [sentence]⟩

/-- `split_sentences(text) or (text,)` -/
def sentencesOf (language : Option String) (text : List Char) : List (List Char) :=
  match splitSentences splitter.unicode splitter.profile.sentenceBoundaryBackend language text with
  | [] => [text]
  | sentences => sentences

/-- The chunks of a text. -/
def textChunks (language : Option String) (text : List Char) : Except String (List TextChunk) := do
  let packing ← (splitter.sentencesOf language text).foldlM (splitter.textStep language) ⟨[], []⟩
  return packing.closed wholeSentences

/-- `_text_units` -/
def textUnits (element : NormalizedElement) (text : List Char) (hierarchy : List (List Char))
    (context : List Char) : Except String (List SplitUnit) := do
  let chunks ← splitter.textChunks element.languageHint text
  return chunks.mapIdx fun index chunk => {
    text := chunk.text
    elementIds := [element.sourceElementId]
    elementType := element.type
    hierarchy := hierarchy
    pageFrom := element.pageNumber
    pageTo := element.pageNumber
    languageHint := element.languageHint
    sentenceCount := chunk.sentenceCount
    wordCount := (splitter.countWords element.languageHint chunk.text).1
    wordGuardReliable := (splitter.countWords element.languageHint chunk.text).2
    continuationIndex := index
    syntheticContext := context
    forced := chunk.forced || 1 < chunks.length
    role := element.role }

/-! ## Tables -/

/-- `row_text` -/
def rowText (row : List String) : List Char := joinWith '\t' (row.map String.toList)

/-- A group of whole rows, or a piece of one row. -/
structure TablePiece where
  text : List Char
  rowFrom : Nat
  rowTo : Nat
  forced : Bool

/-- The variables of `_table_units`. -/
structure TableState where
  pieces : List TablePiece := []
  groupRows : List (List Char) := []
  groupStart : Nat := 0

/-- `emit_group` -/
def TableState.emitGroup (state : TableState) (endIndex : Nat) : List TablePiece :=
  if state.groupRows = [] then state.pieces
  else state.pieces ++ [⟨joinWith '\n' state.groupRows, state.groupStart, endIndex, false⟩]

/-- One row of the loop of `_table_units`. -/
def tableStep (language : Option String) (state : TableState) (row : List String × Nat) :
    Except String TableState :=
  let rendered := rowText row.1
  if splitter.Oversized language rendered then do
    let chunks ← splitter.forceTextChunks language rendered
    return {
      pieces := state.emitGroup (row.2 - 1) ++ chunks.map fun chunk => ⟨chunk, row.2, row.2, true⟩
      groupRows := []
      groupStart := row.2 + 1 }
  else if state.groupRows ≠ [] ∧
      splitter.Oversized language (joinWith '\n' (state.groupRows ++ [rendered])) then
    .ok { pieces := state.emitGroup (row.2 - 1), groupRows := [rendered], groupStart := row.2 }
  else .ok { state with
    groupRows := state.groupRows ++ [rendered]
    groupStart := if state.groupRows = [] then row.2 else state.groupStart }

/-- The pieces of a table. -/
def tablePieces (language : Option String) (rows : List (List String)) :
    Except String (List TablePiece) := do
  let state ← rows.zipIdx.foldlM (splitter.tableStep language) {}
  return state.emitGroup (rows.length - 1)

/-- `(element.normalized_text or "").strip()` -/
def elementText (element : NormalizedElement) : List Char :=
  stripChars (element.normalizedText.getD "").toList

/-- The header of a table, repeated in front of its later units. -/
def tableHeader (rows : List (List String)) (index : Nat) : List Char :=
  if 0 < index ∧ splitter.profile.repeatTableHeader = true then
    "TABLE HEADER\n".toList ++ rowText (rows.headD [])
  else []

/-- `_table_units` -/
def tableUnits (element : NormalizedElement) (hierarchy : List (List Char)) :
    Except String (List SplitUnit) :=
  match element.rows.getD [] with
  | [] =>
    if elementText element = [] then .ok []
    else splitter.textUnits element (elementText element) hierarchy []
  | header :: others => do
    let rows := header :: others
    let pieces ← splitter.tablePieces element.languageHint rows
    return pieces.mapIdx fun index piece => {
      text := piece.text
      elementIds := [element.sourceElementId]
      elementType := .table
      hierarchy := hierarchy
      pageFrom := element.pageNumber
      pageTo := element.pageNumber
      languageHint := element.languageHint
      sentenceCount := 0
      wordCount := (splitter.countWords element.languageHint piece.text).1
      wordGuardReliable := (splitter.countWords element.languageHint piece.text).2
      continuationIndex := index
      syntheticContext := splitter.tableHeader rows index
      forced := piece.forced || 0 < index
      role := element.role
      tableRowFrom := some piece.rowFrom
      tableRowTo := some piece.rowTo }

/-! ## Elements -/

/-- `max(1, element.level or 1)` -/
def headingLevel (element : NormalizedElement) : Nat :=
  match element.level with
  | none => 1
  | some level => (max 1 (if level = 0 then 1 else level)).toNat

/-- The titles open at an element. -/
def openTitles (hierarchy : List (List Char)) (element : NormalizedElement) :
    List (List Char) :=
  if element.type = .heading ∧ elementText element ≠ [] then
    hierarchy.take (headingLevel element - 1) ++ [elementText element]
  else hierarchy

/-- `{ElementType.LIST, ElementType.LIST_ITEM}` -/
def isListType (type : ElementType) : Bool := type = .list || type = .listItem

/-- The introduction of a list that may follow. -/
def listIntroAfter (listIntro : Option (List Char)) (element : NormalizedElement) :
    Option (List Char) :=
  let text := elementText element
  if element.type = .table then none
  else if text = [] then listIntro
  else if element.type = .paragraph ∧ text.getLast? = some ':' then some text
  else if isListType element.type then listIntro
  else none

/-- The units of an element below the given titles. -/
def elementUnits (element : NormalizedElement) (hierarchy : List (List Char))
    (listIntro : Option (List Char)) : Except String (List SplitUnit) :=
  if element.type = .table then splitter.tableUnits element hierarchy
  else if elementText element = [] then .ok []
  else splitter.textUnits element (elementText element) hierarchy
    (if splitter.profile.repeatListIntro ∧ isListType element.type then listIntro.getD [] else [])

/-- The units of the elements one after another, as the generator makes them. -/
def unitsFrom : List (List Char) → Option (List Char) → List NormalizedElement →
    List (Except String (List SplitUnit))
  | _, _, [] => []
  | hierarchy, listIntro, element :: rest =>
    if element.suppressedFromIndex then unitsFrom hierarchy listIntro rest
    else
      splitter.elementUnits element (openTitles hierarchy element)
          (listIntroAfter listIntro element) ::
        unitsFrom (openTitles hierarchy element) (listIntroAfter listIntro element) rest

/-- `sorted(document.elements, key=lambda item: item.order_index)` -/
def orderedElements (document : NormalizedDocument) : List NormalizedElement :=
  document.elements.insertionSort fun a b => a.orderIndex ≤ b.orderIndex

/-- `_iter_units` -/
def iterUnits (document : NormalizedDocument) : List (Except String (List SplitUnit)) :=
  splitter.unitsFrom [] none (orderedElements document)

/-! ## A narrow profile -/

/-- Units of one word and at most two characters. -/
def narrowProfile : SplitterProfile where
  minChars := 1
  targetChars := 1
  softMaxChars := 1
  hardMaxChars := 2
  targetWords := 1
  softMaxWords := 1
  hardMaxWords := 1

def narrowSplitter : LogicalSplitter where
  unicode := asciiText
  digest := Sha256.hexDigest
  profile := narrowProfile
  valid := ⟨by decide, by decide, by decide, rfl⟩

end LogicalSplitter

end AstraIndexator
