import AstraIndexator.Foundation.Traverse
import AstraIndexator.Parser.Drafts
import Mathlib.Data.List.Sort

/-!
# Presentations

The shapes of a slide are read from the title on and from top to bottom.  Tables, pictures and
shapes with text become elements, and the notes of the slide stand behind them.
-/

namespace AstraIndexator

open Text Transaction

/-- A shape as the library gives it: a table with the texts of its cells, whether it is a picture
or the exception its type raises, the text of its frame and the type of its placeholder. -/
structure PptxShape where
  shapeId : Nat
  top : Option Int
  left : Option Int
  width : Option Int
  height : Option Int
  table : Option (List (List String)) := none
  isPicture : Except String Bool := .ok false
  text : Option String := none
  placeholderType : Option String := none

/-- A slide: the shapes, the one of the title, and the paragraphs of the notes. -/
structure PptxSlide where
  shapes : List PptxShape
  titleId : Option Nat := none
  notes : Option (List String) := none

structure Presentation where
  slides : List PptxSlide
  slideWidth : Option Int
  slideHeight : Option Int

/-- The limits of a presentation next to those of every document. -/
structure PresentationContext extends ParseContext where
  maxSlides : Int := 20000
  maxShapes : Int := 500000

namespace PptxDocumentHandler

/-! ## The order of the shapes -/

/-- The key a shape is sorted by. -/
structure SortKey where
  rank : Nat
  top : Int
  left : Int
  shapeId : Nat

def SortKey.Before (a b : SortKey) : Prop :=
  a.rank < b.rank ∨ (a.rank = b.rank ∧ (a.top < b.top ∨ (a.top = b.top ∧
    (a.left < b.left ∨ (a.left = b.left ∧ a.shapeId ≤ b.shapeId)))))

instance : DecidableRel SortKey.Before := fun _ _ => inferInstanceAs (Decidable (_ ∨ _))

theorem SortKey.before_total (a b : SortKey) : a.Before b ∨ b.Before a := by
  unfold SortKey.Before
  omega

theorem SortKey.before_trans {a b c : SortKey} (hab : a.Before b) (hbc : b.Before c) :
    a.Before c := by
  unfold SortKey.Before at *
  omega

/-- `int(value)` -/
def intOf : Option Int → Except ParserException Int
  | some n => .ok n
  | none => .error (.other "TypeError")

def sortKey (titleId : Option Nat) (shape : PptxShape) : Except ParserException SortKey := do
  let top ← intOf shape.top
  let left ← intOf shape.left
  return ⟨if some shape.shapeId = titleId then 0 else 1, top, left, shape.shapeId⟩

/-- `ordered_shapes` -/
def orderedShapes (slide : PptxSlide) : Except ParserException (List PptxShape) := do
  let keyed ← slide.shapes.mapM fun shape => do
    let key ← sortKey slide.titleId shape
    return (key, shape)
  return (keyed.insertionSort fun a b => a.1.Before b.1).map Prod.snd

/-! ## The elements of a slide -/

/-- `geometry` -/
def shapeGeometry (presentation : Presentation) (slideNumber : Nat) (shape : PptxShape) :
    Except ParserException SourceGeometry := do
  let left ← intOf shape.left
  let top ← intOf shape.top
  let width ← intOf shape.width
  let height ← intOf shape.height
  let pageWidth ← intOf presentation.slideWidth
  let pageHeight ← intOf presentation.slideHeight
  return {
    pageNumber := some slideNumber
    x0 := some left
    y0 := some top
    x1 := some (left + width : Int)
    y1 := some (top + height : Int)
    pageWidth := some pageWidth
    pageHeight := some pageHeight
    coordinateSpace := some "emu-top-left" }

/-- The fields of the locator of a shape. -/
def shapeFields (slideNumber : Nat) (shape : PptxShape) : List String :=
  ["slide", toString slideNumber, "shape", toString shape.shapeId]

/-- `source_locator` -/
def shapePlace (slideNumber : Nat) (shape : PptxShape × Nat) : List (String × Json) :=
  [("slideNumber", .int slideNumber), ("shapeId", .int shape.1.shapeId),
    ("shapeIndex", .int shape.2)]

/-- The element of a table. -/
def tableEntry (slideNumber : Nat) (geometry : SourceGeometry) (shape : PptxShape × Nat)
    (rows : List (List String)) : Entry where
  kind := .table
  text := some (String.intercalate "\n" (rows.map fun row => String.intercalate " | " row))
  geometry := some geometry
  sourceLocator := shapePlace slideNumber shape
  metadata := [("rows", .arr (rows.map fun row => .arr (row.map .str))),
    ("rowCount", .int rows.length), ("columnCount", .int ((rows.head?.map List.length).getD 0))]
  locator := locatorText (shapeFields slideNumber shape.1)

/-- The element of a picture. -/
def pictureEntry (slideNumber : Nat) (geometry : SourceGeometry) (shape : PptxShape × Nat) :
    Entry where
  kind := .image
  geometry := some geometry
  sourceLocator := shapePlace slideNumber shape
  role := some "SLIDE_IMAGE"
  locator := locatorText (shapeFields slideNumber shape.1)

/-- The element of a shape with text. -/
def textEntry (slideNumber : Nat) (titleId : Option Nat) (geometry : SourceGeometry)
    (shape : PptxShape × Nat) (text : String) : Entry where
  kind := if some shape.1.shapeId = titleId then .heading else .paragraph
  text := some text
  geometry := some geometry
  sourceLocator := shapePlace slideNumber shape
  role := some (if some shape.1.shapeId = titleId then "SLIDE_TITLE" else "SLIDE_TEXT")
  metadata := [("placeholderType", (shape.1.placeholderType.map Json.str).getD .null)]
  locator := locatorText (shapeFields slideNumber shape.1)

/-- What a shape emits, if anything. -/
def shapeEntry (presentation : Presentation) (slideNumber : Nat) (titleId : Option Nat)
    (shape : PptxShape × Nat) : Except ParserException (Option Entry) := do
  let geometry ← shapeGeometry presentation slideNumber shape.1
  match shape.1.table with
  | some rows => return some (tableEntry slideNumber geometry shape rows)
  | none =>
    match shape.1.isPicture with
    | .error name => throw (.other name)
    | .ok true => return some (pictureEntry slideNumber geometry shape)
    | .ok false =>
      match shape.1.text with
      | none => return none
      | some text =>
        if strip text = "" then return none
        else return some (textEntry slideNumber titleId geometry shape (strip text))

/-- What the notes emit, if anything. -/
def speakerNotes (slideNumber : Nat) (slide : PptxSlide) : Option Entry :=
  slide.notes.bind fun paragraphs =>
    let text := String.intercalate "\n" ((paragraphs.map strip).filter (· ≠ ""))
    if text = "" then none
    else some {
      kind := .paragraph
      text := some text
      role := some "SPEAKER_NOTES"
      sourceLocator := [("slideNumber", .int slideNumber), ("notesScope", .bool true)]
      locator := locatorText ["slide", toString slideNumber, "notes"] }

/-! ## The loop -/

/-- The variables of `parse`. -/
structure PptxState where
  elements : List DocumentElement := []
  candidates : List OcrCandidate := []
  shapeCount : Nat := 0

section Parsing

variable (digest : HexDigest) (source : ParsedSource) (context : PresentationContext)

/-- The candidate for a picture. -/
def pictureCandidates (slideNumber : Nat) (entry : Entry) : List OcrCandidate :=
  if entry.kind = .image then
    [entry.ocrCandidate digest source context.toParseContext "EMBEDDED_IMAGE" (some slideNumber)
      "pptx_picture" entry.sourceLocator]
  else []

/-- `_append`, with the candidate for a picture. -/
def emit (slideNumber : Nat) (state : PptxState) : Option Entry → Except ParserException PptxState
  | none => .ok state
  | some entry => do
    let elements ← handled
      (appendEntry digest source context.toParseContext state.elements entry)
    return { state with
      elements
      candidates := state.candidates ++ pictureCandidates digest source context slideNumber entry }

/-- One shape, with its index. -/
def parseShape (presentation : Presentation) (slideNumber : Nat) (titleId : Option Nat)
    (state : PptxState) (shape : PptxShape × Nat) : Except ParserException PptxState := do
  let state := { state with shapeCount := state.shapeCount + 1 }
  if context.maxShapes < state.shapeCount then
    throw (.parserError ⟨"PARSER_SHAPE_LIMIT", "presentation shape limit exceeded"⟩)
  let entry ← shapeEntry presentation slideNumber titleId shape
  emit digest source context slideNumber state entry

/-- One slide, with its number. -/
def parseSlide (presentation : Presentation) (state : PptxState) (slide : PptxSlide × Nat) :
    Except ParserException PptxState := do
  let shapes ← orderedShapes slide.1
  let state ← shapes.zipIdx.foldlM
    (parseShape digest source context presentation slide.2 slide.1.titleId) state
  emit digest source context slide.2 state (speakerNotes slide.2 slide.1)

/-- `PptxDocumentHandlerV1.parse` of the presentation the library reads. -/
def parse (presentation : Presentation) : Except ParserException ParsedDocument := do
  if context.maxSlides < presentation.slides.length then
    throw (.parserError ⟨"PARSER_SLIDE_LIMIT", "presentation slide limit exceeded"⟩)
  let state ← (presentation.slides.zipIdx 1).foldlM
    (parseSlide digest source context presentation) {}
  handled (parsedDocument source context.toParseContext "python-pptx-structured" state.elements
    state.candidates [] [])

end Parsing

/-! ## All slides -/

/-- The entries of a slide, with its number. -/
def tagged (slideNumber : Nat) (entries : List (Option Entry)) : List (Nat × Entry) :=
  entries.filterMap fun entry => entry.map fun entry => (slideNumber, entry)

/-- What a slide emits. -/
def slideEntries (presentation : Presentation) (slide : PptxSlide × Nat) :
    Except ParserException (List (Nat × Entry)) := do
  let shapes ← orderedShapes slide.1
  let entries ← shapes.zipIdx.mapM (shapeEntry presentation slide.2 slide.1.titleId)
  return tagged slide.2 (entries ++ [speakerNotes slide.2 slide.1])

/-- What all slides emit. -/
def documentEntries (presentation : Presentation) :
    Except ParserException (List (Nat × Entry)) := do
  let entries ← (presentation.slides.zipIdx 1).mapM (slideEntries presentation)
  return entries.flatten

/-- The shapes of all slides. -/
def shapeTotal (slides : List PptxSlide) : Nat := (slides.map fun slide => slide.shapes.length).sum

section Reading

variable (digest : HexDigest) (source : ParsedSource) (context : PresentationContext)

/-- The candidates of numbered entries. -/
def documentCandidates (entries : List (Nat × Entry)) : List OcrCandidate :=
  entries.flatMap fun entry => pictureCandidates digest source context entry.1 entry.2

/-- What was read, from the entries and the number of shapes. -/
def reading (done : List (Nat × Entry)) (shapeCount : Nat) : PptxState where
  elements := drafted digest source context.toParseContext (done.map Prod.snd)
  candidates := documentCandidates digest source context done
  shapeCount := shapeCount

end Reading

variable {digest : HexDigest} {source : ParsedSource} {context : PresentationContext}
  {presentation : Presentation} {done : List (Nat × Entry)} {count slideNumber : Nat}
  {titleId : Option Nat} {state' : PptxState}

@[simp] theorem tagged_nil : tagged slideNumber [] = [] := rfl

theorem tagged_append (entries more : List (Option Entry)) :
    tagged slideNumber (entries ++ more) = tagged slideNumber entries ++ tagged slideNumber more :=
  List.filterMap_append

theorem documentCandidates_append (more : List (Nat × Entry)) :
    documentCandidates digest source context (done ++ more) =
      documentCandidates digest source context done ++
        documentCandidates digest source context more :=
  List.flatMap_append

theorem emit_reading {entry : Option Entry} :
    emit digest source context slideNumber (reading digest source context done count) entry =
        .ok state' ↔
      (entry = none ∨ (done.length : Int) < context.limits.maxElements) ∧
        state' = reading digest source context (done ++ tagged slideNumber [entry]) count := by
  cases entry with
  | none =>
    rw [show tagged slideNumber [none] = [] from rfl, List.append_nil]
    exact ⟨fun h => ⟨.inl rfl, (Except.ok.inj h).symm⟩, fun h => h.2 ▸ rfl⟩
  | some entry =>
    have hlength : (reading digest source context done count).elements.length = done.length := by
      simp [reading]
    have hadded : reading digest source context (done ++ tagged slideNumber [some entry]) count = {
        elements := drafted digest source context.toParseContext (done.map Prod.snd) ++
          [entry.element digest source context.toParseContext done.length]
        candidates := documentCandidates digest source context done ++
          pictureCandidates digest source context slideNumber entry
        shapeCount := count } := by
      rw [reading, documentCandidates_append, List.map_append,
        show (tagged slideNumber [some entry]).map Prod.snd = [entry] from rfl, drafted_concat,
        List.length_map]
      simp [tagged, documentCandidates]
    rw [emit, except_bind_ok]
    simp only [handled_ok, appendEntry_ok, hlength, reduceCtorEq, false_or, hadded]
    constructor
    · rintro ⟨elements, ⟨hlimit, rfl⟩, h⟩
      exact ⟨hlimit, (Except.ok.inj h).symm⟩
    · rintro ⟨hlimit, rfl⟩
      exact ⟨_, ⟨hlimit, rfl⟩, rfl⟩

theorem parseShape_reading {shape : PptxShape × Nat} :
    parseShape digest source context presentation slideNumber titleId
        (reading digest source context done count) shape = .ok state' ↔
      ((count + 1 : Nat) : Int) ≤ context.maxShapes ∧
        ∃ entry, shapeEntry presentation slideNumber titleId shape = .ok entry ∧
          (entry = none ∨ (done.length : Int) < context.limits.maxElements) ∧
          state' = reading digest source context (done ++ tagged slideNumber [entry])
            (count + 1) := by
  rw [parseShape, except_guard_ok, not_lt, except_bind_ok]
  refine and_congr_right fun _ => exists_congr fun entry => and_congr_right fun _ => ?_
  show emit digest source context slideNumber (reading digest source context done (count + 1))
    entry = .ok state' ↔ _
  exact emit_reading

/-- The shapes that were read, without the limit of the elements. -/
theorem foldlM_parseShape {shapes : List (PptxShape × Nat)}
    (h : shapes.foldlM (parseShape digest source context presentation slideNumber titleId)
      (reading digest source context done count) = .ok state') :
    ∃ entries, shapes.mapM (shapeEntry presentation slideNumber titleId) = .ok entries ∧
      (shapes = [] ∨ ((count + shapes.length : Nat) : Int) ≤ context.maxShapes) ∧
      state' = reading digest source context (done ++ tagged slideNumber entries)
        (count + shapes.length) := by
  induction shapes generalizing done count with
  | nil =>
    obtain rfl := Except.ok.inj h
    exact ⟨[], rfl, .inl rfl, by rw [tagged_nil, List.append_nil]; rfl⟩
  | cons shape shapes ih =>
    rw [List.foldlM_cons] at h
    obtain ⟨next, hnext, h⟩ := except_bind_ok.mp h
    obtain ⟨hcount, entry, hentry, -, rfl⟩ := parseShape_reading.mp hnext
    obtain ⟨entries, hentries, hlimit, rfl⟩ := ih h
    refine ⟨entry :: entries, ?_, .inr ?_, ?_⟩
    · rw [List.mapM_cons, hentry, except_ok_bind, hentries, except_ok_bind]
      rfl
    · rcases hlimit with rfl | hlimit
      · exact hcount
      · rw [List.length_cons]
        omega
    · rw [List.append_assoc, ← tagged_append, List.length_cons, Nat.add_right_comm, Nat.add_assoc]
      rfl

theorem foldlM_parseShape_of_within {shapes : List (PptxShape × Nat)}
    {entries : List (Option Entry)}
    (hentries : shapes.mapM (shapeEntry presentation slideNumber titleId) = .ok entries)
    (hcount : shapes = [] ∨ ((count + shapes.length : Nat) : Int) ≤ context.maxShapes)
    (hlimit : ((done ++ tagged slideNumber entries).length : Int) ≤ context.limits.maxElements) :
    shapes.foldlM (parseShape digest source context presentation slideNumber titleId)
      (reading digest source context done count) =
        .ok (reading digest source context (done ++ tagged slideNumber entries)
          (count + shapes.length)) := by
  induction shapes generalizing done count entries with
  | nil =>
    rw [List.mapM_nil] at hentries
    obtain rfl := Except.ok.inj hentries
    rw [tagged_nil, List.append_nil]
    rfl
  | cons shape shapes ih =>
    rw [List.mapM_cons] at hentries
    obtain ⟨entry, hentry, hentries⟩ := except_bind_ok.mp hentries
    obtain ⟨rest, hrest, hentries⟩ := except_bind_ok.mp hentries
    obtain rfl := Except.ok.inj hentries
    have hall := hcount.resolve_left (List.cons_ne_nil _ _)
    have htagged : tagged slideNumber (entry :: rest) =
        tagged slideNumber [entry] ++ tagged slideNumber rest := tagged_append [entry] rest
    rw [List.length_cons] at hall
    rw [htagged, ← List.append_assoc] at hlimit ⊢
    have hstep : parseShape digest source context presentation slideNumber titleId
        (reading digest source context done count) shape =
          .ok (reading digest source context (done ++ tagged slideNumber [entry]) (count + 1)) := by
      refine parseShape_reading.mpr ⟨by omega, entry, hentry, ?_, rfl⟩
      cases entry with
      | none => exact .inl rfl
      | some entry =>
        refine .inr ?_
        rw [List.length_append, List.length_append] at hlimit
        have hone : (tagged slideNumber [some entry]).length = 1 := rfl
        omega
    rw [List.foldlM_cons, hstep, except_ok_bind, ih hrest (.inr (by omega)) hlimit,
      List.length_cons, Nat.add_right_comm, Nat.add_assoc]

/-! ## Slides -/

/-- The keys stand beside their shapes. -/
theorem keyed_ok {shapes : List PptxShape} {keyed : List (SortKey × PptxShape)}
    (h : shapes.mapM (fun shape => do
      let key ← sortKey titleId shape
      return (key, shape)) = .ok keyed) :
    (∀ pair ∈ keyed, sortKey titleId pair.2 = .ok pair.1) ∧ keyed.map Prod.snd = shapes := by
  induction Traverse.mapM_eq_ok.mp h with
  | nil => exact ⟨List.forall_mem_nil _, rfl⟩
  | cons hpair hpairs ih =>
    obtain ⟨key, hkey, hpair⟩ := except_bind_ok.mp hpair
    obtain rfl := Except.ok.inj hpair
    have hrest := ih (Traverse.mapM_eq_ok.mpr hpairs)
    rw [List.forall_mem_cons, List.map_cons, hrest.2]
    exact ⟨⟨hkey, hrest.1⟩, rfl⟩

/-- A slide is read in the order of its keys, each shape once. -/
theorem orderedShapes_ok {slide : PptxSlide} {shapes : List PptxShape}
    (h : orderedShapes slide = .ok shapes) :
    shapes.Perm slide.shapes ∧
      shapes.Pairwise fun a b => ∃ key key', sortKey slide.titleId a = .ok key ∧
        sortKey slide.titleId b = .ok key' ∧ key.Before key' := by
  obtain ⟨keyed, hkeyed, h⟩ := except_bind_ok.mp h
  obtain rfl := Except.ok.inj h
  have hkeys := keyed_ok hkeyed
  have hperm := List.perm_insertionSort (fun a b : SortKey × PptxShape => a.1.Before b.1) keyed
  have htotal : Std.Total fun a b : SortKey × PptxShape => a.1.Before b.1 :=
    ⟨fun a b => SortKey.before_total a.1 b.1⟩
  have htrans : IsTrans (SortKey × PptxShape) fun a b => a.1.Before b.1 :=
    ⟨fun a b c => SortKey.before_trans⟩
  constructor
  · rw [← hkeys.2]
    exact hperm.map Prod.snd
  · rw [List.pairwise_map]
    refine List.Pairwise.imp_of_mem (fun {a b} ha hb hbefore => ?_)
      (List.pairwise_insertionSort (fun a b : SortKey × PptxShape => a.1.Before b.1) keyed)
    exact ⟨a.1, b.1, hkeys.1 a (hperm.subset ha), hkeys.1 b (hperm.subset hb), hbefore⟩

theorem parseSlide_reading {slide : PptxSlide × Nat}
    (h : parseSlide digest source context presentation (reading digest source context done count)
      slide = .ok state') :
    ∃ entries, slideEntries presentation slide = .ok entries ∧
      (slide.1.shapes = [] ∨
        ((count + slide.1.shapes.length : Nat) : Int) ≤ context.maxShapes) ∧
      state' = reading digest source context (done ++ entries)
        (count + slide.1.shapes.length) := by
  obtain ⟨shapes, hshapes, h⟩ := except_bind_ok.mp h
  obtain ⟨state, hstate, h⟩ := except_bind_ok.mp h
  obtain ⟨entries, hentries, hcount, rfl⟩ := foldlM_parseShape hstate
  obtain ⟨-, rfl⟩ := emit_reading.mp h
  have hlength : shapes.length = slide.1.shapes.length := (orderedShapes_ok hshapes).1.length_eq
  rw [List.length_zipIdx, hlength] at hcount ⊢
  refine ⟨tagged slide.2 (entries ++ [speakerNotes slide.2 slide.1]), ?_, ?_, ?_⟩
  · rw [slideEntries, hshapes, except_ok_bind, hentries, except_ok_bind]
    rfl
  · rw [List.zipIdx_eq_nil_iff, ← List.length_eq_zero_iff, hlength] at hcount
    rwa [← List.length_eq_zero_iff]
  · rw [tagged_append, List.append_assoc]

theorem parseSlide_of_within {slide : PptxSlide × Nat} {entries : List (Nat × Entry)}
    (hentries : slideEntries presentation slide = .ok entries)
    (hcount : slide.1.shapes = [] ∨
      ((count + slide.1.shapes.length : Nat) : Int) ≤ context.maxShapes)
    (hlimit : ((done ++ entries).length : Int) ≤ context.limits.maxElements) :
    parseSlide digest source context presentation (reading digest source context done count)
      slide = .ok (reading digest source context (done ++ entries)
        (count + slide.1.shapes.length)) := by
  obtain ⟨shapes, hshapes, hentries⟩ := except_bind_ok.mp hentries
  obtain ⟨kept, hkept, hentries⟩ := except_bind_ok.mp hentries
  obtain rfl := Except.ok.inj hentries
  have hlength : shapes.length = slide.1.shapes.length := (orderedShapes_ok hshapes).1.length_eq
  rw [tagged_append, ← List.append_assoc] at hlimit ⊢
  rw [List.length_append] at hlimit
  have hshapeCount : shapes.zipIdx = [] ∨
      ((count + shapes.zipIdx.length : Nat) : Int) ≤ context.maxShapes := by
    rw [List.zipIdx_eq_nil_iff, ← List.length_eq_zero_iff, List.length_zipIdx, hlength,
      List.length_eq_zero_iff]
    exact hcount
  have hloop : shapes.zipIdx.foldlM
      (parseShape digest source context presentation slide.2 slide.1.titleId)
      (reading digest source context done count) =
        .ok (reading digest source context (done ++ tagged slide.2 kept)
          (count + shapes.zipIdx.length)) :=
    foldlM_parseShape_of_within hkept hshapeCount (by omega)
  rw [parseSlide, hshapes, except_ok_bind, hloop, except_ok_bind, List.length_zipIdx, hlength]
  refine emit_reading.mpr ⟨?_, rfl⟩
  cases hnotes : speakerNotes slide.2 slide.1 with
  | none => exact .inl rfl
  | some entry =>
    rw [hnotes] at hlimit
    have hone : (tagged slide.2 [some entry]).length = 1 := rfl
    right
    omega

/-- All slides, without the limit of the elements. -/
theorem foldlM_parseSlide {slides : List (PptxSlide × Nat)}
    (h : slides.foldlM (parseSlide digest source context presentation)
      (reading digest source context done count) = .ok state') :
    ∃ entries, slides.mapM (slideEntries presentation) = .ok entries ∧
      (shapeTotal (slides.map Prod.fst) = 0 ∨
        ((count + shapeTotal (slides.map Prod.fst) : Nat) : Int) ≤ context.maxShapes) ∧
      state' = reading digest source context (done ++ entries.flatten)
        (count + shapeTotal (slides.map Prod.fst)) := by
  induction slides generalizing done count with
  | nil =>
    obtain rfl := Except.ok.inj h
    exact ⟨[], rfl, .inl rfl, by rw [List.flatten_nil, List.append_nil]; rfl⟩
  | cons slide slides ih =>
    rw [List.foldlM_cons] at h
    obtain ⟨next, hnext, h⟩ := except_bind_ok.mp h
    obtain ⟨first, hfirst, hcount, rfl⟩ := parseSlide_reading hnext
    obtain ⟨entries, hentries, hrest, rfl⟩ := ih h
    have htotal : shapeTotal ((slide :: slides).map Prod.fst) =
        slide.1.shapes.length + shapeTotal (slides.map Prod.fst) := by
      simp [shapeTotal]
    rw [htotal]
    refine ⟨first :: entries, ?_, ?_, ?_⟩
    · rw [List.mapM_cons, hfirst, except_ok_bind, hentries, except_ok_bind]
      rfl
    · rcases hrest with hzero | hrest
      · rw [hzero, Nat.add_zero, List.length_eq_zero_iff]
        exact hcount
      · right
        omega
    · rw [List.flatten_cons, List.append_assoc, Nat.add_assoc]

theorem foldlM_parseSlide_of_within {slides : List (PptxSlide × Nat)}
    {entries : List (List (Nat × Entry))}
    (hentries : slides.mapM (slideEntries presentation) = .ok entries)
    (hcount : shapeTotal (slides.map Prod.fst) = 0 ∨
      ((count + shapeTotal (slides.map Prod.fst) : Nat) : Int) ≤ context.maxShapes)
    (hlimit : ((done ++ entries.flatten).length : Int) ≤ context.limits.maxElements) :
    slides.foldlM (parseSlide digest source context presentation)
      (reading digest source context done count) =
        .ok (reading digest source context (done ++ entries.flatten)
          (count + shapeTotal (slides.map Prod.fst))) := by
  induction slides generalizing done count entries with
  | nil =>
    rw [List.mapM_nil] at hentries
    obtain rfl := Except.ok.inj hentries
    rw [List.flatten_nil, List.append_nil]
    rfl
  | cons slide slides ih =>
    rw [List.mapM_cons] at hentries
    obtain ⟨first, hfirst, hentries⟩ := except_bind_ok.mp hentries
    obtain ⟨rest, hrest, hentries⟩ := except_bind_ok.mp hentries
    obtain rfl := Except.ok.inj hentries
    have htotal : shapeTotal ((slide :: slides).map Prod.fst) =
        slide.1.shapes.length + shapeTotal (slides.map Prod.fst) := by
      simp [shapeTotal]
    rw [htotal] at hcount ⊢
    rw [List.flatten_cons, ← List.append_assoc] at hlimit ⊢
    have hstep : parseSlide digest source context presentation
        (reading digest source context done count) slide =
          .ok (reading digest source context (done ++ first)
            (count + slide.1.shapes.length)) := by
      refine parseSlide_of_within hfirst ?_ ?_
      · rw [← List.length_eq_zero_iff]
        omega
      · rw [List.length_append] at hlimit
        omega
    rw [List.foldlM_cons, hstep, except_ok_bind, ih hrest (by omega) hlimit, Nat.add_assoc]

/-- A presentation is accepted exactly when its slides and shapes are within their limits, every
shape can be read and the elements are within theirs. -/
theorem parse_iff {document : ParsedDocument} :
    parse digest source context presentation = .ok document ↔
      (presentation.slides.length : Int) ≤ context.maxSlides ∧
      (shapeTotal presentation.slides = 0 ∨
        (shapeTotal presentation.slides : Int) ≤ context.maxShapes) ∧
      ∃ entries, documentEntries presentation = .ok entries ∧
        WithinParseLimits context.toParseContext
          (drafted digest source context.toParseContext (entries.map Prod.snd)) ∧
        document = draftedDocument digest source context.toParseContext "python-pptx-structured"
          (entries.map Prod.snd) (documentCandidates digest source context entries) [] [] := by
  have hslides : (presentation.slides.zipIdx 1).map Prod.fst = presentation.slides :=
    List.zipIdx_map_fst 1 presentation.slides
  have hempty : ({} : PptxState) = reading digest source context [] 0 := rfl
  rw [parse, except_guard_ok, not_lt, hempty]
  refine and_congr_right fun _ => ?_
  constructor
  · intro h
    obtain ⟨state, hstate, h⟩ := except_bind_ok.mp h
    obtain ⟨entries, hentries, hcount, rfl⟩ := foldlM_parseSlide hstate
    rw [hslides, Nat.zero_add] at hcount
    refine ⟨hcount, entries.flatten, ?_, ?_⟩
    · rw [documentEntries, hentries, except_ok_bind]
      rfl
    · exact parsedDocument_drafted.mp (handled_ok.mp h)
  · intro ⟨hcount, entries, hentries, hwithin, hdocument⟩
    obtain ⟨perSlide, hperSlide, hentries⟩ := except_bind_ok.mp hentries
    obtain rfl := Except.ok.inj hentries
    have hlimit := hwithin.count
    rw [length_drafted, List.length_map] at hlimit
    have hloop : (presentation.slides.zipIdx 1).foldlM
        (parseSlide digest source context presentation) (reading digest source context [] 0) =
          .ok (reading digest source context ([] ++ perSlide.flatten)
            (0 + shapeTotal ((presentation.slides.zipIdx 1).map Prod.fst))) := by
      refine foldlM_parseSlide_of_within hperSlide ?_ hlimit
      rw [hslides, Nat.zero_add]
      exact hcount
    rw [hloop, except_ok_bind]
    exact handled_ok.mpr (parsedDocument_drafted.mpr ⟨hwithin, hdocument⟩)

/-! ## Names and candidates -/

/-- The shapes of every slide have numbers of their own. -/
def NumberedApart (slides : List PptxSlide) : Prop :=
  ∀ slide ∈ slides, (slide.shapes.map PptxShape.shapeId).Nodup

instance (slides : List PptxSlide) : Decidable (NumberedApart slides) :=
  inferInstanceAs (Decidable (∀ _ ∈ slides, _))

/-- The fields of the locators of a slide. -/
def slideFields (slideNumber : Nat) (shapes : List PptxShape) : List (List String) :=
  shapes.map (shapeFields slideNumber) ++ [["slide", toString slideNumber, "notes"]]

theorem shapeEntry_locator {shape : PptxShape × Nat} {entry : Entry}
    (h : shapeEntry presentation slideNumber titleId shape = .ok (some entry)) :
    entry.locator = locatorText (shapeFields slideNumber shape.1) := by
  obtain ⟨geometry, -, h⟩ := except_bind_ok.mp h
  cases htable : shape.1.table with
  | some rows =>
    rw [htable] at h
    obtain rfl := Option.some.inj (Except.ok.inj h)
    rfl
  | none =>
    rw [htable] at h
    cases hpicture : shape.1.isPicture with
    | error name =>
      rw [hpicture] at h
      cases h
    | ok isPicture =>
      rw [hpicture] at h
      cases isPicture with
      | true =>
        obtain rfl := Option.some.inj (Except.ok.inj h)
        rfl
      | false =>
        cases htext : shape.1.text with
        | none =>
          rw [htext] at h
          cases h
        | some text =>
          rw [htext] at h
          by_cases hblank : strip text = ""
          · simp only [if_pos hblank] at h
            cases h
          · simp only [if_neg hblank] at h
            obtain rfl := Option.some.inj (Except.ok.inj h)
            rfl

theorem speakerNotes_locator {slide : PptxSlide} {entry : Entry}
    (h : speakerNotes slideNumber slide = some entry) :
    entry.locator = locatorText ["slide", toString slideNumber, "notes"] := by
  obtain ⟨paragraphs, -, h⟩ := Option.bind_eq_some_iff.mp h
  rw [Option.ite_none_left_eq_some] at h
  obtain rfl := Option.some.inj h.2
  rfl

/-- The shapes that emit are named after themselves. -/
theorem sublist_locators {shapes : List (PptxShape × Nat)} {entries : List (Option Entry)}
    (h : shapes.mapM (shapeEntry presentation slideNumber titleId) = .ok entries) :
    ((tagged slideNumber entries).map fun entry => entry.2.locator).Sublist
      (shapes.map fun shape => locatorText (shapeFields slideNumber shape.1)) := by
  induction Traverse.mapM_eq_ok.mp h with
  | nil => exact List.Sublist.refl []
  | @cons shape entry shapes entries hentry hrest ih =>
    have hsub := ih (Traverse.mapM_eq_ok.mpr hrest)
    cases entry with
    | none => exact hsub.cons _
    | some entry =>
      rw [List.map_cons, ← shapeEntry_locator hentry]
      exact hsub.cons_cons _

/-- The locators of a slide are among those of its shapes and its notes. -/
theorem slideEntries_locators {slide : PptxSlide × Nat} {entries : List (Nat × Entry)}
    (h : slideEntries presentation slide = .ok entries) :
    ∃ shapes, shapes.Perm slide.1.shapes ∧
      (entries.map fun entry => entry.2.locator).Sublist
        ((slideFields slide.2 shapes).map locatorText) := by
  obtain ⟨shapes, hshapes, h⟩ := except_bind_ok.mp h
  obtain ⟨kept, hkept, h⟩ := except_bind_ok.mp h
  obtain rfl := Except.ok.inj h
  refine ⟨shapes, (orderedShapes_ok hshapes).1, ?_⟩
  rw [tagged_append, List.map_append, slideFields, List.map_append]
  refine List.Sublist.append ?_ ?_
  · have hsub := sublist_locators hkept
    have hfields : (shapes.zipIdx.map fun shape => locatorText (shapeFields slide.2 shape.1)) =
        (shapes.map (shapeFields slide.2)).map locatorText := by
      conv_rhs => rw [← List.zipIdx_map_fst 0 shapes]
      rw [List.map_map, List.map_map]
      rfl
    rwa [hfields] at hsub
  · cases hnotes : speakerNotes slide.2 slide.1 with
    | none => exact List.nil_sublist _
    | some entry =>
      rw [List.map_singleton, ← speakerNotes_locator hnotes]
      exact List.Sublist.refl _

theorem colon_notMem_slideFields {shapes : List PptxShape} {fields : List String}
    (h : fields ∈ slideFields slideNumber shapes) :
    fields ≠ [] ∧ ∀ field ∈ fields, ':' ∉ field.toList := by
  have hslide : ':' ∉ "slide".toList := by decide
  have hshape : ':' ∉ "shape".toList := by decide
  have hnotes : ':' ∉ "notes".toList := by decide
  rw [slideFields, List.mem_append, List.mem_map, List.mem_singleton] at h
  obtain ⟨shape, -, rfl⟩ | rfl := h
  · exact ⟨List.cons_ne_nil _ _, by
      simp only [shapeFields, List.forall_mem_cons]
      exact ⟨hslide, colon_notMem_toString _, hshape, colon_notMem_toString _,
        List.forall_mem_nil _⟩⟩
  · exact ⟨List.cons_ne_nil _ _, by
      simp only [List.forall_mem_cons]
      exact ⟨hslide, colon_notMem_toString _, hnotes, List.forall_mem_nil _⟩⟩

/-- The fields of a slide differ where the numbers of its shapes do. -/
theorem nodup_slideFields {shapes : List PptxShape}
    (h : (shapes.map PptxShape.shapeId).Nodup) : (slideFields slideNumber shapes).Nodup := by
  rw [slideFields, List.nodup_append]
  refine ⟨?_, List.nodup_singleton _, ?_⟩
  · rw [List.Nodup, List.pairwise_map] at h ⊢
    refine h.imp fun hne heq => hne ?_
    simp only [shapeFields, List.cons.injEq] at heq
    exact Joined.toString_injective heq.2.2.2.1
  · intro fields hfields fields' hfields' heq
    obtain ⟨shape, -, rfl⟩ := List.mem_map.mp hfields
    rw [List.mem_singleton.mp hfields'] at heq
    have hlength := congrArg List.length heq
    simp [shapeFields] at hlength

/-- The number of the slide is read back from its fields. -/
theorem slideFields_number {shapes : List PptxShape} {fields : List String}
    (h : fields ∈ slideFields slideNumber shapes) : fields[1]? = some (toString slideNumber) := by
  rw [slideFields, List.mem_append, List.mem_map, List.mem_singleton] at h
  obtain ⟨shape, -, rfl⟩ | rfl := h
  · rfl
  · rfl

/-- The fields of all slides. -/
theorem documentEntries_locators {slides : List PptxSlide} {k : Nat}
    {entries : List (List (Nat × Entry))}
    (h : (slides.zipIdx k).mapM (slideEntries presentation) = .ok entries)
    (happart : NumberedApart slides) :
    ∃ fields : List (List String), fields.Nodup ∧
      (∀ f ∈ fields, ∃ n ≥ k, ∃ shapes, f ∈ slideFields n shapes) ∧
      (entries.flatten.map fun entry => entry.2.locator).Sublist (fields.map locatorText) := by
  induction slides generalizing k entries with
  | nil =>
    rw [List.zipIdx_nil, List.mapM_nil] at h
    obtain rfl := Except.ok.inj h
    exact ⟨[], List.nodup_nil, List.forall_mem_nil _, List.Sublist.refl _⟩
  | cons slide slides ih =>
    rw [List.zipIdx_cons, List.mapM_cons] at h
    obtain ⟨first, hfirst, h⟩ := except_bind_ok.mp h
    obtain ⟨rest, hrest, h⟩ := except_bind_ok.mp h
    obtain rfl := Except.ok.inj h
    rw [NumberedApart, List.forall_mem_cons] at happart
    obtain ⟨fields, hnodup, hmem, hsub⟩ := ih hrest happart.2
    obtain ⟨shapes, hperm, hfirst⟩ := slideEntries_locators hfirst
    have hids : (shapes.map PptxShape.shapeId).Nodup :=
      (hperm.map PptxShape.shapeId).nodup_iff.mpr happart.1
    refine ⟨slideFields k shapes ++ fields, ?_, ?_, ?_⟩
    · rw [List.nodup_append]
      refine ⟨nodup_slideFields hids, hnodup, ?_⟩
      intro f hf f' hf' heq
      rw [← heq] at hf'
      obtain ⟨n, hn, shapes', hn'⟩ := hmem f hf'
      have hnumber := (slideFields_number hf).symm.trans (slideFields_number hn')
      have := Joined.toString_injective (Option.some.inj hnumber)
      omega
    · intro f hf
      obtain hf | hf := List.mem_append.mp hf
      · exact ⟨k, Nat.le_refl k, shapes, hf⟩
      · obtain ⟨n, hn, hf⟩ := hmem f hf
        exact ⟨n, Nat.le_of_succ_le hn, hf⟩
    · rw [List.flatten_cons, List.map_append, List.map_append]
      exact hfirst.append hsub

/-- The elements of a presentation have different locators where the numbers of the shapes of a
slide differ. -/
theorem nodup_documentEntries {entries : List (Nat × Entry)}
    (h : documentEntries presentation = .ok entries)
    (happart : NumberedApart presentation.slides) :
    ((entries.map Prod.snd).map Entry.locator).Nodup := by
  obtain ⟨perSlide, hperSlide, h⟩ := except_bind_ok.mp h
  obtain rfl := Except.ok.inj h
  obtain ⟨fields, hnodup, hmem, hsub⟩ := documentEntries_locators hperSlide happart
  rw [List.map_map]
  refine List.Nodup.sublist hsub (List.Nodup.map_on ?_ hnodup)
  intro f hf f' hf' heq
  obtain ⟨n, -, shapes, hn⟩ := hmem f hf
  obtain ⟨n', -, shapes', hn'⟩ := hmem f' hf'
  obtain ⟨hne, hcolon⟩ := colon_notMem_slideFields hn
  obtain ⟨hne', hcolon'⟩ := colon_notMem_slideFields hn'
  exact Joined.join_injective hcolon hcolon' hne hne' heq

/-- The candidates are those of the pictures. -/
theorem owners_documentCandidates (entries : List (Nat × Entry)) :
    (documentCandidates digest source context entries).filterMap OcrCandidate.elementId =
      imageIds (drafted digest source context.toParseContext (entries.map Prod.snd)) := by
  rw [imageIds_drafted, List.filterMap_map]
  induction entries with
  | nil => rfl
  | cons entry entries ih =>
    rw [documentCandidates, List.flatMap_cons, List.filterMap_append, List.filterMap_cons]
    rw [documentCandidates] at ih
    rw [ih, pictureCandidates]
    by_cases himage : entry.2.kind = .image
    · simp [himage, Entry.imageId?, Entry.ocrCandidate]
    · simp [himage, Entry.imageId?]

theorem owned_documentCandidates (entries : List (Nat × Entry)) :
    Owned (drafted digest source context.toParseContext (entries.map Prod.snd))
      (documentCandidates digest source context entries) where
  owners := by
    rw [owners_documentCandidates]
  named c hc id hid := by
    obtain ⟨entry, -, hc⟩ := List.mem_flatMap.mp hc
    rw [pictureCandidates, List.mem_ite_nil_right, List.mem_singleton] at hc
    obtain rfl := hc.2
    obtain rfl := Option.some.inj hid
    rfl
  pages := by
    refine ⟨[], List.nodup_nil, ?_⟩
    have hnone : (documentCandidates digest source context entries).filter
        (fun c => c.elementId.isNone) = [] := by
      rw [List.filter_eq_nil_iff]
      intro c hc
      obtain ⟨entry, -, hc⟩ := List.mem_flatMap.mp hc
      rw [pictureCandidates, List.mem_ite_nil_right, List.mem_singleton] at hc
      obtain rfl := hc.2
      exact Bool.false_ne_true
    rw [hnone]
    rfl

/-- A presentation is accepted exactly when its slides and its shapes are within their limits,
every shape can be read and the elements are within theirs.  Every slide is read in the order of
the keys of its shapes, each shape once.  The elements of shapes with numbers of their own have
different names, and every picture has a candidate of its own. -/
theorem parse_slides (digest : HexDigest) (source : ParsedSource) (context : PresentationContext)
    (presentation : Presentation) (document : ParsedDocument) :
    (parse digest source context presentation = .ok document ↔
      (presentation.slides.length : Int) ≤ context.maxSlides ∧
      (shapeTotal presentation.slides = 0 ∨
        (shapeTotal presentation.slides : Int) ≤ context.maxShapes) ∧
      ∃ entries, documentEntries presentation = .ok entries ∧
        WithinParseLimits context.toParseContext
          (drafted digest source context.toParseContext (entries.map Prod.snd)) ∧
        document = draftedDocument digest source context.toParseContext "python-pptx-structured"
          (entries.map Prod.snd) (documentCandidates digest source context entries) [] []) ∧
    (∀ slide shapes, orderedShapes slide = .ok shapes → shapes.Perm slide.shapes ∧
      shapes.Pairwise fun a b => ∃ key key', sortKey slide.titleId a = .ok key ∧
        sortKey slide.titleId b = .ok key' ∧ key.Before key') ∧
    ∀ entries, documentEntries presentation = .ok entries →
      (NumberedApart presentation.slides → ((entries.map Prod.snd).map Entry.locator).Nodup) ∧
      (documentCandidates digest source context entries).filterMap OcrCandidate.elementId =
        imageIds (drafted digest source context.toParseContext (entries.map Prod.snd)) ∧
      Owned (drafted digest source context.toParseContext (entries.map Prod.snd))
        (documentCandidates digest source context entries) :=
  ⟨parse_iff, fun _ _ => orderedShapes_ok, fun entries hentries =>
    ⟨nodup_documentEntries hentries, owners_documentCandidates entries,
      owned_documentCandidates entries⟩⟩

end PptxDocumentHandler

end AstraIndexator
