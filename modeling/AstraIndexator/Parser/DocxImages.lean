import AstraIndexator.Foundation.Raises
import AstraIndexator.Foundation.Traverse
import AstraIndexator.Parser.Docx

/-!
# Images of a DOCX document

The drawings of the paragraphs are counted, and each takes the inline shape the count is
at.  A floating drawing is counted and is no inline shape; an inline drawing in a table is
an inline shape and not counted.
-/

namespace AstraIndexator

open Text Transaction

/-- What a drawing holds. -/
inductive Drawing
  | inline (shape : InlineShape)
  | floating

def Drawing.shape? : Drawing → Option InlineShape
  | inline shape => some shape
  | floating => none

/-- A child of the body with its drawings. -/
inductive BodyItem
  | paragraph (text style : String) (drawings : List Drawing)
  /-- The texts of the cells, row by row, and the drawings in them. -/
  | table (rows : List (List String)) (drawings : List Drawing)
  | other

namespace BodyItem

/-- The child as the handler reads it. -/
def child : BodyItem → DocxChild
  | paragraph text style drawings => .paragraph text style drawings.length
  | table rows _ => .table rows
  | other => .other

/-- The inline drawings. -/
def shapes : BodyItem → List InlineShape
  | paragraph _ _ drawings => drawings.filterMap Drawing.shape?
  | table _ drawings => drawings.filterMap Drawing.shape?
  | other => []

/-- How many drawings the handler counts. -/
def drawn : BodyItem → Nat
  | paragraph _ _ drawings => drawings.length
  | table _ _ => 0
  | other => 0

/-- The floating drawings of a paragraph. -/
def floating : BodyItem → Nat
  | paragraph _ _ drawings => drawings.length - (drawings.filterMap Drawing.shape?).length
  | table _ _ => 0
  | other => 0

/-- The inline drawings in a table. -/
def tabled : BodyItem → Nat
  | paragraph _ _ _ => 0
  | table _ drawings => (drawings.filterMap Drawing.shape?).length
  | other => 0

end BodyItem

namespace OrderedDocxDocumentHandler

/-- `docx.inline_shapes` -/
def inlineShapes (body : List BodyItem) : List InlineShape := body.flatMap BodyItem.shapes

/-- The drawings counted in some children. -/
def drawnBy (body : List BodyItem) : Nat := (body.map BodyItem.drawn).sum

/-- There are as many floating drawings in paragraphs as inline drawings in tables, and each
inline drawing of a paragraph is the shape its count is at. -/
structure InStep (body : List BodyItem) : Prop where
  counts : (body.map BodyItem.floating).sum = (body.map BodyItem.tabled).sum
  shapes : ∀ before text style drawings after,
    body = before ++ .paragraph text style drawings :: after → ∀ j shape,
      drawings[j]? = some (.inline shape) →
        (inlineShapes body)[drawnBy before + j]? = some shape

/-- The image of a drawing of a paragraph. -/
structure IsImage (e : DocumentElement) (owner drawingIndex : Nat) (shape : InlineShape) : Prop where
  type : e.type = .image
  paragraphIndex : ("paragraphIndex", .int owner) ∈ e.sourceLocator
  drawingIndex : ("drawingIndex", .int drawingIndex) ∈ e.sourceLocator
  size : e.metadata = [("widthEmu", .int shape.width), ("heightEmu", .int shape.height)]

section Parsing

variable (decimal : DecimalDigits) (digest : HexDigest) (source : ParsedSource)
  (context : ParseContext)

/-- The variables behind the text of a paragraph. -/
def textEmitted (state : DocxState) (text style : String) : DocxState :=
  if stripChars text.toList = [] then state
  else emitParagraph decimal digest source context state (stripChars text.toList) style

/-- The document is parsed, and behind the text of each paragraph stands an image of the right
size for each of its inline drawings. -/
def ImagesPlaced (body : List BodyItem) (result : Except ParserError ParsedDocument) : Prop :=
  ∃ document, result = .ok document ∧ ∀ before text style drawings after,
    body = before ++ .paragraph text style drawings :: after → ∃ state,
      (before.map BodyItem.child).foldlM
        (parseChild decimal digest source context (inlineShapes body)) {} = .ok state ∧
      ∃ images rest, document.elements =
          (textEmitted decimal digest source context state text style).elements ++ images ++ rest ∧
        ∀ j shape, drawings[j]? = some (.inline shape) →
          ∃ e, images[j]? = some e ∧ IsImage e state.paragraphIndex j shape

end Parsing

/-! ## Counting -/

section Counting

theorem drawn_add_tabled (item : BodyItem) :
    item.drawn + item.tabled = item.shapes.length + item.floating := by
  cases item with
  | paragraph text style drawings =>
    have hle : (drawings.filterMap Drawing.shape?).length ≤ drawings.length :=
      List.length_filterMap_le Drawing.shape? drawings
    show drawings.length + 0 = (drawings.filterMap Drawing.shape?).length +
      (drawings.length - (drawings.filterMap Drawing.shape?).length)
    omega
  | table rows drawings =>
    show 0 + (drawings.filterMap Drawing.shape?).length = _ + 0
    exact Nat.zero_add _
  | other => rfl

/-- The count ends at the number of inline shapes exactly when as many floating drawings
stand in paragraphs as inline drawings in tables. -/
theorem drawnBy_eq_iff (body : List BodyItem) :
    drawnBy body = (inlineShapes body).length ↔
      (body.map BodyItem.floating).sum = (body.map BodyItem.tabled).sum := by
  have hsum : drawnBy body + (body.map BodyItem.tabled).sum =
      (inlineShapes body).length + (body.map BodyItem.floating).sum := by
    rw [drawnBy, inlineShapes]
    induction body with
    | nil => rfl
    | cons item rest ih =>
      have hitem := drawn_add_tabled item
      simp only [List.map_cons, List.sum_cons, List.flatMap_cons, List.length_append]
      omega
  omega

theorem drawnBy_cons (item : BodyItem) (rest : List BodyItem) :
    drawnBy (item :: rest) = item.drawn + drawnBy rest := by
  rw [drawnBy, drawnBy, List.map_cons, List.sum_cons]

end Counting

/-! ## Runs -/

section Runs

variable {decimal : DecimalDigits} {digest : HexDigest} {source : ParsedSource}
  {context : ParseContext} {shapes : List InlineShape} {state state' : DocxState}

/-- One drawing takes the shape the count is at. -/
theorem emitImage_ok {owner drawingIndex : Nat}
    (h : emitImage digest source context shapes owner state drawingIndex = .ok state') :
    ∃ e shape, shapes[state.imageIndex]? = some shape ∧ IsImage e owner drawingIndex shape ∧
      state'.elements = state.elements ++ [e] ∧ state'.imageIndex = state.imageIndex + 1 ∧
      state'.paragraphIndex = state.paragraphIndex := by
  rw [emitImage] at h
  cases hshape : shapes[state.imageIndex]? with
  | none =>
    rw [hshape] at h
    cases h
  | some shape =>
    rw [hshape] at h
    obtain rfl := Except.ok.inj h
    exact ⟨_, shape, rfl, ⟨rfl, by simp, by simp, rfl⟩, rfl, rfl, rfl⟩

/-- The drawings of a paragraph take the shapes from the count on. -/
theorem emitImages_ok {owner count : Nat}
    (h : (List.range count).foldlM (emitImage digest source context shapes owner) state =
      .ok state') :
    state'.imageIndex = state.imageIndex + count ∧
      state'.paragraphIndex = state.paragraphIndex ∧
      ∃ images, state'.elements = state.elements ++ images ∧ images.length = count ∧
        ∀ j < count, ∃ e shape, images[j]? = some e ∧
          shapes[state.imageIndex + j]? = some shape ∧ IsImage e owner j shape := by
  induction count generalizing state' with
  | zero =>
    obtain rfl := Except.ok.inj h
    exact ⟨rfl, rfl, [], (List.append_nil _).symm, rfl, fun j hj => absurd hj (Nat.not_lt_zero j)⟩
  | succ count ih =>
    rw [List.range_succ] at h
    obtain ⟨middle, last, hmiddle, hlast, hnil⟩ := Traverse.foldlM_split h
    obtain rfl := Except.ok.inj hnil
    obtain ⟨hindex, hparagraph, images, helements, hlength, himages⟩ := ih hmiddle
    obtain ⟨e, shape, hshape, hisImage, hadded, hnext, hsame⟩ := emitImage_ok hlast
    rw [hindex] at hshape
    refine ⟨by omega, hsame.trans hparagraph, images ++ [e], ?_, ?_, fun j hj => ?_⟩
    · rw [hadded, helements, List.append_assoc]
    · rw [List.length_append, List.length_singleton, hlength]
    · by_cases hlt : j < count
      · obtain ⟨image, shape, himage, hshape, hisImage⟩ := himages j hlt
        refine ⟨image, shape, ?_, hshape, hisImage⟩
        rw [List.getElem?_append_left (by omega)]
        exact himage
      · obtain rfl : j = count := by omega
        refine ⟨e, shape, ?_, hshape, hisImage⟩
        rw [List.getElem?_append_right (by omega), hlength, Nat.sub_self]
        rfl

/-- A paragraph emits its text and the images of its drawings. -/
theorem parseParagraph_ok {text style : String} {drawings : Nat}
    (h : parseChild decimal digest source context shapes state (.paragraph text style drawings) =
      .ok state') :
    state'.imageIndex = state.imageIndex + drawings ∧
      ∃ images, state'.elements =
          (textEmitted decimal digest source context state text style).elements ++ images ∧
        images.length = drawings ∧ ∀ j < drawings, ∃ e shape, images[j]? = some e ∧
          shapes[state.imageIndex + j]? = some shape ∧ IsImage e state.paragraphIndex j shape := by
  obtain ⟨drawn, hdrawn, h⟩ := except_bind_ok.mp h
  obtain rfl := Except.ok.inj h
  have himage : (textEmitted decimal digest source context state text style).imageIndex =
      state.imageIndex := by
    rw [textEmitted]
    split
    · rfl
    · rfl
  obtain ⟨hindex, -, himages⟩ := @emitImages_ok digest source context shapes
    (textEmitted decimal digest source context state text style) drawn state.paragraphIndex
    drawings hdrawn
  rw [himage] at hindex himages
  exact ⟨hindex, himages⟩

/-- The count after a child. -/
theorem parseChild_imageIndex {item : BodyItem}
    (h : parseChild decimal digest source context shapes state item.child = .ok state') :
    state'.imageIndex = state.imageIndex + item.drawn := by
  cases item with
  | paragraph text style drawings => exact (parseParagraph_ok h).1
  | table rows drawings =>
    rw [BodyItem.child, parseChild] at h
    by_cases hlimit : context.limits.maxTables ≤ state.tableIndex
    · rw [if_pos hlimit] at h
      cases h
    · rw [if_neg hlimit] at h
      obtain rfl := Except.ok.inj h
      rfl
  | other =>
    obtain rfl := Except.ok.inj h
    rfl

/-- The elements so far stay in front. -/
theorem parseChild_elements {item : BodyItem}
    (h : parseChild decimal digest source context shapes state item.child = .ok state') :
    ∃ added, state'.elements = state.elements ++ added := by
  cases item with
  | paragraph text style drawings =>
    obtain ⟨-, images, helements, -⟩ := parseParagraph_ok h
    rw [textEmitted] at helements
    by_cases hblank : stripChars text.toList = []
    · rw [if_pos hblank] at helements
      exact ⟨images, helements⟩
    · rw [if_neg hblank] at helements
      exact ⟨_, helements.trans (List.append_assoc _ _ _)⟩
  | table rows drawings =>
    rw [BodyItem.child, parseChild] at h
    by_cases hlimit : context.limits.maxTables ≤ state.tableIndex
    · rw [if_pos hlimit] at h
      cases h
    · rw [if_neg hlimit] at h
      obtain rfl := Except.ok.inj h
      exact ⟨_, rfl⟩
  | other =>
    obtain rfl := Except.ok.inj h
    exact ⟨[], (List.append_nil _).symm⟩

/-- The count after some children. -/
theorem parseChildren_imageIndex {body : List BodyItem}
    (h : (body.map BodyItem.child).foldlM (parseChild decimal digest source context shapes) state =
      .ok state') : state'.imageIndex = state.imageIndex + drawnBy body := by
  induction body generalizing state with
  | nil =>
    obtain rfl := Except.ok.inj h
    rfl
  | cons item rest ih =>
    rw [List.map_cons, List.foldlM_cons] at h
    obtain ⟨next, hnext, h⟩ := except_bind_ok.mp h
    rw [ih h, parseChild_imageIndex hnext, drawnBy_cons, Nat.add_assoc]

theorem parseChildren_elements {body : List BodyItem}
    (h : (body.map BodyItem.child).foldlM (parseChild decimal digest source context shapes) state =
      .ok state') : ∃ added, state'.elements = state.elements ++ added := by
  induction body generalizing state with
  | nil =>
    obtain rfl := Except.ok.inj h
    exact ⟨[], (List.append_nil _).symm⟩
  | cons item rest ih =>
    rw [List.map_cons, List.foldlM_cons] at h
    obtain ⟨next, hnext, h⟩ := except_bind_ok.mp h
    obtain ⟨first, hfirst⟩ := parseChild_elements hnext
    obtain ⟨added, hadded⟩ := ih h
    exact ⟨first ++ added, by rw [hadded, hfirst, List.append_assoc]⟩

/-- What is raised is no inconsistency of drawings and shapes. -/
def OtherCode (e : ParserError) : Prop := e.code ≠ "PARSER_DOCX_IMAGE_MAPPING"

instance (e : ParserError) : Decidable (OtherCode e) :=
  inferInstanceAs (Decidable (e.code ≠ "PARSER_DOCX_IMAGE_MAPPING"))

/-- The drawings of a paragraph are mapped while there are shapes left. -/
theorem raises_emitImages {owner count : Nat} (h : state.imageIndex + count ≤ shapes.length) :
    Raises OtherCode
      ((List.range count).foldlM (emitImage digest source context shapes owner) state) := by
  induction count with
  | zero => exact .ok state
  | succ count ih =>
    rw [List.range_succ, List.foldlM_append]
    refine .bind_of_ok (ih (by omega)) fun middle hmiddle => ?_
    have hindex := (emitImages_ok hmiddle).1
    rw [List.foldlM_cons, emitImage, List.getElem?_eq_getElem (by omega)]
    exact .ok _

/-- A body is mapped while there are shapes left. -/
theorem raises_parseChildren {body : List BodyItem}
    (h : state.imageIndex + drawnBy body ≤ shapes.length) :
    Raises OtherCode ((body.map BodyItem.child).foldlM
      (parseChild decimal digest source context shapes) state) := by
  induction body generalizing state with
  | nil => exact .ok state
  | cons item rest ih =>
    rw [drawnBy_cons] at h
    rw [List.map_cons, List.foldlM_cons]
    refine .bind_of_ok ?_ fun next hnext => ih ?_
    · cases item with
      | paragraph text style drawings =>
        have himage : (textEmitted decimal digest source context state text style).imageIndex =
            state.imageIndex := by
          rw [textEmitted]
          split
          · rfl
          · rfl
        have hcount : (textEmitted decimal digest source context state text style).imageIndex +
            drawings.length ≤ shapes.length := by
          have hdrawn : (BodyItem.paragraph text style drawings).drawn = drawings.length := rfl
          omega
        exact .bind (raises_emitImages hcount) fun drawn => .ok _
      | table rows drawings => exact .ite (.error (by decide)) (.ok _)
      | other => exact .ok state
    · have hindex := parseChild_imageIndex hnext
      omega

/-- The document is mapped when the counts agree. -/
theorem raises_parse {body : List BodyItem} (h : drawnBy body = (inlineShapes body).length) :
    Raises OtherCode (parse decimal digest source context (inlineShapes body)
      (body.map BodyItem.child)) := by
  rw [parse]
  refine .guard (by decide) (.bind_of_ok ?_ fun last hlast => ?_)
  · apply raises_parseChildren
    show 0 + drawnBy body ≤ _
    omega
  · have hindex : last.imageIndex = (inlineShapes body).length := by
      rw [parseChildren_imageIndex hlast, ← h]
      exact Nat.zero_add _
    rw [if_neg (not_not.mpr hindex), parsedDocument]
    exact .guard (by decide) (.guard (by decide) (.ok _))

/-- What a parsed body is made of. -/
theorem parse_ok {body : List BodyItem} {document : ParsedDocument}
    (h : parse decimal digest source context shapes (body.map BodyItem.child) = .ok document) :
    ∃ last, (body.map BodyItem.child).foldlM (parseChild decimal digest source context shapes) {} =
        .ok last ∧ last.imageIndex = shapes.length ∧ document.elements = last.elements := by
  rw [parse] at h
  obtain ⟨-, h⟩ := except_guard_ok.mp h
  obtain ⟨last, hlast, h⟩ := except_bind_ok.mp h
  obtain ⟨hcount, h⟩ := except_guard_ok.mp h
  exact ⟨last, hlast, not_not.mp hcount, elements_parsedDocument h⟩

/-- The images behind the text of a paragraph of a parsed body. -/
theorem parse_paragraph {body before after : List BodyItem} {text style : String}
    {drawings : List Drawing} {document : ParsedDocument}
    (hbody : body = before ++ .paragraph text style drawings :: after)
    (h : parse decimal digest source context shapes (body.map BodyItem.child) = .ok document) :
    ∃ state, (before.map BodyItem.child).foldlM
        (parseChild decimal digest source context shapes) {} = .ok state ∧
      ∃ images rest, document.elements =
          (textEmitted decimal digest source context state text style).elements ++ images ++ rest ∧
        images.length = drawings.length ∧ ∀ j < drawings.length, ∃ e shape,
          images[j]? = some e ∧ shapes[drawnBy before + j]? = some shape ∧
            IsImage e state.paragraphIndex j shape := by
  obtain ⟨last, hlast, -, helements⟩ := parse_ok h
  rw [hbody, List.map_append, List.map_cons] at hlast
  obtain ⟨state, next, hbefore, hnext, hafter⟩ := Traverse.foldlM_split hlast
  have hindex : state.imageIndex = drawnBy before :=
    (parseChildren_imageIndex hbefore).trans (Nat.zero_add _)
  obtain ⟨-, images, hadded, hlength, himages⟩ := parseParagraph_ok hnext
  obtain ⟨rest, hrest⟩ := parseChildren_elements hafter
  rw [hindex] at himages
  exact ⟨state, hbefore, images, rest, by rw [helements, hrest, hadded], hlength, himages⟩

theorem IsImage.shape_eq {e : DocumentElement} {owner drawingIndex : Nat}
    {shape other : InlineShape} (h : IsImage e owner drawingIndex shape)
    (h' : IsImage e owner drawingIndex other) : shape = other := by
  have hsize := h.size.symm.trans h'.size
  cases shape
  cases other
  simpa using hsize

/-- Within the limits the images are placed at their drawings exactly when the drawings and
the shapes are in step. -/
theorem imagesPlaced_iff (decimal : DecimalDigits) (digest : HexDigest) (source : ParsedSource)
    (context : ParseContext) (body : List BodyItem)
    (hlimits : Raises (fun e => e.code = "PARSER_DOCX_IMAGE_MAPPING")
      (parse decimal digest source context (inlineShapes body) (body.map BodyItem.child))) :
    ImagesPlaced decimal digest source context body
        (parse decimal digest source context (inlineShapes body) (body.map BodyItem.child)) ↔
      InStep body := by
  constructor
  · rintro ⟨document, hparse, hplaced⟩
    obtain ⟨last, hlast, hcount, -⟩ := parse_ok hparse
    have hdrawn : drawnBy body = (inlineShapes body).length := by
      rw [← hcount, parseChildren_imageIndex hlast]
      exact (Nat.zero_add _).symm
    refine ⟨(drawnBy_eq_iff body).mp hdrawn, ?_⟩
    intro before text style drawings after hbody j shape hshape
    obtain ⟨state, hstate, images, rest, helements, himages⟩ :=
      hplaced before text style drawings after hbody
    obtain ⟨e, he, hisImage⟩ := himages j shape hshape
    obtain ⟨state', hstate', images', rest', helements', hlength, himages'⟩ :=
      parse_paragraph hbody hparse
    -- The run up to the paragraph is the same, so the images are.
    obtain rfl : state' = state := Except.ok.inj (hstate'.symm.trans hstate)
    obtain ⟨hlt, -⟩ := List.getElem?_eq_some_iff.mp hshape
    obtain ⟨e', other, he', hother, hisImage'⟩ := himages' j hlt
    have hsame : images ++ rest = images' ++ rest' := by
      rw [helements, List.append_assoc, List.append_assoc] at helements'
      exact List.append_cancel_left helements'
    have hat := congrArg (fun l => l[j]?) hsame
    rw [List.getElem?_append_left (List.getElem?_eq_some_iff.mp he).1, he,
      List.getElem?_append_left (by omega), he'] at hat
    obtain rfl := Option.some.inj hat
    rw [hisImage.shape_eq hisImage', ← hother]
  · intro hstep
    have hdrawn := (drawnBy_eq_iff body).mpr hstep.counts
    cases hparse : parse decimal digest source context (inlineShapes body)
        (body.map BodyItem.child) with
    | error e => exact absurd (hlimits e hparse) (raises_parse hdrawn e hparse)
    | ok document =>
      refine ⟨document, rfl, fun before text style drawings after hbody => ?_⟩
      obtain ⟨state, hstate, images, rest, helements, -, himages⟩ :=
        parse_paragraph hbody hparse
      refine ⟨state, hstate, images, rest, helements, fun j shape hshape => ?_⟩
      obtain ⟨hlt, -⟩ := List.getElem?_eq_some_iff.mp hshape
      obtain ⟨e, other, he, hother, hisImage⟩ := himages j hlt
      rw [hstep.shapes before text style drawings after hbody j shape hshape] at hother
      obtain rfl := Option.some.inj hother
      exact ⟨e, he, hisImage⟩

end Runs

/-! ## Bodies in step -/

section InStep

theorem sum_map_eq_zero {body : List BodyItem} {f : BodyItem → Nat}
    (h : ∀ item ∈ body, f item = 0) : (body.map f).sum = 0 := by
  rw [List.sum_eq_zero_iff_forall_eq_nat, List.forall_mem_map]
  exact h

/-- The shapes of drawings that are all inline, by their index. -/
theorem getElem?_shapes {drawings : List Drawing}
    (h : ∀ drawing ∈ drawings, drawing.shape?.isSome = true) (j : Nat) :
    (drawings.filterMap Drawing.shape?)[j]? = drawings[j]?.bind Drawing.shape? := by
  induction drawings generalizing j with
  | nil => rfl
  | cons drawing rest ih =>
    obtain ⟨hdrawing, hrest⟩ := List.forall_mem_cons.mp h
    obtain ⟨shape, hshape⟩ := Option.isSome_iff_exists.mp hdrawing
    rw [List.filterMap_cons_some hshape]
    cases j with
    | zero => exact hshape.symm
    | succ j => exact ih hrest j

/-- The drawings are in step when no paragraph has a floating one and no table an inline one. -/
theorem inStep_of_inline {body : List BodyItem} (hfloating : ∀ item ∈ body, item.floating = 0)
    (htabled : ∀ item ∈ body, item.tabled = 0) : InStep body := by
  refine ⟨by rw [sum_map_eq_zero hfloating, sum_map_eq_zero htabled], ?_⟩
  intro before text style drawings after hbody j shape hshape
  have hmem : ∀ item ∈ before, item ∈ body := by
    intro item hitem
    rw [hbody]
    exact List.mem_append_left _ hitem
  have hbefore : drawnBy before = (inlineShapes before).length := by
    rw [drawnBy_eq_iff, sum_map_eq_zero fun item hitem => hfloating item (hmem item hitem),
      sum_map_eq_zero fun item hitem => htabled item (hmem item hitem)]
  have hinline : ∀ drawing ∈ drawings, drawing.shape?.isSome = true := by
    have hitem : (BodyItem.paragraph text style drawings).floating = 0 := by
      apply hfloating
      rw [hbody]
      exact List.mem_append_right _ List.mem_cons_self
    have hle := List.length_filterMap_le Drawing.shape? drawings
    rw [BodyItem.floating] at hitem
    exact List.filterMap_length_eq_length.mp (by omega)
  have hat : (BodyItem.paragraph text style drawings).shapes[j]? = some shape := by
    rw [BodyItem.shapes, getElem?_shapes hinline, hshape]
    rfl
  rw [hbody, inlineShapes, List.flatMap_append, List.flatMap_cons, hbefore, inlineShapes,
    List.getElem?_append_right (Nat.le_add_right _ j), Nat.add_sub_cancel_left,
    List.getElem?_append_left (List.getElem?_eq_some_iff.mp hat).1]
  exact hat

end InStep

/-! ## Two bodies -/

/-- A paragraph with a picture of ten by twenty. -/
def picturedBody : List BodyItem := [.paragraph "See" "Normal" [.inline ⟨10, 20⟩]]

theorem imagesPlaced_pictured :
    ImagesPlaced asciiDigits Sha256.hexDigest HtmlDocumentHandler.sampleSource
      HtmlDocumentHandler.sampleContext picturedBody
      (parse asciiDigits Sha256.hexDigest HtmlDocumentHandler.sampleSource
        HtmlDocumentHandler.sampleContext (inlineShapes picturedBody)
        (picturedBody.map BodyItem.child)) := by
  have hok : (parse asciiDigits Sha256.hexDigest HtmlDocumentHandler.sampleSource
      HtmlDocumentHandler.sampleContext (inlineShapes picturedBody)
      (picturedBody.map BodyItem.child)).isOk = true := by decide +kernel
  obtain ⟨document, hparse⟩ := except_isOk.mp hok
  apply (imagesPlaced_iff asciiDigits Sha256.hexDigest HtmlDocumentHandler.sampleSource
    HtmlDocumentHandler.sampleContext picturedBody ?_).mpr
  · apply inStep_of_inline
    · exact List.forall_mem_singleton.mpr rfl
    · exact List.forall_mem_singleton.mpr rfl
  · intro e he
    rw [hparse] at he
    cases he

/-- A paragraph whose picture floats. -/
def floatingBody : List BodyItem := [.paragraph "See" "Normal" [.floating]]

/-- The floating picture is counted and has no shape. -/
theorem not_imagesPlaced_floating :
    parse asciiDigits Sha256.hexDigest HtmlDocumentHandler.sampleSource
        HtmlDocumentHandler.sampleContext (inlineShapes floatingBody)
        (floatingBody.map BodyItem.child) =
      .error ⟨"PARSER_DOCX_IMAGE_MAPPING", "DOCX drawing/inline-shape mapping is inconsistent"⟩ ∧
    ¬ ImagesPlaced asciiDigits Sha256.hexDigest HtmlDocumentHandler.sampleSource
      HtmlDocumentHandler.sampleContext floatingBody
      (parse asciiDigits Sha256.hexDigest HtmlDocumentHandler.sampleSource
        HtmlDocumentHandler.sampleContext (inlineShapes floatingBody)
        (floatingBody.map BodyItem.child)) := by
  have herror : parse asciiDigits Sha256.hexDigest HtmlDocumentHandler.sampleSource
      HtmlDocumentHandler.sampleContext (inlineShapes floatingBody)
      (floatingBody.map BodyItem.child) =
    .error ⟨"PARSER_DOCX_IMAGE_MAPPING", "DOCX drawing/inline-shape mapping is inconsistent"⟩ := rfl
  refine ⟨herror, ?_⟩
  rw [herror]
  intro hplaced
  obtain ⟨document, hdocument, -⟩ := hplaced
  cases hdocument

end OrderedDocxDocumentHandler

end AstraIndexator
