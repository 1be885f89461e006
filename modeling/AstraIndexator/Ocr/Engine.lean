import AstraIndexator.Ocr.Service
import Mathlib.Algebra.Order.Field.Basic
import Mathlib.Algebra.Order.Field.Rat
import Mathlib.Tactic.Linarith

/-!
# The engine adapter and its coordinates

The adapter divides the corners of a recognised polygon by the size of the image
and names the result `normalized-top-left`.  The service expects `normalized-0-1`
and divides a second time.  A corner survives that only on an axis of extent one,
at zero, or in a region without extent.
-/

namespace AstraIndexator

open Text

/-! ## The adapter -/

/-- One result of `PaddleOCR.predict`. -/
structure PaddleResult where
  recTexts : List String
  recScores : List Rat
  recPolys : List (List (Rat × Rat))

/-- A recognised text with its score and its polygon, if it has one. -/
structure PaddleBlock where
  text : String
  score : Rat
  polygon : List (Rat × Rat)

/-- The texts of one result that are not blank. -/
def PaddleResult.blocks (result : PaddleResult) : List PaddleBlock :=
  (result.recTexts.mapIdx fun index text =>
    ⟨strip text, result.recScores.getD index 0, result.recPolys.getD index []⟩).filter
      fun block => block.text ≠ ""

/-- `min(values)` of values that are not empty. -/
def minimum : List Rat → Rat
  | [] => 0
  | value :: values => values.foldl min value

/-- `max(values)` of values that are not empty. -/
def maximum : List Rat → Rat
  | [] => 0
  | value :: values => values.foldl max value

/-- The corners of the rectangle around some points. -/
def boundingBox (points : List (Rat × Rat)) : Box :=
  ⟨minimum (points.map Prod.fst), minimum (points.map Prod.snd), maximum (points.map Prod.fst),
    maximum (points.map Prod.snd)⟩

/-- The geometry of a polygon in an image of the given size. -/
def polygonGeometry (imageWidth imageHeight : Int) (pageNumber : Option Int)
    (points : List (Rat × Rat)) : SourceGeometry :=
  (((boundingBox points).scale (max 1 imageWidth : Int) (max 1 imageHeight : Int)).clamp).onPage
    pageNumber "normalized-top-left"

/-- The observation of one block. -/
def blockObservation (identity : OcrModelIdentity) (imageWidth imageHeight : Int)
    (request : OcrRequest) (order : Nat) (block : PaddleBlock) : OcrObservation where
  text := block.text
  confidence := block.score
  blockOrder := order
  candidateId := request.candidateId
  sourceElementId := request.sourceElementId
  pageNumber := request.pageNumber
  geometry := if block.polygon = [] then none
    else some (polygonGeometry imageWidth imageHeight request.pageNumber block.polygon)
  model := identity
  rawPolygon := if block.polygon = [] then none else some block.polygon

/-- `PaddleOcrEngine.recognize` -/
def paddleRecognize (identity : OcrModelIdentity) (imageWidth imageHeight : Int)
    (request : OcrRequest) (results : List PaddleResult) : List OcrObservation :=
  (results.flatMap PaddleResult.blocks).mapIdx
    (blockObservation identity imageWidth imageHeight request)

/-! ## Where a region lies -/

/-- The region in page coordinates: the whole page if none is given, and nothing if
it is neither in normalised units nor in units of a page of known size. -/
def placedRegion : Option SourceGeometry → Option Box
  | none => some Box.unit
  | some g =>
    match g.box with
    | none => some Box.unit
    | some box =>
      if g.coordinateSpace = some "normalized-0-1" then some box
      else match g.pageWidth, g.pageHeight with
        | some width, some height =>
          if width ≠ 0 ∧ height ≠ 0 then some (box.scale width height) else none
        | _, _ => none

/-- An image of positive size. -/
structure ImageSize where
  width : Int
  height : Int
  width_pos : 0 < width
  height_pos : 0 < height

/-- A polygon inside an image. -/
structure ImagePolygon (size : ImageSize) where
  points : List (Rat × Rat)
  nonempty : points ≠ []
  inside : ∀ p ∈ points, (0 ≤ p.1 ∧ p.1 ≤ size.width) ∧ 0 ≤ p.2 ∧ p.2 ≤ size.height

/-! ## Bounds -/

section Bounds

variable {values : List Rat} {bound : Rat}

theorem le_foldl_min {first : Rat} (hfirst : bound ≤ first) (h : ∀ v ∈ values, bound ≤ v) :
    bound ≤ values.foldl min first ∧ values.foldl min first ≤ first := by
  induction values generalizing first with
  | nil => exact ⟨hfirst, le_refl first⟩
  | cons v values ih =>
    obtain ⟨hle, hmin⟩ := @ih (min first v) (le_min hfirst (h v List.mem_cons_self))
      (fun x hx => h x (List.mem_cons_of_mem v hx))
    exact ⟨hle, hmin.trans (min_le_left first v)⟩

theorem foldl_max_le {first : Rat} (hfirst : first ≤ bound) (h : ∀ v ∈ values, v ≤ bound) :
    values.foldl max first ≤ bound ∧ first ≤ values.foldl max first := by
  induction values generalizing first with
  | nil => exact ⟨hfirst, le_refl first⟩
  | cons v values ih =>
    obtain ⟨hle, hmax⟩ := @ih (max first v) (max_le hfirst (h v List.mem_cons_self))
      (fun x hx => h x (List.mem_cons_of_mem v hx))
    exact ⟨hle, (le_max_left first v).trans hmax⟩

/-- The corners of one axis lie between its bounds, in order. -/
theorem minimum_maximum {extent : Rat} (hne : values ≠ [])
    (h : ∀ v ∈ values, 0 ≤ v ∧ v ≤ extent) :
    0 ≤ minimum values ∧ minimum values ≤ maximum values ∧ maximum values ≤ extent := by
  cases values with
  | nil => exact absurd rfl hne
  | cons v values =>
    obtain ⟨hv, hvs⟩ := List.forall_mem_cons.mp h
    obtain ⟨hmin, hminLe⟩ := le_foldl_min hv.1 (fun x hx => (hvs x hx).1)
    obtain ⟨hmax, hmaxLe⟩ := foldl_max_le hv.2 (fun x hx => (hvs x hx).2)
    exact ⟨hmin, hminLe.trans hmaxLe, hmax⟩

end Bounds

/-! ## Both divisions -/

theorem clampUnit_of_mem {value : Rat} (h0 : 0 ≤ value) (h1 : value ≤ 1) :
    Box.clampUnit value = value := by
  rw [Box.clampUnit, min_eq_right h1, max_eq_right h0]

/-- A rectangle of the unit square. -/
structure Box.InUnit (box : Box) : Prop where
  x0_nonneg : 0 ≤ box.x0
  x0_le : box.x0 ≤ box.x1
  x1_le : box.x1 ≤ 1
  y0_nonneg : 0 ≤ box.y0
  y0_le : box.y0 ≤ box.y1
  y1_le : box.y1 ≤ 1

theorem Box.InUnit.clamp {box : Box} (h : box.InUnit) : box.clamp = box := by
  rw [Box.clamp, clampUnit_of_mem h.x0_nonneg (h.x0_le.trans h.x1_le),
    clampUnit_of_mem h.y0_nonneg (h.y0_le.trans h.y1_le),
    clampUnit_of_mem (h.x0_nonneg.trans h.x0_le) h.x1_le,
    clampUnit_of_mem (h.y0_nonneg.trans h.y0_le) h.y1_le]

/-- A rectangle inside an image, in units of the image. -/
theorem Box.inUnit_scale {box : Box} {width height : Rat} (hw : 0 < width) (hh : 0 < height)
    (hx : 0 ≤ box.x0 ∧ box.x0 ≤ box.x1 ∧ box.x1 ≤ width)
    (hy : 0 ≤ box.y0 ∧ box.y0 ≤ box.y1 ∧ box.y1 ≤ height) : (box.scale width height).InUnit where
  x0_nonneg := div_nonneg hx.1 hw.le
  x0_le := (div_le_div_iff_of_pos_right hw).mpr hx.2.1
  x1_le := (div_le_one hw).mpr hx.2.2
  y0_nonneg := div_nonneg hy.1 hh.le
  y0_le := (div_le_div_iff_of_pos_right hh).mpr hy.2.1
  y1_le := (div_le_one hh).mpr hy.2.2

/-- A corner of the unit interval divided again stays where it was only at zero, on
an axis of extent one, or in a region without extent. -/
theorem twice_eq_iff {value extent start stop : Rat} (hextent : extent ≠ 0) :
    start + value / extent * (stop - start) = start + value * (stop - start) ↔
      start = stop ∨ extent = 1 ∨ value = 0 := by
  have hdiff : start + value / extent * (stop - start) = start + value * (stop - start) ↔
      (stop - start) * (value * (1 - extent)) = 0 := by
    constructor
    · intro h
      have hcancel : value / extent * (stop - start) = value * (stop - start) := by linarith
      rw [div_mul_eq_mul_div, div_eq_iff hextent] at hcancel
      linarith
    · intro h
      have hcancel : value / extent * (stop - start) = value * (stop - start) := by
        rw [div_mul_eq_mul_div, div_eq_iff hextent]
        linarith
      rw [hcancel]
  rw [hdiff, mul_eq_zero, mul_eq_zero, sub_eq_zero, sub_eq_zero]
  constructor
  · rintro (h | h | h)
    · exact .inl h.symm
    · exact .inr (.inr h)
    · exact .inr (.inl h.symm)
  · rintro (h | h | h)
    · exact .inl h.symm
    · exact .inr (.inr h.symm)
    · exact .inr (.inl h)

theorem box_onPage (box : Box) (pageNumber : Option Int) (space : String) :
    (box.onPage pageNumber space).box = some box := rfl

theorem onPage_inj {box box' : Box} {pageNumber : Option Int} {space : String} :
    box.onPage pageNumber space = box'.onPage pageNumber space ↔ box = box' := by
  constructor
  · intro h
    have hbox := congrArg SourceGeometry.box h
    rw [box_onPage, box_onPage] at hbox
    exact Option.some.inj hbox
  · rintro rfl
    rfl

/-- Mapping into the whole page changes nothing. -/
theorem Box.inside_unit (box : Box) : box.inside Box.unit = box := by
  simp [Box.inside, Box.unit]

/-- The service maps into the region where it is given. -/
theorem regionBox_of_placed {geometry : Option SourceGeometry} {region : Box}
    (h : placedRegion geometry = some region) (box : Box) :
    (match regionBox geometry with
      | none => box
      | some r => box.inside r) = box.inside region := by
  cases geometry with
  | none =>
    obtain rfl := Option.some.inj h
    exact box.inside_unit.symm
  | some g =>
    rw [placedRegion] at h
    rw [regionBox, Option.bind_some]
    cases hbox : g.box with
    | none =>
      rw [hbox] at h
      obtain rfl := Option.some.inj h
      exact box.inside_unit.symm
    | some corners =>
      rw [hbox] at h
      dsimp only [Option.map_some] at h ⊢
      by_cases hspace : g.coordinateSpace = some "normalized-0-1"
      · rw [if_pos hspace] at h ⊢
        rw [Option.some.inj h]
      · rw [if_neg hspace] at h ⊢
        cases hwidth : g.pageWidth with
        | none => rw [hwidth] at h; cases h
        | some width =>
          cases hheight : g.pageHeight with
          | none => rw [hwidth, hheight] at h; cases h
          | some height =>
            rw [hwidth, hheight] at h
            dsimp only at h ⊢
            by_cases hsize : width ≠ 0 ∧ height ≠ 0
            · rw [if_pos hsize] at h ⊢
              rw [Option.some.inj h]
            · rw [if_neg hsize] at h
              cases h

/-- On an axis the second division does no harm: the region has no extent there, or
the image has extent one, or the box ends at zero. -/
def AxisExact (start stop extent last : Rat) : Prop := start = stop ∨ extent = 1 ∨ last = 0

theorem axisExact_iff {start stop extent first last : Rat} (hextent : 0 < extent)
    (hfirst : 0 ≤ first) (hle : first ≤ last) :
    (start + first / extent / extent * (stop - start) = start + first / extent * (stop - start) ∧
        start + last / extent / extent * (stop - start) = start + last / extent * (stop - start)) ↔
      AxisExact start stop extent last := by
  have hne : extent ≠ 0 := hextent.ne'
  rw [twice_eq_iff hne, twice_eq_iff hne, div_eq_zero_iff, div_eq_zero_iff, or_iff_left hne,
    or_iff_left hne, AxisExact]
  constructor
  · exact And.right
  · rintro (h | h | h)
    · exact ⟨.inl h, .inl h⟩
    · exact ⟨.inr (.inl h), .inr (.inl h)⟩
    · exact ⟨.inr (.inr (le_antisymm (hle.trans h.le) hfirst)), .inr (.inr h)⟩

section Composition

variable {size : ImageSize} (polygon : ImagePolygon size)

theorem ImagePolygon.bounds :
    (0 ≤ (boundingBox polygon.points).x0 ∧
        (boundingBox polygon.points).x0 ≤ (boundingBox polygon.points).x1 ∧
        (boundingBox polygon.points).x1 ≤ size.width) ∧
      0 ≤ (boundingBox polygon.points).y0 ∧
        (boundingBox polygon.points).y0 ≤ (boundingBox polygon.points).y1 ∧
        (boundingBox polygon.points).y1 ≤ size.height := by
  constructor
  · refine minimum_maximum (by simpa using polygon.nonempty) (fun v hv => ?_)
    obtain ⟨p, hp, rfl⟩ := List.mem_map.mp hv
    exact (polygon.inside p hp).1
  · refine minimum_maximum (by simpa using polygon.nonempty) (fun v hv => ?_)
    obtain ⟨p, hp, rfl⟩ := List.mem_map.mp hv
    exact (polygon.inside p hp).2

/-- The rectangle in units of the image. -/
def ImagePolygon.relative : Box := (boundingBox polygon.points).scale size.width size.height

theorem ImagePolygon.inUnit : polygon.relative.InUnit :=
  Box.inUnit_scale (Int.cast_pos.mpr size.width_pos) (Int.cast_pos.mpr size.height_pos)
    polygon.bounds.1 polygon.bounds.2

/-- The adapter puts the rectangle in units of the image. -/
theorem polygonGeometry_eq (pageNumber : Option Int) :
    polygonGeometry size.width size.height pageNumber polygon.points =
      polygon.relative.onPage pageNumber "normalized-top-left" := by
  have hwidth : max 1 size.width = size.width := max_eq_right size.width_pos
  have hheight : max 1 size.height = size.height := max_eq_right size.height_pos
  rw [polygonGeometry, hwidth, hheight]
  exact congrArg (fun box : Box => box.onPage pageNumber "normalized-top-left")
    polygon.inUnit.clamp

/-- The rectangle divided a second time. -/
theorem ImagePolygon.inUnit_again : (polygon.relative.scale size.width size.height).InUnit := by
  have hwidth : (1 : Rat) ≤ size.width := by exact_mod_cast size.width_pos
  have hheight : (1 : Rat) ≤ size.height := by exact_mod_cast size.height_pos
  have hunit := polygon.inUnit
  exact Box.inUnit_scale (zero_lt_one.trans_le hwidth) (zero_lt_one.trans_le hheight)
    ⟨hunit.x0_nonneg, hunit.x0_le, hunit.x1_le.trans hwidth⟩
    ⟨hunit.y0_nonneg, hunit.y0_le, hunit.y1_le.trans hheight⟩

/-- What the service makes of the adapter's geometry. -/
theorem normalizedGeometry_polygon {resolved : ResolvedOcrInput} {region : Box}
    (hwidth : resolved.width = size.width) (hheight : resolved.height = size.height)
    (hregion : placedRegion resolved.sourceGeometry = some region) (pageNumber : Option Int) :
    normalizedGeometry (some (polygonGeometry size.width size.height pageNumber polygon.points))
        resolved =
      .ok (some (((polygon.relative.scale size.width size.height).inside region).onPage
        resolved.pageNumber "normalized-0-1")) := by
  have hagain := polygon.inUnit_again
  have himage : imageBox (polygon.relative.onPage pageNumber "normalized-top-left")
      polygon.relative resolved = .ok (polygon.relative.scale size.width size.height) := by
    rw [imageBox, if_neg (by simp [Box.onPage]), if_neg, hwidth, hheight]
    · change (if (polygon.relative.scale size.width size.height).clamp.x1 <
          (polygon.relative.scale size.width size.height).clamp.x0 ∨
          (polygon.relative.scale size.width size.height).clamp.y1 <
          (polygon.relative.scale size.width size.height).clamp.y0 then _ else _) = _
      rw [hagain.clamp, if_neg (not_or.mpr ⟨hagain.x0_le.not_gt, hagain.y0_le.not_gt⟩)]
      rfl
    · rw [hwidth, hheight, not_or, not_le, not_le]
      exact ⟨size.width_pos, size.height_pos⟩
  rw [polygonGeometry_eq, normalizedGeometry]
  dsimp only
  rw [box_onPage]
  dsimp only
  rw [himage, ← regionBox_of_placed hregion]
  rfl

/-- The accepted element lies at the polygon's rectangle mapped into the region of
the page exactly when the second division does no harm on either axis. -/
theorem accepted_geometry_iff (env : OcrEnvironment) (profile : OcrProfile)
    (document : ParsedDocument) (candidate : OcrCandidate) (result : OcrCandidateResult)
    (identity : OcrModelIdentity) {size : ImageSize} (polygon : ImagePolygon size)
    (request : OcrRequest) (order : Nat) (text : String) (score : Rat)
    (resolved : ResolvedOcrInput) (region : Box) (hscore : 0 ≤ score ∧ score ≤ 1)
    (hwidth : resolved.width = size.width) (hheight : resolved.height = size.height)
    (hregion : placedRegion resolved.sourceGeometry = some region) :
    (normalizeObservation resolved (blockObservation identity size.width size.height request order
        ⟨text, score, polygon.points⟩)).map
          (fun o => (acceptedElement env profile document candidate result o).geometry) =
        .ok (some ((((boundingBox polygon.points).scale size.width size.height).inside
          region).onPage resolved.pageNumber "normalized-0-1")) ↔
      AxisExact region.x0 region.x1 size.width (boundingBox polygon.points).x1 ∧
        AxisExact region.y0 region.y1 size.height (boundingBox polygon.points).y1 := by
  have hobservation : (normalizeObservation resolved (blockObservation identity size.width
      size.height request order ⟨text, score, polygon.points⟩)).map
        (fun o => (acceptedElement env profile document candidate result o).geometry) =
      .ok (some (((polygon.relative.scale size.width size.height).inside region).onPage
        resolved.pageNumber "normalized-0-1")) := by
    rw [normalizeObservation_eq hscore]
    dsimp only [blockObservation]
    rw [if_neg polygon.nonempty, if_neg polygon.nonempty,
      normalizedGeometry_polygon polygon hwidth hheight hregion]
    rfl
  obtain ⟨hx, hy⟩ := polygon.bounds
  rw [hobservation, Except.ok.injEq, Option.some.injEq, onPage_inj, ← ImagePolygon.relative,
    ← axisExact_iff (Int.cast_pos.mpr size.width_pos) hx.1 hx.2.1,
    ← axisExact_iff (Int.cast_pos.mpr size.height_pos) hy.1 hy.2.1, Box.inside, Box.inside,
    Box.mk.injEq]
  constructor
  · rintro ⟨h0, h1, h2, h3⟩
    exact ⟨⟨h0, h2⟩, h1, h3⟩
  · rintro ⟨⟨h0, h2⟩, h1, h3⟩
    exact ⟨h0, h1, h2, h3⟩

end Composition

def sampleSize : ImageSize := ⟨10, 10, by decide, by decide⟩

def samplePolygon : ImagePolygon sampleSize where
  points := [(0, 0)]
  nonempty := by decide
  inside := by
    intro p hp
    obtain rfl := List.mem_singleton.mp hp
    decide +kernel

def sampleResolved : ResolvedOcrInput := ⟨"ocr:img", [0], 10, 10, some 1, some "img", none⟩

def sampleOcrRequest : OcrRequest := ⟨"ocr:img", [0], some 1, some "img"⟩

def sampleCandidate : OcrCandidate :=
  ⟨"ocr:img", "EMBEDDED_IMAGE", some 1, "embedded_image", some "img", none, []⟩

def sampleResult : OcrCandidateResult := ⟨"ocr:img", .required, ["embedded_image"], [], []⟩

def sampleParsed (elements : List DocumentElement) (candidates : List OcrCandidate) :
    ParsedDocument where
  schemaVersion := "astra-indexator-parsed-document-v1"
  documentId := 0
  documentVersion := 1
  sourceSha256 := "sha"
  detectedFormat := "PDF"
  parser := ⟨"parser", "1", "default"⟩
  elements := elements
  ocrCandidates := candidates
  quality := ⟨.good, 0, candidates.length, [], []⟩

theorem accepted_geometry_sample :
    (normalizeObservation sampleResolved (blockObservation sampleOcrIdentity 10 10 sampleOcrRequest 0
        ⟨"a", 1, [(0, 0)]⟩)).map (fun o => (acceptedElement (asciiOcr (fun _ => none)
          (fun _ => .failed)) {} (sampleParsed [] []) sampleCandidate sampleResult o).geometry) =
      .ok (some ((((boundingBox [(0, 0)]).scale 10 10).inside Box.unit).onPage (some 1)
        "normalized-0-1")) := by
  have hexact : AxisExact 0 1 10 0 := .inr (.inr rfl)
  exact (accepted_geometry_iff (asciiOcr (fun _ => none) (fun _ => .failed)) {} (sampleParsed [] [])
    sampleCandidate sampleResult sampleOcrIdentity samplePolygon sampleOcrRequest 0 "a" 1 sampleResolved
    Box.unit (by decide +kernel) rfl rfl rfl).mpr ⟨hexact, hexact⟩

/-- A point in the middle of an image of ten by ten pixels is placed at a twentieth
of the page. -/
theorem accepted_geometry_middle :
    (normalizeObservation sampleResolved (blockObservation sampleOcrIdentity 10 10 sampleOcrRequest 0
        ⟨"a", 1, [(5, 5)]⟩)).map (fun o => (acceptedElement (asciiOcr (fun _ => none)
          (fun _ => .failed)) {} (sampleParsed [] []) sampleCandidate sampleResult o).geometry) ≠
      .ok (some ((((boundingBox [(5, 5)]).scale 10 10).inside Box.unit).onPage (some 1)
        "normalized-0-1")) := by
  decide +kernel

end AstraIndexator
