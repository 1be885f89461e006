import Mathlib.Algebra.Order.BigOperators.Group.List
import AstraIndexator.Ocr.Merge

/-!
# Reusing a recognition

An image that was recognised once is not recognised again.  What is kept of it are
the observations after normalisation, in the region of the page where the image
stood first.  A later candidate gets them with its own page and owner, but in that
region.
-/

namespace AstraIndexator

open Text Transaction

/-- `DefaultOcrInputResolver`: the renderer and the size it reads off an image. -/
structure DefaultOcrInputResolver where
  render : OcrCandidate → Option (List UInt8)
  dimensions : List UInt8 → Int × Int

/-- `resolve` -/
def DefaultOcrInputResolver.resolve (resolver : DefaultOcrInputResolver)
    (candidate : OcrCandidate) : Option ResolvedOcrInput :=
  (resolver.render candidate).map fun image =>
    ⟨candidate.candidateId, image, (resolver.dimensions image).1, (resolver.dimensions image).2,
      candidate.pageNumber, candidate.elementId, candidate.geometry⟩

/-- An observation of the image made one of a request. -/
def OcrRequest.stamp (request : OcrRequest) (observation : OcrObservation) : OcrObservation :=
  { observation with
    candidateId := request.candidateId, sourceElementId := request.sourceElementId,
    pageNumber := request.pageNumber,
    geometry := observation.geometry.map fun g => { g with pageNumber := request.pageNumber } }

/-- A recognition of the image made one of a request. -/
def Recognition.stamped (request : OcrRequest) : Recognition → Recognition
  | .observations items => .observations (items.map request.stamp)
  | .timeout => .timeout
  | .failed => .failed

section Reuse

variable (env : OcrEnvironment) (profile : OcrProfile)

/-- The image is too small to hold text. -/
def Decorative (resolved : ResolvedOcrInput) : Prop :=
  resolved.width < profile.minImageWidth ∨ resolved.height < profile.minImageHeight ∨
    resolved.pixels < profile.minImagePixels

instance (resolved : ResolvedOcrInput) : Decidable (Decorative profile resolved) :=
  inferInstanceAs (Decidable (_ ∨ _ ∨ _))

/-- The observations a rendered candidate comes to by itself. -/
def usableResolved (candidate : OcrCandidate) (resolved : ResolvedOcrInput) :
    Option (List OcrObservation) :=
  if Decorative profile resolved then none
  else match env.recognize (ocrRequest candidate resolved) with
    | .observations raw => (normalizeObservations raw resolved).toOption
    | .timeout => none
    | .failed => none

/-- The observations a candidate comes to by itself. -/
def usable (candidate : OcrCandidate) : Option (List OcrObservation) :=
  if (env.decide candidate).1 = .required then
    (env.resolve candidate).bind (usableResolved env profile candidate)
  else none

/-- Observations of sufficient confidence. -/
def confident (observations : Option (List OcrObservation)) : List OcrObservation :=
  (observations.getD []).filter fun o => profile.hardConfidenceFloor ≤ o.confidence

/-- The observations of a candidate whose image is recognised and normalised
separately. -/
def separately (candidate : OcrCandidate) : List OcrObservation :=
  confident profile (usable env profile candidate)

/-- The result of a candidate for itself, as far as the merge reads it. -/
def separateResult (candidate : OcrCandidate) : OcrCandidateResult :=
  ⟨candidate.candidateId, .required, [], separately env profile candidate, []⟩

/-- The merged elements when every image is recognised separately. -/
def separateElements (document : ParsedDocument) : List DocumentElement :=
  reindex (mergeElements document.elements
    (reconcile env profile document (document.ocrCandidates.map (separateResult env profile))))

/-- The candidate is to be recognised and shows the image. -/
def Shows (image : List UInt8) (candidate : OcrCandidate) : Prop :=
  (env.decide candidate).1 = .required ∧
    (env.resolve candidate).map ResolvedOcrInput.image = some image

instance (image : List UInt8) (candidate : OcrCandidate) : Decidable (Shows env image candidate) :=
  inferInstanceAs (Decidable (_ ∧ _))

/-- The first candidate that shows the image. -/
def firstShowing (candidates : List OcrCandidate) (image : List UInt8) : Option OcrCandidate :=
  candidates.find? fun c => Shows env image c

/-- The pixels a candidate can add to the total. -/
def pixelShare (candidate : OcrCandidate) : Int :=
  match env.resolve candidate with
  | none => 0
  | some resolved => max 0 resolved.pixels

/-- The bytes a candidate can add to the total. -/
def byteShare (candidate : OcrCandidate) : Int :=
  match env.resolve candidate with
  | none => 0
  | some resolved => resolved.image.length

/-- The limits of the profile are never reached. -/
structure WithinOcrLimits (candidates : List OcrCandidate) : Prop where
  time : ∀ c ∈ candidates, env.elapsed c < profile.timeoutPerJobSeconds
  pages : ((candidates.filter fun c => c.scope = "PAGE").length : Int) ≤ profile.maxPagesPerJob
  pagePixels : ∀ c ∈ candidates, ∀ r ∈ env.resolve c, r.pixels ≤ profile.maxPixelsPerPage
  totalPixels : (candidates.map (pixelShare env)).sum ≤ profile.maxTotalPixelsPerJob
  bytes : (candidates.map (byteShare env)).sum ≤ profile.maxDerivedBytes
  memory : ∀ c ∈ candidates, ∀ r ∈ env.resolve c, r.pixels * 4 ≤ profile.memoryHardLimitBytes

/-- What is left of the limits suffices for the remaining candidates. -/
structure Room (state : OcrState) (candidates : List OcrCandidate) : Prop where
  pages : state.pages + ((candidates.filter fun c => c.scope = "PAGE").length : Int) ≤
    profile.maxPagesPerJob
  pixels : state.pixels + (candidates.map (pixelShare env)).sum ≤ profile.maxTotalPixelsPerJob
  bytes : state.derivedBytes + (candidates.map (byteShare env)).sum ≤ profile.maxDerivedBytes

/-- The observations the first candidate with the same image came to. -/
def firstUsable (candidates : List OcrCandidate) (image : List UInt8) :
    Option (List OcrObservation) :=
  (firstShowing env candidates image).bind (usable env profile)

/-- The observations a candidate gets: those of the first candidate with its image,
with its own page and owner. -/
def reused (candidates : List OcrCandidate) (candidate : OcrCandidate) : List OcrObservation :=
  if (env.decide candidate).1 = .required then
    match env.resolve candidate with
    | none => []
    | some resolved => confident profile ((firstUsable env profile candidates resolved.image).map
        fun observations => projectObservations observations candidate)
  else []

/-! ## One turn of the loop -/

section Turn

variable {env : OcrEnvironment} {profile : OcrProfile} {state : OcrState}
  {candidate : OcrCandidate} {resolved : ResolvedOcrInput}

theorem pixelShare_nonneg (candidate : OcrCandidate) : 0 ≤ pixelShare env candidate := by
  rw [pixelShare]
  split
  · exact le_refl 0
  · exact le_max_left 0 _

theorem byteShare_nonneg (candidate : OcrCandidate) : 0 ≤ byteShare env candidate := by
  rw [byteShare]
  split
  · exact le_refl 0
  · exact Int.natCast_nonneg _

/-- A turn adds one result, and its counts by no more than the candidate's share. -/
structure Turn (env : OcrEnvironment) (candidate : OcrCandidate) (state state' : OcrState)
    (observations : List OcrObservation) (cache : List (String × List OcrObservation)) : Prop where
  results : ∃ decision reasons warnings, state'.results = state.results ++
    [⟨candidate.candidateId, decision, reasons, observations, warnings⟩]
  cache : state'.imageCache = cache
  pages : state'.pages ≤ state.pages + if candidate.scope = "PAGE" then 1 else 0
  pixels : state'.pixels ≤ state.pixels + pixelShare env candidate
  bytes : state'.derivedBytes ≤ state.derivedBytes + byteShare env candidate

/-- A turn that recognises nothing. -/
theorem turn_of_counts {state' : OcrState} {result : OcrCandidateResult}
    (hresults : state'.results = state.results ++ [result])
    (hid : result.candidateId = candidate.candidateId) (hobservations : result.observations = [])
    (hcache : state'.imageCache = state.imageCache) (hpages : state'.pages = state.pages)
    (hpixels : state'.pixels = state.pixels) (hbytes : state'.derivedBytes = state.derivedBytes) :
    Turn env candidate state state' [] state.imageCache where
  results := by
    obtain ⟨id, decision, reasons, observations, warnings⟩ := result
    obtain rfl : id = candidate.candidateId := hid
    obtain rfl : observations = [] := hobservations
    exact ⟨decision, reasons, warnings, hresults⟩
  cache := hcache
  pages := by
    rw [hpages]
    split <;> omega
  pixels := by
    have hshare := @pixelShare_nonneg env candidate
    omega
  bytes := by
    have hshare := @byteShare_nonneg env candidate
    omega

/-- A turn with observations at hand. -/
theorem turn_retain (before : OcrState) (hresolved : env.resolve candidate = some resolved)
    (hbefore : before.results = state.results ∧ before.pages = state.pages ∧
      before.pixels = state.pixels ∧ before.derivedBytes = state.derivedBytes)
    (decision : OcrDecision) (reasons : List String) (observations : List OcrObservation) :
    Turn env candidate state
      (retainObservations profile before candidate resolved decision reasons observations)
      (observations.filter fun o => profile.hardConfidenceFloor ≤ o.confidence)
      before.imageCache := by
  obtain ⟨hresults, hpages, hpixels, hbytes⟩ := hbefore
  have hpixelShare : pixelShare env candidate = max 0 resolved.pixels := by
    rw [pixelShare, hresolved]
  have hbyteShare : byteShare env candidate = resolved.image.length := by
    rw [byteShare, hresolved]
  rw [retainObservations]
  split
  all_goals
    refine ⟨⟨decision, reasons, [], by rw [← hresults]; rfl⟩, rfl, ?_, ?_, ?_⟩
    · change (if candidate.scope = "PAGE" then before.pages + 1 else before.pages) ≤ _
      rw [hpages]
      split <;> omega
    · change before.pixels + resolved.pixels ≤ _
      rw [hpixelShare, hpixels]
      omega
    · change before.derivedBytes + (resolved.image.length : Int) ≤ _
      rw [hbyteShare, hbytes]

/-- The observations and the cache after a turn that no limit cuts short. -/
def turnOutcome (env : OcrEnvironment) (profile : OcrProfile)
    (cache : List (String × List OcrObservation)) (candidate : OcrCandidate) :
    List OcrObservation × List (String × List OcrObservation) :=
  if (env.decide candidate).1 = .required then
    match env.resolve candidate with
    | none => ([], cache)
    | some resolved =>
      if Decorative profile resolved then ([], cache)
      else match cache.lookup (env.digest.hexdigest resolved.image) with
        | some cached => (confident profile (some (projectObservations cached candidate)), cache)
        | none =>
          match usableResolved env profile candidate resolved with
          | some observations => (confident profile (some observations),
              cache ++ [(env.digest.hexdigest resolved.image, observations)])
          | none => ([], cache)
  else ([], cache)

/-- What the limits have to leave for one candidate. -/
structure TurnRoom (env : OcrEnvironment) (profile : OcrProfile) (state : OcrState)
    (candidate : OcrCandidate) : Prop where
  time : env.elapsed candidate < profile.timeoutPerJobSeconds
  pages : candidate.scope = "PAGE" → state.pages < profile.maxPagesPerJob
  pagePixels : ∀ r ∈ env.resolve candidate, r.pixels ≤ profile.maxPixelsPerPage
  totalPixels : ∀ r ∈ env.resolve candidate, state.pixels + r.pixels ≤ profile.maxTotalPixelsPerJob
  bytes : ∀ r ∈ env.resolve candidate, state.derivedBytes + r.image.length ≤ profile.maxDerivedBytes
  memory : ∀ r ∈ env.resolve candidate, r.pixels * 4 ≤ profile.memoryHardLimitBytes

theorem turn_recognizeResolved {before : OcrState} (hresolved : env.resolve candidate = some resolved)
    (hdecision : (env.decide candidate).1 = .required) (hlarge : ¬ Decorative profile resolved)
    (hcache : before.imageCache = state.imageCache)
    (hbefore : before.results = state.results ∧ before.pages = state.pages ∧
      before.pixels = state.pixels ∧ before.derivedBytes = state.derivedBytes) :
    Turn env candidate state (recognizeResolved env profile before candidate resolved
      (env.decide candidate)) (turnOutcome env profile state.imageCache candidate).1
      (turnOutcome env profile state.imageCache candidate).2 := by
  have hfail : ∀ warning, Turn env candidate state
      (before.fail candidate (env.decide candidate).2 warning) [] state.imageCache := by
    intro warning
    obtain ⟨hresults, hpages, hpixels, hbytes⟩ := hbefore
    exact turn_of_counts (by rw [← hresults]; rfl) rfl rfl hcache hpages hpixels hbytes
  rw [turnOutcome, if_pos hdecision, hresolved, recognizeResolved]
  dsimp only
  rw [if_neg hlarge, hcache]
  cases hlookup : state.imageCache.lookup (env.digest.hexdigest resolved.image) with
  | some cached =>
    rw [← hcache]
    exact turn_retain before hresolved hbefore (env.decide candidate).1
      ((env.decide candidate).2 ++ ["OCR_RESULT_REUSED_BY_IMAGE_HASH"])
      (projectObservations cached candidate)
  | none =>
    dsimp only
    rw [usableResolved, if_neg hlarge]
    cases env.recognize (ocrRequest candidate resolved) with
    | timeout => exact hfail "OCR_TIMEOUT"
    | failed => exact hfail "OCR_ENGINE_FAILED"
    | observations raw =>
      dsimp only
      cases normalizeObservations raw resolved with
      | error e => exact hfail "OCR_OUTPUT_INVALID"
      | ok observations =>
        exact turn_retain { before with imageCache :=
            state.imageCache ++ [(env.digest.hexdigest resolved.image, observations)] } hresolved
          hbefore (env.decide candidate).1 (env.decide candidate).2 observations

theorem processResolved_eq (decision : OcrDecision × List String) :
    processResolved env profile state candidate resolved decision =
      if Decorative profile resolved then state.addResult
        ⟨candidate.candidateId, .notRequired, ["DECORATIVE_IMAGE_TOO_SMALL"], [], []⟩
      else if profile.maxPixelsPerPage < resolved.pixels ∨
          profile.maxTotalPixelsPerJob < state.pixels + resolved.pixels then
        state.reject candidate "OCR_PIXEL_LIMIT"
      else if profile.maxDerivedBytes < state.derivedBytes + resolved.image.length then
        state.reject candidate "OCR_DERIVED_BYTES_LIMIT"
      else if profile.memoryHardLimitBytes < resolved.pixels * 4 then
        state.reject candidate "OCR_MEMORY_LIMIT"
      else recognizeResolved env profile
        (if profile.memorySoftLimitBytes < resolved.pixels * 4 then
          state.warn "OCR_MEMORY_SOFT_LIMIT" else state) candidate resolved decision :=
  rfl

/-- A turn that no limit cuts short. -/
theorem turn_processCandidate (h : TurnRoom env profile state candidate) :
    Turn env candidate state (processCandidate env profile state candidate)
      (turnOutcome env profile state.imageCache candidate).1
      (turnOutcome env profile state.imageCache candidate).2 := by
  rw [processCandidate]
  by_cases hdecision : (env.decide candidate).1 = .required
  · rw [if_neg (not_not.mpr hdecision), if_neg (Rat.not_le.mpr h.time),
      if_neg (fun hpage => absurd (h.pages hpage.1) (not_lt.mpr hpage.2))]
    cases hresolved : env.resolve candidate with
    | none =>
      rw [turnOutcome, if_pos hdecision, hresolved]
      exact turn_of_counts rfl rfl rfl rfl rfl rfl rfl
    | some resolved =>
      have hmem : resolved ∈ env.resolve candidate := hresolved
      have hpixels := h.pagePixels resolved hmem
      have htotal := h.totalPixels resolved hmem
      have hbytes := h.bytes resolved hmem
      have hmemory := h.memory resolved hmem
      dsimp only
      rw [processResolved_eq]
      by_cases hlarge : Decorative profile resolved
      · rw [turnOutcome, if_pos hdecision, hresolved]
        dsimp only
        rw [if_pos hlarge, if_pos hlarge]
        exact turn_of_counts rfl rfl rfl rfl rfl rfl rfl
      · rw [if_neg hlarge, if_neg (by omega), if_neg (by omega), if_neg (by omega)]
        refine turn_recognizeResolved hresolved hdecision hlarge ?_ ?_
        · split <;> rfl
        · split <;> exact ⟨rfl, rfl, rfl, rfl⟩
  · rw [if_pos hdecision, turnOutcome, if_neg hdecision]
    exact turn_of_counts rfl rfl rfl rfl rfl rfl rfl

end Turn

/-! ## What is read off an image -/

/-- A box of an image in the region where the image stands. -/
def placed (region : Option SourceGeometry) (box : Box) : Box :=
  match regionBox region with
  | none => box
  | some r => box.inside r

/-- The observation passes the checks of the service. -/
structure Passes (resolved : ResolvedOcrInput) (observation : OcrObservation) : Prop where
  confidence : 0 ≤ observation.confidence ∧ observation.confidence ≤ 1
  geometry : ∀ g ∈ observation.geometry, ∀ corners ∈ g.box,
    ∃ box, imageBox g corners resolved = .ok box

/-- The geometry of an observation on the candidate's page. -/
def normalGeometry (candidate : OcrCandidate) (resolved : ResolvedOcrInput)
    (geometry : SourceGeometry) : SourceGeometry :=
  match geometry.box with
  | none => { geometry with pageNumber := candidate.pageNumber }
  | some corners =>
    match imageBox geometry corners resolved with
    | .ok box => (placed candidate.geometry box).onPage candidate.pageNumber "normalized-0-1"
    | .error _ => { geometry with pageNumber := candidate.pageNumber }

/-- An observation of an image as one of the candidate. -/
def normal (candidate : OcrCandidate) (resolved : ResolvedOcrInput)
    (observation : OcrObservation) : OcrObservation :=
  { observation with
    text := strip observation.text, candidateId := candidate.candidateId,
    sourceElementId := candidate.elementId, pageNumber := candidate.pageNumber,
    geometry := observation.geometry.map (normalGeometry candidate resolved) }

/-- The observations that are not blank. -/
def legible (raw : List OcrObservation) : List OcrObservation :=
  raw.filter fun observation => !isBlank observation.text

section Reading

variable {env : OcrEnvironment} {profile : OcrProfile} {resolver : DefaultOcrInputResolver}
  {read : List UInt8 → Recognition} {candidate : OcrCandidate} {resolved : ResolvedOcrInput}

/-- The parts of an input that do not come from the image. -/
theorem resolve_some (h : resolver.resolve candidate = some resolved) :
    resolved.width = (resolver.dimensions resolved.image).1 ∧
      resolved.height = (resolver.dimensions resolved.image).2 ∧
      resolved.pageNumber = candidate.pageNumber ∧
      resolved.sourceElementId = candidate.elementId ∧
      resolved.sourceGeometry = candidate.geometry := by
  obtain ⟨image, -, rfl⟩ := Option.map_eq_some_iff.mp h
  exact ⟨rfl, rfl, rfl, rfl, rfl⟩

theorem imageBox_congr {g g' : SourceGeometry} {resolved' : ResolvedOcrInput}
    (hspace : g'.coordinateSpace = g.coordinateSpace) (hwidth : resolved'.width = resolved.width)
    (hheight : resolved'.height = resolved.height) (corners : Box) :
    imageBox g' corners resolved' = imageBox g corners resolved := by
  rw [imageBox, imageBox, hspace, hwidth, hheight]

/-- What the service makes of the geometry of an observation of the image. -/
theorem normalizedGeometry_stamp (hresolved : resolver.resolve candidate = some resolved)
    {geometry : Option SourceGeometry} {result : Option SourceGeometry} :
    normalizedGeometry (geometry.map fun g => { g with pageNumber := candidate.pageNumber })
        resolved = .ok result ↔
      (∀ g ∈ geometry, ∀ corners ∈ g.box, ∃ box, imageBox g corners resolved = .ok box) ∧
        result = geometry.map (normalGeometry candidate resolved) := by
  obtain ⟨-, -, hpage, -, hregion⟩ := resolve_some hresolved
  cases geometry with
  | none =>
    constructor
    · intro h
      exact ⟨fun g hg => absurd hg (Option.not_mem_none g), (Except.ok.inj h).symm⟩
    · rintro ⟨-, rfl⟩
      rfl
  | some g =>
    rw [Option.map_some, normalizedGeometry, Option.map_some, normalGeometry]
    have hbox : SourceGeometry.box { g with pageNumber := candidate.pageNumber } = g.box := rfl
    have himage : ∀ corners, imageBox { g with pageNumber := candidate.pageNumber } corners
        resolved = imageBox g corners resolved := fun corners => imageBox_congr rfl rfl rfl corners
    dsimp only
    rw [hbox]
    cases hcorners : g.box with
    | none =>
      dsimp only
      rw [hpage]
      constructor
      · intro h
        refine ⟨fun g' hg corners hcorner => ?_, (Except.ok.inj h).symm⟩
        obtain rfl := Option.mem_some_iff.mp hg
        rw [hcorners] at hcorner
        exact absurd hcorner (Option.not_mem_none corners)
      · rintro ⟨-, rfl⟩
        rfl
    | some corners =>
      dsimp only
      rw [himage, hpage, hregion]
      constructor
      · intro h
        obtain ⟨box, hok, h⟩ := except_bind_ok.mp h
        rw [hok]
        refine ⟨fun g' hg corners' hcorner => ?_, (Except.ok.inj h).symm⟩
        obtain rfl := Option.mem_some_iff.mp hg
        obtain rfl := Option.some.inj (hcorners.symm.trans hcorner)
        exact ⟨box, hok⟩
      · rintro ⟨hvalid, rfl⟩
        obtain ⟨box, hok⟩ := hvalid g rfl corners hcorners
        rw [hok]
        rfl

/-- What the service makes of an observation of the image. -/
theorem normalizeObservation_stamp (hresolved : resolver.resolve candidate = some resolved)
    {observation result : OcrObservation} :
    normalizeObservation resolved ((ocrRequest candidate resolved).stamp observation) =
        .ok result ↔
      Passes resolved observation ∧ result = normal candidate resolved observation := by
  obtain ⟨-, -, hpage, helement, -⟩ := resolve_some hresolved
  have hgeometry := @normalizedGeometry_stamp resolver candidate resolved hresolved
    observation.geometry
  have hconfidence : ((ocrRequest candidate resolved).stamp observation).confidence =
      observation.confidence := rfl
  rw [normalizeObservation, hconfidence]
  constructor
  · intro h
    by_cases hrange : observation.confidence < 0 ∨ 1 < observation.confidence
    · rw [if_pos hrange] at h
      cases h
    · rw [if_neg hrange] at h
      obtain ⟨hlow, hhigh⟩ := not_or.mp hrange
      obtain ⟨geometry, hok, h⟩ := except_bind_ok.mp h
      obtain ⟨hvalid, rfl⟩ := hgeometry.mp hok
      refine ⟨⟨⟨not_lt.mp hlow, not_lt.mp hhigh⟩, hvalid⟩, ?_⟩
      rw [← Except.ok.inj h, hpage, helement]
      rfl
  · rintro ⟨hpasses, rfl⟩
    have hrange : ¬ (observation.confidence < 0 ∨ 1 < observation.confidence) :=
      not_or.mpr ⟨not_lt.mpr hpasses.confidence.1, not_lt.mpr hpasses.confidence.2⟩
    rw [if_neg hrange]
    refine except_bind_ok.mpr ⟨_, hgeometry.mpr ⟨hpasses.geometry, rfl⟩, ?_⟩
    rw [hpage, helement]
    rfl

theorem normalizeObservations_stamp (hresolved : resolver.resolve candidate = some resolved)
    {raw results : List OcrObservation} :
    normalizeObservations (raw.map (ocrRequest candidate resolved).stamp) resolved = .ok results ↔
      (∀ o ∈ legible raw, Passes resolved o) ∧
        results = (legible raw).map (normal candidate resolved) := by
  have hfilter : (raw.map (ocrRequest candidate resolved).stamp).filter
      (fun o => !isBlank o.text) = (legible raw).map (ocrRequest candidate resolved).stamp := by
    rw [List.filter_map]
    rfl
  rw [normalizeObservations, hfilter]
  generalize legible raw = items
  induction items generalizing results with
  | nil =>
    constructor
    · intro h
      exact ⟨fun o ho => absurd ho List.not_mem_nil, (Except.ok.inj h).symm⟩
    · rintro ⟨-, rfl⟩
      rfl
  | cons o items ih =>
    rw [List.map_cons, List.mapM_cons, List.forall_mem_cons]
    constructor
    · intro h
      obtain ⟨first, hfirst, h⟩ := except_bind_ok.mp h
      obtain ⟨others, hothers, h⟩ := except_bind_ok.mp h
      obtain ⟨hpasses, rfl⟩ := (normalizeObservation_stamp hresolved).mp hfirst
      obtain ⟨hall, rfl⟩ := ih.mp hothers
      exact ⟨⟨hpasses, hall⟩, (Except.ok.inj h).symm⟩
    · rintro ⟨⟨hpasses, hall⟩, rfl⟩
      refine except_bind_ok.mpr ⟨_, (normalizeObservation_stamp hresolved).mpr ⟨hpasses, rfl⟩, ?_⟩
      exact except_bind_ok.mpr ⟨_, ih.mpr ⟨hall, rfl⟩, rfl⟩

/-- Text can be read off the image. -/
structure ReadableImage (profile : OcrProfile) (resolved : ResolvedOcrInput)
    (raw : List OcrObservation) : Prop where
  large : ¬ Decorative profile resolved
  passes : ∀ o ∈ legible raw, Passes resolved o

theorem usableResolved_some_iff (hread : ∀ r, env.recognize r = (read r.image).stamped r)
    (hresolved : resolver.resolve candidate = some resolved) {observations : List OcrObservation} :
    usableResolved env profile candidate resolved = some observations ↔
      ∃ raw, read resolved.image = .observations raw ∧ ReadableImage profile resolved raw ∧
        observations = (legible raw).map (normal candidate resolved) := by
  have himage : (ocrRequest candidate resolved).image = resolved.image := rfl
  rw [usableResolved, hread, himage]
  by_cases hlarge : Decorative profile resolved
  · rw [if_pos hlarge]
    constructor
    · intro h
      cases h
    · rintro ⟨raw, -, hreadable, -⟩
      exact absurd hlarge hreadable.large
  · rw [if_neg hlarge]
    cases hrecognition : read resolved.image with
    | timeout =>
      constructor
      · intro h
        cases h
      · rintro ⟨raw, hraw, -⟩
        cases hraw
    | failed =>
      constructor
      · intro h
        cases h
      · rintro ⟨raw, hraw, -⟩
        cases hraw
    | observations items =>
      have hstamp := @normalizeObservations_stamp resolver candidate resolved hresolved items
        observations
      have hoption : ∀ x : Except String (List OcrObservation),
          x.toOption = some observations ↔ x = .ok observations := by
        intro x
        cases x with
        | error e => exact ⟨fun h => absurd h (by simp [Except.toOption]), fun h => absurd h (by simp)⟩
        | ok a => simp [Except.toOption]
      rw [Recognition.stamped]
      dsimp only
      rw [hoption, hstamp]
      constructor
      · rintro ⟨hpasses, rfl⟩
        exact ⟨items, rfl, ⟨hlarge, hpasses⟩, rfl⟩
      · rintro ⟨raw, hraw, hreadable, rfl⟩
        obtain rfl := Recognition.observations.inj hraw
        exact ⟨hreadable.passes, rfl⟩

theorem readable_congr {resolved' : ResolvedOcrInput} (hwidth : resolved'.width = resolved.width)
    (hheight : resolved'.height = resolved.height) {raw : List OcrObservation}
    (h : ReadableImage profile resolved raw) : ReadableImage profile resolved' raw where
  large := by
    rw [Decorative, ResolvedOcrInput.pixels, hwidth, hheight]
    exact h.large
  passes := by
    intro o ho
    obtain ⟨hconfidence, hgeometry⟩ := h.passes o ho
    refine ⟨hconfidence, fun g hg corners hcorners => ?_⟩
    obtain ⟨box, hbox⟩ := hgeometry g hg corners hcorners
    exact ⟨box, (imageBox_congr rfl hwidth hheight corners).trans hbox⟩

/-- A candidate that shows an image was rendered to it. -/
theorem usable_of_shows {image : List UInt8} (hshows : Shows env image candidate) :
    ∃ resolved, env.resolve candidate = some resolved ∧ resolved.image = image ∧
      usable env profile candidate = usableResolved env profile candidate resolved := by
  obtain ⟨hdecision, himage⟩ := hshows
  obtain ⟨resolved, hresolved, himage⟩ := Option.map_eq_some_iff.mp himage
  refine ⟨resolved, hresolved, himage, ?_⟩
  rw [usable, if_pos hdecision, hresolved, Option.bind_some]

/-- Whether text can be read off an image does not depend on the candidate. -/
theorem usable_none_congr (hresolve : ∀ c, env.resolve c = resolver.resolve c)
    (hread : ∀ r, env.recognize r = (read r.image).stamped r) {image : List UInt8}
    {candidate' : OcrCandidate} (h : Shows env image candidate) (h' : Shows env image candidate')
    (hnone : usable env profile candidate = none) : usable env profile candidate' = none := by
  obtain ⟨resolved, hresolved, himage, husable⟩ := @usable_of_shows env profile candidate image h
  obtain ⟨resolved', hresolved', himage', husable'⟩ :=
    @usable_of_shows env profile candidate' image h'
  rw [hresolve] at hresolved hresolved'
  obtain ⟨hwidth, hheight, -⟩ := resolve_some hresolved
  obtain ⟨hwidth', hheight', -⟩ := resolve_some hresolved'
  rw [himage] at hwidth hheight
  rw [himage'] at hwidth' hheight'
  rw [husable']
  rw [husable] at hnone
  cases hresult : usableResolved env profile candidate' resolved' with
  | none => rfl
  | some observations =>
    obtain ⟨raw, hraw, hreadable, -⟩ := (usableResolved_some_iff hread hresolved').mp hresult
    rw [himage', ← himage] at hraw
    have hsome := (usableResolved_some_iff hread hresolved).mpr ⟨raw, hraw,
      readable_congr (hwidth.trans hwidth'.symm) (hheight.trans hheight'.symm) hreadable, rfl⟩
    rw [hnone] at hsome
    cases hsome

end Reading

/-! ## The whole run -/

/-- What the merge reads of a result. -/
def OcrCandidateResult.merged (result : OcrCandidateResult) : String × List OcrObservation :=
  (result.candidateId, result.observations)

/-- The outcomes of all turns, each with its candidate. -/
def turnOutcomes (env : OcrEnvironment) (profile : OcrProfile) :
    List (String × List OcrObservation) → List OcrCandidate → List (String × List OcrObservation)
  | _, [] => []
  | cache, candidate :: rest => (candidate.candidateId, (turnOutcome env profile cache candidate).1) ::
      turnOutcomes env profile (turnOutcome env profile cache candidate).2 rest

section Run

variable {env : OcrEnvironment} {profile : OcrProfile} {candidates : List OcrCandidate}

theorem sum_shares_nonneg {share : OcrCandidate → Int} (h : ∀ c, 0 ≤ share c)
    (rest : List OcrCandidate) : 0 ≤ (rest.map share).sum := by
  apply List.sum_nonneg
  intro x hx
  obtain ⟨c, -, rfl⟩ := List.mem_map.mp hx
  exact h c

/-- The number of whole pages among the candidates. -/
theorem filter_page_cons (candidate : OcrCandidate) (rest : List OcrCandidate) :
    (((candidate :: rest).filter fun c => c.scope = "PAGE").length : Int) =
      (if candidate.scope = "PAGE" then 1 else 0) +
        ((rest.filter fun c => c.scope = "PAGE").length : Int) := by
  by_cases hscope : candidate.scope = "PAGE"
  · rw [List.filter_cons_of_pos (by simpa using hscope), if_pos hscope, List.length_cons]
    omega
  · rw [List.filter_cons_of_neg (by simpa using hscope), if_neg hscope]
    omega

/-- While the limits leave room, no limit cuts the next turn short. -/
theorem Room.turnRoom {state : OcrState} {candidate : OcrCandidate} {rest : List OcrCandidate}
    (hlimits : WithinOcrLimits env profile candidates) (hmem : candidate ∈ candidates)
    (hroom : Room env profile state (candidate :: rest)) :
    TurnRoom env profile state candidate where
  time := hlimits.time candidate hmem
  pages := by
    intro hscope
    have hpages := hroom.pages
    rw [filter_page_cons, if_pos hscope] at hpages
    omega
  pagePixels := hlimits.pagePixels candidate hmem
  totalPixels := by
    intro r hr
    have hpixels := hroom.pixels
    have hrest := sum_shares_nonneg (@pixelShare_nonneg env) rest
    rw [List.map_cons, List.sum_cons, pixelShare, Option.mem_def.mp hr] at hpixels
    dsimp only at hpixels
    omega
  bytes := by
    intro r hr
    have hbytes := hroom.bytes
    have hrest := sum_shares_nonneg (@byteShare_nonneg env) rest
    rw [List.map_cons, List.sum_cons, byteShare, Option.mem_def.mp hr] at hbytes
    dsimp only at hbytes
    omega
  memory := hlimits.memory candidate hmem

/-- A turn leaves room for the remaining candidates. -/
theorem Room.next {state state' : OcrState} {candidate : OcrCandidate} {rest : List OcrCandidate}
    {observations : List OcrObservation} {cache : List (String × List OcrObservation)}
    (hroom : Room env profile state (candidate :: rest))
    (hturn : Turn env candidate state state' observations cache) :
    Room env profile state' rest where
  pages := by
    have hpages := hroom.pages
    have hcount := hturn.pages
    rw [filter_page_cons] at hpages
    omega
  pixels := by
    have hpixels := hroom.pixels
    have hcount := hturn.pixels
    rw [List.map_cons, List.sum_cons] at hpixels
    omega
  bytes := by
    have hbytes := hroom.bytes
    have hcount := hturn.bytes
    rw [List.map_cons, List.sum_cons] at hbytes
    omega

/-- A run within the limits gives every candidate its outcome. -/
theorem merged_foldl (hlimits : WithinOcrLimits env profile candidates) {rest : List OcrCandidate}
    (hrest : ∀ c ∈ rest, c ∈ candidates) {state : OcrState} (hroom : Room env profile state rest) :
    (rest.foldl (processCandidate env profile) state).results.map OcrCandidateResult.merged =
      state.results.map OcrCandidateResult.merged ++
        turnOutcomes env profile state.imageCache rest := by
  induction rest generalizing state with
  | nil => exact (List.append_nil _).symm
  | cons candidate rest ih =>
    obtain ⟨hmem, hrest⟩ := List.forall_mem_cons.mp hrest
    have hturn := turn_processCandidate (hroom.turnRoom hlimits hmem)
    obtain ⟨decision, reasons, warnings, hresults⟩ := hturn.results
    rw [List.foldl_cons, ih hrest (hroom.next hturn), hturn.cache, hresults, List.map_append,
      List.append_assoc, turnOutcomes]
    rfl

/-- The run of the pipeline within the limits. -/
theorem merged_processCandidates (hlimits : WithinOcrLimits env profile candidates) :
    (processCandidates env profile candidates).results.map OcrCandidateResult.merged =
      turnOutcomes env profile [] candidates := by
  refine merged_foldl hlimits (fun c hc => hc) ⟨?_, ?_, ?_⟩
  · exact (zero_add _).trans_le hlimits.pages
  · exact (zero_add _).trans_le hlimits.totalPixels
  · exact (zero_add _).trans_le hlimits.bytes

end Run

/-! ## The cache -/

/-- A pipeline whose engine reads nothing but the image, over a digest that tells
the images of the candidates apart. -/
structure ImageEngine (env : OcrEnvironment) (resolver : DefaultOcrInputResolver)
    (read : List UInt8 → Recognition) (candidates : List OcrCandidate) : Prop where
  resolve : ∀ c, env.resolve c = resolver.resolve c
  recognize : ∀ r, env.recognize r = (read r.image).stamped r
  digest : ∀ c ∈ candidates, ∀ c' ∈ candidates, ∀ r ∈ env.resolve c, ∀ r' ∈ env.resolve c',
    env.digest.hexdigest r.image = env.digest.hexdigest r'.image → r.image = r'.image

/-- The cache holds what the first candidate with the image came to. -/
def Caches (env : OcrEnvironment) (profile : OcrProfile) (candidates done : List OcrCandidate)
    (cache : List (String × List OcrObservation)) : Prop :=
  ∀ c ∈ candidates, ∀ r ∈ env.resolve c,
    cache.lookup (env.digest.hexdigest r.image) = firstUsable env profile done r.image

section Cache

variable {env : OcrEnvironment} {profile : OcrProfile} {resolver : DefaultOcrInputResolver}
  {read : List UInt8 → Recognition} {candidates done : List OcrCandidate}
  {candidate : OcrCandidate} {image : List UInt8}

theorem shows_resolved {resolved : ResolvedOcrInput}
    (hdecision : (env.decide candidate).1 = .required)
    (hresolved : env.resolve candidate = some resolved) : Shows env resolved.image candidate :=
  ⟨hdecision, by rw [hresolved, Option.map_some]⟩

theorem firstShowing_shows (h : firstShowing env candidates image = some candidate) :
    Shows env image candidate := by
  have hfound := List.find?_some h
  exact of_decide_eq_true hfound

theorem firstShowing_append (rest : List OcrCandidate) :
    firstShowing env (done ++ rest) image =
      (firstShowing env done image).or (firstShowing env rest image) :=
  List.find?_append

/-- A candidate that comes to nothing does not change what is known of an image. -/
theorem firstUsable_append_none (h : Shows env image candidate → usable env profile candidate = none) :
    firstUsable env profile (done ++ [candidate]) image = firstUsable env profile done image := by
  rw [firstUsable, firstUsable, firstShowing_append]
  cases firstShowing env done image with
  | some first => rfl
  | none =>
    rw [Option.none_or, Option.bind_none, firstShowing]
    by_cases hshows : Shows env image candidate
    · rw [List.find?_cons_of_pos (by simpa using hshows), Option.bind_some]
      exact h hshows
    · rw [List.find?_cons_of_neg (by simpa using hshows)]
      rfl

theorem firstUsable_append_some {observations : List OcrObservation} (rest : List OcrCandidate)
    (h : firstUsable env profile done image = some observations) :
    firstUsable env profile (done ++ rest) image = some observations := by
  obtain ⟨first, hfirst, husable⟩ := Option.bind_eq_some_iff.mp h
  rw [firstUsable, firstShowing_append, hfirst, Option.some_or, Option.bind_some, husable]

/-- Whatever shows an image that comes to nothing, came to nothing. -/
theorem firstUsable_none (hengine : ImageEngine env resolver read candidates)
    (hshows : Shows env image candidate) (hnone : usable env profile candidate = none) :
    firstUsable env profile done image = none := by
  rw [firstUsable]
  cases hfirst : firstShowing env done image with
  | none => rfl
  | some first =>
    exact usable_none_congr hengine.resolve hengine.recognize hshows (firstShowing_shows hfirst)
      hnone

/-- The first candidate whose image can be read. -/
theorem firstUsable_append_shows (hengine : ImageEngine env resolver read candidates)
    (hshows : Shows env image candidate) (hnone : firstUsable env profile done image = none) :
    firstUsable env profile (done ++ [candidate]) image = usable env profile candidate := by
  rw [firstUsable, firstShowing_append]
  cases hfirst : firstShowing env done image with
  | none =>
    rw [Option.none_or, firstShowing, List.find?_cons_of_pos (by simpa using hshows),
      Option.bind_some]
  | some first =>
    rw [firstUsable, hfirst] at hnone
    exact hnone.trans (usable_none_congr hengine.resolve hengine.recognize
      (firstShowing_shows hfirst) hshows hnone).symm

/-- One observation of `_project_observations`. -/
def projectObservation (candidate : OcrCandidate) (observation : OcrObservation) :
    OcrObservation :=
  { observation with
    candidateId := candidate.candidateId, sourceElementId := candidate.elementId,
    pageNumber := candidate.pageNumber,
    geometry := observation.geometry.map fun g => { g with pageNumber := candidate.pageNumber } }

theorem projectObservations_eq (observations : List OcrObservation) (candidate : OcrCandidate) :
    projectObservations observations candidate =
      observations.map (projectObservation candidate) :=
  rfl

/-- The observations of a candidate are its own already. -/
theorem projectObservations_normal (candidate : OcrCandidate) (resolved : ResolvedOcrInput)
    (raw : List OcrObservation) :
    projectObservations (raw.map (normal candidate resolved)) candidate =
      raw.map (normal candidate resolved) := by
  rw [projectObservations_eq, List.map_map]
  apply List.map_congr_left
  intro o _
  have hgeometry : (o.geometry.map (normalGeometry candidate resolved)).map
      (fun g => { g with pageNumber := candidate.pageNumber }) =
        o.geometry.map (normalGeometry candidate resolved) := by
    rw [Option.map_map]
    congr 1
    funext g
    rw [Function.comp_apply, normalGeometry]
    split
    · rfl
    · split <;> rfl
  rw [Function.comp_apply, projectObservation, normal]
  dsimp only
  rw [hgeometry]

theorem shows_image {resolved : ResolvedOcrInput} (h : Shows env image candidate)
    (hresolved : env.resolve candidate = some resolved) : resolved.image = image := by
  have himage := h.2
  rw [hresolved] at himage
  exact Option.some.inj himage

/-- A turn that learns nothing about any image. -/
theorem Caches.kept {cache : List (String × List OcrObservation)}
    (hcaches : Caches env profile candidates done cache)
    (h : ∀ image, firstUsable env profile (done ++ [candidate]) image =
      firstUsable env profile done image) :
    Caches env profile candidates (done ++ [candidate]) cache := by
  intro c hc r hr
  rw [hcaches c hc r hr, h]

/-- A turn that reads an image for the first time. -/
theorem Caches.added (hengine : ImageEngine env resolver read candidates)
    {cache : List (String × List OcrObservation)}
    (hcaches : Caches env profile candidates done cache) (hmem : candidate ∈ candidates)
    {resolved : ResolvedOcrInput} (hresolved : env.resolve candidate = some resolved)
    {observations : List OcrObservation}
    (hnone : firstUsable env profile done resolved.image = none)
    (hfirst : firstUsable env profile (done ++ [candidate]) resolved.image = some observations) :
    Caches env profile candidates (done ++ [candidate])
      (cache ++ [(env.digest.hexdigest resolved.image, observations)]) := by
  intro c hc r hr
  rw [List.lookup_append, hcaches c hc r hr]
  by_cases hsame : r.image = resolved.image
  · rw [hsame, hfirst, hnone, Option.none_or, List.lookup_cons_self]
  · have hdigest : (env.digest.hexdigest r.image == env.digest.hexdigest resolved.image) = false :=
      beq_eq_false_iff_ne.mpr fun h =>
        hsame (hengine.digest c hc candidate hmem r hr resolved hresolved h)
    have hnot : ¬ Shows env r.image candidate := fun h => hsame (shows_image h hresolved).symm
    rw [firstUsable_append_none fun h => absurd h hnot, List.lookup_cons, hdigest]
    exact Option.or_none

/-- One turn: the candidate gets what the first one with its image came to, and the
cache remembers it. -/
theorem turnOutcome_step (hengine : ImageEngine env resolver read candidates)
    (hmem : candidate ∈ candidates) {cache : List (String × List OcrObservation)}
    (hcaches : Caches env profile candidates done cache) :
    (turnOutcome env profile cache candidate).1 =
        reused env profile (done ++ [candidate]) candidate ∧
      Caches env profile candidates (done ++ [candidate])
        (turnOutcome env profile cache candidate).2 := by
  have hunshown : (∀ image, ¬ Shows env image candidate) →
      Caches env profile candidates (done ++ [candidate]) cache := fun hnot =>
    hcaches.kept fun image => firstUsable_append_none fun h => absurd h (hnot image)
  rw [turnOutcome, reused]
  by_cases hdecision : (env.decide candidate).1 = .required
  · rw [if_pos hdecision, if_pos hdecision]
    cases hresolved : env.resolve candidate with
    | none =>
      refine ⟨rfl, hunshown fun image hshows => ?_⟩
      have himage := hshows.2
      rw [hresolved] at himage
      cases himage
    | some resolved =>
      have hshows := shows_resolved hdecision hresolved
      have husable : usable env profile candidate =
          usableResolved env profile candidate resolved := by
        rw [usable, if_pos hdecision, hresolved, Option.bind_some]
      have hlookup := hcaches candidate hmem resolved hresolved
      -- a candidate that comes to nothing leaves the cache as it was
      have hnothing : usable env profile candidate = none →
          ([] : List OcrObservation) = confident profile ((firstUsable env profile
              (done ++ [candidate]) resolved.image).map fun observations =>
                projectObservations observations candidate) ∧
            Caches env profile candidates (done ++ [candidate]) cache := by
        intro hnone
        refine ⟨?_, hcaches.kept fun image => firstUsable_append_none fun _ => hnone⟩
        rw [firstUsable_append_none fun _ => hnone, firstUsable_none hengine hshows hnone]
        rfl
      dsimp only
      by_cases hlarge : Decorative profile resolved
      · rw [if_pos hlarge]
        apply hnothing
        rw [husable, usableResolved, if_pos hlarge]
      · rw [if_neg hlarge]
        cases hcached : cache.lookup (env.digest.hexdigest resolved.image) with
        | some cached =>
          rw [hcached] at hlookup
          have hfirst := firstUsable_append_some [candidate] hlookup.symm
          refine ⟨?_, hcaches.kept fun image => ?_⟩
          · rw [hfirst]
            rfl
          · by_cases hsame : Shows env image candidate
            · rw [← shows_image hsame hresolved, hfirst, hlookup]
            · exact firstUsable_append_none fun h => absurd h hsame
        | none =>
          rw [hcached] at hlookup
          dsimp only
          cases hresult : usableResolved env profile candidate resolved with
          | none => exact hnothing (husable.trans hresult)
          | some observations =>
            have hfirst := firstUsable_append_shows hengine hshows hlookup.symm
            rw [husable, hresult] at hfirst
            refine ⟨?_, hcaches.added hengine hmem hresolved hlookup.symm hfirst⟩
            obtain ⟨raw, -, -, rfl⟩ := (usableResolved_some_iff hengine.recognize
              ((hengine.resolve candidate).symm.trans hresolved)).mp hresult
            rw [hfirst, Option.map_some, projectObservations_normal]
  · rw [if_neg hdecision, if_neg hdecision]
    exact ⟨rfl, hunshown fun image hshows => hdecision hshows.1⟩

/-- Later candidates do not change what a candidate gets. -/
theorem reused_append (rest : List OcrCandidate) :
    reused env profile (done ++ [candidate] ++ rest) candidate =
      reused env profile (done ++ [candidate]) candidate := by
  rw [reused, reused]
  by_cases hdecision : (env.decide candidate).1 = .required
  · rw [if_pos hdecision, if_pos hdecision]
    cases hresolved : env.resolve candidate with
    | none => rfl
    | some resolved =>
      have hshows := shows_resolved hdecision hresolved
      have hfirst : firstShowing env [candidate] resolved.image = some candidate :=
        List.find?_cons_of_pos (by simpa using hshows)
      have hsame : firstShowing env (done ++ [candidate] ++ rest) resolved.image =
          firstShowing env (done ++ [candidate]) resolved.image := by
        rw [firstShowing_append rest, firstShowing_append [candidate], hfirst]
        cases firstShowing env done resolved.image <;> rfl
      dsimp only
      rw [firstUsable, firstUsable, hsame]
  · rw [if_neg hdecision, if_neg hdecision]

/-- Every candidate gets what the first one with its image came to. -/
theorem turnOutcomes_eq (hengine : ImageEngine env resolver read candidates)
    {rest : List OcrCandidate} (hrest : candidates = done ++ rest)
    {cache : List (String × List OcrObservation)}
    (hcaches : Caches env profile candidates done cache) :
    turnOutcomes env profile cache rest =
      rest.map fun c => (c.candidateId, reused env profile candidates c) := by
  induction rest generalizing done cache with
  | nil => rfl
  | cons candidate rest ih =>
    have hmem : candidate ∈ candidates := by
      rw [hrest]
      exact List.mem_append_right done List.mem_cons_self
    have hsplit : candidates = done ++ [candidate] ++ rest := by
      rw [hrest, List.append_assoc, List.singleton_append]
    obtain ⟨hobservations, hnext⟩ := turnOutcome_step hengine hmem hcaches
    rw [turnOutcomes, List.map_cons, ih hsplit hnext, hobservations, ← reused_append rest, ← hsplit]

theorem turnOutcomes_candidates (hengine : ImageEngine env resolver read candidates) :
    turnOutcomes env profile [] candidates =
      candidates.map fun c => (c.candidateId, reused env profile candidates c) := by
  refine @turnOutcomes_eq env profile resolver read candidates [] hengine candidates rfl [] ?_
  intro c _ r _
  rfl

end Cache

/-! ## Agreement -/

/-- The boxes of an observation lie in the first region where they lie in the
candidate's own. -/
def SamePlaces (first candidate : OcrCandidate) (resolved : ResolvedOcrInput)
    (observation : OcrObservation) : Prop :=
  ∀ g ∈ observation.geometry, ∀ corners ∈ g.box, ∀ box, imageBox g corners resolved = .ok box →
    placed first.geometry box = placed candidate.geometry box

/-- What is read off an image lies in the region where the image stood first where it
lies in every region where it stands again. -/
def RegionsAgree (env : OcrEnvironment) (profile : OcrProfile) (read : List UInt8 → Recognition)
    (candidates : List OcrCandidate) : Prop :=
  ∀ candidate ∈ candidates, (env.decide candidate).1 = .required →
    ∀ resolved ∈ env.resolve candidate,
      ∀ first ∈ firstShowing env candidates resolved.image,
        ∀ raw, read resolved.image = .observations raw → ReadableImage profile resolved raw →
          ∀ o ∈ legible raw, profile.hardConfidenceFloor ≤ o.confidence →
            SamePlaces first candidate resolved o

/-- The observations of every candidate and the merged elements are those of separate
recognitions. -/
structure ReuseAgrees (env : OcrEnvironment) (profile : OcrProfile) (document : ParsedDocument)
    (result : OcrPipelineResult) : Prop where
  observations : result.candidateResults.map OcrCandidateResult.merged =
    document.ocrCandidates.map fun c => (c.candidateId, separately env profile c)
  elements : result.document.elements = separateElements env profile document

section Agreement

variable {env : OcrEnvironment} {profile : OcrProfile} {resolver : DefaultOcrInputResolver}
  {read : List UInt8 → Recognition} {candidates : List OcrCandidate}
  {candidate first : OcrCandidate} {resolved resolvedFirst : ResolvedOcrInput}

/-- Observations are filtered by confidence before or after they are made those of a
candidate. -/
theorem confident_map {f : OcrObservation → OcrObservation}
    (hf : ∀ o, (f o).confidence = o.confidence) (items : List OcrObservation) :
    confident profile (some (items.map f)) =
      (items.filter fun o => profile.hardConfidenceFloor ≤ o.confidence).map f := by
  rw [confident, Option.getD_some, List.filter_map]
  congr 1
  apply List.filter_congr
  intro o _
  rw [Function.comp_apply, hf]

/-- The observation of the first candidate is that of the candidate exactly when its
boxes lie at the same places. -/
theorem project_normal_iff {observation : OcrObservation} (hpasses : Passes resolved observation)
    (hwidth : resolvedFirst.width = resolved.width)
    (hheight : resolvedFirst.height = resolved.height) :
    projectObservation candidate (normal first resolvedFirst observation) =
        normal candidate resolved observation ↔
      SamePlaces first candidate resolved observation := by
  have hsame : ∀ g corners, imageBox g corners resolvedFirst = imageBox g corners resolved :=
    fun g corners => imageBox_congr rfl hwidth hheight corners
  rw [projectObservation, OcrObservation.mk.injEq]
  simp only [normal, true_and, and_true]
  rw [SamePlaces]
  cases hgeometry : observation.geometry with
  | none =>
    refine ⟨fun _ g hg => absurd hg (Option.not_mem_none g), fun _ => rfl⟩
  | some g =>
    rw [Option.map_some, Option.map_some, Option.map_some, Option.some.injEq, normalGeometry,
      normalGeometry]
    cases hbox : g.box with
    | none =>
      refine ⟨fun _ g' hg corners hcorners => ?_, fun _ => rfl⟩
      obtain rfl := Option.mem_some_iff.mp hg
      rw [hbox] at hcorners
      exact absurd hcorners (Option.not_mem_none corners)
    | some corners =>
      obtain ⟨box, hok⟩ := hpasses.geometry g hgeometry corners hbox
      dsimp only
      rw [hsame, hok]
      dsimp only
      have hplace : ({ (placed first.geometry box).onPage first.pageNumber "normalized-0-1" with
          pageNumber := candidate.pageNumber } : SourceGeometry) =
            (placed first.geometry box).onPage candidate.pageNumber "normalized-0-1" := rfl
      rw [hplace, onPage_inj]
      constructor
      · intro h g' hg corners' hcorners box' hbox'
        obtain rfl := Option.mem_some_iff.mp hg
        obtain rfl := Option.some.inj (hbox.symm.trans hcorners)
        obtain rfl := Except.ok.inj (hok.symm.trans hbox')
        exact h
      · intro h
        exact h g rfl corners hbox box hok

/-- A candidate gets what it comes to by itself exactly when the places agree. -/
theorem reused_eq_iff (hengine : ImageEngine env resolver read candidates)
    (hdecision : (env.decide candidate).1 = .required)
    (hresolved : env.resolve candidate = some resolved)
    (hfirst : firstShowing env candidates resolved.image = some first) :
    reused env profile candidates candidate = separately env profile candidate ↔
      ∀ raw, read resolved.image = .observations raw → ReadableImage profile resolved raw →
        ∀ o ∈ legible raw, profile.hardConfidenceFloor ≤ o.confidence →
          SamePlaces first candidate resolved o := by
  have hshows := shows_resolved hdecision hresolved
  have hfirstShows := firstShowing_shows hfirst
  obtain ⟨resolvedFirst, hresolvedFirst, himage, husableFirst⟩ :=
    @usable_of_shows env profile first resolved.image hfirstShows
  have husable : usable env profile candidate = usableResolved env profile candidate resolved := by
    rw [usable, if_pos hdecision, hresolved, Option.bind_some]
  have hresolver := (hengine.resolve candidate).symm.trans hresolved
  have hresolverFirst := (hengine.resolve first).symm.trans hresolvedFirst
  obtain ⟨hwidth, hheight, -⟩ := resolve_some hresolver
  obtain ⟨hwidthFirst, hheightFirst, -⟩ := resolve_some hresolverFirst
  rw [himage] at hwidthFirst hheightFirst
  rw [reused, if_pos hdecision, hresolved, separately]
  dsimp only
  rw [firstUsable, hfirst, Option.bind_some]
  cases hresult : usable env profile candidate with
  | none =>
    rw [usable_none_congr hengine.resolve hengine.recognize hshows hfirstShows hresult]
    refine ⟨fun _ raw hraw hreadable => ?_, fun _ => rfl⟩
    have hsome := (usableResolved_some_iff hengine.recognize hresolver).mpr
      ⟨raw, hraw, hreadable, rfl⟩
    rw [← husable, hresult] at hsome
    cases hsome
  | some observations =>
    obtain ⟨raw, hraw, hreadable, rfl⟩ :=
      (usableResolved_some_iff hengine.recognize hresolver).mp (husable.symm.trans hresult)
    have hreadableFirst : ReadableImage profile resolvedFirst raw :=
      readable_congr (hwidthFirst.trans hwidth.symm) (hheightFirst.trans hheight.symm) hreadable
    have hsomeFirst : usable env profile first =
        some ((legible raw).map (normal first resolvedFirst)) := by
      rw [husableFirst]
      exact (usableResolved_some_iff hengine.recognize hresolverFirst).mpr
        ⟨raw, himage ▸ hraw, hreadableFirst, rfl⟩
    rw [hsomeFirst, Option.map_some, projectObservations_eq, List.map_map,
      @confident_map profile (projectObservation candidate ∘ normal first resolvedFirst)
        (fun o => rfl), @confident_map profile (normal candidate resolved) (fun o => rfl),
      List.map_inj_left]
    have hpointwise : ∀ o ∈ legible raw, _ := fun o ho =>
      @project_normal_iff candidate first resolved resolvedFirst o (hreadable.passes o ho)
        (hwidthFirst.trans hwidth.symm) (hheightFirst.trans hheight.symm)
    constructor
    · intro h raw' hraw' _ o ho hconfidence
      obtain rfl := Recognition.observations.inj (hraw.symm.trans hraw')
      exact (hpointwise o ho).mp
        (h o (List.mem_filter.mpr ⟨ho, decide_eq_true hconfidence⟩))
    · intro h o ho
      obtain ⟨ho, hconfidence⟩ := List.mem_filter.mp ho
      exact (hpointwise o ho).mpr (h raw hraw hreadable o ho (of_decide_eq_true hconfidence))

theorem reused_eq_separately_iff (hengine : ImageEngine env resolver read candidates) :
    (∀ c ∈ candidates, reused env profile candidates c = separately env profile c) ↔
      RegionsAgree env profile read candidates := by
  constructor
  · intro h c hc hdecision resolved hresolved first hfirst
    exact (reused_eq_iff hengine hdecision hresolved hfirst).mp (h c hc)
  · intro h c hc
    by_cases hdecision : (env.decide c).1 = .required
    · cases hresolved : env.resolve c with
      | none =>
        rw [reused, if_pos hdecision, hresolved, separately, usable, if_pos hdecision, hresolved]
        rfl
      | some resolved =>
        have hshows := shows_resolved hdecision hresolved
        have hsome : (firstShowing env candidates resolved.image).isSome :=
          List.find?_isSome.mpr ⟨c, hc, decide_eq_true hshows⟩
        obtain ⟨first, hfirst⟩ := Option.isSome_iff_exists.mp hsome
        exact (reused_eq_iff hengine hdecision hresolved hfirst).mpr
          (h c hc hdecision resolved hresolved first hfirst)
    · rw [reused, if_neg hdecision, separately, usable, if_neg hdecision]
      rfl

/-- A result with nothing but what the merge reads. -/
def bareResult (merged : String × List OcrObservation) : OcrCandidateResult :=
  ⟨merged.1, .required, [], merged.2, []⟩

/-- The merge reads nothing else of the results. -/
theorem reconcile_bare (document : ParsedDocument) (results : List OcrCandidateResult) :
    reconcile env profile document ((results.map OcrCandidateResult.merged).map bareResult) =
      reconcile env profile document results := by
  rw [reconcile, reconcile, List.map_map, List.foldl_map]
  rfl

/-- Reusing recognitions agrees with separate ones exactly when the regions of the
images that stand more than once agree. -/
theorem reuse_agrees_iff (env : OcrEnvironment) (resolver : DefaultOcrInputResolver)
    (read : List UInt8 → Recognition) (sourceSha256 sourceFormat : String)
    (document : ParsedDocument) (mode : OcrMode) (profile : OcrProfile) (result : OcrPipelineResult)
    (hengine : ImageEngine env resolver read document.ocrCandidates)
    (hlimits : WithinOcrLimits env profile document.ocrCandidates)
    (h : env.process sourceSha256 sourceFormat document mode profile = .ok result) :
    ReuseAgrees env profile document result ↔
      RegionsAgree env profile read document.ocrCandidates := by
  obtain ⟨-, hresults, haccepted, helements⟩ := process_ok h
  have hmerged : result.candidateResults.map OcrCandidateResult.merged =
      document.ocrCandidates.map fun c =>
        (c.candidateId, reused env profile document.ocrCandidates c) := by
    rw [hresults, merged_processCandidates hlimits, turnOutcomes_candidates hengine]
  rw [← reused_eq_separately_iff hengine]
  constructor
  · intro hagrees c hc
    have hobservations := hagrees.observations
    rw [hmerged, List.map_inj_left] at hobservations
    exact (Prod.mk.inj (hobservations c hc)).2
  · intro hsame
    have hobservations : result.candidateResults.map OcrCandidateResult.merged =
        document.ocrCandidates.map fun c => (c.candidateId, separately env profile c) := by
      rw [hmerged]
      apply List.map_congr_left
      intro c hc
      rw [hsame c hc]
    refine ⟨hobservations, ?_⟩
    rw [helements, haccepted, ← hresults, separateElements, ← reconcile_bare,
      hobservations, List.map_map]
    rfl

end Agreement

end Reuse

/-! ## An image that stands twice -/

/-- The left or the right half of the page. -/
def halfPage (left : Bool) : SourceGeometry :=
  Box.onPage (if left then ⟨0, 0, 1 / 2, 1⟩ else ⟨1 / 2, 0, 1, 1⟩) (some 1) "normalized-0-1"

/-- An image in one half of the page. -/
def halfCandidate (id : String) (left : Bool) : OcrCandidate :=
  ⟨id, "EMBEDDED_IMAGE", some 1, "embedded_image", none, some (halfPage left), []⟩

/-- Every candidate shows the same image of a hundred by a hundred pixels. -/
def sameImage : DefaultOcrInputResolver := ⟨fun _ => some [0], fun _ => (100, 100)⟩

/-- A word in the middle of the image. -/
def middleWord : OcrObservation :=
  ⟨"word", 1, 0, "", none, none, some (Box.onPage ⟨1 / 2, 1 / 2, 1 / 2, 1 / 2⟩ none
    "normalized-0-1"), sampleOcrIdentity, none⟩

def readMiddle (_ : List UInt8) : Recognition := .observations [middleWord]

/-- A pipeline that reads the same word off every image. -/
def sameImagePipeline : OcrEnvironment :=
  asciiOcr sameImage.resolve fun r => (readMiddle r.image).stamped r

/-- The image on the left of the page, and once more on one side. -/
def twiceDocument (left : Bool) : ParsedDocument :=
  sampleParsed [] [halfCandidate "first" true, halfCandidate "second" left]

theorem sameImage_resolved {candidate : OcrCandidate} {resolved : ResolvedOcrInput}
    (h : resolved ∈ sameImagePipeline.resolve candidate) :
    resolved = ⟨candidate.candidateId, [0], 100, 100, candidate.pageNumber, candidate.elementId,
      candidate.geometry⟩ :=
  (Option.some.inj h).symm

theorem imageEngine_twice (left : Bool) :
    ImageEngine sameImagePipeline sameImage readMiddle (twiceDocument left).ocrCandidates where
  resolve := fun _ => rfl
  recognize := fun _ => rfl
  digest := by
    intro c _ c' _ r hr r' hr' _
    rw [sameImage_resolved hr, sameImage_resolved hr']

theorem withinOcrLimits_twice (left : Bool) :
    WithinOcrLimits sameImagePipeline {} (twiceDocument left).ocrCandidates where
  time := by
    intro c _
    show (0 : Rat) < 900
    norm_num
  pages := by cases left <;> decide
  pagePixels := by
    intro c _ r hr
    rw [sameImage_resolved hr]
    show (100 : Int) * 100 ≤ 24000000
    decide
  totalPixels := by cases left <;> decide +kernel
  bytes := by cases left <;> decide +kernel
  memory := by
    intro c _ r hr
    rw [sameImage_resolved hr]
    show (100 : Int) * 100 * 4 ≤ 1536 * 1024 * 1024
    decide

theorem process_twice (left : Bool) :
    ∃ result, sameImagePipeline.process "sha" "PDF" (twiceDocument left) .ifNeeded {} =
      .ok result := by
  have hvalid : ∀ b : Bool, validatePipelineInputs "sha" "PDF" (twiceDocument b) {}
      sampleOcrIdentity = .ok () := by
    decide +kernel
  exact ⟨_, by rw [OcrEnvironment.process]; exact except_bind_ok.mpr ⟨(), hvalid left, rfl⟩⟩

/-- On the same side of the page the reuse agrees. -/
theorem reuse_agrees_sample :
    ∃ result, sameImagePipeline.process "sha" "PDF" (twiceDocument true) .ifNeeded {} =
        .ok result ∧
      ReuseAgrees sameImagePipeline {} (twiceDocument true) result := by
  obtain ⟨result, hresult⟩ := process_twice true
  refine ⟨result, hresult, (reuse_agrees_iff sameImagePipeline sameImage readMiddle "sha" "PDF"
    (twiceDocument true) .ifNeeded {} result (imageEngine_twice true) (withinOcrLimits_twice true)
    hresult).mpr ?_⟩
  have hregion : ∀ c ∈ (twiceDocument true).ocrCandidates, c.geometry = some (halfPage true) := by
    intro c hc
    rcases List.mem_cons.mp hc with rfl | hc
    · rfl
    · obtain rfl := List.mem_singleton.mp hc
      rfl
  intro c hc _ resolved _ first hfirst raw _ _ o _ _ g _ corners _ box _
  rw [hregion c hc, hregion first (List.mem_of_find?_eq_some hfirst)]

/-- On the other side the word is placed where the image stood first. -/
theorem not_reuseAgrees_twice :
    ∃ result, sameImagePipeline.process "sha" "PDF" (twiceDocument false) .ifNeeded {} =
        .ok result ∧
      ¬ ReuseAgrees sameImagePipeline {} (twiceDocument false) result := by
  obtain ⟨result, hresult⟩ := process_twice false
  refine ⟨result, hresult, fun hagrees => ?_⟩
  obtain ⟨-, hresults, -⟩ := process_ok hresult
  have hobservations := hagrees.observations
  rw [hresults] at hobservations
  revert hobservations
  decide +kernel

end AstraIndexator
