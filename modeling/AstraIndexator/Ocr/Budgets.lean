import AstraIndexator.Foundation.Metering
import AstraIndexator.Ocr.Reuse

/-!
# The budgets of a job

An image is tested against the pixels, pages and bytes charged so far, handed to the
engine, and charged when its recognition is usable.  A recognition that fails costs
nothing, so what is handed over stays within the budgets only as far as nothing fails.
-/

namespace AstraIndexator

open Transaction

/-- A candidate with the image it is rendered to. -/
structure RenderedImage where
  candidate : OcrCandidate
  resolved : ResolvedOcrInput

/-! ## The budgets -/

inductive OcrBudget
  | pixels | pages | bytes

namespace OcrBudget

/-- What an image takes of the budget. -/
def cost : OcrBudget → RenderedImage → Int
  | pixels, image => image.resolved.pixels
  | pages, image => if image.candidate.scope = "PAGE" then 1 else 0
  | bytes, image => image.resolved.image.length

def limit (profile : OcrProfile) : OcrBudget → Int
  | pixels => profile.maxTotalPixelsPerJob
  | pages => profile.maxPagesPerJob
  | bytes => profile.maxDerivedBytes

/-- What has been charged. -/
def spent (state : OcrState) : OcrBudget → Int
  | pixels => state.pixels
  | pages => state.pages
  | bytes => state.derivedBytes

end OcrBudget

/-- The settings a profile is made from. -/
structure OcrSettings where
  profile : OcrProfile := {}
  maxConcurrentPagesPerWorker : Int := 1
  timeoutPerCandidateSeconds : Rat := 60
  renderDpi : Int := 200

/-- `validate_ocr` -/
def OcrSettings.validateOcr (settings : OcrSettings) : Except String Unit := do
  if ¬ (0 ≤ settings.profile.hardConfidenceFloor ∧
      settings.profile.hardConfidenceFloor ≤ settings.profile.minConfidence ∧
      settings.profile.minConfidence ≤ 1) then
    throw "OCR confidence thresholds must satisfy 0 <= hard floor <= min <= 1"
  if ∃ value ∈ [settings.profile.minImageWidth, settings.profile.minImageHeight,
      settings.profile.minImagePixels, settings.profile.maxPagesPerJob,
      settings.profile.maxPixelsPerPage, settings.profile.maxTotalPixelsPerJob,
      settings.profile.maxDerivedBytes, settings.profile.memorySoftLimitBytes,
      settings.profile.memoryHardLimitBytes, settings.maxConcurrentPagesPerWorker,
      settings.renderDpi], value ≤ 0 then
    throw "OCR resource limits must be positive"
  if settings.profile.memoryHardLimitBytes < settings.profile.memorySoftLimitBytes then
    throw "OCR hard memory limit must be >= soft limit"
  if settings.timeoutPerCandidateSeconds ≤ 0 ∨ settings.profile.timeoutPerJobSeconds ≤ 0 then
    throw "OCR timeouts must be positive"
  if settings.profile.timeoutPerJobSeconds < settings.timeoutPerCandidateSeconds then
    throw "OCR job timeout must be >= candidate timeout"
  if settings.profile.languages = [] then
    throw "at least one OCR language must be configured"

/-- No budget is negative, and neither are the sizes an image needs. -/
structure OcrProfile.LimitsNonneg (profile : OcrProfile) : Prop where
  width : 0 ≤ profile.minImageWidth
  height : 0 ≤ profile.minImageHeight
  budgets : ∀ budget : OcrBudget, 0 ≤ budget.limit profile

theorem validateOcr_limitsNonneg {settings : OcrSettings} (h : settings.validateOcr = .ok ()) :
    settings.profile.LimitsNonneg := by
  rw [OcrSettings.validateOcr] at h
  obtain ⟨-, h⟩ := except_guard_ok.mp h
  obtain ⟨hpositive, -⟩ := except_guard_ok.mp h
  have hpos : ∀ value : Int, value ∈ _ → ¬ value ≤ 0 :=
    fun value hvalue hle => hpositive ⟨value, hvalue, hle⟩
  refine ⟨?_, ?_, fun budget => ?_⟩
  · have hwidth := hpos settings.profile.minImageWidth (by simp)
    omega
  · have hheight := hpos settings.profile.minImageHeight (by simp)
    omega
  · have hlimit := hpos (budget.limit settings.profile) (by cases budget <;> simp [OcrBudget.limit])
    omega

/-! ## What a turn does with an image -/

section Turn

variable (env : OcrEnvironment) (profile : OcrProfile)

/-- The image passes every test of the loop. -/
structure Admitted (state : OcrState) (image : RenderedImage) : Prop where
  required : (env.decide image.candidate).1 = .required
  time : env.elapsed image.candidate < profile.timeoutPerJobSeconds
  page : ¬ (image.candidate.scope = "PAGE" ∧ profile.maxPagesPerJob ≤ state.pages)
  large : ¬ Decorative profile image.resolved
  pixels : ¬ (profile.maxPixelsPerPage < image.resolved.pixels ∨
    profile.maxTotalPixelsPerJob < state.pixels + image.resolved.pixels)
  bytes : ¬ profile.maxDerivedBytes < state.derivedBytes + image.resolved.image.length
  memory : ¬ profile.memoryHardLimitBytes < image.resolved.pixels * 4

instance (state : OcrState) (image : RenderedImage) :
    Decidable (Admitted env profile state image) :=
  decidable_of_iff ((env.decide image.candidate).1 = .required ∧
      env.elapsed image.candidate < profile.timeoutPerJobSeconds ∧
      ¬ (image.candidate.scope = "PAGE" ∧ profile.maxPagesPerJob ≤ state.pages) ∧
      ¬ Decorative profile image.resolved ∧
      ¬ (profile.maxPixelsPerPage < image.resolved.pixels ∨
        profile.maxTotalPixelsPerJob < state.pixels + image.resolved.pixels) ∧
      ¬ profile.maxDerivedBytes < state.derivedBytes + image.resolved.image.length ∧
      ¬ profile.memoryHardLimitBytes < image.resolved.pixels * 4)
    ⟨fun ⟨required, time, page, large, pixels, bytes, memory⟩ =>
      ⟨required, time, page, large, pixels, bytes, memory⟩,
    fun ⟨required, time, page, large, pixels, bytes, memory⟩ =>
      ⟨required, time, page, large, pixels, bytes, memory⟩⟩

/-- What becomes of an admitted image: it was recognised before, or it is handed to the engine
and its recognition is usable or fails. -/
def recognitionEvent (cache : List (String × List OcrObservation)) (image : RenderedImage) :
    Metered RenderedImage :=
  match cache.lookup (env.digest.hexdigest image.resolved.image) with
  | some _ => .reused image
  | none =>
    match env.recognize (ocrRequest image.candidate image.resolved) with
    | .timeout => .lost image
    | .failed => .lost image
    | .observations raw =>
      match normalizeObservations raw image.resolved with
      | .error _ => .lost image
      | .ok _ => .charged image

/-- What a turn does with the image of its candidate. -/
def turnEvents (state : OcrState) (candidate : OcrCandidate) : List (Metered RenderedImage) :=
  match env.resolve candidate with
  | none => []
  | some resolved =>
    if Admitted env profile state ⟨candidate, resolved⟩ then
      [recognitionEvent env state.imageCache ⟨candidate, resolved⟩]
    else []

/-- What the loop does with the images. -/
def runEvents : OcrState → List OcrCandidate → List (Metered RenderedImage)
  | _, [] => []
  | state, candidate :: candidates =>
    turnEvents env profile state candidate ++
      runEvents (processCandidate env profile state candidate) candidates

/-- The images handed to the engine. -/
def handedImages (candidates : List OcrCandidate) : List RenderedImage :=
  (runEvents env profile {} candidates).filterMap Metered.worked

end Turn

/-! ## One turn -/

section Turn

variable {env : OcrEnvironment} {profile : OcrProfile} {state : OcrState}
  {candidate : OcrCandidate} {resolved : ResolvedOcrInput}

theorem recognitionEvent_item (cache : List (String × List OcrObservation))
    (image : RenderedImage) : (recognitionEvent env cache image).item = image := by
  rw [recognitionEvent]
  cases cache.lookup (env.digest.hexdigest image.resolved.image) with
  | some _ => rfl
  | none =>
    cases env.recognize (ocrRequest image.candidate image.resolved) with
    | timeout => rfl
    | failed => rfl
    | observations raw =>
      dsimp only
      cases normalizeObservations raw image.resolved with
      | error e => rfl
      | ok observations => rfl

/-- An image that was not recognised before is handed to the engine. -/
theorem recognitionEvent_worked {cache : List (String × List OcrObservation)}
    {image : RenderedImage}
    (h : cache.lookup (env.digest.hexdigest image.resolved.image) = none) :
    (recognitionEvent env cache image).worked = some image := by
  rw [recognitionEvent, h]
  dsimp only
  cases env.recognize (ocrRequest image.candidate image.resolved) with
  | timeout => rfl
  | failed => rfl
  | observations raw =>
    dsimp only
    cases normalizeObservations raw image.resolved with
    | error e => rfl
    | ok observations => rfl

/-- The engine is asked only about an image that was not recognised before. -/
theorem recognizeResolved_congr {recognize : OcrRequest → Recognition}
    {decision : OcrDecision × List String}
    (h : state.imageCache.lookup (env.digest.hexdigest resolved.image) = none →
      recognize (ocrRequest candidate resolved) = env.recognize (ocrRequest candidate resolved)) :
    recognizeResolved { env with recognize := recognize } profile state candidate resolved decision =
      recognizeResolved env profile state candidate resolved decision := by
  rw [recognizeResolved, recognizeResolved]
  dsimp only
  cases hlookup : state.imageCache.lookup (env.digest.hexdigest resolved.image) with
  | some cached => rfl
  | none =>
    dsimp only
    rw [h hlookup]

/-- A usable recognition is charged to every budget. -/
theorem retainObservations_spent (decision : OcrDecision) (reasons : List String)
    (observations : List OcrObservation) (budget : OcrBudget) :
    budget.spent (retainObservations profile state candidate resolved decision reasons observations) =
      budget.spent state + budget.cost ⟨candidate, resolved⟩ := by
  rw [retainObservations]
  cases budget with
  | pixels => split <;> rfl
  | bytes => split <;> rfl
  | pages =>
    by_cases hpage : candidate.scope = "PAGE"
    · rw [if_pos hpage, OcrBudget.cost, if_pos hpage]
      split <;> rfl
    · rw [if_neg hpage, OcrBudget.cost, if_neg hpage, add_zero]
      split <;> rfl

/-- An admitted image is charged unless its recognition fails. -/
theorem recognizeResolved_spent (decision : OcrDecision × List String) (budget : OcrBudget) :
    budget.spent (recognizeResolved env profile state candidate resolved decision) =
      budget.spent state + Metered.bill budget.cost
        [recognitionEvent env state.imageCache ⟨candidate, resolved⟩] := by
  have hfail : ∀ warning, budget.spent (state.fail candidate decision.2 warning) =
      budget.spent state + 0 := by
    intro warning
    rw [add_zero]
    cases budget <;> rfl
  have hcharge : ∀ (before : OcrState) (reasons : List String)
      (observations : List OcrObservation), budget.spent before = budget.spent state →
      budget.spent (retainObservations profile before candidate resolved decision.1 reasons
        observations) = budget.spent state + (budget.cost ⟨candidate, resolved⟩) := by
    intro before reasons observations hbefore
    rw [retainObservations_spent, hbefore]
  rw [Metered.bill_singleton, recognizeResolved, recognitionEvent]
  dsimp only
  cases state.imageCache.lookup (env.digest.hexdigest resolved.image) with
  | some cached => exact hcharge state _ _ rfl
  | none =>
    dsimp only
    cases env.recognize (ocrRequest candidate resolved) with
    | timeout => exact hfail _
    | failed => exact hfail _
    | observations raw =>
      dsimp only
      cases normalizeObservations raw resolved with
      | error e => exact hfail _
      | ok observations =>
        refine hcharge _ _ _ ?_
        cases budget <;> rfl

/-- The turn takes nothing of the budgets, and is the same whatever the engine does. -/
def Refuses (env : OcrEnvironment) (profile : OcrProfile) (state : OcrState)
    (candidate : OcrCandidate) : Prop :=
  ∃ refused : OcrState, (∀ budget : OcrBudget, budget.spent refused = budget.spent state) ∧
    ∀ recognize, processCandidate { env with recognize := recognize } profile state candidate =
      refused

theorem refuses_of_eq (refused : OcrState) (hpages : refused.pages = state.pages)
    (hpixels : refused.pixels = state.pixels) (hbytes : refused.derivedBytes = state.derivedBytes)
    (h : ∀ recognize, processCandidate { env with recognize := recognize } profile state candidate =
      refused) : Refuses env profile state candidate := by
  refine ⟨refused, fun budget => ?_, h⟩
  cases budget with
  | pixels => exact hpixels
  | pages => exact hpages
  | bytes => exact hbytes

/-- The tests that come before the rendering. -/
structure Requested (env : OcrEnvironment) (profile : OcrProfile) (state : OcrState)
    (candidate : OcrCandidate) : Prop where
  required : (env.decide candidate).1 = .required
  time : ¬ profile.timeoutPerJobSeconds ≤ env.elapsed candidate
  page : ¬ (candidate.scope = "PAGE" ∧ profile.maxPagesPerJob ≤ state.pages)

/-- A candidate that is not rendered for good reasons takes nothing. -/
theorem requested_or_refuses (env : OcrEnvironment) (profile : OcrProfile) (state : OcrState)
    (candidate : OcrCandidate) :
    Requested env profile state candidate ∨
      (¬ Requested env profile state candidate ∧ Refuses env profile state candidate) := by
  by_cases hrequired : (env.decide candidate).1 = .required
  case neg =>
    refine .inr ⟨fun h => hrequired h.required, refuses_of_eq (state.addResult
      ⟨candidate.candidateId, (env.decide candidate).1, (env.decide candidate).2, [], []⟩)
      rfl rfl rfl fun recognize => ?_⟩
    rw [processCandidate]
    exact if_pos hrequired
  by_cases htime : profile.timeoutPerJobSeconds ≤ env.elapsed candidate
  case pos =>
    refine .inr ⟨fun h => h.time htime, refuses_of_eq
      ((state.reject candidate "OCR_JOB_TIMEOUT").warn "OCR_JOB_TIMEOUT")
      rfl rfl rfl fun recognize => ?_⟩
    rw [processCandidate, if_neg (not_not.mpr hrequired)]
    exact if_pos htime
  by_cases hpage : candidate.scope = "PAGE" ∧ profile.maxPagesPerJob ≤ state.pages
  case pos =>
    refine .inr ⟨fun h => h.page hpage, refuses_of_eq
      (state.reject candidate "OCR_PAGE_LIMIT") rfl rfl rfl fun recognize => ?_⟩
    rw [processCandidate, if_neg (not_not.mpr hrequired), if_neg htime]
    exact if_pos hpage
  exact .inl ⟨hrequired, htime, hpage⟩

theorem processCandidate_requested (h : Requested env profile state candidate)
    (recognize : OcrRequest → Recognition) :
    processCandidate { env with recognize := recognize } profile state candidate =
      match env.resolve candidate with
      | none => state.fail candidate (env.decide candidate).2 "OCR_RENDER_FAILED"
      | some resolved => processResolved { env with recognize := recognize } profile state candidate
          resolved (env.decide candidate) := by
  rw [processCandidate, if_neg (not_not.mpr h.required), if_neg h.time]
  exact if_neg h.page

/-- A turn recognises the image of its candidate if it is admitted, and else it takes nothing. -/
theorem processCandidate_cases (env : OcrEnvironment) (profile : OcrProfile) (state : OcrState)
    (candidate : OcrCandidate) :
    (∃ resolved, env.resolve candidate = some resolved ∧
      Admitted env profile state ⟨candidate, resolved⟩ ∧
      ∀ recognize, processCandidate { env with recognize := recognize } profile state candidate =
        recognizeResolved { env with recognize := recognize } profile
          (if profile.memorySoftLimitBytes < resolved.pixels * 4 then
            state.warn "OCR_MEMORY_SOFT_LIMIT" else state) candidate resolved
          (env.decide candidate)) ∨
    (turnEvents env profile state candidate = [] ∧ Refuses env profile state candidate) := by
  rcases requested_or_refuses env profile state candidate with hrequested | ⟨hnot, hrefuses⟩
  · have hturn := processCandidate_requested hrequested
    rw [turnEvents]
    cases hresolved : env.resolve candidate with
    | none =>
      rw [hresolved] at hturn
      exact .inr ⟨rfl, refuses_of_eq
        (state.fail candidate (env.decide candidate).2 "OCR_RENDER_FAILED") rfl rfl rfl hturn⟩
    | some resolved =>
      rw [hresolved] at hturn
      dsimp only at hturn ⊢
      by_cases hadmitted : Admitted env profile state ⟨candidate, resolved⟩
      · refine .inl ⟨resolved, rfl, hadmitted, fun recognize => ?_⟩
        rw [hturn, processResolved_eq, if_neg hadmitted.large, if_neg hadmitted.pixels,
          if_neg hadmitted.bytes, if_neg hadmitted.memory]
      · refine .inr ⟨if_neg hadmitted, ?_⟩
        by_cases hlarge : Decorative profile resolved
        case pos =>
          refine refuses_of_eq (state.addResult
            ⟨candidate.candidateId, .notRequired, ["DECORATIVE_IMAGE_TOO_SMALL"], [], []⟩)
            rfl rfl rfl fun recognize => ?_
          rw [hturn, processResolved_eq, if_pos hlarge]
        by_cases hpixels : profile.maxPixelsPerPage < resolved.pixels ∨
            profile.maxTotalPixelsPerJob < state.pixels + resolved.pixels
        case pos =>
          refine refuses_of_eq (state.reject candidate "OCR_PIXEL_LIMIT")
            rfl rfl rfl fun recognize => ?_
          rw [hturn, processResolved_eq, if_neg hlarge, if_pos hpixels]
        by_cases hbytes : profile.maxDerivedBytes < state.derivedBytes + resolved.image.length
        case pos =>
          refine refuses_of_eq (state.reject candidate "OCR_DERIVED_BYTES_LIMIT")
            rfl rfl rfl fun recognize => ?_
          rw [hturn, processResolved_eq, if_neg hlarge, if_neg hpixels, if_pos hbytes]
        by_cases hmemory : profile.memoryHardLimitBytes < resolved.pixels * 4
        case pos =>
          refine refuses_of_eq (state.reject candidate "OCR_MEMORY_LIMIT")
            rfl rfl rfl fun recognize => ?_
          rw [hturn, processResolved_eq, if_neg hlarge, if_neg hpixels, if_neg hbytes,
            if_pos hmemory]
        exact absurd ⟨hrequested.required, Rat.not_le.mp hrequested.time, hrequested.page, hlarge,
          hpixels, hbytes, hmemory⟩ hadmitted
  · refine .inr ⟨?_, hrefuses⟩
    rw [turnEvents]
    cases env.resolve candidate with
    | none => rfl
    | some resolved =>
      exact if_neg fun h => hnot ⟨h.required, Rat.not_le.mpr h.time, h.page⟩

/-- What a turn charges is the bill of what it does with the image. -/
theorem processCandidate_spent (budget : OcrBudget) :
    budget.spent (processCandidate env profile state candidate) =
      budget.spent state + Metered.bill budget.cost (turnEvents env profile state candidate) := by
  rcases processCandidate_cases env profile state candidate with
    ⟨resolved, hresolved, hadmitted, hturn⟩ | ⟨hnone, refused, hspent, hturn⟩
  · have hevents : turnEvents env profile state candidate =
        [recognitionEvent env state.imageCache ⟨candidate, resolved⟩] := by
      rw [turnEvents, hresolved]
      exact if_pos hadmitted
    rw [hevents]
    refine (congrArg budget.spent (hturn env.recognize)).trans ?_
    rw [recognizeResolved_spent]
    by_cases hsoft : profile.memorySoftLimitBytes < resolved.pixels * 4
    · rw [if_pos hsoft]
      cases budget <;> rfl
    · rw [if_neg hsoft]
  · rw [hnone]
    refine (congrArg budget.spent (hturn env.recognize)).trans ?_
    rw [hspent]
    exact (add_zero _).symm

/-- An admitted image was tested against every budget. -/
theorem Admitted.tested {image : RenderedImage} (h : Admitted env profile state image)
    (budget : OcrBudget) :
    budget.cost image = 0 ∨ budget.spent state + budget.cost image ≤ budget.limit profile := by
  cases budget with
  | pixels => exact .inr (not_lt.mp (not_or.mp h.pixels).2)
  | bytes => exact .inr (not_lt.mp h.bytes)
  | pages =>
    rw [OcrBudget.cost]
    by_cases hpage : image.candidate.scope = "PAGE"
    · rw [if_pos hpage]
      exact .inr (Int.not_le.mp fun hle => h.page ⟨hpage, hle⟩)
    · rw [if_neg hpage]
      exact .inl rfl

/-- An admitted image is not smaller than nothing. -/
theorem Admitted.cost_nonneg {image : RenderedImage} (h : Admitted env profile state image)
    (hprofile : profile.LimitsNonneg) (budget : OcrBudget) : 0 ≤ budget.cost image := by
  cases budget with
  | bytes => exact Int.natCast_nonneg _
  | pages =>
    rw [OcrBudget.cost]
    split <;> decide
  | pixels =>
    obtain ⟨hwidth, hrest⟩ := not_or.mp h.large
    have hheight := (not_or.mp hrest).1
    have hw := hprofile.width
    have hh := hprofile.height
    apply Int.mul_nonneg
    · omega
    · omega

theorem mem_turnEvents {event : Metered RenderedImage}
    (h : event ∈ turnEvents env profile state candidate) :
    Admitted env profile state event.item := by
  rw [turnEvents] at h
  cases hresolved : env.resolve candidate with
  | none =>
    rw [hresolved] at h
    cases h
  | some resolved =>
    rw [hresolved] at h
    dsimp only at h
    by_cases hadmitted : Admitted env profile state ⟨candidate, resolved⟩
    · rw [if_pos hadmitted] at h
      obtain rfl := List.mem_singleton.mp h
      rw [recognitionEvent_item]
      exact hadmitted
    · rw [if_neg hadmitted] at h
      cases h

theorem turnEvents_cases (env : OcrEnvironment) (profile : OcrProfile) (state : OcrState)
    (candidate : OcrCandidate) : turnEvents env profile state candidate = [] ∨
      ∃ event, turnEvents env profile state candidate = [event] := by
  rw [turnEvents]
  cases env.resolve candidate with
  | none => exact .inl rfl
  | some resolved =>
    dsimp only
    by_cases hadmitted : Admitted env profile state ⟨candidate, resolved⟩
    · rw [if_pos hadmitted]
      exact .inr ⟨_, rfl⟩
    · rw [if_neg hadmitted]
      exact .inl rfl

end Turn

/-! ## The run -/

section Run

variable {env : OcrEnvironment} {profile : OcrProfile} {state : OcrState}

/-- The counts of the loop are the bill of what was done, and every item was tested. -/
structure Accounted (profile : OcrProfile) (state : OcrState)
    (events : List (Metered RenderedImage)) : Prop where
  spent : ∀ budget : OcrBudget, budget.spent state = Metered.bill budget.cost events
  tested : ∀ budget : OcrBudget, Metered.Tested budget.cost (budget.limit profile) events
  nonneg : ∀ event ∈ events, ∀ budget : OcrBudget, 0 ≤ budget.cost event.item

theorem accounted_nil : Accounted profile {} [] where
  spent := by
    intro budget
    cases budget <;> rfl
  tested := by
    intro budget before event after h
    cases before <;> cases h
  nonneg := by
    intro event h
    cases h

theorem accounted_turn (hprofile : profile.LimitsNonneg) {events : List (Metered RenderedImage)}
    (h : Accounted profile state events) (candidate : OcrCandidate) :
    Accounted profile (processCandidate env profile state candidate)
      (events ++ turnEvents env profile state candidate) where
  spent := by
    intro budget
    rw [processCandidate_spent, h.spent budget, Metered.bill_append]
  tested := by
    intro budget
    rcases turnEvents_cases env profile state candidate with hnone | ⟨event, hevent⟩
    · rw [hnone, List.append_nil]
      exact h.tested budget
    · have hadmitted := mem_turnEvents (by rw [hevent]; exact List.mem_singleton_self event)
      rw [hevent]
      apply (h.tested budget).concat
      rw [← h.spent budget]
      exact hadmitted.tested budget
  nonneg := by
    intro event hevent budget
    rcases List.mem_append.mp hevent with hold | hnew
    · exact h.nonneg event hold budget
    · exact (mem_turnEvents hnew).cost_nonneg hprofile budget

theorem accounted_run (hprofile : profile.LimitsNonneg) {events : List (Metered RenderedImage)}
    (h : Accounted profile state events) (candidates : List OcrCandidate) :
    Accounted profile (candidates.foldl (processCandidate env profile) state)
      (events ++ runEvents env profile state candidates) := by
  induction candidates generalizing state events with
  | nil =>
    rw [runEvents, List.append_nil]
    exact h
  | cons candidate rest ih =>
    rw [runEvents, ← List.append_assoc]
    exact ih (accounted_turn hprofile h candidate)

/-- The engine is asked about no image but those handed to it. -/
theorem processCandidates_congr {recognize : OcrRequest → Recognition}
    {candidates : List OcrCandidate}
    (h : ∀ image ∈ handedImages env profile candidates,
      recognize (ocrRequest image.candidate image.resolved) =
        env.recognize (ocrRequest image.candidate image.resolved)) :
    processCandidates { env with recognize := recognize } profile candidates =
      processCandidates env profile candidates := by
  have hturn : ∀ (state : OcrState) (candidate : OcrCandidate),
      (∀ image ∈ (turnEvents env profile state candidate).filterMap Metered.worked,
        recognize (ocrRequest image.candidate image.resolved) =
          env.recognize (ocrRequest image.candidate image.resolved)) →
      processCandidate { env with recognize := recognize } profile state candidate =
        processCandidate env profile state candidate := by
    intro state candidate hagree
    rcases processCandidate_cases env profile state candidate with
      ⟨resolved, hresolved, hadmitted, hturn⟩ | ⟨-, refused, -, hturn⟩
    · rw [turnEvents, hresolved] at hagree
      dsimp only at hagree
      rw [if_pos hadmitted] at hagree
      refine (hturn recognize).trans (Eq.trans ?_ (hturn env.recognize).symm)
      refine recognizeResolved_congr fun hlookup => ?_
      apply hagree ⟨candidate, resolved⟩
      refine List.mem_filterMap.mpr ⟨_, List.mem_singleton_self _, recognitionEvent_worked ?_⟩
      rw [← hlookup]
      split <;> rfl
    · exact (hturn recognize).trans (hturn env.recognize).symm
  rw [processCandidates, processCandidates]
  rw [handedImages] at h
  generalize ({} : OcrState) = state at h ⊢
  induction candidates generalizing state with
  | nil => rfl
  | cons candidate rest ih =>
    rw [runEvents, List.filterMap_append] at h
    have hfirst := hturn state candidate
      (fun image himage => h image (List.mem_append_left _ himage))
    rw [List.foldl_cons, List.foldl_cons, hfirst]
    exact ih _ (fun image himage => h image (List.mem_append_right _ himage))

end Run

/-! ## The budgets of the work -/

/-- The images fit in every budget. -/
def WithinBudgets (profile : OcrProfile) (images : List RenderedImage) : Prop :=
  ∀ budget : OcrBudget, (images.map budget.cost).sum ≤ budget.limit profile

/-- An image that is handed over after a recognition that failed fits in every budget with the
images handed over before. -/
def FailuresFit (env : OcrEnvironment) (profile : OcrProfile) (candidates : List OcrCandidate) :
    Prop :=
  ∀ budget : OcrBudget,
    Metered.FitsAfterLoss budget.cost (budget.limit profile) (runEvents env profile {} candidates)

theorem failuresFit_of_none {env : OcrEnvironment} {profile : OcrProfile}
    {candidates : List OcrCandidate}
    (h : ∀ event ∈ runEvents env profile {} candidates, ¬ event.Lost) :
    FailuresFit env profile candidates :=
  fun _ => Metered.fitsAfterLoss_of_none h

/-- The same image on two pages. -/
def twoPages : List OcrCandidate :=
  [⟨"ocr-1", "PAGE", some 1, "scanned_image", none, none, []⟩,
    ⟨"ocr-2", "PAGE", some 2, "scanned_image", none, none, []⟩]

/-- A profile whose budgets are those of one page. -/
def onePageProfile : OcrProfile :=
  { maxPagesPerJob := 1, maxTotalPixelsPerJob := 10000, maxDerivedBytes := 1 }

theorem onePageProfile_limitsNonneg : onePageProfile.LimitsNonneg where
  width := by decide
  height := by decide
  budgets := by
    intro budget
    cases budget <;> decide

/-- A pipeline whose engine gives up on every page. -/
def timeoutPipeline : OcrEnvironment :=
  asciiOcr
    (fun c => some ⟨c.candidateId, [0], 100, 100, c.pageNumber, c.elementId, c.geometry⟩)
    (fun _ => .timeout)

/-- Both pages are handed over, which is twice every budget. -/
theorem timeouts_exceed (budget : OcrBudget) :
    ((handedImages timeoutPipeline onePageProfile twoPages).map budget.cost).sum =
      2 * budget.limit onePageProfile := by
  cases budget <;> decide +kernel

end AstraIndexator
