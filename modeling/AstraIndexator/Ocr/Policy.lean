import AstraIndexator.Foundation.Transaction
import AstraIndexator.Ocr.Service
import AstraIndexator.Parser.Drafts

/-!
# The decision about a candidate

The policy says of every candidate whether it is recognised.  A loop that recognises nothing only
notes the decisions, so the document of the pipeline is the parsed one with a new status.
-/

namespace AstraIndexator

open Transaction

/-! ## The policy -/

namespace OcrDecisionPolicy

/-- `page_modes[page_number - 1]` where the number is no more than the pages.  An index below zero
counts from the last page. -/
def pageMode (pageModes : List String) : Option Int → Except String (Option String)
  | none => .ok none
  | some pageNumber =>
    if (pageModes.length : Int) < pageNumber then .ok none
    else if 0 < pageNumber then .ok pageModes[(pageNumber - 1).toNat]?
    else if 0 ≤ pageNumber - 1 + pageModes.length then
      .ok pageModes[(pageNumber - 1 + pageModes.length).toNat]?
    else .error "IndexError"

/-- The scopes of candidates. -/
def scopes : List String := ["PAGE", "REGION", "EMBEDDED_IMAGE"]

/-- The decision about a page whose mode is known. -/
def pageDecision (reason : String) (mode : Option String) : OcrDecision × List String :=
  if mode = some "NATIVE_TEXT" ∧ reason ∉ ["standalone_image", "low_native_text"] then
    (.notRequired, ["TRUSTED_NATIVE_PAGE"])
  else (.required, [reason, (mode.filter (· ≠ "")).getD "PAGE_CANDIDATE"])

/-- `_if_needed` -/
def ifNeeded (document : ParsedDocument) (candidate : OcrCandidate) :
    Except String (OcrDecision × List String) :=
  if candidate.scope ∉ scopes then .ok (.unsupported, ["UNSUPPORTED_CANDIDATE_SCOPE"])
  else
    (pageMode document.quality.pageModes candidate.pageNumber).map fun mode =>
      if candidate.scope = "PAGE" then pageDecision candidate.reason mode
      else if candidate.scope = "REGION" then (.required, [candidate.reason, "REGION_CANDIDATE"])
      else (.required, [candidate.reason, "EMBEDDED_IMAGE_CANDIDATE"])

/-- What is decided without recognition. -/
def whenDisabled (document : ParsedDocument) (candidate : OcrCandidate)
    (needed : OcrDecision × List String) : OcrDecision × List String :=
  if candidate.scope = "EMBEDDED_IMAGE" ∧ document.quality.status ≠ .ocrRequired then
    (.notRequired, ["OCR_DISABLED_OPTIONAL_IMAGE", candidate.reason])
  else if needed.1 = .required then (.requiredButDisabled, "OCR_DISABLED" :: needed.2)
  else needed

/-- `decide` -/
def decide (document : ParsedDocument) (candidate : OcrCandidate) (mode : OcrMode) :
    Except String (OcrDecision × List String) :=
  if candidate.scope ∉ scopes then .ok (.unsupported, ["UNSUPPORTED_CANDIDATE_SCOPE"])
  else
    match mode with
    | .force => .ok (.required, ["OCR_FORCE", candidate.reason])
    | .disabled => (ifNeeded document candidate).map (whenDisabled document candidate)
    | .ifNeeded => ifNeeded document candidate

/-! ## Candidates of parsed documents -/

variable {document : ParsedDocument} {candidate : OcrCandidate}

theorem pageMode_of_pos {pageModes : List String} {pageNumber : Option Int}
    (h : ∀ n ∈ pageNumber, 0 < n) : ∃ mode, pageMode pageModes pageNumber = .ok mode := by
  cases pageNumber with
  | none => exact ⟨none, rfl⟩
  | some n =>
    have hpos : 0 < n := h n rfl
    rw [pageMode]
    by_cases hlast : (pageModes.length : Int) < n
    · exact ⟨none, by rw [if_pos hlast]⟩
    · exact ⟨pageModes[(n - 1).toNat]?, by rw [if_neg hlast, if_pos hpos]⟩

theorem pageMode_succ {pageModes : List String} {index : Nat} {mode : String}
    (h : pageModes[index]? = some mode) :
    pageMode pageModes (some ((index : Int) + 1)) = .ok (some mode) := by
  obtain ⟨hindex, -⟩ := List.getElem?_eq_some_iff.mp h
  have hlast : ¬ (pageModes.length : Int) < index + 1 := by omega
  have hpos : (0 : Int) < index + 1 := by omega
  have hindexed : ((index : Int) + 1 - 1).toNat = index := by omega
  rw [pageMode, if_neg hlast, if_pos hpos, hindexed, h]

/-- A candidate of a page that asks for recognition, or of an embedded image, is required where it
is needed. -/
theorem ifNeeded_asked (h : Asked document.quality.pageModes candidate) :
    ∃ reasons, ifNeeded document candidate = .ok (.required, reasons) := by
  rcases h with ⟨hscope, hpage⟩ | ⟨hscope, index, mode, hnumber, hmode, hasks⟩
  · obtain ⟨mode, hmode⟩ := @pageMode_of_pos document.quality.pageModes _ hpage
    refine ⟨[candidate.reason, "EMBEDDED_IMAGE_CANDIDATE"], ?_⟩
    rw [ifNeeded, hmode, hscope, if_neg (by decide)]
    rfl
  · have hforeign : ¬ (some mode = some "NATIVE_TEXT" ∧
        candidate.reason ∉ ["standalone_image", "low_native_text"]) := by
      intro hnative
      rw [Option.some.inj hnative.1] at hasks
      revert hasks
      decide
    refine ⟨[candidate.reason, ((some mode).filter (· ≠ "")).getD "PAGE_CANDIDATE"], ?_⟩
    rw [ifNeeded, hnumber, pageMode_succ hmode, hscope, if_neg (by decide)]
    show Except.ok (pageDecision candidate.reason (some mode)) = _
    rw [pageDecision, if_neg hforeign]

theorem scope_of_asked {pageModes : List String} (h : Asked pageModes candidate) :
    candidate.scope ∈ scopes := by
  rcases h with ⟨hscope, -⟩ | ⟨hscope, -⟩
  · rw [hscope]
    decide
  · rw [hscope]
    decide

/-- With recognition every candidate of a parsed document is required. -/
theorem decide_asked (h : Asked document.quality.pageModes candidate) {mode : OcrMode}
    (henabled : mode ≠ .disabled) :
    ∃ reasons, OcrDecisionPolicy.decide document candidate mode = .ok (.required, reasons) := by
  unfold OcrDecisionPolicy.decide
  rw [if_neg (not_not.mpr (scope_of_asked h))]
  cases mode with
  | disabled => exact absurd rfl henabled
  | ifNeeded => exact ifNeeded_asked h
  | force => exact ⟨_, rfl⟩

/-- Without recognition only the images of a document that can do without them are optional. -/
theorem decide_disabled (h : Asked document.quality.pageModes candidate) :
    ∃ reasons, OcrDecisionPolicy.decide document candidate .disabled =
      .ok (if candidate.scope = "EMBEDDED_IMAGE" ∧ document.quality.status ≠ .ocrRequired then
        .notRequired else .requiredButDisabled, reasons) := by
  obtain ⟨reasons, hneeded⟩ := ifNeeded_asked h
  rw [OcrDecisionPolicy.decide, if_neg (not_not.mpr (scope_of_asked h))]
  show ∃ reasons', (ifNeeded document candidate).map (whenDisabled document candidate) = _
  rw [hneeded]
  show ∃ reasons', Except.ok (whenDisabled document candidate (.required, reasons)) = _
  rw [whenDisabled]
  split
  · exact ⟨_, rfl⟩
  · exact ⟨_, rfl⟩

end OcrDecisionPolicy

/-! ## A loop that recognises nothing -/

section Idle

variable {env : OcrEnvironment} {profile : OcrProfile} {document : ParsedDocument}

/-- The decision about a candidate, as its result. -/
def decidedResult (env : OcrEnvironment) (candidate : OcrCandidate) : OcrCandidateResult :=
  ⟨candidate.candidateId, (env.decide candidate).1, (env.decide candidate).2, [], []⟩

theorem processCandidates_idle {candidates : List OcrCandidate}
    (h : ∀ c ∈ candidates, (env.decide c).1 ≠ .required) :
    processCandidates env profile candidates =
      { results := candidates.map (decidedResult env) } := by
  induction candidates using List.reverseRecOn with
  | nil => rfl
  | append_singleton candidates candidate ih =>
    rw [List.forall_mem_append, List.forall_mem_singleton] at h
    have hbefore := ih h.1
    rw [processCandidates] at hbefore
    rw [processCandidates, List.foldl_append, hbefore, List.foldl_cons, List.foldl_nil,
      processCandidate, if_pos h.2, List.map_append]
    rfl

theorem reconcile_idle {results : List OcrCandidateResult}
    (h : ∀ r ∈ results, r.observations = []) : reconcile env profile document results = [] := by
  have hkept : ∀ state : Reconciled,
      results.foldl (reconcileResult env profile document) state = state := by
    intro state
    induction results with
    | nil => rfl
    | cons result results ih =>
      rw [List.forall_mem_cons] at h
      rw [List.foldl_cons, reconcileResult, h.1]
      split
      · exact ih h.2
      · exact ih h.2
  rw [reconcile, hkept]

theorem mergeElements_nil (elements : List DocumentElement) :
    mergeElements elements [] = elements := by
  simp [mergeElements, insertsByParent]

/-- The pipeline where nothing is required. -/
theorem process_idle {sourceSha256 sourceFormat : String} {mode : OcrMode}
    {result : OcrPipelineResult}
    (h : env.process sourceSha256 sourceFormat document mode profile = .ok result)
    (hidle : ∀ c ∈ document.ocrCandidates, (env.decide c).1 ≠ .required) :
    result.acceptedOcrElements = [] ∧ result.document = { document with
      elements := reindex document.elements
      quality := { document.quality with
        status := ocrQualityStatus document (document.ocrCandidates.map (decidedResult env)) []
        warnings := fromKeys document.quality.warnings } } := by
  rw [OcrEnvironment.process] at h
  obtain ⟨⟨⟩, -, h⟩ := except_bind_ok.mp h
  have haccepted : reconcile env profile document
      (document.ocrCandidates.map (decidedResult env)) = [] := by
    refine reconcile_idle fun r hr => ?_
    obtain ⟨candidate, -, rfl⟩ := List.mem_map.mp hr
    rfl
  rw [processCandidates_idle hidle] at h
  obtain rfl := Except.ok.inj h
  constructor
  · exact haccepted
  · show ({ document with
      elements := reindex (mergeElements document.elements
        (reconcile env profile document (document.ocrCandidates.map (decidedResult env))))
      quality := { document.quality with
        status := ocrQualityStatus document (document.ocrCandidates.map (decidedResult env))
          (reconcile env profile document (document.ocrCandidates.map (decidedResult env)))
        warnings := fromKeys (document.quality.warnings ++ []) } } : ParsedDocument) = _
    rw [haccepted, mergeElements_nil, List.append_nil]

/-- Candidates a document can do without leave its status. -/
theorem ocrQualityStatus_of_optional (hstatus : document.quality.status ≠ .ocrRequired)
    (h : ∀ c ∈ document.ocrCandidates, (env.decide c).1 = .notRequired) :
    ocrQualityStatus document (document.ocrCandidates.map (decidedResult env)) [] =
      document.quality.status := by
  have hnone : ¬ (document.ocrCandidates.map (decidedResult env)).any (fun r =>
      r.decision = .requiredButDisabled ∨ r.decision = .rejectedResourceLimit ∨
        r.warnings ≠ []) = true := by
    intro hany
    obtain ⟨r, hr, hmarked⟩ := List.any_eq_true.mp hany
    obtain ⟨candidate, hcandidate, rfl⟩ := List.mem_map.mp hr
    simp [decidedResult, h candidate hcandidate] at hmarked
  rw [ocrQualityStatus, if_neg hnone, if_neg hstatus]

/-- A candidate that is required but disabled makes the document partial. -/
theorem ocrQualityStatus_of_disabled {candidate : OcrCandidate}
    (hcandidate : candidate ∈ document.ocrCandidates)
    (h : (env.decide candidate).1 = .requiredButDisabled) :
    ocrQualityStatus document (document.ocrCandidates.map (decidedResult env)) [] =
      .partialQuality := by
  have hany : (document.ocrCandidates.map (decidedResult env)).any (fun r =>
      r.decision = .requiredButDisabled ∨ r.decision = .rejectedResourceLimit ∨
        r.warnings ≠ []) = true := by
    refine List.any_eq_true.mpr ⟨decidedResult env candidate, List.mem_map_of_mem hcandidate, ?_⟩
    simp [decidedResult, h]
  rw [ocrQualityStatus, if_pos hany]

end Idle

end AstraIndexator
