import AstraIndexator.Ocr.Merge

/-!
# What reconciliation leaves out

A recognised text is left out when it is similar to a native text of its page, or when
an equal text of the page is accepted already.  A text that contains a native one counts as
similar, however much more it says.
-/

namespace AstraIndexator

open Transaction

/-! ## What covers a recognised text -/

section Covering

variable (env : OcrEnvironment)

/-- The Jaccard index of the words of two normalised texts. -/
def jaccard (a b : List Char) : Rat :=
  ((wordSet a).filter fun w => w ∈ wordSet b).length / max 1 ((wordSet a ++ wordSet b).dedup).length

/-- A native text contains the recognised one, or has nearly the same words. -/
def CoveredBy (text native : String) : Prop :=
  normalizeForMatch env text <:+: normalizeForMatch env native ∨
    43 / 50 ≤ jaccard (normalizeForMatch env text) (normalizeForMatch env native)

instance (text native : String) : Decidable (CoveredBy env text native) :=
  inferInstanceAs (Decidable (_ ∨ _))

/-- The native text says something and is contained in the recognised one. -/
def Contains (text native : String) : Prop :=
  normalizeForMatch env native ≠ [] ∧
    normalizeForMatch env native <:+: normalizeForMatch env text

instance (text native : String) : Decidable (Contains env text native) :=
  inferInstanceAs (Decidable (_ ∧ _))

/-- The native text the handler takes for the recognised one. -/
def DuplicateNative (document : ParsedDocument) (observation : OcrObservation) : Prop :=
  ∃ native ∈ nativeTexts document.elements observation.pageNumber,
    43 / 50 ≤ similarity env observation.text native

end Covering

/-- A recognised text with its result and its candidate. -/
structure ReconcileEntry where
  candidate : OcrCandidate
  result : OcrCandidateResult
  observation : OcrObservation

/-- The recognised texts in the order they are looked at. -/
def reconcileEntries (document : ParsedDocument) (results : List OcrCandidateResult) :
    List ReconcileEntry :=
  results.flatMap fun result =>
    match document.ocrCandidates.find? fun c => c.candidateId == result.candidateId with
    | none => []
    | some candidate => result.observations.map fun observation => ⟨candidate, result, observation⟩

namespace ReconcileEntry

variable (env : OcrEnvironment) (profile : OcrProfile) (document : ParsedDocument)

/-- The element the text becomes. -/
def element (entry : ReconcileEntry) : DocumentElement :=
  acceptedElement env profile document entry.candidate entry.result entry.observation

/-- The page and the text up to case, punctuation and spaces. -/
def key (entry : ReconcileEntry) : Option Int × List Char :=
  (entry.observation.pageNumber, normalizeForMatch env entry.observation.text)

/-- The text is compared with the ones accepted already. -/
def step (state : Reconciled) (entry : ReconcileEntry) : Reconciled :=
  reconcileObservation env profile document entry.candidate entry.result state entry.observation

end ReconcileEntry

section Folding

variable {env : OcrEnvironment} {profile : OcrProfile} {document : ParsedDocument}

/-- The two loops are one over the recognised texts. -/
theorem reconcile_eq (results : List OcrCandidateResult) :
    reconcile env profile document results =
      ((reconcileEntries document results).foldl (ReconcileEntry.step env profile document)
        {}).accepted := by
  rw [reconcile, reconcileEntries, List.foldl_flatMap]
  congr 2
  funext state result
  rw [reconcileResult]
  cases document.ocrCandidates.find? fun c => c.candidateId == result.candidateId with
  | none => rfl
  | some candidate =>
    dsimp only
    rw [List.foldl_map]
    rfl

/-- A text is left out for a native duplicate or for a key that is seen, and otherwise it is
accepted and its key seen. -/
theorem step_cases (state : Reconciled) (entry : ReconcileEntry) :
    (DuplicateNative env document entry.observation ∧ entry.step env profile document state = state) ∨
    (¬ DuplicateNative env document entry.observation ∧ entry.key env ∈ state.seen ∧
      entry.step env profile document state = state) ∨
    (¬ DuplicateNative env document entry.observation ∧
      (entry.step env profile document state).accepted =
        state.accepted ++ [entry.element env profile document] ∧
      ∀ k, k ∈ (entry.step env profile document state).seen ↔ k ∈ state.seen ∨ k = entry.key env) := by
  have hnative : ((nativeTexts document.elements entry.observation.pageNumber).any
      fun text => 43 / 50 ≤ similarity env entry.observation.text text) = true ↔
        DuplicateNative env document entry.observation := by
    rw [List.any_eq_true]
    exact exists_congr fun text => and_congr_right fun _ => decide_eq_true_iff
  have hstep : entry.step env profile document state =
      if (nativeTexts document.elements entry.observation.pageNumber).any
          (fun text => 43 / 50 ≤ similarity env entry.observation.text text) = true ∨
          entry.key env ∈ state.seen ∧ entry.candidate.scope ≠ "EMBEDDED_IMAGE" then state
      else ⟨state.accepted ++ [entry.element env profile document],
        if entry.key env ∈ state.seen then state.seen else state.seen ++ [entry.key env]⟩ := rfl
  rw [hstep]
  by_cases hduplicate : DuplicateNative env document entry.observation
  · rw [if_pos (.inl (hnative.mpr hduplicate))]
    exact .inl ⟨hduplicate, rfl⟩
  · have hnone := mt hnative.mp hduplicate
    by_cases hseen : entry.key env ∈ state.seen ∧ entry.candidate.scope ≠ "EMBEDDED_IMAGE"
    · rw [if_pos (.inr hseen)]
      exact .inr (.inl ⟨hduplicate, hseen.1, rfl⟩)
    · rw [if_neg (not_or.mpr ⟨hnone, hseen⟩)]
      refine .inr (.inr ⟨hduplicate, rfl, fun k => ?_⟩)
      show k ∈ (if entry.key env ∈ state.seen then state.seen else state.seen ++ [entry.key env]) ↔ _
      by_cases hmem : entry.key env ∈ state.seen
      · rw [if_pos hmem]
        constructor
        · exact .inl
        · rintro (hk | rfl)
          · exact hk
          · exact hmem
      · rw [if_neg hmem, List.mem_append, List.mem_singleton]

/-- The accepted elements are those of texts without a native duplicate, the seen keys are
theirs, and every other such text has a seen key. -/
structure Accepts (env : OcrEnvironment) (profile : OcrProfile) (document : ParsedDocument)
    (entries : List ReconcileEntry) (state : Reconciled) : Prop where
  sound : ∀ e ∈ state.accepted, ∃ entry ∈ entries, e = entry.element env profile document ∧
    ¬ DuplicateNative env document entry.observation
  seen : ∀ k ∈ state.seen, ∃ entry ∈ entries, entry.key env = k ∧
    entry.element env profile document ∈ state.accepted
  complete : ∀ entry ∈ entries, ¬ DuplicateNative env document entry.observation →
    entry.element env profile document ∈ state.accepted ∨ entry.key env ∈ state.seen

theorem Accepts.nil : Accepts env profile document [] {} where
  sound := List.forall_mem_nil _
  seen := List.forall_mem_nil _
  complete := List.forall_mem_nil _

/-- One more text. -/
theorem Accepts.step {entries : List ReconcileEntry} {state : Reconciled}
    (h : Accepts env profile document entries state) (entry : ReconcileEntry) :
    Accepts env profile document (entries ++ [entry]) (entry.step env profile document state) := by
  have hmem : ∀ other ∈ entries, other ∈ entries ++ [entry] :=
    fun other hother => List.mem_append_left _ hother
  -- Where the state stays, only completeness of the new text is left to show.
  have hstays : (¬ DuplicateNative env document entry.observation → entry.key env ∈ state.seen) →
      Accepts env profile document (entries ++ [entry]) state := by
    intro hkey
    refine ⟨fun e he => ?_, fun k hk => ?_, fun other hother hnative => ?_⟩
    · obtain ⟨other, hother, hrest⟩ := h.sound e he
      exact ⟨other, hmem other hother, hrest⟩
    · obtain ⟨other, hother, hrest⟩ := h.seen k hk
      exact ⟨other, hmem other hother, hrest⟩
    · rcases List.mem_append.mp hother with hother | hother
      · exact h.complete other hother hnative
      · obtain rfl := List.mem_singleton.mp hother
        exact .inr (hkey hnative)
  rcases @step_cases env profile document state entry with
    ⟨hduplicate, hsame⟩ | ⟨-, hkey, hsame⟩ | ⟨hnative, haccepted, hseen⟩
  · rw [hsame]
    exact hstays fun hnot => absurd hduplicate hnot
  · rw [hsame]
    exact hstays fun _ => hkey
  · have hnew : entry.element env profile document ∈
        (entry.step env profile document state).accepted := by
      rw [haccepted]
      exact List.mem_append_right _ (List.mem_singleton_self _)
    have hold : ∀ e ∈ state.accepted, e ∈ (entry.step env profile document state).accepted := by
      intro e he
      rw [haccepted]
      exact List.mem_append_left _ he
    have hentry : entry ∈ entries ++ [entry] :=
      List.mem_append_right _ (List.mem_singleton_self entry)
    refine ⟨fun e he => ?_, fun k hk => ?_, fun other hother hother' => ?_⟩
    · rw [haccepted] at he
      rcases List.mem_append.mp he with he | he
      · obtain ⟨other, hother, hrest⟩ := h.sound e he
        exact ⟨other, hmem other hother, hrest⟩
      · exact ⟨entry, hentry, List.mem_singleton.mp he, hnative⟩
    · rcases (hseen k).mp hk with hk | rfl
      · obtain ⟨other, hother, hsame, hin⟩ := h.seen k hk
        exact ⟨other, hmem other hother, hsame, hold _ hin⟩
      · exact ⟨entry, hentry, rfl, hnew⟩
    · rcases List.mem_append.mp hother with hother | hother
      · rcases h.complete other hother hother' with hin | hin
        · exact .inl (hold _ hin)
        · exact .inr ((hseen _).mpr (.inl hin))
      · obtain rfl := List.mem_singleton.mp hother
        exact .inl hnew

theorem accepts_foldl (entries : List ReconcileEntry) :
    Accepts env profile document entries
      (entries.foldl (ReconcileEntry.step env profile document) {}) := by
  induction entries using List.reverseRecOn with
  | nil => exact .nil
  | append_singleton entries entry ih =>
    rw [List.foldl_append, List.foldl_cons, List.foldl_nil]
    exact ih.step entry

/-- Texts with equal elements stand on one page and read the same. -/
theorem key_of_element {entry other : ReconcileEntry}
    (h : entry.element env profile document = other.element env profile document) :
    entry.observation.text = other.observation.text ∧
      entry.observation.pageNumber = other.observation.pageNumber := by
  have htext := congrArg DocumentElement.text h
  have hlocator := congrArg DocumentElement.sourceLocator h
  refine ⟨Option.some.inj htext, ?_⟩
  have hpage : (entry.observation.pageNumber.map Json.int).getD Json.null =
      (other.observation.pageNumber.map Json.int).getD Json.null := by
    have hthird := congrArg (fun l => l[2]?) hlocator
    exact (Prod.mk.inj (Option.some.inj hthird)).2
  cases hleft : entry.observation.pageNumber with
  | none =>
    cases hright : other.observation.pageNumber with
    | none => rfl
    | some q =>
      rw [hleft, hright] at hpage
      cases hpage
  | some p =>
    cases hright : other.observation.pageNumber with
    | none =>
      rw [hleft, hright] at hpage
      cases hpage
    | some q =>
      rw [hleft, hright] at hpage
      cases hpage
      rfl

/-- The comparison with native texts looks at the key only. -/
theorem similarity_congr {left left' : String}
    (h : normalizeForMatch env left = normalizeForMatch env left') (right : String) :
    similarity env left right = similarity env left' right := by
  rw [similarity, similarity, h]

theorem duplicateNative_congr {observation other : OcrObservation}
    (hpage : observation.pageNumber = other.pageNumber)
    (htext : normalizeForMatch env observation.text = normalizeForMatch env other.text) :
    DuplicateNative env document observation ↔ DuplicateNative env document other := by
  rw [DuplicateNative, DuplicateNative, hpage]
  refine exists_congr fun native => and_congr_right fun _ => ?_
  rw [similarity_congr htext]

/-- A similar native text covers the recognised one or is contained in it. -/
theorem covered_or_contains {text native : String} (h : 43 / 50 ≤ similarity env text native) :
    CoveredBy env text native ∨ Contains env text native := by
  rw [similarity] at h
  dsimp only at h
  split at h
  · exact absurd h (by decide +kernel)
  · next hne =>
    split at h
    · next hcontained =>
      rcases hcontained with heq | hin | hin
      · exact .inl (.inl (heq ▸ List.infix_refl _))
      · exact .inl (.inl hin)
      · exact .inr ⟨(not_or.mp hne).2, hin⟩
    · exact .inl (.inr h)

/-- A contained native text is similar. -/
theorem similarity_of_contains {text native : String} (h : Contains env text native) :
    similarity env text native = 1 := by
  obtain ⟨hne, hin⟩ := h
  have htext : normalizeForMatch env text ≠ [] := by
    intro hnil
    rw [hnil, List.infix_nil] at hin
    exact hne hin
  rw [similarity]
  dsimp only
  rw [if_neg (not_or.mpr ⟨htext, hne⟩), if_pos (.inr (.inr hin))]

end Folding

/-! ## What is kept -/

section Keeping

variable (env : OcrEnvironment) (profile : OcrProfile) (document : ParsedDocument)

/-- Every recognised text is in the merged document, or covered by a native text of its page,
or equal to an accepted text of its page. -/
def KeepsUncovered (result : OcrPipelineResult) : Prop :=
  ∀ entry ∈ reconcileEntries document result.candidateResults,
    (entry.element env profile document ∈ result.acceptedOcrElements ∧
      ∃ e ∈ result.document.elements, e.unindexed = entry.element env profile document) ∨
    (∃ native ∈ nativeTexts document.elements entry.observation.pageNumber,
      CoveredBy env entry.observation.text native) ∨
    ∃ other ∈ reconcileEntries document result.candidateResults,
      other.element env profile document ∈ result.acceptedOcrElements ∧ other.key env = entry.key env

/-- A recognised text that contains a native text of its page is covered by another. -/
def ContainedCovered (results : List OcrCandidateResult) : Prop :=
  ∀ entry ∈ reconcileEntries document results,
    (∃ native ∈ nativeTexts document.elements entry.observation.pageNumber,
      Contains env entry.observation.text native) →
    ∃ native ∈ nativeTexts document.elements entry.observation.pageNumber,
      CoveredBy env entry.observation.text native

end Keeping

variable {env : OcrEnvironment} {profile : OcrProfile} {document : ParsedDocument}

/-- Accepted elements are in the merged document. -/
theorem mem_merged {results : List OcrCandidateResult} {sourceSha256 sourceFormat : String}
    (hvalid : validatePipelineInputs sourceSha256 sourceFormat document profile env.identity = .ok ())
    {a : DocumentElement} (ha : a ∈ reconcile env profile document results) :
    ∃ e ∈ reindex (mergeElements document.elements (reconcile env profile document results)),
      e.unindexed = a := by
  obtain ⟨hindex, candidate, hcandidate, hparent⟩ := reconcile_fromCandidate results a ha
  have hmem : a ∈ mergeElements document.elements (reconcile env profile document results) := by
    rw [mergeElements]
    cases howner : a.parentElementId with
    | none =>
      apply List.mem_append_right
      exact List.mem_filter.mpr ⟨ha, by rw [howner]; rfl⟩
    | some id =>
      have hid := (validatePipelineInputs_ok hvalid).2 candidate hcandidate id
        (by rw [← hparent, howner]; rfl)
      obtain ⟨native, hnative, rfl⟩ := List.mem_map.mp hid
      apply List.mem_append_left
      refine List.mem_flatMap.mpr ⟨native, hnative, List.mem_cons_of_mem native ?_⟩
      exact List.mem_filter.mpr ⟨ha, by rw [howner]; exact beq_self_eq_true _⟩
  have hunindexed : a.unindexed ∈ (reindex (mergeElements document.elements
      (reconcile env profile document results))).map DocumentElement.unindexed := by
    rw [map_unindexed_reindex]
    exact List.mem_map_of_mem hmem
  obtain ⟨e, he, hsame⟩ := List.mem_map.mp hunindexed
  refine ⟨e, he, hsame.trans ?_⟩
  rw [DocumentElement.unindexed, ← hindex]

/-- Texts are left out for the reasons given exactly when every recognised text that contains a
native one is covered by another. -/
theorem process_keepsUncovered_iff (env : OcrEnvironment) (sourceSha256 sourceFormat : String)
    (document : ParsedDocument) (mode : OcrMode) (profile : OcrProfile) (result : OcrPipelineResult)
    (h : env.process sourceSha256 sourceFormat document mode profile = .ok result) :
    KeepsUncovered env profile document result ↔ ContainedCovered env document
      (processCandidates env profile document.ocrCandidates).results := by
  obtain ⟨hvalid, hresults, haccepted, helements⟩ := process_ok h
  have haccepts := @accepts_foldl env profile document
    (reconcileEntries document (processCandidates env profile document.ocrCandidates).results)
  rw [reconcile_eq] at haccepted
  rw [← hresults] at haccepts haccepted ⊢
  generalize hstate : (reconcileEntries document result.candidateResults).foldl
    (ReconcileEntry.step env profile document) {} = state at haccepts haccepted
  -- No text with a native duplicate has its element accepted.
  have hnot : ∀ entry : ReconcileEntry,
      entry.element env profile document ∈ result.acceptedOcrElements →
        ¬ DuplicateNative env document entry.observation := by
    intro entry hentry
    rw [haccepted] at hentry
    obtain ⟨other, -, hsame, hnative⟩ := haccepts.sound _ hentry
    obtain ⟨htext, hpage⟩ := key_of_element hsame
    rwa [duplicateNative_congr hpage (congrArg (normalizeForMatch env) htext)]
  constructor
  · intro hkeeps entry hentry hcontains
    have hduplicate : DuplicateNative env document entry.observation := by
      obtain ⟨native, hnative, hin⟩ := hcontains
      refine ⟨native, hnative, ?_⟩
      rw [similarity_of_contains hin]
      decide +kernel
    rcases hkeeps entry hentry with ⟨hmem, -⟩ | hcovered | ⟨other, -, hmem, hkey⟩
    · exact absurd hduplicate (hnot entry hmem)
    · exact hcovered
    · obtain ⟨hpage, htext⟩ := Prod.mk.inj hkey
      exact absurd ((duplicateNative_congr hpage htext).mpr hduplicate) (hnot other hmem)
  · intro hcovered entry hentry
    by_cases hduplicate : DuplicateNative env document entry.observation
    · obtain ⟨native, hnative, hsimilar⟩ := hduplicate
      right
      left
      rcases covered_or_contains hsimilar with hcover | hcontains
      · exact ⟨native, hnative, hcover⟩
      · exact hcovered entry hentry ⟨native, hnative, hcontains⟩
    · rcases haccepts.complete entry hentry hduplicate with hmem | hseen
      · left
        have hreconciled : entry.element env profile document ∈
            reconcile env profile document result.candidateResults := by
          rw [reconcile_eq, hstate]
          exact hmem
        obtain ⟨e, he, hsame⟩ := mem_merged hvalid hreconciled
        rw [← haccepted] at hmem
        refine ⟨hmem, e, ?_, hsame⟩
        rw [helements, haccepted, ← hstate, ← reconcile_eq]
        exact he
      · obtain ⟨other, hother, hkey, hmem⟩ := haccepts.seen _ hseen
        right
        right
        exact ⟨other, hother, by rw [haccepted]; exact hmem, hkey⟩

/-! ## A word and a passage -/

theorem keepsUncovered_word :
    ∃ result, onePagePipeline.process "sha" "PDF" (scannedDocument 2) .ifNeeded {} = .ok result ∧
      KeepsUncovered onePagePipeline {} (scannedDocument 2) result := by
  obtain ⟨result, hresult, -, -⟩ := @process_scanned 2 (by decide)
  have hnone : ∀ entry ∈ reconcileEntries (scannedDocument 2)
      (processCandidates onePagePipeline {} (scannedDocument 2).ocrCandidates).results,
      ∀ native ∈ nativeTexts (scannedDocument 2).elements entry.observation.pageNumber,
        ¬ Contains onePagePipeline entry.observation.text native := by
    decide +kernel
  refine ⟨result, hresult, (process_keepsUncovered_iff onePagePipeline "sha" "PDF"
    (scannedDocument 2) .ifNeeded {} result hresult).mpr fun entry hentry hcontains => ?_⟩
  obtain ⟨native, hnative, hin⟩ := hcontains
  exact absurd hin (hnone entry hentry native hnative)

/-- A pipeline that reads a passage off every page. -/
def passagePipeline : OcrEnvironment :=
  asciiOcr
    (fun c => some ⟨c.candidateId, [0], 100, 100, c.pageNumber, c.elementId, c.geometry⟩)
    (fun r => .observations [⟨"the second page of the act", 1, 0, r.candidateId, r.sourceElementId,
      r.pageNumber, none, sampleOcrIdentity, none⟩])

/-- The passage is left out for one word of it that the page has as text. -/
theorem not_keepsUncovered_passage :
    ∃ result, passagePipeline.process "sha" "PDF" (scannedDocument 2) .ifNeeded {} = .ok result ∧
      result.acceptedOcrElements = [] ∧
      ¬ KeepsUncovered passagePipeline {} (scannedDocument 2) result := by
  have hok : (passagePipeline.process "sha" "PDF" (scannedDocument 2) .ifNeeded {}).isOk = true := by
    decide +kernel
  have hempty : (reconcile passagePipeline {} (scannedDocument 2) (processCandidates
      passagePipeline {} (scannedDocument 2).ocrCandidates).results).isEmpty = true := by
    decide +kernel
  have hlost : ∃ entry ∈ reconcileEntries (scannedDocument 2)
      (processCandidates passagePipeline {} (scannedDocument 2).ocrCandidates).results,
      ∀ native ∈ nativeTexts (scannedDocument 2).elements entry.observation.pageNumber,
        ¬ CoveredBy passagePipeline entry.observation.text native := by
    decide +kernel
  obtain ⟨result, hresult⟩ := except_isOk.mp hok
  obtain ⟨-, hresults, haccepted, -⟩ := process_ok hresult
  have hnil : result.acceptedOcrElements = [] := haccepted.trans (List.isEmpty_iff.mp hempty)
  refine ⟨result, hresult, hnil, fun hkeeps => ?_⟩
  obtain ⟨entry, hentry, hnone⟩ := hlost
  rw [← hresults] at hentry
  rcases hkeeps entry hentry with ⟨hmem, -⟩ | ⟨native, hnative, hcover⟩ | ⟨other, -, hmem, -⟩
  · rw [hnil] at hmem
    exact List.not_mem_nil hmem
  · exact hnone native hnative hcover
  · rw [hnil] at hmem
    exact List.not_mem_nil hmem

end AstraIndexator
