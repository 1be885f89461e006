import AstraIndexator.Foundation.Insertion
import AstraIndexator.Foundation.Transaction
import AstraIndexator.Ocr.Engine

/-!
# The order of the merged document

Accepted elements are inserted behind the element they were found in, and at the
end of the document if they were found in none.  So the text of a scanned page
comes in page order only on the last page.
-/

namespace AstraIndexator

open Insertion Transaction

/-- The page an element stands on, by its geometry or by its locator. -/
def DocumentElement.page (element : DocumentElement) : Option Int :=
  (element.geometry.bind SourceGeometry.pageNumber) <|>
    match element.sourceLocator.lookup "pageNumber" with
    | some (.int n) => some n
    | _ => none

/-- The element up to its place. -/
def DocumentElement.unindexed (element : DocumentElement) : DocumentElement :=
  { element with orderIndex := 0 }

/-- The first stands on no later page than the second. -/
def PageLe (x y : DocumentElement) : Prop := ∀ p ∈ x.page, ∀ q ∈ y.page, p ≤ q

/-- The merged document: the native elements in their order, every accepted element
once, numbered from zero, and no accepted element behind one of a later page or
before one of an earlier page. -/
structure MergeLaw (native accepted merged : List DocumentElement) : Prop where
  kept : (native.map DocumentElement.unindexed).Sublist (merged.map DocumentElement.unindexed)
  once : (merged.map DocumentElement.unindexed).Perm
    (native.map DocumentElement.unindexed ++ accepted)
  index : merged.map DocumentElement.orderIndex = (List.range merged.length).map Int.ofNat
  pages : (merged.map DocumentElement.unindexed).Pairwise fun x y =>
    x ∈ accepted ∨ y ∈ accepted → PageLe x y

/-- The pages at every place of insertion are in order.  A native element equal to an
accepted one counts as one. -/
structure PagesInOrder (native accepted : List DocumentElement) : Prop where
  equal : native.Pairwise fun e e' =>
    e.unindexed ∈ accepted ∨ e'.unindexed ∈ accepted → PageLe e e'
  owner : ∀ e ∈ native, ∀ a ∈ accepted, a.parentElementId = some e.elementId → PageLe e a
  siblings : ∀ e ∈ native, (insertsByParent accepted (some e.elementId)).Pairwise PageLe
  later : native.Pairwise fun e e' =>
    (∀ a ∈ accepted, a.parentElementId = some e.elementId → PageLe a e') ∧
    (∀ b ∈ accepted, b.parentElementId = some e'.elementId → PageLe e b) ∧
    ∀ a ∈ accepted, ∀ b ∈ accepted, a.parentElementId = some e.elementId →
      b.parentElementId = some e'.elementId → PageLe a b
  ownerless : (insertsByParent accepted none).Pairwise PageLe
  last : ∀ b ∈ accepted, b.parentElementId = none → (∀ e ∈ native, PageLe e b) ∧
    ∀ e ∈ native, ∀ a ∈ accepted, a.parentElementId = some e.elementId → PageLe a b

/-- Every owner of an accepted element is there once. -/
def OwnersUnique (native accepted : List DocumentElement) : Prop :=
  ∀ a ∈ accepted, ∀ id ∈ a.parentElementId,
    (native.map DocumentElement.elementId).count id = 1

/-! ## The accepted elements -/

section Accepted

variable {env : OcrEnvironment} {profile : OcrProfile} {document : ParsedDocument}

/-- What every accepted element carries: no place yet, and the owner of a candidate. -/
def FromCandidate (document : ParsedDocument) (element : DocumentElement) : Prop :=
  element.orderIndex = 0 ∧
    ∃ candidate ∈ document.ocrCandidates, element.parentElementId = candidate.elementId

theorem reconcileObservation_fromCandidate {candidate : OcrCandidate} {result : OcrCandidateResult}
    {state : Reconciled} (hcandidate : candidate ∈ document.ocrCandidates)
    (h : ∀ e ∈ state.accepted, FromCandidate document e) (observation : OcrObservation) :
    ∀ e ∈ (reconcileObservation env profile document candidate result state observation).accepted,
      FromCandidate document e := by
  rw [reconcileObservation]
  split
  · exact h
  · intro e he
    rcases List.mem_append.mp he with he | he
    · exact h e he
    · obtain rfl := List.mem_singleton.mp he
      exact ⟨rfl, candidate, hcandidate, rfl⟩

theorem reconcileResult_fromCandidate {state : Reconciled}
    (h : ∀ e ∈ state.accepted, FromCandidate document e) (result : OcrCandidateResult) :
    ∀ e ∈ (reconcileResult env profile document state result).accepted,
      FromCandidate document e := by
  rw [reconcileResult]
  cases hfind : document.ocrCandidates.find? fun c => c.candidateId == result.candidateId with
  | none => exact h
  | some candidate =>
    have hcandidate := List.mem_of_find?_eq_some hfind
    dsimp only
    generalize result.observations = observations
    induction observations generalizing state with
    | nil => exact h
    | cons observation observations ih =>
      exact ih (reconcileObservation_fromCandidate hcandidate h observation)

theorem reconcile_fromCandidate (results : List OcrCandidateResult) :
    ∀ e ∈ reconcile env profile document results, FromCandidate document e := by
  have hfold : ∀ state : Reconciled, (∀ e ∈ state.accepted, FromCandidate document e) →
      ∀ e ∈ (results.foldl (reconcileResult env profile document) state).accepted,
        FromCandidate document e := by
    induction results with
    | nil => exact fun state h => h
    | cons result results ih => exact fun state h => ih _ (reconcileResult_fromCandidate h result)
  exact hfold {} (List.forall_mem_nil _)

end Accepted

/-! ## The inputs -/

theorem validatePipelineInputs_ok {sourceSha256 sourceFormat : String} {document : ParsedDocument}
    {profile : OcrProfile} {identity : OcrModelIdentity}
    (h : validatePipelineInputs sourceSha256 sourceFormat document profile identity = .ok ()) :
    (document.ocrCandidates.map OcrCandidate.candidateId).Nodup ∧
      ∀ candidate ∈ document.ocrCandidates, ∀ id ∈ candidate.elementId,
        id ∈ document.elements.map DocumentElement.elementId := by
  rw [validatePipelineInputs, except_guard_ok] at h
  obtain ⟨-, h⟩ := h
  rw [except_guard_ok] at h
  obtain ⟨-, h⟩ := h
  rw [except_guard_ok] at h
  obtain ⟨hnodup, h⟩ := h
  rw [except_guard_ok] at h
  obtain ⟨howners, -⟩ := h
  refine ⟨not_not.mp hnodup, fun candidate hcandidate id hid => ?_⟩
  by_contra hmissing
  refine howners (List.any_eq_true.mpr ⟨candidate, hcandidate, ?_⟩)
  rw [Option.mem_def.mp hid, Option.any_some, Bool.not_eq_true', ← Bool.not_eq_true,
    List.contains_iff_mem]
  exact hmissing

/-! ## The merge -/

section Merge

variable {native accepted : List DocumentElement}

theorem mergeElements_eq : mergeElements native accepted =
    insertAll DocumentElement.elementId DocumentElement.parentElementId native accepted := rfl

theorem map_unindexed_reindex (elements : List DocumentElement) :
    (reindex elements).map DocumentElement.unindexed = elements.map DocumentElement.unindexed := by
  refine List.ext_getElem (by simp [reindex]) (fun i hi hi' => ?_)
  simp [reindex, DocumentElement.unindexed]

theorem map_orderIndex_reindex (elements : List DocumentElement) :
    (reindex elements).map DocumentElement.orderIndex =
      (List.range (reindex elements).length).map Int.ofNat := by
  refine List.ext_getElem (by simp) (fun i hi hi' => ?_)
  simp [reindex]

theorem copies_eq_one_iff (a : DocumentElement) :
    copies DocumentElement.elementId DocumentElement.parentElementId native a = 1 ↔
      ∀ id ∈ a.parentElementId, (native.map DocumentElement.elementId).count id = 1 := by
  rw [copies]
  cases a.parentElementId with
  | none => simp
  | some id => simp

theorem copies_pos {a : DocumentElement}
    (h : ∀ id ∈ a.parentElementId, id ∈ native.map DocumentElement.elementId) :
    0 < copies DocumentElement.elementId DocumentElement.parentElementId native a := by
  rw [copies]
  cases howner : a.parentElementId with
  | none => exact Nat.one_pos
  | some id => exact List.count_pos_iff.mpr (h id howner)

/-- The page law, place by place. -/
theorem pairwise_unindexed_iff (hsame : ∀ a ∈ accepted, a.unindexed = a) :
    ((mergeElements native accepted).map DocumentElement.unindexed).Pairwise
        (fun x y => x ∈ accepted ∨ y ∈ accepted → PageLe x y) ↔ PagesInOrder native accepted := by
  have hleft : ∀ a ∈ accepted, ∀ x : DocumentElement,
      (a.unindexed ∈ accepted ∨ x.unindexed ∈ accepted → PageLe a x) ↔ PageLe a x := by
    intro a ha x
    exact ⟨fun h => h (.inl ((hsame a ha).symm ▸ ha)), fun h _ => h⟩
  have hright : ∀ a ∈ accepted, ∀ x : DocumentElement,
      (x.unindexed ∈ accepted ∨ a.unindexed ∈ accepted → PageLe x a) ↔ PageLe x a := by
    intro a ha x
    exact ⟨fun h => h (.inr ((hsame a ha).symm ▸ ha)), fun h _ => h⟩
  have howned : ∀ o, (owned DocumentElement.parentElementId accepted o).Pairwise
      (fun x y => x.unindexed ∈ accepted ∨ y.unindexed ∈ accepted → PageLe x y) ↔
      (insertsByParent accepted o).Pairwise PageLe := by
    intro o
    refine List.Pairwise.iff_of_mem (fun {x y} hx _ => ?_)
    exact hleft x (mem_owned.mp hx).1 y
  rw [List.pairwise_map, mergeElements_eq, pairwise_insertAll_iff]
  constructor
  · rintro ⟨hequal, howner, hsiblings, hlater, hownerless, hlast⟩
    refine ⟨hequal, fun e he a ha hp => ?_, fun e he => ?_, hlater.imp fun {e e'} h => ?_, ?_,
      fun b hb hp => ?_⟩
    · exact (hright a ha e).mp (howner e he a ha hp)
    · exact (howned _).mp (hsiblings e he)
    · obtain ⟨ha, hb, hab⟩ := h
      exact ⟨fun a hmem hp => (hleft a hmem e').mp (ha a hmem hp),
        fun b hmem hp => (hright b hmem e).mp (hb b hmem hp),
        fun a hmem b hmem' hp hp' => (hleft a hmem b).mp (hab a hmem b hmem' hp hp')⟩
    · exact (howned none).mp hownerless
    · obtain ⟨hnative, howned'⟩ := hlast b hb hp
      exact ⟨fun e he => (hright b hb e).mp (hnative e he),
        fun e he a ha hp' => (hright b hb a).mp (howned' e he a ha hp')⟩
  · intro h
    refine ⟨h.equal, fun e he a ha hp _ => h.owner e he a ha hp, fun e he => ?_,
      h.later.imp fun {e e'} hpair => ?_, ?_, fun b hb hp => ?_⟩
    · exact (howned _).mpr (h.siblings e he)
    · obtain ⟨ha, hb, hab⟩ := hpair
      exact ⟨fun a hmem hp _ => ha a hmem hp, fun b hmem hp _ => hb b hmem hp,
        fun a hmem b hmem' hp hp' _ => hab a hmem b hmem' hp hp'⟩
    · exact (howned none).mpr h.ownerless
    · obtain ⟨hnative, howned'⟩ := h.last b hb hp
      exact ⟨fun e he _ => hnative e he, fun e he a ha hp' _ => howned' e he a ha hp'⟩

/-- The law holds of the merge exactly when owners are unique and pages in order. -/
theorem mergeLaw_reindex_iff (hindex : ∀ a ∈ accepted, a.orderIndex = 0)
    (howners : ∀ a ∈ accepted, ∀ id ∈ a.parentElementId,
      id ∈ native.map DocumentElement.elementId) :
    MergeLaw native accepted (reindex (mergeElements native accepted)) ↔
      OwnersUnique native accepted ∧ PagesInOrder native accepted := by
  have hsame : ∀ a ∈ accepted, a.unindexed = a := by
    intro a ha
    rw [DocumentElement.unindexed, ← hindex a ha]
  have hmap : accepted.map DocumentElement.unindexed = accepted :=
    (List.map_congr_left hsame).trans (List.map_id' accepted)
  have hunindexed : (reindex (mergeElements native accepted)).map DocumentElement.unindexed =
      (mergeElements native accepted).map DocumentElement.unindexed := map_unindexed_reindex _
  have hpositive : ∀ a ∈ accepted,
      0 < copies DocumentElement.elementId DocumentElement.parentElementId native a :=
    fun a ha => copies_pos (howners a ha)
  have honce : ((mergeElements native accepted).map DocumentElement.unindexed).Perm
      (native.map DocumentElement.unindexed ++ accepted) ↔ OwnersUnique native accepted := by
    have hcopies : OwnersUnique native accepted ↔ ∀ a ∈ accepted,
        copies DocumentElement.elementId DocumentElement.parentElementId native a = 1 :=
      forall₂_congr (fun a _ => (copies_eq_one_iff a).symm)
    rw [hcopies, mergeElements_eq]
    constructor
    · intro hperm
      have hlength := hperm.length_eq
      rw [List.length_append, List.length_map, List.length_map] at hlength
      exact copies_of_length hpositive hlength
    · intro hone
      have hperm := (insertAll_perm_of_copies hone).map DocumentElement.unindexed
      rwa [List.map_append, hmap] at hperm
  have hpages : ((mergeElements native accepted).map DocumentElement.unindexed).Pairwise
      (fun x y => x ∈ accepted ∨ y ∈ accepted → PageLe x y) ↔ PagesInOrder native accepted :=
    pairwise_unindexed_iff hsame
  constructor
  · intro hlaw
    exact ⟨honce.mp (hunindexed ▸ hlaw.once), hpages.mp (hunindexed ▸ hlaw.pages)⟩
  · rintro ⟨hunique, horder⟩
    refine ⟨?_, ?_, map_orderIndex_reindex _, ?_⟩
    · rw [hunindexed, mergeElements_eq]
      exact sublist_insertAll.map DocumentElement.unindexed
    · rw [hunindexed]
      exact honce.mpr hunique
    · rw [hunindexed]
      exact hpages.mpr horder

end Merge

/-! ## The pipeline -/

theorem process_ok {env : OcrEnvironment} {sourceSha256 sourceFormat : String}
    {document : ParsedDocument} {mode : OcrMode} {profile : OcrProfile} {result : OcrPipelineResult}
    (h : env.process sourceSha256 sourceFormat document mode profile = .ok result) :
    validatePipelineInputs sourceSha256 sourceFormat document profile env.identity = .ok () ∧
      result.candidateResults = (processCandidates env profile document.ocrCandidates).results ∧
      result.acceptedOcrElements =
        reconcile env profile document (processCandidates env profile document.ocrCandidates).results ∧
      result.document.elements =
        reindex (mergeElements document.elements result.acceptedOcrElements) := by
  rw [OcrEnvironment.process] at h
  obtain ⟨⟨⟩, hvalid, h⟩ := except_bind_ok.mp h
  obtain rfl := Except.ok.inj h
  exact ⟨hvalid, rfl, rfl, rfl⟩

/-- A paragraph of a page. -/
def pageParagraph (id : String) (page : Int) : DocumentElement where
  elementId := id
  type := .paragraph
  orderIndex := 0
  text := some id
  geometry := some { pageNumber := some page }

/-- A whole page to be recognised. -/
def pageCandidate (page : Int) : OcrCandidate :=
  ⟨"ocr-page", "PAGE", some page, "scanned_image", none, none, []⟩

/-- A pipeline that reads one word off every page. -/
def onePagePipeline : OcrEnvironment :=
  asciiOcr
    (fun c => some ⟨c.candidateId, [0], 100, 100, c.pageNumber, c.elementId, c.geometry⟩)
    (fun r => .observations [⟨"scan", 1, 0, r.candidateId, r.sourceElementId, r.pageNumber, none,
      sampleOcrIdentity, none⟩])

/-- Two paragraphs on two pages, and a page that was scanned too. -/
def scannedDocument (page : Int) : ParsedDocument :=
  sampleParsed [pageParagraph "first" 1, pageParagraph "second" 2] [pageCandidate page]

/-- The word read off the page. -/
def scannedElement (page : Int) : DocumentElement :=
  acceptedElement onePagePipeline {} (scannedDocument page) (pageCandidate page)
    ⟨"ocr-page", .required, ["scanned_image"], [], []⟩
    ⟨"scan", 1, 0, "ocr-page", none, some page, none, sampleOcrIdentity, none⟩

theorem process_scanned {page : Int} (hpage : page ∈ [1, 2]) :
    ∃ result, onePagePipeline.process "sha" "PDF" (scannedDocument page) .ifNeeded {} = .ok result ∧
      result.acceptedOcrElements = [scannedElement page] ∧
      result.document.elements = reindex
        [pageParagraph "first" 1, pageParagraph "second" 2, scannedElement page] := by
  have hvalid : ∀ p ∈ [(1 : Int), 2], validatePipelineInputs "sha" "PDF" (scannedDocument p) {}
      sampleOcrIdentity = .ok () := by
    decide +kernel
  have hresults : ∀ p ∈ [(1 : Int), 2],
      (processCandidates onePagePipeline {} (scannedDocument p).ocrCandidates).results =
        [⟨"ocr-page", .required, ["scanned_image"], [⟨"scan", 1, 0, "ocr-page", none, some p, none,
          sampleOcrIdentity, none⟩], []⟩] := by
    decide +kernel
  have hnative : ∀ p ∈ [(1 : Int), 2], (nativeTexts (scannedDocument p).elements (some p)).any
      (fun text => 43 / 50 ≤ similarity onePagePipeline "scan" text) = false := by
    decide +kernel
  have haccepted : reconcile onePagePipeline {} (scannedDocument page)
      (processCandidates onePagePipeline {} (scannedDocument page).ocrCandidates).results =
        [scannedElement page] := by
    rw [hresults page hpage, reconcile, List.foldl_cons, List.foldl_nil, reconcileResult]
    change (reconcileObservation onePagePipeline {} (scannedDocument page) (pageCandidate page) _ {}
      _).accepted = _
    rw [reconcileObservation]
    simp only [hnative page hpage]
    rw [if_neg (by simp)]
    rfl
  refine ⟨_, by rw [OcrEnvironment.process]; exact except_bind_ok.mpr ⟨(), hvalid page hpage, rfl⟩,
    haccepted, ?_⟩
  change reindex (mergeElements _ (reconcile onePagePipeline {} (scannedDocument page) _)) = _
  rw [haccepted]
  rfl

end AstraIndexator
