import AstraIndexator.Foundation.Limited
import AstraIndexator.Parser.Html

/-!
# Drafts of a document

Every handler puts its elements one behind the other, each named by the place it was found at.
The elements of a document are then the numbered entries of a list, and what holds of all
documents holds of the lists of entries.
-/

namespace AstraIndexator

open Text Transaction

/-- What `parse` of a handler raises. -/
inductive ParserException
  | parserError (e : ParserError)
  /-- An exception of a library, by its name. -/
  | other (name : String)
  deriving DecidableEq

/-- The exceptions of the handler itself. -/
def handled {α : Type} (result : Except ParserError α) : Except ParserException α :=
  result.mapError .parserError

/-- The text of a locator, from its fields. -/
def locatorText (fields : List String) : String := Joined.join ':' fields

/-- What goes into an element besides its number, and the place that names it. -/
structure Entry extends Emission where
  locator : String
  geometry : Option SourceGeometry := none
  styleHints : List (String × Json) := []

namespace Entry

/-- The characters `_doc` counts. -/
def chars (entry : Entry) : Nat := (entry.text.getD "").length

section Naming

variable (digest : HexDigest) (source : ParsedSource) (context : ParseContext)

def elementId (entry : Entry) : String := eid digest source context entry.locator entry.kind

/-- The element of the given number. -/
def element (entry : Entry) (orderIndex : Nat) : DocumentElement where
  elementId := entry.elementId digest source context
  type := entry.kind
  orderIndex := orderIndex
  text := entry.text
  level := entry.level
  geometry := entry.geometry
  sectionPath := entry.sectionPath
  sourceLocator := entry.sourceLocator
  styleHints := entry.styleHints
  role := entry.role
  metadata := entry.metadata

/-- A candidate for the recognition of what the element shows. -/
def ocrCandidate (entry : Entry) (scope : String) (pageNumber : Option Int) (reason : String)
    (metadata : List (String × Json)) : OcrCandidate where
  candidateId := "ocr:" ++ entry.elementId digest source context
  scope := scope
  pageNumber := pageNumber
  reason := reason
  elementId := some (entry.elementId digest source context)
  geometry := entry.geometry
  metadata := metadata

/-- The text the identifier is the digest of. -/
def identityText (source : ParsedSource) (context : ParseContext) (entry : Entry) : String :=
  unitSeparated [DeliveryIdentity.uuidText context.documentId, toString context.documentVersion,
    source.sha256, source.detectedFormat, entry.locator, entry.kind.value]

end Naming

end Entry

/-! ## Elements -/

section Drafting

variable (digest : HexDigest) (source : ParsedSource) (context : ParseContext)

/-- The elements of a list of entries. -/
def drafted (entries : List Entry) : List DocumentElement :=
  entries.mapIdx fun orderIndex entry => entry.element digest source context orderIndex

/-- The characters of a list of entries. -/
def draftedChars (entries : List Entry) : Nat := (entries.map Entry.chars).sum

/-- The elements are no more than a document may hold. -/
structure WithinParseLimits (context : ParseContext) (elements : List DocumentElement) : Prop where
  count : (elements.length : Int) ≤ context.limits.maxElements
  chars : (extractedChars elements : Int) ≤ context.limits.maxExtractedChars

/-- `_append` -/
def appendEntry (elements : List DocumentElement) (entry : Entry) :
    Except ParserError (List DocumentElement) := do
  if context.limits.maxElements ≤ elements.length then
    throw ⟨"PARSER_ELEMENT_LIMIT", "parser element limit exceeded"⟩
  return elements ++ [entry.element digest source context elements.length]

/-- The document of a list of entries. -/
def draftedDocument (name : String) (entries : List Entry) (candidates : List OcrCandidate)
    (warnings pageModes : List String) : ParsedDocument where
  schemaVersion := "astra-indexator-document-v1"
  documentId := context.documentId
  documentVersion := context.documentVersion
  sourceSha256 := source.sha256
  detectedFormat := source.detectedFormat
  parser := ⟨name, "m4-v1", context.parserProfile⟩
  elements := drafted digest source context entries
  ocrCandidates := candidates
  quality := {
    status :=
      if candidates ≠ [] then .ocrRequired
      else if draftedChars entries = 0 then .lowSignal
      else .good
    nativeTextChars := draftedChars entries
    ocrCandidateCount := candidates.length
    warnings := warnings
    pageModes := pageModes }

end Drafting

variable {digest : HexDigest} {source : ParsedSource} {context : ParseContext}
  {entries more : List Entry}

@[simp] theorem drafted_nil : drafted digest source context [] = [] := rfl

@[simp] theorem length_drafted : (drafted digest source context entries).length = entries.length :=
  List.length_mapIdx

theorem drafted_concat (entry : Entry) : drafted digest source context (entries ++ [entry]) =
    drafted digest source context entries ++
      [entry.element digest source context entries.length] :=
  List.mapIdx_concat

theorem map_drafted {α : Type} {f : DocumentElement → α} {g : Entry → α}
    (h : ∀ entry orderIndex, f (entry.element digest source context orderIndex) = g entry) :
    (drafted digest source context entries).map f = entries.map g := by
  rw [drafted, List.mapIdx_eq_zipIdx_map, List.map_map]
  conv_rhs => rw [← List.zipIdx_map_fst 0 entries, List.map_map]
  exact List.map_congr_left fun entry _ => h entry.1 entry.2

theorem extractedChars_drafted :
    extractedChars (drafted digest source context entries) = draftedChars entries := by
  have hchars : (drafted digest source context entries).map (fun e => (e.text.getD "").length) =
      entries.map Entry.chars := map_drafted fun _ _ => rfl
  rw [extractedChars, hchars, draftedChars]

/-- The elements are numbered from zero. -/
theorem orderIndex_drafted :
    (drafted digest source context entries).map DocumentElement.orderIndex =
      (List.range entries.length).map Int.ofNat := by
  induction entries using List.reverseRecOn with
  | nil => rfl
  | append_singleton entries entry ih =>
    rw [drafted_concat, List.map_append, ih, List.length_append, List.length_singleton,
      List.range_succ, List.map_append]
    rfl

theorem handled_ok {α : Type} {result : Except ParserError α} {a : α} :
    handled result = .ok a ↔ result = .ok a := by
  cases result with
  | ok b => simp [handled, Except.mapError]
  | error e => simp [handled, Except.mapError]

theorem WithinParseLimits.of_append {elements others : List DocumentElement}
    (h : WithinParseLimits context (elements ++ others)) : WithinParseLimits context elements := by
  have hcount := h.count
  have hchars := h.chars
  rw [List.length_append] at hcount
  rw [extractedChars, List.map_append, List.sum_append] at hchars
  constructor
  · omega
  · rw [extractedChars]
    omega

theorem withinParseLimits_of_parsedDocument {name : String} {elements : List DocumentElement}
    {candidates : List OcrCandidate} {warnings pageModes : List String} {document : ParsedDocument}
    (h : parsedDocument source context name elements candidates warnings pageModes =
      .ok document) : WithinParseLimits context elements := by
  rw [parsedDocument, except_guard_ok, except_guard_ok, not_lt, not_lt] at h
  exact ⟨h.1, h.2.1⟩

/-- `_append` of what has no geometry. -/
theorem appendElement_eq {elements : List DocumentElement} {locator : String}
    {emission : Emission} : appendElement digest source context elements locator emission =
      appendEntry digest source context elements { emission with locator } :=
  rfl

theorem appendEntry_ok {elements elements' : List DocumentElement} {entry : Entry} :
    appendEntry digest source context elements entry = .ok elements' ↔
      (elements.length : Int) < context.limits.maxElements ∧
        elements' = elements ++ [entry.element digest source context elements.length] := by
  rw [appendEntry, except_guard_ok, not_le]
  exact and_congr_right fun _ => ⟨fun h => (Except.ok.inj h).symm, fun h => h ▸ rfl⟩

/-- `_doc` of the elements of a list of entries. -/
theorem parsedDocument_drafted {name : String} {candidates : List OcrCandidate}
    {warnings pageModes : List String} {document : ParsedDocument} :
    parsedDocument source context name (drafted digest source context entries) candidates warnings
        pageModes = .ok document ↔
      WithinParseLimits context (drafted digest source context entries) ∧
        document = draftedDocument digest source context name entries candidates warnings
          pageModes := by
  rw [parsedDocument, except_guard_ok, except_guard_ok, not_lt, not_lt, ← and_assoc]
  refine and_congr ⟨fun h => ⟨h.1, h.2⟩, fun h => ⟨h.count, h.chars⟩⟩ ?_
  rw [draftedDocument, ← @extractedChars_drafted digest source context]
  exact ⟨fun h => (Except.ok.inj h).symm, fun h => h ▸ rfl⟩

theorem drafted_append : drafted digest source context (entries ++ more) =
    more.foldl (fun elements entry =>
      elements ++ [entry.element digest source context elements.length])
      (drafted digest source context entries) := by
  induction more generalizing entries with
  | nil => rw [List.append_nil, List.foldl_nil]
  | cons entry more ih =>
    rw [List.foldl_cons, length_drafted, ← drafted_concat, ← ih, List.append_assoc]
    rfl

/-- A loop that appends, and `_doc` behind it. -/
theorem foldlM_appendEntry {name : String} {candidates : List OcrCandidate}
    {warnings pageModes : List String} {document : ParsedDocument} :
    (do
      let elements ← entries.foldlM (appendEntry digest source context) []
      parsedDocument source context name elements candidates warnings pageModes) =
        .ok document ↔
      WithinParseLimits context (drafted digest source context entries) ∧
        document = draftedDocument digest source context name entries candidates warnings
          pageModes := by
  have hloop : Limited.Loop (appendEntry digest source context)
      (fun elements entry => elements ++ [entry.element digest source context elements.length])
      (fun _ => True) fun elements => (elements.length : Int) ≤ context.limits.maxElements := {
    taken := fun _ _ _ h => ⟨trivial, (appendEntry_ok.mp h).2⟩
    succeeds := fun _ _ _ h => appendEntry_ok.mpr ⟨by simpa [Int.add_one_le_iff] using h, rfl⟩
    earlier := fun _ _ h => by
      rw [List.length_append] at h
      omega }
  have hall := @drafted_append digest source context [] entries
  rw [List.nil_append, drafted_nil] at hall
  rw [hloop.bind_ok_iff fun _ _ h => (withinParseLimits_of_parsedDocument h).count, ← hall,
    parsedDocument_drafted]
  exact and_iff_right fun _ _ => trivial

/-! ## Names -/

theorem ElementType.value_injective {kind kind' : ElementType} (h : kind.value = kind'.value) :
    kind = kind' := by
  revert h
  cases kind <;> cases kind' <;> decide

/-- The place and the kind are read back from the text of the identity. -/
theorem Entry.identityText_injective {entry entry' : Entry}
    (h : entry.identityText source context = entry'.identityText source context) :
    entry.locator = entry'.locator ∧ entry.kind = entry'.kind := by
  obtain ⟨hlocator, hkind⟩ := @Joined.join_append_injective _
    [DeliveryIdentity.uuidText context.documentId, toString context.documentVersion,
      source.sha256, source.detectedFormat] _ _ _ _
    (HtmlDocumentHandler.no_separator_value entry.kind)
    (HtmlDocumentHandler.no_separator_value entry'.kind) h
  exact ⟨hlocator, ElementType.value_injective hkind⟩

/-- The digest tells the names of the entries apart. -/
def NamesSeparate (digest : HexDigest) (source : ParsedSource) (context : ParseContext)
    (entries : List Entry) : Prop :=
  ∀ entry ∈ entries, ∀ entry' ∈ entries,
    entry.elementId digest source context = entry'.elementId digest source context →
      entry.identityText source context = entry'.identityText source context

instance (entries : List Entry) : Decidable (NamesSeparate digest source context entries) :=
  inferInstanceAs (Decidable (∀ _ ∈ _, ∀ _ ∈ _, _ → _))

/-- Fields without a colon are read back from a locator. -/
theorem locatorText_injective {first first' : String} {fields fields' : List String}
    (h : ∀ field ∈ first :: fields, ':' ∉ field.toList)
    (h' : ∀ field ∈ first' :: fields', ':' ∉ field.toList)
    (heq : locatorText (first :: fields) = locatorText (first' :: fields')) :
    first :: fields = first' :: fields' :=
  Joined.join_injective h h' (List.cons_ne_nil _ _) (List.cons_ne_nil _ _) heq

/-- Places that tell the entries apart. -/
theorem nodup_locators (h : ∀ i j (hi : i < entries.length) (hj : j < entries.length),
    entries[i].locator = entries[j].locator → i = j) : (entries.map Entry.locator).Nodup := by
  rw [List.Nodup, List.pairwise_map, List.pairwise_iff_getElem]
  intro i j hi hj hlt heq
  exact Nat.ne_of_lt hlt (h i j hi hj heq)

theorem colon_notMem_toString (n : Nat) : ':' ∉ (toString n).toList :=
  Joined.notMem_toString (by decide) n

/-- The number is read back from a locator of one number. -/
theorem numbered_injective {stem : String} {m n : Nat} (hstem : ':' ∉ stem.toList)
    (h : locatorText [stem, toString m] = locatorText [stem, toString n]) : m = n := by
  have hcolon : ∀ n : Nat, ∀ field ∈ [stem, toString n], ':' ∉ field.toList := by
    intro n
    rw [List.forall_mem_cons, List.forall_mem_singleton]
    exact ⟨hstem, colon_notMem_toString n⟩
  have hfields := locatorText_injective (hcolon m) (hcolon n) h
  exact Joined.toString_injective (List.cons.inj (List.cons.inj hfields).2).1

theorem elementId_drafted : (drafted digest source context entries).map DocumentElement.elementId =
    entries.map (Entry.elementId digest source context) :=
  map_drafted fun _ _ => rfl

/-- The identifiers differ exactly where the places or the kinds do. -/
theorem nodup_elementIds (hnames : NamesSeparate digest source context entries) :
    ((drafted digest source context entries).map DocumentElement.elementId).Nodup ↔
      (entries.map fun entry => (entry.locator, entry.kind)).Nodup := by
  rw [elementId_drafted, List.Nodup, List.Nodup, List.pairwise_map, List.pairwise_map]
  constructor
  · intro h
    refine h.imp fun hne heq => hne ?_
    obtain ⟨hlocator, hkind⟩ := Prod.mk.inj heq
    rw [Entry.elementId, Entry.elementId, hlocator, hkind]
  · intro h
    refine List.Pairwise.imp_of_mem (fun hmem hmem' hne heq => hne ?_) h
    obtain ⟨hlocator, hkind⟩ := Entry.identityText_injective (hnames _ hmem _ hmem' heq)
    exact Prod.ext hlocator hkind

/-! ## Candidates -/

/-- The identifiers of the images. -/
def imageIds (elements : List DocumentElement) : List String :=
  elements.filterMap fun e => if e.type = .image then some e.elementId else none

/-- The identifier of an entry for an image. -/
def Entry.imageId? (digest : HexDigest) (source : ParsedSource) (context : ParseContext)
    (entry : Entry) : Option String :=
  if entry.kind = .image then some (entry.elementId digest source context) else none

theorem filterMap_eq {α β : Type} (f : α → Option β) (l : List α) :
    l.filterMap f = (l.map f).filterMap id := by
  rw [List.filterMap_map, Function.id_comp]

theorem imageIds_drafted : imageIds (drafted digest source context entries) =
    entries.filterMap (Entry.imageId? digest source context) := by
  have hids : (drafted digest source context entries).map
      (fun e => if e.type = .image then some e.elementId else none) =
        entries.map (Entry.imageId? digest source context) := map_drafted fun _ _ => rfl
  rw [imageIds, filterMap_eq, hids, ← filterMap_eq]

/-- A candidate belongs to an image of its own, and is named after it, or it is for a page of its
own. -/
structure Owned (elements : List DocumentElement) (candidates : List OcrCandidate) : Prop where
  owners : (candidates.filterMap OcrCandidate.elementId).Sublist (imageIds elements)
  named : ∀ c ∈ candidates, ∀ id ∈ c.elementId, c.candidateId = "ocr:" ++ id
  pages : ∃ numbers : List Nat, numbers.Nodup ∧
    (candidates.filter fun c => c.elementId.isNone).map OcrCandidate.candidateId =
      numbers.map fun number => "ocr-page:" ++ toString number

/-- A candidate for an embedded image, or for a page whose mode asks for recognition. -/
def Asked (pageModes : List String) (candidate : OcrCandidate) : Prop :=
  candidate.scope = "EMBEDDED_IMAGE" ∧ (∀ number ∈ candidate.pageNumber, 0 < number) ∨
  candidate.scope = "PAGE" ∧ ∃ (index : Nat) (mode : String),
    candidate.pageNumber = some ((index : Int) + 1) ∧ pageModes[index]? = some mode ∧
      mode ∈ ["SCANNED_IMAGE", "LOW_SIGNAL"]

theorem Owned.nil (elements : List DocumentElement) : Owned elements [] :=
  ⟨List.nil_sublist _, List.forall_mem_nil _, [], List.nodup_nil, rfl⟩

theorem sublist_imageIds (elements : List DocumentElement) :
    (imageIds elements).Sublist (elements.map DocumentElement.elementId) := by
  induction elements with
  | nil => exact List.Sublist.refl []
  | cons e elements ih =>
    rw [imageIds, List.filterMap_cons, List.map_cons]
    split
    · exact ih.cons _
    · next id hid =>
      rw [Option.ite_none_right_eq_some] at hid
      obtain rfl := Option.some.inj hid.2
      exact ih.cons_cons _

theorem Owned.mem_elementIds {elements : List DocumentElement} {candidates : List OcrCandidate}
    (h : Owned elements candidates) : ∀ c ∈ candidates, ∀ id ∈ c.elementId,
      id ∈ elements.map DocumentElement.elementId := by
  intro c hc id hid
  exact (sublist_imageIds elements).subset (h.owners.subset
    (List.mem_filterMap.mpr ⟨c, hc, Option.mem_def.mp hid⟩))

/-- An image and a page are named apart. -/
theorem ocrName_ne_pageName (id : String) (number : Nat) :
    "ocr:" ++ id ≠ "ocr-page:" ++ toString number := by
  intro heq
  have hlists := congrArg (fun s : String => s.toList.take 4) heq
  simp at hlists

section Names

variable {elements : List DocumentElement} {candidates : List OcrCandidate}

/-- The name of a candidate for a page. -/
theorem Owned.exists_pageNumber (h : Owned elements candidates) {c : OcrCandidate}
    (hc : c ∈ candidates) (hpage : c.elementId = none) :
    ∃ number : Nat, c.candidateId = "ocr-page:" ++ toString number := by
  obtain ⟨numbers, -, hpages⟩ := h.pages
  have hnone : c.elementId.isNone = true := Option.isNone_iff_eq_none.mpr hpage
  have hmem := List.mem_map_of_mem (f := OcrCandidate.candidateId)
    (List.mem_filter.mpr ⟨hc, hnone⟩ : c ∈ candidates.filter fun c => c.elementId.isNone)
  rw [hpages] at hmem
  obtain ⟨number, -, hnumber⟩ := List.mem_map.mp hmem
  exact ⟨number, hnumber.symm⟩

/-- The candidates for pages are named apart. -/
theorem Owned.pairwise_pages (h : Owned elements candidates) :
    candidates.Pairwise fun c c' => c.elementId = none → c'.elementId = none →
      c.candidateId ≠ c'.candidateId := by
  obtain ⟨numbers, hnumbers, hpages⟩ := h.pages
  have hnodup : ((candidates.filter fun c => c.elementId.isNone).map
      OcrCandidate.candidateId).Nodup := by
    rw [hpages]
    refine hnumbers.map fun m n heq => ?_
    exact Joined.toString_injective ((String.append_right_inj _).mp heq)
  rw [List.Nodup, List.pairwise_map, List.pairwise_filter] at hnodup
  simp only [Option.isNone_iff_eq_none] at hnodup
  exact hnodup

/-- Two candidates that belong to different images, if to any, are named apart. -/
theorem Owned.candidateId_ne (h : Owned elements candidates) {c c' : OcrCandidate}
    (hc : c ∈ candidates) (hc' : c' ∈ candidates)
    (howners : ∀ id ∈ c.elementId, ∀ id' ∈ c'.elementId, id ≠ id')
    (hpages : c.elementId = none → c'.elementId = none → c.candidateId ≠ c'.candidateId) :
    c.candidateId ≠ c'.candidateId := by
  cases hid : c.elementId with
  | none =>
    cases hid' : c'.elementId with
    | none => exact hpages hid hid'
    | some id' =>
      obtain ⟨number, hnumber⟩ := h.exists_pageNumber hc hid
      rw [hnumber, h.named c' hc' id' hid']
      exact (ocrName_ne_pageName id' number).symm
  | some id =>
    rw [h.named c hc id hid]
    cases hid' : c'.elementId with
    | none =>
      obtain ⟨number, hnumber⟩ := h.exists_pageNumber hc' hid'
      rw [hnumber]
      exact ocrName_ne_pageName id number
    | some id' =>
      rw [h.named c' hc' id' hid']
      exact fun heq => howners id hid id' hid' ((String.append_right_inj _).mp heq)

/-- The candidates have different names exactly when they belong to different images. -/
theorem Owned.nodup_iff (h : Owned elements candidates) :
    (candidates.map OcrCandidate.candidateId).Nodup ↔
      (candidates.filterMap OcrCandidate.elementId).Nodup := by
  rw [List.Nodup, List.pairwise_map, List.pairwise_filterMap]
  constructor
  · intro hnames
    refine hnames.imp_of_mem ?_
    intro c c' hc hc' hne id hid id' hid' heq
    refine hne ?_
    rw [h.named c hc id hid, h.named c' hc' id' hid', heq]
  · intro howners
    refine (howners.and h.pairwise_pages).imp_of_mem ?_
    intro c c' hc hc' hboth
    exact h.candidateId_ne hc hc' hboth.1 hboth.2

end Names

end AstraIndexator
