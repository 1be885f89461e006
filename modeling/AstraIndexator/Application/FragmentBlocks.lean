import AstraIndexator.Application.PreparedArtifactBlocks
import AstraIndexator.PreparedArtifacts.Assembler

/-!
# The blocks of assembled fragments

The mapper reads the records the assembler makes of fragments.  It refuses them for a blank
text, for a page before the first and for an identifier that two of them share, and otherwise
makes of each a block that carries its text.
-/

namespace AstraIndexator

open Text Transaction DeliveryIdentity PreparedArtifactAssembler

namespace PreparedArtifactDelivery

variable {py : PythonRuntime} {repr : Json → String}

/-! ## Records -/

section Record

variable {fragment : LogicalFragment}

/-- The record of a fragment as it is loaded. -/
def loadedRecord (fragment : LogicalFragment) : JsonObject :=
  JsonObject.sorted (fragmentRecord fragment)

theorem map_loadedRecord (fragments : List LogicalFragment) :
    (fragments.map fragmentRecord).map JsonObject.sorted = fragments.map loadedRecord := by
  induction fragments with
  | nil => rfl
  | cons fragment fragments ih =>
    rw [List.map_cons, List.map_cons, List.map_cons, ih, loadedRecord]

/-- The type of the block of a fragment. -/
def blockTypeOf (fragmentType : FragmentType) : String :=
  (fragmentBlockTypes.lookup fragmentType.value).getD ""

/-- What the mapper reads from the record of a fragment. -/
def validatedOf (fragment : LogicalFragment) : ValidatedFragment where
  record := loadedRecord fragment
  fragmentId := fragment.fragmentId
  sequence := fragment.sequence
  normalizedText := fragment.normalizedText
  blockType := blockTypeOf fragment.fragmentType
  source := JsonObject.sorted (sourceRecord fragment.source)
  metadata := JsonObject.sorted (metadataRecord fragment.metadata)
  hierarchy := fragment.hierarchy.map Json.str

theorem sorted_texts (items : List String) : (texts items).sorted = texts items := by
  rw [texts, Json.sorted_arr, List.map_map]
  rfl

theorem sorted_optionalInt (number : Option Int) :
    (optionalInt number).sorted = optionalInt number := by
  cases number with
  | none => rfl
  | some n => rfl

theorem getOrNull_fragmentRecord (fragment : LogicalFragment) (key : String) (value : Json)
    (h : (key, value) ∈ fragmentRecord fragment) :
    getOrNull (loadedRecord fragment) key = value.sorted :=
  getOrNull_sorted (keys_fragmentRecord fragment) h

theorem no_missing_fragmentRecord : (requiredFields.filter fun key =>
    ¬ (loadedRecord fragment).any fun f => f.1 = key) = [] := by
  rw [List.filter_eq_nil_iff]
  intro key hkey
  have hmem : key ∈ (fragmentRecord fragment).map Prod.fst := hkey
  obtain ⟨f, hf, hsame⟩ := List.mem_map.mp ((keys_sorted (fragmentRecord fragment)).mem_iff.mpr hmem)
  have hany : (loadedRecord fragment).any (fun f => f.1 = key) = true :=
    List.any_eq_true.mpr ⟨f, hf, decide_eq_true hsame⟩
  simp [hany]

theorem identityOfRecord_fragmentRecord :
    identityOfRecord py repr (loadedRecord fragment) =
      .ok (fragment.documentId, fragment.documentVersion, (fragment.sequence : Int)) := by
  have hid := getOrNull_fragmentRecord fragment "document_id"
    (.str (uuidText fragment.documentId)) (by simp [fragmentRecord])
  have hversion := getOrNull_fragmentRecord fragment "document_version"
    (.int fragment.documentVersion) (by simp [fragmentRecord])
  have hsequence := getOrNull_fragmentRecord fragment "sequence"
    (.int fragment.sequence) (by simp [fragmentRecord])
  simp only [identityOfRecord, hid, hversion, hsequence, Json.sorted, strOf, uuidOf_uuidText,
    intOf, except_ok_bind]
  rfl

theorem shapesOfRecord_fragmentRecord :
    shapesOfRecord (loadedRecord fragment) =
      .ok ((validatedOf fragment).source, (validatedOf fragment).metadata,
        (validatedOf fragment).hierarchy) := by
  have hsource := getOrNull_fragmentRecord fragment "source"
    (.obj (sourceRecord fragment.source)) (by simp [fragmentRecord])
  have hmetadata := getOrNull_fragmentRecord fragment "metadata"
    (.obj (metadataRecord fragment.metadata)) (by simp [fragmentRecord])
  have hhierarchy := getOrNull_fragmentRecord fragment "hierarchy"
    (texts fragment.hierarchy) (by simp [fragmentRecord])
  rw [sorted_obj] at hsource hmetadata
  rw [sorted_texts, texts] at hhierarchy
  simp only [shapesOfRecord, hsource, hmetadata, hhierarchy]
  rfl

theorem lookup_fragmentType (fragmentType : FragmentType) :
    fragmentBlockTypes.lookup (upper (strip fragmentType.value)) =
      some (blockTypeOf fragmentType) := by
  cases fragmentType <;> decide

/-- The record of a fragment is refused for a blank text only. -/
theorem validatedFragment_ok_iff (hid : strip fragment.fragmentId ≠ "")
    {found : ValidatedFragment} :
    validatedFragment py repr fragment.documentId fragment.documentVersion
        (loadedRecord fragment) = .ok found ↔
      strip fragment.normalizedText ≠ "" ∧ found = validatedOf fragment := by
  have hfragmentId : strOf repr (getOrNull (loadedRecord fragment)
      "fragment_id") = fragment.fragmentId := by
    rw [getOrNull_fragmentRecord _ _ (.str fragment.fragmentId) (by simp [fragmentRecord])]
    rfl
  have htext : strOf repr (getOrNull (loadedRecord fragment)
      "normalized_text") = fragment.normalizedText := by
    rw [getOrNull_fragmentRecord _ _ (.str fragment.normalizedText)
      (by simp [fragmentRecord])]
    rfl
  have htype : strOf repr (getOrNull (loadedRecord fragment)
      "fragment_type") = fragment.fragmentType.value := by
    rw [getOrNull_fragmentRecord _ _ (.str fragment.fragmentType.value)
      (by simp [fragmentRecord])]
    rfl
  have hnonneg : ¬ (fragment.sequence : Int) < 0 := by omega
  rw [validatedFragment]
  simp only [no_missing_fragmentRecord, ne_eq, not_true_eq_false, if_false,
    identityOfRecord_fragmentRecord, remapped, except_ok_bind, or_self, except_guard_ok,
    hfragmentId, htext, htype, lookup_fragmentType, shapesOfRecord_fragmentRecord, hid, hnonneg]
  refine and_congr_right fun _ => ?_
  constructor
  · intro h
    exact (Except.ok.inj h).symm
  · intro h
    rw [h]
    rfl

end Record

/-! ## Blocks -/

/-- The pages of a fragment are not negative. -/
def HasPages (fragment : LogicalFragment) : Prop :=
  (∀ page ∈ fragment.source.pageFrom, 0 ≤ page) ∧ ∀ page ∈ fragment.source.pageTo, 0 ≤ page

/-- The block of a fragment, with its text behind its context. -/
structure Carries (rootId : String) (fragment : LogicalFragment) (block : LogicalBlock) :
    Prop where
  blockId : block.blockId = fragment.fragmentId
  parentBlockId : block.parentBlockId = rootId
  orderIndex : block.orderIndex = fragment.sequence + 1
  text : block.text = if strip fragment.contextPrefix = "" then fragment.normalizedText
    else strip fragment.contextPrefix ++ "\n\n" ++ fragment.normalizedText

/-- Nothing can be stripped of what the splitter makes. -/
structure IsStripped (fragment : LogicalFragment) : Prop where
  id_isHex : IsSha256Hex fragment.fragmentId
  text : strip fragment.normalizedText = fragment.normalizedText

section Block

variable {fragment : LogicalFragment}

theorem strip_of_isHex {s : String} (h : IsSha256Hex s) : strip s = s := by
  rw [strip, stripChars_of_forall fun c hc => isSpace_of_isHexDigit (h.2 c hc),
    String.ofList_toList]

theorem ne_empty_of_isHex {s : String} (h : IsSha256Hex s) : s ≠ "" := by
  intro hempty
  have hlength := h.1
  rw [hempty] at hlength
  cases hlength

theorem nonNegative_optionalInt_iff {number : Option Int} :
    (∃ n, nonNegative py (optionalInt number) = .ok n) ↔ ∀ n ∈ number, 0 ≤ n := by
  cases number with
  | none =>
    constructor
    · intro _ n hn
      cases hn
    · intro _
      exact ⟨0, rfl⟩
  | some n =>
    have hvalue : nonNegative py (optionalInt (some n)) =
        if n < 0 then .error (mappingError "source locator must be non-negative") else .ok n := rfl
    rw [hvalue]
    by_cases hn : n < 0
    · simp [hn]
    · simp [hn]
      omega

theorem getOrNull_sourceRecord (source : FragmentSource) (key : String) (number : Option Int)
    (h : (key, optionalInt number) ∈ sourceRecord source) :
    getOrNull (JsonObject.sorted (sourceRecord source)) key = optionalInt number := by
  rw [getOrNull_sorted (keys_sourceRecord source) h, sorted_optionalInt]

theorem exists_singleRowIndex (source : FragmentSource) :
    ∃ n, singleRowIndex py (JsonObject.sorted (sourceRecord source)) = .ok n := by
  have hfrom : getOrNull (JsonObject.sorted (sourceRecord source)) "table_row_from" =
      optionalInt (source.tableRowFrom.map Int.ofNat) :=
    getOrNull_sourceRecord _ _ _ (by simp [sourceRecord])
  have hto : getOrNull (JsonObject.sorted (sourceRecord source)) "table_row_to" =
      optionalInt (source.tableRowTo.map Int.ofNat) :=
    getOrNull_sourceRecord _ _ _ (by simp [sourceRecord])
  have hrow : ∀ row : Option Nat, ∃ n,
      nonNegative py (optionalInt (row.map Int.ofNat)) = .ok n := by
    intro row
    apply nonNegative_optionalInt_iff.mpr
    intro n hn
    obtain ⟨m, -, rfl⟩ := Option.map_eq_some_iff.mp hn
    exact Int.natCast_nonneg m
  obtain ⟨start, hstart⟩ := hrow source.tableRowFrom
  obtain ⟨stop, hstop⟩ := hrow source.tableRowTo
  simp only [singleRowIndex, hfrom, hto, hstart, hstop, except_ok_bind]
  split
  · exact ⟨0, rfl⟩
  · exact ⟨_, rfl⟩

theorem contextPrefix_fragmentRecord (repr : Json → String) (fragment : LogicalFragment) :
    contextPrefix repr (loadedRecord fragment) =
      strip fragment.contextPrefix := by
  have hvalue : getOrNull (loadedRecord fragment) "context_prefix" =
      .str fragment.contextPrefix :=
    getOrNull_fragmentRecord _ _ (.str fragment.contextPrefix) (by simp [fragmentRecord])
  simp only [contextPrefix, hvalue, isTruthy, strOf]
  by_cases hempty : fragment.contextPrefix = ""
  · rw [hempty]
    rfl
  · simp [hempty]

theorem logicalBlock_carries {parentBlockId : String} {orderIndex : Int} {block : LogicalBlock}
    (hstripped : IsStripped fragment) (hindex : orderIndex = fragment.sequence + 1)
    (h : logicalBlock py repr parentBlockId orderIndex (validatedOf fragment) = .ok block) :
    Carries parentBlockId fragment block := by
  simp only [logicalBlock, except_bind_ok] at h
  obtain ⟨pageStart, -, pageEnd, -, rowIndex, -, h⟩ := h
  cases h
  have hcontext : contextPrefix repr (validatedOf fragment).record =
      strip fragment.contextPrefix := by
    dsimp only [validatedOf]
    exact contextPrefix_fragmentRecord repr fragment
  constructor
  · show strip fragment.fragmentId = fragment.fragmentId
    exact strip_of_isHex hstripped.id_isHex
  · rfl
  · exact hindex
  · have htext : strip (validatedOf fragment).normalizedText = fragment.normalizedText :=
      hstripped.text
    simp only [hcontext, htext]

/-- A fragment has a block when its pages are not negative. -/
theorem exists_logicalBlock_iff {parentBlockId : String} {orderIndex : Int} :
    (∃ block, logicalBlock py repr parentBlockId orderIndex (validatedOf fragment) = .ok block) ↔
      HasPages fragment := by
  have hfrom : getOrNull (validatedOf fragment).source "page_from" =
      optionalInt fragment.source.pageFrom :=
    getOrNull_sourceRecord _ _ _ (by simp [sourceRecord])
  have hto : getOrNull (validatedOf fragment).source "page_to" =
      optionalInt fragment.source.pageTo :=
    getOrNull_sourceRecord _ _ _ (by simp [sourceRecord])
  obtain ⟨row, hrow⟩ : ∃ n, singleRowIndex py (validatedOf fragment).source = .ok n :=
    exists_singleRowIndex fragment.source
  rw [HasPages]
  simp only [logicalBlock, hfrom, hto, hrow, except_ok_bind]
  constructor
  · intro h
    obtain ⟨block, h⟩ := h
    obtain ⟨pageStart, hstart, h⟩ := except_bind_ok.mp h
    obtain ⟨pageEnd, hend, -⟩ := except_bind_ok.mp h
    exact ⟨nonNegative_optionalInt_iff.mp ⟨pageStart, hstart⟩,
      nonNegative_optionalInt_iff.mp ⟨pageEnd, hend⟩⟩
  · intro h
    obtain ⟨pageStart, hstart⟩ := nonNegative_optionalInt_iff.mpr h.1
    obtain ⟨pageEnd, hend⟩ := nonNegative_optionalInt_iff.mpr h.2
    rw [hstart, hend]
    exact ⟨_, rfl⟩

end Block

/-! ## Documents -/

/-- Fragments of a document, as the splitter makes and numbers them. -/
structure IsSplitOf (identity : ArtifactIdentity) (fragments : List LogicalFragment) : Prop where
  nonempty : fragments ≠ []
  documentId : ∀ fragment ∈ fragments, fragment.documentId = identity.documentId
  documentVersion : ∀ fragment ∈ fragments, fragment.documentVersion = identity.documentVersion
  sequence : fragments.map LogicalFragment.sequence = List.range fragments.length
  stripped : ∀ fragment ∈ fragments, IsStripped fragment

/-- A root that is a document, and below it a block for every fragment in order. -/
def IsDelivery (fragments : List LogicalFragment) (blocks : List LogicalBlock) : Prop :=
  ∃ root children, blocks = root :: children ∧ LogicalBlockValidation.IsDocument root ∧
    root.parentBlockId = "" ∧ root.orderIndex = 0 ∧
      List.Forall₂ (Carries root.blockId) fragments children

/-- The mapper takes the fragments. -/
structure IsMappable (fragments : List LogicalFragment) : Prop where
  text : ∀ fragment ∈ fragments, fragment.normalizedText ≠ ""
  pages : ∀ fragment ∈ fragments, HasPages fragment
  ids : (fragments.map LogicalFragment.fragmentId).Nodup

section Document

variable {fragments : List LogicalFragment}

theorem exists_logicalBlocksFrom_iff {parentBlockId : String} {orderIndex : Int} :
    (∃ blocks, logicalBlocksFrom py repr parentBlockId orderIndex
        (fragments.map validatedOf) = .ok blocks) ↔ ∀ fragment ∈ fragments, HasPages fragment := by
  induction fragments generalizing orderIndex with
  | nil => exact ⟨fun _ => List.forall_mem_nil _, fun _ => ⟨[], rfl⟩⟩
  | cons fragment fragments ih =>
    have hblock : (∃ block, logicalBlock py repr parentBlockId orderIndex
        (validatedOf fragment) = .ok block) ↔ HasPages fragment := exists_logicalBlock_iff
    have ih := @ih (orderIndex + 1)
    rw [List.forall_mem_cons, ← ih, ← hblock, List.map_cons, logicalBlocksFrom]
    constructor
    · intro h
      obtain ⟨blocks, hblocks⟩ := h
      obtain ⟨block, hblock, hblocks⟩ := except_bind_ok.mp hblocks
      obtain ⟨rest, hrest, -⟩ := except_bind_ok.mp hblocks
      exact ⟨⟨block, hblock⟩, rest, hrest⟩
    · intro h
      obtain ⟨⟨block, hblock⟩, rest, hrest⟩ := h
      rw [hblock, except_ok_bind, hrest, except_ok_bind]
      exact ⟨_, rfl⟩

/-- The blocks carry the fragments one by one. -/
theorem logicalBlocksFrom_carries {parentBlockId : String} {start : Nat}
    {blocks : List LogicalBlock}
    (hsequence : fragments.map LogicalFragment.sequence = List.range' start fragments.length)
    (hstripped : ∀ fragment ∈ fragments, IsStripped fragment)
    (h : logicalBlocksFrom py repr parentBlockId ((start : Int) + 1)
      (fragments.map validatedOf) = .ok blocks) :
    List.Forall₂ (Carries parentBlockId) fragments blocks := by
  induction fragments generalizing start blocks with
  | nil =>
    cases h
    exact .nil
  | cons fragment fragments ih =>
    rw [List.map_cons, List.length_cons, List.range'_succ, List.cons.injEq] at hsequence
    obtain ⟨hstart, hrest⟩ := hsequence
    have hnext : (start : Int) + 1 + 1 = ((start + 1 : Nat) : Int) + 1 := by omega
    rw [List.map_cons, logicalBlocksFrom, hnext] at h
    obtain ⟨block, hblock, h⟩ := except_bind_ok.mp h
    obtain ⟨rest, hblocks, h⟩ := except_bind_ok.mp h
    cases h
    have hcarries := logicalBlock_carries (hstripped fragment List.mem_cons_self)
      (by rw [hstart]) hblock
    exact .cons hcarries (ih hrest (fun f hf => hstripped f (List.mem_cons_of_mem _ hf)) hblocks)

/-- Every record passes exactly when no text is blank. -/
theorem mapM_validatedFragment_iff {identity : ArtifactIdentity}
    (h : IsSplitOf identity fragments) {found : List ValidatedFragment} :
    (fragments.map loadedRecord).mapM
        (validatedFragment py repr identity.documentId identity.documentVersion) = .ok found ↔
      (∀ fragment ∈ fragments, fragment.normalizedText ≠ "") ∧
        found = fragments.map validatedOf := by
  have hrecord : ∀ fragment ∈ fragments, ∀ f : ValidatedFragment,
      validatedFragment py repr identity.documentId identity.documentVersion
          (loadedRecord fragment) = .ok f ↔
        fragment.normalizedText ≠ "" ∧ f = validatedOf fragment := by
    intro fragment hfragment f
    have hstripped := h.stripped fragment hfragment
    have hid : strip fragment.fragmentId ≠ "" := by
      rw [strip_of_isHex hstripped.id_isHex]
      exact ne_empty_of_isHex hstripped.id_isHex
    rw [← h.documentId fragment hfragment, ← h.documentVersion fragment hfragment,
      validatedFragment_ok_iff hid, hstripped.text]
  rw [Traverse.mapM_eq_ok, List.forall₂_map_left_iff]
  constructor
  · intro hall
    constructor
    · intro fragment hfragment
      obtain ⟨f, -, hf⟩ := Traverse.exists_right_of_forall₂ hall fragment hfragment
      exact ((hrecord fragment hfragment f).mp hf).1
    · have hmem := (List.forall₂_and_left (p := (· ∈ fragments)) fragments found).mpr
        ⟨fun _ hfragment => hfragment, hall⟩
      have hsame : fragments.map validatedOf = found.map id :=
        Traverse.map_eq_of_forall₂ hmem fun fragment f hf =>
          ((hrecord fragment hf.1 f).mp hf.2).2.symm
      rw [hsame, List.map_id]
  · intro hall
    rw [hall.2, List.forall₂_map_right_iff, List.forall₂_same]
    intro fragment hfragment
    exact (hrecord fragment hfragment _).mpr ⟨hall.1 fragment hfragment, rfl⟩

theorem nodup_sequence (h : fragments.map LogicalFragment.sequence = List.range fragments.length) :
    ((fragments.map validatedOf).map fun f => f.sequence).Nodup := by
  have hmap : (fragments.map validatedOf).map (fun f => f.sequence) =
      (fragments.map LogicalFragment.sequence).map Int.ofNat := by
    rw [List.map_map, List.map_map]
    rfl
  rw [hmap, h]
  exact List.nodup_range.map fun _ _ heq => Int.ofNat.inj heq

/-- Numbered fragments are in order. -/
theorem insertionSort_validatedOf
    (h : fragments.map LogicalFragment.sequence = List.range fragments.length) :
    (fragments.map validatedOf).insertionSort fragmentBefore = fragments.map validatedOf := by
  apply List.Pairwise.insertionSort_eq
  have hpairs : (fragments.map LogicalFragment.sequence).Pairwise (· < ·) := by
    rw [h]
    exact List.pairwise_lt_range
  rw [List.pairwise_map] at hpairs ⊢
  refine hpairs.imp fun hlt => .inl ?_
  exact Int.ofNat_lt.mpr hlt

/-- The fragments of a document become its blocks exactly when the mapper takes them. -/
theorem logicalBlocks_iff {artifact : PreparedArtifact}
    (hrecords : artifact.fragments = fragments.map loadedRecord)
    (h : IsSplitOf artifact.manifest.identity fragments) :
    (∃ blocks, logicalBlocks py repr artifact = .ok blocks ∧ IsDelivery fragments blocks) ↔
      IsMappable fragments := by
  have hne : ¬ artifact.fragments = [] := by
    rw [hrecords, List.map_eq_nil_iff]
    exact h.nonempty
  have hids : (fragments.map validatedOf).map (fun f => f.fragmentId) =
      fragments.map LogicalFragment.fragmentId := by
    rw [List.map_map]
    rfl
  have hrange : fragments.map LogicalFragment.sequence =
      List.range' 0 fragments.length := by
    rw [h.sequence, List.range_eq_range']
  simp only [logicalBlocks, except_guard_ok, except_bind_ok, hrecords,
    mapM_validatedFragment_iff h]
  constructor
  · intro hrun
    obtain ⟨blocks, ⟨-, found, ⟨htext, rfl⟩, hnodup, -, children, hchildren, -⟩, -⟩ := hrun
    rw [hids] at hnodup
    rw [insertionSort_validatedOf h.sequence] at hchildren
    exact ⟨htext, exists_logicalBlocksFrom_iff.mp ⟨children, hchildren⟩, not_not.mp hnodup⟩
  · intro hmappable
    have hpages : ∃ children, logicalBlocksFrom py repr (rootId artifact.manifest.identity) 1
        (fragments.map validatedOf) = .ok children :=
      exists_logicalBlocksFrom_iff.mpr hmappable.pages
    obtain ⟨children, hchildren⟩ := hpages
    refine ⟨rootBlock artifact.manifest :: children, ⟨?_, _, ⟨hmappable.text, rfl⟩, ?_, ?_,
      children, ?_, rfl⟩, ?_⟩
    · rwa [hrecords] at hne
    · rw [hids]
      exact not_not.mpr hmappable.ids
    · exact not_not.mpr (nodup_sequence h.sequence)
    · rwa [insertionSort_validatedOf h.sequence]
    · refine ⟨_, children, rfl, ?_, rfl, rfl, ?_⟩
      · show upper (strip "DOCUMENT") = "DOCUMENT"
        decide
      · exact logicalBlocksFrom_carries hrange h.stripped hchildren

end Document

end PreparedArtifactDelivery

end AstraIndexator
