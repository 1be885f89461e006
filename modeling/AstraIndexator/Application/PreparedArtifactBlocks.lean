import AstraIndexator.Application.PreparedArtifactDelivery
import AstraIndexator.AstraVector.BlockTree
import AstraIndexator.Normalization.Lines
import AstraIndexator.PreparedArtifacts.RoundTrip

/-!
# The blocks of a prepared artifact

The mapper checks the fragment identifiers as they stand, and the blocks carry them
stripped.  The validator and the planner accept the blocks exactly when the stripped
identifiers are distinct and none of them is that of the root.
-/

namespace AstraIndexator

open Text Transaction

/-! ## Validation of a root with its children -/

namespace LogicalBlockValidation

/-- A root and blocks that name it as their parent. -/
structure IsStar (root : LogicalBlock) (children : List LogicalBlock) : Prop where
  root_document : IsDocument root
  root_parent : strip root.parentBlockId = ""
  child_type : ∀ b ∈ children, ¬ IsDocument b
  child_parent : ∀ b ∈ children, strip b.parentBlockId = strip root.blockId
  id_ne : ∀ b ∈ root :: children, strip b.blockId ≠ ""
  order_nonneg : ∀ b ∈ root :: children, 0 ≤ b.orderIndex
  order_nodup : ((root :: children).map (·.orderIndex)).Nodup

section Star

variable {root : LogicalBlock} {children : List LogicalBlock}

/-- A star is accepted exactly when its stripped identifiers are distinct. -/
theorem IsStar.validate_iff (h : IsStar root children) :
    validateLogicalBlocks (root :: children) = .ok (root :: children) ↔
      ((root :: children).map fun b => strip b.blockId).Nodup := by
  rw [validate_isTree]
  constructor
  · intro htree
    exact htree.id_nodup
  · intro hnodup
    have hroots : (root :: children).filter (IsDocument ·) = [root] := by
      rw [List.filter_cons_of_pos (p := fun b => decide (IsDocument b))
          (decide_eq_true h.root_document),
        List.filter_eq_nil_iff.mpr fun b hb => by simpa using h.child_type b hb]
    refine ⟨List.cons_ne_nil _ _, h.id_ne, hnodup, h.order_nonneg, h.order_nodup, root, hroots,
      h.root_parent, fun b hb => ?_⟩
    rcases List.mem_cons.mp hb with rfl | hchild
    · exact .refl
    · exact .single ⟨hb, List.mem_cons_self, h.child_parent b hchild⟩

end Star

end LogicalBlockValidation

/-! ## Duplicates in the planner -/

namespace DeterministicBatchPlanner

def duplicateMessages : List String := [
  "logical block_id values must be unique", "logical block order_index values must be unique"]

/-- `plan` rejects the blocks as duplicates. -/
def RejectsAsDuplicates (planner : DeterministicBatchPlanner) (blocks : List LogicalBlock) :
    Prop :=
  ∃ message ∈ duplicateMessages, planner.plan blocks = .error (planningError message)

/-- The exception does not speak of duplicates. -/
def NotDuplicate (e : AstraError) : Prop :=
  ∀ message ∈ duplicateMessages, e ≠ planningError message

theorem notDuplicate_valueError {cls : ValueErrorClass} {message : String}
    (h : cls ≠ .deliveryBatchPlanningError) : NotDuplicate (.valueError cls message) :=
  fun _ _ heq => h (AstraError.valueError.inj heq).1

/-- The fifteenth character tells the messages apart. -/
theorem notDuplicate_exceeds (text : String) :
    NotDuplicate (planningError ("logical block '" ++ text)) := by
  intro message hmessage heq
  have hchar := congrArg (fun s : String => s.toList[14]?) (AstraError.valueError.inj heq).2
  simp only [duplicateMessages, List.mem_cons, List.not_mem_nil, or_false] at hmessage
  rcases hmessage with rfl | rfl
  · simp at hchar
  · simp at hchar

section

variable {planner : DeterministicBatchPlanner} {blocks : List LogicalBlock} {block : LogicalBlock}

theorem requireUint32_raises (value : Int) (field : String) :
    Raises NotDuplicate (requireUint32 value field) :=
  .ite (.error (notDuplicate_valueError (by decide))) (.ok _)

theorem requiredText_raises (value field : String) :
    Raises NotDuplicate (AstraVectorProtoMapper.requiredText value field) :=
  .ite (.error (notDuplicate_valueError (by decide))) (.ok _)

theorem enumValue_raises (mapper : AstraVectorProtoMapper) (mapping : List (String × String))
    (value field : String) : Raises NotDuplicate (mapper.enumValue mapping value field) := by
  unfold AstraVectorProtoMapper.enumValue
  split
  · exact .error (notDuplicate_valueError (by decide))
  · split
    · exact .error (notDuplicate_valueError (by decide))
    · exact .ok _

theorem sourceLocation_raises (location : SourceLocation) (owner : String) :
    Raises NotDuplicate (AstraVectorProtoMapper.sourceLocation location owner) := by
  unfold AstraVectorProtoMapper.sourceLocation
  refine .bind (requireUint32_raises _ _) fun _ => .bind (requireUint32_raises _ _) fun _ =>
    .bind (requireUint32_raises _ _) fun _ => .bind (requireUint32_raises _ _) fun _ =>
    .bind (requireUint32_raises _ _) fun _ => .bind (requireUint32_raises _ _) fun _ => ?_
  refine .guard (notDuplicate_valueError (by decide)) ?_
  exact .guard (notDuplicate_valueError (by decide)) (.ok _)

/-- A block without links is mapped, or the mapper says why not. -/
theorem logicalBlock_raises (h : block.sourceLinks = []) :
    Raises NotDuplicate (planner.mapper.logicalBlock block) := by
  unfold AstraVectorProtoMapper.logicalBlock
  refine .bind (requiredText_raises _ _) fun _ => .bind (requiredText_raises _ _) fun _ =>
    .bind (enumValue_raises _ _ _ _) fun _ => .bind (requireUint32_raises _ _) fun _ => ?_
  rw [h]
  refine .bind (.ok _) fun _ => ?_
  cases block.sourceLocation with
  | some location => exact .bind (.map (sourceLocation_raises _ _)) fun _ => .ok _
  | none => exact .ok _

theorem partitionFrom_raises (h : ∀ b ∈ blocks, b.sourceLinks = []) (current : List LogicalBlock)
    (size : Nat) : Raises NotDuplicate (planner.partitionFrom current size blocks) := by
  induction blocks generalizing current size with
  | nil => exact .ok _
  | cons b blocks ih =>
    have hrest := ih fun c hc => h c (List.mem_cons_of_mem _ hc)
    unfold partitionFrom
    refine .bind (.bind (logicalBlock_raises (h b List.mem_cons_self)) fun _ => .ok _) fun _ => ?_
    refine .guard (String.append_assoc ▸ notDuplicate_exceeds _) ?_
    exact .ite (.bind (hrest _ _) fun _ => .ok _) (hrest _ _)

theorem partitionFrom_mem {current : List LogicalBlock} {size : Nat}
    {chunks : List (List LogicalBlock)}
    (h : planner.partitionFrom current size blocks = .ok chunks) :
    ∀ chunk ∈ chunks, ∀ b ∈ chunk, b ∈ current ++ blocks := by
  induction blocks generalizing current size chunks with
  | nil =>
    cases h
    intro chunk hchunk b hb
    split at hchunk
    · cases hchunk
    · rw [List.mem_singleton.mp hchunk] at hb
      exact List.mem_append_left _ hb
  | cons c blocks ih =>
    unfold partitionFrom at h
    obtain ⟨size', -, h⟩ := except_bind_ok.mp h
    rw [except_guard_ok] at h
    obtain ⟨-, h⟩ := h
    dsimp only at h
    split at h
    · obtain ⟨rest, hrest, h⟩ := except_bind_ok.mp h
      cases h
      intro chunk hchunk b hb
      rcases List.mem_cons.mp hchunk with rfl | hchunk
      · exact List.mem_append_left _ hb
      · exact List.mem_append_right _ (ih hrest chunk hchunk b hb)
    · intro chunk hchunk b hb
      have hmem := ih h chunk hchunk b hb
      rwa [List.append_assoc, List.singleton_append] at hmem

theorem canonicalValue_raises (b : HashLogicalBlock) : Raises NotDuplicate b.canonicalValue := by
  unfold HashLogicalBlock.canonicalValue
  refine .bind (requireUint32_raises _ _) fun _ => ?_
  cases b.sourceLocation with
  | some location =>
    refine .bind ?_ fun _ => .ok _
    exact .bind (requireUint32_raises _ _) fun _ => .bind (requireUint32_raises _ _) fun _ =>
      .bind (requireUint32_raises _ _) fun _ => .bind (requireUint32_raises _ _) fun _ =>
      .bind (requireUint32_raises _ _) fun _ => .bind (requireUint32_raises _ _) fun _ => .ok _
  | none => exact .ok _

theorem canonicalBatchBytes_raises (hashBlocks : List HashLogicalBlock) :
    Raises NotDuplicate (canonicalBatchBytes hashBlocks) :=
  .bind (.mapM fun b _ => canonicalValue_raises b) fun _ => .ok _

theorem planChunk_raises (h : ∀ b ∈ blocks, b.sourceLinks = []) (total index : Nat) :
    Raises NotDuplicate (planner.planChunk total index blocks) := by
  unfold planChunk
  refine .bind (.mapM fun b hb => .bind (logicalBlock_raises (h b hb)) fun _ => .ok _) fun _ => ?_
  refine .bind (canonicalBatchBytes_raises _) fun _ => .bind ?_ fun _ => .ok _
  exact .guard (notDuplicate_valueError (by decide))
    (.bind (canonicalBatchBytes_raises _) fun _ => .ok _)

theorem planFrom_raises {chunks : List (List LogicalBlock)}
    (h : ∀ chunk ∈ chunks, ∀ b ∈ chunk, b.sourceLinks = []) (total index : Nat) :
    Raises NotDuplicate (planner.planFrom total index chunks) := by
  induction chunks generalizing index with
  | nil => exact .ok _
  | cons chunk chunks ih =>
    unfold planFrom
    refine .bind (planChunk_raises (h chunk List.mem_cons_self) _ _) fun _ => .bind ?_ fun _ => .ok _
    exact ih (fun c hc => h c (List.mem_cons_of_mem _ hc)) _

/-- Only the identifiers and the order indexes make `plan` reject blocks as duplicates. -/
theorem rejectsAsDuplicates_iff (h : ∀ b ∈ blocks, b.sourceLinks = []) :
    planner.RejectsAsDuplicates blocks ↔
      ¬ ((blocks.map (·.blockId)).Nodup ∧ (blocks.map (·.orderIndex)).Nodup) := by
  have hperm : (blocks.insertionSort blockBefore).Perm blocks :=
    List.perm_insertionSort blockBefore blocks
  have hids := (hperm.map (·.blockId)).nodup_iff
  have horders := (hperm.map (·.orderIndex)).nodup_iff
  constructor
  · rintro ⟨message, hmessage, hplan⟩ ⟨hid, horder⟩
    rcases except_bind_error.mp hplan with herror | ⟨sorted, hsorted, hplan⟩
    · unfold ordered at herror
      dsimp only at herror
      rw [if_neg (not_not.mpr (hids.mpr hid)), if_neg (not_not.mpr (horders.mpr horder))] at herror
      split at herror
      · simp only [duplicateMessages, List.mem_cons, List.not_mem_nil, or_false] at hmessage
        cases herror
        revert hmessage
        decide
      · cases herror
    · simp only [ordered, except_guard_ok] at hsorted
      obtain ⟨-, -, -, hsorted⟩ := hsorted
      cases hsorted
      have hlinks : ∀ b ∈ blocks.insertionSort blockBefore, b.sourceLinks = [] :=
        fun b hb => h b (hperm.mem_iff.mp hb)
      have hraises : Raises NotDuplicate
          (planner.partitionFrom [] 0 (blocks.insertionSort blockBefore) >>= fun chunks =>
            planner.planFrom chunks.length 0 chunks) :=
        .bind_of_ok (partitionFrom_raises hlinks _ _) fun chunks hchunks =>
          planFrom_raises (fun chunk hchunk b hb =>
            hlinks b (partitionFrom_mem hchunks chunk hchunk b hb)) _ _
      exact hraises _ hplan message hmessage rfl
  · intro hdup
    have hne : blocks ≠ [] := by
      intro hnil
      subst hnil
      exact hdup ⟨List.nodup_nil, List.nodup_nil⟩
    by_cases hid : (blocks.map (·.blockId)).Nodup
    · have horder : ¬ (blocks.map (·.orderIndex)).Nodup := fun horder => hdup ⟨hid, horder⟩
      refine ⟨_, List.mem_cons_of_mem _ List.mem_cons_self, ?_⟩
      unfold plan ordered
      dsimp only
      rw [if_neg hne, if_neg (not_not.mpr (hids.mpr hid)), if_pos (fun hn => horder (horders.mp hn))]
      rfl
    · refine ⟨_, List.mem_cons_self, ?_⟩
      unfold plan ordered
      dsimp only
      rw [if_neg hne, if_pos (fun hn => hid (hids.mp hn))]
      rfl

end

end DeterministicBatchPlanner

/-! ## The blocks of the mapper -/

namespace PreparedArtifactDelivery

open DeliveryIdentity

section Mapper

variable {py : PythonRuntime} {repr : Json → String}

theorem strip_strip (s : String) : strip (strip s) = strip s := by
  unfold strip
  rw [String.toList_ofList, (stripped_stripChars s.toList).eq]

theorem isSpace_of_isDigit {c : Char} (h : c.isDigit = true) : isSpace c = false := by
  have hbounds : 48 ≤ c.toNat ∧ c.toNat ≤ 57 := by
    simpa [Char.isDigit, UInt32.le_iff_toNat_le] using h
  unfold isSpace
  simp
  omega

/-- The identifier of the root has nothing to strip. -/
theorem strip_rootId (identity : ArtifactIdentity) : strip (rootId identity) = rootId identity := by
  obtain ⟨m, hm⟩ := Int.eq_ofNat_of_zero_le identity.documentVersion_pos.le
  have hdigits : (toString identity.documentVersion).toList = Nat.toDigits 10 m := by
    rw [hm]
    exact Json.toList_ofNat m
  have hne : Nat.toDigits 10 m ≠ [] := Nat.toDigits_ne_nil
  have hlist : (rootId identity).toList = 'd' :: ("ocument:" ++ uuidText identity.documentId ++
      ":v").toList ++ Nat.toDigits 10 m := by
    unfold rootId
    rw [← hdigits]
    simp [String.toList_append]
  have hstripped : Stripped (rootId identity).toList := by
    rw [hlist]
    constructor
    · intro c hc
      cases hc
      decide
    · intro c hc
      rw [List.getLast?_append, List.getLast?_eq_some_getLast hne, Option.some_or] at hc
      cases hc
      exact isSpace_of_isDigit (Json.toDigits_isDigit m _ (List.getLast_mem hne))
  rw [strip, hstripped.eq, String.ofList_toList]

/-- The block of a fragment. -/
structure IsBlockOf (parentBlockId : String) (fragment : ValidatedFragment)
    (block : LogicalBlock) : Prop where
  blockId : block.blockId = strip fragment.fragmentId
  parent : block.parentBlockId = parentBlockId
  blockType : block.blockType = fragment.blockType
  links : block.sourceLinks = []

theorem logicalBlock_ok {parentBlockId : String} {orderIndex : Int} {fragment : ValidatedFragment}
    {block : LogicalBlock} (h : logicalBlock py repr parentBlockId orderIndex fragment = .ok block) :
    IsBlockOf parentBlockId fragment block ∧ block.orderIndex = orderIndex := by
  simp only [logicalBlock, except_bind_ok] at h
  obtain ⟨pageStart, -, pageEnd, -, rowIndex, -, h⟩ := h
  cases h
  exact ⟨⟨rfl, rfl, rfl, rfl⟩, rfl⟩

theorem logicalBlocksFrom_ok {parentBlockId : String} {orderIndex : Int}
    {fragments : List ValidatedFragment} {blocks : List LogicalBlock}
    (h : logicalBlocksFrom py repr parentBlockId orderIndex fragments = .ok blocks) :
    List.Forall₂ (IsBlockOf parentBlockId) fragments blocks ∧
      (∀ b ∈ blocks, orderIndex ≤ b.orderIndex) ∧ (blocks.map (·.orderIndex)).Nodup := by
  induction fragments generalizing orderIndex blocks with
  | nil =>
    cases h
    exact ⟨.nil, List.forall_mem_nil _, List.nodup_nil⟩
  | cons fragment fragments ih =>
    simp only [logicalBlocksFrom, except_bind_ok] at h
    obtain ⟨block, hblock, rest, hrest, h⟩ := h
    cases h
    obtain ⟨hof, hindex⟩ := logicalBlock_ok hblock
    obtain ⟨hall, hle, hnodup⟩ := ih hrest
    refine ⟨.cons hof hall, ?_, ?_⟩
    · intro b hb
      rcases List.mem_cons.mp hb with rfl | hb
      · omega
      · have := hle b hb
        omega
    · rw [List.map_cons, List.nodup_cons]
      refine ⟨fun hmem => ?_, hnodup⟩
      obtain ⟨b, hb, heq⟩ := List.mem_map.mp hmem
      have := hle b hb
      omega

/-- What the mapper found out about a record. -/
structure IsFragmentOf (repr : Json → String) (record : JsonObject)
    (fragment : ValidatedFragment) : Prop where
  fragmentId : fragment.fragmentId = strOf repr (getOrNull record "fragment_id")
  id_ne : strip fragment.fragmentId ≠ ""
  blockType : fragment.blockType ∈ fragmentBlockTypes.map Prod.snd

theorem validatedFragment_ok {documentId : UUID} {documentVersion : Int} {record : JsonObject}
    {fragment : ValidatedFragment}
    (h : validatedFragment py repr documentId documentVersion record = .ok fragment) :
    IsFragmentOf repr record fragment := by
  simp only [validatedFragment, except_guard_ok, except_bind_ok] at h
  obtain ⟨-, identity, -, -, -, hid, -, h⟩ := h
  split at h
  · cases h
  · rename_i blockType hlookup
    obtain ⟨shapes, -, h⟩ := except_bind_ok.mp h
    cases h
    obtain ⟨before, after, hsplit, -⟩ := List.lookup_eq_some_iff.mp hlookup
    refine ⟨rfl, hid, ?_⟩
    rw [hsplit]
    simp

/-- The identifiers of the fragments as the blocks carry them. -/
def strippedIds (repr : Json → String) (artifact : PreparedArtifact) : List String :=
  artifact.fragments.map fun record => strip (strOf repr (getOrNull record "fragment_id"))

/-- The blocks of an artifact: the root and below it the fragments. -/
structure IsMapped (repr : Json → String) (artifact : PreparedArtifact)
    (root : LogicalBlock) (children : List LogicalBlock) : Prop where
  root_eq : root = rootBlock artifact.manifest
  star : LogicalBlockValidation.IsStar root children
  ids : (children.map (·.blockId)).Perm (strippedIds repr artifact)
  stripped : ∀ b ∈ root :: children, strip b.blockId = b.blockId
  links : ∀ b ∈ root :: children, b.sourceLinks = []

theorem not_isDocument_of_mem {blockType : String}
    (h : blockType ∈ fragmentBlockTypes.map Prod.snd) : upper (strip blockType) ≠ "DOCUMENT" := by
  revert blockType h
  decide

/-- The fragment a block below the root was made of. -/
def MadeBelow (manifest : ArtifactManifest) (b : LogicalBlock) : Prop :=
  ∃ fragment, IsBlockOf (rootId manifest.identity) fragment b ∧
    strip fragment.fragmentId ≠ "" ∧ fragment.blockType ∈ fragmentBlockTypes.map Prod.snd

/-- Blocks made of fragments form a star below the root. -/
theorem isStar_rootBlock {manifest : ArtifactManifest} {children : List LogicalBlock}
    (hfrom : ∀ b ∈ children, MadeBelow manifest b) (hle : ∀ b ∈ children, 1 ≤ b.orderIndex)
    (hnodup : (children.map (·.orderIndex)).Nodup) :
    LogicalBlockValidation.IsStar (rootBlock manifest) children := by
  constructor
  · show upper (strip "DOCUMENT") = "DOCUMENT"
    decide
  · show strip "" = ""
    decide
  · intro b hb
    obtain ⟨fragment, hof, -, htype⟩ := hfrom b hb
    rw [LogicalBlockValidation.IsDocument, hof.blockType]
    exact not_isDocument_of_mem htype
  · intro b hb
    obtain ⟨fragment, hof, -⟩ := hfrom b hb
    rw [hof.parent]
    rfl
  · intro b hb
    rcases List.mem_cons.mp hb with rfl | hb
    · show strip (rootId manifest.identity) ≠ ""
      rw [strip_rootId]
      intro hempty
      have hlength := congrArg String.toList hempty
      simp [rootId, String.toList_append] at hlength
    · obtain ⟨fragment, hof, hid, -⟩ := hfrom b hb
      rwa [hof.blockId, strip_strip]
  · intro b hb
    rcases List.mem_cons.mp hb with rfl | hb
    · exact Int.le_refl 0
    · have := hle b hb
      omega
  · rw [List.map_cons, List.nodup_cons]
    refine ⟨fun hmem => ?_, hnodup⟩
    obtain ⟨b, hb, hzero⟩ := List.mem_map.mp hmem
    have hpos := hle b hb
    have hroot : (rootBlock manifest).orderIndex = 0 := rfl
    omega

theorem logicalBlocks_ok {artifact : PreparedArtifact} {blocks : List LogicalBlock}
    (h : logicalBlocks py repr artifact = .ok blocks) :
    ∃ root children, blocks = root :: children ∧ IsMapped repr artifact root children := by
  simp only [logicalBlocks, except_guard_ok, except_bind_ok] at h
  obtain ⟨-, records, hrecords, -, -, children, hchildren, h⟩ := h
  cases h
  have hfragments : List.Forall₂ (IsFragmentOf repr) artifact.fragments records :=
    (Traverse.mapM_eq_ok.mp hrecords).imp fun _ _ hrecord => validatedFragment_ok hrecord
  obtain ⟨hblocks, hle, hnodup⟩ := logicalBlocksFrom_ok hchildren
  have hperm := List.perm_insertionSort fragmentBefore records
  have hfrom : ∀ b ∈ children, MadeBelow artifact.manifest b := by
    intro b hb
    obtain ⟨fragment, hmem, hof⟩ := Traverse.exists_left_of_forall₂ hblocks b hb
    obtain ⟨record, -, hrecord⟩ :=
      Traverse.exists_left_of_forall₂ hfragments fragment (hperm.mem_iff.mp hmem)
    exact ⟨fragment, hof, hrecord.id_ne, hrecord.blockType⟩
  refine ⟨_, children, rfl, rfl, isStar_rootBlock hfrom hle hnodup, ?_, ?_, ?_⟩
  · have hids : children.map (·.blockId) =
        (records.insertionSort fragmentBefore).map fun fragment => strip fragment.fragmentId :=
      (Traverse.map_eq_of_forall₂ hblocks fun _ _ hof => hof.blockId.symm).symm
    have hsource : strippedIds repr artifact =
        records.map fun fragment => strip fragment.fragmentId :=
      Traverse.map_eq_of_forall₂ hfragments fun _ _ hrecord => by rw [hrecord.fragmentId]
    rw [hids, hsource]
    exact hperm.map _
  · intro b hb
    rcases List.mem_cons.mp hb with rfl | hb
    · exact strip_rootId _
    · obtain ⟨fragment, hof, -⟩ := hfrom b hb
      rw [hof.blockId, strip_strip]
  · intro b hb
    rcases List.mem_cons.mp hb with rfl | hb
    · rfl
    · obtain ⟨fragment, hof, -⟩ := hfrom b hb
      exact hof.links

/-- The validator accepts the blocks and the planner finds no duplicates in them. -/
def Accepted (planner : DeterministicBatchPlanner) (blocks : List LogicalBlock) : Prop :=
  LogicalBlockValidation.validateLogicalBlocks blocks = .ok blocks ∧
    ¬ planner.RejectsAsDuplicates blocks

/-- Blocks of the mapper are accepted exactly when the stripped identifiers of the fragments
are distinct and none of them is the identifier of the root. -/
theorem logicalBlocks_accepted_iff (planner : DeterministicBatchPlanner)
    {artifact : PreparedArtifact} {blocks : List LogicalBlock}
    (h : logicalBlocks py repr artifact = .ok blocks) :
    Accepted planner blocks ↔ (strippedIds repr artifact).Nodup ∧
      rootId artifact.manifest.identity ∉ strippedIds repr artifact := by
  obtain ⟨root, children, rfl, hmapped⟩ := logicalBlocks_ok h
  have hid : root.blockId = rootId artifact.manifest.identity := by rw [hmapped.root_eq]; rfl
  have hsame : (root :: children).map (fun b => strip b.blockId) =
      (root :: children).map (·.blockId) := List.map_congr_left hmapped.stripped
  have hnodup : ((root :: children).map (·.blockId)).Nodup ↔
      (strippedIds repr artifact).Nodup ∧
        rootId artifact.manifest.identity ∉ strippedIds repr artifact := by
    rw [List.map_cons, List.nodup_cons, hmapped.ids.mem_iff, hmapped.ids.nodup_iff, hid, and_comm]
  have horders := hmapped.star.order_nodup
  rw [Accepted, hmapped.star.validate_iff, hsame,
    DeterministicBatchPlanner.rejectsAsDuplicates_iff hmapped.links, not_not, hnodup]
  constructor
  · intro haccepted
    exact haccepted.1
  · intro hids
    exact ⟨hids, hids, horders⟩

end Mapper

/-- A fragment record with the given identifier. -/
def sampleRecord (fragmentId : String) (sequence : Int) : JsonObject := [
  ("fragment_id", .str fragmentId), ("document_id", .str "00000000-0000-0000-0000-000000000005"),
  ("document_version", .int 1), ("sequence", .int sequence), ("fragment_type", .str "PARAGRAPH"),
  ("normalized_text", .str "text"), ("context_prefix", .str ""), ("hierarchy", .arr []),
  ("source", .obj []), ("statistics", .obj []), ("split", .obj []),
  ("primary_language", .str "en"), ("languages", .arr []), ("mixed_language", .bool false),
  ("metadata", .obj [])]

def sampleManifest : ArtifactManifest where
  identity := sampleIdentity
  compatibility := sampleCompatibility
  artifactId := "aaaaaaaaaaaaaaaaaaaaaaaaaaaaaaaaaaaaaaaaaaaaaaaaaaaaaaaaaaaaaaaa"
  compatibilitySha256 := "bbbbbbbbbbbbbbbbbbbbbbbbbbbbbbbbbbbbbbbbbbbbbbbbbbbbbbbbbbbbbbbb"
  parts := [{
    kind := .fragments, path := "parts/fragments-00000.jsonl"
    sha256 := "cccccccccccccccccccccccccccccccccccccccccccccccccccccccccccccccc"
    recordCount := 2, byteCount := 800, path_ok := by decide, sha256_isHex := by decide }]
  totalElementCount := 0
  totalFragmentCount := 2
  artifactId_isHex := sampleIdentity.sourceSha256_isHex
  compatibilitySha256_isHex := by decide
  paths_nodup := by decide
  elements_total := rfl
  fragments_total := rfl

/-- An artifact of two fragments. -/
def sampleArtifact (first second : String) : PreparedArtifact where
  manifest := sampleManifest
  elements := []
  fragments := [sampleRecord first 0, sampleRecord second 1]

theorem logicalBlocks_accepted_sample : ∃ blocks,
    logicalBlocks plainRuntime (fun _ => "")
        (sampleArtifact "a" " b") = .ok blocks ∧ Accepted samplePlanner blocks := by
  have hok : (logicalBlocks plainRuntime (fun _ => "")
      (sampleArtifact "a" " b")).isOk = true := by decide +kernel
  obtain ⟨blocks, hblocks⟩ := except_isOk.mp hok
  refine ⟨blocks, hblocks, ?_⟩
  exact (logicalBlocks_accepted_iff samplePlanner hblocks).mpr (by decide +kernel)

/-- Two identifiers that differ in their outer whitespace. -/
theorem not_accepted_twins : ¬ ∀ (artifact : PreparedArtifact) (blocks : List LogicalBlock),
    (∀ record ∈ artifact.fragments, ∃ s, getOrNull record "fragment_id" = .str s) →
      logicalBlocks plainRuntime (fun _ => "") artifact = .ok blocks →
      Accepted samplePlanner blocks := by
  intro haccepted
  have hok : ∃ blocks, logicalBlocks plainRuntime (fun _ => "")
      (sampleArtifact "a" " a") = .ok blocks ∧
        (LogicalBlockValidation.validateLogicalBlocks blocks).isOk = false := by
    have hrun : (logicalBlocks plainRuntime (fun _ => "")
        (sampleArtifact "a" " a") >>= LogicalBlockValidation.validateLogicalBlocks).isOk =
          false := by decide +kernel
    have hmapped : (logicalBlocks plainRuntime (fun _ => "")
        (sampleArtifact "a" " a")).isOk = true := by decide +kernel
    obtain ⟨blocks, hblocks⟩ := except_isOk.mp hmapped
    rw [hblocks, except_ok_bind] at hrun
    exact ⟨blocks, hblocks, hrun⟩
  obtain ⟨blocks, hblocks, hrefused⟩ := hok
  have hvalid := (haccepted _ _ (by
    intro record hrecord
    rcases List.mem_cons.mp hrecord with rfl | hrecord
    · exact ⟨_, rfl⟩
    · rw [List.mem_singleton.mp hrecord]
      exact ⟨_, rfl⟩) hblocks).1
  rw [hvalid] at hrefused
  cases hrefused

end PreparedArtifactDelivery

end AstraIndexator
