import AstraIndexator.AstraVector.Batching
import AstraIndexator.Foundation.Traverse

/-!
# What a batch plan is

A plan exists unless the blocks are empty, share an identifier or an order index,
or one of them is too large for a batch of its own.  Its batches are the blocks in
order, cut as late as the two limits allow.
-/

namespace AstraIndexator

open Text Transaction

/-! ## Blocks that are mapped -/

/-- A number that was accepted once is accepted under any name. -/
theorem requireUint32_again {value n : Int} {field : String}
    (h : requireUint32 value field = .ok n) (field' : String) : requireUint32 n field' = .ok n := by
  obtain ⟨rfl, hrange⟩ := requireUint32_ok.mp h
  exact requireUint32_ok.mpr ⟨rfl, hrange⟩

namespace AstraVectorProtoMapper

theorem canonicalValue_sourceLocation {location : SourceLocation} {owner : String}
    {wire : HashSourceLocation} (h : sourceLocation location owner = .ok wire) :
    ∃ value, wire.canonicalValue = .ok value := by
  rw [sourceLocation] at h
  obtain ⟨pageStart, hpageStart, h⟩ := except_bind_ok.mp h
  obtain ⟨pageEnd, hpageEnd, h⟩ := except_bind_ok.mp h
  obtain ⟨charStart, hcharStart, h⟩ := except_bind_ok.mp h
  obtain ⟨charEnd, hcharEnd, h⟩ := except_bind_ok.mp h
  obtain ⟨rowIndex, hrowIndex, h⟩ := except_bind_ok.mp h
  obtain ⟨columnIndex, hcolumnIndex, h⟩ := except_bind_ok.mp h
  rw [except_guard_ok] at h
  obtain ⟨-, h⟩ := h
  rw [except_guard_ok] at h
  obtain ⟨-, h⟩ := h
  obtain rfl := Except.ok.inj h
  rw [HashSourceLocation.canonicalValue]
  simp only [requireUint32_again hpageStart, requireUint32_again hpageEnd,
    requireUint32_again hcharStart, requireUint32_again hcharEnd, requireUint32_again hrowIndex,
    requireUint32_again hcolumnIndex]
  exact ⟨_, rfl⟩

/-- The numbers of a mapped block are accepted again when it is hashed. -/
theorem logicalBlock_ok {self : AstraVectorProtoMapper} {block : LogicalBlock}
    {wire : WireLogicalBlock} (h : self.logicalBlock block = .ok wire) :
    (∀ field, requireUint32 wire.orderIndex field = .ok wire.orderIndex) ∧
      ∀ location ∈ wire.sourceLocation, ∃ value, location.canonicalValue = .ok value := by
  rw [logicalBlock] at h
  obtain ⟨blockId, -, h⟩ := except_bind_ok.mp h
  obtain ⟨text, -, h⟩ := except_bind_ok.mp h
  obtain ⟨blockType, -, h⟩ := except_bind_ok.mp h
  obtain ⟨orderIndex, horder, h⟩ := except_bind_ok.mp h
  obtain ⟨sourceLinks, -, h⟩ := except_bind_ok.mp h
  cases hsource : block.sourceLocation with
  | none =>
    rw [hsource] at h
    obtain ⟨location, hlocation, h⟩ := except_bind_ok.mp h
    obtain rfl := Except.ok.inj hlocation
    obtain rfl := Except.ok.inj h
    exact ⟨requireUint32_again horder, fun l hl => by cases hl⟩
  | some source =>
    rw [hsource] at h
    obtain ⟨location, hlocation, h⟩ := except_bind_ok.mp h
    obtain rfl := Except.ok.inj h
    refine ⟨requireUint32_again horder, fun l hl => ?_⟩
    cases hmapped : sourceLocation source blockId with
    | error e => simp [hmapped, Functor.map, Except.map] at hlocation
    | ok mapped =>
      simp only [hmapped, Functor.map, Except.map, Except.ok.injEq] at hlocation
      subst hlocation
      obtain rfl := Option.some.inj hl
      exact canonicalValue_sourceLocation hmapped

end AstraVectorProtoMapper

namespace DeterministicBatchPlanner

section Sizes

variable (planner : DeterministicBatchPlanner)

/-- The mapping of every block succeeds. -/
def Mapped (blocks : List LogicalBlock) : Prop :=
  ∀ block ∈ blocks, ∃ wire, planner.mapper.logicalBlock block = .ok wire

/-- The wire size of a mapped block. -/
def wireSize (block : LogicalBlock) : Nat :=
  match planner.wireBlockSizeBytes block with
  | .ok n => n
  | .error _ => 0

/-- The block alone exceeds the byte limit. -/
def TooLarge (block : LogicalBlock) : Prop :=
  ∃ limit, planner.maxBatchBytes = some limit ∧ limit < planner.wireSize block

/-- The two limits of a batch. -/
structure Within (chunk : List LogicalBlock) : Prop where
  count : chunk.length ≤ planner.maxBlocksPerBatch
  bytes : ∀ limit, planner.maxBatchBytes = some limit → (chunk.map planner.wireSize).sum ≤ limit

/-- The first block of the second batch does not fit into the first. -/
def NoRoom (a b : List LogicalBlock) : Prop := ∀ x ∈ b.head?, ¬ planner.Within (a ++ [x])

/-- Batches that keep to the limits and are cut as late as possible. -/
structure Packed (chunks : List (List LogicalBlock)) : Prop where
  nonempty : ∀ chunk ∈ chunks, chunk ≠ []
  within : ∀ chunk ∈ chunks, planner.Within chunk
  greedy : chunks.IsChain planner.NoRoom

variable {planner} {block : LogicalBlock} {blocks : List LogicalBlock}

theorem wireBlockSizeBytes_eq {wire : WireLogicalBlock}
    (h : planner.mapper.logicalBlock block = .ok wire) :
    planner.wireBlockSizeBytes block = .ok (planner.wireSize block) := by
  have hsize : ∃ n, planner.wireBlockSizeBytes block = .ok n := by
    rw [wireBlockSizeBytes, h]
    exact ⟨_, rfl⟩
  obtain ⟨n, hn⟩ := hsize
  rw [wireSize, hn]

theorem tooLarge_iff : planner.maxBatchBytes.any (fun limit => limit < planner.wireSize block) = true ↔
    planner.TooLarge block := by
  rw [TooLarge]
  cases planner.maxBatchBytes with
  | none => simp
  | some limit => simp

theorem within_singleton (h : ¬ planner.TooLarge block) : planner.Within [block] := by
  refine ⟨planner.maxBlocks_pos, fun limit hlimit => ?_⟩
  rw [List.map_singleton, List.sum_singleton]
  by_contra hlarge
  exact h ⟨limit, hlimit, Nat.not_le.mp hlarge⟩

/-- What the loop asks before it closes a batch. -/
def Exceeds (planner : DeterministicBatchPlanner) (current : List LogicalBlock)
    (block : LogicalBlock) : Prop :=
  planner.maxBlocksPerBatch ≤ current.length ∨ (current ≠ [] ∧
    planner.maxBatchBytes.any (fun limit =>
      limit < (current.map planner.wireSize).sum + planner.wireSize block) = true)

instance (current : List LogicalBlock) : Decidable (planner.Exceeds current block) :=
  inferInstanceAs (Decidable (_ ∨ _))

theorem exceeds_iff {current : List LogicalBlock} (hne : current ≠ []) :
    planner.Exceeds current block ↔ ¬ planner.Within (current ++ [block]) := by
  have hsum : ((current ++ [block]).map planner.wireSize).sum =
      (current.map planner.wireSize).sum + planner.wireSize block := by
    rw [List.map_append, List.sum_append, List.map_singleton, List.sum_singleton]
  have hlength : (current ++ [block]).length = current.length + 1 := by
    rw [List.length_append, List.length_singleton]
  rw [Exceeds]
  constructor
  · rintro (hcount | ⟨-, hbytes⟩) hwithin
    · have := hwithin.count
      omega
    · cases hlimit : planner.maxBatchBytes with
      | none =>
        rw [hlimit] at hbytes
        cases hbytes
      | some limit =>
        rw [hlimit, Option.any_some, decide_eq_true_eq] at hbytes
        have hle := hwithin.bytes limit hlimit
        omega
  · intro hnot
    by_contra hexceeds
    rw [not_or] at hexceeds
    refine hnot ⟨by omega, fun limit hlimit => ?_⟩
    rw [hsum]
    by_contra hlarge
    refine hexceeds.2 ⟨hne, ?_⟩
    rw [hlimit, Option.any_some]
    exact decide_eq_true (Nat.not_le.mp hlarge)

/-! ## The partition -/

/-- One round of the loop for a block that may be batched. -/
theorem partitionFrom_cons {current rest : List LogicalBlock} {wire : WireLogicalBlock}
    (hwire : planner.mapper.logicalBlock block = .ok wire) (hsmall : ¬ planner.TooLarge block) :
    planner.partitionFrom current (current.map planner.wireSize).sum (block :: rest) =
      if planner.Exceeds current block then
        (planner.partitionFrom [block] (planner.wireSize block) rest).map (current :: ·)
      else planner.partitionFrom (current ++ [block])
        ((current.map planner.wireSize).sum + planner.wireSize block) rest := by
  rw [← tooLarge_iff] at hsmall
  rw [partitionFrom, wireBlockSizeBytes_eq hwire, except_ok_bind]
  simp only [if_neg hsmall]
  by_cases hexceeds : planner.Exceeds current block
  · rw [if_pos hexceeds]
    refine (if_pos hexceeds).trans ?_
    cases planner.partitionFrom [block] (planner.wireSize block) rest with
    | error e => rfl
    | ok chunks => rfl
  · rw [if_neg hexceeds]
    exact if_neg hexceeds

/-- The batches of the blocks still to place, the open batch first. -/
theorem partitionFrom_ok {current rest : List LogicalBlock} (hmapped : planner.Mapped rest)
    (hsmall : ∀ block ∈ rest, ¬ planner.TooLarge block) (hne : current ≠ [])
    (hcurrent : planner.Within current) : ∃ more chunks,
      planner.partitionFrom current (current.map planner.wireSize).sum rest =
        .ok ((current ++ more) :: chunks) ∧
      planner.Packed ((current ++ more) :: chunks) ∧
        ((current ++ more) :: chunks).flatten = current ++ rest := by
  induction rest generalizing current with
  | nil =>
    refine ⟨[], [], ?_, ?_, ?_⟩
    · rw [partitionFrom, if_neg hne, List.append_nil]
    · rw [List.append_nil]
      exact ⟨List.forall_mem_singleton.mpr hne, List.forall_mem_singleton.mpr hcurrent, .singleton _⟩
    · rw [List.append_nil, List.flatten_singleton]
  | cons block rest ih =>
    obtain ⟨wire, hwire⟩ := hmapped block List.mem_cons_self
    have hblock := hsmall block List.mem_cons_self
    have hmapped' : planner.Mapped rest := fun b hb => hmapped b (List.mem_cons_of_mem _ hb)
    have hsmall' : ∀ b ∈ rest, ¬ planner.TooLarge b :=
      fun b hb => hsmall b (List.mem_cons_of_mem _ hb)
    rw [partitionFrom_cons hwire hblock]
    by_cases hexceeds : planner.Exceeds current block
    · obtain ⟨more, chunks, hok, hpacked, hflatten⟩ :=
        ih hmapped' hsmall' (List.cons_ne_nil block []) (within_singleton hblock)
      rw [List.map_singleton, List.sum_singleton] at hok
      rw [if_pos hexceeds, hok]
      refine ⟨[], ([block] ++ more) :: chunks, ?_, ?_, ?_⟩
      · rw [List.append_nil]
        rfl
      · rw [List.append_nil]
        refine ⟨List.forall_mem_cons.mpr ⟨hne, hpacked.nonempty⟩,
          List.forall_mem_cons.mpr ⟨hcurrent, hpacked.within⟩, .cons_cons ?_ hpacked.greedy⟩
        intro x hx
        obtain rfl := Option.some.inj hx
        exact (exceeds_iff hne).mp hexceeds
      · rw [List.append_nil, List.flatten_cons, hflatten, List.singleton_append]
    · have hwithin : planner.Within (current ++ [block]) := by
        by_contra hnot
        exact hexceeds ((exceeds_iff hne).mpr hnot)
      have hsum : ((current ++ [block]).map planner.wireSize).sum =
          (current.map planner.wireSize).sum + planner.wireSize block := by
        rw [List.map_append, List.sum_append, List.map_singleton, List.sum_singleton]
      obtain ⟨more, chunks, hok, hpacked, hflatten⟩ :=
        ih hmapped' hsmall' (List.append_ne_nil_of_right_ne_nil current (List.cons_ne_nil block []))
          hwithin
      rw [hsum] at hok
      rw [if_neg hexceeds, hok]
      refine ⟨block :: more, chunks, ?_, ?_, ?_⟩
      · rw [List.append_assoc, List.singleton_append]
      · rwa [List.append_assoc, List.singleton_append] at hpacked
      · rw [List.append_assoc, List.singleton_append] at hflatten
        rw [hflatten, List.append_assoc, List.singleton_append]

theorem partitionFrom_nil (hmapped : planner.Mapped blocks)
    (hsmall : ∀ block ∈ blocks, ¬ planner.TooLarge block) : ∃ chunks,
      planner.partitionFrom [] 0 blocks = .ok chunks ∧ planner.Packed chunks ∧
        chunks.flatten = blocks := by
  cases blocks with
  | nil =>
    refine ⟨[], rfl, ⟨List.forall_mem_nil _, List.forall_mem_nil _, .nil⟩, rfl⟩
  | cons block rest =>
    obtain ⟨wire, hwire⟩ := hmapped block List.mem_cons_self
    have hblock := hsmall block List.mem_cons_self
    have hexceeds : ¬ planner.Exceeds [] block := by
      rintro (hcount | ⟨hne, -⟩)
      · exact absurd hcount (Nat.not_le.mpr planner.maxBlocks_pos)
      · exact hne rfl
    obtain ⟨more, chunks, hok, hpacked, hflatten⟩ :=
      partitionFrom_ok (fun b hb => hmapped b (List.mem_cons_of_mem _ hb))
        (fun b hb => hsmall b (List.mem_cons_of_mem _ hb)) (List.cons_ne_nil block [])
        (within_singleton hblock)
    refine ⟨_, ?_, hpacked, hflatten⟩
    have hround := @partitionFrom_cons planner block [] rest wire hwire hblock
    rw [if_neg hexceeds, List.map_nil, List.sum_nil, Nat.zero_add, List.nil_append] at hround
    rw [List.map_singleton, List.sum_singleton] at hok
    rw [hround, hok]

/-- A block that is too large stops the partition. -/
theorem partitionFrom_error {current rest : List LogicalBlock} {n : Nat}
    (hmapped : planner.Mapped rest) (hlarge : ∃ block ∈ rest, planner.TooLarge block) :
    ∃ e, planner.partitionFrom current n rest = .error e := by
  induction rest generalizing current n with
  | nil =>
    obtain ⟨block, hblock, -⟩ := hlarge
    cases hblock
  | cons block rest ih =>
    obtain ⟨wire, hwire⟩ := hmapped block List.mem_cons_self
    rw [partitionFrom, wireBlockSizeBytes_eq hwire, except_ok_bind]
    by_cases htoo : planner.TooLarge block
    · rw [← tooLarge_iff] at htoo
      simp only [if_pos htoo]
      exact ⟨_, rfl⟩
    · have hrest : ∃ b ∈ rest, planner.TooLarge b := by
        obtain ⟨b, hb, hlarge⟩ := hlarge
        rcases List.mem_cons.mp hb with rfl | hb
        · exact absurd hlarge htoo
        · exact ⟨b, hb, hlarge⟩
      have hih := fun current n =>
        @ih current n (fun b hb => hmapped b (List.mem_cons_of_mem _ hb)) hrest
      rw [← tooLarge_iff] at htoo
      simp only [if_neg htoo]
      split
      · obtain ⟨e, he⟩ := hih [block] (planner.wireSize block)
        rw [he]
        exact ⟨e, rfl⟩
      · exact hih _ _

/-! ## The plan -/

theorem hashBlock_ok (h : ∃ wire, planner.mapper.logicalBlock block = .ok wire) :
    ∃ hash value, planner.hashBlock block = .ok hash ∧ hash.canonicalValue = .ok value := by
  obtain ⟨wire, hwire⟩ := h
  obtain ⟨horder, hlocation⟩ := AstraVectorProtoMapper.logicalBlock_ok hwire
  have hhash : ∃ hash, planner.hashBlock block = .ok hash ∧ hash.orderIndex = wire.orderIndex ∧
      hash.sourceLocation = wire.sourceLocation := by
    rw [hashBlock, hwire]
    exact ⟨_, rfl, rfl, rfl⟩
  obtain ⟨hash, hhash, hindex, hsource⟩ := hhash
  refine ⟨hash, ?_⟩
  rw [HashLogicalBlock.canonicalValue, hindex, hsource, horder, except_ok_bind]
  cases hwireLocation : wire.sourceLocation with
  | none => exact ⟨_, hhash, rfl⟩
  | some location =>
    obtain ⟨value, hvalue⟩ := hlocation location hwireLocation
    simp only [hvalue, except_ok_bind]
    exact ⟨_, hhash, rfl⟩

/-- A batch of mapped blocks is hashed. -/
theorem planChunk_mapped {chunk : List LogicalBlock} (hmapped : planner.Mapped chunk)
    (hne : chunk ≠ []) (total index : Nat) : ∃ batch,
      planner.planChunk total index chunk = .ok batch ∧ batch.blocks = chunk ∧
        batch.batchIndex = index ∧ batch.isLastBatch = (index + 1 == total) := by
  have hhash : ∀ block ∈ chunk, ∃ hash, planner.hashBlock block = .ok hash := by
    intro block hblock
    obtain ⟨hash, -, hhash, -⟩ := hashBlock_ok (hmapped block hblock)
    exact ⟨hash, hhash⟩
  obtain ⟨hashBlocks, hhashBlocks⟩ := Traverse.exists_mapM_ok hhash
  have hmade := Traverse.mapM_eq_ok.mp hhashBlocks
  have hvalue : ∀ hash ∈ hashBlocks, ∃ value, hash.canonicalValue = .ok value := by
    intro hash hmem
    obtain ⟨block, hblock, heq⟩ := Traverse.exists_left_of_forall₂ hmade hash hmem
    obtain ⟨hash', value, hhash', hvalue⟩ := hashBlock_ok (hmapped block hblock)
    obtain rfl := Except.ok.inj (heq.symm.trans hhash')
    exact ⟨value, hvalue⟩
  obtain ⟨values, hvalues⟩ := Traverse.exists_mapM_ok hvalue
  have hbytes : ∃ bytes, canonicalBatchBytes hashBlocks = .ok bytes := by
    rw [canonicalBatchBytes, hvalues]
    exact ⟨_, rfl⟩
  obtain ⟨bytes, hbytes⟩ := hbytes
  have hashed : hashBlocks ≠ [] := by
    rintro rfl
    exact hne (List.forall₂_nil_right_iff.mp hmade)
  have hdigest : computeBatchContentHash planner.sha256 hashBlocks =
      .ok (planner.sha256.hexdigest bytes) := by
    rw [computeBatchContentHash, if_neg hashed, hbytes]
    rfl
  rw [planChunk, hhashBlocks, except_ok_bind, hbytes, except_ok_bind, hdigest]
  exact ⟨_, rfl, rfl, rfl, rfl⟩

theorem planFrom_mapped {chunks : List (List LogicalBlock)}
    (hmapped : ∀ chunk ∈ chunks, planner.Mapped chunk) (hne : ∀ chunk ∈ chunks, chunk ≠ [])
    (total index : Nat) : ∃ batches, planner.planFrom total index chunks = .ok batches ∧
      batches.map (·.blocks) = chunks ∧
        batches.map (·.isLastBatch) =
          (List.range' index batches.length).map fun i => i + 1 == total := by
  induction chunks generalizing index with
  | nil => exact ⟨[], rfl, rfl, rfl⟩
  | cons chunk rest ih =>
    obtain ⟨batch, hbatch, hblocks, -, hlast⟩ := planChunk_mapped
      (hmapped chunk List.mem_cons_self) (hne chunk List.mem_cons_self) total index
    obtain ⟨batches, hbatches, hrest, hlasts⟩ := ih
      (fun c hc => hmapped c (List.mem_cons_of_mem _ hc))
      (fun c hc => hne c (List.mem_cons_of_mem _ hc)) (index + 1)
    refine ⟨batch :: batches, ?_, ?_, ?_⟩
    · rw [planFrom, hbatch, except_ok_bind, hbatches]
      rfl
    · rw [List.map_cons, hblocks, hrest]
    · rw [List.map_cons, hlast, hlasts, List.length_cons, List.range'_succ, List.map_cons]

variable (planner)

/-- Why there is no plan. -/
def Unplannable (blocks : List LogicalBlock) : Prop :=
  blocks = [] ∨ ¬ (blocks.map (·.blockId)).Nodup ∨ ¬ (blocks.map (·.orderIndex)).Nodup ∨
    ∃ block ∈ blocks, planner.TooLarge block

/-- What a plan of the blocks is. -/
structure IsPlan (blocks : List LogicalBlock) (batches : List PlannedDeliveryBatch) : Prop where
  sorted : (batches.flatMap (·.blocks)).Pairwise blockBefore
  perm : (batches.flatMap (·.blocks)).Perm blocks
  indexes : batches.map (·.batchIndex) = List.range batches.length
  last : batches.map (·.isLastBatch) =
    (List.range batches.length).map fun i => i + 1 == batches.length
  packed : planner.Packed (batches.map (·.blocks))

variable {planner}

theorem ordered_ok (h : ¬ planner.Unplannable blocks) :
    ordered blocks = .ok (blocks.insertionSort blockBefore) := by
  simp only [Unplannable, not_or, not_not] at h
  obtain ⟨hne, hids, hindexes, -⟩ := h
  have hperm := List.perm_insertionSort blockBefore blocks
  have hids' : ((blocks.insertionSort blockBefore).map (·.blockId)).Nodup :=
    (hperm.map _).nodup_iff.mpr hids
  have hindexes' : ((blocks.insertionSort blockBefore).map (·.orderIndex)).Nodup :=
    (hperm.map _).nodup_iff.mpr hindexes
  rw [ordered, if_neg hne, if_neg (not_not.mpr hids'), if_neg (not_not.mpr hindexes')]
  rfl

/-- Blocks that can be planned are. -/
theorem plan_isPlan (hmapped : planner.Mapped blocks) (h : ¬ planner.Unplannable blocks) :
    ∃ batches, planner.plan blocks = .ok batches ∧ planner.IsPlan blocks batches := by
  have hperm := List.perm_insertionSort blockBefore blocks
  have hsmall : ∀ block ∈ blocks.insertionSort blockBefore, ¬ planner.TooLarge block :=
    fun block hblock hlarge => h (.inr (.inr (.inr ⟨block, hperm.mem_iff.mp hblock, hlarge⟩)))
  have hsorted : planner.Mapped (blocks.insertionSort blockBefore) :=
    fun block hblock => hmapped block (hperm.mem_iff.mp hblock)
  obtain ⟨chunks, hchunks, hpacked, hflatten⟩ := partitionFrom_nil hsorted hsmall
  have hchunksMapped : ∀ chunk ∈ chunks, planner.Mapped chunk := by
    intro chunk hchunk block hblock
    apply hsorted
    rw [← hflatten]
    exact List.mem_flatten.mpr ⟨chunk, hchunk, hblock⟩
  obtain ⟨batches, hbatches, hblocks, hlast⟩ :=
    planFrom_mapped hchunksMapped hpacked.nonempty chunks.length 0
  have hlength : chunks.length = batches.length := by
    rw [← hblocks, List.length_map]
  have hflat : batches.flatMap (·.blocks) = blocks.insertionSort blockBefore := by
    rw [List.flatMap_def, hblocks, hflatten]
  have hplan : planner.plan blocks = .ok batches := by
    rw [plan, ordered_ok h, except_ok_bind, hchunks, except_ok_bind, hbatches]
  refine ⟨batches, hplan, ?_, ?_, (plan_ok hplan).1, ?_, ?_⟩
  · rw [hflat]
    exact List.pairwise_insertionSort blockBefore blocks
  · rw [hflat]
    exact hperm
  · rw [hlast, hlength, List.range_eq_range']
  · rwa [hblocks]

theorem plan_error (hmapped : planner.Mapped blocks) (h : planner.Unplannable blocks) :
    ∃ e, planner.plan blocks = .error e := by
  have hperm := List.perm_insertionSort blockBefore blocks
  rcases h with rfl | hids | hindexes | ⟨block, hblock, hlarge⟩
  · exact ⟨_, rfl⟩
  · cases hplan : planner.plan blocks with
    | error e => exact ⟨e, rfl⟩
    | ok batches =>
      rw [plan] at hplan
      obtain ⟨sorted, hordered, -⟩ := except_bind_ok.mp hplan
      rw [ordered, except_guard_ok] at hordered
      obtain ⟨-, hordered⟩ := hordered
      rw [except_guard_ok, not_not] at hordered
      exact absurd ((hperm.map _).nodup_iff.mp hordered.1) hids
  · cases hplan : planner.plan blocks with
    | error e => exact ⟨e, rfl⟩
    | ok batches =>
      rw [plan] at hplan
      obtain ⟨sorted, hordered, -⟩ := except_bind_ok.mp hplan
      rw [ordered, except_guard_ok] at hordered
      obtain ⟨-, hordered⟩ := hordered
      rw [except_guard_ok] at hordered
      obtain ⟨-, hordered⟩ := hordered
      rw [except_guard_ok, not_not] at hordered
      exact absurd ((hperm.map _).nodup_iff.mp hordered.1) hindexes
  · rw [plan]
    cases hordered : ordered blocks with
    | error e => exact ⟨e, rfl⟩
    | ok sorted =>
      have heq : sorted = blocks.insertionSort blockBefore := by
        rw [ordered, except_guard_ok] at hordered
        obtain ⟨-, hordered⟩ := hordered
        rw [except_guard_ok] at hordered
        obtain ⟨-, hordered⟩ := hordered
        rw [except_guard_ok] at hordered
        exact (Except.ok.inj hordered.2).symm
      subst heq
      have hmapped' : planner.Mapped (blocks.insertionSort blockBefore) :=
        fun b hb => hmapped b (hperm.mem_iff.mp hb)
      obtain ⟨e, he⟩ := @partitionFrom_error planner [] _ 0 hmapped'
        ⟨block, hperm.mem_iff.mpr hblock, hlarge⟩
      rw [except_ok_bind, he]
      exact ⟨e, rfl⟩

/-- Planning is a function of the set of blocks: it fails exactly when the blocks cannot be
planned, the batches are the sorted blocks cut greedily, and the final hash knows nothing
of the limits. -/
theorem plan_deterministic (planner : DeterministicBatchPlanner) (blocks : List LogicalBlock)
    (hmapped : planner.Mapped blocks) :
    ((∃ e, planner.plan blocks = .error e) ↔ planner.Unplannable blocks) ∧
      (∀ batches, planner.plan blocks = .ok batches → planner.IsPlan blocks batches) ∧
      (∀ blocks', blocks.Perm blocks' → planner.plan blocks' = planner.plan blocks) ∧
      ∀ other : DeterministicBatchPlanner, other.mapper = planner.mapper →
        other.sha256 = planner.sha256 → ∀ blocks', blocks.Perm blocks' →
          other.finalContentHash blocks' = planner.finalContentHash blocks := by
  refine ⟨⟨?_, plan_error hmapped⟩, ?_, fun blocks' h => (planner.plan_perm h).symm, ?_⟩
  · intro ⟨e, he⟩
    by_contra hplannable
    obtain ⟨batches, hok, -⟩ := plan_isPlan hmapped hplannable
    rw [hok] at he
    cases he
  · intro batches hok
    by_cases hunplannable : planner.Unplannable blocks
    · obtain ⟨e, he⟩ := plan_error hmapped hunplannable
      rw [hok] at he
      cases he
    · obtain ⟨batches', hok', hplan⟩ := plan_isPlan hmapped hunplannable
      obtain rfl := Except.ok.inj (hok.symm.trans hok')
      exact hplan
  · intro other hmapper hsha blocks' h
    have hhash : other.hashBlock = planner.hashBlock := by
      funext block
      rw [hashBlock, hashBlock, hmapper]
    rw [finalContentHash, finalContentHash, ordered_perm h, hsha, hhash]

theorem plan_deterministic_sample :
    ((∃ e, samplePlanner.plan [sampleTail, sampleBlock] = .error e) ↔
        samplePlanner.Unplannable [sampleTail, sampleBlock]) ∧
      (∀ batches, samplePlanner.plan [sampleTail, sampleBlock] = .ok batches →
        samplePlanner.IsPlan [sampleTail, sampleBlock] batches) ∧
      (∀ blocks', [sampleTail, sampleBlock].Perm blocks' →
        samplePlanner.plan blocks' = samplePlanner.plan [sampleTail, sampleBlock]) ∧
      ∀ other : DeterministicBatchPlanner, other.mapper = samplePlanner.mapper →
        other.sha256 = samplePlanner.sha256 → ∀ blocks', [sampleTail, sampleBlock].Perm blocks' →
          other.finalContentHash blocks' =
            samplePlanner.finalContentHash [sampleTail, sampleBlock] := by
  have hmapped : samplePlanner.Mapped [sampleTail, sampleBlock] := by
    intro block hblock
    simp only [List.mem_cons, List.not_mem_nil, or_false] at hblock
    rcases hblock with rfl | rfl
    · exact ⟨_, rfl⟩
    · exact ⟨_, rfl⟩
  exact plan_deterministic samplePlanner [sampleTail, sampleBlock] hmapped

end Sizes

end DeterministicBatchPlanner

end AstraIndexator
