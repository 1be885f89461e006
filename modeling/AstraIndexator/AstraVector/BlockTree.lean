import AstraIndexator.AstraVector.Validation
import AstraIndexator.Foundation.Loop
import AstraIndexator.Foundation.Raises
import AstraIndexator.Foundation.Traverse
import Mathlib.Data.List.Perm.Subperm

/-!
# Trees of logical blocks

The validator accepts exactly the trees.  The first loop compares identifiers and order
indexes, the second one finds every parent among the blocks, and the third one walks the
parents up to the root.  A walk that does not end has to run out of identifiers it has not
seen, so it is as long as the list of blocks at most.
-/

namespace AstraIndexator

open Text Transaction Relation

namespace LogicalBlockValidation

def IsDocument (block : LogicalBlock) : Prop := upper (strip block.blockType) = "DOCUMENT"

instance : DecidablePred IsDocument := fun _ => inferInstanceAs (Decidable (_ = _))

/-- The second block is the one the first names as its parent. -/
def ParentStep (blocks : List LogicalBlock) (block parent : LogicalBlock) : Prop :=
  block ∈ blocks ∧ parent ∈ blocks ∧ strip block.parentBlockId = strip parent.blockId

structure IsTree (blocks : List LogicalBlock) : Prop where
  nonempty : blocks ≠ []
  id_ne : ∀ b ∈ blocks, strip b.blockId ≠ ""
  id_nodup : (blocks.map fun b => strip b.blockId).Nodup
  order_nonneg : ∀ b ∈ blocks, 0 ≤ b.orderIndex
  order_nodup : (blocks.map (·.orderIndex)).Nodup
  root : ∃ root, blocks.filter (IsDocument ·) = [root] ∧ strip root.parentBlockId = "" ∧
    ∀ b ∈ blocks, ReflTransGen (ParentStep blocks) b root

/-! ## The first loop -/

/-- What the loop has collected after a block. -/
def Scan.add (scan : Scan) (block : LogicalBlock) : Scan where
  byId := scan.byId ++ [(strip block.blockId, block)]
  orderIndexes := block.orderIndex :: scan.orderIndexes
  documentRoots :=
    if IsDocument block then scan.documentRoots ++ [block] else scan.documentRoots

theorem lookup_isSome_iff {entries : List (String × LogicalBlock)} {id : String} :
    (entries.lookup id).isSome = true ↔ id ∈ entries.map Prod.fst := by
  rw [List.lookup_isSome_iff, List.mem_map]
  constructor
  · intro ⟨entry, hentry, hkey⟩
    exact ⟨entry, hentry, (eq_of_beq hkey).symm⟩
  · intro ⟨entry, hentry, hkey⟩
    exact ⟨entry, hentry, by rw [hkey]; exact beq_self_eq_true id⟩

theorem scanBlock_ok {scan scan' : Scan} {block : LogicalBlock} :
    scanBlock scan block = .ok scan' ↔ strip block.blockId ≠ "" ∧
      strip block.blockId ∉ scan.byId.map Prod.fst ∧ 0 ≤ block.orderIndex ∧
      block.orderIndex ∉ scan.orderIndexes ∧ scan' = scan.add block := by
  simp only [scanBlock, except_guard_ok, lookup_isSome_iff, Int.not_lt]
  refine and_congr_right fun _ => and_congr_right fun _ => and_congr_right fun _ =>
    and_congr_right fun _ => ?_
  exact ⟨fun h => (Except.ok.inj h).symm, fun h => congrArg Except.ok h.symm⟩

/-- The entries of the scanned blocks. -/
def entries (blocks : List LogicalBlock) : List (String × LogicalBlock) :=
  blocks.map fun b => (strip b.blockId, b)

/-- The whole loop, from what has been collected before it. -/
theorem foldlM_scanBlock_ok {blocks : List LogicalBlock} {scan scan' : Scan}
    (hkeys : (scan.byId.map Prod.fst).Nodup) (horders : scan.orderIndexes.Nodup) :
    blocks.foldlM scanBlock scan = .ok scan' ↔ (∀ b ∈ blocks, strip b.blockId ≠ "") ∧
      (scan.byId.map Prod.fst ++ blocks.map fun b => strip b.blockId).Nodup ∧
      (∀ b ∈ blocks, 0 ≤ b.orderIndex) ∧
      (blocks.map (·.orderIndex) ++ scan.orderIndexes).Nodup ∧ scan' = blocks.foldl Scan.add scan := by
  induction blocks generalizing scan with
  | nil =>
    simp only [List.foldlM_nil, List.map_nil, List.append_nil, List.nil_append, List.foldl_nil,
      hkeys, horders, List.not_mem_nil, false_implies, implies_true, true_and]
    exact ⟨fun h => (Except.ok.inj h).symm, fun h => congrArg Except.ok h.symm⟩
  | cons b blocks ih =>
    rw [List.foldlM_cons, except_bind_ok]
    constructor
    · intro ⟨next, hnext, h⟩
      obtain ⟨hid, hfresh, hnonneg, hindex, rfl⟩ := scanBlock_ok.mp hnext
      have hkeys' : ((scan.add b).byId.map Prod.fst).Nodup := by
        rw [Scan.add, List.map_append, List.map_singleton, ← List.concat_eq_append]
        exact hkeys.concat hfresh
      obtain ⟨hids, hnodup, hnonnegs, horders', rfl⟩ :=
        (ih hkeys' (List.nodup_cons.mpr ⟨hindex, horders⟩)).mp h
      refine ⟨List.forall_mem_cons.mpr ⟨hid, hids⟩, ?_, List.forall_mem_cons.mpr ⟨hnonneg, hnonnegs⟩,
        ?_, rfl⟩
      · simpa [Scan.add] using hnodup
      · exact List.perm_middle.nodup_iff.mp horders'
    · intro ⟨hids, hnodup, hnonneg, horders', hscan⟩
      have hfresh : strip b.blockId ∉ scan.byId.map Prod.fst := by
        intro hmem
        exact (List.nodup_append.mp hnodup).2.2 _ hmem _ List.mem_cons_self rfl
      have hindex : b.orderIndex ∉ scan.orderIndexes := by
        intro hmem
        exact (List.nodup_append.mp horders').2.2 _ List.mem_cons_self _ hmem rfl
      have hnodup' : ((scan.add b).byId.map Prod.fst ++
          blocks.map fun b => strip b.blockId).Nodup := by
        simpa [Scan.add] using hnodup
      refine ⟨scan.add b, scanBlock_ok.mpr ⟨hids b List.mem_cons_self, hfresh,
        hnonneg b List.mem_cons_self, hindex, rfl⟩, ?_⟩
      refine (ih (List.nodup_append.mp hnodup').1 (List.nodup_cons.mpr ⟨hindex, horders⟩)).mpr
        ⟨fun c hc => hids c (List.mem_cons_of_mem _ hc), hnodup',
          fun c hc => hnonneg c (List.mem_cons_of_mem _ hc), ?_, hscan⟩
      exact List.perm_middle.nodup_iff.mpr horders'

theorem foldl_add (blocks : List LogicalBlock) (scan : Scan) :
    (blocks.foldl Scan.add scan).byId = scan.byId ++ entries blocks ∧
      (blocks.foldl Scan.add scan).documentRoots =
        scan.documentRoots ++ blocks.filter (IsDocument ·) := by
  induction blocks generalizing scan with
  | nil => exact ⟨(List.append_nil _).symm, (List.append_nil _).symm⟩
  | cons b blocks ih =>
    rw [List.foldl_cons, (ih _).1, (ih _).2]
    constructor
    · simp [Scan.add, entries]
    · by_cases hdocument : IsDocument b
      · simp [Scan.add, hdocument]
      · simp [Scan.add, hdocument]

/-! ## The parents -/

section Parents

variable {blocks : List LogicalBlock}

theorem lookup_entries {id : String} {b : LogicalBlock} (h : (entries blocks).lookup id = some b) :
    b ∈ blocks ∧ strip b.blockId = id := by
  obtain ⟨before, after, hsplit, -⟩ := List.lookup_eq_some_iff.mp h
  have hmem : (id, b) ∈ entries blocks := by
    rw [hsplit]
    simp
  obtain ⟨c, hc, heq⟩ := List.mem_map.mp hmem
  obtain ⟨rfl, rfl⟩ := Prod.mk.inj heq
  exact ⟨hc, rfl⟩

theorem keys_entries (blocks : List LogicalBlock) :
    (entries blocks).map Prod.fst = blocks.map fun b => strip b.blockId := by
  rw [entries, List.map_map]
  rfl

theorem isSome_lookup_entries {b : LogicalBlock} (hb : b ∈ blocks) :
    ((entries blocks).lookup (strip b.blockId)).isSome = true := by
  rw [lookup_isSome_iff, keys_entries]
  exact List.mem_map_of_mem hb

/-- With distinct identifiers a block is found under its own. -/
theorem lookup_entries_self (hnodup : (blocks.map fun b => strip b.blockId).Nodup)
    {b : LogicalBlock} (hb : b ∈ blocks) : (entries blocks).lookup (strip b.blockId) = some b := by
  obtain ⟨c, hc⟩ := Option.isSome_iff_exists.mp (isSome_lookup_entries hb)
  obtain ⟨hmem, hid⟩ := lookup_entries hc
  rw [hc, List.inj_on_of_nodup_map hnodup hmem hb hid]

/-- The second identifier is the parent a block with the first one names. -/
def Names (byId : List (String × LogicalBlock)) (id parentId : String) : Prop :=
  ∃ block, byId.lookup id = some block ∧ strip block.parentBlockId = parentId ∧ parentId ≠ ""

theorem names_rightUnique (byId : List (String × LogicalBlock)) :
    Relator.RightUnique (Names byId) := by
  intro id p q ⟨b, hb, hp, _⟩ ⟨c, hc, hq, _⟩
  rw [hb] at hc
  cases hc
  exact hp.symm.trans hq

theorem not_names_root (hnodup : (blocks.map fun b => strip b.blockId).Nodup)
    {root : LogicalBlock} (hroot : root ∈ blocks) (hblank : strip root.parentBlockId = "")
    (id : String) : ¬ Names (entries blocks) (strip root.blockId) id := by
  intro ⟨c, hc, hparent, hne⟩
  rw [lookup_entries_self hnodup hroot] at hc
  cases hc
  exact hne (hparent.symm.trans hblank)

/-- An identifier the root is reached from is that of a block. -/
theorem exists_of_reaches {root : LogicalBlock} (hroot : root ∈ blocks) {id : String}
    (h : ReflTransGen (Names (entries blocks)) id (strip root.blockId)) :
    ∃ b ∈ blocks, strip b.blockId = id := by
  rcases h.cases_head with rfl | ⟨_, ⟨b, hb, _⟩, _⟩
  · exact ⟨root, hroot, rfl⟩
  · exact ⟨b, lookup_entries hb⟩

/-- Walking along the identifiers and walking along the blocks is the same. -/
theorem reflTransGen_names_iff (hid : ∀ b ∈ blocks, strip b.blockId ≠ "")
    (hnodup : (blocks.map fun b => strip b.blockId).Nodup) {b root : LogicalBlock}
    (hb : b ∈ blocks) (hroot : root ∈ blocks) :
    ReflTransGen (Names (entries blocks)) (strip b.blockId) (strip root.blockId) ↔
      ReflTransGen (ParentStep blocks) b root := by
  constructor
  · intro h
    generalize hx : strip b.blockId = x at h
    induction h using ReflTransGen.head_induction_on generalizing b with
    | refl =>
      rw [List.inj_on_of_nodup_map hnodup hb hroot hx]
    | head hstep hrest ih =>
      rename_i x y
      obtain ⟨c, hc, hcy⟩ := exists_of_reaches hroot hrest
      obtain ⟨d, hd, hparent, -⟩ := hstep
      rw [← hx, lookup_entries_self hnodup hb] at hd
      cases hd
      exact .head ⟨hb, hc, hparent.trans hcy.symm⟩ (ih hc hcy)
  · intro h
    have hstep : ∀ c d, ParentStep blocks c d →
        Names (entries blocks) (strip c.blockId) (strip d.blockId) := by
      intro c d ⟨hc, hd, hparent⟩
      exact ⟨c, lookup_entries_self hnodup hc, hparent, hid d hd⟩
    induction h with
    | refl => exact .refl
    | tail _ hlast ih => exact .tail (ih hlast.1) (hstep _ _ hlast)

/-! ## The second loop -/

theorem checkParent_ok {byId : List (String × LogicalBlock)} {rootId : String}
    {entry : String × LogicalBlock} : checkParent byId rootId entry = .ok () ↔
      (entry.1 ≠ rootId → strip entry.2.parentBlockId ≠ "" ∧
        strip entry.2.parentBlockId ≠ entry.1 ∧
        strip entry.2.parentBlockId ∈ byId.map Prod.fst) := by
  unfold checkParent
  dsimp only
  by_cases hroot : entry.1 = rootId
  · rw [if_pos hroot]
    exact ⟨fun _ h => absurd hroot h, fun _ => rfl⟩
  · rw [if_neg hroot]
    simp only [except_guard_ok, Option.isNone_iff_eq_none]
    by_cases hmissing : byId.lookup (strip entry.2.parentBlockId) = none
    · have hkey : strip entry.2.parentBlockId ∉ byId.map Prod.fst := by
        rw [← lookup_isSome_iff, hmissing]
        decide
      rw [if_pos hmissing]
      exact ⟨fun ⟨_, _, h⟩ => (by cases h), fun h => absurd (h hroot).2.2 hkey⟩
    · have hkey : strip entry.2.parentBlockId ∈ byId.map Prod.fst := by
        rw [← lookup_isSome_iff, ← Option.ne_none_iff_isSome]
        exact hmissing
      rw [if_neg hmissing]
      exact ⟨fun ⟨hblank, hself, _⟩ _ => ⟨hblank, hself, hkey⟩,
        fun h => ⟨(h hroot).1, (h hroot).2.1, rfl⟩⟩

/-! ## The third loop -/

/-- One turn of the walk. -/
def walkTurn (byId : List (String × LogicalBlock)) (rootId startId : String) :
    List String × String → Except AstraError Unit ⊕ (List String × String)
  | (seen, current) =>
    if current = rootId then .inl (.ok ())
    else if current ∈ seen then
      .inl (.error (invalid
        ("logical block hierarchy contains a cycle involving " ++ quoted current)))
    else match byId.lookup current with
      | none => .inl (.error (.runtimeError ("KeyError: " ++ quoted current)))
      | some block =>
        if strip block.parentBlockId = "" then
          .inl (.error (invalid ("logical block " ++ quoted startId ++
            " is not connected to DOCUMENT root " ++ quoted rootId)))
        else .inr (current :: seen, strip block.parentBlockId)

section Walk

variable {byId : List (String × LogicalBlock)} {rootId startId current : String}
  {seen : List String} {n : Nat}

/-- The walk ends, and with what the validator takes for its end: the identifiers it has seen
are distinct keys, so there are not more of them than there are blocks. -/
theorem followParents_ends (fuel : Nat) (hnodup : seen.Nodup)
    (hseen : ∀ id ∈ seen, id ∈ byId.map Prod.fst) (hfuel : byId.length ≤ fuel + seen.length) :
    ∃ n ≤ fuel, Loop.Ends (walkTurn byId rootId startId) (seen, current) n
      (followParents byId rootId startId fuel seen current) := by
  induction fuel generalizing seen current with
  | zero =>
    refine ⟨0, le_rfl, .done ?_⟩
    rw [walkTurn]
    unfold followParents
    by_cases hroot : current = rootId
    · rw [if_pos hroot, if_pos hroot]
    by_cases hmem : current ∈ seen
    · rw [if_neg hroot, if_neg hroot, if_pos hmem, if_pos hmem]
    rw [if_neg hroot, if_neg hroot, if_neg hmem, if_neg hmem]
    cases hlookup : byId.lookup current with
    | none => rfl
    | some block =>
      have hkey : current ∈ byId.map Prod.fst :=
        lookup_isSome_iff.mp (by rw [hlookup]; rfl)
      have hsubset : current :: seen ⊆ byId.map Prod.fst :=
        List.cons_subset.mpr ⟨hkey, hseen⟩
      have hle := (List.subperm_of_subset (List.nodup_cons.mpr ⟨hmem, hnodup⟩) hsubset).length_le
      rw [List.length_cons, List.length_map] at hle
      omega
  | succ fuel ih =>
    unfold followParents
    by_cases hroot : current = rootId
    · rw [if_pos hroot]
      refine ⟨0, Nat.zero_le _, .done ?_⟩
      rw [walkTurn, if_pos hroot]
    by_cases hmem : current ∈ seen
    · rw [if_neg hroot, if_pos hmem]
      refine ⟨0, Nat.zero_le _, .done ?_⟩
      rw [walkTurn, if_neg hroot, if_pos hmem]
    rw [if_neg hroot, if_neg hmem]
    cases hlookup : byId.lookup current with
    | none =>
      refine ⟨0, Nat.zero_le _, .done ?_⟩
      rw [walkTurn, if_neg hroot, if_neg hmem, hlookup]
    | some block =>
      dsimp only
      by_cases hblank : strip block.parentBlockId = ""
      · rw [if_pos hblank]
        refine ⟨0, Nat.zero_le _, .done ?_⟩
        rw [walkTurn, if_neg hroot, if_neg hmem, hlookup]
        exact if_pos hblank
      · rw [if_neg hblank]
        have hkey : current ∈ byId.map Prod.fst := lookup_isSome_iff.mp (by rw [hlookup]; rfl)
        obtain ⟨n, hn, hends⟩ := ih (List.nodup_cons.mpr ⟨hmem, hnodup⟩)
          (List.forall_mem_cons.mpr ⟨hkey, hseen⟩) (by rw [List.length_cons]; omega)
        refine ⟨n + 1, by omega, .next ?_ hends⟩
        rw [walkTurn, if_neg hroot, if_neg hmem, hlookup]
        exact if_neg hblank

/-- A turn that goes on follows a parent. -/
theorem walkTurn_next {s s' : List String × String}
    (h : walkTurn byId rootId startId s = .inr s') : s.2 ≠ rootId ∧ s.2 ∉ s.1 ∧
      Names byId s.2 s'.2 ∧ s'.1 = s.2 :: s.1 := by
  obtain ⟨seen, current⟩ := s
  rw [walkTurn] at h
  split at h
  · cases h
  next hroot =>
  split at h
  · cases h
  next hmem =>
  split at h
  · cases h
  next block hlookup =>
  split at h
  · cases h
  next hblank =>
  cases h
  exact ⟨hroot, hmem, ⟨block, hlookup, rfl, hblank⟩, rfl⟩

/-- A walk that ends without an error has come to the root. -/
theorem reaches_of_ends {s : List String × String}
    (h : Loop.Ends (walkTurn byId rootId startId) s n (.ok ())) :
    ReflTransGen (Names byId) s.2 rootId := by
  generalize hr : (Except.ok () : Except AstraError Unit) = r at h
  induction h with
  | done hturn =>
    rename_i s r
    obtain ⟨seen, current⟩ := s
    subst hr
    rw [walkTurn] at hturn
    split at hturn
    next hroot =>
      rw [hroot]
    · split at hturn
      · cases hturn
      · split at hturn
        · cases hturn
        · split at hturn
          · cases hturn
          · cases hturn
  | next hturn _ ih => exact .head (walkTurn_next hturn).2.2.1 (ih hr)

/-- What the turns of a walk to the root keep: what it has seen lies before the current
identifier, and the root behind it. -/
def OnTheWay (byId : List (String × LogicalBlock)) (rootId : String) (s : List String × String) :
    Prop :=
  (∀ id ∈ s.1, TransGen (Names byId) id s.2) ∧ ReflTransGen (Names byId) s.2 rootId

/-- A walk that can come to the root ends without an error. -/
theorem ends_of_reaches (hterminal : ∀ id, ¬ Names byId rootId id)
    (hreach : ReflTransGen (Names byId) current rootId) {r : Except AstraError Unit}
    (h : Loop.Ends (walkTurn byId rootId startId) ([], current) n r) : r = .ok () := by
  have hkeep : ∀ s s', OnTheWay byId rootId s → walkTurn byId rootId startId s = .inr s' →
      OnTheWay byId rootId s' := by
    intro s s' ⟨hbefore, hbehind⟩ hturn
    obtain ⟨hroot, -, hnames, hseen⟩ := walkTurn_next hturn
    refine ⟨?_, ?_⟩
    · rw [hseen]
      exact List.forall_mem_cons.mpr ⟨.single hnames, fun id hid => (hbefore id hid).tail hnames⟩
    · rcases hbehind.cases_head with heq | ⟨next, hnext, hrest⟩
      · exact absurd heq hroot
      · rwa [names_rightUnique byId hnames hnext]
  have hstart : OnTheWay byId rootId ([], current) := ⟨List.forall_mem_nil _, hreach⟩
  obtain ⟨⟨seen, last⟩, ⟨hbefore, hbehind⟩, hturn⟩ := h.invariant hkeep hstart
  rw [walkTurn] at hturn
  by_cases hroot : last = rootId
  · rw [if_pos hroot] at hturn
    exact (Sum.inl.inj hturn).symm
  have hmem : last ∉ seen := fun hmem =>
    hbehind.not_transGen_self (names_rightUnique byId) hterminal (hbefore last hmem)
  rw [if_neg hroot, if_neg hmem] at hturn
  rcases hbehind.cases_head with heq | ⟨next, ⟨block, hlookup, hparent, hblank⟩, -⟩
  · exact absurd heq hroot
  · rw [hlookup] at hturn
    dsimp only at hturn
    rw [hparent, if_neg hblank] at hturn
    cases hturn

end Walk

end Parents

/-! ## The validator -/

section Validation

variable {blocks : List LogicalBlock}

/-- What the first loop has collected at its end. -/
theorem scan_ok {scan : Scan} : blocks.foldlM scanBlock {} = .ok scan ↔
    (∀ b ∈ blocks, strip b.blockId ≠ "") ∧ (blocks.map fun b => strip b.blockId).Nodup ∧
      (∀ b ∈ blocks, 0 ≤ b.orderIndex) ∧ (blocks.map (·.orderIndex)).Nodup ∧
      scan = blocks.foldl Scan.add {} := by
  have h := @foldlM_scanBlock_ok blocks {} scan List.nodup_nil List.nodup_nil
  simpa using h

theorem byId_scan : (blocks.foldl Scan.add {}).byId = entries blocks := (foldl_add blocks {}).1

theorem documentRoots_scan :
    (blocks.foldl Scan.add {}).documentRoots = blocks.filter (IsDocument ·) :=
  (foldl_add blocks {}).2

/-- The third loop for one block. -/
def checkWalk (byId : List (String × LogicalBlock)) (rootId : String)
    (entry : String × LogicalBlock) : Except AstraError Unit :=
  if entry.1 = rootId then .ok ()
  else followParents byId rootId entry.1 byId.length [] entry.1

theorem checkWalk_ends (byId : List (String × LogicalBlock)) (rootId : String)
    (entry : String × LogicalBlock) : ∃ n ≤ byId.length,
      Loop.Ends (walkTurn byId rootId entry.1) ([], entry.1) n (checkWalk byId rootId entry) := by
  obtain ⟨n, hn, hends⟩ := @followParents_ends byId rootId entry.1 entry.1 [] byId.length
    List.nodup_nil (List.forall_mem_nil _) (Nat.le_add_right _ _)
  by_cases hroot : entry.1 = rootId
  · refine ⟨0, Nat.zero_le _, .done ?_⟩
    rw [walkTurn, if_pos hroot, checkWalk, if_pos hroot]
  · rw [checkWalk, if_neg hroot]
    exact ⟨n, hn, hends⟩

/-- The walks come to the root from everywhere. -/
theorem checkWalk_ok_iff (hid : ∀ b ∈ blocks, strip b.blockId ≠ "")
    (hnodup : (blocks.map fun b => strip b.blockId).Nodup) {root : LogicalBlock}
    (hroot : root ∈ blocks) (hblank : strip root.parentBlockId = "") {b : LogicalBlock}
    (hb : b ∈ blocks) :
    checkWalk (entries blocks) (strip root.blockId) (strip b.blockId, b) = .ok () ↔
      ReflTransGen (ParentStep blocks) b root := by
  obtain ⟨n, -, hends⟩ := checkWalk_ends (entries blocks) (strip root.blockId) (strip b.blockId, b)
  rw [← reflTransGen_names_iff hid hnodup hb hroot]
  constructor
  · intro h
    rw [h] at hends
    exact reaches_of_ends hends
  · intro h
    exact ends_of_reaches (not_names_root hnodup hroot hblank) h hends

theorem validateLogicalBlocks_ok {result : List LogicalBlock} :
    validateLogicalBlocks blocks = .ok result ↔ blocks ≠ [] ∧
      (∀ b ∈ blocks, strip b.blockId ≠ "") ∧ (blocks.map fun b => strip b.blockId).Nodup ∧
      (∀ b ∈ blocks, 0 ≤ b.orderIndex) ∧ (blocks.map (·.orderIndex)).Nodup ∧
      ∃ root, blocks.filter (IsDocument ·) = [root] ∧ strip root.parentBlockId = "" ∧
        (∀ entry ∈ entries blocks,
          checkParent (entries blocks) (strip root.blockId) entry = .ok ()) ∧
        (∀ entry ∈ entries blocks,
          checkWalk (entries blocks) (strip root.blockId) entry = .ok ()) ∧ result = blocks := by
  unfold validateLogicalBlocks
  rw [except_guard_ok, except_bind_ok]
  refine and_congr_right fun _ => ?_
  constructor
  · intro ⟨scan, hscan, h⟩
    obtain ⟨hid, hnodup, hnonneg, horders, rfl⟩ := scan_ok.mp hscan
    refine ⟨hid, hnodup, hnonneg, horders, ?_⟩
    rw [documentRoots_scan, byId_scan] at h
    split at h
    next root hroots =>
      rw [except_guard_ok, except_bind_ok] at h
      obtain ⟨hblank, ⟨⟩, hparents, h⟩ := h
      obtain ⟨⟨⟩, hwalks, h⟩ := except_bind_ok.mp h
      exact ⟨root, hroots, not_not.mp hblank, Traverse.forM_eq_ok.mp hparents,
        Traverse.forM_eq_ok.mp hwalks, (Except.ok.inj h).symm⟩
    · cases h
  · intro ⟨hid, hnodup, hnonneg, horders, root, hroots, hblank, hparents, hwalks, hresult⟩
    refine ⟨_, scan_ok.mpr ⟨hid, hnodup, hnonneg, horders, rfl⟩, ?_⟩
    rw [documentRoots_scan, byId_scan, hroots]
    dsimp only
    rw [if_neg (not_not.mpr hblank), Traverse.forM_eq_ok.mpr hparents, except_ok_bind, hresult]
    exact except_bind_ok.mpr ⟨(), Traverse.forM_eq_ok.mpr hwalks, rfl⟩

theorem mem_of_filter_eq {root : LogicalBlock} (h : blocks.filter (IsDocument ·) = [root]) :
    root ∈ blocks := by
  have hmem : root ∈ blocks.filter (IsDocument ·) := by
    rw [h]
    exact List.mem_singleton_self root
  exact (List.mem_filter.mp hmem).1

/-- The validator accepts the trees. -/
theorem validate_isTree : validateLogicalBlocks blocks = .ok blocks ↔ IsTree blocks := by
  rw [validateLogicalBlocks_ok]
  constructor
  · intro ⟨hne, hid, hnodup, hnonneg, horders, root, hroots, hblank, _, hwalks, _⟩
    have hroot := mem_of_filter_eq hroots
    refine ⟨hne, hid, hnodup, hnonneg, horders, root, hroots, hblank, fun b hb => ?_⟩
    exact (checkWalk_ok_iff hid hnodup hroot hblank hb).mp
      (hwalks _ (List.mem_map_of_mem hb))
  · intro h
    obtain ⟨root, hroots, hblank, hreach⟩ := h.root
    have hroot := mem_of_filter_eq hroots
    refine ⟨h.nonempty, h.id_ne, h.id_nodup, h.order_nonneg, h.order_nodup, root, hroots, hblank,
      List.forall_mem_map.mpr fun b hb => ?_, List.forall_mem_map.mpr fun b hb => ?_, rfl⟩
    · rw [checkParent_ok]
      intro hne
      have hnames := (reflTransGen_names_iff h.id_ne h.id_nodup hb hroot).mpr (hreach b hb)
      rcases hnames.cases_head with heq | ⟨parentId, hstep, hrest⟩
      · exact absurd heq hne
      obtain ⟨c, hc, hparent, hparent_ne⟩ := hstep
      rw [lookup_entries_self h.id_nodup hb] at hc
      cases hc
      subst hparent
      refine ⟨hparent_ne, fun hself => ?_, ?_⟩
      · have hcycle : TransGen (Names (entries blocks)) (strip b.blockId) (strip b.blockId) :=
          .single ⟨b, lookup_entries_self h.id_nodup hb, hself, h.id_ne b hb⟩
        exact hnames.not_transGen_self (names_rightUnique _)
          (not_names_root h.id_nodup hroot hblank) hcycle
      · rw [keys_entries]
        exact List.mem_map.mpr (exists_of_reaches hroot hrest)
    · exact (checkWalk_ok_iff h.id_ne h.id_nodup hroot hblank hb).mpr (hreach b hb)

def IsInvalid (e : AstraError) : Prop := ∃ message, e = invalid message

theorem scanBlock_raises (scan : Scan) (block : LogicalBlock) :
    Raises IsInvalid (scanBlock scan block) :=
  .guard ⟨_, rfl⟩ (.guard ⟨_, rfl⟩ (.guard ⟨_, rfl⟩ (.guard ⟨_, rfl⟩ (.ok _))))

theorem checkParent_raises (byId : List (String × LogicalBlock)) (rootId : String)
    (entry : String × LogicalBlock) : Raises IsInvalid (checkParent byId rootId entry) := by
  unfold checkParent
  exact .ite (.ok _) (.guard ⟨_, rfl⟩ (.guard ⟨_, rfl⟩ (.ite (.error ⟨_, rfl⟩) (.ok _))))

/-- Among blocks whose parents are all there, the walk meets no identifier it does not find. -/
theorem checkWalk_raises {byId : List (String × LogicalBlock)} {rootId : String}
    (hparents : ∀ entry ∈ byId, checkParent byId rootId entry = .ok ())
    {entry : String × LogicalBlock} (hentry : entry ∈ byId) :
    Raises IsInvalid (checkWalk byId rootId entry) := by
  obtain ⟨n, -, hends⟩ := checkWalk_ends byId rootId entry
  have hkeep : ∀ s s' : List String × String, s.2 ∈ byId.map Prod.fst →
      walkTurn byId rootId entry.1 s = .inr s' → s'.2 ∈ byId.map Prod.fst := by
    intro s s' _ hturn
    obtain ⟨hne, -, ⟨block, hlookup, hparent, -⟩, -⟩ := walkTurn_next hturn
    obtain ⟨before, after, hsplit, -⟩ := List.lookup_eq_some_iff.mp hlookup
    have hmem : (s.2, block) ∈ byId := by
      rw [hsplit]
      simp
    rw [← hparent]
    exact (checkParent_ok.mp (hparents _ hmem) hne).2.2
  obtain ⟨⟨seen, last⟩, hlast, hturn⟩ := hends.invariant hkeep (List.mem_map_of_mem hentry)
  rw [walkTurn] at hturn
  intro e he
  rw [he] at hturn
  split at hturn
  · cases hturn
  · split at hturn
    · cases hturn
      exact ⟨_, rfl⟩
    · split at hturn
      next hlookup =>
        have hsome := lookup_isSome_iff.mpr hlast
        rw [hlookup] at hsome
        cases hsome
      · split at hturn
        · cases hturn
          exact ⟨_, rfl⟩
        · cases hturn

theorem validateLogicalBlocks_raises (blocks : List LogicalBlock) :
    Raises IsInvalid (validateLogicalBlocks blocks) := by
  unfold validateLogicalBlocks
  refine .guard ⟨_, rfl⟩ (.bind_of_ok (.foldlM (fun scan b _ => scanBlock_raises scan b) {}) ?_)
  intro scan hscan
  obtain ⟨-, -, -, -, rfl⟩ := scan_ok.mp hscan
  rw [documentRoots_scan, byId_scan]
  split
  next root _ =>
    refine .guard ⟨_, rfl⟩ (.bind_of_ok (.forM fun entry _ => checkParent_raises _ _ entry) ?_)
    intro _ hparents
    have hparents := Traverse.forM_eq_ok.mp hparents
    exact .bind (.forM fun entry hentry => checkWalk_raises hparents hentry) fun _ => .ok _
  · exact .error ⟨_, rfl⟩

/-- The validator accepts exactly the trees and refuses the others as invalid, and each of its
walks ends within as many turns as there are blocks. -/
theorem validate_exact (blocks : List LogicalBlock) :
    (validateLogicalBlocks blocks = .ok blocks ↔ IsTree blocks) ∧
      (¬ IsTree blocks → ∃ message, validateLogicalBlocks blocks = .error (invalid message)) ∧
      ∀ rootId, ∀ entry ∈ entries blocks, ∃ n ≤ blocks.length,
        Loop.Ends (walkTurn (entries blocks) rootId entry.1) ([], entry.1) n
          (followParents (entries blocks) rootId entry.1 blocks.length [] entry.1) := by
  refine ⟨validate_isTree, fun hnot => ?_, fun rootId entry _ => ?_⟩
  · cases hresult : validateLogicalBlocks blocks with
    | ok result =>
      obtain ⟨-, -, -, -, -, root, -, -, -, -, rfl⟩ := validateLogicalBlocks_ok.mp hresult
      exact absurd (validate_isTree.mp hresult) hnot
    | error e =>
      obtain ⟨message, rfl⟩ := validateLogicalBlocks_raises blocks e hresult
      exact ⟨message, rfl⟩
  · refine followParents_ends blocks.length List.nodup_nil (List.forall_mem_nil _) ?_
    rw [entries, List.length_map]
    exact Nat.le_add_right _ _

end Validation

end LogicalBlockValidation

end AstraIndexator
