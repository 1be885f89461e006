import AstraIndexator.Foundation.Joined
import AstraIndexator.Splitter.Grouping

/-!
# Identifiers of fragments

A fragment is identified by the elements it comes from and the largest continuation
index of its units.  Units are ordered by element and continuation index, so two
groups that begin in the same element differ in the largest index.
-/

namespace AstraIndexator

open Text Transaction

namespace LogicalSplitter

variable {splitter : LogicalSplitter} {document : NormalizedDocument}

/-! ## Units of an element -/

/-- Units cut from one element, numbered in order. -/
structure CutFrom (id : String) (units : List SplitUnit) : Prop where
  elementIds : ∀ unit ∈ units, unit.elementIds = [id]
  increasing : units.Pairwise fun u v => u.continuationIndex < v.continuationIndex

theorem CutFrom.nil {id : String} : CutFrom id [] :=
  ⟨List.forall_mem_nil _, List.Pairwise.nil⟩

theorem CutFrom.mapIdx {α : Type} {id : String} {f : Nat → α → SplitUnit}
    (hid : ∀ index piece, (f index piece).elementIds = [id])
    (hindex : ∀ index piece, (f index piece).continuationIndex = index) (pieces : List α) :
    CutFrom id (pieces.mapIdx f) where
  elementIds := by
    intro unit hunit
    obtain ⟨index, -, rfl⟩ := List.mem_mapIdx.mp hunit
    exact hid index _
  increasing := by
    rw [List.pairwise_iff_getElem]
    intro i j hi hj hlt
    rw [List.getElem_mapIdx, List.getElem_mapIdx, hindex, hindex]
    exact hlt

theorem cutFrom_textUnits {element : NormalizedElement} {text : List Char}
    {hierarchy : List (List Char)} {context : List Char} {units : List SplitUnit}
    (h : splitter.textUnits element text hierarchy context = .ok units) :
    CutFrom element.sourceElementId units := by
  rw [textUnits] at h
  obtain ⟨chunks, -, h⟩ := except_bind_ok.mp h
  obtain rfl := Except.ok.inj h
  exact CutFrom.mapIdx (fun _ _ => rfl) (fun _ _ => rfl) chunks

theorem cutFrom_tableUnits {element : NormalizedElement} {hierarchy : List (List Char)}
    {units : List SplitUnit} (h : splitter.tableUnits element hierarchy = .ok units) :
    CutFrom element.sourceElementId units := by
  rw [tableUnits] at h
  cases hrows : element.rows.getD [] with
  | nil =>
    rw [hrows] at h
    by_cases htext : elementText element = []
    · obtain rfl := Except.ok.inj ((if_pos htext).symm.trans h)
      exact CutFrom.nil
    · exact cutFrom_textUnits ((if_neg htext).symm.trans h)
  | cons header others =>
    rw [hrows] at h
    obtain ⟨pieces, -, h⟩ := except_bind_ok.mp h
    obtain rfl := Except.ok.inj h
    exact CutFrom.mapIdx (fun _ _ => rfl) (fun _ _ => rfl) pieces

theorem cutFrom_elementUnits {element : NormalizedElement} {hierarchy : List (List Char)}
    {listIntro : Option (List Char)} {units : List SplitUnit}
    (h : splitter.elementUnits element hierarchy listIntro = .ok units) :
    CutFrom element.sourceElementId units := by
  rw [elementUnits] at h
  by_cases htable : element.type = .table
  · rw [if_pos htable] at h
    exact cutFrom_tableUnits h
  · rw [if_neg htable] at h
    by_cases htext : elementText element = []
    · obtain rfl := Except.ok.inj ((if_pos htext).symm.trans h)
      exact CutFrom.nil
    · exact cutFrom_textUnits ((if_neg htext).symm.trans h)

/-! ## The order of the units -/

/-- The unit comes earlier: from an earlier element, or from an earlier part of the same. -/
def Earlier (rank : String → Nat) (u v : SplitUnit) : Prop :=
  ∃ id id', u.elementIds = [id] ∧ v.elementIds = [id'] ∧
    (rank id < rank id' ∨ id = id' ∧ u.continuationIndex < v.continuationIndex)

/-- Units come in the order of the elements. -/
theorem earlier_unitsFrom {rank : String → Nat} {hierarchy : List (List Char)}
    {listIntro : Option (List Char)} {elements : List NormalizedElement}
    {read : List (List SplitUnit)}
    (horder : elements.Pairwise fun a b => rank a.sourceElementId < rank b.sourceElementId)
    (hread : splitter.unitsFrom hierarchy listIntro elements = read.map Except.ok) :
    read.flatten.Pairwise (Earlier rank) ∧
      ∀ unit ∈ read.flatten, ∃ element ∈ elements,
        unit.elementIds = [element.sourceElementId] := by
  induction elements generalizing hierarchy listIntro read with
  | nil =>
    obtain rfl := List.map_eq_nil_iff.mp hread.symm
    exact ⟨List.Pairwise.nil, List.forall_mem_nil _⟩
  | cons element elements ih =>
    obtain ⟨hfirst, horder⟩ := List.pairwise_cons.mp horder
    rw [unitsFrom] at hread
    by_cases hsuppressed : element.suppressedFromIndex = true
    · rw [if_pos hsuppressed] at hread
      obtain ⟨hpairwise, hmem⟩ := ih horder hread
      refine ⟨hpairwise, fun unit hunit => ?_⟩
      obtain ⟨owner, howner, hid⟩ := hmem unit hunit
      exact ⟨owner, List.mem_cons_of_mem element howner, hid⟩
    · rw [if_neg hsuppressed] at hread
      obtain ⟨units, more, rfl, hunits, hmore⟩ := List.map_eq_cons_iff.mp hread.symm
      have hcut := cutFrom_elementUnits hunits.symm
      obtain ⟨hpairwise, hmem⟩ := ih horder hmore.symm
      rw [List.flatten_cons]
      refine ⟨List.pairwise_append.mpr ⟨?_, hpairwise, ?_⟩, ?_⟩
      · refine hcut.increasing.imp_of_mem ?_
        intro u v hu hv hlt
        exact ⟨_, _, hcut.elementIds u hu, hcut.elementIds v hv, .inr ⟨rfl, hlt⟩⟩
      · intro u hu v hv
        obtain ⟨owner, howner, hid⟩ := hmem v hv
        exact ⟨_, _, hcut.elementIds u hu, hid, .inl (hfirst owner howner)⟩
      · intro unit hunit
        rcases List.mem_append.mp hunit with hunit | hunit
        · exact ⟨element, List.mem_cons_self, hcut.elementIds unit hunit⟩
        · obtain ⟨owner, howner, hid⟩ := hmem unit hunit
          exact ⟨owner, List.mem_cons_of_mem element howner, hid⟩

/-- The place of an element in the order of reading. -/
def elementRank (document : NormalizedDocument) (id : String) : Nat :=
  ((orderedElements document).map NormalizedElement.sourceElementId).idxOf id

theorem pairwise_elementRank
    (h : (document.elements.map NormalizedElement.sourceElementId).Nodup) :
    (orderedElements document).Pairwise fun a b =>
      elementRank document a.sourceElementId < elementRank document b.sourceElementId := by
  have hperm : (orderedElements document).Perm document.elements :=
    List.perm_insertionSort _ document.elements
  have hnodup : ((orderedElements document).map NormalizedElement.sourceElementId).Nodup :=
    (hperm.map _).nodup_iff.mpr h
  rw [List.pairwise_iff_getElem]
  intro i j hi hj hlt
  have hplace : ∀ (k : Nat) (hk : k < (orderedElements document).length),
      elementRank document (orderedElements document)[k].sourceElementId = k := by
    intro k hk
    rw [elementRank]
    have hget := hnodup.idxOf_getElem k (by simpa using hk)
    rwa [List.getElem_map] at hget
  rw [hplace i hi, hplace j hj]
  exact hlt

/-! ## Groups that begin in the same element -/

theorem mem_foldl_fromKeys {items seen : List String} {id : String} :
    id ∈ items.foldl (fun seen item => if item ∈ seen then seen else seen ++ [item]) seen ↔
      id ∈ seen ∨ id ∈ items := by
  induction items generalizing seen with
  | nil => simp
  | cons item items ih =>
    rw [List.foldl_cons, ih, List.mem_cons]
    by_cases hitem : item ∈ seen
    · rw [if_pos hitem]
      constructor
      · rintro (hid | hid)
        · exact .inl hid
        · exact .inr (.inr hid)
      · rintro (hid | rfl | hid)
        · exact .inl hid
        · exact .inl hitem
        · exact .inr hid
    · rw [if_neg hitem, List.mem_append, List.mem_singleton, or_assoc]

theorem mem_fromKeys {items : List String} {id : String} : id ∈ fromKeys items ↔ id ∈ items := by
  rw [fromKeys, mem_foldl_fromKeys]
  simp

theorem prefix_foldl_fromKeys (items seen : List String) :
    seen <+: items.foldl (fun seen item => if item ∈ seen then seen else seen ++ [item]) seen := by
  induction items generalizing seen with
  | nil => exact List.prefix_refl seen
  | cons item items ih =>
    rw [List.foldl_cons]
    by_cases hitem : item ∈ seen
    · rw [if_pos hitem]
      exact ih seen
    · rw [if_neg hitem]
      exact (List.prefix_append seen [item]).trans (ih (seen ++ [item]))

theorem head?_fromKeys_cons (item : String) (items : List String) :
    (fromKeys (item :: items)).head? = some item := by
  obtain ⟨rest, hrest⟩ := prefix_foldl_fromKeys items [item]
  have hkeys : fromKeys (item :: items) = [item] ++ rest := hrest.symm
  rw [hkeys]
  rfl

/-- The first element of a group. -/
theorem head?_sourceIds {first : SplitUnit} {rest : List SplitUnit} {id : String}
    (h : first.elementIds = [id]) : (sourceIds (first :: rest)).head? = some id := by
  rw [sourceIds, List.flatMap_cons, h]
  exact head?_fromKeys_cons id _

theorem foldl_max_eq (ns : List Nat) (n : Nat) : ns.foldl max n = max n (ns.foldl max 0) := by
  induction ns generalizing n with
  | nil => simp
  | cons m ns ih =>
    rw [List.foldl_cons, List.foldl_cons, ih (max n m), ih (max 0 m)]
    omega

theorem continuationOf_cons (unit : SplitUnit) (units : List SplitUnit) :
    continuationOf (unit :: units) = max unit.continuationIndex (continuationOf units) := by
  rw [continuationOf, List.map_cons, List.foldl_cons, foldl_max_eq]
  show max (max 0 unit.continuationIndex) (continuationOf units) = _
  omega

theorem le_continuationOf {units : List SplitUnit} {unit : SplitUnit} (h : unit ∈ units) :
    unit.continuationIndex ≤ continuationOf units := by
  induction units with
  | nil => exact absurd h List.not_mem_nil
  | cons first units ih =>
    rw [continuationOf_cons]
    rcases List.mem_cons.mp h with rfl | h
    · exact le_max_left _ _
    · exact (ih h).trans (le_max_right _ _)

theorem exists_continuationOf {units : List SplitUnit} (h : units ≠ []) :
    ∃ unit ∈ units, continuationOf units = unit.continuationIndex := by
  induction units with
  | nil => exact absurd rfl h
  | cons first units ih =>
    rw [continuationOf_cons]
    by_cases hunits : units = []
    · subst hunits
      exact ⟨first, List.mem_cons_self, Nat.max_zero _⟩
    · obtain ⟨unit, hunit, hlargest⟩ := ih hunits
      rcases le_total (continuationOf units) first.continuationIndex with hle | hle
      · exact ⟨first, List.mem_cons_self, max_eq_left hle⟩
      · exact ⟨unit, List.mem_cons_of_mem first hunit, (max_eq_right hle).trans hlargest⟩

/-- Of two groups with the same elements the later one has the larger continuation. -/
theorem continuationOf_lt {rank : String → Nat} {units later : List SplitUnit}
    (hunits : units ≠ []) (hlater : later ≠ []) (hinner : units.Pairwise (Earlier rank))
    (hbefore : ∀ u ∈ units, ∀ v ∈ later, Earlier rank u v)
    (hsame : sourceIds units = sourceIds later) : continuationOf units < continuationOf later := by
  obtain ⟨largest, hlargest, hmax⟩ := exists_continuationOf hunits
  obtain ⟨first, rest, rfl⟩ := List.exists_cons_of_ne_nil hunits
  obtain ⟨next, others, rfl⟩ := List.exists_cons_of_ne_nil hlater
  obtain ⟨id, id', hid, hid', -⟩ :=
    hbefore first List.mem_cons_self next List.mem_cons_self
  -- both groups begin in the element `id`, so nothing of another is in between
  have hbegin : id = id' := by
    have hheads := congrArg List.head? hsame
    rw [head?_sourceIds hid, head?_sourceIds hid'] at hheads
    exact Option.some.inj hheads
  obtain ⟨between, id'', hbetween, hid'', hlast⟩ :=
    hbefore largest hlargest next List.mem_cons_self
  obtain rfl : id' = id'' := (List.cons.inj (hid'.symm.trans hid'')).1
  have hfrom : rank id ≤ rank between := by
    rcases List.mem_cons.mp hlargest with rfl | hrest
    · obtain rfl : id = between := (List.cons.inj (hid.symm.trans hbetween)).1
      exact le_refl _
    · obtain ⟨a, b, ha, hb, horder⟩ := (List.pairwise_cons.mp hinner).1 largest hrest
      obtain rfl : id = a := (List.cons.inj (hid.symm.trans ha)).1
      obtain rfl : between = b := (List.cons.inj (hbetween.symm.trans hb)).1
      rcases horder with hlt | ⟨rfl, -⟩
      · exact hlt.le
      · exact le_refl _
  have hindex : largest.continuationIndex < next.continuationIndex := by
    rcases hlast with hlt | ⟨-, hlt⟩
    · rw [← hbegin] at hlt
      omega
    · exact hlt
  rw [hmax]
  exact lt_of_lt_of_le hindex (le_continuationOf List.mem_cons_self)

/-- Groups that are not empty, in the order of the elements their units come from. -/
structure GroupsInOrder (document : NormalizedDocument) (groups : List UnitGroup) : Prop where
  nonempty : ∀ group ∈ groups, group.units ≠ []
  inner : ∀ group ∈ groups, group.units.Pairwise (Earlier (elementRank document))
  across : groups.Pairwise fun group later =>
    ∀ u ∈ group.units, ∀ v ∈ later.units, Earlier (elementRank document) u v
  owner : ∀ group ∈ groups, ∀ unit ∈ group.units, ∃ element ∈ document.elements,
    unit.elementIds = [element.sourceElementId]

theorem groupsInOrder {groups : List UnitGroup}
    (hids : (document.elements.map NormalizedElement.sourceElementId).Nodup)
    (h : splitter.finalGroups document = .ok groups) : GroupsInOrder document groups := by
  obtain ⟨read, hread, hcontent, hgood⟩ := finalGroups_ok h
  obtain ⟨hpairwise, howner⟩ := earlier_unitsFrom (pairwise_elementRank hids) hread
  have hgrouped : (groupedUnits groups).Pairwise (Earlier (elementRank document)) := by
    rw [hcontent]
    exact hpairwise.filter _
  rw [groupedUnits, List.pairwise_flatMap] at hgrouped
  refine ⟨fun group hgroup => (hgood group hgroup).nonempty, hgrouped.1, hgrouped.2, ?_⟩
  intro group hgroup unit hunit
  have hmem : unit ∈ groupedUnits groups := List.mem_flatMap.mpr ⟨group, hgroup, hunit⟩
  rw [hcontent] at hmem
  obtain ⟨element, helement, hid⟩ := howner unit (List.mem_of_mem_filter hmem)
  exact ⟨element, (List.mem_insertionSort _).mp helement, hid⟩

namespace GroupsInOrder

variable {groups : List UnitGroup} {group : UnitGroup}

/-- The sources of a group are elements of the document. -/
theorem exists_element (h : GroupsInOrder document groups) (hgroup : group ∈ groups) {id : String}
    (hid : id ∈ sourceIds group.units) :
    ∃ element ∈ document.elements, element.sourceElementId = id := by
  obtain ⟨unit, hunit, hid⟩ := List.mem_flatMap.mp (mem_fromKeys.mp hid)
  obtain ⟨element, helement, howner⟩ := h.owner group hgroup unit hunit
  rw [howner] at hid
  exact ⟨element, helement, (List.mem_singleton.mp hid).symm⟩

theorem sourceIds_ne_nil (h : GroupsInOrder document groups) (hgroup : group ∈ groups) :
    sourceIds group.units ≠ [] := by
  intro hnone
  obtain ⟨unit, hunit⟩ := List.exists_mem_of_ne_nil _ (h.nonempty group hgroup)
  obtain ⟨element, -, howner⟩ := h.owner group hgroup unit hunit
  have hid : element.sourceElementId ∈ sourceIds group.units :=
    mem_fromKeys.mpr (List.mem_flatMap.mpr ⟨unit, hunit, howner ▸ List.mem_cons_self⟩)
  rw [hnone] at hid
  exact List.not_mem_nil hid

end GroupsInOrder

/-! ## Identifiers -/

/-- Element identifiers that stay apart when they are joined. -/
structure DistinctElements (document : NormalizedDocument) : Prop where
  nodup : (document.elements.map NormalizedElement.sourceElementId).Nodup
  noComma : ∀ element ∈ document.elements, ',' ∉ element.sourceElementId.toList
  noSeparator : ∀ element ∈ document.elements,
    Char.ofNat 0x1f ∉ element.sourceElementId.toList

/-- The text a group's fragment identifier is the digest of, with the digest. -/
def groupId (splitter : LogicalSplitter) (document : NormalizedDocument) (group : UnitGroup) :
    String :=
  splitter.digest.hexdigest (utf8 (splitter.identityPayload document group.units).toList)

/-- The digest tells the identities of the groups apart. -/
def SeparatesPayloads (splitter : LogicalSplitter) (document : NormalizedDocument)
    (groups : List UnitGroup) : Prop :=
  ∀ group ∈ groups, ∀ group' ∈ groups,
    splitter.groupId document group = splitter.groupId document group' →
      splitter.identityPayload document group.units =
        splitter.identityPayload document group'.units

instance (document : NormalizedDocument) (groups : List UnitGroup) :
    Decidable (splitter.SeparatesPayloads document groups) :=
  inferInstanceAs (Decidable (∀ group ∈ groups, ∀ group' ∈ groups, _ → _))

theorem noSeparator_fragmentType (units : List SplitUnit) :
    Char.ofNat 0x1f ∉ (unitsFragmentType units).value.toList := by
  cases unitsFragmentType units <;> decide

theorem noSeparator_hexdigest (digest : HexDigest) (bytes : List UInt8) :
    Char.ofNat 0x1f ∉ (digest.hexdigest bytes).toList := by
  intro hmem
  have hhex := (digest.isHex bytes).2 _ hmem
  revert hhex
  decide

/-- The elements and the continuation index are read back from the identity. -/
theorem identityPayload_injective {units later : List SplitUnit}
    (hunits : Char.ofNat 0x1f ∉ (Joined.join ',' (sourceIds units)).toList)
    (hlater : Char.ofNat 0x1f ∉ (Joined.join ',' (sourceIds later)).toList)
    (h : splitter.identityPayload document units = splitter.identityPayload document later) :
    Joined.join ',' (sourceIds units) = Joined.join ',' (sourceIds later) ∧
      continuationOf units = continuationOf later := by
  have hids := Joined.join_cancel_left [DeliveryIdentity.uuidText document.documentId,
    toString document.documentVersion] (by simp) (by simp) h
  obtain ⟨hids, hhash⟩ := Joined.join_cons_injective (by simp) (by simp) hunits hlater hids
  obtain ⟨-, hprofile⟩ := Joined.join_cons_injective (by simp) (by simp)
    (noSeparator_hexdigest splitter.digest _) (noSeparator_hexdigest splitter.digest _) hhash
  have htype := Joined.join_cancel_left [document.processingFingerprint,
    document.normalizerVersion, document.normalizerProfile, splitter.profile.version,
    splitter.profile.profileId, splitter.profileConfigHash,
    splitter.profile.sentenceBoundaryBackend.value] (by simp) (by simp) hprofile
  obtain ⟨-, hcontinuation⟩ := Joined.join_cons_injective (by simp) (by simp)
    (noSeparator_fragmentType units) (noSeparator_fragmentType later) htype
  obtain ⟨hcontinuation, -⟩ := Joined.join_cons_injective (by simp) (by simp)
    (Joined.notMem_toString rfl _) (Joined.notMem_toString rfl _) hcontinuation
  exact ⟨hids, Joined.toString_injective hcontinuation⟩

/-- Different groups have different identities. -/
theorem nodup_groupId {groups : List UnitGroup} (hids : DistinctElements document)
    (hdigest : splitter.SeparatesPayloads document groups)
    (horder : GroupsInOrder document groups) :
    (groups.map (splitter.groupId document)).Nodup := by
  have hnoSeparator : ∀ group ∈ groups,
      Char.ofNat 0x1f ∉ (Joined.join ',' (sourceIds group.units)).toList := by
    intro group hgroup
    apply Joined.notMem_join (by decide)
    intro id hid
    obtain ⟨element, helement, rfl⟩ := horder.exists_element hgroup hid
    exact hids.noSeparator element helement
  have hnoComma : ∀ group ∈ groups, ∀ id ∈ sourceIds group.units, ',' ∉ id.toList := by
    intro group hgroup id hid
    obtain ⟨element, helement, rfl⟩ := horder.exists_element hgroup hid
    exact hids.noComma element helement
  rw [List.Nodup, List.pairwise_map]
  apply horder.across.imp_of_mem
  intro group later hgroup hlater hbefore hsame
  have hpayload := hdigest group hgroup later hlater hsame
  obtain ⟨hjoined, hcontinuation⟩ :=
    identityPayload_injective (hnoSeparator group hgroup) (hnoSeparator later hlater) hpayload
  have hsources : sourceIds group.units = sourceIds later.units :=
    Joined.join_injective (hnoComma group hgroup) (hnoComma later hlater)
      (horder.sourceIds_ne_nil hgroup) (horder.sourceIds_ne_nil hlater) hjoined
  have hlt := continuationOf_lt (horder.nonempty group hgroup) (horder.nonempty later hlater)
    (horder.inner group hgroup) hbefore hsources
  omega

theorem fragmentIds_eq (groups : List UnitGroup) :
    (groups.mapIdx fun index group => splitter.makeFragment document index group).map
      LogicalFragment.fragmentId = groups.map (splitter.groupId document) := by
  apply List.ext_getElem
  · simp
  · intro index _ _
    rw [List.getElem_map, List.getElem_map, List.getElem_mapIdx]
    rfl

/-- Fragments of one document have different identifiers. -/
theorem nodup_fragmentId (splitter : LogicalSplitter) (document : NormalizedDocument)
    (fragments : List LogicalFragment) (hids : DistinctElements document)
    (hdigest : ∀ groups, splitter.finalGroups document = .ok groups →
      splitter.SeparatesPayloads document groups)
    (h : splitter.split document = .ok fragments) :
    (fragments.map LogicalFragment.fragmentId).Nodup := by
  obtain ⟨groups, hgroups, rfl⟩ := split_ok h
  rw [fragmentIds_eq]
  exact nodup_groupId hids (hdigest groups hgroups) (groupsInOrder hids.nodup hgroups)

/-- One paragraph that is cut into two units with the same text. -/
def repeatedDocument : NormalizedDocument where
  documentId := 0
  documentVersion := 1
  normalizerProfile := "general"
  normalizerVersion := "1"
  processingFingerprint := "f"
  elements := [⟨"e", .paragraph, 0, some "b b", none, none, none, none, none, false⟩]

theorem nodup_fragmentId_repeated :
    ∃ fragments, narrowSplitter.split repeatedDocument = .ok fragments ∧
      fragments.map LogicalFragment.normalizedText = ["b", "b"] ∧
      (fragments.map LogicalFragment.fragmentId).Nodup := by
  have htexts : (narrowSplitter.split repeatedDocument).map
      (fun fragments => fragments.map LogicalFragment.normalizedText) = .ok ["b", "b"] := by
    decide +kernel
  have hseparates : ((narrowSplitter.finalGroups repeatedDocument).map fun groups =>
      decide (narrowSplitter.SeparatesPayloads repeatedDocument groups)) = .ok true := by
    decide +kernel
  cases hsplit : narrowSplitter.split repeatedDocument with
  | error e =>
    rw [hsplit] at htexts
    cases htexts
  | ok fragments =>
    rw [hsplit] at htexts
    refine ⟨fragments, rfl, Except.ok.inj htexts, ?_⟩
    apply nodup_fragmentId narrowSplitter repeatedDocument fragments
      ⟨by decide, by decide, by decide⟩ ?_ hsplit
    intro groups hgroups
    rw [hgroups] at hseparates
    exact of_decide_eq_true (Except.ok.inj hseparates)

end LogicalSplitter

end AstraIndexator
