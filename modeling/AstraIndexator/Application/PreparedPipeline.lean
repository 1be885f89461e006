import AstraIndexator.Application.FragmentBlocks
import AstraIndexator.PreparedArtifacts.WorkingStore
import AstraIndexator.Splitter.Identity
import AstraIndexator.Splitter.Content
import AstraIndexator.Splitter.Placement

/-!
# From a document to its blocks

A document is split, assembled, published, loaded and mapped to blocks.  What the stages do
not agree on is a fragment with nothing visible in it: the splitter makes one of table rows
whose cells are all blank, and the mapper refuses it.
-/

namespace AstraIndexator

open Text Prog Transaction PreparedArtifactPublisher PreparedArtifactAssembler
open PreparedArtifactDelivery LogicalSplitter

/-! ## The stages -/

/-- What the stages behind the splitter run with. -/
structure PipelineConfig where
  py : PythonRuntime
  sha256 : HexDigest
  /-- `repr`, of a list or a dictionary -/
  repr : Json → String
  keyPrefix : String
  maxRecordsPerPart : Int := 10000
  maxBytesPerPart : Int := 32 * 1024 * 1024

namespace PreparedPipeline

/-- Publish, load and map to blocks. -/
def preparedBlocks (config : PipelineConfig) (r : PublishRequest) :
    StoreProg (List LogicalBlock) := do
  let artifact ← publishAndLoad config.py config.sha256 config.keyPrefix r
  Prog.ofExcept (logicalBlocks config.py config.repr artifact)

/-- What is assembled becomes the blocks of the fragments, whatever lease the publisher holds
and wherever nothing stands in its way. -/
def Delivers (config : PipelineConfig) (document : NormalizedDocument) (origin : Origin)
    (profile : SplitterProfile) (fragments : List LogicalFragment) : Prop :=
  ∃ assembled, assemble document origin profile fragments = .ok assembled ∧
    ∀ token s, AdmitsPublication config.py config.sha256 config.keyPrefix
        (assembled.request token config.maxRecordsPerPart config.maxBytesPerPart) s →
      wp workingStore (preparedBlocks config
          (assembled.request token config.maxRecordsPerPart config.maxBytesPerPart))
        (fun outcome _ _ => ∃ blocks, outcome = .ok blocks ∧ IsDelivery fragments blocks) [] s

theorem preparedBlocks_iff {config : PipelineConfig} {r : PublishRequest}
    (hvalid : r.Valid config.py) (Q : List LogicalBlock → Prop) :
    (∀ s, AdmitsPublication config.py config.sha256 config.keyPrefix r s →
        wp workingStore (preparedBlocks config r)
          (fun outcome _ _ => ∃ blocks, outcome = .ok blocks ∧ Q blocks) [] s) ↔
      IsSafePrefix config.keyPrefix ∧ ∃ e payload p,
        Publication config.py config.sha256 config.keyPrefix r e payload p ∧
          ∃ blocks, logicalBlocks config.py config.repr (r.artifact p) = .ok blocks ∧
            Q blocks := by
  rw [← publishAndLoad_iff hvalid fun artifact =>
    ∃ blocks, logicalBlocks config.py config.repr artifact = .ok blocks ∧ Q blocks]
  have hpost : ∀ outcome h s, wp workingStore
      (onOk (fun artifact => Prog.ofExcept (logicalBlocks config.py config.repr artifact)) outcome)
      (fun outcome _ _ => ∃ blocks, outcome = .ok blocks ∧ Q blocks) h s ↔
        ∃ artifact, outcome = .ok artifact ∧
          ∃ blocks, logicalBlocks config.py config.repr artifact = .ok blocks ∧ Q blocks := by
    intro outcome h s
    cases outcome with
    | ok artifact =>
      rw [onOk, wp_ofExcept]
      simp
    | error e =>
      rw [onOk]
      simp [wp]
  refine forall₂_congr fun s _ => ?_
  rw [preparedBlocks, wp_bind]
  constructor
  · exact wp_mono fun outcome h s => (hpost outcome h s).mp
  · exact wp_mono fun outcome h s => (hpost outcome h s).mpr

/-! ## Groups of units -/

section Groups

variable {splitter : LogicalSplitter} {document : NormalizedDocument} {groups : List UnitGroup}
  {group : UnitGroup}

/-- A unit of the group shows something. -/
def IsVisible (group : UnitGroup) : Prop := ∃ unit ∈ group.units, visible unit.text ≠ []

instance (group : UnitGroup) : Decidable (IsVisible group) :=
  inferInstanceAs (Decidable (∃ unit ∈ group.units, visible unit.text ≠ []))

/-- No unit of the group stands on a negative page. -/
def OnPages (group : UnitGroup) : Prop :=
  ∀ unit ∈ group.units, ∀ page ∈ unit.pageFrom.toList ++ unit.pageTo.toList, 0 ≤ page

instance (group : UnitGroup) : Decidable (OnPages group) :=
  inferInstanceAs (Decidable (∀ unit ∈ group.units,
    ∀ page ∈ unit.pageFrom.toList ++ unit.pageTo.toList, 0 ≤ page))

theorem visible_ne_nil {l : List Char} (hstripped : Stripped l) (hne : l ≠ []) :
    visible l ≠ [] := by
  cases l with
  | nil => exact absurd rfl hne
  | cons c l =>
    have hc : isSpace c = false := hstripped.head c rfl
    simp [visible, hc]

theorem normalizedText_ne_iff (index : Nat) :
    (splitter.makeFragment document index group).normalizedText ≠ "" ↔ IsVisible group := by
  have hstripped : Stripped (fragmentText group.units) := stripped_stripChars _
  have htext : (splitter.makeFragment document index group).normalizedText =
      String.ofList (fragmentText group.units) := rfl
  have hvisible : fragmentText group.units ≠ [] ↔ unitsContent group.units ≠ [] := by
    rw [← visible_fragmentText]
    constructor
    · exact visible_ne_nil hstripped
    · intro h hnil
      rw [hnil] at h
      exact h rfl
  rw [htext, ne_eq, ← String.toList_eq_nil_iff, String.toList_ofList, ← ne_eq, hvisible,
    unitsContent, ne_eq, List.flatMap_eq_nil_iff]
  simp only [IsVisible, SplitUnit.content, not_forall, exists_prop, ne_eq]

theorem le_foldl_min_iff {bound page : Int} {pages : List Int} :
    bound ≤ pages.foldl min page ↔ ∀ p ∈ page :: pages, bound ≤ p := by
  induction pages generalizing page with
  | nil => simp
  | cons next pages ih =>
    rw [List.foldl_cons, ih, List.forall_mem_cons, Int.le_min, List.forall_mem_cons,
      List.forall_mem_cons, and_assoc]

theorem le_foldl_max (page : Int) (pages : List Int) : page ≤ pages.foldl max page := by
  induction pages generalizing page with
  | nil => exact Int.le_refl _
  | cons next pages ih =>
    rw [List.foldl_cons]
    exact (Int.le_max_left page next).trans (ih _)

/-- The first and the last page are not negative when none is. -/
theorem pageRange_iff {units : List SplitUnit} :
    ((∀ page ∈ (pageRange units).map Prod.fst, 0 ≤ page) ∧
        ∀ page ∈ (pageRange units).map Prod.snd, 0 ≤ page) ↔
      ∀ unit ∈ units, ∀ page ∈ unit.pageFrom.toList ++ unit.pageTo.toList, 0 ≤ page := by
  rw [← List.forall_mem_flatMap, pageRange]
  cases hpages : units.flatMap fun unit => unit.pageFrom.toList ++ unit.pageTo.toList with
  | nil => simp
  | cons page rest =>
    rw [← le_foldl_min_iff]
    simp only [Option.map_some, Option.mem_def, Option.some.injEq, forall_eq']
    constructor
    · intro h
      exact h.1
    · intro h
      have hpage := le_foldl_min_iff.mp h page List.mem_cons_self
      exact ⟨h, hpage.trans (le_foldl_max page rest)⟩

theorem hasPages_iff (index : Nat) :
    HasPages (splitter.makeFragment document index group) ↔ OnPages group := pageRange_iff

theorem isStripped_makeFragment (index : Nat) :
    IsStripped (splitter.makeFragment document index group) := by
  constructor
  · exact splitter.digest.isHex _
  · have htext : (splitter.makeFragment document index group).normalizedText =
        String.ofList (fragmentText group.units) := rfl
    rw [htext, strip, String.toList_ofList, fragmentText, (stripped_stripChars _).eq]

theorem isSplitOf_makeFragment {identity : ArtifactIdentity} (hne : groups ≠ [])
    (hid : identity.documentId = document.documentId)
    (hversion : identity.documentVersion = document.documentVersion) :
    IsSplitOf identity
      (groups.mapIdx fun index group => splitter.makeFragment document index group) := by
  constructor
  · simpa using hne
  · intro fragment hfragment
    obtain ⟨index, _, rfl⟩ := List.mem_mapIdx.mp hfragment
    exact hid.symm
  · intro fragment hfragment
    obtain ⟨index, _, rfl⟩ := List.mem_mapIdx.mp hfragment
    exact hversion.symm
  · apply List.ext_getElem
    · simp
    · intro index _ _
      rw [List.getElem_map, List.getElem_mapIdx, List.getElem_range]
      rfl
  · intro fragment hfragment
    obtain ⟨index, _, rfl⟩ := List.mem_mapIdx.mp hfragment
    exact isStripped_makeFragment index

theorem forall_mem_makeFragment (splitter : LogicalSplitter) (document : NormalizedDocument)
    (groups : List UnitGroup) {P : LogicalFragment → Prop} {P' : UnitGroup → Prop}
    (h : ∀ index group, P (splitter.makeFragment document index group) ↔ P' group) :
    (∀ fragment ∈ groups.mapIdx fun index group => splitter.makeFragment document index group,
      P fragment) ↔ ∀ group ∈ groups, P' group := by
  constructor
  · intro hall group hgroup
    obtain ⟨index, hindex, rfl⟩ := List.mem_iff_getElem.mp hgroup
    exact (h index _).mp (hall _ (List.mem_mapIdx.mpr ⟨index, hindex, rfl⟩))
  · intro hall fragment hfragment
    obtain ⟨index, hindex, rfl⟩ := List.mem_mapIdx.mp hfragment
    exact (h index _).mpr (hall _ (List.getElem_mem hindex))

/-- What the mapper asks of the groups the fragments are made of. -/
theorem isMappable_iff :
    IsMappable (groups.mapIdx fun index group => splitter.makeFragment document index group) ↔
      (∀ group ∈ groups, IsVisible group) ∧ (∀ group ∈ groups, OnPages group) ∧
        (groups.map (splitter.groupId document)).Nodup := by
  have htext := forall_mem_makeFragment splitter document groups
    (P := fun fragment => fragment.normalizedText ≠ "") fun index _ => normalizedText_ne_iff index
  have hpages := forall_mem_makeFragment splitter document groups (P := HasPages)
    fun index _ => hasPages_iff index
  rw [← htext, ← hpages, ← fragmentIds_eq]
  constructor
  · intro h
    exact ⟨h.text, h.pages, h.ids⟩
  · intro h
    exact ⟨h.1, h.2.1, h.2.2⟩

end Groups

/-! ## The condition -/

/-- What every stage asks of a document, of the other stages and of the groups of units. -/
structure Deliverable (config : PipelineConfig) (document : NormalizedDocument) (origin : Origin)
    (splitter : LogicalSplitter) (groups : List UnitGroup) : Prop where
  assemblable : IsAssemblable document origin
  keyPrefix : IsSafePrefix config.keyPrefix
  maxRecords_pos : 0 < config.maxRecordsPerPart
  maxBytes_pos : 0 < config.maxBytesPerPart
  version : (Json.int document.documentVersion).isEncodable config.py = true
  parserConfig : (Json.obj origin.parserConfig).isEncodable config.py = true
  normalizerConfig : (Json.obj origin.normalizerConfig).isEncodable config.py = true
  splitterConfig : (Json.obj (profileDict splitter.profile)).isEncodable config.py = true
  elements : ∀ record ∈ origin.elements, IsLine config.py config.maxBytesPerPart record
  fragments : ∀ fragment ∈ groups.mapIdx fun index group =>
    splitter.makeFragment document index group,
      IsLine config.py config.maxBytesPerPart (fragmentRecord fragment)
  visible : ∀ group ∈ groups, IsVisible group
  pages : ∀ group ∈ groups, OnPages group
  ids : (groups.map (splitter.groupId document)).Nodup

/-- Lists and limits as long as Python has them. -/
structure IsSized (config : PipelineConfig) (origin : Origin)
    (fragments : List LogicalFragment) : Prop where
  maxRecords : config.maxRecordsPerPart < countBound
  maxBytes : config.maxBytesPerPart < countBound
  elements : origin.elements.length < countBound
  fragments : fragments.length < countBound

section Condition

variable {config : PipelineConfig} {document : NormalizedDocument} {origin : Origin}
  {splitter : LogicalSplitter} {fragments : List LogicalFragment} {assembled : Assembled}
  {token : LeaseToken} {e : Encoded} {payload : List UInt8} {p : PublishedArtifact}

/-- What the publisher asks of what was assembled. -/
theorem isEncodable_request_iff
    (h : IsAssembledOf document origin splitter.profile fragments assembled) :
    (assembled.request token config.maxRecordsPerPart config.maxBytesPerPart).IsEncodable
        config.py ↔
      0 < config.maxRecordsPerPart ∧ 0 < config.maxBytesPerPart ∧
        (Json.int document.documentVersion).isEncodable config.py = true ∧
        ((Json.obj origin.parserConfig).isEncodable config.py = true ∧
          (Json.obj origin.normalizerConfig).isEncodable config.py = true ∧
          (Json.obj (profileDict splitter.profile)).isEncodable config.py = true) ∧
        (∀ record ∈ origin.elements, IsLine config.py config.maxBytesPerPart record) ∧
        ∀ fragment ∈ fragments,
          IsLine config.py config.maxBytesPerPart (fragmentRecord fragment) := by
  have helements : (assembled.request token config.maxRecordsPerPart
      config.maxBytesPerPart).elements = origin.elements := h.elements
  have hfragments : (assembled.request token config.maxRecordsPerPart
      config.maxBytesPerPart).fragments = fragments.map fragmentRecord := h.fragments
  have hcompatibility : (assembled.request token config.maxRecordsPerPart
      config.maxBytesPerPart).compatibility.asDict =
        compatibilityRecord document origin splitter.profile := h.compatibility
  have hversion : (assembled.request token config.maxRecordsPerPart
      config.maxBytesPerPart).identity.documentVersion = document.documentVersion :=
    h.documentVersion
  have hdict : (Json.obj (compatibilityRecord document origin splitter.profile)).isEncodable
      config.py = true ↔ _ := isEncodable_compatibilityRecord
  rw [← hdict]
  constructor
  · intro hencodable
    have hlines := hencodable.fragments
    rw [hfragments, List.forall_mem_map] at hlines
    exact ⟨hencodable.maxRecords_pos, hencodable.maxBytes_pos, hversion ▸ hencodable.version,
      hcompatibility ▸ hencodable.compatibility, helements ▸ hencodable.elements, hlines⟩
  · intro hencodable
    obtain ⟨hmaxRecords, hmaxBytes, hnumber, hconfigs, hrecords, hlines⟩ := hencodable
    refine ⟨hmaxRecords, hmaxBytes, helements ▸ hrecords, ?_, hcompatibility ▸ hconfigs,
      hversion ▸ hnumber⟩
    rw [hfragments, List.forall_mem_map]
    exact hlines

/-- What is loaded of a publication becomes blocks when the mapper takes the fragments. -/
theorem mapped_iff {groups : List UnitGroup} (hne : groups ≠ [])
    (hfragments : fragments =
      groups.mapIdx fun index group => splitter.makeFragment document index group)
    (h : IsAssembledOf document origin splitter.profile fragments assembled)
    (hp : Publication config.py config.sha256 config.keyPrefix
      (assembled.request token config.maxRecordsPerPart config.maxBytesPerPart) e payload p) :
    (∃ blocks, logicalBlocks config.py config.repr
        ((assembled.request token config.maxRecordsPerPart config.maxBytesPerPart).artifact p) =
          .ok blocks ∧ IsDelivery fragments blocks) ↔ IsMappable fragments := by
  have hidentity : p.manifest.identity = assembled.identity := (manifestOfEncoded_ok hp.manifest).1
  apply logicalBlocks_iff
  · show assembled.fragments.map JsonObject.sorted = fragments.map loadedRecord
    rw [h.fragments, map_loadedRecord]
  · show IsSplitOf p.manifest.identity fragments
    rw [hidentity, hfragments]
    exact isSplitOf_makeFragment hne h.documentId h.documentVersion

end Condition

section Agreement

variable {config : PipelineConfig} {splitter : LogicalSplitter} {document : NormalizedDocument}
  {origin : Origin} {groups : List UnitGroup} {fragments : List LogicalFragment}
  (helements : ∀ record ∈ origin.elements, Json.Valid config.py (.obj record))
  (hparser : Json.Valid config.py (.obj origin.parserConfig))
  (hnormalizer : Json.Valid config.py (.obj origin.normalizerConfig))
  (hne : groups ≠ [])
  (hfragments : fragments =
    groups.mapIdx fun index group => splitter.makeFragment document index group)

include helements hparser hnormalizer hne hfragments

theorem Delivers.deliverable (h : Delivers config document origin splitter.profile fragments) :
    Deliverable config document origin splitter groups := by
  obtain ⟨assembled, hassemble, hrun⟩ := h
  obtain ⟨hassemblable, hof⟩ := assemble_ok hassemble
  have hvalid := hof.valid helements hparser hnormalizer ⟨0, "", 0, 0⟩
    config.maxRecordsPerPart config.maxBytesPerPart
  obtain ⟨hsafe, e, payload, p, hp, hmapped⟩ :=
    (preparedBlocks_iff hvalid (IsDelivery fragments)).mp (hrun ⟨0, "", 0, 0⟩)
  have hmappable := (mapped_iff hne hfragments hof hp).mp hmapped
  rw [hfragments, isMappable_iff] at hmappable
  obtain ⟨hvisible, hpages, hids⟩ := hmappable
  obtain ⟨hmaxRecords, hmaxBytes, hversion, ⟨hparserConfig, hnormalizerConfig, hsplitterConfig⟩,
    hlines, hfragmentLines⟩ := (isEncodable_request_iff hof).mp (encode_ok_iff.mp ⟨e, hp.encode⟩)
  rw [hfragments] at hfragmentLines
  exact ⟨hassemblable, hsafe, hmaxRecords, hmaxBytes, hversion, hparserConfig,
    hnormalizerConfig, hsplitterConfig, hlines, hfragmentLines, hvisible, hpages, hids⟩

theorem Deliverable.delivers (hdigits : config.py.maxDigits = 0 ∨ 640 ≤ config.py.maxDigits)
    (hsized : IsSized config origin fragments)
    (h : Deliverable config document origin splitter groups) :
    Delivers config document origin splitter.profile fragments := by
  have hsame : ∀ fragment ∈ fragments, fragment.documentId = document.documentId ∧
      fragment.documentVersion = document.documentVersion := by
    rw [hfragments]
    intro fragment hfragment
    obtain ⟨index, _, rfl⟩ := List.mem_mapIdx.mp hfragment
    exact ⟨rfl, rfl⟩
  obtain ⟨assembled, hassemble⟩ : ∃ assembled,
      assemble document origin splitter.profile fragments = .ok assembled :=
    exists_assemble h.assemblable hsame
  have hof := (assemble_ok hassemble).2
  refine ⟨assembled, hassemble, fun token => ?_⟩
  have hvalid := hof.valid helements hparser hnormalizer token
    config.maxRecordsPerPart config.maxBytesPerPart
  have hencodable : (assembled.request token config.maxRecordsPerPart
      config.maxBytesPerPart).IsEncodable config.py := by
    apply (isEncodable_request_iff hof).mpr
    rw [hfragments]
    exact ⟨h.maxRecords_pos, h.maxBytes_pos, h.version,
      ⟨h.parserConfig, h.normalizerConfig, h.splitterConfig⟩, h.elements, h.fragments⟩
  have hrequest : (assembled.request token config.maxRecordsPerPart
      config.maxBytesPerPart).IsSized := by
    constructor
    · exact hsized.maxRecords
    · exact hsized.maxBytes
    · show assembled.elements.length < countBound
      rw [hof.elements]
      exact hsized.elements
    · show assembled.fragments.length < countBound
      rw [hof.fragments, List.length_map]
      exact hsized.fragments
  obtain ⟨e, payload, p, hp⟩ := exists_publication hdigits config.keyPrefix hrequest hencodable
  have hmappable : IsMappable fragments := by
    rw [hfragments, isMappable_iff]
    exact ⟨h.visible, h.pages, h.ids⟩
  apply (preparedBlocks_iff hvalid (IsDelivery fragments)).mpr
  exact ⟨h.keyPrefix, e, payload, p, hp, (mapped_iff hne hfragments hof hp).mpr hmappable⟩

end Agreement

/-- The fragments of a document become its blocks exactly when the stages agree: above all,
when every group of units shows something. -/
theorem delivers_iff (config : PipelineConfig) (splitter : LogicalSplitter)
    (document : NormalizedDocument) (origin : Origin) (groups : List UnitGroup)
    (fragments : List LogicalFragment)
    (hdigits : config.py.maxDigits = 0 ∨ 640 ≤ config.py.maxDigits)
    (hsized : IsSized config origin fragments)
    (helements : ∀ record ∈ origin.elements, Json.Valid config.py (.obj record))
    (hparser : Json.Valid config.py (.obj origin.parserConfig))
    (hnormalizer : Json.Valid config.py (.obj origin.normalizerConfig))
    (hgroups : splitter.finalGroups document = .ok groups)
    (hsplit : splitter.split document = .ok fragments) (hne : fragments ≠ []) :
    Delivers config document origin splitter.profile fragments ↔
      Deliverable config document origin splitter groups := by
  obtain ⟨groups', hgroups', hfragments⟩ := split_ok hsplit
  obtain rfl := Except.ok.inj (hgroups.symm.trans hgroups')
  have hgroupsNe : groups ≠ [] := by
    intro hnil
    rw [hfragments, hnil] at hne
    exact hne rfl
  constructor
  · exact Delivers.deliverable helements hparser hnormalizer hgroupsNe hfragments
  · exact Deliverable.delivers helements hparser hnormalizer hgroupsNe hfragments hdigits hsized

/-! ## Two tables -/

def sampleConfig : PipelineConfig where
  py := plainRuntime
  sha256 := Sha256.hexDigest
  repr _ := ""
  keyPrefix := "prepared/v1"

def sampleOrigin : Origin where
  sourceSha256 := sampleIdentity.sourceSha256
  elements := [[("source_element_id", .str "t")]]
  normalizerConfig := [("profile_id", .str "general")]
  parserName := "docx"
  parserVersion := "1"
  parserProfile := "default"

/-- A document with one table, on its first page. -/
def tableDocument (rows : List (List String)) : NormalizedDocument where
  documentId := 5
  documentVersion := 1
  normalizerProfile := "general"
  normalizerVersion := "1"
  processingFingerprint := "f"
  elements := [⟨"t", .table, 0, none, none, some 1, none, none, some rows, false⟩]

def priceRows : List (List String) := [["Item", "Price"], ["Tea", "3"]]

theorem valid_sampleElements : ∀ record ∈ sampleOrigin.elements,
    Json.Valid plainRuntime (.obj record) :=
  List.forall_mem_singleton.mpr (.obj (by decide) (List.forall_mem_singleton.mpr (.str _)))

theorem valid_sampleConfig : Json.Valid plainRuntime (.obj sampleOrigin.normalizerConfig) :=
  .obj (by decide) (List.forall_mem_singleton.mpr (.str _))

theorem valid_noConfig : Json.Valid plainRuntime (.obj sampleOrigin.parserConfig) :=
  .obj (by decide) (List.forall_mem_nil _)

theorem delivers_prices : ∃ fragments,
    plainSplitter.split (tableDocument priceRows) = .ok fragments ∧
      Delivers sampleConfig (tableDocument priceRows) sampleOrigin plainSplitter.profile
        fragments := by
  have hok : (plainSplitter.split (tableDocument priceRows)).isOk = true := by decide +kernel
  obtain ⟨fragments, hsplit⟩ := except_isOk.mp hok
  obtain ⟨groups, hgroups, hfragments⟩ := split_ok hsplit
  have hchecked : (plainSplitter.finalGroups (tableDocument priceRows)).map (fun groups =>
      decide (groups.length = 1 ∧ (∀ group ∈ groups, IsVisible group) ∧
        (∀ group ∈ groups, OnPages group) ∧
        (groups.map (plainSplitter.groupId (tableDocument priceRows))).Nodup ∧
        ∀ fragment ∈ groups.mapIdx fun index group =>
            plainSplitter.makeFragment (tableDocument priceRows) index group,
          IsLine sampleConfig.py sampleConfig.maxBytesPerPart (fragmentRecord fragment))) =
      .ok true := by decide +kernel
  rw [hgroups] at hchecked
  obtain ⟨hone, hvisible, hpages, hids, hlines⟩ := of_decide_eq_true (Except.ok.inj hchecked)
  have hlength : fragments.length = 1 := by rw [hfragments, List.length_mapIdx, hone]
  refine ⟨fragments, hsplit, ?_⟩
  apply (delivers_iff sampleConfig plainSplitter (tableDocument priceRows) sampleOrigin groups
    fragments (.inr (by decide)) ⟨by decide, by decide, by decide, by rw [hlength]; decide⟩
    valid_sampleElements valid_noConfig valid_sampleConfig hgroups hsplit ?_).mpr
  · exact ⟨⟨by decide, by decide, by decide, fun _ h => by cases h⟩, by decide +kernel, by decide,
      by decide, by decide, by decide, by decide, by decide +kernel, by decide +kernel, hlines,
      hvisible, hpages, hids⟩
  · exact List.ne_nil_of_length_pos (by omega)

/-- The cells of the only table are blank. -/
theorem not_delivers_blankTable : DistinctElements (tableDocument [["", ""]]) ∧
    ∃ fragments, plainSplitter.split (tableDocument [["", ""]]) = .ok fragments ∧
      fragments ≠ [] ∧ ¬ Delivers sampleConfig (tableDocument [["", ""]]) sampleOrigin
        plainSplitter.profile fragments := by
  have hok : (plainSplitter.split (tableDocument [["", ""]])).isOk = true := by decide +kernel
  obtain ⟨fragments, hsplit⟩ := except_isOk.mp hok
  obtain ⟨groups, hgroups, hfragments⟩ := split_ok hsplit
  have hchecked : (plainSplitter.finalGroups (tableDocument [["", ""]])).map (fun groups =>
      decide (groups.length = 1 ∧ ¬ ∀ group ∈ groups, IsVisible group)) = .ok true := by
    decide +kernel
  rw [hgroups] at hchecked
  obtain ⟨hone, hblank⟩ := of_decide_eq_true (Except.ok.inj hchecked)
  have hlength : fragments.length = 1 := by rw [hfragments, List.length_mapIdx, hone]
  refine ⟨⟨by decide, by decide, by decide⟩, fragments, hsplit,
    List.ne_nil_of_length_pos (by omega), fun hdelivers => ?_⟩
  exact hblank (hdelivers.deliverable valid_sampleElements valid_noConfig valid_sampleConfig
    (List.ne_nil_of_length_pos (by omega)) hfragments).visible

end PreparedPipeline

end AstraIndexator
