import AstraIndexator.AstraVector.CanonicalHash
import AstraIndexator.Foundation.JsonRoundTrip
import AstraIndexator.Foundation.Sha256
import AstraIndexator.Foundation.Traverse
import Mathlib.Data.List.Perm.Basic

/-!
# What the canonical bytes of a batch tell

The bytes are the text of a JSON array, and a JSON text is read in one way only.  So they
tell every field of every block, the maps up to the order of their entries.
-/

namespace AstraIndexator

open Text Transaction

/-- The entries of a dictionary have different keys. -/
def IsMap (fields : List (String × String)) : Prop := (fields.map Prod.fst).Nodup

/-- Dictionaries are compared without the order of their entries. -/
def SameMap (fields fields' : List (String × String)) : Prop := fields.Perm fields'

/-- Two links that agree in every field. -/
structure SameLink (l l' : HashSourceLink) : Prop where
  type : l.type = l'.type
  url : l.url = l'.url
  label : l.label = l'.label
  mimeType : l.mimeType = l'.mimeType
  requiresAuth : l.requiresAuth = l'.requiresAuth
  expiresAt : l.expiresAt = l'.expiresAt
  attributes : SameMap l.attributes l'.attributes

/-- Two blocks that agree in every field. -/
structure SameBlock (b b' : HashLogicalBlock) : Prop where
  blockId : b.blockId = b'.blockId
  parentBlockId : b.parentBlockId = b'.parentBlockId
  blockType : b.blockType = b'.blockType
  text : b.text = b'.text
  orderIndex : b.orderIndex = b'.orderIndex
  metadata : SameMap b.metadata b'.metadata
  sourceLocation : b.sourceLocation = b'.sourceLocation
  sourceLinks : List.Forall₂ SameLink b.sourceLinks b'.sourceLinks

/-- The metadata and the attributes of a block are dictionaries. -/
structure HashLogicalBlock.HasMaps (b : HashLogicalBlock) : Prop where
  metadata : IsMap b.metadata
  attributes : ∀ l ∈ b.sourceLinks, IsMap l.attributes

/-! ## The JSON of a block -/

def HashSourceLocation.json (l : HashSourceLocation) : Json := .obj [
  ("page_start", .int l.pageStart), ("page_end", .int l.pageEnd),
  ("char_start", .int l.charStart), ("char_end", .int l.charEnd),
  ("section_path", .str l.sectionPath), ("heading", .str l.heading), ("table_id", .str l.tableId),
  ("row_index", .int l.rowIndex), ("column_index", .int l.columnIndex)]

def locationJson : Option HashSourceLocation → Json
  | some l => l.json
  | none => .obj []

def HashLogicalBlock.json (b : HashLogicalBlock) : Json := .obj [
  ("block_id", .str b.blockId), ("parent_block_id", .str b.parentBlockId),
  ("block_type", .int b.blockType), ("text", .str b.text), ("order_index", .int b.orderIndex),
  ("metadata", stringMap b.metadata), ("source_location", locationJson b.sourceLocation),
  ("source_links", .arr (b.sourceLinks.map HashSourceLink.canonicalValue))]

theorem HashSourceLocation.canonicalValue_ok {l : HashSourceLocation} {v : Json}
    (h : l.canonicalValue = .ok v) : v = l.json := by
  simp only [canonicalValue, except_bind_ok] at h
  obtain ⟨pageStart, h₁, pageEnd, h₂, charStart, h₃, charEnd, h₄, rowIndex, h₅, columnIndex, h₆,
    h⟩ := h
  rw [(requireUint32_ok.mp h₁).1, (requireUint32_ok.mp h₂).1, (requireUint32_ok.mp h₃).1,
    (requireUint32_ok.mp h₄).1, (requireUint32_ok.mp h₅).1, (requireUint32_ok.mp h₆).1] at h
  exact (Except.ok.inj h).symm

theorem HashLogicalBlock.canonicalValue_ok {b : HashLogicalBlock} {v : Json}
    (h : b.canonicalValue = .ok v) : v = b.json := by
  simp only [canonicalValue, except_bind_ok] at h
  obtain ⟨orderIndex, horder, h⟩ := h
  rw [(requireUint32_ok.mp horder).1] at h
  unfold HashLogicalBlock.json
  cases hsource : b.sourceLocation with
  | none =>
    rw [hsource] at h
    exact (Except.ok.inj h).symm
  | some l =>
    rw [hsource] at h
    obtain ⟨location, hlocation, h⟩ := except_bind_ok.mp h
    rw [l.canonicalValue_ok hlocation] at h
    exact (Except.ok.inj h).symm

/-- The bytes of a batch are the text of the array of its blocks. -/
theorem canonicalBatchBytes_ok {blocks : List HashLogicalBlock} {bytes : List UInt8}
    (h : canonicalBatchBytes blocks = .ok bytes) :
    bytes = utf8 (Json.render false (.arr (blocks.map HashLogicalBlock.json))) := by
  obtain ⟨values, hvalues, h⟩ := except_bind_ok.mp h
  have hmap : values = blocks.map HashLogicalBlock.json := by
    have hall := Traverse.mapM_eq_ok.mp hvalues
    have hsame := Traverse.map_eq_of_forall₂ (g := HashLogicalBlock.json) (h := id) hall
      fun b v hb => (HashLogicalBlock.canonicalValue_ok hb).symm
    rw [hsame, List.map_id]
  rw [← hmap]
  exact (Except.ok.inj h).symm

/-! ## Its shape -/

/-- A runtime without a limit on the digits of an integer. -/
def unlimited : PythonRuntime where
  floatRepr := id
  truncate? := fun _ => none
  decimal? := fun _ => none
  maxDigits := 0
  decodeWide? := fun _ _ => none

/-- A value that is read back from its text. -/
def IsReadable (v : Json) : Prop := Json.Valid unlimited v ∧ v.isEncodable unlimited = true

namespace IsReadable

theorem str (s : String) : IsReadable (.str s) := ⟨.str s, rfl⟩

theorem int (n : Int) : IsReadable (.int n) := ⟨.int n, rfl⟩

theorem bool (b : Bool) : IsReadable (.bool b) := ⟨.bool b, rfl⟩

theorem arr {items : List Json} (h : ∀ v ∈ items, IsReadable v) : IsReadable (.arr items) :=
  ⟨.arr fun v hv => (h v hv).1, Json.itemsEncodable_iff.mpr fun v hv => (h v hv).2⟩

theorem obj {fields : List (String × Json)} (hkeys : (fields.map Prod.fst).Nodup)
    (h : ∀ f ∈ fields, IsReadable f.2) : IsReadable (.obj fields) :=
  ⟨.obj hkeys fun f hf => (h f hf).1, Json.fieldsEncodable_iff.mpr fun f hf => (h f hf).2⟩

end IsReadable

theorem keys_stringMap (fields : List (String × String)) :
    (fields.map fun f => (f.1, Json.str f.2)).map Prod.fst = fields.map Prod.fst := by
  rw [List.map_map]
  rfl

theorem isReadable_stringMap {fields : List (String × String)} (h : IsMap fields) :
    IsReadable (stringMap fields) := by
  refine .obj ?_ (List.forall_mem_map.mpr fun f _ => .str f.2)
  rw [keys_stringMap]
  exact h

theorem isReadable_location (location : Option HashSourceLocation) :
    IsReadable (locationJson location) := by
  cases location with
  | none => exact .obj List.nodup_nil (List.forall_mem_nil _)
  | some l =>
    refine .obj (by simp) fun f hf => ?_
    simp only [List.mem_cons, List.not_mem_nil, or_false] at hf
    rcases hf with rfl | rfl | rfl | rfl | rfl | rfl | rfl | rfl | rfl
    · exact .int _
    · exact .int _
    · exact .int _
    · exact .int _
    · exact .str _
    · exact .str _
    · exact .str _
    · exact .int _
    · exact .int _

theorem isReadable_link {l : HashSourceLink} (h : IsMap l.attributes) :
    IsReadable l.canonicalValue := by
  refine .obj (by simp) fun f hf => ?_
  simp only [List.mem_cons, List.not_mem_nil, or_false] at hf
  rcases hf with rfl | rfl | rfl | rfl | rfl | rfl | rfl
  · exact .int _
  · exact .str _
  · exact .str _
  · exact .str _
  · exact .bool _
  · exact .str _
  · exact isReadable_stringMap h

theorem isReadable_block {b : HashLogicalBlock} (h : b.HasMaps) : IsReadable b.json := by
  refine .obj (by simp) fun f hf => ?_
  simp only [List.mem_cons, List.not_mem_nil, or_false] at hf
  rcases hf with rfl | rfl | rfl | rfl | rfl | rfl | rfl | rfl
  · exact .str _
  · exact .str _
  · exact .int _
  · exact .str _
  · exact .int _
  · exact isReadable_stringMap h.metadata
  · exact isReadable_location _
  · exact .arr (List.forall_mem_map.mpr fun l hl => isReadable_link (h.attributes l hl))

/-! ## What the JSON tells -/

theorem sameMap_of_sorted_eq {fields fields' : List (String × String)}
    (h : (stringMap fields).sorted = (stringMap fields').sorted) : SameMap fields fields' := by
  rw [stringMap, stringMap, Json.sorted_obj, Json.sorted_obj] at h
  have hfields := Json.obj.inj h
  have hperm : ∀ fields : List (String × String),
      ((Json.sortFields (fields.map fun f => (f.1, Json.str f.2))).map
        fun f => (f.1, f.2.sorted)).Perm (fields.map fun f => (f.1, Json.str f.2)) := by
    intro fields
    refine ((Json.sortFields_perm _).map _).trans (List.Perm.of_eq ?_)
    rw [List.map_map]
    exact List.map_congr_left fun f _ => rfl
  have hsame := (hperm fields).symm.trans (hfields ▸ hperm fields')
  have hinj : Function.Injective fun f : String × String => (f.1, Json.str f.2) := by
    intro f g heq
    obtain ⟨hkey, hvalue⟩ := Prod.mk.inj heq
    exact Prod.ext hkey (Json.str.inj hvalue)
  exact (List.map_perm_map_iff hinj).mp hsame

theorem location_eq_of_sorted_eq {location location' : Option HashSourceLocation}
    (h : (locationJson location).sorted = (locationJson location').sorted) :
    location = location' := by
  have hlength : ∀ l : HashSourceLocation, l.json.sorted ≠ (Json.obj []).sorted := by
    intro l heq
    rw [HashSourceLocation.json, Json.sorted_obj, Json.sorted_obj] at heq
    have hcount := congrArg List.length (Json.obj.inj heq)
    rw [List.length_map, (Json.sortFields_perm _).length_eq] at hcount
    cases hcount
  cases location with
  | none =>
    cases location' with
    | none => rfl
    | some l' => exact absurd h.symm (hlength l')
  | some l =>
    cases location' with
    | none => exact absurd h (hlength l)
    | some l' =>
      have hvalue := fun key v w => @Json.sorted_value_eq _ _ (by simp) h key v w
      have h₁ : l.pageStart = l'.pageStart :=
        Json.int.inj (hvalue "page_start" (.int _) (.int _) (by simp) (by simp))
      have h₂ : l.pageEnd = l'.pageEnd :=
        Json.int.inj (hvalue "page_end" (.int _) (.int _) (by simp) (by simp))
      have h₃ : l.charStart = l'.charStart :=
        Json.int.inj (hvalue "char_start" (.int _) (.int _) (by simp) (by simp))
      have h₄ : l.charEnd = l'.charEnd :=
        Json.int.inj (hvalue "char_end" (.int _) (.int _) (by simp) (by simp))
      have h₅ : l.sectionPath = l'.sectionPath :=
        Json.str.inj (hvalue "section_path" (.str _) (.str _) (by simp) (by simp))
      have h₆ : l.heading = l'.heading :=
        Json.str.inj (hvalue "heading" (.str _) (.str _) (by simp) (by simp))
      have h₇ : l.tableId = l'.tableId :=
        Json.str.inj (hvalue "table_id" (.str _) (.str _) (by simp) (by simp))
      have h₈ : l.rowIndex = l'.rowIndex :=
        Json.int.inj (hvalue "row_index" (.int _) (.int _) (by simp) (by simp))
      have h₉ : l.columnIndex = l'.columnIndex :=
        Json.int.inj (hvalue "column_index" (.int _) (.int _) (by simp) (by simp))
      obtain ⟨pageStart, pageEnd, charStart, charEnd, sectionPath, heading, tableId, rowIndex,
        columnIndex⟩ := l
      simp only at h₁ h₂ h₃ h₄ h₅ h₆ h₇ h₈ h₉
      rw [h₁, h₂, h₃, h₄, h₅, h₆, h₇, h₈, h₉]

theorem sameLink_of_sorted_eq {l l' : HashSourceLink}
    (h : l.canonicalValue.sorted = l'.canonicalValue.sorted) : SameLink l l' := by
  have hvalue := fun key v w => @Json.sorted_value_eq _ _ (by simp) h key v w
  exact {
    type := Json.int.inj (hvalue "type" (.int _) (.int _) (by simp) (by simp))
    url := Json.str.inj (hvalue "url" (.str _) (.str _) (by simp) (by simp))
    label := Json.str.inj (hvalue "label" (.str _) (.str _) (by simp) (by simp))
    mimeType := Json.str.inj (hvalue "mime_type" (.str _) (.str _) (by simp) (by simp))
    requiresAuth := Json.bool.inj (hvalue "requires_auth" (.bool _) (.bool _) (by simp) (by simp))
    expiresAt := Json.str.inj (hvalue "expires_at" (.str _) (.str _) (by simp) (by simp))
    attributes := sameMap_of_sorted_eq (hvalue "attributes" _ _ (by simp) (by simp)) }

theorem forall₂_of_map_sorted_eq {α : Type} {R : α → α → Prop} {g : α → Json} {as bs : List α}
    (hR : ∀ a b, (g a).sorted = (g b).sorted → R a b)
    (h : (Json.arr (as.map g)).sorted = (Json.arr (bs.map g)).sorted) : List.Forall₂ R as bs := by
  rw [Json.sorted_arr, Json.sorted_arr, List.map_map, List.map_map] at h
  have hmap := Json.arr.inj h
  induction as generalizing bs with
  | nil =>
    cases bs with
    | nil => exact .nil
    | cons b bs => cases hmap
  | cons a as ih =>
    cases bs with
    | nil => cases hmap
    | cons b bs =>
      obtain ⟨hhead, htail⟩ := List.cons.inj hmap
      exact .cons (hR a b hhead) (ih (congrArg Json.arr htail) htail)

theorem sameBlock_of_sorted_eq {b b' : HashLogicalBlock} (h : b.json.sorted = b'.json.sorted) :
    SameBlock b b' := by
  have hvalue := fun key v w => @Json.sorted_value_eq _ _ (by simp) h key v w
  exact {
    blockId := Json.str.inj (hvalue "block_id" (.str _) (.str _) (by simp) (by simp))
    parentBlockId := Json.str.inj (hvalue "parent_block_id" (.str _) (.str _) (by simp) (by simp))
    blockType := Json.int.inj (hvalue "block_type" (.int _) (.int _) (by simp) (by simp))
    text := Json.str.inj (hvalue "text" (.str _) (.str _) (by simp) (by simp))
    orderIndex := Json.int.inj (hvalue "order_index" (.int _) (.int _) (by simp) (by simp))
    metadata := sameMap_of_sorted_eq (hvalue "metadata" _ _ (by simp) (by simp))
    sourceLocation := location_eq_of_sorted_eq (hvalue "source_location" _ _ (by simp) (by simp))
    sourceLinks := forall₂_of_map_sorted_eq (fun _ _ => sameLink_of_sorted_eq)
      (hvalue "source_links" _ _ (by simp) (by simp)) }

/-! ## Batches -/

section Batches

variable {xs ys : List HashLogicalBlock}

/-- Batches with the same canonical bytes agree block by block. -/
theorem forall₂_sameBlock (hxs : ∀ b ∈ xs, b.HasMaps) (hys : ∀ b ∈ ys, b.HasMaps)
    {bytes : List UInt8} (hx : canonicalBatchBytes xs = .ok bytes)
    (hy : canonicalBatchBytes ys = .ok bytes) : List.Forall₂ SameBlock xs ys := by
  have hreadable : ∀ blocks : List HashLogicalBlock, (∀ b ∈ blocks, b.HasMaps) →
      IsReadable (.arr (blocks.map HashLogicalBlock.json)) :=
    fun blocks h => .arr (List.forall_mem_map.mpr fun b hb => isReadable_block (h b hb))
  obtain ⟨hvalid, hencodable⟩ := hreadable xs hxs
  obtain ⟨hvalid', hencodable'⟩ := hreadable ys hys
  have htext := Json.utf8_injective
    ((canonicalBatchBytes_ok hx).symm.trans (canonicalBatchBytes_ok hy))
  exact forall₂_of_map_sorted_eq (fun _ _ => sameBlock_of_sorted_eq)
    (Json.sorted_eq_of_render_eq hvalid hvalid' hencodable hencodable' htext)

theorem computeBatchContentHash_ok {sha256 : HexDigest} {hash : String}
    (h : computeBatchContentHash sha256 xs = .ok hash) :
    ∃ bytes, canonicalBatchBytes xs = .ok bytes ∧ sha256.hexdigest bytes = hash := by
  obtain ⟨-, h⟩ := except_guard_ok.mp h
  obtain ⟨bytes, hbytes, h⟩ := except_bind_ok.mp h
  exact ⟨bytes, hbytes, Except.ok.inj h⟩

/-- The canonical bytes tell the blocks, and so does the hash among byte strings without a
collision. -/
theorem batch_encoding_injective (sha256 : HexDigest) (known : Set (List UInt8))
    (hsha : Set.InjOn sha256.hexdigest known) (hxs : ∀ b ∈ xs, b.HasMaps)
    (hys : ∀ b ∈ ys, b.HasMaps) :
    (∀ bytes, canonicalBatchBytes xs = .ok bytes → canonicalBatchBytes ys = .ok bytes →
      List.Forall₂ SameBlock xs ys) ∧
      ∀ bytes bytes' hash, canonicalBatchBytes xs = .ok bytes → canonicalBatchBytes ys = .ok bytes' →
        bytes ∈ known → bytes' ∈ known → computeBatchContentHash sha256 xs = .ok hash →
        computeBatchContentHash sha256 ys = .ok hash → List.Forall₂ SameBlock xs ys := by
  constructor
  · intro bytes hx hy
    exact forall₂_sameBlock hxs hys hx hy
  · intro bytes bytes' hash hx hy hmem hmem' hhash hhash'
    obtain ⟨b, hb, hdigest⟩ := computeBatchContentHash_ok hhash
    obtain ⟨b', hb', hdigest'⟩ := computeBatchContentHash_ok hhash'
    obtain rfl := Except.ok.inj (hx.symm.trans hb)
    obtain rfl := Except.ok.inj (hy.symm.trans hb')
    obtain rfl := hsha hmem hmem' (hdigest.trans hdigest'.symm)
    exact forall₂_sameBlock hxs hys hx hy

end Batches

/-- A paragraph with two entries, inserted in this order. -/
def annotated (first second : String × String) : HashLogicalBlock := {
  blockId := "p", parentBlockId := "d", blockType := 4, text := "a \"quoted\" text", orderIndex := 1,
  metadata := [first, second], sourceLocation := some {} }

/-- The order of the entries is not told. -/
theorem batch_encoding_injective_annotated :
    List.Forall₂ SameBlock [annotated ("a", "1") ("b", "2")] [annotated ("b", "2") ("a", "1")] := by
  have hmaps : ∀ first second : String × String, first.1 ≠ second.1 →
      ∀ b ∈ [annotated first second], b.HasMaps := by
    intro first second hne b hb
    obtain rfl := List.mem_singleton.mp hb
    exact ⟨by simpa [annotated, IsMap] using hne, List.forall_mem_nil _⟩
  have hok : (canonicalBatchBytes [annotated ("a", "1") ("b", "2")]).isOk = true := by
    decide +kernel
  obtain ⟨bytes, hbytes⟩ := except_isOk.mp hok
  have hsame : canonicalBatchBytes [annotated ("b", "2") ("a", "1")] =
      canonicalBatchBytes [annotated ("a", "1") ("b", "2")] := by
    decide +kernel
  exact (batch_encoding_injective Sha256.hexDigest {bytes} (Set.injOn_singleton _ _)
    (hmaps _ _ (by decide)) (hmaps _ _ (by decide))).1 bytes hbytes (hsame.trans hbytes)

end AstraIndexator
