import AstraIndexator.PreparedArtifacts.Manifest

/-!
# Manifests are parsed back

`parseManifestBytes_manifestBytes` says that the bytes of a sealed manifest are
parsed to the same manifest, the dictionaries in it in key order.
-/

namespace AstraIndexator

open Text DeliveryIdentity

/-! ## Dictionaries in key order -/

/-- The same dictionary with its keys, and those of the dictionaries in it, in order. -/
def JsonObject.sorted (fields : JsonObject) : JsonObject :=
  (Json.sortFields fields).map fun f => (f.1, f.2.sorted)

theorem sorted_obj (fields : JsonObject) :
    (Json.obj fields).sorted = .obj (JsonObject.sorted fields) :=
  Json.sorted_obj fields

theorem keys_sorted (fields : JsonObject) :
    ((JsonObject.sorted fields).map Prod.fst).Perm (fields.map Prod.fst) := by
  rw [JsonObject.sorted, List.map_map]
  exact (Json.sortFields_perm fields).map Prod.fst

theorem mem_sorted {fields : JsonObject} {key : String} {value : Json}
    (h : (key, value) ∈ fields) : (key, value.sorted) ∈ JsonObject.sorted fields :=
  List.mem_map_of_mem (f := fun f : String × Json => (f.1, f.2.sorted))
    ((Json.sortFields_perm fields).mem_iff.mpr h)

theorem find?_of_mem {fields : JsonObject} (hkeys : (fields.map Prod.fst).Nodup) {key : String}
    {value : Json} (h : (key, value) ∈ fields) :
    fields.find? (fun f => f.1 = key) = some (key, value) := by
  induction fields with
  | nil => cases h
  | cons f fields ih =>
    rw [List.map_cons, List.nodup_cons] at hkeys
    rcases List.mem_cons.mp h with rfl | hmem
    · exact List.find?_cons_of_pos (decide_eq_true rfl)
    · have hne : f.1 ≠ key := by
        rintro rfl
        exact hkeys.1 (List.mem_map.mpr ⟨_, hmem, rfl⟩)
      rw [List.find?_cons_of_neg (by simpa using hne)]
      exact ih hkeys.2 hmem

theorem getItem_sorted {fields : JsonObject} (hkeys : (fields.map Prod.fst).Nodup) {key : String}
    {value : Json} (h : (key, value) ∈ fields) :
    getItem (JsonObject.sorted fields) key = .ok value.sorted := by
  rw [getItem, find?_of_mem ((keys_sorted fields).nodup_iff.mpr hkeys) (mem_sorted h)]

theorem getOrNull_sorted {fields : JsonObject} (hkeys : (fields.map Prod.fst).Nodup) {key : String}
    {value : Json} (h : (key, value) ∈ fields) :
    getOrNull (JsonObject.sorted fields) key = value.sorted := by
  rw [getOrNull, find?_of_mem ((keys_sorted fields).nodup_iff.mpr hkeys) (mem_sorted h)]

theorem sameKeys_sorted {fields : JsonObject} {keys : List String}
    (h : fields.map Prod.fst = keys) : sameKeys (JsonObject.sorted fields) keys = true := by
  have hkeys := keys_sorted fields
  rw [h] at hkeys
  rw [sameKeys, Bool.and_eq_true, List.all_eq_true, List.all_eq_true]
  constructor
  · intro f hf
    rw [List.contains_iff_mem]
    exact hkeys.mem_iff.mp (List.mem_map_of_mem hf)
  · intro key hkey
    obtain ⟨f, hf, heq⟩ := List.mem_map.mp (hkeys.mem_iff.mpr hkey)
    exact List.any_eq_true.mpr ⟨f, hf, decide_eq_true heq⟩

theorem dictOrEmpty_obj (fields : JsonObject) : dictOrEmpty (.obj fields) = .ok fields := by
  cases fields with
  | nil => rfl
  | cons f fields => rfl

/-! ## Compatibility -/

namespace ArtifactCompatibility

theorem isNull_sorted (v : Json) : v.sorted.isNull = v.isNull := by
  cases v <;> rfl

theorem ocrComplete_sorted (modelId artifactRevision : Json) (manifestSha256 : Option String) :
    ocrComplete modelId.sorted artifactRevision.sorted manifestSha256 =
      ocrComplete modelId artifactRevision manifestSha256 := by
  rw [ocrComplete, isNull_sorted, isNull_sorted]
  rfl

/-- The same compatibility with its dictionaries in key order. -/
def sorted (c : ArtifactCompatibility) : ArtifactCompatibility where
  schemaVersion := c.schemaVersion.sorted
  parserName := c.parserName.sorted
  parserVersion := c.parserVersion.sorted
  parserProfile := c.parserProfile.sorted
  normalizerVersion := c.normalizerVersion.sorted
  splitterProfile := c.splitterProfile.sorted
  splitterVersion := c.splitterVersion.sorted
  parserConfig := JsonObject.sorted c.parserConfig
  normalizerConfig := JsonObject.sorted c.normalizerConfig
  splitterConfig := JsonObject.sorted c.splitterConfig
  ocrModelId := c.ocrModelId.sorted
  ocrArtifactRevision := c.ocrArtifactRevision.sorted
  ocrManifestSha256 := c.ocrManifestSha256
  ocr_complete := (ocrComplete_sorted _ _ _).trans c.ocr_complete
  ocr_isHex := c.ocr_isHex

theorem postInit_ok {modelId artifactRevision : Json} {manifestSha256 : Option String}
    (h : ocrComplete modelId artifactRevision manifestSha256 = true ∧
      ∀ digest ∈ manifestSha256, IsSha256Hex digest) :
    postInit modelId artifactRevision manifestSha256 = .ok ⟨h⟩ := by
  cases manifestSha256 with
  | none => rw [postInit, dif_pos h.1]
  | some digest =>
    rw [postInit, dif_pos h.1, validateSha256, dif_pos (h.2 digest rfl)]
    rfl

theorem make_self (c : ArtifactCompatibility) :
    make c.schemaVersion c.parserName c.parserVersion c.parserProfile c.normalizerVersion
      c.splitterProfile c.splitterVersion c.parserConfig c.normalizerConfig c.splitterConfig
      c.ocrModelId c.ocrArtifactRevision c.ocrManifestSha256 = .ok c := by
  rw [make, postInit_ok ⟨c.ocr_complete, c.ocr_isHex⟩]
  rfl

theorem optionalDigest_optionalText (digest : Option String) :
    optionalDigest (optionalText digest).sorted = .ok digest := by
  cases digest with
  | none => rfl
  | some s => rfl

theorem compatibilityOf_sorted (c : ArtifactCompatibility) :
    compatibilityOf (Json.obj c.asDict).sorted = .ok c.sorted := by
  have hkeys : (c.asDict.map Prod.fst).Nodup := by
    change ["schemaVersion", "parserName", "parserVersion", "parserProfile", "parserConfig",
      "normalizerVersion", "normalizerConfig", "splitterProfile", "splitterVersion",
      "splitterConfig", "ocrModelId", "ocrArtifactRevision", "ocrManifestSha256"].Nodup
    decide
  have hitem : ∀ key value, (key, value) ∈ c.asDict →
      getItem (JsonObject.sorted c.asDict) key = .ok value.sorted :=
    fun key value h => getItem_sorted hkeys h
  have hopt : ∀ key value, (key, value) ∈ c.asDict →
      getOrNull (JsonObject.sorted c.asDict) key = value.sorted :=
    fun key value h => getOrNull_sorted hkeys h
  rw [compatibilityOf, sorted_obj]
  simp only [asObject, Transaction.except_ok_bind,
    hitem "schemaVersion" c.schemaVersion (by simp [asDict]),
    hitem "parserName" c.parserName (by simp [asDict]),
    hitem "parserVersion" c.parserVersion (by simp [asDict]),
    hitem "parserProfile" c.parserProfile (by simp [asDict]),
    hitem "normalizerVersion" c.normalizerVersion (by simp [asDict]),
    hitem "splitterProfile" c.splitterProfile (by simp [asDict]),
    hitem "splitterVersion" c.splitterVersion (by simp [asDict]),
    hopt "parserConfig" (.obj c.parserConfig) (by simp [asDict]),
    hopt "normalizerConfig" (.obj c.normalizerConfig) (by simp [asDict]),
    hopt "splitterConfig" (.obj c.splitterConfig) (by simp [asDict]),
    hopt "ocrModelId" c.ocrModelId (by simp [asDict]),
    hopt "ocrArtifactRevision" c.ocrArtifactRevision (by simp [asDict]),
    hopt "ocrManifestSha256" (optionalText c.ocrManifestSha256) (by simp [asDict]),
    sorted_obj, dictOrEmpty_obj, optionalDigest_optionalText]
  exact make_self c.sorted

end ArtifactCompatibility

/-! ## Identity and parts -/

section Parsing

variable {py : PythonRuntime}

theorem validateSha256_ok {name value : String} (h : IsSha256Hex value) :
    validateSha256 name value = .ok ⟨h⟩ := dif_pos h

theorem uuidOf_uuidText (id : UUID) : uuidOf py (.str (uuidText id)) = .ok id := by
  have hdigits := uuidText_digits id
  have hall : ∀ c ∈ (uuidText id).toList, c = '-' ∨ isHexDigit c = true := by
    intro c hc
    by_cases hdash : c = '-'
    · exact .inl hdash
    · right
      have hmem : c ∈ (uuidText id).toList.filter (fun c => c ≠ '-') :=
        List.mem_filter.mpr ⟨hc, decide_eq_true hdash⟩
      rw [hdigits] at hmem
      exact hexChars_isHexDigit _ _ c hmem
  have hnot : ∀ c, c ≠ '-' → isHexDigit c = false → c ∉ (uuidText id).toList := by
    intro c hdash hhex hmem
    rcases hall c hmem with h | h
    · exact hdash h
    · rw [hhex] at h
      cases h
  have hbrace : ∀ c ∈ (uuidText id).toList, isBrace c = false := by
    intro c hc
    rcases hall c hc with rfl | h
    · rfl
    · have hne : ∀ d, isHexDigit d = false → c ≠ d := fun d hd => ne_of_isHexDigit h hd
      simp [isBrace, hne '{' (by decide), hne '}' (by decide)]
  have hdrop : ∀ l : List Char, (∀ c ∈ l, isBrace c = false) → l.dropWhile isBrace = l := by
    intro l hl
    cases l with
    | nil => rfl
    | cons c l => rw [List.dropWhile_cons, hl c List.mem_cons_self]; rfl
  have hrange : id.toNat < 2 ^ 128 := id.isLt
  have hpow : 16 ^ 32 = 2 ^ 128 := rfl
  have hmod : id.toNat % 16 ^ 32 = id.toNat := Nat.mod_eq_of_lt (by rw [hpow]; exact hrange)
  have hint : intOfText? py 16 (hexChars 32 id.toNat) = some (id.toNat : Int) := by
    rw [intOfText?_hexChars 32 _ (by decide), hmod]
  have hcolon := hnot ':' (by decide) (by decide)
  have hurn := @removeAll_of_not_mem ['u', 'r', 'n', ':'] _ ':' (by decide) hcolon
  have huuid := @removeAll_of_not_mem ['u', 'u', 'i', 'd', ':'] _ ':' (by decide) hcolon
  simp only [uuidOf, hurn, huuid, hdrop _ hbrace]
  rw [hdrop _ (fun c hc => hbrace c (List.mem_reverse.mp hc)), List.reverse_reverse, hdigits,
    hexChars_length, if_neg (by decide), hint]
  simp only
  rw [if_pos (by omega), Int.toNat_natCast, BitVec.ofNat_toNat, BitVec.setWidth_eq]

theorem identityOf_sorted (identity : ArtifactIdentity) :
    identityOf py (JsonObject.sorted (identityDict identity)) = .ok identity := by
  have hitem : ∀ key value, (key, value) ∈ identityDict identity →
      getItem (JsonObject.sorted (identityDict identity)) key = .ok value.sorted :=
    fun key value h => getItem_sorted (by simp [identityDict]) h
  have hid := hitem "documentId" (.str (uuidText identity.documentId)) (by simp [identityDict])
  have hversion := hitem "documentVersion" (.int identity.documentVersion) (by simp [identityDict])
  have hsource := hitem "sourceSha256" (.str identity.sourceSha256) (by simp [identityDict])
  simp only [identityOf, hid, hversion, hsource, Transaction.except_ok_bind, Json.sorted,
    uuidOf_uuidText, intOf, digestText]
  rw [ArtifactIdentity.make, dif_pos identity.documentVersion_pos,
    validateSha256_ok identity.sourceSha256_isHex]
  rfl

theorem kindOf_value (kind : PartKind) : kindOf (.str kind.value) = .ok kind := by
  cases kind with
  | elements => rfl
  | fragments => rfl

theorem partOf_sorted (part : ArtifactPart) :
    partOf py (Json.obj (partDict part)).sorted = .ok part := by
  have hitem : ∀ key value, (key, value) ∈ partDict part →
      getItem (JsonObject.sorted (partDict part)) key = .ok value.sorted :=
    fun key value h => getItem_sorted (by simp [partDict]) h
  have hkind := hitem "kind" (.str part.kind.value) (by simp [partDict])
  have hpath := hitem "path" (.str part.path) (by simp [partDict])
  have hsha := hitem "sha256" (.str part.sha256) (by simp [partDict])
  have hrecords := hitem "recordCount" (.int part.recordCount) (by simp [partDict])
  have hbytes := hitem "byteCount" (.int part.byteCount) (by simp [partDict])
  rw [sorted_obj, partOf]
  simp only [asObject, hkind, hpath, hsha, hrecords, hbytes, Transaction.except_ok_bind, Json.sorted,
    intOf, kindOf_value, pathOf, digestText]
  rw [ArtifactPart.make, dif_pos part.path_ok, validateSha256_ok part.sha256_isHex,
    Transaction.except_ok_bind, if_neg (by omega)]
  rfl

theorem mapM_map_ok {α β : Type} {f : β → Except AstraError α} (g : α → β) (items : List α)
    (h : ∀ a ∈ items, f (g a) = .ok a) : (items.map g).mapM f = .ok items := by
  induction items with
  | nil => rfl
  | cons a items ih =>
    rw [List.map_cons, List.mapM_cons, h a List.mem_cons_self,
      ih fun a ha => h a (List.mem_cons_of_mem _ ha)]
    rfl

/-- The same manifest with the dictionaries of its compatibility in key order. -/
def ArtifactManifest.sorted (m : ArtifactManifest) : ArtifactManifest :=
  { m with compatibility := m.compatibility.sorted }

theorem make_manifest (m : ArtifactManifest) : ArtifactManifest.make m.identity m.compatibility
    m.artifactId m.compatibilitySha256 m.parts m.totalElementCount m.totalFragmentCount = .ok m := by
  have helements : ¬ (m.totalElementCount : Int) ≠ recordTotal .elements m.parts :=
    not_not.mpr (congrArg _ m.elements_total)
  have hfragments : ¬ (m.totalFragmentCount : Int) ≠ recordTotal .fragments m.parts :=
    not_not.mpr (congrArg _ m.fragments_total)
  rw [ArtifactManifest.make, validateSha256_ok m.artifactId_isHex, Transaction.except_ok_bind,
    validateSha256_ok m.compatibilitySha256_isHex, Transaction.except_ok_bind, dif_pos m.paths_nodup,
    if_neg helements, if_neg hfragments]
  obtain ⟨identity, compatibility, artifactId, compatibilitySha256, parts, elements, fragments,
    h₁, h₂, h₃, rfl, rfl⟩ := m
  rfl

theorem manifestOf_sorted (m : ArtifactManifest) :
    manifestOf py (JsonObject.sorted (manifestDict m)) = .ok m.sorted := by
  have hkeys : ((manifestDict m).map Prod.fst).Nodup := by simp [manifestDict]
  have hitem : ∀ key value, (key, value) ∈ manifestDict m →
      getItem (JsonObject.sorted (manifestDict m)) key = .ok value.sorted :=
    fun key value h => getItem_sorted hkeys h
  have hidentity := hitem "identity" (.obj (identityDict m.identity)) (by simp [manifestDict])
  have hcompat := hitem "compatibility" (.obj m.compatibility.asDict) (by simp [manifestDict])
  have htotals := hitem "totals" (.obj (totalsDict m)) (by simp [manifestDict])
  have hparts := hitem "parts" (.arr (m.parts.map fun p => .obj (partDict p)))
    (by simp [manifestDict])
  have hartifact : getItem (JsonObject.sorted (manifestDict m)) "artifactId" =
      .ok (.str m.artifactId) := hitem "artifactId" (.str m.artifactId) (by simp [manifestDict])
  have hsha : getItem (JsonObject.sorted (manifestDict m)) "compatibilitySha256" =
      .ok (.str m.compatibilitySha256) :=
    hitem "compatibilitySha256" (.str m.compatibilitySha256) (by simp [manifestDict])
  have hformat : getItem (JsonObject.sorted (manifestDict m)) "format" =
      .ok (.str manifestFormat) := hitem "format" (.str manifestFormat) (by simp [manifestDict])
  have hnames : sameKeys (JsonObject.sorted (identityDict m.identity))
      ["documentId", "documentVersion", "sourceSha256"] = true := sameKeys_sorted rfl
  have helements : getItem (JsonObject.sorted (totalsDict m)) "elements" =
      .ok (.int m.totalElementCount) :=
    getItem_sorted (by simp) List.mem_cons_self
  have hfragments : getItem (JsonObject.sorted (totalsDict m)) "fragments" =
      .ok (.int m.totalFragmentCount) :=
    getItem_sorted (by simp) (List.mem_cons_of_mem _ List.mem_cons_self)
  have hmap : ((m.parts.map fun p => Json.obj (partDict p)).map Json.sorted).mapM (partOf py) =
      .ok m.parts := by
    rw [List.map_map]
    exact mapM_map_ok _ _ fun part _ => partOf_sorted part
  rw [sorted_obj] at hidentity htotals
  rw [Json.sorted_arr] at hparts
  simp only [manifestOf, hidentity, hcompat, htotals, hparts, hartifact, hsha, hformat,
    Transaction.except_ok_bind, asObject, hnames, not_true_eq_false, if_false, identityOf_sorted,
    ArtifactCompatibility.compatibilityOf_sorted, iterate, hmap, helements, hfragments, intOf,
    digestText, ne_eq]
  exact make_manifest m.sorted

/-! ## Digests -/

theorem canonicalJsonBytes_sorted (v : Json) :
    canonicalJsonBytes py v.sorted = canonicalJsonBytes py v := by
  rw [canonicalJsonBytes, canonicalJsonBytes, Json.dumps, Json.dumps, Json.isEncodable_sorted,
    Json.render_sorted]

theorem canonicalJsonBytes_congr {v w : Json} (h : v.sorted = w.sorted) :
    canonicalJsonBytes py v = canonicalJsonBytes py w := by
  rw [← canonicalJsonBytes_sorted, h, canonicalJsonBytes_sorted]

theorem canonicalJsonBytes_ok {v : Json} {bytes : List UInt8} :
    canonicalJsonBytes py v = .ok bytes ↔
      v.isEncodable py = true ∧ bytes = utf8 (Json.render false v) := by
  rw [canonicalJsonBytes, Json.dumps]
  by_cases h : v.isEncodable py = true
  · rw [if_pos h]
    simp [h, eq_comm]
  · rw [if_neg h]
    simp [h]

theorem asDict_sorted (c : ArtifactCompatibility) :
    c.sorted.asDict = c.asDict.map fun f => (f.1, f.2.sorted) := by
  have htext : ∀ digest, (optionalText digest).sorted = optionalText digest := by
    intro digest
    cases digest with
    | none => rfl
    | some s => rfl
  simp only [ArtifactCompatibility.asDict, ArtifactCompatibility.sorted, List.map_cons,
    List.map_nil, sorted_obj, htext]

theorem canonicalJsonBytes_compatibility (c : ArtifactCompatibility) :
    canonicalJsonBytes py (.obj c.sorted.asDict) = canonicalJsonBytes py (.obj c.asDict) := by
  apply canonicalJsonBytes_congr
  rw [sorted_obj, sorted_obj, asDict_sorted, JsonObject.sorted, JsonObject.sorted,
    Json.sortFields_map, List.map_map]
  exact congrArg Json.obj (List.map_congr_left fun f _ => by
    rw [Function.comp_apply, Json.sorted_sorted])

theorem compatibilityDigest_sorted {sha256 : HexDigest} (c : ArtifactCompatibility) :
    compatibilityDigest py sha256 c.sorted = compatibilityDigest py sha256 c := by
  rw [compatibilityDigest, canonicalJsonBytes_compatibility, ← compatibilityDigest]

/-- The digests in the manifest are those of its parts. -/
structure ArtifactManifest.Sealed (py : PythonRuntime) (sha256 : HexDigest)
    (m : ArtifactManifest) : Prop where
  compatibility : compatibilityDigest py sha256 m.compatibility = .ok m.compatibilitySha256
  artifactId : artifactIdOf py sha256 m.identity m.compatibilitySha256 m.parts = .ok m.artifactId

/-- A compatibility whose values are JSON-shaped. -/
abbrev ArtifactCompatibility.Valid (py : PythonRuntime) (c : ArtifactCompatibility) : Prop :=
  Json.Valid py (.obj c.asDict)

theorem valid_manifestDict {m : ArtifactManifest} (h : m.compatibility.Valid py) :
    Json.Valid py (.obj (manifestDict m)) := by
  have hidentity : Json.Valid py (.obj (identityDict m.identity)) := by
    refine .obj (by simp [identityDict]) fun f hf => ?_
    simp only [identityDict, List.mem_cons, List.not_mem_nil, or_false] at hf
    rcases hf with rfl | rfl | rfl
    · exact .str _
    · exact .int _
    · exact .str _
  have hpart : ∀ p, Json.Valid py (.obj (partDict p)) := by
    intro p
    refine .obj (by simp [partDict]) fun f hf => ?_
    simp only [partDict, List.mem_cons, List.not_mem_nil, or_false] at hf
    rcases hf with rfl | rfl | rfl | rfl | rfl
    · exact .str _
    · exact .str _
    · exact .str _
    · exact .int _
    · exact .int _
  have htotals : Json.Valid py (.obj (totalsDict m)) := by
    refine .obj (by simp [totalsDict]) fun f hf => ?_
    simp only [totalsDict, List.mem_cons, List.not_mem_nil, or_false] at hf
    rcases hf with rfl | rfl
    · exact .int _
    · exact .int _
  refine .obj (by simp [manifestDict]) fun f hf => ?_
  simp only [manifestDict, List.mem_cons, List.not_mem_nil, or_false] at hf
  rcases hf with rfl | rfl | rfl | rfl | rfl | rfl | rfl
  · exact .str _
  · exact .str _
  · exact hidentity
  · exact h
  · exact .str _
  · exact .arr (List.forall_mem_map.mpr fun p _ => hpart p)
  · exact htotals

/-- The bytes of a sealed manifest are parsed to it. -/
theorem parseManifestBytes_manifestBytes {sha256 : HexDigest} {m : ArtifactManifest}
    {bytes : List UInt8} (hvalid : m.compatibility.Valid py) (hsealed : m.Sealed py sha256)
    (hbytes : manifestBytes py m = .ok bytes) :
    parseManifestBytes py sha256 bytes = .ok m.sorted := by
  rw [manifestBytes] at hbytes
  obtain ⟨body, hbody, heq⟩ := Transaction.except_bind_ok.mp hbytes
  obtain ⟨hencodable, rfl⟩ := canonicalJsonBytes_ok.mp hbody
  have heq : bytes = utf8 (Json.render false (.obj (manifestDict m)) ++ ['\n']) := by
    rw [Json.utf8_append]
    exact (Except.ok.inj heq).symm
  have hload : Json.loads py bytes = .ok (Json.obj (manifestDict m)).sorted := by
    rw [heq]
    exact Json.loads_render (valid_manifestDict hvalid) hencodable
      (List.forall_mem_singleton.mpr rfl)
  have hkeys : sameKeys (JsonObject.sorted (manifestDict m)) manifestKeys = true :=
    sameKeys_sorted rfl
  have hcompat : compatibilityDigest py sha256 m.sorted.compatibility =
      .ok m.sorted.compatibilitySha256 :=
    (compatibilityDigest_sorted m.compatibility).trans hsealed.compatibility
  have hartifact : artifactIdOf py sha256 m.sorted.identity m.sorted.compatibilitySha256
      m.sorted.parts = .ok m.sorted.artifactId := hsealed.artifactId
  rw [sorted_obj] at hload
  simp only [parseManifestBytes, hload, hkeys, not_true_eq_false, if_false, manifestOf_sorted,
    schemaChecked, Transaction.except_ok_bind, hcompat, hartifact, ne_eq]
  rfl

end Parsing

end AstraIndexator
