import AstraIndexator.Foundation.Traverse
import AstraIndexator.PreparedArtifacts.Publishers
import AstraIndexator.PreparedArtifacts.WorkbookArtifact

/-!
# A store that works

A publisher that holds its lease, and to whose store nobody else writes, publishes whatever
it can encode, unless other bytes stand where it writes.
-/

namespace AstraIndexator

open Text Prog Transaction DeliveryIdentity PreparedArtifactPublisher PreparedArtifactReader

/-! ## Keys with a path -/

/-- No component of the prefix leads out of the store. -/
def IsSafePrefix (keyPrefix : String) : Prop :=
  ['.', '.'] ∉ (stripSlashes keyPrefix.toList).splitOn '/'

instance (keyPrefix : String) : Decidable (IsSafePrefix keyPrefix) := instDecidableNot

section Paths

variable {keyPrefix artifactId tail : String} {identity : ArtifactIdentity}

theorem ne_dots_of_hex {s : String} (h : IsSha256Hex s) : s.toList ≠ ['.', '.'] := by
  intro hdots
  have hdot := h.2 '.' (hdots ▸ List.mem_cons_self)
  exact absurd hdot (by decide)

theorem ne_dots_of_version {version : Int} (h : 0 < version) :
    (toString version).toList ≠ ['.', '.'] := by
  obtain ⟨n, rfl⟩ := Int.eq_ofNat_of_zero_le h.le
  have htext : (toString (n : Int)).toList = Nat.toDigits 10 n := Nat.toList_repr
  intro hdots
  rw [htext] at hdots
  have hdigit := Nat.isDigit_of_mem_toDigits (by decide) (by decide)
    (show '.' ∈ Nat.toDigits 10 n from hdots ▸ List.mem_cons_self)
  exact absurd hdigit (by decide)

theorem ne_dots_of_uuid (id : UUID) : (uuidText id).toList ≠ ['.', '.'] := by
  intro hdots
  have hlength := uuidText_length id
  rw [hdots] at hlength
  exact absurd hlength (by decide)

/-- Nothing behind the prefix of a key leads out of the store. -/
theorem dots_mem_fileTail (hid : IsSha256Hex artifactId) :
    ['.', '.'] ∈ (fileTail identity artifactId tail).splitOn '/' ↔
      ['.', '.'] ∈ tail.toList.splitOn '/' := by
  rw [fileTail, List.splitOn_append_cons_self, List.splitOn_append_cons_self,
    List.splitOn_append_cons_self, List.splitOn_append_cons_self,
    List.splitOn_eq_singleton (slash_not_mem_uuidText _),
    List.splitOn_eq_singleton (slash_not_mem_version identity.documentVersion_pos),
    List.splitOn_eq_singleton (slash_not_mem_hex identity.sourceSha256_isHex),
    List.splitOn_eq_singleton (slash_not_mem_hex hid)]
  have huuid := (ne_dots_of_uuid identity.documentId).symm
  have hversion := (ne_dots_of_version identity.documentVersion_pos).symm
  have hsource := (ne_dots_of_hex identity.sourceSha256_isHex).symm
  have hartifact := (ne_dots_of_hex hid).symm
  simp only [List.mem_append, List.mem_singleton, huuid, hversion, hsource, hartifact, false_or]

/-- A text that is stripped of slashes does not begin with one. -/
theorem head?_stripSlashes (cs : List Char) : (stripSlashes cs).head? ≠ some '/' := by
  have hprefix : stripSlashes cs <+: cs.dropWhile (· = '/') := by
    rw [stripSlashes, ← List.reverse_suffix, List.reverse_reverse]
    exact List.dropWhile_suffix _
  intro hhead
  obtain ⟨rest, hrest⟩ := hprefix
  cases hstripped : stripSlashes cs with
  | nil =>
    rw [hstripped] at hhead
    cases hhead
  | cons c front =>
    rw [hstripped] at hhead hrest
    obtain rfl := Option.some.inj hhead
    have hnot := List.head_dropWhile_not (· = '/') (l := cs)
      (by rw [← hrest]; exact List.cons_ne_nil _ _)
    simp [← hrest] at hnot

/-- The key of a file has a path exactly below a prefix that does not lead out. -/
theorem exists_objectPath_iff (hid : IsSha256Hex artifactId) (htail : IsFileName tail)
    (hdots : ['.', '.'] ∉ tail.toList.splitOn '/') :
    (∃ path, objectPath (fileKey keyPrefix identity artifactId tail) = .ok path) ↔
      IsSafePrefix keyPrefix := by
  have hclean : (cleanPrefix keyPrefix).toList = stripSlashes keyPrefix.toList :=
    String.toList_ofList
  have hbehind : ['.', '.'] ∉ (fileTail identity artifactId tail).splitOn '/' :=
    mt (dots_mem_fileTail hid).mp hdots
  have hne : fileTail identity artifactId tail ≠ [] := by
    intro hnil
    have hlength := congrArg List.length hnil
    simp [fileTail] at hlength
  have hiff : ['.', '.'] ∈ (stripSlashes
      (fileKey keyPrefix identity artifactId tail).toList).splitOn '/' ↔
        ['.', '.'] ∈ (stripSlashes keyPrefix.toList).splitOn '/' := by
    rw [stripSlashes_fileKey htail, hclean]
    cases hfront : stripSlashes keyPrefix.toList with
    | nil => simpa using hbehind
    | cons c front =>
      have hc : ¬ c = '/' := by
        rintro rfl
        exact head?_stripSlashes keyPrefix.toList (by rw [hfront]; rfl)
      rw [List.cons_append, List.dropWhile_cons, if_neg (by simpa using hc), ← List.cons_append,
        List.append_assoc, List.singleton_append, List.splitOn_append_cons_self, List.mem_append]
      exact or_iff_left hbehind
  have hfull : stripSlashes (fileKey keyPrefix identity artifactId tail).toList ≠ [] := by
    rw [stripSlashes_fileKey htail]
    exact List.append_ne_nil_of_right_ne_nil _ hne
  simp only [objectPath, hfull, hiff, false_or, IsSafePrefix]
  by_cases hsafe : ['.', '.'] ∈ (stripSlashes keyPrefix.toList).splitOn '/'
  · simp [hsafe]
  · simp [hsafe]

theorem isDigit_of_mem_zeroPad {width n : Nat} {c : Char} (h : c ∈ zeroPad width n) :
    c.isDigit = true := by
  rcases List.mem_append.mp h with h | h
  · rw [List.eq_of_mem_replicate h]
    rfl
  · have htext : (toString n).toList = Nat.toDigits 10 n := Nat.toList_repr
    rw [htext] at h
    exact Nat.isDigit_of_mem_toDigits (by decide) (by decide) h

theorem dots_not_mem_partPath {stem : String} (hstem : '/' ∉ stem.toList) (index : Nat) :
    ['.', '.'] ∉ (partPath stem index).toList.splitOn '/' := by
  let name := stem.toList ++ '-' :: (zeroPad 5 index ++ ".jsonl".toList)
  have hsplit : (partPath stem index).toList = "parts".toList ++ '/' :: name := by
    simp [partPath, name, String.toList_append]
  have hname : '/' ∉ name := by
    intro hmem
    simp only [name, List.mem_append, List.mem_cons] at hmem
    rcases hmem with hmem | hmem | hmem | hmem
    · exact hstem hmem
    · exact absurd hmem (by decide)
    · exact absurd (isDigit_of_mem_zeroPad hmem) (by decide)
    · exact absurd hmem (by decide)
  have hdots : ['.', '.'] ≠ name := by
    intro heq
    have hlength := congrArg List.length heq
    simp only [name, List.length_append, List.length_cons, List.length_nil] at hlength
    have hend : ".jsonl".toList.length = 6 := rfl
    omega
  have hparts : '/' ∉ "parts".toList := by decide
  rw [hsplit, List.splitOn_append_cons_self, List.splitOn_eq_singleton hparts,
    List.splitOn_eq_singleton hname, List.mem_append, List.mem_singleton, List.mem_singleton]
  rintro (h | h)
  · exact absurd h (by decide)
  · exact hdots h

end Paths

/-! ## What can be encoded -/

section Encoding

variable {py : PythonRuntime} {sha256 : HexDigest} {kind : PartKind} {stem : String}
  {maxRecords maxBytes : Int} {r : PublishRequest} {e : Encoded}

/-- A record makes a line within the limit. -/
structure IsLine (py : PythonRuntime) (maxBytes : Int) (record : JsonObject) : Prop where
  encodable : (Json.obj record).isEncodable py = true
  fits : ((lineOf record).length : Int) ≤ maxBytes

instance (maxBytes : Int) (record : JsonObject) : Decidable (IsLine py maxBytes record) :=
  decidable_of_iff ((Json.obj record).isEncodable py = true ∧
      ((lineOf record).length : Int) ≤ maxBytes)
    ⟨fun h => ⟨h.1, h.2⟩, fun h => ⟨h.encodable, h.fits⟩⟩

theorem addRecord_ok_iff {p : Partition} {record : JsonObject} :
    (∃ p', addRecord py sha256 kind stem maxRecords maxBytes p record = .ok p') ↔
      IsLine py maxBytes record := by
  rw [addRecord]
  constructor
  · intro h
    obtain ⟨p', h⟩ := h
    obtain ⟨encoded, hencoded, h⟩ := except_bind_ok.mp h
    obtain ⟨hencodable, rfl⟩ := canonicalJsonBytes_ok.mp hencoded
    rw [except_guard_ok] at h
    exact ⟨hencodable, Int.not_lt.mp h.1⟩
  · intro h
    rw [canonicalJsonBytes_ok.mpr ⟨h.encodable, rfl⟩, except_ok_bind]
    exact ⟨_, except_guard_ok.mpr ⟨Int.not_lt.mpr h.fits, rfl⟩⟩

theorem encodePartitioned_ok_iff {records : List JsonObject} :
    (∃ parts, encodePartitioned py sha256 kind stem records maxRecords maxBytes = .ok parts) ↔
      ∀ record ∈ records, IsLine py maxBytes record := by
  have hfold : (∃ p, records.foldlM (addRecord py sha256 kind stem maxRecords maxBytes) {} =
      .ok p) ↔ ∀ record ∈ records, IsLine py maxBytes record :=
    Traverse.exists_foldlM_ok_iff (Q := fun _ => True) (fun _ _ _ => addRecord_ok_iff)
      (fun _ _ _ _ _ => trivial) trivial
  rw [← hfold, encodePartitioned]
  constructor
  · intro h
    obtain ⟨parts, h⟩ := h
    obtain ⟨p, hp, -⟩ := except_bind_ok.mp h
    exact ⟨p, hp⟩
  · intro h
    obtain ⟨p, hp⟩ := h
    exact ⟨_, except_bind_ok.mpr ⟨p, hp, rfl⟩⟩

/-- What the publisher asks of a request before it touches the store. -/
structure PreparedArtifactPublisher.PublishRequest.IsEncodable (py : PythonRuntime)
    (r : PublishRequest) : Prop where
  maxRecords_pos : 0 < r.maxRecordsPerPart
  maxBytes_pos : 0 < r.maxBytesPerPart
  elements : ∀ record ∈ r.elements, IsLine py r.maxBytesPerPart record
  fragments : ∀ record ∈ r.fragments, IsLine py r.maxBytesPerPart record
  compatibility : (Json.obj r.compatibility.asDict).isEncodable py = true
  version : (Json.int r.identity.documentVersion).isEncodable py = true

theorem isEncodable_identityDict (identity : ArtifactIdentity) :
    Json.fieldsEncodable py (identityDict identity) =
      (Json.int identity.documentVersion).isEncodable py := by
  simp [identityDict, Json.fieldsEncodable, Json.isEncodable]

theorem isEncodable_artifactSeed (identity : ArtifactIdentity) (compatibilitySha : String)
    (parts : List ArtifactPart) :
    (artifactSeed identity compatibilitySha parts).isEncodable py =
      (Json.int identity.documentVersion).isEncodable py := by
  have hparts : Json.itemsEncodable py (parts.map fun part =>
      .obj [("path", .str part.path), ("sha256", .str part.sha256)]) = true := by
    rw [Json.itemsEncodable_iff, List.forall_mem_map]
    intro part _
    rfl
  rw [← isEncodable_identityDict]
  simp [artifactSeed, Json.isEncodable, Json.fieldsEncodable, hparts]

theorem encode_ok_iff : (∃ e, encode py sha256 r = .ok e) ↔ r.IsEncodable py := by
  have hlimits : ¬ (r.maxRecordsPerPart ≤ 0 ∨ r.maxBytesPerPart ≤ 0) ↔
      0 < r.maxRecordsPerPart ∧ 0 < r.maxBytesPerPart := by
    rw [not_or, Int.not_le, Int.not_le]
  constructor
  · intro h
    obtain ⟨e, h⟩ := h
    rw [encode, except_guard_ok] at h
    obtain ⟨hpos, h⟩ := h
    obtain ⟨elementParts, helements, h⟩ := except_bind_ok.mp h
    obtain ⟨fragmentParts, hfragments, h⟩ := except_bind_ok.mp h
    obtain ⟨compatibilitySha, hcompatibility, h⟩ := except_bind_ok.mp h
    obtain ⟨artifactId, hartifact, -⟩ := except_bind_ok.mp h
    obtain ⟨bytes, hbytes, -⟩ := except_bind_ok.mp hcompatibility
    obtain ⟨seed, hseed, -⟩ := except_bind_ok.mp hartifact
    have hversion := (canonicalJsonBytes_ok.mp hseed).1
    rw [isEncodable_artifactSeed] at hversion
    exact ⟨(hlimits.mp hpos).1, (hlimits.mp hpos).2,
      encodePartitioned_ok_iff.mp ⟨elementParts, helements⟩,
      encodePartitioned_ok_iff.mp ⟨fragmentParts, hfragments⟩,
      (canonicalJsonBytes_ok.mp hbytes).1, hversion⟩
  · intro h
    have hcompatibility := canonicalJsonBytes_ok.mpr ⟨h.compatibility, rfl⟩
    obtain ⟨elementParts, helements⟩ : ∃ parts, encodePartitioned py sha256 .elements "elements"
        r.elements r.maxRecordsPerPart r.maxBytesPerPart = .ok parts :=
      encodePartitioned_ok_iff.mpr h.elements
    obtain ⟨fragmentParts, hfragments⟩ : ∃ parts, encodePartitioned py sha256 .fragments
        "fragments" r.fragments r.maxRecordsPerPart r.maxBytesPerPart = .ok parts :=
      encodePartitioned_ok_iff.mpr h.fragments
    have hseed : ∀ sha parts, (artifactSeed r.identity sha parts).isEncodable py = true := by
      intro sha parts
      rw [isEncodable_artifactSeed]
      exact h.version
    let compatibilitySha := sha256.hexdigest (utf8 (Json.render false (.obj r.compatibility.asDict)))
    let seed := artifactSeed r.identity compatibilitySha
      ((elementParts ++ fragmentParts).map Prod.fst)
    have hdigest : compatibilityDigest py sha256 r.compatibility = .ok compatibilitySha :=
      except_bind_ok.mpr ⟨_, hcompatibility, rfl⟩
    have hartifact : artifactIdOf py sha256 r.identity compatibilitySha
        ((elementParts ++ fragmentParts).map Prod.fst) =
          .ok (sha256.hexdigest (utf8 (Json.render false seed))) :=
      except_bind_ok.mpr ⟨_, canonicalJsonBytes_ok.mpr ⟨hseed _ _, rfl⟩, rfl⟩
    let artifactId := sha256.hexdigest (utf8 (Json.render false seed))
    refine ⟨⟨elementParts, fragmentParts, compatibilitySha, artifactId⟩, ?_⟩
    rw [encode, except_guard_ok]
    refine ⟨hlimits.mpr ⟨h.maxRecords_pos, h.maxBytes_pos⟩, ?_⟩
    refine except_bind_ok.mpr ⟨elementParts, helements, ?_⟩
    refine except_bind_ok.mpr ⟨fragmentParts, hfragments, ?_⟩
    refine except_bind_ok.mpr ⟨compatibilitySha, hdigest, ?_⟩
    exact except_bind_ok.mpr ⟨_, hartifact, rfl⟩

/-! ## The manifest of what was encoded -/

theorem nodup_path_encodeGroups (index : Nat) (groups : List (List JsonObject)) :
    ((encodeGroups sha256 kind stem index groups).map fun p => p.1.path).Nodup := by
  induction groups generalizing index with
  | nil => exact List.nodup_nil
  | cons group groups ih =>
    rw [encodeGroups, List.map_cons, List.nodup_cons]
    refine ⟨fun hmem => ?_, ih (index + 1)⟩
    obtain ⟨p, hp, hpath⟩ := List.mem_map.mp hmem
    obtain ⟨i, g, hi, -, rfl⟩ := mem_encodeGroups hp
    have heq := partPath_injective hpath
    omega

theorem recordTotal_encodeGroups (index : Nat) (groups : List (List JsonObject)) :
    recordTotal kind ((encodeGroups sha256 kind stem index groups).map Prod.fst) =
      groups.flatten.length := by
  induction groups generalizing index with
  | nil => rfl
  | cons group groups ih =>
    have hkind : (encodeGroup sha256 kind stem index group).1.kind = kind := rfl
    rw [encodeGroups, List.map_cons, recordTotal_cons, if_pos hkind, ih, List.flatten_cons,
      List.length_append]
    rfl

theorem recordTotal_encodeGroups_ne {kind' : PartKind} (h : kind ≠ kind') (index : Nat)
    (groups : List (List JsonObject)) :
    recordTotal kind' ((encodeGroups sha256 kind stem index groups).map Prod.fst) = 0 := by
  induction groups generalizing index with
  | nil => rfl
  | cons group groups ih =>
    have hkind : ¬ (encodeGroup sha256 kind stem index group).1.kind = kind' := h
    rw [encodeGroups, List.map_cons, recordTotal_cons, if_neg hkind, ih]

theorem sum_recordCount_encodeGroups (index : Nat) (groups : List (List JsonObject)) :
    ((encodeGroups sha256 kind stem index groups).map fun p => p.1.recordCount).sum =
      groups.flatten.length := by
  induction groups generalizing index with
  | nil => rfl
  | cons group groups ih =>
    rw [encodeGroups, List.map_cons, List.sum_cons, ih, List.flatten_cons, List.length_append]
    rfl

theorem recordTotal_append (kind : PartKind) (xs ys : List ArtifactPart) :
    recordTotal kind (xs ++ ys) = recordTotal kind xs + recordTotal kind ys := by
  rw [recordTotal, List.filter_append, List.map_append, List.sum_append, ← recordTotal,
    ← recordTotal]

section Encoded

variable {elements fragments : List (List JsonObject)}
  (h : EncodedFrom py sha256 r e elements fragments)

include h

theorem EncodedFrom.recordTotal_elements : recordTotal .elements e.parts = r.elements.length := by
  rw [Encoded.parts, Encoded.encodedParts, List.map_append, recordTotal_append, h.elementParts,
    h.fragmentParts, recordTotal_encodeGroups, recordTotal_encodeGroups_ne (by decide),
    h.elements_flatten, Nat.add_zero]

theorem EncodedFrom.recordTotal_fragments :
    recordTotal .fragments e.parts = r.fragments.length := by
  rw [Encoded.parts, Encoded.encodedParts, List.map_append, recordTotal_append, h.elementParts,
    h.fragmentParts, recordTotal_encodeGroups, recordTotal_encodeGroups_ne (by decide),
    h.fragments_flatten, Nat.zero_add]

theorem EncodedFrom.nodup_path : (e.parts.map ArtifactPart.path).Nodup := by
  rw [Encoded.parts, List.map_map, Encoded.encodedParts, List.map_append, h.elementParts,
    h.fragmentParts]
  refine List.nodup_append.mpr ⟨nodup_path_encodeGroups 0 elements,
    nodup_path_encodeGroups 0 fragments, fun path hpath path' hpath' heq => ?_⟩
  obtain ⟨p, hp, rfl⟩ := List.mem_map.mp hpath
  obtain ⟨q, hq, rfl⟩ := List.mem_map.mp hpath'
  obtain ⟨i, g, -, -, rfl⟩ := mem_encodeGroups hp
  obtain ⟨j, g', -, -, rfl⟩ := mem_encodeGroups hq
  exact partPath_ne i j heq

/-- What was encoded has a manifest. -/
theorem EncodedFrom.exists_manifest : ∃ m, manifestOfEncoded r e = .ok m := by
  obtain ⟨bytes, -, hid⟩ := except_bind_ok.mp h.artifactId
  obtain ⟨bytes', -, hsha⟩ := except_bind_ok.mp h.compatibility
  have hartifact : IsSha256Hex e.artifactId := Except.ok.inj hid ▸ sha256.isHex bytes
  have hcompatibility : IsSha256Hex e.compatibilitySha := Except.ok.inj hsha ▸ sha256.isHex bytes'
  have helements : (e.elementParts.map fun p => p.1.recordCount).sum = r.elements.length := by
    rw [h.elementParts, sum_recordCount_encodeGroups, h.elements_flatten]
  have hfragments : (e.fragmentParts.map fun p => p.1.recordCount).sum = r.fragments.length := by
    rw [h.fragmentParts, sum_recordCount_encodeGroups, h.fragments_flatten]
  rw [manifestOfEncoded, ArtifactManifest.make, validateSha256, dif_pos hartifact, validateSha256,
    dif_pos hcompatibility, except_ok_bind, except_ok_bind, dif_pos h.nodup_path]
  refine ⟨_, except_guard_ok.mpr ⟨?_, except_guard_ok.mpr ⟨?_, rfl⟩⟩⟩
  · rw [h.recordTotal_elements, helements]
    exact not_not.mpr rfl
  · rw [h.recordTotal_fragments, hfragments]
    exact not_not.mpr rfl

end Encoded

end Encoding

/-! ## The bytes of a manifest -/

section ManifestBytes

variable {py : PythonRuntime} {sha256 : HexDigest} {r : PublishRequest} {e : Encoded}
  {elements fragments : List (List JsonObject)}

/-- The limits and the lists of a request are no longer than those of Python. -/
structure PreparedArtifactPublisher.PublishRequest.IsSized (r : PublishRequest) : Prop where
  maxRecords : r.maxRecordsPerPart < countBound
  maxBytes : r.maxBytesPerPart < countBound
  elements : r.elements.length < countBound
  fragments : r.fragments.length < countBound

theorem isEncodable_partDict (hdigits : py.maxDigits = 0 ∨ 640 ≤ py.maxDigits)
    {part : ArtifactPart} (hrecords : part.recordCount < countBound)
    (hbytes : part.byteCount < countBound) :
    (Json.obj (partDict part)).isEncodable py = true := by
  have hrecords' := WorkbookArtifact.isEncodable_count hdigits hrecords
  have hbytes' := WorkbookArtifact.isEncodable_count hdigits hbytes
  simp only [partDict, Json.isEncodable, Json.fieldsEncodable, Bool.true_and, Bool.and_true]
  rw [← Json.isEncodable, ← Json.isEncodable, hrecords', hbytes']
  rfl

theorem EncodedFrom.parts_small (h : EncodedFrom py sha256 r e elements fragments)
    (hsized : r.IsSized) {part : ArtifactPart} (hpart : part ∈ e.parts) :
    part.recordCount < countBound ∧ part.byteCount < countBound := by
  obtain ⟨p, hp, rfl⟩ := List.mem_map.mp hpart
  have hfits : (p.2.length : Int) ≤ r.maxBytesPerPart ∧ p.1.byteCount = p.2.length ∧
      (p.1.recordCount : Int) ≤ r.maxRecordsPerPart := by
    rcases List.mem_append.mp hp with hp | hp
    · exact fits_encodeGroups h.elements_fit 0 p (h.elementParts ▸ hp)
    · exact fits_encodeGroups h.fragments_fit 0 p (h.fragmentParts ▸ hp)
  obtain ⟨hbytes, hcount, hrecords⟩ := hfits
  have hmaxRecords := hsized.maxRecords
  have hmaxBytes := hsized.maxBytes
  constructor
  · omega
  · omega

/-- The manifest of what was encoded has bytes. -/
theorem EncodedFrom.exists_manifestBytes (hdigits : py.maxDigits = 0 ∨ 640 ≤ py.maxDigits)
    (h : EncodedFrom py sha256 r e elements fragments) (hsized : r.IsSized)
    (hencodable : r.IsEncodable py) {m : ArtifactManifest} (hm : manifestOfEncoded r e = .ok m) :
    ∃ payload, manifestBytes py m = .ok payload := by
  obtain ⟨hidentity, hcompatibility, -, -, hparts⟩ := manifestOfEncoded_ok hm
  have helements : m.totalElementCount = r.elements.length := by
    rw [m.elements_total, hparts, h.recordTotal_elements]
  have hfragments : m.totalFragmentCount = r.fragments.length := by
    rw [m.fragments_total, hparts, h.recordTotal_fragments]
  have hpartsEncodable : Json.itemsEncodable py (m.parts.map fun p => .obj (partDict p)) = true := by
    rw [Json.itemsEncodable_iff, List.forall_mem_map, hparts]
    intro part hpart
    obtain ⟨hrecords, hbytes⟩ := h.parts_small hsized hpart
    exact isEncodable_partDict hdigits hrecords hbytes
  have hidentityEncodable : Json.fieldsEncodable py (identityDict m.identity) = true := by
    rw [hidentity, isEncodable_identityDict]
    exact hencodable.version
  have hcompatibilityEncodable : Json.fieldsEncodable py m.compatibility.asDict = true := by
    rw [hcompatibility]
    exact hencodable.compatibility
  have htotals : Json.fieldsEncodable py (totalsDict m) = true := by
    simp only [totalsDict, Json.fieldsEncodable, helements, hfragments]
    rw [WorkbookArtifact.isEncodable_count hdigits hsized.elements,
      WorkbookArtifact.isEncodable_count hdigits hsized.fragments]
    rfl
  have hmanifest : (Json.obj (manifestDict m)).isEncodable py = true := by
    simp only [manifestDict, Json.isEncodable, Json.fieldsEncodable, hidentityEncodable,
      hcompatibilityEncodable, hpartsEncodable, htotals, Bool.true_and]
  rw [manifestBytes]
  exact ⟨_, except_bind_ok.mpr ⟨_, canonicalJsonBytes_ok.mpr ⟨hmanifest, rfl⟩, rfl⟩⟩

/-- What can be encoded has a publication. -/
theorem exists_publication (hdigits : py.maxDigits = 0 ∨ 640 ≤ py.maxDigits) (keyPrefix : String)
    (hsized : r.IsSized) (h : r.IsEncodable py) :
    ∃ e payload p, Publication py sha256 keyPrefix r e payload p := by
  obtain ⟨e, he⟩ : ∃ e, encode py sha256 r = .ok e := encode_ok_iff.mpr h
  obtain ⟨elements, fragments, hencoded⟩ := encode_ok he
  obtain ⟨m, hm⟩ := hencoded.exists_manifest
  obtain ⟨payload, hpayload⟩ := hencoded.exists_manifestBytes hdigits hsized h hm
  let published : PublishedArtifact := {
    manifest := m
    manifestKey := artifactRoot (cleanPrefix keyPrefix) r.identity e.artifactId ++ "/manifest.json"
    manifestSha256 := sha256.hexdigest payload
    manifestSha256_isHex := sha256.isHex payload }
  exact ⟨e, payload, published, he, hm, hpayload, rfl, rfl⟩

end ManifestBytes

/-! ## Liveness -/

/-- The answers of a store that works to a publisher that holds its lease. -/
def StoreOp.leased : (op : StoreOp) → StoreOp.Cut → op.Choice
  | assertCurrentLease _, _ => none
  | objectExists _, _ => ()
  | put _ _ _, _ => ()
  | get _, _ => ()
  | iterBytes _, cut => cut

/-- Nobody else writes, and nothing fails by itself. -/
abbrev workingStore : Setting StoreOp StoreOp.Result AstraError ObjectStore
    (fun _ => StoreOp.Cut) where
  exec op cut s := op.exec (op.leased cut) s
  rely s s' := s' = s
  guar _ _ _ _ := True

/-- Where an object belongs, nothing else is stored. -/
def Admits (objects : List (String × List UInt8)) (s : ObjectStore) : Prop :=
  ∀ o ∈ objects, ∀ path data, objectPath o.1 = .ok path → s path = some data → data = o.2

/-- Every object has a path, and those with one path are the same. -/
structure Storable (objects : List (String × List UInt8)) : Prop where
  path : ∀ o ∈ objects, ∃ path, objectPath o.1 = .ok path
  agree : ∀ o ∈ objects, ∀ o' ∈ objects, ∀ path, objectPath o.1 = .ok path →
    objectPath o'.1 = .ok path → o.2 = o'.2

/-- From a store with `P`, the program does not raise. -/
abbrev Works {α : Type} (P : ObjectStore → Prop) (p : StoreProg α)
    (Q : α → ObjectStore → Prop) : Prop :=
  Triple workingStore (fun _ _ _ => False) (fun _ s => P s) p (fun a _ s => Q a s)

section Working

variable {objects : List (String × List UInt8)} {key contentType : String} {data : List UInt8}
  {path : List Char} {s : ObjectStore}

theorem Admits.insert (hobjects : Storable objects) (ho : (key, data) ∈ objects)
    (hpath : objectPath key = .ok path) (h : Admits objects s) :
    Admits objects (s.insert path data) := by
  intro o' ho' path' data' hpath' hdata
  by_cases heq : path' = path
  · subst heq
    rw [ObjectStore.insert_self] at hdata
    rw [← Option.some.inj hdata]
    exact hobjects.agree _ ho _ ho' _ hpath hpath'
  · rw [s.insert_of_ne data heq] at hdata
    exact h o' ho' path' data' hpath' hdata

/-- The rule for one operation of a store that works. -/
theorem call_works {op : StoreOp} {P : ObjectStore → Prop} {Q : op.Result → ObjectStore → Prop}
    (h : ∀ cut s, P s → ∃ a, (op.exec (op.leased cut) s).1 = .ok a ∧
      Q a (op.exec (op.leased cut) s).2) : Works P (call op) Q := by
  refine .call (fun _ s => P s) ?_ (fun _ _ _ _ => trivial) ?_ ?_
  · intro _ s s₁ hs hsame
    rw [show s₁ = s from hsame]
    exact hs
  · intro _ s cut a hs hexec
    obtain ⟨a', ha', hQ⟩ := h cut s hs
    rw [show a = a' from Except.ok.inj (hexec.symm.trans ha')]
    exact hQ
  · intro _ s cut e hs hexec
    obtain ⟨a', ha', -⟩ := h cut s hs
    cases hexec.symm.trans ha'

theorem assertCurrentLease_works {token : LeaseToken} {P : ObjectStore → Prop} :
    Works P (call (.assertCurrentLease token)) (fun _ s => P s) :=
  call_works fun _ _ hs => ⟨(), rfl, hs⟩

theorem putIfAbsent_works (hobjects : Storable objects) (ho : (key, data) ∈ objects) :
    Works (Admits objects) (StoreProg.putIfAbsent key data contentType)
      (fun stored s => Admits objects s ∧ (stored = false → StoreOp.find s key = .ok data)) := by
  obtain ⟨path, hpath⟩ := hobjects.path _ ho
  rw [StoreProg.putIfAbsent]
  refine Triple.bind (Q := fun present _ s => Admits objects s ∧
    (present = true → StoreOp.find s key = .ok data)) (call_works fun _ s hs => ?_) fun present => ?_
  · refine ⟨(s path).isSome, ?_, hs, fun hpresent => ?_⟩
    · simp only [StoreOp.exec, hpath, Except.map]
    · obtain ⟨old, hold⟩ := Option.isSome_iff_exists.mp hpresent
      obtain rfl := hs _ ho path old hpath hold
      exact find_ok.mpr ⟨path, hpath, hold⟩
  · cases present with
    | true => exact .ret fun _ s hs => ⟨hs.1, fun _ => hs.2 rfl⟩
    | false =>
      refine Triple.bind (Q := fun _ _ s => Admits objects s) (call_works fun _ s hs => ?_) fun _ => ?_
      · refine ⟨(), ?_, ?_⟩
        · simp only [StoreOp.exec, hpath]
        · simp only [StoreOp.exec, hpath]
          exact hs.1.insert hobjects ho hpath
      · exact .ret fun _ s hs => ⟨hs, fun h => by cases h⟩

theorem putImmutable_works (hobjects : Storable objects) (ho : (key, data) ∈ objects) :
    Works (Admits objects) (putImmutable key data contentType) (fun _ s => Admits objects s) := by
  rw [putImmutable]
  refine (putIfAbsent_works hobjects ho).bind fun stored => ?_
  cases stored with
  | true => exact .ret fun _ s hs => hs.1
  | false =>
    refine Triple.bind (Q := fun found _ s => Admits objects s ∧ found = data)
      (call_works fun _ s hs => ⟨data, hs.2 rfl, hs.1, rfl⟩) fun found => ?_
    refine .of_pre (fun _ _ hs => hs.2) fun hfound => ?_
    rw [if_neg (not_not.mpr hfound)]
    exact .ret fun _ s hs => hs.1

theorem putParts_works (hobjects : Storable objects) {root : String} {token : LeaseToken}
    {parts : List (ArtifactPart × List UInt8)} (h : ∀ o ∈ partObjects root parts, o ∈ objects) :
    Works (Admits objects) (putParts root token parts) (fun _ s => Admits objects s) := by
  induction parts with
  | nil => exact .ret fun _ _ hs => hs
  | cons p rest ih =>
    have hfirst := h (root ++ "/" ++ p.1.path, p.2) List.mem_cons_self
    have hrest := ih fun o ho => h o (List.mem_cons_of_mem _ ho)
    rw [putParts]
    refine assertCurrentLease_works.bind fun _ => ?_
    exact (putImmutable_works hobjects hfirst).bind fun _ => hrest

variable {py : PythonRuntime} {sha256 : HexDigest} {keyPrefix : String} {r : PublishRequest}
  {e : Encoded} {payload : List UInt8} {p : PublishedArtifact}

/-- A value that is there needs no operation. -/
theorem ofExcept_bind_works {α β : Type} {result : Except AstraError α} {a : α}
    {f : α → StoreProg β} {P : ObjectStore → Prop} {Q : β → ObjectStore → Prop}
    (h : result = .ok a) (hf : Works P (f a) Q) : Works P (Prog.ofExcept result >>= f) Q := by
  rw [h]
  exact hf

/-- A publication succeeds where nothing stands in its way. -/
theorem Publication.publish_works (h : Publication py sha256 keyPrefix r e payload p)
    (hobjects : Storable (publicationObjects keyPrefix r e payload)) :
    Works (Admits (publicationObjects keyPrefix r e payload)) (publish py sha256 keyPrefix r)
      (fun _ _ => True) := by
  have hparts : ∀ o ∈ partObjects (artifactRoot (cleanPrefix keyPrefix) r.identity e.artifactId)
      e.encodedParts, o ∈ publicationObjects keyPrefix r e payload :=
    fun o ho => List.mem_cons_of_mem _ ho
  rw [publish]
  apply ofExcept_bind_works h.encode
  refine (putParts_works hobjects hparts).bind fun _ => ?_
  apply ofExcept_bind_works h.manifest
  apply ofExcept_bind_works h.manifestBytes
  refine assertCurrentLease_works.bind fun _ => ?_
  refine (putImmutable_works hobjects List.mem_cons_self).bind fun _ => ?_
  exact .ret fun _ _ _ => trivial

/-- A request has at most one publication. -/
theorem Publication.unique {e' : Encoded} {payload' : List UInt8} {p' : PublishedArtifact}
    (h : Publication py sha256 keyPrefix r e payload p)
    (h' : Publication py sha256 keyPrefix r e' payload' p') :
    e' = e ∧ payload' = payload ∧ p' = p := by
  obtain rfl := Except.ok.inj (h'.encode.symm.trans h.encode)
  have hmanifest := Except.ok.inj (h'.manifest.symm.trans h.manifest)
  have hbytes := h'.manifestBytes
  rw [hmanifest] at hbytes
  obtain rfl := Except.ok.inj (hbytes.symm.trans h.manifestBytes)
  refine ⟨rfl, rfl, ?_⟩
  have hkey := h'.manifestKey.trans h.manifestKey.symm
  have hsha := h'.manifestSha256.trans h.manifestSha256.symm
  cases p
  cases p'
  simp only at hmanifest hkey hsha
  subst hmanifest hkey hsha
  rfl

/-- The objects of a publication are its files. -/
theorem Publication.isFile (h : Publication py sha256 keyPrefix r e payload p)
    {o : String × List UInt8} (ho : o ∈ publicationObjects keyPrefix r e payload) :
    ∃ tail, IsFile py sha256 keyPrefix r e tail o.2 ∧
      o.1 = fileKey keyPrefix r.identity e.artifactId tail := by
  rcases List.mem_cons.mp ho with rfl | hpart
  · refine ⟨"manifest.json", .manifest h, ?_⟩
    have hname : "/manifest.json" = "/" ++ "manifest.json" := by decide
    rw [fileKey, String.append_assoc, ← hname]
  · obtain ⟨q, hq, rfl⟩ := List.mem_map.mp hpart
    exact ⟨q.1.path, .part hq, rfl⟩

theorem Publication.dots_not_mem (h : Publication py sha256 keyPrefix r e payload p)
    {tail : String} (hfile : IsFile py sha256 keyPrefix r e tail data) :
    ['.', '.'] ∉ tail.toList.splitOn '/' := by
  obtain ⟨elements, fragments, hencoded⟩ := encode_ok h.encode
  cases hfile with
  | manifest hp =>
    rw [List.splitOn_eq_singleton (by decide)]
    decide
  | @part q hq =>
    rw [Encoded.encodedParts, hencoded.elementParts, hencoded.fragmentParts] at hq
    rcases List.mem_append.mp hq with hq | hq
    · obtain ⟨i, g, -, -, rfl⟩ := mem_encodeGroups hq
      exact dots_not_mem_partPath (by decide) _
    · obtain ⟨i, g, -, -, rfl⟩ := mem_encodeGroups hq
      exact dots_not_mem_partPath (by decide) _

theorem Publication.artifactId_isHex (h : Publication py sha256 keyPrefix r e payload p) :
    IsSha256Hex e.artifactId := by
  obtain ⟨bytes, -, -, hdigest⟩ := seed_digested h.encode
  rw [hdigest]
  exact sha256.isHex bytes

/-- Below a safe prefix a publication can be stored. -/
theorem Publication.storable (h : Publication py sha256 keyPrefix r e payload p)
    (hsafe : IsSafePrefix keyPrefix) : Storable (publicationObjects keyPrefix r e payload) := by
  have hid := h.artifactId_isHex
  constructor
  · intro o ho
    obtain ⟨tail, hfile, hkey⟩ := h.isFile ho
    rw [hkey]
    exact (exists_objectPath_iff hid hfile.isFileName (h.dots_not_mem hfile)).mpr hsafe
  · intro o ho o' ho' path hpath hpath'
    obtain ⟨tail, hfile, hkey⟩ := h.isFile ho
    obtain ⟨tail', hfile', hkey'⟩ := h.isFile ho'
    rw [hkey] at hpath
    rw [hkey'] at hpath'
    obtain ⟨-, htail⟩ := objectPath_inj hid hid hfile.isFileName hfile'.isFileName hpath hpath'
    generalize o.2 = found at hfile
    generalize o'.2 = found' at hfile'
    cases hfile with
    | @part q hq =>
      generalize hname : q.1.path = name at htail
      cases hfile' with
      | @part q' hq' =>
        exact congrArg Prod.snd (encodedParts_path_inj h.encode hq hq' (hname.trans htail))
      | manifest hp' => exact absurd (hname.trans htail) manifest_not_part
    | manifest hp =>
      generalize hname : "manifest.json" = name at htail
      cases hfile' with
      | part hq' => exact absurd (hname.trans htail).symm manifest_not_part
      | manifest hp' => exact (hp'.unique hp).2.1

/-- A publication whose manifest is stored has a safe prefix. -/
theorem Publication.isSafePrefix (h : Publication py sha256 keyPrefix r e payload p)
    (hs : Holds (publicationObjects keyPrefix r e payload) s) : IsSafePrefix keyPrefix := by
  obtain ⟨tail, hfile, hkey⟩ := h.isFile (o := (_, payload)) List.mem_cons_self
  obtain ⟨path, hpath, -⟩ := find_ok.mp (hs _ List.mem_cons_self)
  rw [hkey] at hpath
  exact (exists_objectPath_iff h.artifactId_isHex hfile.isFileName (h.dots_not_mem hfile)).mp
    ⟨path, hpath⟩

end Working

/-! ## Publishing and loading -/

section PublishAndLoad

variable {py : PythonRuntime} {sha256 : HexDigest} {keyPrefix : String} {r : PublishRequest}

/-- Publish, and load what was published. -/
def publishAndLoad (py : PythonRuntime) (sha256 : HexDigest) (keyPrefix : String)
    (r : PublishRequest) : StoreProg PreparedArtifact := do
  let p ← publish py sha256 keyPrefix r
  loadAt py sha256 keyPrefix p.manifestKey (some p.manifestSha256)

/-- Nothing stands in the way of the publication. -/
def AdmitsPublication (py : PythonRuntime) (sha256 : HexDigest) (keyPrefix : String)
    (r : PublishRequest) (s : ObjectStore) : Prop :=
  ∀ e payload p, Publication py sha256 keyPrefix r e payload p →
    Admits (publicationObjects keyPrefix r e payload) s

theorem admitsPublication_empty :
    AdmitsPublication py sha256 keyPrefix r ObjectStore.empty := by
  intro _ _ _ _ _ _ _ _ _ hdata
  cases hdata

theorem serves_workingStore : Serves workingStore := by
  refine ⟨fun s s' hsame => ?_, fun _ cut _ _ _ _ => ⟨_, rfl⟩, fun _ _ _ _ _ => trivial⟩
  rw [show s' = s from hsame]
  exact .refl s

/-- What is published is there to be loaded. -/
theorem publish_safe (s : ObjectStore) : wp workingStore (publish py sha256 keyPrefix r)
    (outcome (fun p _ s => ∃ e payload, Publication py sha256 keyPrefix r e payload p ∧
      Holds (publicationObjects keyPrefix r e payload) s) fun _ _ _ => True) [] s :=
  publish_triple serves_workingStore (fun _ _ _ _ _ _ _ => trivial)
    (fun _ _ _ _ _ _ _ _ => trivial) [] s trivial

theorem Publication.loads {e : Encoded} {payload : List UInt8} {p : PublishedArtifact}
    {h : List (Event StoreOp StoreOp.Result AstraError)} {s : ObjectStore} (hvalid : r.Valid py)
    (hp : Publication py sha256 keyPrefix r e payload p)
    (hs : Holds (publicationObjects keyPrefix r e payload) s) :
    wp workingStore (loadAt py sha256 keyPrefix p.manifestKey (some p.manifestSha256))
      (fun loaded _ _ => loaded = .ok (r.artifact p)) h s := by
  refine wp_restrict (fun s s' hsame => ?_) (fun op cut s => ⟨op.leased cut, rfl⟩)
    (fun _ _ _ _ => trivial) (hp.roundTrips hvalid hs).loaded
  rw [show s' = s from hsame]
  exact .refl s

/-- What is published and loaded has a property exactly when there is a publication that has
it, below a prefix that does not lead out of the store. -/
theorem publishAndLoad_iff (hvalid : r.Valid py) (φ : PreparedArtifact → Prop) :
    (∀ s, AdmitsPublication py sha256 keyPrefix r s →
        wp workingStore (publishAndLoad py sha256 keyPrefix r)
          (fun loaded _ _ => ∃ artifact, loaded = .ok artifact ∧ φ artifact) [] s) ↔
      IsSafePrefix keyPrefix ∧
        ∃ e payload p, Publication py sha256 keyPrefix r e payload p ∧ φ (r.artifact p) := by
  constructor
  · intro hall
    have hrun := hall _ admitsPublication_empty
    rw [publishAndLoad, wp_bind] at hrun
    apply wp_elim (S := workingStore) (fun _ => ⟨StoreOp.Cut.whole⟩) (fun _ => rfl)
    refine wp_mono (fun published h s hboth => ?_) (wp_and hrun (publish_safe _))
    obtain ⟨hload, hout⟩ := hboth
    cases published with
    | error e =>
      obtain ⟨artifact, hartifact, -⟩ := hload
      cases hartifact
    | ok p =>
      obtain ⟨e, payload, hpublication, hs⟩ := hout
      refine ⟨hpublication.isSafePrefix hs, e, payload, p, hpublication, ?_⟩
      apply wp_elim (S := workingStore) (fun _ => ⟨StoreOp.Cut.whole⟩) (fun _ => rfl)
      refine wp_mono (fun loaded _ _ hloaded => ?_) (wp_and hload (hpublication.loads hvalid hs))
      obtain ⟨⟨artifact, hok, hartifact⟩, hsame⟩ := hloaded
      rw [← Except.ok.inj (hok.symm.trans hsame)]
      exact hartifact
  · intro h s hadmits
    obtain ⟨hsafe, e, payload, p, hpublication, hartifact⟩ := h
    have hworks := hpublication.publish_works (hpublication.storable hsafe) [] s
      (hadmits e payload p hpublication)
    rw [publishAndLoad, wp_bind]
    refine wp_mono (fun published h s hboth => ?_) (wp_and hworks (publish_safe _))
    obtain ⟨hok, hout⟩ := hboth
    cases published with
    | error e => exact hok.elim
    | ok p' =>
      obtain ⟨e', payload', hpublication', hs⟩ := hout
      refine wp_mono (fun loaded _ _ hloaded => ?_) (hpublication'.loads hvalid hs)
      rw [(hpublication.unique hpublication').2.2] at hloaded
      exact ⟨_, hloaded, hartifact⟩

end PublishAndLoad

end AstraIndexator
