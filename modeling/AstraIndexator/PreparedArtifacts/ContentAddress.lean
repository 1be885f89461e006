import AstraIndexator.PreparedArtifacts.RoundTrip
import Mathlib.Data.Set.Function

/-!
# Content addresses

An artifact is stored below its identifier, which is the digest of its identity,
its compatibility and the digests of its parts.  Where the digest has no
collisions among the bytes in play, the identifier determines all of them, and a
path determines the identifier.
-/

namespace AstraIndexator

open Text Prog DeliveryIdentity PreparedArtifactPublisher PreparedArtifactReader

/-! ## Canonical bytes -/

section Canonical

variable {py : PythonRuntime}

/-- The canonical bytes of an object determine it up to the order of its keys. -/
theorem canonicalJsonBytes_injective {fields fields' : JsonObject} {bytes : List UInt8}
    (hvalid : Json.Valid py (.obj fields)) (hvalid' : Json.Valid py (.obj fields'))
    (h : canonicalJsonBytes py (.obj fields) = .ok bytes)
    (h' : canonicalJsonBytes py (.obj fields') = .ok bytes) :
    JsonObject.sorted fields = JsonObject.sorted fields' := by
  have hload : ∀ {fields : JsonObject}, Json.Valid py (.obj fields) →
      canonicalJsonBytes py (.obj fields) = .ok bytes →
        Json.loads py bytes = .ok (.obj (JsonObject.sorted fields)) := by
    intro fields hvalid h
    obtain ⟨hencodable, rfl⟩ := canonicalJsonBytes_ok.mp h
    have hloads := Json.loads_render hvalid hencodable
      (List.forall_mem_nil (fun c => Json.isWhitespace c = true))
    rwa [List.append_nil, sorted_obj] at hloads
  have heq := (hload hvalid h).symm.trans (hload hvalid' h')
  exact Json.obj.inj (Except.ok.inj heq)

/-- The path and the digest of a part. -/
def partAddress (part : ArtifactPart) : String × String := (part.path, part.sha256)

def addressDict (address : String × String) : JsonObject :=
  [("path", .str address.1), ("sha256", .str address.2)]

theorem addressDict_injective {a b : String × String}
    (h : JsonObject.sorted (addressDict a) = JsonObject.sorted (addressDict b)) : a = b := by
  have hitem : ∀ (c : String × String) key value, (key, value) ∈ addressDict c →
      getItem (JsonObject.sorted (addressDict c)) key = .ok value.sorted :=
    fun c key value hmem => getItem_sorted (by simp [addressDict]) hmem
  have hpath := hitem a "path" (.str a.1) (by simp [addressDict])
  have hsha := hitem a "sha256" (.str a.2) (by simp [addressDict])
  rw [h, hitem b "path" (.str b.1) (by simp [addressDict])] at hpath
  rw [h, hitem b "sha256" (.str b.2) (by simp [addressDict])] at hsha
  exact Prod.ext (Json.str.inj (Except.ok.inj hpath)).symm (Json.str.inj (Except.ok.inj hsha)).symm

def seedFields (identity : ArtifactIdentity) (compatibilitySha : String)
    (parts : List ArtifactPart) : JsonObject := [
  ("identity", .obj (identityDict identity)),
  ("compatibilitySha256", .str compatibilitySha),
  ("parts", .arr ((parts.map partAddress).map fun a => .obj (addressDict a)))]

theorem artifactSeed_eq (identity : ArtifactIdentity) (compatibilitySha : String)
    (parts : List ArtifactPart) :
    artifactSeed identity compatibilitySha parts =
      .obj (seedFields identity compatibilitySha parts) := by
  rw [seedFields, List.map_map]
  rfl

theorem valid_identityDict (identity : ArtifactIdentity) :
    Json.Valid py (.obj (identityDict identity)) := by
  refine .obj (by simp [identityDict]) fun f hf => ?_
  simp only [identityDict, List.mem_cons, List.not_mem_nil, or_false] at hf
  rcases hf with rfl | rfl | rfl
  · exact .str _
  · exact .int _
  · exact .str _

theorem valid_seedFields (identity : ArtifactIdentity) (compatibilitySha : String)
    (parts : List ArtifactPart) :
    Json.Valid py (.obj (seedFields identity compatibilitySha parts)) := by
  have haddress : ∀ a, Json.Valid py (.obj (addressDict a)) := by
    intro a
    refine .obj (by simp [addressDict]) fun f hf => ?_
    simp only [addressDict, List.mem_cons, List.not_mem_nil, or_false] at hf
    rcases hf with rfl | rfl
    · exact .str _
    · exact .str _
  refine .obj (by simp [seedFields]) fun f hf => ?_
  simp only [seedFields, List.mem_cons, List.not_mem_nil, or_false] at hf
  rcases hf with rfl | rfl | rfl
  · exact valid_identityDict identity
  · exact .str _
  · exact .arr (List.forall_mem_map.mpr fun a _ => haddress a)

theorem map_injOn {α β : Type} {f : α → β} {xs ys : List α} (h : xs.map f = ys.map f)
    (hf : ∀ x ∈ xs, ∀ y ∈ ys, f x = f y → x = y) : xs = ys := by
  induction xs generalizing ys with
  | nil => rw [List.map_eq_nil_iff.mp h.symm]
  | cons x xs ih =>
    cases ys with
    | nil => cases h
    | cons y ys =>
      obtain ⟨hhead, htail⟩ := List.cons.inj h
      rw [hf x List.mem_cons_self y List.mem_cons_self hhead]
      congr 1
      exact ih htail fun x hx y hy => hf x (List.mem_cons_of_mem _ hx) y (List.mem_cons_of_mem _ hy)

/-- The bytes an artifact identifier digests determine what they were made of. -/
theorem artifactSeed_injective {identity identity' : ArtifactIdentity}
    {compatibilitySha compatibilitySha' : String} {parts parts' : List ArtifactPart}
    {bytes : List UInt8}
    (h : canonicalJsonBytes py (artifactSeed identity compatibilitySha parts) = .ok bytes)
    (h' : canonicalJsonBytes py (artifactSeed identity' compatibilitySha' parts') = .ok bytes) :
    identity = identity' ∧ compatibilitySha = compatibilitySha' ∧
      parts.map partAddress = parts'.map partAddress := by
  rw [artifactSeed_eq] at h h'
  have hsorted := canonicalJsonBytes_injective (valid_seedFields _ _ _) (valid_seedFields _ _ _) h h'
  have hitem : ∀ identity compatibilitySha parts key value,
      (key, value) ∈ seedFields identity compatibilitySha parts →
        getItem (JsonObject.sorted (seedFields identity compatibilitySha parts)) key =
          .ok value.sorted :=
    fun _ _ _ _ _ hmem => getItem_sorted (by simp [seedFields]) hmem
  have hidentity := hitem identity compatibilitySha parts "identity"
    (.obj (identityDict identity)) (by simp [seedFields])
  have hcompat := hitem identity compatibilitySha parts "compatibilitySha256"
    (.str compatibilitySha) (by simp [seedFields])
  have hparts := hitem identity compatibilitySha parts "parts"
    (.arr ((parts.map partAddress).map fun a => .obj (addressDict a))) (by simp [seedFields])
  rw [hsorted, hitem identity' compatibilitySha' parts' "identity"
    (.obj (identityDict identity')) (by simp [seedFields]), Except.ok.injEq, sorted_obj,
    sorted_obj] at hidentity
  rw [hsorted, hitem identity' compatibilitySha' parts' "compatibilitySha256"
    (.str compatibilitySha') (by simp [seedFields])] at hcompat
  rw [hsorted, hitem identity' compatibilitySha' parts' "parts"
    (.arr ((parts'.map partAddress).map fun a => .obj (addressDict a))) (by simp [seedFields]),
    Except.ok.injEq, Json.sorted_arr, Json.sorted_arr, Json.arr.injEq] at hparts
  refine ⟨?_, (Json.str.inj (Except.ok.inj hcompat)).symm, ?_⟩
  · have hparse := @identityOf_sorted py identity
    rw [← Json.obj.inj hidentity, identityOf_sorted] at hparse
    exact (Except.ok.inj hparse).symm
  · have hobj : ∀ a b, (Json.obj (addressDict a)).sorted = (Json.obj (addressDict b)).sorted →
        Json.obj (addressDict a) = .obj (addressDict b) := by
      intro a b hab
      rw [sorted_obj, sorted_obj] at hab
      rw [addressDict_injective (Json.obj.inj hab)]
    have hdicts := map_injOn hparts fun v hv w hw hvw => by
      obtain ⟨a, -, rfl⟩ := List.mem_map.mp hv
      obtain ⟨b, -, rfl⟩ := List.mem_map.mp hw
      exact hobj a b hvw
    refine (map_injOn hdicts fun a _ b _ hab => ?_).symm
    exact addressDict_injective (congrArg JsonObject.sorted (Json.obj.inj hab))

end Canonical

/-! ## Parts -/

section Parts

variable {py : PythonRuntime} {sha256 : HexDigest} {kind kind' : PartKind} {stem stem' : String}

theorem partPath_injective {i j : Nat} (h : partPath stem i = partPath stem j) : i = j := by
  have htext := congrArg String.toList h
  simp only [partPath, String.toList_append, String.toList_ofList] at htext
  obtain ⟨hfront, -⟩ := List.append_inj' htext rfl
  obtain ⟨-, hpad⟩ := List.append_inj hfront rfl
  exact zeroPad_injective hpad

theorem mem_encodeGroups {groups : List (List JsonObject)} {index : Nat}
    {p : ArtifactPart × List UInt8} (hp : p ∈ encodeGroups sha256 kind stem index groups) :
    ∃ i group, index ≤ i ∧ group ∈ groups ∧ p = encodeGroup sha256 kind stem i group := by
  induction groups generalizing index with
  | nil => cases hp
  | cons group groups ih =>
    rcases List.mem_cons.mp hp with rfl | hp
    · exact ⟨index, group, Nat.le_refl _, List.mem_cons_self, rfl⟩
    · obtain ⟨i, g, hi, hg, rfl⟩ := ih hp
      exact ⟨i, g, by omega, List.mem_cons_of_mem _ hg, rfl⟩

/-- No two parts of one kind have one path. -/
theorem encodeGroups_path_inj {groups : List (List JsonObject)} {index : Nat}
    {p q : ArtifactPart × List UInt8} (hp : p ∈ encodeGroups sha256 kind stem index groups)
    (hq : q ∈ encodeGroups sha256 kind stem index groups) (h : p.1.path = q.1.path) : p = q := by
  induction groups generalizing index with
  | nil => cases hp
  | cons group groups ih =>
    have hlater : ∀ r ∈ encodeGroups sha256 kind stem (index + 1) groups,
        r.1.path ≠ partPath stem index := by
      intro r hr hpath
      obtain ⟨i, g, hi, -, rfl⟩ := mem_encodeGroups hr
      have := partPath_injective hpath
      omega
    rcases List.mem_cons.mp hp with rfl | hp
    · rcases List.mem_cons.mp hq with rfl | hq
      · rfl
      · exact absurd h.symm (hlater q hq)
    · rcases List.mem_cons.mp hq with rfl | hq
      · exact absurd h (hlater p hp)
      · exact ih hp hq

/-- The path and the bytes of an encoded group determine its part. -/
theorem encodeGroup_eq {i j : Nat} {group group' : List JsonObject}
    (hvalid : ∀ record ∈ group, Json.Valid py (.obj record))
    (hvalid' : ∀ record ∈ group', Json.Valid py (.obj record))
    (hpath : partPath stem i = partPath stem j) (hpayload : payloadOf group = payloadOf group') :
    encodeGroup sha256 kind stem i group = encodeGroup sha256 kind stem j group' := by
  have hcount := congrArg (fun lines => lines.1.length)
    (((splitLines_payloadOf hvalid).symm.trans (congrArg splitLines hpayload)).trans
      (splitLines_payloadOf hvalid'))
  simp only [List.length_map] at hcount
  rw [partPath_injective hpath]
  simp only [encodeGroup, hpayload, hcount]

/-- Parts of different kinds have different paths. -/
theorem partPath_ne (i j : Nat) : partPath "elements" i ≠ partPath "fragments" j := by
  intro h
  have htext := congrArg (fun path => path.toList[6]?) h
  simp [partPath] at htext

variable {r r' : PublishRequest} {e e' : Encoded} {p q : ArtifactPart × List UInt8}

/-- Every part of an encoding is an encoded group of valid records. -/
theorem mem_encodedParts (hvalid : r.Valid py) (he : encode py sha256 r = .ok e)
    (hp : p ∈ e.encodedParts) : ∃ i group, (∀ record ∈ group, Json.Valid py (.obj record)) ∧
      (p = encodeGroup sha256 .elements "elements" i group ∨
        p = encodeGroup sha256 .fragments "fragments" i group) := by
  obtain ⟨elements, fragments, hencoded⟩ := encode_ok he
  rcases List.mem_append.mp hp with hp | hp
  · rw [hencoded.elementParts] at hp
    obtain ⟨i, group, -, hgroup, rfl⟩ := mem_encodeGroups hp
    refine ⟨i, group, fun record hrecord => hvalid.elements record ?_, .inl rfl⟩
    exact hencoded.elements_flatten ▸ List.mem_flatten.mpr ⟨group, hgroup, hrecord⟩
  · rw [hencoded.fragmentParts] at hp
    obtain ⟨i, group, -, hgroup, rfl⟩ := mem_encodeGroups hp
    refine ⟨i, group, fun record hrecord => hvalid.fragments record ?_, .inr rfl⟩
    exact hencoded.fragments_flatten ▸ List.mem_flatten.mpr ⟨group, hgroup, hrecord⟩

/-- Parts with the same path and the same bytes are the same. -/
theorem encodedParts_eq (hvalid : r.Valid py) (hvalid' : r'.Valid py)
    (he : encode py sha256 r = .ok e) (he' : encode py sha256 r' = .ok e')
    (hp : p ∈ e.encodedParts) (hq : q ∈ e'.encodedParts) (hpath : p.1.path = q.1.path)
    (hpayload : p.2 = q.2) : p = q := by
  obtain ⟨i, group, hgroup, rfl | rfl⟩ := mem_encodedParts hvalid he hp
  · obtain ⟨j, group', hgroup', rfl | rfl⟩ := mem_encodedParts hvalid' he' hq
    · exact encodeGroup_eq hgroup hgroup' hpath hpayload
    · exact absurd hpath (partPath_ne i j)
  · obtain ⟨j, group', hgroup', rfl | rfl⟩ := mem_encodedParts hvalid' he' hq
    · exact absurd hpath.symm (partPath_ne j i)
    · exact encodeGroup_eq hgroup hgroup' hpath hpayload

/-- No two parts of an encoding have one path. -/
theorem encodedParts_path_inj (he : encode py sha256 r = .ok e) (hp : p ∈ e.encodedParts)
    (hq : q ∈ e.encodedParts) (hpath : p.1.path = q.1.path) : p = q := by
  obtain ⟨elements, fragments, hencoded⟩ := encode_ok he
  rw [Encoded.encodedParts, hencoded.elementParts, hencoded.fragmentParts] at hp hq
  have hapart : ∀ p ∈ encodeGroups sha256 .elements "elements" 0 elements,
      ∀ q ∈ encodeGroups sha256 .fragments "fragments" 0 fragments, p.1.path ≠ q.1.path := by
    intro p hp q hq
    obtain ⟨i, g, -, -, rfl⟩ := mem_encodeGroups hp
    obtain ⟨j, g', -, -, rfl⟩ := mem_encodeGroups hq
    exact partPath_ne i j
  rcases List.mem_append.mp hp with hp | hp
  · rcases List.mem_append.mp hq with hq | hq
    · exact encodeGroups_path_inj hp hq hpath
    · exact absurd hpath (hapart p hp q hq)
  · rcases List.mem_append.mp hq with hq | hq
    · exact absurd hpath.symm (hapart q hq p hp)
    · exact encodeGroups_path_inj hp hq hpath

end Parts

/-! ## Publications with one identifier -/

section Identifier

variable (py : PythonRuntime) (sha256 : HexDigest)

/-- The byte strings a publication digests before it touches the store. -/
def digested (r : PublishRequest) : List (List UInt8) :=
  match encode py sha256 r with
  | .error _ => []
  | .ok e =>
    e.encodedParts.map Prod.snd ++
      ((canonicalJsonBytes py (.obj r.compatibility.asDict)).toOption.toList ++
        (canonicalJsonBytes py (artifactSeed r.identity e.compatibilitySha e.parts)).toOption.toList)

variable {py sha256} {r r' : PublishRequest} {e e' : Encoded}

theorem digested_ok (he : encode py sha256 r = .ok e) : digested py sha256 r =
    e.encodedParts.map Prod.snd ++
      ((canonicalJsonBytes py (.obj r.compatibility.asDict)).toOption.toList ++
        (canonicalJsonBytes py
          (artifactSeed r.identity e.compatibilitySha e.parts)).toOption.toList) := by
  rw [digested, he]

theorem payload_digested (he : encode py sha256 r = .ok e) {p : ArtifactPart × List UInt8}
    (hp : p ∈ e.encodedParts) : p.2 ∈ digested py sha256 r := by
  rw [digested_ok he]
  exact List.mem_append_left _ (List.mem_map_of_mem hp)

theorem compatibility_digested (he : encode py sha256 r = .ok e) :
    ∃ bytes ∈ digested py sha256 r, canonicalJsonBytes py (.obj r.compatibility.asDict) = .ok bytes ∧
      e.compatibilitySha = sha256.hexdigest bytes := by
  obtain ⟨elements, fragments, hencoded⟩ := encode_ok he
  obtain ⟨bytes, hbytes, hsha⟩ := Transaction.except_bind_ok.mp hencoded.compatibility
  refine ⟨bytes, ?_, hbytes, (Except.ok.inj hsha).symm⟩
  rw [digested_ok he, hbytes]
  exact List.mem_append_right _ (List.mem_append_left _ (List.mem_singleton_self _))

theorem seed_digested (he : encode py sha256 r = .ok e) :
    ∃ bytes ∈ digested py sha256 r,
      canonicalJsonBytes py (artifactSeed r.identity e.compatibilitySha e.parts) = .ok bytes ∧
        e.artifactId = sha256.hexdigest bytes := by
  obtain ⟨elements, fragments, hencoded⟩ := encode_ok he
  obtain ⟨bytes, hbytes, hsha⟩ := Transaction.except_bind_ok.mp hencoded.artifactId
  refine ⟨bytes, ?_, hbytes, (Except.ok.inj hsha).symm⟩
  rw [digested_ok he, hbytes]
  exact List.mem_append_right _ (List.mem_append_right _ (List.mem_singleton_self _))

/-- The same content: what two publications with one identifier agree in. -/
structure SameContent (py : PythonRuntime) (r r' : PublishRequest) (e e' : Encoded) : Prop where
  identity : r.identity = r'.identity
  encodedParts : e.encodedParts = e'.encodedParts
  compatibilitySha : e.compatibilitySha = e'.compatibilitySha
  compatibility : JsonObject.sorted r.compatibility.asDict = JsonObject.sorted r'.compatibility.asDict

/-- Requests among whose digested bytes the digest has no collisions. -/
def CollisionFree (py : PythonRuntime) (sha256 : HexDigest) (requests : Set PublishRequest) : Prop :=
  Set.InjOn sha256.hexdigest {bytes | ∃ r ∈ requests, bytes ∈ digested py sha256 r}

theorem sameContent {requests : Set PublishRequest} (hsha : CollisionFree py sha256 requests)
    (hr : r ∈ requests) (hr' : r' ∈ requests) (hvalid : r.Valid py) (hvalid' : r'.Valid py)
    (he : encode py sha256 r = .ok e) (he' : encode py sha256 r' = .ok e')
    (hid : e.artifactId = e'.artifactId) : SameContent py r r' e e' := by
  obtain ⟨seed, hmem, hseed, hdigest⟩ := seed_digested he
  obtain ⟨seed', hmem', hseed', hdigest'⟩ := seed_digested he'
  have hsame : seed = seed' := by
    apply hsha ⟨r, hr, hmem⟩ ⟨r', hr', hmem'⟩
    rw [← hdigest, hid, hdigest']
  subst hsame
  obtain ⟨hidentity, hcompatibility, hparts⟩ := artifactSeed_injective hseed hseed'
  refine ⟨hidentity, ?_, hcompatibility, ?_⟩
  · rw [Encoded.parts, Encoded.parts, List.map_map, List.map_map] at hparts
    refine map_injOn hparts fun p hp q hq hpq => ?_
    obtain ⟨hpath, hsum⟩ := Prod.mk.inj hpq
    have hpayload : p.2 = q.2 := by
      apply hsha ⟨r, hr, payload_digested he hp⟩ ⟨r', hr', payload_digested he' hq⟩
      obtain ⟨i, g, -, hp'⟩ := mem_encodedParts hvalid he hp
      obtain ⟨j, g', -, hq'⟩ := mem_encodedParts hvalid' he' hq
      rcases hp' with rfl | rfl <;> rcases hq' with rfl | rfl <;> exact hsum
    exact encodedParts_eq hvalid hvalid' he he' hp hq hpath hpayload
  · obtain ⟨bytes, hmem, hbytes, hdigest⟩ := compatibility_digested he
    obtain ⟨bytes', hmem', hbytes', hdigest'⟩ := compatibility_digested he'
    have hsame : bytes = bytes' := by
      apply hsha ⟨r, hr, hmem⟩ ⟨r', hr', hmem'⟩
      rw [← hdigest, hcompatibility, hdigest']
    subst hsame
    exact canonicalJsonBytes_injective hvalid.compatibility hvalid'.compatibility hbytes hbytes'

/-- Publications with the same content have the same manifest bytes. -/
theorem SameContent.manifestBytes {keyPrefix : String} {payload payload' : List UInt8}
    {p p' : PublishedArtifact} (h : SameContent py r r' e e') (hid : e.artifactId = e'.artifactId)
    (hp : Publication py sha256 keyPrefix r e payload p)
    (hp' : Publication py sha256 keyPrefix r' e' payload' p') : payload = payload' := by
  obtain ⟨hidentity, hcompat, hartifact, hdigest, hparts⟩ := manifestOfEncoded_ok hp.manifest
  obtain ⟨hidentity', hcompat', hartifact', hdigest', hparts'⟩ := manifestOfEncoded_ok hp'.manifest
  have hlist : p.manifest.parts = p'.manifest.parts := by
    rw [hparts, hparts', Encoded.parts, Encoded.parts, h.encodedParts]
  have hdict : (Json.obj (manifestDict p.manifest)).sorted =
      (Json.obj (manifestDict p'.manifest)).sorted := by
    have hcompatibility : (Json.obj p.manifest.compatibility.asDict).sorted =
        (Json.obj p'.manifest.compatibility.asDict).sorted := by
      rw [hcompat, hcompat', sorted_obj, sorted_obj, h.compatibility]
    rw [sorted_obj, sorted_obj, JsonObject.sorted, JsonObject.sorted, ← Json.sortFields_map,
      ← Json.sortFields_map]
    simp only [manifestDict, List.map_cons, List.map_nil, hcompatibility, hartifact, hartifact',
      hid, hidentity, hidentity', h.identity, hdigest, hdigest', h.compatibilitySha, hlist,
      totalsDict, p.manifest.elements_total, p'.manifest.elements_total,
      p.manifest.fragments_total, p'.manifest.fragments_total]
  have hbytes := hp.manifestBytes
  have hbytes' := hp'.manifestBytes
  rw [AstraIndexator.manifestBytes, canonicalJsonBytes_congr hdict,
    ← AstraIndexator.manifestBytes] at hbytes
  exact Except.ok.inj (hbytes.symm.trans hbytes')

end Identifier

end AstraIndexator
