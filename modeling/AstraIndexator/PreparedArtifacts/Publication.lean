import AstraIndexator.PreparedArtifacts.Streaming

/-!
# What a publication leaves in the store

A publication that succeeds leaves its parts and its manifest in the store, with
whatever faults the operations had on the way.  Every `put` of it is either one of
its parts, or its manifest when the parts are stored.
-/

namespace AstraIndexator

open Text Prog PreparedArtifactPublisher

/-! ## Objects in the store -/

theorem find_ok {s : ObjectStore} {key : String} {data : List UInt8} :
    StoreOp.find s key = .ok data ↔ ∃ path, objectPath key = .ok path ∧ s path = some data := by
  rw [StoreOp.find, Transaction.except_bind_ok]
  refine exists_congr fun path => and_congr_right fun _ => ?_
  cases s path with
  | none => simp [throw, throwThe, MonadExceptOf.throw]
  | some d => simp [pure, Except.pure]

/-- The store holds these objects. -/
def Holds (objects : List (String × List UInt8)) (s : ObjectStore) : Prop :=
  ∀ o ∈ objects, StoreOp.find s o.1 = .ok o.2

theorem Holds.keeps {objects : List (String × List UInt8)} {s s' : ObjectStore}
    (h : Holds objects s) (hs : ObjectStore.Keeps s s') : Holds objects s' := by
  intro o ho
  obtain ⟨path, hpath, hdata⟩ := find_ok.mp (h o ho)
  exact find_ok.mpr ⟨path, hpath, hs path o.2 hdata⟩

/-- Operations of the store, with faults perhaps, while others only add objects.  Only a
`put` has to be justified. -/
structure Serves {Choice : StoreOp → Type}
    (S : Setting StoreOp StoreOp.Result AstraError ObjectStore Choice) : Prop where
  rely : ∀ s s', S.rely s s' → ObjectStore.Keeps s s'
  answer : ∀ op c s a, (∀ key, op ≠ .iterBytes key) → (S.exec op c s).1 = .ok a →
    ∃ c', S.exec op c s = op.exec c' s
  guar : ∀ h op c s, (∀ key data contentType, op ≠ .put key data contentType) → S.guar h op c s

/-- From a store with `P`, the program returns with `Q` or raises. -/
abbrev StoreTriple {α : Type} {Choice : StoreOp → Type}
    (S : Setting StoreOp StoreOp.Result AstraError ObjectStore Choice)
    (P : ObjectStore → Prop) (p : StoreProg α) (Q : α → ObjectStore → Prop) : Prop :=
  Triple S (fun _ _ _ => True) (fun _ s => P s) p (fun a _ s => Q a s)

/-- Storing data at a key keeps the objects at other paths. -/
theorem Holds.insert {objects : List (String × List UInt8)} {key : String} {data : List UInt8}
    {s : ObjectStore} {path : List Char} (hpath : objectPath key = .ok path)
    (hfree : ∀ o ∈ objects, objectPath o.1 ≠ .ok path) (h : Holds objects s) :
    Holds ((key, data) :: objects) (s.insert path data) := by
  intro o ho
  rcases List.mem_cons.mp ho with rfl | ho
  · exact find_ok.mpr ⟨path, hpath, s.insert_self path data⟩
  · obtain ⟨path', hpath', hdata⟩ := find_ok.mp (h o ho)
    have hne : path' ≠ path := by
      rintro rfl
      exact hfree o ho hpath'
    exact find_ok.mpr ⟨path', hpath', by rwa [s.insert_of_ne data hne]⟩

section Publish

variable {Choice : StoreOp → Type}
  {S : Setting StoreOp StoreOp.Result AstraError ObjectStore Choice} (hS : Serves S)
  {objects : List (String × List UInt8)} {key contentType : String} {data : List UInt8}

include hS

/-- The rule for an operation that needs no justification. -/
theorem storeCall_triple {op : StoreOp} {Q : op.Result → ObjectStore → Prop}
    (hput : ∀ key data contentType, op ≠ .put key data contentType)
    (hiter : ∀ key, op ≠ .iterBytes key)
    (hok : ∀ c s a, Holds objects s → (op.exec c s).1 = .ok a → Q a (op.exec c s).2) :
    StoreTriple S (Holds objects) (call op) Q := by
  refine .call (fun _ s => Holds objects s) ?_ (fun h s c _ => hS.guar h op c s hput) ?_
    (fun _ _ _ _ _ _ => trivial)
  · intro h s s₁ hs hrely
    exact hs.keeps (hS.rely s s₁ hrely)
  · intro h s c a hs hexec
    obtain ⟨c', hsame⟩ := hS.answer op c s a hiter hexec
    rw [hsame] at hexec ⊢
    exact hok c' s a hs hexec

theorem objectExists_triple : StoreTriple S (Holds objects) (call (.objectExists key))
    (fun present s => Holds objects s ∧ (present = false → ∃ path, objectPath key = .ok path ∧
      ∀ o ∈ objects, objectPath o.1 ≠ .ok path)) := by
  refine storeCall_triple hS (by simp) (by simp) fun c s present hs hexec => ?_
  refine ⟨hs, fun habsent => ?_⟩
  cases hpath : objectPath key with
  | error e => simp [StoreOp.exec, hpath, Except.map] at hexec
  | ok path =>
    simp only [StoreOp.exec, hpath, Except.map, Except.ok.injEq] at hexec
    refine ⟨path, rfl, fun o ho hsame => ?_⟩
    obtain ⟨path', hpath', hdata⟩ := find_ok.mp (hs o ho)
    obtain rfl := Except.ok.inj (hpath'.symm.trans hsame)
    rw [hdata, habsent] at hexec
    cases hexec

theorem put_triple
    (hput : ∀ h c s, Holds objects s → S.guar h (.put key data contentType) c s)
    (hpath : ∃ path, objectPath key = .ok path ∧ ∀ o ∈ objects, objectPath o.1 ≠ .ok path) :
    StoreTriple S (Holds objects) (call (.put key data contentType))
      (fun _ s => Holds ((key, data) :: objects) s) := by
  obtain ⟨path, hpath, hfree⟩ := hpath
  refine .call (fun _ s => Holds objects s) ?_ (fun h s c hs => hput h c s hs) ?_
    (fun _ _ _ _ _ _ => trivial)
  · intro h s s₁ hs hrely
    exact hs.keeps (hS.rely s s₁ hrely)
  · intro h s c a hs hexec
    obtain ⟨c', hsame⟩ := hS.answer _ c s a (by simp) hexec
    rw [hsame]
    simp only [StoreOp.exec, hpath]
    exact hs.insert hpath hfree

theorem putIfAbsent_triple
    (hput : ∀ h c s, Holds objects s → S.guar h (.put key data contentType) c s) :
    StoreTriple S (Holds objects) (StoreProg.putIfAbsent key data contentType)
      (fun stored s => Holds objects s ∧ (stored = true → Holds ((key, data) :: objects) s)) := by
  rw [StoreProg.putIfAbsent]
  refine (objectExists_triple hS).bind fun present => ?_
  cases present with
  | true => exact .ret fun _ s hs => ⟨hs.1, fun h => by cases h⟩
  | false =>
    refine .of_pre (fun _ _ hs => hs.2 rfl) fun hpath => ?_
    refine Triple.bind (.pre (fun _ _ hs => hs.1) (put_triple hS hput hpath)) fun _ => ?_
    refine .ret fun _ s hs => ?_
    exact ⟨fun o ho => hs o (List.mem_cons_of_mem _ ho), fun _ => hs⟩

theorem get_triple : StoreTriple S (Holds objects) (call (.get key))
    (fun found s => Holds objects s ∧ StoreOp.find s key = .ok found) :=
  storeCall_triple hS (by simp) (by simp) fun _ _ _ hs hexec => ⟨hs, hexec⟩

theorem assertCurrentLease_triple {token : LeaseToken} : StoreTriple S (Holds objects)
    (call (.assertCurrentLease token)) (fun _ s => Holds objects s) := by
  refine storeCall_triple hS (by simp) (by simp) fun c s a hs hexec => ?_
  cases c with
  | none => exact hs
  | some e => cases hexec

theorem putImmutable_triple
    (hput : ∀ h c s, Holds objects s → S.guar h (.put key data contentType) c s) :
    StoreTriple S (Holds objects) (putImmutable key data contentType)
      (fun _ s => Holds ((key, data) :: objects) s) := by
  rw [putImmutable]
  refine (putIfAbsent_triple hS hput).bind fun stored => ?_
  cases stored with
  | true => exact .ret fun _ s hs => hs.2 rfl
  | false =>
    refine Triple.bind (.pre (fun _ _ hs => hs.1) (get_triple hS)) fun found => ?_
    by_cases hdata : found = data
    · rw [if_neg (not_not.mpr hdata)]
      refine .ret fun _ s hs => ?_
      rintro o (_ | ⟨_, ho⟩)
      · rw [hs.2, hdata]
      · exact hs.1 o ho
    · rw [if_pos hdata]
      exact .raise fun _ _ _ => trivial

omit hS in
/-- The objects of encoded parts below a root. -/
def partObjects (root : String) (parts : List (ArtifactPart × List UInt8)) :
    List (String × List UInt8) :=
  parts.map fun p => (root ++ "/" ++ p.1.path, p.2)

theorem putParts_triple {root : String} {token : LeaseToken}
    {parts : List (ArtifactPart × List UInt8)}
    (hput : ∀ o ∈ partObjects root parts, ∀ h c s,
      S.guar h (.put o.1 o.2 "application/x-ndjson") c s) :
    StoreTriple S (Holds objects) (putParts root token parts)
      (fun _ s => Holds (partObjects root parts) s ∧ Holds objects s) := by
  induction parts generalizing objects with
  | nil => exact .ret fun _ s hs => ⟨List.forall_mem_nil _, hs⟩
  | cons p rest ih =>
    have hfirst := hput (root ++ "/" ++ p.1.path, p.2) List.mem_cons_self
    have hrest := @ih ((root ++ "/" ++ p.1.path, p.2) :: objects)
      fun o ho => hput o (List.mem_cons_of_mem _ ho)
    rw [putParts]
    refine (assertCurrentLease_triple hS).bind fun _ => ?_
    refine (putImmutable_triple hS fun h c s _ => hfirst h c s).bind fun _ => ?_
    refine .post (fun _ _ s hs => ?_) hrest
    refine ⟨?_, fun o ho => hs.2 o (List.mem_cons_of_mem _ ho)⟩
    rintro o (_ | ⟨_, ho⟩)
    · exact hs.2 _ List.mem_cons_self
    · exact hs.1 o ho

end Publish

/-! ## What a publication leaves -/

section Publication

variable {py : PythonRuntime} {sha256 : HexDigest} {keyPrefix : String} {r : PublishRequest}

/-- The groups an encoding is made of. -/
structure EncodedFrom (py : PythonRuntime) (sha256 : HexDigest) (r : PublishRequest)
    (e : Encoded) (elements fragments : List (List JsonObject)) : Prop where
  elements_flatten : elements.flatten = r.elements
  fragments_flatten : fragments.flatten = r.fragments
  elementParts : e.elementParts = encodeGroups sha256 .elements "elements" 0 elements
  fragmentParts : e.fragmentParts = encodeGroups sha256 .fragments "fragments" 0 fragments
  elements_fit : ∀ g ∈ elements, Fits r.maxRecordsPerPart r.maxBytesPerPart g
  fragments_fit : ∀ g ∈ fragments, Fits r.maxRecordsPerPart r.maxBytesPerPart g
  elements_encodable : ∀ record ∈ r.elements, (Json.obj record).isEncodable py = true
  fragments_encodable : ∀ record ∈ r.fragments, (Json.obj record).isEncodable py = true
  compatibility : compatibilityDigest py sha256 r.compatibility = .ok e.compatibilitySha
  artifactId : artifactIdOf py sha256 r.identity e.compatibilitySha e.parts = .ok e.artifactId

theorem encode_ok {e : Encoded} (h : encode py sha256 r = .ok e) :
    ∃ elements fragments, EncodedFrom py sha256 r e elements fragments := by
  rw [encode, Transaction.except_guard_ok] at h
  obtain ⟨hlimits, h⟩ := h
  obtain ⟨elementParts, helements, h⟩ := Transaction.except_bind_ok.mp h
  obtain ⟨fragmentParts, hfragments, h⟩ := Transaction.except_bind_ok.mp h
  obtain ⟨compatibilitySha, hcompatibility, h⟩ := Transaction.except_bind_ok.mp h
  obtain ⟨artifactId, hartifact, h⟩ := Transaction.except_bind_ok.mp h
  obtain rfl := Except.ok.inj h
  have hpos : 0 < r.maxRecordsPerPart := by
    by_contra hle
    exact hlimits (.inl (Int.not_lt.mp hle))
  obtain ⟨hallE, elements, hflatE, hpartsE, hfitE⟩ := encodePartitioned_ok hpos helements
  obtain ⟨hallF, fragments, hflatF, hpartsF, hfitF⟩ := encodePartitioned_ok hpos hfragments
  exact ⟨elements, fragments, hflatE, hflatF, hpartsE, hpartsF, hfitE, hfitF, hallE, hallF,
    hcompatibility, hartifact⟩

/-- The manifest of a publication and its bytes. -/
structure Publication (py : PythonRuntime) (sha256 : HexDigest) (keyPrefix : String)
    (r : PublishRequest) (e : Encoded) (payload : List UInt8) (p : PublishedArtifact) : Prop where
  encode : encode py sha256 r = .ok e
  manifest : manifestOfEncoded r e = .ok p.manifest
  manifestBytes : manifestBytes py p.manifest = .ok payload
  manifestKey : p.manifestKey =
    artifactRoot (cleanPrefix keyPrefix) r.identity e.artifactId ++ "/manifest.json"
  manifestSha256 : p.manifestSha256 = sha256.hexdigest payload

/-- The objects of a publication. -/
def publicationObjects (keyPrefix : String) (r : PublishRequest) (e : Encoded)
    (payload : List UInt8) : List (String × List UInt8) :=
  let root := artifactRoot (cleanPrefix keyPrefix) r.identity e.artifactId
  (root ++ "/manifest.json", payload) :: partObjects root e.encodedParts

/-- Every `put` of a publication is one of its parts, or its manifest above stored parts. -/
theorem publish_triple {Choice : StoreOp → Type}
    {S : Setting StoreOp StoreOp.Result AstraError ObjectStore Choice} (hS : Serves S)
    (hparts : ∀ e, encode py sha256 r = .ok e →
      ∀ o ∈ partObjects (artifactRoot (cleanPrefix keyPrefix) r.identity e.artifactId)
        e.encodedParts, ∀ h c s, S.guar h (.put o.1 o.2 "application/x-ndjson") c s)
    (hmanifest : ∀ e payload p, Publication py sha256 keyPrefix r e payload p → ∀ h c s,
      Holds (partObjects (artifactRoot (cleanPrefix keyPrefix) r.identity e.artifactId)
        e.encodedParts) s → S.guar h (.put p.manifestKey payload "application/json") c s) :
    StoreTriple S (fun _ => True) (publish py sha256 keyPrefix r)
      (fun p s => ∃ e payload, Publication py sha256 keyPrefix r e payload p ∧
        Holds (publicationObjects keyPrefix r e payload) s) := by
  rw [publish]
  refine Triple.bind (Q := fun e _ _ => encode py sha256 r = .ok e)
    (.ofExcept (fun e _ _ he _ => he) fun _ _ _ _ _ => trivial) fun e => ?_
  refine .of_pre (fun _ _ he => he) fun he => ?_
  let root := artifactRoot (cleanPrefix keyPrefix) r.identity e.artifactId
  have hput : StoreTriple S (fun _ => True) (putParts root r.token e.encodedParts)
      (fun _ s => Holds (partObjects root e.encodedParts) s) :=
    .pre (P := fun _ s => Holds [] s) (fun _ s _ => List.forall_mem_nil _)
      (.post (fun _ _ _ hs => hs.1) (putParts_triple hS (hparts e he)))
  refine Triple.bind (.pre (fun _ _ _ => trivial) hput) fun _ => ?_
  refine Triple.bind (Q := fun m _ s => manifestOfEncoded r e = .ok m ∧
      Holds (partObjects root e.encodedParts) s)
    (.ofExcept (fun m _ s hm hs => ⟨hm, hs⟩) fun _ _ _ _ _ => trivial) fun m => ?_
  refine .of_pre (fun _ _ hm => hm.1) fun hm => ?_
  refine Triple.bind (Q := fun payload _ s => manifestBytes py m = .ok payload ∧
      Holds (partObjects root e.encodedParts) s)
    (.ofExcept (fun payload _ s hpayload hs => ⟨hpayload, hs.2⟩) fun _ _ _ _ _ => trivial)
    fun payload => ?_
  refine .of_pre (fun _ _ hpayload => hpayload.1) fun hpayload => ?_
  let published : PublishedArtifact := {
    manifest := m, manifestKey := root ++ "/manifest.json",
    manifestSha256 := sha256.hexdigest payload, manifestSha256_isHex := sha256.isHex payload }
  have hpublication : Publication py sha256 keyPrefix r e payload published :=
    ⟨he, hm, hpayload, rfl, rfl⟩
  refine Triple.bind (.pre (fun _ _ hs => hs.2) (assertCurrentLease_triple hS)) fun _ => ?_
  refine (putImmutable_triple hS (hmanifest e payload published hpublication)).bind fun _ => ?_
  exact .ret fun _ s hs => ⟨e, payload, hpublication, hs⟩

theorem make_manifest_ok {identity : ArtifactIdentity} {compatibility : ArtifactCompatibility}
    {artifactId compatibilitySha256 : String} {parts : List ArtifactPart}
    {totalElementCount totalFragmentCount : Int} {m : ArtifactManifest}
    (h : ArtifactManifest.make identity compatibility artifactId compatibilitySha256 parts
      totalElementCount totalFragmentCount = .ok m) :
    m.identity = identity ∧ m.compatibility = compatibility ∧ m.artifactId = artifactId ∧
      m.compatibilitySha256 = compatibilitySha256 ∧ m.parts = parts := by
  rw [ArtifactManifest.make] at h
  obtain ⟨hartifact, -, h⟩ := Transaction.except_bind_ok.mp h
  obtain ⟨hcompatibility, -, h⟩ := Transaction.except_bind_ok.mp h
  by_cases hpaths : (parts.map ArtifactPart.path).Nodup
  · rw [dif_pos hpaths, Transaction.except_guard_ok] at h
    obtain ⟨-, h⟩ := h
    rw [Transaction.except_guard_ok] at h
    obtain rfl := Except.ok.inj h.2
    exact ⟨rfl, rfl, rfl, rfl, rfl⟩
  · rw [dif_neg hpaths] at h
    cases h

theorem manifestOfEncoded_ok {e : Encoded} {m : ArtifactManifest}
    (h : manifestOfEncoded r e = .ok m) : m.identity = r.identity ∧
      m.compatibility = r.compatibility ∧ m.artifactId = e.artifactId ∧
      m.compatibilitySha256 = e.compatibilitySha ∧ m.parts = e.parts :=
  make_manifest_ok h

theorem Publication.sealed {e : Encoded} {payload : List UInt8} {p : PublishedArtifact}
    (h : Publication py sha256 keyPrefix r e payload p) : p.manifest.Sealed py sha256 := by
  obtain ⟨elements, fragments, hencoded⟩ := encode_ok h.encode
  obtain ⟨hidentity, hcompatibility, hartifact, hsha, hparts⟩ := manifestOfEncoded_ok h.manifest
  constructor
  · rw [hcompatibility, hsha, hencoded.compatibility]
  · rw [hidentity, hsha, hparts, hartifact, hencoded.artifactId]

end Publication

end AstraIndexator
