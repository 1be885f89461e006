import AstraIndexator.PreparedArtifacts.Publication

/-!
# Publish and load

The objects a publication left in the store are loaded as the records that were
published.
-/

namespace AstraIndexator

open Text Prog PreparedArtifactPublisher

/-- Others may add objects between two operations, and change none. -/
abbrev storeSetting : Setting StoreOp StoreOp.Result AstraError ObjectStore StoreOp.Choice where
  exec := StoreOp.exec
  rely := ObjectStore.Keeps
  guar _ _ _ _ := True

theorem serves_storeSetting : Serves storeSetting :=
  ⟨fun _ _ h => h, fun _ c _ _ _ _ => ⟨c, rfl⟩, fun _ _ _ _ _ => trivial⟩

/-! ## Reading -/

/-- From a store with `P`, the program returns with `Q`. -/
abbrev StoreSure {α : Type} (P : ObjectStore → Prop) (p : StoreProg α)
    (Q : α → ObjectStore → Prop) : Prop :=
  Triple storeSetting (fun _ _ _ => False) (fun _ s => P s) p (fun a _ s => Q a s)

section Load

variable {py : PythonRuntime} {sha256 : HexDigest} {keyPrefix root key : String}
  {objects : List (String × List UInt8)} {data : List UInt8}

open PreparedArtifactReader

theorem get_sure (hdata : (key, data) ∈ objects) : StoreSure (Holds objects) (call (.get key))
    (fun found s => found = data ∧ Holds objects s) := by
  refine .call (fun _ s => Holds objects s) ?_ (fun _ _ _ _ => trivial) ?_ ?_
  · intro h s s₁ hs hrely
    exact hs.keeps hrely
  · intro h s c found hs hexec
    have hfind : StoreOp.find s key = .ok found := hexec
    rw [hs (key, data) hdata] at hfind
    exact ⟨(Except.ok.inj hfind).symm, hs⟩
  · intro h s c e hs hexec
    have hfind : StoreOp.find s key = .error e := hexec
    rw [hs (key, data) hdata] at hfind
    cases hfind

theorem iterBytes_sure (hdata : (key, data) ∈ objects) :
    StoreSure (Holds objects) (call (.iterBytes key))
      (fun (stream : ByteStream) s =>
        (∃ chunks, stream = ByteStream.mk chunks none ∧ chunks.flatten = data) ∧
          Holds objects s) := by
  refine .call (fun _ s => Holds objects s) ?_ (fun _ _ _ _ => trivial) ?_ ?_
  · intro h s s₁ hs hrely
    exact hs.keeps hrely
  · intro h s cut stream hs hexec
    simp only [StoreOp.exec, hs (key, data) hdata, Except.map, Except.ok.injEq] at hexec
    exact ⟨⟨cut.chunks data, hexec.symm, cut.join data⟩, hs⟩
  · intro h s cut e hs hexec
    simp only [StoreOp.exec, hs (key, data) hdata, Except.map] at hexec
    cases hexec

/-- A part whose bytes are stored is read as its bytes are. -/
theorem streamPart_sure {part : ArtifactPart} {records : List JsonObject}
    (hdata : (key, data) ∈ objects) (hread : readBytes py sha256 part data = .ok records) :
    StoreSure (Holds objects) (streamPart py sha256 key part)
      (fun found s => found = records ∧ Holds objects s) := by
  rw [streamPart]
  refine (iterBytes_sure hdata).bind fun stream => ?_
  intro h s hs
  obtain ⟨⟨chunks, rfl, hflatten⟩, hholds⟩ := hs
  rw [readStream_eq, hflatten, hread]
  exact ⟨rfl, hholds⟩

/-- The records of one kind among parts with their records. -/
def recordsOf (kind : PartKind) (read : List (ArtifactPart × List JsonObject)) : List JsonObject :=
  ((read.filter (·.1.kind = kind)).map Prod.snd).flatten

theorem recordsOf_cons_eq {kind : PartKind} {p : ArtifactPart × List JsonObject}
    (h : p.1.kind = kind) (read : List (ArtifactPart × List JsonObject)) :
    recordsOf kind (p :: read) = p.2 ++ recordsOf kind read := by
  simp [recordsOf, h]

theorem recordsOf_cons_ne {kind : PartKind} {p : ArtifactPart × List JsonObject}
    (h : p.1.kind ≠ kind) (read : List (ArtifactPart × List JsonObject)) :
    recordsOf kind (p :: read) = recordsOf kind read := by
  simp [recordsOf, h]

theorem recordsOf_append (kind : PartKind) (xs ys : List (ArtifactPart × List JsonObject)) :
    recordsOf kind (xs ++ ys) = recordsOf kind xs ++ recordsOf kind ys := by
  rw [recordsOf, List.filter_append, List.map_append, List.flatten_append, ← recordsOf,
    ← recordsOf]

theorem recordTotal_cons (kind : PartKind) (part : ArtifactPart) (parts : List ArtifactPart) :
    recordTotal kind (part :: parts) =
      (if part.kind = kind then part.recordCount else 0) + recordTotal kind parts := by
  by_cases h : part.kind = kind
  · simp [recordTotal, h]
  · simp [recordTotal, h]

/-- Stored parts, each with the records its bytes are read as. -/
def Readable (py : PythonRuntime) (sha256 : HexDigest) (root : String)
    (objects : List (String × List UInt8)) (read : List (ArtifactPart × List JsonObject)) : Prop :=
  ∀ p ∈ read, ∃ data, (root ++ "/" ++ p.1.path, data) ∈ objects ∧
    readBytes py sha256 p.1 data = .ok p.2

theorem length_recordsOf {read : List (ArtifactPart × List JsonObject)}
    (hread : Readable py sha256 root objects read) (kind : PartKind) :
    (recordsOf kind read).length = recordTotal kind (read.map Prod.fst) := by
  induction read with
  | nil => rfl
  | cons p read ih =>
    obtain ⟨data, -, hdata⟩ := hread p List.mem_cons_self
    obtain ⟨-, -, -, -, hcount⟩ := readBytes_ok hdata
    have hrest := ih fun q hq => hread q (List.mem_cons_of_mem _ hq)
    rw [List.map_cons, recordTotal_cons]
    by_cases hkind : p.1.kind = kind
    · rw [recordsOf_cons_eq hkind, List.length_append, hcount, hrest, if_pos hkind]
    · rw [recordsOf_cons_ne hkind, hrest, if_neg hkind, Nat.zero_add]

theorem loadParts_sure {read : List (ArtifactPart × List JsonObject)}
    {elements fragments : List JsonObject} (hread : Readable py sha256 root objects read) :
    StoreSure (Holds objects)
      (loadParts py sha256 root (read.map Prod.fst) elements fragments)
      (fun loaded s => loaded = (elements ++ recordsOf .elements read,
        fragments ++ recordsOf .fragments read) ∧ Holds objects s) := by
  induction read generalizing elements fragments with
  | nil =>
    refine .ret fun _ s hs => ⟨?_, hs⟩
    rw [recordsOf, recordsOf, List.filter_nil, List.filter_nil, List.map_nil, List.flatten_nil,
      List.append_nil, List.append_nil]
  | cons p read ih =>
    obtain ⟨data, hstored, hdata⟩ := hread p List.mem_cons_self
    have hrest : Readable py sha256 root objects read :=
      fun q hq => hread q (List.mem_cons_of_mem _ hq)
    rw [List.map_cons, loadParts]
    refine (streamPart_sure hstored hdata).bind fun records => ?_
    refine .of_pre (fun _ _ hs => hs.1) fun hrecords => .pre (fun _ _ hs => hs.2) ?_
    subst hrecords
    cases hkind : p.1.kind with
    | elements =>
      have hne : p.1.kind ≠ .fragments := by
        rw [hkind]
        decide
      rw [recordsOf_cons_eq hkind, recordsOf_cons_ne hne, ← List.append_assoc]
      exact ih hrest
    | fragments =>
      have hne : p.1.kind ≠ .elements := by
        rw [hkind]
        decide
      rw [recordsOf_cons_eq hkind, recordsOf_cons_ne hne, ← List.append_assoc]
      exact ih hrest

/-- Loading a manifest whose parts are stored returns the records of its parts. -/
theorem load_sure {m : ArtifactManifest} {read : List (ArtifactPart × List JsonObject)}
    (hparts : m.parts = read.map Prod.fst)
    (hread : Readable py sha256 (artifactRoot (cleanPrefix keyPrefix) m.identity m.artifactId)
      objects read) :
    StoreSure (Holds objects) (load py sha256 keyPrefix m)
      (fun loaded s => loaded = { manifest := m, elements := recordsOf .elements read,
                                  fragments := recordsOf .fragments read } ∧ Holds objects s) := by
  have hcounts : ¬ ((recordsOf .elements read).length ≠ m.totalElementCount ∨
      (recordsOf .fragments read).length ≠ m.totalFragmentCount) := by
    rw [m.elements_total, m.fragments_total, hparts, length_recordsOf hread,
      length_recordsOf hread]
    simp
  rw [load, hparts]
  refine (loadParts_sure hread).bind fun loaded => ?_
  refine .of_pre (fun _ _ hs => hs.1) fun hloaded => .pre (fun _ _ hs => hs.2) ?_
  subst hloaded
  simp only [List.nil_append, if_neg hcounts]
  exact .ret fun _ s hs => ⟨rfl, hs⟩

/-- Loading the bytes of a sealed manifest returns it. -/
theorem loadManifest_sure {m : ArtifactManifest} {expected : Option String}
    (hvalid : m.compatibility.Valid py) (hsealed : m.Sealed py sha256)
    (hbytes : manifestBytes py m = .ok data) (hdata : (key, data) ∈ objects)
    (hexpected : ∀ digest ∈ expected, digest = sha256.hexdigest data) :
    StoreSure (Holds objects) (loadManifest py sha256 key expected)
      (fun found s => found = m.sorted ∧ Holds objects s) := by
  rw [loadManifest]
  refine (get_sure hdata).bind fun payload => ?_
  refine .of_pre (fun _ _ hs => hs.1) fun hpayload => .pre (fun _ _ hs => hs.2) ?_
  subst hpayload
  have hdigest : ¬ (expected ≠ none ∧ expected ≠ some (sha256.hexdigest payload)) := by
    cases expected with
    | none => exact fun h => h.1 rfl
    | some digest => exact fun h => h.2 (congrArg some (hexpected digest rfl))
  rw [if_neg hdigest, parseManifestBytes_manifestBytes hvalid hsealed hbytes]
  exact fun h s hs => ⟨rfl, hs⟩

end Load

/-! ## Publish, then load -/

section RoundTrip

variable {py : PythonRuntime} {sha256 : HexDigest} {keyPrefix root : String} {kind : PartKind}
  {stem : String} {r : PublishRequest}

open PreparedArtifactReader

/-- The parts of groups, each with the records read from it. -/
def readGroups (sha256 : HexDigest) (kind : PartKind) (stem : String) :
    Nat → List (List JsonObject) → List (ArtifactPart × List JsonObject)
  | _, [] => []
  | index, group :: groups =>
    ((encodeGroup sha256 kind stem index group).1, group.map JsonObject.sorted) ::
      readGroups sha256 kind stem (index + 1) groups

theorem readGroups_parts (index : Nat) (groups : List (List JsonObject)) :
    (readGroups sha256 kind stem index groups).map Prod.fst =
      (encodeGroups sha256 kind stem index groups).map Prod.fst := by
  induction groups generalizing index with
  | nil => rfl
  | cons group groups ih => rw [readGroups, encodeGroups, List.map_cons, List.map_cons, ih]

theorem recordsOf_readGroups (index : Nat) (groups : List (List JsonObject)) :
    recordsOf kind (readGroups sha256 kind stem index groups) =
      groups.flatten.map JsonObject.sorted := by
  induction groups generalizing index with
  | nil => rfl
  | cons group groups ih =>
    have hkind : (encodeGroup sha256 kind stem index group).1.kind = kind := rfl
    rw [readGroups, recordsOf_cons_eq hkind, ih, List.flatten_cons, List.map_append]

theorem recordsOf_readGroups_ne {kind' : PartKind} (h : kind ≠ kind') (index : Nat)
    (groups : List (List JsonObject)) :
    recordsOf kind' (readGroups sha256 kind stem index groups) = [] := by
  induction groups generalizing index with
  | nil => rfl
  | cons group groups ih =>
    rw [readGroups, recordsOf_cons_ne h, ih]

/-- Encoded groups are read as their records. -/
theorem readable_readGroups {groups : List (List JsonObject)} (index : Nat)
    (hvalid : ∀ group ∈ groups, ∀ record ∈ group, Json.Valid py (.obj record))
    (hencodable : ∀ group ∈ groups, ∀ record ∈ group, (Json.obj record).isEncodable py = true) :
    Readable py sha256 root (partObjects root (encodeGroups sha256 kind stem index groups))
      (readGroups sha256 kind stem index groups) := by
  induction groups generalizing index with
  | nil => exact List.forall_mem_nil _
  | cons group groups ih =>
    intro p hp
    rw [readGroups] at hp
    rcases List.mem_cons.mp hp with rfl | hp
    · refine ⟨payloadOf group, List.mem_cons_self, ?_⟩
      exact readBytes_payloadOf (hvalid group List.mem_cons_self)
        (hencodable group List.mem_cons_self)
    · have hrest := ih (index + 1) (fun g hg => hvalid g (List.mem_cons_of_mem _ hg))
        fun g hg => hencodable g (List.mem_cons_of_mem _ hg)
      obtain ⟨data, hstored, hdata⟩ := hrest p hp
      exact ⟨data, List.mem_cons_of_mem _ hstored, hdata⟩

/-- Records and a compatibility that are JSON objects. -/
structure PreparedArtifactPublisher.PublishRequest.Valid (py : PythonRuntime)
    (r : PublishRequest) : Prop where
  elements : ∀ record ∈ r.elements, Json.Valid py (.obj record)
  fragments : ∀ record ∈ r.fragments, Json.Valid py (.obj record)
  compatibility : r.compatibility.Valid py

/-- The parts of an encoding, each with the records read from it. -/
def EncodedFrom.read (sha256 : HexDigest) (elements fragments : List (List JsonObject)) :
    List (ArtifactPart × List JsonObject) :=
  readGroups sha256 .elements "elements" 0 elements ++
    readGroups sha256 .fragments "fragments" 0 fragments

section Encoded

variable {e : Encoded} {elements fragments : List (List JsonObject)}
  (h : EncodedFrom py sha256 r e elements fragments)

include h

theorem EncodedFrom.parts_eq :
    e.parts = (EncodedFrom.read sha256 elements fragments).map Prod.fst := by
  rw [Encoded.parts, Encoded.encodedParts, EncodedFrom.read, List.map_append, List.map_append,
    readGroups_parts, readGroups_parts, h.elementParts, h.fragmentParts]

theorem EncodedFrom.elements_eq :
    recordsOf .elements (EncodedFrom.read sha256 elements fragments) =
      r.elements.map JsonObject.sorted := by
  rw [EncodedFrom.read, recordsOf_append, recordsOf_readGroups,
    recordsOf_readGroups_ne (by decide), List.append_nil, h.elements_flatten]

theorem EncodedFrom.fragments_eq :
    recordsOf .fragments (EncodedFrom.read sha256 elements fragments) =
      r.fragments.map JsonObject.sorted := by
  rw [EncodedFrom.read, recordsOf_append, recordsOf_readGroups,
    recordsOf_readGroups_ne (by decide), List.nil_append, h.fragments_flatten]

theorem EncodedFrom.readable (hvalid : r.Valid py) (root : String) :
    Readable py sha256 root (partObjects root e.encodedParts)
      (EncodedFrom.read sha256 elements fragments) := by
  have hflat : ∀ groups : List (List JsonObject), ∀ group ∈ groups, ∀ record ∈ group,
      record ∈ groups.flatten :=
    fun groups group hgroup record hrecord => List.mem_flatten.mpr ⟨group, hgroup, hrecord⟩
  have helements : Readable py sha256 root (partObjects root e.elementParts)
      (readGroups sha256 .elements "elements" 0 elements) := by
    rw [h.elementParts]
    refine readable_readGroups 0 (fun g hg record hrecord => ?_) fun g hg record hrecord => ?_
    · exact hvalid.elements record (h.elements_flatten ▸ hflat elements g hg record hrecord)
    · exact h.elements_encodable record (h.elements_flatten ▸ hflat elements g hg record hrecord)
  have hfragments : Readable py sha256 root (partObjects root e.fragmentParts)
      (readGroups sha256 .fragments "fragments" 0 fragments) := by
    rw [h.fragmentParts]
    refine readable_readGroups 0 (fun g hg record hrecord => ?_) fun g hg record hrecord => ?_
    · exact hvalid.fragments record (h.fragments_flatten ▸ hflat fragments g hg record hrecord)
    · exact h.fragments_encodable record
        (h.fragments_flatten ▸ hflat fragments g hg record hrecord)
  intro p hp
  rw [Encoded.encodedParts, partObjects, List.map_append]
  rcases List.mem_append.mp hp with hp | hp
  · obtain ⟨data, hstored, hdata⟩ := helements p hp
    exact ⟨data, List.mem_append_left _ hstored, hdata⟩
  · obtain ⟨data, hstored, hdata⟩ := hfragments p hp
    exact ⟨data, List.mem_append_right _ hstored, hdata⟩

end Encoded

/-- A part whose object is stored and which keeps to the limits. -/
structure WithinLimits (maxRecords maxBytes : Int) (root : String) (s : ObjectStore)
    (part : ArtifactPart) (payload : List UInt8) : Prop where
  stored : StoreOp.find s (root ++ "/" ++ part.path) = .ok payload
  bytes : (payload.length : Int) ≤ maxBytes
  byteCount : part.byteCount = payload.length
  recordCount : (part.recordCount : Int) ≤ maxRecords

theorem fits_encodeGroups {maxRecords maxBytes : Int} {groups : List (List JsonObject)}
    (hfits : ∀ group ∈ groups, Fits maxRecords maxBytes group) (index : Nat) :
    ∀ p ∈ encodeGroups sha256 kind stem index groups, (p.2.length : Int) ≤ maxBytes ∧
      p.1.byteCount = p.2.length ∧ (p.1.recordCount : Int) ≤ maxRecords := by
  induction groups generalizing index with
  | nil => exact List.forall_mem_nil _
  | cons group groups ih =>
    have hgroup := hfits group List.mem_cons_self
    rw [encodeGroups]
    refine List.forall_mem_cons.mpr ⟨⟨hgroup.bytes, rfl, hgroup.records⟩, ?_⟩
    exact ih (fun g hg => hfits g (List.mem_cons_of_mem _ hg)) (index + 1)

/-- Load the manifest at a key, and then its parts. -/
def loadAt (py : PythonRuntime) (sha256 : HexDigest) (keyPrefix key : String)
    (expectedSha256 : Option String) : StoreProg PreparedArtifact := do
  let manifest ← loadManifest py sha256 key expectedSha256
  load py sha256 keyPrefix manifest

/-- The artifact a publication is loaded as. -/
def PreparedArtifactPublisher.PublishRequest.artifact (r : PublishRequest)
    (p : PublishedArtifact) : PreparedArtifact where
  manifest := p.manifest.sorted
  elements := r.elements.map JsonObject.sorted
  fragments := r.fragments.map JsonObject.sorted

section Stored

variable {e : Encoded} {payload : List UInt8} {p : PublishedArtifact}
  {objects : List (String × List UInt8)} {key : String} (hvalid : r.Valid py)
  (h : Publication py sha256 keyPrefix r e payload p)

include hvalid h

/-- The manifest of a publication is loaded from its bytes. -/
theorem Publication.loadManifest_sure {expected : Option String}
    (hmanifest : (key, payload) ∈ objects)
    (hexpected : ∀ digest ∈ expected, digest = sha256.hexdigest payload) :
    StoreSure (Holds objects) (loadManifest py sha256 key expected)
      (fun found s => found = p.manifest.sorted ∧ Holds objects s) := by
  obtain ⟨-, hcompatibility, -, -, -⟩ := manifestOfEncoded_ok h.manifest
  have hcompat : p.manifest.compatibility.Valid py := hcompatibility ▸ hvalid.compatibility
  exact AstraIndexator.loadManifest_sure hcompat h.sealed h.manifestBytes hmanifest hexpected

/-- The parts of a publication are loaded as its records. -/
theorem Publication.load_sure
    (hparts : ∀ o ∈ partObjects (artifactRoot (cleanPrefix keyPrefix) r.identity e.artifactId)
      e.encodedParts, o ∈ objects) :
    StoreSure (Holds objects) (load py sha256 keyPrefix p.manifest.sorted)
      (fun loaded _ => loaded = r.artifact p) := by
  obtain ⟨elements, fragments, hencoded⟩ := encode_ok h.encode
  obtain ⟨hidentity, -, hartifact, -, hlist⟩ := manifestOfEncoded_ok h.manifest
  have hsorted : p.manifest.sorted.parts =
      (EncodedFrom.read sha256 elements fragments).map Prod.fst := by
    rw [← hencoded.parts_eq, ← hlist]
    rfl
  have hread : Readable py sha256 (artifactRoot (cleanPrefix keyPrefix) p.manifest.sorted.identity
      p.manifest.sorted.artifactId) objects (EncodedFrom.read sha256 elements fragments) := by
    change Readable py sha256 (artifactRoot (cleanPrefix keyPrefix) p.manifest.identity
      p.manifest.artifactId) _ _
    rw [hidentity, hartifact]
    intro q hq
    obtain ⟨data, hstored, hdata⟩ := hencoded.readable hvalid _ q hq
    exact ⟨data, hparts _ hstored, hdata⟩
  refine .post (fun loaded _ s hs => ?_) (AstraIndexator.load_sure hsorted hread)
  rw [hs.1, hencoded.elements_eq, hencoded.fragments_eq]
  rfl

/-- The objects of a publication are loaded as its records. -/
theorem Publication.loadAt_sure {expected : Option String} (hmanifest : (key, payload) ∈ objects)
    (hparts : ∀ o ∈ partObjects (artifactRoot (cleanPrefix keyPrefix) r.identity e.artifactId)
      e.encodedParts, o ∈ objects)
    (hexpected : ∀ digest ∈ expected, digest = sha256.hexdigest payload) :
    StoreSure (Holds objects) (loadAt py sha256 keyPrefix key expected)
      (fun loaded _ => loaded = { manifest := p.manifest.sorted,
                                  elements := r.elements.map JsonObject.sorted,
                                  fragments := r.fragments.map JsonObject.sorted }) := by
  rw [loadAt]
  refine (h.loadManifest_sure hvalid hmanifest hexpected).bind fun m => ?_
  refine .of_pre (fun _ _ hs => hs.1) fun hm => .pre (fun _ _ hs => hs.2) ?_
  subst hm
  exact h.load_sure hvalid hparts

end Stored

/-- What a publication that succeeded promises about a store. -/
structure RoundTrips (py : PythonRuntime) (sha256 : HexDigest) (keyPrefix : String)
    (r : PublishRequest) (p : PublishedArtifact) (h : List (Event StoreOp StoreOp.Result AstraError))
    (s : ObjectStore) : Prop where
  identity : p.manifest.identity = r.identity
  compatibility : p.manifest.compatibility = r.compatibility
  limits : ∀ part ∈ p.manifest.parts, ∃ payload, WithinLimits r.maxRecordsPerPart
    r.maxBytesPerPart (artifactRoot (cleanPrefix keyPrefix) r.identity p.manifest.artifactId) s
    part payload
  parsed : ∃ payload, manifestBytes py p.manifest = .ok payload ∧
    parseManifestBytes py sha256 payload = .ok p.manifest.sorted
  loaded : wp storeSetting
    (loadAt py sha256 keyPrefix p.manifestKey (some p.manifestSha256))
    (fun loaded _ _ => loaded = .ok { manifest := p.manifest.sorted,
                                      elements := r.elements.map JsonObject.sorted,
                                      fragments := r.fragments.map JsonObject.sorted }) h s

theorem Publication.roundTrips {e : Encoded} {payload : List UInt8} {p : PublishedArtifact}
    {h : List (Event StoreOp StoreOp.Result AstraError)} {s : ObjectStore}
    (hvalid : r.Valid py) (hp : Publication py sha256 keyPrefix r e payload p)
    (hs : Holds (publicationObjects keyPrefix r e payload) s) :
    RoundTrips py sha256 keyPrefix r p h s := by
  obtain ⟨elements, fragments, hencoded⟩ := encode_ok hp.encode
  obtain ⟨hidentity, hcompatibility, hartifact, -, hparts⟩ := manifestOfEncoded_ok hp.manifest
  constructor
  · exact hidentity
  · exact hcompatibility
  · intro part hpart
    rw [hparts, Encoded.parts] at hpart
    obtain ⟨q, hq, rfl⟩ := List.mem_map.mp hpart
    have hfits : (q.2.length : Int) ≤ r.maxBytesPerPart ∧ q.1.byteCount = q.2.length ∧
        (q.1.recordCount : Int) ≤ r.maxRecordsPerPart := by
      rcases List.mem_append.mp hq with hq | hq
      · exact fits_encodeGroups hencoded.elements_fit 0 q (hencoded.elementParts ▸ hq)
      · exact fits_encodeGroups hencoded.fragments_fit 0 q (hencoded.fragmentParts ▸ hq)
    refine ⟨q.2, ?_, hfits.1, hfits.2.1, hfits.2.2⟩
    rw [hartifact]
    exact hs (artifactRoot (cleanPrefix keyPrefix) r.identity e.artifactId ++ "/" ++ q.1.path, q.2)
      (List.mem_cons_of_mem _ (List.mem_map.mpr ⟨q, hq, rfl⟩))
  · refine ⟨payload, hp.manifestBytes, ?_⟩
    exact parseManifestBytes_manifestBytes (hcompatibility ▸ hvalid.compatibility) hp.sealed
      hp.manifestBytes
  · have hmanifest : (p.manifestKey, payload) ∈ publicationObjects keyPrefix r e payload := by
      rw [hp.manifestKey]
      exact List.mem_cons_self
    refine wp_mono (fun outcome _ _ hloaded => ?_) (hp.loadAt_sure hvalid hmanifest
      (fun o ho => List.mem_cons_of_mem _ ho) (fun digest hdigest => ?_) h s hs)
    · cases outcome with
      | ok loaded => exact congrArg Except.ok hloaded
      | error e => exact hloaded.elim
    · rw [← hp.manifestSha256]
      exact (Option.some.inj hdigest).symm

/-- Whatever others add to the store meanwhile and afterwards, and however its objects are
cut into chunks, a publication that succeeds is loaded back. -/
theorem publish_roundTrips (py : PythonRuntime) (sha256 : HexDigest) (keyPrefix : String)
    (r : PublishRequest) (hvalid : r.Valid py) (s : ObjectStore) :
    wp storeSetting (publish py sha256 keyPrefix r)
      (fun outcome h s' => ∀ p, outcome = .ok p → RoundTrips py sha256 keyPrefix r p h s') [] s := by
  refine wp_mono (fun outcome h s' hout p hp => ?_) (publish_triple serves_storeSetting
    (fun _ _ _ _ _ _ _ => trivial) (fun _ _ _ _ _ _ _ _ => trivial) [] s trivial)
  subst hp
  obtain ⟨e, payload, hpublication, hs⟩ := hout
  exact hpublication.roundTrips hvalid hs

/-- A runtime that takes the literal of a float for its `repr`. -/
def plainRuntime : PythonRuntime where
  floatRepr := id
  truncate? _ := none
  decimal? _ := none
  maxDigits := 4300
  decodeWide? _ _ := none

def sampleCompatibility : ArtifactCompatibility where
  schemaVersion := .str "1"
  parserName := .str "docling"
  parserVersion := .str "2"
  parserProfile := .str "default"
  normalizerVersion := .str "1"
  splitterProfile := .str "default"
  splitterVersion := .str "1"
  splitterConfig := [("targetWords", .int 180), ("maxWords", .int 220)]
  ocr_complete := rfl
  ocr_isHex digest h := by cases h

def sampleIdentity : ArtifactIdentity where
  documentId := 5
  documentVersion := 1
  sourceSha256 := "aaaaaaaaaaaaaaaaaaaaaaaaaaaaaaaaaaaaaaaaaaaaaaaaaaaaaaaaaaaaaaaa"
  documentVersion_pos := Int.one_pos
  sourceSha256_isHex := by decide

def sampleRequest : PublishRequest where
  token := { jobId := 7, workerId := "worker", leaseGeneration := 1, attemptId := 3 }
  identity := sampleIdentity
  compatibility := sampleCompatibility
  elements := [[("id", .int 1)]]
  fragments := [[("text", .str "a\nb"), ("score", .float "0.5")], [("text", .str "c")]]
  maxRecordsPerPart := 1

theorem sampleRequest_valid : sampleRequest.Valid plainRuntime := by
  have hfloat : Json.IsFloatRepr plainRuntime "0.5" := by
    refine .inr ⟨?_, by rfl⟩
    exact List.forall_mem_cons.mpr ⟨rfl, List.forall_mem_cons.mpr ⟨rfl,
      List.forall_mem_singleton.mpr rfl⟩⟩
  constructor
  · refine List.forall_mem_singleton.mpr (.obj (by decide) ?_)
    exact List.forall_mem_singleton.mpr (.int 1)
  · refine List.forall_mem_cons.mpr ⟨.obj (by decide) ?_, ?_⟩
    · refine List.forall_mem_cons.mpr ⟨.str _, ?_⟩
      exact List.forall_mem_singleton.mpr (.float hfloat)
    · refine List.forall_mem_singleton.mpr (.obj (by decide) ?_)
      exact List.forall_mem_singleton.mpr (.str _)
  · have hempty : Json.Valid plainRuntime (.obj []) := .obj List.nodup_nil (List.forall_mem_nil _)
    refine .obj (by decide) fun f hf => ?_
    simp only [ArtifactCompatibility.asDict, sampleRequest, sampleCompatibility, optionalText,
      List.mem_cons, List.not_mem_nil, or_false] at hf
    rcases hf with rfl | rfl | rfl | rfl | rfl | rfl | rfl | rfl | rfl | rfl | rfl | rfl | rfl
    all_goals first | exact .str _ | exact .null | exact hempty | skip
    refine .obj (by decide) (List.forall_mem_cons.mpr ⟨.int _, ?_⟩)
    exact List.forall_mem_singleton.mpr (.int _)

/-- Whether there is a value. -/
def isOk {α : Type} : Except AstraError α → Bool
  | .ok _ => true
  | .error _ => false

theorem publish_roundTrips_sample :
    isOk (encode plainRuntime Sha256.hexDigest sampleRequest) = true ∧
      wp storeSetting (publish plainRuntime Sha256.hexDigest "/prepared/v1/" sampleRequest)
        (fun outcome h s => ∀ p, outcome = .ok p →
          RoundTrips plainRuntime Sha256.hexDigest "/prepared/v1/" sampleRequest p h s)
        [] ObjectStore.empty :=
  ⟨by decide +kernel, publish_roundTrips plainRuntime Sha256.hexDigest "/prepared/v1/" sampleRequest
    sampleRequest_valid ObjectStore.empty⟩

end RoundTrip

end AstraIndexator
