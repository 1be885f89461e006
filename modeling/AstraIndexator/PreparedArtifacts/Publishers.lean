import AstraIndexator.Foundation.Interleaving
import AstraIndexator.PreparedArtifacts.ContentAddress

/-!
# Concurrent publishers

Any number of publishers with one prefix, each stopped, refused or cut off
anywhere.  An object is stored below the identifier of its publication, so two
publishers that write one path write the same bytes there, and a manifest is
written only above stored parts.
-/

namespace AstraIndexator

open Text Prog DeliveryIdentity PreparedArtifactPublisher PreparedArtifactReader

/-! ## Paths -/

section Paths

theorem append_slash_inj {a b x y : List Char} (ha : '/' ∉ a) (hb : '/' ∉ b)
    (h : a ++ '/' :: x = b ++ '/' :: y) : a = b ∧ x = y := by
  induction a generalizing b with
  | nil =>
    cases b with
    | nil => exact ⟨rfl, (List.cons.inj h).2⟩
    | cons c b =>
      obtain rfl := (List.cons.inj h).1
      exact absurd List.mem_cons_self hb
  | cons c a ih =>
    cases b with
    | nil =>
      obtain rfl := (List.cons.inj h).1
      exact absurd List.mem_cons_self ha
    | cons d b =>
      obtain ⟨hhead, htail⟩ := List.cons.inj h
      obtain ⟨hab, hxy⟩ := ih (List.not_mem_of_not_mem_cons ha) (List.not_mem_of_not_mem_cons hb)
        htail
      exact ⟨by rw [hhead, hab], hxy⟩

theorem dropWhile_slash {cs : List Char} (h : cs.head? ≠ some '/') :
    cs.dropWhile (· = '/') = cs := by
  cases cs with
  | nil => rfl
  | cons c cs =>
    have hc : ¬ c = '/' := fun heq => h (congrArg some heq)
    rw [List.dropWhile_cons, if_neg (by simpa using hc)]

/-- Only slashes in front of a text that neither begins nor ends with one are removed. -/
theorem stripSlashes_append {front rest : List Char} (hne : rest ≠ [])
    (hhead : rest.head? ≠ some '/') (hlast : rest.getLast? ≠ some '/') :
    stripSlashes (front ++ rest) = front.dropWhile (· = '/') ++ rest := by
  have hfront : (front ++ rest).dropWhile (· = '/') = front.dropWhile (· = '/') ++ rest := by
    rw [List.dropWhile_append, dropWhile_slash hhead]
    by_cases hempty : (front.dropWhile (· = '/')).isEmpty = true
    · rw [if_pos hempty, List.isEmpty_iff.mp hempty, List.nil_append]
    · rw [if_neg hempty]
  have hback : (front.dropWhile (· = '/') ++ rest).reverse.head? ≠ some '/' := by
    rw [List.reverse_append, List.head?_append_of_ne_nil _ (List.reverse_ne_nil_iff.mpr hne),
      List.head?_reverse]
    exact hlast
  rw [stripSlashes, hfront, dropWhile_slash hback, List.reverse_reverse]

/-- The key of a file of an artifact. -/
def fileKey (keyPrefix : String) (identity : ArtifactIdentity) (artifactId tail : String) : String :=
  artifactRoot (cleanPrefix keyPrefix) identity artifactId ++ "/" ++ tail

/-- What stands after the prefix in the key of a file. -/
def fileTail (identity : ArtifactIdentity) (artifactId tail : String) : List Char :=
  (uuidText identity.documentId).toList ++ '/' :: ((toString identity.documentVersion).toList ++
    '/' :: (identity.sourceSha256.toList ++ '/' :: (artifactId.toList ++ '/' :: tail.toList)))

variable {keyPrefix : String} {identity identity' : ArtifactIdentity}
  {artifactId artifactId' tail tail' : String} {path : List Char}

theorem fileKey_toList : (fileKey keyPrefix identity artifactId tail).toList =
    ((cleanPrefix keyPrefix).toList ++ ['/']) ++ fileTail identity artifactId tail := by
  have hslash : "/".toList = ['/'] := rfl
  simp only [fileKey, artifactRoot, fileTail, String.toList_append, hslash, List.append_assoc,
    List.cons_append, List.nil_append]

theorem slash_not_mem_hex {s : String} (h : IsSha256Hex s) : '/' ∉ s.toList :=
  fun hmem => absurd (h.2 '/' hmem) (by decide)

theorem slash_not_mem_uuidText (id : UUID) : '/' ∉ (uuidText id).toList := by
  intro hmem
  have hdigit : '/' ∈ (uuidText id).toList.filter (fun c => c ≠ '-') :=
    List.mem_filter.mpr ⟨hmem, by decide⟩
  rw [uuidText_digits] at hdigit
  exact absurd (hexChars_isHexDigit _ _ _ hdigit) (by decide)

theorem slash_not_mem_version {version : Int} (h : 0 < version) :
    '/' ∉ (toString version).toList := by
  obtain ⟨n, rfl⟩ := Int.eq_ofNat_of_zero_le (Int.le_of_lt h)
  have htext : (toString (n : Int)).toList = Nat.toDigits 10 n := Nat.toList_repr
  rw [htext]
  intro hmem
  have hdigit := Nat.isDigit_of_mem_toDigits (by decide) (by decide) hmem
  exact absurd hdigit (by decide)

/-- The name of a file ends with a letter. -/
def IsFileName (tail : String) : Prop := ∃ c, tail.toList.getLast? = some c ∧ c ≠ '/'

theorem stripSlashes_fileKey (htail : IsFileName tail) :
    stripSlashes (fileKey keyPrefix identity artifactId tail).toList =
      ((cleanPrefix keyPrefix).toList ++ ['/']).dropWhile (· = '/') ++
        fileTail identity artifactId tail := by
  obtain ⟨c, hlast, hc⟩ := htail
  have huuid := uuidText_length identity.documentId
  obtain ⟨d, cs, hcs⟩ : ∃ d cs, (uuidText identity.documentId).toList = d :: cs := by
    cases hcs : (uuidText identity.documentId).toList with
    | nil => simp [hcs] at huuid
    | cons d cs => exact ⟨d, cs, rfl⟩
  have hd : d ≠ '/' := by
    rintro rfl
    exact slash_not_mem_uuidText identity.documentId (hcs ▸ List.mem_cons_self)
  have hne : fileTail identity artifactId tail ≠ [] := by
    rw [fileTail, hcs]
    exact List.cons_ne_nil _ _
  have hhead : (fileTail identity artifactId tail).head? ≠ some '/' := by
    rw [fileTail, hcs]
    exact fun heq => hd (Option.some.inj heq)
  have hback : (fileTail identity artifactId tail).getLast? ≠ some '/' := by
    have htailne : tail.toList ≠ [] := by
      intro hnil
      rw [hnil] at hlast
      cases hlast
    have heq : (fileTail identity artifactId tail).getLast? = some c := by
      simp only [fileTail, List.getLast?_append, List.getLast?_cons, hlast, Option.getD_some,
        Option.some_or]
    rw [heq]
    exact fun heq => hc (Option.some.inj heq)
  rw [fileKey_toList, stripSlashes_append hne hhead hback]

theorem objectPath_fileKey (htail : IsFileName tail)
    (h : objectPath (fileKey keyPrefix identity artifactId tail) = .ok path) :
    path = ((cleanPrefix keyPrefix).toList ++ ['/']).dropWhile (· = '/') ++
      fileTail identity artifactId tail := by
  simp only [objectPath, stripSlashes_fileKey htail] at h
  split at h
  · cases h
  · exact (Except.ok.inj h).symm

/-- A path determines the identifier it lies below and the name of the file. -/
theorem objectPath_inj (hid : IsSha256Hex artifactId) (hid' : IsSha256Hex artifactId')
    (htail : IsFileName tail) (htail' : IsFileName tail')
    (h : objectPath (fileKey keyPrefix identity artifactId tail) = .ok path)
    (h' : objectPath (fileKey keyPrefix identity' artifactId' tail') = .ok path) :
    artifactId = artifactId' ∧ tail = tail' := by
  have hpath := (objectPath_fileKey htail h).symm.trans (objectPath_fileKey htail' h')
  have hrest := List.append_cancel_left hpath
  obtain ⟨-, hrest⟩ := append_slash_inj (slash_not_mem_uuidText _) (slash_not_mem_uuidText _) hrest
  obtain ⟨-, hrest⟩ := append_slash_inj (slash_not_mem_version identity.documentVersion_pos)
    (slash_not_mem_version identity'.documentVersion_pos) hrest
  obtain ⟨-, hrest⟩ := append_slash_inj (slash_not_mem_hex identity.sourceSha256_isHex)
    (slash_not_mem_hex identity'.sourceSha256_isHex) hrest
  obtain ⟨hartifact, hrest⟩ := append_slash_inj (slash_not_mem_hex hid) (slash_not_mem_hex hid')
    hrest
  exact ⟨String.toList_injective hartifact, String.toList_injective hrest⟩

end Paths

/-! ## Files -/

section Files

variable (py : PythonRuntime) (sha256 : HexDigest) (keyPrefix : String)
  (requests : Set PublishRequest)

/-- The files of a publication: its parts and its manifest. -/
inductive IsFile (r : PublishRequest) (e : Encoded) : (tail : String) → (data : List UInt8) → Prop
  | part {p : ArtifactPart × List UInt8} (hp : p ∈ e.encodedParts) : IsFile r e p.1.path p.2
  | manifest {payload : List UInt8} {p : PublishedArtifact}
      (hp : Publication py sha256 keyPrefix r e payload p) : IsFile r e "manifest.json" payload

/-- One of the requests has this file at this key. -/
def Designated (key : String) (data : List UInt8) : Prop :=
  ∃ r ∈ requests, ∃ e, encode py sha256 r = .ok e ∧ ∃ tail,
    IsFile py sha256 keyPrefix r e tail data ∧ key = fileKey keyPrefix r.identity e.artifactId tail

def partsOf (r : PublishRequest) (e : Encoded) : List (String × List UInt8) :=
  partObjects (artifactRoot (cleanPrefix keyPrefix) r.identity e.artifactId) e.encodedParts

/-- A file may be written: it is designated, and a manifest finds its parts stored. -/
def Justified (s : ObjectStore) (key : String) (data : List UInt8) : Prop :=
  ∃ r ∈ requests, ∃ e, encode py sha256 r = .ok e ∧ ∃ tail,
    IsFile py sha256 keyPrefix r e tail data ∧
      key = fileKey keyPrefix r.identity e.artifactId tail ∧
        (tail = "manifest.json" → Holds (partsOf keyPrefix r e) s)

/-- Every object is designated, and where there is a manifest there are its parts. -/
structure Consistent (s : ObjectStore) : Prop where
  designated : ∀ path data, s path = some data →
    ∃ key, Designated py sha256 keyPrefix requests key data ∧ objectPath key = .ok path
  complete : ∀ r ∈ requests, ∀ e, encode py sha256 r = .ok e → ∀ data,
    StoreOp.find s (fileKey keyPrefix r.identity e.artifactId "manifest.json") = .ok data →
      Holds (partsOf keyPrefix r e) s

variable {py sha256 keyPrefix requests} {r r' : PublishRequest} {e e' : Encoded}
  {tail tail' key : String} {data data' : List UInt8} {path : List Char} {s : ObjectStore}

theorem Justified.designated (h : Justified py sha256 keyPrefix requests s key data) :
    Designated py sha256 keyPrefix requests key data := by
  obtain ⟨r, hr, e, he, tail, hfile, hkey, -⟩ := h
  exact ⟨r, hr, e, he, tail, hfile, hkey⟩

theorem consistent_empty : Consistent py sha256 keyPrefix requests ObjectStore.empty := by
  constructor
  · intro path data h
    cases h
  · intro r _ e _ data h
    obtain ⟨path, -, hdata⟩ := find_ok.mp h
    cases hdata

theorem IsPartPath.getLast? (h : IsPartPath tail) : tail.toList.getLast? = some 'l' := by
  obtain ⟨front, hfront⟩ := of_decide_eq_true h.2
  have hend : ".jsonl".toList.getLast? = some 'l' := rfl
  rw [← hfront, List.getLast?_append, hend]
  rfl

theorem IsFile.isFileName (h : IsFile py sha256 keyPrefix r e tail data) : IsFileName tail := by
  cases h with
  | part hp => exact ⟨'l', IsPartPath.getLast? (ArtifactPart.path_ok _), by decide⟩
  | manifest hp => exact ⟨'n', rfl, by decide⟩

theorem manifest_not_part {part : ArtifactPart} : part.path ≠ "manifest.json" := by
  intro h
  have hpart := part.path_ok
  rw [h] at hpart
  exact absurd hpart (by decide)

/-- Files at one path are files of one content, and the same file. -/
theorem same_file (hvalid : ∀ r ∈ requests, r.Valid py)
    (hsha : CollisionFree py sha256 requests) (hr : r ∈ requests) (hr' : r' ∈ requests)
    (he : encode py sha256 r = .ok e) (he' : encode py sha256 r' = .ok e')
    (hfile : IsFile py sha256 keyPrefix r e tail data)
    (hfile' : IsFile py sha256 keyPrefix r' e' tail' data')
    (hpath : objectPath (fileKey keyPrefix r.identity e.artifactId tail) = .ok path)
    (hpath' : objectPath (fileKey keyPrefix r'.identity e'.artifactId tail') = .ok path) :
    e.artifactId = e'.artifactId ∧ tail = tail' ∧ SameContent py r r' e e' ∧ data = data' := by
  have hhex : ∀ {r e}, encode py sha256 r = .ok e → IsSha256Hex e.artifactId := by
    intro r e he
    obtain ⟨bytes, -, -, hdigest⟩ := seed_digested he
    rw [hdigest]
    exact sha256.isHex bytes
  obtain ⟨hid, htail⟩ := objectPath_inj (hhex he) (hhex he') hfile.isFileName hfile'.isFileName
    hpath hpath'
  have hcontent := sameContent hsha hr hr' (hvalid r hr) (hvalid r' hr') he he' hid
  refine ⟨hid, htail, hcontent, ?_⟩
  cases hfile with
  | @part p hp =>
    generalize hq : p.1.path = name at htail
    cases hfile' with
    | @part q hp' =>
      rw [hcontent.encodedParts] at hp
      exact congrArg Prod.snd (encodedParts_path_inj he' hp hp' (hq.trans htail))
    | manifest hp' => exact absurd (hq.trans htail) manifest_not_part
  | manifest hp =>
    generalize hname : "manifest.json" = name at htail
    cases hfile' with
    | part hp' => exact absurd (hname.trans htail).symm manifest_not_part
    | manifest hp' => exact hcontent.manifestBytes hid hp hp'

/-- A justified write changes no object and keeps the store consistent. -/
theorem Justified.insert (hvalid : ∀ r ∈ requests, r.Valid py)
    (hsha : CollisionFree py sha256 requests) (hs : Consistent py sha256 keyPrefix requests s)
    (h : Justified py sha256 keyPrefix requests s key data) (hpath : objectPath key = .ok path) :
    ObjectStore.Keeps s (s.insert path data) ∧
      Consistent py sha256 keyPrefix requests (s.insert path data) := by
  have hdesignated := h.designated
  obtain ⟨r, hr, e, he, tail, hfile, rfl, hmanifest⟩ := h
  have hkeeps : ObjectStore.Keeps s (s.insert path data) := by
    refine ObjectStore.Keeps.insert fun old hold => ?_
    obtain ⟨key', ⟨r', hr', e', he', tail', hfile', rfl⟩, hpath'⟩ := hs.designated path old hold
    exact (same_file hvalid hsha hr' hr he' he hfile' hfile hpath' hpath).2.2.2
  refine ⟨hkeeps, ?_, ?_⟩
  · intro path' data' hdata
    by_cases heq : path' = path
    · subst heq
      rw [ObjectStore.insert_self] at hdata
      obtain rfl := Option.some.inj hdata
      exact ⟨_, hdesignated, hpath⟩
    · rw [s.insert_of_ne data heq] at hdata
      exact hs.designated path' data' hdata
  · intro r' hr' e' he' data' hfind
    obtain ⟨path', hpath', hdata⟩ := find_ok.mp hfind
    by_cases heq : path' = path
    · -- the manifest of `r'` is the file written: its parts were stored before
      subst heq
      obtain ⟨hid, htail⟩ : e'.artifactId = e.artifactId ∧ "manifest.json" = tail := by
        obtain ⟨bytes, -, -, hdigest⟩ := seed_digested he
        obtain ⟨bytes', -, -, hdigest'⟩ := seed_digested he'
        refine objectPath_inj ?_ ?_ ⟨'n', rfl, by decide⟩ hfile.isFileName hpath' hpath
        · rw [hdigest']
          exact sha256.isHex bytes'
        · rw [hdigest]
          exact sha256.isHex bytes
      have hcontent := sameContent hsha hr' hr (hvalid r' hr') (hvalid r hr) he' he hid
      have hsame : partsOf keyPrefix r' e' = partsOf keyPrefix r e := by
        rw [partsOf, partsOf, hcontent.identity, hid, hcontent.encodedParts]
      rw [hsame]
      exact (hmanifest htail.symm).keeps hkeeps
    · rw [s.insert_of_ne data heq] at hdata
      exact (hs.complete r' hr' e' he' data' (find_ok.mpr ⟨path', hpath', hdata⟩)).keeps hkeeps

end Files

/-! ## The system -/

section System

variable (py : PythonRuntime) (sha256 : HexDigest) (keyPrefix : String)
  (requests : Set PublishRequest) (Tid : Type)

/-- Publishers of the requests.  An operation may be refused, its answer may be lost, and
the lease may be gone; a publisher that is not scheduled again has crashed. -/
abbrev publishers : System Tid requests StoreOp StoreOp.Result AstraError PublishedArtifact
    ObjectStore where
  Choice := StoreOp.Fault
  exec _ := StoreOp.execFaulty
  program _ r := publish py sha256 keyPrefix r.1
  mayStart _ _ := true
  Move := Empty
  move m := nomatch m

/-- Every `put` is justified where it is performed. -/
def PublishDuty : (publishers py sha256 keyPrefix requests Tid).Duty :=
  fun _ _ _ _ op _ s => ∀ key data contentType, op = .put key data contentType →
    Justified py sha256 keyPrefix requests s key data

variable {py sha256 keyPrefix requests Tid}

/-- An operation changes nothing, or it is a `put` that stores its data. -/
theorem execFaulty_cases (op : StoreOp) (f : StoreOp.Fault op) (s : ObjectStore) :
    (StoreOp.execFaulty op f s).2 = s ∨ ∃ key data contentType path,
      op = .put key data contentType ∧ objectPath key = .ok path ∧
        (StoreOp.execFaulty op f s).2 = s.insert path data := by
  have hexec : ∀ c : op.Choice, (op.exec c s).2 = s ∨ ∃ key data contentType path,
      op = .put key data contentType ∧ objectPath key = .ok path ∧
        (op.exec c s).2 = s.insert path data := by
    intro c
    cases op with
    | put key data contentType =>
      cases hpath : objectPath key with
      | error e => exact .inl (by simp only [StoreOp.exec, hpath])
      | ok path =>
        exact .inr ⟨key, data, contentType, path, rfl, hpath, by simp only [StoreOp.exec, hpath]⟩
    | assertCurrentLease token =>
      cases c with
      | none => exact .inl rfl
      | some e => exact .inl rfl
    | objectExists key => exact .inl rfl
    | get key => exact .inl rfl
    | iterBytes key => exact .inl rfl
  cases f with
  | none c => exact hexec c
  | refused e => exact .inl rfl
  | lost c e => exact hexec c
  | interrupted c chunks e => exact hexec c

theorem publishers_exec (hvalid : ∀ r ∈ requests, r.Valid py)
    (hsha : CollisionFree py sha256 requests) {op : StoreOp} (f : StoreOp.Fault op)
    {s : ObjectStore} (hs : Consistent py sha256 keyPrefix requests s)
    (hduty : ∀ key data contentType, op = .put key data contentType →
      Justified py sha256 keyPrefix requests s key data) :
    Consistent py sha256 keyPrefix requests (StoreOp.execFaulty op f s).2 ∧
      ObjectStore.Keeps s (StoreOp.execFaulty op f s).2 := by
  rcases execFaulty_cases op f s with hsame | ⟨key, data, contentType, path, hop, hpath, hinsert⟩
  · rw [hsame]
    exact ⟨hs, .refl s⟩
  · rw [hinsert]
    obtain ⟨hkeeps, hconsistent⟩ := (hduty key data contentType hop).insert hvalid hsha hs hpath
    exact ⟨hconsistent, hkeeps⟩

theorem publishers_discipline (hvalid : ∀ r ∈ requests, r.Valid py)
    (hsha : CollisionFree py sha256 requests) :
    System.GuardedDiscipline (publishers py sha256 keyPrefix requests Tid)
      (Consistent py sha256 keyPrefix requests) (fun _ _ => True)
      (fun _ => ObjectStore.Keeps) (PublishDuty py sha256 keyPrefix requests Tid) where
  refl _ := .refl
  trans _ _ _ _ h h' := h.trans h'
  start _ _ _ _ := trivial
  move m := nomatch m
  exec tid input start h op f s hs _ hduty := by
    obtain ⟨hconsistent, hkeeps⟩ := publishers_exec hvalid hsha f hs hduty
    exact ⟨hconsistent, fun tid' _ => ⟨trivial, fun _ => hkeeps⟩⟩

/-- An operation that answers was performed. -/
theorem execFaulty_answer {op : StoreOp} {f : StoreOp.Fault op} {s : ObjectStore} {a : op.Result}
    (hiter : ∀ key, op ≠ .iterBytes key) (h : (StoreOp.execFaulty op f s).1 = .ok a) :
    ∃ c, StoreOp.execFaulty op f s = op.exec c s := by
  cases f with
  | none c => exact ⟨c, rfl⟩
  | refused e => cases h
  | lost c e => cases h
  | interrupted c chunks e =>
    have hsame : ∀ r, StoreOp.interrupt chunks e op r = r := by
      intro r
      cases op with
      | iterBytes key => exact absurd rfl (hiter key)
      | assertCurrentLease token => rfl
      | objectExists key => rfl
      | put key data contentType => rfl
      | get key => rfl
    refine ⟨c, Prod.ext ?_ rfl⟩
    simp only [StoreOp.execFaulty]
    cases (op.exec c s).1 with
    | error e' => rfl
    | ok r => exact congrArg Except.ok (hsame r)

variable [DecidableEq Tid]

theorem publishers_sound (hvalid : ∀ r ∈ requests, r.Valid py)
    (hsha : CollisionFree py sha256 requests)
    {w : (publishers py sha256 keyPrefix requests Tid).World}
    (hreach : System.Reaches
      (System.World.initial (publishers py sha256 keyPrefix requests Tid) ObjectStore.empty) w) :
    System.Sound (Consistent py sha256 keyPrefix requests) (fun _ _ => True)
      (fun _ => ObjectStore.Keeps) (PublishDuty py sha256 keyPrefix requests Tid)
      (fun _ _ _ _ _ _ => True) w := by
  refine (publishers_discipline hvalid hsha).sound _ (fun tid input s _ _ => ?_) consistent_empty
    hreach
  have hserves : Serves (System.setting (publishers py sha256 keyPrefix requests Tid)
      (Consistent py sha256 keyPrefix requests) (fun _ _ => True) (fun _ => ObjectStore.Keeps)
      (PublishDuty py sha256 keyPrefix requests Tid) tid input s) := by
    refine ⟨fun s s' h => h.2.2, fun op f s a hiter h => execFaulty_answer hiter h, ?_⟩
    intro h op f s hput key data contentType hop
    exact absurd hop (hput key data contentType)
  refine wp_mono (fun _ _ _ _ => trivial) (publish_triple hserves ?_ ?_ [] s trivial)
  · intro e he o ho h f s key data contentType hop
    obtain ⟨p, hp, rfl⟩ := List.mem_map.mp ho
    obtain ⟨rfl, rfl, -⟩ := StoreOp.put.inj hop
    exact ⟨input.1, input.2, e, he, p.1.path, .part hp, rfl,
      fun hname => absurd hname manifest_not_part⟩
  · intro e payload p hp h f s hholds key data contentType hop
    obtain ⟨rfl, rfl, -⟩ := StoreOp.put.inj hop
    have hname : "/manifest.json" = "/" ++ "manifest.json" := by decide
    have hkey : p.manifestKey = fileKey keyPrefix input.1.identity e.artifactId "manifest.json" := by
      rw [hp.manifestKey, fileKey, hname, String.append_assoc]
    exact ⟨input.1, input.2, e, hp.encode, _, .manifest hp, hkey, fun _ => hholds⟩

/-- From a reachable store on, every object keeps its bytes. -/
theorem publishers_keeps (hvalid : ∀ r ∈ requests, r.Valid py)
    (hsha : CollisionFree py sha256 requests)
    {w w' : (publishers py sha256 keyPrefix requests Tid).World}
    (hreach : System.Reaches
      (System.World.initial (publishers py sha256 keyPrefix requests Tid) ObjectStore.empty) w)
    (hlater : System.Reaches w w') : ObjectStore.Keeps w.shared w'.shared := by
  induction hlater with
  | refl => exact .refl _
  | @tail w₁ w₂ hbefore hstep ih =>
    obtain ⟨a, hstep⟩ := hstep
    have hsound := publishers_sound hvalid hsha (hreach.trans hbefore)
    rcases hsound.step hstep with hsame | ⟨m, -⟩ | ⟨tid, input, start, h, op, f, hs, -, hduty, hexec⟩
    · rwa [hsame]
    · exact nomatch m
    · rw [hexec]
      exact ih.trans (publishers_exec hvalid hsha f hs hduty).2

end System

/-! ## Stored manifests -/

section Loading

variable {py : PythonRuntime} {sha256 : HexDigest} {keyPrefix : String}
  {requests : Set PublishRequest} {s : ObjectStore} {key : String} {payload : List UInt8}

theorem objectPath_getLast? {path : List Char} {c : Char} (hlast : key.toList.getLast? = some c)
    (hc : c ≠ '/') (h : objectPath key = .ok path) : path.getLast? = some c := by
  obtain ⟨front, hfront⟩ := List.getLast?_eq_some_iff.mp hlast
  have hstrip : stripSlashes key.toList = front.dropWhile (· = '/') ++ [c] := by
    rw [hfront]
    exact stripSlashes_append (by simp) (by simpa using hc) (by simpa using hc)
  rw [objectPath] at h
  simp only [hstrip] at h
  split at h
  · cases h
  · rw [← Except.ok.inj h, List.getLast?_concat]

/-- The object is a manifest whose parts are stored with the digests, the lengths and the
record counts it names, and loading it returns the records of one of the requests. -/
def ManifestLoads (py : PythonRuntime) (sha256 : HexDigest) (keyPrefix : String)
    (requests : Set PublishRequest) (s : ObjectStore) (key : String) (payload : List UInt8) : Prop :=
  ∃ m, parseManifestBytes py sha256 payload = .ok m ∧
    (∀ part ∈ m.parts, ∃ data records,
      StoreOp.find s (fileKey keyPrefix m.identity m.artifactId part.path) = .ok data ∧
        sha256.hexdigest data = part.sha256 ∧ data.length = part.byteCount ∧
          readBytes py sha256 part data = .ok records ∧ records.length = part.recordCount) ∧
    ∀ expected : Option String, (∀ digest ∈ expected, digest = sha256.hexdigest payload) →
      ∀ h, wp storeSetting (loadAt py sha256 keyPrefix key expected) (fun loaded _ _ =>
        ∃ r ∈ requests, loaded = .ok { manifest := m,
                                       elements := r.elements.map JsonObject.sorted,
                                       fragments := r.fragments.map JsonObject.sorted }) h s

theorem Consistent.manifestLoads (hvalid : ∀ r ∈ requests, r.Valid py)
    (hs : Consistent py sha256 keyPrefix requests s) (hkey : endsWith key "/manifest.json" = true)
    (hfind : StoreOp.find s key = .ok payload) :
    ManifestLoads py sha256 keyPrefix requests s key payload := by
  obtain ⟨path, hpath, hdata⟩ := find_ok.mp hfind
  have hlast : path.getLast? = some 'n' := by
    obtain ⟨front, hfront⟩ := of_decide_eq_true hkey
    have hend : "/manifest.json".toList.getLast? = some 'n' := rfl
    refine objectPath_getLast? ?_ (by decide) hpath
    rw [← hfront, List.getLast?_append, hend]
    rfl
  obtain ⟨key', ⟨r, hr, e, he, tail, hfile, rfl⟩, hpath'⟩ := hs.designated path payload hdata
  cases hfile with
  | @part p hp =>
    have hpart : path.getLast? = some 'l' := by
      have hname : (p.1.path).toList.getLast? = some 'l' := IsPartPath.getLast? p.1.path_ok
      refine objectPath_getLast? ?_ (by decide) hpath'
      rw [fileKey, String.toList_append, List.getLast?_append, hname]
      rfl
    rw [hlast] at hpart
    exact absurd hpart (by decide)
  | @manifest _ p hp =>
    have hparts := hs.complete r hr e he payload (find_ok.mpr ⟨path, hpath', hdata⟩)
    obtain ⟨elements, fragments, hencoded⟩ := encode_ok he
    obtain ⟨hidentity, hcompatibility, hartifact, -, hlist⟩ := manifestOfEncoded_ok hp.manifest
    refine ⟨p.manifest.sorted, ?_, ?_, ?_⟩
    · exact parseManifestBytes_manifestBytes (hcompatibility ▸ (hvalid r hr).compatibility)
        hp.sealed hp.manifestBytes
    · intro part hpart
      change part ∈ p.manifest.parts at hpart
      rw [hlist, hencoded.parts_eq] at hpart
      obtain ⟨q, hq, rfl⟩ := List.mem_map.mp hpart
      obtain ⟨data, hstored, hread⟩ := hencoded.readable (hvalid r hr)
        (artifactRoot (cleanPrefix keyPrefix) r.identity e.artifactId) q hq
      obtain ⟨-, -, hlength, hdigest, hcount⟩ := readBytes_ok hread
      have hkey : fileKey keyPrefix p.manifest.sorted.identity p.manifest.sorted.artifactId
          q.1.path = fileKey keyPrefix r.identity e.artifactId q.1.path :=
        congrArg₂ (fun identity id => fileKey keyPrefix identity id q.1.path) hidentity hartifact
      refine ⟨data, q.2, ?_, hdigest, hlength, hread, hcount⟩
      rw [hkey, fileKey]
      exact hparts (artifactRoot (cleanPrefix keyPrefix) r.identity e.artifactId ++ "/" ++ q.1.path,
        data) hstored
    · intro expected hexpected h
      have hholds : Holds ((key, payload) :: partsOf keyPrefix r e) s :=
        List.forall_mem_cons.mpr ⟨hfind, hparts⟩
      refine wp_mono (fun loaded _ _ hloaded => ?_) (hp.loadAt_sure (hvalid r hr)
        List.mem_cons_self (fun o ho => List.mem_cons_of_mem _ ho) hexpected h s hholds)
      cases loaded with
      | ok a => exact ⟨r, hr, congrArg Except.ok hloaded⟩
      | error e => exact hloaded.elim

def emptyRequest : PublishRequest := { sampleRequest with elements := [], fragments := [] }

theorem emptyRequest_valid : emptyRequest.Valid plainRuntime :=
  ⟨List.forall_mem_nil _, List.forall_mem_nil _, sampleRequest_valid.compatibility⟩

theorem collisionFree_emptyRequest : CollisionFree plainRuntime Sha256.hexDigest {emptyRequest} := by
  have hnodup : ((digested plainRuntime Sha256.hexDigest emptyRequest).map
      Sha256.hexDigest.hexdigest).Nodup := by decide +kernel
  rintro a ⟨r, rfl, ha⟩ b ⟨r', rfl, hb⟩ hab
  exact List.inj_on_of_nodup_map hnodup ha hb hab

abbrev samplePublishers : System (Fin 2) ({emptyRequest} : Set PublishRequest) StoreOp
    StoreOp.Result AstraError PublishedArtifact ObjectStore :=
  publishers plainRuntime Sha256.hexDigest "prepared/v1" {emptyRequest} (Fin 2)

/-- Both publishers have started the same publication. -/
def sampleWorld : samplePublishers.World :=
  samplePublishers.startThread (samplePublishers.startThread
    (System.World.initial samplePublishers ObjectStore.empty) 0 ⟨emptyRequest, rfl⟩) 1
      ⟨emptyRequest, rfl⟩

end Loading

end AstraIndexator
