import AstraIndexator.Foundation.JsonEncodable
import AstraIndexator.PreparedArtifacts.LoadedManifest

/-!
# What the parser of a manifest raises

The guarded block turns the three exceptions it names into corruption errors.  An attribute
looked up on a value that is no text and an infinite number raise others, and so do the
canonical bytes behind the block.  Every place where that happens is named here, and at
every other input the parser keeps its contract.
-/

namespace AstraIndexator

open Text DeliveryIdentity PyJson Transaction

namespace Loaded

variable {rt : JsonRuntime}

/-- `ArtifactCorruptionError` -/
def IsCorruption (e : AstraError) : Prop := ∃ message, e = artifactCorruptionError message

theorem isCorruption (message : String) : IsCorruption (artifactCorruptionError message) :=
  ⟨message, rfl⟩

/-- The guarded block makes a corruption error of it:
`except (KeyError, TypeError, ValueError)`. -/
def Caught (e : AstraError) : Prop := isSchemaError e = true ∨ IsCorruption e

theorem caught_valueError (message : String) : Caught (valueError message) := .inl rfl

theorem caught_typeError (message : String) : Caught (typeError message) := .inl rfl

theorem caught_keyError (key : String) : Caught (keyError key) := by
  left
  simp [isSchemaError, keyError]

theorem not_caught_attributeError (message : String) : ¬ Caught (attributeError message) := by
  simp [Caught, IsCorruption, isSchemaError, attributeError, artifactCorruptionError]

theorem not_caught_overflowError (message : String) : ¬ Caught (overflowError message) := by
  simp [Caught, IsCorruption, isSchemaError, overflowError, artifactCorruptionError]

/-! ## Fields and members -/

theorem getItem_ok_iff {value item : PyJson} {key : String} :
    getItem value key = .ok item ↔ item? value key = some item := by
  cases value with
  | dict fields =>
    rw [getItem]
    cases item? (.dict fields) key <;> simp
  | _ => simp [getItem, item?]

theorem raises_getItem (value : PyJson) (key : String) : Raises Caught (getItem value key) := by
  cases value with
  | dict fields =>
    rw [getItem]
    cases item? (.dict fields) key with
    | some item => exact .ok item
    | none => exact .error (caught_keyError key)
  | _ => exact .error (caught_typeError _)

/-- A value with a field is a dictionary. -/
theorem getOrNull_of_item {value item : PyJson} {key : String} (h : item? value key = some item)
    (other : String) : getOrNull value other = .ok ((item? value other).getD .null) := by
  cases value with
  | dict fields => rfl
  | _ => cases h

theorem iterate_ok_iff {value : PyJson} {items : List PyJson} :
    iterate value = .ok items ↔ members? value = some items := by
  rw [iterate]
  cases members? value <;> simp

theorem raises_iterate (value : PyJson) : Raises Caught (iterate value) := by
  rw [iterate]
  cases members? value with
  | some items => exact .ok items
  | none => exact .error (caught_typeError _)

theorem hashKey_ok_iff {value : PyJson} {key : KeyForm} :
    hashKey rt value = .ok key ↔ keyForm? rt value = some key := by
  rw [hashKey]
  cases keyForm? rt value <;> simp

theorem raises_hashKey (value : PyJson) : Raises Caught (hashKey rt value) := by
  rw [hashKey]
  cases keyForm? rt value with
  | some key => exact .ok key
  | none => exact .error (caught_typeError _)

theorem raises_setOf (value : PyJson) : Raises Caught (setOf rt value) :=
  .bind (raises_iterate value) fun _ => .mapM fun item _ => raises_hashKey item

/-! ## Digests -/

/-- Sixty-four members, each of them a stretch of the hexadecimal digits. -/
def IsDigest (value : PyJson) : Prop :=
  ∃ members, members? value = some members ∧ members.length = 64 ∧
    ∀ c ∈ members, ∃ s, c = .str s ∧ s <:+: codePoints "0123456789abcdef"

theorem hexMember_ok_iff {name : String} {c : PyJson} :
    hexMember name c = .ok () ↔ ∃ s, c = .str s ∧ s <:+: codePoints "0123456789abcdef" := by
  cases c with
  | str s =>
    rw [hexMember]
    split <;> simp_all
  | _ => simp [hexMember]

theorem validateSha256_ok_iff {name : String} {value : PyJson} :
    validateSha256 name value = .ok () ↔ IsDigest value := by
  rw [validateSha256, except_bind_ok]
  refine exists_congr fun members => ?_
  rw [iterate_ok_iff, except_guard_ok, Decidable.not_not, Traverse.forM_eq_ok]
  exact and_congr_right fun _ => and_congr_right fun _ =>
    forall₂_congr fun c _ => hexMember_ok_iff

theorem raises_validateSha256 (name : String) (value : PyJson) :
    Raises Caught (validateSha256 name value) := by
  refine .bind (raises_iterate value) fun members => ?_
  refine .guard (caught_valueError _) (.forM fun c _ => ?_)
  cases c with
  | str s =>
    rw [hexMember]
    exact .ite (.ok ()) (.error (caught_valueError _))
  | _ => exact .error (caught_typeError _)

/-! ## Numbers and identifiers -/

/-- What `int(value)` is. -/
inductive ReadsInt (rt : JsonRuntime) : PyJson → Int → Prop
  | int (n : Int) : ReadsInt rt (.int n) n
  | bool (b : Bool) : ReadsInt rt (.bool b) (if b then 1 else 0)
  | float {repr : String} {n : Int} (h : rt.truncate? repr = some n) : ReadsInt rt (.float repr) n
  | str {s : CodePoints} {text : String} {n : Int} (htext : textOf? s = some text)
    (h : intOfText? rt.toPythonRuntime 10 text.toList = some n) : ReadsInt rt (.str s) n

/-- The value is an infinite number. -/
def IsInfinite (rt : JsonRuntime) (value : PyJson) : Prop :=
  ∃ repr, value = .float repr ∧ rt.truncate? repr = none ∧ repr ≠ "nan"

theorem intOf_ok_iff {value : PyJson} {n : Int} :
    intOf rt value = .ok n ↔ ReadsInt rt value n := by
  constructor
  · intro h
    cases value with
    | int m =>
      obtain rfl := Except.ok.inj h
      exact .int _
    | bool b =>
      obtain rfl := Except.ok.inj h
      exact .bool b
    | float repr =>
      rw [intOf] at h
      cases hn : rt.truncate? repr with
      | some m =>
        rw [hn] at h
        obtain rfl := Except.ok.inj h
        exact .float hn
      | none =>
        rw [hn] at h
        dsimp only at h
        split at h <;> cases h
    | str s =>
      rw [intOf] at h
      cases hn : (textOf? s).bind fun text => intOfText? rt.toPythonRuntime 10 text.toList with
      | some m =>
        rw [hn] at h
        obtain rfl := Except.ok.inj h
        obtain ⟨text, htext, htextInt⟩ := Option.bind_eq_some_iff.mp hn
        exact .str htext htextInt
      | none =>
        rw [hn] at h
        cases h
    | _ => cases h
  · intro h
    cases h with
    | int => rfl
    | bool b => rfl
    | float h => rw [intOf, h]
    | str htext h => rw [intOf, htext, Option.bind_some, h]

theorem raises_intOf_iff {value : PyJson} :
    Raises Caught (intOf rt value) ↔ ¬ IsInfinite rt value := by
  cases value with
  | float repr =>
    rw [intOf]
    cases hn : rt.truncate? repr with
    | some m =>
      refine iff_of_true (.ok m) ?_
      rintro ⟨other, heq, hother, -⟩
      obtain rfl := PyJson.float.inj heq
      rw [hn] at hother
      cases hother
    | none =>
      dsimp only
      by_cases hnan : repr = "nan"
      · rw [if_pos hnan]
        refine iff_of_true (.error (caught_valueError _)) ?_
        rintro ⟨other, heq, -, hother⟩
        obtain rfl := PyJson.float.inj heq
        exact hother hnan
      · rw [if_neg hnan, Raises.error_iff]
        exact iff_of_false (not_caught_overflowError _) fun h => h ⟨repr, rfl, hn, hnan⟩
  | str s =>
    rw [intOf]
    refine iff_of_true ?_ nofun
    cases (textOf? s).bind fun text => intOfText? rt.toPythonRuntime 10 text.toList with
    | some m => exact .ok m
    | none => exact .error (caught_valueError _)
  | int n | bool b => exact iff_of_true (.ok _) nofun
  | null | list items | dict fields => exact iff_of_true (.error (caught_typeError _)) nofun

/-- What `UUID(value)` is. -/
def ReadsUuid (rt : JsonRuntime) (value : PyJson) (id : UUID) : Prop :=
  ∃ s text, value = .str s ∧ textOf? s = some text ∧
    AstraIndexator.uuidOf rt.toPythonRuntime (.str text) = .ok id

/-- The value is there and is no text. -/
def IsNoText (value : PyJson) : Prop := value ≠ .null ∧ ∀ s, value ≠ .str s

theorem uuidOf_ok_iff {value : PyJson} {id : UUID} :
    uuidOf rt value = .ok id ↔ ReadsUuid rt value id := by
  constructor
  · intro h
    cases value with
    | str s =>
      rw [uuidOf] at h
      cases htext : textOf? s with
      | some text =>
        rw [htext] at h
        exact ⟨s, text, rfl, htext, h⟩
      | none =>
        rw [htext] at h
        cases h
    | _ => cases h
  · rintro ⟨s, text, rfl, htext, h⟩
    rw [uuidOf, htext]
    exact h

theorem raises_uuidOf_text (py : PythonRuntime) (text : String) :
    Raises Caught (AstraIndexator.uuidOf py (.str text)) := by
  rw [AstraIndexator.uuidOf]
  refine .ite (.error (caught_valueError _)) ?_
  split
  · exact .error (caught_valueError _)
  · exact .ite (.ok _) (.error (caught_valueError _))

theorem raises_uuidOf_iff {value : PyJson} :
    Raises Caught (uuidOf rt value) ↔ ¬ IsNoText value := by
  cases value with
  | str s =>
    refine iff_of_true ?_ fun h => h.2 s rfl
    rw [uuidOf]
    cases textOf? s with
    | some text => exact raises_uuidOf_text rt.toPythonRuntime text
    | none => exact .error (caught_valueError _)
  | null => exact iff_of_true (.error (caught_typeError _)) fun h => h.1 rfl
  | bool b | int n | float repr | list items | dict fields =>
    exact Raises.error_iff.trans
      (iff_of_false (not_caught_attributeError _) fun h => h ⟨nofun, nofun⟩)

/-! ## Configurations -/

/-- A sequence of two members, the first of which can be a key. -/
def ReadsPair (rt : JsonRuntime) (item : PyJson) (pair : PyJson × PyJson) : Prop :=
  members? item = some [pair.1, pair.2] ∧ keyForm? rt pair.1 ≠ none

/-- What `dict(value or {})` is. -/
inductive ReadsConfig (rt : JsonRuntime) : PyJson → List (PyJson × PyJson) → Prop
  | empty {value : PyJson} (h : isTruthy value = false) : ReadsConfig rt value []
  | dict {fields : List (PyJson × PyJson)} (h : isTruthy (.dict fields) = true) :
    ReadsConfig rt (.dict fields) fields
  | pairs {value : PyJson} {items : List PyJson} {pairs : List (PyJson × PyJson)}
    (h : isTruthy value = true) (hdict : ∀ fields, value ≠ .dict fields)
    (hitems : members? value = some items) (hpairs : List.Forall₂ (ReadsPair rt) items pairs) :
    ReadsConfig rt value (dictOf rt pairs)

theorem pairOf_ok_iff {item : PyJson} {pair : PyJson × PyJson} :
    pairOf rt item = .ok pair ↔ ReadsPair rt item pair := by
  obtain ⟨key, value⟩ := pair
  rw [pairOf, ReadsPair]
  split
  · rename_i hnone
    rw [hnone]
    exact iff_of_false nofun fun h => nomatch h.1
  · rename_i k v hmembers
    rw [hmembers, hashKey]
    cases hkey : keyForm? rt k with
    | none =>
      refine iff_of_false nofun fun h => ?_
      obtain ⟨rfl, -⟩ := List.cons.inj (Option.some.inj h.1)
      exact h.2 hkey
    | some form =>
      constructor
      · intro h
        obtain ⟨rfl, rfl⟩ := Prod.mk.inj (Except.ok.inj h)
        exact ⟨rfl, by rw [hkey]; exact Option.some_ne_none form⟩
      · intro h
        obtain ⟨rfl, hrest⟩ := List.cons.inj (Option.some.inj h.1)
        obtain ⟨rfl, -⟩ := List.cons.inj hrest
        rfl
  · rename_i members hpair hmembers
    refine iff_of_false nofun fun h => ?_
    exact hpair key value (Option.some.inj (hmembers.symm.trans h.1))

theorem raises_pairOf (item : PyJson) : Raises Caught (pairOf rt item) := by
  rw [pairOf]
  split
  · exact .error (caught_typeError _)
  · exact .map (raises_hashKey _)
  · exact .error (caught_valueError _)

theorem dictOrEmpty_ok_iff {value : PyJson} {fields : List (PyJson × PyJson)} :
    dictOrEmpty rt value = .ok fields ↔ ReadsConfig rt value fields := by
  rw [dictOrEmpty.eq_def]
  by_cases htruthy : isTruthy value = true
  · rw [if_neg (by simp [htruthy])]
    split
    · rename_i own
      constructor
      · intro h
        obtain rfl := Except.ok.inj h
        exact .dict htruthy
      · intro h
        cases h with
        | empty h =>
          rw [htruthy] at h
          cases h
        | dict => rfl
        | pairs h hdict => exact absurd rfl (hdict own)
    · rename_i hdict
      constructor
      · intro h
        obtain ⟨items, hitems, h⟩ := except_bind_ok.mp h
        obtain ⟨pairs, hpairs, h⟩ := except_bind_ok.mp h
        obtain rfl := Except.ok.inj h
        refine .pairs htruthy hdict (iterate_ok_iff.mp hitems) ?_
        exact (Traverse.mapM_eq_ok.mp hpairs).imp fun _ _ => pairOf_ok_iff.mp
      · intro h
        cases h with
        | empty h =>
          rw [htruthy] at h
          cases h
        | dict => exact absurd rfl (hdict _)
        | pairs h hdict hitems hpairs =>
          rw [iterate_ok_iff.mpr hitems, except_ok_bind,
            Traverse.mapM_eq_ok.mpr (hpairs.imp fun _ _ => pairOf_ok_iff.mpr)]
          rfl
  · rw [Bool.not_eq_true] at htruthy
    rw [if_pos (by simp [htruthy])]
    constructor
    · intro h
      obtain rfl := Except.ok.inj h
      exact .empty htruthy
    · intro h
      cases h with
      | empty => rfl
      | dict h | pairs h =>
        rw [htruthy] at h
        cases h

theorem raises_dictOrEmpty (value : PyJson) : Raises Caught (dictOrEmpty rt value) := by
  rw [dictOrEmpty.eq_def]
  refine .ite (.ok []) ?_
  split
  · exact .ok _
  · exact .bind (raises_iterate _) fun items =>
      .bind (.mapM fun item _ => raises_pairOf item) fun _ => .ok _

/-! ## Compatibility -/

/-- The OCR identity is complete or fully absent, and its digest is one. -/
def IsOcr (modelId artifactRevision manifestSha256 : PyJson) : Prop :=
  (isNull modelId = true ∧ isNull artifactRevision = true ∧ isNull manifestSha256 = true) ∨
    (isNull modelId = false ∧ isNull artifactRevision = false ∧ isNull manifestSha256 = false ∧
      IsDigest manifestSha256)

theorem checkOcr_ok_iff {modelId artifactRevision manifestSha256 : PyJson} :
    checkOcr modelId artifactRevision manifestSha256 = .ok () ↔
      IsOcr modelId artifactRevision manifestSha256 := by
  rw [checkOcr, IsOcr, except_guard_ok]
  cases isNull modelId <;> cases isNull artifactRevision <;> cases isNull manifestSha256 <;>
    simp [validateSha256_ok_iff, pure, Except.pure]

theorem raises_checkOcr (modelId artifactRevision manifestSha256 : PyJson) :
    Raises Caught (checkOcr modelId artifactRevision manifestSha256) := by
  refine .guard (caught_valueError _) (.ite ?_ (.ok ()))
  exact raises_validateSha256 _ _

/-- The value of a key, or nothing. -/
def itemOrNull (raw : PyJson) (key : String) : PyJson := (item? raw key).getD .null

/-- What the compatibility of a manifest is read as. -/
structure ReadsCompatibility (rt : JsonRuntime) (raw : PyJson) (c : LoadedCompatibility) :
    Prop where
  schemaVersion : item? raw "schemaVersion" = some c.schemaVersion
  parserName : item? raw "parserName" = some c.parserName
  parserVersion : item? raw "parserVersion" = some c.parserVersion
  parserProfile : item? raw "parserProfile" = some c.parserProfile
  parserConfig : ReadsConfig rt (itemOrNull raw "parserConfig") c.parserConfig
  normalizerVersion : item? raw "normalizerVersion" = some c.normalizerVersion
  normalizerConfig : ReadsConfig rt (itemOrNull raw "normalizerConfig") c.normalizerConfig
  splitterProfile : item? raw "splitterProfile" = some c.splitterProfile
  splitterVersion : item? raw "splitterVersion" = some c.splitterVersion
  splitterConfig : ReadsConfig rt (itemOrNull raw "splitterConfig") c.splitterConfig
  ocrModelId : itemOrNull raw "ocrModelId" = c.ocrModelId
  ocrArtifactRevision : itemOrNull raw "ocrArtifactRevision" = c.ocrArtifactRevision
  ocrManifestSha256 : itemOrNull raw "ocrManifestSha256" = c.ocrManifestSha256
  ocr : IsOcr c.ocrModelId c.ocrArtifactRevision c.ocrManifestSha256

theorem compatibilityOf_ok_iff {raw : PyJson} {c : LoadedCompatibility} :
    compatibilityOf rt raw = .ok c ↔ ReadsCompatibility rt raw c := by
  have hget : ∀ {item}, item? raw "schemaVersion" = some item → ∀ other value,
      getOrNull raw other = .ok value ↔ itemOrNull raw other = value := by
    intro item hitem other value
    rw [getOrNull_of_item hitem other, itemOrNull]
    exact ⟨Except.ok.inj, congrArg Except.ok⟩
  rw [compatibilityOf]
  constructor
  · intro h
    obtain ⟨schemaVersion, h₁, h⟩ := except_bind_ok.mp h
    have hnull := hget (getItem_ok_iff.mp h₁)
    obtain ⟨parserName, h₂, h⟩ := except_bind_ok.mp h
    obtain ⟨parserVersion, h₃, h⟩ := except_bind_ok.mp h
    obtain ⟨parserProfile, h₄, h⟩ := except_bind_ok.mp h
    obtain ⟨_, hparser, h⟩ := except_bind_ok.mp h
    obtain ⟨parserConfig, h₅, h⟩ := except_bind_ok.mp h
    obtain ⟨normalizerVersion, h₆, h⟩ := except_bind_ok.mp h
    obtain ⟨_, hnormalizer, h⟩ := except_bind_ok.mp h
    obtain ⟨normalizerConfig, h₇, h⟩ := except_bind_ok.mp h
    obtain ⟨splitterProfile, h₈, h⟩ := except_bind_ok.mp h
    obtain ⟨splitterVersion, h₉, h⟩ := except_bind_ok.mp h
    obtain ⟨_, hsplitter, h⟩ := except_bind_ok.mp h
    obtain ⟨splitterConfig, h₁₀, h⟩ := except_bind_ok.mp h
    obtain ⟨ocrModelId, hmodel, h⟩ := except_bind_ok.mp h
    obtain ⟨ocrArtifactRevision, hrevision, h⟩ := except_bind_ok.mp h
    obtain ⟨ocrManifestSha256, hmanifest, h⟩ := except_bind_ok.mp h
    obtain ⟨_, hocr, h⟩ := except_bind_ok.mp h
    obtain rfl := Except.ok.inj h
    obtain rfl := (hnull _ _).mp hparser
    obtain rfl := (hnull _ _).mp hnormalizer
    obtain rfl := (hnull _ _).mp hsplitter
    exact {
      schemaVersion := getItem_ok_iff.mp h₁
      parserName := getItem_ok_iff.mp h₂
      parserVersion := getItem_ok_iff.mp h₃
      parserProfile := getItem_ok_iff.mp h₄
      parserConfig := dictOrEmpty_ok_iff.mp h₅
      normalizerVersion := getItem_ok_iff.mp h₆
      normalizerConfig := dictOrEmpty_ok_iff.mp h₇
      splitterProfile := getItem_ok_iff.mp h₈
      splitterVersion := getItem_ok_iff.mp h₉
      splitterConfig := dictOrEmpty_ok_iff.mp h₁₀
      ocrModelId := (hnull _ _).mp hmodel
      ocrArtifactRevision := (hnull _ _).mp hrevision
      ocrManifestSha256 := (hnull _ _).mp hmanifest
      ocr := checkOcr_ok_iff.mp hocr }
  · intro h
    have hnull := fun other => (hget h.schemaVersion other _).mpr rfl
    rw [getItem_ok_iff.mpr h.schemaVersion, except_ok_bind, getItem_ok_iff.mpr h.parserName,
      except_ok_bind, getItem_ok_iff.mpr h.parserVersion, except_ok_bind,
      getItem_ok_iff.mpr h.parserProfile, except_ok_bind, hnull, except_ok_bind,
      dictOrEmpty_ok_iff.mpr h.parserConfig, except_ok_bind, getItem_ok_iff.mpr h.normalizerVersion,
      except_ok_bind, hnull, except_ok_bind, dictOrEmpty_ok_iff.mpr h.normalizerConfig,
      except_ok_bind, getItem_ok_iff.mpr h.splitterProfile, except_ok_bind,
      getItem_ok_iff.mpr h.splitterVersion, except_ok_bind, hnull, except_ok_bind,
      dictOrEmpty_ok_iff.mpr h.splitterConfig, except_ok_bind, hnull, except_ok_bind, hnull,
      except_ok_bind, hnull, except_ok_bind, h.ocrModelId, h.ocrArtifactRevision,
      h.ocrManifestSha256, checkOcr_ok_iff.mpr h.ocr, except_ok_bind]
    rfl

theorem raises_compatibilityOf (raw : PyJson) : Raises Caught (compatibilityOf rt raw) := by
  refine .bind_of_ok (raises_getItem _ _) fun schemaVersion hschema => ?_
  have hnull : ∀ other, Raises Caught (getOrNull raw other) := by
    intro other
    rw [getOrNull_of_item (getItem_ok_iff.mp hschema) other]
    exact .ok _
  have hconfig : ∀ {α : Type} other (f : List (PyJson × PyJson) → Except AstraError α),
      (∀ config, Raises Caught (f config)) →
      Raises Caught (getOrNull raw other >>= fun value => dictOrEmpty rt value >>= f) := by
    intro α other f hf
    exact .bind (hnull other) fun value => .bind (raises_dictOrEmpty value) hf
  refine .bind (raises_getItem _ _) fun _ => .bind (raises_getItem _ _) fun _ =>
    .bind (raises_getItem _ _) fun _ => hconfig _ _ fun _ => .bind (raises_getItem _ _) fun _ =>
    hconfig _ _ fun _ => .bind (raises_getItem _ _) fun _ => .bind (raises_getItem _ _) fun _ =>
    hconfig _ _ fun _ => .bind (hnull _) fun _ => .bind (hnull _) fun _ => .bind (hnull _) fun _ =>
    .bind (raises_checkOcr _ _ _) fun _ => .ok _

/-! ## Identity -/

/-- What the identity of a manifest is read as. -/
structure ReadsIdentity (rt : JsonRuntime) (raw : PyJson) (identity : LoadedIdentity) : Prop where
  documentId : ∃ value, item? raw "documentId" = some value ∧
    ReadsUuid rt value identity.documentId
  documentVersion : ∃ value, item? raw "documentVersion" = some value ∧
    ReadsInt rt value identity.documentVersion
  sourceSha256 : item? raw "sourceSha256" = some identity.sourceSha256
  positive : 0 < identity.documentVersion
  digest : IsDigest identity.sourceSha256

/-- The identifier is there and no text, or the version behind it is infinite. -/
inductive IdentityEscapes (rt : JsonRuntime) (raw : PyJson) : Prop
  | documentId {value : PyJson} (hitem : item? raw "documentId" = some value)
    (h : IsNoText value)
  | documentVersion {value version : PyJson} {id : UUID}
    (hid : item? raw "documentId" = some value) (huuid : ReadsUuid rt value id)
    (hitem : item? raw "documentVersion" = some version) (h : IsInfinite rt version)

theorem identityOf_ok_iff {raw : PyJson} {identity : LoadedIdentity} :
    identityOf rt raw = .ok identity ↔ ReadsIdentity rt raw identity := by
  rw [identityOf]
  constructor
  · intro h
    obtain ⟨value, hvalue, h⟩ := except_bind_ok.mp h
    obtain ⟨id, hid, h⟩ := except_bind_ok.mp h
    obtain ⟨version, hversion, h⟩ := except_bind_ok.mp h
    obtain ⟨n, hn, h⟩ := except_bind_ok.mp h
    obtain ⟨source, hsource, h⟩ := except_bind_ok.mp h
    obtain ⟨hpositive, h⟩ := except_guard_ok.mp h
    obtain ⟨_, hdigest, h⟩ := except_bind_ok.mp h
    obtain rfl := Except.ok.inj h
    exact ⟨⟨value, getItem_ok_iff.mp hvalue, uuidOf_ok_iff.mp hid⟩,
      ⟨version, getItem_ok_iff.mp hversion, intOf_ok_iff.mp hn⟩, getItem_ok_iff.mp hsource,
      Int.not_le.mp hpositive, validateSha256_ok_iff.mp hdigest⟩
  · intro h
    obtain ⟨value, hvalue, hid⟩ := h.documentId
    obtain ⟨version, hversion, hn⟩ := h.documentVersion
    rw [getItem_ok_iff.mpr hvalue, except_ok_bind, uuidOf_ok_iff.mpr hid, except_ok_bind,
      getItem_ok_iff.mpr hversion, except_ok_bind, intOf_ok_iff.mpr hn, except_ok_bind,
      getItem_ok_iff.mpr h.sourceSha256, except_ok_bind, if_neg (Int.not_le.mpr h.positive),
      validateSha256_ok_iff.mpr h.digest]
    rfl

theorem raises_identityOf_iff {raw : PyJson} :
    Raises Caught (identityOf rt raw) ↔ ¬ IdentityEscapes rt raw := by
  rw [identityOf]
  constructor
  · intro h hescapes
    cases hescapes with
    | documentId hitem hvalue =>
      have hid := h.of_bind_ok (getItem_ok_iff.mpr hitem)
      exact raises_uuidOf_iff.mp hid.of_bind hvalue
    | documentVersion hid huuid hitem hversion =>
      have hbehind := (h.of_bind_ok (getItem_ok_iff.mpr hid)).of_bind_ok (uuidOf_ok_iff.mpr huuid)
      have hint := hbehind.of_bind_ok (getItem_ok_iff.mpr hitem)
      exact raises_intOf_iff.mp hint.of_bind hversion
  · intro hescapes
    refine .bind_of_ok (raises_getItem _ _) fun value hvalue => ?_
    have hitem := getItem_ok_iff.mp hvalue
    refine .bind_of_ok (raises_uuidOf_iff.mpr fun h => hescapes (.documentId hitem h))
      fun id hid => ?_
    refine .bind_of_ok (raises_getItem _ _) fun version hversion => ?_
    refine .bind (raises_intOf_iff.mpr fun h => hescapes (.documentVersion hitem
      (uuidOf_ok_iff.mp hid) (getItem_ok_iff.mp hversion) h)) fun n => ?_
    refine .bind (raises_getItem _ _) fun source => .guard (caught_valueError _) ?_
    exact .bind (raises_validateSha256 _ _) fun _ => .ok _

/-! ## Parts -/

/-- What a part of a manifest is read as. -/
structure ReadsPart (rt : JsonRuntime) (raw : PyJson) (part : LoadedPart) : Prop where
  kind : ∃ value, item? raw "kind" = some value ∧ value.isText part.kind.value = true
  path : item? raw "path" = some (.str part.path)
  sha256 : item? raw "sha256" = some part.sha256
  recordCount : ∃ value, item? raw "recordCount" = some value ∧ ReadsInt rt value part.recordCount
  byteCount : ∃ value, item? raw "byteCount" = some value ∧ ReadsInt rt value part.byteCount
  path_ok : IsPath part.path
  digest : IsDigest part.sha256

/-- A count is infinite, or the path of a part of a known kind is no text. -/
inductive PartEscapes (rt : JsonRuntime) (raw : PyJson) : Prop
  | recordCount {kind path digest count : PyJson} (hkind : item? raw "kind" = some kind)
    (hpath : item? raw "path" = some path) (hdigest : item? raw "sha256" = some digest)
    (hitem : item? raw "recordCount" = some count) (h : IsInfinite rt count)
  | byteCount {kind path digest records count : PyJson} {n : Int}
    (hkind : item? raw "kind" = some kind) (hpath : item? raw "path" = some path)
    (hdigest : item? raw "sha256" = some digest)
    (hrecords : item? raw "recordCount" = some records) (hn : ReadsInt rt records n)
    (hitem : item? raw "byteCount" = some count) (h : IsInfinite rt count)
  | path {kind path digest records bytes : PyJson} {n m : Int} {known : PartKind}
    (hkind : item? raw "kind" = some kind) (hpath : item? raw "path" = some path)
    (hdigest : item? raw "sha256" = some digest)
    (hrecords : item? raw "recordCount" = some records) (hn : ReadsInt rt records n)
    (hbytes : item? raw "byteCount" = some bytes) (hm : ReadsInt rt bytes m)
    (hknown : kind.isText known.value = true) (h : ∀ s, path ≠ .str s)

theorem isText_iff {text : String} {value : PyJson} :
    value.isText text = true ↔ value = .str (codePoints text) := by
  cases value with
  | str s => simp [isText]
  | _ => simp [isText]

theorem kindOf_ok_iff {value : PyJson} {kind : PartKind} :
    kindOf rt value = .ok kind ↔ value.isText kind.value = true := by
  rw [kindOf]
  by_cases helements : value.isText "ELEMENTS" = true
  · obtain rfl := isText_iff.mp helements
    rw [hashKey, keyForm?]
    cases kind with
    | elements => exact iff_of_true rfl helements
    | fragments => exact iff_of_false nofun (by decide)
  · by_cases hfragments : value.isText "FRAGMENTS" = true
    · obtain rfl := isText_iff.mp hfragments
      rw [hashKey, keyForm?]
      cases kind with
      | elements => exact iff_of_false nofun helements
      | fragments => exact iff_of_true rfl hfragments
    · refine iff_of_false (fun h => ?_) (fun h => ?_)
      · obtain ⟨_, -, h⟩ := except_bind_ok.mp h
        rw [if_neg helements, if_neg hfragments] at h
        cases h
      · cases kind with
        | elements => exact helements h
        | fragments => exact hfragments h

theorem raises_kindOf (value : PyJson) : Raises Caught (kindOf rt value) :=
  .bind (raises_hashKey value) fun _ =>
    .ite (.ok _) (.ite (.ok _) (.error (caught_valueError _)))

theorem pathOf_ok_iff {value : PyJson} {path : CodePoints} :
    pathOf value = .ok path ↔ value = .str path ∧ IsPath path := by
  cases value with
  | str s =>
    rw [pathOf]
    split
    · rename_i hpath
      constructor
      · intro h
        obtain rfl := Except.ok.inj h
        exact ⟨rfl, hpath⟩
      · rintro ⟨heq, -⟩
        rw [PyJson.str.inj heq]
    · rename_i hpath
      refine iff_of_false nofun fun h => ?_
      rw [PyJson.str.inj h.1] at hpath
      exact hpath h.2
  | _ => exact iff_of_false nofun nofun

theorem raises_pathOf_iff {value : PyJson} :
    Raises Caught (pathOf value) ↔ ¬ ∀ s, value ≠ .str s := by
  cases value with
  | str s =>
    refine iff_of_true ?_ fun h => h s rfl
    rw [pathOf]
    exact .ite (.ok s) (.error (caught_valueError _))
  | _ =>
    exact Raises.error_iff.trans (iff_of_false (not_caught_attributeError _) fun h => h nofun)

theorem partOf_ok_iff {raw : PyJson} {part : LoadedPart} :
    partOf rt raw = .ok part ↔ ReadsPart rt raw part := by
  rw [partOf]
  constructor
  · intro h
    obtain ⟨kind, hkind, h⟩ := except_bind_ok.mp h
    obtain ⟨path, hpath, h⟩ := except_bind_ok.mp h
    obtain ⟨digest, hdigest, h⟩ := except_bind_ok.mp h
    obtain ⟨records, hrecords, h⟩ := except_bind_ok.mp h
    obtain ⟨recordCount, hn, h⟩ := except_bind_ok.mp h
    obtain ⟨bytes, hbytes, h⟩ := except_bind_ok.mp h
    obtain ⟨byteCount, hm, h⟩ := except_bind_ok.mp h
    obtain ⟨known, hknown, h⟩ := except_bind_ok.mp h
    obtain ⟨points, hpoints, h⟩ := except_bind_ok.mp h
    obtain ⟨_, hsha, h⟩ := except_bind_ok.mp h
    obtain ⟨hcounts, h⟩ := except_guard_ok.mp h
    obtain rfl := Except.ok.inj h
    obtain ⟨rfl, hpathOk⟩ := pathOf_ok_iff.mp hpoints
    rw [not_or, Int.not_lt, Int.not_lt] at hcounts
    refine ⟨⟨kind, getItem_ok_iff.mp hkind, kindOf_ok_iff.mp hknown⟩, getItem_ok_iff.mp hpath,
      getItem_ok_iff.mp hdigest, ⟨records, getItem_ok_iff.mp hrecords, ?_⟩,
      ⟨bytes, getItem_ok_iff.mp hbytes, ?_⟩, hpathOk, validateSha256_ok_iff.mp hsha⟩
    · rw [Int.toNat_of_nonneg hcounts.1]
      exact intOf_ok_iff.mp hn
    · rw [Int.toNat_of_nonneg hcounts.2]
      exact intOf_ok_iff.mp hm
  · intro h
    obtain ⟨kind, hkind, hknown⟩ := h.kind
    obtain ⟨records, hrecords, hn⟩ := h.recordCount
    obtain ⟨bytes, hbytes, hm⟩ := h.byteCount
    have hcounts : ¬ ((part.recordCount : Int) < 0 ∨ (part.byteCount : Int) < 0) := by omega
    rw [getItem_ok_iff.mpr hkind, except_ok_bind, getItem_ok_iff.mpr h.path, except_ok_bind,
      getItem_ok_iff.mpr h.sha256, except_ok_bind, getItem_ok_iff.mpr hrecords, except_ok_bind,
      intOf_ok_iff.mpr hn, except_ok_bind, getItem_ok_iff.mpr hbytes, except_ok_bind,
      intOf_ok_iff.mpr hm, except_ok_bind, kindOf_ok_iff.mpr hknown, except_ok_bind,
      pathOf_ok_iff.mpr ⟨rfl, h.path_ok⟩, except_ok_bind, validateSha256_ok_iff.mpr h.digest,
      except_ok_bind, if_neg hcounts]
    rfl

theorem raises_partOf_iff {raw : PyJson} :
    Raises Caught (partOf rt raw) ↔ ¬ PartEscapes rt raw := by
  rw [partOf]
  constructor
  · intro h hescapes
    have hrecordCount : ∀ {kind path digest count}, item? raw "kind" = some kind →
        item? raw "path" = some path → item? raw "sha256" = some digest →
        item? raw "recordCount" = some count → _ :=
      fun hkind hpath hdigest hcount =>
        (((h.of_bind_ok (getItem_ok_iff.mpr hkind)).of_bind_ok (getItem_ok_iff.mpr hpath)).of_bind_ok
          (getItem_ok_iff.mpr hdigest)).of_bind_ok (getItem_ok_iff.mpr hcount)
    cases hescapes with
    | recordCount hkind hpath hdigest hitem hcount =>
      exact raises_intOf_iff.mp (hrecordCount hkind hpath hdigest hitem).of_bind hcount
    | byteCount hkind hpath hdigest hrecords hn hitem hcount =>
      have hbytes := (hrecordCount hkind hpath hdigest hrecords).of_bind_ok (intOf_ok_iff.mpr hn)
      have hbyteCount := hbytes.of_bind_ok (getItem_ok_iff.mpr hitem)
      exact raises_intOf_iff.mp hbyteCount.of_bind hcount
    | path hkind hpath hdigest hrecords hn hbytes hm hknown hnone =>
      have hcounts := (((hrecordCount hkind hpath hdigest hrecords).of_bind_ok
        (intOf_ok_iff.mpr hn)).of_bind_ok (getItem_ok_iff.mpr hbytes)).of_bind_ok
        (intOf_ok_iff.mpr hm)
      have hpathOf := hcounts.of_bind_ok (kindOf_ok_iff.mpr hknown)
      exact raises_pathOf_iff.mp hpathOf.of_bind hnone
  · intro hescapes
    refine .bind_of_ok (raises_getItem _ _) fun kind hkind => ?_
    refine .bind_of_ok (raises_getItem _ _) fun path hpath => ?_
    refine .bind_of_ok (raises_getItem _ _) fun digest hdigest => ?_
    refine .bind_of_ok (raises_getItem _ _) fun records hrecords => ?_
    rw [getItem_ok_iff] at hkind hpath hdigest hrecords
    refine .bind_of_ok (raises_intOf_iff.mpr fun h =>
      hescapes (.recordCount hkind hpath hdigest hrecords h)) fun n hn => ?_
    refine .bind_of_ok (raises_getItem _ _) fun bytes hbytes => ?_
    rw [intOf_ok_iff] at hn
    rw [getItem_ok_iff] at hbytes
    refine .bind_of_ok (raises_intOf_iff.mpr fun h =>
      hescapes (.byteCount hkind hpath hdigest hrecords hn hbytes h)) fun m hm => ?_
    refine .bind_of_ok (raises_kindOf _) fun known hknown => ?_
    refine .bind (raises_pathOf_iff.mpr fun h => hescapes (.path hkind hpath hdigest hrecords hn
      hbytes (intOf_ok_iff.mp hm) (kindOf_ok_iff.mp hknown) h)) fun points => ?_
    exact .bind (raises_validateSha256 _ _) fun _ => .guard (caught_valueError _) (.ok _)

/-- What the parts of a manifest are read as. -/
def ReadsParts (rt : JsonRuntime) (value : PyJson) (parts : List LoadedPart) : Prop :=
  ∃ items, members? value = some items ∧ List.Forall₂ (ReadsPart rt) items parts

/-- The first part that is not read raises an exception of its own. -/
def PartsEscape (rt : JsonRuntime) (value : PyJson) : Prop :=
  ∃ front part back, members? value = some (front ++ part :: back) ∧
    (∀ item ∈ front, ∃ read, ReadsPart rt item read) ∧ PartEscapes rt part

theorem partsOf_ok_iff {value : PyJson} {parts : List LoadedPart} :
    partsOf rt value = .ok parts ↔ ReadsParts rt value parts := by
  rw [partsOf, except_bind_ok]
  refine exists_congr fun items => ?_
  rw [iterate_ok_iff, Traverse.mapM_eq_ok]
  simp only [partOf_ok_iff]

theorem raises_partsOf_iff {value : PyJson} :
    Raises Caught (partsOf rt value) ↔ ¬ PartsEscape rt value := by
  rw [partsOf, Raises.bind_iff]
  constructor
  · rintro ⟨-, h⟩ ⟨front, part, back, hitems, hfront, hpart⟩
    refine raises_partOf_iff.mp ?_ hpart
    refine Raises.mapM_iff.mp (h _ (iterate_ok_iff.mpr hitems)) front part back rfl ?_
    intro item hitem
    obtain ⟨read, hread⟩ := hfront item hitem
    exact ⟨read, partOf_ok_iff.mpr hread⟩
  · intro h
    refine ⟨raises_iterate value, fun items hitems => Raises.mapM_iff.mpr ?_⟩
    intro front part back heq hfront
    refine raises_partOf_iff.mpr fun hpart => h ⟨front, part, back, ?_, ?_, hpart⟩
    · rw [iterate_ok_iff.mp hitems, heq]
    · intro item hitem
      obtain ⟨read, hread⟩ := hfront item hitem
      exact ⟨read, partOf_ok_iff.mp hread⟩

/-! ## Totals -/

/-- What the totals of a manifest are read as. -/
def ReadsTotals (rt : JsonRuntime) (totals : PyJson) (elements fragments : Int) : Prop :=
  (∃ value, item? totals "elements" = some value ∧ ReadsInt rt value elements) ∧
    ∃ value, item? totals "fragments" = some value ∧ ReadsInt rt value fragments

/-- A total is infinite. -/
inductive TotalsEscape (rt : JsonRuntime) (totals : PyJson) : Prop
  | elements {value : PyJson} (hitem : item? totals "elements" = some value)
    (h : IsInfinite rt value)
  | fragments {elements value : PyJson} {n : Int}
    (helements : item? totals "elements" = some elements) (hn : ReadsInt rt elements n)
    (hitem : item? totals "fragments" = some value) (h : IsInfinite rt value)

theorem totalsOf_ok_iff {totals : PyJson} {elements fragments : Int} :
    totalsOf rt totals = .ok (elements, fragments) ↔ ReadsTotals rt totals elements fragments := by
  rw [totalsOf]
  constructor
  · intro h
    obtain ⟨value, hvalue, h⟩ := except_bind_ok.mp h
    obtain ⟨n, hn, h⟩ := except_bind_ok.mp h
    obtain ⟨other, hother, h⟩ := except_bind_ok.mp h
    obtain ⟨m, hm, h⟩ := except_bind_ok.mp h
    obtain ⟨rfl, rfl⟩ := Prod.mk.inj (Except.ok.inj h)
    exact ⟨⟨value, getItem_ok_iff.mp hvalue, intOf_ok_iff.mp hn⟩, other,
      getItem_ok_iff.mp hother, intOf_ok_iff.mp hm⟩
  · rintro ⟨⟨value, hvalue, hn⟩, other, hother, hm⟩
    rw [getItem_ok_iff.mpr hvalue, except_ok_bind, intOf_ok_iff.mpr hn, except_ok_bind,
      getItem_ok_iff.mpr hother, except_ok_bind, intOf_ok_iff.mpr hm]
    rfl

theorem raises_totalsOf_iff {totals : PyJson} :
    Raises Caught (totalsOf rt totals) ↔ ¬ TotalsEscape rt totals := by
  rw [totalsOf]
  constructor
  · intro h hescapes
    cases hescapes with
    | elements hitem hvalue =>
      exact raises_intOf_iff.mp (h.of_bind_ok (getItem_ok_iff.mpr hitem)).of_bind hvalue
    | fragments helements hn hitem hvalue =>
      have hbehind := (h.of_bind_ok (getItem_ok_iff.mpr helements)).of_bind_ok
        (intOf_ok_iff.mpr hn)
      exact raises_intOf_iff.mp (hbehind.of_bind_ok (getItem_ok_iff.mpr hitem)).of_bind hvalue
  · intro hescapes
    refine .bind_of_ok (raises_getItem _ _) fun value hvalue => ?_
    have hitem := getItem_ok_iff.mp hvalue
    refine .bind_of_ok (raises_intOf_iff.mpr fun h => hescapes (.elements hitem h)) fun n hn => ?_
    refine .bind_of_ok (raises_getItem _ _) fun other hother => ?_
    exact .bind (raises_intOf_iff.mpr fun h => hescapes (.fragments hitem (intOf_ok_iff.mp hn)
      (getItem_ok_iff.mp hother) h)) fun _ => .ok _

/-! ## Keys -/

/-- The members of the value are exactly these keys. -/
def HasKeys (rt : JsonRuntime) (value : PyJson) (names : List String) : Prop :=
  ∃ items keys, members? value = some items ∧
    List.Forall₂ (fun item key => keyForm? rt item = some key) items keys ∧
    sameSet keys names = true

theorem setOf_ok_iff {value : PyJson} {keys : List KeyForm} :
    setOf rt value = .ok keys ↔ ∃ items, members? value = some items ∧
      List.Forall₂ (fun item key => keyForm? rt item = some key) items keys := by
  rw [setOf, except_bind_ok]
  refine exists_congr fun items => ?_
  rw [iterate_ok_iff, Traverse.mapM_eq_ok]
  simp only [hashKey_ok_iff]

theorem hasKeys_of_setOf {value : PyJson} {keys : List KeyForm} {names : List String}
    (h : setOf rt value = .ok keys) (hsame : sameSet keys names = true) :
    HasKeys rt value names := by
  obtain ⟨items, hitems, hkeys⟩ := setOf_ok_iff.mp h
  exact ⟨items, keys, hitems, hkeys, hsame⟩

theorem HasKeys.exists_setOf {value : PyJson} {names : List String} (h : HasKeys rt value names) :
    ∃ keys, setOf rt value = .ok keys ∧ sameSet keys names = true := by
  obtain ⟨items, keys, hitems, hkeys, hsame⟩ := h
  exact ⟨keys, setOf_ok_iff.mpr ⟨items, hitems, hkeys⟩, hsame⟩

theorem HasKeys.same_of_setOf {value : PyJson} {names : List String} (h : HasKeys rt value names)
    {keys : List KeyForm} (hset : setOf rt value = .ok keys) : sameSet keys names = true := by
  obtain ⟨others, hothers, hsame⟩ := h.exists_setOf
  obtain rfl := Except.ok.inj (hset.symm.trans hothers)
  exact hsame

theorem keyForm?_text {value : PyJson} {s : CodePoints} (h : keyForm? rt value = some (.text s)) :
    value = .str s := by
  cases value with
  | str t =>
    obtain rfl := KeyForm.text.inj (Option.some.inj h)
    rfl
  | float repr =>
    rw [keyForm?] at h
    split at h
    · split at h <;> cases h
    · cases h
  | null | bool b | int n | list items | dict fields => cases h

/-- A dictionary with these keys has a value for each of them. -/
theorem HasKeys.exists_item {fields : List (PyJson × PyJson)} {names : List String}
    (h : HasKeys rt (.dict fields) names) {name : String} (hname : name ∈ names) :
    ∃ value, item? (.dict fields) name = some value := by
  obtain ⟨items, keys, hitems, hkeys, hsame⟩ := h
  obtain rfl := Option.some.inj hitems
  have hkey : KeyForm.text (codePoints name) ∈ keys := by
    rw [sameSet, Bool.and_eq_true, List.all_eq_true, List.all_eq_true] at hsame
    simpa using hsame.2 name hname
  obtain ⟨item, hitem, hform⟩ := Traverse.exists_left_of_forall₂ hkeys _ hkey
  obtain rfl := keyForm?_text hform
  obtain ⟨f, hf, hfst⟩ := List.mem_map.mp hitem
  have hsome : (fields.find? fun f => f.1.isText name).isSome := by
    rw [List.find?_isSome]
    exact ⟨f, hf, isText_iff.mpr hfst⟩
  obtain ⟨found, hfound⟩ := Option.isSome_iff_exists.mp hsome
  exact ⟨found.2, by rw [item?, hfound]; rfl⟩

/-! ## Manifests -/

theorem makeManifest_ok_iff {identity : LoadedIdentity} {compatibility : LoadedCompatibility}
    {artifactId compatibilitySha256 format : PyJson} {parts : List LoadedPart}
    {elements fragments : Int} {manifest : LoadedManifest} :
    makeManifest identity compatibility artifactId compatibilitySha256 parts elements fragments
        format = .ok manifest ↔
      format.isText manifestFormat = true ∧ IsDigest artifactId ∧ IsDigest compatibilitySha256 ∧
        manifest.identity = identity ∧ manifest.compatibility = compatibility ∧
        manifest.artifactId = artifactId ∧ manifest.compatibilitySha256 = compatibilitySha256 ∧
        manifest.parts = parts ∧ (manifest.totalElementCount : Int) = elements ∧
        (manifest.totalFragmentCount : Int) = fragments := by
  rw [makeManifest]
  constructor
  · intro h
    obtain ⟨hformat, h⟩ := except_guard_ok.mp h
    obtain ⟨_, hartifact, h⟩ := except_bind_ok.mp h
    obtain ⟨_, hcompatibility, h⟩ := except_bind_ok.mp h
    split at h
    · obtain ⟨helements, h⟩ := except_guard_ok.mp h
      obtain ⟨hfragments, h⟩ := except_guard_ok.mp h
      obtain rfl := Except.ok.inj h
      exact ⟨Decidable.not_not.mp hformat, validateSha256_ok_iff.mp hartifact,
        validateSha256_ok_iff.mp hcompatibility, rfl, rfl, rfl, rfl, rfl,
        (Decidable.not_not.mp helements).symm, (Decidable.not_not.mp hfragments).symm⟩
    · cases h
  · rintro ⟨hformat, hartifact, hcompatibility, rfl, rfl, rfl, rfl, rfl, rfl, rfl⟩
    obtain ⟨identity, compatibility, artifactId, compatibilitySha256, parts, elements, fragments,
      hpaths, rfl, rfl⟩ := manifest
    rw [if_neg (not_not_intro hformat), validateSha256_ok_iff.mpr hartifact, except_ok_bind,
      validateSha256_ok_iff.mpr hcompatibility, except_ok_bind, dif_pos hpaths,
      if_neg (not_not_intro rfl), if_neg (not_not_intro rfl)]
    rfl

theorem raises_makeManifest (identity : LoadedIdentity) (compatibility : LoadedCompatibility)
    (artifactId compatibilitySha256 : PyJson) (parts : List LoadedPart) (elements fragments : Int)
    (format : PyJson) : Raises Caught (makeManifest identity compatibility artifactId
      compatibilitySha256 parts elements fragments format) := by
  refine .guard (caught_valueError _) (.bind (raises_validateSha256 _ _) fun _ =>
    .bind (raises_validateSha256 _ _) fun _ => ?_)
  split
  · exact .guard (caught_valueError _) (.guard (caught_valueError _) (.ok _))
  · exact .error (caught_valueError _)

def identityKeys : List String := ["documentId", "documentVersion", "sourceSha256"]

/-- What a manifest is read as. -/
structure ReadsManifest (rt : JsonRuntime) (raw : PyJson) (manifest : LoadedManifest) : Prop where
  identity : ∃ value, item? raw "identity" = some value ∧ HasKeys rt value identityKeys ∧
    ReadsIdentity rt value manifest.identity
  compatibility : ∃ value, item? raw "compatibility" = some value ∧
    ReadsCompatibility rt value manifest.compatibility
  parts : ∃ value, item? raw "parts" = some value ∧ ReadsParts rt value manifest.parts
  totals : ∃ value, item? raw "totals" = some value ∧
    ReadsTotals rt value manifest.totalElementCount manifest.totalFragmentCount
  artifactId : item? raw "artifactId" = some manifest.artifactId
  compatibilitySha256 : item? raw "compatibilitySha256" = some manifest.compatibilitySha256
  format : ∃ value, item? raw "format" = some value ∧ value.isText manifestFormat = true
  artifactId_digest : IsDigest manifest.artifactId
  compatibilitySha256_digest : IsDigest manifest.compatibilitySha256

/-- What is read in front of the identity. -/
structure Opened (rt : JsonRuntime) (raw identityRaw totals : PyJson) : Prop where
  identity : item? raw "identity" = some identityRaw
  totals : item? raw "totals" = some totals
  keys : HasKeys rt identityRaw identityKeys
  compatibility : ∃ value c, item? raw "compatibility" = some value ∧ ReadsCompatibility rt value c

/-- The first field that is not read raises an exception the guarded block does not name. -/
inductive GuardEscapes (rt : JsonRuntime) (raw : PyJson) : Prop
  | identity {identityRaw totals : PyJson} (hopened : Opened rt raw identityRaw totals)
    (h : IdentityEscapes rt identityRaw)
  | parts {identityRaw totals value : PyJson} {identity : LoadedIdentity}
    (hopened : Opened rt raw identityRaw totals) (hidentity : ReadsIdentity rt identityRaw identity)
    (hvalue : item? raw "parts" = some value) (h : PartsEscape rt value)
  | totals {identityRaw totals value : PyJson} {identity : LoadedIdentity}
    {parts : List LoadedPart} (hopened : Opened rt raw identityRaw totals)
    (hidentity : ReadsIdentity rt identityRaw identity) (hvalue : item? raw "parts" = some value)
    (hparts : ReadsParts rt value parts) (h : TotalsEscape rt totals)

theorem manifestOf_ok_iff {raw : PyJson} {manifest : LoadedManifest} :
    manifestOf rt raw = .ok manifest ↔ ReadsManifest rt raw manifest := by
  rw [manifestOf]
  constructor
  · intro h
    obtain ⟨identityRaw, hidentityRaw, h⟩ := except_bind_ok.mp h
    obtain ⟨compatibilityRaw, hcompatibilityRaw, h⟩ := except_bind_ok.mp h
    obtain ⟨totals, htotals, h⟩ := except_bind_ok.mp h
    obtain ⟨keys, hkeys, h⟩ := except_bind_ok.mp h
    obtain ⟨hsame, h⟩ := except_guard_ok.mp h
    obtain ⟨compatibility, hcompatibility, h⟩ := except_bind_ok.mp h
    obtain ⟨identity, hidentity, h⟩ := except_bind_ok.mp h
    obtain ⟨partsRaw, hpartsRaw, h⟩ := except_bind_ok.mp h
    obtain ⟨parts, hparts, h⟩ := except_bind_ok.mp h
    obtain ⟨artifactId, hartifactId, h⟩ := except_bind_ok.mp h
    obtain ⟨compatibilitySha256, hsha, h⟩ := except_bind_ok.mp h
    obtain ⟨⟨elements, fragments⟩, hcounts, h⟩ := except_bind_ok.mp h
    obtain ⟨format, hformat, h⟩ := except_bind_ok.mp h
    obtain ⟨hformatText, hartifact, hdigest, rfl, rfl, rfl, rfl, rfl, rfl, rfl⟩ :=
      makeManifest_ok_iff.mp h
    exact {
      identity := ⟨identityRaw, getItem_ok_iff.mp hidentityRaw,
        hasKeys_of_setOf hkeys (Decidable.not_not.mp hsame), identityOf_ok_iff.mp hidentity⟩
      compatibility := ⟨compatibilityRaw, getItem_ok_iff.mp hcompatibilityRaw,
        compatibilityOf_ok_iff.mp hcompatibility⟩
      parts := ⟨partsRaw, getItem_ok_iff.mp hpartsRaw, partsOf_ok_iff.mp hparts⟩
      totals := ⟨totals, getItem_ok_iff.mp htotals, totalsOf_ok_iff.mp hcounts⟩
      artifactId := getItem_ok_iff.mp hartifactId
      compatibilitySha256 := getItem_ok_iff.mp hsha
      format := ⟨format, getItem_ok_iff.mp hformat, hformatText⟩
      artifactId_digest := hartifact
      compatibilitySha256_digest := hdigest }
  · intro h
    obtain ⟨identityRaw, hidentityRaw, hkeys, hidentity⟩ := h.identity
    obtain ⟨compatibilityRaw, hcompatibilityRaw, hcompatibility⟩ := h.compatibility
    obtain ⟨partsRaw, hpartsRaw, hparts⟩ := h.parts
    obtain ⟨totals, htotals, hcounts⟩ := h.totals
    obtain ⟨format, hformat, hformatText⟩ := h.format
    obtain ⟨keys, hkeys, hsame⟩ := hkeys.exists_setOf
    rw [getItem_ok_iff.mpr hidentityRaw, except_ok_bind, getItem_ok_iff.mpr hcompatibilityRaw,
      except_ok_bind, getItem_ok_iff.mpr htotals, except_ok_bind, hkeys, except_ok_bind]
    refine except_guard_ok.mpr ⟨not_not_intro hsame, ?_⟩
    rw [compatibilityOf_ok_iff.mpr hcompatibility, except_ok_bind,
      identityOf_ok_iff.mpr hidentity, except_ok_bind, getItem_ok_iff.mpr hpartsRaw,
      except_ok_bind, partsOf_ok_iff.mpr hparts, except_ok_bind,
      getItem_ok_iff.mpr h.artifactId, except_ok_bind, getItem_ok_iff.mpr h.compatibilitySha256,
      except_ok_bind, totalsOf_ok_iff.mpr hcounts, except_ok_bind, getItem_ok_iff.mpr hformat]
    exact makeManifest_ok_iff.mpr ⟨hformatText, h.artifactId_digest, h.compatibilitySha256_digest,
      rfl, rfl, rfl, rfl, rfl, rfl, rfl⟩

/-- The guarded block of a manifest with all keys raises nothing but what it names, unless the
first field that is not read raises something else. -/
theorem raises_manifestOf_iff {raw : PyJson}
    (hkeys : ∀ key ∈ manifestKeys, ∃ value, item? raw key = some value) :
    Raises Caught (manifestOf rt raw) ↔ ¬ GuardEscapes rt raw := by
  obtain ⟨artifactId, hartifactId⟩ := hkeys "artifactId" (by decide)
  obtain ⟨compatibilitySha256, hsha⟩ := hkeys "compatibilitySha256" (by decide)
  rw [manifestOf]
  constructor
  · intro h hescapes
    obtain ⟨identityRaw, totals, hopened, hcase⟩ : ∃ identityRaw totals,
        Opened rt raw identityRaw totals ∧ (IdentityEscapes rt identityRaw ∨
          ∃ identity value, ReadsIdentity rt identityRaw identity ∧
            item? raw "parts" = some value ∧ (PartsEscape rt value ∨
              ∃ parts, ReadsParts rt value parts ∧ TotalsEscape rt totals)) := by
      cases hescapes with
      | identity hopened h => exact ⟨_, _, hopened, .inl h⟩
      | parts hopened hidentity hvalue h =>
        exact ⟨_, _, hopened, .inr ⟨_, _, hidentity, hvalue, .inl h⟩⟩
      | totals hopened hidentity hvalue hparts h =>
        exact ⟨_, _, hopened, .inr ⟨_, _, hidentity, hvalue, .inr ⟨_, hparts, h⟩⟩⟩
    obtain ⟨compatibilityRaw, c, hcompatibilityRaw, hc⟩ := hopened.compatibility
    obtain ⟨keys, hset, hsame⟩ := hopened.keys.exists_setOf
    have hguard := (((h.of_bind_ok (getItem_ok_iff.mpr hopened.identity)).of_bind_ok
      (getItem_ok_iff.mpr hcompatibilityRaw)).of_bind_ok
      (getItem_ok_iff.mpr hopened.totals)).of_bind_ok hset
    have hidentityOf := (Raises.of_guard hguard (not_not_intro hsame)).of_bind_ok
      (compatibilityOf_ok_iff.mpr hc)
    rcases hcase with hid | ⟨identity, value, hidentity, hvalue, hcase⟩
    · exact raises_identityOf_iff.mp hidentityOf.of_bind hid
    · have hpartsOf := (hidentityOf.of_bind_ok (identityOf_ok_iff.mpr hidentity)).of_bind_ok
        (getItem_ok_iff.mpr hvalue)
      rcases hcase with hparts | ⟨parts, hparts, hcounts⟩
      · exact raises_partsOf_iff.mp hpartsOf.of_bind hparts
      · have htotalsOf := ((hpartsOf.of_bind_ok (partsOf_ok_iff.mpr hparts)).of_bind_ok
          (getItem_ok_iff.mpr hartifactId)).of_bind_ok (getItem_ok_iff.mpr hsha)
        exact raises_totalsOf_iff.mp htotalsOf.of_bind hcounts
  · intro hescapes
    refine .bind_of_ok (raises_getItem _ _) fun identityRaw hidentityRaw => ?_
    refine .bind_of_ok (raises_getItem _ _) fun compatibilityRaw hcompatibilityRaw => ?_
    refine .bind_of_ok (raises_getItem _ _) fun totals htotals => ?_
    refine .bind_of_ok (raises_setOf _) fun keys hset => ?_
    rw [getItem_ok_iff] at hidentityRaw hcompatibilityRaw htotals
    refine .guard_of_not (caught_valueError _) fun hsame => ?_
    refine .bind_of_ok (raises_compatibilityOf _) fun c hc => ?_
    have hopened : Opened rt raw identityRaw totals := ⟨hidentityRaw, htotals,
      hasKeys_of_setOf hset (Decidable.not_not.mp hsame), compatibilityRaw, c, hcompatibilityRaw,
      compatibilityOf_ok_iff.mp hc⟩
    refine .bind_of_ok (raises_identityOf_iff.mpr fun h => hescapes (.identity hopened h))
      fun identity hidentity => ?_
    refine .bind_of_ok (raises_getItem _ _) fun value hvalue => ?_
    rw [identityOf_ok_iff] at hidentity
    rw [getItem_ok_iff] at hvalue
    refine .bind_of_ok (raises_partsOf_iff.mpr fun h =>
      hescapes (.parts hopened hidentity hvalue h)) fun parts hparts => ?_
    refine .bind (raises_getItem _ _) fun _ => .bind (raises_getItem _ _) fun _ => ?_
    refine .bind (raises_totalsOf_iff.mpr fun h => hescapes (.totals hopened hidentity hvalue
      (partsOf_ok_iff.mp hparts) h)) fun counts => ?_
    exact .bind (raises_getItem _ _) fun _ => raises_makeManifest _ _ _ _ _ _ _ _

/-! ## Digests of canonical values -/

/-- The value has canonical bytes: its numbers are finite and short, the keys of its
dictionaries can be sorted, it is not nested too deeply, and no text has a lone surrogate. -/
def Dumpable (rt : JsonRuntime) (value : PyJson) : Prop :=
  Encodable rt rt.maxNesting value ∧ Clean value

theorem digestOf_ok_iff {sha256 : HexDigest} {value : PyJson} {digest : String} :
    digestOf rt sha256 value = .ok digest ↔
      ∃ bytes, dumps rt value = .ok bytes ∧ sha256.hexdigest bytes = digest := by
  rw [digestOf, canonicalJsonBytes]
  cases dumps rt value with
  | ok bytes =>
    constructor
    · intro h
      exact ⟨bytes, rfl, Except.ok.inj h⟩
    · rintro ⟨other, hother, rfl⟩
      obtain rfl := Except.ok.inj hother
      rfl
  | error e => exact iff_of_false nofun nofun

theorem not_isCorruption_dumpError (e : DumpError) : ¬ IsCorruption (dumpError e) := by
  rintro ⟨message, h⟩
  cases e <;> simp [dumpError, typeError, valueError, recursionError, unicodeEncodeError,
    artifactCorruptionError] at h

/-- Canonical bytes that cannot be made raise an exception of their own. -/
theorem raises_digestOf_iff {sha256 : HexDigest} {value : PyJson} :
    Raises IsCorruption (digestOf rt sha256 value) ↔ Dumpable rt value := by
  rw [Dumpable, ← dumps_ok_iff, digestOf, canonicalJsonBytes]
  cases dumps rt value with
  | ok bytes => exact iff_of_true (.ok _) ⟨bytes, rfl⟩
  | error e =>
    exact iff_of_false (fun h => not_isCorruption_dumpError e (h _ rfl)) nofun

/-- The text is the digest of the canonical bytes of the value. -/
def IsDigestOf (rt : JsonRuntime) (sha256 : HexDigest) (value text : PyJson) : Prop :=
  ∃ bytes, dumps rt value = .ok bytes ∧ text.isText (sha256.hexdigest bytes) = true

/-- The seed of the identifier of a manifest. -/
def seedOf (manifest : LoadedManifest) : PyJson :=
  artifactSeed manifest.identity manifest.compatibilitySha256 manifest.parts

/-- The compatibility has no canonical bytes, or its digest fits and the seed of the
identifier has none. -/
inductive DigestEscapes (rt : JsonRuntime) (sha256 : HexDigest) (manifest : LoadedManifest) : Prop
  | compatibility (h : ¬ Dumpable rt (asDict manifest.compatibility))
  | seed (hdigest : IsDigestOf rt sha256 (asDict manifest.compatibility)
      manifest.compatibilitySha256) (h : ¬ Dumpable rt (seedOf manifest))

/-- What a manifest that is returned satisfies. -/
structure IsValid (rt : JsonRuntime) (sha256 : HexDigest) (manifest : LoadedManifest) : Prop where
  paths : (manifest.parts.map LoadedPart.path).Nodup
  elements : manifest.totalElementCount = loadedTotal .elements manifest.parts
  fragments : manifest.totalFragmentCount = loadedTotal .fragments manifest.parts
  compatibility : IsDigestOf rt sha256 (asDict manifest.compatibility) manifest.compatibilitySha256
  artifactId : IsDigestOf rt sha256 (seedOf manifest) manifest.artifactId

theorem isDigestOf_of_digestOf {sha256 : HexDigest} {value text : PyJson} {digest : String}
    (h : digestOf rt sha256 value = .ok digest) (htext : text.isText digest = true) :
    IsDigestOf rt sha256 value text := by
  obtain ⟨bytes, hbytes, rfl⟩ := digestOf_ok_iff.mp h
  exact ⟨bytes, hbytes, htext⟩

/-- A manifest that passes the checks is returned as it is, and its digests fit. -/
theorem checkDigests_ok {sha256 : HexDigest} {manifest result : LoadedManifest}
    (h : checkDigests rt sha256 manifest = .ok result) : IsValid rt sha256 result := by
  rw [checkDigests] at h
  obtain ⟨digest, hdigest, h⟩ := except_bind_ok.mp h
  obtain ⟨hcompatibility, h⟩ := except_guard_ok.mp h
  obtain ⟨identifier, hidentifier, h⟩ := except_bind_ok.mp h
  obtain ⟨hartifact, h⟩ := except_guard_ok.mp h
  obtain rfl := Except.ok.inj h
  exact ⟨manifest.paths_nodup, manifest.elements_total, manifest.fragments_total,
    isDigestOf_of_digestOf hdigest (Decidable.not_not.mp hcompatibility),
    isDigestOf_of_digestOf hidentifier (Decidable.not_not.mp hartifact)⟩

theorem raises_checkDigests_iff {sha256 : HexDigest} {manifest : LoadedManifest} :
    Raises IsCorruption (checkDigests rt sha256 manifest) ↔
      ¬ DigestEscapes rt sha256 manifest := by
  rw [checkDigests]
  constructor
  · intro h hescapes
    cases hescapes with
    | compatibility hnone => exact hnone (raises_digestOf_iff.mp h.of_bind)
    | seed hdigest hnone =>
      obtain ⟨bytes, hbytes, htext⟩ := hdigest
      have hguard := h.of_bind_ok (digestOf_ok_iff.mpr ⟨bytes, hbytes, rfl⟩)
      have hbehind := Raises.of_guard hguard (not_not_intro htext)
      exact hnone (raises_digestOf_iff.mp hbehind.of_bind)
  · intro hescapes
    have hcompatibility : Dumpable rt (asDict manifest.compatibility) := by
      by_contra hnone
      exact hescapes (.compatibility hnone)
    refine .bind_of_ok (raises_digestOf_iff.mpr hcompatibility) fun digest hdigest => ?_
    refine .guard_of_not (isCorruption _) fun htext => ?_
    have hfits := isDigestOf_of_digestOf hdigest (Decidable.not_not.mp htext)
    have hseed : Dumpable rt (seedOf manifest) := by
      by_contra hnone
      exact hescapes (.seed hfits hnone)
    exact .bind (raises_digestOf_iff.mpr hseed) fun _ => .guard (isCorruption _) (.ok _)

/-! ## The contract -/

/-- The parser returns a manifest that satisfies the invariants, or it raises a corruption
error. -/
def KeepsContract (rt : JsonRuntime) (sha256 : HexDigest) (payload : List UInt8) : Prop :=
  (∃ manifest, parseManifestBytes rt sha256 payload = .ok manifest ∧ IsValid rt sha256 manifest) ∨
    ∃ message, parseManifestBytes rt sha256 payload = .error (artifactCorruptionError message)

/-- Every way another exception leaves the parser: an integer is too long or the text nested
too deeply to be read, a field in the guarded block raises what the block does not name, or a
value that is read has no canonical bytes. -/
inductive Escapes (rt : JsonRuntime) (sha256 : HexDigest) (payload : List UInt8) : Prop
  | longInteger (h : loads rt payload = .error .longInteger)
  | nesting (h : loads rt payload = .error .nesting)
  | guarded {fields : List (PyJson × PyJson)} (hloads : loads rt payload = .ok (.dict fields))
    (hkeys : HasKeys rt (.dict fields) manifestKeys) (h : GuardEscapes rt (.dict fields))
  | digests {fields : List (PyJson × PyJson)} {manifest : LoadedManifest}
    (hloads : loads rt payload = .ok (.dict fields))
    (hkeys : HasKeys rt (.dict fields) manifestKeys)
    (hreads : ReadsManifest rt (.dict fields) manifest) (h : DigestEscapes rt sha256 manifest)

theorem raises_schemaChecked_iff {α : Type} {x : Except AstraError α} :
    Raises IsCorruption (schemaChecked x) ↔ Raises Caught x := by
  cases x with
  | ok a => exact iff_of_true (.ok a) (.ok a)
  | error e =>
    rw [schemaChecked, Raises.error_iff, Caught]
    by_cases hcaught : isSchemaError e = true
    · rw [if_pos hcaught]
      exact iff_of_true (.error (isCorruption _)) (.inl hcaught)
    · rw [if_neg hcaught, Raises.error_iff]
      exact ⟨.inr, fun h => h.resolve_left hcaught⟩

theorem schemaChecked_ok_iff {α : Type} {x : Except AstraError α} {a : α} :
    schemaChecked x = .ok a ↔ x = .ok a := by
  cases x with
  | ok b => exact Iff.rfl
  | error e =>
    rw [schemaChecked]
    split <;> simp

/-- The keys of a dictionary that is loaded can be collected. -/
theorem exists_setOf_loads {payload : List UInt8} {fields : List (PyJson × PyJson)}
    (h : loads rt payload = .ok (.dict fields)) : ∃ keys, setOf rt (.dict fields) = .ok keys := by
  have hkeys : ∀ item ∈ fields.map Prod.fst, ∃ key, hashKey rt item = .ok key := by
    intro item hitem
    obtain ⟨f, hf, rfl⟩ := List.mem_map.mp hitem
    obtain ⟨s, hs⟩ := loads_keys h f hf
    exact ⟨.text s, by rw [hs]; rfl⟩
  obtain ⟨keys, hmapM⟩ := Traverse.exists_mapM_ok hkeys
  exact ⟨keys, hmapM⟩

theorem raises_parseManifestBytes_iff {sha256 : HexDigest} {payload : List UInt8} :
    Raises IsCorruption (parseManifestBytes rt sha256 payload) ↔
      ¬ Escapes rt sha256 payload := by
  rw [parseManifestBytes]
  cases hloads : loads rt payload with
  | error e =>
    have hno : e ≠ .longInteger → e ≠ .nesting → ¬ Escapes rt sha256 payload := by
      intro hlong hnesting hescapes
      cases hescapes with
      | longInteger h => exact hlong (Except.error.inj (hloads.symm.trans h))
      | nesting h => exact hnesting (Except.error.inj (hloads.symm.trans h))
      | guarded h => cases hloads.symm.trans h
      | digests h => cases hloads.symm.trans h
    cases e with
    | notText | notJson => exact iff_of_true (.error (isCorruption _)) (hno (by decide) (by decide))
    | longInteger =>
      refine iff_of_false (fun h => ?_) fun h => h (.longInteger hloads)
      obtain ⟨message, heq⟩ := h _ rfl
      cases heq
    | nesting =>
      refine iff_of_false (fun h => ?_) fun h => h (.nesting hloads)
      obtain ⟨message, heq⟩ := h _ rfl
      simp [recursionError, artifactCorruptionError] at heq
  | ok value =>
    have hdict : (∀ fields, value ≠ .dict fields) → ¬ Escapes rt sha256 payload := by
      intro hnone hescapes
      cases hescapes with
      | longInteger h | nesting h => cases hloads.symm.trans h
      | guarded h | digests h => exact hnone _ (Except.ok.inj (hloads.symm.trans h))
    cases value with
    | dict fields =>
      obtain ⟨keys, hset⟩ := exists_setOf_loads hloads
      dsimp only
      rw [hset, except_ok_bind]
      constructor
      · intro h hescapes
        cases hescapes with
        | longInteger hother | nesting hother => cases hloads.symm.trans hother
        | guarded hother hkeys hguard =>
          obtain rfl := PyJson.dict.inj (Except.ok.inj (hloads.symm.trans hother))
          have hbehind := Raises.of_guard h (not_not_intro (hkeys.same_of_setOf hset))
          have hcaught := raises_schemaChecked_iff.mp hbehind.of_bind
          exact (raises_manifestOf_iff fun key hkey => hkeys.exists_item hkey).mp hcaught hguard
        | digests hother hkeys hreads hdigests =>
          obtain rfl := PyJson.dict.inj (Except.ok.inj (hloads.symm.trans hother))
          have hbehind := Raises.of_guard h (not_not_intro (hkeys.same_of_setOf hset))
          have hchecks := hbehind.of_bind_ok
            (schemaChecked_ok_iff.mpr (manifestOf_ok_iff.mpr hreads))
          exact raises_checkDigests_iff.mp hchecks hdigests
      · intro hescapes
        refine .guard_of_not (isCorruption _) fun hsame => ?_
        have hkeys := hasKeys_of_setOf hset (Decidable.not_not.mp hsame)
        have hguarded : Raises IsCorruption (schemaChecked (manifestOf rt (.dict fields))) := by
          rw [raises_schemaChecked_iff,
            raises_manifestOf_iff fun key hkey => hkeys.exists_item hkey]
          exact fun h => hescapes (.guarded hloads hkeys h)
        refine .bind_of_ok hguarded fun manifest hmanifest => ?_
        have hreads := manifestOf_ok_iff.mp (schemaChecked_ok_iff.mp hmanifest)
        exact raises_checkDigests_iff.mpr fun h => hescapes (.digests hloads hkeys hreads h)
    | _ => exact iff_of_true (.error (isCorruption _)) (hdict nofun)

/-- A manifest that is returned satisfies the invariants. -/
theorem isValid_of_parseManifestBytes {sha256 : HexDigest} {payload : List UInt8}
    {manifest : LoadedManifest} (h : parseManifestBytes rt sha256 payload = .ok manifest) :
    IsValid rt sha256 manifest := by
  rw [parseManifestBytes] at h
  split at h
  · cases h
  · cases h
  · cases h
  · cases h
  · obtain ⟨keys, -, h⟩ := except_bind_ok.mp h
    obtain ⟨-, h⟩ := except_guard_ok.mp h
    obtain ⟨made, -, h⟩ := except_bind_ok.mp h
    exact checkDigests_ok h
  · cases h

/-- The parser keeps its contract exactly when no other exception can leave it. -/
theorem parseManifestBytes_contract_iff (rt : JsonRuntime) (sha256 : HexDigest)
    (payload : List UInt8) : KeepsContract rt sha256 payload ↔ ¬ Escapes rt sha256 payload := by
  rw [← raises_parseManifestBytes_iff, KeepsContract]
  constructor
  · rintro (⟨manifest, hmanifest, -⟩ | ⟨message, herror⟩) e he
    · cases hmanifest.symm.trans he
    · obtain rfl := Except.error.inj (herror.symm.trans he)
      exact isCorruption message
  · intro h
    cases hresult : parseManifestBytes rt sha256 payload with
    | ok manifest => exact .inl ⟨manifest, rfl, isValid_of_parseManifestBytes hresult⟩
    | error e =>
      obtain ⟨message, rfl⟩ := h e hresult
      exact .inr ⟨message, rfl⟩

/-! ## An identifier that is a number -/

/-- A runtime that takes the literal of a float for its `repr`. -/
def asciiRuntime : JsonRuntime where
  floatRepr := id
  truncate? _ := none
  decimal? _ := none
  maxDigits := 4300
  decodeWide? _ _ := none
  decodeWidePass? _ _ := none
  numberLe _ _ := true
  maxNesting := 1000

/-- A manifest whose identifier is this JSON text. -/
def manifestText (documentId : String) : List UInt8 := utf8 (
  "\x7b\"format\":\"\",\"artifactId\":\"\",\"compatibilitySha256\":\"\",\"parts\":[],".toList ++
  "\"totals\":\x7b\x7d,\"identity\":\x7b\"documentVersion\":1,\"sourceSha256\":\"\",".toList ++
  "\"documentId\":".toList ++ documentId.toList ++
  "\x7d,\"compatibility\":\x7b\"schemaVersion\":\"\",\"parserName\":\"\",".toList ++
  "\"parserVersion\":\"\",\"parserProfile\":\"\",\"normalizerVersion\":\"\",".toList ++
  "\"splitterProfile\":\"\",\"splitterVersion\":\"\"\x7d\x7d".toList)

/-- The class of the exception that is raised. -/
def exceptionName : Except AstraError LoadedManifest → String
  | .error (.other name _ _) => name
  | _ => ""

/-- The identifier `5` has no attribute `replace`. -/
theorem not_keepsContract_number : ¬ ∀ (rt : JsonRuntime) (sha256 : HexDigest)
    (payload : List UInt8), KeepsContract rt sha256 payload := by
  intro hall
  have hname : exceptionName (parseManifestBytes asciiRuntime Sha256.hexDigest
      (manifestText "5")) = "AttributeError" := by decide +kernel
  rcases hall asciiRuntime Sha256.hexDigest (manifestText "5") with
    ⟨manifest, hok, -⟩ | ⟨message, herror⟩
  · rw [hok] at hname
    exact absurd (show "" = "AttributeError" from hname) (by decide)
  · rw [herror] at hname
    exact absurd (show "ArtifactCorruptionError" = "AttributeError" from hname) (by decide)

end Loaded

end AstraIndexator
