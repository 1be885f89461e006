import AstraIndexator.AstraVector.CanonicalHash
import AstraIndexator.Foundation.Transaction

/-!
# Delivery identity and compatibility

The verified source digest, the idempotency key of a session start, and the
fingerprint of everything a replay must agree on.
-/

namespace AstraIndexator

open Text

namespace DeliveryIdentity

def identityError (message : String) : AstraError := .valueError .deliveryIdentityError message

def requireSourceSha256 (value : Option String) (field : String) : Except AstraError String :=
  let message := field ++ " must be a 64-character lowercase SHA-256 hex digest"
  match value with
  | none => .error (identityError message)
  | some digest => if IsSha256Hex digest then .ok digest else .error (identityError message)

/-- `resolve_verified_source_sha256`.  The payload may repeat the durable digest, not
replace it. -/
def resolveVerifiedSourceSha256 (durableHash payloadHash : Option String) :
    Except AstraError String := do
  let durable ← requireSourceSha256 durableHash "durable source_content_hash"
  match payloadHash with
  | none => return durable
  | some hash =>
    if hash = "" then
      return durable
    let payload ← requireSourceSha256 (some hash) "delivery source_content_hash"
    if payload ≠ durable then
      throw (identityError
        "delivery source_content_hash differs from durable acquisition source_content_hash")
    return durable

/-- `str(UUID)`. -/
def uuidText (id : UUID) : String :=
  let digits := hexChars 32 id.toNat
  String.ofList (digits.take 8 ++ '-' :: (digits.drop 8).take 4 ++ '-' ::
    (digits.drop 12).take 4 ++ '-' :: (digits.drop 16).take 4 ++ '-' :: digits.drop 20)

def startIdempotencyKey (documentId : UUID) (documentVersion : Int) (sourceSha256 : String) :
    Except AstraError String := do
  if documentVersion ≤ 0 then
    throw (identityError "document_version must be positive")
  let digest ← requireSourceSha256 (some sourceSha256) "source_sha256"
  return "astra-indexator:" ++ uuidText documentId ++ ":" ++ toString documentVersion ++ ":" ++
    digest

theorem uuidText_length (id : UUID) : (uuidText id).toList.length = 36 := by
  simp [uuidText, hexChars_length]

/-- The text without its dashes is the number. -/
theorem uuidText_digits (id : UUID) :
    (uuidText id).toList.filter (fun c => c ≠ '-') = hexChars 32 id.toNat := by
  have hkeep : ∀ l : List Char, l ⊆ hexChars 32 id.toNat →
      l.filter (fun c => c ≠ '-') = l := by
    intro l hl
    rw [List.filter_eq_self]
    intro c hc
    have hdigit := hexChars_isHexDigit _ _ c (hl hc)
    rw [decide_eq_true_eq]
    rintro rfl
    cases hdigit
  have htake : ∀ i n, ((hexChars 32 id.toNat).drop i).take n ⊆ hexChars 32 id.toNat :=
    fun i n => List.Subset.trans (List.take_subset _ _) (List.drop_subset _ _)
  have hfirst := htake 0 8
  rw [List.drop_zero] at hfirst
  simp only [uuidText, String.toList_ofList, List.filter_append, List.filter_cons, ne_eq,
    not_true_eq_false, decide_false, Bool.false_eq_true, if_false]
  simp only [ne_eq] at hkeep
  rw [hkeep _ hfirst, hkeep _ (htake _ _), hkeep _ (htake _ _), hkeep _ (htake _ _),
    hkeep _ (List.drop_subset _ _)]
  have hjoin : ∀ i n, ((hexChars 32 id.toNat).drop i).take n ++
      (hexChars 32 id.toNat).drop (i + n) = (hexChars 32 id.toNat).drop i := by
    intro i n
    rw [← List.drop_drop, List.take_append_drop]
  simp only [List.append_assoc]
  rw [hjoin 16 4, hjoin 12 4, hjoin 8 4, List.take_append_drop]

theorem uuidText_injective {a b : UUID} (h : uuidText a = uuidText b) : a = b := by
  have hchars : hexChars 32 a.toNat = hexChars 32 b.toNat := by
    rw [← uuidText_digits, h, uuidText_digits]
  have hmod := mod_eq_of_hexChars_eq hchars
  have hpow : 16 ^ 32 = 2 ^ 128 := by decide
  rw [hpow, Nat.mod_eq_of_lt a.isLt, Nat.mod_eq_of_lt b.isLt] at hmod
  exact BitVec.eq_of_toNat_eq hmod


theorem requireSourceSha256_ok {value : Option String} {field digest : String} :
    requireSourceSha256 value field = .ok digest ↔ value = some digest ∧ IsSha256Hex digest := by
  unfold requireSourceSha256
  cases value with
  | none => simp
  | some s =>
    by_cases hs : IsSha256Hex s
    · simp only [if_pos hs, Except.ok.injEq, Option.some.injEq]
      constructor
      · rintro rfl
        exact ⟨rfl, hs⟩
      · exact fun h => h.1
    · simp only [if_neg hs, reduceCtorEq, Option.some.injEq, false_iff, not_and]
      rintro rfl
      exact hs

theorem startIdempotencyKey_ok {document : UUID} {version : Int} {source key : String}
    (h : startIdempotencyKey document version source = .ok key) :
    0 < version ∧ IsSha256Hex source ∧ key = "astra-indexator:" ++ uuidText document ++ ":" ++
      toString version ++ ":" ++ source := by
  rw [startIdempotencyKey, Transaction.except_guard_ok] at h
  obtain ⟨hversion, h⟩ := h
  obtain ⟨digest, hdigest, h⟩ := Transaction.except_bind_ok.mp h
  obtain ⟨hsource, hhex⟩ := requireSourceSha256_ok.mp hdigest
  obtain rfl := Option.some.inj hsource
  exact ⟨Int.not_le.mp hversion, hhex, (Except.ok.inj h).symm⟩

/-- The text of a positive number determines it. -/
theorem toString_injective {m n : Int} (hm : 0 < m) (hn : 0 < n)
    (h : toString m = toString n) : m = n := by
  obtain ⟨a, rfl⟩ := Int.eq_ofNat_of_zero_le (Int.le_of_lt hm)
  obtain ⟨b, rfl⟩ := Int.eq_ofNat_of_zero_le (Int.le_of_lt hn)
  have hdigits : Nat.toDigits 10 a = Nat.toDigits 10 b := by
    rw [← Nat.toList_repr, ← Nat.toList_repr]
    exact congrArg String.toList h
  rw [← @Nat.ofDigitChars_ten_toDigits a, hdigits, Nat.ofDigitChars_ten_toDigits]

/-- Two starts agree in their keys only if they agree in document, version and source. -/
theorem startIdempotencyKey_injective {document document' : UUID} {version version' : Int}
    {source source' key : String} (h : startIdempotencyKey document version source = .ok key)
    (h' : startIdempotencyKey document' version' source' = .ok key) :
    document = document' ∧ version = version' ∧ source = source' := by
  obtain ⟨hpos, hhex, hkey⟩ := startIdempotencyKey_ok h
  obtain ⟨hpos', hhex', hkey'⟩ := startIdempotencyKey_ok h'
  have htext := congrArg String.toList (hkey.symm.trans hkey')
  simp only [String.toList_append] at htext
  -- the two ends have fixed lengths
  have hlength : source.toList.length = source'.toList.length := hhex.1.trans hhex'.1.symm
  have hids : (uuidText document).toList.length = (uuidText document').toList.length := by
    rw [uuidText_length, uuidText_length]
  obtain ⟨hhead, hsource⟩ := List.append_inj' htext hlength
  obtain ⟨hhead, -⟩ := List.append_inj' hhead rfl
  obtain ⟨hhead, hversion⟩ := List.append_inj hhead (by
    rw [List.length_append, List.length_append, List.length_append, List.length_append, hids])
  obtain ⟨hhead, -⟩ := List.append_inj' hhead rfl
  obtain ⟨-, hdocument⟩ := List.append_inj hhead rfl
  have hdocument := uuidText_injective (String.toList_injective hdocument)
  have hversion := toString_injective hpos hpos' (String.toList_injective hversion)
  exact ⟨hdocument, hversion, String.toList_injective hsource⟩

end DeliveryIdentity

namespace DeliveryCompatibility

/-- `asdict(CURRENT_WIRE_CONTRACT)`. -/
def currentWireContract : Json := .obj [
  ("repository", .str "alimbetov/llm2"),
  ("proto_path", .str "proto/astravector_embedding.proto"),
  ("proto_blob_sha", .str "ed1eab5f56dfb73cc48927ad2effb759a2c4e01e"),
  ("grpc_impl_path", .str "src/grpc/mod.rs"),
  ("grpc_impl_blob_sha", .str "07afff94c4f3825ec953df55cd407ed7c653151a"),
  ("cargo_blob_sha", .str "c93a6e7e4f20995297e62f8be45503b107e55fa5"),
  ("canonical_hash_contract_version", .str "astravector-v007-fix4.5.2")]

def canonicalPayload (preparedCompatibilitySha256 : String) : Json := .obj [
  ("fingerprintVersion", .str "m8-delivery-compatibility-v1"),
  ("preparedCompatibilitySha256", .str preparedCompatibilitySha256),
  ("mappingRevision", .str "prepared-artifact-delivery-mapper-v1"),
  ("validationRevision", .str "logical-block-validation-v1"),
  ("wire", currentWireContract)]

def deliveryCompatibilitySha256 (sha256 : HexDigest) (preparedCompatibilitySha256 : String) :
    Except AstraError String :=
  if IsSha256Hex preparedCompatibilitySha256 then
    .ok (sha256.hexdigest (utf8 (Json.render true (canonicalPayload preparedCompatibilitySha256))))
  else .error (.valueError .deliveryCompatibilityError
    "prepared_compatibility_sha256 must be a 64-character lowercase SHA-256 digest")

theorem isSha256Hex_of_deliveryCompatibilitySha256 {sha256 : HexDigest} {prepared s : String}
    (h : deliveryCompatibilitySha256 sha256 prepared = .ok s) : IsSha256Hex s := by
  unfold deliveryCompatibilitySha256 at h
  split at h
  · rw [← Except.ok.inj h]
    exact sha256.isHex _
  · cases h

end DeliveryCompatibility

end AstraIndexator
