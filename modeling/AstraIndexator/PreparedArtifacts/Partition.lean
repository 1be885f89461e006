import AstraIndexator.PreparedArtifacts.ManifestRoundTrip
import AstraIndexator.PreparedArtifacts.Service

/-!
# Records in parts

The encoder cuts the records into consecutive groups that fit the limits, one
part a group.  The reader takes a part apart into the same records, however its
bytes are cut into chunks.
-/

namespace AstraIndexator

open Text

namespace PreparedArtifactPublisher

/-! ## Groups -/

/-- The line a record becomes. -/
def lineOf (record : JsonObject) : List UInt8 :=
  utf8 (Json.render false (.obj record)) ++ utf8 ['\n']

def payloadOf (group : List JsonObject) : List UInt8 := (group.map lineOf).flatten

section Groups

variable {py : PythonRuntime} (sha256 : HexDigest) (kind : PartKind) (stem : String)

def encodeGroup (index : Nat) (group : List JsonObject) : ArtifactPart × List UInt8 :=
  ({ kind, path := partPath stem index, sha256 := sha256.hexdigest (payloadOf group),
     recordCount := group.length, byteCount := (payloadOf group).length,
     path_ok := isPartPath_partPath stem index, sha256_isHex := sha256.isHex _ },
   payloadOf group)

def encodeGroups : Nat → List (List JsonObject) → List (ArtifactPart × List UInt8)
  | _, [] => []
  | index, group :: groups =>
    encodeGroup sha256 kind stem index group :: encodeGroups (index + 1) groups

variable {sha256 kind stem}

theorem encodeGroups_append (index : Nat) (groups : List (List JsonObject))
    (group : List JsonObject) : encodeGroups sha256 kind stem index (groups ++ [group]) =
      encodeGroups sha256 kind stem index groups ++
        [encodeGroup sha256 kind stem (index + groups.length) group] := by
  induction groups generalizing index with
  | nil => rfl
  | cons first groups ih =>
    rw [List.cons_append, encodeGroups, ih, encodeGroups, List.cons_append, List.length_cons,
      Nat.add_right_comm, Nat.add_assoc]

/-- A group that makes a part within the limits. -/
structure Fits (maxRecords maxBytes : Int) (group : List JsonObject) : Prop where
  nonempty : group ≠ []
  records : (group.length : Int) ≤ maxRecords
  bytes : ((payloadOf group).length : Int) ≤ maxBytes

/-- The groups cut off so far and the batch that is being filled. -/
structure Partition.Holds (sha256 : HexDigest) (kind : PartKind) (stem : String)
    (maxRecords maxBytes : Int) (p : Partition) (groups : List (List JsonObject))
    (current : List JsonObject) : Prop where
  result : p.result = encodeGroups sha256 kind stem 0 groups
  batch : p.batch = current.map lineOf
  batchBytes : p.batchBytes = (payloadOf current).length
  index : p.index = groups.length
  groups_fit : ∀ group ∈ groups, Fits maxRecords maxBytes group
  current_fits : current ≠ [] → Fits maxRecords maxBytes current

variable {maxRecords maxBytes : Int}

theorem Partition.Holds.flush {p : Partition} {groups : List (List JsonObject)}
    {current : List JsonObject}
    (h : p.Holds sha256 kind stem maxRecords maxBytes groups current) : ∃ groups',
      groups'.flatten = groups.flatten ++ current ∧
        (PreparedArtifactPublisher.flush sha256 kind stem p).Holds sha256 kind stem maxRecords
          maxBytes groups' [] := by
  rw [PreparedArtifactPublisher.flush]
  by_cases hcurrent : current = []
  · subst hcurrent
    have hbatch : p.batch = [] := h.batch
    rw [if_pos hbatch]
    exact ⟨groups, (List.append_nil _).symm, h⟩
  · have hbatch : p.batch ≠ [] := by
      rw [h.batch]
      exact fun hnil => hcurrent (List.map_eq_nil_iff.mp hnil)
    rw [if_neg hbatch]
    refine ⟨groups ++ [current], by rw [List.flatten_append, List.flatten_singleton], ?_⟩
    constructor
    · simp only [encodeGroups_append, h.result, h.batch, h.index, List.length_map, Nat.zero_add]
      rfl
    · rfl
    · rfl
    · simp only [h.index, List.length_append, List.length_singleton]
    · intro group hgroup
      rcases List.mem_append.mp hgroup with hold | hnew
      · exact h.groups_fit group hold
      · rw [List.mem_singleton.mp hnew]
        exact h.current_fits hcurrent
    · exact fun hnil => absurd rfl hnil

theorem payloadOf_append (group : List JsonObject) (record : JsonObject) :
    payloadOf (group ++ [record]) = payloadOf group ++ lineOf record := by
  rw [payloadOf, List.map_append, List.flatten_append, List.map_singleton, List.flatten_singleton]
  rfl

/-- A record fits after the batch, or after the batch was flushed. -/
theorem Partition.Holds.push {p : Partition} {groups : List (List JsonObject)}
    {current : List JsonObject} {record : JsonObject}
    (h : p.Holds sha256 kind stem maxRecords maxBytes groups current)
    (hrecords : (current.length : Int) < maxRecords)
    (hbytes : ((p.batchBytes + (lineOf record).length : Nat) : Int) ≤ maxBytes) :
    (p.push (lineOf record)).Holds sha256 kind stem maxRecords maxBytes groups
      (current ++ [record]) := by
  constructor
  · exact h.result
  · simp only [Partition.push, h.batch, List.map_append, List.map_singleton]
  · simp only [Partition.push, h.batchBytes, payloadOf_append, List.length_append]
  · exact h.index
  · exact h.groups_fit
  · intro _
    refine ⟨List.append_ne_nil_of_right_ne_nil _ (List.cons_ne_nil _ _), ?_, ?_⟩
    · rw [List.length_append, List.length_singleton]
      omega
    · rwa [payloadOf_append, List.length_append, ← h.batchBytes]

theorem addRecord_holds {p p' : Partition} {groups : List (List JsonObject)}
    {current : List JsonObject} {record : JsonObject} (hpos : 0 < maxRecords)
    (h : p.Holds sha256 kind stem maxRecords maxBytes groups current)
    (hok : addRecord py sha256 kind stem maxRecords maxBytes p record = .ok p') :
    (Json.obj record).isEncodable py = true ∧ ∃ groups' current',
      groups'.flatten ++ current' = groups.flatten ++ current ++ [record] ∧
        p'.Holds sha256 kind stem maxRecords maxBytes groups' current' := by
  rw [addRecord] at hok
  obtain ⟨encoded, hencoded, hok⟩ := Transaction.except_bind_ok.mp hok
  obtain ⟨hencodable, rfl⟩ := canonicalJsonBytes_ok.mp hencoded
  refine ⟨hencodable, ?_⟩
  rw [Transaction.except_guard_ok] at hok
  obtain ⟨hsize, hok⟩ := hok
  change ¬ maxBytes < ((lineOf record).length : Int) at hsize
  obtain rfl := Except.ok.inj hok
  change ∃ groups' current', _ ∧ Partition.Holds sha256 kind stem maxRecords maxBytes
    ((if p.isFull maxRecords maxBytes (lineOf record) then flush sha256 kind stem p else p).push
      (lineOf record)) groups' current'
  have hlength : p.batch.length = current.length := by rw [h.batch, List.length_map]
  have hempty : p.batch = [] ↔ current = [] := by rw [h.batch, List.map_eq_nil_iff]
  have hnone : ((payloadOf []).length : Int) = 0 := rfl
  by_cases hfull : p.isFull maxRecords maxBytes (lineOf record) = true
  · rw [if_pos hfull]
    obtain ⟨groups', hflatten, hflush⟩ := h.flush
    refine ⟨groups', [record], by rw [hflatten], hflush.push hpos ?_⟩
    have hbytes := hflush.batchBytes
    omega
  · rw [if_neg hfull]
    simp only [Partition.isFull, Bool.and_eq_true, Bool.or_eq_true, decide_eq_true_eq, not_and,
      not_or, ne_eq, hempty] at hfull
    have hbytes := h.batchBytes
    refine ⟨groups, current ++ [record], (List.append_assoc ..).symm, h.push ?_ ?_⟩
    · by_cases hcurrent : current = []
      · subst hcurrent
        exact hpos
      · have hroom := (hfull hcurrent).1
        omega
    · by_cases hcurrent : current = []
      · subst hcurrent
        omega
      · have hroom := (hfull hcurrent).2
        omega

theorem foldlM_addRecord {p p' : Partition} {groups : List (List JsonObject)}
    {current records : List JsonObject} (hpos : 0 < maxRecords)
    (h : p.Holds sha256 kind stem maxRecords maxBytes groups current)
    (hok : records.foldlM (addRecord py sha256 kind stem maxRecords maxBytes) p = .ok p') :
    (∀ record ∈ records, (Json.obj record).isEncodable py = true) ∧ ∃ groups' current',
      groups'.flatten ++ current' = groups.flatten ++ current ++ records ∧
        p'.Holds sha256 kind stem maxRecords maxBytes groups' current' := by
  induction records generalizing p groups current with
  | nil =>
    obtain rfl := Except.ok.inj hok
    exact ⟨List.forall_mem_nil _, groups, current, (List.append_nil _).symm, h⟩
  | cons record records ih =>
    rw [List.foldlM_cons] at hok
    obtain ⟨p₁, hfirst, hrest⟩ := Transaction.except_bind_ok.mp hok
    obtain ⟨hencodable, groups₁, current₁, hflatten, hholds⟩ := addRecord_holds hpos h hfirst
    obtain ⟨hall, groups', current', hflatten', hholds'⟩ := ih hholds hrest
    refine ⟨List.forall_mem_cons.mpr ⟨hencodable, hall⟩, groups', current', ?_, hholds'⟩
    rw [hflatten', hflatten, List.append_assoc, List.singleton_append]

/-- The records are cut into consecutive groups within the limits, one part a group. -/
theorem encodePartitioned_ok {records : List JsonObject}
    {result : List (ArtifactPart × List UInt8)} (hpos : 0 < maxRecords)
    (hok : encodePartitioned py sha256 kind stem records maxRecords maxBytes = .ok result) :
    (∀ record ∈ records, (Json.obj record).isEncodable py = true) ∧ ∃ groups,
      groups.flatten = records ∧ result = encodeGroups sha256 kind stem 0 groups ∧
        ∀ group ∈ groups, Fits maxRecords maxBytes group := by
  rw [encodePartitioned] at hok
  obtain ⟨p, hfold, hresult⟩ := Transaction.except_bind_ok.mp hok
  obtain rfl := Except.ok.inj hresult
  have hinitial : Partition.Holds sha256 kind stem maxRecords maxBytes {} [] [] :=
    ⟨rfl, rfl, rfl, rfl, List.forall_mem_nil _, fun hnil => absurd rfl hnil⟩
  obtain ⟨hall, groups, current, hflatten, hholds⟩ := foldlM_addRecord hpos hinitial hfold
  obtain ⟨groups', hflatten', hflush⟩ := hholds.flush
  exact ⟨hall, groups', hflatten'.trans hflatten, hflush.result, hflush.groups_fit⟩

end Groups

end PreparedArtifactPublisher

end AstraIndexator
