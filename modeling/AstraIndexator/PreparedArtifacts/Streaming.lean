import AstraIndexator.PreparedArtifacts.Partition

/-!
# Streamed parts

What the reader makes of a stream depends only on the bytes of the stream, and
on the bytes of an encoded part it returns the records of the part.
-/

namespace AstraIndexator

open Text PreparedArtifactPublisher

namespace PreparedArtifactReader

/-! ## Lines -/

theorem splitLines_newline (bs : List UInt8) :
    splitLines (10 :: bs) = ([] :: (splitLines bs).1, (splitLines bs).2) := rfl

theorem splitLines_other {b : UInt8} (hb : b ≠ 10) (bs : List UInt8) : splitLines (b :: bs) =
    match (splitLines bs).1 with
    | [] => ([], b :: (splitLines bs).2)
    | line :: lines => ((b :: line) :: lines, (splitLines bs).2) := by
  exact if_neg hb

theorem splitLines_append (xs ys : List UInt8) : splitLines (xs ++ ys) =
    ((splitLines xs).1 ++ (splitLines ((splitLines xs).2 ++ ys)).1,
      (splitLines ((splitLines xs).2 ++ ys)).2) := by
  induction xs with
  | nil => rfl
  | cons b bs ih =>
    by_cases hb : b = 10
    · subst hb
      rw [List.cons_append, splitLines_newline, splitLines_newline, ih]
      rfl
    · rw [List.cons_append, splitLines_other hb, splitLines_other hb, ih]
      cases hlines : (splitLines bs).1 with
      | nil =>
        rw [List.nil_append, List.cons_append, splitLines_other hb]
        cases (splitLines ((splitLines bs).2 ++ ys)).1 with
        | nil => rfl
        | cons line lines => rfl
      | cons line lines => rfl

/-- A line without a line break in it, and what follows. -/
theorem splitLines_line {line : List UInt8} (hline : 10 ∉ line) (rest : List UInt8) :
    splitLines (line ++ 10 :: rest) = (line :: (splitLines rest).1, (splitLines rest).2) := by
  induction line with
  | nil => exact splitLines_newline rest
  | cons b line ih =>
    have hb : b ≠ 10 := fun h => hline (h ▸ List.mem_cons_self)
    rw [List.cons_append, splitLines, ih (List.not_mem_of_not_mem_cons hline)]
    simp only [if_neg hb]

section Reading

variable {py : PythonRuntime} {sha256 : HexDigest} {path : String}

theorem readLines_append (xs ys : List (List UInt8)) : readLines py path (xs ++ ys) =
    (readLines py path xs).bind fun records =>
      (readLines py path ys).map fun more => records ++ more := by
  induction xs with
  | nil =>
    rw [List.nil_append, readLines]
    cases readLines py path ys with
    | error e => rfl
    | ok more => rfl
  | cons line lines ih =>
    rw [List.cons_append, readLines, readLines]
    by_cases hline : line = []
    · rw [if_pos hline, if_pos hline, ih]
    · rw [if_neg hline, if_neg hline]
      cases hload : Json.loads py line with
      | error e =>
        cases e with
        | invalid => rfl
        | tooManyDigits => rfl
      | ok value =>
        cases value with
        | obj record =>
          simp only [ih]
          cases readLines py path lines with
          | error e => rfl
          | ok records =>
            cases readLines py path ys with
            | error e => rfl
            | ok more => rfl
        | null => rfl
        | bool b => rfl
        | int n => rfl
        | float repr => rfl
        | str s => rfl
        | arr items => rfl

/-- What a scan has made of the bytes `seen`. -/
def scanOf (seen : List UInt8) (records : List JsonObject) : PartScan :=
  { seen, buffer := (splitLines seen).2, records }

/-- The loop over the chunks depends only on the bytes it goes through. -/
theorem foldlM_scanChunk {chunks : List (List UInt8)} {seen : List UInt8}
    {records : List JsonObject} (h : readLines py path (splitLines seen).1 = .ok records) :
    chunks.foldlM (scanChunk py path) (scanOf seen records) =
      (readLines py path (splitLines (seen ++ chunks.flatten)).1).map
        (scanOf (seen ++ chunks.flatten)) := by
  induction chunks generalizing seen records with
  | nil =>
    rw [List.flatten_nil, List.append_nil, h]
    rfl
  | cons chunk chunks ih =>
    have hlines := splitLines_append seen chunk
    have hstep : scanChunk py path (scanOf seen records) chunk =
        (readLines py path (splitLines (seen ++ chunk)).1).map (scanOf (seen ++ chunk)) := by
      rw [hlines, readLines_append, h, scanChunk, scanOf]
      simp only [Except.bind]
      cases readLines py path (splitLines ((splitLines seen).2 ++ chunk)).1 with
      | error e => rfl
      | ok more =>
        change Except.ok (PartScan.mk _ _ _) = Except.ok (scanOf (seen ++ chunk) (records ++ more))
        rw [scanOf, hlines]
    rw [List.foldlM_cons, hstep, List.flatten_cons, ← List.append_assoc]
    cases hread : readLines py path (splitLines (seen ++ chunk)).1 with
    | error e =>
      rw [splitLines_append (seen ++ chunk), readLines_append, hread]
      rfl
    | ok records' => exact ih hread

/-- The records in the bytes of a part. -/
def readBytes (py : PythonRuntime) (sha256 : HexDigest) (part : ArtifactPart)
    (bytes : List UInt8) : Except AstraError (List JsonObject) := do
  let records ← readLines py part.path (splitLines bytes).1
  finishPart sha256 part (scanOf bytes records)

/-- However the bytes are cut, the stream is read as its bytes are. -/
theorem readStream_eq (part : ArtifactPart) (chunks : List (List UInt8)) :
    readStream py sha256 part { chunks } = readBytes py sha256 part chunks.flatten := by
  have hstart : readLines py part.path (splitLines []).1 = .ok [] := rfl
  have hfold := @foldlM_scanChunk py part.path chunks [] [] hstart
  rw [List.nil_append] at hfold
  rw [readStream, readBytes]
  change chunks.foldlM (scanChunk py part.path) (scanOf [] []) >>= _ = _
  rw [hfold]
  cases readLines py part.path (splitLines chunks.flatten).1 with
  | error e => rfl
  | ok records => rfl

theorem finishPart_ok {part : ArtifactPart} {scan : PartScan} (hbuffer : scan.buffer = [])
    (hlength : scan.seen.length = part.byteCount)
    (hdigest : sha256.hexdigest scan.seen = part.sha256)
    (hcount : scan.records.length = part.recordCount) :
    finishPart sha256 part scan = .ok scan.records := by
  have hfits : ¬ (scan.seen.length ≠ part.byteCount ∨ sha256.hexdigest scan.seen ≠ part.sha256) :=
    fun h => h.elim (fun h => h hlength) (fun h => h hdigest)
  rw [finishPart, if_neg (not_not.mpr hbuffer), if_neg hfits, if_neg (not_not.mpr hcount)]
  rfl

/-- Records are returned only from bytes that fit the digest and the counts. -/
theorem readBytes_ok {part : ArtifactPart} {bytes : List UInt8} {records : List JsonObject}
    (h : readBytes py sha256 part bytes = .ok records) :
    readLines py part.path (splitLines bytes).1 = .ok records ∧ (splitLines bytes).2 = [] ∧
      bytes.length = part.byteCount ∧ sha256.hexdigest bytes = part.sha256 ∧
      records.length = part.recordCount := by
  rw [readBytes] at h
  obtain ⟨records', hlines, h⟩ := Transaction.except_bind_ok.mp h
  rw [finishPart, Transaction.except_guard_ok] at h
  obtain ⟨hbuffer, h⟩ := h
  rw [Transaction.except_guard_ok] at h
  obtain ⟨hdigest, h⟩ := h
  rw [Transaction.except_guard_ok] at h
  obtain ⟨hcount, h⟩ := h
  obtain rfl := Except.ok.inj h
  simp only [scanOf, ne_eq, not_not, not_or] at hbuffer hdigest hcount
  exact ⟨hlines, hbuffer, hdigest.1, hdigest.2, hcount⟩

/-- A stream that breaks off yields no records. -/
theorem readStream_failure {part : ArtifactPart} {stream : ByteStream} {e : AstraError}
    (h : stream.failure = some e) : ∃ e', readStream py sha256 part stream = .error e' := by
  rw [readStream, h]
  cases stream.chunks.foldlM (scanChunk py part.path) {} with
  | error e' => exact ⟨e', rfl⟩
  | ok scan => exact ⟨e, rfl⟩

/-! ## Encoded parts -/

theorem newline_not_mem_record {record : JsonObject} (hvalid : Json.Valid py (.obj record)) :
    10 ∉ utf8 (Json.render false (.obj record)) := by
  intro hmem
  have hn : (10 : UInt8) = UInt8.ofNat 10 := rfl
  rw [hn] at hmem
  exact Json.newline_not_mem_render hvalid (Json.mem_of_mem_utf8 (by decide) hmem)

theorem splitLines_payloadOf {group : List JsonObject}
    (hvalid : ∀ record ∈ group, Json.Valid py (.obj record)) :
    splitLines (payloadOf group) =
      (group.map fun record => utf8 (Json.render false (.obj record)), []) := by
  induction group with
  | nil => rfl
  | cons record group ih =>
    have hrest := ih fun r hr => hvalid r (List.mem_cons_of_mem _ hr)
    have hpayload : payloadOf (record :: group) =
        utf8 (Json.render false (.obj record)) ++ 10 :: payloadOf group := by
      rw [payloadOf, List.map_cons, List.flatten_cons, lineOf, List.append_assoc]
      rfl
    rw [hpayload, splitLines_line (newline_not_mem_record (hvalid record List.mem_cons_self)),
      hrest]
    rfl

theorem readLines_records {group : List JsonObject}
    (hvalid : ∀ record ∈ group, Json.Valid py (.obj record))
    (hencodable : ∀ record ∈ group, (Json.obj record).isEncodable py = true) :
    readLines py path (group.map fun record => utf8 (Json.render false (.obj record))) =
      .ok (group.map JsonObject.sorted) := by
  induction group with
  | nil => rfl
  | cons record group ih =>
    have hrest := ih (fun r hr => hvalid r (List.mem_cons_of_mem _ hr))
      (fun r hr => hencodable r (List.mem_cons_of_mem _ hr))
    have hload := Json.loads_render (hvalid record List.mem_cons_self)
      (hencodable record List.mem_cons_self)
      (List.forall_mem_nil (fun c => Json.isWhitespace c = true))
    have hne : utf8 (Json.render false (.obj record)) ≠ [] := by
      obtain ⟨c, rest, htext, -⟩ := Json.exists_render_obj record
      rw [htext]
      exact List.append_ne_nil_of_left_ne_nil String.utf8EncodeChar_ne_nil _
    rw [List.append_nil, sorted_obj] at hload
    rw [List.map_cons, readLines, if_neg hne, hload, hrest]
    rfl

/-- The bytes of an encoded group are read as its records. -/
theorem readBytes_payloadOf {kind : PartKind} {stem : String} {index : Nat}
    {group : List JsonObject} (hvalid : ∀ record ∈ group, Json.Valid py (.obj record))
    (hencodable : ∀ record ∈ group, (Json.obj record).isEncodable py = true) :
    readBytes py sha256 (encodeGroup sha256 kind stem index group).1 (payloadOf group) =
      .ok (group.map JsonObject.sorted) := by
  have hbuffer : (splitLines (payloadOf group)).2 = [] := by rw [splitLines_payloadOf hvalid]
  rw [readBytes, splitLines_payloadOf hvalid, readLines_records hvalid hencodable,
    Transaction.except_ok_bind]
  exact finishPart_ok hbuffer rfl rfl (List.length_map _)

end Reading

end PreparedArtifactReader

end AstraIndexator
