import AstraIndexator.Persistence.Delivery
import Mathlib.Logic.Function.Basic
import Mathlib.Logic.Relation

/-!
# The delivery rows of one job

The rows of one job form a small machine: the checkpoint is created once, its
write-once columns are filled in, a batch is staged at the next index, and the
staged batch is accepted.  `Step` lists these four moves.  `Consistent` and
`Progress` are what a move keeps; both are inherited by every transaction that
refines a sequence of moves.
-/

namespace AstraIndexator

open Relation

/-- The checkpoint and the batch rows of one job. -/
structure DeliveryRows where
  checkpoint : Option DeliveryCheckpoint
  batch : Nat → Option DeliveryBatch

def Database.delivery (db : Database) (jobId : UUID) : DeliveryRows :=
  { checkpoint := db.checkpoint? jobId, batch := db.batch? jobId }

/-- A column that is written once keeps its first value. -/
def KeepsValue {α : Type} (old new : Option α) : Prop := ∀ a, old = some a → new = some a

theorem KeepsValue.refl {α : Type} (a : Option α) : KeepsValue a a := fun _ h => h

theorem KeepsValue.trans {α : Type} {a b c : Option α} (hab : KeepsValue a b)
    (hbc : KeepsValue b c) : KeepsValue a c := fun x hx => hbc x (hab x hx)

/-- Writing the value a column holds, or any value into an empty column. -/
theorem KeepsValue.of_absent_or_eq {α : Type} {old : Option α} {a : α}
    (h : ¬ (old ≠ none ∧ old ≠ some a)) : KeepsValue old (some a) := by
  intro b hb
  by_contra hne
  apply h
  rw [hb]
  exact ⟨by simp, fun heq => hne (by rw [heq])⟩

namespace DeliveryCheckpoint

/-- The write-once columns of a checkpoint. -/
structure Keeps (c c' : DeliveryCheckpoint) : Prop where
  session : KeepsValue c.ingestionSessionId c'.ingestionSessionId
  finalHash : KeepsValue c.finalContentHash c'.finalContentHash
  zone : KeepsValue c.resolvedAccessZoneId c'.resolvedAccessZoneId
  compatibility : KeepsValue c.deliveryCompatibilitySha256 c'.deliveryCompatibilitySha256

theorem Keeps.refl (c : DeliveryCheckpoint) : c.Keeps c :=
  ⟨.refl _, .refl _, .refl _, .refl _⟩

theorem Keeps.trans {c₁ c₂ c₃ : DeliveryCheckpoint} (h : c₁.Keeps c₂) (h' : c₂.Keeps c₃) :
    c₁.Keeps c₃ :=
  ⟨h.session.trans h'.session, h.finalHash.trans h'.finalHash, h.zone.trans h'.zone,
    h.compatibility.trans h'.compatibility⟩

/-- A change that leaves the append position alone. -/
structure Annotates (c c' : DeliveryCheckpoint) : Prop extends c.Keeps c' where
  next : c'.nextBatchIndex = c.nextBatchIndex
  last : c'.lastAcceptedBatchIndex = c.lastAcceptedBatchIndex

/-- The append position after the next batch is accepted. -/
structure Advances (c c' : DeliveryCheckpoint) : Prop extends c.Keeps c' where
  next : c'.nextBatchIndex = c.nextBatchIndex + 1
  last : c'.lastAcceptedBatchIndex = some c.nextBatchIndex

/-- A checkpoint before the first batch. -/
structure Initial (c : DeliveryCheckpoint) : Prop where
  next : c.nextBatchIndex = 0
  last : c.lastAcceptedBatchIndex = none
  finalHash : c.finalContentHash = none

end DeliveryCheckpoint

/-- The columns of a batch row that are fixed when it is inserted. -/
structure DeliveryBatch.SameContent (b b' : DeliveryBatch) : Prop where
  hash : b'.batchContentHash = b.batchContentHash
  blockCount : b'.blockCount = b.blockCount
  serializedBytes : b'.serializedBytes = b.serializedBytes

namespace DeliveryRows

/-- The index of the next batch, also before the checkpoint exists. -/
def position (d : DeliveryRows) : Nat := (d.checkpoint.map (·.nextBatchIndex)).getD 0

theorem position_of_checkpoint {d : DeliveryRows} {c : DeliveryCheckpoint}
    (h : d.checkpoint = some c) : d.position = c.nextBatchIndex := by
  rw [position, h]
  rfl

/-- One move of the delivery rows. -/
inductive Step : DeliveryRows → DeliveryRows → Prop
  | create {d : DeliveryRows} (c : DeliveryCheckpoint) (hnone : d.checkpoint = none)
      (hinitial : c.Initial) : Step d { d with checkpoint := some c }
  | annotate {d : DeliveryRows} {c : DeliveryCheckpoint} (c' : DeliveryCheckpoint)
      (hc : d.checkpoint = some c) (hann : c.Annotates c') :
      Step d { d with checkpoint := some c' }
  | stage {d : DeliveryRows} {c : DeliveryCheckpoint} (b : DeliveryBatch)
      (hc : d.checkpoint = some c) (hfree : d.batch c.nextBatchIndex = none)
      (hprepared : b.status = .prepared) (hhash : IsSha256Hex b.batchContentHash) :
      Step d { d with batch := Function.update d.batch c.nextBatchIndex (some b) }
  | accept {d : DeliveryRows} {c : DeliveryCheckpoint} {b : DeliveryBatch}
      (c' : DeliveryCheckpoint) (acceptedAt : Time) (hc : d.checkpoint = some c)
      (hb : d.batch c.nextBatchIndex = some b) (hprepared : b.status = .prepared)
      (hadv : c.Advances c') :
      Step d {
        checkpoint := some c'
        batch := Function.update d.batch c.nextBatchIndex
          (some (DeliveryBatchRepository.acceptRow acceptedAt b)) }

/-! ## Consistency -/

/-- The batch row of index `i` is ACCEPTED. -/
def AcceptedAt (d : DeliveryRows) (i : Nat) : Prop :=
  ∃ b, d.batch i = some b ∧ b.status = .accepted

/-- The batch row of index `i` is PREPARED. -/
def PreparedAt (d : DeliveryRows) (i : Nat) : Prop :=
  ∃ b, d.batch i = some b ∧ b.status = .prepared

/-- The append position counts the accepted rows, and at most the next row is
staged. -/
structure Consistent (d : DeliveryRows) : Prop where
  unopened : d.checkpoint = none → ∀ i, d.batch i = none
  accepted : ∀ c, d.checkpoint = some c → ∀ i, d.AcceptedAt i ↔ i < c.nextBatchIndex
  prepared : ∀ c, d.checkpoint = some c → ∀ i, d.PreparedAt i → i = c.nextBatchIndex
  last : ∀ c, d.checkpoint = some c →
    c.lastAcceptedBatchIndex = if c.nextBatchIndex = 0 then none else some (c.nextBatchIndex - 1)

/-- Every stored hash is a digest. -/
def Hashed (d : DeliveryRows) : Prop :=
  ∀ i b, d.batch i = some b → IsSha256Hex b.batchContentHash

/-- A job without delivery rows. -/
def Absent (d : DeliveryRows) : Prop := d.checkpoint = none ∧ ∀ i, d.batch i = none

theorem Absent.consistent {d : DeliveryRows} (h : d.Absent) : d.Consistent where
  unopened _ := h.2
  accepted c hc := by rw [h.1] at hc; cases hc
  prepared c hc := by rw [h.1] at hc; cases hc
  last c hc := by rw [h.1] at hc; cases hc

theorem Absent.hashed {d : DeliveryRows} (h : d.Absent) : d.Hashed := by
  intro i b hb
  rw [h.2 i] at hb
  cases hb

theorem Consistent.acceptedAt_iff {d : DeliveryRows} (h : d.Consistent) {i : Nat} :
    d.AcceptedAt i ↔ i < d.position := by
  cases hc : d.checkpoint with
  | none =>
    rw [position, hc]
    simp [AcceptedAt, h.unopened hc i]
  | some c =>
    rw [position_of_checkpoint hc]
    exact h.accepted c hc i

theorem acceptedAt_update_of_ne {d : DeliveryRows} {cp : Option DeliveryCheckpoint} {n i : Nat}
    {b : Option DeliveryBatch} (h : i ≠ n) :
    AcceptedAt { checkpoint := cp, batch := Function.update d.batch n b } i ↔ d.AcceptedAt i := by
  simp [AcceptedAt, Function.update_of_ne h]

theorem preparedAt_update_of_ne {d : DeliveryRows} {cp : Option DeliveryCheckpoint} {n i : Nat}
    {b : Option DeliveryBatch} (h : i ≠ n) :
    PreparedAt { checkpoint := cp, batch := Function.update d.batch n b } i ↔ d.PreparedAt i := by
  simp [PreparedAt, Function.update_of_ne h]

theorem Step.consistent {d d' : DeliveryRows} (h : Step d d') (hd : d.Consistent) :
    d'.Consistent := by
  cases h with
  | create c hnone hinitial =>
    have hempty := hd.unopened hnone
    refine ⟨fun h => by simp at h, ?_, ?_, ?_⟩
    · rintro _ ⟨⟩ i
      simp [AcceptedAt, hempty i, hinitial.next]
    · rintro _ ⟨⟩ i ⟨b, hb, -⟩
      rw [hempty i] at hb
      cases hb
    · rintro _ ⟨⟩
      rw [hinitial.last, hinitial.next, if_pos rfl]
  | annotate c' hc hann =>
    refine ⟨fun h => by simp at h, ?_, ?_, ?_⟩
    · rintro _ ⟨⟩ i
      rw [hann.next]
      exact hd.accepted _ hc i
    · rintro _ ⟨⟩ i hi
      rw [hann.next]
      exact hd.prepared _ hc i hi
    · rintro _ ⟨⟩
      rw [hann.next, hann.last]
      exact hd.last _ hc
  | @stage c b hc hfree hprepared hhash =>
    refine ⟨fun h => ?_, ?_, ?_, ?_⟩
    · rw [hc] at h
      cases h
    · intro c₁ hc₁ i
      obtain rfl : c = c₁ := Option.some.inj (hc.symm.trans hc₁)
      by_cases hi : i = c.nextBatchIndex
      · subst hi
        simp [AcceptedAt, hprepared]
      · exact (acceptedAt_update_of_ne hi).trans (hd.accepted c hc i)
    · intro c₁ hc₁ i hi
      obtain rfl : c = c₁ := Option.some.inj (hc.symm.trans hc₁)
      by_cases hne : i = c.nextBatchIndex
      · exact hne
      · exact hd.prepared c hc i ((preparedAt_update_of_ne hne).mp hi)
    · intro c₁ hc₁
      exact hd.last c₁ hc₁
  | @accept c b c' acceptedAt hc hb hprepared hadv =>
    refine ⟨fun h => by simp at h, ?_, ?_, ?_⟩
    · rintro _ ⟨⟩ i
      rw [hadv.next]
      by_cases hi : i = c.nextBatchIndex
      · subst hi
        simp [AcceptedAt, DeliveryBatchRepository.acceptRow]
      · rw [acceptedAt_update_of_ne hi, hd.accepted c hc i]
        omega
    · rintro _ ⟨⟩ i hi
      -- the only staged row was the one just accepted
      by_cases hne : i = c.nextBatchIndex
      · subst hne
        obtain ⟨b', hb', hst⟩ := hi
        simp only [Function.update_self, Option.some.injEq] at hb'
        rw [← hb'] at hst
        cases hst
      · exact absurd (hd.prepared c hc i ((preparedAt_update_of_ne hne).mp hi)) hne
    · rintro _ ⟨⟩
      rw [hadv.next, hadv.last]
      simp

theorem Step.hashed {d d' : DeliveryRows} (h : Step d d') (hd : d.Hashed) : d'.Hashed := by
  intro i b hb
  cases h with
  | create => exact hd i b hb
  | annotate => exact hd i b hb
  | @stage c b' hc hfree hprepared hhash =>
    by_cases hi : i = c.nextBatchIndex
    · subst hi
      simp only [Function.update_self, Option.some.injEq] at hb
      rw [← hb]
      exact hhash
    · exact hd i b ((Function.update_of_ne hi _ _).symm.trans hb)
  | @accept c b' c' acceptedAt hc hb' =>
    by_cases hi : i = c.nextBatchIndex
    · subst hi
      simp only [Function.update_self, Option.some.injEq] at hb
      rw [← hb]
      exact hd _ b' hb'
    · exact hd i b ((Function.update_of_ne hi _ _).symm.trans hb)

/-! ## Progress -/

/-- What later rows owe to earlier ones: the append position does not fall, the
write-once columns keep their values, and a batch row keeps its content. -/
structure Progress (d d' : DeliveryRows) : Prop where
  checkpoint : ∀ c, d.checkpoint = some c →
    ∃ c', d'.checkpoint = some c' ∧ c.nextBatchIndex ≤ c'.nextBatchIndex ∧ c.Keeps c'
  batch : ∀ i b, d.batch i = some b →
    ∃ b', d'.batch i = some b' ∧ b.SameContent b' ∧ (b.status = .accepted → b' = b)

theorem Progress.refl (d : DeliveryRows) : d.Progress d where
  checkpoint c hc := ⟨c, hc, Nat.le_refl _, .refl c⟩
  batch _ b hb := ⟨b, hb, ⟨rfl, rfl, rfl⟩, fun _ => rfl⟩

theorem Progress.trans {d₁ d₂ d₃ : DeliveryRows} (h : d₁.Progress d₂) (h' : d₂.Progress d₃) :
    d₁.Progress d₃ where
  checkpoint c hc := by
    obtain ⟨c₂, hc₂, hle, hk⟩ := h.checkpoint c hc
    obtain ⟨c₃, hc₃, hle', hk'⟩ := h'.checkpoint c₂ hc₂
    exact ⟨c₃, hc₃, hle.trans hle', hk.trans hk'⟩
  batch i b hb := by
    obtain ⟨b₂, hb₂, hsame, hacc⟩ := h.batch i b hb
    obtain ⟨b₃, hb₃, hsame', hacc'⟩ := h'.batch i b₂ hb₂
    refine ⟨b₃, hb₃, ⟨hsame'.hash.trans hsame.hash, hsame'.blockCount.trans hsame.blockCount,
      hsame'.serializedBytes.trans hsame.serializedBytes⟩, ?_⟩
    intro hst
    obtain rfl := hacc hst
    exact hacc' hst

theorem Step.progress {d d' : DeliveryRows} (h : Step d d') : d.Progress d' := by
  cases h with
  | create c hnone hinitial =>
    refine ⟨fun c₁ hc₁ => ?_, (Progress.refl d).batch⟩
    rw [hnone] at hc₁
    cases hc₁
  | annotate c' hc hann =>
    refine ⟨fun c₁ hc₁ => ?_, (Progress.refl d).batch⟩
    obtain rfl := Option.some.inj (hc.symm.trans hc₁)
    exact ⟨c', rfl, hann.next.ge, hann.toKeeps⟩
  | @stage c b hc hfree hprepared hhash =>
    refine ⟨(Progress.refl d).checkpoint, fun i b₁ hb₁ => ?_⟩
    have hi : i ≠ c.nextBatchIndex := by
      rintro rfl
      rw [hfree] at hb₁
      cases hb₁
    exact ⟨b₁, (Function.update_of_ne hi _ _).trans hb₁, ⟨rfl, rfl, rfl⟩, fun _ => rfl⟩
  | @accept c b c' acceptedAt hc hb hprepared hadv =>
    refine ⟨fun c₁ hc₁ => ?_, fun i b₁ hb₁ => ?_⟩
    · obtain rfl := Option.some.inj (hc.symm.trans hc₁)
      exact ⟨c', rfl, by rw [hadv.next]; omega, hadv.toKeeps⟩
    · by_cases hi : i = c.nextBatchIndex
      · subst hi
        obtain rfl := Option.some.inj (hb.symm.trans hb₁)
        refine ⟨_, Function.update_self _ _ _, ⟨rfl, rfl, rfl⟩, fun hst => ?_⟩
        rw [hprepared] at hst
        cases hst
      · exact ⟨b₁, (Function.update_of_ne hi _ _).trans hb₁, ⟨rfl, rfl, rfl⟩, fun _ => rfl⟩

abbrev Steps : DeliveryRows → DeliveryRows → Prop := ReflTransGen Step

theorem Steps.consistent {d d' : DeliveryRows} (h : Steps d d') (hd : d.Consistent) :
    d'.Consistent := by
  induction h with
  | refl => exact hd
  | tail _ hstep ih => exact hstep.consistent ih

theorem Steps.hashed {d d' : DeliveryRows} (h : Steps d d') (hd : d.Hashed) : d'.Hashed := by
  induction h with
  | refl => exact hd
  | tail _ hstep ih => exact hstep.hashed ih

theorem Progress.position_le {d d' : DeliveryRows} (h : d.Progress d') :
    d.position ≤ d'.position := by
  cases hc : d.checkpoint with
  | none =>
    rw [position, hc]
    exact Nat.zero_le _
  | some c =>
    obtain ⟨c', hc', hle, -⟩ := h.checkpoint c hc
    rwa [position_of_checkpoint hc, position_of_checkpoint hc']

theorem Steps.progress {d d' : DeliveryRows} (h : Steps d d') : d.Progress d' := by
  induction h with
  | refl => exact .refl d
  | tail _ hstep ih => exact ih.trans hstep.progress

end DeliveryRows

end AstraIndexator
