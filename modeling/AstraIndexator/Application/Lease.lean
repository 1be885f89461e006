import AstraIndexator.Application.Coordinator

/-!
# The lease of one job

The job row and the attempt rows of one job form a machine with three moves: a
claim opens a new attempt and closes the one it replaces, the owner touches the
row, and the owner finishes the attempt together with the job.  `Invariant` is
the bookkeeping every move keeps.
-/

namespace AstraIndexator

open JobCoordinator

/-- The job row and the attempt rows of one job, oldest attempt first. -/
structure LeaseRows where
  job : IndexationJob
  attempts : List ProcessingAttempt

/-- The columns of an attempt that are fixed when it is inserted. -/
structure ProcessingAttempt.SameLease (a a' : ProcessingAttempt) : Prop where
  id : a'.id = a.id
  number : a'.attemptNumber = a.attemptNumber
  generation : a'.leaseGeneration = a.leaseGeneration
  worker : a'.workerId = a.workerId

/-- The columns of a job that bound its attempts. -/
structure IndexationJob.SameCounters (j j' : IndexationJob) : Prop where
  generation : j'.leaseGeneration = j.leaseGeneration
  attemptCount : j'.attemptCount = j.attemptCount
  maxAttempts : j'.maxAttempts = j.maxAttempts

/-- The job is leased to someone at `now`. -/
def IndexationJob.Leased (job : IndexationJob) (now : Time) : Prop :=
  job.status = .processing ∧ job.leaseUntil.any (fun leaseUntil => now ≤ leaseUntil) = true

theorem IndexationJob.OwnedBy.leased {job : IndexationJob} {token : LeaseToken} {now : Time}
    (h : job.OwnedBy token now) : job.Leased now := h.2.2

theorem IndexationJob.OwnedBy.leaseUntil_ne_none {job : IndexationJob} {token : LeaseToken}
    {now : Time} (h : job.OwnedBy token now) : job.leaseUntil ≠ none := by
  intro hnone
  have hlease := h.2.2.2
  rw [hnone] at hlease
  cases hlease

/-- The states no operation leaves. -/
def JobStatus.Terminal (s : JobStatus) : Prop :=
  s = .completed ∨ s = .failed ∨ s = .deadLetter

instance (s : JobStatus) : Decidable s.Terminal := inferInstanceAs (Decidable (_ ∨ _ ∨ _))

namespace LeaseRows

/-- The unfinished attempt with the highest number. -/
def openAttempt? (attempts : List ProcessingAttempt) : Option ProcessingAttempt :=
  firstBy? (fun a b => decide (b.attemptNumber < a.attemptNumber))
    (attempts.filter (fun a => a.finishedAt.isNone))

/-- Rewrite the attempt with identifier `id`. -/
def rewrite (id : UUID) (f : ProcessingAttempt → ProcessingAttempt)
    (attempts : List ProcessingAttempt) : List ProcessingAttempt :=
  attempts.map (fun a => if a.id = id then f a else a)

/-- A rewrite that closes a row and keeps its lease. -/
def Closes (f : ProcessingAttempt → ProcessingAttempt) : Prop :=
  ∀ a, a.SameLease (f a) ∧ (f a).finishedAt ≠ none

/-- The attempts a claim leaves behind: a claim of a PROCESSING job closes the
unfinished one. -/
def Replaced (r : LeaseRows) (attempts' : List ProcessingAttempt) : Prop :=
  (r.job.status ≠ .processing ∧ attempts' = r.attempts) ∨
    (r.job.status = .processing ∧ openAttempt? r.attempts = none ∧ attempts' = r.attempts) ∨
    (r.job.status = .processing ∧ ∃ previous f, openAttempt? r.attempts = some previous ∧
      Closes f ∧ attempts' = rewrite previous.id f r.attempts)

/-- The kinds of move, with the state an attempt is finished into. -/
inductive Move
  | touch
  | claim
  | finish (status : JobStatus)

/-- One move of the lease of a job at time `now`. -/
inductive Step (now : Time) : Move → LeaseRows → LeaseRows → Prop
  | touch {r : LeaseRows} (job' : IndexationJob) (hleased : r.job.Leased now)
      (hstatus : job'.status = .processing) (hlease : job'.leaseUntil ≠ none)
      (hsame : r.job.SameCounters job') : Step now .touch r { r with job := job' }
  | claim {r : LeaseRows} (job' : IndexationJob) (kept : List ProcessingAttempt)
      (a : ProcessingAttempt) (hclaimable : Claimable now r.job) (hkept : r.Replaced kept)
      (hstatus : job'.status = .processing) (hlease : job'.leaseUntil ≠ none)
      (hgeneration : job'.leaseGeneration = r.job.leaseGeneration + 1)
      (hcount : job'.attemptCount = r.job.attemptCount + 1)
      (hmax : job'.maxAttempts = r.job.maxAttempts)
      (hnumber : a.attemptNumber = r.job.attemptCount + 1)
      (hgeneration' : a.leaseGeneration = r.job.leaseGeneration + 1)
      (hopen : a.finishedAt = none) :
      Step now .claim r { job := job', attempts := kept ++ [a] }
  | finish {r : LeaseRows} (job' : IndexationJob) (current : ProcessingAttempt)
      (f : ProcessingAttempt → ProcessingAttempt) (hleased : r.job.Leased now)
      (hmem : current ∈ r.attempts) (hcurrent : current.leaseGeneration = r.job.leaseGeneration)
      (hcloses : Closes f)
      (hstatus : job'.status.Terminal ∨ job'.status = .retryWait)
      (hsame : r.job.SameCounters job') :
      Step now (.finish job'.status) r
        { job := job', attempts := rewrite current.id f r.attempts }

/-! ## Invariant -/

/-- Generations and attempts are counted alike, and a job is being processed exactly
when its newest attempt is open. -/
structure Invariant (r : LeaseRows) : Prop where
  generation : r.job.leaseGeneration = r.job.attemptCount
  numbers : r.attempts.map (·.attemptNumber) = List.range' 1 r.job.attemptCount
  generations : r.attempts.map (·.leaseGeneration) = List.range' 1 r.job.attemptCount
  budget : r.job.attemptCount ≤ r.job.maxAttempts
  opened : r.job.status = .processing →
    ∃ a ∈ r.attempts, a.finishedAt = none ∧ a.leaseGeneration = r.job.leaseGeneration
  closed : ∀ a ∈ r.attempts, a.finishedAt = none →
    r.job.status = .processing ∧ a.leaseGeneration = r.job.leaseGeneration

namespace Invariant

variable {r : LeaseRows}

theorem length_attempts (h : r.Invariant) : r.attempts.length = r.job.attemptCount := by
  have := congrArg List.length h.numbers
  simpa using this

theorem eq_of_generation_eq (h : r.Invariant) {a b : ProcessingAttempt} (ha : a ∈ r.attempts)
    (hb : b ∈ r.attempts) (heq : a.leaseGeneration = b.leaseGeneration) : a = b := by
  refine List.inj_on_of_nodup_map ?_ ha hb heq
  rw [h.generations]
  exact List.nodup_range'

theorem generation_le (h : r.Invariant) {a : ProcessingAttempt} (ha : a ∈ r.attempts) :
    a.leaseGeneration ≤ r.job.leaseGeneration := by
  have hmem : a.leaseGeneration ∈ r.attempts.map (·.leaseGeneration) :=
    List.mem_map.mpr ⟨a, ha, rfl⟩
  rw [h.generations, List.mem_range'] at hmem
  obtain ⟨i, hi, heq⟩ := hmem
  have := h.generation
  omega

/-- A job is PROCESSING exactly when one attempt is open, and that attempt carries
the current generation. -/
theorem processing_iff (h : r.Invariant) :
    r.job.status = .processing ↔
      ∃ a, r.attempts.filter (fun a => a.finishedAt.isNone) = [a] ∧
        a.leaseGeneration = r.job.leaseGeneration := by
  constructor
  · intro hprocessing
    obtain ⟨a, ha, hopen, hgen⟩ := h.opened hprocessing
    refine ⟨a, ?_, hgen⟩
    have hnodup : r.attempts.Nodup := by
      have : (r.attempts.map (·.leaseGeneration)).Nodup := by
        rw [h.generations]
        exact List.nodup_range'
      exact this.of_map
    have hunique : ∀ b ∈ r.attempts, b.finishedAt.isNone = true → b = a := by
      intro b hb hbopen
      rw [Option.isNone_iff_eq_none] at hbopen
      exact h.eq_of_generation_eq hb ha ((h.closed b hb hbopen).2.trans hgen.symm)
    refine List.perm_singleton.mp ((List.perm_ext_iff_of_nodup (hnodup.filter _)
      (List.nodup_singleton a)).mpr fun b => ?_)
    rw [List.mem_filter, List.mem_singleton]
    constructor
    · rintro ⟨hb, hbopen⟩
      exact hunique b hb hbopen
    · rintro rfl
      exact ⟨ha, Option.isNone_iff_eq_none.mpr hopen⟩
  · rintro ⟨a, hfilter, -⟩
    have ha : a ∈ r.attempts.filter (fun a => a.finishedAt.isNone) := by
      rw [hfilter]
      exact List.mem_singleton_self a
    rw [List.mem_filter, Option.isNone_iff_eq_none] at ha
    exact (h.closed a ha.1 ha.2).1

end Invariant

/-- A job right after its submission. -/
structure Fresh (r : LeaseRows) : Prop where
  status : r.job.status = .pending
  generation : r.job.leaseGeneration = 0
  attemptCount : r.job.attemptCount = 0
  attempts : r.attempts = []

theorem Fresh.invariant {r : LeaseRows} (h : r.Fresh) : r.Invariant where
  generation := by rw [h.generation, h.attemptCount]
  numbers := by rw [h.attempts, h.attemptCount]; rfl
  generations := by rw [h.attempts, h.attemptCount]; rfl
  budget := by rw [h.attemptCount]; exact Nat.zero_le _
  opened hst := by rw [h.status] at hst; cases hst
  closed a ha := by rw [h.attempts] at ha; cases ha

/-! ## What a rewrite keeps -/

section Rewrite

variable {f : ProcessingAttempt → ProcessingAttempt} {id : UUID} {l : List ProcessingAttempt}

theorem map_rewrite {α : Type} (g : ProcessingAttempt → α)
    (hg : ∀ a, g (f a) = g a) : (rewrite id f l).map g = l.map g := by
  unfold rewrite
  rw [List.map_map]
  apply List.map_congr_left
  intro a _
  show g (if a.id = id then f a else a) = g a
  split
  · exact hg a
  · rfl

theorem mem_rewrite {b : ProcessingAttempt} (h : b ∈ rewrite id f l) :
    ∃ a ∈ l, (a.id = id ∧ b = f a) ∨ (a.id ≠ id ∧ b = a) := by
  obtain ⟨a, ha, rfl⟩ := List.mem_map.mp h
  refine ⟨a, ha, ?_⟩
  by_cases hid : a.id = id
  · exact .inl ⟨hid, if_pos hid⟩
  · exact .inr ⟨hid, if_neg hid⟩

/-- Closing the attempt of the current generation leaves no attempt open. -/
theorem rewrite_closed {r : LeaseRows} (hr : r.Invariant) (hf : Closes f)
    {current : ProcessingAttempt} (hmem : current ∈ r.attempts)
    (hcurrent : current.leaseGeneration = r.job.leaseGeneration) {b : ProcessingAttempt}
    (hb : b ∈ rewrite current.id f r.attempts) : b.finishedAt ≠ none := by
  intro hopen
  obtain ⟨a, ha, ⟨-, rfl⟩ | ⟨hne, rfl⟩⟩ := mem_rewrite hb
  · exact (hf a).2 hopen
  · have hgen := (hr.closed b ha hopen).2
    exact hne (congrArg (·.id) (hr.eq_of_generation_eq ha hmem (hgen.trans hcurrent.symm)))

end Rewrite

theorem Replaced.map {r : LeaseRows} {kept : List ProcessingAttempt} (h : r.Replaced kept)
    {α : Type} (g : ProcessingAttempt → α)
    (hg : ∀ a b : ProcessingAttempt, a.SameLease b → g b = g a) :
    kept.map g = r.attempts.map g := by
  obtain ⟨-, rfl⟩ | ⟨-, -, rfl⟩ | ⟨-, previous, f, -, hf, rfl⟩ := h
  · rfl
  · rfl
  · exact map_rewrite g fun a => hg a (f a) (hf a).1

/-- A claim leaves no earlier attempt open. -/
theorem Replaced.closed {r : LeaseRows} {kept : List ProcessingAttempt} (h : r.Replaced kept)
    (hr : r.Invariant) {b : ProcessingAttempt} (hb : b ∈ kept) : b.finishedAt ≠ none := by
  obtain ⟨hst, rfl⟩ | ⟨hst, hnone, rfl⟩ | ⟨hst, previous, f, hprev, hf, rfl⟩ := h
  · exact fun hopen => hst (hr.closed b hb hopen).1
  · intro hopen
    rw [openAttempt?, firstBy?_eq_none] at hnone
    have hmem : b ∈ r.attempts.filter (fun a => a.finishedAt.isNone) :=
      List.mem_filter.mpr ⟨hb, Option.isNone_iff_eq_none.mpr hopen⟩
    rw [hnone] at hmem
    cases hmem
  · have hmem := List.mem_filter.mp (firstBy?_mem hprev)
    have hgen := (hr.closed previous hmem.1 (Option.isNone_iff_eq_none.mp hmem.2)).2
    exact rewrite_closed hr hf hmem.1 hgen hb

theorem Step.invariant {now : Time} {m : Move} {r r' : LeaseRows} (h : Step now m r r')
    (hr : r.Invariant) : r'.Invariant := by
  cases h with
  | touch job' hleased hstatus hlease hsame =>
    refine ⟨?_, ?_, ?_, ?_, ?_, ?_⟩
    · rw [hsame.generation, hsame.attemptCount, hr.generation]
    · rw [hsame.attemptCount]
      exact hr.numbers
    · rw [hsame.attemptCount]
      exact hr.generations
    · rw [hsame.attemptCount, hsame.maxAttempts]
      exact hr.budget
    · intro _
      rw [hsame.generation]
      exact hr.opened hleased.1
    · intro a ha hopen
      rw [hsame.generation]
      exact ⟨hstatus, (hr.closed a ha hopen).2⟩
  | claim job' kept a hclaimable hkept hstatus hlease hgeneration hcount hmax hnumber hgeneration'
      hopen =>
    have hrange : List.range' 1 (r.job.attemptCount + 1) =
        List.range' 1 r.job.attemptCount ++ [r.job.attemptCount + 1] := by
      rw [List.range'_1_concat, Nat.add_comm 1]
    refine ⟨?_, ?_, ?_, ?_, ?_, ?_⟩
    · rw [hgeneration, hcount, hr.generation]
    · rw [List.map_append, hkept.map _ fun _ _ h => h.number, hr.numbers, hcount, hrange]
      simp [hnumber]
    · rw [List.map_append, hkept.map _ fun _ _ h => h.generation, hr.generations, hcount, hrange]
      simp [hgeneration', hr.generation]
    · rw [hcount, hmax]
      exact hclaimable.2.2
    · intro _
      exact ⟨a, by simp, hopen, hgeneration'.trans hgeneration.symm⟩
    · intro b hb hbopen
      rcases List.mem_append.mp hb with hb | hb
      · exact absurd hbopen (hkept.closed hr hb)
      · rw [List.mem_singleton.mp hb]
        exact ⟨hstatus, hgeneration'.trans hgeneration.symm⟩
  | finish job' current f hleased hmem hcurrent hcloses hstatus hsame =>
    refine ⟨?_, ?_, ?_, ?_, ?_, ?_⟩
    · rw [hsame.generation, hsame.attemptCount, hr.generation]
    · rw [map_rewrite _ fun a => (hcloses a).1.number, hsame.attemptCount]
      exact hr.numbers
    · rw [map_rewrite _ fun a => (hcloses a).1.generation, hsame.attemptCount]
      exact hr.generations
    · rw [hsame.attemptCount, hsame.maxAttempts]
      exact hr.budget
    · intro hst
      rcases hstatus with (h | h | h) | h
      · rw [h] at hst; cases hst
      · rw [h] at hst; cases hst
      · rw [h] at hst; cases hst
      · rw [h] at hst; cases hst
    · intro b hb hbopen
      exact absurd hbopen (rewrite_closed hr hcloses hmem hcurrent hb)

/-! ## Tokens -/

/-- The token names an attempt of the job. -/
def Issued (r : LeaseRows) (token : LeaseToken) : Prop :=
  ∃ a ∈ r.attempts, a.id = token.attemptId ∧ a.leaseGeneration = token.leaseGeneration ∧
    a.workerId = token.workerId

instance (r : LeaseRows) (token : LeaseToken) : Decidable (r.Issued token) :=
  inferInstanceAs (Decidable (∃ a ∈ r.attempts, _ ∧ _ ∧ _))

/-- The job was reclaimed after the generation was handed out, or left PROCESSING. -/
def Retired (r : LeaseRows) (generation : Nat) : Prop :=
  generation < r.job.leaseGeneration ∨
    (generation ≤ r.job.leaseGeneration ∧ r.job.status ≠ .processing)

/-- Two tokens of one generation are one token. -/
theorem Invariant.token_unique {r : LeaseRows} (hr : r.Invariant) {token token' : LeaseToken}
    (hjob : token.jobId = token'.jobId) (h : r.Issued token) (h' : r.Issued token')
    (hsame : token.leaseGeneration = token'.leaseGeneration) : token = token' := by
  obtain ⟨a, ha, hid, hgen, hworker⟩ := h
  obtain ⟨a', ha', hid', hgen', hworker'⟩ := h'
  obtain rfl := hr.eq_of_generation_eq ha ha' (by rw [hgen, hgen', hsame])
  cases token
  cases token'
  simp_all

/-- An issued token is retired, or the job is in progress under its generation. -/
theorem Invariant.retired_iff {r : LeaseRows} (hr : r.Invariant) {token : LeaseToken}
    (h : r.Issued token) : r.Retired token.leaseGeneration ↔
      ¬ (r.job.status = .processing ∧ r.job.leaseGeneration = token.leaseGeneration) := by
  obtain ⟨a, ha, -, hgen, -⟩ := h
  have hle : token.leaseGeneration ≤ r.job.leaseGeneration := by
    rw [← hgen]
    exact hr.generation_le ha
  constructor
  · rintro (hlt | ⟨-, hst⟩) ⟨hprocessing, heq⟩
    · omega
    · exact hst hprocessing
  · intro hnot
    by_cases hprocessing : r.job.status = .processing
    · have hne : r.job.leaseGeneration ≠ token.leaseGeneration := fun heq =>
        hnot ⟨hprocessing, heq⟩
      exact .inl (by omega)
    · exact .inr ⟨hle, hprocessing⟩

theorem Retired.not_owned {r : LeaseRows} {token : LeaseToken}
    (h : r.Retired token.leaseGeneration) (now : Time) : ¬ r.job.OwnedBy token now := by
  rintro ⟨-, hgen, hprocessing, -⟩
  rcases h with h | ⟨-, h⟩
  · omega
  · exact h hprocessing

section Kept

variable {now : Time} {m : Move} {r r' : LeaseRows} {token : LeaseToken} {generation : Nat}

theorem Step.generation_le (h : Step now m r r') :
    r.job.leaseGeneration ≤ r'.job.leaseGeneration := by
  cases h with
  | touch job' _ _ _ hsame => exact hsame.generation.ge
  | claim job' kept a _ _ _ _ hgeneration => rw [hgeneration]; exact Nat.le_succ _
  | finish job' _ _ _ _ _ _ _ hsame => exact hsame.generation.ge

theorem Step.retired (h : Step now m r r') (hr : r.Retired generation) : r'.Retired generation := by
  rcases hr with hr | ⟨hle, hst⟩
  · exact .inl (hr.trans_le h.generation_le)
  · cases h with
    | touch job' hleased => exact absurd hleased.1 hst
    | claim job' kept a _ _ _ _ hgeneration =>
      refine .inl ?_
      rw [hgeneration]
      exact Nat.lt_succ_of_le hle
    | finish job' _ _ hleased => exact absurd hleased.1 hst

theorem issued_rewrite {f : ProcessingAttempt → ProcessingAttempt} {id : UUID}
    {l : List ProcessingAttempt} (hf : Closes f) {j j' : IndexationJob}
    (h : Issued { job := j, attempts := l } token) :
    Issued { job := j', attempts := rewrite id f l } token := by
  obtain ⟨a, ha, hid, hgen, hworker⟩ := h
  refine ⟨if a.id = id then f a else a, List.mem_map.mpr ⟨a, ha, rfl⟩, ?_⟩
  split
  · exact ⟨(hf a).1.id.trans hid, (hf a).1.generation.trans hgen, (hf a).1.worker.trans hworker⟩
  · exact ⟨hid, hgen, hworker⟩

theorem Step.issued (h : Step now m r r') (hi : r.Issued token) : r'.Issued token := by
  cases h with
  | touch job' _ _ _ _ => exact hi
  | claim job' kept a _ hkept =>
    have hkeep : Issued { job := job', attempts := kept } token := by
      obtain ⟨-, rfl⟩ | ⟨-, -, rfl⟩ | ⟨-, previous, f, -, hf, rfl⟩ := hkept
      · exact hi
      · exact hi
      · exact issued_rewrite hf hi
    obtain ⟨b, hb, hrest⟩ := hkeep
    exact ⟨b, List.mem_append_left _ hb, hrest⟩
  | finish job' current f _ _ _ hcloses => exact issued_rewrite hcloses hi

theorem Step.touched {now : Time} {r r' : LeaseRows} (h : Step now .touch r r') :
    r'.job.status = .processing := by
  cases h with
  | touch _ _ hstatus => exact hstatus

theorem Step.finished {now : Time} {status : JobStatus} {r r' : LeaseRows}
    (h : Step now (.finish status) r r') : r'.job.status = status := by
  cases h with
  | finish job' => rfl

/-- No move starts from a terminal job. -/
theorem Step.not_terminal (h : Step now m r r') : ¬ r.job.status.Terminal := by
  intro hterm
  have hcases : r.job.status = .pending ∨ r.job.status = .retryWait ∨
      r.job.status = .processing := by
    cases h with
    | touch job' hleased => exact .inr (.inr hleased.1)
    | claim job' kept a hclaimable =>
      rcases hclaimable.1 with h | ⟨h, -⟩ | ⟨h, -⟩
      · exact .inl h
      · exact .inr (.inl h)
      · exact .inr (.inr h)
    | finish job' _ _ hleased => exact .inr (.inr hleased.1)
  rcases hterm with h | h | h
  · rw [h] at hcases; simp at hcases
  · rw [h] at hcases; simp at hcases
  · rw [h] at hcases; simp at hcases

end Kept

/-! ## Recovery -/

/-- A waiting job has attempts left and a job in progress has a lease. -/
structure Recoverable (r : LeaseRows) : Prop where
  waiting : r.job.status = .pending ∨ r.job.status = .retryWait →
    r.job.attemptCount < r.job.maxAttempts
  leased : r.job.status = .processing → r.job.leaseUntil ≠ none
  notCancelled : r.job.status ≠ .cancelled

theorem Fresh.recoverable {r : LeaseRows} (h : r.Fresh) : r.Recoverable where
  waiting _ := by rw [h.attemptCount]; exact r.job.maxAttempts_pos
  leased hst := by rw [h.status] at hst; cases hst
  notCancelled hst := by rw [h.status] at hst; cases hst

/-- Every move keeps the job recoverable, if an attempt is put back only while the
budget lasts. -/
theorem Step.recoverable {now : Time} {m : Move} {r r' : LeaseRows} (h : Step now m r r')
    (hbudget : m = .finish .retryWait → r.job.attemptCount < r.job.maxAttempts) :
    r'.Recoverable := by
  cases h with
  | touch job' _ hstatus hlease _ =>
    refine ⟨fun hst => ?_, fun _ => hlease, fun hst => ?_⟩
    · rw [hstatus] at hst; simp at hst
    · rw [hstatus] at hst; cases hst
  | claim job' kept a _ _ hstatus hlease =>
    refine ⟨fun hst => ?_, fun _ => hlease, fun hst => ?_⟩
    · rw [hstatus] at hst; simp at hst
    · rw [hstatus] at hst; cases hst
  | finish job' _ _ _ _ _ _ hstatus hsame =>
    rcases hstatus with hterm | hretry
    · refine ⟨fun hst => ?_, fun hst => ?_, fun hst => ?_⟩
      · rcases hterm with h | h | h <;> rw [h] at hst <;> simp at hst
      · rcases hterm with h | h | h <;> rw [h] at hst <;> cases hst
      · rcases hterm with h | h | h <;> rw [h] at hst <;> cases hst
    · refine ⟨fun _ => ?_, fun hst => ?_, fun hst => ?_⟩
      · rw [hsame.attemptCount, hsame.maxAttempts]
        exact hbudget (by rw [hretry])
      · rw [hretry] at hst; cases hst
      · rw [hretry] at hst; cases hst

/-- The last attempt of the budget let its lease expire. -/
def Exhausted (now : Time) (job : IndexationJob) : Prop :=
  job.status = .processing ∧ job.attemptCount = job.maxAttempts ∧
    job.leaseUntil.any (fun leaseUntil => leaseUntil < now) = true

instance (now : Time) (job : IndexationJob) : Decidable (Exhausted now job) :=
  inferInstanceAs (Decidable (_ ∧ _ ∧ _))

/-- No move starts from an exhausted job, now or later. -/
theorem Step.not_exhausted {now now' : Time} {m : Move} {r r' : LeaseRows}
    (h : Step now' m r r') (hle : now ≤ now') : ¬ Exhausted now r.job := by
  rintro ⟨-, hcount, hlease⟩
  have hexpired : ¬ r.job.Leased now' := by
    rintro ⟨-, hleased⟩
    cases hu : r.job.leaseUntil with
    | none => rw [hu] at hlease; cases hlease
    | some u =>
      rw [hu] at hlease hleased
      simp only [Option.any_some, decide_eq_true_eq] at hlease hleased
      exact Int.not_le.mpr (Int.lt_of_lt_of_le hlease hle) hleased
  cases h with
  | touch job' hleased => exact hexpired hleased
  | claim job' kept a hclaimable => exact absurd hclaimable.2.2 (by omega)
  | finish job' _ _ hleased => exact hexpired hleased

end LeaseRows

end AstraIndexator
