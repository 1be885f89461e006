import AstraIndexator.Acquisition.Service

/-!
# Promotion of a source

Attempts acquire their sources at the same time.  Every one may be stopped or refused anywhere,
what it writes reaches its file in pieces, and the files of any attempt may be removed.  A file
is promoted only with the bytes that were streamed, digested and validated.
-/

namespace AstraIndexator

open Prog SafeAcquisitionService

/-! ## The system -/

/-- Others leave the files of an attempt as they are, or remove them. -/
structure AttemptFiles.Keeps (a b : AttemptFiles) : Prop where
  part : b.part = a.part ∨ b.part = none
  validated : b.validated = a.validated ∨ b.validated = none

namespace AttemptFiles.Keeps

variable {a b c : AttemptFiles}

theorem refl (a : AttemptFiles) : Keeps a a := ⟨.inl rfl, .inl rfl⟩

theorem trans (h : Keeps a b) (h' : Keeps b c) : Keeps a c := by
  constructor
  · rcases h'.part with hpart | hpart
    · rw [hpart]
      exact h.part
    · exact .inr hpart
  · rcases h'.validated with hvalidated | hvalidated
    · rw [hvalidated]
      exact h.validated
    · exact .inr hvalidated

end AttemptFiles.Keeps

/-- A scavenger or a cleanup removes a file below the directory of an attempt. -/
inductive Removal
  | part (root : AttemptRoot)
  | validated (root : AttemptRoot)

def Removal.apply : Removal → Files → Files
  | .part root, s => Function.update s root { s root with part := none }
  | .validated root, s => Function.update s root { s root with validated := none }

theorem Removal.keeps (m : Removal) (s : Files) (root : AttemptRoot) :
    (s root).Keeps (m.apply s root) := by
  cases m with
  | part removed =>
    by_cases heq : root = removed
    · subst heq
      rw [apply, Function.update_self]
      exact ⟨.inr rfl, .inl rfl⟩
    · rw [apply, Function.update_of_ne heq]
      exact .refl _
  | validated removed =>
    by_cases heq : root = removed
    · subst heq
      rw [apply, Function.update_self]
      exact ⟨.inl rfl, .inr rfl⟩
    · rw [apply, Function.update_of_ne heq]
      exact .refl _

/-- Attempts that acquire their sources. -/
abbrev attempts (self : Config) : System AttemptRoot AcquireRequest AcquisitionOp
    AcquisitionOp.Result AcquisitionException LocatedSource Files where
  Choice := AcquisitionOp.Choice
  exec := AcquisitionOp.exec
  program := acquire self
  mayStart _ _ := true
  Move := Removal
  move := Removal.apply

/-! ## Operations -/

abbrev AcquisitionEvent := Event AcquisitionOp AcquisitionOp.Result AcquisitionException

namespace AcquisitionOp

variable {root other : AttemptRoot} {op : AcquisitionOp} {c : op.Choice} {s : Files}
  {e : AcquisitionException}

theorem exec_answer : (exec root op c s).1 = (effect op c (s root)).1 := rfl

theorem exec_self : (exec root op c s).2 root = (effect op c (s root)).2 := Function.update_self ..

theorem exec_of_ne (h : other ≠ root) : (exec root op c s).2 other = s other :=
  Function.update_of_ne h ..

/-- The operation leaves the files as they are. -/
def Quiet : AcquisitionOp → Prop
  | unlinkPart | unlinkValidated | openPart | write _ | sync | closePart | replace => False
  | _ => True

theorem Quiet.effect (h : op.Quiet) (a : AttemptFiles) : (op.effect c a).2 = a := by
  cases op with
  | readPart =>
    cases c with
    | some e => rfl
    | none =>
      cases hpart : a.part with
      | none => simp [AcquisitionOp.effect, hpart]
      | some f => simp [AcquisitionOp.effect, hpart]
  | unlinkPart | unlinkValidated | openPart | write chunk | sync | closePart | replace =>
    exact h.elim
  | monotonic | utcNow | head ref | iterBytes ref | record m | mkdirRoot | diskFree | mkdirIncoming
  | attemptUsage => rfl

/-- The metric says how the call ended. -/
def isReport : AcquisitionOp → Bool
  | record (.acquisitionCompleted ..) | record (.acquisitionFailed ..) => true
  | _ => false

def Unreporting (op : AcquisitionOp) : Prop := op.isReport = false

/-- The operation leaves the files and does not say how the call ended. -/
def Modest (op : AcquisitionOp) : Prop := op.Quiet ∧ op.Unreporting

theorem raised_error {α : Type} {x : Except PortException α} (h : raised x = .error e) :
    ∃ p, e = .port p := by
  cases x with
  | ok a => cases h
  | error p => exact ⟨p, (Except.error.inj h).symm⟩

theorem outcome_error {x : Option PortException} (h : outcome x = .error e) : ∃ p, e = .port p := by
  cases x with
  | none => cases h
  | some p => exact ⟨p, (Except.error.inj h).symm⟩

/-- What an operation raises comes from the storage or the file system. -/
theorem effect_error {a : AttemptFiles} (h : (effect op c a).1 = .error e) : ∃ p, e = .port p := by
  cases op with
  | monotonic | utcNow => cases h
  | head ref | iterBytes ref | diskFree | attemptUsage => exact raised_error h
  | record m | mkdirRoot | mkdirIncoming | write chunk | sync | closePart => exact outcome_error h
  | unlinkPart | unlinkValidated =>
    cases c with
    | none => cases h
    | some p => exact ⟨p, (Except.error.inj h).symm⟩
  | openPart =>
    cases c with
    | some p => exact ⟨p, (Except.error.inj h).symm⟩
    | none =>
      cases hpart : a.part with
      | none => simp [effect, hpart] at h
      | some f =>
        simp only [effect, hpart] at h
        exact ⟨_, (Except.error.inj h).symm⟩
  | readPart | replace =>
    cases c with
    | some p => exact ⟨p, (Except.error.inj h).symm⟩
    | none =>
      cases hpart : a.part with
      | some f => simp [effect, hpart] at h
      | none =>
        simp only [effect, hpart] at h
        exact ⟨_, (Except.error.inj h).symm⟩

end AcquisitionOp

/-! ## What may be written and promoted -/

section Safety

/-- Bytes that may be promoted. -/
structure Admissible (service : Config) (data : List UInt8) : Prop where
  nonempty : data ≠ []
  size : (data.length : Int) ≤ service.policy.maxSourceBytes
  identified : ∃ name verdict, identify service name data = .ok verdict

/-- Files that are not too large, and promoted only with admissible bytes. -/
structure AttemptFiles.Sane (service : Config) (a : AttemptFiles) : Prop where
  part : ∀ f, a.part = some f → f.content ≠ [] →
    (f.content.length : Int) ≤ service.policy.maxSourceBytes
  validated : ∀ data, a.validated = some data → Admissible service data

variable (self : Config)

/-- What an operation owes: no write exceeds the limit, and what is renamed is admissible. -/
def AcquisitionOp.Permitted (a : AttemptFiles) : AcquisitionOp → Prop
  | .write chunk => ∀ f, a.part = some f →
      ((f.content ++ chunk).length : Int) ≤ self.policy.maxSourceBytes
  | .replace => ∀ f, a.part = some f → Admissible self f.written
  | _ => True

variable {self} {a b : AttemptFiles}

theorem AttemptFiles.Sane.keeps (h : a.Sane self) (hkeeps : a.Keeps b) : b.Sane self := by
  constructor
  · intro f hf
    rcases hkeeps.part with hpart | hpart
    · exact h.part f (hpart ▸ hf)
    · rw [hpart] at hf
      cases hf
  · intro data hdata
    rcases hkeeps.validated with hvalidated | hvalidated
    · exact h.validated data (hvalidated ▸ hdata)
    · rw [hvalidated] at hdata
      cases hdata

/-- An operation on the part file that leaves its content. -/
theorem AttemptFiles.Sane.map_part (h : a.Sane self) {g : PartFile → PartFile}
    (hg : ∀ f, (g f).content = f.content) :
    AttemptFiles.Sane self { a with part := a.part.map g } := by
  refine ⟨fun f hf hne => ?_, h.validated⟩
  obtain ⟨f, hpart, rfl⟩ := Option.map_eq_some_iff.mp hf
  rw [hg] at hne ⊢
  exact h.part f hpart hne

theorem AcquisitionOp.Permitted.sane {op : AcquisitionOp} (c : op.Choice)
    (hop : op.Permitted self a) (h : a.Sane self) : (op.effect c a).2.Sane self := by
  cases op with
  | monotonic | utcNow | head ref | iterBytes ref | record m | mkdirRoot | diskFree | mkdirIncoming
  | attemptUsage => exact h
  | sync | closePart => exact h.map_part fun f => PartFile.flush_content _ f
  | unlinkPart =>
    cases c with
    | some p => exact h
    | none => exact h.keeps ⟨.inr rfl, .inl rfl⟩
  | unlinkValidated =>
    cases c with
    | some p => exact h
    | none => exact h.keeps ⟨.inl rfl, .inr rfl⟩
  | readPart =>
    rw [AcquisitionOp.Quiet.effect (show AcquisitionOp.readPart.Quiet from trivial)]
    exact h
  | openPart =>
    cases c with
    | some p => exact h
    | none =>
      cases hpart : a.part with
      | some f => simpa only [AcquisitionOp.effect, hpart] using h
      | none =>
        simp only [AcquisitionOp.effect, hpart]
        refine ⟨fun f hf hne => ?_, h.validated⟩
        obtain rfl := Option.some.inj hf
        exact absurd rfl hne
  | write chunk =>
    refine ⟨fun f hf hne => ?_, h.validated⟩
    obtain ⟨f, hpart, rfl⟩ := Option.map_eq_some_iff.mp hf
    have hbound := hop f hpart
    rw [PartFile.flush_content, PartFile.write_content, List.length_append]
    rw [List.length_append] at hbound
    split
    · exact hbound
    · have hshort := List.length_take_le' c.taken chunk
      omega
  | replace =>
    cases c with
    | some p => exact h
    | none =>
      cases hpart : a.part with
      | none => simpa only [AcquisitionOp.effect, hpart] using h
      | some f =>
        simp only [AcquisitionOp.effect, hpart]
        constructor
        · intro f hf
          cases hf
        · intro data hdata
          obtain rfl := Option.some.inj hdata
          exact hop f hpart

/-- The operations a call performs before it opens the part file. -/
def AcquisitionOp.Early : AcquisitionOp → Prop
  | openPart | write _ | sync | closePart | replace => False
  | _ => True

theorem AcquisitionOp.Quiet.early {op : AcquisitionOp} (h : op.Quiet) : op.Early := by
  cases op with
  | openPart | write chunk | sync | closePart | replace => exact h.elim
  | _ => trivial

theorem AcquisitionOp.Early.ne_openPart {op : AcquisitionOp} (h : op.Early) : op ≠ .openPart := by
  rintro rfl
  exact h

theorem AcquisitionOp.Early.permitted {op : AcquisitionOp} (h : op.Early) {self : Config}
    (a : AttemptFiles) :
    op.Permitted self a := by
  cases op with
  | openPart | write chunk | sync | closePart | replace => exact h.elim
  | _ => trivial

def PromotionDuty : (attempts self).Duty := fun root _ _ _ op _ s => op.Permitted self (s root)

theorem attempts_discipline : System.GuardedDiscipline (attempts self)
    (fun s => ∀ root, (s root).Sane self) (fun _ _ => True)
    (fun root s s' => (s root).Keeps (s' root)) PromotionDuty where
  refl root s := .refl (s root)
  trans _ _ _ _ h h' := h.trans h'
  start _ _ _ _ := trivial
  move m s hs := ⟨fun root => (hs root).keeps (m.keeps s root), fun root _ =>
    ⟨trivial, m.keeps s root⟩⟩
  exec root _ _ _ op c s hs _ hduty := by
    refine ⟨fun other => ?_, fun other _ => ⟨trivial, fun hne => ?_⟩⟩
    · by_cases heq : other = root
      · subst heq
        rw [AcquisitionOp.exec_self]
        exact AcquisitionOp.Permitted.sane c hduty (hs other)
      · rw [AcquisitionOp.exec_of_ne heq]
        exact hs other
    · rw [AcquisitionOp.exec_of_ne hne]
      exact .refl _

end Safety

namespace SafeAcquisitionService

/-! ## Triples -/

section Triples

/-- A condition on the events that later events keep. -/
def Later (φ : List AcquisitionEvent → Prop) : Prop := ∀ h ev, φ h → φ (h ++ [ev])

/-- A condition on the files that others keep. -/
def Lasting (c : AttemptFiles → Prop) : Prop := ∀ a b, c a → a.Keeps b → c b

/-- A condition on the events and one on the files of the attempt. -/
def Own (root : AttemptRoot) (φ : List AcquisitionEvent → Prop) (c : AttemptFiles → Prop) :
    List AcquisitionEvent → Files → Prop := fun h s => φ h ∧ c (s root)

/-- The operation was answered with the result. -/
def Heard (op : AcquisitionOp) (r : op.Result) (h : List AcquisitionEvent) : Prop :=
  ⟨op, .ok r⟩ ∈ h

def Anyway : AcquisitionException → List AcquisitionEvent → Files → Prop := fun _ _ _ => True

abbrev AttemptSetting := Setting AcquisitionOp AcquisitionOp.Result AcquisitionException Files
  AcquisitionOp.Choice

/-- A setting in which an attempt works among others that remove. -/
structure Works (service : Config) (root : AttemptRoot) (S : AttemptSetting) : Prop where
  exec : ∀ op c s, S.exec op c s = op.exec root c s
  rely : ∀ s s', S.rely s s' → (s root).Keeps (s' root)
  guar : ∀ h op c s, AcquisitionOp.Permitted service (s root) op → S.guar h op c s

variable {self : Config} {root : AttemptRoot} {S : AttemptSetting}
  {φ : List AcquisitionEvent → Prop} {c : AttemptFiles → Prop} {α : Type}

theorem Later.heard (hφ : Later φ) {op : AcquisitionOp} {r : op.Result} :
    Later fun h => φ h ∧ Heard op r h :=
  fun h ev hh => ⟨hφ h ev hh.1, List.mem_append_left _ hh.2⟩

theorem Lasting.and {p : Prop} (hc : Lasting c) : Lasting fun a => c a ∧ p :=
  fun a b h hkeeps => ⟨hc a b h.1 hkeeps, h.2⟩

section Rules

variable (hS : Works self root S)

include hS

/-- The rule for an operation, with what it does to the files of the attempt. -/
theorem Works.call_heard (op : AcquisitionOp) {d : op.Result → AttemptFiles → Prop} (hφ : Later φ)
    (hc : Lasting c) (hpermit : ∀ a, c a → AcquisitionOp.Permitted self a op)
    (hok : ∀ a ch r, c a → (op.effect ch a).1 = .ok r → d r (op.effect ch a).2) :
    Triple S Anyway (Own root φ c) (call op)
      (fun r => Own root (fun h => φ h ∧ Heard op r h) (d r)) := by
  refine .call (Own root φ c) (fun h s s' hs hrely => ⟨hs.1, hc _ _ hs.2 (hS.rely s s' hrely)⟩)
    (fun h s ch hs => hS.guar h op ch s (hpermit _ hs.2)) (fun h s ch r hs hr => ?_)
    (fun _ _ _ _ _ _ => trivial)
  rw [hS.exec] at hr ⊢
  refine ⟨⟨hφ _ _ hs.1, List.mem_append_right _ (List.mem_singleton_self _)⟩, ?_⟩
  rw [AcquisitionOp.exec_self]
  exact hok _ ch r hs.2 hr

theorem Works.call (op : AcquisitionOp) {d : op.Result → AttemptFiles → Prop} (hφ : Later φ)
    (hc : Lasting c) (hpermit : ∀ a, c a → AcquisitionOp.Permitted self a op)
    (hok : ∀ a ch r, c a → (op.effect ch a).1 = .ok r → d r (op.effect ch a).2) :
    Triple S Anyway (Own root φ c) (call op) (fun r => Own root φ (d r)) :=
  (hS.call_heard op hφ hc hpermit hok).post fun _ _ _ h => ⟨h.1.1, h.2⟩

/-- The rule for an operation that leaves the files. -/
theorem Works.quiet (op : AcquisitionOp) (hφ : Later φ) (hc : Lasting c) (hop : op.Quiet) :
    Triple S Anyway (Own root φ c) (Prog.call op)
      (fun r => Own root (fun h => φ h ∧ Heard op r h) c) := by
  refine hS.call_heard op hφ hc (fun a _ => ?_) (fun a ch r ha _ => ?_)
  · cases op with
    | write chunk | replace => exact hop.elim
    | _ => trivial
  · rw [hop.effect]
    exact ha

/-- The rule for a program that leaves the files. -/
theorem Works.only {p : Acquiring α} (hp : p.Only AcquisitionOp.Quiet) (hφ : Later φ)
    (hc : Lasting c) : Triple S Anyway (Own root φ c) p (fun _ => Own root φ c) := by
  intro h s hs
  refine wp_mono (fun r h s hr => ?_) (hp.wp_events (I := Own root φ c) ?_ ?_ ?_ hs)
  · cases r with
    | ok a => exact hr
    | error e => trivial
  · exact fun h s s' hrely hs => ⟨hs.1, hc _ _ hs.2 (hS.rely s s' hrely)⟩
  · intro h op ch s hop hs
    refine ⟨hφ _ _ hs.1, ?_⟩
    rw [hS.exec, AcquisitionOp.exec_self, hop.effect]
    exact hs.2
  · intro h op ch s hop
    refine hS.guar h op ch s ?_
    cases op with
    | write chunk | replace => exact hop.elim
    | _ => trivial

end Rules

/-! ### The download -/

/-- The part file has the content that was digested. -/
structure Holding (service : Config) (copied : Copied) (a : AttemptFiles) : Prop where
  counted : copied.count = copied.digested.length
  bounded : copied.digested ≠ [] → (copied.digested.length : Int) ≤ service.policy.maxSourceBytes
  content : ∀ f, a.part = some f → f.content = copied.digested

/-- The part file has been written with the content that was digested. -/
structure Complete (service : Config) (copied : Copied) (a : AttemptFiles) : Prop where
  counted : copied.count = copied.digested.length
  bounded : copied.digested ≠ [] → (copied.digested.length : Int) ≤ service.policy.maxSourceBytes
  written : ∀ f, a.part = some f → f.written = copied.digested ∧ f.pending = []

/-- The object was streamed to its end, and this is what it consists of. -/
def Streamed (ref : StorageRef) (data : List UInt8) (h : List AcquisitionEvent) : Prop :=
  ∃ stream, Heard (.iterBytes ref) stream h ∧ stream.failure = none ∧ stream.chunks.flatten = data

variable {copied : Copied} {ref : StorageRef} {started : Rat}

theorem Holding.lasting : Lasting (Holding self copied) := by
  intro a b h hkeeps
  refine ⟨h.counted, h.bounded, fun f hf => ?_⟩
  rcases hkeeps.part with hpart | hpart
  · exact h.content f (hpart ▸ hf)
  · rw [hpart] at hf
    cases hf

theorem Complete.lasting : Lasting (Complete self copied) := by
  intro a b h hkeeps
  refine ⟨h.counted, h.bounded, fun f hf => ?_⟩
  rcases hkeeps.part with hpart | hpart
  · exact h.written f (hpart ▸ hf)
  · rw [hpart] at hf
    cases hf

theorem quiet_call (op : AcquisitionOp) (h : op.Quiet) :
    (Prog.call op : Acquiring op.Result).Only AcquisitionOp.Quiet := .call h

theorem quiet_of_modest {p : Acquiring α} (hp : p.Only AcquisitionOp.Modest) :
    p.Only AcquisitionOp.Quiet := hp.imp fun _ h => h.1

theorem unreporting_of_modest {p : Acquiring α} (hp : p.Only AcquisitionOp.Modest) :
    p.Only AcquisitionOp.Unreporting := hp.imp fun _ h => h.2

theorem checkDeadline_modest : (checkDeadline self started).Only AcquisitionOp.Modest :=
  .bind (.call ⟨trivial, rfl⟩) fun _ => .ite .raise .pure

theorem enforceAttemptUsage_modest (limits : CapacityPolicy) :
    (WorkspaceManager.enforceAttemptUsage limits).Only AcquisitionOp.Modest :=
  .bind (.call ⟨trivial, rfl⟩) fun _ => .ite .raise .pure

theorem Streamed.later (hφ : Later φ) {data : List UInt8} :
    Later fun h => φ h ∧ Streamed ref data h := by
  rintro h ev ⟨hh, stream, hheard, hrest⟩
  exact ⟨hφ h ev hh, stream, List.mem_append_left _ hheard, hrest⟩

theorem requested_modest (operation result : String) (started : Rat) : Only AcquisitionOp.Modest (do
    let now ← Prog.call AcquisitionOp.monotonic
    Prog.call (AcquisitionOp.record (.storageRequest operation result (now - started))) :
      Acquiring Unit) := .bind (.call ⟨trivial, rfl⟩) fun _ => .call ⟨trivial, rfl⟩

theorem headSource_modest : (headSource ref).Only AcquisitionOp.Modest := by
  refine .bind (.call ⟨trivial, rfl⟩) fun headStarted => .tryCatch
    (.bind (.call ⟨trivial, rfl⟩) fun _ =>
      .bind (requested_modest "head" "success" headStarted) fun _ => .pure) fun e => ?_
  split
  · exact .bind (requested_modest "head" "connect_timeout" headStarted) fun _ => .raise
  · exact .bind (requested_modest "head" "read_timeout" headStarted) fun _ => .raise
  · exact .raise

theorem preflight_modest {head : ObjectHead} :
    (SafeAcquisitionService.preflight self head).Only AcquisitionOp.Modest := by
  unfold SafeAcquisitionService.preflight
  cases self.workspaceManager with
  | none => exact .pure
  | some limits =>
    refine .tryCatch ?_ fun e => ?_
    · refine .bind (.call ⟨trivial, rfl⟩) fun _ => .bind (.call ⟨trivial, rfl⟩) fun free =>
        .bind (.call ⟨trivial, rfl⟩) fun _ => ?_
      dsimp only
      cases head.sizeBytes with
      | none => exact .bind .pure fun _ => .ite .raise .pure
      | some expected =>
        exact .ite (.bind .raise fun _ => .ite .raise .pure)
          (.bind .pure fun _ => .ite .raise .pure)
    · split
      · exact .raise
      · exact .raise

section Download

variable (hS : Works self root S)

include hS

theorem Works.copyChunk (hφ : Later φ) (chunk : List UInt8) :
    Triple S Anyway (Own root φ (Holding self copied)) (copyChunk self started copied chunk)
      (fun copied' => Own root φ fun a => Holding self copied' a ∧
        copied'.digested = copied.digested ++ chunk) := by
  unfold SafeAcquisitionService.copyChunk
  refine (hS.only (quiet_of_modest checkDeadline_modest) hφ Holding.lasting).bind fun _ => ?_
  by_cases hempty : chunk = []
  · subst hempty
    rw [if_pos rfl]
    exact .ret fun h s hs => ⟨hs.1, hs.2, (List.append_nil _).symm⟩
  rw [if_neg hempty]
  dsimp only
  by_cases hlarge : self.policy.maxSourceBytes < ((copied.count + chunk.length : Nat) : Int)
  · rw [if_pos hlarge]
    exact fun _ _ _ => trivial
  rw [if_neg hlarge]
  have hsum {a : AttemptFiles} (ha : Holding self copied a) :
      ((copied.digested ++ chunk).length : Int) ≤ self.policy.maxSourceBytes := by
    rw [List.length_append, ← ha.counted]
    omega
  have hwrite := hS.call (.write chunk) (c := Holding self copied)
    (d := fun _ a => Holding self ⟨copied.count + chunk.length, copied.digested ++ chunk⟩ a) hφ
    Holding.lasting (fun a ha f hf => ?_) (fun a ch r ha hr => ?_)
  · refine hwrite.bind fun _ => ?_
    have hdone : Triple S Anyway
        (Own root φ (Holding self ⟨copied.count + chunk.length, copied.digested ++ chunk⟩))
        (pure ⟨copied.count + chunk.length, copied.digested ++ chunk⟩) (fun copied' => Own root φ
          fun a => Holding self copied' a ∧ copied'.digested = copied.digested ++ chunk) :=
      .ret fun h s hs => ⟨hs.1, hs.2, rfl⟩
    cases self.workspaceManager with
    | none => exact hdone
    | some limits =>
      exact (hS.only (quiet_of_modest (enforceAttemptUsage_modest limits)) hφ
        Holding.lasting).bind fun _ => hdone
  · rw [ha.content f hf]
    exact hsum ha
  · refine ⟨?_, fun _ => hsum ha, fun f hf => ?_⟩
    · rw [List.length_append, ha.counted]
    · obtain ⟨f, hpart, rfl⟩ := Option.map_eq_some_iff.mp hf
      rw [PartFile.flush_content, PartFile.write_content, ha.content f hpart]
      cases hfault : ch.fault with
      | none => simp
      | some e =>
        rw [AcquisitionOp.effect, hfault] at hr
        cases hr

theorem Works.copyChunks (hφ : Later φ) (chunks : List (List UInt8)) :
    Triple S Anyway (Own root φ (Holding self copied)) (copyChunks self started copied chunks)
      (fun copied' => Own root φ fun a => Holding self copied' a ∧
        copied'.digested = copied.digested ++ chunks.flatten) := by
  induction chunks generalizing copied with
  | nil => exact .ret fun h s hs => ⟨hs.1, hs.2, (List.append_nil _).symm⟩
  | cons chunk chunks ih =>
    refine (hS.copyChunk hφ chunk).bind fun next => ?_
    refine .of_pre (fun h s hs => hs.2.2) fun heq => ?_
    refine (ih.pre fun h s hs => ⟨hs.1, hs.2.1⟩).post fun last h s hs => ⟨hs.1, hs.2.1, ?_⟩
    rw [hs.2.2, heq, List.append_assoc, List.flatten_cons]

theorem Works.copyStream (hφ : Later φ) :
    Triple S Anyway (Own root φ (Holding self ⟨0, []⟩)) (copyStream self ref started)
      (fun copied => Own root (fun h => φ h ∧ Streamed ref copied.digested h)
        (Holding self copied)) := by
  refine Triple.tryCatch ((hS.quiet (.iterBytes ref) hφ Holding.lasting trivial).bind
    fun stream => (hS.copyChunks hφ.heard stream.chunks).bind fun copied => ?_) fun e => ?_
  · cases hfailure : stream.failure with
    | some e => exact fun _ _ _ => trivial
    | none =>
      refine .ret fun h s hs => ⟨⟨hs.1.1, stream, hs.1.2, hfailure, ?_⟩, hs.2.1⟩
      exact hs.2.2.symm
  · split
    · exact fun _ _ _ => trivial
    · exact fun _ _ _ => trivial
    · exact fun _ _ _ => trivial

/-- The `with` statement around a body that writes the file. -/
theorem Works.withPart {body : Acquiring Copied} {φ' : Copied → List AcquisitionEvent → Prop}
    (hφ : Later φ) (hφ' : ∀ copied, Later (φ' copied)) (hc : Lasting c)
    (hbody : Triple S Anyway (Own root φ (Holding self ⟨0, []⟩)) body
      (fun copied => Own root (φ' copied) (Complete self copied))) :
    Triple S Anyway (Own root φ c) (withPart body)
      (fun copied => Own root (φ' copied) (Complete self copied)) := by
  have hopen := hS.call .openPart (d := fun _ a => Holding self ⟨0, []⟩ a) hφ hc
    (fun a _ => trivial) (fun a ch r _ hr => ?_)
  · refine hopen.bind fun _ h s hs => ?_
    rw [wp_andThen]
    refine wp_mono (fun result h s hresult => ?_) (hbody h s hs)
    cases result with
    | error e =>
      -- whatever closing answers, the outcome is an exception
      have hclose : Triple S Anyway (Own root (fun _ => True) fun _ => True)
          (Prog.call AcquisitionOp.closePart)
          (fun _ => Own root (fun _ => True) fun _ => True) :=
        hS.call .closePart (fun _ _ _ => trivial) (fun _ _ _ _ => trivial) (fun _ _ => trivial)
          (fun _ _ _ _ _ => trivial)
      exact hclose.bind (f := fun _ => ofExcept (.error e)) (fun _ _ _ _ => trivial) h s
        ⟨trivial, trivial⟩
    | ok copied =>
      have hclose := hS.call .closePart (c := Complete self copied)
        (d := fun _ a => Complete self copied a) (hφ' copied) Complete.lasting
        (fun _ _ => trivial) (fun a ch r ha hr => ?_)
      · exact hclose.bind (f := fun _ => pure copied) (fun _ => .ret fun h s hs => hs) h s hresult
      · refine ⟨ha.counted, ha.bounded, fun f hf => ?_⟩
        obtain ⟨f, hpart, rfl⟩ := Option.map_eq_some_iff.mp hf
        obtain ⟨hwritten, hpending⟩ := ha.written f hpart
        simp [AcquisitionOp.flushed, PartFile.flush, hwritten, hpending]
  · refine ⟨rfl, fun hne => absurd rfl hne, fun f hf => ?_⟩
    cases ch with
    | some e => cases hr
    | none =>
      cases hpart : a.part with
      | some f => simp [AcquisitionOp.effect, hpart] at hr
      | none =>
        simp only [AcquisitionOp.effect, hpart] at hf
        obtain rfl := Option.some.inj hf
        rfl

theorem Works.fetch (hφ : Later φ) (hc : Lasting c) :
    Triple S Anyway (Own root φ c) (fetch self ref started)
      (fun copied => Own root (fun h => φ h ∧ Streamed ref copied.digested h)
        (Complete self copied)) := by
  refine (hS.only (quiet_call .monotonic trivial) hφ hc).bind fun streamStarted => ?_
  have hlater (copied : Copied) : Later fun h => φ h ∧ Streamed ref copied.digested h :=
    Streamed.later hφ
  refine (hS.withPart hφ hlater hc ((hS.copyStream hφ).bind fun copied => ?_)).bind
    fun copied => ?_
  · have hsync := hS.call .sync (c := Holding self copied)
      (d := fun _ a => Complete self copied a) (hlater copied) Holding.lasting
      (fun _ _ => trivial) (fun a ch r ha hr => ?_)
    · exact hsync.bind fun _ => .ret fun h s hs => hs
    · refine ⟨ha.counted, ha.bounded, fun f hf => ?_⟩
      obtain ⟨f, hpart, rfl⟩ := Option.map_eq_some_iff.mp hf
      have hcontent := ha.content f hpart
      cases hfault : ch.fault with
      | none =>
        simpa [AcquisitionOp.flushed, PartFile.flush, PartFile.content, hfault] using hcontent
      | some e =>
        rw [AcquisitionOp.effect, hfault] at hr
        cases hr
  · refine (hS.only (quiet_call .monotonic trivial) (hlater copied) Complete.lasting).bind
      fun now => ?_
    refine (hS.only (quiet_call (.record _) trivial) (hlater copied) Complete.lasting).bind
      fun _ => ?_
    exact .ret fun h s hs => hs

end Download

/-! ### Validation and promotion -/

section Promotion

variable (hS : Works self root S)

include hS

/-- What is read of a complete file is what was digested. -/
theorem Works.readPart (hφ : Later φ) : Triple S Anyway (Own root φ (Complete self copied))
    (Prog.call AcquisitionOp.readPart)
    (fun data => Own root φ fun a => Complete self copied a ∧ data = copied.digested) := by
  refine hS.call .readPart hφ Complete.lasting (fun _ _ => trivial) (fun a ch data ha hr => ?_)
  rw [AcquisitionOp.Quiet.effect (show AcquisitionOp.readPart.Quiet from trivial)]
  refine ⟨ha, ?_⟩
  cases ch with
  | some e => cases hr
  | none =>
    cases hpart : a.part with
    | none => simp [AcquisitionOp.effect, hpart] at hr
    | some f =>
      simp only [AcquisitionOp.effect, hpart] at hr
      rw [← Except.ok.inj hr]
      exact (ha.written f hpart).1

/-- The file is read, and the rest of the program goes on with what was digested. -/
theorem Works.readPart_bind {f : List UInt8 → Acquiring α}
    {Q : α → List AcquisitionEvent → Files → Prop} (hφ : Later φ)
    (hf : Triple S Anyway (Own root φ (Complete self copied)) (f copied.digested) Q) :
    Triple S Anyway (Own root φ (Complete self copied))
      (Prog.call AcquisitionOp.readPart >>= f) Q := by
  refine (hS.readPart hφ).bind fun data => ?_
  refine .of_pre (fun h s hs => hs.2.2) fun hdata => ?_
  rw [hdata]
  exact hf.pre fun h s hs => ⟨hs.1, hs.2.1⟩

/-- The same where an exception of the file becomes another one. -/
theorem Works.readPart_orElse {f : List UInt8 → Acquiring α} {e : AcquisitionException}
    {Q : α → List AcquisitionEvent → Files → Prop} (hφ : Later φ)
    (hf : Triple S Anyway (Own root φ (Complete self copied)) (f copied.digested) Q) :
    Triple S Anyway (Own root φ (Complete self copied))
      (Prog.tryCatch (Prog.call AcquisitionOp.readPart) (fun _ => raise e) >>= f) Q := by
  have hread : Triple S Anyway (Own root φ (Complete self copied))
      (Prog.tryCatch (Prog.call AcquisitionOp.readPart) fun _ => raise e)
      (fun data => Own root φ fun a => Complete self copied a ∧ data = copied.digested) :=
    Triple.tryCatch (hS.readPart hφ) fun _ _ _ _ => trivial
  refine hread.bind fun data => ?_
  refine .of_pre (fun h s hs => hs.2.2) fun hdata => ?_
  rw [hdata]
  exact hf.pre fun h s hs => ⟨hs.1, hs.2.1⟩

omit hS in
/-- The last steps of a branch, which agree with `identify`. -/
theorem verdict_triple {name : Option String} (result : Except AcquisitionException Verdict)
    (h : ∀ verdict, result = .ok verdict →
      identify self name copied.digested = .ok (withMismatch (extension name) verdict)) :
    Triple S Anyway (Own root φ (Complete self copied))
      (do
        let verdict ← Prog.ofExcept result
        pure (withMismatch (extension name) verdict) : Acquiring Verdict)
      (fun verdict => Own root φ fun a => Complete self copied a ∧
        identify self name copied.digested = .ok verdict) :=
  Triple.ofExcept_bind (fun _ _ _ _ => trivial) fun verdict hverdict =>
    .ret fun _ _ hs => ⟨hs.1, hs.2, h verdict hverdict⟩

omit hS in
theorem checkedText_ok {data : List UInt8} {text : List Char} (h : checkedText data = .ok text) :
    Json.decodeUtf8? data = some text := by
  simp only [checkedText, validateUtf8Text] at h
  split at h
  · cases h
  · cases hdecode : Json.decodeUtf8? data with
    | none =>
      rw [hdecode] at h
      cases h
    | some cs =>
      rw [hdecode] at h
      exact congrArg some (Except.ok.inj h)

theorem Works.validate (hφ : Later φ) (name : Option String) :
    Triple S Anyway (Own root φ (Complete self copied)) (validate self name)
      (fun verdict => Own root φ fun a => Complete self copied a ∧
        identify self name copied.digested = .ok verdict) := by
  refine hS.readPart_bind hφ ?_
  dsimp only
  cases hsignature : signature (copied.digested.take 64) with
  | executable => exact fun _ _ _ => trivial
  | pdf =>
    have hresult (verdict : Verdict) (h : pdfVerdict copied.digested = .ok verdict) :
        identify self name copied.digested = .ok (withMismatch (extension name) verdict) := by
      simp only [identify, hsignature, h]
      rfl
    dsimp only
    -- a verdict that is not generalized is evaluated down to the bytes of the marker
    generalize pdfVerdict copied.digested = result at hresult ⊢
    exact verdict_triple result hresult
  | image format contentType =>
    refine hS.readPart_orElse hφ (verdict_triple _ fun verdict hverdict => ?_)
    simp only [identify, hsignature, hverdict]
    rfl
  | container =>
    refine hS.readPart_orElse hφ (verdict_triple _ fun verdict hverdict => ?_)
    simp only [identify, hsignature, hverdict]
    rfl
  | richText =>
    refine hS.readPart_bind hφ (verdict_triple _ fun verdict hverdict => ?_)
    simp only [identify, hsignature, hverdict]
    rfl
  | text =>
    refine hS.readPart_bind hφ (Triple.ofExcept_bind (fun _ _ _ _ => trivial) fun text htext =>
      hS.readPart_bind hφ ?_)
    rw [checkedText_ok htext]
    refine .ret fun h s hs => ⟨hs.1, hs.2, ?_⟩
    simp only [identify, hsignature, htext]
    rfl

omit hS in
theorem checkCopied_ok {request : AcquireRequest} {head : ObjectHead} {sha : String}
    (h : checkCopied self request head copied = .ok sha) :
    copied.count ≠ 0 ∧ (∀ size, head.sizeBytes = some size → (copied.count : Int) = size) ∧
      sha = self.sha256.hexdigest copied.digested ∧
        ∀ given, normalizedExpected request.expectedSha256 = some given →
          given = "" ∨ Text.lower given = Text.lower sha := by
  rw [checkCopied, Transaction.except_guard_ok, Transaction.except_guard_ok,
    Transaction.except_guard_ok] at h
  obtain ⟨hcount, hsize, hexpected, hsha⟩ := h
  obtain rfl := Except.ok.inj hsha
  refine ⟨hcount, fun size heq => ?_, rfl, fun given heq => ?_⟩
  · rw [heq] at hsize
    simpa using hsize
  · rw [heq] at hexpected
    simpa [or_iff_not_imp_left] using hexpected

omit hS in
theorem checkHead_ok {head : ObjectHead} (h : checkHead self ref head = .ok ()) :
    head.exists = true := by
  rw [checkHead, Transaction.except_guard_ok] at h
  simpa using h.1

/-- The source describes the bytes: they were streamed, they are as the head says, they are
admissible, and the digest is theirs and the expected one. -/
structure Acquired (service : Config) (root : AttemptRoot) (request : AcquireRequest)
    (h : List AcquisitionEvent) (data : List UInt8) (src : LocatedSource) : Prop where
  parsed : StorageRef.parse request.sourceUri = .ok src.sourceRef
  headed : ∃ head, Heard (.head src.sourceRef) head h ∧ head.exists = true ∧
    (∀ size, head.sizeBytes = some size → size = data.length) ∧ src.etag = head.etag ∧
      src.versionId = head.versionId
  streamed : Streamed src.sourceRef data h
  nonempty : data ≠ []
  bounded : (data.length : Int) ≤ service.policy.maxSourceBytes
  identified : identify service request.originalFileName data =
    .ok (src.detectedFormat, src.detectedContentType, src.warnings)
  size : src.sizeBytes = data.length
  digest : src.sha256 = service.sha256.hexdigest data
  expected : ∀ given, normalizedExpected request.expectedSha256 = some given →
    given = "" ∨ Text.lower given = Text.lower src.sha256
  path : src.localPath = root

/-- The part file is gone, and what was promoted is as it was or gone. -/
def Promoted (data : List UInt8) (a : AttemptFiles) : Prop :=
  a.part = none ∧ (a.validated = none ∨ a.validated = some data)

omit hS in
theorem Promoted.lasting {data : List UInt8} : Lasting (Promoted data) := by
  rintro a b ⟨hpart, hvalidated⟩ hkeeps
  constructor
  · rcases hkeeps.part with heq | heq
    · rw [heq, hpart]
    · exact heq
  · rcases hkeeps.validated with heq | heq
    · rw [heq]
      exact hvalidated
    · exact .inl heq

theorem Works.replace (hφ : Later φ) (hadmissible : Admissible self copied.digested) :
    Triple S Anyway (Own root φ (Complete self copied)) (Prog.call AcquisitionOp.replace)
      (fun _ => Own root φ (Promoted copied.digested)) := by
  refine hS.call .replace hφ Complete.lasting (fun a ha f hf => ?_) (fun a ch r ha hr => ?_)
  · rw [(ha.written f hf).1]
    exact hadmissible
  · cases ch with
    | some e => cases hr
    | none =>
      cases hpart : a.part with
      | none => simp [AcquisitionOp.effect, hpart] at hr
      | some f =>
        simp only [AcquisitionOp.effect, hpart]
        exact ⟨rfl, .inr (congrArg some (ha.written f hpart).1)⟩

theorem Works.publish {request : AcquireRequest} {head : ObjectHead} (hφ : Later φ)
    (hparsed : StorageRef.parse request.sourceUri = .ok ref)
    (hhead : checkHead self ref head = .ok ()) (hheard : ∀ h, φ h → Heard (.head ref) head h) :
    Triple S Anyway (Own root φ fun _ => True) (publish self root request ref head started)
      (fun src h s => ∃ data, Acquired self root request h data src ∧ Promoted data (s root)) := by
  refine (hS.fetch hφ fun _ _ _ _ => trivial).bind fun copied =>
    Triple.ofExcept_bind (fun _ _ _ _ => trivial) fun sha hsha => ?_
  obtain ⟨hcount, hsize, rfl, hexpected⟩ := checkCopied_ok hsha
  have hφ' : Later fun h => φ h ∧ Streamed ref copied.digested h := Streamed.later hφ
  refine (hS.only (quiet_of_modest checkDeadline_modest) hφ' Complete.lasting).bind fun _ => ?_
  refine (hS.validate hφ' request.originalFileName).bind fun verdict => ?_
  obtain ⟨fmt, mime, warnings⟩ := verdict
  refine .of_pre (fun h s hs => hs.2.1.counted) fun hcounted => ?_
  refine .of_pre (fun h s hs => hs.2.1.bounded) fun hbounded => ?_
  refine .of_pre (fun h s hs => hs.2.2) fun hidentified => ?_
  have hnonempty : copied.digested ≠ [] := by
    intro hnil
    rw [hcounted, hnil] at hcount
    exact hcount rfl
  have hlength (size : Int) (hsome : head.sizeBytes = some size) :
      size = copied.digested.length := by
    rw [← hsize size hsome, hcounted]
  have hadmissible : Admissible self copied.digested :=
    ⟨hnonempty, hbounded hnonempty, _, _, hidentified⟩
  refine ((hS.replace hφ' hadmissible).pre fun h s hs => ⟨hs.1, hs.2.1⟩).bind fun _ => ?_
  refine (hS.only (quiet_call .utcNow trivial) hφ' Promoted.lasting).bind fun acquiredAt => ?_
  refine (hS.only (quiet_call .monotonic trivial) hφ' Promoted.lasting).bind fun now => ?_
  refine (hS.only (quiet_call (.record _) trivial) hφ' Promoted.lasting).bind fun _ => ?_
  refine .ret fun h s hs => ⟨copied.digested, ?_, hs.2⟩
  exact {
    parsed := hparsed
    headed := ⟨head, hheard h hs.1.1, checkHead_ok hhead, hlength, rfl, rfl⟩
    streamed := hs.1.2
    nonempty := hnonempty
    bounded := hbounded hnonempty
    identified := hidentified
    size := congrArg Nat.cast hcounted
    digest := rfl
    expected := hexpected
    path := rfl }

/-- A program that leaves the files, and then an exception. -/
theorem Works.only_raise {p : Acquiring Unit} {e : AcquisitionException}
    {P : List AcquisitionEvent → Files → Prop} {Q : α → List AcquisitionEvent → Files → Prop}
    (hp : p.Only AcquisitionOp.Quiet) : Triple S Anyway P (p >>= fun _ => raise e) Q := by
  have honly : Triple S Anyway (Own root (fun _ => True) fun _ => True) p
      (fun _ => Own root (fun _ => True) fun _ => True) :=
    hS.only hp (fun _ _ _ => trivial) (fun _ _ _ _ => trivial)
  have hraise : Triple S Anyway (Own root (fun _ => True) fun _ => True)
      (p >>= fun _ => (raise e : Acquiring α)) Q := honly.bind fun _ _ _ _ => trivial
  exact hraise.pre fun _ _ _ => ⟨trivial, trivial⟩

theorem Works.headSource (hφ : Later φ) :
    Triple S Anyway (Own root φ fun _ => True) (headSource ref)
      (fun head => Own root (fun h => φ h ∧ Heard (.head ref) head h) fun _ => True) := by
  have htrue : Lasting fun _ => True := fun _ _ _ _ => trivial
  refine (hS.only (quiet_call .monotonic trivial) hφ htrue).bind fun headStarted => ?_
  refine Triple.tryCatch ((hS.quiet (.head ref) hφ htrue trivial).bind fun head =>
    (hS.only (quiet_of_modest (requested_modest "head" "success" headStarted)) hφ.heard
      htrue).bind fun _ => .ret fun h s hs => hs) fun e => ?_
  split
  · exact hS.only_raise (quiet_of_modest (requested_modest "head" "connect_timeout" headStarted))
  · exact hS.only_raise (quiet_of_modest (requested_modest "head" "read_timeout" headStarted))
  · exact fun _ _ _ => trivial

end Promotion

/-! ### What a failed call leaves -/

/-- No part file was opened. -/
def Unopened (h : List AcquisitionEvent) : Prop := ∀ ev ∈ h, ev.op ≠ .openPart

/-- A removal of the part file was refused. -/
def UnlinkRefused (h : List AcquisitionEvent) : Prop :=
  ∃ e, (⟨.unlinkPart, .error e⟩ : AcquisitionEvent) ∈ h

/-- The call has left no part file of its own, unless it could not be removed. -/
def LeavesNothing (h : List AcquisitionEvent) (a : AttemptFiles) : Prop :=
  Unopened h ∨ UnlinkRefused h ∨ a.part = none

def Cleaned (root : AttemptRoot) : AcquisitionException → List AcquisitionEvent → Files → Prop :=
  fun _ h s => LeavesNothing h (s root)

theorem Unopened.append {h : List AcquisitionEvent} {ev : AcquisitionEvent} (hh : Unopened h)
    (hev : ev.op ≠ .openPart) : Unopened (h ++ [ev]) := by
  intro ev' hmem
  rcases List.mem_append.mp hmem with hmem | hmem
  · exact hh ev' hmem
  · rw [List.mem_singleton.mp hmem]
    exact hev

theorem LeavesNothing.append {h : List AcquisitionEvent} {ev : AcquisitionEvent} {a : AttemptFiles}
    (hh : LeavesNothing h a) (hev : ev.op ≠ .openPart) : LeavesNothing (h ++ [ev]) a := by
  rcases hh with hh | ⟨e, hmem⟩ | hh
  · exact .inl (hh.append hev)
  · exact .inr (.inl ⟨e, List.mem_append_left _ hmem⟩)
  · exact .inr (.inr hh)

theorem LeavesNothing.keeps {h : List AcquisitionEvent} {a b : AttemptFiles}
    (hh : LeavesNothing h a) (hkeeps : a.Keeps b) : LeavesNothing h b := by
  rcases hh with hh | hh | hh
  · exact .inl hh
  · exact .inr (.inl hh)
  · rcases hkeeps.part with hpart | hpart
    · exact .inr (.inr (hpart.trans hh))
    · exact .inr (.inr hpart)

theorem early_call (op : AcquisitionOp) (h : op.Early) :
    (Prog.call op : Acquiring op.Result).Only AcquisitionOp.Early := .call h

theorem early_of_quiet {p : Acquiring α} (hp : p.Only AcquisitionOp.Quiet) :
    p.Only AcquisitionOp.Early := hp.imp fun _ h => h.early

section Cleaning

variable (hS : Works self root S)

include hS

/-- Before the part file is opened a call leaves nothing, whatever it raises. -/
theorem Works.early {p : Acquiring α} {P : List AcquisitionEvent → Files → Prop}
    {Q : α → List AcquisitionEvent → Files → Prop} (hp : p.Only AcquisitionOp.Early)
    (h : Triple S Anyway P p Q) :
    Triple S (Cleaned root) (fun h s => P h s ∧ Unopened h) p
      (fun a h s => Q a h s ∧ Unopened h) := by
  intro events s hs
  have hevents : wp S p (fun _ h _ => Unopened h) events s :=
    hp.wp_events (fun _ _ _ _ hh => hh) (fun _ _ _ _ hop hh => hh.append hop.ne_openPart)
      (fun h op ch s hop => hS.guar h op ch s (hop.permitted _)) hs.2
  refine wp_mono (fun r h s hr => ?_) (wp_and (h events s hs.1) hevents)
  cases r with
  | ok a => exact hr
  | error e => exact .inl hr.2

/-- The handler removes the part file, and the exception goes on. -/
theorem Works.unlink_raise (e : AcquisitionException)
    (Q : α → List AcquisitionEvent → Files → Prop) : Triple S (Cleaned root) (Anyway e)
      (Prog.call AcquisitionOp.unlinkPart >>= fun _ => (raise e : Acquiring α)) Q := by
  have hunlink : Triple S (Cleaned root) (Anyway e) (Prog.call AcquisitionOp.unlinkPart)
      (fun _ _ s => (s root).part = none) := by
    refine .call (Anyway e) (fun _ _ _ _ _ => trivial) (fun h s ch _ => hS.guar h _ ch s trivial)
      (fun h s ch r _ hr => ?_) (fun h s ch e _ _ => .inr (.inl ⟨e, ?_⟩))
    · rw [hS.exec] at hr ⊢
      rw [AcquisitionOp.exec_self]
      cases ch with
      | none => rfl
      | some e => cases hr
    · exact List.mem_append_right _ (List.mem_singleton_self _)
  exact hunlink.bind fun _ => .raise fun _ _ hs => .inr (.inr hs)

/-- What has been left stays as it is while the failure is reported. -/
theorem Works.kept {p : Acquiring α} (hp : p.Only AcquisitionOp.Quiet) :
    Triple S (Cleaned root) (fun h s => LeavesNothing h (s root)) p
      (fun _ h s => LeavesNothing h (s root)) := by
  intro events s hs
  have hevents : wp S p (fun _ h s => LeavesNothing h (s root)) events s :=
    hp.wp_events (fun h s s' hrely hh => hh.keeps (hS.rely s s' hrely))
      (fun h op ch s hop hh => by
        rw [hS.exec, AcquisitionOp.exec_self, hop.effect]
        exact hh.append hop.early.ne_openPart)
      (fun h op ch s hop => hS.guar h op ch s (hop.early.permitted _)) hs
  refine wp_mono (fun r h s hr => ?_) hevents
  cases r with
  | ok a => exact hr
  | error e => exact hr

theorem Works.acquireFrom {request : AcquireRequest}
    (hparsed : StorageRef.parse request.sourceUri = .ok ref) :
    Triple S (Cleaned root) (fun h s => Own root (fun _ => True) (fun _ => True) h s ∧ Unopened h)
      (acquireFrom self root request ref started)
      (fun src h s => ∃ data, Acquired self root request h data src ∧ Promoted data (s root)) := by
  have htrue : Lasting fun _ => True := fun _ _ _ _ => trivial
  refine (hS.early (early_of_quiet (quiet_of_modest headSource_modest))
    (hS.headSource fun _ _ _ => trivial)).bind fun head => ?_
  have hlater : Later fun h => True ∧ Heard (.head ref) head h :=
    Later.heard fun _ _ _ => trivial
  refine Triple.ofExcept_bind (fun e h s hs => .inl hs.2) fun _ hhead => ?_
  have hquiet {p : Acquiring Unit} (hp : p.Only AcquisitionOp.Quiet) :=
    hS.early (early_of_quiet hp) (hS.only hp hlater htrue)
  refine (hquiet (quiet_of_modest preflight_modest)).bind fun _ => ?_
  refine (hquiet (quiet_call .mkdirIncoming trivial)).bind fun _ => ?_
  have hunlink (op : AcquisitionOp) (hop : op.Early) :=
    hS.early (.call hop) (hS.call op (d := fun _ _ => True) hlater htrue
      (fun a _ => hop.permitted a) fun _ _ _ _ _ => trivial)
  refine (hunlink .unlinkPart trivial).bind fun _ => ?_
  refine (hunlink .unlinkValidated trivial).bind fun _ => ?_
  refine Triple.tryCatch ((hS.publish hlater hparsed hhead fun h hh => hh.2).pre fun h s hs => hs.1)
    fun e => hS.unlink_raise e _

theorem Works.acquire (request : AcquireRequest) :
    Triple S (Cleaned root) (fun h _ => h = []) (acquire self root request)
      (fun src h s => ∃ data, Acquired self root request h data src ∧ Promoted data (s root)) := by
  have htrue : Lasting fun _ => True := fun _ _ _ _ => trivial
  have hstart : Triple S (Cleaned root)
      (fun h s => Own root (fun _ => True) (fun _ => True) h s ∧ Unopened h)
      (Prog.call AcquisitionOp.monotonic)
      (fun _ h s => Own root (fun _ => True) (fun _ => True) h s ∧ Unopened h) :=
    hS.early (early_of_quiet (quiet_call .monotonic trivial))
      (hS.only (quiet_call .monotonic trivial) (fun _ _ _ => trivial) htrue)
  refine (hstart.pre fun h s hh => ?_).bind fun started => ?_
  · subst hh
    exact ⟨⟨trivial, trivial⟩, fun ev hev => by cases hev⟩
  refine Triple.ofExcept_bind (fun e h s hs => .inl hs.2) fun ref href => ?_
  have hparsed : StorageRef.parse request.sourceUri = .ok ref := by
    cases hparse : StorageRef.parse request.sourceUri with
    | ok other =>
      rw [hparse] at href
      exact congrArg Except.ok (Except.ok.inj href)
    | error e =>
      rw [hparse] at href
      cases href
  refine Triple.tryCatch (hS.acquireFrom hparsed) fun e => ?_
  split
  · refine (hS.kept (quiet_call .monotonic trivial)).bind fun now => ?_
    refine (hS.kept (quiet_call (.record _) trivial)).bind fun _ => ?_
    exact .raise fun _ _ hs => hs
  · exact .raise fun _ _ hs => hs

end Cleaning

end Triples

/-! ## What a call reports -/

section Reports

/-- The reports among the events. -/
def reports (h : List AcquisitionEvent) : List AcquisitionEvent := h.filter (·.op.isReport)

variable {self : Config} {root : AttemptRoot} {S : AttemptSetting} {α : Type} {copied : Copied}
  {ref : StorageRef} {started : Rat} {h : List AcquisitionEvent} {ev : AcquisitionEvent}

theorem reports_append_of_not (hev : ev.op.Unreporting) : reports (h ++ [ev]) = reports h := by
  have hnot : ¬ ev.op.isReport = true := by
    rw [show ev.op.isReport = false from hev]
    simp
  rw [reports, List.filter_append, List.filter_cons_of_neg (by simp [hnot]),
    List.filter_nil, List.append_nil]
  rfl

theorem reports_append (hev : ev.op.isReport = true) : reports (h ++ [ev]) = reports h ++ [ev] := by
  rw [reports, List.filter_append, List.filter_cons_of_pos (by simp [hev]), List.filter_nil]
  rfl

theorem copyChunk_unreporting {chunk : List UInt8} :
    (copyChunk self started copied chunk).Only AcquisitionOp.Unreporting := by
  refine .bind (unreporting_of_modest checkDeadline_modest) fun _ => .ite .pure ?_
  dsimp only
  refine .ite (.bind .raise fun _ => ?_) ?_
  all_goals
    refine .bind (.call rfl) fun _ => ?_
    cases self.workspaceManager with
    | none => exact .pure
    | some limits =>
      exact .bind (unreporting_of_modest (enforceAttemptUsage_modest limits)) fun _ => .pure

theorem copyChunks_unreporting {chunks : List (List UInt8)} :
    (copyChunks self started copied chunks).Only AcquisitionOp.Unreporting := by
  induction chunks generalizing copied with
  | nil => exact .pure
  | cons chunk chunks ih => exact .bind copyChunk_unreporting fun _ => ih

theorem fetch_unreporting : (fetch self ref started).Only AcquisitionOp.Unreporting := by
  have hstream : (copyStream self ref started).Only AcquisitionOp.Unreporting := by
    refine .tryCatch (.bind (.call rfl) fun stream => .bind copyChunks_unreporting fun _ => ?_)
      fun e => ?_
    · cases stream.failure with
      | none => exact .pure
      | some e => exact .raise
    · split
      · exact .raise
      · exact .raise
      · exact .raise
  refine .bind (.call rfl) fun _ => .bind (.bind (.call rfl) fun _ => ?_) fun _ =>
    .bind (.call rfl) fun _ => .bind (.call rfl) fun _ => .pure
  exact .andThen (.bind hstream fun _ => .bind (.call rfl) fun _ => .pure) fun _ =>
    .bind (.call rfl) fun _ => .ofExcept

theorem validate_unreporting {name : Option String} :
    (validate self name).Only AcquisitionOp.Unreporting := by
  have hread : (Prog.call AcquisitionOp.readPart : Acquiring (List UInt8)).Only
      AcquisitionOp.Unreporting := .call rfl
  refine .bind hread fun probe => ?_
  dsimp only
  cases signature (probe.take 64) with
  | executable => exact .bind .raise fun _ => .pure
  | pdf => exact .bind .ofExcept fun _ => .pure
  | image format contentType =>
    exact .bind (.tryCatch hread fun _ => .raise) fun _ => .bind .ofExcept fun _ => .pure
  | container =>
    exact .bind (.tryCatch hread fun _ => .raise) fun _ => .bind .ofExcept fun _ => .pure
  | richText => exact .bind hread fun _ => .bind .ofExcept fun _ => .pure
  | text =>
    refine .bind hread fun _ => .bind .ofExcept fun _ => .bind hread fun sample => ?_
    cases Json.decodeUtf8? sample with
    | none => exact .bind .raise fun _ => .pure
    | some text => exact .bind .pure fun _ => .pure

/-- Nothing was reported yet. -/
def Silent (h : List AcquisitionEvent) : Prop := reports h = []

/-- No report was taken. -/
def Untaken (h : List AcquisitionEvent) : Prop := ∀ ev ∈ reports h, ev.answer.isOk = false

/-- Inside the handler an acquisition error has not been reported, and no report of another
exception was taken. -/
def Unreported : AcquisitionException → List AcquisitionEvent → Prop
  | .acquisitionError _, h => Silent h
  | _, h => Untaken h

/-- How a call ended is reported once, with what it returned or raised. -/
def Reported : Except AcquisitionException LocatedSource → List AcquisitionEvent → Prop
  | .ok src, h => ∃ count seconds, reports h =
      [⟨.record (.acquisitionCompleted src.detectedFormat count seconds), .ok ()⟩] ∧
        src.sizeBytes = count
  | .error (.acquisitionError e), h => ∃ seconds, reports h =
      [⟨.record (.acquisitionFailed e.code seconds), .ok ()⟩]
  | .error _, h => Untaken h

theorem Silent.untaken (hh : Silent h) : Untaken h := by
  intro ev hev
  rw [show reports h = [] from hh] at hev
  cases hev

theorem Silent.unreported (hh : Silent h) (e : AcquisitionException) : Unreported e h := by
  cases e with
  | acquisitionError e => exact hh
  | workspaceCapacityError message | valueError message | port e => exact hh.untaken

theorem Unreported.untaken {e : AcquisitionException} (hh : Unreported e h) : Untaken h := by
  cases e with
  | acquisitionError e => exact Silent.untaken hh
  | workspaceCapacityError message | valueError message | port e => exact hh

theorem Silent.append (hh : Silent h) (hev : ev.op.Unreporting) : Silent (h ++ [ev]) :=
  (reports_append_of_not hev).trans hh

theorem Untaken.append (hh : Untaken h) (hev : ev.op.Unreporting) : Untaken (h ++ [ev]) := by
  rw [Untaken, reports_append_of_not hev]
  exact hh

theorem Unreported.append {e : AcquisitionException} (hh : Unreported e h)
    (hev : ev.op.Unreporting) : Unreported e (h ++ [ev]) := by
  cases e with
  | acquisitionError e => exact Silent.append hh hev
  | workspaceCapacityError message | valueError message | port e => exact Untaken.append hh hev

/-- A setting in which the operations of an attempt may be performed anywhere. -/
structure Free (root : AttemptRoot) (S : AttemptSetting) : Prop where
  exec : ∀ op c s, S.exec op c s = op.exec root c s
  guar : ∀ h op c s, S.guar h op c s

section Rules

variable (hS : Free root S)

include hS

theorem Free.silent {p : Acquiring α} (hp : p.Only AcquisitionOp.Unreporting) :
    Triple S (fun e h _ => Unreported e h) (fun h _ => Silent h) p (fun _ h _ => Silent h) := by
  intro events s hs
  have hevents : wp S p (fun _ h _ => Silent h) events s :=
    hp.wp_events (fun _ _ _ _ hh => hh) (fun h op ch s hop hh => Silent.append hh hop)
      (fun h op ch s _ => hS.guar h op ch s) hs
  refine wp_mono (fun r h s hr => ?_) hevents
  cases r with
  | ok a => exact hr
  | error e => exact Silent.unreported hr e

theorem Free.silent_call (op : AcquisitionOp) (hop : op.Unreporting) :
    Triple S (fun e h _ => Unreported e h) (fun h _ => Silent h) (Prog.call op)
      (fun _ h _ => Silent h) := hS.silent (.call hop)

/-- What an operation raises comes from the storage or the file system. -/
theorem Free.error {op : AcquisitionOp} {ch : op.Choice} {s : Files} {e : AcquisitionException}
    (h : (S.exec op ch s).1 = .error e) : ∃ p, e = .port p := by
  rw [hS.exec] at h
  exact AcquisitionOp.effect_error h

/-- A report is taken, or its exception goes on. -/
theorem Free.report (metric : AcquisitionMetric)
    {E : AcquisitionException → List AcquisitionEvent → Files → Prop}
    (hreport : (AcquisitionOp.record metric).isReport = true)
    (hE : ∀ p h s, Untaken h → E (.port p) h s) :
    Triple S E (fun h _ => Silent h) (Prog.call (AcquisitionOp.record metric))
      (fun _ h _ => reports h = [⟨.record metric, .ok ()⟩]) := by
  refine .call (fun h _ => Silent h) (fun _ _ _ hh _ => hh) (fun h s ch _ => hS.guar h _ ch s)
    (fun h s ch r hs _ => ?_) (fun h s ch e hs he => ?_)
  · rw [reports_append hreport, show reports h = [] from hs]
    rfl
  · obtain ⟨p, rfl⟩ := hS.error he
    refine hE p _ _ ?_
    rw [Untaken, reports_append hreport, show reports h = [] from hs]
    intro ev hev
    rw [List.mem_singleton.mp hev]
    rfl

theorem Free.publish {request : AcquireRequest} {head : ObjectHead} :
    Triple S (fun e h _ => Unreported e h) (fun h _ => Silent h)
      (publish self root request ref head started) (fun src h _ => Reported (.ok src) h) := by
  refine (hS.silent fetch_unreporting).bind fun copied =>
    Triple.ofExcept_bind (fun e h s hs => hs.unreported e) fun sha _ => ?_
  refine (hS.silent (unreporting_of_modest checkDeadline_modest)).bind fun _ => ?_
  refine (hS.silent validate_unreporting).bind fun verdict => ?_
  obtain ⟨fmt, mime, warnings⟩ := verdict
  refine (hS.silent_call .replace rfl).bind fun _ => ?_
  refine (hS.silent_call .utcNow rfl).bind fun acquiredAt => ?_
  refine (hS.silent_call .monotonic rfl).bind fun now => ?_
  refine (hS.report (.acquisitionCompleted fmt copied.count (now - started)) rfl
    fun _ _ _ hh => hh).bind fun _ => ?_
  exact .ret fun h s hs => ⟨copied.count, now - started, hs, rfl⟩

/-- The part file is removed, and the exception goes on as unreported as it was. -/
theorem Free.unlink_raise (e : AcquisitionException)
    (Q : α → List AcquisitionEvent → Files → Prop) :
    Triple S (fun e h _ => Unreported e h) (fun h _ => Unreported e h)
      (Prog.call AcquisitionOp.unlinkPart >>= fun _ => (raise e : Acquiring α)) Q := by
  have hunlink : Triple S (fun e h _ => Unreported e h) (fun h _ => Unreported e h)
      (Prog.call AcquisitionOp.unlinkPart) (fun _ h _ => Unreported e h) := by
    refine .call (fun h _ => Unreported e h) (fun _ _ _ hh _ => hh)
      (fun h s ch _ => hS.guar h _ ch s) (fun h s ch r hs _ => hs.append rfl)
      (fun h s ch e' hs he => ?_)
    obtain ⟨p, rfl⟩ := hS.error he
    exact hs.untaken.append rfl
  exact hunlink.bind fun _ => .raise fun _ _ hs => hs

theorem Free.acquireFrom {request : AcquireRequest} :
    Triple S (fun e h _ => Unreported e h) (fun h _ => Silent h)
      (acquireFrom self root request ref started) (fun src h _ => Reported (.ok src) h) := by
  refine (hS.silent (unreporting_of_modest headSource_modest)).bind fun head =>
    Triple.ofExcept_bind (fun e h s hs => hs.unreported e) fun _ _ => ?_
  refine (hS.silent (unreporting_of_modest preflight_modest)).bind fun _ => ?_
  refine (hS.silent_call .mkdirIncoming rfl).bind fun _ => ?_
  refine (hS.silent_call .unlinkPart rfl).bind fun _ => ?_
  refine (hS.silent_call .unlinkValidated rfl).bind fun _ => ?_
  exact Triple.tryCatch hS.publish fun e => hS.unlink_raise e _

theorem Free.acquire (request : AcquireRequest) :
    Triple S (fun e h _ => Reported (.error e) h) (fun h _ => h = []) (acquire self root request)
      (fun src h _ => Reported (.ok src) h) := by
  have hclock : Triple S (fun e h _ => Reported (.error e) h) (fun h _ => Silent h)
      (Prog.call AcquisitionOp.monotonic) (fun _ h _ => Silent h) := by
    refine .call (fun h _ => Silent h) (fun _ _ _ hh _ => hh) (fun h s ch _ => hS.guar h _ ch s)
      (fun h s ch r hs _ => Silent.append hs rfl) (fun h s ch e hs he => ?_)
    obtain ⟨p, rfl⟩ := hS.error he
    exact (Silent.untaken hs).append rfl
  refine (hclock.pre fun h s hh => ?_).bind fun started => ?_
  · subst hh
    rfl
  refine Triple.bind (.ofExcept (fun _ _ _ _ hs => hs) fun e h s he hs => ?_) fun ref => ?_
  · obtain ⟨message, rfl⟩ : ∃ message, e = .valueError message := by
      cases hparse : StorageRef.parse request.sourceUri with
      | ok ref =>
        rw [hparse] at he
        cases he
      | error message =>
        rw [hparse] at he
        exact ⟨message, (Except.error.inj he).symm⟩
    exact Silent.untaken hs
  refine Triple.tryCatch hS.acquireFrom fun e => ?_
  cases e with
  | acquisitionError e =>
    refine hclock.bind fun now => ?_
    refine (hS.report (.acquisitionFailed e.code (now - started)) rfl fun _ _ _ hh => hh).bind
      fun _ => ?_
    exact .raise fun h s hs => ⟨now - started, hs⟩
  | workspaceCapacityError message | valueError message | port e => exact .raise fun _ _ hs => hs

end Rules

end Reports

/-! ## Runs -/

section Runs

variable {self : Config} {w : (attempts self).World}

theorem Files.empty_sane (root : AttemptRoot) : (Files.empty root).Sane self := by
  constructor
  · intro f hf
    cases hf
  · intro data hdata
    cases hdata

theorem attempts_sound
    (hreach : System.Reaches (System.World.initial (attempts self) Files.empty) w) :
    System.Sound (fun s => ∀ root, (s root).Sane self) (fun _ _ => True)
      (fun root s s' => (s root).Keeps (s' root)) PromotionDuty
      (fun root request _ => outcome
        (fun src h s => ∃ data, Acquired self root request h data src ∧ Promoted data (s root))
        (Cleaned root)) w := by
  refine attempts_discipline.sound _ (fun root request s _ _ => ?_) Files.empty_sane hreach
  have hworks : Works self root (System.setting (attempts self)
      (fun s => ∀ root, (s root).Sane self) (fun _ _ => True)
      (fun root s s' => (s root).Keeps (s' root)) PromotionDuty root request s) :=
    ⟨fun _ _ _ => rfl, fun _ _ h => h.2.2, fun _ _ _ _ h => h⟩
  exact hworks.acquire request [] s rfl

theorem attempts_removal : System.Discipline (attempts self) (fun _ => True) (fun _ _ => True)
    (fun _ _ _ => True) where
  refl _ _ := trivial
  trans _ _ _ _ _ _ := trivial
  start _ _ _ _ := trivial
  move _ _ _ := ⟨trivial, fun _ _ => ⟨trivial, trivial⟩⟩
  exec _ _ _ _ _ _ := ⟨trivial, fun _ _ => ⟨trivial, fun _ => trivial⟩⟩

theorem attempts_report
    (hreach : System.Reaches (System.World.initial (attempts self) Files.empty) w) :
    System.Sound (fun _ => True) (fun _ _ => True) (fun _ _ _ => True)
      (fun _ _ _ _ _ _ _ => True : (attempts self).Duty)
      (fun _ _ _ => outcome (fun src h _ => Reported (.ok src) h)
        (fun e h _ => Reported (.error e) h)) w := by
  refine System.sound _ _ attempts_removal (fun root request s _ _ => ?_) trivial hreach
  have hfree : Free root (System.setting (attempts self) (fun _ => True) (fun _ _ => True)
      (fun _ _ _ => True) (fun _ _ _ _ _ _ _ => True : (attempts self).Duty) root request s) :=
    ⟨fun _ _ _ => rfl, fun _ _ _ _ => trivial⟩
  exact hfree.acquire request [] s rfl

/-- However the attempts are interleaved, refused, stopped and cleaned up, no part file exceeds
the limit, every promoted file is admissible, and where a call has returned a source, what it
promoted are exactly the streamed bytes the source describes, unless they were removed. -/
theorem acquire_safe (self : Config) (w : (attempts self).World)
    (hreach : System.Reaches (System.World.initial (attempts self) Files.empty) w) :
    (∀ root, (w.shared root).Sane self) ∧
      ∀ root th src, w.threads root = some th → th.rest = .ret src →
        ∃ data, Acquired self root th.input th.history data src ∧
          Promoted data (w.shared root) := by
  have hsound := attempts_sound hreach
  refine ⟨hsound.invariant, fun root th src hth hrest => ?_⟩
  obtain ⟨-, s, hkeeps, hwp⟩ := hsound.threads root th hth
  rw [hrest] at hwp
  obtain ⟨data, hacquired, hpromoted⟩ := hwp
  exact ⟨data, hacquired, Promoted.lasting _ _ hpromoted hkeeps⟩

/-- Libraries that open nothing. -/
def plainLibraries : ContentLibraries where
  divide a b := a / b
  openZip _ := .error .unreadable
  openImage _ := none
  sniffCsv _ := none
  readCsv _ _ := ([], false)
  repr s := s

def sampleService : Config where
  lib := plainLibraries
  sha256 := Sha256.hexDigest
  policy := {}
  workspaceManager := none

def sampleRoot : AttemptRoot := ⟨1, 2⟩

def sampleRequest : AcquireRequest where
  sourceUri := .ok ("seaweed", "documents", "/a.pdf")
  originalFileName := some "a.pdf"

/-- `%PDF-%%EOF` in two chunks. -/
def sampleStream : SourceStream where
  chunks := [[0x25, 0x50, 0x44, 0x46, 0x2d], [0x25, 0x25, 0x45, 0x4f, 0x46]]

/-- The first chunk, and then nothing until the connection times out. -/
def brokenStream : SourceStream where
  chunks := [[0x25, 0x50, 0x44, 0x46, 0x2d]]
  failure := some .readTimeout

/-- Nothing else fails, and the clock stands still. -/
def answers (stream : SourceStream) : (op : AcquisitionOp) → op.Choice
  | .monotonic => (0 : Rat)
  | .utcNow => (0 : Int)
  | .head _ => .ok { «exists» := true, sizeBytes := some 10 }
  | .iterBytes _ => .ok stream
  | .diskFree => .ok 0
  | .attemptUsage => .ok 0
  | .write _ | .sync | .closePart => ⟨0, none, 0⟩
  | .record _ | .mkdirRoot | .mkdirIncoming | .unlinkPart | .unlinkValidated | .openPart
  | .readPart | .replace => none

def sampleActions (stream : SourceStream) (operations : Nat) :
    List (attempts sampleService).Action :=
  .start sampleRoot sampleRequest ::
    List.replicate operations (.perform sampleRoot (answers stream))

/-- The outcome of the thread of the attempt after a schedule. -/
def sampleOutcome (stream : SourceStream) (operations : Nat) :
    Option (Except AcquisitionException LocatedSource) :=
  (System.run (System.World.initial (attempts sampleService) Files.empty)
    (sampleActions stream operations)).bind fun w => (w.threads sampleRoot).bind fun th =>
      match th.rest with
      | .ret src => some (.ok src)
      | .raise e => some (.error e)
      | .perform _ _ => none

theorem exists_of_sampleOutcome {stream : SourceStream} {operations : Nat}
    {result : Except AcquisitionException LocatedSource}
    (h : sampleOutcome stream operations = some result) :
    ∃ w, System.Reaches (System.World.initial (attempts sampleService) Files.empty) w ∧
      ∃ th, w.threads sampleRoot = some th ∧ th.rest = ofExcept result := by
  obtain ⟨w, hrun, h⟩ := Option.bind_eq_some_iff.mp h
  obtain ⟨th, hth, h⟩ := Option.bind_eq_some_iff.mp h
  refine ⟨w, System.reaches_of_run hrun, th, hth, ?_⟩
  cases hrest : th.rest with
  | ret src =>
    rw [hrest] at h
    rw [← Option.some.inj h]
    rfl
  | raise e =>
    rw [hrest] at h
    rw [← Option.some.inj h]
    rfl
  | perform op k =>
    rw [hrest] at h
    cases h

theorem acquire_safe_sample : ∃ src w th data,
    System.Reaches (System.World.initial (attempts sampleService) Files.empty) w ∧
      w.threads sampleRoot = some th ∧ th.rest = .ret src ∧
        Acquired sampleService sampleRoot th.input th.history data src ∧
          Promoted data (w.shared sampleRoot) := by
  have hreturned : (sampleOutcome sampleStream 25).any (fun result => result.isOk) = true := by
    decide +kernel
  obtain ⟨result, houtcome, hok⟩ := (Option.any_eq_true _ _).mp hreturned
  obtain ⟨w, hreach, th, hth, hrest⟩ := exists_of_sampleOutcome houtcome
  cases result with
  | error e => cases hok
  | ok src =>
    obtain ⟨data, hdata⟩ := (acquire_safe sampleService w hreach).2 sampleRoot th src hth hrest
    exact ⟨src, w, th, data, hreach, hth, hrest, hdata⟩

end Runs

end SafeAcquisitionService

end AstraIndexator
