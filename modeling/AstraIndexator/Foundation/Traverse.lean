import AstraIndexator.Foundation.Transaction
import Mathlib.Data.List.Forall2

/-!
# Computations over a list

The results of a `mapM` that succeeds stand beside the members they come from.
-/

namespace Traverse

open Transaction

variable {ε α β γ : Type} {f : α → Except ε β} {l : List α}

/-- One result for each member. -/
theorem mapM_eq_ok {bs : List β} :
    l.mapM f = .ok bs ↔ List.Forall₂ (fun a b => f a = .ok b) l bs := by
  induction l generalizing bs with
  | nil =>
    constructor
    · intro h
      cases h
      exact .nil
    · intro h
      cases h
      rfl
  | cons a l ih =>
    rw [List.mapM_cons]
    constructor
    · intro h
      obtain ⟨b, hb, h⟩ := except_bind_ok.mp h
      obtain ⟨rest, hrest, h⟩ := except_bind_ok.mp h
      cases h
      exact .cons hb (ih.mp hrest)
    · intro h
      cases h with
      | cons hb hrest =>
        rw [hb, except_ok_bind, ih.mpr hrest, except_ok_bind]
        rfl

theorem exists_mapM_ok (h : ∀ a ∈ l, ∃ b, f a = .ok b) : ∃ bs, l.mapM f = .ok bs := by
  induction l with
  | nil => exact ⟨[], rfl⟩
  | cons a l ih =>
    obtain ⟨b, hb⟩ := h a List.mem_cons_self
    obtain ⟨bs, hbs⟩ := ih fun c hc => h c (List.mem_cons_of_mem _ hc)
    exact ⟨b :: bs, by rw [List.mapM_cons, hb, except_ok_bind, hbs, except_ok_bind]; rfl⟩

/-- A loop over a list ends without an error if every turn does. -/
theorem forM_eq_ok {g : α → Except ε Unit} :
    l.forM g = .ok () ↔ ∀ a ∈ l, g a = .ok () := by
  induction l with
  | nil => exact ⟨fun _ => List.forall_mem_nil _, fun _ => rfl⟩
  | cons a l ih =>
    rw [List.forM_eq_forM, List.forM_cons, except_bind_ok, List.forall_mem_cons,
      ← List.forM_eq_forM, ih]
    exact ⟨fun ⟨_, ha, h⟩ => ⟨ha, h⟩, fun ⟨ha, h⟩ => ⟨(), ha, h⟩⟩

/-- What every step keeps holds after the run. -/
theorem foldlM_invariant {P : α → Prop} {step : α → β → Except ε α} {items : List β} {a a' : α}
    (hstep : ∀ a b a', b ∈ items → P a → step a b = .ok a' → P a')
    (h : items.foldlM step a = .ok a') (ha : P a) : P a' := by
  induction items generalizing a with
  | nil =>
    obtain rfl := Except.ok.inj h
    exact ha
  | cons b items ih =>
    rw [List.foldlM_cons] at h
    obtain ⟨next, hnext, h⟩ := except_bind_ok.mp h
    have hP := hstep a b next List.mem_cons_self ha hnext
    exact ih (fun a b a' hb => hstep a b a' (List.mem_cons_of_mem _ hb)) h hP

/-- A run up to a member, its step, and the run behind it. -/
theorem foldlM_split {step : α → β → Except ε α} {before behind : List β} {b : β} {a a' : α}
    (h : (before ++ b :: behind).foldlM step a = .ok a') :
    ∃ state next, before.foldlM step a = .ok state ∧ step state b = .ok next ∧
      behind.foldlM step next = .ok a' := by
  rw [List.foldlM_append] at h
  obtain ⟨state, hstate, h⟩ := except_bind_ok.mp h
  rw [List.foldlM_cons] at h
  obtain ⟨next, hnext, h⟩ := except_bind_ok.mp h
  exact ⟨state, next, hstate, hnext, h⟩

/-- What every step leaves holds after a run of at least one step. -/
theorem foldlM_of_ne_nil {P : α → Prop} {step : α → β → Except ε α} {items : List β} {a a' : α}
    (hne : items ≠ []) (hstep : ∀ a b a', step a b = .ok a' → P a')
    (h : items.foldlM step a = .ok a') : P a' := by
  cases items with
  | nil => exact absurd rfl hne
  | cons b items =>
    rw [List.foldlM_cons] at h
    obtain ⟨next, hnext, h⟩ := except_bind_ok.mp h
    exact foldlM_invariant (fun a b a' _ _ hb => hstep a b a' hb) h (hstep a b next hnext)

/-- A run succeeds if every step does. -/
theorem exists_foldlM_ok {step : α → β → Except ε α} {items : List β}
    (hstep : ∀ a, ∀ b ∈ items, ∃ a', step a b = .ok a') (a : α) :
    ∃ a', items.foldlM step a = .ok a' := by
  induction items generalizing a with
  | nil => exact ⟨a, rfl⟩
  | cons b items ih =>
    obtain ⟨next, hnext⟩ := hstep a b List.mem_cons_self
    obtain ⟨a', ha'⟩ := ih (fun a c hc => hstep a c (List.mem_cons_of_mem b hc)) next
    exact ⟨a', by rw [List.foldlM_cons, hnext, except_ok_bind, ha']⟩

/-- A run fails with the one exception of its steps, if one of them fails. -/
theorem foldlM_error {Bad : β → Prop} {e : ε} {step : α → β → Except ε α} {items : List β}
    (hbad : ∀ a b, Bad b → step a b = .error e)
    (hgood : ∀ a b, ¬ Bad b → ∃ a', step a b = .ok a') (h : ∃ b ∈ items, Bad b) (a : α) :
    items.foldlM step a = .error e := by
  induction items generalizing a with
  | nil =>
    obtain ⟨b, hb, -⟩ := h
    exact absurd hb List.not_mem_nil
  | cons c items ih =>
    rw [List.foldlM_cons]
    by_cases hc : Bad c
    · rw [hbad a c hc]
      rfl
    · obtain ⟨next, hnext⟩ := hgood a c hc
      rw [hnext, except_ok_bind]
      apply ih
      obtain ⟨b, hb, hB⟩ := h
      rcases List.mem_cons.mp hb with heq | hb
      · exact absurd (heq ▸ hB) hc
      · exact ⟨b, hb, hB⟩

/-- A run succeeds exactly when every step does, where that depends on the member alone. -/
theorem exists_foldlM_ok_iff {Q : α → Prop} {R : β → Prop} {step : α → β → Except ε α}
    {items : List β} {a : α} (hok : ∀ a b, Q a → ((∃ a', step a b = .ok a') ↔ R b))
    (hkeep : ∀ a b a', Q a → step a b = .ok a' → Q a') (ha : Q a) :
    (∃ a', items.foldlM step a = .ok a') ↔ ∀ b ∈ items, R b := by
  induction items generalizing a with
  | nil => exact ⟨fun _ => List.forall_mem_nil _, fun _ => ⟨a, rfl⟩⟩
  | cons b items ih =>
    rw [List.foldlM_cons, List.forall_mem_cons, ← hok a b ha]
    constructor
    · rintro ⟨a', h⟩
      obtain ⟨next, hnext, h⟩ := except_bind_ok.mp h
      exact ⟨⟨next, hnext⟩, (ih (hkeep a b next ha hnext)).mp ⟨a', h⟩⟩
    · rintro ⟨⟨next, hnext⟩, hrest⟩
      obtain ⟨a', h⟩ := (ih (hkeep a b next ha hnext)).mpr hrest
      exact ⟨a', except_bind_ok.mpr ⟨next, hnext, h⟩⟩

/-- What holds behind a run is what held in front of it and what each member adds. -/
theorem foldlM_iff {P Q : α → Prop} {R : β → Prop} {step : α → β → Except ε α} {items : List β}
    {a a' : α}
    (hstep : ∀ a b a', b ∈ items → Q a → step a b = .ok a' → Q a' ∧ (P a' ↔ P a ∧ R b))
    (h : items.foldlM step a = .ok a') (ha : Q a) :
    Q a' ∧ (P a' ↔ P a ∧ ∀ b ∈ items, R b) := by
  induction items generalizing a with
  | nil =>
    obtain rfl := Except.ok.inj h
    exact ⟨ha, (and_iff_left (List.forall_mem_nil _)).symm⟩
  | cons b items ih =>
    rw [List.foldlM_cons] at h
    obtain ⟨next, hnext, h⟩ := except_bind_ok.mp h
    obtain ⟨hQ, hP⟩ := hstep a b next List.mem_cons_self ha hnext
    have hrest := ih (fun a c a' hc => hstep a c a' (List.mem_cons_of_mem _ hc)) h hQ
    refine ⟨hrest.1, ?_⟩
    rw [hrest.2, hP, List.forall_mem_cons, and_assoc]

/-- Members with their positions, where the positions are not looked at. -/
theorem flatMap_zipIdx (f : α → List γ) (l : List α) (start : Nat) :
    (l.zipIdx start).flatMap (fun entry => f entry.1) = l.flatMap f := by
  conv_rhs => rw [← List.zipIdx_map_fst start l, List.flatMap_map]

section Forall

variable {R : α → β → Prop} {as : List α} {bs : List β}

/-- Members that agree in what `g` and `h` read from them. -/
theorem map_eq_of_forall₂ {g : α → γ} {h : β → γ} (hall : List.Forall₂ R as bs)
    (heq : ∀ a b, R a b → g a = h b) : as.map g = bs.map h := by
  induction hall with
  | nil => rfl
  | cons hab hrest ih => rw [List.map_cons, List.map_cons, heq _ _ hab, ih]

theorem exists_left_of_forall₂ (hall : List.Forall₂ R as bs) : ∀ b ∈ bs, ∃ a ∈ as, R a b := by
  induction hall with
  | nil => exact List.forall_mem_nil _
  | cons hab hrest ih =>
    intro b hb
    rcases List.mem_cons.mp hb with rfl | hb
    · exact ⟨_, List.mem_cons_self, hab⟩
    · obtain ⟨a, ha, hR⟩ := ih b hb
      exact ⟨a, List.mem_cons_of_mem _ ha, hR⟩

theorem exists_right_of_forall₂ (hall : List.Forall₂ R as bs) : ∀ a ∈ as, ∃ b ∈ bs, R a b :=
  exists_left_of_forall₂ hall.flip

/-- Beside a member stands one that is related to it. -/
theorem getElem?_of_forall₂ (hall : List.Forall₂ R as bs) {k : Nat} {a : α} (h : as[k]? = some a) :
    ∃ b, bs[k]? = some b ∧ R a b := by
  induction hall generalizing k with
  | nil => cases h
  | cons hab hrest ih =>
    cases k with
    | zero =>
      obtain rfl := Option.some.inj h
      exact ⟨_, rfl, hab⟩
    | succ k => exact ih h

end Forall

end Traverse
