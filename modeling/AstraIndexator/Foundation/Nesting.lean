import AstraIndexator.Foundation.Transaction

/-!
# Nested groups

A text over an alphabet with an escape, an opening and a closing mark.  `Nested n` derives the
texts whose groups are balanced and at most `n` deep.  `scan` counts the open groups and takes
what follows an escape as it is.  The scanner ends with nothing open exactly on the derivable
texts.
-/

namespace Nesting

open Transaction

/-- The three marks of an alphabet. -/
structure Marks (α : Type) where
  escape : α
  opening : α
  closing : α
  escape_ne_opening : escape ≠ opening
  escape_ne_closing : escape ≠ closing
  opening_ne_closing : opening ≠ closing

variable {α : Type} {m : Marks α}

/-- A symbol that is no mark. -/
def Marks.Plain (m : Marks α) (a : α) : Prop := a ≠ m.escape ∧ a ≠ m.opening ∧ a ≠ m.closing

/-- Balanced texts with groups at most `n` deep. -/
inductive Nested (m : Marks α) : Nat → List α → Prop
  | nil {n : Nat} : Nested m n []
  | plain {n : Nat} {a : α} {rest : List α} (ha : m.Plain a) (hrest : Nested m n rest) :
      Nested m n (a :: rest)
  | escaped {n : Nat} {a : α} {rest : List α} (hrest : Nested m n rest) :
      Nested m n (m.escape :: a :: rest)
  | group {n : Nat} {inside rest : List α} (hinside : Nested m n inside)
      (hrest : Nested m (n + 1) rest) :
      Nested m (n + 1) (m.opening :: (inside ++ m.closing :: rest))

/-- Texts that close `d` open groups, where groups may be `n` deep. -/
inductive Settles (m : Marks α) (n : Nat) : Nat → List α → Prop
  | done {l : List α} (h : Nested m n l) : Settles m n 0 l
  | close {d : Nat} {inside rest : List α} (hinside : Nested m (n - (d + 1)) inside)
      (hrest : Settles m n d rest) : Settles m n (d + 1) (inside ++ m.closing :: rest)

/-! ## The scanner -/

structure Scan where
  depth : Nat
  escaped : Bool
  deriving DecidableEq

inductive Fault
  | tooDeep
  | unbalanced
  deriving DecidableEq

variable [DecidableEq α]

/-- One symbol. -/
def step (m : Marks α) (n : Nat) (s : Scan) (a : α) : Except Fault Scan :=
  if s.escaped then .ok { s with escaped := false }
  else if a = m.escape then .ok { s with escaped := true }
  else if a = m.opening then
    if n < s.depth + 1 then .error .tooDeep else .ok { s with depth := s.depth + 1 }
  else if a = m.closing then
    match s.depth with
    | 0 => .error .unbalanced
    | d + 1 => .ok { s with depth := d }
  else .ok s

def scan (m : Marks α) (n : Nat) (s : Scan) (l : List α) : Except Fault Scan :=
  l.foldlM (step m n) s

section Steps

variable {n d : Nat} {a : α} {s s' : Scan} {l rest : List α}

theorem scan_cons : scan m n s (a :: l) = step m n s a >>= fun s => scan m n s l :=
  List.foldlM_cons

theorem scan_append : scan m n s (l ++ rest) = scan m n s l >>= fun s => scan m n s rest :=
  List.foldlM_append

theorem step_escaped : step m n ⟨d, true⟩ a = .ok ⟨d, false⟩ := rfl

theorem step_escape : step m n ⟨d, false⟩ m.escape = .ok ⟨d, true⟩ := if_pos rfl

theorem step_opening (h : d + 1 ≤ n) : step m n ⟨d, false⟩ m.opening = .ok ⟨d + 1, false⟩ := by
  simp only [step, Bool.false_eq_true, if_false]
  rw [if_neg m.escape_ne_opening.symm, if_pos trivial, if_neg (Nat.not_lt.mpr h)]

theorem step_opening_deep (h : ¬ d + 1 ≤ n) :
    step m n ⟨d, false⟩ m.opening = .error .tooDeep := by
  simp only [step, Bool.false_eq_true, if_false]
  rw [if_neg m.escape_ne_opening.symm, if_pos trivial, if_pos (Nat.not_le.mp h)]

theorem step_closing : step m n ⟨d + 1, false⟩ m.closing = .ok ⟨d, false⟩ := by
  simp only [step, Bool.false_eq_true, if_false]
  rw [if_neg m.escape_ne_closing.symm, if_neg m.opening_ne_closing.symm, if_pos trivial]

theorem step_closing_zero : step m n ⟨0, false⟩ m.closing = .error .unbalanced := by
  simp only [step, Bool.false_eq_true, if_false]
  rw [if_neg m.escape_ne_closing.symm, if_neg m.opening_ne_closing.symm, if_pos trivial]

theorem step_plain (h : m.Plain a) : step m n ⟨d, false⟩ a = .ok ⟨d, false⟩ := by
  simp only [step, Bool.false_eq_true, if_false]
  rw [if_neg h.1, if_neg h.2.1, if_neg h.2.2]

/-- Only an escape leaves the scanner waiting for the symbol behind it. -/
theorem step_eq_escaped (h : step m n s a = .ok ⟨d, true⟩) : s = ⟨d, false⟩ ∧ a = m.escape := by
  obtain ⟨depth, escaped⟩ := s
  cases escaped with
  | true =>
    rw [step_escaped] at h
    cases h
  | false =>
    by_cases hescape : a = m.escape
    · subst hescape
      rw [step_escape] at h
      cases h
      exact ⟨rfl, rfl⟩
    by_cases hopening : a = m.opening
    · subst hopening
      by_cases hdeep : depth + 1 ≤ n
      · rw [step_opening hdeep] at h
        cases h
      · rw [step_opening_deep hdeep] at h
        cases h
    by_cases hclosing : a = m.closing
    · subst hclosing
      cases depth with
      | zero =>
        rw [step_closing_zero] at h
        cases h
      | succ depth =>
        rw [step_closing] at h
        cases h
    · rw [step_plain ⟨hescape, hopening, hclosing⟩] at h
      cases h

end Steps

/-! ## Derivations -/

section Settling

variable {n d : Nat} {a : α} {inside rest l : List α}

omit [DecidableEq α] in
theorem Settles.plain (ha : m.Plain a) (h : Settles m n d rest) : Settles m n d (a :: rest) := by
  cases h with
  | done h => exact .done (.plain ha h)
  | close hinside hrest => exact .close (.plain ha hinside) hrest

omit [DecidableEq α] in
theorem Settles.escaped (h : Settles m n d rest) : Settles m n d (m.escape :: a :: rest) := by
  cases h with
  | done h => exact .done (.escaped h)
  | close hinside hrest => exact .close (.escaped hinside) hrest

omit [DecidableEq α] in
theorem Settles.group (hd : d + 1 ≤ n) (hinside : Nested m (n - (d + 1)) inside)
    (h : Settles m n d rest) : Settles m n d (m.opening :: (inside ++ m.closing :: rest)) := by
  cases h with
  | done h =>
    obtain ⟨k, rfl⟩ := Nat.exists_eq_add_of_le' hd
    exact .done (.group hinside h)
  | @close d next rest hnext hrest =>
    obtain ⟨k, hk⟩ : ∃ k, n - (d + 1) = k + 1 := ⟨n - (d + 2), by omega⟩
    have hdeeper : n - (d + 1 + 1) = k := by omega
    rw [hdeeper] at hinside
    rw [hk] at hnext
    have hgroup : Nested m (n - (d + 1)) (m.opening :: (inside ++ m.closing :: next)) := by
      rw [hk]
      exact .group hinside hnext
    have hclose := Settles.close hgroup hrest
    rwa [List.cons_append, List.append_assoc, List.cons_append] at hclose

end Settling

/-! ## Scanning -/

section Scanning

variable {n d k : Nat} {l : List α}

/-- A balanced text leaves the open groups as they are. -/
theorem scan_nested (h : Nested m k l) (hd : d + k ≤ n) :
    scan m n ⟨d, false⟩ l = .ok ⟨d, false⟩ := by
  induction h generalizing d with
  | nil => rfl
  | plain ha _ ih =>
    rw [scan_cons, step_plain ha, except_ok_bind]
    exact ih hd
  | escaped _ ih =>
    rw [scan_cons, step_escape, except_ok_bind, scan_cons, step_escaped, except_ok_bind]
    exact ih hd
  | group _ _ ihinside ihrest =>
    rw [scan_cons, step_opening (by omega), except_ok_bind, scan_append, ihinside (by omega),
      except_ok_bind, scan_cons, step_closing, except_ok_bind]
    exact ihrest hd

theorem scan_settles (h : Settles m n d l) (hd : d ≤ n) :
    scan m n ⟨d, false⟩ l = .ok ⟨0, false⟩ := by
  induction h with
  | done h => exact scan_nested h (by omega)
  | close hinside _ ih =>
    rw [scan_append, scan_nested hinside (by omega), except_ok_bind, scan_cons, step_closing,
      except_ok_bind]
    exact ih (by omega)

/-- A text that is scanned to its end closes what is open.  An escape takes two symbols at
once, so the induction is on the length. -/
theorem settles_of_scan (hd : d ≤ n) (h : scan m n ⟨d, false⟩ l = .ok ⟨0, false⟩) :
    Settles m n d l := by
  induction hlength : l.length using Nat.strongRecOn generalizing d l with
  | ind length ih =>
    cases l with
    | nil =>
      obtain rfl : d = 0 := congrArg Scan.depth (Except.ok.inj h)
      exact .done .nil
    | cons a rest =>
      have hshorter : rest.length < length := by
        rw [← hlength]
        exact Nat.lt_succ_self _
      rw [scan_cons] at h
      by_cases hescape : a = m.escape
      · subst hescape
        rw [step_escape, except_ok_bind] at h
        cases rest with
        | nil => cases congrArg Scan.escaped (Except.ok.inj h)
        | cons b rest =>
          rw [scan_cons, step_escaped, except_ok_bind] at h
          exact (ih rest.length (Nat.lt_of_succ_lt hshorter) hd h rfl).escaped
      by_cases hopening : a = m.opening
      · subst hopening
        by_cases hdeep : d + 1 ≤ n
        · rw [step_opening hdeep, except_ok_bind] at h
          cases ih rest.length hshorter hdeep h rfl with
          | close hinside hrest => exact .group hdeep hinside hrest
        · rw [step_opening_deep hdeep] at h
          cases h
      by_cases hclosing : a = m.closing
      · subst hclosing
        cases d with
        | zero =>
          rw [step_closing_zero] at h
          cases h
        | succ d =>
          rw [step_closing, except_ok_bind] at h
          exact .close .nil (ih rest.length hshorter (Nat.le_of_succ_le hd) h rfl)
      · have hplain : m.Plain a := ⟨hescape, hopening, hclosing⟩
        rw [step_plain hplain, except_ok_bind] at h
        exact (ih rest.length hshorter hd h rfl).plain hplain

/-- The scanner ends with nothing open exactly on the balanced texts. -/
theorem scan_iff : scan m n ⟨0, false⟩ l = .ok ⟨0, false⟩ ↔ Nested m n l := by
  constructor
  · intro h
    cases settles_of_scan (Nat.zero_le n) h with
    | done h => exact h
  · intro h
    exact scan_nested h (Nat.le_of_eq (Nat.zero_add n))

/-- The scanner ends behind a lone escape exactly on the balanced texts with one at the end. -/
theorem scan_escaped_iff : scan m n ⟨0, false⟩ l = .ok ⟨0, true⟩ ↔
    ∃ front, l = front ++ [m.escape] ∧ Nested m n front := by
  constructor
  · intro h
    rcases List.eq_nil_or_concat l with rfl | ⟨front, a, rfl⟩
    · cases h
    · rw [List.concat_eq_append, scan_append] at h
      obtain ⟨s, hfront, h⟩ := except_bind_ok.mp h
      rw [scan_cons] at h
      obtain ⟨s', hstep, h⟩ := except_bind_ok.mp h
      obtain rfl := Except.ok.inj h
      obtain ⟨rfl, rfl⟩ := step_eq_escaped hstep
      exact ⟨front, List.concat_eq_append, scan_iff.mp hfront⟩
  · rintro ⟨front, rfl, h⟩
    rw [scan_append, scan_iff.mpr h, except_ok_bind, scan_cons, step_escape, except_ok_bind]
    rfl

end Scanning

end Nesting
