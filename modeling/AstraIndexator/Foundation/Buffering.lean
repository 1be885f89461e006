import Mathlib.Data.List.Basic
import Mathlib.Data.List.Induction

/-!
# Groups cut while reading

Members are read one after another into a buffer, and a predicate of the buffer and the
next member says where the group in the buffer ends.  What is shown of the members by a
map does not change where the groups end, when the predicate looks at nothing else.
-/

/-- The groups that are complete, and the members of the one that is not. -/
structure Buffered (α : Type) where
  groups : List (List α)
  buffer : List α

namespace Buffered

variable {α β : Type}

section Loop

variable (cut : List α → α → Bool)

def empty : Buffered α := ⟨[], []⟩

/-- A member joins the buffer, or the group in the buffer ends in front of it. -/
def push (state : Buffered α) (a : α) : Buffered α :=
  if state.buffer ≠ [] ∧ cut state.buffer a = true then ⟨state.groups ++ [state.buffer], [a]⟩
  else ⟨state.groups, state.buffer ++ [a]⟩

/-- The state behind some members. -/
def run (l : List α) : Buffered α := l.foldl (push cut) empty

/-- The groups once the one in the buffer is complete. -/
def closed (state : Buffered α) : List (List α) :=
  if state.buffer = [] then state.groups else state.groups ++ [state.buffer]

/-- The groups of some members. -/
def parts (l : List α) : List (List α) := (run cut l).closed

end Loop

def map (f : α → β) (state : Buffered α) : Buffered β :=
  ⟨state.groups.map (List.map f), state.buffer.map f⟩

variable {cut : List α → α → Bool} {state : Buffered α} {a : α}

theorem run_concat (l : List α) (a : α) : run cut (l ++ [a]) = push cut (run cut l) a :=
  List.foldl_concat ..

/-- The members of the groups are those that were read, in order. -/
theorem run_content (l : List α) : (run cut l).groups.flatten ++ (run cut l).buffer = l := by
  induction l using List.reverseRecOn with
  | nil => rfl
  | append_singleton l a ih =>
    rw [run_concat, push]
    split
    · rw [List.flatten_append, List.flatten_singleton, ih]
    · rw [← List.append_assoc, ih]

theorem flatten_closed (state : Buffered α) :
    state.closed.flatten = state.groups.flatten ++ state.buffer := by
  rw [closed]
  split
  · rename_i hnil
    rw [hnil, List.append_nil]
  · rw [List.flatten_append, List.flatten_singleton]

theorem flatten_parts (cut : List α → α → Bool) (l : List α) : (parts cut l).flatten = l := by
  rw [parts, flatten_closed, run_content]

theorem buffer_push_ne_nil (cut : List α → α → Bool) (state : Buffered α) (a : α) :
    (push cut state a).buffer ≠ [] := by
  rw [push]
  split
  · exact List.cons_ne_nil a []
  · exact List.append_ne_nil_of_right_ne_nil _ (List.cons_ne_nil a [])

theorem push_of_cut (hne : state.buffer ≠ []) (hcut : cut state.buffer a = true) :
    push cut state a = ⟨state.groups ++ [state.buffer], [a]⟩ := if_pos ⟨hne, hcut⟩

theorem push_of_not (hcut : ¬ (state.buffer ≠ [] ∧ cut state.buffer a = true)) :
    push cut state a = ⟨state.groups, state.buffer ++ [a]⟩ := if_neg hcut

/-! ## Groups that are shown -/

theorem map_push (f : α → β) (cut : List β → β → Bool) (state : Buffered α) (a : α) :
    (push (fun buffer b => cut (buffer.map f) (f b)) state a).map f =
      push cut (state.map f) (f a) := by
  by_cases hcut : state.buffer ≠ [] ∧ cut (state.buffer.map f) (f a) = true
  · rw [push_of_cut hcut.1 hcut.2, push_of_cut (by simpa [map] using hcut.1) hcut.2]
    simp [map]
  · rw [push_of_not hcut, push_of_not (by simpa [map] using hcut)]
    simp [map]

theorem map_run (f : α → β) (cut : List β → β → Bool) (l : List α) :
    (run (fun buffer b => cut (buffer.map f) (f b)) l).map f = run cut (l.map f) := by
  induction l using List.reverseRecOn with
  | nil => rfl
  | append_singleton l a ih =>
    rw [List.map_append, List.map_singleton, run_concat, run_concat, map_push, ih]

theorem map_parts (f : α → β) (cut : List β → β → Bool) (l : List α) :
    (parts (fun buffer b => cut (buffer.map f) (f b)) l).map (List.map f) =
      parts cut (l.map f) := by
  rw [parts, parts, ← map_run, closed, closed]
  by_cases hnil : (run (fun buffer b => cut (buffer.map f) (f b)) l).buffer = []
  · rw [if_pos hnil, if_pos (by simp [map, hnil])]
    rfl
  · rw [if_neg hnil, if_neg (by simpa [map] using hnil)]
    simp [map]

/-! ## Members of one group -/

/-- Complete groups stay. -/
theorem mem_groups_foldl (cut : List α → α → Bool) {group : List α} (rest : List α)
    (hgroup : group ∈ state.groups) : group ∈ (rest.foldl (push cut) state).groups := by
  induction rest generalizing state with
  | nil => exact hgroup
  | cons a rest ih =>
    apply ih
    rw [push]
    split
    · exact List.mem_append_left _ hgroup
    · exact hgroup

/-- What is in the buffer begins a group. -/
theorem exists_closed_foldl (cut : List α → α → Bool) (rest : List α) (hne : state.buffer ≠ []) :
    ∃ part ∈ (rest.foldl (push cut) state).closed, state.buffer <+: part := by
  induction rest generalizing state with
  | nil =>
    refine ⟨state.buffer, ?_, List.prefix_refl _⟩
    rw [List.foldl_nil, closed, if_neg hne]
    exact List.mem_append_right _ (List.mem_singleton_self _)
  | cons a rest ih =>
    rw [List.foldl_cons]
    by_cases hcut : cut state.buffer a = true
    · have hmem : state.buffer ∈ (push cut state a).groups := by
        rw [push_of_cut hne hcut]
        exact List.mem_append_right _ (List.mem_singleton_self _)
      refine ⟨state.buffer, ?_, List.prefix_refl _⟩
      have hgroups := mem_groups_foldl cut rest hmem
      rw [closed]
      split
      · exact hgroups
      · exact List.mem_append_left _ hgroups
    · obtain ⟨part, hpart, hprefix⟩ := ih (buffer_push_ne_nil cut state a)
      refine ⟨part, hpart, List.IsPrefix.trans ?_ hprefix⟩
      rw [push_of_not fun h => hcut h.2]
      exact List.prefix_append _ _

/-- A member that does not end the group is in one group with what is in the buffer. -/
theorem exists_part_of_join {before after : List α} (hne : (run cut before).buffer ≠ [])
    (hjoin : cut (run cut before).buffer a = false) :
    ∃ part ∈ parts cut (before ++ a :: after), (run cut before).buffer ++ [a] <+: part := by
  have hpush : (run cut (before ++ [a])).buffer = (run cut before).buffer ++ [a] := by
    rw [run_concat, push_of_not fun h => by rw [hjoin] at h; exact absurd h.2 (by decide)]
  have hbuffer : (run cut (before ++ [a])).buffer ≠ [] := by
    rw [hpush]
    exact List.append_ne_nil_of_left_ne_nil hne _
  obtain ⟨part, hpart, hprefix⟩ := exists_closed_foldl cut after hbuffer
  rw [hpush] at hprefix
  refine ⟨part, ?_, hprefix⟩
  rw [parts, run, List.append_cons, List.foldl_append]
  exact hpart

/-- A relation holds inside every group exactly when it holds between every member that is
read and those in the buffer that it joins. -/
theorem forall_parts_pairwise_iff {R : α → α → Prop} (l : List α) :
    (∀ part ∈ parts cut l, part.Pairwise R) ↔
      ∀ before a after, l = before ++ a :: after → cut (run cut before).buffer a = false →
        ∀ b ∈ (run cut before).buffer, R b a := by
  induction l using List.reverseRecOn with
  | nil =>
    constructor
    · intro _ before a after heq
      exact absurd heq (by simp)
    · intro _ part hpart
      exact absurd hpart List.not_mem_nil
  | append_singleton l a ih =>
    have hlast : (∀ before b after, l ++ [a] = before ++ b :: after →
        cut (run cut before).buffer b = false → ∀ c ∈ (run cut before).buffer, R c b) ↔
        (∀ part ∈ parts cut l, part.Pairwise R) ∧
          (cut (run cut l).buffer a = false → ∀ c ∈ (run cut l).buffer, R c a) := by
      rw [ih]
      constructor
      · intro h
        refine ⟨fun before b after heq => h before b (after ++ [a]) ?_, h l a [] rfl⟩
        rw [heq, List.append_assoc, List.cons_append]
      · rintro ⟨hold, hnew⟩ before b after heq
        rcases List.eq_nil_or_concat after with hnil | ⟨rest, last, hrest⟩
        · rw [hnil] at heq
          obtain ⟨rfl, hab⟩ := List.append_inj' heq rfl
          obtain rfl := List.head_eq_of_cons_eq hab
          exact hnew
        · rw [hrest, List.concat_eq_append, ← List.cons_append, ← List.append_assoc] at heq
          exact hold before b rest (List.append_inj' heq rfl).1
    rw [hlast, parts, parts, run_concat]
    generalize run cut l = state
    by_cases hne : state.buffer = []
    · rw [push_of_not fun h => h.1 hne, closed, closed, if_pos hne, if_neg (by simp), hne,
        List.nil_append]
      constructor
      · intro h
        exact ⟨fun part hpart => h part (List.mem_append_left _ hpart),
          fun _ => List.forall_mem_nil _⟩
      · rintro ⟨h, -⟩ part hpart
        rcases List.mem_append.mp hpart with hpart | hpart
        · exact h part hpart
        · exact List.mem_singleton.mp hpart ▸ List.pairwise_singleton R a
    · by_cases hcut : cut state.buffer a = true
      · rw [push_of_cut hne hcut, closed, closed, if_neg hne, if_neg (List.cons_ne_nil a [])]
        constructor
        · intro h
          refine ⟨fun part hpart => h part (List.mem_append_left _ hpart), fun hjoin => ?_⟩
          rw [hcut] at hjoin
          exact absurd hjoin (by decide)
        · rintro ⟨h, -⟩ part hpart
          rcases List.mem_append.mp hpart with hpart | hpart
          · exact h part hpart
          · exact List.mem_singleton.mp hpart ▸ List.pairwise_singleton R a
      · have hjoin : cut state.buffer a = false := Bool.eq_false_iff.mpr hcut
        rw [push_of_not fun h => hcut h.2, closed, closed, if_neg hne, if_neg (by simp)]
        simp only [List.forall_mem_append, List.forall_mem_singleton, List.pairwise_append,
          List.pairwise_singleton, hjoin, true_and, forall_const, and_assoc]

end Buffered
