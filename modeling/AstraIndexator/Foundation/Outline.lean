import Mathlib.Data.List.Basic

/-!
# Outlines

The headings open at a point of a text, outermost first.  A heading closes the open
headings of its own level and below.  Keeping as many titles as the level allows,
whatever their levels are, gives the same path exactly when the levels are nested.
-/

namespace Outline

variable {α : Type}

structure Heading (α : Type) where
  level : Nat
  title : α

/-- A heading closes the open ones that are not above it. -/
def push (stack : List (Heading α)) (heading : Heading α) : List (Heading α) :=
  stack.filter (fun h => h.level < heading.level) ++ [heading]

/-- How many of some titles `titles[: level - 1]` keeps. -/
def kept (level count : Nat) : Nat := if level = 0 then count - 1 else min (level - 1) count

/-- A heading keeps titles by their number. -/
def cut (titles : List α) (heading : Heading α) : List α :=
  titles.take (kept heading.level titles.length) ++ [heading.title]

/-- The path at every item of a text, by levels. -/
def outlinePaths : List (Heading α) → List (Option (Heading α)) → List (List α)
  | _, [] => []
  | stack, none :: items => stack.map Heading.title :: outlinePaths stack items
  | stack, some heading :: items =>
    (push stack heading).map Heading.title :: outlinePaths (push stack heading) items

/-- The path at every item of a text, by number. -/
def cutPaths : List α → List (Option (Heading α)) → List (List α)
  | _, [] => []
  | titles, none :: items => titles :: cutPaths titles items
  | titles, some heading :: items => cut titles heading :: cutPaths (cut titles heading) items

/-- The titles open behind an item, by number. -/
def cutItem (titles : List α) : Option (Heading α) → List α
  | none => titles
  | some heading => cut titles heading

theorem cutPaths_cons (titles : List α) (item : Option (Heading α))
    (items : List (Option (Heading α))) :
    cutPaths titles (item :: items) =
      cutItem titles item :: cutPaths (cutItem titles item) items := by
  cases item with
  | none => rfl
  | some heading => rfl

theorem cutPaths_concat (titles : List α) (items : List (Option (Heading α)))
    (item : Option (Heading α)) :
    cutPaths titles (items ++ [item]) =
      cutPaths titles items ++ [cutItem (items.foldl cutItem titles) item] := by
  induction items generalizing titles with
  | nil => exact cutPaths_cons titles item []
  | cons first items ih =>
    rw [List.cons_append, cutPaths_cons, cutPaths_cons, ih, List.cons_append, List.foldl_cons]

/-! ## Nested levels -/

/-- As many open headings are above the level as titles are kept: all of them, or as
many as there are levels above it. -/
def Fits (levels : List Nat) (level : Nat) : Prop :=
  (levels.filter fun l => l < level).length = kept level levels.length

/-- Every heading fits below the headings open at it. -/
def Nested : List Nat → List Nat → Prop
  | _, [] => True
  | levels, level :: rest =>
    Fits levels level ∧ Nested (levels.filter (fun l => l < level) ++ [level]) rest

instance (levels : List Nat) (level : Nat) : Decidable (Fits levels level) :=
  inferInstanceAs (Decidable (_ = _))

instance decidableNested : ∀ levels rest, Decidable (Nested levels rest)
  | _, [] => .isTrue trivial
  | levels, level :: rest =>
    have := decidableNested (levels.filter (fun l => l < level) ++ [level]) rest
    inferInstanceAs (Decidable (_ ∧ _))

/-- Open headings have increasing levels. -/
def Increasing (stack : List (Heading α)) : Prop := stack.Pairwise fun a b => a.level < b.level

theorem Increasing.nil : Increasing ([] : List (Heading α)) := List.Pairwise.nil

theorem Increasing.push {stack : List (Heading α)} (h : Increasing stack) (heading : Heading α) :
    Increasing (push stack heading) := by
  rw [Increasing, Outline.push, List.pairwise_append]
  refine ⟨h.filter _, List.pairwise_singleton _ _, ?_⟩
  intro a ha b hb
  obtain rfl := List.mem_singleton.mp hb
  exact of_decide_eq_true (List.mem_filter.mp ha).2

/-- The headings above a level are the first ones. -/
theorem Increasing.filter_eq_take {stack : List (Heading α)} (h : Increasing stack) (level : Nat) :
    stack.filter (fun a => a.level < level) =
      stack.take (stack.filter fun a => a.level < level).length := by
  induction stack with
  | nil => rfl
  | cons a stack ih =>
    obtain ⟨ha, hstack⟩ := List.pairwise_cons.mp h
    by_cases hlevel : a.level < level
    · rw [List.filter_cons_of_pos (by simpa using hlevel), List.length_cons, List.take_succ_cons,
        ← ih hstack]
    · have hnone : stack.filter (fun b => b.level < level) = [] := by
        rw [List.filter_eq_nil_iff]
        intro b hb habove
        have hlt := ha b hb
        have hb' := of_decide_eq_true habove
        omega
      rw [List.filter_cons_of_neg (by simpa using hlevel), hnone]
      rfl

theorem kept_le (level count : Nat) : kept level count ≤ count := by
  rw [kept]
  by_cases hlevel : level = 0
  · rw [if_pos hlevel]
    omega
  · rw [if_neg hlevel]
    exact Nat.min_le_right _ _

theorem length_filter_levels (stack : List (Heading α)) (level : Nat) :
    ((stack.map Heading.level).filter fun l => l < level).length =
      (stack.filter fun a => a.level < level).length := by
  rw [List.filter_map, List.length_map]
  rfl

theorem levels_push (stack : List (Heading α)) (heading : Heading α) :
    (push stack heading).map Heading.level =
      (stack.map Heading.level).filter (fun l => l < heading.level) ++ [heading.level] := by
  rw [push, List.map_append, List.filter_map]
  rfl

/-- A heading keeps the right titles exactly when it fits. -/
theorem cut_eq_push_iff {stack : List (Heading α)} (h : Increasing stack) (heading : Heading α) :
    cut (stack.map Heading.title) heading = (push stack heading).map Heading.title ↔
      Fits (stack.map Heading.level) heading.level := by
  have hlength := length_filter_levels stack heading.level
  have hle : (stack.filter fun a => a.level < heading.level).length ≤ stack.length :=
    List.length_filter_le _ _
  have hkept := kept_le heading.level stack.length
  rw [cut, push, List.map_append, List.map_singleton, List.append_left_inj, Fits, hlength,
    h.filter_eq_take, List.map_take, List.take_eq_take_iff, List.length_map, List.length_map,
    List.length_take]
  omega

/-! ## Paths -/

/-- All paths are right exactly when the levels are nested. -/
theorem cutPaths_eq_iff {stack : List (Heading α)} (h : Increasing stack)
    (items : List (Option (Heading α))) :
    cutPaths (stack.map Heading.title) items = outlinePaths stack items ↔
      Nested (stack.map Heading.level) (items.filterMap fun item => item.map Heading.level) := by
  induction items generalizing stack with
  | nil => exact ⟨fun _ => trivial, fun _ => rfl⟩
  | cons item items ih =>
    cases item with
    | none =>
      rw [cutPaths, outlinePaths, List.cons_inj_right]
      exact ih h
    | some heading =>
      rw [cutPaths, outlinePaths, List.cons.injEq]
      show _ ↔ Fits _ _ ∧ Nested _ _
      rw [← levels_push, ← ih (h.push heading), cut_eq_push_iff h]
      constructor
      · rintro ⟨hfits, hpaths⟩
        rw [(cut_eq_push_iff h heading).mpr hfits] at hpaths
        exact ⟨hfits, hpaths⟩
      · rintro ⟨hfits, hpaths⟩
        rw [(cut_eq_push_iff h heading).mpr hfits]
        exact ⟨hfits, hpaths⟩

/-- Paths that are right at the headings are right everywhere. -/
theorem cutPaths_eq_of_headings {stack : List (Heading α)} {items : List (Option (Heading α))}
    (h : ∀ (index : Nat) (heading : Heading α), items[index]? = some (some heading) →
      (cutPaths (stack.map Heading.title) items)[index]? = (outlinePaths stack items)[index]?) :
    cutPaths (stack.map Heading.title) items = outlinePaths stack items := by
  induction items generalizing stack with
  | nil => rfl
  | cons item items ih =>
    cases item with
    | none =>
      rw [cutPaths, outlinePaths, List.cons_inj_right]
      exact ih fun index heading hitem => h (index + 1) heading hitem
    | some heading =>
      have hhead : cut (stack.map Heading.title) heading =
          (push stack heading).map Heading.title := Option.some.inj (h 0 heading rfl)
      rw [cutPaths, outlinePaths, hhead, List.cons_inj_right]
      apply ih
      intro index later hitem
      have hlater := h (index + 1) later hitem
      rw [cutPaths, outlinePaths, hhead] at hlater
      exact hlater

theorem length_outlinePaths (stack : List (Heading α)) (items : List (Option (Heading α))) :
    (outlinePaths stack items).length = items.length := by
  induction items generalizing stack with
  | nil => rfl
  | cons item items ih =>
    cases item with
    | none => exact congrArg (· + 1) (ih stack)
    | some heading => exact congrArg (· + 1) (ih (push stack heading))

/-- Paths hold titles of the text. -/
theorem mem_outlinePaths {P : α → Prop} {stack : List (Heading α)}
    {items : List (Option (Heading α))} (hstack : ∀ heading ∈ stack, P heading.title)
    (hitems : ∀ heading, some heading ∈ items → P heading.title) :
    ∀ path ∈ outlinePaths stack items, ∀ title ∈ path, P title := by
  induction items generalizing stack with
  | nil => exact fun path hpath => absurd hpath List.not_mem_nil
  | cons item items ih =>
    have hrest : ∀ heading, some heading ∈ items → P heading.title :=
      fun heading hmem => hitems heading (List.mem_cons_of_mem item hmem)
    cases item with
    | none =>
      refine List.forall_mem_cons.mpr ⟨?_, ih hstack hrest⟩
      intro title htitle
      obtain ⟨heading, hheading, rfl⟩ := List.mem_map.mp htitle
      exact hstack heading hheading
    | some heading =>
      have hpush : ∀ h ∈ push stack heading, P h.title := by
        intro h hh
        rcases List.mem_append.mp hh with hh | hh
        · exact hstack h (List.mem_of_mem_filter hh)
        · obtain rfl := List.mem_singleton.mp hh
          exact hitems h List.mem_cons_self
      refine List.forall_mem_cons.mpr ⟨?_, ih hpush hrest⟩
      intro title htitle
      obtain ⟨h, hh, rfl⟩ := List.mem_map.mp htitle
      exact hpush h hh

/-- Every heading is on the path at it. -/
theorem exists_mem_cutPaths {titles : List α} {items : List (Option (Heading α))}
    {heading : Heading α} (h : some heading ∈ items) :
    ∃ path ∈ cutPaths titles items, heading.title ∈ path := by
  induction items generalizing titles with
  | nil => exact absurd h List.not_mem_nil
  | cons item items ih =>
    rcases List.mem_cons.mp h with rfl | hrest
    · refine ⟨cut titles heading, List.mem_cons_self, ?_⟩
      exact List.mem_append_right _ List.mem_cons_self
    · cases item with
      | none =>
        obtain ⟨path, hpath, htitle⟩ := @ih titles hrest
        exact ⟨path, List.mem_cons_of_mem _ hpath, htitle⟩
      | some first =>
        obtain ⟨path, hpath, htitle⟩ := @ih (cut titles first) hrest
        exact ⟨path, List.mem_cons_of_mem _ hpath, htitle⟩

end Outline
