import Mathlib.Data.List.Perm.Basic

/-!
# Insertion behind owners

Each item of a second list is inserted behind the items of the first that carry
the key of its owner, and at the end if it has none.  The first list is kept in
order.  Every inserted item is there once when its owner is, and a relation holds
along the result when it holds at every place of insertion.
-/

namespace Insertion

variable {α κ : Type} [BEq κ] (key : α → κ) (owner : α → Option κ)

/-- The items with the given owner. -/
def owned (extra : List α) (o : Option κ) : List α := extra.filter fun a => owner a == o

/-- The first list with the second one inserted. -/
def insertAll (base extra : List α) : List α :=
  (base.flatMap fun e => e :: owned owner extra (some (key e))) ++ owned owner extra none

/-- How often an item is inserted. -/
def copies (base : List α) (a : α) : Nat :=
  match owner a with
  | none => 1
  | some k => (base.map key).count k

variable {key owner} {base extra : List α}

theorem owned_cons (a : α) (o : Option κ) :
    owned owner (a :: extra) o = (if owner a == o then [a] else []) ++ owned owner extra o := by
  rw [owned, List.filter_cons]
  split
  · rfl
  · rfl

/-- The first list keeps its order. -/
theorem sublist_insertAll : base.Sublist (insertAll key owner base extra) := by
  rw [insertAll]
  refine List.Sublist.trans ?_ (List.sublist_append_left _ _)
  induction base with
  | nil => exact List.Sublist.refl []
  | cons e base ih =>
    rw [List.flatMap_cons, List.cons_append]
    exact List.Sublist.cons_cons e (ih.trans (List.sublist_append_right _ _))

variable [LawfulBEq κ]

theorem mem_owned {o : Option κ} {a : α} : a ∈ owned owner extra o ↔ a ∈ extra ∧ owner a = o := by
  rw [owned, List.mem_filter, beq_iff_eq]

/-- The places of one item. -/
theorem flatMap_places (a : α) :
    (base.flatMap fun e => if owner a == some (key e) then [a] else []) ++
        (if owner a == none then [a] else []) = List.replicate (copies key owner base a) a := by
  rw [copies]
  cases howner : owner a with
  | none =>
    have hnone : ∀ e : α, (none == some (key e)) = false := fun _ => rfl
    simp [hnone]
  | some k =>
    have hlast : (some k == (none : Option κ)) = false := rfl
    rw [hlast, if_neg Bool.false_ne_true, List.append_nil]
    induction base with
    | nil => rfl
    | cons e base ih =>
      rw [List.flatMap_cons, ih, List.map_cons]
      dsimp only
      rw [List.count_cons]
      by_cases hkey : key e = k
      · simp [hkey, List.replicate_succ]
      · have hne : (k == key e) = false := by simpa using fun heq => hkey heq.symm
        simp [hkey, hne]

/-- The inserted items, each as often as its owner is there. -/
theorem places_perm :
    ((base.flatMap fun e => owned owner extra (some (key e))) ++ owned owner extra none).Perm
      (extra.flatMap fun a => List.replicate (copies key owner base a) a) := by
  induction extra with
  | nil =>
    have hnil : ∀ o, owned owner ([] : List α) o = [] := fun _ => rfl
    simp [hnil]
  | cons a extra ih =>
    rw [List.flatMap_cons, ← flatMap_places a, owned_cons]
    have hsplit : (base.flatMap fun e => owned owner (a :: extra) (some (key e))).Perm
        ((base.flatMap fun e => if owner a == some (key e) then [a] else []) ++
          base.flatMap fun e => owned owner extra (some (key e))) := by
      simp only [owned_cons]
      exact (List.flatMap_append_perm base _ _).symm
    refine (hsplit.append_right _).trans ?_
    rw [List.append_assoc, List.append_assoc]
    refine List.Perm.append_left _ ?_
    refine (List.perm_append_comm_assoc _ _ _).trans ?_
    exact List.Perm.append_left _ ih

theorem insertAll_perm :
    (insertAll key owner base extra).Perm
      (base ++ extra.flatMap fun a => List.replicate (copies key owner base a) a) := by
  have hcons := List.map_append_flatMap_perm base (fun e => e)
    (fun e => owned owner extra (some (key e)))
  rw [List.map_id'] at hcons
  refine (hcons.symm.append_right _).trans ?_
  rw [List.append_assoc]
  exact List.Perm.append_left _ places_perm

/-- Items whose owners are there once are inserted once. -/
theorem insertAll_perm_of_copies (h : ∀ a ∈ extra, copies key owner base a = 1) :
    (insertAll key owner base extra).Perm (base ++ extra) := by
  have hflat : (extra.flatMap fun a => List.replicate (copies key owner base a) a) = extra := by
    induction extra with
    | nil => rfl
    | cons a extra ih =>
      obtain ⟨ha, hextra⟩ := List.forall_mem_cons.mp h
      rw [List.flatMap_cons, ha, ih hextra]
      rfl
  have hperm : (insertAll key owner base extra).Perm _ := insertAll_perm
  rwa [hflat] at hperm

theorem length_le_copies (h : ∀ a ∈ extra, 0 < copies key owner base a) :
    extra.length ≤ (extra.flatMap fun a => List.replicate (copies key owner base a) a).length := by
  induction extra with
  | nil => exact Nat.le_refl 0
  | cons a extra ih =>
    obtain ⟨ha, hextra⟩ := List.forall_mem_cons.mp h
    have hrest := ih hextra
    rw [List.flatMap_cons, List.length_append, List.length_replicate, List.length_cons]
    omega

/-- Items with owners are doubled if the result is longer than both lists. -/
theorem copies_of_length (h : ∀ a ∈ extra, 0 < copies key owner base a)
    (hlength : (insertAll key owner base extra).length = base.length + extra.length) :
    ∀ a ∈ extra, copies key owner base a = 1 := by
  rw [insertAll_perm.length_eq, List.length_append, Nat.add_left_cancel_iff] at hlength
  induction extra with
  | nil => exact List.forall_mem_nil _
  | cons a extra ih =>
    obtain ⟨ha, hextra⟩ := List.forall_mem_cons.mp h
    have hrest := length_le_copies hextra
    rw [List.flatMap_cons, List.length_append, List.length_replicate, List.length_cons] at hlength
    exact List.forall_mem_cons.mpr ⟨by omega, ih hextra (by omega)⟩

/-- A relation along the result, place by place. -/
theorem pairwise_insertAll_iff {R : α → α → Prop} :
    (insertAll key owner base extra).Pairwise R ↔
      base.Pairwise R ∧
      (∀ e ∈ base, ∀ a ∈ extra, owner a = some (key e) → R e a) ∧
      (∀ e ∈ base, (owned owner extra (some (key e))).Pairwise R) ∧
      (base.Pairwise fun e e' =>
        (∀ a ∈ extra, owner a = some (key e) → R a e') ∧
        (∀ b ∈ extra, owner b = some (key e') → R e b) ∧
        ∀ a ∈ extra, ∀ b ∈ extra, owner a = some (key e) → owner b = some (key e') → R a b) ∧
      (owned owner extra none).Pairwise R ∧
      ∀ b ∈ extra, owner b = none →
        (∀ e ∈ base, R e b) ∧
        ∀ e ∈ base, ∀ a ∈ extra, owner a = some (key e) → R a b := by
  rw [insertAll, List.pairwise_append, List.pairwise_flatMap]
  constructor
  · rintro ⟨⟨hgroups, hacross⟩, hlast, hend⟩
    have hmember : ∀ e ∈ base, ∀ a ∈ extra, owner a = some (key e) →
        a ∈ base.flatMap fun e => e :: owned owner extra (some (key e)) := fun e he a ha howner =>
      List.mem_flatMap.mpr ⟨e, he, List.mem_cons_of_mem e (mem_owned.mpr ⟨ha, howner⟩)⟩
    refine ⟨hacross.imp fun {e e'} h => h e List.mem_cons_self e' List.mem_cons_self,
      fun e he a ha howner => ?_, fun e he => ?_, hacross.imp fun {e e'} h => ?_, hlast,
      fun b hb howner => ?_⟩
    · exact (List.pairwise_cons.mp (hgroups e he)).1 a (mem_owned.mpr ⟨ha, howner⟩)
    · exact (List.pairwise_cons.mp (hgroups e he)).2
    · refine ⟨fun a ha howner => ?_, fun b hb howner => ?_, fun a ha b hb howner howner' => ?_⟩
      · exact h a (List.mem_cons_of_mem e (mem_owned.mpr ⟨ha, howner⟩)) e' List.mem_cons_self
      · exact h e List.mem_cons_self b (List.mem_cons_of_mem e' (mem_owned.mpr ⟨hb, howner⟩))
      · exact h a (List.mem_cons_of_mem e (mem_owned.mpr ⟨ha, howner⟩)) b
          (List.mem_cons_of_mem e' (mem_owned.mpr ⟨hb, howner'⟩))
    · have hb' := mem_owned.mpr ⟨hb, howner⟩
      refine ⟨fun e he => hend e (List.mem_flatMap.mpr ⟨e, he, List.mem_cons_self⟩) b hb',
        fun e he a ha howner' => hend a (hmember e he a ha howner') b hb'⟩
  · rintro ⟨hbase, hown, hsiblings, hacross, hlast, hend⟩
    refine ⟨⟨fun e he => ?_, ?_⟩, hlast, fun x hx b hb => ?_⟩
    · refine List.pairwise_cons.mpr ⟨fun a ha => ?_, hsiblings e he⟩
      obtain ⟨hmem, howner⟩ := mem_owned.mp ha
      exact hown e he a hmem howner
    · refine (hbase.and hacross).imp fun {e e'} h x hx y hy => ?_
      obtain ⟨hee, hleft, hright, hboth⟩ := h
      rcases List.mem_cons.mp hx with rfl | hx
      · rcases List.mem_cons.mp hy with rfl | hy
        · exact hee
        · exact hright y (mem_owned.mp hy).1 (mem_owned.mp hy).2
      · rcases List.mem_cons.mp hy with rfl | hy
        · exact hleft x (mem_owned.mp hx).1 (mem_owned.mp hx).2
        · exact hboth x (mem_owned.mp hx).1 y (mem_owned.mp hy).1 (mem_owned.mp hx).2
            (mem_owned.mp hy).2
    · obtain ⟨hbmem, hbnone⟩ := mem_owned.mp hb
      obtain ⟨e, he, hx⟩ := List.mem_flatMap.mp hx
      rcases List.mem_cons.mp hx with rfl | hx
      · exact (hend b hbmem hbnone).1 x he
      · exact (hend b hbmem hbnone).2 e he x (mem_owned.mp hx).1 (mem_owned.mp hx).2

end Insertion
