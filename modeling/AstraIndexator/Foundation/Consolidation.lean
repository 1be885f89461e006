import Mathlib.Data.List.Chain

/-!
# Merging neighbours in one pass

A pass from left to right merges a member forward, with the next one, or back, into the last
one that is complete, and it never looks at a merged member again.  It cuts the list into runs
and merges every run into one member.  Between two runs of one member nothing is left to
merge, so the pass has merged all it can exactly when that holds beside the longer runs.
-/

namespace Consolidation

variable {α : Type} (F B : α → α → Prop) (merge : α → α → α)

section Pass

variable [DecidableRel F] [DecidableRel B]

/-- A member joins the last one that is complete, or stands by itself. -/
def place (out : List α) (a : α) : List α :=
  match out.getLast? with
  | none => out ++ [a]
  | some last => if B last a then out.dropLast ++ [merge last a] else out ++ [a]

def pass : List α → List α → List α
  | out, [] => out
  | out, [a] => place B merge out a
  | out, a :: b :: rest =>
    if F a b then pass (out ++ [merge a b]) rest else pass (place B merge out a) (b :: rest)

end Pass

/-! ## Runs -/

/-- Members in front of others, and what they are merged into. -/
inductive Joins : List α → α → List α → Prop
  | pair {a b : α} {rest : List α} (h : F a b) : Joins [a, b] (merge a b) rest
  | single {a : α} {rest : List α} (h : ∀ b ∈ rest.head?, ¬ F a b) : Joins [a] a rest
  | join {members : List α} {merged a : α} {rest : List α}
    (hmembers : Joins members merged (a :: rest)) (hnot : ∀ b ∈ rest.head?, ¬ F a b)
    (h : B merged a) : Joins (members ++ [a]) (merge merged a) rest

/-- A run ends in front of a member that is merged forward or not merged into it. -/
def Ends (merged : α) : List α → Prop
  | [] => True
  | a :: rest => (∀ b ∈ rest.head?, ¬ F a b) → ¬ B merged a

/-- The runs of a list, each with what it is merged into. -/
inductive Cut : List α → List (List α × α) → Prop
  | nil : Cut [] []
  | run {members rest : List α} {merged : α} {runs : List (List α × α)}
    (h : Joins F B merge members merged rest) (hends : Ends F B merged rest)
    (hrest : Cut rest runs) : Cut (members ++ rest) ((members, merged) :: runs)

variable {F B merge}

section Runs

variable {members rest out : List α} {merged : α}

theorem Joins.ne_nil (h : Joins F B merge members merged rest) : members ≠ [] := by
  cases h with
  | pair _ => exact List.cons_ne_nil _ _
  | single _ => exact List.cons_ne_nil _ _
  | join _ _ _ => exact List.append_ne_nil_of_right_ne_nil _ (List.cons_ne_nil _ _)

/-- A run of one member is that member, which was not merged forward. -/
theorem Joins.eq_single (h : Joins F B merge members merged rest) (hone : members.length ≤ 1) :
    members = [merged] ∧ ∀ b ∈ rest.head?, ¬ F merged b := by
  cases h with
  | pair _ =>
    rw [List.length_cons, List.length_singleton] at hone
    omega
  | single hnot => exact ⟨rfl, hnot⟩
  | join hmembers _ _ =>
    have hpos := List.length_pos_of_ne_nil hmembers.ne_nil
    rw [List.length_append, List.length_singleton] at hone
    omega

/-- A run goes on up to where it ends. -/
theorem Joins.exists_ends (h : Joins F B merge members merged rest) :
    ∃ more rest' merged', rest = more ++ rest' ∧
      Joins F B merge (members ++ more) merged' rest' ∧ Ends F B merged' rest' := by
  induction rest generalizing members merged with
  | nil => exact ⟨[], [], merged, rfl, by rwa [List.append_nil], trivial⟩
  | cons a rest ih =>
    by_cases hends : Ends F B merged (a :: rest)
    · exact ⟨[], a :: rest, merged, rfl, by rwa [List.append_nil], hends⟩
    · obtain ⟨hnot, hback⟩ := Classical.not_imp.mp hends
      obtain ⟨more, rest', merged', hrest, hjoins, hends'⟩ := ih (h.join hnot (not_not.mp hback))
      refine ⟨a :: more, rest', merged', by rw [hrest, List.cons_append], ?_, hends'⟩
      rwa [List.append_cons]

theorem exists_joins (a : α) (rest : List α) : ∃ members merged rest',
    a :: rest = members ++ rest' ∧ Joins F B merge members merged rest' := by
  cases rest with
  | nil => exact ⟨[a], a, [], rfl, .single fun b hb => by cases hb⟩
  | cons b rest =>
    by_cases hforward : F a b
    · exact ⟨[a, b], merge a b, rest, rfl, .pair hforward⟩
    · refine ⟨[a], a, b :: rest, rfl, .single fun c hc => ?_⟩
      obtain rfl := Option.some.inj hc
      exact hforward

/-- Every list is cut into runs. -/
theorem exists_cut (l : List α) : ∃ runs, Cut F B merge l runs := by
  induction hn : l.length using Nat.strongRecOn generalizing l with
  | ind n ih =>
    subst hn
    cases l with
    | nil => exact ⟨[], .nil⟩
    | cons a l =>
      obtain ⟨members, merged, rest, hl, hjoins⟩ : ∃ members merged rest,
        a :: l = members ++ rest ∧ Joins F B merge members merged rest := exists_joins a l
      obtain ⟨more, rest', merged', hrest, hjoins', hends⟩ := hjoins.exists_ends
      have hsplit : a :: l = (members ++ more) ++ rest' := by rw [hl, hrest, List.append_assoc]
      have hpos := List.length_pos_of_ne_nil hjoins'.ne_nil
      have hlength := congrArg List.length hsplit
      rw [List.length_append] at hlength
      obtain ⟨runs, hruns⟩ := ih rest'.length (by omega) rest' rfl
      rw [hsplit]
      exact ⟨_, .run hjoins' hends hruns⟩

/-! ## What is left to merge -/

/-- Neither of two neighbours may be merged into the other. -/
def Apart (F B : α → α → Prop) (a b : α) : Prop := ¬ F a b ∧ ¬ B a b

/-- Two runs of which one has several members may not be merged. -/
def SeamApart (F B : α → α → Prop) (r s : List α × α) : Prop :=
  1 < r.1.length ∨ 1 < s.1.length → Apart F B r.2 s.2

/-- At a seam between two runs of one member there is nothing left to merge. -/
theorem apart_iff_seamApart {runs : List (List α × α)}
    (h : Joins F B merge members merged rest) (hends : Ends F B merged rest)
    (hrest : Cut F B merge rest runs) {s : List α × α} (hs : s ∈ runs.head?) :
    Apart F B merged s.2 ↔ SeamApart F B (members, merged) s := by
  refine ⟨fun hapart _ => hapart, fun hseam => ?_⟩
  by_cases hlong : 1 < members.length ∨ 1 < s.1.length
  · exact hseam hlong
  rw [not_or, Nat.not_lt, Nat.not_lt] at hlong
  cases hrest with
  | nil => cases hs
  | run hjoins hends' _ =>
    obtain rfl := Option.some.inj hs
    obtain ⟨-, hnot⟩ := h.eq_single hlong.1
    obtain ⟨hmembers, hnot'⟩ := hjoins.eq_single hlong.2
    rw [hmembers] at hnot hends
    exact ⟨hnot _ rfl, hends hnot'⟩

/-! ## The pass merges the runs -/

variable [DecidableRel F] [DecidableRel B]

theorem place_concat (last a : α) : place B merge (out ++ [last]) a =
    if B last a then out ++ [merge last a] else out ++ [last, a] := by
  rw [place, List.getLast?_concat, List.dropLast_concat, List.append_assoc]
  rfl

/-- A member that is merged neither way stands by itself. -/
theorem place_of_not {a : α} (h : ∀ last ∈ out.getLast?, ¬ B last a) :
    place B merge out a = out ++ [a] := by
  rw [place]
  cases hlast : out.getLast? with
  | none => rfl
  | some last => exact if_neg (h last hlast)

/-- The turn for a member that is not merged forward. -/
theorem pass_place {a : α} (h : ∀ b ∈ rest.head?, ¬ F a b) :
    pass F B merge out (a :: rest) = pass F B merge (place B merge out a) rest := by
  cases rest with
  | nil => rfl
  | cons b rest => rw [pass, if_neg (h b rfl)]

/-- The turns for a run leave what it is merged into. -/
theorem pass_joins (h : Joins F B merge members merged rest)
    (hout : ∀ last ∈ out.getLast?, Ends F B last (members ++ rest)) :
    pass F B merge out (members ++ rest) = pass F B merge (out ++ [merged]) rest := by
  induction h with
  | pair hforward => rw [List.cons_append, List.singleton_append, pass, if_pos hforward]
  | single hnot =>
    rw [List.singleton_append, pass_place hnot, place_of_not]
    intro last hlast
    exact hout last hlast hnot
  | join _ hnot hback ih =>
    rw [List.append_assoc, List.singleton_append] at hout ⊢
    rw [ih hout, pass_place hnot, place_concat, if_pos hback]

theorem pass_cut {l : List α} {runs : List (List α × α)} (h : Cut F B merge l runs)
    (hout : ∀ last ∈ out.getLast?, Ends F B last l) :
    pass F B merge out l = out ++ runs.map Prod.snd := by
  induction h generalizing out with
  | nil => rw [pass, List.map_nil, List.append_nil]
  | run hjoins hends _ ih =>
    rw [pass_joins hjoins hout, ih, List.map_cons, List.append_assoc, List.singleton_append]
    intro last hlast
    rw [List.getLast?_concat] at hlast
    obtain rfl := Option.some.inj hlast
    exact hends

/-- The pass has merged all it can exactly when the seams beside the longer runs are apart. -/
theorem isChain_pass_iff {l : List α} {runs : List (List α × α)} (h : Cut F B merge l runs) :
    (pass F B merge [] l).IsChain (Apart F B) ↔ runs.IsChain (SeamApart F B) := by
  have hpass : pass F B merge [] l = runs.map Prod.snd :=
    pass_cut h fun last (hlast : none = some last) => nomatch hlast
  rw [hpass]
  clear hpass
  induction h with
  | nil => exact ⟨fun _ => .nil, fun _ => .nil⟩
  | run hjoins hends hrest ih =>
    rw [List.map_cons, List.isChain_cons, List.isChain_cons, List.head?_map]
    refine and_congr ⟨fun hall s hs => ?_, fun hall b hb => ?_⟩ ih
    · exact (apart_iff_seamApart hjoins hends hrest hs).mp (hall s.2 (Option.mem_map_of_mem _ hs))
    · obtain ⟨s, hs, rfl⟩ := Option.map_eq_some_iff.mp hb
      exact (apart_iff_seamApart hjoins hends hrest hs).mpr (hall s hs)

/-- Where nothing is left to merge, the pass changes nothing. -/
theorem pass_of_isChain {l : List α} (h : (out ++ l).IsChain (Apart F B)) :
    pass F B merge out l = out ++ l := by
  induction l generalizing out with
  | nil => rw [pass, List.append_nil]
  | cons a l ih =>
    have happend := List.isChain_append.mp h
    have hnot : ∀ b ∈ l.head?, ¬ F a b := by
      intro b hb
      exact ((List.isChain_cons.mp happend.2.1).1 b hb).1
    have hback : ∀ last ∈ out.getLast?, ¬ B last a := by
      intro last hlast
      exact (happend.2.2 last hlast a rfl).2
    rw [List.append_cons] at h
    rw [pass_place hnot, place_of_not hback, ih h, ← List.append_cons]

end Runs

end Consolidation
