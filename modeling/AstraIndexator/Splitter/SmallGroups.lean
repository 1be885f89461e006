import AstraIndexator.Foundation.Consolidation
import AstraIndexator.Splitter.Grouping

/-!
# Small groups

The pass over the groups merges a small one forward or back, and it does not come back to a
group it has made.  The groups it leaves can be merged no further exactly when no group made
of several ones may be merged with its neighbour.
-/

namespace AstraIndexator

open Consolidation

namespace LogicalSplitter

variable (splitter : LogicalSplitter)

/-- Two neighbours that can still be merged: one of them is short, none is an exception, they
are compatible, and together they keep the hard limits. -/
def CanMerge (left right : UnitGroup) : Prop :=
  ((unitSize left.units).chars < splitter.profile.minChars ∨
    (unitSize right.units).chars < splitter.profile.minChars) ∧
    smallException left.units = false ∧ smallException right.units = false ∧
    compatibleSmallMerge left.units right.units = true ∧
    splitter.exceedsHard (left.units ++ right.units) = false

/-- A small group joins the next one. -/
def MergesForward (group next : UnitGroup) : Prop :=
  splitter.isSmall group.units = true ∧ (!smallException next.units) = true ∧
    splitter.mayMerge group.units next.units = true

/-- A small group joins the one before it. -/
def MergesBack (previous group : UnitGroup) : Prop :=
  splitter.isSmall group.units = true ∧ (!smallException previous.units) = true ∧
    splitter.mayMerge previous.units group.units = true

instance : DecidableRel splitter.CanMerge := fun _ _ => inferInstanceAs (Decidable (_ ∧ _))

instance : DecidableRel splitter.MergesForward := fun _ _ => inferInstanceAs (Decidable (_ ∧ _))

instance : DecidableRel splitter.MergesBack := fun _ _ => inferInstanceAs (Decidable (_ ∧ _))

theorem canMerge_iff (left right : UnitGroup) : splitter.CanMerge left right ↔
    splitter.MergesForward left right ∨ splitter.MergesBack left right := by
  simp only [CanMerge, MergesForward, MergesBack, isSmall, mayMerge, Bool.and_eq_true,
    Bool.not_eq_true', decide_eq_true_eq]
  constructor
  · intro h
    obtain ⟨hshort, hleft, hright, hcompatible, hhard⟩ := h
    rcases hshort with hshort | hshort
    · exact .inl ⟨⟨hshort, hleft⟩, hright, hcompatible, hhard⟩
    · exact .inr ⟨⟨hshort, hright⟩, hleft, hcompatible, hhard⟩
  · intro h
    rcases h with ⟨⟨hshort, hleft⟩, hright, hcompatible, hhard⟩ |
      ⟨⟨hshort, hright⟩, hleft, hcompatible, hhard⟩
    · exact ⟨.inl hshort, hleft, hright, hcompatible, hhard⟩
    · exact ⟨.inr hshort, hleft, hright, hcompatible, hhard⟩

/-! ## The pass -/

theorem placeGroup_eq (out : List UnitGroup) (group : UnitGroup) :
    splitter.placeGroup out group = place splitter.MergesBack mergeGroups out group := by
  rw [placeGroup, place]
  cases out.getLast? with
  | none => rfl
  | some previous =>
    by_cases hmerge : splitter.MergesBack previous group
    · exact (if_pos hmerge).trans (if_pos hmerge).symm
    · exact (if_neg hmerge).trans (if_neg hmerge).symm

theorem consolidateFrom_eq (out groups : List UnitGroup) :
    splitter.consolidateFrom out groups =
      Consolidation.pass splitter.MergesForward splitter.MergesBack mergeGroups out groups := by
  induction out, groups using consolidateFrom.induct splitter with
  | case1 out => rw [consolidateFrom, Consolidation.pass]
  | case2 out group => rw [consolidateFrom, Consolidation.pass, placeGroup_eq]
  | case3 out group next rest hmerge ih =>
    rw [consolidateFrom, if_pos hmerge, ih, Consolidation.pass]
    exact (if_pos hmerge).symm
  | case4 out group next rest hmerge ih =>
    rw [consolidateFrom, if_neg hmerge, ih, Consolidation.pass, placeGroup_eq]
    exact (if_neg hmerge).symm

theorem consolidateSmallGroups_eq (groups : List UnitGroup) :
    splitter.consolidateSmallGroups groups =
      Consolidation.pass splitter.MergesForward splitter.MergesBack mergeGroups [] groups := by
  rw [consolidateSmallGroups, consolidateFrom_eq]
  cases groups with
  | nil => rfl
  | cons group rest =>
    cases rest with
    | nil => rfl
    | cons next rest => exact if_neg (by simp)

/-- The runs the pass cuts the groups into. -/
abbrev SmallRuns (groups : List UnitGroup) (runs : List (List UnitGroup × UnitGroup)) : Prop :=
  Cut splitter.MergesForward splitter.MergesBack mergeGroups groups runs

/-- No two neighbours among the consolidated groups can still be merged, and consolidating
them again changes nothing. -/
def ReachesFixedPoint (groups : List UnitGroup) : Prop :=
  (splitter.consolidateSmallGroups groups).IsChain
      (fun left right => ¬ splitter.CanMerge left right) ∧
    splitter.consolidateSmallGroups (splitter.consolidateSmallGroups groups) =
      splitter.consolidateSmallGroups groups

/-- Two neighbouring runs of which one has several groups cannot be merged any further. -/
def SeamClosed (run next : List UnitGroup × UnitGroup) : Prop :=
  1 < run.1.length ∨ 1 < next.1.length → ¬ splitter.CanMerge run.2 next.2

/-- Paragraphs of one word. -/
def wordParagraphs : NormalizedDocument where
  documentId := 0
  documentVersion := 1
  normalizerProfile := "general"
  normalizerVersion := "1"
  processingFingerprint := "f"
  elements := [
    ⟨"a", .paragraph, 0, some "a", none, none, none, none, none, false⟩,
    ⟨"b", .paragraph, 1, some "b", none, none, none, none, none, false⟩,
    ⟨"c", .paragraph, 2, some "c", none, none, none, none, none, false⟩,
    ⟨"d", .paragraph, 3, some "d", none, none, none, none, none, false⟩]

/-- A group ends where a word too many would join it. -/
def wordSplitter : LogicalSplitter where
  unicode := asciiText
  digest := Sha256.hexDigest
  profile := { targetWords := 1, softMaxWords := 1 }
  valid := ⟨by decide, by decide, by decide, rfl⟩

end LogicalSplitter

end AstraIndexator
