import AstraIndexator.Splitter.Service
import AstraIndexator.Foundation.Transaction

/-!
# Groups hold the units in order

Whatever ends a group and whichever groups are merged, the groups one after another
are the units that are not empty, in order, and no group is empty or exceeds a hard
limit.
-/

namespace AstraIndexator

open Text Transaction

/-- The unit has text. -/
def SplitUnit.hasText (unit : SplitUnit) : Bool := unit.text ≠ []

/-- The units of all groups. -/
def groupedUnits (groups : List UnitGroup) : List SplitUnit := groups.flatMap UnitGroup.units

@[simp] theorem groupedUnits_append (groups others : List UnitGroup) :
    groupedUnits (groups ++ others) = groupedUnits groups ++ groupedUnits others :=
  List.flatMap_append

@[simp] theorem groupedUnits_singleton (group : UnitGroup) : groupedUnits [group] = group.units :=
  List.append_nil _

namespace LogicalSplitter

variable {splitter : LogicalSplitter}

/-- A group that may become a fragment. -/
structure GoodGroup (splitter : LogicalSplitter) (units : List SplitUnit) : Prop where
  nonempty : units ≠ []
  withinHard : splitter.exceedsHard units = false

/-- All that was read so far is in the groups and the buffer. -/
structure Holds (splitter : LogicalSplitter) (state : SplitState) (units : List SplitUnit) :
    Prop where
  groups : ∀ group ∈ state.groups, GoodGroup splitter group.units
  buffer : state.buffer ≠ [] → splitter.exceedsHard state.buffer = false
  content : groupedUnits state.groups ++ state.buffer = units

theorem Holds.flush {state : SplitState} {units : List SplitUnit}
    (h : Holds splitter state units) (reason : String) (forced : Bool) :
    ∃ state', splitter.flush state reason forced = .ok state' ∧ Holds splitter state' units ∧
      state'.buffer = [] := by
  rw [LogicalSplitter.flush]
  by_cases hbuffer : state.buffer = []
  · rw [if_pos hbuffer]
    exact ⟨state, rfl, h, hbuffer⟩
  · have hhard := h.buffer hbuffer
    rw [if_neg hbuffer, if_neg (by rw [hhard]; decide)]
    refine ⟨_, rfl, ⟨?_, fun hne => absurd rfl hne, ?_⟩, rfl⟩
    · intro group hgroup
      rcases List.mem_append.mp hgroup with hgroup | hgroup
      · exact h.groups group hgroup
      · obtain rfl := List.mem_singleton.mp hgroup
        exact ⟨hbuffer, hhard⟩
    · rw [groupedUnits_append, groupedUnits_singleton, List.append_nil]
      exact h.content

/-- A unit within the hard limits joins the buffer when both are within them. -/
theorem Holds.append {state : SplitState} {units : List SplitUnit}
    (h : Holds splitter state units) {unit : SplitUnit}
    (hhard : splitter.exceedsHard (state.buffer ++ [unit]) = false) :
    Holds splitter { state with buffer := state.buffer ++ [unit] } (units ++ [unit]) where
  groups := h.groups
  buffer := fun _ => hhard
  content := by rw [← List.append_assoc, h.content]

theorem Holds.flushSection {state : SplitState} {units : List SplitUnit}
    (h : Holds splitter state units) (unit : SplitUnit) :
    ∃ state', splitter.flushSection state unit = .ok state' ∧ Holds splitter state' units := by
  rw [LogicalSplitter.flushSection]
  by_cases hsection : unit.elementType = .heading ∧ state.buffer ≠ [] ∧
      (splitter.profile.minChars ≤ (unitSize state.buffer).chars ∨
        smallException state.buffer = true)
  · rw [if_pos hsection]
    obtain ⟨state', hflush, hholds, -⟩ := h.flush "SECTION_BOUNDARY" false
    exact ⟨state', hflush, hholds⟩
  · rw [if_neg hsection]
    exact ⟨state, rfl, h⟩

/-- A unit is held behind those before it, unless it has no text.  Only a unit that
exceeds the hard limits by itself is refused. -/
theorem Holds.pushUnit {state : SplitState} {units : List SplitUnit}
    (h : Holds splitter state units) (unit : SplitUnit) :
    if unit.hasText = true ∧ splitter.exceedsHard [unit] = true then
      splitter.pushUnit state unit = .error "SPLITTER_UNIT_EXCEEDS_HARD_GUARD"
    else ∃ state', splitter.pushUnit state unit = .ok state' ∧
      Holds splitter state' (units ++ [unit].filter SplitUnit.hasText) := by
  rw [LogicalSplitter.pushUnit]
  by_cases htext : unit.text = []
  · have hnone : unit.hasText = false := by rw [SplitUnit.hasText, htext]; rfl
    rw [if_neg (by rw [hnone]; simp), if_pos htext, List.filter_cons_of_neg (by rw [hnone]; decide),
      List.filter_nil, List.append_nil]
    exact ⟨state, rfl, h⟩
  · have hsome : unit.hasText = true := decide_eq_true htext
    by_cases hhard : splitter.exceedsHard [unit] = true
    · rw [if_pos ⟨hsome, hhard⟩, if_neg htext, if_pos hhard]
    · have hfits : splitter.exceedsHard [unit] = false := Bool.eq_false_iff.mpr hhard
      rw [if_neg (fun hboth => hhard hboth.2), if_neg htext, if_neg hhard,
        List.filter_cons_of_pos hsome, List.filter_nil]
      obtain ⟨opened, hopened, hholds⟩ := h.flushSection unit
      rw [hopened, except_ok_bind]
      by_cases hbuffer : opened.buffer = []
      · rw [if_pos hbuffer]
        have hunit : splitter.exceedsHard (opened.buffer ++ [unit]) = false := by
          rw [hbuffer]
          exact hfits
        have happend := hholds.append hunit
        rw [hbuffer, List.nil_append] at happend
        exact ⟨_, rfl, happend⟩
      · rw [if_neg hbuffer]
        cases hreason : splitter.boundaryReason opened.buffer unit with
        | some reason =>
          obtain ⟨flushed, hflush, hflushed, hempty⟩ := hholds.flush reason.1 reason.2
          refine ⟨_, by dsimp only; rw [hflush, except_ok_bind]; rfl, hflushed.append ?_⟩
          rw [hempty]
          exact hfits
        | none =>
          refine ⟨_, rfl, hholds.append ?_⟩
          rw [boundaryReason] at hreason
          by_cases htrial : splitter.exceedsHard (opened.buffer ++ [unit]) = true
          · rw [if_pos htrial] at hreason
            cases hreason
          · exact Bool.eq_false_iff.mpr htrial

/-- The units of an element are held one after another, if none is refused. -/
theorem Holds.foldlM_pushUnit {state state' : SplitState} {units more : List SplitUnit}
    (h : Holds splitter state units) (hstep : more.foldlM splitter.pushUnit state = .ok state') :
    Holds splitter state' (units ++ more.filter SplitUnit.hasText) := by
  induction more generalizing state units with
  | nil =>
    obtain rfl := Except.ok.inj hstep
    rw [List.filter_nil, List.append_nil]
    exact h
  | cons unit more ih =>
    rw [List.foldlM_cons] at hstep
    obtain ⟨next, hnext, hstep⟩ := except_bind_ok.mp hstep
    have hpush := h.pushUnit unit
    by_cases hrefused : unit.hasText = true ∧ splitter.exceedsHard [unit] = true
    · rw [if_pos hrefused, hnext] at hpush
      cases hpush
    · rw [if_neg hrefused] at hpush
      obtain ⟨pushed, hpushed, hholds⟩ := hpush
      obtain rfl := Except.ok.inj (hnext.symm.trans hpushed)
      have hrest := ih hholds hstep
      rw [List.append_assoc, ← List.filter_append, List.singleton_append] at hrest
      exact hrest

/-- The elements are read to the end, and their units are held. -/
theorem Holds.foldlM_pushUnits {state state' : SplitState} {units : List SplitUnit}
    {results : List (Except String (List SplitUnit))} (h : Holds splitter state units)
    (hstep : results.foldlM splitter.pushUnits state = .ok state') :
    ∃ read : List (List SplitUnit), results = read.map Except.ok ∧
      Holds splitter state' (units ++ read.flatten.filter SplitUnit.hasText) := by
  induction results generalizing state units with
  | nil =>
    obtain rfl := Except.ok.inj hstep
    refine ⟨[], rfl, ?_⟩
    rw [List.flatten_nil, List.filter_nil, List.append_nil]
    exact h
  | cons result results ih =>
    rw [List.foldlM_cons] at hstep
    obtain ⟨next, hnext, hstep⟩ := except_bind_ok.mp hstep
    obtain ⟨more, hmore, hnext⟩ := except_bind_ok.mp hnext
    obtain ⟨read, hread, hholds⟩ := ih (h.foldlM_pushUnit hnext) hstep
    refine ⟨more :: read, by rw [hmore, hread, List.map_cons], ?_⟩
    rw [List.flatten_cons, List.filter_append, ← List.append_assoc]
    exact hholds

/-- The groups before small ones are merged. -/
theorem unitGroups_ok {document : NormalizedDocument} {groups : List UnitGroup}
    (h : splitter.unitGroups document = .ok groups) :
    ∃ read : List (List SplitUnit), splitter.iterUnits document = read.map Except.ok ∧
      groupedUnits groups = read.flatten.filter SplitUnit.hasText ∧
      ∀ group ∈ groups, GoodGroup splitter group.units := by
  rw [unitGroups] at h
  obtain ⟨state, hstate, h⟩ := except_bind_ok.mp h
  obtain ⟨flushed, hflushed, h⟩ := except_bind_ok.mp h
  obtain rfl := Except.ok.inj h
  have hinit : Holds splitter {} [] :=
    ⟨fun group hgroup => absurd hgroup List.not_mem_nil, fun hne => absurd rfl hne, rfl⟩
  obtain ⟨read, hread, hholds⟩ := hinit.foldlM_pushUnits hstate
  obtain ⟨last, hlast, hfinal, hempty⟩ := hholds.flush "DOCUMENT_END" false
  obtain rfl := Except.ok.inj (hflushed.symm.trans hlast)
  refine ⟨read, hread, ?_, hfinal.groups⟩
  have hcontent := hfinal.content
  rw [hempty, List.append_nil, List.nil_append] at hcontent
  exact hcontent

/-! ## Merging -/

/-- Merged groups hold the same units. -/
structure Merged (splitter : LogicalSplitter) (groups out : List UnitGroup) : Prop where
  content : groupedUnits out = groupedUnits groups
  good : ∀ group ∈ out, GoodGroup splitter group.units

theorem goodGroup_merge {left right : UnitGroup} (hleft : GoodGroup splitter left.units)
    (hmerge : splitter.mayMerge left.units right.units = true) :
    GoodGroup splitter (mergeGroups left right).units where
  nonempty := by
    show left.units ++ right.units ≠ []
    exact List.append_ne_nil_of_left_ne_nil hleft.nonempty _
  withinHard := by
    rw [mayMerge] at hmerge
    have hboth := (Bool.and_eq_true _ _).mp hmerge
    show splitter.exceedsHard (left.units ++ right.units) = false
    simpa using hboth.2

theorem Merged.placeGroup {groups out : List UnitGroup} (h : Merged splitter groups out)
    {group : UnitGroup} (hgroup : GoodGroup splitter group.units) :
    Merged splitter (groups ++ [group]) (splitter.placeGroup out group) := by
  have happend : Merged splitter (groups ++ [group]) (out ++ [group]) := by
    refine ⟨by rw [groupedUnits_append, groupedUnits_append, h.content], ?_⟩
    intro g hg
    rcases List.mem_append.mp hg with hg | hg
    · exact h.good g hg
    · obtain rfl := List.mem_singleton.mp hg
      exact hgroup
  rw [LogicalSplitter.placeGroup]
  cases hlast : out.getLast? with
  | none => exact happend
  | some previous =>
    dsimp only
    by_cases hmerge : splitter.isSmall group.units = true ∧
        (!smallException previous.units) = true ∧
        splitter.mayMerge previous.units group.units = true
    · rw [if_pos hmerge]
      have hsplit : out.dropLast ++ [previous] = out := List.dropLast_append_getLast? previous hlast
      refine ⟨?_, ?_⟩
      · have hcontent := h.content
        rw [← hsplit, groupedUnits_append, groupedUnits_singleton] at hcontent
        rw [groupedUnits_append, groupedUnits_append, groupedUnits_singleton,
          groupedUnits_singleton, ← hcontent, List.append_assoc]
        rfl
      · intro g hg
        rcases List.mem_append.mp hg with hg | hg
        · exact h.good g (List.dropLast_subset out hg)
        · obtain rfl := List.mem_singleton.mp hg
          exact goodGroup_merge (h.good previous (List.mem_of_getLast? hlast)) hmerge.2.2
    · rw [if_neg hmerge]
      exact happend

theorem Merged.consolidateFrom {groups out rest : List UnitGroup}
    (h : Merged splitter groups out) (hrest : ∀ group ∈ rest, GoodGroup splitter group.units) :
    Merged splitter (groups ++ rest) (splitter.consolidateFrom out rest) := by
  induction out, rest using consolidateFrom.induct splitter generalizing groups with
  | case1 out =>
    rw [LogicalSplitter.consolidateFrom, List.append_nil]
    exact h
  | case2 out group =>
    rw [LogicalSplitter.consolidateFrom]
    exact h.placeGroup (hrest group List.mem_cons_self)
  | case3 out group next rest hmerge ih =>
    rw [LogicalSplitter.consolidateFrom, if_pos hmerge]
    obtain ⟨hgroup, hrest⟩ := List.forall_mem_cons.mp hrest
    obtain ⟨hnext, hrest⟩ := List.forall_mem_cons.mp hrest
    have hmerged : Merged splitter (groups ++ [group, next])
        (out ++ [mergeGroups group next]) := by
      refine ⟨?_, ?_⟩
      · rw [groupedUnits_append, groupedUnits_append, groupedUnits_singleton, h.content]
        simp [groupedUnits, mergeGroups]
      · intro g hg
        rcases List.mem_append.mp hg with hg | hg
        · exact h.good g hg
        · obtain rfl := List.mem_singleton.mp hg
          exact goodGroup_merge hgroup hmerge.2.2
    have hfinal := ih hmerged hrest
    rw [List.append_assoc] at hfinal
    exact hfinal
  | case4 out group next rest hmerge ih =>
    rw [LogicalSplitter.consolidateFrom, if_neg hmerge]
    obtain ⟨hgroup, hrest⟩ := List.forall_mem_cons.mp hrest
    have hfinal := ih (h.placeGroup hgroup) hrest
    rw [List.append_assoc] at hfinal
    exact hfinal

theorem merged_consolidateSmallGroups {groups : List UnitGroup}
    (h : ∀ group ∈ groups, GoodGroup splitter group.units) :
    Merged splitter groups (splitter.consolidateSmallGroups groups) := by
  rw [consolidateSmallGroups]
  by_cases hfew : groups.length < 2
  · rw [if_pos hfew]
    exact ⟨rfl, h⟩
  · rw [if_neg hfew]
    have hnil : Merged splitter [] [] :=
      ⟨rfl, fun group hgroup => absurd hgroup List.not_mem_nil⟩
    exact hnil.consolidateFrom h

/-- The final groups hold the units with text, in order. -/
theorem finalGroups_ok {document : NormalizedDocument} {groups : List UnitGroup}
    (h : splitter.finalGroups document = .ok groups) :
    ∃ read : List (List SplitUnit), splitter.iterUnits document = read.map Except.ok ∧
      groupedUnits groups = read.flatten.filter SplitUnit.hasText ∧
      ∀ group ∈ groups, GoodGroup splitter group.units := by
  rw [finalGroups] at h
  obtain ⟨raw, hraw, h⟩ := except_bind_ok.mp h
  obtain rfl := Except.ok.inj h
  obtain ⟨read, hread, hcontent, hgood⟩ := unitGroups_ok hraw
  have hmerged := merged_consolidateSmallGroups hgood
  exact ⟨read, hread, hmerged.content.trans hcontent, hmerged.good⟩

/-- A fragment for every group, in order. -/
theorem split_ok {document : NormalizedDocument} {fragments : List LogicalFragment}
    (h : splitter.split document = .ok fragments) :
    ∃ groups, splitter.finalGroups document = .ok groups ∧
      fragments = groups.mapIdx fun index group => splitter.makeFragment document index group := by
  rw [split] at h
  obtain ⟨groups, hgroups, h⟩ := except_bind_ok.mp h
  obtain ⟨⟨⟩, -, h⟩ := except_bind_ok.mp h
  exact ⟨groups, hgroups, (Except.ok.inj h).symm⟩

end LogicalSplitter

end AstraIndexator
