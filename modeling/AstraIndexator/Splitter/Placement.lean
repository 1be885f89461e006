import AstraIndexator.Foundation.Buffering
import AstraIndexator.Splitter.Content
import AstraIndexator.Splitter.SmallGroups

/-!
# Where the units of an element stand

The units are tagged with the position of their element.  The loop of the splitter cuts
them into groups by a predicate of the buffer and the next unit, and merging small groups
joins whole groups in which there are no tables and no code blocks.
-/

namespace AstraIndexator

open Transaction

/-- A unit with the position of its element among those that are not suppressed. -/
abbrev PlacedUnit := Nat × SplitUnit

/-- The units with text, in order, with the positions of their elements. -/
def placedUnits (read : List (List SplitUnit)) : List PlacedUnit :=
  read.zipIdx.flatMap fun entry => (entry.1.filter SplitUnit.hasText).map fun unit =>
    (entry.2, unit)

/-- The units without their positions. -/
def unitsOf (part : List PlacedUnit) : List SplitUnit := part.map Prod.snd

theorem unitsOf_append (part more : List PlacedUnit) :
    unitsOf (part ++ more) = unitsOf part ++ unitsOf more := List.map_append

theorem unitsOf_placedUnits (read : List (List SplitUnit)) :
    unitsOf (placedUnits read) = read.flatten.filter SplitUnit.hasText := by
  have hentries : ∀ start, (read.zipIdx start).flatMap (fun entry =>
      (entry.1.filter SplitUnit.hasText).map fun unit => ((entry.2, unit) : PlacedUnit).2) =
      read.flatten.filter SplitUnit.hasText := by
    induction read with
    | nil => exact fun start => rfl
    | cons units read ih =>
      intro start
      rw [List.zipIdx_cons, List.flatMap_cons, ih, List.flatten_cons, List.filter_append,
        List.map_id']
  rw [unitsOf, placedUnits, List.map_flatMap]
  simp only [List.map_map]
  exact hentries 0

theorem mem_placedUnits {read : List (List SplitUnit)} {entry : PlacedUnit} :
    entry ∈ placedUnits read ↔
      ∃ units, read[entry.1]? = some units ∧ entry.2 ∈ units ∧ entry.2.hasText = true := by
  rw [placedUnits, List.mem_flatMap]
  constructor
  · rintro ⟨⟨units, i⟩, hmem, hentry⟩
    obtain ⟨unit, hunit, rfl⟩ := List.mem_map.mp hentry
    obtain ⟨hunit, htext⟩ := List.mem_filter.mp hunit
    exact ⟨units, List.mk_mem_zipIdx_iff_getElem?.mp hmem, hunit, htext⟩
  · rintro ⟨units, hget, hunit, htext⟩
    refine ⟨(units, entry.1), List.mk_mem_zipIdx_iff_getElem?.mpr hget, ?_⟩
    exact List.mem_map.mpr ⟨entry.2, List.mem_filter.mpr ⟨hunit, htext⟩, rfl⟩

namespace LogicalSplitter

variable (splitter : LogicalSplitter)

/-- The group in the buffer ends in front of the unit. -/
def endsGroup (buffer : List SplitUnit) (unit : SplitUnit) : Bool :=
  (unit.elementType = .heading &&
    (decide (splitter.profile.minChars ≤ (unitSize buffer).chars) || smallException buffer)) ||
    (splitter.boundaryReason buffer unit).isSome

/-- The group in the buffer ends in front of the unit, wherever the units come from. -/
def endsPart (buffer : List PlacedUnit) (entry : PlacedUnit) : Bool :=
  splitter.endsGroup (unitsOf buffer) entry.2

/-- The state of the loop without the reasons. -/
def SplitState.shown (state : SplitState) : Buffered SplitUnit :=
  ⟨state.groups.map UnitGroup.units, state.buffer⟩

variable {splitter}

/-! ## The loop -/

theorem flush_ok {state state' : SplitState} {reason : String} {forced : Bool}
    (h : splitter.flush state reason forced = .ok state') :
    state'.shown = ⟨state.shown.closed, []⟩ := by
  rw [flush] at h
  by_cases hnil : state.buffer = []
  · rw [if_pos hnil] at h
    obtain rfl := Except.ok.inj h
    rw [SplitState.shown, Buffered.closed, if_pos hnil, hnil]
  · rw [if_neg hnil] at h
    split at h
    · cases h
    · obtain rfl := Except.ok.inj h
      rw [SplitState.shown, Buffered.closed, SplitState.shown, if_neg hnil, List.map_append]
      rfl

theorem closed_of_ne_nil {state : SplitState} (hne : state.buffer ≠ []) :
    state.shown.closed = state.shown.groups ++ [state.buffer] := if_neg hne

/-- A unit without text changes nothing. -/
theorem pushUnit_blank {state : SplitState} {unit : SplitUnit} (h : unit.hasText = false) :
    splitter.pushUnit state unit = .ok state := by
  have htext : unit.text = [] := by simpa [SplitUnit.hasText] using h
  rw [pushUnit, if_pos htext]

/-- A unit with text joins the buffer, or the group in the buffer ends in front of it. -/
theorem pushUnit_shown {state state' : SplitState} {unit : SplitUnit}
    (hunit : unit.hasText = true) (h : splitter.pushUnit state unit = .ok state') :
    state'.shown = Buffered.push splitter.endsGroup state.shown unit := by
  have htext : unit.text ≠ [] := by simpa [SplitUnit.hasText] using hunit
  rw [pushUnit, if_neg htext] at h
  split at h
  · cases h
  obtain ⟨opened, hopened, h⟩ := except_bind_ok.mp h
  rw [flushSection] at hopened
  by_cases hsection : unit.elementType = .heading ∧ state.buffer ≠ [] ∧
      (splitter.profile.minChars ≤ (unitSize state.buffer).chars ∨
        smallException state.buffer = true)
  · rw [if_pos hsection] at hopened
    have hshown := flush_ok hopened
    have hbuffer : opened.buffer = [] := congrArg Buffered.buffer hshown
    rw [if_pos hbuffer] at h
    obtain rfl := Except.ok.inj h
    have hends : splitter.endsGroup state.buffer unit = true := by
      rw [endsGroup, Bool.or_eq_true]
      left
      simpa using ⟨hsection.1, hsection.2.2⟩
    have hgroups : opened.shown.groups = state.shown.groups ++ [state.buffer] := by
      rw [hshown, closed_of_ne_nil hsection.2.1]
    rw [Buffered.push_of_cut hsection.2.1 hends]
    exact congrArg (Buffered.mk · [unit]) hgroups
  · rw [if_neg hsection] at hopened
    obtain rfl := Except.ok.inj hopened
    by_cases hbuffer : state.buffer = []
    · rw [if_pos hbuffer] at h
      obtain rfl := Except.ok.inj h
      rw [Buffered.push_of_not fun hcut => hcut.1 hbuffer]
      show (⟨_, [unit]⟩ : Buffered SplitUnit) = ⟨_, state.buffer ++ [unit]⟩
      rw [hbuffer]
      rfl
    · rw [if_neg hbuffer] at h
      have hends : splitter.endsGroup state.buffer unit =
          (splitter.boundaryReason state.buffer unit).isSome := by
        rw [endsGroup, Bool.or_eq_right_iff_imp]
        intro hheading
        exact absurd ⟨by simpa using (Bool.and_eq_true_iff.mp hheading).1, hbuffer,
          by simpa using (Bool.and_eq_true_iff.mp hheading).2⟩ hsection
      cases hreason : splitter.boundaryReason state.buffer unit with
      | some reason =>
        rw [hreason] at h hends
        obtain ⟨flushed, hflushed, h⟩ := except_bind_ok.mp h
        obtain rfl := Except.ok.inj h
        have hshown := flush_ok hflushed
        have hnil : flushed.buffer = [] := congrArg Buffered.buffer hshown
        have hgroups : flushed.shown.groups = state.shown.groups ++ [state.buffer] := by
          rw [hshown, closed_of_ne_nil hbuffer]
        rw [Buffered.push_of_cut hbuffer hends]
        show (⟨flushed.shown.groups, flushed.buffer ++ [unit]⟩ : Buffered SplitUnit) = _
        rw [hgroups, hnil]
        rfl
      | none =>
        rw [hreason] at h hends
        obtain rfl := Except.ok.inj h
        have hjoin : ¬ (state.shown.buffer ≠ [] ∧
            splitter.endsGroup state.shown.buffer unit = true) := by
          intro hcut
          exact absurd (hends.symm.trans hcut.2) (by decide)
        exact (Buffered.push_of_not hjoin).symm

theorem foldlM_pushUnit_shown {state state' : SplitState} {units : List SplitUnit}
    (h : units.foldlM splitter.pushUnit state = .ok state') :
    state'.shown =
      (units.filter SplitUnit.hasText).foldl (Buffered.push splitter.endsGroup) state.shown := by
  induction units generalizing state with
  | nil =>
    obtain rfl := Except.ok.inj h
    rfl
  | cons unit units ih =>
    rw [List.foldlM_cons] at h
    obtain ⟨next, hnext, h⟩ := except_bind_ok.mp h
    by_cases htext : unit.hasText = true
    · rw [List.filter_cons_of_pos htext, List.foldl_cons, ← pushUnit_shown htext hnext]
      exact ih h
    · have hblank := Bool.eq_false_iff.mpr htext
      rw [pushUnit_blank hblank] at hnext
      obtain rfl := Except.ok.inj hnext
      rw [List.filter_cons_of_neg htext]
      exact ih h

theorem foldlM_pushUnits_shown {state state' : SplitState}
    {results : List (Except String (List SplitUnit))}
    (h : results.foldlM splitter.pushUnits state = .ok state') :
    ∃ read : List (List SplitUnit), results = read.map Except.ok ∧
      state'.shown = (read.flatten.filter SplitUnit.hasText).foldl
        (Buffered.push splitter.endsGroup) state.shown := by
  induction results generalizing state with
  | nil =>
    obtain rfl := Except.ok.inj h
    exact ⟨[], rfl, rfl⟩
  | cons result results ih =>
    rw [List.foldlM_cons] at h
    obtain ⟨next, hnext, h⟩ := except_bind_ok.mp h
    obtain ⟨units, hunits, hnext⟩ := except_bind_ok.mp hnext
    obtain ⟨read, hread, hshown⟩ := ih h
    refine ⟨units :: read, by rw [hunits, hread, List.map_cons], ?_⟩
    rw [List.flatten_cons, List.filter_append, List.foldl_append, ← foldlM_pushUnit_shown hnext]
    exact hshown

/-- The groups of the loop are those cut by the predicate. -/
theorem unitGroups_parts {document : NormalizedDocument} {groups : List UnitGroup}
    (h : splitter.unitGroups document = .ok groups) :
    ∃ read : List (List SplitUnit), splitter.iterUnits document = read.map Except.ok ∧
      groups.map UnitGroup.units =
        Buffered.parts splitter.endsGroup (read.flatten.filter SplitUnit.hasText) := by
  rw [unitGroups] at h
  obtain ⟨state, hstate, h⟩ := except_bind_ok.mp h
  obtain ⟨flushed, hflushed, h⟩ := except_bind_ok.mp h
  obtain rfl := Except.ok.inj h
  obtain ⟨read, hread, hshown⟩ := foldlM_pushUnits_shown hstate
  have hgroups : flushed.groups.map UnitGroup.units = state.shown.closed :=
    congrArg Buffered.groups (flush_ok hflushed)
  refine ⟨read, hread, ?_⟩
  rw [hgroups, hshown]
  rfl

/-! ## Merging -/

/-- Some groups of the loop, of which there is one or which hold no table and no code. -/
def MergedRun (run : List (List SplitUnit)) : Prop :=
  run.length ≤ 1 ∨ ∀ units ∈ run, ∀ unit ∈ units,
    unit.elementType ≠ .table ∧ unit.elementType ≠ .codeBlock

/-- Groups that are merged hold no table and no code. -/
theorem not_table_of_mayMerge {left right : List SplitUnit}
    (h : splitter.mayMerge left right = true) :
    ∀ unit ∈ left ++ right, unit.elementType ≠ .table ∧ unit.elementType ≠ .codeBlock := by
  intro unit hunit
  rw [mayMerge, Bool.and_eq_true] at h
  have hcompatible := h.1
  rw [compatibleSmallMerge] at hcompatible
  split at hcompatible
  · split at hcompatible
    · cases hcompatible
    · rename_i hany
      rw [Bool.not_eq_true, List.any_eq_false] at hany
      simpa using hany unit hunit
  · cases hcompatible

theorem Joins.units {members : List UnitGroup} {merged : UnitGroup} {rest : List UnitGroup}
    (h : Consolidation.Joins splitter.MergesForward splitter.MergesBack mergeGroups members merged
      rest) :
    merged.units = (members.map UnitGroup.units).flatten ∧
      MergedRun (members.map UnitGroup.units) := by
  induction h with
  | pair hforward =>
    refine ⟨by simp [mergeGroups], .inr ?_⟩
    intro units hunits unit hunit
    apply not_table_of_mayMerge hforward.2.2
    simp only [List.map_cons, List.map_nil, List.mem_cons, List.not_mem_nil, or_false] at hunits
    rcases hunits with rfl | rfl
    · exact List.mem_append_left _ hunit
    · exact List.mem_append_right _ hunit
  | single _ => exact ⟨by simp, .inl (Nat.le_refl 1)⟩
  | @join members merged group _ _ _ hback ih =>
    have hnone := not_table_of_mayMerge hback.2.2
    rw [ih.1] at hnone
    refine ⟨?_, .inr ?_⟩
    · rw [List.map_append, List.flatten_append, ← ih.1]
      simp [mergeGroups]
    · intro units hunits unit hunit
      apply hnone
      rw [List.map_append] at hunits
      rcases List.mem_append.mp hunits with hunits | hunits
      · exact List.mem_append_left _ (List.mem_flatten_of_mem hunits hunit)
      · obtain rfl := List.mem_singleton.mp hunits
        exact List.mem_append_right _ hunit

/-- Merging joins runs of groups. -/
theorem consolidateSmallGroups_runs (groups : List UnitGroup) :
    ∃ runs : List (List (List SplitUnit)), runs.flatten = groups.map UnitGroup.units ∧
      (splitter.consolidateSmallGroups groups).map UnitGroup.units = runs.map List.flatten ∧
      ∀ run ∈ runs, MergedRun run := by
  obtain ⟨runs, hruns⟩ : ∃ runs, splitter.SmallRuns groups runs := Consolidation.exists_cut groups
  have hpass : Consolidation.pass splitter.MergesForward splitter.MergesBack mergeGroups [] groups =
      runs.map Prod.snd :=
    Consolidation.pass_cut hruns fun last (hlast : none = some last) => nomatch hlast
  rw [consolidateSmallGroups_eq, hpass]
  clear hpass
  induction hruns with
  | nil => exact ⟨[], rfl, rfl, List.forall_mem_nil _⟩
  | @run members rest merged runs hjoins _ _ ih =>
    obtain ⟨more, hflat, hmap, hall⟩ := ih
    obtain ⟨hunits, hrun⟩ := Joins.units hjoins
    refine ⟨members.map UnitGroup.units :: more, ?_, ?_, List.forall_mem_cons.mpr ⟨hrun, hall⟩⟩
    · rw [List.flatten_cons, hflat, List.map_append]
    · rw [List.map_cons, List.map_cons, List.map_cons, hmap, hunits]

/-! ## Elements -/

/-- The titles open at an element that is not suppressed. -/
def titlesAt (live : List NormalizedElement) (i : Nat) : List (List Char) :=
  (live.take (i + 1)).foldl openTitles []

/-- The introduction of the lists at an element that is not suppressed. -/
def introAt (live : List NormalizedElement) (i : Nat) : Option (List Char) :=
  (live.take (i + 1)).foldl listIntroAfter none

/-- The units of each element that is not suppressed. -/
theorem unitsFrom_getElem? {titles : List (List Char)} {listIntro : Option (List Char)}
    {elements live : List NormalizedElement} {read : List (List SplitUnit)}
    (hlive : live = elements.filter fun element => !element.suppressedFromIndex)
    (h : splitter.unitsFrom titles listIntro elements = read.map Except.ok) :
    read.length = live.length ∧
      ∀ (i : Nat) (element : NormalizedElement) (units : List SplitUnit),
        live[i]? = some element → read[i]? = some units →
        splitter.elementUnits element ((live.take (i + 1)).foldl openTitles titles)
          ((live.take (i + 1)).foldl listIntroAfter listIntro) = .ok units := by
  induction elements generalizing titles listIntro live read with
  | nil =>
    obtain rfl : live = [] := hlive
    obtain rfl := List.map_eq_nil_iff.mp h.symm
    exact ⟨rfl, fun i element units hlive => by cases hlive⟩
  | cons element elements ih =>
    rw [unitsFrom] at h
    by_cases hsuppressed : element.suppressedFromIndex = true
    · rw [if_pos hsuppressed] at h
      rw [List.filter_cons_of_neg (by rw [hsuppressed]; decide)] at hlive
      exact ih hlive h
    · rw [if_neg hsuppressed] at h
      rw [List.filter_cons_of_pos (by simpa using hsuppressed)] at hlive
      obtain ⟨units, more, rfl, hunits, hmore⟩ := List.map_eq_cons_iff.mp h.symm
      subst hlive
      obtain ⟨hlength, hrest⟩ := ih rfl hmore.symm
      refine ⟨by rw [List.length_cons, List.length_cons, hlength], ?_⟩
      intro i other made hother hmade
      cases i with
      | zero =>
        obtain rfl := Option.some.inj hother
        obtain rfl := Option.some.inj hmade
        exact hunits.symm
      | succ i => exact hrest i other made hother hmade

theorem iterUnits_getElem? {document : NormalizedDocument} {read : List (List SplitUnit)}
    (h : splitter.iterUnits document = read.map Except.ok) {i : Nat} {units : List SplitUnit}
    (hunits : read[i]? = some units) :
    ∃ element, (liveElements document)[i]? = some element ∧
      splitter.elementUnits element (titlesAt (liveElements document) i)
        (introAt (liveElements document) i) = .ok units := by
  obtain ⟨hlength, hmade⟩ := @unitsFrom_getElem? splitter [] none (orderedElements document)
    (liveElements document) read rfl h
  obtain ⟨hlt, -⟩ := List.getElem?_eq_some_iff.mp hunits
  have hget := List.getElem?_eq_getElem (l := liveElements document) (i := i) (by omega)
  exact ⟨_, hget, hmade i _ units hget hunits⟩

/-! ## Positions -/

/-- What is shown of some members is cut like the members. -/
theorem exists_of_map_eq_flatten {α β : Type} {f : α → β} {ls : List (List β)} {l : List α}
    (h : l.map f = ls.flatten) : ∃ ms : List (List α), ms.flatten = l ∧ ms.map (List.map f) = ls := by
  induction ls generalizing l with
  | nil =>
    obtain rfl := List.map_eq_nil_iff.mp h
    exact ⟨[], rfl, rfl⟩
  | cons first ls ih =>
    rw [List.flatten_cons] at h
    obtain ⟨l₁, l₂, rfl, hfirst, hrest⟩ := List.map_eq_append_iff.mp h
    obtain ⟨ms, hflat, hmap⟩ := ih hrest
    exact ⟨l₁ :: ms, by rw [List.flatten_cons, hflat], by rw [List.map_cons, hfirst, hmap]⟩

/-- The units of the fragments with the positions of their elements: `runs` are the groups
of the loop, as they are merged. -/
structure Places (splitter : LogicalSplitter) (document : NormalizedDocument)
    (read : List (List SplitUnit)) (runs : List (List (List PlacedUnit))) : Prop where
  units : splitter.iterUnits document = read.map Except.ok
  parts : runs.flatten = Buffered.parts splitter.endsPart (placedUnits read)
  merged : ∀ run ∈ runs, MergedRun (run.map unitsOf)

/-- The fragment is made of the units of its part. -/
def IsMadeOf (splitter : LogicalSplitter) (document : NormalizedDocument)
    (part : List PlacedUnit) (fragment : LogicalFragment) : Prop :=
  ∃ index group, fragment = splitter.makeFragment document index group ∧
    group.units = unitsOf part

theorem forall₂_mapIdx {α β γ : Type} {R : α → γ → Prop} {view : β → α} {f : Nat → β → γ}
    {as : List α} {bs : List β} (hview : bs.map view = as) (h : ∀ index b, R (view b) (f index b)) :
    List.Forall₂ R as (bs.mapIdx f) := by
  induction bs generalizing as f with
  | nil =>
    obtain rfl := hview
    exact .nil
  | cons b bs ih =>
    obtain rfl := hview
    rw [List.map_cons, List.mapIdx_cons]
    exact .cons (h 0 b) (ih rfl fun index b => h (index + 1) b)

/-- The fragments stand beside their parts. -/
theorem exists_places {document : NormalizedDocument} {fragments : List LogicalFragment}
    (h : splitter.split document = .ok fragments) :
    ∃ read runs, splitter.Places document read runs ∧
      List.Forall₂ (splitter.IsMadeOf document) (runs.map List.flatten) fragments := by
  obtain ⟨groups, hgroups, hfragments⟩ := split_ok h
  rw [finalGroups] at hgroups
  obtain ⟨raw, hraw, hgroups⟩ := except_bind_ok.mp hgroups
  obtain rfl := Except.ok.inj hgroups
  obtain ⟨read, hread, hparts⟩ := unitGroups_parts hraw
  obtain ⟨runs, hflat, hmap, hall⟩ := splitter.consolidateSmallGroups_runs raw
  rw [hparts, ← unitsOf_placedUnits, unitsOf, ← Buffered.map_parts] at hflat
  obtain ⟨placed, hplaced, hruns⟩ := exists_of_map_eq_flatten hflat.symm
  refine ⟨read, placed, ⟨hread, hplaced, ?_⟩, ?_⟩
  · intro run hrun
    exact hall _ (hruns ▸ List.mem_map_of_mem hrun)
  · rw [hfragments]
    have hview : (splitter.consolidateSmallGroups raw).map UnitGroup.units =
        (placed.map List.flatten).map unitsOf := by
      rw [hmap, ← hruns, List.map_map, List.map_map]
      apply List.map_congr_left
      intro run _
      exact List.map_flatten.symm
    have hmade : List.Forall₂ (fun units fragment => ∃ index group,
        fragment = splitter.makeFragment document index group ∧ group.units = units)
        ((placed.map List.flatten).map unitsOf)
        ((splitter.consolidateSmallGroups raw).mapIdx fun index group =>
          splitter.makeFragment document index group) :=
      forall₂_mapIdx hview fun index group => ⟨index, group, rfl, rfl⟩
    rw [List.forall₂_map_left_iff] at hmade
    exact hmade

/-- The default profile on ASCII texts. -/
def plainSplitter : LogicalSplitter where
  unicode := asciiText
  digest := Sha256.hexDigest
  profile := {}
  valid := SplitterProfile.valid_default

end LogicalSplitter

end AstraIndexator
