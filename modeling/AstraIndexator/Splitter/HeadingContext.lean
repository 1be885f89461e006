import AstraIndexator.Splitter.Hierarchy
import AstraIndexator.Splitter.Placement

/-!
# Headings in front of a fragment

A fragment repeats the headings open at its last unit, and its text begins with its first
unit.  From one unit to the next the open headings change only where a heading is read, so
it is enough to compare the two ends of a group.
-/

namespace AstraIndexator

open Text Transaction

/-- The title of the heading a unit belongs to. -/
def SplitUnit.title? (unit : SplitUnit) : Option (List Char) :=
  if unit.elementType = .heading then unit.hierarchy.getLast? else none

namespace LogicalSplitter

variable {splitter : LogicalSplitter}

/-! ## From one unit to the next -/

/-- A title above a unit is above the unit before it, or it is opened here. -/
def Follows (previous unit : SplitUnit) : Prop :=
  ∀ title ∈ unit.hierarchy, title ∈ previous.hierarchy ∨ unit.title? = some title

theorem follows_of_eq {previous unit : SplitUnit} (h : unit.hierarchy = previous.hierarchy) :
    Follows previous unit := by
  intro title htitle
  rw [h] at htitle
  exact .inl htitle

/-- Units below the same titles follow one another. -/
theorem isChain_of_hierarchy_eq {titles : List (List Char)} {units : List SplitUnit}
    (h : ∀ unit ∈ units, unit.hierarchy = titles) : units.IsChain Follows := by
  apply List.Pairwise.isChain
  apply List.pairwise_of_forall_mem_list
  intro previous hprevious unit hunit
  exact follows_of_eq ((h unit hunit).trans (h previous hprevious).symm)

theorem elementType_textUnits {element : NormalizedElement} {text : List Char}
    {hierarchy : List (List Char)} {context : List Char} {units : List SplitUnit}
    (h : splitter.textUnits element text hierarchy context = .ok units) :
    ∀ unit ∈ units, unit.elementType = element.type := by
  rw [textUnits] at h
  obtain ⟨chunks, -, h⟩ := except_bind_ok.mp h
  obtain rfl := Except.ok.inj h
  intro unit hunit
  obtain ⟨index, -, rfl⟩ := List.mem_mapIdx.mp hunit
  rfl

/-- The units of a heading are heading units, and one of them has text. -/
theorem headingUnits {element : NormalizedElement} {hierarchy : List (List Char)}
    {listIntro : Option (List Char)} {units : List SplitUnit}
    (hheading : element.type = .heading ∧ elementText element ≠ [])
    (h : splitter.elementUnits element hierarchy listIntro = .ok units) :
    (∀ unit ∈ units, unit.elementType = .heading) ∧ units.filter SplitUnit.hasText ≠ [] := by
  have htable : element.type ≠ .table := by
    rw [hheading.1]
    decide
  constructor
  · rw [elementUnits, if_neg htable, if_neg hheading.2] at h
    intro unit hunit
    rw [elementType_textUnits h unit hunit, hheading.1]
  · have hcontent := visible_elementUnits h
    rw [elementContent, if_neg fun h => htable h.1, ← visible_elementText,
      ← visible_filter_hasText] at hcontent
    intro hnil
    rw [hnil] at hcontent
    exact visible_elementText_ne_nil hheading.2 hcontent.symm

/-- The first unit of an element follows the units before it. -/
theorem follows_first {element : NormalizedElement} {titles : List (List Char)}
    {listIntro : Option (List Char)} {units : List SplitUnit} {previous unit : SplitUnit}
    (h : splitter.elementUnits element (openTitles titles element) listIntro = .ok units)
    (hunit : unit ∈ units) (hprevious : previous.hierarchy = titles) : Follows previous unit := by
  have hpath := hierarchy_elementUnits h unit hunit
  by_cases hheading : element.type = .heading ∧ elementText element ≠ []
  · have htype := (headingUnits hheading h).1 unit hunit
    rw [openTitles, if_pos hheading] at hpath
    intro title htitle
    rw [hpath] at htitle
    rcases List.mem_append.mp htitle with htitle | htitle
    · left
      rw [hprevious]
      exact List.mem_of_mem_take htitle
    · right
      obtain rfl := List.mem_singleton.mp htitle
      rw [SplitUnit.title?, if_pos htype, hpath, List.getLast?_concat]
  · rw [openTitles, if_neg hheading] at hpath
    exact follows_of_eq (hpath.trans hprevious.symm)

/-- The titles open behind an element are those of its last unit, or of the one before. -/
theorem isChain_unitsFrom {titles : List (List Char)} {listIntro : Option (List Char)}
    {elements : List NormalizedElement} {read : List (List SplitUnit)} {previous : SplitUnit}
    (hprevious : previous.hierarchy = titles)
    (h : splitter.unitsFrom titles listIntro elements = read.map Except.ok) :
    (previous :: read.flatten.filter SplitUnit.hasText).IsChain Follows := by
  induction elements generalizing titles listIntro read previous with
  | nil =>
    obtain rfl := List.map_eq_nil_iff.mp h.symm
    exact List.isChain_singleton previous
  | cons element elements ih =>
    rw [unitsFrom] at h
    by_cases hsuppressed : element.suppressedFromIndex = true
    · rw [if_pos hsuppressed] at h
      exact ih hprevious h
    · rw [if_neg hsuppressed] at h
      obtain ⟨units, more, rfl, hunits, hmore⟩ := List.map_eq_cons_iff.mp h.symm
      rw [List.flatten_cons, List.filter_append]
      have hpaths : ∀ unit ∈ units.filter SplitUnit.hasText,
          unit.hierarchy = openTitles titles element := by
        intro unit hunit
        exact hierarchy_elementUnits hunits.symm unit (List.mem_of_mem_filter hunit)
      cases hshown : units.filter SplitUnit.hasText with
      | nil =>
        have hnone : ¬ (element.type = .heading ∧ elementText element ≠ []) := by
          intro hheading
          exact (headingUnits hheading hunits.symm).2 hshown
        apply ih _ hmore.symm
        rw [openTitles, if_neg hnone, hprevious]
      | cons first rest =>
        rw [hshown] at hpaths
        have hfirst : first ∈ units := by
          apply List.mem_of_mem_filter
          rw [hshown]
          exact List.mem_cons_self
        rw [List.cons_append, List.isChain_cons_cons]
        refine ⟨follows_first hunits.symm hfirst hprevious, ?_⟩
        have hlast := List.getLast_mem (List.cons_ne_nil first rest)
        have hbehind := ih (hpaths _ hlast) hmore.symm
        rw [← List.cons_append, ← List.dropLast_append_getLast (List.cons_ne_nil first rest),
          List.append_assoc, List.singleton_append, List.isChain_split]
        refine ⟨?_, hbehind⟩
        rw [List.dropLast_append_getLast]
        exact isChain_of_hierarchy_eq hpaths

/-- Every title above a unit of a group is above its first unit, or it is opened in the
group. -/
theorem mem_hierarchy_of_isChain {first : SplitUnit} {rest : List SplitUnit}
    (h : (first :: rest).IsChain Follows) :
    ∀ unit ∈ first :: rest, ∀ title ∈ unit.hierarchy,
      title ∈ first.hierarchy ∨ ∃ other ∈ rest, other.title? = some title := by
  induction rest generalizing first with
  | nil =>
    intro unit hunit title htitle
    obtain rfl := List.mem_singleton.mp hunit
    exact .inl htitle
  | cons second rest ih =>
    obtain ⟨hfollows, hchain⟩ := List.isChain_cons_cons.mp h
    intro unit hunit title htitle
    rcases List.mem_cons.mp hunit with rfl | hunit
    · exact .inl htitle
    rcases ih hchain unit hunit title htitle with hsecond | ⟨other, hother, htitle⟩
    · rcases hfollows title hsecond with hfirst | hopened
      · exact .inl hfirst
      · exact .inr ⟨second, List.mem_cons_self, hopened⟩
    · exact .inr ⟨other, List.mem_cons_of_mem _ hother, htitle⟩

/-! ## Titles -/

theorem ne_nil_of_mem_openTitles {titles : List (List Char)} {element : NormalizedElement}
    (h : ∀ title ∈ titles, title ≠ []) : ∀ title ∈ openTitles titles element, title ≠ [] := by
  intro title htitle
  rw [openTitles] at htitle
  split at htitle
  · rename_i hheading
    rcases List.mem_append.mp htitle with htitle | htitle
    · exact h title (List.mem_of_mem_take htitle)
    · exact List.mem_singleton.mp htitle ▸ hheading.2
  · exact h title htitle

/-- No unit is below an empty title. -/
theorem title_ne_nil {document : NormalizedDocument} {read : List (List SplitUnit)}
    (h : splitter.iterUnits document = read.map Except.ok) {unit : SplitUnit}
    (hunit : unit ∈ unitsOf (placedUnits read)) : ∀ title ∈ unit.hierarchy, title ≠ [] := by
  obtain ⟨entry, hentry, rfl⟩ := List.mem_map.mp hunit
  obtain ⟨units, hunits, hmem, -⟩ := mem_placedUnits.mp hentry
  obtain ⟨element, -, hmade⟩ := iterUnits_getElem? h hunits
  rw [hierarchy_elementUnits hmade entry.2 hmem, titlesAt]
  have hfold : ∀ (elements : List NormalizedElement) (titles : List (List Char)),
      (∀ title ∈ titles, title ≠ []) → ∀ title ∈ elements.foldl openTitles titles, title ≠ [] := by
    intro elements
    induction elements with
    | nil => exact fun titles htitles => htitles
    | cons element elements ih =>
      exact fun titles htitles => ih _ (ne_nil_of_mem_openTitles htitles)
  exact hfold _ [] (List.forall_mem_nil _)

/-! ## The prefix -/

/-- The titles repeated in front of a group: those open at its last unit, without the last
one if the group begins with a heading. -/
def repeatedTitles (units : List SplitUnit) : List (List Char) :=
  let hierarchy := (units.getLast?.map SplitUnit.hierarchy).getD []
  if units.head?.any (fun unit => unit.elementType = .heading) = true then hierarchy.dropLast
  else hierarchy

/-- Every heading above a unit is a unit of the fragment or a part of its context prefix, and
every heading repeated in the prefix is above the first unit. -/
structure ShowsHeadings (splitter : LogicalSplitter) (part : List PlacedUnit)
    (fragment : LogicalFragment) : Prop where
  shown : fragment.contextPrefix =
    String.ofList (joinWith '\n' (splitter.contextParts (unitsOf part)))
  complete : ∀ unit ∈ unitsOf part, ∀ title ∈ unit.hierarchy,
    (∃ other ∈ unitsOf part, other.title? = some title) ∨
      title ∈ splitter.contextParts (unitsOf part)
  sound : ∀ title ∈ splitter.hierarchyContext (unitsOf part),
    ∀ first ∈ (unitsOf part).head?, title ∈ first.hierarchy

/-- The ends of a group agree: the titles it repeats are open at its first unit, and those
open at its first unit are repeated, opened in the group, or in the prefix as a context of
another kind. -/
def EndsAgree (units : List SplitUnit) : Prop :=
  ∀ first ∈ units.head?, repeatedTitles units ⊆ first.hierarchy ∧
    ∀ title ∈ first.hierarchy, title ∈ repeatedTitles units ∨
      (∃ unit ∈ units, unit.title? = some title) ∨ title ∈ syntheticContexts units

theorem hierarchyContext_eq (hheading : splitter.profile.repeatHeadingContext = true)
    (hparents : splitter.profile.repeatParentHeadings = true) (units : List SplitUnit) :
    splitter.hierarchyContext units = repeatedTitles units := by
  rw [hierarchyContext, repeatedTitles, if_pos hparents]
  split
  · rfl
  · rename_i hnone
    have hnil : (units.getLast?.map SplitUnit.hierarchy).getD [] = [] := by
      by_contra hne
      exact hnone ⟨hheading, hne⟩
    rw [hnil, List.dropLast_nil, ite_self]

theorem mem_contextParts {units : List SplitUnit} {title : List Char} (hne : title ≠ []) :
    title ∈ splitter.contextParts units ↔
      title ∈ splitter.hierarchyContext units ∨ title ∈ syntheticContexts units := by
  rw [contextParts, List.mem_eraseDups, List.mem_filter, List.mem_append]
  exact and_iff_left (by simpa using hne)

/-- Whether the headings of a fragment are shown is seen at the two ends of its group. -/
theorem showsHeadings_iff {document : NormalizedDocument} {part : List PlacedUnit}
    {fragment : LogicalFragment} (hheading : splitter.profile.repeatHeadingContext = true)
    (hparents : splitter.profile.repeatParentHeadings = true)
    (hmade : splitter.IsMadeOf document part fragment)
    (hchain : (unitsOf part).IsChain Follows)
    (htitles : ∀ unit ∈ unitsOf part, ∀ title ∈ unit.hierarchy, title ≠ []) :
    splitter.ShowsHeadings part fragment ↔ EndsAgree (unitsOf part) := by
  obtain ⟨index, group, rfl, hunits⟩ := hmade
  have hcontext := hierarchyContext_eq hheading hparents (unitsOf part)
  constructor
  · intro hshows first hfirst
    have hcomplete := hshows.complete
    have hsound := hshows.sound
    rw [hcontext] at hsound
    refine ⟨fun title htitle => hsound title htitle first hfirst, ?_⟩
    intro title htitle
    have hmem := List.mem_of_mem_head? hfirst
    rcases hcomplete first hmem title htitle with hopened | hpart
    · exact .inr (.inl hopened)
    · rcases (mem_contextParts (htitles first hmem title htitle)).mp hpart with hrepeated | hother
      · rw [hcontext] at hrepeated
        exact .inl hrepeated
      · exact .inr (.inr hother)
  · intro hagree
    refine ⟨?_, ?_, ?_⟩
    · rw [makeFragment, hunits]
    · cases hpart : unitsOf part with
      | nil => exact List.forall_mem_nil _
      | cons first rest =>
        rw [hpart] at hagree hchain htitles hcontext
        obtain ⟨-, hopen⟩ := hagree first rfl
        intro unit hunit title htitle
        have hne := htitles unit hunit title htitle
        rw [mem_contextParts hne, hcontext]
        have horigin := mem_hierarchy_of_isChain hchain unit hunit title htitle
        rcases horigin with hfirst | ⟨other, hother, hopened⟩
        · rcases hopen title hfirst with hrepeated | hopened | hsynthetic
          · exact .inr (.inl hrepeated)
          · exact .inl hopened
          · exact .inr (.inr hsynthetic)
        · exact .inl ⟨other, List.mem_cons_of_mem _ hother, hopened⟩
    · intro title htitle first hfirst
      rw [hcontext] at htitle
      exact (hagree first hfirst).1 htitle

/-! ## The fragments of a document -/

/-- The units of a document follow one another. -/
theorem isChain_placedUnits {document : NormalizedDocument} {read : List (List SplitUnit)}
    (h : splitter.iterUnits document = read.map Except.ok) :
    (unitsOf (placedUnits read)).IsChain Follows := by
  -- A unit below no titles stands in front of the first one.
  let start : SplitUnit :=
    { text := [], elementIds := [], elementType := .paragraph, hierarchy := [], pageFrom := none,
      pageTo := none, languageHint := none, sentenceCount := 0, wordCount := 0,
      wordGuardReliable := true }
  have hchain : (start :: read.flatten.filter SplitUnit.hasText).IsChain Follows :=
    isChain_unitsFrom rfl h
  rw [unitsOf_placedUnits]
  exact hchain.tail

/-- The headings of every fragment are shown exactly when the ends of every group agree. -/
theorem showsHeadings_iff_endsAgree (splitter : LogicalSplitter)
    (hheading : splitter.profile.repeatHeadingContext = true)
    (hparents : splitter.profile.repeatParentHeadings = true) (document : NormalizedDocument)
    (fragments : List LogicalFragment) (h : splitter.split document = .ok fragments) :
    ∃ read runs, splitter.Places document read runs ∧
      List.Forall₂ (splitter.IsMadeOf document) (runs.map List.flatten) fragments ∧
      (List.Forall₂ splitter.ShowsHeadings (runs.map List.flatten) fragments ↔
        ∀ part ∈ runs.map List.flatten, EndsAgree (unitsOf part)) := by
  obtain ⟨read, runs, hplaces, hmade⟩ := exists_places h
  refine ⟨read, runs, hplaces, hmade, ?_⟩
  have hparts : ∀ part ∈ runs.map List.flatten, unitsOf part <:+: unitsOf (placedUnits read) := by
    intro part hpart
    rw [← Buffered.flatten_parts splitter.endsPart (placedUnits read), ← hplaces.parts,
      List.flatten_flatten]
    exact (List.infix_of_mem_flatten hpart).map Prod.snd
  have hchain := isChain_placedUnits hplaces.units
  have htitles : ∀ unit ∈ unitsOf (placedUnits read), ∀ title ∈ unit.hierarchy, title ≠ [] :=
    fun unit hunit => title_ne_nil hplaces.units hunit
  clear h
  generalize runs.map List.flatten = parts at hmade hparts
  induction hmade with
  | nil => exact ⟨fun _ => List.forall_mem_nil _, fun _ => .nil⟩
  | @cons part fragment parts fragments hfirst _ ih =>
    obtain ⟨hpart, hrest⟩ := List.forall_mem_cons.mp hparts
    rw [List.forall₂_cons, List.forall_mem_cons]
    have hpartChain := hchain.infix hpart
    refine and_congr (showsHeadings_iff hheading hparents hfirst hpartChain ?_) (ih hrest)
    exact fun unit hunit => htitles unit (hpart.subset hunit)

/-- A paragraph below a heading. -/
def sectionDocument : NormalizedDocument where
  documentId := 0
  documentVersion := 1
  normalizerProfile := "general"
  normalizerVersion := "1"
  processingFingerprint := "f"
  elements := [
    ⟨"a", .heading, 0, some "h", some 1, none, none, none, none, false⟩,
    ⟨"b", .paragraph, 1, some "p", none, none, none, none, none, false⟩]

theorem showsHeadings_iff_endsAgree_section :
    ∃ fragments read runs, plainSplitter.split sectionDocument = .ok fragments ∧
      plainSplitter.Places sectionDocument read runs ∧
      (List.Forall₂ plainSplitter.ShowsHeadings (runs.map List.flatten) fragments ↔
        ∀ part ∈ runs.map List.flatten, EndsAgree (unitsOf part)) := by
  have hok : (plainSplitter.split sectionDocument).isOk = true := by decide +kernel
  obtain ⟨fragments, hsplit⟩ := except_isOk.mp hok
  obtain ⟨read, runs, hplaces, -, hiff⟩ :=
    showsHeadings_iff_endsAgree plainSplitter rfl rfl sectionDocument fragments hsplit
  exact ⟨fragments, read, runs, hsplit, hplaces, hiff⟩

/-- A paragraph in front of a heading. -/
def openingDocument : NormalizedDocument where
  documentId := 0
  documentVersion := 1
  normalizerProfile := "general"
  normalizerVersion := "1"
  processingFingerprint := "f"
  elements := [
    ⟨"a", .paragraph, 0, some "p", none, none, none, none, none, false⟩,
    ⟨"b", .heading, 1, some "h", some 1, none, none, none, none, false⟩]

/-- The paragraph is shown below the heading that follows it. -/
theorem not_showsHeadings_opening : ¬ ∀ (splitter : LogicalSplitter)
    (document : NormalizedDocument) (fragments : List LogicalFragment)
    (read : List (List SplitUnit)) (runs : List (List (List PlacedUnit))),
    splitter.profile.repeatHeadingContext = true →
    splitter.profile.repeatParentHeadings = true →
    splitter.split document = .ok fragments → splitter.Places document read runs →
    List.Forall₂ (splitter.IsMadeOf document) (runs.map List.flatten) fragments →
    List.Forall₂ splitter.ShowsHeadings (runs.map List.flatten) fragments := by
  intro hall
  have hok : (plainSplitter.split openingDocument).isOk = true := by decide +kernel
  obtain ⟨fragments, hsplit⟩ := except_isOk.mp hok
  obtain ⟨read, runs, hplaces, hmade⟩ := exists_places hsplit
  have hshows := hall _ _ _ _ _ rfl rfl hsplit hplaces hmade
  have hlength : (plainSplitter.split openingDocument).toOption.map List.length = some 1 := by
    decide +kernel
  rw [hsplit] at hlength
  obtain ⟨fragment, rfl⟩ := List.length_eq_one_iff.mp (Option.some.inj hlength)
  obtain ⟨part, rest, hfirst, hnil, hparts⟩ := List.forall₂_cons_right_iff.mp hshows
  obtain rfl := List.forall₂_nil_right_iff.mp hnil
  have hpart : unitsOf part = unitsOf (placedUnits read) := by
    rw [← Buffered.flatten_parts plainSplitter.endsPart (placedUnits read), ← hplaces.parts,
      List.flatten_flatten, hparts, List.flatten_singleton]
  have hread : (plainSplitter.iterUnits openingDocument).filterMap Except.toOption = read := by
    rw [hplaces.units, List.filterMap_map]
    exact List.filterMap_some
  have hends : (fun units => (plainSplitter.hierarchyContext units, units.head?.map
      SplitUnit.hierarchy)) (unitsOf (placedUnits
        ((plainSplitter.iterUnits openingDocument).filterMap Except.toOption))) =
      ([['h']], some []) := by
    decide +kernel
  rw [hread, ← hpart] at hends
  obtain ⟨hcontext, hhead⟩ := Prod.mk.inj hends
  obtain ⟨first, hfirstUnit, hnone⟩ := Option.map_eq_some_iff.mp hhead
  have habove := hfirst.sound ['h'] (by rw [hcontext]; exact List.mem_singleton_self _) first
    hfirstUnit
  rw [hnone] at habove
  exact List.not_mem_nil habove

end LogicalSplitter

end AstraIndexator
