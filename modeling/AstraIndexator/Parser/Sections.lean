import AstraIndexator.Foundation.Outline
import AstraIndexator.Parser.Html

/-!
# Section paths

A parser gives every element the titles open at it.  They are the outline of the
parsed elements exactly when the levels of the headings are nested and no title is
empty.
-/

namespace AstraIndexator

namespace ParsedSections

/-- The heading a parser took an element for. -/
def emittedHeading (element : DocumentElement) : Option (Outline.Heading String) :=
  if element.type = .heading then
    some ⟨(element.level.getD 0).toNat, element.text.getD ""⟩
  else none

/-- The heading an element is in the outline. -/
def outlineHeading (element : DocumentElement) : Option (Outline.Heading String) :=
  (emittedHeading element).filter fun heading => heading.title ≠ ""

/-- The headings among the elements. -/
def headings (elements : List DocumentElement) : List (Outline.Heading String) :=
  elements.filterMap emittedHeading

/-- Every element has the path of the outline. -/
def SectionsFollow (elements : List DocumentElement) : Prop :=
  elements.map DocumentElement.sectionPath =
    Outline.outlinePaths [] (elements.map outlineHeading)

/-- The paths are cut by number, and `path` is the last one. -/
structure CutInOrder (elements : List DocumentElement) (path : List String) : Prop where
  paths : elements.map DocumentElement.sectionPath =
    Outline.cutPaths [] (elements.map emittedHeading)
  last : path = (elements.map emittedHeading).foldl Outline.cutItem []

theorem CutInOrder.nil : CutInOrder [] [] := ⟨rfl, rfl⟩

/-- An element whose path continues the one before. -/
theorem CutInOrder.concat {elements : List DocumentElement} {path : List String}
    (h : CutInOrder elements path) {element : DocumentElement}
    (hpath : element.sectionPath = Outline.cutItem path (emittedHeading element)) :
    CutInOrder (elements ++ [element]) element.sectionPath where
  paths := by
    rw [List.map_append, List.map_append, List.map_singleton, List.map_singleton,
      Outline.cutPaths_concat, ← h.paths, ← h.last, hpath]
  last := by
    rw [List.map_append, List.map_singleton, List.foldl_append, ← h.last]
    exact hpath

theorem CutInOrder.concat_other {elements : List DocumentElement} {path : List String}
    (h : CutInOrder elements path) {element : DocumentElement} (hkind : element.type ≠ .heading)
    (hpath : element.sectionPath = path) : CutInOrder (elements ++ [element]) path := by
  have hnone : emittedHeading element = none := if_neg hkind
  have hconcat := @CutInOrder.concat elements path h element (by rw [hnone]; exact hpath)
  rwa [hpath] at hconcat

theorem headings_append (elements more : List DocumentElement) :
    headings (elements ++ more) = headings elements ++ headings more :=
  List.filterMap_append

theorem headings_other {element : DocumentElement} (h : element.type ≠ .heading) :
    headings [element] = [] := by
  have hnone : emittedHeading element = none := if_neg h
  rw [headings, List.filterMap_cons_none hnone, List.filterMap_nil]

theorem headings_heading {element : DocumentElement} {heading : Outline.Heading String}
    (h : emittedHeading element = some heading) : headings [element] = [heading] := by
  rw [headings, List.filterMap_cons_some h, List.filterMap_nil]

/-- Without empty titles every heading is one of the outline. -/
theorem outlineHeading_eq {elements : List DocumentElement}
    (h : ∀ heading ∈ headings elements, heading.title ≠ "") :
    elements.map outlineHeading = elements.map emittedHeading := by
  apply List.map_congr_left
  intro element helement
  rw [outlineHeading]
  cases hheading : emittedHeading element with
  | none => rfl
  | some heading =>
    have htitle := h heading (List.mem_filterMap.mpr ⟨element, helement, hheading⟩)
    rw [Option.filter_some, if_pos (by simpa using htitle)]

theorem levels_eq (elements : List DocumentElement) :
    (elements.map emittedHeading).filterMap (fun item => item.map Outline.Heading.level) =
      (headings elements).map Outline.Heading.level := by
  rw [headings, List.filterMap_map, List.map_filterMap]
  rfl

/-- The paths are the outline exactly when the levels are nested and no title is empty. -/
theorem sectionsFollow_iff {elements : List DocumentElement} {path : List String}
    (h : CutInOrder elements path) :
    SectionsFollow elements ↔
      Outline.Nested [] ((headings elements).map Outline.Heading.level) ∧
        ∀ heading ∈ headings elements, heading.title ≠ "" := by
  have hnested := Outline.cutPaths_eq_iff Outline.Increasing.nil (elements.map emittedHeading)
  rw [levels_eq] at hnested
  rw [SectionsFollow, h.paths]
  constructor
  · intro hpaths
    -- an empty title would be on a path, and the outline has none
    have htitles : ∀ heading ∈ headings elements, heading.title ≠ "" := by
      intro heading hheading
      obtain ⟨element, helement, hemitted⟩ := List.mem_filterMap.mp hheading
      obtain ⟨path, hpath, htitle⟩ := @Outline.exists_mem_cutPaths _ [] _ _
        (List.mem_map.mpr ⟨element, helement, hemitted⟩)
      rw [hpaths] at hpath
      refine Outline.mem_outlinePaths (P := fun title => title ≠ "") (List.forall_mem_nil _) ?_
        path hpath heading.title htitle
      intro outline houtline
      obtain ⟨owner, -, howner⟩ := List.mem_map.mp houtline
      have hfilter := (Option.filter_eq_some_iff.mp howner).2
      exact of_decide_eq_true hfilter
    rw [outlineHeading_eq htitles] at hpaths
    exact ⟨hnested.mp hpaths, htitles⟩
  · rintro ⟨hlevels, htitles⟩
    rw [outlineHeading_eq htitles]
    exact hnested.mpr hlevels

end ParsedSections

end AstraIndexator
