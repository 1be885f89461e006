import AstraIndexator.Parser.Model
import AstraIndexator.Foundation.Joined

/-!
# The document object model

A parsed page is a tree of tags and texts.  Two tags are equal when their names,
attributes and contents are, and a tag is looked up among its siblings by this
equality.  The path of a tag tells it from all others exactly when no tag of the
page has two equal children.
-/

namespace AstraIndexator

open Joined

inductive AttributeValue
  | single (value : String)
  | multiple (values : List String)
  deriving DecidableEq

/-- The attributes of a tag, a dictionary. -/
structure Attributes where
  entries : List (String × AttributeValue)
  keys_nodup : (entries.map Prod.fst).Nodup

/-- The equality of dictionaries, whatever the order of their entries. -/
def Attributes.equal (attributes other : Attributes) : Prop :=
  attributes.entries.Perm other.entries

instance (attributes other : Attributes) : Decidable (attributes.equal other) :=
  inferInstanceAs (Decidable (List.Perm _ _))

/-- A name the parser reads off a start tag: it ends before a solidus. -/
structure TagName where
  name : String
  nonempty : name ≠ ""
  no_solidus : '/' ∉ name.toList
  deriving DecidableEq

/-- The kinds of strings: text and character data, the texts of ruby annotations, or anything
else, such as comments. -/
inductive StringKind
  | text | ruby | other
  deriving DecidableEq

/-- What a tag contains, in order. -/
inductive Contents
  | nil
  | string (kind : StringKind) (value : String) (rest : Contents)
  | tag (name : TagName) (attributes : Attributes) (contents rest : Contents)

structure Tag where
  name : TagName
  attributes : Attributes
  contents : Contents

namespace Contents

/-- The tags directly among the contents. -/
def tags : Contents → List Tag
  | .nil => []
  | .string _ _ rest => rest.tags
  | .tag name attributes contents rest => ⟨name, attributes, contents⟩ :: rest.tags

/-- `contents == other`; strings of different kinds are equal if their texts are. -/
def equal : Contents → Contents → Prop
  | .nil, .nil => True
  | .string _ value rest, .string _ value' rest' => value = value' ∧ rest.equal rest'
  | .tag name attributes contents rest, .tag name' attributes' contents' rest' =>
    name = name' ∧ attributes.equal attributes' ∧ contents.equal contents' ∧ rest.equal rest'
  | _, _ => False

instance decidableEqual : (contents other : Contents) → Decidable (contents.equal other)
  | .nil, .nil => isTrue trivial
  | .nil, .string .. => isFalse id
  | .nil, .tag .. => isFalse id
  | .string .., .nil => isFalse id
  | .string _ value rest, .string _ value' rest' =>
    @instDecidableAnd _ _ (inferInstanceAs (Decidable (value = value')))
      (decidableEqual rest rest')
  | .string .., .tag .. => isFalse id
  | .tag .., .nil => isFalse id
  | .tag .., .string .. => isFalse id
  | .tag name attributes contents rest, .tag name' attributes' contents' rest' =>
    @instDecidableAnd _ _ (inferInstanceAs (Decidable (name = name')))
      (@instDecidableAnd _ _ (inferInstanceAs (Decidable (attributes.equal attributes')))
        (@instDecidableAnd _ _ (decidableEqual contents contents') (decidableEqual rest rest')))

/-- `tag.decompose()` for all tags of the given names. -/
def decompose (names : List String) : Contents → Contents
  | .nil => .nil
  | .string kind value rest => .string kind value (rest.decompose names)
  | .tag name attributes contents rest =>
    if name.name ∈ names then rest.decompose names
    else .tag name attributes (contents.decompose names) (rest.decompose names)

/-- The texts below, stripped, without blank ones. -/
def strippedStrings : Contents → List String
  | .nil => []
  | .string kind value rest =>
    if kind = .text ∧ Text.strip value ≠ "" then Text.strip value :: rest.strippedStrings
    else rest.strippedStrings
  | .tag _ _ contents rest => contents.strippedStrings ++ rest.strippedStrings

end Contents

/-- A tag with its ancestors, the nearest first. -/
structure TagRef where
  node : Tag
  ancestors : List Tag

/-- `find_all(True)` -/
def Contents.findAll (ancestors : List Tag) : Contents → List TagRef
  | .nil => []
  | .string _ _ rest => rest.findAll ancestors
  | .tag name attributes contents rest =>
    ⟨⟨name, attributes, contents⟩, ancestors⟩ ::
      (contents.findAll (⟨name, attributes, contents⟩ :: ancestors) ++ rest.findAll ancestors)

namespace Tag

def children (node : Tag) : List Tag := node.contents.tags

/-- `Tag.__eq__` -/
def equal (node other : Tag) : Prop :=
  node.name = other.name ∧ node.attributes.equal other.attributes ∧
    node.contents.equal other.contents

instance (node other : Tag) : Decidable (node.equal other) := inferInstanceAs (Decidable (_ ∧ _))

/-- `tag.get_text(" ", strip=True)` -/
def getText (node : Tag) : String := String.intercalate " " node.contents.strippedStrings

/-- `tag.get(key)` -/
def get (node : Tag) (key : String) : Option AttributeValue := node.attributes.entries.lookup key

/-- The position of a tag among its siblings of the same name. -/
def siblingIndex (node parent : Tag) : Nat :=
  let siblings := parent.children.filter fun s => s.name = node.name
  if 1 < siblings.length then siblings.findIdx (fun s => s.equal node) + 1 else 1

end Tag

/-- One step of a path. -/
def pathPart (node : Tag) (index : Nat) : String :=
  node.name.name ++ "[" ++ toString index ++ "]"

/-- The steps of a path from the tag upwards. -/
def pathParts : Tag → List Tag → List String
  | node, [] => [pathPart node 1]
  | node, parent :: ancestors =>
    pathPart node (node.siblingIndex parent) :: pathParts parent ancestors

/-- `_dom_path` -/
def domPath (ref : TagRef) : String :=
  "/" ++ join '/' (pathParts ref.node ref.ancestors).reverse

/-! ## Equality -/

namespace Contents

theorem equal_refl (contents : Contents) : contents.equal contents := by
  induction contents with
  | nil => trivial
  | string kind value rest ih => exact ⟨rfl, ih⟩
  | tag name attributes contents rest ih ihRest => exact ⟨rfl, List.Perm.refl _, ih, ihRest⟩

theorem equal_symm {contents other : Contents} (h : contents.equal other) :
    other.equal contents := by
  induction contents generalizing other with
  | nil =>
    cases other with
    | nil => trivial
    | string => exact h.elim
    | tag => exact h.elim
  | string kind value rest ih =>
    cases other with
    | nil => exact h.elim
    | string => exact ⟨h.1.symm, ih h.2⟩
    | tag => exact h.elim
  | tag name attributes contents rest ih ihRest =>
    cases other with
    | nil => exact h.elim
    | string => exact h.elim
    | tag => exact ⟨h.1.symm, h.2.1.symm, ih h.2.2.1, ihRest h.2.2.2⟩

theorem equal_trans {contents other third : Contents} (h : contents.equal other)
    (h' : other.equal third) : contents.equal third := by
  induction contents generalizing other third with
  | nil =>
    cases other with
    | nil => exact h'
    | string => exact h.elim
    | tag => exact h.elim
  | string kind value rest ih =>
    cases other with
    | nil => exact h.elim
    | string =>
      cases third with
      | nil => exact h'.elim
      | string => exact ⟨h.1.trans h'.1, ih h.2 h'.2⟩
      | tag => exact h'.elim
    | tag => exact h.elim
  | tag name attributes contents rest ih ihRest =>
    cases other with
    | nil => exact h.elim
    | string => exact h.elim
    | tag =>
      cases third with
      | nil => exact h'.elim
      | string => exact h'.elim
      | tag =>
        exact ⟨h.1.trans h'.1, h.2.1.trans h'.2.1, ih h.2.2.1 h'.2.2.1, ihRest h.2.2.2 h'.2.2.2⟩

end Contents

namespace Tag

theorem equal_refl (node : Tag) : node.equal node :=
  ⟨rfl, List.Perm.refl _, node.contents.equal_refl⟩

theorem equal_symm {node other : Tag} (h : node.equal other) : other.equal node :=
  ⟨h.1.symm, h.2.1.symm, Contents.equal_symm h.2.2⟩

theorem equal_trans {node other third : Tag} (h : node.equal other) (h' : other.equal third) :
    node.equal third :=
  ⟨h.1.trans h'.1, h.2.1.trans h'.2.1, Contents.equal_trans h.2.2 h'.2.2⟩

end Tag

/-! ## Steps -/

section Steps

variable {node other parent : Tag}

/-- Equal tags are found at the same position, unequal ones at different positions. -/
theorem siblingIndex_eq_iff (hnode : node ∈ parent.children) (hother : other ∈ parent.children)
    (hname : node.name = other.name) :
    node.siblingIndex parent = other.siblingIndex parent ↔ node.equal other := by
  rw [Tag.siblingIndex, Tag.siblingIndex, ← hname]
  have hnodeMem : node ∈ parent.children.filter fun s => s.name = node.name :=
    List.mem_filter.mpr ⟨hnode, decide_eq_true rfl⟩
  have hotherMem : other ∈ parent.children.filter fun s => s.name = node.name :=
    List.mem_filter.mpr ⟨hother, decide_eq_true hname.symm⟩
  generalize (parent.children.filter fun s => s.name = node.name) = siblings at hnodeMem hotherMem
  by_cases hlength : 1 < siblings.length
  · rw [if_pos hlength, if_pos hlength]
    have hfound : ∀ t ∈ siblings, ∃ h : siblings.findIdx (fun s => s.equal t) < siblings.length,
        (siblings[siblings.findIdx fun s => s.equal t]).equal t := by
      intro t ht
      have hlt : siblings.findIdx (fun s => s.equal t) < siblings.length :=
        List.findIdx_lt_length_of_exists ⟨t, ht, by simpa using t.equal_refl⟩
      exact ⟨hlt, of_decide_eq_true (@List.findIdx_getElem _
        (fun s : Tag => decide (s.equal t)) _ hlt)⟩
    obtain ⟨hlt, hatNode⟩ := hfound node hnodeMem
    obtain ⟨hlt', hatOther⟩ := hfound other hotherMem
    constructor
    · intro h
      have hindex := Nat.succ.inj h
      have hsame : siblings[siblings.findIdx fun s => s.equal node] =
          siblings[siblings.findIdx fun s => s.equal other] := by
        simp only [hindex]
      exact Tag.equal_trans (Tag.equal_symm hatNode) (hsame ▸ hatOther)
    · intro h
      have hpredicate : (fun s : Tag => decide (s.equal node)) = fun s => decide (s.equal other) := by
        funext s
        exact decide_eq_decide.mpr ⟨fun hs => Tag.equal_trans hs h,
          fun hs => Tag.equal_trans hs (Tag.equal_symm h)⟩
      rw [hpredicate]
  · rw [if_neg hlength, if_neg hlength]
    refine ⟨fun _ => ?_, fun _ => rfl⟩
    cases siblings with
    | nil => exact absurd hnodeMem List.not_mem_nil
    | cons first rest =>
      obtain rfl : rest = [] := List.eq_nil_of_length_eq_zero (by simpa using hlength)
      rw [List.mem_singleton.mp hnodeMem, List.mem_singleton.mp hotherMem]
      exact first.equal_refl

theorem pathPart_injective {index index' : Nat} (h : pathPart node index = pathPart other index') :
    node.name = other.name ∧ index = index' := by
  have hlists := congrArg String.toList h
  simp only [pathPart, String.toList_append, List.append_assoc] at hlists
  have hbracket : "[".toList = ['['] := rfl
  have hclose : "]".toList = [']'] := rfl
  rw [hbracket, hclose, List.singleton_append, List.singleton_append] at hlists
  have hnot : ∀ n : Nat, '[' ∉ (toString n).toList ++ [']'] := by
    intro n hmem
    rcases List.mem_append.mp hmem with hmem | hmem
    · exact notMem_toString rfl n hmem
    · cases List.mem_singleton.mp hmem
  obtain ⟨hname, hindex⟩ := append_cons_injective (hnot index) (hnot index') hlists
  refine ⟨?_, toString_injective (String.toList_injective (List.append_cancel_right hindex))⟩
  have htext := String.toList_injective hname
  cases hn : node.name
  cases ho : other.name
  rw [hn, ho] at htext
  subst htext
  rfl

/-- The steps to two children agree exactly when the children are equal. -/
theorem pathPart_eq_iff (hnode : node ∈ parent.children) (hother : other ∈ parent.children) :
    pathPart node (node.siblingIndex parent) = pathPart other (other.siblingIndex parent) ↔
      node.equal other := by
  constructor
  · intro h
    obtain ⟨hname, hindex⟩ := pathPart_injective h
    exact (siblingIndex_eq_iff hnode hother hname).mp hindex
  · intro h
    rw [pathPart, pathPart, h.1, (siblingIndex_eq_iff hnode hother h.1).mpr h]

end Steps

/-! ## Paths -/

/-- No two children of the tag are equal. -/
def Tag.ChildrenDiffer (node : Tag) : Prop :=
  node.children.Pairwise fun child other => ¬ child.equal other

instance (node : Tag) : Decidable node.ChildrenDiffer :=
  inferInstanceAs (Decidable (List.Pairwise _ _))

/-- The steps of the path of a reference, from the tag upwards. -/
def TagRef.steps (ref : TagRef) : List String := pathParts ref.node ref.ancestors

section Paths

variable {parent : Tag} {ancestors : List Tag} {contents : Contents}

/-- A path to something below a tag goes through one of its children. -/
theorem steps_below {ref : TagRef} (h : ref ∈ contents.findAll (parent :: ancestors)) :
    ∃ child ∈ contents.tags, ∃ below, ref.steps =
      below ++ pathPart child (child.siblingIndex parent) :: pathParts parent ancestors := by
  induction contents generalizing parent ancestors with
  | nil => exact absurd h List.not_mem_nil
  | string kind value rest ih => exact ih h
  | tag name attributes contents rest ih ihRest =>
    rcases List.mem_cons.mp h with rfl | h
    · exact ⟨_, List.mem_cons_self, [], rfl⟩
    · rcases List.mem_append.mp h with h | h
      · obtain ⟨child, -, below, hsteps⟩ := ih h
        refine ⟨_, List.mem_cons_self, below ++ [pathPart child (child.siblingIndex
          ⟨name, attributes, contents⟩)], ?_⟩
        rw [hsteps, List.append_assoc]
        rfl
      · obtain ⟨child, hchild, below, hsteps⟩ := ihRest h
        exact ⟨child, List.mem_cons_of_mem _ hchild, below, hsteps⟩

/-- The child itself is one step. -/
theorem steps_child {child : Tag} (h : child ∈ contents.tags) :
    (⟨child, parent :: ancestors⟩ : TagRef) ∈ contents.findAll (parent :: ancestors) := by
  induction contents with
  | nil => exact absurd h List.not_mem_nil
  | string kind value rest ih => exact ih h
  | tag name attributes contents rest ih ihRest =>
    rcases List.mem_cons.mp h with rfl | h
    · exact List.mem_cons_self
    · exact List.mem_cons_of_mem _ (List.mem_append_right _ (ihRest h))

/-- Two paths through the same parent and two children agree only if the children do. -/
theorem step_eq_of_append {left right steps : List String} {step step' : String}
    (h : left ++ step :: steps = right ++ step' :: steps) :
    step = step' := by
  rw [List.append_cons left, List.append_cons right] at h
  have hinit := List.append_cancel_right h
  have hlast := congrArg List.getLast? hinit
  rw [List.getLast?_concat, List.getLast?_concat] at hlast
  exact Option.some.inj hlast

/-- The paths of all tags below a tag are distinct exactly when no two of its children
are equal, and no two children of a tag below. -/
theorem nodup_steps_iff (hchildren : ∀ child ∈ contents.tags, child ∈ parent.children) :
    ((contents.findAll (parent :: ancestors)).map TagRef.steps).Nodup ↔
      contents.tags.Pairwise (fun child other => ¬ child.equal other) ∧
        ∀ ref ∈ contents.findAll (parent :: ancestors), ref.node.ChildrenDiffer := by
  induction contents generalizing parent ancestors with
  | nil => exact ⟨fun _ => ⟨List.Pairwise.nil, fun ref h => absurd h List.not_mem_nil⟩,
      fun _ => List.nodup_nil⟩
  | string kind value rest ih => exact ih hchildren
  | tag name attributes contents rest ih ihRest =>
    obtain ⟨hchild, hrest⟩ := List.forall_mem_cons.mp hchildren
    have hbelow := @ih ⟨name, attributes, contents⟩ (parent :: ancestors) fun c hc => hc
    have hbehind := @ihRest parent ancestors hrest
    rw [Contents.findAll, Contents.tags]
    generalize hnode : (⟨name, attributes, contents⟩ : Tag) = child at hchild hbelow
    -- the path of the tag itself is shorter than those below
    have hself : (⟨child, parent :: ancestors⟩ : TagRef).steps ∉
        (contents.findAll (child :: parent :: ancestors)).map TagRef.steps := by
      intro hmem
      obtain ⟨ref, href, hsame⟩ := List.mem_map.mp hmem
      obtain ⟨inner, -, below, hsteps⟩ := steps_below href
      rw [hsteps] at hsame
      have hlength := congrArg List.length hsame
      simp only [TagRef.steps, pathParts, List.length_append, List.length_cons] at hlength
      omega
    -- what is below and what is behind agree in a path exactly at an equal sibling
    have hdisjoint : (((⟨child, parent :: ancestors⟩ : TagRef) ::
          contents.findAll (child :: parent :: ancestors)).map TagRef.steps).Disjoint
            ((rest.findAll (parent :: ancestors)).map TagRef.steps) ↔
        ∀ other ∈ rest.tags, ¬ child.equal other := by
      constructor
      · intro h other hother hequal
        have hstep := (pathPart_eq_iff hchild (hrest other hother)).mpr hequal
        refine h (List.mem_cons_self) (List.mem_map.mpr ⟨_, steps_child hother, ?_⟩)
        rw [TagRef.steps, TagRef.steps, pathParts, pathParts, hstep]
      · intro h steps hleft hright
        obtain ⟨ref, href, rfl⟩ := List.mem_map.mp hleft
        obtain ⟨ref', href', hsame⟩ := List.mem_map.mp hright
        obtain ⟨other, hother, right, hsteps'⟩ := steps_below href'
        have hthrough : ∃ left, ref.steps =
            left ++ pathPart child (child.siblingIndex parent) :: pathParts parent ancestors := by
          rcases List.mem_cons.mp href with rfl | href
          · exact ⟨[], rfl⟩
          · obtain ⟨inner, -, below, hsteps⟩ := steps_below href
            exact ⟨below ++ [pathPart inner (inner.siblingIndex child)],
              by rw [hsteps, List.append_assoc]; rfl⟩
        obtain ⟨left, hsteps⟩ := hthrough
        rw [hsteps, hsteps'] at hsame
        have hstep := step_eq_of_append hsame.symm
        exact h other hother ((pathPart_eq_iff hchild (hrest other hother)).mp hstep)
    rw [← List.cons_append, List.map_append, List.nodup_append', hdisjoint, hbehind,
      List.map_cons, List.nodup_cons, hbelow, List.pairwise_cons, List.forall_mem_append,
      List.forall_mem_cons]
    have hdiffer : child.ChildrenDiffer ↔
        contents.tags.Pairwise fun inner other => ¬ inner.equal other := by
      subst hnode
      exact Iff.rfl
    rw [hdiffer]
    constructor
    · rintro ⟨⟨-, hinner, hinnerRefs⟩, ⟨hpairs, hrefs⟩, hothers⟩
      exact ⟨⟨hothers, hpairs⟩, ⟨hinner, hinnerRefs⟩, hrefs⟩
    · rintro ⟨⟨hothers, hpairs⟩, ⟨hinner, hinnerRefs⟩, hrefs⟩
      exact ⟨⟨hself, hinner, hinnerRefs⟩, ⟨hpairs, hrefs⟩, hothers⟩

/-! ## Texts of paths -/

theorem no_solidus_pathPart (node : Tag) (index : Nat) : '/' ∉ (pathPart node index).toList := by
  rw [pathPart, String.toList_append, String.toList_append, String.toList_append]
  intro hmem
  rcases List.mem_append.mp hmem with hmem | hmem
  · rcases List.mem_append.mp hmem with hmem | hmem
    · rcases List.mem_append.mp hmem with hmem | hmem
      · exact node.name.no_solidus hmem
      · exact absurd hmem (by decide)
    · exact notMem_toString rfl index hmem
  · exact absurd hmem (by decide)

theorem no_solidus_pathParts (node : Tag) (ancestors : List Tag) :
    ∀ part ∈ pathParts node ancestors, '/' ∉ part.toList := by
  induction ancestors generalizing node with
  | nil =>
    intro part hpart
    rw [List.mem_singleton.mp hpart]
    exact no_solidus_pathPart node 1
  | cons parent ancestors ih =>
    intro part hpart
    rcases List.mem_cons.mp hpart with rfl | hpart
    · exact no_solidus_pathPart node _
    · exact ih parent part hpart

theorem pathParts_ne_nil (node : Tag) (ancestors : List Tag) : pathParts node ancestors ≠ [] := by
  cases ancestors <;> simp [pathParts]

/-- The steps are read back from the text of the path. -/
theorem domPath_eq_iff {ref ref' : TagRef} : domPath ref = domPath ref' ↔ ref.steps = ref'.steps := by
  constructor
  · intro h
    have hlists := congrArg String.toList h
    rw [domPath, domPath, String.toList_append, String.toList_append] at hlists
    have hjoined := String.toList_injective (List.append_cancel_left hlists)
    have hparts : ∀ r : TagRef, ∀ part ∈ (pathParts r.node r.ancestors).reverse,
        '/' ∉ part.toList := fun r part hpart =>
      no_solidus_pathParts r.node r.ancestors part (List.mem_reverse.mp hpart)
    have hne : ∀ r : TagRef, (pathParts r.node r.ancestors).reverse ≠ [] := fun r hnil =>
      pathParts_ne_nil r.node r.ancestors (List.reverse_eq_nil_iff.mp hnil)
    exact List.reverse_inj.mp (join_injective (hparts ref) (hparts ref') (hne ref) (hne ref') hjoined)
  · intro h
    rw [TagRef.steps, TagRef.steps] at h
    rw [domPath, domPath, h]

/-- The paths of all tags of a page are distinct exactly when no tag, the page
included, has two equal children. -/
theorem nodup_domPath_iff (page : Tag) :
    ((page.contents.findAll [page]).map domPath).Nodup ↔
      page.ChildrenDiffer ∧ ∀ ref ∈ page.contents.findAll [page], ref.node.ChildrenDiffer := by
  rw [Tag.ChildrenDiffer, Tag.children, ← @nodup_steps_iff page [] page.contents fun c hc => hc]
  constructor
  · intro h
    rw [List.Nodup, List.pairwise_map] at h ⊢
    exact h.imp fun hne hsteps => hne (domPath_eq_iff.mpr hsteps)
  · intro h
    rw [List.Nodup, List.pairwise_map] at h ⊢
    exact h.imp fun hne hpath => hne (domPath_eq_iff.mp hpath)

end Paths

end AstraIndexator
