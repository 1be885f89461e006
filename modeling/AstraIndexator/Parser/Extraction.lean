import AstraIndexator.Parser.Dom

/-!
# The strings an element is read from

The strings of a page are numbered in document order, so that two strings with the same
text stay apart.  A handler reads one text for every tag of content, from the strings below
it.  Every text is read once exactly when the tags of content that have a text do not
stand in each other and no ruby annotation stands in one of them.
-/

namespace AstraIndexator

/-- A string of a page. -/
structure PageString where
  kind : StringKind
  value : String
  deriving DecidableEq

namespace PageString

/-- Whether `get_text` takes the string. -/
def IsRead (s : PageString) : Prop := s.kind = .text ∧ Text.strip s.value ≠ ""

/-- A string the reader of the page sees: no comment and not blank. -/
def IsText (s : PageString) : Prop := s.kind ≠ .other ∧ Text.strip s.value ≠ ""

instance : DecidablePred IsRead := fun _ => inferInstanceAs (Decidable (_ ∧ _))

instance : DecidablePred IsText := fun _ => inferInstanceAs (Decidable (_ ∧ _))

theorem IsRead.isText {s : PageString} (h : s.IsRead) : s.IsText :=
  ⟨by rw [h.1]; decide, h.2⟩

theorem IsText.isRead {s : PageString} (h : s.IsText) (hkind : s.kind = .text) : s.IsRead :=
  ⟨hkind, h.2⟩

end PageString

/-- A string with its number. -/
abbrev TextNode := PageString × Nat

namespace Contents

/-- The strings below, in document order. -/
def strings : Contents → List PageString
  | .nil => []
  | .string kind value rest => ⟨kind, value⟩ :: rest.strings
  | .tag _ _ contents rest => contents.strings ++ rest.strings

/-- The tags below, in document order. -/
def descendants : Contents → List Tag
  | .nil => []
  | .string _ _ rest => rest.descendants
  | .tag name attributes contents rest =>
    ⟨name, attributes, contents⟩ :: (contents.descendants ++ rest.descendants)

/-- The strings below with their numbers, from the number of the first one. -/
def textNodes (contents : Contents) (start : Nat) : List TextNode := contents.strings.zipIdx start

/-- What `get_text` joins. -/
def readNodes (contents : Contents) (start : Nat) : List TextNode :=
  (contents.textNodes start).filter fun node => node.1.IsRead

/-- `get_text(" ", strip=True)` of the strings. -/
def joinedText (nodes : List TextNode) : String :=
  String.intercalate " " (nodes.map fun node => Text.strip node.1.value)

section Reading

variable (isContent : TagName → Bool)

/-- The strings that are read for a tag, if it is a tag of content and has a text. -/
def ownExtract (start : Nat) (name : TagName) (contents : Contents) : List (List TextNode) :=
  if isContent name ∧ contents.readNodes start ≠ [] then [contents.readNodes start] else []

/-- The strings that are read, a list for each tag of content that has a text. -/
def extracts (start : Nat) : Contents → List (List TextNode)
  | .nil => []
  | .string _ _ rest => rest.extracts (start + 1)
  | .tag name _ contents rest =>
    ownExtract isContent start name contents ++
      (contents.extracts start ++ rest.extracts (start + contents.strings.length))

/-- The texts that stand below a tag of content. -/
def contentNodes (start : Nat) : Contents → List TextNode
  | .nil => []
  | .string _ _ rest => rest.contentNodes (start + 1)
  | .tag name _ contents rest =>
    (if isContent name then (contents.textNodes start).filter fun node => node.1.IsText
      else contents.contentNodes start) ++
        rest.contentNodes (start + contents.strings.length)

/-- The text of a tag of content. -/
def contentText (tag : Tag) : Option String :=
  if isContent tag.name ∧ tag.getText ≠ "" then some tag.getText else none

/-- The texts of the tags of content, in document order. -/
def contentTexts (contents : Contents) : List String :=
  contents.descendants.filterMap (contentText isContent)

/-- How often a string is read. -/
def readCount (contents : Contents) (start : Nat) (node : TextNode) : Nat :=
  (contents.extracts isContent start).countP fun nodes => node ∈ nodes

/-- Every text below a tag of content is read for exactly one of them. -/
def ReadOnce (contents : Contents) (start : Nat) : Prop :=
  ∀ node ∈ contents.contentNodes isContent start, contents.readCount isContent start node = 1

instance (contents : Contents) (start : Nat) : Decidable (contents.ReadOnce isContent start) :=
  inferInstanceAs (Decidable (∀ node ∈ _, _ = 1))

/-- No tag of content has a tag of content with a text below it, or a ruby annotation. -/
structure KeptApart (tag : Tag) : Prop where
  inner : ∀ below ∈ tag.contents.descendants, isContent below.name = true → below.getText = ""
  ruby : ∀ s ∈ tag.contents.strings, s.IsText → s.kind = .text

instance (tag : Tag) : Decidable (KeptApart isContent tag) :=
  decidable_of_iff ((∀ below ∈ tag.contents.descendants,
      isContent below.name = true → below.getText = "") ∧
    ∀ s ∈ tag.contents.strings, s.IsText → s.kind = .text)
    ⟨fun h => ⟨h.1, h.2⟩, fun h => ⟨h.inner, h.ruby⟩⟩

end Reading

/-! ## Texts -/

theorem strippedStrings_eq (contents : Contents) :
    contents.strippedStrings =
      (contents.strings.filter (PageString.IsRead ·)).map fun s => Text.strip s.value := by
  induction contents with
  | nil => rfl
  | string kind value rest ih =>
    rw [strippedStrings, strings, List.filter_cons, ih]
    by_cases h : kind = .text ∧ Text.strip value ≠ ""
    · have hread : PageString.IsRead ⟨kind, value⟩ := h
      rw [if_pos h, if_pos (decide_eq_true hread), List.map_cons]
    · have hread : ¬ PageString.IsRead ⟨kind, value⟩ := h
      rw [if_neg h, decide_eq_false hread]
      rfl
  | tag name attributes contents rest ih ihRest =>
    rw [strippedStrings, strings, ih, ihRest, List.filter_append, List.map_append]

theorem readNodes_values (contents : Contents) (start : Nat) :
    (contents.readNodes start).map (fun node => Text.strip node.1.value) =
      contents.strippedStrings := by
  rw [strippedStrings_eq, readNodes, textNodes]
  conv_rhs => rw [← List.zipIdx_map_fst start contents.strings, List.filter_map, List.map_map]
  rfl

/-- The text of a tag is joined of the strings that are read. -/
theorem joinedText_readNodes (tag : Tag) (start : Nat) :
    joinedText (tag.contents.readNodes start) = tag.getText := by
  rw [joinedText, readNodes_values, Tag.getText]

theorem intercalate_ne_empty {s : String} (h : s ≠ "") (rest : List String) :
    String.intercalate " " (s :: rest) ≠ "" := by
  cases rest with
  | nil => rwa [String.intercalate_singleton]
  | cons t rest =>
    rw [String.intercalate_cons_cons, Ne, String.append_eq_empty_iff, String.append_eq_empty_iff]
    exact fun hempty => h hempty.1.1

theorem isRead_of_mem_readNodes {contents : Contents} {start : Nat} {node : TextNode}
    (h : node ∈ contents.readNodes start) : node.1.IsRead :=
  of_decide_eq_true (List.mem_filter.mp h).2

theorem readNodes_eq_nil (tag : Tag) (start : Nat) :
    tag.contents.readNodes start = [] ↔ tag.getText = "" := by
  rw [← joinedText_readNodes tag start]
  constructor
  · intro h
    rw [h]
    rfl
  · intro h
    cases hnodes : tag.contents.readNodes start with
    | nil => rfl
    | cons node rest =>
      have hread := isRead_of_mem_readNodes (hnodes ▸ List.mem_cons_self)
      rw [hnodes, joinedText, List.map_cons] at h
      exact absurd h (intercalate_ne_empty hread.2 _)

section Reading

variable {isContent : TagName → Bool}

/-- The texts of the tags of content are those of the strings that are read. -/
theorem contentTexts_eq (contents : Contents) (start : Nat) :
    contents.contentTexts isContent = (contents.extracts isContent start).map joinedText := by
  induction contents generalizing start with
  | nil => rfl
  | string kind value rest ih => exact ih (start + 1)
  | tag name attributes contents rest ih ihRest =>
    have hread := readNodes_eq_nil ⟨name, attributes, contents⟩ start
    have hjoined := joinedText_readNodes ⟨name, attributes, contents⟩ start
    have hinner := ih start
    have hrest := ihRest (start + contents.strings.length)
    rw [contentTexts] at hinner hrest ⊢
    rw [descendants, List.filterMap_cons, List.filterMap_append, hinner, hrest, extracts,
      List.map_append, List.map_append, ownExtract, contentText]
    by_cases h : isContent name = true ∧ contents.readNodes start ≠ []
    · have htext : isContent name = true ∧ Tag.getText ⟨name, attributes, contents⟩ ≠ "" :=
        ⟨h.1, fun hempty => h.2 (hread.mpr hempty)⟩
      rw [if_pos h, if_pos htext, List.map_singleton, hjoined]
      rfl
    · have htext : ¬ (isContent name = true ∧ Tag.getText ⟨name, attributes, contents⟩ ≠ "") :=
        fun htext => h ⟨htext.1, fun hempty => htext.2 (hread.mp hempty)⟩
      rw [if_neg h, if_neg htext]
      rfl

/-! ## Numbers -/

section Numbers

variable {name : TagName} {attributes : Attributes} {contents rest : Contents} {start : Nat}
  {node : TextNode}

theorem textNodes_tag : (Contents.tag name attributes contents rest).textNodes start =
    contents.textNodes start ++ rest.textNodes (start + contents.strings.length) :=
  List.zipIdx_append

/-- The strings of a tag and those behind it have different numbers. -/
theorem textNodes_disjoint (h : node ∈ contents.textNodes start) :
    node ∉ rest.textNodes (start + contents.strings.length) := by
  intro hrest
  have hlt := List.snd_lt_add_of_mem_zipIdx h
  have hle := List.le_snd_of_mem_zipIdx hrest
  omega

theorem mem_of_mem_extracts {contents : Contents} {start : Nat} {nodes : List TextNode}
    (h : nodes ∈ contents.extracts isContent start) :
    nodes ≠ [] ∧ ∀ node ∈ nodes, node ∈ contents.readNodes start := by
  induction contents generalizing start with
  | nil => exact absurd h List.not_mem_nil
  | string kind value rest ih =>
    obtain ⟨hne, hmem⟩ := ih h
    refine ⟨hne, fun node hnode => ?_⟩
    have hread := List.mem_filter.mp (hmem node hnode)
    exact List.mem_filter.mpr ⟨List.mem_cons_of_mem _ hread.1, hread.2⟩
  | tag name attributes contents rest ih ihRest =>
    have hsplit : ∀ node : TextNode, node ∈ contents.readNodes start ∨
        node ∈ rest.readNodes (start + contents.strings.length) →
        node ∈ (Contents.tag name attributes contents rest).readNodes start := by
      intro node hnode
      rw [readNodes, textNodes_tag, List.filter_append]
      exact List.mem_append.mpr hnode
    rw [extracts] at h
    rcases List.mem_append.mp h with h | h
    · rw [ownExtract] at h
      split at h
      · next hcontent =>
        rw [List.mem_singleton.mp h]
        exact ⟨hcontent.2, fun node hnode => hsplit node (.inl hnode)⟩
      · exact absurd h List.not_mem_nil
    · rcases List.mem_append.mp h with h | h
      · obtain ⟨hne, hmem⟩ := ih h
        exact ⟨hne, fun node hnode => hsplit node (.inl (hmem node hnode))⟩
      · obtain ⟨hne, hmem⟩ := ihRest h
        exact ⟨hne, fun node hnode => hsplit node (.inr (hmem node hnode))⟩

theorem mem_textNodes_of_mem_contentNodes {contents : Contents} {start : Nat}
    (h : node ∈ contents.contentNodes isContent start) : node ∈ contents.textNodes start := by
  induction contents generalizing start with
  | nil => exact absurd h List.not_mem_nil
  | string kind value rest ih => exact List.mem_cons_of_mem _ (ih h)
  | tag name attributes contents rest ih ihRest =>
    rw [textNodes_tag]
    rcases List.mem_append.mp h with h | h
    · apply List.mem_append_left
      split at h
      · exact (List.mem_filter.mp h).1
      · exact ih h
    · exact List.mem_append_right _ (ihRest h)

/-- A string that stands elsewhere is read for no tag of content. -/
theorem readCount_eq_zero {contents : Contents} {start : Nat}
    (h : node ∉ contents.textNodes start) : contents.readCount isContent start node = 0 := by
  rw [readCount, List.countP_eq_zero]
  intro nodes hnodes hmem
  have hread := (mem_of_mem_extracts hnodes).2 node (of_decide_eq_true hmem)
  exact h (List.mem_filter.mp hread).1

end Numbers

theorem extracts_eq_nil {contents : Contents} {start : Nat} :
    contents.extracts isContent start = [] ↔
      ∀ below ∈ contents.descendants, isContent below.name = true → below.getText = "" := by
  induction contents generalizing start with
  | nil => exact ⟨fun _ => List.forall_mem_nil _, fun _ => rfl⟩
  | string kind value rest ih => exact ih
  | tag name attributes contents rest ih ihRest =>
    rw [extracts, List.append_eq_nil_iff, List.append_eq_nil_iff, ih, ihRest, descendants,
      List.forall_mem_cons, List.forall_mem_append]
    have hself : ownExtract isContent start name contents = [] ↔
        (isContent name = true → Tag.getText ⟨name, attributes, contents⟩ = "") := by
      rw [← readNodes_eq_nil ⟨name, attributes, contents⟩ start, ownExtract]
      by_cases h : isContent name = true ∧ contents.readNodes start ≠ []
      · rw [if_pos h]
        constructor
        · intro hnil
          cases hnil
        · intro hempty
          exact absurd (hempty h.1) h.2
      · rw [if_neg h]
        refine ⟨fun _ hcontent => ?_, fun _ => rfl⟩
        by_contra hne
        exact h ⟨hcontent, hne⟩
    rw [hself]

/-! ## Once -/

/-- A tag of content reads every text below it once when no other tag of content reads any and
every text is read at all. -/
theorem readOnce_content {name : TagName} (contents : Contents) (start : Nat)
    (hcontent : isContent name = true) :
    (∀ node ∈ (contents.textNodes start).filter (fun node => node.1.IsText),
        (ownExtract isContent start name contents).countP (fun nodes => node ∈ nodes) +
          contents.readCount isContent start node = 1) ↔
      contents.extracts isContent start = [] ∧
        ∀ s ∈ contents.strings, s.IsText → s.kind = .text := by
  rw [ownExtract]
  simp only [hcontent, true_and]
  constructor
  · intro h
    constructor
    · -- a string of an inner tag is read for the outer one as well
      cases hextracts : contents.extracts isContent start with
      | nil => rfl
      | cons nodes rest =>
        have hnodes : nodes ∈ contents.extracts isContent start := hextracts ▸ List.mem_cons_self
        obtain ⟨hne, hmem⟩ := mem_of_mem_extracts hnodes
        obtain ⟨node, hnode⟩ := List.exists_mem_of_ne_nil nodes hne
        have hread := hmem node hnode
        have htext := isRead_of_mem_readNodes hread
        have hone := h node (List.mem_filter.mpr
          ⟨(List.mem_filter.mp hread).1, decide_eq_true htext.isText⟩)
        have hinner : 0 < contents.readCount isContent start node :=
          List.countP_pos_iff.mpr ⟨nodes, hnodes, decide_eq_true hnode⟩
        rw [if_pos (List.ne_nil_of_mem hread), List.countP_singleton,
          if_pos (decide_eq_true hread)] at hone
        omega
    · -- a ruby annotation is not read
      intro s hs htext
      by_contra hkind
      obtain ⟨index, hindex⟩ := List.mem_iff_getElem?.mp hs
      have hnode : (s, start + index) ∈ contents.textNodes start :=
        List.mk_add_mem_zipIdx_iff_getElem?.mpr hindex
      have hone := h (s, start + index) (List.mem_filter.mpr ⟨hnode, decide_eq_true htext⟩)
      have hunread : (s, start + index) ∉ contents.readNodes start :=
        fun hread => hkind (isRead_of_mem_readNodes hread).1
      have hinner : contents.readCount isContent start (s, start + index) = 0 := by
        rw [readCount, List.countP_eq_zero]
        intro nodes hnodes hmem
        exact hunread ((mem_of_mem_extracts hnodes).2 _ (of_decide_eq_true hmem))
      rw [hinner] at hone
      split at hone
      · rw [List.countP_singleton, decide_eq_false hunread] at hone
        cases hone
      · cases hone
  · intro h node hnode
    obtain ⟨hmem, htext⟩ := List.mem_filter.mp hnode
    have hkind := h.2 node.1 (List.fst_mem_of_mem_zipIdx hmem) (of_decide_eq_true htext)
    have hread : node ∈ contents.readNodes start := List.mem_filter.mpr
      ⟨hmem, decide_eq_true ((of_decide_eq_true htext : node.1.IsText).isRead hkind)⟩
    rw [readCount, h.1, if_pos (List.ne_nil_of_mem hread), List.countP_singleton,
      if_pos (decide_eq_true hread), List.countP_nil]

theorem strings_of_mem_descendants {contents : Contents} {tag : Tag}
    (h : tag ∈ contents.descendants) : ∀ s ∈ tag.contents.strings, s ∈ contents.strings := by
  induction contents with
  | nil => exact absurd h List.not_mem_nil
  | string kind value rest ih => exact fun s hs => List.mem_cons_of_mem _ (ih h s hs)
  | tag name attributes contents rest ih ihRest =>
    intro s hs
    rcases List.mem_cons.mp h with rfl | h
    · exact List.mem_append_left _ hs
    · rcases List.mem_append.mp h with h | h
      · exact List.mem_append_left _ (ih h s hs)
      · exact List.mem_append_right _ (ihRest h s hs)

theorem descendants_of_mem_descendants {contents : Contents} {tag : Tag}
    (h : tag ∈ contents.descendants) :
    ∀ below ∈ tag.contents.descendants, below ∈ contents.descendants := by
  induction contents with
  | nil => exact absurd h List.not_mem_nil
  | string kind value rest ih => exact ih h
  | tag name attributes contents rest ih ihRest =>
    intro below hbelow
    apply List.mem_cons_of_mem
    rcases List.mem_cons.mp h with rfl | h
    · exact List.mem_append_left _ hbelow
    · rcases List.mem_append.mp h with h | h
      · exact List.mem_append_left _ (ih h below hbelow)
      · exact List.mem_append_right _ (ihRest h below hbelow)

/-- The tags of content below one that is kept apart are kept apart. -/
theorem KeptApart.below {tag : Tag} (h : KeptApart isContent tag) :
    ∀ below ∈ tag.contents.descendants, KeptApart isContent below := by
  intro below hbelow
  constructor
  · intro inner hinner
    exact h.inner inner (descendants_of_mem_descendants hbelow inner hinner)
  · intro s hs
    exact h.ruby s (strings_of_mem_descendants hbelow s hs)

section Tag

variable {name : TagName} {attributes : Attributes} {contents rest : Contents} {start : Nat}
  {node : TextNode}

/-- A string below a tag is read for the tag or below it. -/
theorem readCount_below (h : node ∈ contents.textNodes start) :
    (Contents.tag name attributes contents rest).readCount isContent start node =
      (ownExtract isContent start name contents).countP (fun nodes => node ∈ nodes) +
        contents.readCount isContent start node := by
  have hrest : rest.readCount isContent (start + contents.strings.length) node = 0 :=
    readCount_eq_zero (textNodes_disjoint h)
  rw [readCount] at hrest
  rw [readCount, extracts, List.countP_append, List.countP_append, hrest, Nat.add_zero]
  rfl

/-- A string behind a tag is read behind it. -/
theorem readCount_behind (h : node ∈ rest.textNodes (start + contents.strings.length)) :
    (Contents.tag name attributes contents rest).readCount isContent start node =
      rest.readCount isContent (start + contents.strings.length) node := by
  have hnot : node ∉ contents.textNodes start := fun hmem => textNodes_disjoint hmem h
  have hinner : contents.readCount isContent start node = 0 := readCount_eq_zero hnot
  have hown :
      (ownExtract isContent start name contents).countP (fun nodes => node ∈ nodes) = 0 := by
    rw [List.countP_eq_zero, ownExtract]
    intro nodes hnodes hmem
    split at hnodes
    · rw [List.mem_singleton.mp hnodes] at hmem
      exact hnot (List.mem_filter.mp (of_decide_eq_true hmem)).1
    · exact List.not_mem_nil hnodes
  rw [readCount] at hinner
  rw [readCount, extracts, List.countP_append, List.countP_append, hown, hinner, Nat.zero_add,
    Nat.zero_add]
  rfl

end Tag

/-- Every text is read once exactly when the tags of content are kept apart. -/
theorem readOnce_iff {contents : Contents} {start : Nat} :
    contents.ReadOnce isContent start ↔
      ∀ tag ∈ contents.descendants, isContent tag.name = true → KeptApart isContent tag := by
  induction contents generalizing start with
  | nil => exact ⟨fun _ => List.forall_mem_nil _, fun _ => List.forall_mem_nil _⟩
  | string kind value rest ih => exact ih
  | tag name attributes contents rest ih ihRest =>
    have hbehind : (∀ node ∈ rest.contentNodes isContent (start + contents.strings.length),
        (Contents.tag name attributes contents rest).readCount isContent start node = 1) ↔
          ∀ tag ∈ rest.descendants, isContent tag.name = true → KeptApart isContent tag := by
      rw [← @ihRest (start + contents.strings.length)]
      exact forall₂_congr fun node hnode => by
        rw [readCount_behind (mem_textNodes_of_mem_contentNodes hnode)]
    rw [ReadOnce, contentNodes, List.forall_mem_append, hbehind, descendants, List.forall_mem_cons,
      List.forall_mem_append, ← and_assoc]
    apply and_congr_left'
    by_cases hcontent : isContent name = true
    · rw [if_pos hcontent]
      have hbelow := readOnce_content contents start hcontent
      rw [extracts_eq_nil] at hbelow
      constructor
      · intro h
        have hapart := hbelow.mp fun node hnode => by
          rw [← readCount_below (List.mem_filter.mp hnode).1]
          exact h node hnode
        have hself : KeptApart isContent ⟨name, attributes, contents⟩ := ⟨hapart.1, hapart.2⟩
        exact ⟨fun _ => hself, fun below hbelow _ => hself.below below hbelow⟩
      · intro h node hnode
        rw [readCount_below (List.mem_filter.mp hnode).1]
        exact hbelow.mpr ⟨(h.1 hcontent).inner, (h.1 hcontent).ruby⟩ node hnode
    · rw [if_neg hcontent, ← @ih start]
      have hown : ownExtract isContent start name contents = [] :=
        if_neg fun h => hcontent h.1
      have hbelow : ∀ node ∈ contents.contentNodes isContent start,
          (Contents.tag name attributes contents rest).readCount isContent start node =
            contents.readCount isContent start node := by
        intro node hnode
        rw [readCount_below (mem_textNodes_of_mem_contentNodes hnode), hown, List.countP_nil,
          Nat.zero_add]
      constructor
      · intro h
        exact ⟨fun h => absurd h hcontent, fun node hnode => hbelow node hnode ▸ h node hnode⟩
      · intro h node hnode
        exact (hbelow node hnode).trans (h.2 node hnode)

end Reading

end Contents

end AstraIndexator
