import AstraIndexator.Splitter.CodeFidelity
import AstraIndexator.Splitter.Hierarchy

/-!
# Introductions of lists

A paragraph that ends in a colon is the introduction of the list behind it.  Its last unit
ends in the colon, so no soft limit separates it from the first unit of the list, and every
later unit of the list carries it as a context.
-/

namespace AstraIndexator

open Text Transaction

namespace LogicalSplitter

variable {splitter : LogicalSplitter} {language : Option String} {text : List Char}

/-! ## The last character of a text -/

theorem getLast?_visible {l : List Char} (h : ∀ c ∈ l.getLast?, isSpace c = false) :
    (visible l).getLast? = l.getLast? := by
  rcases List.eq_nil_or_concat l with rfl | ⟨front, c, rfl⟩
  · rfl
  · rw [List.concat_eq_append] at h ⊢
    have hc : isSpace c = false := h c (by simp)
    have hsingle : visible [c] = [c] := List.filter_cons_of_pos (by rw [hc]; rfl)
    rw [visible_append, hsingle, List.getLast?_concat, List.getLast?_concat]

/-- Clusters are kept, in order. -/
theorem flatten_graphemeBoundedChunks {chunks : List (List Char)}
    (h : splitter.graphemeBoundedChunks text = .ok chunks) : chunks.flatten = text := by
  have hclusters := splitter.unicode.graphemes_flatten text
  have hclosed : ∀ packing : Packing (List Char), (packing.closed List.flatten).flatten =
      packing.chunks.flatten ++ packing.current.flatten := by
    intro packing
    rw [Packing.closed]
    by_cases hnil : packing.current = []
    · rw [if_pos hnil, hnil, List.flatten_nil, List.append_nil]
    · rw [if_neg hnil, List.flatten_append, List.flatten_singleton]
  have hstep : ∀ packing cluster packing', splitter.graphemeStep packing cluster = .ok packing' →
      packing'.chunks.flatten ++ packing'.current.flatten =
        (packing.chunks.flatten ++ packing.current.flatten) ++ id cluster := by
    intro packing cluster packing' hnext
    rw [graphemeStep] at hnext
    obtain ⟨-, hnext⟩ := except_guard_ok.mp hnext
    obtain rfl := Except.ok.inj hnext
    rw [List.flatten_append, List.flatten_singleton, ← List.append_assoc]
    congr 1
    split
    · rw [hclosed, List.flatten_nil, List.append_nil]
    · rfl
  rw [graphemeBoundedChunks] at h
  by_cases hnone : splitter.unicode.graphemes text = []
  · rw [if_pos hnone] at h
    obtain rfl := Except.ok.inj h
    rw [hnone] at hclusters
    exact hclusters
  · rw [if_neg hnone] at h
    obtain ⟨packing, hpacking, h⟩ := except_bind_ok.mp h
    obtain rfl := Except.ok.inj h
    have hrun : packing.chunks.flatten ++ packing.current.flatten =
        (splitter.unicode.graphemes text).flatMap id :=
      except_foldlM_flatMap splitter.graphemeStep hstep hpacking
    rw [List.flatMap_id] at hrun
    exact (hclosed packing).trans (hrun.trans hclusters)

theorem forall_closed {α : Type} {P : α → Prop} {finish : List (List Char) → α}
    {packing : Packing α} (hchunks : ∀ chunk ∈ packing.chunks, P chunk)
    (hcurrent : P (finish packing.current)) : ∀ chunk ∈ packing.closed finish, P chunk := by
  rw [Packing.closed]
  split
  · exact hchunks
  · intro chunk hchunk
    rcases List.mem_append.mp hchunk with hold | hnew
    · exact hchunks chunk hold
    · exact List.mem_singleton.mp hnew ▸ hcurrent

/-- A text without whitespace has none at its ends. -/
theorem stripped_of_forall {l : List Char} (h : ∀ c ∈ l, isSpace c = false) : Stripped l :=
  ⟨fun c hc => h c (List.mem_of_mem_head? hc), fun c hc => h c (List.mem_of_mem_getLast? hc)⟩

/-- Where a text is cut at words or inside a word, no whitespace is left at the ends. -/
theorem stripped_forceTextChunks {chunks : List (List Char)} (hne : wordsOf text ≠ [])
    (h : splitter.forceTextChunks language text = .ok chunks) :
    ∀ chunk ∈ chunks, Stripped chunk := by
  rw [forceTextChunks, if_neg hne] at h
  obtain ⟨packing, hrun, h⟩ := except_bind_ok.mp h
  obtain rfl := Except.ok.inj h
  have hinvariant : (∀ chunk ∈ packing.chunks, Stripped chunk) ∧
      ∀ word ∈ packing.current, Stripped word ∧ word ≠ [] := by
    refine Traverse.foldlM_invariant (P := fun packing : Packing (List Char) =>
      (∀ chunk ∈ packing.chunks, Stripped chunk) ∧
        ∀ word ∈ packing.current, Stripped word ∧ word ≠ []) ?_ hrun
      ⟨List.forall_mem_nil _, List.forall_mem_nil _⟩
    intro packing word packing' hword hold hnext
    obtain ⟨hwordNe, hspaces⟩ := Words.mem_words hword
    have hclosed : ∀ chunk ∈ packing.closed (joinWith ' '), Stripped chunk :=
      forall_closed hold.1 (stripped_joinWith hold.2)
    rw [forceStep] at hnext
    split at hnext
    · obtain ⟨pieces, hpieces, hnext⟩ := except_bind_ok.mp hnext
      obtain rfl := Except.ok.inj hnext
      refine ⟨fun chunk hchunk => ?_, List.forall_mem_nil _⟩
      rcases List.mem_append.mp hchunk with hchunk | hchunk
      · exact hclosed chunk hchunk
      · apply stripped_of_forall
        intro c hc
        apply hspaces
        rw [← flatten_graphemeBoundedChunks hpieces]
        exact List.mem_flatten_of_mem hchunk hc
    · split at hnext
      · obtain rfl := Except.ok.inj hnext
        exact ⟨hclosed, List.forall_mem_singleton.mpr ⟨stripped_of_forall hspaces, hwordNe⟩⟩
      · obtain rfl := Except.ok.inj hnext
        refine ⟨hold.1, fun part hpart => ?_⟩
        rcases List.mem_append.mp hpart with hpart | hpart
        · exact hold.2 part hpart
        · exact List.mem_singleton.mp hpart ▸ ⟨stripped_of_forall hspaces, hwordNe⟩
  exact forall_closed hinvariant.1 (stripped_joinWith hinvariant.2)

/-- No chunk of a text has whitespace at its ends. -/
theorem stripped_textChunks {chunks : List TextChunk} (htext : Stripped text) (hne : text ≠ [])
    (h : splitter.textChunks language text = .ok chunks) :
    ∀ chunk ∈ chunks, Stripped chunk.text := by
  rw [textChunks] at h
  obtain ⟨packing, hrun, h⟩ := except_bind_ok.mp h
  obtain rfl := Except.ok.inj h
  have hclosed : ∀ packing : Packing TextChunk, (∀ chunk ∈ packing.chunks, Stripped chunk.text) →
      ∀ chunk ∈ packing.closed wholeSentences, Stripped chunk.text :=
    fun packing hold => forall_closed hold (stripped_stripChars _)
  apply hclosed
  refine Traverse.foldlM_invariant (P := fun packing : Packing TextChunk =>
    ∀ chunk ∈ packing.chunks, Stripped chunk.text) ?_ hrun (List.forall_mem_nil _)
  intro packing sentence packing' hsentence hold hnext
  obtain ⟨-, hstripped, hsne⟩ := sentencesOf_spec htext hne sentence hsentence
  rw [textStep] at hnext
  split at hnext
  · obtain ⟨pieces, hpieces, hnext⟩ := except_bind_ok.mp hnext
    obtain rfl := Except.ok.inj hnext
    intro chunk hchunk
    rcases List.mem_append.mp hchunk with hchunk | hchunk
    · exact hclosed packing hold chunk hchunk
    · obtain ⟨piece, hpiece, rfl⟩ := List.mem_map.mp hchunk
      exact stripped_forceTextChunks (wordsOf_ne_nil hstripped hsne) hpieces piece hpiece
  · split at hnext
    · obtain rfl := Except.ok.inj hnext
      exact hclosed packing hold
    · obtain rfl := Except.ok.inj hnext
      exact hold

/-- The last part with characters ends in the last visible character of all parts. -/
theorem exists_last_of_visibleAll {parts : List (List Char)} (hparts : ∀ part ∈ parts, Stripped part)
    (hne : visibleAll parts ≠ []) :
    ∃ front last, parts.filter (fun part => part ≠ []) = front ++ [last] ∧
      last.getLast? = (visibleAll parts).getLast? := by
  induction parts using List.reverseRecOn with
  | nil => exact absurd rfl hne
  | append_singleton parts part ih =>
    have hall : visibleAll (parts ++ [part]) = visibleAll parts ++ visible part := by
      rw [visibleAll, List.flatMap_append, List.flatMap_singleton]
    by_cases hnil : part = []
    · rw [hall, hnil, visible_nil, List.append_nil] at hne ⊢
      obtain ⟨front, last, hfilter, hlast⟩ :=
        ih (fun other hother => hparts other (List.mem_append_left _ hother)) hne
      refine ⟨front, last, ?_, hlast⟩
      rw [List.filter_append, hfilter]
      exact List.append_nil _
    · have hlast := getLast?_visible (hparts part (by simp)).last
      refine ⟨parts.filter fun part => part ≠ [], part, ?_, ?_⟩
      · rw [List.filter_append]
        congr 1
        exact List.filter_cons_of_pos (decide_eq_true hnil)
      · have hseen : visible part ≠ [] := by
          intro hblank
          rw [hblank] at hlast
          exact hnil (List.getLast?_eq_none_iff.mp hlast.symm)
        rw [hall, List.getLast?_append_of_ne_nil _ hseen, hlast]

/-- The last unit with text ends like the text. -/
theorem exists_last_textUnits {element : NormalizedElement} {hierarchy : List (List Char)}
    {context : List Char} {units : List SplitUnit} (htext : Stripped text) (hne : text ≠ [])
    (h : splitter.textUnits element text hierarchy context = .ok units) :
    ∃ front last, units.filter SplitUnit.hasText = front ++ [last] ∧
      last.text.getLast? = text.getLast? := by
  obtain ⟨chunks, hchunks, -⟩ := except_bind_ok.mp h
  have htexts := map_text_textUnits hchunks h
  have hseen : visibleAll (chunks.map TextChunk.text) = visible text := by
    rw [visibleAll, List.flatMap_map]
    exact visible_textChunks hchunks
  have hlastText := getLast?_visible htext.last
  have hseenNe : visible text ≠ [] := by
    intro hblank
    rw [hblank] at hlastText
    exact hne (List.getLast?_eq_none_iff.mp hlastText.symm)
  obtain ⟨front, last, hfilter, hlast⟩ := @exists_last_of_visibleAll (chunks.map TextChunk.text)
    (List.forall_mem_map.mpr (stripped_textChunks htext hne hchunks)) (by rw [hseen]; exact hseenNe)
  have hunits : (units.filter SplitUnit.hasText).map SplitUnit.text = front ++ [last] := by
    rw [← hfilter, ← htexts, List.filter_map]
    rfl
  obtain ⟨frontUnits, lastUnits, heq, -, hmapped⟩ := List.map_eq_append_iff.mp hunits
  obtain ⟨unit, rest, rfl, rfl, hrest⟩ := List.map_eq_cons_iff.mp hmapped
  obtain rfl := List.map_eq_nil_iff.mp hrest
  exact ⟨frontUnits, unit, heq, by rw [hlast, hseen, hlastText]⟩

/-! ## What stands between a paragraph and a list -/

/-- The item belongs to a list behind the paragraph: only lists, and elements that show
nothing, stand between them. -/
structure Introduces (live : List NormalizedElement) (p l : Nat)
    (paragraph item : NormalizedElement) : Prop where
  before : p < l
  paragraphAt : live[p]? = some paragraph
  paragraphType : paragraph.type = .paragraph
  colon : (elementText paragraph).getLast? = some ':'
  itemAt : live[l]? = some item
  itemType : isListType item.type = true
  itemText : elementText item ≠ []
  between : ∀ m other, p < m → m < l → live[m]? = some other →
    isListType other.type = true ∨ (elementText other = [] ∧ other.type ≠ .table)

theorem foldl_take_of_between {α σ : Type} {step : σ → α → σ} {start : σ} {l : List α}
    {p k : Nat} (h : ∀ m a, p < m → m ≤ p + k → l[m]? = some a →
      step ((l.take (p + 1)).foldl step start) a = (l.take (p + 1)).foldl step start) :
    (l.take (p + k + 1)).foldl step start = (l.take (p + 1)).foldl step start := by
  induction k with
  | zero => rfl
  | succ k ih =>
    have hprefix := ih fun m a hm hle => h m a hm (by omega)
    rw [List.take_add_one, List.foldl_append, ← Nat.add_assoc, hprefix]
    cases hget : l[p + k + 1]? with
    | none => rfl
    | some a => exact h (p + k + 1) a (by omega) (by omega) hget

namespace Introduces

variable {live : List NormalizedElement} {p l : Nat} {paragraph item : NormalizedElement}

theorem not_table_of_isListType {type : ElementType} (h : isListType type = true) :
    type ≠ .table ∧ type ≠ .heading ∧ type ≠ .paragraph := by
  refine ⟨?_, ?_, ?_⟩ <;>
    · intro heq
      rw [heq] at h
      exact absurd h (by decide)

/-- Behind the paragraph, up to the item, there are lists and elements that show nothing. -/
theorem upTo (h : Introduces live p l paragraph item) {m : Nat} {other : NormalizedElement}
    (hpm : p < m) (hml : m ≤ l) (hother : live[m]? = some other) :
    isListType other.type = true ∨ (elementText other = [] ∧ other.type ≠ .table) := by
  rcases Nat.lt_or_eq_of_le hml with hlt | rfl
  · exact h.between m other hpm hlt hother
  · obtain rfl := Option.some.inj (h.itemAt.symm.trans hother)
    exact .inl h.itemType

/-- The introduction is kept up to the item. -/
theorem introAt_eq (h : Introduces live p l paragraph item) :
    introAt live l = some (elementText paragraph) := by
  have hne : elementText paragraph ≠ [] := by
    intro hnil
    have hcolon := h.colon
    rw [hnil] at hcolon
    cases hcolon
  have hp : (live.take (p + 1)).foldl listIntroAfter none = some (elementText paragraph) := by
    rw [List.take_add_one, List.foldl_append, h.paragraphAt]
    show listIntroAfter _ paragraph = _
    have htable : paragraph.type ≠ .table := by
      rw [h.paragraphType]
      decide
    rw [listIntroAfter, if_neg htable, if_neg hne, if_pos ⟨h.paragraphType, h.colon⟩]
  have hkeeps : ∀ m other, p < m → m ≤ p + (l - p) → live[m]? = some other →
      listIntroAfter (some (elementText paragraph)) other = some (elementText paragraph) := by
    intro m other hpm hml hother
    rw [listIntroAfter]
    rcases h.upTo hpm (by omega) hother with hlist | ⟨hblank, htable⟩
    · obtain ⟨htable, -, hparagraph⟩ := not_table_of_isListType hlist
      rw [if_neg htable]
      by_cases hblank : elementText other = []
      · rw [if_pos hblank]
      · rw [if_neg hblank, if_neg fun hboth => hparagraph hboth.1, if_pos hlist]
    · rw [if_neg htable, if_pos hblank]
  have hlp : p + (l - p) = l := by
    have := h.before
    omega
  have hrun := @foldl_take_of_between _ _ listIntroAfter none live p (l - p) (by
    rw [hp]
    exact hkeeps)
  rw [hlp, hp] at hrun
  exact hrun

/-- No heading opens between the paragraph and the item. -/
theorem titlesAt_eq (h : Introduces live p l paragraph item) :
    titlesAt live l = titlesAt live p := by
  have hkeeps : ∀ titles m other, p < m → m ≤ p + (l - p) → live[m]? = some other →
      openTitles titles other = titles := by
    intro titles m other hpm hml hother
    rw [openTitles, if_neg]
    rintro ⟨hheading, htext⟩
    rcases h.upTo hpm (by omega) hother with hlist | ⟨hblank, -⟩
    · exact (not_table_of_isListType hlist).2.1 hheading
    · exact htext hblank
  have hlp : p + (l - p) = l := by
    have := h.before
    omega
  have hrun := @foldl_take_of_between _ _ openTitles [] live p (l - p) (hkeeps _)
  rw [hlp] at hrun
  exact hrun

/-- The first element behind the paragraph that shows something is of the list. -/
theorem exists_first (h : Introduces live p l paragraph item) :
    ∃ f first, f ≤ l ∧ Introduces live p f paragraph first ∧
      ∀ m other, p < m → m < f → live[m]? = some other →
        elementText other = [] ∧ other.type ≠ .table := by
  have hsome : ∃ f, p < f ∧ ∃ first, live[f]? = some first ∧ elementText first ≠ [] :=
    ⟨l, h.before, item, h.itemAt, h.itemText⟩
  classical
  obtain ⟨hpf, first, hfirst, htext⟩ := Nat.find_spec hsome
  have hle : Nat.find hsome ≤ l := Nat.find_min' hsome ⟨h.before, item, h.itemAt, h.itemText⟩
  have hlist : isListType first.type = true := by
    rcases h.upTo hpf hle hfirst with hlist | ⟨hblank, -⟩
    · exact hlist
    · exact absurd hblank htext
  refine ⟨Nat.find hsome, first, hle, ⟨hpf, h.paragraphAt, h.paragraphType, h.colon, hfirst, hlist,
    htext, fun m other hpm hmf hother => ?_⟩, fun m other hpm hmf hother => ?_⟩
  · exact h.upTo hpm (by omega) hother
  · have hblank : elementText other = [] := by
      by_contra hother'
      exact Nat.find_min hsome hmf ⟨hpm, other, hother, hother'⟩
    refine ⟨hblank, ?_⟩
    rcases h.upTo hpm (by omega) hother with hlist | ⟨-, htable⟩
    · exact (not_table_of_isListType hlist).1
    · exact htable

end Introduces

/-! ## Contexts -/

/-- What the units of an element say about it. -/
theorem origin_textUnits {element : NormalizedElement} {hierarchy : List (List Char)}
    {context : List Char} {units : List SplitUnit}
    (h : splitter.textUnits element text hierarchy context = .ok units) :
    ∀ unit ∈ units, unit.elementType = element.type ∧ unit.syntheticContext = context := by
  rw [textUnits] at h
  obtain ⟨chunks, -, h⟩ := except_bind_ok.mp h
  obtain rfl := Except.ok.inj h
  intro unit hunit
  obtain ⟨index, -, rfl⟩ := List.mem_mapIdx.mp hunit
  exact ⟨rfl, rfl⟩

/-- The fragment shows the introduction in its text or in front of it. -/
def HoldsIntroduction (introduction : List Char) (fragment : LogicalFragment) : Prop :=
  introduction <:+: fragment.normalizedText.toList ∨
    introduction <:+: fragment.contextPrefix.toList

/-- The context of a unit is in the text of the fragment or in front of it. -/
theorem holdsIntroduction_of_unit {document : NormalizedDocument} {part : List PlacedUnit}
    {fragment : LogicalFragment} {entry : PlacedUnit} (hmade : splitter.IsMadeOf document part fragment)
    (hentry : entry ∈ part) (hne : entry.2.syntheticContext ≠ []) :
    HoldsIntroduction entry.2.syntheticContext fragment := by
  obtain ⟨index, group, rfl, hgroup⟩ := hmade
  have hunit : entry.2 ∈ group.units := by
    rw [hgroup]
    exact List.mem_map_of_mem hentry
  show _ <:+: (String.ofList _).toList ∨ _ <:+: (String.ofList _).toList
  rw [String.toList_ofList, String.toList_ofList]
  by_cases hshown : entry.2.syntheticContext <:+: fragmentText group.units
  · exact .inl hshown
  · right
    apply infix_joinWith
    rw [contextParts, List.mem_eraseDups, List.mem_filter]
    refine ⟨List.mem_append_right _ ?_, decide_eq_true hne⟩
    rw [syntheticContexts, List.mem_filter]
    exact ⟨List.mem_map_of_mem hunit, decide_eq_true ⟨hne, hshown⟩⟩

/-- Every unit of a list behind an introduction carries it. -/
theorem syntheticContext_of_introduces {document : NormalizedDocument}
    {read : List (List SplitUnit)} {p l : Nat} {paragraph item : NormalizedElement}
    (hrepeat : splitter.profile.repeatListIntro = true)
    (hread : splitter.iterUnits document = read.map Except.ok)
    (h : Introduces (liveElements document) p l paragraph item) {unit : SplitUnit}
    (hunit : (l, unit) ∈ placedUnits read) : unit.syntheticContext = elementText paragraph := by
  obtain ⟨units, hget, hmem, -⟩ := mem_placedUnits.mp hunit
  obtain ⟨element, helement, hunits⟩ := iterUnits_getElem? hread hget
  obtain rfl := Option.some.inj (h.itemAt.symm.trans helement)
  rw [elementUnits, if_neg (Introduces.not_table_of_isListType h.itemType).1, if_neg h.itemText,
    if_pos ⟨hrepeat, h.itemType⟩, h.introAt_eq] at hunits
  exact (origin_textUnits hunits unit hmem).2

/-! ## Neighbours -/

theorem flatMap_of_between {α β : Type} {g : α → List β} {l : List α} {p f : Nat} {a b : α}
    (ha : l[p]? = some a) (hb : l[f]? = some b) (hlt : p < f)
    (hbetween : ∀ m c, p < m → m < f → l[m]? = some c → g c = []) :
    ∃ start stop, l.flatMap g = start ++ (g a ++ g b) ++ stop := by
  have hsplit : l = l.take p ++ a :: l.drop (p + 1) := by
    obtain ⟨hlen, rfl⟩ := List.getElem?_eq_some_iff.mp ha
    rw [← List.drop_eq_getElem_cons hlen, List.take_append_drop]
  have hget : (l.drop (p + 1))[f - (p + 1)]? = some b := by
    rw [List.getElem?_drop, ← hb]
    congr 1
    omega
  have hrest : l.drop (p + 1) =
      (l.drop (p + 1)).take (f - (p + 1)) ++ b :: l.drop (f + 1) := by
    obtain ⟨hlen, hb'⟩ := List.getElem?_eq_some_iff.mp hget
    have hdrop : (l.drop (p + 1)).drop (f - (p + 1)) = b :: l.drop (f + 1) := by
      rw [List.drop_eq_getElem_cons hlen, hb', List.drop_drop]
      congr 2
      omega
    rw [← hdrop, List.take_append_drop]
  have hmiddle : ((l.drop (p + 1)).take (f - (p + 1))).flatMap g = [] := by
    rw [List.flatMap_eq_nil_iff]
    intro c hc
    obtain ⟨m, hm, hcm⟩ := List.getElem_of_mem hc
    have hm' : m < f - (p + 1) := by
      rw [List.length_take] at hm
      omega
    refine hbetween (p + 1 + m) c (by omega) (by omega) ?_
    rw [← List.getElem?_drop, ← List.getElem?_take_of_lt hm']
    exact List.getElem?_eq_some_iff.mpr ⟨hm, hcm⟩
  refine ⟨(l.take p).flatMap g, (l.drop (f + 1)).flatMap g, ?_⟩
  conv_lhs => rw [hsplit, hrest]
  rw [List.flatMap_append, List.flatMap_cons, List.flatMap_append, hmiddle, List.flatMap_cons,
    List.nil_append]
  simp only [List.append_assoc]

/-- Where the elements in between have no units with text, the last unit of one element is
followed by the first unit of another. -/
theorem placedUnits_of_between {read : List (List SplitUnit)} {p f : Nat}
    {units more front back : List SplitUnit} {last first : SplitUnit} (hunits : read[p]? = some units)
    (hmore : read[f]? = some more) (hlt : p < f)
    (hbetween : ∀ (m : Nat) (other : List SplitUnit), p < m → m < f → read[m]? = some other →
      other.filter SplitUnit.hasText = [])
    (hlast : units.filter SplitUnit.hasText = front ++ [last])
    (hfirst : more.filter SplitUnit.hasText = first :: back) :
    ∃ before after, placedUnits read = before ++ (p, last) :: (f, first) :: after := by
  have hget : ∀ {m : Nat} {other : List SplitUnit}, read[m]? = some other →
      read.zipIdx[m]? = some (other, m) := by
    intro m other hother
    rw [List.getElem?_zipIdx, hother]
    simp
  have hblank : ∀ (m : Nat) (entry : List SplitUnit × Nat), p < m → m < f →
      read.zipIdx[m]? = some entry →
      (entry.1.filter SplitUnit.hasText).map (fun unit => ((entry.2, unit) : PlacedUnit)) = [] := by
    intro m entry hpm hmf hentry
    rw [List.getElem?_zipIdx] at hentry
    obtain ⟨other, hother, rfl⟩ := Option.map_eq_some_iff.mp hentry
    rw [hbetween m other hpm hmf hother, List.map_nil]
  obtain ⟨start, stop, hplaced⟩ := flatMap_of_between (hget hunits) (hget hmore) hlt hblank
  refine ⟨start ++ front.map fun unit => (p, unit), (back.map fun unit => (f, unit)) ++ stop,
    hplaced.trans ?_⟩
  rw [hlast, hfirst]
  simp

/-- The last unit of the introduction is followed by the first unit of the list. -/
theorem exists_neighbours {document : NormalizedDocument} {read : List (List SplitUnit)}
    {p l : Nat} {paragraph item : NormalizedElement}
    (hread : splitter.iterUnits document = read.map Except.ok)
    (h : Introduces (liveElements document) p l paragraph item) :
    ∃ before unit entry after, placedUnits read = before ++ (p, unit) :: entry :: after ∧
      unit.elementType = .paragraph ∧ unit.text.getLast? = some ':' ∧
      unit.hierarchy = entry.2.hierarchy ∧ p < entry.1 ∧ entry.1 ≤ l ∧
      isListType entry.2.elementType = true ∧
      ∃ first, (liveElements document)[entry.1]? = some first ∧ isListType first.type = true := by
  obtain ⟨f, first, hfl, hfirst, hbetween⟩ := h.exists_first
  obtain ⟨hlength, hunitsAt⟩ := @unitsFrom_getElem? splitter [] none (orderedElements document)
    (liveElements document) read rfl hread
  have hunits : ∀ m element, (liveElements document)[m]? = some element → ∃ units,
      read[m]? = some units ∧ splitter.elementUnits element (titlesAt (liveElements document) m)
        (introAt (liveElements document) m) = .ok units := by
    intro m element helement
    obtain ⟨hlt, -⟩ := List.getElem?_eq_some_iff.mp helement
    have hget := List.getElem?_eq_getElem (l := read) (i := m) (by omega)
    exact ⟨_, hget, hunitsAt m element _ helement hget⟩
  obtain ⟨introUnits, hintroAt, hintro⟩ := hunits p paragraph hfirst.paragraphAt
  obtain ⟨listUnits, hlistAt, hlist⟩ := hunits f first hfirst.itemAt
  have htext : elementText paragraph ≠ [] := by
    intro hnil
    have hcolon := h.colon
    rw [hnil] at hcolon
    cases hcolon
  rw [elementUnits, if_neg (by rw [h.paragraphType]; decide), if_neg htext] at hintro
  rw [elementUnits, if_neg (Introduces.not_table_of_isListType hfirst.itemType).1,
    if_neg hfirst.itemText] at hlist
  obtain ⟨introFront, unit, hintroUnits, hunitText⟩ :=
    exists_last_textUnits (stripped_stripChars _) htext hintro
  obtain ⟨entry, back, hlistUnits⟩ : ∃ entry back,
      listUnits.filter SplitUnit.hasText = entry :: back := by
    obtain ⟨front, last, hlast, -⟩ :=
      exists_last_textUnits (stripped_stripChars _) hfirst.itemText hlist
    exact List.exists_cons_of_ne_nil (by rw [hlast]; simp)
  have hunit : unit ∈ introUnits := by
    refine List.mem_of_mem_filter (p := SplitUnit.hasText) ?_
    rw [hintroUnits]
    exact List.mem_append_right _ (List.mem_singleton_self _)
  have hentry : entry ∈ listUnits := by
    refine List.mem_of_mem_filter (p := SplitUnit.hasText) ?_
    rw [hlistUnits]
    exact List.mem_cons_self
  have hblank : ∀ (m : Nat) (units : List SplitUnit), p < m → m < f → read[m]? = some units →
      units.filter SplitUnit.hasText = [] := by
    intro m units hpm hmf hget
    obtain ⟨element, helement, hmade⟩ := iterUnits_getElem? hread hget
    obtain ⟨hnone, htable⟩ := hbetween m element hpm hmf helement
    rw [elementUnits, if_neg htable, if_pos hnone] at hmade
    obtain rfl := Except.ok.inj hmade
    rfl
  obtain ⟨before, after, hplaced⟩ :=
    placedUnits_of_between hintroAt hlistAt hfirst.before hblank hintroUnits hlistUnits
  refine ⟨before, unit, (f, entry), after, hplaced, ?_, ?_, ?_, hfirst.before, hfl, ?_, first,
    hfirst.itemAt, hfirst.itemType⟩
  · rw [(origin_textUnits hintro unit hunit).1, h.paragraphType]
  · exact hunitText.trans h.colon
  · rw [hierarchy_textUnits hintro unit hunit, hierarchy_textUnits hlist entry hentry,
      hfirst.titlesAt_eq]
  · rw [(origin_textUnits hlist entry hentry).1]
    exact hfirst.itemType

/-- What was read last is the last of the buffer. -/
theorem exists_buffer_run_concat {α : Type} (cut : List α → α → Bool) (l : List α) (a : α) :
    ∃ front, (Buffered.run cut (l ++ [a])).buffer = front ++ [a] := by
  rw [Buffered.run_concat, Buffered.push]
  split
  · exact ⟨[], rfl⟩
  · exact ⟨_, rfl⟩

/-- Behind an introduction nothing but a hard limit ends a group in front of the list. -/
theorem endsPart_of_introduction {buffer : List PlacedUnit} {previous entry : PlacedUnit}
    (htype : previous.2.elementType = .paragraph) (hcolon : previous.2.text.getLast? = some ':')
    (hlist : isListType entry.2.elementType = true)
    (htitles : previous.2.hierarchy = entry.2.hierarchy)
    (hhard : splitter.exceedsHard (unitsOf (buffer ++ [previous]) ++ [entry.2]) = false) :
    splitter.endsPart (buffer ++ [previous]) entry = false := by
  have hheading : entry.2.elementType ≠ .heading :=
    (Introduces.not_table_of_isListType hlist).2.1
  have hlast : (unitsOf (buffer ++ [previous])).getLast? = some previous.2 := by
    rw [unitsOf_append]
    exact List.getLast?_concat
  have hsafe : atSafeBoundary previous.2 entry.2 = false := by
    rw [atSafeBoundary, if_pos ⟨htype, hcolon, hlist⟩]
  have hstrong : atStrongBoundary previous.2 entry.2 = false := by
    rw [atStrongBoundary, htitles]
    simpa using hheading
  rw [endsPart, endsGroup, decide_eq_false hheading, Bool.false_and, Bool.false_or, boundaryReason,
    hhard, hlast, Option.any_some, Option.any_some, hsafe, hstrong]
  simp

/-- The introduction of a list is shown with every unit of the list, and its last unit is in
one fragment with the first unit of the list unless the buffer and that unit exceed a hard
limit. -/
theorem split_listIntroductions (splitter : LogicalSplitter)
    (hrepeat : splitter.profile.repeatListIntro = true) (document : NormalizedDocument)
    (fragments : List LogicalFragment) (h : splitter.split document = .ok fragments) :
    ∃ read runs, splitter.Places document read runs ∧
      List.Forall₂ (splitter.IsMadeOf document) (runs.map List.flatten) fragments ∧
      ∀ p l paragraph item, Introduces (liveElements document) p l paragraph item →
        (∀ (k : Nat) part fragment, (runs.map List.flatten)[k]? = some part →
          fragments[k]? = some fragment → (∃ unit, (l, unit) ∈ part) →
          HoldsIntroduction (elementText paragraph) fragment) ∧
        ∃ before unit entry after, placedUnits read = before ++ (p, unit) :: entry :: after ∧
          p < entry.1 ∧ entry.1 ≤ l ∧ isListType entry.2.elementType = true ∧
          (splitter.exceedsHard
              (unitsOf (Buffered.run splitter.endsPart (before ++ [(p, unit)])).buffer ++
                [entry.2]) = true ∨
            ∃ part ∈ runs.map List.flatten, [(p, unit), entry] <:+: part) := by
  obtain ⟨read, runs, hplaces, hmade⟩ := exists_places h
  refine ⟨read, runs, hplaces, hmade, fun p l paragraph item hintro => ⟨?_, ?_⟩⟩
  · intro k part fragment hpart hfragment hunit
    obtain ⟨unit, hunit⟩ := hunit
    have hmem : (l, unit) ∈ placedUnits read := by
      rw [← Buffered.flatten_parts splitter.endsPart (placedUnits read), ← hplaces.parts,
        List.flatten_flatten]
      exact List.mem_flatten_of_mem (List.mem_of_getElem? hpart) hunit
    have hcontext := syntheticContext_of_introduces hrepeat hplaces.units hintro hmem
    obtain ⟨other, hother, hmadeOf⟩ := Traverse.getElem?_of_forall₂ hmade hpart
    obtain rfl := Option.some.inj (hfragment.symm.trans hother)
    have hne : unit.syntheticContext ≠ [] := by
      intro hnil
      have hcolon := hintro.colon
      rw [← hcontext, hnil] at hcolon
      cases hcolon
    rw [← hcontext]
    exact holdsIntroduction_of_unit hmadeOf hunit hne
  · obtain ⟨before, unit, entry, after, hplaced, htype, hcolon, htitles, hpf, hfl, hlist, -⟩ :=
      exists_neighbours hplaces.units hintro
    refine ⟨before, unit, entry, after, hplaced, hpf, hfl, hlist, ?_⟩
    obtain ⟨front, hbuffer⟩ := exists_buffer_run_concat splitter.endsPart before (p, unit)
    rw [or_iff_not_imp_left, Bool.not_eq_true, hbuffer]
    intro hhard
    have hjoin : splitter.endsPart (Buffered.run splitter.endsPart (before ++ [(p, unit)])).buffer
        entry = false := by
      rw [hbuffer]
      exact endsPart_of_introduction htype hcolon hlist htitles hhard
    have hne : (Buffered.run splitter.endsPart (before ++ [(p, unit)])).buffer ≠ [] := by
      rw [hbuffer]
      exact List.append_ne_nil_of_right_ne_nil _ (List.cons_ne_nil _ _)
    obtain ⟨part, hpart, hprefix⟩ := @Buffered.exists_part_of_join _ splitter.endsPart entry _ after
      hne hjoin
    rw [List.append_assoc, List.singleton_append, ← hplaced, ← hplaces.parts] at hpart
    obtain ⟨run, hrun, hpart⟩ := List.mem_flatten.mp hpart
    refine ⟨run.flatten, List.mem_map_of_mem hrun, ?_⟩
    rw [hbuffer, List.append_assoc, List.singleton_append] at hprefix
    have hneighbours : [(p, unit), entry] <:+: part :=
      (List.suffix_append front _).isInfix.trans hprefix.isInfix
    obtain ⟨some, others, rfl⟩ := List.append_of_mem hpart
    rw [List.flatten_append, List.flatten_cons]
    exact hneighbours.trans ⟨some.flatten, others.flatten, by rw [List.append_assoc]⟩

/-- An introduction, a caption without text and two items. -/
def introducedDocument : NormalizedDocument where
  documentId := 0
  documentVersion := 1
  normalizerProfile := "general"
  normalizerVersion := "1"
  processingFingerprint := "f"
  elements := [
    ⟨"p", .paragraph, 0, some "ab:", none, none, none, none, none, false⟩,
    ⟨"q", .caption, 1, some " ", none, none, none, none, none, false⟩,
    ⟨"r", .listItem, 2, some "c", none, none, none, none, none, false⟩,
    ⟨"s", .listItem, 3, some "d", none, none, none, none, none, false⟩]

theorem introduces_introduced : Introduces (liveElements introducedDocument) 0 2
    ⟨"p", .paragraph, 0, some "ab:", none, none, none, none, none, false⟩
    ⟨"r", .listItem, 2, some "c", none, none, none, none, none, false⟩ where
  before := by decide
  paragraphAt := rfl
  paragraphType := rfl
  colon := by decide
  itemAt := rfl
  itemType := rfl
  itemText := by decide
  between := by
    intro m other hpm hml hother
    obtain rfl : m = 1 := by omega
    obtain rfl := Option.some.inj hother
    exact .inr ⟨by decide, by decide⟩

theorem split_listIntroductions_introduced :
    ∃ fragments read runs, plainSplitter.split introducedDocument = .ok fragments ∧
      plainSplitter.Places introducedDocument read runs ∧
      List.Forall₂ (plainSplitter.IsMadeOf introducedDocument) (runs.map List.flatten) fragments ∧
      ∀ (k : Nat) part fragment, (runs.map List.flatten)[k]? = some part →
        fragments[k]? = some fragment → (∃ unit, (2, unit) ∈ part) →
        HoldsIntroduction "ab:".toList fragment := by
  have hok : (plainSplitter.split introducedDocument).isOk = true := by decide +kernel
  obtain ⟨fragments, hsplit⟩ := except_isOk.mp hok
  obtain ⟨read, runs, hplaces, hmade, hall⟩ :=
    split_listIntroductions plainSplitter rfl introducedDocument fragments hsplit
  exact ⟨fragments, read, runs, hsplit, hplaces, hmade, (hall 0 2 _ _ introduces_introduced).1⟩

end LogicalSplitter

end AstraIndexator
