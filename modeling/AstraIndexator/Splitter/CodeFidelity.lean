import AstraIndexator.Splitter.Limits
import AstraIndexator.Splitter.Placement
import AstraIndexator.Foundation.Traverse
import Mathlib.Algebra.Order.BigOperators.Group.List
import Mathlib.Algebra.Order.Group.Nat

/-!
# Code blocks

A text within the limits is cut into sentences that are joined again with blanks.  A code
block stands in its fragment as it is exactly when that gives its text back.
-/

namespace AstraIndexator

open Text Transaction

/-- The words of a text, as whitespace separates them. -/
abbrev wordsOf (text : List Char) : List (List Char) := Words.words isSpace text

theorem wordsOf_joinWith {sep : Char} (hsep : isSpace sep = true) (parts : List (List Char)) :
    wordsOf (joinWith sep parts) = parts.flatMap wordsOf := Words.words_intercalate hsep parts

theorem wordsOf_append {c : Char} (hc : isSpace c = true) (a b : List Char) :
    wordsOf (a ++ c :: b) = wordsOf a ++ wordsOf b := Words.words_append_sep hc a b

/-- A word is its only word. -/
theorem wordsOf_mem {text word : List Char} (h : word ∈ wordsOf text) : wordsOf word = [word] := by
  obtain ⟨hne, hword⟩ := Words.mem_words h
  rw [wordsOf, Words.words_of_not hword, Words.flush_of_ne_nil hne]

theorem length_le_of_mem_wordsOf {text word : List Char} (h : word ∈ wordsOf text) :
    word.length ≤ text.length := by
  have hflat := (List.sublist_flatten_of_mem h).length_le
  rw [wordsOf, Words.words_flatten] at hflat
  exact hflat.trans (List.length_filter_le _ text)

/-- The length of joined parts, with a separator behind each of them. -/
theorem length_joinWith {sep : Char} {parts : List (List Char)} (h : parts ≠ []) :
    (joinWith sep parts).length + 1 = (parts.map fun part => part.length + 1).sum := by
  induction parts with
  | nil => exact absurd rfl h
  | cons part parts ih =>
    by_cases hnil : parts = []
    · rw [hnil]
      simp [joinWith]
    · have hcons : joinWith sep (part :: parts) = part ++ [sep] ++ joinWith sep parts :=
        List.intercalate_cons_of_ne_nil hnil
      rw [hcons, List.map_cons, List.sum_cons, ← ih hnil]
      simp only [List.length_append, List.length_singleton]
      omega

namespace LogicalSplitter

variable {splitter : LogicalSplitter} {language : Option String} {text : List Char}

/-! ## Words of chunks -/

/-- The words of the chunks and of the one that is not complete. -/
def packedWords {α : Type} (view : α → List Char) (packing : Packing α) : List (List Char) :=
  packing.chunks.flatMap (fun chunk => wordsOf (view chunk)) ++ packing.current.flatMap wordsOf

theorem packedWords_closed {α : Type} {view : α → List Char} {finish : List (List Char) → α}
    (hfinish : ∀ parts, wordsOf (view (finish parts)) = parts.flatMap wordsOf)
    (packing : Packing α) :
    (packing.closed finish).flatMap (fun chunk => wordsOf (view chunk)) =
      packedWords view packing := by
  rw [Packing.closed, packedWords]
  by_cases hnil : packing.current = []
  · rw [if_pos hnil, hnil, List.flatMap_nil, List.append_nil]
  · rw [if_neg hnil, List.flatMap_append, List.flatMap_singleton, hfinish]

theorem packedWords_forceStep {packing packing' : Packing (List Char)} {word : List Char}
    (hword : wordsOf word = [word]) (hshort : word.length ≤ splitter.profile.hardMaxChars)
    (h : splitter.forceStep language packing word = .ok packing') :
    packedWords id packing' = packedWords id packing ++ [word] := by
  have hfinish : ∀ parts, wordsOf (id (joinWith ' ' parts)) = parts.flatMap wordsOf :=
    fun parts => wordsOf_joinWith (by decide) parts
  rw [forceStep, if_neg (Nat.not_lt_of_le hshort)] at h
  split at h
  · obtain rfl := Except.ok.inj h
    rw [packedWords, packedWords_closed hfinish, List.flatMap_singleton, hword]
  · obtain rfl := Except.ok.inj h
    rw [packedWords, packedWords, List.flatMap_append, List.flatMap_singleton, hword,
      List.append_assoc]

/-- Cutting at words keeps the words. -/
theorem words_forceTextChunks {chunks : List (List Char)} (hne : wordsOf text ≠ [])
    (hshort : ∀ word ∈ wordsOf text, word.length ≤ splitter.profile.hardMaxChars)
    (h : splitter.forceTextChunks language text = .ok chunks) :
    chunks.flatMap wordsOf = wordsOf text := by
  have hfinish : ∀ parts, wordsOf (id (joinWith ' ' parts)) = parts.flatMap wordsOf :=
    fun parts => wordsOf_joinWith (by decide) parts
  rw [forceTextChunks, if_neg hne] at h
  obtain ⟨packing, hrun, h⟩ := except_bind_ok.mp h
  obtain rfl := Except.ok.inj h
  have hrunWords : ∀ (rest : List (List Char)) (start packing : Packing (List Char)),
      (∀ word ∈ rest, wordsOf word = [word] ∧
        word.length ≤ splitter.profile.hardMaxChars) →
      rest.foldlM (splitter.forceStep language) start = .ok packing →
      packedWords id packing = packedWords id start ++ rest := by
    intro rest
    induction rest with
    | nil =>
      intro start packing _ hrun
      obtain rfl := Except.ok.inj hrun
      rw [List.append_nil]
    | cons word rest ih =>
      intro start packing hrest hrun
      obtain ⟨⟨hword, hle⟩, hrest⟩ := List.forall_mem_cons.mp hrest
      rw [List.foldlM_cons] at hrun
      obtain ⟨next, hnext, hrun⟩ := except_bind_ok.mp hrun
      rw [ih next packing hrest hrun, packedWords_forceStep hword hle hnext, List.append_assoc,
        List.singleton_append]
  have hpacked := hrunWords _ _ _ (fun word hword => ⟨wordsOf_mem hword, hshort word hword⟩) hrun
  have hclosed := packedWords_closed hfinish packing
  rw [hpacked] at hclosed
  exact hclosed

theorem wordsOf_wholeSentences (sentences : List (List Char)) :
    wordsOf (wholeSentences sentences).text = sentences.flatMap wordsOf := by
  show wordsOf (stripChars (joinWith ' ' sentences)) = _
  rw [wordsOf, words_stripChars]
  exact wordsOf_joinWith (by decide) sentences

theorem packedWords_textStep {packing packing' : Packing TextChunk} {sentence : List Char}
    (hne : wordsOf sentence ≠ [])
    (hshort : ∀ word ∈ wordsOf sentence, word.length ≤ splitter.profile.hardMaxChars)
    (h : splitter.textStep language packing sentence = .ok packing') :
    packedWords TextChunk.text packing' =
      packedWords TextChunk.text packing ++ wordsOf sentence := by
  rw [textStep] at h
  split at h
  · obtain ⟨pieces, hpieces, h⟩ := except_bind_ok.mp h
    obtain rfl := Except.ok.inj h
    rw [packedWords, List.flatMap_append, packedWords_closed wordsOf_wholeSentences,
      List.flatMap_map, List.flatMap_nil, List.append_nil]
    exact congrArg _ (words_forceTextChunks hne hshort hpieces)
  · split at h
    · obtain rfl := Except.ok.inj h
      rw [packedWords, packedWords_closed wordsOf_wholeSentences, List.flatMap_singleton]
    · obtain rfl := Except.ok.inj h
      rw [packedWords, packedWords, List.flatMap_append, List.flatMap_singleton, List.append_assoc]

/-- The chunks of a text have the words of its sentences. -/
theorem words_textChunks {chunks : List TextChunk}
    (hsentences : ∀ sentence ∈ splitter.sentencesOf language text, wordsOf sentence ≠ [] ∧
      ∀ word ∈ wordsOf sentence, word.length ≤ splitter.profile.hardMaxChars)
    (h : splitter.textChunks language text = .ok chunks) :
    chunks.flatMap (fun chunk => wordsOf chunk.text) =
      (splitter.sentencesOf language text).flatMap wordsOf := by
  rw [textChunks] at h
  obtain ⟨packing, hrun, h⟩ := except_bind_ok.mp h
  obtain rfl := Except.ok.inj h
  rw [packedWords_closed wordsOf_wholeSentences]
  have hrunWords : ∀ (rest : List (List Char)) (start packing : Packing TextChunk),
      (∀ sentence ∈ rest, wordsOf sentence ≠ [] ∧
        ∀ word ∈ wordsOf sentence, word.length ≤ splitter.profile.hardMaxChars) →
      rest.foldlM (splitter.textStep language) start = .ok packing →
      packedWords TextChunk.text packing =
        packedWords TextChunk.text start ++ rest.flatMap wordsOf := by
    intro rest
    induction rest with
    | nil =>
      intro start packing _ hrun
      obtain rfl := Except.ok.inj hrun
      rw [List.flatMap_nil, List.append_nil]
    | cons sentence rest ih =>
      intro start packing hrest hrun
      obtain ⟨⟨hne, hshort⟩, hrest⟩ := List.forall_mem_cons.mp hrest
      rw [List.foldlM_cons] at hrun
      obtain ⟨next, hnext, hrun⟩ := except_bind_ok.mp hrun
      rw [ih next packing hrest hrun, packedWords_textStep hne hshort hnext, List.flatMap_cons,
        List.append_assoc]
  exact hrunWords _ _ _ hsentences hrun

/-! ## Counts -/

/-- The count of a text is that of its words. -/
theorem countWords_eq_sum (hwords : splitter.SeparatesWords) (text : List Char) :
    (splitter.countWords language text).1 =
      ((wordsOf text).map fun word => (splitter.countWords language word).1).sum := by
  induction hn : text.length using Nat.strongRecOn generalizing text with
  | ind n ih =>
    subst hn
    by_cases hspace : ∃ c ∈ text, isSpace c = true
    · obtain ⟨c, hc, hsep⟩ := hspace
      obtain ⟨a, b, rfl⟩ := List.append_of_mem hc
      have hlength : (a ++ c :: b).length = a.length + b.length + 1 := by
        rw [List.length_append, List.length_cons]
        omega
      rw [hwords language c hsep, ih a.length (by omega) a rfl, ih b.length (by omega) b rfl,
        wordsOf_append hsep, List.map_append, List.sum_append]
    · have hnone : ∀ c ∈ text, isSpace c = false := fun c hc =>
        Bool.eq_false_iff.mpr fun hsep => hspace ⟨c, hc, hsep⟩
      rw [wordsOf, Words.words_of_not hnone]
      cases text with
      | nil => rfl
      | cons c text => simp [Words.flush]

/-- The count of texts with the same words is the same. -/
theorem countWords_eq_of_words (hwords : splitter.SeparatesWords) {parts : List (List Char)}
    (h : wordsOf text = parts.flatMap wordsOf) :
    (splitter.countWords language text).1 =
      (parts.map fun part => (splitter.countWords language part).1).sum := by
  rw [countWords_eq_sum hwords, h]
  clear h
  induction parts with
  | nil => rfl
  | cons part parts ih =>
    rw [List.flatMap_cons, List.map_append, List.sum_append, ih, List.map_cons, List.sum_cons,
      countWords_eq_sum hwords part]

/-! ## Sentences of a text -/

/-- What is stripped of a stretch of the text is in it. -/
theorem stripChars_isSlice (l : List Char) : stripChars l <:+: l := by
  obtain ⟨start, stop, hsplit, -⟩ := exists_stripChars l
  exact ⟨start, stop, hsplit.symm⟩

theorem flush_isSlice {l m : List Char} (h : m ∈ Words.flush (stripChars l)) : m <:+: l := by
  obtain ⟨rfl, -⟩ := mem_flush h
  exact stripChars_isSlice l

theorem infix_splitFrom {unicode : UnicodeText} {profile : SentenceBoundaryProfile}
    {primary : List Char} {fuel start i : Nat} :
    ∀ sentence ∈ splitFrom unicode text profile primary fuel start i, sentence <:+: text := by
  have hsentence : ∀ start stop, ∀ sentence ∈ sentenceOf text start stop, sentence <:+: text := by
    intro start stop sentence h
    have hslice : (text.take stop).drop start <:+: text :=
      (List.drop_suffix start _).isInfix.trans (List.take_prefix stop text).isInfix
    exact (flush_isSlice h).trans hslice
  induction fuel generalizing start i with
  | zero => exact hsentence start text.length
  | succ fuel ih =>
    rw [splitFrom]
    cases text[i]? with
    | none => exact hsentence start text.length
    | some ch =>
      dsimp only
      cases scanStep unicode text profile primary i ch with
      | advance next => exact ih
      | cut stop next =>
        intro sentence h
        rcases List.mem_append.mp h with h | h
        · exact hsentence start stop sentence h
        · exact ih sentence h

/-- A sentence stands in the text, is stripped and is not empty. -/
theorem sentencesOf_spec (htext : Stripped text) (hne : text ≠ []) :
    ∀ sentence ∈ splitter.sentencesOf language text,
      sentence <:+: text ∧ Stripped sentence ∧ sentence ≠ [] := by
  intro sentence h
  rw [sentencesOf] at h
  split at h
  · obtain rfl := List.mem_singleton.mp h
    exact ⟨List.infix_refl _, htext, hne⟩
  · refine ⟨?_, stripped_splitSentences sentence h⟩
    rw [splitSentences.eq_def] at h
    split at h
    · exact absurd h List.not_mem_nil
    · split at h
      · exact infix_splitFrom sentence h
      · obtain ⟨piece, hpiece, h⟩ := List.mem_flatMap.mp h
        refine (flush_isSlice h).trans ?_
        rw [← splitter.unicode.icuSentences_flatten language text]
        obtain ⟨front, back, hsplit⟩ := List.append_of_mem hpiece
        rw [hsplit, List.flatten_append, List.flatten_cons]
        exact ⟨front.flatten, back.flatten, by rw [List.append_assoc]⟩

theorem sentencesOf_ne_nil : splitter.sentencesOf language text ≠ [] := by
  rw [sentencesOf]
  split
  · exact List.cons_ne_nil text []
  · rename_i hne
    exact hne

/-- Stripped texts joined with blanks are a stripped text. -/
theorem stripped_joinWith {parts : List (List Char)}
    (h : ∀ part ∈ parts, Stripped part ∧ part ≠ []) : Stripped (joinWith ' ' parts) :=
  stripped_intercalate (fun part hpart => (h part hpart).1)
    (fun part hpart => (h part (List.mem_of_mem_head? hpart)).2)
    (fun part hpart => (h part (List.mem_of_mem_getLast? hpart)).2)

/-- A text whose joined sentences fit becomes one chunk. -/
theorem textChunks_fits (hwords : splitter.SeparatesWords)
    (hsentences : ∀ sentence ∈ splitter.sentencesOf language text,
      Stripped sentence ∧ sentence ≠ [])
    (hfits : splitter.Fits language (joinWith ' ' (splitter.sentencesOf language text)))
    (hcount : (splitter.sentencesOf language text).length ≤ splitter.profile.hardMaxSentences) :
    splitter.textChunks language text =
      .ok [wholeSentences (splitter.sentencesOf language text)] := by
  have hne := @sentencesOf_ne_nil splitter language text
  rw [textChunks]
  generalize splitter.sentencesOf language text = sentences at hsentences hfits hcount hne ⊢
  have hprefix : ∀ front back : List (List Char), front ≠ [] → front ++ back = sentences →
      splitter.Fits language (joinWith ' ' front) := by
    intro front back hfront heq
    by_cases hback : back = []
    · rw [hback, List.append_nil] at heq
      exact heq ▸ hfits
    · rw [← heq, joinWith_append hfront hback] at hfits
      exact hfits.left hwords (by decide)
  have hstep : ∀ front sentence back, front ++ sentence :: back = sentences →
      splitter.textStep language ⟨[], front⟩ sentence = .ok ⟨[], front ++ [sentence]⟩ := by
    intro front sentence back heq
    have hmem : ∀ part ∈ front ++ [sentence], Stripped part ∧ part ≠ [] := by
      intro part hpart
      apply hsentences
      rw [← heq, List.append_cons]
      exact List.mem_append_left back hpart
    have hall : splitter.Fits language (joinWith ' ' (front ++ [sentence])) :=
      hprefix (front ++ [sentence]) back (by simp) (by rw [← heq, ← List.append_cons])
    have hself : splitter.Fits language sentence := by
      by_cases hfront : front = []
      · rw [hfront] at hall
        simpa [joinWith] using hall
      · rw [joinWith_append hfront (List.cons_ne_nil sentence [])] at hall
        simpa [joinWith] using hall.right hwords (by decide)
    have hlength : front.length + 1 ≤ splitter.profile.hardMaxSentences := by
      have := congrArg List.length heq
      rw [List.length_append, List.length_cons] at this
      omega
    rw [textStep, if_neg hself.not_oversized, if_neg]
    rw [(stripped_joinWith hmem).eq]
    rintro ⟨-, hlong | hmany⟩
    · exact hall.not_oversized hlong
    · exact absurd hmany (Nat.not_lt_of_le hlength)
  have hrun : ∀ back front, front ++ back = sentences →
      back.foldlM (splitter.textStep language) ⟨[], front⟩ = .ok ⟨[], sentences⟩ := by
    intro back
    induction back with
    | nil =>
      intro front heq
      rw [List.append_nil] at heq
      rw [heq]
      rfl
    | cons sentence back ih =>
      intro front heq
      rw [List.foldlM_cons, hstep front sentence back heq, except_ok_bind]
      exact ih (front ++ [sentence]) (by rw [← heq, ← List.append_cons])
  rw [hrun sentences [] (List.nil_append sentences), except_ok_bind, Packing.closed, if_neg hne]
  rfl

/-- Where no sentence is cut, the chunks are groups of sentences. -/
theorem textChunks_groups {chunks : List TextChunk}
    (hfits : ∀ sentence ∈ splitter.sentencesOf language text,
      ¬ splitter.Oversized language sentence)
    (h : splitter.textChunks language text = .ok chunks) :
    ∃ groups : List (List (List Char)), chunks = groups.map wholeSentences ∧
      groups.flatten = splitter.sentencesOf language text ∧ ∀ group ∈ groups, group ≠ [] := by
  rw [textChunks] at h
  obtain ⟨packing, hrun, h⟩ := except_bind_ok.mp h
  obtain rfl := Except.ok.inj h
  have hgroups : ∀ (rest : List (List Char)) (start packing : Packing TextChunk)
      (groups : List (List (List Char))),
      (∀ sentence ∈ rest, ¬ splitter.Oversized language sentence) →
      start.chunks = groups.map wholeSentences → (∀ group ∈ groups, group ≠ []) →
      rest.foldlM (splitter.textStep language) start = .ok packing →
      ∃ groups' : List (List (List Char)),
        packing.chunks = groups'.map wholeSentences ∧ (∀ group ∈ groups', group ≠ []) ∧
        groups'.flatten ++ packing.current = groups.flatten ++ start.current ++ rest := by
    intro rest
    induction rest with
    | nil =>
      intro start packing groups _ hstart hne hrun
      obtain rfl := Except.ok.inj hrun
      exact ⟨groups, hstart, hne, (List.append_nil _).symm⟩
    | cons sentence rest ih =>
      intro start packing groups hfits hstart hne hrun
      obtain ⟨hfit, hfits⟩ := List.forall_mem_cons.mp hfits
      rw [List.foldlM_cons] at hrun
      obtain ⟨next, hnext, hrun⟩ := except_bind_ok.mp hrun
      rw [textStep, if_neg hfit] at hnext
      split at hnext
      · rename_i hfull
        obtain rfl := Except.ok.inj hnext
        obtain ⟨groups', hchunks, hne', hflat⟩ := ih _ packing (groups ++ [start.current]) hfits
          (by rw [Packing.closed, if_neg hfull.1, hstart, List.map_append]; rfl)
          (by
            intro group hgroup
            rcases List.mem_append.mp hgroup with hgroup | hgroup
            · exact hne group hgroup
            · exact List.mem_singleton.mp hgroup ▸ hfull.1) hrun
        exact ⟨groups', hchunks, hne', by rw [hflat]; simp⟩
      · obtain rfl := Except.ok.inj hnext
        obtain ⟨groups', hchunks, hne', hflat⟩ := ih
          ⟨start.chunks, start.current ++ [sentence]⟩ packing groups hfits hstart hne hrun
        exact ⟨groups', hchunks, hne', by rw [hflat]; simp⟩
  obtain ⟨groups, hchunks, hne, hflat⟩ :=
    hgroups _ _ _ [] hfits rfl (List.forall_mem_nil _) hrun
  rw [List.flatten_nil, List.append_nil, List.nil_append] at hflat
  by_cases hnil : packing.current = []
  · refine ⟨groups, by rw [Packing.closed, if_pos hnil, hchunks], ?_, hne⟩
    rw [← hflat, hnil, List.append_nil]
  · refine ⟨groups ++ [packing.current], ?_, ?_, ?_⟩
    · rw [Packing.closed, if_neg hnil, hchunks, List.map_append]
      rfl
    · rw [← hflat, List.flatten_append, List.flatten_singleton]
    · intro group hgroup
      rcases List.mem_append.mp hgroup with hgroup | hgroup
      · exact hne group hgroup
      · exact List.mem_singleton.mp hgroup ▸ hnil

/-- The text is within the limits of characters, words and sentences. -/
structure WithinLimits (splitter : LogicalSplitter) (language : Option String)
    (text : List Char) : Prop where
  fits : splitter.Fits language text
  sentences : (splitter.sentencesOf language text).length ≤ splitter.profile.hardMaxSentences

/-- Joining the sentences gives the text back. -/
def Rejoins (splitter : LogicalSplitter) (language : Option String) (text : List Char) : Prop :=
  (wholeSentences (splitter.sentencesOf language text)).text = text

/-- A stripped text that is not empty has words. -/
theorem wordsOf_ne_nil (hstripped : Stripped text) (hne : text ≠ []) : wordsOf text ≠ [] := by
  intro hnil
  obtain ⟨c, rest, rfl⟩ := List.exists_cons_of_ne_nil hne
  have hflat : (wordsOf (c :: rest)).flatten = (c :: rest).filter fun c => !isSpace c :=
    Words.words_flatten _
  rw [hnil, List.flatten_nil, List.filter_cons_of_pos (by simp [hstripped.head c rfl])] at hflat
  exact absurd hflat.symm (List.cons_ne_nil _ _)

/-- Texts without characters have no words. -/
theorem flatMap_wordsOf_filter (parts : List (List Char)) :
    (parts.filter fun part => part ≠ []).flatMap wordsOf = parts.flatMap wordsOf := by
  induction parts with
  | nil => rfl
  | cons part parts ih =>
    by_cases hnil : part = []
    · rw [List.filter_cons_of_neg (by simpa using hnil), ih, List.flatMap_cons, hnil]
      rfl
    · rw [List.filter_cons_of_pos (by simpa using hnil), List.flatMap_cons, ih, List.flatMap_cons]

theorem length_sentence_le (htext : Stripped text) (hne : text ≠ [])
    (hlimits : splitter.WithinLimits language text) :
    ∀ sentence ∈ splitter.sentencesOf language text,
      sentence.length ≤ splitter.profile.hardMaxChars := by
  intro sentence hs
  exact (sentencesOf_spec htext hne sentence hs).1.length_le.trans hlimits.fits.1

/-- If the chunks are the text, their words are those of the sentences. -/
theorem words_of_joined (htext : Stripped text) (hne : text ≠ [])
    (hlimits : splitter.WithinLimits language text) {chunks : List TextChunk}
    (h : splitter.textChunks language text = .ok chunks)
    (hjoined : joinWith '\n' ((chunks.map TextChunk.text).filter fun chunk => chunk ≠ []) = text) :
    wordsOf text = (splitter.sentencesOf language text).flatMap wordsOf := by
  have hsome : ∀ sentence ∈ splitter.sentencesOf language text, wordsOf sentence ≠ [] ∧
      ∀ word ∈ wordsOf sentence, word.length ≤ splitter.profile.hardMaxChars := by
    intro sentence hs
    obtain ⟨-, hstripped, hsne⟩ := sentencesOf_spec htext hne sentence hs
    refine ⟨wordsOf_ne_nil hstripped hsne, fun word hword => ?_⟩
    exact (length_le_of_mem_wordsOf hword).trans (length_sentence_le htext hne hlimits sentence hs)
  rw [← words_textChunks hsome h]
  conv_lhs => rw [← hjoined]
  rw [wordsOf_joinWith (by decide), flatMap_wordsOf_filter, List.flatMap_map]

/-- Joining the groups of some parts takes as many characters as joining the parts. -/
theorem length_joinWith_groups {sep inner : Char} {groups : List (List (List Char))}
    (hgroups : ∀ group ∈ groups, group ≠ []) (hne : groups ≠ []) :
    (joinWith sep (groups.map (joinWith inner))).length =
      (joinWith inner groups.flatten).length := by
  have hflat : groups.flatten ≠ [] := by
    obtain ⟨group, rest, rfl⟩ := List.exists_cons_of_ne_nil hne
    rw [List.flatten_cons]
    exact List.append_ne_nil_of_left_ne_nil (hgroups group List.mem_cons_self) _
  have houter := @length_joinWith sep (groups.map (joinWith inner)) (by simpa using hne)
  have hinner := @length_joinWith inner groups.flatten hflat
  have hsame : groups.map ((fun part : List Char => part.length + 1) ∘ joinWith inner) =
      groups.map (List.sum ∘ List.map fun part : List Char => part.length + 1) :=
    List.map_congr_left fun group hgroup => length_joinWith (hgroups group hgroup)
  rw [List.map_map, hsame] at houter
  rw [List.map_flatten, List.sum_flatten, List.map_map] at hinner
  omega

/-- If the chunks are the text, the joined sentences fit too. -/
theorem fits_of_joined (hwords : splitter.SeparatesWords) (htext : Stripped text)
    (hne : text ≠ []) (hlimits : splitter.WithinLimits language text) {chunks : List TextChunk}
    (h : splitter.textChunks language text = .ok chunks)
    (hjoined : joinWith '\n' ((chunks.map TextChunk.text).filter fun chunk => chunk ≠ []) = text) :
    splitter.Fits language (joinWith ' ' (splitter.sentencesOf language text)) := by
  have hspec := @sentencesOf_spec splitter language text htext hne
  have hcount := @countWords_eq_of_words splitter language text hwords _
    (words_of_joined htext hne hlimits h hjoined)
  have hfit : ∀ sentence ∈ splitter.sentencesOf language text,
      ¬ splitter.Oversized language sentence := by
    intro sentence hs
    have hle : (splitter.countWords language sentence).1 ≤
        ((splitter.sentencesOf language text).map fun part =>
          (splitter.countWords language part).1).sum :=
      List.le_sum_of_mem (List.mem_map_of_mem hs)
    have hfits : splitter.Fits language sentence := by
      refine ⟨length_sentence_le htext hne hlimits sentence hs, ?_⟩
      have := hlimits.fits.2
      omega
    exact hfits.not_oversized
  obtain ⟨groups, hchunks, hflat, hgroups⟩ := textChunks_groups hfit h
  have hgroupText : ∀ group ∈ groups,
      (wholeSentences group).text = joinWith ' ' group ∧ joinWith ' ' group ≠ [] := by
    intro group hgroup
    have hparts : ∀ part ∈ group, Stripped part ∧ part ≠ [] := by
      intro part hpart
      refine (hspec part ?_).2
      rw [← hflat]
      exact List.mem_flatten_of_mem hgroup hpart
    refine ⟨(stripped_joinWith hparts).eq, fun hnil => ?_⟩
    have hlength := @length_joinWith ' ' group (hgroups group hgroup)
    obtain ⟨part, rest, rfl⟩ := List.exists_cons_of_ne_nil (hgroups group hgroup)
    have hpos := List.length_pos_of_ne_nil (hparts part List.mem_cons_self).2
    rw [hnil, List.map_cons, List.sum_cons, List.length_nil] at hlength
    omega
  have htexts : (chunks.map TextChunk.text).filter (fun chunk => chunk ≠ []) =
      groups.map (joinWith ' ') := by
    rw [hchunks, List.map_map, List.filter_eq_self.mpr]
    · exact List.map_congr_left fun group hgroup => (hgroupText group hgroup).1
    · intro chunk hchunk
      obtain ⟨group, hgroup, rfl⟩ := List.mem_map.mp hchunk
      show decide ((wholeSentences group).text ≠ []) = true
      rw [(hgroupText group hgroup).1]
      exact decide_eq_true (hgroupText group hgroup).2
  have hgne : groups ≠ [] := by
    intro hnil
    rw [hnil] at hflat
    exact sentencesOf_ne_nil hflat.symm
  -- Joining with newlines or with blanks takes the same number of characters.
  have hlength := @length_joinWith_groups '\n' ' ' groups hgroups hgne
  rw [← htexts, hjoined, hflat] at hlength
  refine ⟨by rw [← hlength]; exact hlimits.fits.1, ?_⟩
  have hsentences : wordsOf (joinWith ' ' (splitter.sentencesOf language text)) =
      (splitter.sentencesOf language text).flatMap wordsOf := wordsOf_joinWith (by decide) _
  rw [countWords_eq_of_words hwords hsentences, ← hcount]
  exact hlimits.fits.2

/-- The joined sentences of a text with sentences are stripped and not empty. -/
theorem joined_sentences (htext : Stripped text) (hne : text ≠ []) :
    (wholeSentences (splitter.sentencesOf language text)).text =
        joinWith ' ' (splitter.sentencesOf language text) ∧
      joinWith ' ' (splitter.sentencesOf language text) ≠ [] := by
  have hsentences : ∀ sentence ∈ splitter.sentencesOf language text,
      Stripped sentence ∧ sentence ≠ [] := fun sentence hs =>
    (sentencesOf_spec htext hne sentence hs).2
  refine ⟨(stripped_joinWith hsentences).eq, fun hnil => ?_⟩
  have hwords : (splitter.sentencesOf language text).flatMap wordsOf = [] := by
    rw [← wordsOf_joinWith (show isSpace ' ' = true by decide), hnil]
    rfl
  obtain ⟨sentence, rest, hcons⟩ :=
    List.exists_cons_of_ne_nil (@sentencesOf_ne_nil splitter language text)
  have hmem : sentence ∈ splitter.sentencesOf language text := by
    rw [hcons]
    exact List.mem_cons_self
  obtain ⟨hstripped, hsne⟩ := hsentences sentence hmem
  exact wordsOf_ne_nil hstripped hsne (List.flatMap_eq_nil_iff.mp hwords sentence hmem)

/-- If the joined sentences fit, they are the only chunk with text. -/
theorem filter_chunks_of_fits (hwords : splitter.SeparatesWords) (htext : Stripped text)
    (hne : text ≠ []) (hlimits : splitter.WithinLimits language text) {chunks : List TextChunk}
    (h : splitter.textChunks language text = .ok chunks)
    (hfits : splitter.Fits language (joinWith ' ' (splitter.sentencesOf language text))) :
    (chunks.map TextChunk.text).filter (fun chunk => chunk ≠ []) =
      [joinWith ' ' (splitter.sentencesOf language text)] := by
  have hsentences : ∀ sentence ∈ splitter.sentencesOf language text,
      Stripped sentence ∧ sentence ≠ [] := fun sentence hs =>
    (sentencesOf_spec htext hne sentence hs).2
  obtain ⟨hself, hblank⟩ := @joined_sentences splitter language text htext hne
  have hone := textChunks_fits hwords hsentences hfits hlimits.sentences
  obtain rfl := Except.ok.inj (h.symm.trans hone)
  rw [List.map_singleton, hself]
  exact List.filter_cons_of_pos (decide_eq_true hblank)

/-- If the sentences can be joined again, the text is the only chunk with text. -/
theorem filter_chunks_of_rejoins (hwords : splitter.SeparatesWords) (htext : Stripped text)
    (hne : text ≠ []) (hlimits : splitter.WithinLimits language text) {chunks : List TextChunk}
    (h : splitter.textChunks language text = .ok chunks)
    (hrejoins : splitter.Rejoins language text) :
    (chunks.map TextChunk.text).filter (fun chunk => chunk ≠ []) = [text] := by
  have hself : joinWith ' ' (splitter.sentencesOf language text) = text :=
    (joined_sentences htext hne).1.symm.trans hrejoins
  have hone := filter_chunks_of_fits hwords htext hne hlimits h
    (by rw [hself]; exact hlimits.fits)
  rw [hone, hself]

/-- The chunks with text, on lines of their own, are the text exactly when its sentences can
be joined again. -/
theorem joined_chunks_iff (hwords : splitter.SeparatesWords) (htext : Stripped text)
    (hne : text ≠ []) (hlimits : splitter.WithinLimits language text) {chunks : List TextChunk}
    (h : splitter.textChunks language text = .ok chunks) :
    joinWith '\n' ((chunks.map TextChunk.text).filter fun chunk => chunk ≠ []) = text ↔
      splitter.Rejoins language text := by
  constructor
  · intro hjoined
    have hfits := fits_of_joined hwords htext hne hlimits h hjoined
    rw [filter_chunks_of_fits hwords htext hne hlimits h hfits, joinWith,
      List.intercalate_singleton] at hjoined
    exact (joined_sentences htext hne).1.trans hjoined
  · intro hrejoins
    rw [filter_chunks_of_rejoins hwords htext hne hlimits h hrejoins, joinWith,
      List.intercalate_singleton]

/-! ## The fragment of an element -/

/-- The units of one element in a part. -/
def ownUnits (i : Nat) (part : List PlacedUnit) : List PlacedUnit :=
  part.filter fun entry => entry.1 = i

/-- Exactly one fragment has units of the element, and there they are the text, which stands
in the text of the fragment. -/
def HeldVerbatim (i : Nat) (text : List Char) (parts : List (List PlacedUnit))
    (fragments : List LogicalFragment) : Prop :=
  ∃ (k : Nat) (part : List PlacedUnit) (fragment : LogicalFragment), parts[k]? = some part ∧
    fragments[k]? = some fragment ∧ ownUnits i part ≠ [] ∧
    unitsText (unitsOf (ownUnits i part)) = text ∧ text <:+: fragment.normalizedText.toList ∧
    ∀ (l : Nat) (other : List PlacedUnit), parts[l]? = some other → ownUnits i other ≠ [] → l = k

/-- A text without whitespace at its ends stays when more is stripped. -/
theorem infix_stripChars {l m : List Char} (hm : Stripped m) (hne : m ≠ []) (h : m <:+: l) :
    m <:+: stripChars l := by
  have hdrop : ∀ (w : List Char), (∀ c ∈ w.head?, isSpace c = false) → w ≠ [] →
      ∀ u : List Char, w <:+: u → w <:+: u.dropWhile isSpace := by
    intro w hhead hw u hu
    obtain ⟨front, back, rfl⟩ := hu
    rw [List.append_assoc, List.dropWhile_append]
    split
    · obtain ⟨c, rest, rfl⟩ := List.exists_cons_of_ne_nil hw
      rw [List.cons_append, List.dropWhile_cons_of_neg (by simp [hhead c rfl])]
      exact ⟨[], back, rfl⟩
    · exact ⟨_, back, by rw [List.append_assoc]⟩
  have hfront := hdrop m hm.head hne l h
  have hreverse : m.reverse <:+: (l.dropWhile isSpace).reverse := List.reverse_infix.mpr hfront
  have hback := hdrop m.reverse (by rw [List.head?_reverse]; exact hm.last) (by simpa using hne) _
    hreverse
  rw [stripChars, ← List.reverse_infix, List.reverse_reverse]
  exact hback

/-- The text of a unit stands in the text of its group. -/
theorem infix_unitsText {units : List SplitUnit} {unit : SplitUnit} (h : unit ∈ units) :
    unit.text <:+: unitsText units := infix_joinWith (List.mem_map_of_mem h)

/-- The units of an element are those with its position. -/
theorem ownUnits_placedUnits {read : List (List SplitUnit)} {i : Nat} {units : List SplitUnit}
    (h : read[i]? = some units) :
    ownUnits i (placedUnits read) =
      (units.filter SplitUnit.hasText).map fun unit => (i, unit) := by
  have hentry : ∀ entry : List SplitUnit × Nat,
      ownUnits i ((entry.1.filter SplitUnit.hasText).map fun unit => (entry.2, unit)) =
        if entry.2 = i then (entry.1.filter SplitUnit.hasText).map fun unit => (i, unit)
        else [] := by
    intro entry
    rw [ownUnits, List.filter_map]
    split
    · rename_i heq
      rw [heq, List.filter_eq_self.mpr (by simp)]
    · rename_i hne
      rw [List.filter_eq_nil_iff.mpr (by simpa using fun _ _ _ => hne), List.map_nil]
  have hfrom : ∀ (read : List (List SplitUnit)) (start k : Nat), read[k]? = some units →
      start + k = i → (read.zipIdx start).flatMap (fun entry =>
        if entry.2 = i then (entry.1.filter SplitUnit.hasText).map fun unit => (i, unit) else []) =
        (units.filter SplitUnit.hasText).map fun unit => (i, unit) := by
    intro read
    induction read with
    | nil =>
      intro start k hget
      cases hget
    | cons first read ih =>
      intro start k hget hk
      rw [List.zipIdx_cons, List.flatMap_cons]
      cases k with
      | zero =>
        obtain rfl := Option.some.inj hget
        have hrest : (read.zipIdx (start + 1)).flatMap (fun entry =>
            if entry.2 = i then (entry.1.filter SplitUnit.hasText).map fun unit => (i, unit)
            else ([] : List PlacedUnit)) = [] := by
          rw [List.flatMap_eq_nil_iff]
          intro entry hentry
          have hle := (List.mem_zipIdx hentry).1
          rw [if_neg (by omega)]
        rw [hrest, if_pos (by simpa using hk), List.append_nil]
      | succ k =>
        rw [if_neg (by omega), List.nil_append]
        exact ih (start + 1) k hget (by omega)
  rw [placedUnits, ownUnits, List.filter_flatMap]
  exact (List.flatMap_congr fun entry _ => hentry entry).trans
    (hfrom read 0 i h (Nat.zero_add i))

theorem flatten_ownUnits (i : Nat) (parts : List (List PlacedUnit)) :
    (parts.map (ownUnits i)).flatten = ownUnits i parts.flatten := by
  rw [ownUnits, List.filter_flatten]
  rfl

/-- If one list is the only one that is not empty, it is all there is. -/
theorem flatten_of_unique {α : Type} {ls : List (List α)} {k : Nat} {m : List α}
    (hk : ls[k]? = some m) (hother : ∀ (l : Nat) other, ls[l]? = some other → other ≠ [] → l = k) :
    ls.flatten = m := by
  induction ls generalizing k with
  | nil => cases hk
  | cons first ls ih =>
    rw [List.flatten_cons]
    cases k with
    | zero =>
      obtain rfl := Option.some.inj hk
      have hrest : ls.flatten = [] := by
        rw [List.flatten_eq_nil_iff]
        intro other hmem
        by_contra hne
        obtain ⟨l, hl, hget⟩ := List.getElem_of_mem hmem
        have := hother (l + 1) other (by
          rw [List.getElem?_cons_succ]
          exact List.getElem?_eq_some_iff.mpr ⟨hl, hget⟩) hne
        omega
      rw [hrest, List.append_nil]
    | succ k =>
      have hfirst : first = [] := by
        by_contra hne
        have := hother 0 first rfl hne
        omega
      rw [hfirst, List.nil_append]
      refine ih hk fun l other hl hne => ?_
      have := hother (l + 1) other hl hne
      omega

/-- A single member of all lists is in one of them, and the others are empty. -/
theorem exists_of_flatten_singleton {α : Type} {ls : List (List α)} {a : α}
    (h : ls.flatten = [a]) : ∃ k : Nat, ls[k]? = some [a] ∧
      ∀ (l : Nat) other, ls[l]? = some other → other ≠ [] → l = k := by
  induction ls with
  | nil => cases h
  | cons first ls ih =>
    rw [List.flatten_cons] at h
    cases first with
    | nil =>
      obtain ⟨k, hk, hother⟩ := ih h
      refine ⟨k + 1, hk, fun l other hl hne => ?_⟩
      cases l with
      | zero =>
        obtain rfl := Option.some.inj hl
        exact absurd rfl hne
      | succ l => rw [hother l other hl hne]
    | cons b first =>
      obtain ⟨rfl, hrest⟩ := List.cons.inj h
      obtain ⟨rfl, hnil⟩ := List.append_eq_nil_iff.mp hrest
      refine ⟨0, rfl, fun l other hl hne => ?_⟩
      cases l with
      | zero => rfl
      | succ l =>
        have hmem : other ∈ ls := List.mem_of_getElem? hl
        exact absurd (List.flatten_eq_nil_iff.mp hnil other hmem) hne

theorem map_text_textUnits {element : NormalizedElement} {hierarchy : List (List Char)}
    {context : List Char} {units : List SplitUnit} {chunks : List TextChunk}
    (hchunks : splitter.textChunks element.languageHint text = .ok chunks)
    (h : splitter.textUnits element text hierarchy context = .ok units) :
    units.map SplitUnit.text = chunks.map TextChunk.text := by
  rw [textUnits, hchunks, except_ok_bind] at h
  obtain rfl := Except.ok.inj h
  apply List.ext_getElem?
  intro i
  rw [List.getElem?_map, List.getElem?_map, List.getElem?_mapIdx, Option.map_map]
  rfl

/-- What stands in one part alone is all there is of the element. -/
theorem HeldVerbatim.units {i : Nat} {text : List Char} {parts : List (List PlacedUnit)}
    {fragments : List LogicalFragment} (h : HeldVerbatim i text parts fragments) :
    ownUnits i parts.flatten ≠ [] ∧ unitsText (unitsOf (ownUnits i parts.flatten)) = text := by
  obtain ⟨k, part, fragment, hpart, -, hne, htext, -, hother⟩ := h
  have hall : (parts.map (ownUnits i)).flatten = ownUnits i part := by
    apply @flatten_of_unique _ _ k
    · rw [List.getElem?_map, hpart]
      rfl
    · intro l other hl hne
      rw [List.getElem?_map] at hl
      obtain ⟨otherPart, hotherPart, rfl⟩ := Option.map_eq_some_iff.mp hl
      exact hother l otherPart hotherPart hne
  rw [← flatten_ownUnits, hall]
  exact ⟨hne, htext⟩

/-- An element of a single unit stands in the fragment of the part that has the unit. -/
theorem heldVerbatim_of_unit {document : NormalizedDocument} {i : Nat} {unit : SplitUnit}
    {parts : List (List PlacedUnit)} {fragments : List LogicalFragment}
    (hmade : List.Forall₂ (splitter.IsMadeOf document) parts fragments)
    (hstripped : Stripped unit.text) (hne : unit.text ≠ [])
    (hown : ownUnits i parts.flatten = [(i, unit)]) :
    HeldVerbatim i unit.text parts fragments := by
  rw [← flatten_ownUnits] at hown
  obtain ⟨k, hk, hother⟩ := exists_of_flatten_singleton hown
  rw [List.getElem?_map] at hk
  obtain ⟨part, hpart, hownPart⟩ := Option.map_eq_some_iff.mp hk
  obtain ⟨fragment, hfragment, index, group, hmake, hgroup⟩ :=
    Traverse.getElem?_of_forall₂ hmade hpart
  refine ⟨k, part, fragment, hpart, hfragment, ?_, ?_, ?_, ?_⟩
  · rw [hownPart]
    exact List.cons_ne_nil _ _
  · rw [hownPart, unitsText]
    exact List.intercalate_singleton
  · have hmem : unit ∈ group.units := by
      have hentry : ((i, unit) : PlacedUnit) ∈ ownUnits i part := by
        rw [hownPart]
        exact List.mem_singleton_self _
      rw [hgroup]
      exact List.mem_map_of_mem (List.mem_of_mem_filter hentry)
    have hfragmentText : fragment.normalizedText.toList =
        stripChars (unitsText group.units) := by
      rw [hmake]
      exact String.toList_ofList
    rw [hfragmentText]
    exact infix_stripChars hstripped hne (infix_unitsText hmem)
  · intro l other hl hotherNe
    apply hother l (ownUnits i other) _ hotherNe
    rw [List.getElem?_map, hl]
    rfl

/-- The text of an element stands in one fragment exactly when its sentences can be joined
again. -/
theorem heldVerbatim_iff (hwords : splitter.SeparatesWords) {document : NormalizedDocument}
    {read : List (List SplitUnit)} {runs : List (List (List PlacedUnit))}
    {fragments : List LogicalFragment} (hplaces : splitter.Places document read runs)
    (hmade : List.Forall₂ (splitter.IsMadeOf document) (runs.map List.flatten) fragments)
    {i : Nat} {element : NormalizedElement} (helement : (liveElements document)[i]? = some element)
    (htable : element.type ≠ .table)
    (hlimits : splitter.WithinLimits element.languageHint (elementText element)) :
    HeldVerbatim i (elementText element) (runs.map List.flatten) fragments ↔
      elementText element ≠ [] ∧ splitter.Rejoins element.languageHint (elementText element) := by
  have hstripped : Stripped (elementText element) := stripped_stripChars _
  obtain ⟨hlength, hunitsAt⟩ := @unitsFrom_getElem? splitter [] none (orderedElements document)
    (liveElements document) read rfl hplaces.units
  obtain ⟨units, hget⟩ : ∃ units, read[i]? = some units := by
    have hlt := (List.getElem?_eq_some_iff.mp helement).1
    exact ⟨_, List.getElem?_eq_getElem (by omega)⟩
  have hunits := hunitsAt i element units helement hget
  rw [elementUnits, if_neg htable] at hunits
  -- The parts one after another hold the units of the element.
  have hplaced : (runs.map List.flatten).flatten = placedUnits read := by
    rw [← Buffered.flatten_parts splitter.endsPart (placedUnits read), ← hplaces.parts,
      List.flatten_flatten]
  have hown := ownUnits_placedUnits hget
  rw [← hplaced] at hown
  by_cases hblank : elementText element = []
  · rw [if_pos hblank] at hunits
    obtain rfl := Except.ok.inj hunits
    constructor
    · intro hheld
      exact absurd hown hheld.units.1
    · intro hboth
      exact absurd hblank hboth.1
  · rw [if_neg hblank] at hunits
    obtain ⟨chunks, hchunks, -⟩ := except_bind_ok.mp hunits
    have htexts := map_text_textUnits hchunks hunits
    have hjoined := joined_chunks_iff hwords hstripped hblank hlimits hchunks
    have hfilter : (units.filter SplitUnit.hasText).map SplitUnit.text =
        (chunks.map TextChunk.text).filter fun chunk => chunk ≠ [] := by
      rw [← htexts, List.filter_map]
      rfl
    constructor
    · intro hheld
      refine ⟨hblank, hjoined.mp ?_⟩
      have htext := hheld.units.2
      rw [hown, unitsOf, List.map_map, unitsText] at htext
      rw [← hfilter, ← htext]
      simp
    · rintro ⟨-, hrejoins⟩
      have hmap := hfilter.trans
        (filter_chunks_of_rejoins hwords hstripped hblank hlimits hchunks hrejoins)
      obtain ⟨unit, rest, hunit, htext, hrest⟩ := List.map_eq_cons_iff.mp hmap
      obtain rfl := List.map_eq_nil_iff.mp hrest
      rw [hunit, List.map_singleton] at hown
      rw [← htext] at hstripped hblank ⊢
      exact heldVerbatim_of_unit hmade hstripped hblank hown

/-- A code block of one or of two lines. -/
def codeDocument (code : String) : NormalizedDocument where
  documentId := 0
  documentVersion := 1
  normalizerProfile := "general"
  normalizerVersion := "1"
  processingFingerprint := "f"
  elements := [⟨"c", .codeBlock, 0, some code, none, none, none, none, none, false⟩]

end LogicalSplitter

end AstraIndexator
