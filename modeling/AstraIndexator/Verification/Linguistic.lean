import AstraIndexator.Foundation.Spans
import AstraIndexator.Splitter.Sentence

/-!
# Sentence boundaries of a text

The corpus check finds the sentences of a text by searching for each of them behind
the one before, and takes their ends as boundaries.  The sentences the scanner returns
cover the text up to whitespace, so the search finds each of them at its own place.
-/

namespace AstraIndexator

open Text Spans

/-- The loop of `_boundary_offsets`. -/
def boundaryOffsetsFrom (text : List Char) : Nat → List (List Char) → Except String (List Nat)
  | _, [] => .ok []
  | cursor, sentence :: sentences =>
    match findFrom text sentence cursor with
    | none => .error "LINGUISTIC_SENTENCE_NOT_TRACEABLE_TO_SOURCE"
    | some position => do
      let stop := position + sentence.length
      let offsets ← boundaryOffsetsFrom text stop sentences
      .ok (if sentences = [] then offsets else stop :: offsets)

/-- `_boundary_offsets` -/
def boundaryOffsets (text : List Char) (sentences : List (List Char)) : Except String (List Nat) :=
  if sentences.length ≤ 1 then .ok [] else boundaryOffsetsFrom text 0 sentences

/-! ## Located sentences -/

section Located

variable {text : List Char} {sentences : List (List Char)} {spans : List (Nat × Nat)}

/-- The search finds located sentences at their spans. -/
theorem boundaryOffsetsFrom_of_located {cursor : Nat}
    (h : Located isSpace text cursor sentences spans) (hstripped : ∀ s ∈ sentences, Stripped s) :
    boundaryOffsetsFrom text cursor sentences = .ok (spans.dropLast.map Prod.snd) := by
  induction h with
  | nil => rfl
  | @cons cursor start stop sentence sentences spans hcursor hspan hstop hgap hpiece htail ih =>
    have hfind : findFrom text sentence cursor = some start :=
      findFrom_of_gap hcursor hspan hstop hgap hpiece (hstripped sentence List.mem_cons_self).head
    have hlength : start + sentence.length = stop := by
      rw [← hpiece, List.length_drop, List.length_take]
      omega
    have hrest := ih fun s hs => hstripped s (List.mem_cons_of_mem sentence hs)
    rw [boundaryOffsetsFrom, hfind]
    dsimp only
    rw [hlength, hrest]
    have hcount := htail.length_spans
    cases sentences with
    | nil =>
      obtain rfl := List.eq_nil_of_length_eq_zero hcount
      rfl
    | cons s sentences =>
      cases spans with
      | nil => cases hcount
      | cons span spans => rfl

theorem boundaryOffsets_of_located (h : Located isSpace text 0 sentences spans)
    (hstripped : ∀ s ∈ sentences, Stripped s) :
    boundaryOffsets text sentences = .ok (spans.dropLast.map Prod.snd) := by
  rw [boundaryOffsets]
  by_cases hfew : sentences.length ≤ 1
  · have hnil : spans.dropLast = [] := by
      apply List.eq_nil_of_length_eq_zero
      rw [List.length_dropLast, h.length_spans]
      omega
    rw [if_pos hfew, hnil]
    rfl
  · rw [if_neg hfew]
    exact boundaryOffsetsFrom_of_located h hstripped

/-- A stretch of text in front of located sentences, split off or left out when blank. -/
theorem located_sentenceOf {start stop next : Nat} {run : List Char} (hle : start ≤ stop)
    (hrun : text.drop stop = run ++ text.drop next) (hspace : ∀ c ∈ run, isSpace c = true)
    (h : Located isSpace text next sentences spans) :
    ∃ spans, Located isSpace text start (sentenceOf text start stop ++ sentences) spans := by
  obtain ⟨before, behind, hsplit, -, hbefore, hbehind⟩ :=
    exists_stripChars ((text.take stop).drop start)
  have hdrop : text.drop start = before ++ stripChars ((text.take stop).drop start) ++
      (behind ++ run) ++ text.drop next := by
    rw [drop_eq_append text hle, hrun]
    conv_lhs => rw [hsplit]
    simp only [List.append_assoc]
  have hgap : ∀ c ∈ behind ++ run, isSpace c = true := by
    intro c hc
    rcases List.mem_append.mp hc with hc | hc
    · exact hbehind c hc
    · exact hspace c hc
  rw [sentenceOf]
  by_cases hblank : stripChars ((text.take stop).drop start) = []
  · rw [hblank, List.append_nil] at hdrop
    have hwide : ∀ c ∈ before ++ (behind ++ run), isSpace c = true := by
      intro c hc
      rcases List.mem_append.mp hc with hc | hc
      · exact hbefore c hc
      · exact hgap c hc
    rw [hblank]
    exact ⟨spans, h.widen hdrop hwide⟩
  · rw [Words.flush_of_ne_nil hblank]
    exact ⟨_, h.cons_of_drop hdrop hbefore hgap hblank⟩

end Located

/-! ## The scanner -/

section Scanner

variable {unicode : UnicodeText} {text : List Char} {profile : SentenceBoundaryProfile}
  {language : List Char}

/-- The tail behind the last sentence. -/
theorem located_tail (start : Nat) :
    ∃ spans, Located isSpace text start (sentenceOf text start text.length) spans := by
  by_cases hle : start ≤ text.length
  · have hdrop : text.drop text.length = [] ++ text.drop text.length := rfl
    have hnil : Located isSpace text text.length [] [] := by
      apply Located.nil
      intro c hc
      rw [List.drop_length] at hc
      exact absurd hc List.not_mem_nil
    obtain ⟨spans, h⟩ := located_sentenceOf hle hdrop (fun c hc => absurd hc List.not_mem_nil) hnil
    rw [List.append_nil] at h
    exact ⟨spans, h⟩
  · have hnil : sentenceOf text start text.length = [] := by
      rw [sentenceOf, List.take_length, List.drop_eq_nil_of_le (by omega)]
      rfl
    rw [hnil]
    refine ⟨[], .nil fun c hc => ?_⟩
    rw [List.drop_eq_nil_of_le (by omega)] at hc
    exact absurd hc List.not_mem_nil

/-- One turn either moves the cursor or splits off a sentence in front of the others. -/
theorem located_splitFrom {fuel start i : Nat} (h : start ≤ i) :
    ∃ spans, Located isSpace text start (splitFrom unicode text profile language fuel start i)
      spans := by
  induction fuel generalizing start i with
  | zero => exact located_tail start
  | succ fuel ih =>
    rw [splitFrom]
    cases text[i]? with
    | none => exact located_tail start
    | some ch =>
      dsimp only
      have hforward := @forward_scanStep unicode text profile language i ch
      cases hstep : scanStep unicode text profile language i ch with
      | advance next =>
        rw [hstep] at hforward
        have hlt : i < next := hforward
        exact ih (by omega)
      | cut stop next =>
        rw [hstep] at hforward
        obtain ⟨hle, -, run, hrun, hspace⟩ := hforward
        obtain ⟨spans, hlocated⟩ := ih (le_refl next)
        exact located_sentenceOf (h.trans hle) hrun hspace hlocated

/-- The loop of `_split_unicode` with the sentences so far, for so many turns: there is no
result while the cursor is not at the end. -/
def splitLoop (unicode : UnicodeText) (text : List Char) (profile : SentenceBoundaryProfile)
    (language : List Char) : Nat → Nat → Nat → List (List Char) → Option (List (List Char))
  | 0, start, i, out =>
    if i < text.length then none else some (out ++ sentenceOf text start text.length)
  | turns + 1, start, i, out =>
    match text[i]? with
    | none => some (out ++ sentenceOf text start text.length)
    | some ch =>
      match scanStep unicode text profile language i ch with
      | .advance next => splitLoop unicode text profile language turns start next out
      | .cut stop next =>
        splitLoop unicode text profile language turns next next (out ++ sentenceOf text start stop)

/-- The loop is done after as many turns as there are characters left. -/
theorem splitLoop_eq {turns start i : Nat} {out : List (List Char)} (h : text.length ≤ i + turns) :
    splitLoop unicode text profile language turns start i out =
      some (out ++ splitFrom unicode text profile language turns start i) := by
  induction turns generalizing start i out with
  | zero => rw [splitLoop, if_neg (by omega), splitFrom]
  | succ turns ih =>
    rw [splitLoop, splitFrom]
    cases text[i]? with
    | none => rfl
    | some ch =>
      dsimp only
      have hforward := @forward_scanStep unicode text profile language i ch
      cases hstep : scanStep unicode text profile language i ch with
      | advance next =>
        rw [hstep] at hforward
        have hlt : i < next := hforward
        exact ih (by omega)
      | cut stop next =>
        rw [hstep] at hforward
        have hlt : i < next := hforward.2.1
        dsimp only
        rw [ih (by omega), List.append_assoc]

theorem splitFrom_of_le {turns : Nat} (h : text.length ≤ turns) :
    splitFrom unicode text profile language turns 0 0 =
      splitFrom unicode text profile language text.length 0 0 := by
  induction turns, h using Nat.le_induction with
  | base => rfl
  | succ turns hle ih => rw [splitFrom_fuel (by omega), ih]

theorem located_splitUnicode (unicode : UnicodeText) (text : List Char)
    (languageHint : Option String) :
    ∃ spans, Located isSpace text 0 (splitUnicode unicode text languageHint) spans :=
  located_splitFrom (le_refl 0)

end Scanner

/-- The scanner ends within as many turns as the text has characters.  Its sentences are
stripped, not empty and lie in the text in order with whitespace only around them, and the
search for their boundaries finds the ends of all but the last. -/
theorem splitUnicode_partition (unicode : UnicodeText) (text : List Char)
    (languageHint : Option String) :
    (∀ turns, text.length ≤ turns →
      splitLoop unicode text (SentenceBoundary.profileFor languageHint)
        (SentenceBoundary.primaryLanguage languageHint) turns 0 0 [] =
          some (splitUnicode unicode text languageHint)) ∧
    (∀ s ∈ splitUnicode unicode text languageHint, s ≠ [] ∧ Stripped s) ∧
    ∃ spans, Located isSpace text 0 (splitUnicode unicode text languageHint) spans ∧
      boundaryOffsets text (splitUnicode unicode text languageHint) =
        .ok (spans.dropLast.map Prod.snd) := by
  have hstripped : ∀ s ∈ splitUnicode unicode text languageHint, Stripped s ∧ s ≠ [] :=
    stripped_splitFrom
  refine ⟨fun turns h => ?_, fun s hs => (hstripped s hs).symm, ?_⟩
  · rw [splitLoop_eq (by omega), List.nil_append, splitFrom_of_le h, splitUnicode]
  · obtain ⟨spans, hlocated⟩ := located_splitUnicode unicode text languageHint
    exact ⟨spans, hlocated, boundaryOffsets_of_located hlocated fun s hs => (hstripped s hs).1⟩

/-! ## Either backend -/

section Backends

variable {unicode : UnicodeText} {text : List Char}

/-- Pieces of a text, stripped and left out when blank. -/
theorem located_flatMap_flush {cursor : Nat} {pieces : List (List Char)}
    (h : text.drop cursor = pieces.flatten) :
    ∃ spans, Located isSpace text cursor
      (pieces.flatMap fun piece => Words.flush (stripChars piece)) spans := by
  induction pieces generalizing cursor with
  | nil =>
    refine ⟨[], .nil fun c hc => ?_⟩
    rw [h] at hc
    exact absurd hc List.not_mem_nil
  | cons piece pieces ih =>
    have hbehind : text.drop (cursor + piece.length) = pieces.flatten := by
      rw [← List.drop_drop, h, List.flatten_cons, List.drop_left]
    have hpiece : (text.take (cursor + piece.length)).drop cursor = piece := by
      rw [List.drop_take, Nat.add_sub_cancel_left, h, List.flatten_cons, List.take_left]
    obtain ⟨spans, hlocated⟩ := ih hbehind
    have hsentence := located_sentenceOf (Nat.le_add_right cursor piece.length)
      (List.nil_append (text.drop (cursor + piece.length))).symm
      (fun c hc => absurd hc List.not_mem_nil) hlocated
    rw [sentenceOf, hpiece] at hsentence
    exact hsentence

/-- The search for the boundaries of the sentences of a text never fails. -/
theorem boundaryOffsets_splitSentences (backend : SentenceBackend) (languageHint : Option String) :
    ∃ spans, Located isSpace text 0 (splitSentences unicode backend languageHint text) spans ∧
      boundaryOffsets text (splitSentences unicode backend languageHint text) =
        .ok (spans.dropLast.map Prod.snd) := by
  have hlocated : ∃ spans,
      Located isSpace text 0 (splitSentences unicode backend languageHint text) spans := by
    rw [splitSentences.eq_def]
    by_cases hblank : stripChars text = []
    · rw [if_pos hblank]
      exact ⟨[], .nil (isSpace_of_stripChars_eq_nil hblank)⟩
    · rw [if_neg hblank]
      cases backend with
      | unicode => exact located_splitUnicode unicode text languageHint
      | icu => exact located_flatMap_flush (unicode.icuSentences_flatten languageHint text).symm
  obtain ⟨spans, hlocated⟩ := hlocated
  exact ⟨spans, hlocated, boundaryOffsets_of_located hlocated
    fun s hs => (stripped_splitSentences s hs).1⟩

end Backends

end AstraIndexator
