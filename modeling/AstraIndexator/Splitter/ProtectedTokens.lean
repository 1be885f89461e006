import AstraIndexator.Splitter.Units

/-!
# Protected tokens

A period inside a URL or an e-mail address ends no sentence, but a question mark or an
ellipsis does.  The tokens stay whole exactly when the scanner does not end a sentence at
such a character inside one of them.
-/

namespace AstraIndexator

open Text

/-- The token has a mark of a URL or of an e-mail address. -/
def isProtectedToken (token : List Char) : Bool :=
  decide ("://".toList <:+: token) || token.contains '@'

def notSpace (c : Char) : Bool := !isSpace c

/-- The characters that are no whitespace in front of a position and behind it. -/
def runAround (text : List Char) (position : Nat) : List Char × List Char :=
  (tailWhile notSpace (text.take position), (text.drop position).takeWhile notSpace)

/-- The position is strictly inside a run of characters that is a protected token. -/
def BreaksToken (text : List Char) (position : Nat) : Prop :=
  (runAround text position).1 ≠ [] ∧ (runAround text position).2 ≠ [] ∧
    isProtectedToken ((runAround text position).1 ++ (runAround text position).2) = true

instance (text : List Char) (position : Nat) : Decidable (BreaksToken text position) :=
  inferInstanceAs (Decidable (_ ∧ _))

/-! ## Words at a boundary -/

section Boundary

variable {a b text : List Char}

theorem isProtectedToken_of_slice (h : a <:+: b) (ha : isProtectedToken a = true) :
    isProtectedToken b = true := by
  simp only [isProtectedToken, Bool.or_eq_true, decide_eq_true_eq, List.contains_iff_mem] at ha ⊢
  exact ha.imp (fun hmark => hmark.trans h) fun hat => h.subset hat

/-- The tail of a text, and what is in front of it. -/
theorem exists_tailWhile (p : Char → Bool) (text : List Char) :
    ∃ init, text = init ++ tailWhile p text ∧ ∀ c ∈ init.getLast?, p c = false := by
  refine ⟨(text.reverse.dropWhile p).reverse, ?_, fun c hc => ?_⟩
  · rw [tailWhile, ← List.reverse_append, List.takeWhile_append_dropWhile, List.reverse_reverse]
  · rw [List.getLast?_reverse] at hc
    have hhead := List.head?_dropWhile_not p text.reverse
    rw [Option.mem_def.mp hc] at hhead
    simpa using hhead

theorem mem_tailWhile {p : Char → Bool} {c : Char} (h : c ∈ tailWhile p text) : p c = true :=
  List.mem_takeWhile_imp (List.mem_reverse.mp h)

/-- A shorter text that ends alike has a shorter tail. -/
theorem tailWhile_suffix (p : Char → Bool) (h : a <:+ b) : tailWhile p a <:+ tailWhile p b := by
  obtain ⟨front, rfl⟩ := h
  rw [tailWhile, tailWhile, List.reverse_suffix, List.reverse_append, List.takeWhile_append]
  split
  · exact (List.takeWhile_prefix p).trans (List.prefix_append _ _)
  · exact List.prefix_rfl

theorem notSpace_of_mem {c : Char} (h : notSpace c = true) : isSpace c = false := by
  simpa [notSpace] using h

theorem isSpace_of_not {c : Char} (h : notSpace c = false) : isSpace c = true := by
  simpa [notSpace] using h

/-- The protected words of a text are those of its parts, unless a protected one is cut. -/
theorem filter_words_append (h : tailWhile notSpace a ≠ [] → b.takeWhile notSpace ≠ [] →
      isProtectedToken (tailWhile notSpace a ++ b.takeWhile notSpace) = false) :
    (Words.words isSpace (a ++ b)).filter isProtectedToken =
      (Words.words isSpace a).filter isProtectedToken ++
        (Words.words isSpace b).filter isProtectedToken := by
  obtain ⟨init, ha, hinit⟩ := exists_tailWhile notSpace a
  generalize hu : tailWhile notSpace a = u at h ha
  generalize hv : b.takeWhile notSpace = v at h
  have hb : b = v ++ b.dropWhile notSpace := by rw [← hv, List.takeWhile_append_dropWhile]
  have hspace : ∀ c ∈ (b.dropWhile notSpace).head?, isSpace c = true := by
    intro c hc
    have hhead := List.head?_dropWhile_not notSpace b
    rw [Option.mem_def.mp hc] at hhead
    exact isSpace_of_not (by simpa using hhead)
  have hfront : ∀ c ∈ init.getLast?, isSpace c = true := fun c hc => isSpace_of_not (hinit c hc)
  have hletters : ∀ c ∈ u, isSpace c = false := by
    intro c hc
    rw [← hu] at hc
    exact notSpace_of_mem (mem_tailWhile hc)
  have hletters' : ∀ c ∈ v, isSpace c = false := by
    intro c hc
    rw [← hv] at hc
    exact notSpace_of_mem (List.mem_takeWhile_imp hc)
  have hwords : Words.words isSpace (a ++ b) = Words.words isSpace init ++
      (Words.flush (u ++ v) ++ Words.words isSpace (b.dropWhile notSpace)) := by
    conv_lhs => rw [ha, hb]
    rw [List.append_assoc, Words.words_append_left hfront, ← List.append_assoc,
      Words.words_append_run (fun c hc => (List.mem_append.mp hc).elim (hletters c) (hletters' c))
        hspace]
  have hwords_a : Words.words isSpace a = Words.words isSpace init ++ Words.flush u := by
    have hrun := @Words.words_append_run Char isSpace u [] hletters (fun c hc => nomatch hc)
    rw [List.append_nil, Words.words_nil, List.append_nil] at hrun
    rw [ha, Words.words_append_left hfront, hrun]
  have hwords_b : Words.words isSpace b =
      Words.flush v ++ Words.words isSpace (b.dropWhile notSpace) := by
    conv_lhs => rw [hb]
    exact Words.words_append_run hletters' hspace
  have hflush : (Words.flush (u ++ v)).filter isProtectedToken =
      (Words.flush u).filter isProtectedToken ++ (Words.flush v).filter isProtectedToken := by
    by_cases hune : u = []
    · rw [hune]
      rfl
    by_cases hvne : v = []
    · rw [hvne, List.append_nil, Words.flush_nil, List.filter_nil, List.append_nil]
    have hnot := h hune hvne
    have hpart : ∀ w, w <:+: u ++ v → w ≠ [] → (Words.flush w).filter isProtectedToken = [] := by
      intro w hw hne
      rw [Words.flush_of_ne_nil hne, List.filter_eq_nil_iff]
      intro token htoken
      obtain rfl := List.mem_singleton.mp htoken
      intro hprotected
      rw [isProtectedToken_of_slice hw hprotected] at hnot
      cases hnot
    rw [hpart _ List.infix_rfl (List.append_ne_nil_of_left_ne_nil hune _),
      hpart u (List.prefix_append u v).isInfix hune, hpart v (List.suffix_append u v).isInfix hvne]
    rfl
  rw [hwords, hwords_a, hwords_b]
  simp only [List.filter_append, hflush, List.append_assoc]

end Boundary

/-! ## The cuts of the scanner -/

section Scanner

variable (unicode : UnicodeText) (text : List Char) (profile : SentenceBoundaryProfile)
  (language : List Char)

/-- Where the sentences end and where the next ones start. -/
def cutsFrom : Nat → Nat → List (Nat × Nat)
  | 0, _ => []
  | fuel + 1, i =>
    match text[i]? with
    | none => []
    | some ch =>
      match scanStep unicode text profile language i ch with
      | .advance next => cutsFrom fuel next
      | .cut stop next => (stop, next) :: cutsFrom fuel next

/-- The sentences between some cuts. -/
def sentencesBetween : Nat → List (Nat × Nat) → List (List Char)
  | start, [] => sentenceOf text start text.length
  | start, (stop, next) :: cuts => sentenceOf text start stop ++ sentencesBetween next cuts

theorem splitFrom_eq (fuel start i : Nat) :
    splitFrom unicode text profile language fuel start i =
      sentencesBetween text start (cutsFrom unicode text profile language fuel i) := by
  induction fuel generalizing start i with
  | zero => rfl
  | succ fuel ih =>
    rw [splitFrom, cutsFrom]
    cases text[i]? with
    | none => rfl
    | some ch =>
      dsimp only
      cases scanStep unicode text profile language i ch with
      | advance next => exact ih start next
      | cut stop next =>
        dsimp only
        rw [ih, sentencesBetween]

/-- Where the scanner goes on. -/
def ScanStep.resume : ScanStep → Nat
  | .advance next => next
  | .cut _ next => next

/-- The positions the scanner stands at. -/
inductive Stands : Nat → Prop
  | start : Stands 0
  | next {i : Nat} {ch : Char} (h : Stands i) (hch : text[i]? = some ch) :
    Stands (scanStep unicode text profile language i ch).resume

variable {unicode text profile language}

/-- A cut is made where the scanner stands. -/
theorem mem_cutsFrom {fuel i : Nat} (hstands : Stands unicode text profile language i)
    {cut : Nat × Nat} (h : cut ∈ cutsFrom unicode text profile language fuel i) :
    ∃ j ch, Stands unicode text profile language j ∧ text[j]? = some ch ∧
      scanStep unicode text profile language j ch = .cut cut.1 cut.2 := by
  induction fuel generalizing i with
  | zero => cases h
  | succ fuel ih =>
    rw [cutsFrom] at h
    cases hch : text[i]? with
    | none =>
      rw [hch] at h
      cases h
    | some ch =>
      rw [hch] at h
      dsimp only at h
      have hnext := hstands.next hch
      cases hstep : scanStep unicode text profile language i ch with
      | advance next =>
        rw [hstep] at h hnext
        exact ih hnext h
      | cut stop next =>
        rw [hstep] at h hnext
        rcases List.mem_cons.mp h with rfl | h
        · exact ⟨i, ch, hstands, hch, hstep⟩
        · exact ih hnext h

/-- A cut in front of a character of a word that is not protected leaves the protected words as
they are. -/
theorem filter_words_cut {start stop next : Nat} (hle : start ≤ stop)
    (hspare : ¬ BreaksToken text stop) {run : List Char}
    (hrun : text.drop stop = run ++ text.drop next) (hspace : ∀ c ∈ run, isSpace c = true) :
    (Words.words isSpace (text.drop start)).filter isProtectedToken =
      (Words.words isSpace ((text.take stop).drop start)).filter isProtectedToken ++
        (Words.words isSpace (text.drop next)).filter isProtectedToken := by
  have hgap : Words.words isSpace (text.drop stop) = Words.words isSpace (text.drop next) := by
    have hends := @Words.words_of_ends Char isSpace run [] hspace (fun c hc => nomatch hc)
      (text.drop next)
    rwa [List.append_nil, ← hrun] at hends
  rw [← hgap, Spans.drop_eq_append _ hle]
  refine filter_words_append fun hleft hright => ?_
  have hsuffix : tailWhile notSpace ((text.take stop).drop start) <:+
      tailWhile notSpace (text.take stop) := tailWhile_suffix notSpace (List.drop_suffix start _)
  have hwhole : tailWhile notSpace (text.take stop) ≠ [] := by
    intro hnil
    rw [hnil] at hsuffix
    exact hleft (List.suffix_nil.mp hsuffix)
  rw [Bool.eq_false_iff]
  intro hprotected
  refine hspare ⟨hwhole, hright, isProtectedToken_of_slice ?_ hprotected⟩
  obtain ⟨front, hfront⟩ := hsuffix
  rw [runAround, ← hfront, List.append_assoc]
  exact (List.suffix_append _ _).isInfix

theorem words_sentenceOf (start stop : Nat) :
    (sentenceOf text start stop).flatMap (Words.words isSpace) =
      Words.words isSpace ((text.take stop).drop start) := by
  rw [← words_stripChars ((text.take stop).drop start), sentenceOf]
  cases stripChars ((text.take stop).drop start) with
  | nil => rfl
  | cons c cs =>
    rw [Words.flush_of_ne_nil (List.cons_ne_nil c cs), List.flatMap_singleton]

/-- Where no cut breaks a protected token, the sentences have the protected words of the text. -/
theorem filter_words_splitFrom {fuel start i : Nat} (h : start ≤ i)
    (hspare : ∀ cut ∈ cutsFrom unicode text profile language fuel i, ¬ BreaksToken text cut.1) :
    ((splitFrom unicode text profile language fuel start i).flatMap
        (Words.words isSpace)).filter isProtectedToken =
      (Words.words isSpace (text.drop start)).filter isProtectedToken := by
  have htail : ((sentenceOf text start text.length).flatMap
      (Words.words isSpace)).filter isProtectedToken =
        (Words.words isSpace (text.drop start)).filter isProtectedToken := by
    rw [words_sentenceOf, List.take_length]
  induction fuel generalizing start i with
  | zero => exact htail
  | succ fuel ih =>
    rw [splitFrom]
    rw [cutsFrom] at hspare
    cases hch : text[i]? with
    | none => exact htail
    | some ch =>
      rw [hch] at hspare
      dsimp only at hspare ⊢
      have hforward := @forward_scanStep unicode text profile language i ch
      cases hstep : scanStep unicode text profile language i ch with
      | advance next =>
        rw [hstep] at hforward hspare
        have hlt : i < next := hforward
        exact ih (by omega) hspare htail
      | cut stop next =>
        rw [hstep] at hforward hspare
        obtain ⟨hle, -, run, hrun, hspace⟩ := hforward
        obtain ⟨hhere, hrest⟩ := List.forall_mem_cons.mp hspare
        have hbehind : ((sentenceOf text next text.length).flatMap
            (Words.words isSpace)).filter isProtectedToken =
              (Words.words isSpace (text.drop next)).filter isProtectedToken := by
          rw [words_sentenceOf, List.take_length]
        dsimp only
        rw [List.flatMap_append, List.filter_append, ih (le_refl next) hrest hbehind,
          words_sentenceOf, ← filter_words_cut (by omega) hhere hrun hspace]

end Scanner

/-! ## The branch that breaks a token -/

section Tokens

variable (unicode : UnicodeText) (text : List Char) (languageHint : Option String)

/-- The cuts of `split_sentences`. -/
def sentenceCuts : List (Nat × Nat) :=
  cutsFrom unicode text (SentenceBoundary.profileFor languageHint)
    (SentenceBoundary.primaryLanguage languageHint) text.length 0

/-- No sentence ends strictly inside a protected token, and the sentences joined by a space have
the protected tokens of the text. -/
def SparesTokens : Prop :=
  (∀ cut ∈ sentenceCuts unicode text languageHint, ¬ BreaksToken text cut.1) ∧
    (Words.words isSpace (joinWith ' ' (splitSentences unicode .unicode languageHint text))).filter
        isProtectedToken =
      (Words.words isSpace text).filter isProtectedToken

variable (profile : SentenceBoundaryProfile) (language : List Char)

/-- Terminal punctuation other than a single period: a question or an exclamation mark, an
ellipsis, or a mark of another script. -/
def IsOtherTerminal (i : Nat) (ch : Char) : Prop :=
  startsAt text "\n\n" i = false ∧
    (isTerminal unicode profile ch = true ∨ startsAt text "..." i = true ∨ ch = '…') ∧
    (ch = '.' → startsAt text "..." i = true)

/-- The end of the punctuation and of the closing characters behind it. -/
def terminalStop (i : Nat) : Nat :=
  scanWhile (isCloser unicode) text
    (punctuationEnd unicode text profile i (startsAt text "..." i))

/-- The sentence goes on behind the punctuation: a quotation is reported, or an ellipsis does not
end it. -/
def GoesOn (i : Nat) (ch : Char) : Prop :=
  looksLikeReportingContinuation unicode text (terminalStop unicode text profile i) language
      (punctuationEnd unicode text profile i (startsAt text "..." i) <
        terminalStop unicode text profile i) = true ∨
    (startsAt text "..." i = true ∨ ch = '…') ∧
      ellipsisIsTerminal unicode text (terminalStop unicode text profile i) language = false

variable {unicode text profile language}

theorem any_of_runAround {position : Nat} (h : (runAround text position).2 ≠ []) :
    (text[position]?.any fun c => !isSpace c) = true := by
  rw [runAround] at h
  rw [← List.head?_drop]
  cases hdrop : text.drop position with
  | nil =>
    rw [hdrop] at h
    exact absurd rfl h
  | cons c rest =>
    rw [hdrop] at h
    cases hspace : isSpace c with
    | true => exact absurd (List.takeWhile_cons_of_neg (by simp [notSpace, hspace])) h
    | false => simp [hspace]

/-- A cut strictly inside a run is made behind terminal punctuation other than a single period,
where the sentence does not go on. -/
theorem scanStep_cut_iff {i stop next : Nat} {ch : Char}
    (hinside : (runAround text stop).2 ≠ []) :
    scanStep unicode text profile language i ch = .cut stop next ↔
      IsOtherTerminal unicode text profile i ch ∧ ¬ GoesOn unicode text profile language i ch ∧
        stop = terminalStop unicode text profile i ∧ next = scanWhile isSpace text stop := by
  rw [scanStep, IsOtherTerminal, GoesOn, terminalStop]
  by_cases hparagraph : startsAt text "\n\n" i = true
  · rw [if_pos hparagraph]
    constructor
    · intro h
      obtain ⟨rfl, -⟩ := ScanStep.cut.inj h
      obtain ⟨rest, hrest⟩ := of_decide_eq_true hparagraph
      have hdrop : text.drop i = '\n' :: '\n' :: rest := hrest.symm
      rw [runAround, hdrop] at hinside
      exact absurd rfl hinside
    · intro h
      obtain ⟨⟨hnot, -⟩, -⟩ := h
      rw [hparagraph] at hnot
      cases hnot
  rw [if_neg hparagraph]
  dsimp only
  generalize startsAt text "..." i = ascii
  generalize punctuationEnd unicode text profile i ascii = punctuation
  generalize hstop : scanWhile (isCloser unicode) text punctuation = fixed
  by_cases hactive : (!isTerminal unicode profile ch && !ascii && !decide (ch = '…')) = true
  · rw [if_pos hactive]
    simp only [Bool.and_eq_true, Bool.not_eq_true', decide_eq_false_iff_not] at hactive
    obtain ⟨⟨hterminal, hascii⟩, hellipsis⟩ := hactive
    simp [hterminal, hascii, hellipsis]
  rw [if_neg hactive]
  have hactive' : isTerminal unicode profile ch = true ∨ ascii = true ∨ ch = '…' := by
    by_contra hnone
    simp only [not_or, Bool.not_eq_true] at hnone
    obtain ⟨hterminal, hascii, hellipsis⟩ := hnone
    exact hactive (by simp [hterminal, hascii, hellipsis])
  by_cases hperiod : ch = '.' → ascii = true
  · have hsingle : ∀ x : Bool, ¬ (decide (ch = '.') && !ascii && x) = true := by
      intro x hx
      simp only [Bool.and_eq_true, decide_eq_true_eq, Bool.not_eq_true'] at hx
      rw [hperiod hx.1.1] at hx
      cases hx.1.2
    have hbehind : ∀ x : Bool, ¬ (x && decide (ch = '.') && !ascii) = true := by
      intro x hx
      simp only [Bool.and_eq_true, decide_eq_true_eq, Bool.not_eq_true'] at hx
      rw [hperiod hx.1.2] at hx
      cases hx.2
    rw [if_neg (hsingle _)]
    by_cases hreport : looksLikeReportingContinuation unicode text fixed language
        (decide (punctuation < fixed)) = true
    · rw [if_pos hreport]
      simp [hreport]
    rw [if_neg hreport]
    by_cases hellipsis : ((ascii || decide (ch = '…')) &&
        !ellipsisIsTerminal unicode text fixed language) = true
    · rw [if_pos hellipsis]
      simp only [Bool.and_eq_true, Bool.or_eq_true, decide_eq_true_eq,
        Bool.not_eq_true'] at hellipsis
      simp [hellipsis]
    · rw [if_neg hellipsis, if_neg (hbehind _)]
      simp only [Bool.and_eq_true, Bool.or_eq_true, decide_eq_true_eq,
        Bool.not_eq_true'] at hellipsis
      constructor
      · intro h
        obtain ⟨rfl, rfl⟩ := ScanStep.cut.inj h
        exact ⟨⟨by simpa using hparagraph, hactive', hperiod⟩, not_or.mpr ⟨hreport, hellipsis⟩,
          rfl, rfl⟩
      · intro h
        obtain ⟨-, -, hfixed, hnext⟩ := h
        rw [hnext, hfixed]
  · obtain ⟨hch, hascii⟩ := Classical.not_imp.mp hperiod
    have hfalse : ascii = false := by simpa using hascii
    subst hch hfalse
    constructor
    · intro h
      exfalso
      split at h
      · cases h
      split at h
      · cases h
      split at h
      · cases h
      split at h
      · cases h
      next hbehind =>
        obtain ⟨rfl, -⟩ := ScanStep.cut.inj h
        exact hbehind (by simp [any_of_runAround hinside])
    · intro h
      obtain ⟨⟨-, -, hnot⟩, -⟩ := h
      cases hnot rfl

/-- The cuts behind a position the scanner stands at are among all cuts. -/
theorem exists_cutsFrom_subset {i : Nat} (h : Stands unicode text profile language i) :
    ∃ fuel, text.length ≤ fuel + i ∧ cutsFrom unicode text profile language fuel i ⊆
      cutsFrom unicode text profile language text.length 0 := by
  induction h with
  | start => exact ⟨text.length, le_rfl, List.Subset.refl _⟩
  | next _ hch ih =>
    rename_i i ch _
    obtain ⟨fuel, hfuel, hsubset⟩ := ih
    obtain ⟨hlt, -⟩ := List.getElem?_eq_some_iff.mp hch
    obtain ⟨fuel, rfl⟩ := Nat.exists_eq_add_one.mpr (show 0 < fuel by omega)
    have hforward := @forward_scanStep unicode text profile language i ch
    rw [cutsFrom, hch] at hsubset
    dsimp only at hsubset
    cases hstep : scanStep unicode text profile language i ch with
    | advance next =>
      rw [hstep] at hforward hsubset
      have hlt : i < next := hforward
      refine ⟨fuel, ?_, hsubset⟩
      show text.length ≤ fuel + next
      omega
    | cut stop next =>
      rw [hstep] at hforward hsubset
      have hlt : i < next := hforward.2.1
      refine ⟨fuel, ?_, fun cut hcut => hsubset (List.mem_cons_of_mem _ hcut)⟩
      show text.length ≤ fuel + next
      omega

/-- Where the scanner stands and ends a sentence, there is a cut. -/
theorem mem_cutsFrom_of_stands {i stop next : Nat} {ch : Char}
    (h : Stands unicode text profile language i) (hch : text[i]? = some ch)
    (hstep : scanStep unicode text profile language i ch = .cut stop next) :
    (stop, next) ∈ cutsFrom unicode text profile language text.length 0 := by
  obtain ⟨fuel, hfuel, hsubset⟩ := exists_cutsFrom_subset h
  obtain ⟨hlt, -⟩ := List.getElem?_eq_some_iff.mp hch
  obtain ⟨fuel, rfl⟩ := Nat.exists_eq_add_one.mpr (show 0 < fuel by omega)
  apply hsubset
  rw [cutsFrom, hch]
  dsimp only
  rw [hstep]
  exact List.mem_cons_self

/-- Sentences without a broken token keep the tokens when they are joined again. -/
theorem filter_words_rejoined {languageHint : Option String}
    (h : ∀ cut ∈ sentenceCuts unicode text languageHint, ¬ BreaksToken text cut.1) :
    (Words.words isSpace (joinWith ' ' (splitSentences unicode .unicode languageHint text))).filter
        isProtectedToken =
      (Words.words isSpace text).filter isProtectedToken := by
  rw [joinWith, Words.words_intercalate (by decide), splitSentences.eq_def]
  by_cases hblank : stripChars text = []
  · rw [if_pos hblank, ← words_stripChars text, hblank]
    rfl
  · rw [if_neg hblank]
    exact filter_words_splitFrom (le_refl 0) h

/-- The tokens are spared exactly when, wherever the scanner stands at terminal punctuation other
than a single period that ends strictly inside a protected token, the sentence goes on. -/
theorem sparesTokens_iff (unicode : UnicodeText) (text : List Char)
    (languageHint : Option String) : SparesTokens unicode text languageHint ↔
      ∀ i ch, Stands unicode text (SentenceBoundary.profileFor languageHint)
          (SentenceBoundary.primaryLanguage languageHint) i → text[i]? = some ch →
        IsOtherTerminal unicode text (SentenceBoundary.profileFor languageHint) i ch →
        BreaksToken text
          (terminalStop unicode text (SentenceBoundary.profileFor languageHint) i) →
        GoesOn unicode text (SentenceBoundary.profileFor languageHint)
          (SentenceBoundary.primaryLanguage languageHint) i ch := by
  constructor
  · intro ⟨hspare, _⟩ i ch hstands hch hterminal hbreaks
    by_contra hends
    have hstep := (scanStep_cut_iff hbreaks.2.1).mpr ⟨hterminal, hends, rfl, rfl⟩
    exact hspare _ (mem_cutsFrom_of_stands hstands hch hstep) hbreaks
  · intro hall
    have hspare : ∀ cut ∈ sentenceCuts unicode text languageHint, ¬ BreaksToken text cut.1 := by
      intro cut hcut hbreaks
      obtain ⟨i, ch, hstands, hch, hstep⟩ := mem_cutsFrom .start hcut
      obtain ⟨hterminal, hends, hstop, -⟩ := (scanStep_cut_iff hbreaks.2.1).mp hstep
      rw [hstop] at hbreaks
      exact hends (hall i ch hstands hch hterminal hbreaks)
    exact ⟨hspare, filter_words_rejoined hspare⟩

/-- A query ends a sentence in the middle of a URL. -/
theorem not_sparesTokens_query : ¬ ∀ (unicode : UnicodeText) (text : List Char)
    (languageHint : Option String), SparesTokens unicode text languageHint := by
  intro hall
  have hspare := (hall asciiText "https://a.b/?q=1".toList none).1
  revert hspare
  decide +kernel

end Tokens

end AstraIndexator
