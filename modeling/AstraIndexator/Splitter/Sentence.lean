import AstraIndexator.Foundation.Spans
import AstraIndexator.Splitter.Model
import AstraIndexator.Splitter.Visible

/-!
# Sentences and words

Sentence boundaries after terminal punctuation, with the exceptions for
abbreviations, identifiers, reported speech and ellipses.  Character classes and
the regular expressions of words and graphemes are those of the Unicode library.
-/

namespace AstraIndexator

open Text

/-- The Unicode database, the regular expression engine and ICU. -/
structure UnicodeText where
  /-- `\p{Sentence_Terminal}` -/
  isSentenceTerminal : Char → Bool
  /-- the categories Pe and Pf -/
  isClosing : Char → Bool
  /-- the categories Ps and Pi -/
  isOpening : Char → Bool
  /-- `[\p{L}\p{M}]` -/
  isLetterOrMark : Char → Bool
  isAlnum : Char → Bool
  isAlpha : Char → Bool
  isUpper : Char → Bool
  isLower : Char → Bool
  /-- `ch.lower() != ch.upper()` -/
  isCased : Char → Bool
  casefold : List Char → List Char
  /-- `len(_WORDLIKE.findall(text))` -/
  wordlike : List Char → Nat
  /-- `_COMPLEX_WORD_SCRIPT` -/
  isComplexScript : Char → Bool
  /-- `regex.findall(r"\X", text)` -/
  graphemes : List Char → List (List Char)
  graphemes_flatten : ∀ text, (graphemes text).flatten = text
  graphemes_nonempty : ∀ text, ∀ cluster ∈ graphemes text, cluster ≠ []
  /-- the texts between the sentence boundaries of ICU -/
  icuSentences : Option String → List Char → List (List Char)
  icuSentences_flatten : ∀ language text, (icuSentences language text).flatten = text
  /-- the words with a letter or a number between the word boundaries of ICU -/
  icuWords : Option String → List Char → Nat

structure SentenceBoundaryProfile where
  abbreviations : List String := []
  alwaysNonterminal : List String := []
  extraTerminalChars : List Char := []

namespace SentenceBoundary

def en : List String :=
  ["mr.", "mrs.", "ms.", "dr.", "prof.", "sr.", "jr.", "etc.", "e.g.", "i.e.", "vs.", "fig.",
    "no.", "sec.", "art."]

def ru : List String :=
  ["г.", "гг.", "т.е.", "т.д.", "т.п.", "др.", "стр.", "рис.", "им.", "см.", "напр.", "п.", "пп.",
    "ст.", "табл.", "разд."]

def kk : List String := ["ж.", "т.б.", "т.с.с.", "мыс."]

def de : List String :=
  ["dr.", "prof.", "hr.", "fr.", "bzw.", "z.b.", "u.a.", "ziff.", "abs.", "art."]

def fr : List String := ["m.", "mme.", "mlle.", "dr.", "pr.", "art.", "l’art.", "etc."]

def es : List String := ["sr.", "sra.", "srta.", "dr.", "dra.", "ud.", "uds.", "etc."]

def pt : List String := ["sr.", "sra.", "dr.", "dra.", "prof.", "etc."]

def it : List String := ["dott.", "dott.ssa.", "sig.", "sig.ra.", "prof.", "ecc."]

def tr : List String := ["dr.", "prof.", "sn.", "vb.", "vs."]

def alwaysEn : List String :=
  ["mr.", "mrs.", "ms.", "dr.", "prof.", "sr.", "jr.", "fig.", "no.", "sec.", "art."]

def alwaysRu : List String :=
  ["г.", "гг.", "стр.", "рис.", "им.", "см.", "напр.", "п.", "пп.", "ст.", "табл.", "разд."]

def alwaysKk : List String := ["ж.", "мыс."]

def alwaysDe : List String := de

def alwaysFr : List String := ["m.", "mme.", "mlle.", "dr.", "pr.", "art.", "l’art."]

def alwaysEs : List String := ["sr.", "sra.", "srta.", "dr.", "dra.", "ud.", "uds."]

def alwaysPt : List String := ["sr.", "sra.", "dr.", "dra.", "prof."]

def alwaysIt : List String := ["dott.", "dott.ssa.", "sig.", "sig.ra.", "prof."]

def alwaysTr : List String := ["dr.", "prof.", "sn."]

/-- `PROFILES["mixed"]` -/
def mixed : SentenceBoundaryProfile := ⟨en ++ ru ++ kk, alwaysEn ++ alwaysRu ++ alwaysKk, []⟩

/-- `PROFILES` -/
def profiles : List (String × SentenceBoundaryProfile) := [
  ("en", ⟨en, alwaysEn, []⟩),
  ("ru", ⟨ru, alwaysRu, []⟩),
  ("kk", ⟨kk ++ ru, alwaysKk ++ alwaysRu, []⟩),
  ("de", ⟨de, alwaysDe, []⟩),
  ("fr", ⟨fr, alwaysFr, []⟩),
  ("es", ⟨es, alwaysEs, []⟩),
  ("pt", ⟨pt, alwaysPt, []⟩),
  ("it", ⟨it, alwaysIt, []⟩),
  ("tr", ⟨tr, alwaysTr, []⟩),
  ("el", ⟨[], [], [';']⟩),
  ("und", {}),
  ("mixed", mixed)]

/-- `value.split("-", 1)[0]` -/
def beforeHyphen (value : List Char) : List Char := value.takeWhile fun c => c ≠ '-'

/-- `language_hint.lower().replace("_", "-")` -/
def languageValue (hint : String) : List Char :=
  (lower hint).toList.map fun c => if c = '_' then '-' else c

/-- The hint stands for more than one language. -/
def isMixed (value : List Char) : Bool :=
  value.contains ',' || value.contains '+' || value = "mixed".toList || value = "mul".toList

/-- `profile_for` -/
def profileFor (languageHint : Option String) : SentenceBoundaryProfile :=
  match languageHint.filter fun hint => hint ≠ "" with
  | none => mixed
  | some hint =>
    let value := languageValue hint
    if isMixed value then mixed
    else (profiles.lookup (String.ofList (beforeHyphen value))).getD {}

/-- `_primary_language` -/
def primaryLanguage (languageHint : Option String) : List Char :=
  match languageHint.filter fun hint => hint ≠ "" with
  | none => "mixed".toList
  | some hint =>
    let value := languageValue hint
    if isMixed value then "mixed".toList else beforeHyphen value

end SentenceBoundary

section Boundaries

variable (unicode : UnicodeText)

/-- `_is_closer` -/
def isCloser (ch : Char) : Bool :=
  unicode.isClosing ch || ch ∈ ['"', '\'', '»', '”', '’']

/-- `_is_sentence_terminal` -/
def isTerminal (profile : SentenceBoundaryProfile) (ch : Char) : Bool :=
  ch = '.' || profile.extraTerminalChars.contains ch || unicode.isSentenceTerminal ch

/-- The end of the longest stretch of such characters from `start` on. -/
def scanWhile (p : Char → Bool) (text : List Char) (start : Nat) : Nat :=
  start + ((text.drop start).takeWhile p).length

/-- The longest stretch of such characters at the end. -/
def tailWhile (p : Char → Bool) (text : List Char) : List Char :=
  (text.reverse.takeWhile p).reverse

/-- `text.startswith(pattern, i)` -/
def startsAt (text : List Char) (pattern : String) (i : Nat) : Bool :=
  decide (pattern.toList <+: text.drop i)

/-- `_previous_token` -/
def previousToken (text : List Char) (periodIndex : Nat) : List Char :=
  unicode.casefold (tailWhile (fun ch => !(isSpace ch || isCloser unicode ch || unicode.isOpening ch))
    (text.take periodIndex) ++ (text.drop periodIndex).take 1)

/-- `_next_lexical_char` -/
def nextLexicalChar (text : List Char) (index : Nat) : Option Char :=
  ((text.drop (index + 1)).dropWhile fun ch => isSpace ch || isCloser unicode ch).head?

/-- `_abbreviation_is_protected` -/
def abbreviationIsProtected (text : List Char) (index : Nat) (token : List Char)
    (profile : SentenceBoundaryProfile) : Bool :=
  if profile.alwaysNonterminal.any fun abbr => abbr.toList = token then true
  else if profile.abbreviations.all fun abbr => !decide (abbr.toList <:+ token) then false
  else match nextLexicalChar unicode text index with
    | none => false
    | some next => !(unicode.isAlpha next && unicode.isUpper next)

/-- The letters `_LETTER_BEFORE` finds at the end, or before a line feed at the end. -/
def lettersBefore (text : List Char) : List Char :=
  let letters := tailWhile unicode.isLetterOrMark text
  if letters = [] ∧ text.getLast? = some '\n' then tailWhile unicode.isLetterOrMark text.dropLast
  else letters

/-- `_period_is_protected` -/
def periodIsProtected (text : List Char) (index : Nat) (profile : SentenceBoundaryProfile) : Bool :=
  let prev := (text.take index).getLast?
  let next := text[index + 1]?
  if prev.any unicode.isAlnum && next.any unicode.isAlnum then true
  else if abbreviationIsProtected unicode text index (previousToken unicode text index) profile then
    true
  else if (lettersBefore unicode (text.take index)).length = 1 then true
  else
    let left := tailWhile (fun ch => ch ≠ ' ' ∧ ch ≠ '\n') (text.take index)
    let right := (text.drop (index + 1)).takeWhile fun ch => !isSpace ch
    let token := left ++ (text.drop index).take 1 ++ right
    if right = [] then false
    else if decide ("://".toList <:+: token) || token.contains '@' then true
    else if 2 ≤ token.count '.' then true
    else (prev.all fun ch => unicode.isAlnum ch || ch = '_' || ch = ')') &&
      next.any fun ch => unicode.isAlnum ch || ch = '_' || ch = '('

/-- The first character that is no whitespace. -/
def nextVisible (text : List Char) (start : Nat) : Option Char :=
  ((text.drop start).dropWhile isSpace).head?

def jaQuoteContinuations : List String := ["と", "って", "という", "と述", "と答", "と語"]

/-- `_looks_like_reporting_continuation` -/
def looksLikeReportingContinuation (text : List Char) (stop : Nat) (language : List Char)
    (hadCloser : Bool) : Bool :=
  if !hadCloser || text.length ≤ stop then false
  else if language = "ja".toList ∧ jaQuoteContinuations.any fun s => startsAt text s stop then true
  else match nextVisible text stop with
    | none => false
    | some next => unicode.isAlpha next && unicode.isCased next && unicode.isLower next

/-- `_ellipsis_is_terminal` -/
def ellipsisIsTerminal (text : List Char) (stop : Nat) (language : List Char) : Bool :=
  match nextVisible text stop with
  | none => true
  | some next =>
    if unicode.isAlpha next && unicode.isCased next then unicode.isUpper next
    else language = "ja".toList || language = "zh".toList

/-- What the scanner does at a position: it goes on, or it ends a sentence and goes
on behind whitespace. -/
inductive ScanStep
  | advance (next : Nat)
  | cut (stop next : Nat)

/-- The end of an ellipsis or of a run of terminal punctuation. -/
def punctuationEnd (text : List Char) (profile : SentenceBoundaryProfile) (i : Nat)
    (asciiEllipsis : Bool) : Nat :=
  if asciiEllipsis then scanWhile (· = '.') text (i + 3)
  else scanWhile (isTerminal unicode profile) text (i + 1)

/-- One turn of the loop of `_split_unicode`. -/
def scanStep (text : List Char) (profile : SentenceBoundaryProfile) (language : List Char)
    (i : Nat) (ch : Char) : ScanStep :=
  if startsAt text "\n\n" i then .cut i (scanWhile (· = '\n') text i)
  else
    let asciiEllipsis := startsAt text "..." i
    let unicodeEllipsis := ch = '…'
    if !isTerminal unicode profile ch && !asciiEllipsis && !unicodeEllipsis then .advance (i + 1)
    else if ch = '.' && !asciiEllipsis && periodIsProtected unicode text i profile then
      .advance (i + 1)
    else
      let punctuation := punctuationEnd unicode text profile i asciiEllipsis
      let stop := scanWhile (isCloser unicode) text punctuation
      if looksLikeReportingContinuation unicode text stop language (punctuation < stop) then
        .advance stop
      else if (asciiEllipsis || unicodeEllipsis) && !ellipsisIsTerminal unicode text stop language
      then .advance stop
      else if (text[stop]?.any fun c => !isSpace c) && ch = '.' && !asciiEllipsis then
        .advance (i + 1)
      else .cut stop (scanWhile isSpace text stop)

/-- A sentence, unless it is blank. -/
def sentenceOf (text : List Char) (start stop : Nat) : List (List Char) :=
  Words.flush (stripChars ((text.take stop).drop start))

/-- The loop of `_split_unicode` from position `i` in a sentence that began at `start`. -/
def splitFrom (text : List Char) (profile : SentenceBoundaryProfile) (language : List Char) :
    Nat → Nat → Nat → List (List Char)
  | 0, start, _ => sentenceOf text start text.length
  | fuel + 1, start, i =>
    match text[i]? with
    | none => sentenceOf text start text.length
    | some ch =>
      match scanStep unicode text profile language i ch with
      | .advance next => splitFrom text profile language fuel start next
      | .cut stop next =>
        sentenceOf text start stop ++ splitFrom text profile language fuel next next

/-- `_split_unicode` -/
def splitUnicode (text : List Char) (languageHint : Option String) : List (List Char) :=
  splitFrom unicode text (SentenceBoundary.profileFor languageHint)
    (SentenceBoundary.primaryLanguage languageHint) text.length 0 0

/-- `_split_icu` -/
def splitIcu (text : List Char) (languageHint : Option String) : List (List Char) :=
  (unicode.icuSentences languageHint text).flatMap fun piece => Words.flush (stripChars piece)

/-- `split_sentences` -/
def splitSentences (backend : SentenceBackend) (languageHint : Option String) (text : List Char) :
    List (List Char) :=
  if stripChars text = [] then []
  else match backend with
    | .unicode => splitUnicode unicode text languageHint
    | .icu => splitIcu unicode text languageHint

/-- `count_words` -/
def countWords (backend : SentenceBackend) (languageHint : Option String) (text : List Char) :
    Nat × Bool :=
  if text = [] then (0, true)
  else match backend with
    | .unicode => (unicode.wordlike text, !text.any unicode.isComplexScript)
    | .icu => (unicode.icuWords languageHint text, true)

/-! ## The scanner -/

section Scanner

variable {unicode} {text : List Char} {profile : SentenceBoundaryProfile} {language : List Char}

theorem le_scanWhile (p : Char → Bool) (text : List Char) (start : Nat) :
    start ≤ scanWhile p text start := by
  rw [scanWhile]
  omega

/-- What is scanned over satisfies the predicate. -/
theorem drop_scanWhile (p : Char → Bool) (text : List Char) (start : Nat) :
    ∃ run, text.drop start = run ++ text.drop (scanWhile p text start) ∧ ∀ c ∈ run, p c = true := by
  refine ⟨(text.drop start).takeWhile p, ?_, fun c hc => List.mem_takeWhile_imp hc⟩
  have hdrop : text.drop (scanWhile p text start) = (text.drop start).dropWhile p := by
    rw [scanWhile, ← List.drop_drop, List.dropWhile_eq_drop_findIdx_not,
      List.takeWhile_eq_take_findIdx_not, List.length_take,
      Nat.min_eq_left List.findIdx_le_length]
  rw [hdrop, List.takeWhile_append_dropWhile]

theorem lt_punctuationEnd (i : Nat) (asciiEllipsis : Bool) :
    i < punctuationEnd unicode text profile i asciiEllipsis := by
  cases asciiEllipsis with
  | true =>
    have hle := le_scanWhile (· = '.') text (i + 3)
    rw [punctuationEnd, if_pos rfl]
    omega
  | false =>
    have hle := le_scanWhile (isTerminal unicode profile) text (i + 1)
    rw [punctuationEnd, if_neg (by decide)]
    omega

/-- The scanner moves forward, and between the end of a sentence and the next it passes
over whitespace only. -/
def ScanStep.Forward (text : List Char) (i : Nat) : ScanStep → Prop
  | .advance next => i < next
  | .cut stop next => i ≤ stop ∧ i < next ∧ ∃ run, text.drop stop = run ++ text.drop next ∧
      ∀ c ∈ run, isSpace c = true

theorem ScanStep.Forward.ite {p : Prop} [Decidable p] {i : Nat} {a b : ScanStep}
    (ha : p → a.Forward text i) (hb : b.Forward text i) :
    (if p then a else b).Forward text i := by
  by_cases hp : p
  · rw [if_pos hp]
    exact ha hp
  · rw [if_neg hp]
    exact hb

theorem forward_paragraph {i : Nat} (h : startsAt text "\n\n" i = true) :
    (ScanStep.cut i (scanWhile (· = '\n') text i)).Forward text i := by
  obtain ⟨run, hrun, hnewline⟩ := drop_scanWhile (· = '\n') text i
  refine ⟨le_refl i, ?_, run, hrun, fun c hc => ?_⟩
  · obtain ⟨rest, hrest⟩ := of_decide_eq_true h
    have hdrop : text.drop i = '\n' :: '\n' :: rest := hrest.symm
    rw [scanWhile, hdrop, List.takeWhile_cons_of_pos (by decide), List.length_cons]
    omega
  · obtain rfl := of_decide_eq_true (hnewline c hc)
    decide

theorem forward_scanStep (i : Nat) (ch : Char) :
    (scanStep unicode text profile language i ch).Forward text i := by
  have hstop : i < scanWhile (isCloser unicode) text
      (punctuationEnd unicode text profile i (startsAt text "..." i)) :=
    lt_of_lt_of_le (lt_punctuationEnd i _) (le_scanWhile _ _ _)
  have hnext := le_scanWhile isSpace text (scanWhile (isCloser unicode) text
    (punctuationEnd unicode text profile i (startsAt text "..." i)))
  rw [scanStep]
  refine .ite forward_paragraph ?_
  refine .ite (fun _ => Nat.lt_succ_self i) ?_
  refine .ite (fun _ => Nat.lt_succ_self i) ?_
  refine .ite (fun _ => hstop) ?_
  refine .ite (fun _ => hstop) ?_
  refine .ite (fun _ => Nat.lt_succ_self i) ?_
  exact ⟨hstop.le, lt_of_lt_of_le hstop hnext, drop_scanWhile isSpace text _⟩

/-- More fuel than characters makes no difference. -/
theorem splitFrom_fuel {fuel start i : Nat} (h : text.length ≤ i + fuel) :
    splitFrom unicode text profile language (fuel + 1) start i =
      splitFrom unicode text profile language fuel start i := by
  induction fuel generalizing start i with
  | zero =>
    rw [splitFrom.eq_def, splitFrom.eq_def]
    dsimp only
    rw [List.getElem?_eq_none (by omega)]
  | succ fuel ih =>
    rw [splitFrom.eq_def, splitFrom.eq_def]
    dsimp only
    cases hch : text[i]? with
    | none => rfl
    | some ch =>
      dsimp only
      have hforward := @forward_scanStep unicode text profile language i ch
      cases hstep : scanStep unicode text profile language i ch with
      | advance next =>
        rw [hstep] at hforward
        have hlt : i < next := hforward
        exact ih (by omega)
      | cut stop next =>
        rw [hstep] at hforward
        have hlt : i < next := hforward.2.1
        dsimp only
        rw [ih (by omega)]

theorem visible_sentenceOf (start stop : Nat) :
    (sentenceOf text start stop).flatMap visible = visible ((text.take stop).drop start) := by
  rw [sentenceOf, visible_flush, visible_stripChars]

/-- The sentences hold what is visible of the text, in order. -/
theorem visible_splitFrom {fuel start i : Nat} (h : start ≤ i) :
    (splitFrom unicode text profile language fuel start i).flatMap visible =
      visible (text.drop start) := by
  have htail : (sentenceOf text start text.length).flatMap visible =
      visible (text.drop start) := by
    rw [visible_sentenceOf, List.take_length]
  induction fuel generalizing start i with
  | zero => exact htail
  | succ fuel ih =>
    rw [splitFrom]
    cases text[i]? with
    | none => exact htail
    | some ch =>
      dsimp only
      have hforward := @forward_scanStep unicode text profile language i ch
      cases hstep : scanStep unicode text profile language i ch with
      | advance next =>
        rw [hstep] at hforward
        have hlt : i < next := hforward
        exact ih (by omega) htail
      | cut stop next =>
        rw [hstep] at hforward
        obtain ⟨hle, -, run, hrun, hspace⟩ := hforward
        have hbehind : (sentenceOf text next text.length).flatMap visible =
            visible (text.drop next) := by
          rw [visible_sentenceOf, List.take_length]
        have hstart : start ≤ stop := h.trans hle
        dsimp only
        rw [List.flatMap_append, ih (le_refl next) hbehind, visible_sentenceOf,
          Spans.drop_eq_append text hstart, hrun, visible_append, visible_append,
          visible_of_forall hspace, List.nil_append]

theorem mem_flush {l m : List Char} (h : m ∈ Words.flush l) : m = l ∧ m ≠ [] := by
  cases l with
  | nil => exact absurd h List.not_mem_nil
  | cons c l =>
    obtain rfl := List.mem_singleton.mp h
    exact ⟨rfl, List.cons_ne_nil c l⟩

/-- Sentences are stripped and not empty. -/
theorem stripped_splitFrom {fuel start i : Nat} :
    ∀ s ∈ splitFrom unicode text profile language fuel start i, Stripped s ∧ s ≠ [] := by
  have hsentence : ∀ start stop, ∀ s ∈ sentenceOf text start stop, Stripped s ∧ s ≠ [] := by
    intro start stop s hs
    obtain ⟨rfl, hne⟩ := mem_flush hs
    exact ⟨stripped_stripChars _, hne⟩
  induction fuel generalizing start i with
  | zero => exact hsentence start text.length
  | succ fuel ih =>
    rw [splitFrom]
    cases text[i]? with
    | none => exact hsentence start text.length
    | some ch =>
      dsimp only
      cases scanStep unicode text profile language i ch with
      | advance next => exact ih
      | cut stop next =>
        intro s hs
        rcases List.mem_append.mp hs with hs | hs
        · exact hsentence start stop s hs
        · exact ih s hs

end Scanner

/-! ## Sentences of a text -/

section Sentences

variable {unicode} {backend : SentenceBackend} {language : Option String} {text : List Char}

/-- The sentences hold what is visible of the text, in order. -/
theorem visible_splitSentences :
    (splitSentences unicode backend language text).flatMap visible = visible text := by
  rw [splitSentences.eq_def]
  by_cases hblank : stripChars text = []
  · rw [if_pos hblank, ← visible_stripChars, hblank]
    rfl
  · rw [if_neg hblank]
    cases backend with
    | unicode => exact visible_splitFrom (le_refl 0)
    | icu =>
      show ((unicode.icuSentences language text).flatMap fun piece =>
        Words.flush (stripChars piece)).flatMap visible = visible text
      have hpiece : ∀ piece : List Char,
          (Words.flush (stripChars piece)).flatMap visible = visible piece := by
        intro piece
        rw [visible_flush, visible_stripChars]
      rw [List.flatMap_assoc, funext hpiece, ← visible_flatten, unicode.icuSentences_flatten]

/-- Sentences are stripped and not empty. -/
theorem stripped_splitSentences :
    ∀ s ∈ splitSentences unicode backend language text, Stripped s ∧ s ≠ [] := by
  intro s hs
  rw [splitSentences.eq_def] at hs
  by_cases hblank : stripChars text = []
  · rw [if_pos hblank] at hs
    exact absurd hs List.not_mem_nil
  · rw [if_neg hblank] at hs
    cases backend with
    | unicode => exact stripped_splitFrom s hs
    | icu =>
      obtain ⟨piece, -, hs⟩ := List.mem_flatMap.mp hs
      obtain ⟨rfl, hne⟩ := mem_flush hs
      exact ⟨stripped_stripChars piece, hne⟩

end Sentences

end Boundaries

/-! ## ASCII text -/

/-- The library on ASCII letters, digits, blanks and punctuation. -/
def asciiText : UnicodeText where
  isSentenceTerminal := fun c => c = '.' || c = '!' || c = '?'
  isClosing := fun c => c = ')' || c = ']' || c = '\x7d'
  isOpening := fun c => c = '(' || c = '[' || c = '\x7b'
  isLetterOrMark := Char.isAlpha
  isAlnum := Char.isAlphanum
  isAlpha := Char.isAlpha
  isUpper := Char.isUpper
  isLower := Char.isLower
  isCased := Char.isAlpha
  casefold := List.map Char.toLower
  wordlike := fun text => (Words.words (fun c => !c.isAlphanum) text).length
  isComplexScript := fun _ => false
  graphemes := List.map fun c => [c]
  graphemes_flatten := by
    intro text
    induction text with
    | nil => rfl
    | cons c text ih => rw [List.map_cons, List.flatten_cons, ih, List.singleton_append]
  graphemes_nonempty := by
    intro text cluster hcluster
    obtain ⟨c, -, rfl⟩ := List.mem_map.mp hcluster
    exact List.cons_ne_nil c []
  icuSentences := fun _ text => [text]
  icuSentences_flatten := fun _ text => List.append_nil text
  icuWords := fun _ text => (Words.words (fun c => !c.isAlphanum) text).length

end AstraIndexator
