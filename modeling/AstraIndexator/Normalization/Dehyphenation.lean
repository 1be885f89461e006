import AstraIndexator.Foundation.Pattern
import AstraIndexator.Normalization.Service

/-!
# Protected tokens and hyphens at line ends

Which hyphens at line ends are removed when protection is looked up in a window of 64
characters around the break, of a text from which the breaks to the right are already
removed.
-/

namespace AstraIndexator

open Pattern

/-- The character classes of the regular expressions that depend on Unicode. -/
structure CharacterClasses where
  /-- `\w` -/
  isWord : Char → Bool
  /-- `\d` -/
  isDecimal : Char → Bool
  isWord_newline : isWord '\n' = false
  isDecimal_newline : isDecimal '\n' = false

namespace CharacterClasses

variable (classes : CharacterClasses)

/-! ## The pattern -/

def isAsciiLetter (c : Char) : Bool := ('A' ≤ c && c ≤ 'Z') || ('a' ≤ c && c ≤ 'z')

/-- `[0-9a-fA-F]` -/
def isHexDigit (c : Char) : Bool :=
  ('0' ≤ c && c ≤ '9') || ('a' ≤ c && c ≤ 'f') || ('A' ≤ c && c ≤ 'F')

def word : Pattern := char classes.isWord

def decimal : Pattern := char classes.isDecimal

def wordBoundary : Pattern := boundary classes.isWord

def hexDigit : Pattern := char isHexDigit

def literalChar (c : Char) : Pattern := char (· == c)

/-- `[A-Za-z_$]` -/
def nameStart : Pattern := char fun c => isAsciiLetter c || c == '_' || c == '$'

/-- `[\w$]` -/
def nameChar : Pattern := char fun c => classes.isWord c || c == '$'

/-- `https?://\S+` -/
def url : Pattern :=
  inOrder [literal "http".toList, optional (literalChar 's'), literal "://".toList,
    atLeast (char fun c => !Text.isSpace c) 1]

/-- `[\w.+-]+@[\w.-]+\.[A-Za-z]{2,}` -/
def email : Pattern :=
  inOrder [atLeast (char fun c => classes.isWord c || c == '.' || c == '+' || c == '-') 1,
    literalChar '@', atLeast (char fun c => classes.isWord c || c == '.' || c == '-') 1,
    literalChar '.', atLeast (char isAsciiLetter) 2]

/-- `\b(?:\d{1,3}\.){3}\d{1,3}\b` -/
def ipAddress : Pattern :=
  inOrder [classes.wordBoundary,
    power (seq (between classes.decimal 1 3) (literalChar '.')) 3,
    between classes.decimal 1 3, classes.wordBoundary]

/-- `\b[0-9a-fA-F]{8}-[0-9a-fA-F]{4}-[1-5][0-9a-fA-F]{3}-[89abAB][0-9a-fA-F]{3}-[0-9a-fA-F]{12}\b`
-/
def uuid : Pattern :=
  inOrder [classes.wordBoundary, power hexDigit 8, literalChar '-', power hexDigit 4,
    literalChar '-', char fun c => '1' ≤ c && c ≤ '5', power hexDigit 3, literalChar '-',
    char fun c => ['8', '9', 'a', 'b', 'A', 'B'].contains c, power hexDigit 3, literalChar '-',
    power hexDigit 12, classes.wordBoundary]

/-- `\bv?\d+(?:\.\d+){1,}\b` -/
def version : Pattern :=
  inOrder [classes.wordBoundary, optional (literalChar 'v'), atLeast classes.decimal 1,
    atLeast (seq (literalChar '.') (atLeast classes.decimal 1)) 1, classes.wordBoundary]

/-- `\b[0-9a-fA-F]{32,64}\b` -/
def digest : Pattern :=
  inOrder [classes.wordBoundary, between hexDigit 32 64, classes.wordBoundary]

/-- `\b\d{4}\b` -/
def code : Pattern :=
  inOrder [classes.wordBoundary, power classes.decimal 4, classes.wordBoundary]

/-- `[A-Za-z_$][\w$]*(?:\.[A-Za-z_$][\w$]*(?:\(\))?)+` -/
def dottedIdentifier : Pattern :=
  inOrder [nameStart, star classes.nameChar,
    atLeast (inOrder [literalChar '.', nameStart, star classes.nameChar,
      optional (literal "()".toList)]) 1]

/-- `_PROTECTED_TOKEN` -/
def protectedToken : Pattern :=
  oneOf [url, classes.email, classes.ipAddress, classes.uuid, classes.version, classes.digest,
    classes.code, classes.dottedIdentifier]

/-- The passes over a text with these classes. -/
def library (normalize : String → List Char → List Char) : UnicodeLibrary where
  normalize := normalize
  isWord := classes.isWord
  protectedTokens := classes.protectedToken.spans

/-! ## No token reads past a line end -/

theorem literalChar_refuses {c : Char} (hc : c ≠ '\n') : (literalChar c).Refuses '\n' :=
  beq_eq_false_iff_ne.mpr hc.symm

theorem url_refuses : url.Refuses '\n' := by
  apply refuses_inOrder
  simp only [List.forall_mem_cons]
  refine ⟨refuses_literal (by decide), refuses_optional (literalChar_refuses (by decide)),
    refuses_literal (by decide), refuses_atLeast ?_ 1, by simp⟩
  show (!Text.isSpace '\n') = false
  decide

theorem email_refuses : classes.email.Refuses '\n' := by
  have hword := classes.isWord_newline
  apply refuses_inOrder
  simp only [List.forall_mem_cons]
  refine ⟨refuses_atLeast ?_ 1, literalChar_refuses (by decide), refuses_atLeast ?_ 1,
    literalChar_refuses (by decide), refuses_atLeast ?_ 2, by simp⟩
  · show (classes.isWord '\n' || '\n' == '.' || '\n' == '+' || '\n' == '-') = false
    rw [hword]
    decide
  · show (classes.isWord '\n' || '\n' == '.' || '\n' == '-') = false
    rw [hword]
    decide
  · show isAsciiLetter '\n' = false
    decide

theorem ipAddress_refuses : classes.ipAddress.Refuses '\n' := by
  have hdecimal : classes.decimal.Refuses '\n' := classes.isDecimal_newline
  apply refuses_inOrder
  simp only [List.forall_mem_cons]
  exact ⟨trivial, refuses_power (refuses_seq (refuses_between hdecimal 1 3)
    (literalChar_refuses (by decide))) 3, refuses_between hdecimal 1 3, trivial, by simp⟩

theorem uuid_refuses : classes.uuid.Refuses '\n' := by
  have hhex : hexDigit.Refuses '\n' := by
    show isHexDigit '\n' = false
    decide
  have hdash : (literalChar '-').Refuses '\n' := literalChar_refuses (by decide)
  apply refuses_inOrder
  simp only [List.forall_mem_cons]
  refine ⟨trivial, refuses_power hhex 8, hdash, refuses_power hhex 4, hdash, ?_,
    refuses_power hhex 3, hdash, ?_, refuses_power hhex 3, hdash, refuses_power hhex 12, trivial,
    by simp⟩
  · show ('1' ≤ '\n' && '\n' ≤ '5') = false
    decide
  · show (['8', '9', 'a', 'b', 'A', 'B'].contains '\n') = false
    decide

theorem version_refuses : classes.version.Refuses '\n' := by
  have hdecimal : classes.decimal.Refuses '\n' := classes.isDecimal_newline
  apply refuses_inOrder
  simp only [List.forall_mem_cons]
  exact ⟨trivial, refuses_optional (literalChar_refuses (by decide)), refuses_atLeast hdecimal 1,
    refuses_atLeast (refuses_seq (literalChar_refuses (by decide)) (refuses_atLeast hdecimal 1)) 1,
    trivial, by simp⟩

theorem digest_refuses : classes.digest.Refuses '\n' := by
  have hhex : hexDigit.Refuses '\n' := by
    show isHexDigit '\n' = false
    decide
  apply refuses_inOrder
  simp only [List.forall_mem_cons]
  exact ⟨trivial, refuses_between hhex 32 64, trivial, by simp⟩

theorem code_refuses : classes.code.Refuses '\n' := by
  have hdecimal : classes.decimal.Refuses '\n' := classes.isDecimal_newline
  apply refuses_inOrder
  simp only [List.forall_mem_cons]
  exact ⟨trivial, refuses_power hdecimal 4, trivial, by simp⟩

theorem dottedIdentifier_refuses : classes.dottedIdentifier.Refuses '\n' := by
  have hstart : nameStart.Refuses '\n' := by
    show (isAsciiLetter '\n' || '\n' == '_' || '\n' == '$') = false
    decide
  have hchar : classes.nameChar.Refuses '\n' := by
    show (classes.isWord '\n' || '\n' == '$') = false
    rw [classes.isWord_newline]
    decide
  apply refuses_inOrder
  simp only [List.forall_mem_cons]
  refine ⟨hstart, hchar, refuses_atLeast ?_ 1, by simp⟩
  apply refuses_inOrder
  simp only [List.forall_mem_cons]
  exact ⟨literalChar_refuses (by decide), hstart, hchar,
    refuses_optional (refuses_literal (by decide)), by simp⟩

theorem protectedToken_refuses : classes.protectedToken.Refuses '\n' := by
  apply refuses_oneOf
  simp only [List.forall_mem_cons]
  exact ⟨url_refuses, classes.email_refuses, classes.ipAddress_refuses, classes.uuid_refuses,
    classes.version_refuses, classes.digest_refuses, classes.code_refuses,
    classes.dottedIdentifier_refuses, by simp⟩

variable (normalize : String → List Char → List Char)

/-- Whether a token meets a break at a line end is decided by the text up to it. -/
theorem overlapsProtectedSpan_take {text : List Char} {start : Nat}
    (hnewline : text[start + 1]? = some '\n') :
    (classes.library normalize).overlapsProtectedSpan text start (start + 2) =
      (classes.library normalize).overlapsProtectedSpan (text.take (start + 2)) start
        (start + 2) := by
  obtain ⟨hlt, hget⟩ := List.getElem?_eq_some_iff.mp hnewline
  have hsplit : text = text.take (start + 1) ++ '\n' :: text.drop (start + 2) := by
    rw [← hget, List.cons_getElem_drop_succ, List.take_append_drop]
  have htake : text.take (start + 2) = text.take (start + 1) ++ ['\n'] := by
    rw [List.take_succ_eq_append_getElem hlt, hget]
  have hstop : start + 2 ≤ (text.take (start + 1)).length + 1 := by
    rw [List.length_take]
    omega
  have hany := any_spans_append classes.protectedToken_refuses (text.take (start + 1))
    (text.drop (start + 2)) start hstop
  rw [← hsplit, ← htake] at hany
  exact hany

end CharacterClasses

/-! ## The breaks that are removed -/

namespace UnicodeLibrary

variable (unicode : UnicodeLibrary)

/-- The loop over the breaks comes to this one and removes it. -/
def RemovesBreak (value : List Char) (start : Nat) : Prop :=
  ∃ before after, unicode.hyphenBreaks value = before ++ start :: after ∧
    unicode.dehyphenateStep start (after.foldr unicode.dehyphenateStep (value, 0)) ≠
      after.foldr unicode.dehyphenateStep (value, 0)

/-- Every break that is removed meets no protected token of the text. -/
def SparesProtectedTokens (value : List Char) : Prop :=
  ∀ start, unicode.RemovesBreak value start →
    unicode.overlapsProtectedSpan value start (start + 2) = false

/-- The text up to a break, from 64 characters before it. -/
def lookBack (value : List Char) (start : Nat) : List Char :=
  (value.take (start + 2)).drop (start - 64)

/-- A break that meets a token of the text meets one of the text looked back at. -/
def SeenFromBreaks (value : List Char) : Prop :=
  ∀ start ∈ unicode.hyphenBreaks value,
    unicode.overlapsProtectedSpan value start (start + 2) = true →
    unicode.overlapsProtectedSpan (lookBack value start) (start - (start - 64))
      (start + 2 - (start - 64)) = true

variable {unicode} {value : List Char}

theorem mem_hyphenBreaks {start : Nat} (hstart : start ∈ unicode.hyphenBreaks value) :
    value[start]? = some '-' ∧ value[start + 1]? = some '\n' ∧ start + 2 < value.length := by
  have hbreak := (List.mem_filter.mp hstart).2
  simp only [hyphenBreakAt, Bool.and_eq_true, beq_iff_eq] at hbreak
  obtain ⟨⟨⟨_, hdash⟩, hnewline⟩, hword⟩ := hbreak
  refine ⟨hdash, hnewline, ?_⟩
  by_contra hlength
  rw [List.getElem?_eq_none (by omega)] at hword
  exact absurd hword (by simp)

/-- The breaks come in order, and two of them do not meet. -/
theorem hyphenBreaks_after {before after : List Nat} {start : Nat}
    (hbreaks : unicode.hyphenBreaks value = before ++ start :: after) :
    ∀ next ∈ after, start + 2 ≤ next := by
  intro next hnext
  have hmem : ∀ i ∈ start :: after, i ∈ unicode.hyphenBreaks value := by
    intro i hi
    rw [hbreaks]
    exact List.mem_append_right before hi
  have hsorted : (unicode.hyphenBreaks value).Pairwise (· < ·) :=
    List.pairwise_lt_range.filter _
  rw [hbreaks] at hsorted
  have hlt : start < next :=
    (List.pairwise_cons.mp (List.pairwise_append.mp hsorted).2.1).1 next hnext
  have hnewline := (mem_hyphenBreaks (hmem start List.mem_cons_self)).2.1
  have hdash := (mem_hyphenBreaks (hmem next (List.mem_cons_of_mem start hnext))).1
  have hne : next ≠ start + 1 := by
    intro heq
    rw [heq, hnewline] at hdash
    exact absurd hdash (by decide)
  omega

/-- The removals to the right of a position keep the text up to it. -/
theorem foldr_dehyphenateStep_take {n : Nat} (hn : n ≤ value.length) {after : List Nat}
    (hafter : ∀ next ∈ after, n ≤ next) :
    (after.foldr unicode.dehyphenateStep (value, 0)).1.take n = value.take n := by
  induction after with
  | nil => rfl
  | cons next after ih =>
    have hrest := ih fun i hi => hafter i (List.mem_cons_of_mem next hi)
    have hnext := hafter next List.mem_cons_self
    rw [List.foldr_cons, dehyphenateStep]
    split
    · exact hrest
    · generalize after.foldr unicode.dehyphenateStep (value, 0) = state at hrest ⊢
      have hlength := congrArg List.length hrest
      simp only [List.length_take] at hlength
      rw [List.take_append_of_le_length (by rw [List.length_take]; omega), List.take_take,
        Nat.min_eq_left hnext, hrest]

/-- One step removes its break, unless the window shows a token there. -/
theorem dehyphenateStep_ne_iff (start : Nat) (state : List Char × Nat) :
    unicode.dehyphenateStep start state ≠ state ↔
      unicode.overlapsProtectedSpan
        ((state.1.take (min state.1.length (start + 2 + 64))).drop (start - 64))
        (start - (start - 64)) (start + 2 - (start - 64)) = false := by
  rw [dehyphenateStep]
  split
  · rename_i hoverlaps
    simp [hoverlaps]
  · rename_i hoverlaps
    refine ⟨fun _ => Bool.eq_false_iff.mpr hoverlaps, fun _ heq => ?_⟩
    have hcount : state.2 + 1 = state.2 := congrArg Prod.snd heq
    omega

end UnicodeLibrary

namespace CharacterClasses

variable (classes : CharacterClasses) (normalize : String → List Char → List Char)

/-- The window around a break shows what the text looked back at shows. -/
theorem overlapsProtectedSpan_window {value text : List Char} {start : Nat}
    (hlength : start + 2 ≤ value.length) (hnewline : value[start + 1]? = some '\n')
    (hkept : text.take (start + 2) = value.take (start + 2)) :
    (classes.library normalize).overlapsProtectedSpan
        ((text.take (min text.length (start + 2 + 64))).drop (start - 64))
        (start - (start - 64)) (start + 2 - (start - 64)) =
      (classes.library normalize).overlapsProtectedSpan (UnicodeLibrary.lookBack value start)
        (start - (start - 64)) (start + 2 - (start - 64)) := by
  have hlong : start + 2 ≤ text.length := by
    have := congrArg List.length hkept
    simp only [List.length_take] at this
    omega
  have hstop : start + 2 - (start - 64) = start - (start - 64) + 2 := by omega
  have hfirst : start - 64 + (start - (start - 64) + 2) = start + 2 := by omega
  have hwindow : ((text.take (min text.length (start + 2 + 64))).drop (start - 64)).take
      (start - (start - 64) + 2) = UnicodeLibrary.lookBack value start := by
    rw [UnicodeLibrary.lookBack, ← hkept, List.take_drop, List.take_take, hfirst,
      Nat.min_eq_left (by omega)]
  have hget : ((text.take (min text.length (start + 2 + 64))).drop (start - 64))[
      start - (start - 64) + 1]? = some '\n' := by
    have hindex : start - 64 + (start - (start - 64) + 1) = start + 1 := by omega
    rw [List.getElem?_drop, hindex, List.getElem?_take_of_lt (by omega), ← hnewline,
      ← List.getElem?_take_of_lt (show start + 1 < start + 2 by omega), hkept,
      List.getElem?_take_of_lt (by omega)]
  rw [hstop, classes.overlapsProtectedSpan_take normalize hget, hwindow]

/-- A break is removed exactly when the text looked back at shows no token there. -/
theorem removesBreak_iff (value : List Char) (start : Nat) :
    (classes.library normalize).RemovesBreak value start ↔
      start ∈ (classes.library normalize).hyphenBreaks value ∧
        (classes.library normalize).overlapsProtectedSpan (UnicodeLibrary.lookBack value start)
          (start - (start - 64)) (start + 2 - (start - 64)) = false := by
  have hremoved : ∀ before after,
      (classes.library normalize).hyphenBreaks value = before ++ start :: after →
      ((classes.library normalize).dehyphenateStep start
          (after.foldr (classes.library normalize).dehyphenateStep (value, 0)) ≠
        after.foldr (classes.library normalize).dehyphenateStep (value, 0) ↔
      (classes.library normalize).overlapsProtectedSpan (UnicodeLibrary.lookBack value start)
        (start - (start - 64)) (start + 2 - (start - 64)) = false) := by
    intro before after hbreaks
    have hmem : start ∈ (classes.library normalize).hyphenBreaks value := by
      rw [hbreaks]
      exact List.mem_append_right before List.mem_cons_self
    obtain ⟨_, hnewline, hlength⟩ := UnicodeLibrary.mem_hyphenBreaks hmem
    have hkept : (after.foldr (classes.library normalize).dehyphenateStep (value, 0)).1.take
        (start + 2) = value.take (start + 2) :=
      UnicodeLibrary.foldr_dehyphenateStep_take (by omega)
        (UnicodeLibrary.hyphenBreaks_after hbreaks)
    rw [UnicodeLibrary.dehyphenateStep_ne_iff,
      classes.overlapsProtectedSpan_window normalize (by omega) hnewline hkept]
  constructor
  · rintro ⟨before, after, hbreaks, hne⟩
    refine ⟨?_, (hremoved before after hbreaks).mp hne⟩
    rw [hbreaks]
    exact List.mem_append_right before List.mem_cons_self
  · rintro ⟨hmem, hunseen⟩
    obtain ⟨before, after, hbreaks⟩ := List.append_of_mem hmem
    exact ⟨before, after, hbreaks, (hremoved before after hbreaks).mpr hunseen⟩

/-- The removed breaks meet no protected token of the text without its control
characters exactly when each break that meets one also does in the 64 characters
before it. -/
theorem sparesProtectedTokens_iff (service : TextNormalizationService) (text : List Char) :
    (classes.library normalize).SparesProtectedTokens (TextNormalizationService.dropControls
        (service.beforeControls (classes.library normalize) text)) ↔
      (classes.library normalize).SeenFromBreaks (TextNormalizationService.dropControls
        (service.beforeControls (classes.library normalize) text)) := by
  generalize TextNormalizationService.dropControls
    (service.beforeControls (classes.library normalize) text) = value
  constructor
  · intro hspares start hstart hoverlaps
    by_contra hunseen
    have hremoved := (classes.removesBreak_iff normalize value start).mpr
      ⟨hstart, Bool.eq_false_iff.mpr hunseen⟩
    exact absurd hoverlaps (Bool.eq_false_iff.mp (hspares start hremoved))
  · intro hseen start hremoved
    obtain ⟨hstart, hunseen⟩ := (classes.removesBreak_iff normalize value start).mp hremoved
    by_contra hoverlaps
    have hoverlap := Bool.not_eq_false _ |>.mp hoverlaps
    exact absurd (hseen start hstart hoverlap) (Bool.eq_false_iff.mp hunseen)

/-- The classes on ASCII texts. -/
def ascii : CharacterClasses where
  isWord := fun c => c.isAlphanum || c == '_'
  isDecimal := Char.isDigit
  isWord_newline := by decide
  isDecimal_newline := by decide

/-- An address whose path is longer than the window loses its hyphen. -/
theorem not_sparesProtectedTokens_address :
    ¬ (ascii.library fun _ text => text).SparesProtectedTokens
      (TextNormalizationService.dropControls
        (defaultService.beforeControls (ascii.library fun _ text => text)
          ("https://".toList ++ List.replicate 64 'x' ++ "-\ny".toList))) := by
  intro hspares
  have hremoved : (ascii.library fun _ text => text).RemovesBreak
      (TextNormalizationService.dropControls
        (defaultService.beforeControls (ascii.library fun _ text => text)
          ("https://".toList ++ List.replicate 64 'x' ++ "-\ny".toList))) 72 := by
    refine ⟨[], [], ?_, ?_⟩
    · decide +kernel
    · rw [UnicodeLibrary.dehyphenateStep_ne_iff]
      decide +kernel
  have hoverlaps := hspares 72 hremoved
  revert hoverlaps
  decide +kernel

end CharacterClasses

end AstraIndexator
