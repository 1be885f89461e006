import AstraIndexator.Foundation.Text
import Mathlib.Data.Rat.Defs

/-!
# Text normalization

The passes over one text: line endings, canonical composition, no-break spaces,
soft hyphens, control characters, hyphens at line ends, horizontal whitespace and
blank lines.  Composition, the word class and the protected tokens are those of
the Unicode library and the regular expressions.
-/

namespace AstraIndexator

def softHyphen : Char := Char.ofNat 0xad

def noBreakSpace : Char := Char.ofNat 0xa0

/-- `[\t\v\f ]` -/
def isHorizontalSpace (c : Char) : Bool :=
  c.toNat == 0x9 || c.toNat == 0xb || c.toNat == 0xc || c.toNat == 0x20

/-- `[\x00-\x08\x0b\x0c\x0e-\x1f\x7f]` -/
def isC0 (c : Char) : Bool :=
  let n := c.toNat
  n ≤ 0x8 || n == 0xb || n == 0xc || (0xe ≤ n && n ≤ 0x1f) || n == 0x7f

/-- What the passes take from outside. -/
structure UnicodeLibrary where
  /-- `unicodedata.normalize` -/
  normalize : String → List Char → List Char
  /-- `\w` -/
  isWord : Char → Bool
  /-- the spans `_PROTECTED_TOKEN.finditer` finds -/
  protectedTokens : List Char → List (Nat × Nat)

structure NormalizationProfile where
  unicodeForm : String := "NFC"
  collapseHorizontalWhitespace : Bool := true
  normalizeNbsp : Bool := true
  removeSoftHyphen : Bool := true
  furnitureMinPages : Int := 3
  furnitureMinFraction : Rat := 3 / 5
  furnitureEdgeFraction : Rat := 3 / 25

def NormalizationProfile.validate (profile : NormalizationProfile) : Except String Unit := do
  if profile.unicodeForm ≠ "NFC" then
    throw "NORMALIZATION_UNSUPPORTED_UNICODE_POLICY"
  if profile.furnitureMinPages < 2 then
    throw "NORMALIZATION_PROFILE_INVALID:furniture_min_pages"
  if ¬ (0 < profile.furnitureMinFraction ∧ profile.furnitureMinFraction ≤ 1) then
    throw "NORMALIZATION_PROFILE_INVALID:furniture_min_fraction"
  if ¬ (0 < profile.furnitureEdgeFraction ∧ profile.furnitureEdgeFraction < 1 / 2) then
    throw "NORMALIZATION_PROFILE_INVALID:furniture_edge_fraction"

/-- The counters of one text. -/
structure TextCounts where
  controlCharsRemoved : Nat := 0
  dehyphenationsApplied : Nat := 0
  whitespaceRunsCollapsed : Nat := 0
  lineWrapJoins : Nat := 0
  deriving DecidableEq

/-- `text.replace("\r\n", "\n")` -/
def replaceCrLf : List Char → List Char
  | '\r' :: '\n' :: l => '\n' :: replaceCrLf l
  | c :: l => c :: replaceCrLf l
  | [] => []

/-- Both replacements of line endings. -/
def normalizeLineEndings (text : List Char) : List Char :=
  (replaceCrLf text).map fun c => if c = '\r' then '\n' else c

/-- `_HORIZONTAL_WS.subn(" ", line)` after a character that was horizontal
whitespace or not. -/
def collapseFrom : Bool → List Char → List Char × Nat
  | _, [] => ([], 0)
  | inRun, c :: l =>
    if isHorizontalSpace c then
      let rest := collapseFrom true l
      if inRun then rest else (' ' :: rest.1, rest.2 + 1)
    else
      let rest := collapseFrom false l
      (c :: rest.1, rest.2)

/-- A line between its passes and the runs of whitespace that were collapsed. -/
def normalizeLine (profile : NormalizationProfile) (line : List Char) : List Char × Nat :=
  if profile.collapseHorizontalWhitespace then
    (Text.stripChars (collapseFrom false line).1, (collapseFrom false line).2)
  else (Text.stripChars line, 0)

/-- One line of the loop that keeps single blank lines. -/
def compactStep (compact : List (List Char)) (line : List Char) : List (List Char) :=
  if line ≠ [] ∨ (compact ≠ [] ∧ compact.getLast? ≠ some []) then compact ++ [line] else compact

/-- The lines with leading and trailing blank lines gone and single ones between. -/
def compactLines (lines : List (List Char)) : List (List Char) :=
  ((lines.foldl compactStep []).reverse.dropWhile List.isEmpty).reverse

namespace UnicodeLibrary

variable (unicode : UnicodeLibrary)

/-- `_overlaps_protected_span` -/
def overlapsProtectedSpan (text : List Char) (start stop : Nat) : Bool :=
  (unicode.protectedTokens text).any fun span => span.1 < stop && span.2 > start

/-- `(?<=\w)-\n(?=\w)` matches at `i`. -/
def hyphenBreakAt (value : List Char) (i : Nat) : Bool :=
  i != 0 && (value[i - 1]?).any unicode.isWord && value[i]? == some '-' &&
    value[i + 1]? == some '\n' && (value[i + 2]?).any unicode.isWord

/-- The starts of the matches, in order. -/
def hyphenBreaks (value : List Char) : List Nat :=
  (List.range value.length).filter (unicode.hyphenBreakAt value)

/-- One match of the loop over the matches, last one first. -/
def dehyphenateStep (start : Nat) (state : List Char × Nat) : List Char × Nat :=
  let value := state.1
  let first := start - 64
  let last := min value.length (start + 2 + 64)
  if unicode.overlapsProtectedSpan ((value.take last).drop first) (start - first)
      (start + 2 - first) then state
  else (value.take start ++ value.drop (start + 2), state.2 + 1)

/-- Joining the words broken at line ends, unless they are protected. -/
def dehyphenate (value : List Char) : List Char × Nat :=
  (unicode.hyphenBreaks value).foldr unicode.dehyphenateStep (value, 0)

end UnicodeLibrary

structure TextNormalizationService where
  profile : NormalizationProfile
  valid : profile.validate = .ok ()

namespace TextNormalizationService

variable (self : TextNormalizationService) (unicode : UnicodeLibrary)

/-- The text up to canonical composition. -/
def composed (text : List Char) : List Char :=
  unicode.normalize self.profile.unicodeForm (normalizeLineEndings text)

/-- `value.replace("\u00a0", " ")` -/
def replaceNbsp (value : List Char) : List Char :=
  if self.profile.normalizeNbsp then value.map fun c => if c = noBreakSpace then ' ' else c
  else value

/-- `value.replace("\u00ad", "")` -/
def dropSoftHyphens (value : List Char) : List Char :=
  if self.profile.removeSoftHyphen then value.filter fun c => c != softHyphen else value

/-- The text before its control characters are removed. -/
def beforeControls (text : List Char) : List Char :=
  self.dropSoftHyphens (self.replaceNbsp (self.composed unicode text))

/-- `_C0.sub("", value)` -/
def dropControls (value : List Char) : List Char := value.filter fun c => !isC0 c

/-- `_normalize_text` -/
def normalizeText (text : List Char) (preserveLayout allowDehyphenation allowLineJoin : Bool) :
    List Char × TextCounts :=
  let before := self.beforeControls unicode text
  let value := dropControls before
  let removed := before.length - value.length
  if preserveLayout then (value, ⟨removed, 0, 0, 0⟩)
  else
    let joined := if allowDehyphenation then unicode.dehyphenate value else (value, 0)
    let lines := (joined.1.splitOn '\n').map (normalizeLine self.profile)
    let collapsed := (lines.map Prod.snd).sum
    if allowLineJoin then
      let nonempty := (lines.map Prod.fst).filter fun line => line ≠ []
      (Text.stripChars ([' '].intercalate nonempty),
        ⟨removed, joined.2, collapsed, nonempty.length - 1⟩)
    else
      (Text.stripChars (['\n'].intercalate (compactLines (lines.map Prod.fst))),
        ⟨removed, joined.2, collapsed, 0⟩)

end TextNormalizationService

/-- The service with the default profile. -/
def defaultService : TextNormalizationService where
  profile := {}
  valid := by
    have hfraction : (0 : Rat) < 3 / 5 ∧ (3 / 5 : Rat) ≤ 1 := by decide +kernel
    have hedge : (0 : Rat) < 3 / 25 ∧ (3 / 25 : Rat) < 1 / 2 := by decide +kernel
    rw [NormalizationProfile.validate, if_neg (by decide), if_neg (by decide),
      if_neg (not_not.mpr hfraction), if_neg (not_not.mpr hedge)]
    rfl

/-- The Unicode library on ASCII texts without protected tokens. -/
def plainUnicode : UnicodeLibrary where
  normalize := fun _ text => text
  isWord := fun c => c.isAlphanum || c == '_'
  protectedTokens := fun _ => []

end AstraIndexator
