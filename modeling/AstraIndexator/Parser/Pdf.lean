import AstraIndexator.Foundation.Text
import Mathlib.Data.List.Sort
import Mathlib.Data.Rat.Defs
import Mathlib.Algebra.Order.Ring.Rat

/-!
# Words and lines of a PDF page

The words of a page are grouped into lines by their vertical position, and the lines are
read column by column between the lines that span the page.  Coordinates are exact
rationals.
-/

namespace AstraIndexator

open Text

/-- A word as the PDF library gives it, with the default of each key. -/
structure Word where
  text : String := ""
  x0 : Rat := 0
  x1 : Rat := 0
  top : Rat := 0
  bottom : Rat := 0
  size : Option Rat := none
  fontname : String := ""
  deriving DecidableEq

structure PdfLine where
  words : List Word
  text : String
  x0 : Rat
  x1 : Rat
  top : Rat
  bottom : Rat
  fontSize : Rat
  bold : Bool
  deriving DecidableEq

namespace PdfLayout

/-- `statistics.median`. -/
def median (values : List Rat) : Rat :=
  let sorted := values.insertionSort (· ≤ ·)
  let half := sorted.length / 2
  if sorted.length % 2 = 1 then sorted.getD half 0
  else (sorted.getD (half - 1) 0 + sorted.getD half 0) / 2

/-! ## Lines -/

/-- The order of the sort key `(top, x0)` of words. -/
def wordBefore (a b : Word) : Prop := a.top < b.top ∨ (a.top = b.top ∧ a.x0 ≤ b.x0)

instance : DecidableRel wordBefore := fun _ _ => inferInstanceAs (Decidable (_ ∨ _))

/-- The word is too far from the line to belong to it. -/
def LeavesLine (tolerance : Rat) (group : List Word) (word : Word) : Prop :=
  tolerance < |word.top - median (group.map (·.top))|

instance (tolerance : Rat) (group : List Word) : DecidablePred (LeavesLine tolerance group) :=
  fun _ => inferInstanceAs (Decidable (_ < _))

/-- The groups of the open line and the words still to place. -/
def groupsFrom (tolerance : Rat) : List Word → List Word → List (List Word)
  | group, [] => [group]
  | group, word :: rest =>
    if LeavesLine tolerance group word then group :: groupsFrom tolerance [word] rest
    else groupsFrom tolerance (group ++ [word]) rest

def groups (tolerance : Rat) (words : List Word) : List (List Word) :=
  match words.insertionSort wordBefore with
  | [] => []
  | word :: rest => groupsFrom tolerance [word] rest

/-- The line of a group, unless its text is blank. -/
def lineOf? (group : List Word) : Option PdfLine :=
  let words := group.insertionSort fun a b => a.x0 ≤ b.x0
  let text := strip (String.intercalate " " (words.map (·.text)))
  if text = "" then none
  else some {
    words, text
    x0 := (words.map (·.x0)).min?.getD 0
    x1 := (words.map (·.x1)).max?.getD 0
    top := (words.map (·.top)).min?.getD 0
    bottom := (words.map (·.bottom)).max?.getD 0
    fontSize := median (words.map fun word => word.size.getD 0)
    bold := words.any fun word => contains (lower word.fontname) "bold" }

/-- The default tolerance of `_pdf_lines`, which every caller uses. -/
def lineTolerance : Rat := 3

/-- `_pdf_lines`. -/
def pdfLines (words : List Word) : List PdfLine := (groups lineTolerance words).filterMap lineOf?

/-! ## Reading order -/

/-- The order of the sort key `(top, x0)` of lines. -/
def lineBefore (a b : PdfLine) : Prop := a.top < b.top ∨ (a.top = b.top ∧ a.x0 ≤ b.x0)

instance : DecidableRel lineBefore := fun _ _ => inferInstanceAs (Decidable (_ ∨ _))

def sortLines (lines : List PdfLine) : List PdfLine := lines.insertionSort lineBefore

/-- The line is wide, or it reaches from one side of the page to the other. -/
def SpansPage (pageWidth : Rat) (line : PdfLine) : Prop :=
  pageWidth * (62 / 100) ≤ line.x1 - line.x0 ∨
    (line.x0 ≤ pageWidth * (30 / 100) ∧ pageWidth * (70 / 100) ≤ line.x1)

instance (pageWidth : Rat) : DecidablePred (SpansPage pageWidth) :=
  fun _ => inferInstanceAs (Decidable (_ ∨ _))

def fullWidth (lines : List PdfLine) (pageWidth : Rat) : List PdfLine :=
  lines.filter fun line => SpansPage pageWidth line

def narrow (lines : List PdfLine) (pageWidth : Rat) : List PdfLine :=
  lines.filter fun line => line ∉ fullWidth lines pageWidth

def left (lines : List PdfLine) (pageWidth : Rat) : List PdfLine :=
  (narrow lines pageWidth).filter fun line =>
    (line.x0 + line.x1) / 2 < pageWidth * (46 / 100)

def right (lines : List PdfLine) (pageWidth : Rat) : List PdfLine :=
  (narrow lines pageWidth).filter fun line =>
    pageWidth * (54 / 100) < (line.x0 + line.x1) / 2

/-- The vertical range between two boundaries; `none` is an infinite end. -/
structure Band where
  start : Option Rat
  stop : Option Rat

/-- The range holds the position. -/
def Band.Holds (band : Band) (top : Rat) : Prop :=
  (∀ start ∈ band.start, start ≤ top) ∧ ∀ stop ∈ band.stop, top < stop

instance (band : Band) : DecidablePred band.Holds := fun _ => inferInstanceAs (Decidable (_ ∧ _))

/-- The narrow lines of a band: those on the left, those on the right, then the others. -/
def readBand (narrow left right : List PdfLine) (band : Band) : List PdfLine :=
  let lines := narrow.filter fun line => band.Holds line.top
  sortLines (lines.filter (· ∈ left)) ++ sortLines (lines.filter (· ∈ right)) ++
    sortLines (lines.filter fun line => line ∉ left ∧ line ∉ right)

/-- The bands before, between and after the boundaries, each boundary after its band. -/
def readFrom (narrow left right : List PdfLine) : Option Rat → List PdfLine → List PdfLine
  | previousBottom, [] => readBand narrow left right ⟨previousBottom, none⟩
  | previousBottom, boundary :: rest =>
    readBand narrow left right ⟨previousBottom, some boundary.top⟩ ++
      boundary :: readFrom narrow left right (some boundary.bottom) rest

/-- Both sides of the page hold at least two lines. -/
def TwoColumns (lines : List PdfLine) (pageWidth : Rat) : Prop :=
  2 ≤ (left lines pageWidth).length ∧ 2 ≤ (right lines pageWidth).length

instance (lines : List PdfLine) (pageWidth : Rat) : Decidable (TwoColumns lines pageWidth) :=
  inferInstanceAs (Decidable (_ ∧ _))

def boundaries (lines : List PdfLine) (pageWidth : Rat) : List PdfLine :=
  (fullWidth lines pageWidth).insertionSort fun a b => a.top ≤ b.top

/-- `_reading_order_v1`. -/
def readingOrderV1 (lines : List PdfLine) (pageWidth : Rat) : List PdfLine :=
  if lines.length < 4 then sortLines lines
  else if ¬ TwoColumns lines pageWidth then sortLines lines
  else readFrom (narrow lines pageWidth) (left lines pageWidth) (right lines pageWidth) none
    (boundaries lines pageWidth)

end PdfLayout

end AstraIndexator
