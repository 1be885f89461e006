import AstraIndexator.Splitter.Units

/-!
# Texts within the limits

Words are counted on both sides of whitespace, so what stands before or behind
whitespace in a text that keeps the limits keeps them too.
-/

namespace AstraIndexator

open Text

/-- Lines behind some others. -/
theorem joinWith_append {sep : Char} {parts more : List (List Char)} (h : parts ≠ [])
    (hmore : more ≠ []) :
    joinWith sep (parts ++ more) = joinWith sep parts ++ sep :: joinWith sep more := by
  induction parts with
  | nil => exact absurd rfl h
  | cons first parts ih =>
    have hne : parts ++ more ≠ [] := List.append_ne_nil_of_right_ne_nil parts hmore
    rw [List.cons_append, joinWith, List.intercalate_cons_of_ne_nil hne]
    by_cases hnil : parts = []
    · rw [hnil]
      simp [joinWith]
    · have hfirst : joinWith sep (first :: parts) = first ++ [sep] ++ joinWith sep parts :=
        List.intercalate_cons_of_ne_nil hnil
      rw [← joinWith, ih hnil, hfirst, List.append_assoc]
      simp only [List.append_assoc]

/-- A line stands in the lines. -/
theorem infix_joinWith {sep : Char} {parts : List (List Char)} {part : List Char}
    (h : part ∈ parts) : part <:+: joinWith sep parts := by
  obtain ⟨front, back, rfl⟩ := List.append_of_mem h
  have hrest : part <:+: joinWith sep (part :: back) := by
    by_cases hnil : back = []
    · rw [hnil, joinWith, List.intercalate_singleton]
    · rw [joinWith, List.intercalate_cons_of_ne_nil hnil, List.append_assoc]
      exact (List.prefix_append _ _).isInfix
  by_cases hnil : front = []
  · rw [hnil]
    exact hrest
  · rw [joinWith_append hnil (List.cons_ne_nil _ _), List.append_cons]
    exact hrest.trans (List.suffix_append _ _).isInfix

namespace LogicalSplitter

/-- The words of a text with whitespace in it are those on both sides of it. -/
def SeparatesWords (splitter : LogicalSplitter) : Prop :=
  ∀ language c, isSpace c = true → ∀ a b, (splitter.countWords language (a ++ c :: b)).1 =
    (splitter.countWords language a).1 + (splitter.countWords language b).1

/-- The text has no more characters and no more words than a unit may have. -/
def Fits (splitter : LogicalSplitter) (language : Option String) (text : List Char) : Prop :=
  text.length ≤ splitter.profile.hardMaxChars ∧
    (splitter.countWords language text).1 ≤ splitter.profile.hardMaxWords

variable {splitter : LogicalSplitter} {language : Option String} {a b : List Char} {c : Char}

theorem Fits.not_oversized (h : splitter.Fits language a) : ¬ splitter.Oversized language a := by
  rintro (hchars | ⟨-, hwords⟩)
  · exact absurd h.1 (Nat.not_le_of_lt hchars)
  · exact absurd h.2 (Nat.not_le_of_lt hwords)

theorem Fits.left (hwords : splitter.SeparatesWords) (hc : isSpace c = true)
    (h : splitter.Fits language (a ++ c :: b)) : splitter.Fits language a := by
  obtain ⟨hchars, hcount⟩ := h
  rw [hwords language c hc] at hcount
  rw [List.length_append] at hchars
  exact ⟨by omega, by omega⟩

theorem Fits.right (hwords : splitter.SeparatesWords) (hc : isSpace c = true)
    (h : splitter.Fits language (a ++ c :: b)) : splitter.Fits language b := by
  obtain ⟨hchars, hcount⟩ := h
  rw [hwords language c hc] at hcount
  rw [List.length_append, List.length_cons] at hchars
  exact ⟨by omega, by omega⟩

/-! ## ASCII text -/

theorem isAlphanum_of_isSpace (hc : isSpace c = true) : c.isAlphanum = false := by
  rw [Bool.eq_false_iff]
  intro halnum
  delta Char.isAlphanum Char.isAlpha Char.isUpper Char.isLower Char.isDigit at halnum
  simp only [ge_iff_le, Bool.or_eq_true, Bool.and_eq_true, decide_eq_true_eq,
    UInt32.le_iff_toNat_le] at halnum
  simp only [isSpace, Char.toNat, Bool.or_eq_true, Bool.and_eq_true, decide_eq_true_eq,
    beq_iff_eq] at hc
  have hbounds : 'A'.val.toNat = 65 ∧ 'Z'.val.toNat = 90 ∧ 'a'.val.toNat = 97 ∧
      'z'.val.toNat = 122 ∧ '0'.val.toNat = 48 ∧ '9'.val.toNat = 57 := by decide
  omega

theorem separatesWords_ascii (h : splitter.unicode = asciiText) : splitter.SeparatesWords := by
  have hwords : ∀ language text, (splitter.countWords language text).1 =
      (Words.words (fun c => !c.isAlphanum) text).length := by
    intro language text
    rw [countWords, AstraIndexator.countWords.eq_def, h]
    split
    · rename_i hnil
      rw [hnil]
      rfl
    · cases splitter.profile.sentenceBoundaryBackend <;> rfl
  intro language c hc a b
  rw [hwords, hwords, hwords, Words.words_append_sep (by rw [isAlphanum_of_isSpace hc]; rfl),
    List.length_append]

end LogicalSplitter

end AstraIndexator
