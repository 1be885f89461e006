import AstraIndexator.Foundation.Words
import AstraIndexator.Normalization.Lines

/-!
# Visible characters

The characters of a text that are no whitespace.  Stripping, joining with
whitespace and taking the words of a text do not change them.
-/

namespace Text

/-- The characters that are no whitespace, in order. -/
def visible (l : List Char) : List Char := l.filter fun c => !isSpace c

@[simp] theorem visible_nil : visible [] = [] := rfl

@[simp] theorem visible_append (l m : List Char) : visible (l ++ m) = visible l ++ visible m :=
  List.filter_append ..

theorem visible_of_forall {l : List Char} (h : ∀ c ∈ l, isSpace c = true) : visible l = [] := by
  rw [visible, List.filter_eq_nil_iff]
  intro c hc
  rw [h c hc]
  decide

/-- Whitespace in front does not count. -/
theorem visible_cons_space {c : Char} (hc : isSpace c = true) (l : List Char) :
    visible (c :: l) = visible l := by
  rw [visible, List.filter_cons_of_neg (by rw [hc]; decide)]
  rfl

@[simp] theorem visible_stripChars (l : List Char) : visible (stripChars l) = visible l := by
  obtain ⟨start, stop, hl, -, hstart, hstop⟩ := exists_stripChars l
  have hvisible := congrArg visible hl
  rw [visible_append, visible_append, visible_of_forall hstart, visible_of_forall hstop,
    List.nil_append, List.append_nil] at hvisible
  exact hvisible.symm

theorem visible_flatten (ls : List (List Char)) : visible ls.flatten = ls.flatMap visible := by
  induction ls with
  | nil => rfl
  | cons l ls ih => rw [List.flatten_cons, visible_append, ih, List.flatMap_cons]

/-- Joining with whitespace adds nothing visible. -/
theorem visible_intercalate {sep : Char} (hsep : isSpace sep = true) (ls : List (List Char)) :
    visible ([sep].intercalate ls) = ls.flatMap visible := by
  induction ls with
  | nil => rfl
  | cons l ls ih =>
    cases ls with
    | nil => simp [List.intercalate]
    | cons m ls =>
      rw [List.intercalate_cons_cons, visible_append, visible_append, ih,
        visible_cons_space hsep, visible_nil, List.append_nil]
      rfl

/-- The words of a text are its visible characters. -/
theorem flatten_words (l : List Char) : (Words.words isSpace l).flatten = visible l :=
  Words.words_flatten l

theorem visible_flush (l : List Char) : (Words.flush l).flatMap visible = visible l := by
  cases l with
  | nil => rfl
  | cons c l => exact List.append_nil _

/-- Words are visible throughout. -/
theorem visible_words (l : List Char) :
    (Words.words isSpace l).flatMap visible = visible l := by
  rw [← visible_flatten, flatten_words, visible, visible, List.filter_filter]
  simp

end Text
