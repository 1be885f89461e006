import AstraIndexator.Foundation.Text
import AstraIndexator.Foundation.Words

/-!
# Canonical composition

What is used of Unicode normalization form C.  A text is canonical when composing
it changes nothing.  Parts of canonical texts are canonical, whitespace composes
with nothing, and a text is canonical when its words are, or when its stretches
between characters that start afresh are.
-/

namespace Composition

open Text Words

/-- Composing the text changes nothing. -/
def Canonical (nfc : List Char → List Char) (text : List Char) : Prop := nfc text = text

/-- The character composes with nothing before it. -/
def Starts (nfc : List Char → List Char) (c : Char) : Prop :=
  ∀ x y, nfc (x ++ c :: y) = nfc x ++ nfc (c :: y)

/-- Form C as its users rely on it. -/
structure Composes (nfc : List Char → List Char) : Prop where
  idempotent : ∀ text, Canonical nfc (nfc text)
  parts : ∀ x y, Canonical nfc (x ++ y) → Canonical nfc x ∧ Canonical nfc y
  space : ∀ c, isSpace c = true → Canonical nfc [c] →
    ∀ x y, nfc (x ++ c :: y) = nfc x ++ c :: nfc y
  ascii : ∀ c, c.toNat < 0x80 → Canonical nfc [c]
  noReturn : ∀ text, '\r' ∉ text → '\r' ∉ nfc text

variable {nfc : List Char → List Char}

theorem Composes.nil (h : Composes nfc) : Canonical nfc [] := by
  have hcanonical := h.idempotent []
  rw [← List.nil_append (nfc [])] at hcanonical
  exact (h.parts [] (nfc []) hcanonical).1

theorem Composes.of_infix (h : Composes nfc) {l m : List Char} (hpart : l <:+: m)
    (hm : Canonical nfc m) : Canonical nfc l := by
  obtain ⟨start, stop, rfl⟩ := hpart
  exact (h.parts start l (h.parts (start ++ l) stop hm).1).2

/-- A character of a canonical text is canonical. -/
theorem Composes.of_mem (h : Composes nfc) {c : Char} {text : List Char}
    (htext : Canonical nfc text) (hc : c ∈ text) : Canonical nfc [c] := by
  obtain ⟨start, stop, rfl⟩ := List.append_of_mem hc
  exact h.of_infix ⟨start, stop, by rw [List.append_assoc]; rfl⟩ htext

theorem Composes.append_space (h : Composes nfc) {c : Char} (hspace : isSpace c = true)
    (hc : Canonical nfc [c]) (x y : List Char) :
    Canonical nfc (x ++ c :: y) ↔ Canonical nfc x ∧ Canonical nfc y := by
  constructor
  · intro hxy
    exact ⟨h.of_infix ⟨[], c :: y, rfl⟩ hxy, h.of_infix ⟨x ++ [c], [], by simp⟩ hxy⟩
  · rintro ⟨hx, hy⟩
    rw [Canonical] at hx hy ⊢
    rw [h.space c hspace hc, hx, hy]

theorem Composes.append_iff_wordsFrom (h : Composes nfc) {cur l : List Char}
    (hspaces : ∀ c ∈ l, isSpace c = true → Canonical nfc [c]) :
    Canonical nfc (cur ++ l) ↔ ∀ w ∈ wordsFrom isSpace cur l, Canonical nfc w := by
  induction l generalizing cur with
  | nil =>
    cases cur with
    | nil => simp [wordsFrom, h.nil]
    | cons c cur => simp [wordsFrom, flush]
  | cons c l ih =>
    have hrest := fun x hx => hspaces x (List.mem_cons_of_mem c hx)
    by_cases hc : isSpace c = true
    · have hl : Canonical nfc ([] ++ l) ↔ ∀ w ∈ wordsFrom isSpace [] l, Canonical nfc w := ih hrest
      rw [List.nil_append] at hl
      rw [h.append_space hc (hspaces c List.mem_cons_self hc), wordsFrom_cons_sep hc, hl, words]
      cases cur with
      | nil => simp [h.nil]
      | cons a cur => simp [flush]
    · rw [Bool.not_eq_true] at hc
      rw [wordsFrom_cons hc, ← ih hrest, List.append_assoc, List.singleton_append]

/-- A text is canonical when its words are. -/
theorem Composes.canonical_iff_words (h : Composes nfc) {l : List Char}
    (hspaces : ∀ c ∈ l, isSpace c = true → Canonical nfc [c]) :
    Canonical nfc l ↔ ∀ w ∈ words isSpace l, Canonical nfc w :=
  @Composes.append_iff_wordsFrom nfc h [] l hspaces

/-- A text with characters taken out is canonical when no stretch of it holds a
character that composes with those before it once the others are gone. -/
theorem Composes.filter_iff (h : Composes nfc) (keep : Char → Bool) (text : List Char) :
    Canonical nfc (text.filter keep) ↔
      ∀ w, w <:+: text → (∀ c ∈ (w.filter keep).tail, ¬ Starts nfc c) →
        Canonical nfc (w.filter keep) := by
  constructor
  · rintro htext w ⟨start, stop, rfl⟩ -
    refine h.of_infix ⟨start.filter keep, stop.filter keep, ?_⟩ htext
    rw [List.filter_append, List.filter_append]
  · intro hstretch
    generalize hn : text.length = n
    induction n using Nat.strong_induction_on generalizing text with
    | _ n ih =>
      by_cases hcut : ∀ c ∈ (text.filter keep).tail, ¬ Starts nfc c
      · exact hstretch text (List.infix_refl text) hcut
      · -- the text is cut before a character that starts afresh
        push Not at hcut
        obtain ⟨c, hc, hstarts⟩ := hcut
        obtain ⟨left, right, htail⟩ := List.append_of_mem hc
        obtain ⟨first, hfirst⟩ : ∃ first, text.filter keep = first :: (left ++ c :: right) := by
          cases hfilter : text.filter keep with
          | nil =>
            rw [hfilter] at hc
            cases hc
          | cons first rest =>
            rw [hfilter, List.tail_cons] at htail
            exact ⟨first, by rw [htail]⟩
        rw [← List.cons_append, List.filter_eq_append_iff] at hfirst
        obtain ⟨before, after, rfl, hbefore, hafter⟩ := hfirst
        have hbeforePos : 0 < before.length := by
          cases before with
          | nil => cases hbefore
          | cons a before => exact Nat.succ_pos _
        have hafterPos : 0 < after.length := by
          cases after with
          | nil => cases hafter
          | cons a after => exact Nat.succ_pos _
        rw [List.length_append] at hn
        have hl := ih before.length (by omega) before
          (fun w hw => hstretch w (hw.trans ⟨[], after, rfl⟩)) rfl
        have hr := ih after.length (by omega) after
          (fun w hw => hstretch w (hw.trans ⟨before, [], by simp⟩)) rfl
        rw [Canonical] at hl hr ⊢
        rw [List.filter_append, hafter, hstarts, ← hafter, hl, hr]

/-- A text is canonical when its stretches are that hold no character that starts
afresh behind their first. -/
theorem Composes.canonical_iff_stretches (h : Composes nfc) (text : List Char) :
    Canonical nfc text ↔
      ∀ w, w <:+: text → (∀ c ∈ w.tail, ¬ Starts nfc c) → Canonical nfc w := by
  have hfilter := h.filter_iff (fun _ => true) text
  simpa only [List.filter_true] using hfilter

end Composition
