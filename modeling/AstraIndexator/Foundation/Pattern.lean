import Mathlib.Data.List.Basic

/-!
# Regular expressions

Patterns matched by backtracking: the ends of the matches at a position come in the
order in which a backtracking matcher tries them, so the first one is the match.  A
pattern none of whose classes accepts a character never reads past it, and what it
matches before that character does not depend on what follows.
-/

/-- A position in a text: the character before it and the text after it. -/
structure Cursor where
  previous : Option Char
  rest : List Char

namespace Cursor

/-- The same position in a longer text. -/
def append (c : Cursor) (l : List Char) : Cursor := ⟨c.previous, c.rest ++ l⟩

/-- The text ends with a character that is still ahead. -/
def StopsAt (x : Char) (c : Cursor) : Prop := ∃ a, c.rest = a ++ [x]

@[simp] theorem append_previous (c : Cursor) (l : List Char) :
    (c.append l).previous = c.previous := rfl

@[simp] theorem append_rest (c : Cursor) (l : List Char) : (c.append l).rest = c.rest ++ l := rfl

end Cursor

inductive Pattern
  | empty
  | char (accepts : Char → Bool)
  | boundary (isWord : Char → Bool)
  | seq (first second : Pattern)
  | alt (first second : Pattern)
  | star (body : Pattern)

namespace Pattern

/-! ## Abbreviations -/

/-- The characters of a text, one after the other. -/
def literal : List Char → Pattern
  | [] => empty
  | c :: l => seq (char (· == c)) (literal l)

/-- The patterns one after the other. -/
def inOrder : List Pattern → Pattern
  | [] => empty
  | p :: ps => seq p (inOrder ps)

/-- The first of the patterns that leads to a match. -/
def oneOf : List Pattern → Pattern
  | [] => char fun _ => false
  | [p] => p
  | p :: ps => alt p (oneOf ps)

def optional (p : Pattern) : Pattern := alt p empty

/-- `p{n}` -/
def power (p : Pattern) : Nat → Pattern
  | 0 => empty
  | n + 1 => seq p (power p n)

/-- `p{0,n}` -/
def upTo (p : Pattern) : Nat → Pattern
  | 0 => empty
  | n + 1 => optional (seq p (upTo p n))

/-- `p{m,n}` -/
def between (p : Pattern) (m n : Nat) : Pattern := seq (power p m) (upTo p (n - m))

/-- `p{n,}` -/
def atLeast (p : Pattern) (n : Nat) : Pattern := seq (power p n) (star p)

/-! ## Matching -/

/-- The ends of the iterations of a body, the longest first.  An iteration that reads
nothing is not continued. -/
def starEnds (step : Cursor → List Cursor) : Nat → Cursor → List Cursor
  | 0, c => [c]
  | n + 1, c =>
    ((step c).filter fun e => e.rest.length < c.rest.length).flatMap (starEnds step n) ++ [c]

/-- The ends of the matches at a position, in the order of the search. -/
def ends : Pattern → Cursor → List Cursor
  | empty, c => [c]
  | char accepts, c =>
    match c.rest with
    | [] => []
    | x :: l => if accepts x then [⟨some x, l⟩] else []
  | boundary isWord, c =>
    if c.previous.any isWord != c.rest.head?.any isWord then [c] else []
  | seq first second, c => (first.ends c).flatMap second.ends
  | alt first second, c => first.ends c ++ second.ends c
  | star body, c => starEnds body.ends c.rest.length c

/-- The length of the match at the start of a text. -/
def matchLength (p : Pattern) (previous : Option Char) (text : List Char) : Option Nat :=
  (p.ends ⟨previous, text⟩).head?.map fun e => text.length - e.rest.length

/-- The spans of the matches found from a position on, each search going on where the
last match ended.  The pattern is one that matches no empty text. -/
def spansFrom (p : Pattern) : Option Char → List Char → Nat → Nat → List (Nat × Nat)
  | _, [], _, _ => []
  | _, c :: l, position, skipped + 1 => p.spansFrom (some c) l (position + 1) skipped
  | previous, c :: l, position, 0 =>
    match p.matchLength previous (c :: l) with
    | none => p.spansFrom (some c) l (position + 1) 0
    | some n => (position, position + n) :: p.spansFrom (some c) l (position + 1) (n - 1)

/-- `finditer` -/
def spans (p : Pattern) (text : List Char) : List (Nat × Nat) := p.spansFrom none text 0 0

/-! ## Characters a pattern cannot read -/

/-- No class of the pattern accepts the character. -/
def Refuses (x : Char) : Pattern → Prop
  | empty => True
  | char accepts => accepts x = false
  | boundary _ => True
  | seq first second => first.Refuses x ∧ second.Refuses x
  | alt first second => first.Refuses x ∧ second.Refuses x
  | star body => body.Refuses x

variable {x : Char}

theorem refuses_seq {p q : Pattern} (hp : p.Refuses x) (hq : q.Refuses x) :
    (seq p q).Refuses x := ⟨hp, hq⟩

theorem refuses_literal {l : List Char} (hl : x ∉ l) : (literal l).Refuses x := by
  induction l with
  | nil => exact trivial
  | cons c l ih =>
    refine ⟨?_, ih fun hmem => hl (List.mem_cons_of_mem c hmem)⟩
    have hne : x ≠ c := fun heq => hl (heq ▸ List.mem_cons_self)
    exact beq_eq_false_iff_ne.mpr hne

theorem refuses_inOrder {ps : List Pattern} (hps : ∀ p ∈ ps, p.Refuses x) :
    (inOrder ps).Refuses x := by
  induction ps with
  | nil => exact trivial
  | cons p ps ih =>
    exact ⟨hps p List.mem_cons_self, ih fun q hq => hps q (List.mem_cons_of_mem p hq)⟩

theorem refuses_oneOf {ps : List Pattern} (hps : ∀ p ∈ ps, p.Refuses x) :
    (oneOf ps).Refuses x := by
  induction ps with
  | nil => exact rfl
  | cons p ps ih =>
    have hrest := ih fun q hq => hps q (List.mem_cons_of_mem p hq)
    cases ps with
    | nil => exact hps p List.mem_cons_self
    | cons q ps => exact ⟨hps p List.mem_cons_self, hrest⟩

theorem refuses_optional {p : Pattern} (hp : p.Refuses x) : (optional p).Refuses x :=
  ⟨hp, trivial⟩

theorem refuses_power {p : Pattern} (hp : p.Refuses x) (n : Nat) : (power p n).Refuses x := by
  induction n with
  | zero => exact trivial
  | succ n ih => exact ⟨hp, ih⟩

theorem refuses_upTo {p : Pattern} (hp : p.Refuses x) (n : Nat) : (upTo p n).Refuses x := by
  induction n with
  | zero => exact trivial
  | succ n ih => exact ⟨⟨hp, ih⟩, trivial⟩

theorem refuses_between {p : Pattern} (hp : p.Refuses x) (m n : Nat) :
    (between p m n).Refuses x := ⟨refuses_power hp m, refuses_upTo hp (n - m)⟩

theorem refuses_atLeast {p : Pattern} (hp : p.Refuses x) (n : Nat) : (atLeast p n).Refuses x :=
  ⟨refuses_power hp n, hp⟩

/-! ## Matches before such a character -/

theorem starEnds_stopsAt {step : Cursor → List Cursor}
    (hstep : ∀ c e, c.StopsAt x → e ∈ step c → e.StopsAt x) (n : Nat) :
    ∀ c e, c.StopsAt x → e ∈ starEnds step n c → e.StopsAt x := by
  induction n with
  | zero =>
    intro c e hc he
    exact List.mem_singleton.mp he ▸ hc
  | succ n ih =>
    intro c e hc he
    rcases List.mem_append.mp he with he | he
    · obtain ⟨d, hd, he⟩ := List.mem_flatMap.mp he
      exact ih d e (hstep c d hc (List.mem_filter.mp hd).1) he
    · exact List.mem_singleton.mp he ▸ hc

/-- A match ends before the last character. -/
theorem ends_stopsAt {p : Pattern} (hp : p.Refuses x) :
    ∀ c e, c.StopsAt x → e ∈ p.ends c → e.StopsAt x := by
  induction p with
  | empty =>
    intro c e hc he
    exact List.mem_singleton.mp he ▸ hc
  | char accepts =>
    intro c e hc he
    obtain ⟨a, ha⟩ := hc
    have hrefused : accepts x = false := hp
    cases a with
    | nil =>
      rw [ends, ha] at he
      simp [hrefused] at he
    | cons y a =>
      rw [ends, ha] at he
      by_cases hy : accepts y
      · simp only [List.cons_append, hy, if_true, List.mem_singleton] at he
        exact ⟨a, by rw [he]⟩
      · simp [hy] at he
  | boundary isWord =>
    intro c e hc he
    rw [ends] at he
    split at he
    · exact List.mem_singleton.mp he ▸ hc
    · exact absurd he List.not_mem_nil
  | seq first second ihfirst ihsecond =>
    intro c e hc he
    obtain ⟨d, hd, he⟩ := List.mem_flatMap.mp he
    exact ihsecond hp.2 d e (ihfirst hp.1 c d hc hd) he
  | alt first second ihfirst ihsecond =>
    intro c e hc he
    rcases List.mem_append.mp he with he | he
    · exact ihfirst hp.1 c e hc he
    · exact ihsecond hp.2 c e hc he
  | star body ih =>
    intro c e hc he
    exact starEnds_stopsAt (ih hp) c.rest.length c e hc he

/-- More fuel than the characters ahead changes nothing. -/
theorem starEnds_fuel (step : Cursor → List Cursor) (n : Nat) :
    ∀ (m : Nat) (c : Cursor), c.rest.length ≤ n → c.rest.length ≤ m →
      starEnds step n c = starEnds step m c := by
  have hdone : ∀ (k : Nat) (c : Cursor), c.rest.length = 0 → starEnds step k c = [c] := by
    intro k c hc
    cases k with
    | zero => rfl
    | succ k => simp [starEnds, hc]
  induction n with
  | zero =>
    intro m c hn _
    rw [hdone 0 c (by omega), hdone m c (by omega)]
  | succ n ih =>
    intro m c hn hm
    cases m with
    | zero => rw [hdone (n + 1) c (by omega), hdone 0 c (by omega)]
    | succ m =>
      rw [starEnds, starEnds]
      congr 1
      apply List.flatMap_congr
      intro e he
      have hlt : e.rest.length < c.rest.length := by simpa using (List.mem_filter.mp he).2
      exact ih m e (by omega) (by omega)

theorem starEnds_append {step : Cursor → List Cursor}
    (hstops : ∀ c e, c.StopsAt x → e ∈ step c → e.StopsAt x) (l : List Char)
    (hstep : ∀ c, c.StopsAt x → step (c.append l) = (step c).map fun e => e.append l) (n : Nat) :
    ∀ c, c.StopsAt x → starEnds step n (c.append l) =
      (starEnds step n c).map fun e => e.append l := by
  induction n with
  | zero =>
    intro c _
    rfl
  | succ n ih =>
    intro c hc
    rw [starEnds, starEnds, hstep c hc, List.filter_map, List.flatMap_map, List.map_append,
      List.map_flatMap]
    have hlength : ((fun e : Cursor => decide (e.rest.length < (c.append l).rest.length)) ∘
        fun e : Cursor => e.append l) = fun e => decide (e.rest.length < c.rest.length) := by
      funext e
      simp
    rw [hlength]
    congr 1
    apply List.flatMap_congr
    intro e he
    exact ih e (hstops c e hc (List.mem_filter.mp he).1)

/-- The text after the last character does not matter. -/
theorem ends_append {p : Pattern} (hp : p.Refuses x) (l : List Char) :
    ∀ c, c.StopsAt x → p.ends (c.append l) = (p.ends c).map fun e => e.append l := by
  induction p with
  | empty =>
    intro c _
    rfl
  | char accepts =>
    intro c hc
    obtain ⟨a, ha⟩ := hc
    rw [ends, ends, Cursor.append_rest, ha]
    cases a with
    | nil =>
      have hrefused : accepts x = false := hp
      simp [hrefused]
    | cons y a =>
      by_cases hy : accepts y
      · simp [hy, Cursor.append]
      · simp [hy]
  | boundary isWord =>
    intro c hc
    obtain ⟨a, ha⟩ := hc
    have hhead : (c.append l).rest.head? = c.rest.head? := by
      rw [Cursor.append_rest, ha]
      cases a <;> rfl
    rw [ends, ends, hhead, Cursor.append_previous]
    split <;> rfl
  | seq first second ihfirst ihsecond =>
    intro c hc
    rw [ends, ends, ihfirst hp.1 c hc, List.flatMap_map, List.map_flatMap]
    apply List.flatMap_congr
    intro e he
    exact ihsecond hp.2 e (ends_stopsAt hp.1 c e hc he)
  | alt first second ihfirst ihsecond =>
    intro c hc
    rw [ends, ends, ihfirst hp.1 c hc, ihsecond hp.2 c hc, List.map_append]
  | star body ih =>
    intro c hc
    have hfuel : starEnds body.ends (c.append l).rest.length c =
        starEnds body.ends c.rest.length c :=
      starEnds_fuel body.ends _ _ c (by simp) (Nat.le_refl _)
    have hbody : body.Refuses x := hp
    rw [ends, ends, starEnds_append (ends_stopsAt hbody) l (ih hp) _ c hc, hfuel]

/-- What is matched before the character is matched whatever follows it. -/
theorem matchLength_append {p : Pattern} (hp : p.Refuses x) (a l : List Char)
    (previous : Option Char) :
    p.matchLength previous (a ++ x :: l) = p.matchLength previous (a ++ [x]) := by
  have hends := ends_append hp l ⟨previous, a ++ [x]⟩ ⟨a, rfl⟩
  have htext : (Cursor.mk previous (a ++ [x])).append l = ⟨previous, a ++ x :: l⟩ := by
    simp [Cursor.append]
  rw [htext] at hends
  rw [matchLength, matchLength, hends, List.head?_map, Option.map_map]
  congr 1
  funext e
  simp
  omega

/-! ## Spans before such a character -/

theorem spansFrom_starts (p : Pattern) (text : List Char) :
    ∀ (previous : Option Char) (position skipped : Nat),
      ∀ span ∈ p.spansFrom previous text position skipped, position ≤ span.1 := by
  induction text with
  | nil =>
    intro previous position skipped span hspan
    exact absurd hspan (by simp [spansFrom])
  | cons c l ih =>
    intro previous position skipped span hspan
    cases skipped with
    | succ skipped =>
      have := ih (some c) (position + 1) skipped span hspan
      omega
    | zero =>
      rw [spansFrom] at hspan
      split at hspan
      · have := ih (some c) (position + 1) 0 span hspan
        omega
      · rcases List.mem_cons.mp hspan with heq | hspan
        · exact Nat.le_of_eq (by rw [heq])
        · have := ih (some c) (position + 1) _ span hspan
          omega

/-- What follows the character only adds spans that start after it. -/
theorem spansFrom_append {p : Pattern} (hp : p.Refuses x) (l : List Char) (a : List Char) :
    ∀ (previous : Option Char) (position skipped : Nat), ∃ more : List (Nat × Nat),
      p.spansFrom previous (a ++ x :: l) position skipped =
        p.spansFrom previous (a ++ [x]) position skipped ++ more ∧
      ∀ span ∈ more, position + a.length < span.1 := by
  induction a with
  | nil =>
    intro previous position skipped
    have hmore : ∀ skipped, ∀ span ∈ p.spansFrom (some x) l (position + 1) skipped,
        position + ([] : List Char).length < span.1 := by
      intro skipped span hspan
      have := spansFrom_starts p l (some x) (position + 1) skipped span hspan
      simp only [List.length_nil]
      omega
    cases skipped with
    | succ skipped => exact ⟨_, rfl, hmore skipped⟩
    | zero =>
      have hlength := matchLength_append hp [] l previous
      simp only [List.nil_append] at hlength
      simp only [List.nil_append, spansFrom, hlength]
      cases p.matchLength previous [x] with
      | none => exact ⟨_, rfl, hmore 0⟩
      | some n => exact ⟨_, rfl, hmore (n - 1)⟩
  | cons c a ih =>
    intro previous position skipped
    have hposition : ∀ more : List (Nat × Nat),
        (∀ span ∈ more, position + 1 + a.length < span.1) →
        ∀ span ∈ more, position + (c :: a).length < span.1 := by
      intro more hmore span hspan
      have := hmore span hspan
      simp only [List.length_cons]
      omega
    cases skipped with
    | succ skipped =>
      obtain ⟨more, heq, hmore⟩ := ih (some c) (position + 1) skipped
      exact ⟨more, heq, hposition more hmore⟩
    | zero =>
      have hlength := matchLength_append hp (c :: a) l previous
      simp only [List.cons_append] at hlength
      simp only [List.cons_append, spansFrom, hlength]
      cases p.matchLength previous (c :: (a ++ [x])) with
      | none =>
        obtain ⟨more, heq, hmore⟩ := ih (some c) (position + 1) 0
        exact ⟨more, heq, hposition more hmore⟩
      | some n =>
        obtain ⟨more, heq, hmore⟩ := ih (some c) (position + 1) (n - 1)
        exact ⟨more, congrArg _ heq, hposition more hmore⟩

/-- Whether a span before the character meets a range does not depend on what follows. -/
theorem any_spans_append {p : Pattern} (hp : p.Refuses x) (a l : List Char) (start : Nat) {stop}
    (hstop : stop ≤ a.length + 1) :
    ((p.spans (a ++ x :: l)).any fun span => decide (span.1 < stop) && decide (span.2 > start)) =
      (p.spans (a ++ [x])).any fun span => decide (span.1 < stop) && decide (span.2 > start) := by
  obtain ⟨more, heq, hmore⟩ := spansFrom_append hp l a none 0 0
  rw [spans, spans, heq, List.any_append]
  have hnone : (more.any fun span => decide (span.1 < stop) && decide (span.2 > start)) = false := by
    rw [List.any_eq_false]
    intro span hspan
    have := hmore span hspan
    simp only [Bool.and_eq_true, decide_eq_true_eq, not_and]
    intro hlt
    omega
  rw [hnone, Bool.or_false]

end Pattern
