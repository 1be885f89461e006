import AstraIndexator.Foundation.JsonReader

/-!
# Numerals

`int(text, base)` in base ten and sixteen, and zero-padded decimals.
-/

namespace Text

/-- `s.startswith(head)`. -/
def startsWith (s head : String) : Bool := decide (head.toList <+: s.toList)

/-- `f"{n:0{width}d}"` of a natural number. -/
def zeroPad (width n : Nat) : List Char :=
  let digits := (toString n).toList
  List.replicate (width - digits.length) '0' ++ digits

/-- The value of a digit below the base. -/
def digitValue? (py : PythonRuntime) (base : Nat) (c : Char) : Option Nat :=
  let value :=
    if '0' ≤ c ∧ c ≤ '9' then some (c.toNat - 48)
    else if 'a' ≤ c ∧ c ≤ 'f' then some (c.toNat - 87)
    else if 'A' ≤ c ∧ c ≤ 'F' then some (c.toNat - 55)
    else if c.toNat < 128 then none
    else py.decimal? c
  value.filter (· < base)

/-- Digits with single underscores between them. -/
def natOfText? (py : PythonRuntime) (base : Nat) (cs : List Char) : Option Nat :=
  if cs = [] ∨ cs.head? = some '_' ∨ cs.getLast? = some '_' ∨ ['_', '_'] <:+: cs then none
  else (cs.filter (· ≠ '_')).foldlM (fun n c => (digitValue? py base c).map (n * base + ·)) 0

def dropHexPrefix : List Char → List Char
  | '0' :: x :: '_' :: cs => if x = 'x' ∨ x = 'X' then cs else '0' :: x :: '_' :: cs
  | '0' :: x :: cs => if x = 'x' ∨ x = 'X' then cs else '0' :: x :: cs
  | cs => cs

/-- `int(text, base)`, which raises a `ValueError` where this is `none`.  Only decimal
numerals are bounded in length. -/
def intOfText? (py : PythonRuntime) (base : Nat) (cs : List Char) : Option Int :=
  let cs := stripChars cs
  let negative := cs.head? = some '-'
  let cs := if negative ∨ cs.head? = some '+' then cs.tail else cs
  let cs := if base = 16 then dropHexPrefix cs else cs
  if base = 10 ∧ ¬ py.admits (cs.filter (· ≠ '_')).length then none
  else (natOfText? py base cs).map fun n => if negative then -(n : Int) else n

/-- `text.replace(pattern, "")`, with the length of the text as fuel. -/
def removeAll (pattern : List Char) : Nat → List Char → List Char
  | 0, cs => cs
  | _ + 1, [] => []
  | fuel + 1, c :: cs =>
    if pattern.isPrefixOf (c :: cs) then removeAll pattern fuel ((c :: cs).drop pattern.length)
    else c :: removeAll pattern fuel cs

/-- A padded numeral determines the number. -/
theorem zeroPad_injective {width m n : Nat} (h : zeroPad width m = zeroPad width n) : m = n := by
  have hvalue : ∀ k, Nat.ofDigitChars 10 (zeroPad width k) 0 = k := by
    intro k
    have htext : (toString k).toList = Nat.toDigits 10 k := Nat.toList_repr
    simp only [zeroPad]
    rw [Nat.ofDigitChars_append, Nat.ofDigitChars_replicate_zero, Nat.mul_zero, htext,
      Nat.ofDigitChars_ten_toDigits]
  rw [← hvalue m, h, hvalue n]

theorem removeAll_of_not_mem {pattern cs : List Char} {c : Char} (hpattern : c ∈ pattern)
    (hcs : c ∉ cs) (fuel : Nat) : removeAll pattern fuel cs = cs := by
  induction fuel generalizing cs with
  | zero => rfl
  | succ fuel ih =>
    cases cs with
    | nil => rfl
    | cons d cs =>
      have hpre : ¬ pattern.isPrefixOf (d :: cs) = true := by
        rw [List.isPrefixOf_iff_prefix]
        exact fun h => hcs (h.subset hpattern)
      rw [removeAll, if_neg hpre, ih (List.not_mem_of_not_mem_cons hcs)]

section Hex

variable {py : PythonRuntime}

theorem digitValue?_hexDigit {d : Nat} (hd : d < 16) :
    digitValue? py 16 (hexDigit d) = some d := by
  have hvalue : ∀ d < 16, (if '0' ≤ hexDigit d ∧ hexDigit d ≤ '9' then
      some ((hexDigit d).toNat - 48)
    else if 'a' ≤ hexDigit d ∧ hexDigit d ≤ 'f' then some ((hexDigit d).toNat - 87)
    else none) = some d := by decide
  have hv := hvalue d hd
  unfold digitValue?
  by_cases h₁ : '0' ≤ hexDigit d ∧ hexDigit d ≤ '9'
  · rw [if_pos h₁] at hv
    simp only [if_pos h₁, hv, Option.filter_some, decide_eq_true hd, if_true]
  · rw [if_neg h₁] at hv
    by_cases h₂ : 'a' ≤ hexDigit d ∧ hexDigit d ≤ 'f'
    · rw [if_pos h₂] at hv
      simp only [if_neg h₁, if_pos h₂, hv, Option.filter_some, decide_eq_true hd, if_true]
    · rw [if_neg h₂] at hv
      cases hv

theorem foldlM_hexChars (width n acc : Nat) :
    (hexChars width n).foldlM (fun n c => (digitValue? py 16 c).map (n * 16 + ·)) acc =
      some (acc * 16 ^ width + n % 16 ^ width) := by
  induction width generalizing n with
  | zero => simp [hexChars, Nat.mod_one]
  | succ width ih =>
    rw [hexChars, List.foldlM_append, ih]
    simp only [Option.bind_eq_bind, Option.bind_some, List.foldlM_cons, List.foldlM_nil,
      digitValue?_hexDigit (Nat.mod_lt n (show 16 > 0 by decide)), Option.map_some,
      Option.pure_def, Option.some.injEq]
    rw [Nat.pow_succ', Nat.mod_mul, Nat.add_mul, Nat.mul_assoc, Nat.mul_comm (16 ^ width) 16]
    omega

theorem ne_of_isHexDigit {c d : Char} (h : isHexDigit c = true) (hd : isHexDigit d = false) :
    c ≠ d := by
  rintro rfl
  rw [h] at hd
  cases hd

/-- Hexadecimal digits are read as their number. -/
theorem intOfText?_hexChars (width n : Nat) (hwidth : 0 < width) :
    intOfText? py 16 (hexChars width n) = some ((n % 16 ^ width : Nat) : Int) := by
  have hdigits := hexChars_isHexDigit width n
  have hne : ∀ d, isHexDigit d = false → d ∉ hexChars width n :=
    fun d hd hmem => ne_of_isHexDigit (hdigits d hmem) hd rfl
  have hhead : ∀ d, isHexDigit d = false → (hexChars width n).head? ≠ some d :=
    fun d hd hmem => hne d hd (List.mem_of_head? hmem)
  have hstrip : stripChars (hexChars width n) = hexChars width n :=
    stripChars_of_forall fun c hc => isSpace_of_isHexDigit (hdigits c hc)
  have hdrop : dropHexPrefix (hexChars width n) = hexChars width n := by
    have hx : ∀ x ∈ hexChars width n, ¬ (x = 'x' ∨ x = 'X') := by
      rintro x hx (rfl | rfl)
      · exact hne 'x' (by decide) hx
      · exact hne 'X' (by decide) hx
    unfold dropHexPrefix
    split
    · next x cs heq => rw [if_neg (hx x (by rw [heq]; simp)), heq]
    · next x cs _ heq => rw [if_neg (hx x (by rw [heq]; simp)), heq]
    · rfl
  have hfilter : (hexChars width n).filter (· ≠ '_') = hexChars width n := by
    rw [List.filter_eq_self]
    intro c hc
    exact decide_eq_true (ne_of_isHexDigit (hdigits c hc) (by decide))
  have hnonempty : hexChars width n ≠ [] := by
    intro h
    have := congrArg List.length h
    rw [hexChars_length] at this
    exact absurd this (Nat.ne_of_gt hwidth)
  have hnat : natOfText? py 16 (hexChars width n) = some (n % 16 ^ width) := by
    rw [natOfText?, if_neg, hfilter, foldlM_hexChars, Nat.zero_mul, Nat.zero_add]
    rintro (h | h | h | h)
    · exact hnonempty h
    · exact hhead '_' (by decide) h
    · exact hne '_' (by decide) (List.mem_of_getLast? h)
    · exact hne '_' (by decide) (h.subset (by decide))
  simp only [intOfText?, hstrip, hhead '-' (by decide), hhead '+' (by decide), if_true, hdrop,
    false_or, if_false, hnat]
  rfl

end Hex

end Text
