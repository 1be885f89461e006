import Mathlib.Algebra.Ring.Int.Defs
import Mathlib.Algebra.Ring.Nat
import Mathlib.Data.Char
import Mathlib.Data.List.Infix

/-!
# Python text operations

Strings are compared, trimmed and re-cased by the code points they consist of.
Trimming uses Python's whitespace, which is larger than ASCII whitespace.  Case
mapping is given for ASCII and for the characters outside ASCII whose image
contains an ASCII character.  The other characters outside ASCII are left alone:
their image contains no ASCII character, so no comparison with an ASCII text can
tell the image from the character.
-/

namespace Text

-- a name for what membership in a list of texts is decided with
instance lawfulBEqChars : LawfulBEq (List Char) := inferInstance

/-- `str.isspace` of one character. -/
def isSpace (c : Char) : Bool :=
  let n := c.toNat
  (0x9 ≤ n && n ≤ 0xd) || (0x1c ≤ n && n ≤ 0x20) || n == 0x85 || n == 0xa0 || n == 0x1680 ||
    (0x2000 ≤ n && n ≤ 0x200a) || n == 0x2028 || n == 0x2029 || n == 0x202f || n == 0x205f ||
    n == 0x3000

def stripChars (cs : List Char) : List Char :=
  ((cs.dropWhile isSpace).reverse.dropWhile isSpace).reverse

/-- `str.strip()`. -/
def strip (s : String) : String := String.ofList (stripChars s.toList)

/-- `not s.strip()`. -/
def isBlank (s : String) : Bool := s.toList.all isSpace

/-- `str.upper()` of one character, up to images without an ASCII character. -/
def upperChar (c : Char) : List Char :=
  if 'a' ≤ c ∧ c ≤ 'z' then [Char.ofNat (c.toNat - 32)]
  else match c.toNat with
    | 0xdf => ['S', 'S']
    | 0x131 => ['I']
    | 0x149 => [Char.ofNat 0x2bc, 'N']
    | 0x17f => ['S']
    | 0x1f0 => ['J', Char.ofNat 0x30c]
    | 0x1e96 => ['H', Char.ofNat 0x331]
    | 0x1e97 => ['T', Char.ofNat 0x308]
    | 0x1e98 => ['W', Char.ofNat 0x30a]
    | 0x1e99 => ['Y', Char.ofNat 0x30a]
    | 0x1e9a => ['A', Char.ofNat 0x2be]
    | 0xfb00 => ['F', 'F']
    | 0xfb01 => ['F', 'I']
    | 0xfb02 => ['F', 'L']
    | 0xfb03 => ['F', 'F', 'I']
    | 0xfb04 => ['F', 'F', 'L']
    | 0xfb05 => ['S', 'T']
    | 0xfb06 => ['S', 'T']
    | _ => [c]

/-- `str.upper()`. -/
def upper (s : String) : String := String.ofList (s.toList.flatMap upperChar)

/-- `str.lower()` of one character, up to images without an ASCII character. -/
def lowerChar (c : Char) : List Char :=
  if 'A' ≤ c ∧ c ≤ 'Z' then [Char.ofNat (c.toNat + 32)]
  else match c.toNat with
    | 0x130 => ['i', Char.ofNat 0x307]
    | 0x212a => ['k']
    | _ => [c]

/-- `str.lower()`. -/
def lower (s : String) : String := String.ofList (s.toList.flatMap lowerChar)

/-- `needle in hay`. -/
def contains (hay needle : String) : Bool := decide (needle.toList <:+: hay.toList)

/-- `s.endswith(suffix)`. -/
def endsWith (s tail : String) : Bool := decide (tail.toList <:+ s.toList)

/-- `s.removeprefix(head)`. -/
def removePrefix (s head : String) : String :=
  if head.toList <+: s.toList then String.ofList (s.toList.drop head.length) else s

/-- Code-point order of two character lists, the order Python sorts strings by. -/
def charsLe : List Char → List Char → Bool
  | [], _ => true
  | _ :: _, [] => false
  | a :: as, b :: bs => if a = b then charsLe as bs else decide (a < b)

theorem charsLe_total (as bs : List Char) : charsLe as bs = true ∨ charsLe bs as = true := by
  induction as generalizing bs with
  | nil => exact .inl rfl
  | cons a as ih =>
    cases bs with
    | nil => exact .inr rfl
    | cons b bs =>
      by_cases heq : a = b
      · subst heq
        simpa [charsLe] using ih bs
      · simp only [charsLe, if_neg heq, if_neg (Ne.symm heq), decide_eq_true_eq]
        exact lt_or_gt_of_ne heq

theorem charsLe_trans {as bs cs : List Char} (h : charsLe as bs = true)
    (h' : charsLe bs cs = true) : charsLe as cs = true := by
  induction as generalizing bs cs with
  | nil => rfl
  | cons a as ih =>
    cases bs with
    | nil => cases h
    | cons b bs =>
      cases cs with
      | nil => cases h'
      | cons c cs =>
        simp only [charsLe] at h h' ⊢
        by_cases hab : a = b
        · subst hab
          rw [if_pos rfl] at h
          by_cases hac : a = c
          · subst hac
            rw [if_pos rfl] at h' ⊢
            exact ih h h'
          · rwa [if_neg hac] at h' ⊢
        · rw [if_neg hab, decide_eq_true_eq] at h
          by_cases hbc : b = c
          · subst hbc
            rwa [if_neg hab, decide_eq_true_eq]
          · rw [if_neg hbc, decide_eq_true_eq] at h'
            have hac := h.trans h'
            rwa [if_neg hac.ne, decide_eq_true_eq]

/-- `str.encode("utf-8")`. -/
def utf8 (cs : List Char) : List UInt8 := cs.flatMap String.utf8EncodeChar

/-- A lowercase hexadecimal digit. -/
def isHexDigit (c : Char) : Bool := ('0' ≤ c && c ≤ '9') || ('a' ≤ c && c ≤ 'f')

/-- The lowercase hexadecimal digit of a number below sixteen. -/
def hexDigit (n : Nat) : Char := if n < 10 then Char.ofNat (48 + n) else Char.ofNat (87 + n)

/-- The last `width` hexadecimal digits of a number. -/
def hexChars : Nat → Nat → List Char
  | 0, _ => []
  | width + 1, n => hexChars width (n / 16) ++ [hexDigit (n % 16)]

theorem hexChars_length (width n : Nat) : (hexChars width n).length = width := by
  induction width generalizing n with
  | zero => rfl
  | succ width ih => rw [hexChars, List.length_append, ih]; rfl

theorem isHexDigit_hexDigit {n : Nat} (h : n < 16) : isHexDigit (hexDigit n) = true := by
  revert h n
  decide

theorem hexChars_isHexDigit (width n : Nat) : ∀ c ∈ hexChars width n, isHexDigit c = true := by
  induction width generalizing n with
  | zero => simp [hexChars]
  | succ width ih =>
    intro c hc
    rw [hexChars, List.mem_append, List.mem_singleton] at hc
    rcases hc with hc | rfl
    · exact ih (n / 16) c hc
    · exact isHexDigit_hexDigit (Nat.mod_lt n (by omega))

theorem hexDigit_injective : ∀ m < 16, ∀ n < 16, hexDigit m = hexDigit n → m = n := by
  decide

/-- The digits determine the number up to its leading part. -/
theorem mod_eq_of_hexChars_eq {width m n : Nat} (h : hexChars width m = hexChars width n) :
    m % 16 ^ width = n % 16 ^ width := by
  induction width generalizing m n with
  | zero => rw [Nat.pow_zero, Nat.mod_one, Nat.mod_one]
  | succ width ih =>
    obtain ⟨hhead, hlast⟩ := List.append_inj' h rfl
    have hdigit := hexDigit_injective _ (Nat.mod_lt m (by decide)) _ (Nat.mod_lt n (by decide))
      (List.cons.inj hlast).1
    rw [Nat.pow_succ', Nat.mod_mul, Nat.mod_mul, hdigit, ih hhead]
/-- A hexadecimal digit is the digit of some number below sixteen. -/
theorem exists_hexDigit {c : Char} (h : isHexDigit c = true) : ∃ n, n < 16 ∧ hexDigit n = c := by
  simp only [isHexDigit, Bool.or_eq_true, Bool.and_eq_true, decide_eq_true_eq, Char.le_def,
    UInt32.le_iff_toNat_le] at h
  have hc : Char.ofNat c.val.toNat = c := Char.ofNat_toNat c
  rcases h with ⟨h₁, h₂⟩ | ⟨h₁, h₂⟩
  · change 48 ≤ c.val.toNat at h₁
    change c.val.toNat ≤ 57 at h₂
    refine ⟨c.val.toNat - 48, by omega, ?_⟩
    rw [hexDigit, if_pos (by omega), ← hc]
    congr 1
    rw [hc]
    omega
  · change 97 ≤ c.val.toNat at h₁
    change c.val.toNat ≤ 102 at h₂
    refine ⟨c.val.toNat - 87, by omega, ?_⟩
    rw [hexDigit, if_neg (by omega), ← hc]
    congr 1
    rw [hc]
    omega

theorem isSpace_of_isHexDigit {c : Char} (h : isHexDigit c = true) : isSpace c = false := by
  obtain ⟨n, hn, rfl⟩ := exists_hexDigit h
  revert hn n
  decide

theorem lowerChar_of_isHexDigit {c : Char} (h : isHexDigit c = true) : lowerChar c = [c] := by
  obtain ⟨n, hn, rfl⟩ := exists_hexDigit h
  revert hn n
  decide

theorem stripChars_of_forall {cs : List Char} (h : ∀ c ∈ cs, isSpace c = false) :
    stripChars cs = cs := by
  have hdrop : ∀ l : List Char, (∀ c ∈ l, isSpace c = false) → l.dropWhile isSpace = l := by
    intro l hl
    cases l with
    | nil => rfl
    | cons a l => rw [List.dropWhile_cons, hl a List.mem_cons_self]; rfl
  rw [stripChars, hdrop cs h, hdrop _ (fun c hc => h c (List.mem_reverse.mp hc)),
    List.reverse_reverse]

end Text
