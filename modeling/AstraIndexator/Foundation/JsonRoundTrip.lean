import AstraIndexator.Foundation.JsonReader
import AstraIndexator.Foundation.Transaction
import Mathlib.Data.List.TakeWhile

/-!
# JSON texts are read back

`readValue_render` says that the text of a value is read back as the value with
its fields sorted, whatever follows it.  The steps follow the grammar: numbers,
escapes, strings, items and fields.
-/

namespace Json

open Text

/-! ## Values of Python -/

/-- The `repr` of a float: one of the three special ones, or a number that is read as the
float it shows. -/
def IsFloatRepr (py : PythonRuntime) (repr : String) : Prop :=
  repr ∈ ["nan", "inf", "-inf"] ∨
    (∀ c ∈ repr.toList, isNumberChar c = true) ∧
      numberValue py repr.toList = .ok (.float repr)

/-- What a JSON-shaped Python value satisfies: the keys of a dictionary are distinct, and
the text of a float is its `repr`. -/
inductive Valid (py : PythonRuntime) : Json → Prop
  | null : Valid py .null
  | bool (b : Bool) : Valid py (.bool b)
  | int (n : Int) : Valid py (.int n)
  | float {repr : String} (h : IsFloatRepr py repr) : Valid py (.float repr)
  | str (s : String) : Valid py (.str s)
  | arr {items : List Json} (h : ∀ v ∈ items, Valid py v) : Valid py (.arr items)
  | obj {fields : List (String × Json)} (keys : (fields.map Prod.fst).Nodup)
      (h : ∀ f ∈ fields, Valid py f.2) : Valid py (.obj fields)

variable {py : PythonRuntime}

theorem itemsEncodable_iff {items : List Json} :
    itemsEncodable py items = true ↔ ∀ v ∈ items, v.isEncodable py = true := by
  induction items with
  | nil => simp [itemsEncodable]
  | cons v rest ih => simp [itemsEncodable, ih]

theorem fieldsEncodable_iff {fields : List (String × Json)} :
    fieldsEncodable py fields = true ↔ ∀ f ∈ fields, f.2.isEncodable py = true := by
  induction fields with
  | nil => simp [fieldsEncodable]
  | cons f rest ih => simp [fieldsEncodable, ih]

theorem isEncodable_sorted (v : Json) : v.sorted.isEncodable py = v.isEncodable py := by
  induction v using induction with
  | null => rfl
  | bool b => rfl
  | int n => rfl
  | float repr => rfl
  | str s => rfl
  | arr items ih =>
    rw [sorted_arr, isEncodable, isEncodable, Bool.eq_iff_iff, itemsEncodable_iff,
      itemsEncodable_iff, List.forall_mem_map]
    exact forall₂_congr fun v hv => by rw [ih v hv]
  | obj fields ih =>
    rw [sorted_obj, isEncodable, isEncodable, Bool.eq_iff_iff, fieldsEncodable_iff,
      fieldsEncodable_iff, List.forall_mem_map]
    constructor
    · intro h f hf
      rw [← ih f hf]
      exact h f ((sortFields_perm fields).mem_iff.mpr hf)
    · intro h f hf
      have hmem := (sortFields_perm fields).mem_iff.mp hf
      rw [ih f hmem]
      exact h f hmem

/-! ## Numbers -/

/-- The text does not go on with a number character. -/
def Ends (rest : List Char) : Prop := ∀ c ∈ rest.head?, isNumberChar c = false

/-- No word is read where a number is. -/
theorem find?_words {token rest : List Char} {v : Json}
    (hchars : ∀ c ∈ token, isNumberChar c = true) (hvalue : numberValue py token = .ok v) :
    words.find? (fun w => w.1.isPrefixOf (token ++ rest)) = none := by
  cases token with
  | nil => cases hvalue
  | cons c cs =>
    have hhead : ∀ d, isNumberChar d = false → (d == c) = false := by
      intro d hd
      rw [beq_eq_false_iff_ne]
      rintro rfl
      rw [hchars d List.mem_cons_self] at hd
      cases hd
    -- a sign alone is no number, so the second character of `-Infinity` is not matched either
    have hsign : ('-' == c && ['I', 'n', 'f', 'i', 'n', 'i', 't', 'y'].isPrefixOf (cs ++ rest)) =
        false := by
      by_cases heq : c = '-'
      · subst heq
        cases cs with
        | nil => cases hvalue
        | cons d cs =>
          have hd : 'I' ≠ d := by
            rintro rfl
            exact absurd (hchars 'I' (by simp)) (by decide)
          rw [List.cons_append, List.isPrefixOf_cons_cons, beq_false_of_ne hd, Bool.false_and,
            Bool.and_false]
      · rw [beq_false_of_ne (Ne.symm heq), Bool.false_and]
    simp only [words, List.cons_append, List.find?_cons, List.isPrefixOf_cons_cons,
      hhead 'n' (by decide), hhead 't' (by decide), hhead 'f' (by decide), hhead 'N' (by decide),
      hhead 'I' (by decide), hsign, Bool.false_and, List.find?_nil]

theorem readScalar_number {token rest : List Char} {v : Json}
    (hchars : ∀ c ∈ token, isNumberChar c = true) (hends : Ends rest)
    (hvalue : numberValue py token = .ok v) :
    readScalar py (token ++ rest) = .ok (v, rest) := by
  have htake : rest.takeWhile isNumberChar = [] := by
    cases rest with
    | nil => rfl
    | cons c rest => rw [List.takeWhile_cons, hends c rfl]; rfl
  have hdrop : rest.dropWhile isNumberChar = rest := by
    cases rest with
    | nil => rfl
    | cons c rest => rw [List.dropWhile_cons, hends c rfl]; rfl
  rw [readScalar, find?_words hchars hvalue]
  simp only
  rw [List.takeWhile_append_of_pos hchars, List.dropWhile_append_of_pos hchars, htake,
    hdrop, List.append_nil, hvalue]
  rfl

theorem isNumberChar_of_isDigit {c : Char} (h : c.isDigit = true) : isNumberChar c = true := by
  simp [isNumberChar, h]

theorem toDigits_isDigit (n : Nat) : ∀ c ∈ Nat.toDigits 10 n, c.isDigit = true :=
  fun _ hc => Nat.isDigit_of_mem_toDigits (by decide) (by decide) hc

theorem ne_minus_of_isDigit {c : Char} (h : c.isDigit = true) : c ≠ '-' := by
  rintro rfl
  cases h

/-- The digits of a positive number do not start with a zero. -/
theorem head_toDigits_ne {n : Nat} (hn : 0 < n) : (Nat.toDigits 10 n).head? ≠ some '0' := by
  induction n using Nat.strongRecOn with
  | ind n ih =>
    by_cases hlt : n < 10
    · rw [Nat.toDigits_of_lt_base hlt]
      revert hn
      have hall : ∀ n < 10, 0 < n → [n.digitChar].head? ≠ some '0' := by decide
      exact hall n hlt
    · have hle : 10 ≤ n := Nat.not_lt.mp hlt
      rw [Nat.toDigits_of_base_le (by decide) hle, List.head?_append_of_ne_nil _ Nat.toDigits_ne_nil]
      exact ih (n / 10) (by omega) (by omega)

theorem isIntegerPart_toDigits (n : Nat) : isIntegerPart (Nat.toDigits 10 n) = true := by
  have hdigits := List.all_eq_true.mpr (toDigits_isDigit n)
  cases hcs : Nat.toDigits 10 n with
  | nil => exact absurd hcs Nat.toDigits_ne_nil
  | cons c cs =>
    rw [hcs] at hdigits
    rw [isIntegerPart, hdigits, Bool.and_true, Bool.or_eq_true, decide_eq_true_eq]
    by_cases hn : n = 0
    · subst hn
      rw [Nat.toDigits_zero] at hcs
      right
      rw [← (List.cons.inj hcs).2]
      rfl
    · left
      have hhead := head_toDigits_ne (Nat.pos_of_ne_zero hn)
      rw [hcs] at hhead
      exact fun hc => hhead (congrArg some hc)

theorem toList_ofNat (m : Nat) : (toString (Int.ofNat m)).toList = Nat.toDigits 10 m :=
  Nat.toList_repr

theorem toList_negSucc (m : Nat) :
    (toString (Int.negSucc m)).toList = '-' :: Nat.toDigits 10 (m + 1) := by
  have htext : toString (Int.negSucc m) = "-" ++ Nat.repr (m + 1) := rfl
  rw [htext, String.toList_append, Nat.toList_repr]
  rfl

theorem numberValue_int {n : Int} (h : (int n).isEncodable py = true) :
    numberValue py (toString n).toList = .ok (.int n) := by
  have htake : ∀ m, (Nat.toDigits 10 m).takeWhile Char.isDigit = Nat.toDigits 10 m :=
    fun m => List.takeWhile_eq_self_iff.mpr (toDigits_isDigit m)
  have hdrop : ∀ m, (Nat.toDigits 10 m).dropWhile Char.isDigit = [] :=
    fun m => List.dropWhile_eq_nil_iff.mpr (toDigits_isDigit m)
  have hdigits : (toString n.natAbs).toList = Nat.toDigits 10 n.natAbs := Nat.toList_repr
  rw [isEncodable, hdigits] at h
  cases n with
  | ofNat m =>
    have hhead : (Nat.toDigits 10 m).head? ≠ some '-' := fun hhead =>
      ne_minus_of_isDigit (toDigits_isDigit m '-' (List.mem_of_head? hhead)) rfl
    rw [Int.ofNat_eq_natCast, Int.natAbs_natCast] at h
    rw [toList_ofNat, numberValue]
    simp [hhead, htake, hdrop, isIntegerPart_toDigits, Nat.ofDigitChars_ten_toDigits, h]
  | negSucc m =>
    rw [Int.natAbs_negSucc] at h
    rw [toList_negSucc, numberValue]
    simp [htake, hdrop, isIntegerPart_toDigits, Nat.ofDigitChars_ten_toDigits, Int.negSucc_eq, h]

theorem isNumberChar_int (n : Int) : ∀ c ∈ (toString n).toList, isNumberChar c = true := by
  intro c hc
  cases n with
  | ofNat m =>
    rw [toList_ofNat] at hc
    exact isNumberChar_of_isDigit (toDigits_isDigit m c hc)
  | negSucc m =>
    rw [toList_negSucc] at hc
    rcases List.mem_cons.mp hc with rfl | hc
    · decide
    · exact isNumberChar_of_isDigit (toDigits_isDigit _ c hc)

/-! ## Strings -/

theorem hexValue?_hexDigit : ∀ d < 16, hexValue? (hexDigit d) = some d := by decide

theorem readHex4_hexChars (n : Nat) (rest : List Char) :
    readHex4 (hexChars 4 n ++ rest) = .ok (n % 65536, rest) := by
  have hdigit : ∀ m, hexValue? (hexDigit (m % 16)) = some (m % 16) :=
    fun m => hexValue?_hexDigit _ (Nat.mod_lt m (by decide))
  simp only [hexChars, List.nil_append, List.cons_append, readHex4, hdigit, Except.ok.injEq,
    Prod.mk.injEq, and_true]
  omega

/-- An escape below the space is read as its character. -/
theorem readEscape_unicodeEscape {c : Char} (hc : c.toNat < 32) (rest : List Char) :
    readEscape ('u' :: hexChars 4 c.toNat ++ rest) = .ok (c, rest) := by
  have hmod : c.toNat % 65536 = c.toNat := Nat.mod_eq_of_lt (by omega)
  have hread : readEscape ('u' :: hexChars 4 c.toNat ++ rest) =
      readCodeUnits (hexChars 4 c.toNat ++ rest) := rfl
  rw [hread, readCodeUnits, readHex4_hexChars, hmod]
  simp only [Transaction.except_ok_bind]
  rw [if_neg (by omega), if_neg (by omega), Char.ofNat_toNat]

theorem char_of_toNat {c : Char} {n : Nat} (h : c.toNat = n) : c = Char.ofNat n := by
  rw [← h, Char.ofNat_toNat]

/-- The text of one character is read back in one step. -/
theorem readString_escapeChar (fuel : Nat) (c : Char) (rest : List Char) :
    readString (fuel + 1) (escapeChar false c ++ rest) =
      (readString fuel rest).map fun r => (c :: r.1, r.2) := by
  have hbind : ∀ (e : Char) (escape : List Char), readEscape (escape ++ rest) = .ok (e, rest) →
      readString (fuel + 1) ('\\' :: escape ++ rest) =
        (readString fuel rest).map fun r => (e :: r.1, r.2) := by
    intro e escape hescape
    rw [List.cons_append, readString, if_neg (by decide), if_pos rfl, hescape]
    simp only [Transaction.except_ok_bind]
    cases readString fuel rest with
    | error e => rfl
    | ok r => rfl
  by_cases hquote : c = '"'
  · subst hquote
    exact hbind '"' ['"'] rfl
  by_cases hslash : c = '\\'
  · subst hslash
    exact hbind '\\' ['\\'] rfl
  unfold escapeChar
  simp only [if_neg hquote, if_neg hslash, Bool.false_and, Bool.false_eq_true, if_false]
  by_cases h8 : c.toNat = 8
  · rw [if_pos h8, char_of_toNat h8]
    exact hbind _ ['b'] rfl
  by_cases h9 : c.toNat = 9
  · rw [if_neg h8, if_pos h9, char_of_toNat h9]
    exact hbind _ ['t'] rfl
  by_cases h10 : c.toNat = 10
  · rw [if_neg h8, if_neg h9, if_pos h10, char_of_toNat h10]
    exact hbind _ ['n'] rfl
  by_cases h12 : c.toNat = 12
  · rw [if_neg h8, if_neg h9, if_neg h10, if_pos h12, char_of_toNat h12]
    exact hbind _ ['f'] rfl
  by_cases h13 : c.toNat = 13
  · rw [if_neg h8, if_neg h9, if_neg h10, if_neg h12, if_pos h13, char_of_toNat h13]
    exact hbind _ ['r'] rfl
  rw [if_neg h8, if_neg h9, if_neg h10, if_neg h12, if_neg h13]
  by_cases h32 : c.toNat < 32
  · rw [if_pos h32]
    exact hbind c ('u' :: hexChars 4 c.toNat) (readEscape_unicodeEscape h32 rest)
  · rw [if_neg h32, List.singleton_append, readString, if_neg hquote, if_neg hslash, if_neg h32]
    cases readString fuel rest with
    | error e => rfl
    | ok r => rfl

theorem readString_escaped (cs rest : List Char) {fuel : Nat} (hfuel : cs.length < fuel) :
    readString fuel (cs.flatMap (escapeChar false) ++ '"' :: rest) = .ok (cs, rest) := by
  induction cs generalizing fuel with
  | nil =>
    obtain ⟨fuel, rfl⟩ := Nat.exists_eq_add_one.mpr hfuel
    rfl
  | cons c cs ih =>
    obtain ⟨fuel, rfl⟩ := Nat.exists_eq_add_one.mpr (Nat.zero_lt_of_lt hfuel)
    rw [List.flatMap_cons, List.append_assoc, readString_escapeChar,
      ih (Nat.lt_of_succ_lt_succ hfuel)]
    rfl

theorem length_escapeChar_pos (c : Char) : 0 < (escapeChar false c).length := by
  have hne : escapeChar false c ≠ [] := by
    unfold escapeChar
    simp only
    repeat' split
    all_goals simp [unicodeEscape]
  exact List.length_pos_iff.mpr hne

theorem length_le_quote (s : String) : s.toList.length + 2 ≤ (quote false s).length := by
  have hflat : ∀ cs : List Char, cs.length ≤ (cs.flatMap (escapeChar false)).length := by
    intro cs
    induction cs with
    | nil => exact Nat.le_refl 0
    | cons c cs ih =>
      have hpos := length_escapeChar_pos c
      rw [List.flatMap_cons, List.length_append, List.length_cons]
      omega
  have := hflat s.toList
  rw [quote, List.cons_append, List.length_cons, List.length_append, List.length_singleton]
  omega

/-- A quoted string is read back after its opening quote. -/
theorem readString_quote (s : String) (rest : List Char) {fuel : Nat}
    (hfuel : (quote false s).length ≤ fuel) :
    readString fuel ((quote false s).tail ++ rest) = .ok (s.toList, rest) := by
  have hlength := length_le_quote s
  have htail : (quote false s).tail ++ rest =
      s.toList.flatMap (escapeChar false) ++ '"' :: rest := by
    rw [quote, List.cons_append, List.tail_cons, List.append_assoc, List.singleton_append]
  rw [htail, readString_escaped _ _ (by omega)]

/-! ## Values -/

theorem skipWhitespace_cons {c : Char} (hc : isWhitespace c = false) (cs : List Char) :
    skipWhitespace (c :: cs) = c :: cs := by
  rw [skipWhitespace, List.dropWhile_cons, hc]
  rfl

/-- The text starts with neither white space nor a closing character. -/
def Starts (cs : List Char) : Prop :=
  ∃ c rest, cs = c :: rest ∧ isWhitespace c = false ∧ c ≠ ']' ∧ c ≠ '}'

theorem Starts.append {cs : List Char} (h : Starts cs) (rest : List Char) :
    Starts (cs ++ rest) := by
  obtain ⟨c, tail, rfl, hc⟩ := h
  exact ⟨c, tail ++ rest, rfl, hc⟩

theorem Starts.skipWhitespace {cs : List Char} (h : Starts cs) : skipWhitespace cs = cs := by
  obtain ⟨c, rest, rfl, hc, -⟩ := h
  exact skipWhitespace_cons hc rest

theorem starts_quote (s : String) : Starts (quote false s) := ⟨'"', _, rfl, by decide⟩

theorem starts_of_isNumberChar {cs : List Char} (hne : cs ≠ [])
    (h : ∀ c ∈ cs, isNumberChar c = true) : Starts cs := by
  cases cs with
  | nil => exact absurd rfl hne
  | cons c rest =>
    have hc := h c List.mem_cons_self
    have hne : ∀ d, isNumberChar d = false → c ≠ d := by
      rintro d hd rfl
      rw [hd] at hc
      cases hc
    refine ⟨c, rest, rfl, ?_, hne ']' (by decide), hne '}' (by decide)⟩
    simp [isWhitespace, hne ' ' (by decide), hne '\t' (by decide), hne '\n' (by decide),
      hne '\r' (by decide)]

theorem numberValue_ne_nil {token : List Char} {v : Json} (h : numberValue py token = .ok v) :
    token ≠ [] := by
  rintro rfl
  cases h

/-- An encodable float is a number that is read as itself. -/
theorem IsFloatRepr.number {repr : String} (h : IsFloatRepr py repr)
    (hencodable : (float repr).isEncodable py = true) : (∀ c ∈ repr.toList, isNumberChar c = true) ∧
      numberValue py repr.toList = .ok (.float repr) := by
  rcases h with h | h
  · simp only [isEncodable, Bool.and_eq_true, ne_eq, decide_eq_true_eq] at hencodable
    simp only [List.mem_cons, List.not_mem_nil, or_false] at h
    rcases h with rfl | rfl | rfl
    · exact absurd rfl hencodable.1.1
    · exact absurd rfl hencodable.1.2
    · exact absurd rfl hencodable.2
  · exact h

theorem starts_render {v : Json} (hvalid : Valid py v) (hencodable : v.isEncodable py = true) :
    Starts (render false v) := by
  cases hvalid with
  | null => exact ⟨'n', _, rfl, by decide⟩
  | bool b =>
    cases b with
    | true => exact ⟨'t', _, rfl, by decide⟩
    | false => exact ⟨'f', _, rfl, by decide⟩
  | int n =>
    exact starts_of_isNumberChar (numberValue_ne_nil (numberValue_int hencodable))
      (isNumberChar_int n)
  | float h =>
    obtain ⟨hchars, hvalue⟩ := h.number hencodable
    exact starts_of_isNumberChar (numberValue_ne_nil hvalue) hchars
  | str s => exact starts_quote s
  | arr h => exact ⟨'[', _, rfl, by decide⟩
  | obj keys h => exact ⟨'{', _, rfl, by decide⟩

/-- The text of the value is read back whatever follows it. -/
def Reads (py : PythonRuntime) (v : Json) : Prop :=
  ∀ fuel rest, 2 * (render false v).length < fuel → Ends rest →
    readValue py fuel (render false v ++ rest) = .ok (v.sorted, rest)

/-- A value that starts with no opening character is a scalar. -/
theorem readValue_scalar {fuel : Nat} {cs : List Char} (hfuel : 0 < fuel) (hne : cs ≠ [])
    (hhead : ∀ c ∈ cs.head?, c ≠ '"' ∧ c ≠ '[' ∧ c ≠ '{') :
    readValue py fuel cs = readScalar py cs := by
  obtain ⟨fuel, rfl⟩ := Nat.exists_eq_add_one.mpr hfuel
  cases cs with
  | nil => exact absurd rfl hne
  | cons c rest =>
    obtain ⟨hquote, hbracket, hbrace⟩ := hhead c rfl
    rw [readValue, if_neg hquote, if_neg hbracket, if_neg hbrace]

theorem reads_of_number {v : Json} (hsorted : v.sorted = v)
    (hchars : ∀ c ∈ render false v, isNumberChar c = true)
    (hvalue : numberValue py (render false v) = .ok v) : Reads py v := by
  intro fuel rest hfuel hends
  rw [hsorted, readValue_scalar (by omega), readScalar_number hchars hends hvalue]
  · exact List.append_ne_nil_of_left_ne_nil (numberValue_ne_nil hvalue) _
  · intro c hc
    have hmem : c ∈ render false v := by
      rw [List.head?_append_of_ne_nil _ (numberValue_ne_nil hvalue)] at hc
      exact List.mem_of_head? hc
    have hchar := hchars c hmem
    refine ⟨?_, ?_, ?_⟩ <;> rintro rfl <;> revert hchar <;> decide

theorem ends_of_head {c : Char} (hc : isNumberChar c = false) (rest : List Char) :
    Ends (c :: rest) := by
  intro d hd
  cases hd
  exact hc

theorem starts_commaSeparated {text : List Char} (h : Starts text) (rest : List (List Char)) :
    Starts (commaSeparated (text :: rest)) := by
  cases rest with
  | nil => exact h
  | cons next rest => exact h.append _

theorem readItems_render {items : List Json} (hne : items ≠ [])
    (hstarts : ∀ v ∈ items, Starts (render false v)) (hreads : ∀ v ∈ items, Reads py v)
    {fuel : Nat} (rest : List Char)
    (hfuel : 2 * (commaSeparated (items.map (render false))).length + 2 ≤ fuel) :
    readItems py fuel (commaSeparated (items.map (render false)) ++ ']' :: rest) =
      .ok (items.map sorted, rest) := by
  induction items generalizing fuel with
  | nil => exact absurd rfl hne
  | cons v items ih =>
    obtain ⟨fuel, rfl⟩ := Nat.exists_eq_add_one.mpr (show 0 < fuel by omega)
    have hv := hreads v List.mem_cons_self
    cases items with
    | nil =>
      simp only [List.map_cons, List.map_nil, commaSeparated] at hfuel ⊢
      rw [readItems, hv fuel _ (by omega) (ends_of_head (by decide) rest)]
      rfl
    | cons w items =>
      have htail := @ih (List.cons_ne_nil _ _) (fun v hv => hstarts v (List.mem_cons_of_mem _ hv))
        (fun v hv => hreads v (List.mem_cons_of_mem _ hv)) fuel
      have hstart : Starts (commaSeparated ((w :: items).map (render false)) ++ ']' :: rest) :=
        (starts_commaSeparated (hstarts w (by simp)) _).append _
      simp only [List.map_cons, commaSeparated, List.length_append, List.length_cons] at hfuel
      simp only [List.map_cons] at htail hstart
      rw [List.map_cons, List.map_cons, commaSeparated, List.append_assoc, List.cons_append,
        readItems, hv fuel _ (by omega) (ends_of_head (by decide) _)]
      simp only [Transaction.except_ok_bind]
      rw [skipWhitespace_cons (by decide)]
      simp only
      rw [hstart.skipWhitespace, htail (by omega)]
      rfl

/-- One field as `render` writes it. -/
def fieldText (f : String × Json) : List Char := quote false f.1 ++ ':' :: render false f.2

theorem render_obj_fields (fields : List (String × Json)) : render false (.obj fields) =
    '{' :: commaSeparated ((sortFields fields).map fieldText) ++ ['}'] := render_obj false fields

/-- A field is read up to the character after its value. -/
theorem readFields_field {f : String × Json} (hstarts : Starts (render false f.2))
    (hreads : Reads py f.2) {c : Char} (hc : isNumberChar c = false)
    (hspace : isWhitespace c = false) (rest : List Char) {fuel : Nat}
    (hfuel : 2 * (fieldText f).length + 2 ≤ fuel + 1) :
    readFields py (fuel + 1) (fieldText f ++ c :: rest) =
      match c :: rest with
      | '}' :: rest => .ok ([(f.1, f.2.sorted)], rest)
      | ',' :: rest => (readFields py fuel (skipWhitespace rest)).map
        fun r => ((f.1, f.2.sorted) :: r.1, r.2)
      | _ => .error .invalid := by
  rw [fieldText, List.length_append, List.length_cons] at hfuel
  have hquote : fieldText f ++ c :: rest =
      '"' :: ((quote false f.1).tail ++ ':' :: (render false f.2 ++ c :: rest)) := by
    simp [fieldText, quote]
  rw [hquote, readFields, readString_quote _ _ (by omega)]
  simp only [Transaction.except_ok_bind]
  rw [skipWhitespace_cons (by decide)]
  simp only
  rw [(hstarts.append _).skipWhitespace, hreads fuel _ (by omega) (ends_of_head hc rest)]
  simp only [Transaction.except_ok_bind]
  rw [skipWhitespace_cons hspace, String.ofList_toList]
  by_cases hbrace : c = '}'
  · subst hbrace
    rfl
  by_cases hcomma : c = ','
  · subst hcomma
    simp only
    cases readFields py fuel (skipWhitespace rest) with
    | error e => rfl
    | ok r => rfl
  · simp [hbrace, hcomma]

theorem readFields_render {fields : List (String × Json)} (hne : fields ≠ [])
    (hstarts : ∀ f ∈ fields, Starts (render false f.2)) (hreads : ∀ f ∈ fields, Reads py f.2)
    {fuel : Nat} (rest : List Char)
    (hfuel : 2 * (commaSeparated (fields.map fieldText)).length + 2 ≤ fuel) :
    readFields py fuel (commaSeparated (fields.map fieldText) ++ '}' :: rest) =
      .ok (fields.map fun f => (f.1, f.2.sorted), rest) := by
  induction fields generalizing fuel with
  | nil => exact absurd rfl hne
  | cons f fields ih =>
    obtain ⟨fuel, rfl⟩ := Nat.exists_eq_add_one.mpr (show 0 < fuel by omega)
    have hstart := hstarts f List.mem_cons_self
    have hf := hreads f List.mem_cons_self
    cases fields with
    | nil =>
      simp only [List.map_cons, List.map_nil, commaSeparated] at hfuel ⊢
      rw [readFields_field hstart hf (by decide) (by decide) rest hfuel]
      rfl
    | cons g fields =>
      have htail := @ih (List.cons_ne_nil _ _) (fun f hf => hstarts f (List.mem_cons_of_mem _ hf))
        (fun f hf => hreads f (List.mem_cons_of_mem _ hf)) fuel
      have hnext : Starts (commaSeparated ((g :: fields).map fieldText) ++ '}' :: rest) :=
        (starts_commaSeparated ((starts_quote g.1).append _) _).append _
      simp only [List.map_cons, commaSeparated, List.length_append, List.length_cons] at hfuel
      simp only [List.map_cons] at htail hnext
      rw [List.map_cons, List.map_cons, commaSeparated, List.append_assoc, List.cons_append,
        readFields_field hstart hf (by decide) (by decide) _ (by omega)]
      simp only
      rw [hnext.skipWhitespace, htail (by omega)]
      rfl

theorem foldl_setField {pairs fields : List (String × Json)}
    (h : ((fields ++ pairs).map Prod.fst).Nodup) : pairs.foldl setField fields = fields ++ pairs := by
  induction pairs generalizing fields with
  | nil => rw [List.append_nil]; rfl
  | cons f pairs ih =>
    have hnew : fields.any (fun g => g.1 = f.1) = false := by
      rw [List.any_eq_false]
      intro g hg heq
      rw [List.map_append, List.nodup_append] at h
      exact h.2.2 g.1 (List.mem_map_of_mem hg) f.1 (by simp) (of_decide_eq_true heq)
    rw [List.foldl_cons, setField, if_neg (by rw [hnew]; decide), ih, List.append_assoc]
    · rfl
    · rwa [List.append_assoc]

/-- Distinct keys make a dictionary as it stands. -/
theorem dictOf_of_nodup {pairs : List (String × Json)} (h : (pairs.map Prod.fst).Nodup) :
    dictOf pairs = pairs := foldl_setField h

theorem readValue_arr {cs : List Char} (h : Starts cs) (fuel : Nat) :
    readValue py (fuel + 1) ('[' :: cs) =
      (readItems py fuel cs).map fun r => (.arr r.1, r.2) := by
  rw [readValue, if_neg (by decide), if_pos rfl, h.skipWhitespace]
  obtain ⟨c, rest, rfl, -, hbracket, -⟩ := h
  split
  · next heq => exact absurd (List.cons.inj heq).1 hbracket
  · rfl

theorem readValue_obj {cs : List Char} (h : Starts cs) (fuel : Nat) :
    readValue py (fuel + 1) ('{' :: cs) =
      (readFields py fuel cs).map fun r => (.obj (dictOf r.1), r.2) := by
  rw [readValue, if_neg (by decide), if_neg (by decide), if_pos rfl, h.skipWhitespace]
  obtain ⟨c, rest, rfl, -, -, hbrace⟩ := h
  split
  · next heq => exact absurd (List.cons.inj heq).1 hbrace
  · rfl

/-- A word starts with its first letter. -/
theorem word_head {first : Char} {rest : List Char}
    (h : first ≠ '"' ∧ first ≠ '[' ∧ first ≠ '{') :
    ∀ c ∈ (first :: rest).head?, c ≠ '"' ∧ c ≠ '[' ∧ c ≠ '{' := by
  intro c hc
  obtain rfl := Option.some.inj hc
  exact h

theorem reads_word {v : Json} (hne : render false v ≠ [])
    (hhead : ∀ c ∈ (render false v).head?, c ≠ '"' ∧ c ≠ '[' ∧ c ≠ '{')
    (hscalar : ∀ rest, readScalar py (render false v ++ rest) = .ok (v.sorted, rest)) :
    Reads py v := by
  intro fuel rest hfuel _
  rw [readValue_scalar (by omega) (List.append_ne_nil_of_left_ne_nil hne rest), hscalar]
  rwa [List.head?_append_of_ne_nil _ hne]

/-- The text of an encodable value is read back as the value with sorted fields. -/
theorem readValue_render {v : Json} (hvalid : Valid py v) (hencodable : v.isEncodable py = true) :
    Reads py v := by
  induction hvalid with
  | null => exact reads_word (by decide) (word_head (by decide)) (fun rest => rfl)
  | bool b =>
    cases b with
    | true => exact reads_word (by decide) (word_head (by decide)) (fun rest => rfl)
    | false => exact reads_word (by decide) (word_head (by decide)) (fun rest => rfl)
  | int n => exact reads_of_number rfl (isNumberChar_int n) (numberValue_int hencodable)
  | float h =>
    obtain ⟨hchars, hvalue⟩ := h.number hencodable
    exact reads_of_number rfl hchars hvalue
  | str s =>
    intro fuel rest hfuel _
    obtain ⟨fuel, rfl⟩ := Nat.exists_eq_add_one.mpr (show 0 < fuel by omega)
    have htext : render false (.str s) ++ rest = '"' :: ((quote false s).tail ++ rest) := rfl
    rw [render] at hfuel
    rw [htext, readValue, if_pos rfl, readString_quote s rest (by omega)]
    change Except.ok (str (String.ofList s.toList), rest) = _
    rw [String.ofList_toList]
    rfl
  | @arr items hitems ih =>
    intro fuel rest hfuel _
    obtain ⟨fuel, rfl⟩ := Nat.exists_eq_add_one.mpr (show 0 < fuel by omega)
    have hall := itemsEncodable_iff.mp hencodable
    rw [render_arr] at hfuel ⊢
    rw [List.cons_append, List.length_cons, List.length_append, List.length_singleton] at hfuel
    rw [sorted_arr, List.cons_append, List.cons_append, List.append_assoc, List.singleton_append]
    cases items with
    | nil => rfl
    | cons v items =>
      have hstarts : ∀ w ∈ v :: items, Starts (render false w) :=
        fun w hw => starts_render (hitems w hw) (hall w hw)
      have hstart : Starts (commaSeparated ((v :: items).map (render false)) ++ ']' :: rest) :=
        (starts_commaSeparated (hstarts v List.mem_cons_self) _).append _
      rw [readValue_arr hstart, readItems_render (List.cons_ne_nil v items) hstarts
        (fun w hw => ih w hw (hall w hw)) rest (by omega)]
      rfl
  | @obj fields keys hfields ih =>
    intro fuel rest hfuel _
    obtain ⟨fuel, rfl⟩ := Nat.exists_eq_add_one.mpr (show 0 < fuel by omega)
    have hall := fieldsEncodable_iff.mp hencodable
    have hmem : ∀ f ∈ sortFields fields, f ∈ fields :=
      fun f hf => (sortFields_perm fields).mem_iff.mp hf
    have hkeys : ((sortFields fields).map Prod.fst).Nodup :=
      ((sortFields_perm fields).map Prod.fst).nodup_iff.mpr keys
    rw [render_obj_fields] at hfuel ⊢
    rw [List.cons_append, List.length_cons, List.length_append, List.length_singleton] at hfuel
    rw [sorted_obj, List.cons_append, List.cons_append, List.append_assoc, List.singleton_append]
    cases hsort : sortFields fields with
    | nil => rfl
    | cons f sorted =>
      rw [hsort] at hmem hkeys hfuel
      have hstarts : ∀ g ∈ f :: sorted, Starts (render false g.2) :=
        fun g hg => starts_render (hfields g (hmem g hg)) (hall g (hmem g hg))
      have hstart : Starts (commaSeparated ((f :: sorted).map fieldText) ++ '}' :: rest) :=
        (starts_commaSeparated ((starts_quote f.1).append _) _).append _
      have hnodup : (((f :: sorted).map fun g => (g.1, g.2.sorted)).map Prod.fst).Nodup := by
        rw [List.map_map]
        exact hkeys
      rw [readValue_obj hstart, readFields_render (List.cons_ne_nil f sorted) hstarts
        (fun g hg => ih g (hmem g hg) (hall g (hmem g hg))) rest (by omega)]
      change Except.ok (obj (dictOf _), rest) = _
      rw [dictOf_of_nodup hnodup]

/-! ## Texts and bytes -/

theorem loadsText_render {v : Json} (hvalid : Valid py v) (hencodable : v.isEncodable py = true)
    {tail : List Char} (htail : ∀ c ∈ tail, isWhitespace c = true) :
    loadsText py (render false v ++ tail) = .ok v.sorted := by
  have hstart := (starts_render hvalid hencodable).append tail
  have hends : Ends tail := by
    intro c hc
    have hspace := htail c (List.mem_of_head? hc)
    simp only [isWhitespace, Bool.or_eq_true, decide_eq_true_eq] at hspace
    rcases hspace with ((rfl | rfl) | rfl) | rfl <;> decide
  have hread := readValue_render hvalid hencodable (2 * (render false v ++ tail).length + 2) tail
    (by rw [List.length_append]; omega) hends
  rw [loadsText, hstart.skipWhitespace, hread]
  have hskip : skipWhitespace tail = [] := List.dropWhile_eq_nil_iff.mpr htail
  simp only [Transaction.except_ok_bind, hskip]
  rfl

theorem decodeUtf8?_utf8 (cs : List Char) : decodeUtf8? (utf8 cs) = some cs := by
  have hencode : (utf8 cs).toByteArray = cs.utf8Encode := rfl
  rw [decodeUtf8?, hencode, List.utf8Decode?_utf8Encode]
  rfl

theorem utf8EncodeChar_ascii {c : Char} (hc : c.toNat < 128) :
    String.utf8EncodeChar c = [UInt8.ofNat c.toNat] := by
  have hle : c.val.toNat ≤ 0x7f := Nat.le_of_lt_succ hc
  rw [String.utf8EncodeChar, if_pos hle]
  rfl

/-- A character is one byte below `0x80`, or its bytes are all at least `0x80`. -/
theorem utf8EncodeChar_bytes (c : Char) :
    c.toNat < 128 ∧ String.utf8EncodeChar c = [UInt8.ofNat c.toNat] ∨
      ∀ b ∈ String.utf8EncodeChar c, 128 ≤ b.toNat := by
  have hbyte : ∀ n, 128 ≤ n → n < 256 → 128 ≤ (UInt8.ofNat n).toNat := by
    intro n h₁ h₂
    rw [UInt8.toNat_ofNat', Nat.mod_eq_of_lt h₂]
    exact h₁
  by_cases h₁ : c.toNat ≤ 0x7f
  · exact .inl ⟨by omega, utf8EncodeChar_ascii (by omega)⟩
  right
  unfold String.utf8EncodeChar
  have hval : c.val.toNat = c.toNat := rfl
  simp only [hval]
  rw [if_neg h₁]
  by_cases h₂ : c.toNat ≤ 0x7ff
  · rw [if_pos h₂]
    simp only [List.forall_mem_cons, List.not_mem_nil, false_implies, implies_true, and_true]
    exact ⟨hbyte _ (by omega) (by omega), hbyte _ (by omega) (by omega)⟩
  rw [if_neg h₂]
  by_cases h₃ : c.toNat ≤ 0xffff
  · rw [if_pos h₃]
    simp only [List.forall_mem_cons, List.not_mem_nil, false_implies, implies_true, and_true]
    exact ⟨hbyte _ (by omega) (by omega), hbyte _ (by omega) (by omega),
      hbyte _ (by omega) (by omega)⟩
  · rw [if_neg h₃]
    simp only [List.forall_mem_cons, List.not_mem_nil, false_implies, implies_true, and_true]
    exact ⟨hbyte _ (by omega) (by omega), hbyte _ (by omega) (by omega),
      hbyte _ (by omega) (by omega), hbyte _ (by omega) (by omega)⟩

/-- A byte below `0x80` stands for its character. -/
theorem mem_of_mem_utf8 {cs : List Char} {n : Nat} (hn : n < 128)
    (h : UInt8.ofNat n ∈ utf8 cs) : Char.ofNat n ∈ cs := by
  obtain ⟨c, hc, hbyte⟩ := List.mem_flatMap.mp h
  have htoNat : (UInt8.ofNat n).toNat = n := by
    rw [UInt8.toNat_ofNat', Nat.mod_eq_of_lt (by omega)]
  rcases utf8EncodeChar_bytes c with ⟨hlt, heq⟩ | hge
  · rw [heq, List.mem_singleton] at hbyte
    have hnat := congrArg UInt8.toNat hbyte
    rw [htoNat, UInt8.toNat_ofNat', Nat.mod_eq_of_lt (by omega)] at hnat
    rw [hnat, Char.ofNat_toNat]
    exact hc
  · have := hge _ hbyte
    omega

theorem utf8_append (cs ds : List Char) : utf8 (cs ++ ds) = utf8 cs ++ utf8 ds :=
  List.flatMap_append

/-- Bytes that start with an opening brace and another ASCII character are read as UTF-8. -/
theorem decode?_utf8 {c : Char} (hc : c.toNat < 128) (hpos : 0 < c.toNat) (rest : List Char) :
    decode? py (utf8 ('{' :: c :: rest)) = some ('{' :: c :: rest) := by
  have hbytes : utf8 ('{' :: c :: rest) = 123 :: UInt8.ofNat c.toNat :: utf8 rest := by
    change String.utf8EncodeChar '{' ++ (String.utf8EncodeChar c ++ utf8 rest) = _
    rw [utf8EncodeChar_ascii hc]
    rfl
  have hne : UInt8.ofNat c.toNat ≠ 0 := by
    intro h
    have := congrArg UInt8.toNat h
    rw [UInt8.toNat_ofNat', Nat.mod_eq_of_lt (by omega)] at this
    exact absurd this (by rw [UInt8.toNat_zero]; omega)
  have hdecode : decode? py (utf8 ('{' :: c :: rest)) = decodeUtf8? (utf8 ('{' :: c :: rest)) := by
    rw [hbytes]
    have hfirst : ∀ n : UInt8, 123 ≠ n → ∀ pattern : List UInt8,
        ¬ n :: pattern <+: 123 :: UInt8.ofNat c.toNat :: utf8 rest := by
      intro n hn pattern hprefix
      exact hn (List.cons_prefix_cons.mp hprefix).1.symm
    have hzero : ∀ n : Nat, n < 2 →
        (123 :: UInt8.ofNat c.toNat :: utf8 rest)[n]? ≠ some (0 : UInt8) := by
      intro n hn
      match n, hn with
      | 0, _ => exact fun h => absurd (Option.some.inj h) (by decide)
      | 1, _ => exact fun h => hne (Option.some.inj h)
    rw [decode?, if_neg (not_or.mpr ⟨hfirst _ (by decide) _, hfirst _ (by decide) _⟩),
      if_neg (not_or.mpr ⟨hfirst _ (by decide) _, hfirst _ (by decide) _⟩),
      if_neg (hfirst _ (by decide) _), if_neg (fun h => hzero 0 (by decide) h.2),
      if_neg (fun h => hzero 1 (by decide) h.2), if_neg (fun h => hzero 0 (by decide) h.2),
      if_neg (fun h => hzero 1 (by decide) h.2)]
  rw [hdecode, decodeUtf8?_utf8]

theorem exists_render_obj (fields : List (String × Json)) : ∃ c rest,
    render false (.obj fields) = '{' :: c :: rest ∧ c.toNat < 128 ∧ 0 < c.toNat := by
  rw [render_obj_fields]
  cases sortFields fields with
  | nil => exact ⟨'}', [], rfl, by decide⟩
  | cons f sorted =>
    obtain ⟨rest, hrest⟩ : ∃ rest, commaSeparated ((f :: sorted).map fieldText) = '"' :: rest := by
      cases sorted with
      | nil => exact ⟨_, rfl⟩
      | cons g sorted => exact ⟨_, rfl⟩
    rw [hrest]
    exact ⟨'"', _, rfl, by decide⟩

/-- The bytes of an object, with white space after them, are read back. -/
theorem loads_render {fields : List (String × Json)} (hvalid : Valid py (.obj fields))
    (hencodable : (obj fields).isEncodable py = true) {tail : List Char}
    (htail : ∀ c ∈ tail, isWhitespace c = true) :
    loads py (utf8 (render false (.obj fields) ++ tail)) = .ok (obj fields).sorted := by
  obtain ⟨c, rest, htext, hascii, hpos⟩ := exists_render_obj fields
  have hdecode : decode? py (utf8 (render false (.obj fields) ++ tail)) =
      some (render false (.obj fields) ++ tail) := by
    rw [htext]
    exact decode?_utf8 hascii hpos (rest ++ tail)
  rw [loads, hdecode]
  exact loadsText_render hvalid hencodable htail

/-! ## Unique reading -/

theorem utf8_injective : Function.Injective utf8 := by
  intro cs ds h
  have hdecode := decodeUtf8?_utf8 cs
  rw [h, decodeUtf8?_utf8] at hdecode
  exact (Option.some.inj hdecode).symm

/-- Values with the same text are the same up to the order of their fields. -/
theorem sorted_eq_of_render_eq {v w : Json} (hv : Valid py v) (hw : Valid py w)
    (hv' : v.isEncodable py = true) (hw' : w.isEncodable py = true)
    (h : render false v = render false w) : v.sorted = w.sorted := by
  have hread := loadsText_render hv hv' (List.forall_mem_nil _)
  rw [h, loadsText_render hw hw' (List.forall_mem_nil _)] at hread
  exact (Except.ok.inj hread).symm

/-- Objects that are the same up to the order of their fields agree under every key. -/
theorem sorted_value_eq {fields fields' : List (String × Json)}
    (hkeys : (fields.map Prod.fst).Nodup) (h : (obj fields).sorted = (obj fields').sorted)
    {key : String} {v w : Json} (hv : (key, v) ∈ fields) (hw : (key, w) ∈ fields') :
    v.sorted = w.sorted := by
  rw [sorted_obj, sorted_obj] at h
  have hw' : (key, w.sorted) ∈ (sortFields fields).map fun f => (f.1, f.2.sorted) := by
    rw [obj.inj h]
    exact List.mem_map.mpr ⟨(key, w), (sortFields_perm fields').mem_iff.mpr hw, rfl⟩
  obtain ⟨f, hf, heq⟩ := List.mem_map.mp hw'
  obtain ⟨hkey, hvalue⟩ := Prod.mk.inj heq
  have hsame := List.inj_on_of_nodup_map hkeys ((sortFields_perm fields).mem_iff.mp hf) hv hkey
  rw [← hvalue, hsame]

/-! ## One line -/

theorem not_mem_commaSeparated {c : Char} (hc : c ≠ ',') {texts : List (List Char)}
    (h : ∀ text ∈ texts, c ∉ text) : c ∉ commaSeparated texts := by
  induction texts with
  | nil => exact List.not_mem_nil
  | cons text texts ih =>
    have htext := h text List.mem_cons_self
    have htexts := ih fun text hmem => h text (List.mem_cons_of_mem _ hmem)
    cases texts with
    | nil => exact htext
    | cons next texts =>
      rw [commaSeparated, List.mem_append, List.mem_cons]
      rintro (hmem | rfl | hmem)
      · exact htext hmem
      · exact hc rfl
      · exact htexts hmem

theorem newline_not_mem_escapeChar (c : Char) : '\n' ∉ escapeChar false c := by
  have hhex : '\n' ∉ unicodeEscape c.toNat := by
    intro hmem
    simp only [unicodeEscape, List.mem_cons] at hmem
    rcases hmem with h | h | h
    · cases h
    · cases h
    · exact absurd (hexChars_isHexDigit 4 c.toNat '\n' h) (by decide)
  unfold escapeChar
  simp only [Bool.false_and, Bool.false_eq_true, if_false]
  repeat' split
  all_goals first | decide | exact hhex | skip
  next h10 _ _ _ =>
    rw [List.mem_singleton]
    rintro rfl
    exact absurd rfl h10

theorem newline_not_mem_quote (s : String) : '\n' ∉ quote false s := by
  rw [quote, List.cons_append, List.mem_cons, List.mem_append, List.mem_flatMap,
    List.mem_singleton]
  rintro (h | ⟨c, -, h⟩ | h)
  · cases h
  · exact newline_not_mem_escapeChar c h
  · cases h

/-- The text of a value has no line break in it. -/
theorem newline_not_mem_render {v : Json} (hvalid : Valid py v) : '\n' ∉ render false v := by
  induction hvalid with
  | null => decide
  | bool b => cases b <;> decide
  | int n => exact fun h => absurd (isNumberChar_int n _ h) (by decide)
  | float h =>
    rcases h with h | h
    · simp only [List.mem_cons, List.not_mem_nil, or_false] at h
      rcases h with rfl | rfl | rfl <;> decide
    · exact fun hmem => absurd (h.1 _ hmem) (by decide)
  | str s => exact newline_not_mem_quote s
  | arr _ ih =>
    rw [render_arr, List.cons_append, List.mem_cons, List.mem_append, List.mem_singleton]
    rintro (h | h | h)
    · cases h
    · exact not_mem_commaSeparated (by decide) (List.forall_mem_map.mpr ih) h
    · cases h
  | @obj fields _ _ ih =>
    have hfields : ∀ f ∈ sortFields fields, '\n' ∉ fieldText f := by
      intro f hf
      rw [fieldText, List.mem_append, List.mem_cons]
      rintro (h | h | h)
      · exact newline_not_mem_quote f.1 h
      · cases h
      · exact ih f ((sortFields_perm fields).mem_iff.mp hf) h
    rw [render_obj_fields, List.cons_append, List.mem_cons, List.mem_append, List.mem_singleton]
    rintro (h | h | h)
    · cases h
    · exact not_mem_commaSeparated (by decide) (List.forall_mem_map.mpr hfields) h
    · cases h

end Json
