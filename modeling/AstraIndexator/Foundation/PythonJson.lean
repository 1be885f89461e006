import AstraIndexator.Foundation.Numerals
import AstraIndexator.Foundation.Raises
import Mathlib.Data.List.Lex

/-!
# Loaded JSON values

`PyJson` is what `json.loads` makes of any bytes: its texts may hold lone surrogates, and a
dictionary built from a list of pairs may have keys that are no texts.  The reader follows
the scanner of `json`, which stops at a long integer and at deep nesting; the encoder
refuses what has no canonical text.
-/

/-- A text by its code points, lone surrogates among them. -/
abbrev CodePoints := List Nat

/-- A value `json.loads` returns, or that is made of such values.  A float is given by the
text of its `repr`. -/
inductive PyJson
  | null
  | bool (b : Bool)
  | int (n : Int)
  | float (repr : String)
  | str (s : CodePoints)
  | list (items : List PyJson)
  | dict (fields : List (PyJson × PyJson))

/-- The part of Python's numbers, codecs and limits that is taken as it is. -/
structure JsonRuntime extends PythonRuntime where
  /-- The decoder of an encoding other than UTF-8, with lone surrogates. -/
  decodeWidePass? : WideEncoding → List UInt8 → Option CodePoints
  /-- `a <= b` of two numbers. -/
  numberLe : PyJson → PyJson → Bool
  /-- The number of lists and dictionaries inside one another that are read and written. -/
  maxNesting : Nat

/-- Why bytes are not read: they are no text (`UnicodeDecodeError`), the text is no value
(`JSONDecodeError`), an integer is too long (`ValueError`), or the value is nested too deeply
(`RecursionError`). -/
inductive LoadError
  | notText
  | notJson
  | longInteger
  | nesting
  deriving DecidableEq

/-- Why a value is not written: its keys cannot be sorted (`TypeError`), a number is not
finite or too long (`ValueError`), the value is nested too deeply (`RecursionError`), or a
text has a lone surrogate (`UnicodeEncodeError`). -/
inductive DumpError
  | unsortable
  | number
  | nesting
  | surrogate
  deriving DecidableEq

/-! ## Texts -/

def codePoints (s : String) : CodePoints := s.toList.map Char.toNat

def isSurrogate (n : Nat) : Bool := 0xd800 ≤ n && n < 0xe000

/-- The text of code points without a lone surrogate. -/
def textOf? (cs : CodePoints) : Option String :=
  if cs.any isSurrogate then none else some (String.ofList (cs.map Char.ofNat))

/-- `text.encode("utf-8")` -/
def encodeUtf8 (cs : CodePoints) : Except DumpError (List UInt8) :=
  match textOf? cs with
  | none => .error .surrogate
  | some s => .ok (Text.utf8 s.toList)

/-- What the first byte of a character of several bytes says: how many bytes follow, the
bounds of the next one, and the bits of the code point. -/
def leadByte? (b : Nat) : Option (Nat × Nat × Nat × Nat) :=
  if 0xc2 ≤ b ∧ b < 0xe0 then some (1, 0x80, 0xbf, b - 0xc0)
  else if b = 0xe0 then some (2, 0xa0, 0xbf, 0)
  else if 0xe1 ≤ b ∧ b < 0xf0 then some (2, 0x80, 0xbf, b - 0xe0)
  else if b = 0xf0 then some (3, 0x90, 0xbf, 0)
  else if 0xf1 ≤ b ∧ b < 0xf4 then some (3, 0x80, 0xbf, b - 0xf0)
  else if b = 0xf4 then some (3, 0x80, 0x8f, 4)
  else none

/-- `bytes.decode("utf-8", "surrogatepass")`, with so many bytes of the last character
missing. -/
def decodeUtf8From : Nat → Nat → Nat → Nat → List UInt8 → Option CodePoints
  | owed, _, _, _, [] => if owed = 0 then some [] else none
  | 0, _, _, _, b :: rest =>
    if b.toNat < 0x80 then (decodeUtf8From 0 0 0 0 rest).map (b.toNat :: ·)
    else match leadByte? b.toNat with
      | none => none
      | some (owed, low, high, bits) => decodeUtf8From owed low high bits rest
  | owed + 1, low, high, bits, b :: rest =>
    if low ≤ b.toNat ∧ b.toNat ≤ high then
      let bits := bits * 64 + (b.toNat - 0x80)
      if owed = 0 then (decodeUtf8From 0 0 0 0 rest).map (bits :: ·)
      else decodeUtf8From owed 0x80 0xbf bits rest
    else none

/-- The encoding `json.detect_encoding` finds, if it is not UTF-8. -/
def wideEncoding? (bytes : List UInt8) : Option WideEncoding :=
  if [0xff, 0xfe, 0, 0] <+: bytes ∨ [0, 0, 0xfe, 0xff] <+: bytes then some .utf32
  else if [0xff, 0xfe] <+: bytes ∨ [0xfe, 0xff] <+: bytes then some .utf16
  else if [0xef, 0xbb, 0xbf] <+: bytes then none
  else if 4 ≤ bytes.length ∧ bytes[0]? = some 0 then
    some (if bytes[1]? = some 0 then .utf32be else .utf16be)
  else if 4 ≤ bytes.length ∧ bytes[1]? = some 0 then
    some (if bytes[2]? = some 0 ∧ bytes[3]? = some 0 then .utf32le else .utf16le)
  else if bytes.length = 2 ∧ bytes[0]? = some 0 then some .utf16be
  else if bytes.length = 2 ∧ bytes[1]? = some 0 then some .utf16le
  else none

/-- `bytes.decode(json.detect_encoding(bytes), "surrogatepass")` -/
def decodeBytes? (rt : JsonRuntime) (bytes : List UInt8) : Option CodePoints :=
  match wideEncoding? bytes with
  | some encoding => rt.decodeWidePass? encoding bytes
  | none =>
    decodeUtf8From 0 0 0 0 (if [0xef, 0xbb, 0xbf] <+: bytes then bytes.drop 3 else bytes)

namespace PyJson

open Transaction

/-! ## Keys -/

/-- Keys that are the same key of a dictionary: `1`, `1.0` and `True` are one. -/
inductive KeyForm
  | none
  | text (s : CodePoints)
  | whole (n : Int)
  | real (repr : String)
  deriving DecidableEq

/-- Whether the float with this `repr` is a whole number. -/
def isWhole (repr : String) : Bool :=
  decide (['.', '0'] <:+ repr.toList) || decide (['e', '+'] <:+: repr.toList)

/-- The key a value is, unless it cannot be hashed. -/
def keyForm? (rt : JsonRuntime) : PyJson → Option KeyForm
  | .null => some .none
  | .bool b => some (.whole (if b then 1 else 0))
  | .int n => some (.whole n)
  | .float repr =>
    match rt.truncate? repr with
    | some n => some (if isWhole repr then .whole n else .real repr)
    | none => some (.real repr)
  | .str s => some (.text s)
  | .list _ | .dict _ => Option.none

/-- Assign to a key: the value of a key that is there is replaced where it stands. -/
def setItem (rt : JsonRuntime) (fields : List (PyJson × PyJson)) (f : PyJson × PyJson) :
    List (PyJson × PyJson) :=
  if fields.any (fun g => keyForm? rt g.1 = keyForm? rt f.1) then
    fields.map fun g => if keyForm? rt g.1 = keyForm? rt f.1 then (g.1, f.2) else g
  else fields ++ [f]

/-- The dictionary of a sequence of pairs. -/
def dictOf (rt : JsonRuntime) (pairs : List (PyJson × PyJson)) : List (PyJson × PyJson) :=
  pairs.foldl (setItem rt) []

/-- The value is this text. -/
def isText (text : String) : PyJson → Bool
  | .str s => s = codePoints text
  | _ => false

/-! ## Reading -/

/-- The text behind a character it begins with. -/
def expect (c : Char) : CodePoints → Option CodePoints
  | [] => Option.none
  | n :: rest => if n = c.toNat then some rest else Option.none

def isBlankPoint (n : Nat) : Bool := n = 0x20 || n = 0x9 || n = 0xa || n = 0xd

def skipBlanks (cs : CodePoints) : CodePoints := cs.dropWhile isBlankPoint

def isDigitPoint (n : Nat) : Bool := 0x30 ≤ n && n ≤ 0x39

def hexPoint? (n : Nat) : Option Nat :=
  if n < 0x80 then Json.hexValue? (Char.ofNat n) else Option.none

def readHex4 : CodePoints → Except LoadError (Nat × CodePoints)
  | a :: b :: c :: d :: rest =>
    match hexPoint? a, hexPoint? b, hexPoint? c, hexPoint? d with
    | some a, some b, some c, some d => .ok (((a * 16 + b) * 16 + c) * 16 + d, rest)
    | _, _, _, _ => .error .notJson
  | _ => .error .notJson

/-- The code point after `\u`.  A second escape is read with the first if both are a
surrogate pair. -/
def readCodeUnits (cs : CodePoints) : Except LoadError (Nat × CodePoints) := do
  let (unit, rest) ← readHex4 cs
  if 0xd800 ≤ unit ∧ unit < 0xdc00 then
    match (expect '\\' rest).bind (expect 'u') with
    | Option.none => return (unit, rest)
    | some more =>
      let (low, behind) ← readHex4 more
      if 0xdc00 ≤ low ∧ low < 0xe000 then
        return (0x10000 + (unit - 0xd800) * 0x400 + (low - 0xdc00), behind)
      else return (unit, rest)
  else return (unit, rest)

/-- `BACKSLASH` -/
def backslash : List (Char × Nat) := [
  ('"', 0x22), ('\\', 0x5c), ('/', 0x2f), ('b', 0x8), ('f', 0xc), ('n', 0xa), ('r', 0xd),
  ('t', 0x9)]

/-- What follows a backslash. -/
def readEscape : CodePoints → Except LoadError (Nat × CodePoints)
  | [] => .error .notJson
  | n :: rest =>
    match backslash.find? fun e => e.1.toNat = n with
    | some e => .ok (e.2, rest)
    | Option.none => if n = 'u'.toNat then readCodeUnits rest else .error .notJson

/-- The code points up to the closing quote, and what follows it. -/
def readString : Nat → CodePoints → Except LoadError (CodePoints × CodePoints)
  | 0, _ => .error .notJson
  | _ + 1, [] => .error .notJson
  | fuel + 1, n :: rest =>
    if n = '"'.toNat then .ok ([], rest)
    else if n = '\\'.toNat then do
      let (e, rest) ← readEscape rest
      let (cs, rest) ← readString fuel rest
      return (e :: cs, rest)
    else if n < 0x20 then .error .notJson
    else do
      let (cs, rest) ← readString fuel rest
      return (n :: cs, rest)

/-- A fraction in front of a text: a point and the digits behind it. -/
def fractionOf (cs : CodePoints) : CodePoints :=
  match expect '.' cs with
  | Option.none => []
  | some rest =>
    if rest.takeWhile isDigitPoint = [] then [] else '.'.toNat :: rest.takeWhile isDigitPoint

/-- An exponent in front of a text. -/
def exponentOf : CodePoints → CodePoints
  | [] => []
  | e :: rest =>
    let sign := rest.takeWhile fun n => n = '+'.toNat || n = '-'.toNat
    let digits := (rest.drop sign.length).takeWhile isDigitPoint
    if (e = 'e'.toNat ∨ e = 'E'.toNat) ∧ sign.length ≤ 1 ∧ digits ≠ [] then e :: sign ++ digits
    else []

/-- The parts of a number in front of a text. -/
structure NumberToken where
  sign : CodePoints
  integer : CodePoints
  fraction : CodePoints
  exponent : CodePoints

def NumberToken.points (token : NumberToken) : CodePoints :=
  token.sign ++ token.integer ++ token.fraction ++ token.exponent

/-- `_match_number` -/
def matchNumber (cs : CodePoints) : NumberToken :=
  let sign := if cs.head? = some '-'.toNat then ['-'.toNat] else []
  let unsigned := cs.drop sign.length
  let integer :=
    if unsigned.head? = some '0'.toNat then ['0'.toNat] else unsigned.takeWhile isDigitPoint
  let rest := unsigned.drop integer.length
  let fraction := fractionOf rest
  ⟨sign, integer, fraction, exponentOf (rest.drop fraction.length)⟩

/-- An integer without a fraction and an exponent, or a float. -/
def numberOf (rt : JsonRuntime) (token : NumberToken) : Except LoadError PyJson :=
  if token.integer = [] then .error .notJson
  else if token.fraction = [] ∧ token.exponent = [] then
    if rt.admits token.integer.length then
      let n : Int := Nat.ofDigitChars 10 (token.integer.map Char.ofNat) 0
      .ok (.int (if token.sign = [] then n else -n))
    else .error .longInteger
  else .ok (.float (rt.floatRepr (String.ofList (token.points.map Char.ofNat))))

def readNumber (rt : JsonRuntime) (cs : CodePoints) : Except LoadError (PyJson × CodePoints) := do
  let value ← numberOf rt (matchNumber cs)
  return (value, cs.drop (matchNumber cs).points.length)

def constants : List (CodePoints × PyJson) := [
  (codePoints "null", .null), (codePoints "true", .bool true), (codePoints "false", .bool false),
  (codePoints "NaN", .float "nan"), (codePoints "Infinity", .float "inf"),
  (codePoints "-Infinity", .float "-inf")]

/-- A constant or a number. -/
def readScalar (rt : JsonRuntime) (cs : CodePoints) : Except LoadError (PyJson × CodePoints) :=
  match constants.find? fun w => w.1.isPrefixOf cs with
  | some w => .ok (w.2, cs.drop w.1.length)
  | Option.none => readNumber rt cs

mutual
/-- `scan_once` -/
def readValue (rt : JsonRuntime) : Nat → Nat → CodePoints →
    Except LoadError (PyJson × CodePoints)
  | 0, _, _ => .error .notJson
  | _ + 1, _, [] => .error .notJson
  | fuel + 1, depth, n :: cs =>
    if n = '"'.toNat then (readString fuel cs).map fun r => (.str r.1, r.2)
    else if n = '['.toNat then
      if depth = 0 then .error .nesting
      else match expect ']' (skipBlanks cs) with
        | some rest => .ok (.list [], rest)
        | Option.none => (readItems rt fuel (depth - 1) (skipBlanks cs)).map fun r =>
          (.list r.1, r.2)
    else if n = '{'.toNat then
      if depth = 0 then .error .nesting
      else match expect '}' (skipBlanks cs) with
        | some rest => .ok (.dict [], rest)
        | Option.none => (readFields rt fuel (depth - 1) (skipBlanks cs)).map fun r =>
          (.dict (dictOf rt r.1), r.2)
    else readScalar rt (n :: cs)

/-- The items up to the closing bracket. -/
def readItems (rt : JsonRuntime) : Nat → Nat → CodePoints →
    Except LoadError (List PyJson × CodePoints)
  | 0, _, _ => .error .notJson
  | fuel + 1, depth, cs => do
    let (v, rest) ← readValue rt fuel depth cs
    match expect ']' (skipBlanks rest), expect ',' (skipBlanks rest) with
    | some rest, _ => return ([v], rest)
    | Option.none, some rest =>
      let (items, rest) ← readItems rt fuel depth (skipBlanks rest)
      return (v :: items, rest)
    | Option.none, Option.none => .error .notJson

/-- The fields up to the closing brace. -/
def readFields (rt : JsonRuntime) : Nat → Nat → CodePoints →
    Except LoadError (List (PyJson × PyJson) × CodePoints)
  | 0, _, _ => .error .notJson
  | fuel + 1, depth, cs =>
    match expect '"' cs with
    | Option.none => .error .notJson
    | some cs => do
      let (key, rest) ← readString fuel cs
      match expect ':' (skipBlanks rest) with
      | Option.none => .error .notJson
      | some rest =>
        let (v, rest) ← readValue rt fuel depth (skipBlanks rest)
        match expect '}' (skipBlanks rest), expect ',' (skipBlanks rest) with
        | some rest, _ => return ([(.str key, v)], rest)
        | Option.none, some rest =>
          let (fields, rest) ← readFields rt fuel depth (skipBlanks rest)
          return ((.str key, v) :: fields, rest)
        | Option.none, Option.none => .error .notJson
end

/-- A text that is one value. -/
def loadsText (rt : JsonRuntime) (cs : CodePoints) : Except LoadError PyJson := do
  let (v, rest) ← readValue rt (2 * cs.length + 2) rt.maxNesting (skipBlanks cs)
  if skipBlanks rest = [] then return v else .error .notJson

/-- `json.loads(bytes)` -/
def loads (rt : JsonRuntime) (bytes : List UInt8) : Except LoadError PyJson :=
  match decodeBytes? rt bytes with
  | Option.none => .error .notText
  | some cs => loadsText rt cs

/-! ## Fuel -/

theorem except_map_ok {ε α β : Type} {x : Except ε α} {f : α → β} {b : β} :
    x.map f = .ok b ↔ ∃ a, x = .ok a ∧ f a = b := by
  cases x <;> simp [Except.map]

theorem length_of_expect {c : Char} {cs rest : CodePoints} (h : expect c cs = some rest) :
    cs.length = rest.length + 1 := by
  cases cs with
  | nil => cases h
  | cons n cs =>
    rw [expect] at h
    split at h
    · obtain rfl := Option.some.inj h
      rfl
    · cases h

theorem length_skipBlanks (cs : CodePoints) : (skipBlanks cs).length ≤ cs.length :=
  (List.dropWhile_sublist isBlankPoint).length_le

theorem length_readHex4 {cs rest : CodePoints} {n : Nat} (h : readHex4 cs = .ok (n, rest)) :
    rest.length ≤ cs.length := by
  rw [readHex4.eq_def] at h
  split at h
  · split at h
    · obtain ⟨-, rfl⟩ := Prod.mk.inj (Except.ok.inj h)
      simp only [List.length_cons]
      omega
    · cases h
  · cases h

theorem length_readCodeUnits {cs rest : CodePoints} {n : Nat}
    (h : readCodeUnits cs = .ok (n, rest)) : rest.length ≤ cs.length := by
  obtain ⟨⟨unit, first⟩, hunit, h⟩ := except_bind_ok.mp h
  have hfirst := length_readHex4 hunit
  dsimp only at h
  split at h
  · split at h
    · obtain ⟨-, rfl⟩ := Prod.mk.inj (Except.ok.inj h)
      exact hfirst
    · rename_i more hmore
      obtain ⟨⟨low, behind⟩, hlow, h⟩ := except_bind_ok.mp h
      have hbehind := length_readHex4 hlow
      obtain ⟨middle, hbackslash, hu⟩ := Option.bind_eq_some_iff.mp hmore
      have hmiddle := length_of_expect hbackslash
      have hmore := length_of_expect hu
      dsimp only at h
      split at h
      · obtain ⟨-, rfl⟩ := Prod.mk.inj (Except.ok.inj h)
        omega
      · obtain ⟨-, rfl⟩ := Prod.mk.inj (Except.ok.inj h)
        exact hfirst
  · obtain ⟨-, rfl⟩ := Prod.mk.inj (Except.ok.inj h)
    exact hfirst

theorem length_readEscape {cs rest : CodePoints} {n : Nat} (h : readEscape cs = .ok (n, rest)) :
    rest.length ≤ cs.length := by
  cases cs with
  | nil => cases h
  | cons c cs =>
    rw [readEscape] at h
    rw [List.length_cons]
    split at h
    · obtain ⟨-, rfl⟩ := Prod.mk.inj (Except.ok.inj h)
      omega
    · split at h
      · exact Nat.le_succ_of_le (length_readCodeUnits h)
      · cases h

theorem length_readString {fuel : Nat} {cs s rest : CodePoints}
    (h : readString fuel cs = .ok (s, rest)) : rest.length ≤ cs.length := by
  induction fuel generalizing cs s rest with
  | zero =>
    rw [readString] at h
    cases h
  | succ fuel ih =>
    cases cs with
    | nil =>
      rw [readString] at h
      cases h
    | cons n cs =>
      rw [readString] at h
      rw [List.length_cons]
      split at h
      · obtain ⟨-, rfl⟩ := Prod.mk.inj (Except.ok.inj h)
        omega
      split at h
      · obtain ⟨⟨e, behind⟩, he, h⟩ := except_bind_ok.mp h
        obtain ⟨⟨more, last⟩, hmore, h⟩ := except_bind_ok.mp h
        obtain ⟨-, rfl⟩ := Prod.mk.inj (Except.ok.inj h)
        have hbehind := length_readEscape he
        have hlast := ih hmore
        omega
      split at h
      · cases h
      · obtain ⟨⟨more, last⟩, hmore, h⟩ := except_bind_ok.mp h
        obtain ⟨-, rfl⟩ := Prod.mk.inj (Except.ok.inj h)
        have hlast := ih hmore
        omega

theorem length_readScalar {rt : JsonRuntime} {cs rest : CodePoints} {v : PyJson}
    (h : readScalar rt cs = .ok (v, rest)) : rest.length ≤ cs.length := by
  rw [readScalar] at h
  split at h
  · obtain ⟨-, rfl⟩ := Prod.mk.inj (Except.ok.inj h)
    exact (List.drop_sublist _ _).length_le
  · obtain ⟨value, -, h⟩ := except_bind_ok.mp h
    obtain ⟨-, rfl⟩ := Prod.mk.inj (Except.ok.inj h)
    exact (List.drop_sublist _ _).length_le

/-- What is left behind a value, behind items and behind fields is no longer than the text. -/
theorem length_read (rt : JsonRuntime) (fuel : Nat) :
    (∀ depth cs v rest, readValue rt fuel depth cs = .ok (v, rest) → rest.length ≤ cs.length) ∧
      (∀ depth cs items rest, readItems rt fuel depth cs = .ok (items, rest) →
        rest.length ≤ cs.length) ∧
      ∀ depth cs fields rest, readFields rt fuel depth cs = .ok (fields, rest) →
        rest.length ≤ cs.length := by
  induction fuel with
  | zero =>
    refine ⟨?_, ?_, ?_⟩ <;>
      · intro depth cs v rest h
        first
        | rw [readValue] at h
        | rw [readItems] at h
        | rw [readFields] at h
        cases h
  | succ fuel ih =>
    obtain ⟨ihValue, ihItems, ihFields⟩ := ih
    refine ⟨?_, ?_, ?_⟩
    · intro depth cs v rest h
      cases cs with
      | nil =>
        rw [readValue] at h
        cases h
      | cons n cs =>
        have hblanks := length_skipBlanks cs
        rw [readValue] at h
        rw [List.length_cons]
        split at h
        · obtain ⟨⟨s, behind⟩, hs, heq⟩ := except_map_ok.mp h
          obtain ⟨-, rfl⟩ := Prod.mk.inj heq
          exact Nat.le_succ_of_le (length_readString hs)
        split at h
        · split at h
          · cases h
          · split at h
            · rename_i behind hbehind
              obtain ⟨-, rfl⟩ := Prod.mk.inj (Except.ok.inj h)
              have := length_of_expect hbehind
              omega
            · obtain ⟨⟨items, behind⟩, hitems, heq⟩ := except_map_ok.mp h
              obtain ⟨-, rfl⟩ := Prod.mk.inj heq
              have := ihItems _ _ _ _ hitems
              dsimp only
              omega
        split at h
        · split at h
          · cases h
          · split at h
            · rename_i behind hbehind
              obtain ⟨-, rfl⟩ := Prod.mk.inj (Except.ok.inj h)
              have := length_of_expect hbehind
              omega
            · obtain ⟨⟨fields, behind⟩, hfields, heq⟩ := except_map_ok.mp h
              obtain ⟨-, rfl⟩ := Prod.mk.inj heq
              have := ihFields _ _ _ _ hfields
              dsimp only
              omega
        · have := length_readScalar h
          rw [List.length_cons] at this
          exact this
    · intro depth cs items rest h
      rw [readItems] at h
      obtain ⟨⟨v, behind⟩, hv, h⟩ := except_bind_ok.mp h
      have hvalue := ihValue _ _ _ _ hv
      have hblanks := length_skipBlanks behind
      dsimp only at h
      split at h
      · rename_i last hlast
        obtain ⟨-, rfl⟩ := Prod.mk.inj (Except.ok.inj h)
        have := length_of_expect hlast
        omega
      · rename_i last hnone hlast
        obtain ⟨⟨more, final⟩, hmore, h⟩ := except_bind_ok.mp h
        obtain ⟨-, rfl⟩ := Prod.mk.inj (Except.ok.inj h)
        have hfinal := ihItems _ _ _ _ hmore
        have hnext := length_skipBlanks last
        have := length_of_expect hlast
        dsimp only
        omega
      · cases h
    · intro depth cs fields rest h
      rw [readFields] at h
      split at h
      · cases h
      · rename_i start hstart
        obtain ⟨⟨key, behind⟩, hkey, h⟩ := except_bind_ok.mp h
        have hstart := length_of_expect hstart
        have hkey := length_readString hkey
        have hblanks := length_skipBlanks behind
        dsimp only at h
        split at h
        · cases h
        · rename_i colon hcolon
          obtain ⟨⟨v, behindValue⟩, hv, h⟩ := except_bind_ok.mp h
          have hcolon := length_of_expect hcolon
          have hvalue := ihValue _ _ _ _ hv
          have hcolonBlanks := length_skipBlanks colon
          have hvalueBlanks := length_skipBlanks behindValue
          dsimp only at h
          split at h
          · rename_i last hlast
            obtain ⟨-, rfl⟩ := Prod.mk.inj (Except.ok.inj h)
            have := length_of_expect hlast
            omega
          · rename_i last hnone hlast
            obtain ⟨⟨more, final⟩, hmore, h⟩ := except_bind_ok.mp h
            obtain ⟨-, rfl⟩ := Prod.mk.inj (Except.ok.inj h)
            have hfinal := ihFields _ _ _ _ hmore
            have hnext := length_skipBlanks last
            have := length_of_expect hlast
            dsimp only
            omega
          · cases h

/-- Two amounts of fuel above the length of a text read the same string. -/
theorem readString_fuel {fuel other : Nat} {cs : CodePoints} (hfuel : cs.length < fuel)
    (hother : cs.length < other) : readString fuel cs = readString other cs := by
  induction fuel generalizing other cs with
  | zero => exact absurd hfuel (Nat.not_lt_zero _)
  | succ fuel ih =>
    obtain ⟨other, rfl⟩ := Nat.exists_eq_add_one_of_ne_zero (Nat.ne_zero_of_lt hother)
    cases cs with
    | nil => rw [readString, readString]
    | cons n cs =>
      rw [List.length_cons] at hfuel hother
      have hrest : readString fuel cs = readString other cs := ih (by omega) (by omega)
      rw [readString, readString, hrest]
      have hescape : ∀ r, readEscape cs = .ok r → readString fuel r.2 = readString other r.2 := by
        intro r hr
        have := length_readEscape hr
        exact ih (by omega) (by omega)
      cases hread : readEscape cs with
      | error e => rfl
      | ok r =>
        have := hescape r hread
        simp only [except_ok_bind, this]

/-- Two amounts of fuel above twice the length of a text read the same value, the same items
and the same fields. -/
theorem read_fuel (rt : JsonRuntime) (fuel : Nat) :
    (∀ other depth cs, 2 * cs.length < fuel → 2 * cs.length < other →
        readValue rt fuel depth cs = readValue rt other depth cs) ∧
      (∀ other depth cs, 2 * cs.length + 1 < fuel → 2 * cs.length + 1 < other →
        readItems rt fuel depth cs = readItems rt other depth cs) ∧
      ∀ other depth cs, 2 * cs.length + 1 < fuel → 2 * cs.length + 1 < other →
        readFields rt fuel depth cs = readFields rt other depth cs := by
  induction fuel with
  | zero => exact ⟨fun _ _ _ h => by omega, fun _ _ _ h => by omega, fun _ _ _ h => by omega⟩
  | succ fuel ih =>
    obtain ⟨ihValue, ihItems, ihFields⟩ := ih
    refine ⟨?_, ?_, ?_⟩
    · intro other depth cs hfuel hother
      obtain ⟨other, rfl⟩ := Nat.exists_eq_add_one_of_ne_zero (Nat.ne_zero_of_lt hother)
      cases cs with
      | nil => rw [readValue, readValue]
      | cons n cs =>
        rw [List.length_cons] at hfuel hother
        have hblanks := length_skipBlanks cs
        have hstring : readString fuel cs = readString other cs :=
          readString_fuel (by omega) (by omega)
        rw [readValue, readValue, hstring,
          ihItems other (depth - 1) (skipBlanks cs) (by omega) (by omega),
          ihFields other (depth - 1) (skipBlanks cs) (by omega) (by omega)]
    · intro other depth cs hfuel hother
      obtain ⟨other, rfl⟩ := Nat.exists_eq_add_one_of_ne_zero (Nat.ne_zero_of_lt hother)
      rw [readItems, readItems, ihValue other depth cs (by omega) (by omega)]
      cases hread : readValue rt other depth cs with
      | error e => rfl
      | ok r =>
        obtain ⟨v, behind⟩ := r
        have hvalue := (length_read rt other).1 _ _ _ _ hread
        have hblanks := length_skipBlanks behind
        simp only [except_ok_bind]
        split
        · rfl
        · rename_i last hnone hlast
          have hlast := length_of_expect hlast
          have hnext := length_skipBlanks last
          rw [ihItems other depth (skipBlanks last) (by omega) (by omega)]
        · rfl
    · intro other depth cs hfuel hother
      obtain ⟨other, rfl⟩ := Nat.exists_eq_add_one_of_ne_zero (Nat.ne_zero_of_lt hother)
      rw [readFields, readFields]
      split
      · rfl
      · rename_i start hstart
        have hstart := length_of_expect hstart
        have hstring : readString fuel start = readString other start :=
          readString_fuel (by omega) (by omega)
        rw [hstring]
        cases hkey : readString other start with
        | error e => rfl
        | ok r =>
          obtain ⟨key, behind⟩ := r
          have hbehind := length_readString hkey
          have hblanks := length_skipBlanks behind
          simp only [except_ok_bind]
          split
          · rfl
          · rename_i colon hcolon
            have hcolon := length_of_expect hcolon
            have hcolonBlanks := length_skipBlanks colon
            rw [ihValue other depth (skipBlanks colon) (by omega) (by omega)]
            cases hread : readValue rt other depth (skipBlanks colon) with
            | error e => rfl
            | ok r =>
              obtain ⟨v, behindValue⟩ := r
              have hvalue := (length_read rt other).1 _ _ _ _ hread
              have hvalueBlanks := length_skipBlanks behindValue
              simp only [except_ok_bind]
              split
              · rfl
              · rename_i last hnone hlast
                have hlast := length_of_expect hlast
                have hnext := length_skipBlanks last
                rw [ihFields other depth (skipBlanks last) (by omega) (by omega)]
              · rfl

/-- The fuel of `loadsText` never runs out: more of it reads the same. -/
theorem loadsText_fuel (rt : JsonRuntime) (cs : CodePoints) {fuel : Nat}
    (h : 2 * cs.length < fuel) :
    loadsText rt cs = (readValue rt fuel rt.maxNesting (skipBlanks cs) >>= fun r =>
      if skipBlanks r.2 = [] then return r.1 else .error .notJson) := by
  have hblanks := length_skipBlanks cs
  rw [loadsText, (read_fuel rt (2 * cs.length + 2)).1 fuel _ _ (by omega) (by omega)]

/-! ## Keys of a loaded dictionary -/

theorem mem_setItem {rt : JsonRuntime} {fields : List (PyJson × PyJson)} {f g : PyJson × PyJson}
    (h : g ∈ setItem rt fields f) : g.1 = f.1 ∨ g.1 ∈ fields.map Prod.fst := by
  rw [setItem] at h
  split at h
  · obtain ⟨old, hold, rfl⟩ := List.mem_map.mp h
    right
    split
    · exact List.mem_map.mpr ⟨old, hold, rfl⟩
    · exact List.mem_map_of_mem hold
  · rcases List.mem_append.mp h with h | h
    · exact .inr (List.mem_map_of_mem h)
    · exact .inl (List.mem_singleton.mp h ▸ rfl)

/-- The keys of a dictionary are those of its pairs. -/
theorem mem_dictOf {rt : JsonRuntime} {pairs : List (PyJson × PyJson)} {g : PyJson × PyJson}
    (h : g ∈ dictOf rt pairs) : g.1 ∈ pairs.map Prod.fst := by
  have hrun : ∀ (start : List (PyJson × PyJson)), g ∈ pairs.foldl (setItem rt) start →
      g.1 ∈ start.map Prod.fst ∨ g.1 ∈ pairs.map Prod.fst := by
    clear h
    induction pairs with
    | nil =>
      intro start h
      exact .inl (List.mem_map_of_mem h)
    | cons f pairs ih =>
      intro start h
      rcases ih (setItem rt start f) h with h | h
      · obtain ⟨old, hold, heq⟩ := List.mem_map.mp h
        rcases mem_setItem hold with hkey | hkey
        · exact .inr (by rw [← heq, hkey]; exact List.mem_cons_self)
        · exact .inl (heq ▸ hkey)
      · exact .inr (List.mem_cons_of_mem _ h)
  rcases hrun [] h with h | h
  · cases h
  · exact h

theorem readFields_keys {rt : JsonRuntime} {fuel depth : Nat} {cs rest : CodePoints}
    {fields : List (PyJson × PyJson)} (h : readFields rt fuel depth cs = .ok (fields, rest)) :
    ∀ f ∈ fields, ∃ s, f.1 = .str s := by
  induction fuel generalizing cs fields rest with
  | zero =>
    rw [readFields] at h
    cases h
  | succ fuel ih =>
    rw [readFields] at h
    split at h
    · cases h
    · obtain ⟨⟨key, behind⟩, -, h⟩ := except_bind_ok.mp h
      dsimp only at h
      split at h
      · cases h
      · obtain ⟨⟨v, behind⟩, -, h⟩ := except_bind_ok.mp h
        dsimp only at h
        split at h
        · obtain ⟨rfl, rfl⟩ := Prod.mk.inj (Except.ok.inj h)
          exact List.forall_mem_singleton.mpr ⟨key, rfl⟩
        · obtain ⟨⟨more, behind⟩, hmore, h⟩ := except_bind_ok.mp h
          obtain ⟨rfl, rfl⟩ := Prod.mk.inj (Except.ok.inj h)
          exact List.forall_mem_cons.mpr ⟨⟨key, rfl⟩, ih hmore⟩
        · cases h

theorem numberOf_ne_dict {rt : JsonRuntime} {token : NumberToken}
    {fields : List (PyJson × PyJson)} : numberOf rt token ≠ .ok (.dict fields) := by
  intro h
  rw [numberOf] at h
  split at h
  · cases h
  · split at h
    · split at h <;> cases h
    · cases h

theorem readScalar_ne_dict {rt : JsonRuntime} {cs rest : CodePoints}
    {fields : List (PyJson × PyJson)} : readScalar rt cs ≠ .ok (.dict fields, rest) := by
  intro h
  rw [readScalar] at h
  split at h
  · rename_i w hw
    have hmem := List.mem_of_find?_eq_some hw
    have hconstants : ∀ w ∈ constants, ∀ fields, w.2 ≠ .dict fields := by
      unfold constants
      simp
    exact hconstants w hmem fields (Prod.mk.inj (Except.ok.inj h)).1
  · obtain ⟨value, hvalue, h⟩ := except_bind_ok.mp h
    obtain ⟨rfl, -⟩ := Prod.mk.inj (Except.ok.inj h)
    exact numberOf_ne_dict hvalue

/-- The keys of a dictionary that is read are texts. -/
theorem readValue_keys {rt : JsonRuntime} {fuel depth : Nat} {cs rest : CodePoints}
    {fields : List (PyJson × PyJson)} (h : readValue rt fuel depth cs = .ok (.dict fields, rest)) :
    ∀ f ∈ fields, ∃ s, f.1 = .str s := by
  cases fuel with
  | zero =>
    rw [readValue] at h
    cases h
  | succ fuel =>
    cases cs with
    | nil =>
      rw [readValue] at h
      cases h
    | cons n cs =>
      rw [readValue] at h
      split at h
      · obtain ⟨r, -, heq⟩ := except_map_ok.mp h
        cases heq
      split at h
      · split at h
        · cases h
        · split at h
          · cases h
          · obtain ⟨r, -, heq⟩ := except_map_ok.mp h
            cases heq
      split at h
      · split at h
        · cases h
        · split at h
          · obtain ⟨heq, -⟩ := Prod.mk.inj (Except.ok.inj h)
            obtain rfl := PyJson.dict.inj heq
            exact List.forall_mem_nil _
          · obtain ⟨⟨pairs, behind⟩, hpairs, heq⟩ := except_map_ok.mp h
            obtain ⟨heq, -⟩ := Prod.mk.inj heq
            obtain rfl := PyJson.dict.inj heq
            intro f hf
            obtain ⟨pair, hpair, hkey⟩ := List.mem_map.mp (mem_dictOf hf)
            rw [← hkey]
            exact readFields_keys hpairs pair hpair
      · exact absurd h readScalar_ne_dict

theorem loads_keys {rt : JsonRuntime} {bytes : List UInt8} {fields : List (PyJson × PyJson)}
    (h : loads rt bytes = .ok (.dict fields)) : ∀ f ∈ fields, ∃ s, f.1 = .str s := by
  rw [loads] at h
  split at h
  · cases h
  · obtain ⟨⟨v, rest⟩, hvalue, h⟩ := except_bind_ok.mp h
    dsimp only at h
    split at h
    · obtain rfl := Except.ok.inj h
      exact readValue_keys hvalue
    · cases h

/-! ## Writing -/

/-- One code point inside a JSON string. -/
def escapePoint (n : Nat) : CodePoints :=
  if n < 0x80 then (Json.escapeChar false (Char.ofNat n)).map Char.toNat else [n]

def quotePoints (s : CodePoints) : CodePoints :=
  '"'.toNat :: s.flatMap escapePoint ++ ['"'.toNat]

def isFinite (repr : String) : Bool := repr ≠ "nan" && repr ≠ "inf" && repr ≠ "-inf"

def encodeFloat (repr : String) : Except DumpError CodePoints :=
  if isFinite repr then .ok (codePoints repr) else .error .number

def encodeInt (rt : JsonRuntime) (n : Int) : Except DumpError CodePoints :=
  if rt.admits (toString n.natAbs).toList.length then .ok (codePoints (toString n))
  else .error .number

/-- The text of a key. -/
def encodeKey (rt : JsonRuntime) : PyJson → Except DumpError CodePoints
  | .null => .ok (codePoints "null")
  | .bool b => .ok (codePoints (if b then "true" else "false"))
  | .int n => encodeInt rt n
  | .float repr => encodeFloat repr
  | .str s => .ok s
  | .list _ | .dict _ => .error .unsortable

def isTextKey : PyJson → Bool
  | .str _ => true
  | _ => false

def isNumberKey : PyJson → Bool
  | .bool _ | .int _ | .float _ => true
  | _ => false

/-- Keys that can be compared: texts, numbers, or a single key. -/
def areSortable (keys : List PyJson) : Bool :=
  keys.length ≤ 1 || keys.all isTextKey || keys.all isNumberKey

def keyLe (rt : JsonRuntime) : PyJson → PyJson → Bool
  | .str s, .str t => decide (s ≤ t)
  | a, b => rt.numberLe a b

/-- `sort_keys` -/
def sortKeys {α : Type} (rt : JsonRuntime) (fields : List (PyJson × α)) :
    Except DumpError (List (PyJson × α)) :=
  if areSortable (fields.map Prod.fst) then
    .ok (fields.insertionSort fun f g => keyLe rt f.1 g.1 = true)
  else .error .unsortable

def separated (texts : List CodePoints) : CodePoints := [','.toNat].intercalate texts

def encodeField (rt : JsonRuntime) (field : PyJson × Except DumpError CodePoints) :
    Except DumpError CodePoints := do
  let key ← encodeKey rt field.1
  let value ← field.2
  return quotePoints key ++ ':'.toNat :: value

mutual
/-- `JSONEncoder.encode`, with sorted keys and no `NaN`. -/
def encode (rt : JsonRuntime) : Nat → PyJson → Except DumpError CodePoints
  | _, .null => .ok (codePoints "null")
  | _, .bool b => .ok (codePoints (if b then "true" else "false"))
  | _, .int n => encodeInt rt n
  | _, .float repr => encodeFloat repr
  | _, .str s => .ok (quotePoints s)
  | 0, .list _ => .error .nesting
  | 0, .dict _ => .error .nesting
  | depth + 1, .list items => do
    let texts ← encodeItems rt depth items
    return '['.toNat :: separated texts ++ [']'.toNat]
  | depth + 1, .dict fields => do
    let sorted ← sortKeys rt (encodeValues rt depth fields)
    let texts ← sorted.mapM (encodeField rt)
    return '{'.toNat :: separated texts ++ ['}'.toNat]

def encodeItems (rt : JsonRuntime) : Nat → List PyJson → Except DumpError (List CodePoints)
  | _, [] => .ok []
  | depth, v :: rest => do
    let text ← encode rt depth v
    let texts ← encodeItems rt depth rest
    return text :: texts

/-- The values are written where they stand, before the keys are sorted. -/
def encodeValues (rt : JsonRuntime) : Nat → List (PyJson × PyJson) →
    List (PyJson × Except DumpError CodePoints)
  | _, [] => []
  | depth, (k, v) :: rest => (k, encode rt depth v) :: encodeValues rt depth rest
end

/-- `json.dumps(value, ensure_ascii=False, sort_keys=True, separators=(",", ":"),
allow_nan=False).encode("utf-8")` -/
def dumps (rt : JsonRuntime) (v : PyJson) : Except DumpError (List UInt8) := do
  encodeUtf8 (← encode rt rt.maxNesting v)

end PyJson
