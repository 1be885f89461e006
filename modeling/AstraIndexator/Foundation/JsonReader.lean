import AstraIndexator.Foundation.Json

/-!
# Reading JSON texts

`Json.loads` is `json.loads` on bytes and `Json.dumps` the canonical text it is
read back from.  The readers walk the text with a fuel that bounds the depth of
their recursion.  A string with a lone surrogate is no text here, so an escape
that makes one is refused.
-/

/-- The encodings `json.detect_encoding` tells apart from UTF-8. -/
inductive WideEncoding
  | utf16 | utf16be | utf16le | utf32 | utf32be | utf32le

/-- The part of Python's numbers and codecs that is taken as it is. -/
structure PythonRuntime where
  /-- `repr(float(literal))`. -/
  floatRepr : String → String
  /-- `int(x)` of the float with this `repr`.  It is refused for an infinity and for no number. -/
  truncate? : String → Option Int
  /-- The decimal value of a digit outside ASCII. -/
  decimal? : Char → Option Nat
  /-- `sys.get_int_max_str_digits()`.  Zero means no limit. -/
  maxDigits : Nat
  /-- The decoder of an encoding other than UTF-8. -/
  decodeWide? : WideEncoding → List UInt8 → Option (List Char)

/-- Whether an integer of so many digits is converted from and to text. -/
def PythonRuntime.admits (py : PythonRuntime) (digits : Nat) : Bool :=
  py.maxDigits = 0 || digits ≤ py.maxDigits

/-- Why a text is not read: it is no JSON text, or `ValueError` stops at a long integer. -/
inductive ReadError
  | invalid
  | tooManyDigits
  deriving DecidableEq

namespace Json

open Text

/-! ## Scalars -/

def isNumberChar (c : Char) : Bool :=
  c.isDigit || c = '-' || c = '+' || c = '.' || c = 'e' || c = 'E'

/-- The digits of an integer, without a leading zero. -/
def isIntegerPart : List Char → Bool
  | [] => false
  | c :: cs => (c ≠ '0' || cs.isEmpty) && (c :: cs).all Char.isDigit

def isExponent : List Char → Bool
  | e :: c :: cs =>
    (e = 'e' || e = 'E') && (if c = '-' ∨ c = '+' then !cs.isEmpty && cs.all Char.isDigit
      else (c :: cs).all Char.isDigit)
  | _ => false

/-- What follows the integer part of a float: a fraction, an exponent, or both. -/
def isFraction : List Char → Bool
  | [] => false
  | c :: cs =>
    if c = '.' then !(cs.takeWhile Char.isDigit).isEmpty &&
      ((cs.dropWhile Char.isDigit).isEmpty || isExponent (cs.dropWhile Char.isDigit))
    else isExponent (c :: cs)

/-- A run of number characters as a number. -/
def numberValue (py : PythonRuntime) (token : List Char) : Except ReadError Json :=
  let negative := token.head? = some '-'
  let digits := if negative then token.tail else token
  let integer := digits.takeWhile Char.isDigit
  let tail := digits.dropWhile Char.isDigit
  if !isIntegerPart integer then .error .invalid
  else if tail.isEmpty then
    if py.admits integer.length then
      let n : Int := Nat.ofDigitChars 10 integer 0
      .ok (.int (if negative then -n else n))
    else .error .tooManyDigits
  else if isFraction tail then .ok (.float (py.floatRepr (String.ofList token)))
  else .error .invalid

def words : List (List Char × Json) :=
  [(['n', 'u', 'l', 'l'], .null), (['t', 'r', 'u', 'e'], .bool true),
    (['f', 'a', 'l', 's', 'e'], .bool false), (['N', 'a', 'N'], .float "nan"),
    (['I', 'n', 'f', 'i', 'n', 'i', 't', 'y'], .float "inf"),
    (['-', 'I', 'n', 'f', 'i', 'n', 'i', 't', 'y'], .float "-inf")]

/-- A word or a number.  No value is followed by a number character, so a number ends
where they end. -/
def readScalar (py : PythonRuntime) (cs : List Char) : Except ReadError (Json × List Char) :=
  match words.find? fun w => w.1.isPrefixOf cs with
  | some w => .ok (w.2, cs.drop w.1.length)
  | none => do
    let v ← numberValue py (cs.takeWhile isNumberChar)
    .ok (v, cs.dropWhile isNumberChar)

/-! ## Strings -/

def hexValue? (c : Char) : Option Nat :=
  if '0' ≤ c ∧ c ≤ '9' then some (c.toNat - 48)
  else if 'a' ≤ c ∧ c ≤ 'f' then some (c.toNat - 87)
  else if 'A' ≤ c ∧ c ≤ 'F' then some (c.toNat - 55)
  else none

def readHex4 : List Char → Except ReadError (Nat × List Char)
  | a :: b :: c :: d :: rest =>
    match hexValue? a, hexValue? b, hexValue? c, hexValue? d with
    | some a, some b, some c, some d => .ok (((a * 16 + b) * 16 + c) * 16 + d, rest)
    | _, _, _, _ => .error .invalid
  | _ => .error .invalid

/-- The code unit after `\u`, and the second one of a surrogate pair. -/
def readCodeUnits (cs : List Char) : Except ReadError (Char × List Char) := do
  let (unit, rest) ← readHex4 cs
  if 0xd800 ≤ unit ∧ unit < 0xdc00 then
    match rest with
    | '\\' :: 'u' :: rest =>
      let (low, rest) ← readHex4 rest
      if 0xdc00 ≤ low ∧ low < 0xe000 then
        .ok (Char.ofNat (0x10000 + (unit - 0xd800) * 0x400 + (low - 0xdc00)), rest)
      else .error .invalid
    | _ => .error .invalid
  else if 0xdc00 ≤ unit ∧ unit < 0xe000 then .error .invalid
  else .ok (Char.ofNat unit, rest)

/-- What follows a backslash. -/
def readEscape : List Char → Except ReadError (Char × List Char)
  | [] => .error .invalid
  | c :: rest =>
    if c = '"' then .ok ('"', rest)
    else if c = '\\' then .ok ('\\', rest)
    else if c = '/' then .ok ('/', rest)
    else if c = 'b' then .ok (Char.ofNat 8, rest)
    else if c = 'f' then .ok (Char.ofNat 12, rest)
    else if c = 'n' then .ok ('\n', rest)
    else if c = 'r' then .ok ('\r', rest)
    else if c = 't' then .ok ('\t', rest)
    else if c = 'u' then readCodeUnits rest
    else .error .invalid

/-- The characters up to the closing quote, and what follows it. -/
def readString : Nat → List Char → Except ReadError (List Char × List Char)
  | 0, _ => .error .invalid
  | _ + 1, [] => .error .invalid
  | fuel + 1, c :: rest =>
    if c = '"' then .ok ([], rest)
    else if c = '\\' then do
      let (e, rest) ← readEscape rest
      let (cs, rest) ← readString fuel rest
      .ok (e :: cs, rest)
    else if c.toNat < 32 then .error .invalid
    else do
      let (cs, rest) ← readString fuel rest
      .ok (c :: cs, rest)

/-! ## Values -/

def isWhitespace (c : Char) : Bool := c = ' ' || c = '\t' || c = '\n' || c = '\r'

def skipWhitespace (cs : List Char) : List Char := cs.dropWhile isWhitespace

/-- Assign to a key: the value of a key that is there is replaced where it stands. -/
def setField (fields : List (String × Json)) (f : String × Json) : List (String × Json) :=
  if fields.any (fun g => g.1 = f.1) then fields.map fun g => if g.1 = f.1 then f else g
  else fields ++ [f]

/-- The dictionary of a sequence of pairs. -/
def dictOf (pairs : List (String × Json)) : List (String × Json) := pairs.foldl setField []

mutual
def readValue (py : PythonRuntime) : Nat → List Char → Except ReadError (Json × List Char)
  | 0, _ => .error .invalid
  | _ + 1, [] => .error .invalid
  | fuel + 1, c :: cs =>
    if c = '"' then (readString fuel cs).map fun r => (.str (String.ofList r.1), r.2)
    else if c = '[' then
      match skipWhitespace cs with
      | ']' :: rest => .ok (.arr [], rest)
      | cs => (readItems py fuel cs).map fun r => (.arr r.1, r.2)
    else if c = '{' then
      match skipWhitespace cs with
      | '}' :: rest => .ok (.obj [], rest)
      | cs => (readFields py fuel cs).map fun r => (.obj (dictOf r.1), r.2)
    else readScalar py (c :: cs)

/-- The items up to the closing bracket. -/
def readItems (py : PythonRuntime) : Nat → List Char → Except ReadError (List Json × List Char)
  | 0, _ => .error .invalid
  | fuel + 1, cs => do
    let (v, rest) ← readValue py fuel cs
    match skipWhitespace rest with
    | ']' :: rest => .ok ([v], rest)
    | ',' :: rest =>
      let (items, rest) ← readItems py fuel (skipWhitespace rest)
      .ok (v :: items, rest)
    | _ => .error .invalid

/-- The fields up to the closing brace. -/
def readFields (py : PythonRuntime) :
    Nat → List Char → Except ReadError (List (String × Json) × List Char)
  | 0, _ => .error .invalid
  | fuel + 1, '"' :: cs => do
    let (key, rest) ← readString fuel cs
    match skipWhitespace rest with
    | ':' :: rest =>
      let (v, rest) ← readValue py fuel (skipWhitespace rest)
      match skipWhitespace rest with
      | '}' :: rest => .ok ([(String.ofList key, v)], rest)
      | ',' :: rest =>
        let (fields, rest) ← readFields py fuel (skipWhitespace rest)
        .ok ((String.ofList key, v) :: fields, rest)
      | _ => .error .invalid
    | _ => .error .invalid
  | _ + 1, _ => .error .invalid
end

/-- A text that is one value. -/
def loadsText (py : PythonRuntime) (cs : List Char) : Except ReadError Json := do
  let (v, rest) ← readValue py (2 * cs.length + 2) (skipWhitespace cs)
  if (skipWhitespace rest).isEmpty then .ok v else .error .invalid

/-! ## Bytes -/

def decodeUtf8? (bytes : List UInt8) : Option (List Char) :=
  bytes.toByteArray.utf8Decode?.map Array.toList

/-- `bytes.decode(json.detect_encoding(bytes))`. -/
def decode? (py : PythonRuntime) (bytes : List UInt8) : Option (List Char) :=
  if [0xff, 0xfe, 0, 0] <+: bytes ∨ [0, 0, 0xfe, 0xff] <+: bytes then py.decodeWide? .utf32 bytes
  else if [0xff, 0xfe] <+: bytes ∨ [0xfe, 0xff] <+: bytes then py.decodeWide? .utf16 bytes
  else if [0xef, 0xbb, 0xbf] <+: bytes then decodeUtf8? (bytes.drop 3)
  else if 4 ≤ bytes.length ∧ bytes[0]? = some 0 then
    py.decodeWide? (if bytes[1]? = some 0 then .utf32be else .utf16be) bytes
  else if 4 ≤ bytes.length ∧ bytes[1]? = some 0 then
    py.decodeWide? (if bytes[2]? = some 0 ∧ bytes[3]? = some 0 then .utf32le else .utf16le) bytes
  else if bytes.length = 2 ∧ bytes[0]? = some 0 then py.decodeWide? .utf16be bytes
  else if bytes.length = 2 ∧ bytes[1]? = some 0 then py.decodeWide? .utf16le bytes
  else decodeUtf8? bytes

/-- `json.loads(bytes)`.  Bytes that are no text are as invalid as texts that are no value. -/
def loads (py : PythonRuntime) (bytes : List UInt8) : Except ReadError Json :=
  match decode? py bytes with
  | none => .error .invalid
  | some cs => loadsText py cs

mutual
/-- No number in the value is an infinity, no number, or an integer with too many digits. -/
def isEncodable (py : PythonRuntime) : Json → Bool
  | .int n => py.admits (toString n.natAbs).toList.length
  | .float repr => repr ≠ "nan" && repr ≠ "inf" && repr ≠ "-inf"
  | .arr items => itemsEncodable py items
  | .obj fields => fieldsEncodable py fields
  | _ => true

def itemsEncodable (py : PythonRuntime) : List Json → Bool
  | [] => true
  | v :: rest => isEncodable py v && itemsEncodable py rest

def fieldsEncodable (py : PythonRuntime) : List (String × Json) → Bool
  | [] => true
  | (_, v) :: rest => isEncodable py v && fieldsEncodable py rest
end

/-- `json.dumps(value, ensure_ascii=False, sort_keys=True, separators=(",", ":"),
allow_nan=False).encode("utf-8")`.  It refuses a value with a `ValueError`. -/
def dumps (py : PythonRuntime) (v : Json) : Option (List UInt8) :=
  if v.isEncodable py then some (utf8 (render false v)) else none

end Json
