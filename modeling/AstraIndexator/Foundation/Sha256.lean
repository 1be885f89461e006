import AstraIndexator.Foundation.Text

/-!
# SHA-256 and digest functions

`HexDigest` is a digest function that answers 64 lowercase hexadecimal digits.
Developments that assume nothing else about their digest take one as a
parameter.  `Sha256.hexDigest` is the SHA-256 function, written over natural
numbers so that the kernel evaluates it on short inputs.
-/

open Text

/-- A text of exactly 64 lowercase hexadecimal digits. -/
def IsSha256Hex (s : String) : Prop := s.toList.length = 64 ∧ ∀ c ∈ s.toList, isHexDigit c = true

instance (s : String) : Decidable (IsSha256Hex s) :=
  @instDecidableAnd _ _ _ (List.decidableBAll _ _)

/-- A digest function with the shape of `hashlib.sha256(_).hexdigest()`. -/
structure HexDigest where
  hexdigest : List UInt8 → String
  isHex : ∀ bytes, IsSha256Hex (hexdigest bytes)

namespace Sha256

def modulus : Nat := 2 ^ 32

def rotr (n x : Nat) : Nat := (x >>> n) ||| ((x <<< (32 - n)) % modulus)

def roundConstants : List Nat := [
  0x428a2f98, 0x71374491, 0xb5c0fbcf, 0xe9b5dba5, 0x3956c25b, 0x59f111f1, 0x923f82a4, 0xab1c5ed5,
  0xd807aa98, 0x12835b01, 0x243185be, 0x550c7dc3, 0x72be5d74, 0x80deb1fe, 0x9bdc06a7, 0xc19bf174,
  0xe49b69c1, 0xefbe4786, 0x0fc19dc6, 0x240ca1cc, 0x2de92c6f, 0x4a7484aa, 0x5cb0a9dc, 0x76f988da,
  0x983e5152, 0xa831c66d, 0xb00327c8, 0xbf597fc7, 0xc6e00bf3, 0xd5a79147, 0x06ca6351, 0x14292967,
  0x27b70a85, 0x2e1b2138, 0x4d2c6dfc, 0x53380d13, 0x650a7354, 0x766a0abb, 0x81c2c92e, 0x92722c85,
  0xa2bfe8a1, 0xa81a664b, 0xc24b8b70, 0xc76c51a3, 0xd192e819, 0xd6990624, 0xf40e3585, 0x106aa070,
  0x19a4c116, 0x1e376c08, 0x2748774c, 0x34b0bcb5, 0x391c0cb3, 0x4ed8aa4a, 0x5b9cca4f, 0x682e6ff3,
  0x748f82ee, 0x78a5636f, 0x84c87814, 0x8cc70208, 0x90befffa, 0xa4506ceb, 0xbef9a3f7, 0xc67178f2]

/-- The eight working words. -/
structure Words where
  a : Nat
  b : Nat
  c : Nat
  d : Nat
  e : Nat
  f : Nat
  g : Nat
  h : Nat

def initial : Words :=
  { a := 0x6a09e667, b := 0xbb67ae85, c := 0x3c6ef372, d := 0xa54ff53a,
    e := 0x510e527f, f := 0x9b05688c, g := 0x1f83d9ab, h := 0x5be0cd19 }

/-- One round, with the round constant and the scheduled word of that round. -/
def round (s : Words) (kw : Nat × Nat) : Words :=
  let s₁ := rotr 6 s.e ^^^ rotr 11 s.e ^^^ rotr 25 s.e
  let ch := (s.e &&& s.f) ^^^ ((modulus - 1 - s.e) &&& s.g)
  let t₁ := (s.h + s₁ + ch + kw.1 + kw.2) % modulus
  let s₀ := rotr 2 s.a ^^^ rotr 13 s.a ^^^ rotr 22 s.a
  let maj := (s.a &&& s.b) ^^^ (s.a &&& s.c) ^^^ (s.b &&& s.c)
  { a := (t₁ + s₀ + maj) % modulus, b := s.a, c := s.b, d := s.c,
    e := (s.d + t₁) % modulus, f := s.e, g := s.f, h := s.g }

/-- The next scheduled word, from the sixteen words before it, latest first. -/
def nextWord : List Nat → Nat
  | [_, w₂, _, _, _, _, w₇, _, _, _, _, _, _, _, w₁₅, w₁₆] =>
    let s₀ := rotr 7 w₁₅ ^^^ rotr 18 w₁₅ ^^^ (w₁₅ >>> 3)
    let s₁ := rotr 17 w₂ ^^^ rotr 19 w₂ ^^^ (w₂ >>> 10)
    (w₁₆ + s₀ + w₇ + s₁) % modulus
  | _ => 0

def schedule : Nat → List Nat → List Nat
  | 0, _ => []
  | n + 1, window =>
    let w := nextWord window
    w :: schedule n (w :: window.take 15)

def compress (s : Words) (block : List Nat) : Words :=
  let t := (roundConstants.zip (block ++ schedule 48 block.reverse)).foldl round s
  { a := (s.a + t.a) % modulus, b := (s.b + t.b) % modulus, c := (s.c + t.c) % modulus,
    d := (s.d + t.d) % modulus, e := (s.e + t.e) % modulus, f := (s.f + t.f) % modulus,
    g := (s.g + t.g) % modulus, h := (s.h + t.h) % modulus }

/-- The message, a one bit, zeros, and the bit length in eight bytes. -/
def pad (message : List Nat) : List Nat :=
  let n := message.length
  message ++ 128 :: List.replicate ((119 - n % 64) % 64) 0 ++
    (List.range 8).map (fun i => (n * 8) >>> (8 * (7 - i)) % 256)

def bigEndianWords : List Nat → List Nat
  | a :: b :: c :: d :: rest => (((a * 256 + b) * 256 + c) * 256 + d) :: bigEndianWords rest
  | _ => []

def splitBlocks : Nat → List Nat → List (List Nat)
  | 0, _ => []
  | n + 1, words => words.take 16 :: splitBlocks n (words.drop 16)

def digestWords (message : List Nat) : Words :=
  let words := bigEndianWords (pad message)
  (splitBlocks (words.length / 16) words).foldl compress initial

def hexdigest (bytes : List UInt8) : String :=
  let s := digestWords (bytes.map UInt8.toNat)
  String.ofList ([s.a, s.b, s.c, s.d, s.e, s.f, s.g, s.h].flatMap (hexChars 8))

theorem isSha256Hex_hexdigest (bytes : List UInt8) : IsSha256Hex (hexdigest bytes) := by
  unfold IsSha256Hex hexdigest
  rw [String.toList_ofList]
  constructor
  · simp [List.flatMap_cons, hexChars_length]
  · intro c hc
    obtain ⟨w, _, hw⟩ := List.mem_flatMap.mp hc
    exact hexChars_isHexDigit 8 w c hw

/-- SHA-256 as a digest function. -/
def hexDigest : HexDigest := { hexdigest := hexdigest, isHex := isSha256Hex_hexdigest }

example : hexdigest (utf8 "abc".toList) =
    "ba7816bf8f01cfea414140de5dae2223b00361a396177a9cb410ff61f20015ad" := by decide +kernel

end Sha256
