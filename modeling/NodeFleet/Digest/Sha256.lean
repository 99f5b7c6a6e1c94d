import NodeFleet.Text.Hex

/-!
# SHA-256

The digest of FIPS 180-4 over a list of octets, and its hexadecimal text.
-/

namespace NodeFleet.Digest

/-- The working variables of the compression function. -/
structure Working where
  a : UInt32
  b : UInt32
  c : UInt32
  d : UInt32
  e : UInt32
  f : UInt32
  g : UInt32
  h : UInt32

/-- The hash value before the first block. -/
def initialHash : Working :=
  { a := 0x6a09e667, b := 0xbb67ae85, c := 0x3c6ef372, d := 0xa54ff53a,
    e := 0x510e527f, f := 0x9b05688c, g := 0x1f83d9ab, h := 0x5be0cd19 }

def roundConstants : List UInt32 :=
  [
    0x428a2f98, 0x71374491, 0xb5c0fbcf, 0xe9b5dba5, 0x3956c25b, 0x59f111f1,
    0x923f82a4, 0xab1c5ed5, 0xd807aa98, 0x12835b01, 0x243185be, 0x550c7dc3,
    0x72be5d74, 0x80deb1fe, 0x9bdc06a7, 0xc19bf174, 0xe49b69c1, 0xefbe4786,
    0x0fc19dc6, 0x240ca1cc, 0x2de92c6f, 0x4a7484aa, 0x5cb0a9dc, 0x76f988da,
    0x983e5152, 0xa831c66d, 0xb00327c8, 0xbf597fc7, 0xc6e00bf3, 0xd5a79147,
    0x06ca6351, 0x14292967, 0x27b70a85, 0x2e1b2138, 0x4d2c6dfc, 0x53380d13,
    0x650a7354, 0x766a0abb, 0x81c2c92e, 0x92722c85, 0xa2bfe8a1, 0xa81a664b,
    0xc24b8b70, 0xc76c51a3, 0xd192e819, 0xd6990624, 0xf40e3585, 0x106aa070,
    0x19a4c116, 0x1e376c08, 0x2748774c, 0x34b0bcb5, 0x391c0cb3, 0x4ed8aa4a,
    0x5b9cca4f, 0x682e6ff3, 0x748f82ee, 0x78a5636f, 0x84c87814, 0x8cc70208,
    0x90befffa, 0xa4506ceb, 0xbef9a3f7, 0xc67178f2]

def rotateRight (word amount : UInt32) : UInt32 :=
  (word >>> amount) ||| (word <<< (32 - amount))

def bigSigma0 (word : UInt32) : UInt32 :=
  rotateRight word 2 ^^^ rotateRight word 13 ^^^ rotateRight word 22

def bigSigma1 (word : UInt32) : UInt32 :=
  rotateRight word 6 ^^^ rotateRight word 11 ^^^ rotateRight word 25

def smallSigma0 (word : UInt32) : UInt32 :=
  rotateRight word 7 ^^^ rotateRight word 18 ^^^ (word >>> 3)

def smallSigma1 (word : UInt32) : UInt32 :=
  rotateRight word 17 ^^^ rotateRight word 19 ^^^ (word >>> 10)

/-- The eight octets of a length in bits, most significant first. -/
def lengthOctets (bits : Nat) : List UInt8 :=
  (List.range 8).map fun position => (bits / Nat.pow 256 (7 - position)).toUInt8

/-- The message followed by a one bit, zeros, and its length in bits, a whole
number of blocks in all. -/
def padMessage (message : List UInt8) : List UInt8 :=
  let zeros := (119 - message.length % 64) % 64
  message ++ 0x80 :: List.replicate zeros 0 ++ lengthOctets (8 * message.length)

/-- The words of a list of octets, most significant octet first. -/
def wordsOf : List UInt8 → List UInt32
  | first :: second :: third :: fourth :: rest =>
      (first.toUInt32 <<< 24 ||| second.toUInt32 <<< 16 ||| third.toUInt32 <<< 8
        ||| fourth.toUInt32) :: wordsOf rest
  | _ => []

def extendSchedule (schedule : Array UInt32) (position : Nat) : Array UInt32 :=
  let word (back : Nat) := schedule.getD (position - back) 0
  schedule.push (smallSigma1 (word 2) + word 7 + smallSigma0 (word 15) + word 16)

def messageSchedule (block : List UInt32) : List UInt32 :=
  ((List.range' 16 48).foldl extendSchedule block.toArray).toList

/-- One round, with its constant and its word of the schedule. -/
def round (state : Working) (inputs : UInt32 × UInt32) : Working :=
  let choice := (state.e &&& state.f) ^^^ (~~~state.e &&& state.g)
  let majority := (state.a &&& state.b) ^^^ (state.a &&& state.c) ^^^ (state.b &&& state.c)
  let first := state.h + bigSigma1 state.e + choice + inputs.1 + inputs.2
  let second := bigSigma0 state.a + majority
  { a := first + second, b := state.a, c := state.b, d := state.c,
    e := state.d + first, f := state.e, g := state.f, h := state.g }

/-- The hash value after one more block. -/
def compress (hash : Working) (block : List UInt32) : Working :=
  let last := (roundConstants.zip (messageSchedule block)).foldl round hash
  { a := hash.a + last.a, b := hash.b + last.b, c := hash.c + last.c, d := hash.d + last.d,
    e := hash.e + last.e, f := hash.f + last.f, g := hash.g + last.g, h := hash.h + last.h }

def blocksOf : Nat → List UInt32 → List (List UInt32)
  | 0, _ => []
  | count + 1, words => words.take 16 :: blocksOf count (words.drop 16)

def sha256 (message : List UInt8) : List UInt32 :=
  let words := wordsOf (padMessage message)
  let hash := (blocksOf (words.length / 16) words).foldl compress initialHash
  [hash.a, hash.b, hash.c, hash.d, hash.e, hash.f, hash.g, hash.h]

def sha256Hex (text : String) : String :=
  String.ofList ((sha256 text.toUTF8.toList).flatMap fun word => Text.hexDigits 8 word.toNat)

end NodeFleet.Digest
