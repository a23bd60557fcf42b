namespace BuildPipeline.Digest.Sha256

/-! SHA-256 over a list of bytes: padding, sixty-four rounds for every block of sixty-four
bytes, and the digest in lower-case hexadecimal. -/

def roundConstants : List UInt32 :=
  [0x428a2f98, 0x71374491, 0xb5c0fbcf, 0xe9b5dba5, 0x3956c25b, 0x59f111f1,
   0x923f82a4, 0xab1c5ed5, 0xd807aa98, 0x12835b01, 0x243185be, 0x550c7dc3,
   0x72be5d74, 0x80deb1fe, 0x9bdc06a7, 0xc19bf174, 0xe49b69c1, 0xefbe4786,
   0x0fc19dc6, 0x240ca1cc, 0x2de92c6f, 0x4a7484aa, 0x5cb0a9dc, 0x76f988da,
   0x983e5152, 0xa831c66d, 0xb00327c8, 0xbf597fc7, 0xc6e00bf3, 0xd5a79147,
   0x06ca6351, 0x14292967, 0x27b70a85, 0x2e1b2138, 0x4d2c6dfc, 0x53380d13,
   0x650a7354, 0x766a0abb, 0x81c2c92e, 0x92722c85, 0xa2bfe8a1, 0xa81a664b,
   0xc24b8b70, 0xc76c51a3, 0xd192e819, 0xd6990624, 0xf40e3585, 0x106aa070,
   0x19a4c116, 0x1e376c08, 0x2748774c, 0x34b0bcb5, 0x391c0cb3, 0x4ed8aa4a,
   0x5b9cca4f, 0x682e6ff3, 0x748f82ee, 0x78a5636f, 0x84c87814, 0x8cc70208,
   0x90befffa, 0xa4506ceb, 0xbef9a3f7, 0xc67178f2]

structure State where
  a : UInt32
  b : UInt32
  c : UInt32
  d : UInt32
  e : UInt32
  f : UInt32
  g : UInt32
  h : UInt32

namespace State

def initial : State :=
  ⟨0x6a09e667, 0xbb67ae85, 0x3c6ef372, 0xa54ff53a,
   0x510e527f, 0x9b05688c, 0x1f83d9ab, 0x5be0cd19⟩

def add (x y : State) : State :=
  ⟨x.a + y.a, x.b + y.b, x.c + y.c, x.d + y.d, x.e + y.e, x.f + y.f, x.g + y.g, x.h + y.h⟩

def words (x : State) : List UInt32 :=
  [x.a, x.b, x.c, x.d, x.e, x.f, x.g, x.h]

end State

def rotate (x : UInt32) (n : UInt32) : UInt32 :=
  (x >>> n) ||| (x <<< (32 - n))

def round (s : State) (constant word : UInt32) : State :=
  let sum1 := rotate s.e 6 ^^^ rotate s.e 11 ^^^ rotate s.e 25
  let choice := (s.e &&& s.f) ^^^ (~~~ s.e &&& s.g)
  let first := s.h + sum1 + choice + constant + word
  let sum0 := rotate s.a 2 ^^^ rotate s.a 13 ^^^ rotate s.a 22
  let majority := (s.a &&& s.b) ^^^ (s.a &&& s.c) ^^^ (s.b &&& s.c)
  ⟨first + (sum0 + majority), s.a, s.b, s.c, s.d + first, s.e, s.f, s.g⟩

def nextWord (schedule : Array UInt32) : UInt32 :=
  let back := fun (count : Nat) => schedule.getD (schedule.size - count) 0
  let low := back 15
  let high := back 2
  let small0 := rotate low 7 ^^^ rotate low 18 ^^^ (low >>> 3)
  let small1 := rotate high 17 ^^^ rotate high 19 ^^^ (high >>> 10)
  back 16 + small0 + back 7 + small1

def extendSchedule : Nat → Array UInt32 → Array UInt32
  | 0, schedule => schedule
  | count + 1, schedule => extendSchedule count (schedule.push (nextWord schedule))

def wordOfBytes : List UInt8 → UInt32 :=
  List.foldl (fun word byte => (word <<< 8) ||| byte.toUInt32) 0

def wordsOfBytes : Nat → List UInt8 → List UInt32
  | 0, _ => []
  | count + 1, bytes => wordOfBytes (bytes.take 4) :: wordsOfBytes count (bytes.drop 4)

def compress (state : State) (block : List UInt8) : State :=
  let schedule := extendSchedule 48 (wordsOfBytes 16 block).toArray
  let last := (roundConstants.zip schedule.toList).foldl
    (fun s step => round s step.1 step.2) state
  state.add last

def compressAll : Nat → State → List UInt8 → State
  | 0, state, _ => state
  | count + 1, state, bytes =>
      compressAll count (compress state (bytes.take 64)) (bytes.drop 64)

/-- A single one bit, zeros up to eight bytes short of a whole block, and the length in
bits. -/
def lengthBytes (bits : Nat) : List UInt8 :=
  (List.range 8).map fun index => (bits / Nat.pow 256 (7 - index) % 256).toUInt8

def pad (bytes : List UInt8) : List UInt8 :=
  let filled := bytes.length + 1
  let zeros := (120 - filled % 64) % 64
  bytes ++ 0x80 :: List.replicate zeros 0 ++ lengthBytes (8 * bytes.length)

def hexByte (byte : UInt8) : List Char :=
  [Nat.digitChar (byte.toNat / 16), Nat.digitChar (byte.toNat % 16)]

def hexWord (word : UInt32) : List Char :=
  [(word >>> 24).toUInt8, (word >>> 16).toUInt8, (word >>> 8).toUInt8,
    word.toUInt8].flatMap hexByte

def hex (bytes : List UInt8) : String :=
  let padded := pad bytes
  String.ofList
    ((compressAll (padded.length / 64) State.initial padded).words.flatMap hexWord)

def hexOfText (text : String) : String :=
  hex text.toUTF8.toList

end BuildPipeline.Digest.Sha256
