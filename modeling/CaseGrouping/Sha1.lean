import CaseGrouping.Instances

/-! The SHA-1 digest of a sequence of bytes.
-/

namespace CaseGrouping.Sha1

/-- The five words that a digest is computed in. -/
structure State where
  a : UInt32
  b : UInt32
  c : UInt32
  d : UInt32
  e : UInt32
  deriving DecidableEq

/-- The words before the first block. -/
def State.initial : State :=
  ⟨0x67452301, 0xEFCDAB89, 0x98BADCFE, 0x10325476, 0xC3D2E1F0⟩

/-- Rotates a word to the left by fewer than 32 places. -/
def rotate (x : UInt32) (places : UInt32) : UInt32 :=
  (x <<< places) ||| (x >>> (32 - places))

/-- The message followed by a one bit, zeros, and its length in bits as eight bytes, so that the
whole is a multiple of 64 bytes.
-/
def pad (message : List UInt8) : List UInt8 :=
  let length := message.length
  -- The one bit and the length take nine bytes.
  let zeros := (119 - length % 64) % 64
  let bits := 8 * length
  message ++ 0x80 :: List.replicate zeros 0
    ++ (List.range 8).map fun i => UInt8.ofNat (bits / 256 ^ (7 - i))

/-- The big-endian words of a sequence of bytes. -/
def wordsOf : List UInt8 → List UInt32
  | a :: b :: c :: d :: rest =>
      (a.toUInt32 <<< 24 ||| b.toUInt32 <<< 16 ||| c.toUInt32 <<< 8 ||| d.toUInt32) :: wordsOf rest
  | _ => []

/-- Extends the last words of a schedule by further ones; the words are listed latest first. -/
def extend : Nat → List UInt32 → List UInt32
  | 0, schedule => schedule
  | count + 1, schedule =>
      let at_ (i : Nat) := schedule.getD i 0
      extend count (rotate (at_ 2 ^^^ at_ 7 ^^^ at_ 13 ^^^ at_ 15) 1 :: schedule)

/-- The eighty words of a block of sixteen. -/
def schedule (block : List UInt32) : List UInt32 :=
  (extend 64 block.reverse).reverse

/-- The function and the constant of a step. -/
def mix (step : Nat) (s : State) : UInt32 × UInt32 :=
  if step < 20 then ((s.b &&& s.c) ||| (~~~s.b &&& s.d), 0x5A827999)
  else if step < 40 then (s.b ^^^ s.c ^^^ s.d, 0x6ED9EBA1)
  else if step < 60 then ((s.b &&& s.c) ||| (s.b &&& s.d) ||| (s.c &&& s.d), 0x8F1BBCDC)
  else (s.b ^^^ s.c ^^^ s.d, 0xCA62C1D6)

/-- One step on a word of the schedule. -/
def round (s : State) (word : UInt32 × Nat) : State :=
  let (f, k) := mix word.2 s
  ⟨rotate s.a 5 + f + s.e + k + word.1, s.a, rotate s.b 30, s.c, s.d⟩

/-- The words after a block. -/
def absorb (s : State) (block : List UInt32) : State :=
  let t := (schedule block).zipIdx.foldl round s
  ⟨s.a + t.a, s.b + t.b, s.c + t.c, s.d + t.d, s.e + t.e⟩

/-- Absorbs blocks of sixteen words. -/
def absorbAll : Nat → State → List UInt32 → State
  | 0, s, _ => s
  | blocks + 1, s, words => absorbAll blocks (absorb s (words.take 16)) (words.drop 16)

/-- The four bytes of a word. -/
def bytesOf (x : UInt32) : List UInt8 :=
  [(x >>> 24).toUInt8, (x >>> 16).toUInt8, (x >>> 8).toUInt8, x.toUInt8]

/-- The twenty bytes of the digest. -/
def digest (message : List UInt8) : List UInt8 :=
  let words := wordsOf (pad message)
  let s := absorbAll (words.length / 16) .initial words
  [s.a, s.b, s.c, s.d, s.e].flatMap bytesOf

end CaseGrouping.Sha1
