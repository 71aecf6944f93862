import Deparse.Number.Positional

/-!
# SHA-256

The digest of a sequence of bytes.  The message is filled up to whole blocks of sixteen words; each
block is extended to sixty-four words and stirred into a state of eight words, one word a round.
The constants are the leading bits of the fractional parts of the square and cube roots of the
first primes.
-/

namespace Deparse.Sha256

/-! ### Blocks -/

/-- The zeros and the length that follow the end mark of a message of `n` bytes. -/
def tailBytes (n : Nat) : List UInt8 :=
  List.replicate ((119 - n % 64) % 64) 0 ++
    (List.range 8).map fun i => UInt8.ofNat (8 * n / Numeral.place 256 (7 - i))

/-- A message with its end mark and length, which makes whole blocks of it. -/
def padded (message : List UInt8) : List UInt8 :=
  message ++ 0x80 :: tailBytes message.length

/-- Bytes as words, the first byte of each being the most significant. -/
def words : List UInt8 → List UInt32
  | a :: b :: c :: d :: bytes =>
    (a.toUInt32 <<< 24 ||| b.toUInt32 <<< 16 ||| c.toUInt32 <<< 8 ||| d.toUInt32) :: words bytes
  | _ => []

/-- The word with its bits moved `n` places to the right, in a circle. -/
def rotate (x n : UInt32) : UInt32 :=
  x >>> n ||| x <<< (32 - n)

/-- The word that follows the given ones in a schedule; the last of them comes first. -/
def nextWord (before : List UInt32) : UInt32 :=
  let x := before.getD 14 0
  let y := before.getD 1 0
  before.getD 15 0 + (rotate x 7 ^^^ rotate x 18 ^^^ x >>> 3) + before.getD 6 0 +
    (rotate y 17 ^^^ rotate y 19 ^^^ y >>> 10)

/-- The schedule of a block: its own words, and forty-eight that follow from them. -/
def schedule (block : List UInt32) : List UInt32 :=
  ((List.range 48).foldl (fun before _ => nextWord before :: before) block.reverse).reverse

/-! ### Rounds -/

/-- The constant of each round. -/
def roundConstants : List UInt32 :=
  [0x428a2f98, 0x71374491, 0xb5c0fbcf, 0xe9b5dba5, 0x3956c25b, 0x59f111f1,
    0x923f82a4, 0xab1c5ed5, 0xd807aa98, 0x12835b01, 0x243185be, 0x550c7dc3,
    0x72be5d74, 0x80deb1fe, 0x9bdc06a7, 0xc19bf174, 0xe49b69c1, 0xefbe4786,
    0x0fc19dc6, 0x240ca1cc, 0x2de92c6f, 0x4a7484aa, 0x5cb0a9dc, 0x76f988da,
    0x983e5152, 0xa831c66d, 0xb00327c8, 0xbf597fc7, 0xc6e00bf3, 0xd5a79147,
    0x06ca6351, 0x14292967, 0x27b70a85, 0x2e1b2138, 0x4d2c6dfc, 0x53380d13,
    0x650a7354, 0x766a0abb, 0x81c2c92e, 0x92722c85, 0xa2bfe8a1, 0xa81a664b,
    0xc24b8b70, 0xc76c51a3, 0xd192e819, 0xd6990624, 0xf40e3585, 0x106aa070,
    0x19a4c116, 0x1e376c08, 0x2748774c, 0x34b0bcb5, 0x391c0cb3, 0x4ed8aa4a,
    0x5b9cca4f, 0x682e6ff3, 0x748f82ee, 0x78a5636f, 0x84c87814, 0x8cc70208,
    0x90befffa, 0xa4506ceb, 0xbef9a3f7, 0xc67178f2]

/-- The eight words that a digest is made of. -/
structure State where
  (a b c d e f g h : UInt32)

/-- The state that every digest starts from. -/
def State.initial : State :=
  ⟨0x6a09e667, 0xbb67ae85, 0x3c6ef372, 0xa54ff53a, 0x510e527f, 0x9b05688c, 0x1f83d9ab, 0x5be0cd19⟩

/-- One round, with its constant and the word of the schedule. -/
def State.round (s : State) (k w : UInt32) : State :=
  let choice := (s.e &&& s.f) ^^^ (~~~s.e &&& s.g)
  let majority := (s.a &&& s.b) ^^^ (s.a &&& s.c) ^^^ (s.b &&& s.c)
  let t := s.h + (rotate s.e 6 ^^^ rotate s.e 11 ^^^ rotate s.e 25) + choice + k + w
  let u := (rotate s.a 2 ^^^ rotate s.a 13 ^^^ rotate s.a 22) + majority
  ⟨t + u, s.a, s.b, s.c, s.d + t, s.e, s.f, s.g⟩

/-- The state after a block: the result of the rounds is added to it, word by word. -/
def State.absorb (s : State) (block : List UInt32) : State :=
  let t := (roundConstants.zip (schedule block)).foldl (fun s (k, w) => s.round k w) s
  ⟨s.a + t.a, s.b + t.b, s.c + t.c, s.d + t.d, s.e + t.e, s.f + t.f, s.g + t.g, s.h + t.h⟩

/-- The state after all whole blocks of words. -/
def State.absorbAll (s : State) (ws : List UInt32) : State :=
  if ws.length < 16 then s else (s.absorb (ws.take 16)).absorbAll (ws.drop 16)
termination_by ws.length
decreasing_by
  simp only [List.length_drop]
  omega

/-- The words of a state in order. -/
def State.toList (s : State) : List UInt32 :=
  [s.a, s.b, s.c, s.d, s.e, s.f, s.g, s.h]

/-- The digest of a message in hexadecimal digits. -/
def hexDigest (message : List UInt8) : Text :=
  (State.initial.absorbAll (words (padded message))).toList.flatMap fun w =>
    Numeral.lowerHex 8 w.toNat

end Deparse.Sha256
