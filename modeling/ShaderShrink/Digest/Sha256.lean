/-!
# SHA-256

The digest of FIPS 180-4 with 256 bits, over a list of bytes. A message is padded to whole blocks of
64 bytes, each block is expanded to 64 words, and 64 rounds mix every word into eight words of
state.
-/

namespace ShaderShrink.Digest

/-- The constants of the rounds: fractional parts of cube roots of the first 64 primes. -/
def roundConstants : List UInt32 :=
  [0x428a2f98, 0x71374491, 0xb5c0fbcf, 0xe9b5dba5, 0x3956c25b, 0x59f111f1, 0x923f82a4, 0xab1c5ed5,
    0xd807aa98, 0x12835b01, 0x243185be, 0x550c7dc3, 0x72be5d74, 0x80deb1fe, 0x9bdc06a7, 0xc19bf174,
    0xe49b69c1, 0xefbe4786, 0x0fc19dc6, 0x240ca1cc, 0x2de92c6f, 0x4a7484aa, 0x5cb0a9dc, 0x76f988da,
    0x983e5152, 0xa831c66d, 0xb00327c8, 0xbf597fc7, 0xc6e00bf3, 0xd5a79147, 0x06ca6351, 0x14292967,
    0x27b70a85, 0x2e1b2138, 0x4d2c6dfc, 0x53380d13, 0x650a7354, 0x766a0abb, 0x81c2c92e, 0x92722c85,
    0xa2bfe8a1, 0xa81a664b, 0xc24b8b70, 0xc76c51a3, 0xd192e819, 0xd6990624, 0xf40e3585, 0x106aa070,
    0x19a4c116, 0x1e376c08, 0x2748774c, 0x34b0bcb5, 0x391c0cb3, 0x4ed8aa4a, 0x5b9cca4f, 0x682e6ff3,
    0x748f82ee, 0x78a5636f, 0x84c87814, 0x8cc70208, 0x90befffa, 0xa4506ceb, 0xbef9a3f7, 0xc67178f2]

/-- The eight words of state. -/
structure State where
  (a b c d e f g h : UInt32)

namespace State

/-- The state at the start: fractional parts of square roots of the first eight primes. -/
def initial : State :=
  ⟨0x6a09e667, 0xbb67ae85, 0x3c6ef372, 0xa54ff53a, 0x510e527f, 0x9b05688c, 0x1f83d9ab, 0x5be0cd19⟩

/-- Adds two states word by word. -/
def add (s t : State) : State :=
  ⟨s.a + t.a, s.b + t.b, s.c + t.c, s.d + t.d, s.e + t.e, s.f + t.f, s.g + t.g, s.h + t.h⟩

/-- The words of a state. -/
def words (s : State) : List UInt32 := [s.a, s.b, s.c, s.d, s.e, s.f, s.g, s.h]

end State

/-- Rotates a word to the right by fewer than 32 places. -/
def rotate (x : UInt32) (places : UInt32) : UInt32 := (x >>> places) ||| (x <<< (32 - places))

/-- One round, with a round constant and a word of the expanded block. -/
def State.round (s : State) (constant word : UInt32) : State :=
  let mixE := rotate s.e 6 ^^^ rotate s.e 11 ^^^ rotate s.e 25
  let chosen := (s.e &&& s.f) ^^^ (~~~s.e &&& s.g)
  let first := s.h + mixE + chosen + constant + word
  let mixA := rotate s.a 2 ^^^ rotate s.a 13 ^^^ rotate s.a 22
  let majority := (s.a &&& s.b) ^^^ (s.a &&& s.c) ^^^ (s.b &&& s.c)
  ⟨first + (mixA + majority), s.a, s.b, s.c, s.d + first, s.e, s.f, s.g⟩

/-- The big-endian words of a list of bytes. -/
def wordsOfBytes : List UInt8 → List UInt32
  | a :: b :: c :: d :: rest =>
    ((a.toUInt32 <<< 24) ||| (b.toUInt32 <<< 16) ||| (c.toUInt32 <<< 8) ||| d.toUInt32)
      :: wordsOfBytes rest
  | _ => []

/-- The word that follows sixteen words of an expanded block. -/
def nextWord (window : List UInt32) : UInt32 :=
  match window with
  | [w0, w1, _, _, _, _, _, _, _, w9, _, _, _, _, w14, _] =>
    let s0 := rotate w1 7 ^^^ rotate w1 18 ^^^ (w1 >>> 3)
    let s1 := rotate w14 17 ^^^ rotate w14 19 ^^^ (w14 >>> 10)
    w0 + s0 + w9 + s1
  | _ => 0

/-- Runs a round per constant; `window` holds the next sixteen words of the expanded block. -/
def rounds : List UInt32 → List UInt32 → State → State
  | k :: ks, w :: window, s => rounds ks (window ++ [nextWord (w :: window)]) (s.round k w)
  | _, _, s => s

/-- Mixes a block of sixteen words into a state. -/
def State.absorb (s : State) (block : List UInt32) : State :=
  s.add (rounds roundConstants block s)

/-- Mixes blocks of sixteen words into a state, at most `blocks` of them. -/
def absorbAll : Nat → List UInt32 → State → State
  | 0, _, s => s
  | blocks + 1, words, s => absorbAll blocks (words.drop 16) (s.absorb (words.take 16))

/-- The bytes of a number, most significant first, `width` of them. -/
def bytesOfNat (width n : Nat) : List UInt8 :=
  (List.range width).reverse.map fun i => UInt8.ofNat (n >>> (8 * i))

/-- A message with the bit 1, zeros and the length in bits behind it, up to whole blocks. -/
def padMessage (bytes : List UInt8) : List UInt8 :=
  let zeros := (119 - bytes.length % 64) % 64
  bytes ++ 0x80 :: List.replicate zeros 0 ++ bytesOfNat 8 (8 * bytes.length)

/-- The SHA-256 digest of a message, as eight words. -/
def sha256 (bytes : List UInt8) : List UInt32 :=
  let words := wordsOfBytes (padMessage bytes)
  (absorbAll (words.length / 16) words .initial).words

/-- A number in hexadecimal digits in lower case, `width` of them. -/
def hex (width n : Nat) : String :=
  String.ofList ((List.range width).reverse.map fun i => Nat.digitChar (n >>> (4 * i) % 16))

/-- The SHA-256 digest of a message in 64 hexadecimal digits. -/
def sha256Hex (bytes : List UInt8) : String :=
  String.join ((sha256 bytes).map fun word => hex 8 word.toNat)

end ShaderShrink.Digest
