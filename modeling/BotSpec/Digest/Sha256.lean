import BotSpec.Power

/-!
# SHA-256

`sha256Hex` is the SHA-256 digest of the UTF-8 bytes of a text, as 64 hexadecimal digits.
-/

namespace BotSpec.Digest

/-- The round constants: the first 32 bits of the fractional parts of the cube roots of the first 64
primes. -/
def roundConstants : List UInt32 :=
  [0x428a2f98, 0x71374491, 0xb5c0fbcf, 0xe9b5dba5, 0x3956c25b, 0x59f111f1, 0x923f82a4, 0xab1c5ed5,
   0xd807aa98, 0x12835b01, 0x243185be, 0x550c7dc3, 0x72be5d74, 0x80deb1fe, 0x9bdc06a7, 0xc19bf174,
   0xe49b69c1, 0xefbe4786, 0x0fc19dc6, 0x240ca1cc, 0x2de92c6f, 0x4a7484aa, 0x5cb0a9dc, 0x76f988da,
   0x983e5152, 0xa831c66d, 0xb00327c8, 0xbf597fc7, 0xc6e00bf3, 0xd5a79147, 0x06ca6351, 0x14292967,
   0x27b70a85, 0x2e1b2138, 0x4d2c6dfc, 0x53380d13, 0x650a7354, 0x766a0abb, 0x81c2c92e, 0x92722c85,
   0xa2bfe8a1, 0xa81a664b, 0xc24b8b70, 0xc76c51a3, 0xd192e819, 0xd6990624, 0xf40e3585, 0x106aa070,
   0x19a4c116, 0x1e376c08, 0x2748774c, 0x34b0bcb5, 0x391c0cb3, 0x4ed8aa4a, 0x5b9cca4f, 0x682e6ff3,
   0x748f82ee, 0x78a5636f, 0x84c87814, 0x8cc70208, 0x90befffa, 0xa4506ceb, 0xbef9a3f7, 0xc67178f2]

/-- The eight words of the running hash. -/
structure Hash where
  a : UInt32
  b : UInt32
  c : UInt32
  d : UInt32
  e : UInt32
  f : UInt32
  g : UInt32
  h : UInt32

/-- The hash before the first block. -/
def Hash.initial : Hash :=
  ⟨0x6a09e667, 0xbb67ae85, 0x3c6ef372, 0xa54ff53a, 0x510e527f, 0x9b05688c, 0x1f83d9ab, 0x5be0cd19⟩

def Hash.words (s : Hash) : List UInt32 := [s.a, s.b, s.c, s.d, s.e, s.f, s.g, s.h]

/-- Word by word sum. -/
def Hash.add (s t : Hash) : Hash :=
  ⟨s.a + t.a, s.b + t.b, s.c + t.c, s.d + t.d, s.e + t.e, s.f + t.f, s.g + t.g, s.h + t.h⟩

/-- Rotation to the right. -/
def rotr (x : UInt32) (n : UInt32) : UInt32 := (x >>> n) ||| (x <<< (32 - n))

/-- One round with a round constant and a schedule word. -/
def Hash.round (s : Hash) (k w : UInt32) : Hash :=
  let s1 := rotr s.e 6 ^^^ rotr s.e 11 ^^^ rotr s.e 25
  let ch := (s.e &&& s.f) ^^^ (s.e.complement &&& s.g)
  let t1 := s.h + s1 + ch + k + w
  let s0 := rotr s.a 2 ^^^ rotr s.a 13 ^^^ rotr s.a 22
  let maj := (s.a &&& s.b) ^^^ (s.a &&& s.c) ^^^ (s.b &&& s.c)
  ⟨t1 + (s0 + maj), s.a, s.b, s.c, s.d + t1, s.e, s.f, s.g⟩

/-- The schedule word that follows the sixteen words before it. -/
def nextWord (ws : Array UInt32) : UInt32 :=
  let n := ws.size
  let w15 := ws.getD (n - 15) 0
  let w2 := ws.getD (n - 2) 0
  let s0 := rotr w15 7 ^^^ rotr w15 18 ^^^ (w15 >>> 3)
  let s1 := rotr w2 17 ^^^ rotr w2 19 ^^^ (w2 >>> 10)
  ws.getD (n - 16) 0 + s0 + ws.getD (n - 7) 0 + s1

/-- `ws` with `n` more words of the schedule. -/
def extend (ws : Array UInt32) : Nat → Array UInt32
  | 0 => ws
  | n + 1 => extend (ws.push (nextWord ws)) n

/-- The hash after one block of sixteen words. -/
def Hash.block (s : Hash) (block : List UInt32) : Hash :=
  let schedule := extend block.toArray 48
  s.add ((roundConstants.zip schedule.toList).foldl (fun t kw => t.round kw.1 kw.2) s)

/-- The low `n` bytes of a number, most significant first. -/
def bytesOf (n : Nat) (value : Nat) : List UInt8 :=
  (List.range n).reverse.map fun i => UInt8.ofNat (value / twoPow (8 * i))

/-- A message filled up to whole blocks: a one bit, zeros, and its length in bits as eight bytes. -/
def padded (message : List UInt8) : List UInt8 :=
  let zeros := (119 - message.length % 64) % 64
  message ++ 0x80 :: List.replicate zeros 0 ++ bytesOf 8 (message.length * 8)

/-- Words of four bytes each, most significant byte first. -/
def wordsOf : List UInt8 → List UInt32
  | a :: b :: c :: d :: rest =>
    ((a.toUInt32 <<< 24) ||| (b.toUInt32 <<< 16) ||| (c.toUInt32 <<< 8) ||| d.toUInt32) :: wordsOf rest
  | _ => []

/-- The hash after all blocks of a list of words. -/
def hashBlocks (s : Hash) : List UInt32 → Hash
  | [] => s
  | w :: ws => hashBlocks (s.block (w :: ws.take 15)) (ws.drop 15)
termination_by words => words.length
decreasing_by
  simp only [List.length_drop, List.length_cons]
  omega

/-- A hexadecimal digit. -/
def hexDigit (n : Nat) : Char := if n < 10 then Char.ofNat (48 + n) else Char.ofNat (87 + n)

/-- The eight hexadecimal digits of a word. -/
def hexWord (w : UInt32) : List Char :=
  (List.range 8).reverse.map fun i => hexDigit (w.toNat / twoPow (4 * i) % 16)

/-- The SHA-256 digest of a text, in hexadecimal. -/
def sha256Hex (text : String) : String :=
  let hash := hashBlocks Hash.initial (wordsOf (padded text.toUTF8.toList))
  String.ofList (hash.words.flatMap hexWord)

/-- The message of one block that the standard itself works out. -/
example : sha256Hex "abc" = "ba7816bf8f01cfea414140de5dae2223b00361a396177a9cb410ff61f20015ad" := by
  decide +kernel

end BotSpec.Digest
