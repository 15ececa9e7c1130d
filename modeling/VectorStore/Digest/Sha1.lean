/-
  The SHA-1 digest.

  The message is padded to whole blocks of 64 bytes, each block is expanded to 80 words,
  and 80 rounds mix the words into five words of state.
-/

namespace VectorStore.Digest

/-- The five words of state. -/
structure State where
  a : UInt32
  b : UInt32
  c : UInt32
  d : UInt32
  e : UInt32
deriving DecidableEq, Repr

/-- The state before the first block. -/
def State.start : State := ⟨0x67452301, 0xEFCDAB89, 0x98BADCFE, 0x10325476, 0xC3D2E1F0⟩

/-- Rotation to the left by `n` bits, for `n` from 1 to 31. -/
def rotate (x n : UInt32) : UInt32 := (x <<< n) ||| (x >>> (32 - n))

/-- The bytes of a word, the highest first. -/
def wordBytes (w : UInt32) : List UInt8 :=
  [(w >>> 24).toUInt8, (w >>> 16).toUInt8, (w >>> 8).toUInt8, w.toUInt8]

/-- The words of a list of bytes, four bytes each. -/
def words : List UInt8 → List UInt32
  | a :: b :: c :: d :: rest =>
    ((a.toUInt32 <<< 24) ||| (b.toUInt32 <<< 16) ||| (c.toUInt32 <<< 8) ||| d.toUInt32) :: words rest
  | _ => []

/-- The message with a one bit, zeros, and its length in bits in the last eight bytes. -/
def pad (message : List UInt8) : List UInt8 :=
  let zeros := (119 - message.length % 64) % 64
  let bits := message.length * 8
  message ++ 0x80 :: (List.replicate zeros 0 ++
    wordBytes (UInt32.ofNat (bits / Nat.pow 2 32)) ++ wordBytes (UInt32.ofNat (bits % Nat.pow 2 32)))

/-- The words of a block, expanded to `16 + n`, the last first. -/
def expand : Nat → List UInt32 → List UInt32
  | 0, recent => recent
  | n + 1, recent =>
    let w := rotate (recent.getD 2 0 ^^^ recent.getD 7 0 ^^^ recent.getD 13 0 ^^^ recent.getD 15 0) 1
    expand n (w :: recent)

/-- The mixing function and the constant of a round. -/
def mix (round : Nat) (b c d : UInt32) : UInt32 × UInt32 :=
  if round < 20 then ((b &&& c) ||| (~~~b &&& d), 0x5A827999)
  else if round < 40 then (b ^^^ c ^^^ d, 0x6ED9EBA1)
  else if round < 60 then ((b &&& c) ||| (b &&& d) ||| (c &&& d), 0x8F1BBCDC)
  else (b ^^^ c ^^^ d, 0xCA62C1D6)

/-- One round with the given word. -/
def State.round (s : State) (n : Nat) (w : UInt32) : State :=
  let (f, k) := mix n s.b s.c s.d
  ⟨rotate s.a 5 + f + s.e + k + w, s.a, rotate s.b 30, s.c, s.d⟩

/-- The state after a block of 16 words. -/
def State.block (s : State) (block : List UInt32) : State :=
  let all := (expand 64 block.reverse).reverse
  let t := all.zipIdx.foldl (fun (t : State) w => t.round w.2 w.1) s
  ⟨s.a + t.a, s.b + t.b, s.c + t.c, s.d + t.d, s.e + t.e⟩

/-- The state after `n` blocks of 16 words. -/
def State.blocks : Nat → State → List UInt32 → State
  | 0, s, _ => s
  | n + 1, s, ws => State.blocks n (s.block (ws.take 16)) (ws.drop 16)

/-- The 20 bytes of a message's digest. -/
def sha1 (message : List UInt8) : List UInt8 :=
  let ws := words (pad message)
  let s := State.blocks (ws.length / 16) .start ws
  [s.a, s.b, s.c, s.d, s.e].flatMap wordBytes

end VectorStore.Digest
