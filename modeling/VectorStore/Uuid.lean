/-
  Universally unique identifiers.

  * `Uuid.text` is the canonical form, five groups of small hexadecimal digits;
  * `Uuid.read?` takes any spelling with 32 places once the marks `urn:` and `uuid:`, outer
    braces and hyphens are gone; the places are an integer to base 16, so a sign, the mark
    `0x` and single underscores may be among them;
  * `Uuid.named` is the identifier of a name within a namespace (version 5);
  * `generatedId` draws identifiers from a numbered supply, one after another; no two numbers
    below `2^48` give the same one.
-/
import VectorStore.Digest.Sha1
import VectorStore.Number.Reader
import VectorStore.Text.Quoted

namespace VectorStore

/-- A number below `2^128`. -/
structure Uuid where
  value : Nat
deriving DecidableEq, Repr

namespace Uuid

open Text Number

/-- The hexadecimal digits of an identifier. -/
def digits (u : Uuid) : List Char := hex 32 u.value

/-- The canonical form. -/
def text (u : Uuid) : String :=
  let ds := u.digits
  let group (first length : Nat) : List Char := (ds.drop first).take length
  String.ofList (group 0 8 ++ '-' :: (group 8 4 ++ '-' :: (group 12 4 ++
    '-' :: (group 16 4 ++ '-' :: group 20 12))))

/-- The text without any occurrence of a mark, up to `fuel` characters. -/
def without (mark : List Char) : Nat → List Char → List Char
  | 0, cs => cs
  | _, [] => []
  | fuel + 1, c :: cs =>
    if mark.isPrefixOf (c :: cs) then without mark fuel ((c :: cs).drop mark.length)
    else c :: without mark fuel cs

/-- The value of a hexadecimal digit. -/
def hexValue? (c : Char) : Option Nat :=
  if isDecimal c then some (c.toNat - 48)
  else if 'a' ≤ c.toLower && c.toLower ≤ 'f' then some (c.toLower.toNat - 87)
  else none

/-- The number of hexadecimal digits with single underscores between them; `last` is whether
    the character before was a digit. -/
def readHex? (acc : Nat) : Bool → List Char → Option Nat
  | last, [] => if last then some acc else none
  | last, c :: cs =>
    if c == '_' then if last then readHex? acc false cs else none
    else do readHex? (16 * acc + (← hexValue? c)) true cs

/-- The integer to base 16 that a text denotes: blanks around it, a sign and the mark `0x`
    are allowed. -/
def readBase16? (cs : List Char) : Option Int := do
  let (negative, body) := takeSign (trim isAsciiBlank (asciiNumeral cs))
  let body := match body with
    | '0' :: 'x' :: '_' :: rest | '0' :: 'X' :: '_' :: rest
    | '0' :: 'x' :: rest | '0' :: 'X' :: rest => rest
    | body => body
  let n ← readHex? 0 false body
  return if negative then -(n : Int) else n

/-- The places of a spelling. -/
def places (s : String) : List Char :=
  let cs := s.toList
  let cs := without "urn:".toList cs.length cs
  let cs := without "uuid:".toList cs.length cs
  (trim (fun c => c == '\x7b' || c == '\x7d') cs).filter (· != '-')

/-- The identifier that a text spells. -/
def read? (s : String) : Option Uuid := do
  let cs := places s
  if cs.length ≠ 32 then none
  let n ← readBase16? cs
  if 0 ≤ n ∧ n < Nat.pow 2 128 then some ⟨n.toNat⟩ else none

/-- The sixteen bytes of an identifier. -/
def bytes (u : Uuid) : List UInt8 :=
  (List.range 16).map fun i => UInt8.ofNat (u.value / Nat.pow 2 (8 * (15 - i)) % 256)

/-- The number of the given bytes, the highest first. -/
def ofBytes (bs : List UInt8) : Nat := bs.foldl (fun n b => 256 * n + b.toNat) 0

/-- The identifier of a name within a namespace: the first sixteen bytes of the digest of
    both, with the version and the variant set. -/
def named (space : Uuid) (name : String) : Uuid :=
  let n := ofBytes ((Digest.sha1 (space.bytes ++ name.toUTF8.toList)).take 16)
  let n := n - (n / Nat.pow 2 76 % 16) * Nat.pow 2 76 + 5 * Nat.pow 2 76
  ⟨n - (n / Nat.pow 2 62 % 4) * Nat.pow 2 62 + 2 * Nat.pow 2 62⟩

end Uuid

/-- The `n`-th identifier of the supply. -/
def generatedId (n : Nat) : Uuid := ⟨0x40008000 * Nat.pow 2 48 + n % Nat.pow 2 48⟩

/-- The `n`-th identifier in its canonical form. -/
def generatedText (n : Nat) : String := (generatedId n).text

/-- The digits of the `n`-th identifier. -/
def generatedDigits (n : Nat) : List Char := (generatedId n).digits

end VectorStore
