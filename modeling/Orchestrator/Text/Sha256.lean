import Orchestrator.Docker.Naming

/-!
# Text — SHA-256

The digest behind `hashlib.sha256(text).hexdigest()`, on words below `2 ^ 32`.

* `compress`: a block of sixteen words, onto the eight words of the state.
* `digest`: of bytes, padded to whole blocks.
* `sha256`: of texts, as hexadecimal digits.
-/

namespace Orchestrator.Hashing

/-- Words are of 32 bits. -/
def wordBound : Nat := 4294967296

/-- Addition of words. -/
def add (a b : Nat) : Nat := (a + b) % wordBound

/-- Rotation to the right. -/
def rotate (n a : Nat) : Nat := (a >>> n) ||| ((a <<< (32 - n)) % wordBound)

/-- The complement of a word. -/
def negate (a : Nat) : Nat := wordBound - 1 - a

/-- The constants of the rounds. -/
def roundConstants : List Nat :=
  [0x428a2f98, 0x71374491, 0xb5c0fbcf, 0xe9b5dba5, 0x3956c25b, 0x59f111f1, 0x923f82a4, 0xab1c5ed5,
    0xd807aa98, 0x12835b01, 0x243185be, 0x550c7dc3, 0x72be5d74, 0x80deb1fe, 0x9bdc06a7, 0xc19bf174,
    0xe49b69c1, 0xefbe4786, 0x0fc19dc6, 0x240ca1cc, 0x2de92c6f, 0x4a7484aa, 0x5cb0a9dc, 0x76f988da,
    0x983e5152, 0xa831c66d, 0xb00327c8, 0xbf597fc7, 0xc6e00bf3, 0xd5a79147, 0x06ca6351, 0x14292967,
    0x27b70a85, 0x2e1b2138, 0x4d2c6dfc, 0x53380d13, 0x650a7354, 0x766a0abb, 0x81c2c92e, 0x92722c85,
    0xa2bfe8a1, 0xa81a664b, 0xc24b8b70, 0xc76c51a3, 0xd192e819, 0xd6990624, 0xf40e3585, 0x106aa070,
    0x19a4c116, 0x1e376c08, 0x2748774c, 0x34b0bcb5, 0x391c0cb3, 0x4ed8aa4a, 0x5b9cca4f, 0x682e6ff3,
    0x748f82ee, 0x78a5636f, 0x84c87814, 0x8cc70208, 0x90befffa, 0xa4506ceb, 0xbef9a3f7, 0xc67178f2]

/-- The eight words of the state. -/
structure State where
  a : Nat
  b : Nat
  c : Nat
  d : Nat
  e : Nat
  f : Nat
  g : Nat
  h : Nat
  deriving DecidableEq

/-- The state before the first block. -/
def initial : State :=
  ⟨0x6a09e667, 0xbb67ae85, 0x3c6ef372, 0xa54ff53a, 0x510e527f, 0x9b05688c, 0x1f83d9ab, 0x5be0cd19⟩

/-- One round, with its constant and its word. -/
def round (s : State) (k w : Nat) : State :=
  let s1 := rotate 6 s.e ^^^ rotate 11 s.e ^^^ rotate 25 s.e
  let ch := (s.e &&& s.f) ^^^ (negate s.e &&& s.g)
  let t1 := add (add (add s.h s1) (add ch k)) w
  let s0 := rotate 2 s.a ^^^ rotate 13 s.a ^^^ rotate 22 s.a
  let maj := (s.a &&& s.b) ^^^ (s.a &&& s.c) ^^^ (s.b &&& s.c)
  ⟨add t1 (add s0 maj), s.a, s.b, s.c, add s.d t1, s.e, s.f, s.g⟩

/-- The word after the last sixteen. -/
def nextWord (w : List Nat) : Nat :=
  let x := w.getD 1 0
  let y := w.getD 14 0
  add (add (w.getD 0 0) (rotate 7 x ^^^ rotate 18 x ^^^ (x >>> 3)))
    (add (w.getD 9 0) (rotate 17 y ^^^ rotate 19 y ^^^ (y >>> 10)))

/-- The rounds, with the sixteen words that come next. -/
def rounds : List Nat → List Nat → State → State
  | [], _, s => s
  | k :: ks, w, s => rounds ks (w.drop 1 ++ [nextWord w]) (round s k (w.getD 0 0))

/-- One block. -/
def compress (s : State) (block : List Nat) : State :=
  let t := rounds roundConstants block s
  ⟨add s.a t.a, add s.b t.b, add s.c t.c, add s.d t.d, add s.e t.e, add s.f t.f, add s.g t.g,
    add s.h t.h⟩

/-- The bytes of a number, the first one highest. -/
def bytesOf (width n : Nat) : List Nat :=
  (List.range width).map fun i => (n >>> (8 * (width - 1 - i))) % 256

/-- The bytes with their length, in blocks of 64. -/
def pad (bytes : List Nat) : List Nat :=
  bytes ++ 128 :: List.replicate ((119 - bytes.length % 64) % 64) 0 ++ bytesOf 8 (8 * bytes.length)

/-- The words of a block. -/
def words : List Nat → List Nat
  | a :: b :: c :: d :: rest => (((a * 256 + b) * 256 + c) * 256 + d) :: words rest
  | _ => []

/-- At most `n` blocks of sixteen words. -/
def blocks : Nat → List Nat → State → State
  | 0, _, s => s
  | n + 1, w, s => blocks n (w.drop 16) (compress s (w.take 16))

/-- The 32 bytes of the digest. -/
def digest (bytes : List Nat) : List Nat :=
  let w := words (pad bytes)
  let s := blocks (w.length / 16) w initial
  [s.a, s.b, s.c, s.d, s.e, s.f, s.g, s.h].flatMap (bytesOf 4)

theorem length_bytesOf (width n : Nat) : (bytesOf width n).length = width := by
  rw [bytesOf, List.length_map, List.length_range]

theorem length_digest (bytes : List Nat) : (digest bytes).length = 32 := by
  simp [digest, length_bytesOf]

/-- The digits of the bytes. -/
def hex (bytes : List Nat) : List Char :=
  bytes.flatMap fun b => [hexDigit (b / 16), hexDigit (b % 16)]

theorem length_hex (bytes : List Nat) : (hex bytes).length = 2 * bytes.length := by
  rw [hex, List.length_flatMap]
  simp
  omega

def utf8Bytes (text : String) : List Nat :=
  text.toList.flatMap fun c => (String.utf8EncodeChar c).map UInt8.toNat

/-- `hashlib.sha256(text.encode("utf-8")).hexdigest()`. -/
def sha256 : Sha256 where
  hexdigest text := String.ofList (hex (digest (utf8Bytes text)))
  length_hexdigest text := by
    rw [String.toList_ofList, length_hex, length_digest]

example : sha256.hexdigest "abc" =
    "ba7816bf8f01cfea414140de5dae2223b00361a396177a9cb410ff61f20015ad" := by
  decide +kernel

end Orchestrator.Hashing
