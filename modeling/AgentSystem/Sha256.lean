import Mathlib.Data.List.Basic

/-!
# SHA-256

An executable definition on bytes, and the hexadecimal digest of the UTF-8 encoding of a string as
`hashlib.sha256(s.encode("utf-8")).hexdigest()` gives it.
-/
namespace AgentSystem.Sha256

def roundConstants : List UInt32 :=
  [0x428a2f98, 0x71374491, 0xb5c0fbcf, 0xe9b5dba5, 0x3956c25b, 0x59f111f1, 0x923f82a4, 0xab1c5ed5,
   0xd807aa98, 0x12835b01, 0x243185be, 0x550c7dc3, 0x72be5d74, 0x80deb1fe, 0x9bdc06a7, 0xc19bf174,
   0xe49b69c1, 0xefbe4786, 0x0fc19dc6, 0x240ca1cc, 0x2de92c6f, 0x4a7484aa, 0x5cb0a9dc, 0x76f988da,
   0x983e5152, 0xa831c66d, 0xb00327c8, 0xbf597fc7, 0xc6e00bf3, 0xd5a79147, 0x06ca6351, 0x14292967,
   0x27b70a85, 0x2e1b2138, 0x4d2c6dfc, 0x53380d13, 0x650a7354, 0x766a0abb, 0x81c2c92e, 0x92722c85,
   0xa2bfe8a1, 0xa81a664b, 0xc24b8b70, 0xc76c51a3, 0xd192e819, 0xd6990624, 0xf40e3585, 0x106aa070,
   0x19a4c116, 0x1e376c08, 0x2748774c, 0x34b0bcb5, 0x391c0cb3, 0x4ed8aa4a, 0x5b9cca4f, 0x682e6ff3,
   0x748f82ee, 0x78a5636f, 0x84c87814, 0x8cc70208, 0x90befffa, 0xa4506ceb, 0xbef9a3f7, 0xc67178f2]

/-- The eight working variables. -/
structure State where
  a : UInt32
  b : UInt32
  c : UInt32
  d : UInt32
  e : UInt32
  f : UInt32
  g : UInt32
  h : UInt32

def initialState : State :=
  ⟨0x6a09e667, 0xbb67ae85, 0x3c6ef372, 0xa54ff53a, 0x510e527f, 0x9b05688c, 0x1f83d9ab, 0x5be0cd19⟩

def rotateRight (x n : UInt32) : UInt32 := (x >>> n) ||| (x <<< (32 - n))

def choose (x y z : UInt32) : UInt32 := (x &&& y) ^^^ ((x ^^^ 0xffffffff) &&& z)

def majority (x y z : UInt32) : UInt32 := (x &&& y) ^^^ (x &&& z) ^^^ (y &&& z)

def round (s : State) (k w : UInt32) : State :=
  let sigma1 := rotateRight s.e 6 ^^^ rotateRight s.e 11 ^^^ rotateRight s.e 25
  let sigma0 := rotateRight s.a 2 ^^^ rotateRight s.a 13 ^^^ rotateRight s.a 22
  let t1 := s.h + sigma1 + choose s.e s.f s.g + k + w
  let t2 := sigma0 + majority s.a s.b s.c
  ⟨t1 + t2, s.a, s.b, s.c, s.d + t1, s.e, s.f, s.g⟩

/-- The word of the message schedule that follows these sixteen. -/
def nextWord (window : List UInt32) : UInt32 :=
  let w₁ := window.getD 1 0
  let w₁₄ := window.getD 14 0
  let sigma0 := rotateRight w₁ 7 ^^^ rotateRight w₁ 18 ^^^ (w₁ >>> 3)
  let sigma1 := rotateRight w₁₄ 17 ^^^ rotateRight w₁₄ 19 ^^^ (w₁₄ >>> 10)
  sigma1 + window.getD 9 0 + sigma0 + window.getD 0 0

/-- The rounds with these constants; the window is the part of the schedule still in use. -/
def rounds : List UInt32 → List UInt32 → State → State
  | [], _, s => s
  | k :: ks, window, s => rounds ks (window.tail ++ [nextWord window]) (round s k (window.getD 0 0))

def State.add (s t : State) : State :=
  ⟨s.a + t.a, s.b + t.b, s.c + t.c, s.d + t.d, s.e + t.e, s.f + t.f, s.g + t.g, s.h + t.h⟩

def compress (s : State) (block : List UInt32) : State := s.add (rounds roundConstants block s)

def compressBlocks : ℕ → List UInt32 → State → State
  | 0, _, s => s
  | blocks + 1, words, s => compressBlocks blocks (words.drop 16) (compress s (words.take 16))

/-- The bytes of a number, the most significant one first. -/
def bigEndian : ℕ → ℕ → List UInt8
  | 0, _ => []
  | width + 1, n => UInt8.ofNat (n / 256 ^ width) :: bigEndian width n

/-- A one bit, zeros up to eight bytes before the end of a block, and the length in bits. -/
def pad (bytes : List UInt8) : List UInt8 :=
  bytes ++ 0x80 :: List.replicate ((119 - bytes.length % 64) % 64) 0 ++
    bigEndian 8 (8 * bytes.length)

def toWords : List UInt8 → List UInt32
  | b₀ :: b₁ :: b₂ :: b₃ :: bytes =>
      ((b₀.toUInt32 <<< 24) ||| (b₁.toUInt32 <<< 16) ||| (b₂.toUInt32 <<< 8) ||| b₃.toUInt32) ::
        toWords bytes
  | _ => []

def State.words (s : State) : List UInt32 := [s.a, s.b, s.c, s.d, s.e, s.f, s.g, s.h]

def digest (bytes : List UInt8) : State :=
  let words := toWords (pad bytes)
  compressBlocks (words.length / 16) words initialState

/-- The last hexadecimal digits of a word. -/
def hexDigits : ℕ → UInt32 → List Char
  | 0, _ => []
  | width + 1, w => hexDigits width (w / 16) ++ [(w % 16).toNat.digitChar]

/-- `hashlib.sha256(s.encode("utf-8")).hexdigest()`. -/
@[irreducible] def hexdigest (s : String) : String :=
  String.ofList ((digest (s.toList.flatMap String.utf8EncodeChar)).words.flatMap (hexDigits 8))

@[simp] lemma hexDigits_length (width : ℕ) (w : UInt32) : (hexDigits width w).length = width := by
  induction width generalizing w with
  | zero => rfl
  | succ width ih => simp [hexDigits, ih]

theorem hexdigest_length (s : String) : (hexdigest s).length = 64 := by
  unfold hexdigest
  simp [State.words]

lemma hexdigest_ne_empty (s : String) : hexdigest s ≠ "" := by
  intro h
  have hlength := hexdigest_length s
  rw [h] at hlength
  cases hlength

example : hexdigest "abc" = "ba7816bf8f01cfea414140de5dae2223b00361a396177a9cb410ff61f20015ad" := by
  decide +kernel

end AgentSystem.Sha256
