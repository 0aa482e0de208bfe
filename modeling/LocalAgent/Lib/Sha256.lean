import Mathlib.Data.String.Basic

/-!
# LocalAgent.Lib.Sha256 — SHA-256 of a text

`hexdigest s` is the lower-case hexadecimal SHA-256 of the UTF-8 bytes of `s`.  Words are natural
numbers below `2 ^ 32`, so that the kernel can run the function.

* `isHexDigest`: 64 lower-case hexadecimal digits, the form of a digest that records check.
* `hexdigest_isHexDigest`: every digest has that form, and `Digest` carries it.
-/

namespace LocalAgent

namespace Sha256

/-! ## Words -/

/-- Addition of 32-bit words. -/
def add (x y : ℕ) : ℕ := (x + y) % 4294967296

/-- Rotation of a 32-bit word to the right. -/
def rotr (n x : ℕ) : ℕ := (x >>> n) ||| ((x <<< (32 - n)) % 4294967296)

def bigSigma0 (x : ℕ) : ℕ := rotr 2 x ^^^ rotr 13 x ^^^ rotr 22 x

def bigSigma1 (x : ℕ) : ℕ := rotr 6 x ^^^ rotr 11 x ^^^ rotr 25 x

def smallSigma0 (x : ℕ) : ℕ := rotr 7 x ^^^ rotr 18 x ^^^ (x >>> 3)

def smallSigma1 (x : ℕ) : ℕ := rotr 17 x ^^^ rotr 19 x ^^^ (x >>> 10)

def choose (x y z : ℕ) : ℕ := (x &&& y) ^^^ ((4294967295 ^^^ x) &&& z)

def majority (x y z : ℕ) : ℕ := (x &&& y) ^^^ (x &&& z) ^^^ (y &&& z)

def roundConstants : List ℕ :=
  [0x428a2f98, 0x71374491, 0xb5c0fbcf, 0xe9b5dba5, 0x3956c25b, 0x59f111f1, 0x923f82a4, 0xab1c5ed5,
   0xd807aa98, 0x12835b01, 0x243185be, 0x550c7dc3, 0x72be5d74, 0x80deb1fe, 0x9bdc06a7, 0xc19bf174,
   0xe49b69c1, 0xefbe4786, 0x0fc19dc6, 0x240ca1cc, 0x2de92c6f, 0x4a7484aa, 0x5cb0a9dc, 0x76f988da,
   0x983e5152, 0xa831c66d, 0xb00327c8, 0xbf597fc7, 0xc6e00bf3, 0xd5a79147, 0x06ca6351, 0x14292967,
   0x27b70a85, 0x2e1b2138, 0x4d2c6dfc, 0x53380d13, 0x650a7354, 0x766a0abb, 0x81c2c92e, 0x92722c85,
   0xa2bfe8a1, 0xa81a664b, 0xc24b8b70, 0xc76c51a3, 0xd192e819, 0xd6990624, 0xf40e3585, 0x106aa070,
   0x19a4c116, 0x1e376c08, 0x2748774c, 0x34b0bcb5, 0x391c0cb3, 0x4ed8aa4a, 0x5b9cca4f, 0x682e6ff3,
   0x748f82ee, 0x78a5636f, 0x84c87814, 0x8cc70208, 0x90befffa, 0xa4506ceb, 0xbef9a3f7, 0xc67178f2]

/-! ## Compression -/

/-- The eight working words. -/
structure Words where
  a : ℕ
  b : ℕ
  c : ℕ
  d : ℕ
  e : ℕ
  f : ℕ
  g : ℕ
  h : ℕ

/-- The initial hash value. -/
def initial : Words :=
  ⟨0x6a09e667, 0xbb67ae85, 0x3c6ef372, 0xa54ff53a, 0x510e527f, 0x9b05688c, 0x1f83d9ab, 0x5be0cd19⟩

/-- One round, on the sum of a round constant and a word of the schedule. -/
def round (s : Words) (kw : ℕ) : Words :=
  let t1 := add (add s.h (bigSigma1 s.e)) (add (choose s.e s.f s.g) kw)
  let t2 := add (bigSigma0 s.a) (majority s.a s.b s.c)
  ⟨add t1 t2, s.a, s.b, s.c, add s.d t1, s.e, s.f, s.g⟩

/-- `n` more words of the message schedule, the words so far given newest first. -/
def extend : ℕ → List ℕ → List ℕ
  | 0, ws => ws
  | n + 1, ws =>
    extend n (add (add (smallSigma1 (ws.getD 1 0)) (ws.getD 6 0))
      (add (smallSigma0 (ws.getD 14 0)) (ws.getD 15 0)) :: ws)

def compress (s : Words) (block : List ℕ) : Words :=
  let ws := (extend 48 block.reverse).reverse
  let t := (List.zipWith add roundConstants ws).foldl round s
  ⟨add s.a t.a, add s.b t.b, add s.c t.c, add s.d t.d, add s.e t.e, add s.f t.f, add s.g t.g,
    add s.h t.h⟩

/-! ## Padding and output -/

def toWords : List ℕ → List ℕ
  | a :: b :: c :: d :: rest => (((a * 256 + b) * 256 + c) * 256 + d) :: toWords rest
  | _ => []

/-- The message with its padding, as words. -/
def pad (bytes : List ℕ) : List ℕ :=
  let n := bytes.length
  toWords (bytes ++ 0x80 :: List.replicate ((119 - n % 64) % 64) 0) ++
    [n * 8 / 4294967296 % 4294967296, n * 8 % 4294967296]

/-- Compress block after block; `fuel` bounds the number of blocks. -/
def absorb : ℕ → Words → List ℕ → Words
  | 0, s, _ => s
  | fuel + 1, s, ws => if ws.isEmpty then s else absorb fuel (compress s (ws.take 16)) (ws.drop 16)

/-- The lower-case hexadecimal digits of a word. -/
def hexWord (x : ℕ) : List Char :=
  [28, 24, 20, 16, 12, 8, 4, 0].map fun k => Nat.digitChar ((x >>> k) % 16)

/-- `hashlib.sha256(s.encode("utf-8")).hexdigest()`. -/
def hexdigest (s : String) : String :=
  let ws := pad (s.toUTF8.data.toList.map UInt8.toNat)
  let t := absorb ws.length initial ws
  String.ofList ([t.a, t.b, t.c, t.d, t.e, t.f, t.g, t.h].flatMap hexWord)

/-- 64 lower-case hexadecimal digits. -/
def isHexDigest (s : String) : Bool :=
  s.length == 64 && s.toList.all fun c => c ∈ "0123456789abcdef".toList

theorem digitChar_hex {d : ℕ} (h : d < 16) : Nat.digitChar d ∈ "0123456789abcdef".toList := by
  revert d
  decide

theorem hexdigest_isHexDigest (s : String) : isHexDigest (hexdigest s) = true := by
  have hhex : ∀ x, ∀ c ∈ hexWord x, c ∈ "0123456789abcdef".toList := by
    intro x c hc
    obtain ⟨k, -, rfl⟩ := List.mem_map.mp hc
    exact digitChar_hex (Nat.mod_lt _ (by decide))
  have hlen : ∀ x, (hexWord x).length = 8 := fun _ => rfl
  unfold isHexDigest hexdigest
  simp only [Bool.and_eq_true, beq_iff_eq, List.all_eq_true, decide_eq_true_eq,
    String.toList_ofList, String.length_ofList, List.mem_flatMap]
  refine ⟨by simp [hlen], ?_⟩
  rintro c ⟨x, -, hc⟩
  exact hhex x c hc

structure Digest where
  text : String
  isHexDigest : isHexDigest text = true
  deriving DecidableEq

def digest (s : String) : Digest := ⟨hexdigest s, hexdigest_isHexDigest s⟩

example : hexdigest "abc" =
    "ba7816bf8f01cfea414140de5dae2223b00361a396177a9cb410ff61f20015ad" := by
  decide +kernel

end Sha256

end LocalAgent
