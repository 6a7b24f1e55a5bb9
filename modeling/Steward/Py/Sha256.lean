import Steward.Py.Runtime

/-!
# SHA-256

The hash of FIPS 180-4 on byte lists, with 32-bit words kept as naturals below
`2 ^ 32`, and its hexadecimal digest.
-/

namespace Py

namespace Sha256

/-- The round constants. -/
def roundConstants : List Nat :=
  [0x428a2f98, 0x71374491, 0xb5c0fbcf, 0xe9b5dba5, 0x3956c25b, 0x59f111f1, 0x923f82a4, 0xab1c5ed5,
    0xd807aa98, 0x12835b01, 0x243185be, 0x550c7dc3, 0x72be5d74, 0x80deb1fe, 0x9bdc06a7, 0xc19bf174,
    0xe49b69c1, 0xefbe4786, 0x0fc19dc6, 0x240ca1cc, 0x2de92c6f, 0x4a7484aa, 0x5cb0a9dc, 0x76f988da,
    0x983e5152, 0xa831c66d, 0xb00327c8, 0xbf597fc7, 0xc6e00bf3, 0xd5a79147, 0x06ca6351, 0x14292967,
    0x27b70a85, 0x2e1b2138, 0x4d2c6dfc, 0x53380d13, 0x650a7354, 0x766a0abb, 0x81c2c92e, 0x92722c85,
    0xa2bfe8a1, 0xa81a664b, 0xc24b8b70, 0xc76c51a3, 0xd192e819, 0xd6990624, 0xf40e3585, 0x106aa070,
    0x19a4c116, 0x1e376c08, 0x2748774c, 0x34b0bcb5, 0x391c0cb3, 0x4ed8aa4a, 0x5b9cca4f, 0x682e6ff3,
    0x748f82ee, 0x78a5636f, 0x84c87814, 0x8cc70208, 0x90befffa, 0xa4506ceb, 0xbef9a3f7, 0xc67178f2]

/-- The eight working variables. -/
structure Registers where
  a : Nat
  b : Nat
  c : Nat
  d : Nat
  e : Nat
  f : Nat
  g : Nat
  h : Nat

def start : Registers :=
  ⟨0x6a09e667, 0xbb67ae85, 0x3c6ef372, 0xa54ff53a, 0x510e527f, 0x9b05688c, 0x1f83d9ab, 0x5be0cd19⟩

def add (x y : Nat) : Nat := (x + y) % 2 ^ 32

def rotr (n x : Nat) : Nat := (x >>> n) ||| ((x <<< (32 - n)) % 2 ^ 32)

/-- Three rotations, or two and a shift, combined. -/
def mix (x y z : Nat) : Nat := (x ^^^ y) ^^^ z

def choice (x y z : Nat) : Nat := (x &&& y) ^^^ ((x ^^^ 0xffffffff) &&& z)

def majority (x y z : Nat) : Nat := mix (x &&& y) (x &&& z) (y &&& z)

def Registers.round (r : Registers) (k w : Nat) : Registers :=
  let t1 := add (add r.h (mix (rotr 6 r.e) (rotr 11 r.e) (rotr 25 r.e)))
    (add (choice r.e r.f r.g) (add k w))
  let t2 := add (mix (rotr 2 r.a) (rotr 13 r.a) (rotr 22 r.a)) (majority r.a r.b r.c)
  ⟨add t1 t2, r.a, r.b, r.c, add r.d t1, r.e, r.f, r.g⟩

def Registers.add (r s : Registers) : Registers :=
  ⟨Sha256.add r.a s.a, Sha256.add r.b s.b, Sha256.add r.c s.c, Sha256.add r.d s.d,
    Sha256.add r.e s.e, Sha256.add r.f s.f, Sha256.add r.g s.g, Sha256.add r.h s.h⟩

/-- The next word of the schedule, from the last sixteen. -/
def nextWord (ws : List Nat) : Nat :=
  let x := ws.getD 1 0
  let y := ws.getD 14 0
  add (add (mix (rotr 17 y) (rotr 19 y) (y >>> 10)) (ws.getD 9 0))
    (add (mix (rotr 7 x) (rotr 18 x) (x >>> 3)) (ws.getD 0 0))

/-- The rounds of one block; `ws` are the next sixteen words. -/
def rounds : List Nat → List Nat → Registers → Registers
  | [], _, r => r
  | k :: ks, ws, r => rounds ks (ws.tail ++ [nextWord ws]) (r.round k (ws.getD 0 0))

/-- Big-endian words of a byte list. -/
def words : List Nat → List Nat
  | a :: b :: c :: d :: rest => (((a * 256 + b) * 256 + c) * 256 + d) :: words rest
  | _ => []

/-- One compression for each of `n` blocks of sixteen words. -/
def blocks : Nat → List Nat → Registers → Registers
  | 0, _, r => r
  | n + 1, ws, r => blocks n (ws.drop 16) (r.add (rounds roundConstants (ws.take 16) r))

/-- The big-endian bytes of a 64-bit number. -/
def lengthBytes (n : Nat) : List Nat := [7, 6, 5, 4, 3, 2, 1, 0].map fun i => (n >>> (8 * i)) % 256

def padded (bs : List Byte) : List Nat :=
  bs.map Fin.val ++ [128] ++ List.replicate ((119 - bs.length % 64) % 64) 0 ++
    lengthBytes (8 * bs.length)

def hexDigit (n : Nat) : CodePoint :=
  if n % 16 < 10 then Text.digit (n % 16) else ⟨87 + n % 16, Json.hex_lt n⟩

/-- The eight digits of a word. -/
def hexWord (w : Nat) : Text := [7, 6, 5, 4, 3, 2, 1, 0].map fun i => hexDigit (w >>> (4 * i))

def Registers.hex (r : Registers) : Text :=
  [r.a, r.b, r.c, r.d, r.e, r.f, r.g, r.h].flatMap hexWord

/-- `hashlib.sha256(bytes).hexdigest()` -/
def hexdigest (bs : List Byte) : Text :=
  (blocks ((padded bs).length / 64) (words (padded bs)) start).hex

theorem isHexDigit_hexDigit (n : Nat) : isHexDigit (hexDigit n) = true := by
  unfold hexDigit
  split_ifs with h
  · rw [isHexDigit, Text.isDigit_digit]; rfl
  · have := Nat.mod_lt n (by decide : 16 > 0)
    simp only [isHexDigit, Bool.or_eq_true, Bool.and_eq_true, decide_eq_true_eq]
    omega

theorem hexdigest_length (bs : List Byte) : (hexdigest bs).length = 64 := rfl

theorem hexdigest_hex (bs : List Byte) : (hexdigest bs).all isHexDigit = true := by
  simp [hexdigest, Registers.hex, hexWord, isHexDigit_hexDigit]

/-! ## Evaluation

The same hash on the sixteen words and the eight registers themselves, each of
which is a number before the next round reads it: what the kernel computes of a
long text grows with its length only (`hexdigest_eq_direct`).
-/

namespace Direct

/-- `k n`, once `n` is a number. -/
def forced {α : Type} (n : Nat) (k : Nat → α) : α :=
  match n with
  | 0 => k 0
  | n + 1 => k (Nat.succ n)

theorem forced_eq {α : Type} (n : Nat) (k : Nat → α) : forced n k = k n := by cases n <;> rfl

def add (x y : Nat) : Nat := Nat.mod (Nat.add x y) 4294967296

/-- The rotation by `n`, which is the one by `m` to the other side. -/
def rotr (n m x : Nat) : Nat := Nat.lor (Nat.shiftRight x n) (Nat.mod (Nat.shiftLeft x m) 4294967296)

def mix (x y z : Nat) : Nat := Nat.xor (Nat.xor x y) z

def choice (x y z : Nat) : Nat := Nat.xor (Nat.land x y) (Nat.land (Nat.xor x 4294967295) z)

def majority (x y z : Nat) : Nat := mix (Nat.land x y) (Nat.land x z) (Nat.land y z)

def t1 (k w e f g h : Nat) : Nat :=
  add (add h (mix (rotr 6 26 e) (rotr 11 21 e) (rotr 25 7 e))) (add (choice e f g) (add k w))

def t2 (a b c : Nat) : Nat := add (mix (rotr 2 30 a) (rotr 13 19 a) (rotr 22 10 a)) (majority a b c)

def nextWord (w0 w1 w9 w14 : Nat) : Nat :=
  add (add (mix (rotr 17 15 w14) (rotr 19 13 w14) (Nat.shiftRight w14 10)) w9)
    (add (mix (rotr 7 25 w1) (rotr 18 14 w1) (Nat.shiftRight w1 3)) w0)

def rounds : List Nat → (w0 w1 w2 w3 w4 w5 w6 w7 w8 w9 w10 w11 w12 w13 w14 w15 a b c d e f g h : Nat) → Registers
  | [], _, _, _, _, _, _, _, _, _, _, _, _, _, _, _, _, a, b, c, d, e, f, g, h => ⟨a, b, c, d, e, f, g, h⟩
  | k :: ks, w0, w1, w2, w3, w4, w5, w6, w7, w8, w9, w10, w11, w12, w13, w14, w15, a, b, c, d, e, f, g, h =>
    forced (nextWord w0 w1 w9 w14) fun w16 => forced (t1 k w0 e f g h) fun t =>
      forced (add t (t2 a b c)) fun a' => forced (add d t) fun e' =>
        rounds ks w1 w2 w3 w4 w5 w6 w7 w8 w9 w10 w11 w12 w13 w14 w15 w16 a' a b c e' e f g

/-- The compression of a block. -/
def compress : List Nat → Registers → Registers
  | [w0, w1, w2, w3, w4, w5, w6, w7, w8, w9, w10, w11, w12, w13, w14, w15], ⟨a, b, c, d, e, f, g, h⟩ =>
    match rounds roundConstants w0 w1 w2 w3 w4 w5 w6 w7 w8 w9 w10 w11 w12 w13 w14 w15 a b c d e f g h with
    | ⟨a', b', c', d', e', f', g', h'⟩ =>
      forced (add a a') fun a => forced (add b b') fun b => forced (add c c') fun c => forced (add d d') fun d =>
        forced (add e e') fun e => forced (add f f') fun f => forced (add g g') fun g => forced (add h h') fun h =>
          ⟨a, b, c, d, e, f, g, h⟩
  | ws, r => r.add (Sha256.rounds roundConstants ws r)

def blocks : Nat → List Nat → Registers → Registers
  | 0, _, r => r
  | n + 1, ws, r => blocks n (ws.drop 16) (compress (ws.take 16) r)

def hexdigest (bs : List Byte) : Text := (blocks ((padded bs).length / 64) (words (padded bs)) start).hex

theorem rounds_eq (ks : List Nat) : ∀ w0 w1 w2 w3 w4 w5 w6 w7 w8 w9 w10 w11 w12 w13 w14 w15 a b c d e f g h : Nat,
    rounds ks w0 w1 w2 w3 w4 w5 w6 w7 w8 w9 w10 w11 w12 w13 w14 w15 a b c d e f g h =
      Sha256.rounds ks [w0, w1, w2, w3, w4, w5, w6, w7, w8, w9, w10, w11, w12, w13, w14, w15]
        ⟨a, b, c, d, e, f, g, h⟩ := by
  induction ks with
  | nil => intros; rfl
  | cons k ks ih =>
    intros
    rw [rounds, forced_eq, forced_eq, forced_eq, forced_eq, ih]
    rfl

theorem compress_eq (ws : List Nat) (r : Registers) : compress ws r = r.add (Sha256.rounds roundConstants ws r) := by
  unfold compress
  split
  · rw [rounds_eq]
    simp only [forced_eq]
    rfl
  · rfl

theorem blocks_eq (n : Nat) (ws : List Nat) (r : Registers) : blocks n ws r = Sha256.blocks n ws r := by
  induction n generalizing ws r with
  | zero => rfl
  | succ n ih => rw [blocks, compress_eq, ih, Sha256.blocks]

end Direct

/-- What `decide` is to compute in the place of `hexdigest`. -/
theorem hexdigest_eq_direct (bs : List Byte) : hexdigest bs = Direct.hexdigest bs := by
  rw [hexdigest, Direct.hexdigest, Direct.blocks_eq]

/-- The example of the standard. -/
example : hexdigest (Text.utf8 (txt "abc")) =
    txt "ba7816bf8f01cfea414140de5dae2223b00361a396177a9cb410ff61f20015ad" := by decide +kernel

end Sha256

end Py
