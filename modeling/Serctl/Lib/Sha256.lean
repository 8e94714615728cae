import Serctl.Lib.Wire

/-!
# SHA-256

The hash function and the message authentication code made of it, computed as they are specified:
the message is padded to whole blocks, each block gives a schedule of sixty-four words, and the
rounds mix them into the state.
-/

namespace Serctl.Lib.Sha256

/-! ## Words -/

def rotateRight (x n : UInt32) : UInt32 := (x >>> n) ||| (x <<< (32 - n))

def choose (x y z : UInt32) : UInt32 := (x &&& y) ^^^ (~~~x &&& z)

def majority (x y z : UInt32) : UInt32 := (x &&& y) ^^^ (x &&& z) ^^^ (y &&& z)

def bigSigma0 (x : UInt32) : UInt32 :=
  rotateRight x 2 ^^^ rotateRight x 13 ^^^ rotateRight x 22

def bigSigma1 (x : UInt32) : UInt32 :=
  rotateRight x 6 ^^^ rotateRight x 11 ^^^ rotateRight x 25

def smallSigma0 (x : UInt32) : UInt32 := rotateRight x 7 ^^^ rotateRight x 18 ^^^ (x >>> 3)

def smallSigma1 (x : UInt32) : UInt32 := rotateRight x 17 ^^^ rotateRight x 19 ^^^ (x >>> 10)

/-- The constants of the rounds. -/
def roundConstants : List UInt32 :=
  [0x428a2f98, 0x71374491, 0xb5c0fbcf, 0xe9b5dba5, 0x3956c25b, 0x59f111f1, 0x923f82a4, 0xab1c5ed5,
    0xd807aa98, 0x12835b01, 0x243185be, 0x550c7dc3, 0x72be5d74, 0x80deb1fe, 0x9bdc06a7, 0xc19bf174,
    0xe49b69c1, 0xefbe4786, 0x0fc19dc6, 0x240ca1cc, 0x2de92c6f, 0x4a7484aa, 0x5cb0a9dc, 0x76f988da,
    0x983e5152, 0xa831c66d, 0xb00327c8, 0xbf597fc7, 0xc6e00bf3, 0xd5a79147, 0x06ca6351, 0x14292967,
    0x27b70a85, 0x2e1b2138, 0x4d2c6dfc, 0x53380d13, 0x650a7354, 0x766a0abb, 0x81c2c92e, 0x92722c85,
    0xa2bfe8a1, 0xa81a664b, 0xc24b8b70, 0xc76c51a3, 0xd192e819, 0xd6990624, 0xf40e3585, 0x106aa070,
    0x19a4c116, 0x1e376c08, 0x2748774c, 0x34b0bcb5, 0x391c0cb3, 0x4ed8aa4a, 0x5b9cca4f, 0x682e6ff3,
    0x748f82ee, 0x78a5636f, 0x84c87814, 0x8cc70208, 0x90befffa, 0xa4506ceb, 0xbef9a3f7, 0xc67178f2]

/-! ## Blocks -/

/-- The state between blocks. -/
structure State where
  a : UInt32
  b : UInt32
  c : UInt32
  d : UInt32
  e : UInt32
  f : UInt32
  g : UInt32
  h : UInt32

/-- The state before the first block. -/
def State.start : State where
  a := 0x6a09e667
  b := 0xbb67ae85
  c := 0x3c6ef372
  d := 0xa54ff53a
  e := 0x510e527f
  f := 0x9b05688c
  g := 0x1f83d9ab
  h := 0x5be0cd19

/-- One round, with its constant and the word of the schedule added up. -/
def State.round (s : State) (kw : UInt32) : State :=
  let t₁ := s.h + bigSigma1 s.e + choose s.e s.f s.g + kw
  let t₂ := bigSigma0 s.a + majority s.a s.b s.c
  ⟨t₁ + t₂, s.a, s.b, s.c, s.d + t₁, s.e, s.f, s.g⟩

/-- Addition word by word. -/
def State.add (s t : State) : State :=
  ⟨s.a + t.a, s.b + t.b, s.c + t.c, s.d + t.d, s.e + t.e, s.f + t.f, s.g + t.g, s.h + t.h⟩

/-- Words of four bytes each. -/
def toWords : Nat → List UInt8 → List UInt32
  | 0, _ => []
  | n + 1, bytes => UInt32.ofNat (Bytes.ofBytes (bytes.take 4)) :: toWords n (bytes.drop 4)

/-- More words of the schedule; the list has the latest first. -/
def extend : Nat → List UInt32 → List UInt32
  | 0, ws => ws
  | n + 1, ws => extend n
      ((smallSigma1 (ws.getD 1 0) + ws.getD 6 0 + smallSigma0 (ws.getD 14 0) + ws.getD 15 0) :: ws)

/-- The words of a block. -/
def schedule (block : List UInt8) : List UInt32 := (extend 48 (toWords 16 block).reverse).reverse

/-- One block. -/
def State.compress (s : State) (block : List UInt8) : State :=
  s.add ((List.zipWith (· + ·) roundConstants (schedule block)).foldl State.round s)

/-! ## Messages -/

/-- A set bit, zeros, and the number of bits, up to whole blocks. -/
def pad (message : List UInt8) : List UInt8 :=
  message ++ 128 :: List.replicate ((119 - message.length % 64) % 64) 0 ++
    (Bytes.beBytes 8 (8 * message.length)).val

/-- So many blocks. -/
def absorb : Nat → State → List UInt8 → State
  | 0, s, _ => s
  | n + 1, s, bytes => absorb n (s.compress (bytes.take 64)) (bytes.drop 64)

/-- The digest that a state stands for. -/
def State.toBytes (s : State) : List UInt8 :=
  [s.a, s.b, s.c, s.d, s.e, s.f, s.g, s.h].flatMap fun word => (Bytes.beBytes 4 word.toNat).val

/-- The digest of a message. -/
def hash (message : List UInt8) : List UInt8 :=
  (absorb ((pad message).length / 64) .start (pad message)).toBytes

/-- A digest has thirty-two bytes. -/
theorem length_hash (message : List UInt8) : (hash message).length = 32 := by
  simp [hash, State.toBytes, (Bytes.beBytes 4 _).property]

example : Text.hexEncode (hash [97, 98, 99]) =
    "ba7816bf8f01cfea414140de5dae2223b00361a396177a9cb410ff61f20015ad" := by
  decide +kernel

/-- The digest with its length. -/
def digest (message : List UInt8) : Bytes 32 := ⟨hash message, length_hash message⟩

theorem val_digest (message : List UInt8) : (digest message).val = hash message := rfl

/-- The keyed form; keys have at most one block. -/
def hmac (key message : List UInt8) : Bytes 32 :=
  let block := key ++ List.replicate (64 - key.length) 0
  digest (block.map (· ^^^ 0x5c) ++ hash (block.map (· ^^^ 0x36) ++ message))

end Serctl.Lib.Sha256
