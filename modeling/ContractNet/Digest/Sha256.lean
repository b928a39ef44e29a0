import ContractNet.Text.Basic

/-!
# Content ids

The content id of a document is its SHA-256 digest in hexadecimal: documents with the same bytes
have the same id.
-/

namespace ContractNet.Sha256

/-- The round constants. -/
def constants : Array UInt32 := #[
  0x428a2f98, 0x71374491, 0xb5c0fbcf, 0xe9b5dba5, 0x3956c25b, 0x59f111f1, 0x923f82a4, 0xab1c5ed5,
  0xd807aa98, 0x12835b01, 0x243185be, 0x550c7dc3, 0x72be5d74, 0x80deb1fe, 0x9bdc06a7, 0xc19bf174,
  0xe49b69c1, 0xefbe4786, 0x0fc19dc6, 0x240ca1cc, 0x2de92c6f, 0x4a7484aa, 0x5cb0a9dc, 0x76f988da,
  0x983e5152, 0xa831c66d, 0xb00327c8, 0xbf597fc7, 0xc6e00bf3, 0xd5a79147, 0x06ca6351, 0x14292967,
  0x27b70a85, 0x2e1b2138, 0x4d2c6dfc, 0x53380d13, 0x650a7354, 0x766a0abb, 0x81c2c92e, 0x92722c85,
  0xa2bfe8a1, 0xa81a664b, 0xc24b8b70, 0xc76c51a3, 0xd192e819, 0xd6990624, 0xf40e3585, 0x106aa070,
  0x19a4c116, 0x1e376c08, 0x2748774c, 0x34b0bcb5, 0x391c0cb3, 0x4ed8aa4a, 0x5b9cca4f, 0x682e6ff3,
  0x748f82ee, 0x78a5636f, 0x84c87814, 0x8cc70208, 0x90befffa, 0xa4506ceb, 0xbef9a3f7, 0xc67178f2]

/-- The digest of nothing, before any block. -/
def initial : Array UInt32 := #[
  0x6a09e667, 0xbb67ae85, 0x3c6ef372, 0xa54ff53a, 0x510e527f, 0x9b05688c, 0x1f83d9ab, 0x5be0cd19]

/-- Rotate to the right. -/
def rotr (x : UInt32) (n : UInt32) : UInt32 := (x >>> n) ||| (x <<< (32 - n))

/-- Four bytes as a word, the highest first. -/
def word (b : Array UInt8) (i : Nat) : UInt32 :=
  ((b.getD i 0).toUInt32 <<< 24) ||| ((b.getD (i + 1) 0).toUInt32 <<< 16) |||
    ((b.getD (i + 2) 0).toUInt32 <<< 8) ||| (b.getD (i + 3) 0).toUInt32

/-- The bytes of a number of the given width, the highest first. -/
def bigEndian (width n : Nat) : Text :=
  (List.range width).map fun i => UInt8.ofNat (n / Nat.pow 256 (width - 1 - i))

/-- The message with the mark of its end, zeros, and its length in bits: a multiple of 64 bytes. -/
def padded (t : Text) : Text :=
  t ++ [0x80] ++ List.replicate ((119 - t.length % 64) % 64) 0 ++ bigEndian 8 (8 * t.length)

/-- The 64 words of the schedule of the block that starts at `pos`. -/
def schedule (b : Array UInt8) (pos : Nat) : Array UInt32 :=
  let first := (Array.range 16).map fun i => word b (pos + 4 * i)
  (List.range 48).foldl (fun w k =>
    let i := k + 16
    let x := w.getD (i - 15) 0
    let y := w.getD (i - 2) 0
    let s0 := rotr x 7 ^^^ rotr x 18 ^^^ (x >>> 3)
    let s1 := rotr y 17 ^^^ rotr y 19 ^^^ (y >>> 10)
    w.push (w.getD (i - 16) 0 + s0 + w.getD (i - 7) 0 + s1)) first

/-- One round on the eight working words. -/
def round (w : Array UInt32) (s : Array UInt32) (i : Nat) : Array UInt32 :=
  let a := s.getD 0 0
  let b := s.getD 1 0
  let c := s.getD 2 0
  let e := s.getD 4 0
  let s1 := rotr e 6 ^^^ rotr e 11 ^^^ rotr e 25
  let choice := (e &&& s.getD 5 0) ^^^ ((~~~ e) &&& s.getD 6 0)
  let t1 := s.getD 7 0 + s1 + choice + constants.getD i 0 + w.getD i 0
  let s0 := rotr a 2 ^^^ rotr a 13 ^^^ rotr a 22
  let majority := (a &&& b) ^^^ (a &&& c) ^^^ (b &&& c)
  #[t1 + (s0 + majority), a, b, c, s.getD 3 0 + t1, e, s.getD 5 0, s.getD 6 0]

/-- The digest after one more block. -/
def block (b : Array UInt8) (h : Array UInt32) (k : Nat) : Array UInt32 :=
  let w := schedule b (64 * k)
  let s := (List.range 64).foldl (round w) h
  (h.zip s).map fun (x, y) => x + y

/-- The SHA-256 digest of a text. -/
def digest (t : Text) : Text :=
  let b := (padded t).toArray
  let h := (List.range (b.size / 64)).foldl (block b) initial
  h.toList.flatMap fun x => bigEndian 4 x.toNat

end ContractNet.Sha256

namespace ContractNet

/-- The content id of a document. -/
def contentId (document : Text) : Text :=
  "cid:" ++ (Sha256.digest document).flatMap fun b => Text.padZeros 2 (Text.hex b.toNat)

end ContractNet
