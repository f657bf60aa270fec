import HealthConsensus.Report
import HealthConsensus.Text.Bytes

namespace HealthConsensus

namespace ChaCha20

def littleEndian : Bytes → Nat
  | [] => 0
  | b :: bs => b.toNat + 256 * littleEndian bs

def littleEndianBytes : Nat → Nat → Bytes
  | 0, _ => []
  | width + 1, n => UInt8.ofNat n :: littleEndianBytes width (n / 256)

def words : Bytes → List UInt32
  | a :: b :: c :: d :: rest => UInt32.ofNat (littleEndian [a, b, c, d]) :: words rest
  | _ => []

def rotateLeft (x n : UInt32) : UInt32 := (x <<< n) ||| (x >>> (32 - n))

def quarterRound (s : Array UInt32) (a b c d : Nat) : Array UInt32 :=
  let (x, y, z, w) := (s.getD a 0, s.getD b 0, s.getD c 0, s.getD d 0)
  let x := x + y
  let w := rotateLeft (w ^^^ x) 16
  let z := z + w
  let y := rotateLeft (y ^^^ z) 12
  let x := x + y
  let w := rotateLeft (w ^^^ x) 8
  let z := z + w
  let y := rotateLeft (y ^^^ z) 7
  (((s.setIfInBounds a x).setIfInBounds b y).setIfInBounds c z).setIfInBounds d w

def quarters : List (Nat × Nat × Nat × Nat) :=
  [(0, 4, 8, 12), (1, 5, 9, 13), (2, 6, 10, 14), (3, 7, 11, 15),
   (0, 5, 10, 15), (1, 6, 11, 12), (2, 7, 8, 13), (3, 4, 9, 14)]

def doubleRound (s : Array UInt32) : Array UInt32 :=
  quarters.foldl (fun s (a, b, c, d) => quarterRound s a b c d) s

def constants : List UInt32 := [0x61707865, 0x3320646e, 0x79622d32, 0x6b206574]

def initial (key nonce : Bytes) (counter : Nat) : Array UInt32 :=
  (constants ++ words key ++ UInt32.ofNat counter :: words nonce).toArray

def block (key nonce : Bytes) (counter : Nat) : Bytes :=
  let start := initial key nonce counter
  let final := (List.range 10).foldl (fun s _ => doubleRound s) start
  (List.range 16).flatMap fun i =>
    littleEndianBytes 4 (final.getD i 0 + start.getD i 0).toNat

def stream (key nonce : Bytes) (length : Nat) : Bytes :=
  (List.range ((length + 63) / 64)).flatMap fun i => block key nonce (i + 1)

def apply (key nonce bs : Bytes) : Bytes :=
  List.zipWith (· ^^^ ·) bs (stream key nonce bs.length)

end ChaCha20

namespace Poly1305

open ChaCha20

def modulus : Nat := 1 <<< 130 - 5

def mask : Nat := 0x0ffffffc0ffffffc0ffffffc0fffffff

def absorb (r : Nat) : Nat → Bytes → Nat → Nat
  | 0, _, acc => acc
  | n + 1, bs, acc =>
    absorb r n (bs.drop 16) ((acc + littleEndian (bs.take 16 ++ [1])) * r % modulus)

def tag (key message : Bytes) : Bytes :=
  let r := littleEndian (key.take 16) &&& mask
  let s := littleEndian (key.drop 16)
  littleEndianBytes 16 (absorb r ((message.length + 15) / 16) message 0 + s)

end Poly1305

namespace Frame

def nonceLength : Nat := 12

def tagLength : Nat := 16

def overhead : Nat := nonceLength + tagLength

def fill (bs : Bytes) : Bytes := List.replicate ((16 - bs.length % 16) % 16) 0

def covered (cipher : Bytes) : Bytes :=
  cipher ++ fill cipher ++ ChaCha20.littleEndianBytes 8 0
    ++ ChaCha20.littleEndianBytes 8 cipher.length

def tag (key nonce cipher : Bytes) : Bytes :=
  Poly1305.tag ((ChaCha20.block key nonce 0).take 32) (covered cipher)

def encrypt (key nonce body : Bytes) : Bytes :=
  let cipher := ChaCha20.apply key nonce body
  cipher ++ tag key nonce cipher

def decrypt? (key nonce sealed : Bytes) : Option Bytes :=
  let split := sealed.length - tagLength
  let cipher := sealed.take split
  if tag key nonce cipher = sealed.drop split then some (ChaCha20.apply key nonce cipher) else none

def encode (key nonce body : Bytes) : Bytes := nonce ++ encrypt key nonce body

def decode (key frame : Bytes) : Except Error Bytes :=
  if frame.length < overhead then
    .error (.gossip ("frame too short: " ++ toString frame.length ++ " bytes"))
  else
    match decrypt? key (frame.take nonceLength) (frame.drop nonceLength) with
    | some body => .ok body
    | none => .error (.gossip "frame authentication failed")

end Frame

end HealthConsensus
