import NetDesc.Decimal.Double

namespace NetDesc

abbrev Bytes := List UInt8

namespace Bytes

def ofNat : Nat → Nat → Bytes
  | 0, _ => []
  | width + 1, n => UInt8.ofNat n :: ofNat width (n / 256)

def toNat : Bytes → Nat
  | [] => 0
  | b :: bs => b.toNat + 256 * toNat bs

def isWord : Int → Bool
  | .ofNat n => n < 0x80000000
  | .negSucc n => n < 0x80000000

def ofWord (n : Int) : Bytes :=
  ofNat 4 (n % 0x100000000).toNat

def toWord (bs : Bytes) : Int :=
  let n : Int := toNat bs
  if n < 0x80000000 then n else n - 0x100000000

def ofDouble (x : Decimal.Double) : Bytes :=
  ofNat 8 x.bits.toNat

def toDouble (bs : Bytes) : Decimal.Double :=
  ⟨UInt64.ofNat (toNat bs)⟩

def ofText (s : String) : Bytes :=
  s.toUTF8.data.toList

def toText? (bs : Bytes) : Option String :=
  String.fromUTF8? ⟨bs.toArray⟩

end Bytes

end NetDesc
