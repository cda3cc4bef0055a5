import CipherCli.Library.BigEndian

/-!
# SCALE bytes

The compact encoding of a `u32` in the SCALE codec and the encoding of a byte string,
which is its compact length before its bytes. The two low bits of the first byte tell
how many bytes the number takes.
-/

namespace CipherCli.Library

/-- One byte, two or four little-endian bytes, or a marker before four of them. -/
def compact (n : UInt32) : List UInt8 :=
  if n.toNat < 2 ^ 6 then [UInt8.ofNat (4 * n.toNat)]
  else if n.toNat < 2 ^ 14 then (beBytes 2 (4 * n.toNat + 1)).reverse
  else if n.toNat < 2 ^ 30 then (beBytes 4 (4 * n.toNat + 2)).reverse
  else 3 :: (beBytes 4 n.toNat).reverse

def scaleBytes (bytes : List UInt8) : List UInt8 :=
  compact (UInt32.ofNat bytes.length) ++ bytes

theorem scaleBytes_of_short {bytes : List UInt8} (hShort : bytes.length < 2 ^ 6) :
    scaleBytes bytes = UInt8.ofNat (4 * bytes.length) :: bytes := by
  have hLength : (UInt32.ofNat bytes.length).toNat = bytes.length :=
    UInt32.toNat_ofNat_of_lt (Nat.lt_trans hShort (by decide))
  rw [scaleBytes, compact, hLength, if_pos hShort, List.singleton_append]

end CipherCli.Library
