/-!
# Byte strings and little-endian numbers

Everything on the wire is a list of bytes.  A number of `k` bytes is written
least significant byte first.  Main statements: `length_littleEndian`,
`ofLittleEndian_littleEndian` and `littleEndian_ofLittleEndian`, which say
that `k` bytes are exactly the numbers below the `k`-th power of 256.
-/

namespace StationRelay

abbrev Bytes := List UInt8

namespace Bytes

/-- The `k` low bytes of a number, least significant first. -/
def littleEndian : Nat → Nat → Bytes
  | 0, _ => []
  | k + 1, n => UInt8.ofNat n :: littleEndian k (n / 256)

/-- The number whose bytes these are, least significant first. -/
def ofLittleEndian : Bytes → Nat
  | [] => 0
  | b :: rest => b.toNat + 256 * ofLittleEndian rest

@[simp] theorem length_littleEndian (k n : Nat) : (littleEndian k n).length = k := by
  induction k generalizing n with
  | zero => rfl
  | succ k ih => simp [littleEndian, ih]

theorem ofLittleEndian_lt (bytes : Bytes) : ofLittleEndian bytes < Nat.pow 256 bytes.length := by
  induction bytes with
  | nil => simp [ofLittleEndian]
  | cons b rest ih =>
    have small := b.toNat_lt
    have power : Nat.pow 256 (rest.length + 1) = Nat.pow 256 rest.length * 256 := rfl
    simp only [ofLittleEndian, List.length_cons]
    omega

theorem ofLittleEndian_littleEndian {k n : Nat} (h : n < Nat.pow 256 k) :
    ofLittleEndian (littleEndian k n) = n := by
  induction k generalizing n with
  | zero => simp [ofLittleEndian, littleEndian] at *; omega
  | succ k ih =>
    have power : Nat.pow 256 (k + 1) = Nat.pow 256 k * 256 := rfl
    have step := ih (n := n / 256) (by omega)
    simp only [littleEndian, ofLittleEndian, step, UInt8.toNat_ofNat']
    omega

theorem littleEndian_ofLittleEndian (bytes : Bytes) :
    littleEndian bytes.length (ofLittleEndian bytes) = bytes := by
  induction bytes with
  | nil => rfl
  | cons b rest ih =>
    have small := b.toNat_lt
    have quotient : (b.toNat + 256 * ofLittleEndian rest) / 256 = ofLittleEndian rest := by omega
    have residue : UInt8.ofNat (b.toNat + 256 * ofLittleEndian rest) = b := by
      apply UInt8.toNat_inj.mp
      simp only [UInt8.toNat_ofNat']
      omega
    simp only [ofLittleEndian, List.length_cons, littleEndian, quotient, residue, ih]

def slice (bytes : Bytes) (offset count : Nat) : Bytes :=
  (bytes.drop offset).take count

theorem length_slice {bytes : Bytes} {offset count : Nat} (h : offset + count ≤ bytes.length) :
    (bytes.slice offset count).length = count := by
  simp [slice]
  omega

def word32 (bytes : Bytes) (offset : Nat) : UInt32 :=
  UInt32.ofNat (ofLittleEndian (bytes.slice offset 4))

end Bytes

end StationRelay
