import Mathlib.Tactic

/-!
Byte strings and the fixed-width encodings that signed messages are built
from. A message is a concatenation of fields of known length, so its fields
can be recovered from it; the big-endian encoding of an integer is recovered
by induction on the number of digits.
-/

namespace Foundation

/-- A byte vector. -/
abbrev Bytes := List UInt8

def bytesOf (text : String) : Bytes :=
  text.toList.map fun c => c.toNat.toUInt8

/-- A value of exactly 32 bytes: an address, an object id or a hash. -/
structure Bytes32 where
  bytes : Bytes
  length_bytes : bytes.length = 32
deriving DecidableEq

namespace Bytes32

attribute [simp] length_bytes

@[ext] theorem ext_bytes {x y : Bytes32} (h : x.bytes = y.bytes) : x = y := by
  cases x
  cases y
  simp_all

def fill (b : UInt8) : Bytes32 :=
  ⟨List.replicate 32 b, List.length_replicate⟩

end Bytes32

/-- A value of exactly 64 bytes: a signature. -/
structure Bytes64 where
  bytes : Bytes
  length_bytes : bytes.length = 64
deriving DecidableEq

namespace Bytes64

attribute [simp] length_bytes

@[ext] theorem ext_bytes {x y : Bytes64} (h : x.bytes = y.bytes) : x = y := by
  cases x
  cases y
  simp_all

def fill (b : UInt8) : Bytes64 :=
  ⟨List.replicate 64 b, List.length_replicate⟩

end Bytes64

/-- The `width` low base-256 digits of `n`, most significant first. -/
def beBytes : (width n : Nat) → Bytes
  | 0, _ => []
  | width + 1, n => beBytes width (n / 256) ++ [(n % 256).toUInt8]

@[simp] theorem length_beBytes (width n : Nat) :
    (beBytes width n).length = width := by
  induction width generalizing n with
  | zero => rfl
  | succ _ ih => simp [beBytes, ih]

private theorem toUInt8_mod_inj {m n : Nat}
    (h : (m % 256).toUInt8 = (n % 256).toUInt8) : m % 256 = n % 256 := by
  have hnat := congrArg UInt8.toNat h
  simpa using hnat

theorem beBytes_inj {width m n : Nat} (hm : m < 256 ^ width)
    (hn : n < 256 ^ width) (h : beBytes width m = beBytes width n) :
    m = n := by
  induction width generalizing m n with
  | zero =>
    simp only [pow_zero, Nat.lt_one_iff] at hm hn
    omega
  | succ _ ih =>
    simp only [beBytes] at h
    obtain ⟨hhigh, hlow⟩ := List.append_inj h (by simp)
    have hdigit := toUInt8_mod_inj (List.singleton_inj.mp hlow)
    rw [pow_succ] at hm hn
    have hquot := ih (by omega) (by omega) hhigh
    omega

theorem beBytes_mod (width n : Nat) : beBytes width (n % 256 ^ width) = beBytes width n := by
  induction width generalizing n with
  | zero => rfl
  | succ width ih =>
    have hhigh : n % 256 ^ (width + 1) / 256 = n / 256 % 256 ^ width := by
      rw [pow_succ', Nat.mod_mul_right_div_self]
    have hlow : n % 256 ^ (width + 1) % 256 = n % 256 := by
      rw [pow_succ', Nat.mod_mul_right_mod]
    rw [beBytes, beBytes, hhigh, hlow, ih]

theorem beBytes_toNat_inj {x y : UInt64}
    (h : beBytes 8 x.toNat = beBytes 8 y.toNat) : x = y :=
  UInt64.toNat_inj.mp (beBytes_inj x.toNat_lt y.toNat_lt h)

end Foundation
