import DopamintArena.Foundation.Outcome

/-!
Unsigned 64-bit arithmetic that stops on overflow and underflow. Each
operation is specified by an equation between natural numbers, so that every
later argument about amounts, nonces and clocks is linear arithmetic.
-/

namespace Foundation

variable {ε : Type}
variable {error : ε} {x y z : UInt64}

def checkedAdd (error : ε) (x y : UInt64) : Except ε UInt64 :=
  if x.toNat + y.toNat < 2 ^ 64 then .ok (x + y) else .error error

def checkedSub (error : ε) (x y : UInt64) : Except ε UInt64 :=
  if y ≤ x then .ok (x - y) else .error error

def checkedCast (error : ε) (n : Nat) : Except ε UInt64 :=
  if n < 2 ^ 64 then .ok (UInt64.ofNat n) else .error error

theorem checkedAdd_ok_iff :
    checkedAdd error x y = .ok z ↔ z.toNat = x.toNat + y.toNat := by
  have hz := z.toNat_lt
  unfold checkedAdd
  split
  · rename_i hfits
    rw [Except.ok.injEq, ← UInt64.toNat_inj, UInt64.toNat_add,
      Nat.mod_eq_of_lt hfits, eq_comm]
  · simp only [reduceCtorEq, false_iff]
    omega

theorem checkedSub_ok_iff :
    checkedSub error x y = .ok z ↔ z.toNat + y.toNat = x.toNat := by
  unfold checkedSub
  split
  · rename_i hle
    rw [Except.ok.injEq, ← UInt64.toNat_inj, UInt64.toNat_sub_of_le _ _ hle]
    have := UInt64.le_iff_toNat_le.mp hle
    omega
  · rename_i hlt
    rw [UInt64.le_iff_toNat_le] at hlt
    simp only [reduceCtorEq, false_iff]
    omega

theorem checkedCast_ok_iff {n : Nat} :
    checkedCast error n = .ok z ↔ z.toNat = n := by
  have hz := z.toNat_lt
  unfold checkedCast
  split
  · rename_i hfits
    rw [Except.ok.injEq, ← UInt64.toNat_inj, UInt64.toNat_ofNat_of_lt' hfits, eq_comm]
  · simp only [reduceCtorEq, false_iff]
    omega

theorem toNat_add_of_fits (hfits : x.toNat + y.toNat < 2 ^ 64) :
    (x + y).toNat = x.toNat + y.toNat := by
  rw [UInt64.toNat_add, Nat.mod_eq_of_lt hfits]

theorem toNat_sub_of_toNat_le (hle : y.toNat ≤ x.toNat) :
    (x - y).toNat = x.toNat - y.toNat :=
  UInt64.toNat_sub_of_le _ _ (UInt64.le_iff_toNat_le.mpr hle)

theorem exists_toNat_eq {n : Nat} (hfits : n < 2 ^ 64) : ∃ x : UInt64, x.toNat = n :=
  ⟨UInt64.ofNat n, UInt64.toNat_ofNat_of_lt' hfits⟩

end Foundation
