import DopamintArena.Foundation.Bytes

/-!
Reading and writing inside a byte buffer: the number that big-endian bytes
stand for, and overwriting a slice in place. Both undo what writing fixed-width
fields one after another does.
-/

namespace Foundation

/-- The number whose base-256 digits these are, most significant first. -/
def ofBeBytes (bytes : Bytes) : Nat :=
  bytes.foldl (fun value byte => value * 256 + byte.toNat) 0

theorem ofBeBytes_concat (bytes : Bytes) (byte : UInt8) :
    ofBeBytes (bytes ++ [byte]) = ofBeBytes bytes * 256 + byte.toNat := by
  simp [ofBeBytes]

theorem ofBeBytes_beBytes {width n : Nat} (h : n < 256 ^ width) :
    ofBeBytes (beBytes width n) = n := by
  induction width generalizing n with
  | zero =>
    simp only [pow_zero, Nat.lt_one_iff] at h
    rw [h]
    rfl
  | succ _ ih =>
    rw [pow_succ] at h
    rw [beBytes, ofBeBytes_concat, ih (by omega)]
    have hbyte : (n % 256).toUInt8.toNat = n % 256 := by simp
    omega

theorem ofBeBytes_lt (bytes : Bytes) : ofBeBytes bytes < 256 ^ bytes.length := by
  induction bytes using List.reverseRecOn with
  | nil => exact Nat.one_pos
  | append_singleton _ byte =>
    have hbyte := byte.toNat_lt
    rw [ofBeBytes_concat, List.length_append, List.length_singleton, pow_succ]
    omega

theorem beBytes_ofBeBytes (bytes : Bytes) : beBytes bytes.length (ofBeBytes bytes) = bytes := by
  induction bytes using List.reverseRecOn with
  | nil => rfl
  | append_singleton bytes byte ih =>
    have hbyte := byte.toNat_lt
    rw [ofBeBytes_concat, List.length_append, List.length_singleton, beBytes]
    have hquot : (ofBeBytes bytes * 256 + byte.toNat) / 256 = ofBeBytes bytes := by omega
    have hmod : (ofBeBytes bytes * 256 + byte.toNat) % 256 = byte.toNat := by omega
    rw [hquot, hmod, ih]
    simp

def overwrite (buffer : Bytes) (offset : Nat) (bytes : Bytes) : Bytes :=
  buffer.take offset ++ bytes ++ buffer.drop (offset + bytes.length)

theorem overwrite_field (front rest : Bytes) {old bytes : Bytes}
    (h : bytes.length = old.length) :
    overwrite (front ++ old ++ rest) front.length bytes = front ++ bytes ++ rest := by
  have htake : (front ++ old ++ rest).take front.length = front := by
    rw [List.append_assoc, List.take_left]
  have hdrop : (front ++ old ++ rest).drop (front.length + bytes.length) = rest := by
    rw [h, ← List.length_append, List.drop_left]
  rw [overwrite, htake, hdrop]

theorem exists_field {bytes : Bytes} {length rest : Nat} (h : bytes.length = length + rest) :
    ∃ field tail, bytes = field ++ tail ∧ field.length = length ∧ tail.length = rest :=
  ⟨bytes.take length, bytes.drop length, (List.take_append_drop length bytes).symm,
    by simp only [List.length_take]; omega, by simp only [List.length_drop]; omega⟩

end Foundation
