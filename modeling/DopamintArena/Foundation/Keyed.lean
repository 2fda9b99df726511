import Mathlib.Data.List.AList
import Mathlib.Tactic

/-!
Keyed stores with unique keys, as Mathlib's association lists, and the sum
of a quantity over a store's entries: adding a fresh entry adds its share and
erasing an entry takes its share away.
-/

namespace Foundation

variable {κ ν : Type}

/-- A store of `ν` values under unique keys. -/
abbrev Store (κ ν : Type) := AList (fun _ : κ => ν)

namespace Store

def total (amount : κ → ν → Nat) (s : Store κ ν) : Nat :=
  (s.entries.map fun e => amount e.1 e.2).sum

variable (amount : κ → ν → Nat)

@[simp] theorem total_empty : total amount (∅ : Store κ ν) = 0 := rfl

variable [DecidableEq κ]
variable {s : Store κ ν} {k : κ}

theorem total_insert (v : ν) (hfresh : k ∉ s) :
    total amount (s.insert k v) = amount k v + total amount s := by
  rw [total, AList.entries_insert_of_notMem hfresh, List.map_cons, List.sum_cons, total]

/-- Erasing an entry removes exactly its own share. -/
theorem total_erase {v : ν} (hentry : s.lookup k = some v) :
    total amount s = amount k v + total amount (s.erase k) := by
  have hkey : k ∈ s.entries.keys :=
    AList.lookup_isSome.mp (by simp [hentry])
  obtain ⟨w, before, after, hbefore, hsplit, herase⟩ :=
    List.exists_of_kerase hkey
  have hvalue : w = v := by
    have hlookup : s.entries.dlookup k = some v := hentry
    rw [hsplit, List.dlookup_append, List.dlookup_eq_none.mpr hbefore] at hlookup
    simpa using hlookup
  subst hvalue
  have hentries : (s.erase k).entries = before ++ after := herase
  simp only [total, hentries]
  rw [hsplit]
  simp only [List.map_append, List.map_cons, List.sum_append, List.sum_cons]
  omega

theorem le_total {v : ν} (hentry : s.lookup k = some v) : amount k v ≤ total amount s := by
  have hshare := total_erase amount hentry
  omega

end Store

end Foundation
