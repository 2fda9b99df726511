import Mathlib.Tactic

/-!
Bounded rings: what is pushed at the back drops out at the front once the ring
is full. After a sequence of pushes the ring is the end of that sequence, so an
element is still in it exactly if few enough were pushed after it.
-/

namespace Foundation

variable {α : Type*}

/-- Drops elements at the front while there are more than `cap`. -/
def trim (cap : Nat) : List α → List α
  | [] => []
  | x :: rest => if cap < (x :: rest).length then trim cap rest else x :: rest

/-- One push. -/
def pushBounded (cap : Nat) (ring : List α) (x : α) : List α := trim cap (ring ++ [x])

def lastOf (cap : Nat) (xs : List α) : List α := xs.drop (xs.length - cap)

theorem trim_eq (cap : Nat) (xs : List α) : trim cap xs = lastOf cap xs := by
  induction xs with
  | nil => simp [trim, lastOf]
  | cons x rest ih =>
    unfold trim lastOf
    split
    · next hlong =>
        rw [ih, lastOf]
        have hdrop : (x :: rest).length - cap = (rest.length - cap) + 1 := by
          simp only [List.length_cons] at hlong ⊢
          omega
        rw [hdrop, List.drop_succ_cons]
    · next hshort =>
        have hdrop : (x :: rest).length - cap = 0 := by omega
        rw [hdrop, List.drop_zero]

/-- Pushing forgets only what the bound makes it forget. -/
theorem pushBounded_lastOf (cap : Nat) (xs : List α) (x : α) :
    pushBounded cap (lastOf cap xs) x = lastOf cap (xs ++ [x]) := by
  rw [pushBounded, trim_eq]
  unfold lastOf
  rw [← List.drop_append_of_le_length (by omega), List.drop_drop]
  congr 1
  simp only [List.length_drop, List.length_append, List.length_singleton]
  omega

theorem lastOf_sublist (cap : Nat) (xs : List α) : (lastOf cap xs).Sublist xs :=
  List.drop_sublist _ _

/-- An element is among the last `cap` exactly if it has an occurrence with fewer than `cap`
elements behind it. -/
theorem mem_lastOf_iff {cap : Nat} {xs : List α} {x : α} :
    x ∈ lastOf cap xs ↔ ∃ before after, xs = before ++ x :: after ∧ after.length < cap := by
  constructor
  · intro hmem
    obtain ⟨front, after, hsplit⟩ := List.append_of_mem hmem
    refine ⟨xs.take (xs.length - cap) ++ front, after, ?_, ?_⟩
    · rw [List.append_assoc, ← hsplit, lastOf, List.take_append_drop]
    · have hlength := congrArg List.length hsplit
      simp only [lastOf, List.length_drop, List.length_append, List.length_cons] at hlength
      omega
  · rintro ⟨before, after, rfl, _⟩
    unfold lastOf
    have hcut : (before ++ x :: after).length - cap ≤ before.length := by
      simp only [List.length_append, List.length_cons]
      omega
    rw [List.drop_append_of_le_length hcut]
    exact List.mem_append_right _ List.mem_cons_self

end Foundation
