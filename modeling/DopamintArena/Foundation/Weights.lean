import Mathlib.Tactic

/-!
Weighted voting over a list. A group is a Boolean predicate and its weight is
the sum over the elements in it. Two groups that both reach a threshold
overlap in at least the weight by which twice the threshold exceeds the total,
which is the intersection property of weighted quorums.
-/

namespace Foundation

variable {α : Type*}

def weightOf (weight : α → Nat) (xs : List α) (group : α → Bool) : Nat :=
  ((xs.filter group).map weight).sum

section Groups

variable {weight : α → Nat} {xs ys : List α} {x : α} {group other : α → Bool}

@[simp] theorem weightOf_nil : weightOf weight [] group = 0 := rfl

theorem weightOf_cons :
    weightOf weight (x :: xs) group =
      (if group x = true then weight x else 0) + weightOf weight xs group := by
  unfold weightOf
  rw [List.filter_cons]
  by_cases hx : group x = true <;> simp [hx]

theorem weightOf_append :
    weightOf weight (xs ++ ys) group = weightOf weight xs group + weightOf weight ys group := by
  simp [weightOf]

theorem weightOf_congr (h : ∀ x ∈ xs, group x = other x) :
    weightOf weight xs group = weightOf weight xs other := by
  unfold weightOf
  rw [List.filter_congr h]

theorem weightOf_eq_zero (h : ∀ x ∈ xs, group x = false) : weightOf weight xs group = 0 := by
  rw [weightOf_congr h]
  simp [weightOf]

/-- Inclusion and exclusion of two groups. -/
theorem weightOf_or_add_and :
    weightOf weight xs (fun x => group x || other x) +
        weightOf weight xs (fun x => group x && other x) =
      weightOf weight xs group + weightOf weight xs other := by
  induction xs with
  | nil => rfl
  | cons x =>
    simp only [weightOf_cons]
    cases group x <;> cases other x <;> simp <;> omega

/-- A group splits into those inside and those outside another one. -/
theorem weightOf_and_add_and_not :
    weightOf weight xs (fun x => group x && other x) +
        weightOf weight xs (fun x => group x && !other x) =
      weightOf weight xs group := by
  induction xs with
  | nil => rfl
  | cons x =>
    simp only [weightOf_cons]
    cases group x <;> cases other x <;> simp <;> omega

theorem weightOf_mono (h : ∀ x ∈ xs, group x = true → other x = true) :
    weightOf weight xs group ≤ weightOf weight xs other := by
  have hinside : weightOf weight xs (fun x => other x && group x) =
      weightOf weight xs group := by
    refine weightOf_congr fun x hx => ?_
    cases hgroup : group x with
    | false => simp
    | true => simp [h x hx hgroup]
  have hsplit : weightOf weight xs (fun x => other x && group x) +
      weightOf weight xs (fun x => other x && !group x) = weightOf weight xs other :=
    weightOf_and_add_and_not
  omega

/-- Two groups within a third weigh no more than it and their overlap. -/
theorem weightOf_add_le {all : α → Bool}
    (hgroup : ∀ x ∈ xs, group x = true → all x = true)
    (hother : ∀ x ∈ xs, other x = true → all x = true) :
    weightOf weight xs group + weightOf weight xs other ≤
      weightOf weight xs all + weightOf weight xs (fun x => group x && other x) := by
  rw [← weightOf_or_add_and]
  refine Nat.add_le_add_right (weightOf_mono fun x hx hor => ?_) _
  rcases Bool.or_eq_true_iff.mp hor with h | h
  · exact hgroup x hx h
  · exact hother x hx h

end Groups

end Foundation
