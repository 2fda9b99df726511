import Mathlib.Tactic

/-!
Where values come from in a straight-line program. Every place holds a value with
a set of origins. An operation reads some places; what it makes, and what it may
change in the places it reads, derives from everything it read. Nothing is assumed
about what an operation does with its values.

Whether a bad origin reaches an operation can then be read off the program: it
does exactly if some operation names a place that held one from the start.
-/

namespace Foundation

variable {π ο : Type*}

/-- An operation reads its places and makes a new one. -/
structure Operation (π : Type*) where
  uses : List π
  makes : π

namespace Taint

/-- The origins of what the places hold. -/
abbrev Flow (π ο : Type*) := π → Set ο

variable {flow initial : Flow π ο} {bad : Set ο}

def reaching (flow : Flow π ο) (op : Operation π) : Set ο := {o | ∃ p ∈ op.uses, o ∈ flow p}

def advance (flow : Flow π ο) (op : Operation π) : Flow π ο :=
  fun p => flow p ∪ {o | (p ∈ op.uses ∨ p = op.makes) ∧ o ∈ reaching flow op}

/-- Nothing bad is read by any operation of the program. -/
def Clean (bad : Set ο) : Flow π ο → List (Operation π) → Prop
  | _, [] => True
  | flow, op :: rest => (∀ o ∈ reaching flow op, o ∉ bad) ∧ Clean bad (advance flow op) rest

theorem subset_advance (flow : Flow π ο) (op : Operation π) (p : π) :
    flow p ⊆ advance flow op p := Set.subset_union_left

theorem clean_iff_of_spread {program : List (Operation π)}
    (hgrown : ∀ p, initial p ⊆ flow p) (hspread : ∀ p, ∀ o ∈ flow p, o ∈ bad → o ∈ initial p) :
    Clean bad flow program ↔ ∀ op ∈ program, ∀ p ∈ op.uses, ∀ o ∈ initial p, o ∉ bad := by
  induction program generalizing flow with
  | nil => simp [Clean]
  | cons op _ ih =>
    have hhead : (∀ o ∈ reaching flow op, o ∉ bad) ↔ ∀ p ∈ op.uses, ∀ o ∈ initial p, o ∉ bad := by
      constructor
      · intro h p hp o ho
        exact h o ⟨p, hp, hgrown p ho⟩
      · rintro h o ⟨p, hp, ho⟩ hbad
        exact h p hp o (hspread p o ho hbad) hbad
    rw [Clean, hhead, List.forall_mem_cons]
    refine and_congr_right fun hop => ?_
    apply ih
    · exact fun p => (hgrown p).trans (subset_advance flow op p)
    · intro p o ho hbad
      rcases ho with hold | ⟨-, hread⟩
      · exact hspread p o hold hbad
      · exact absurd hbad (hhead.mpr hop o hread)

/-- A program is clean exactly if no operation names a place that is bad from the start. -/
theorem clean_iff {program : List (Operation π)} :
    Clean bad initial program ↔ ∀ op ∈ program, ∀ p ∈ op.uses, ∀ o ∈ initial p, o ∉ bad :=
  clean_iff_of_spread (fun _ => subset_rfl) fun _ _ ho _ => ho

end Taint

end Foundation
