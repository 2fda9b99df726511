import Mathlib.Tactic

/-!
Machines driven by a polling loop. The loop reads a millisecond clock and takes
one step per poll. Progress is proved from one rule: a state that polls can only
keep or move to a goal, and that every poll from some time on moves to the goal,
is left for the goal at most one polling interval after that time.
-/

namespace Foundation

variable {σ : Type*} {step : UInt64 → σ → σ} {clock : ℕ → UInt64} {s s' : σ}
variable {gap horizon : ℕ}

/-- The state after the first `n` polls, the `i`-th of them at time `clock i`. -/
def polled (step : UInt64 → σ → σ) (clock : ℕ → UInt64) (s : σ) : ℕ → σ
  | 0 => s
  | n + 1 => step (clock n) (polled step clock s n)

/-- The clock never goes back, and until `horizon` every interval of `gap`
milliseconds after the first poll has a poll. -/
structure Polls (gap horizon : ℕ) (clock : ℕ → UInt64) : Prop where
  monotone : Monotone fun n => (clock n).toNat
  prompt : ∀ time, (clock 0).toNat ≤ time → time + gap ≤ horizon →
    ∃ n, time < (clock n).toNat ∧ (clock n).toNat ≤ time + gap

/-- After `i` polls another one follows at most `gap` past a due time. -/
theorem Polls.next {i due : ℕ} (hclock : Polls gap horizon clock)
    (hroom : max (clock (i - 1)).toNat due + gap ≤ horizon) :
    ∃ n, i ≤ n ∧ due ≤ (clock n).toNat ∧
      (clock n).toNat ≤ max (clock (i - 1)).toNat due + gap := by
  have hfirst : (clock 0).toNat ≤ (clock (i - 1)).toNat :=
    hclock.monotone (Nat.zero_le _)
  obtain ⟨n, _, hbefore⟩ := hclock.prompt _ (hfirst.trans (le_max_left _ due)) hroom
  refine ⟨n, ?_, ?_, hbefore⟩
  · by_contra hearly
    have hle : (clock n).toNat ≤ (clock (i - 1)).toNat := hclock.monotone (by omega)
    omega
  · omega

/-- Along polls that either keep `s` or reach the goal, the goal is reached or `s`
is kept. -/
theorem polled_keeps_or {Q : UInt64 → σ → Prop} {i n : ℕ} (hle : i ≤ n)
    (hs : polled step clock s i = s')
    (hstay : ∀ now, step now s' = s' ∨ Q now (step now s')) :
    polled step clock s n = s' ∨
      ∃ k, k < n ∧ Q (clock k) (polled step clock s (k + 1)) := by
  induction n, hle using Nat.le_induction with
  | base => exact .inl hs
  | succ n _ ih =>
    rcases ih with hkept | ⟨k, hk, hgoal⟩
    · rcases hstay (clock n) with hsame | hgoal
      · left
        rw [polled, hkept, hsame]
      · right
        refine ⟨n, Nat.lt_succ_self n, ?_⟩
        rw [polled, hkept]
        exact hgoal
    · exact .inr ⟨k, hk.trans (Nat.lt_succ_self n), hgoal⟩

/-- The progress rule. -/
theorem Polls.leads {Q : UInt64 → σ → Prop} {i due : ℕ}
    (hclock : Polls gap horizon clock)
    (hroom : max (clock (i - 1)).toNat due + gap ≤ horizon)
    (hs : polled step clock s i = s')
    (hstay : ∀ now, step now s' = s' ∨ Q now (step now s'))
    (hdue : ∀ now, due ≤ now.toNat → Q now (step now s')) :
    ∃ k, (clock k).toNat ≤ max (clock (i - 1)).toNat due + gap ∧
      Q (clock k) (polled step clock s (k + 1)) := by
  obtain ⟨n, hle, hreached, hbefore⟩ := hclock.next hroom
  rcases polled_keeps_or hle hs hstay with hkept | ⟨k, hk, hgoal⟩
  · refine ⟨n, hbefore, ?_⟩
    rw [polled, hkept]
    exact hdue _ hreached
  · have hmono : (clock k).toNat ≤ (clock n).toNat := hclock.monotone hk.le
    exact ⟨k, hmono.trans hbefore, hgoal⟩

/-- An invariant of the step holds after any number of polls. -/
theorem polled_invariant {I : σ → Prop} (hinit : I s)
    (hstep : ∀ now s, I s → I (step now s)) (n : ℕ) : I (polled step clock s n) := by
  induction n with
  | zero => exact hinit
  | succ _ ih => exact hstep _ _ ih

end Foundation
