import Mathlib.Tactic

/-!
Labelled transition systems and their runs. A run records, in order, the
labels of everything that happened, so that a property of a whole run is a
relation between its history and the state it reached. Such a relation is
proved once for the initial states and once for a step.
-/

namespace Foundation

variable {σ ℓ : Type*}

/-- Initial states, with the history they start from, and labelled steps. -/
structure System (σ ℓ : Type*) where
  init : List ℓ → σ → Prop
  step : σ → ℓ → σ → Prop

namespace System

/-- `S.Run history s`: the system can reach `s` with exactly this history. -/
inductive Run (S : System σ ℓ) : List ℓ → σ → Prop
  | start {history : List ℓ} {s : σ} : S.init history s → Run S history s
  | step {history : List ℓ} {s s' : σ} {label : ℓ} :
      Run S history s → S.step s label s' → Run S (history ++ [label]) s'

variable {S : System σ ℓ} {history : List ℓ} {s : σ}

/-- The invariant rule. The step case may use that its source is reachable,
so earlier invariants are available when a later one is proved. -/
theorem Run.invariant {I : List ℓ → σ → Prop} (hrun : S.Run history s)
    (hinit : ∀ h s, S.init h s → I h s)
    (hstep : ∀ h s label s', S.Run h s → I h s → S.step s label s' →
      I (h ++ [label]) s') : I history s := by
  induction hrun with
  | start hstart => exact hinit _ _ hstart
  | step hbefore hnext ih => exact hstep _ _ _ _ hbefore ih hnext

theorem Run.last {label : ℓ} (hrun : S.Run (history ++ [label]) s)
    (hinit : ∀ h s, S.init h s → h = []) :
    ∃ before, S.Run history before ∧ S.step before label s := by
  generalize hfull : history ++ [label] = full at hrun
  cases hrun with
  | start hstart =>
    have hempty := hinit _ _ hstart
    subst hempty
    simp at hfull
  | step hbefore hnext =>
    obtain ⟨rfl, hlabel⟩ := List.append_inj' hfull rfl
    cases hlabel
    exact ⟨_, hbefore, hnext⟩

/-- Drives a system by commands. Each is refused, or gives a label and the state after it. -/
def replay {κ ε : Type*} (exec : σ → κ → Except ε (ℓ × σ)) :
    σ → List ℓ → List κ → Except ε (σ × List ℓ)
  | s, history, [] => .ok (s, history)
  | s, history, command :: rest =>
    (exec s command).bind fun next => replay exec next.2 (history ++ [next.1]) rest

/-- A replay that goes through is a run. -/
theorem replay_run {κ ε : Type*} {exec : σ → κ → Except ε (ℓ × σ)} {commands : List κ}
    {history' : List ℓ} {s' : σ} (hrun : S.Run history s)
    (h : replay exec s history commands = .ok (s', history'))
    (hexec : ∀ s command label s', exec s command = .ok (label, s') → S.step s label s') :
    S.Run history' s' := by
  induction commands generalizing s history with
  | nil =>
    cases h
    exact hrun
  | cons command _ ih =>
    rw [replay] at h
    cases hnext : exec s command with
    | error =>
      rw [hnext] at h
      cases h
    | ok =>
      rw [hnext] at h
      exact ih (hrun.step (hexec _ _ _ _ hnext)) h

/-- The runs of a machine that refuses some inputs: accepted inputs from one start. -/
def accepting {ε : Type*} (step : σ → ℓ → Except ε σ) (start : σ) : System σ ℓ where
  init history s := history = [] ∧ s = start
  step s input s' := step s input = .ok s'

theorem accepting_last {ε : Type*} {step : σ → ℓ → Except ε σ} {start : σ} {input : ℓ}
    (hrun : (accepting step start).Run (history ++ [input]) s) :
    ∃ before, (accepting step start).Run history before ∧ step before input = .ok s :=
  hrun.last fun _ _ hstart => hstart.1

theorem run_of_foldlM {ε : Type*} {step : σ → ℓ → Except ε σ} {start s' : σ} {inputs : List ℓ}
    (hrun : (accepting step start).Run history s)
    (hinputs : inputs.foldlM step s = .ok s') :
    (accepting step start).Run (history ++ inputs) s' := by
  induction inputs generalizing history s with
  | nil =>
    cases hinputs
    rwa [List.append_nil]
  | cons input _ ih =>
    rw [List.foldlM_cons] at hinputs
    cases hnext : step s input with
    | error =>
      rw [hnext] at hinputs
      cases hinputs
    | ok =>
      rw [hnext] at hinputs
      have hrest := ih (hrun.step hnext) hinputs
      rwa [List.append_assoc] at hrest

theorem run_of_accepted {ε : Type*} {step : σ → ℓ → Except ε σ} {start s' : σ}
    {inputs : List ℓ} (hinputs : inputs.foldlM step start = .ok s') :
    (accepting step start).Run inputs s' :=
  run_of_foldlM (.start ⟨rfl, rfl⟩) hinputs

/-- A replay that accepts its inputs is a run to a state with the observed outcome. -/
theorem exists_run_of_replay {ε β : Type*} {step : σ → ℓ → Except ε σ} {start : σ}
    {inputs : List ℓ} {observe : σ → β} {outcome : β}
    (h : (inputs.foldlM step start).map observe = .ok outcome) :
    ∃ s, (accepting step start).Run inputs s ∧ observe s = outcome := by
  cases hinputs : inputs.foldlM step start with
  | error =>
    rw [hinputs] at h
    cases h
  | ok s =>
    rw [hinputs] at h
    exact ⟨s, run_of_accepted hinputs, Except.ok.inj h⟩

end System

/-- Appending an element above everything recorded so far keeps a history
ordered. -/
theorem pairwise_concat {α : Type*} {R : α → α → Prop} {l : List α} {x : α}
    (hl : l.Pairwise R) (hx : ∀ y ∈ l, R y x) : (l ++ [x]).Pairwise R := by
  rw [List.pairwise_append]
  refine ⟨hl, List.pairwise_singleton _ _, ?_⟩
  intro y hy z hz
  rw [List.mem_singleton.mp hz]
  exact hx y hy

end Foundation
