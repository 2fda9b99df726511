import DopamintArena.Foundation.Outcome

/-!
Machines that accept or refuse an input and show something of their state.
Two of them behave alike from a pair of states if, along every list of inputs
both accept, they show the same and refuse the same. A relation that one step
preserves is enough to prove it.
-/

namespace Foundation

/-- A machine over states `σ` and inputs `ι` that shows a `ν` and refuses with an `ε`. -/
structure Reactive (σ ι ν ε : Type) where
  step : σ → ι → Except ε σ
  view : σ → ν

namespace Reactive

variable {σ σ' ι ν ε ε' : Type}

/-- The state after a list of inputs, if all of them are accepted. -/
def play (m : Reactive σ ι ν ε) : σ → List ι → Except ε σ
  | s, [] => .ok s
  | s, input :: rest => do
    let next ← m.step s input
    m.play next rest

def Accepts (m : Reactive σ ι ν ε) (s : σ) (input : ι) : Prop :=
  ∃ next, m.step s input = .ok next

/-- What two states show and accept now. -/
structure Alike (m : Reactive σ ι ν ε) (m' : Reactive σ' ι ν ε') (s : σ) (s' : σ') : Prop where
  view : m.view s = m'.view s'
  accepts : ∀ input, m.Accepts s input ↔ m'.Accepts s' input

/-- The two machines show and accept the same after all that both accept. -/
def SameBehaviour (m : Reactive σ ι ν ε) (m' : Reactive σ' ι ν ε') (s : σ) (s' : σ') : Prop :=
  ∀ inputs t t', m.play s inputs = .ok t → m'.play s' inputs = .ok t' → Alike m m' t t'

/-- Related states are alike, and stay related. -/
structure Bisimulation (m : Reactive σ ι ν ε) (m' : Reactive σ' ι ν ε')
    (related : σ → σ' → Prop) : Prop where
  alike : ∀ {s s'}, related s s' → Alike m m' s s'
  step : ∀ {s s' input t t'}, related s s' → m.step s input = .ok t →
    m'.step s' input = .ok t' → related t t'

variable {m : Reactive σ ι ν ε} {m' : Reactive σ' ι ν ε'} {s : σ} {s' : σ'}
variable {inputs : List ι} {related : σ → σ' → Prop} {erase : σ → σ}

theorem play_cons_ok_iff {input : ι} {rest : List ι} {t : σ} :
    m.play s (input :: rest) = .ok t ↔
      ∃ next, m.step s input = .ok next ∧ m.play next rest = .ok t := by
  simp [play, bind_ok_iff]

/-- What every step of both machines keeps holds after all that both accept. -/
theorem play_related (related : σ → σ' → Prop)
    (hstep : ∀ {s s' input t t'}, related s s' → m.step s input = .ok t →
      m'.step s' input = .ok t' → related t t') (hstart : related s s') {inputs : List ι} {t : σ}
    {t' : σ'} (ht : m.play s inputs = .ok t) (ht' : m'.play s' inputs = .ok t') : related t t' := by
  induction inputs generalizing s s' with
  | nil =>
    cases ht
    cases ht'
    exact hstart
  | cons _ _ ih =>
    obtain ⟨_, hnext, ht⟩ := play_cons_ok_iff.mp ht
    obtain ⟨_, hnext', ht'⟩ := play_cons_ok_iff.mp ht'
    exact ih (hstep hstart hnext hnext') ht ht'

/-- What every step keeps holds after every accepted input. -/
theorem play_invariant (invariant : σ → Prop)
    (hstep : ∀ {s input t}, invariant s → m.step s input = .ok t → invariant t)
    (hstart : invariant s) {t : σ} (ht : m.play s inputs = .ok t) :
    invariant t :=
  play_related (fun s _ => invariant s) (fun hs hnext _ => hstep hs hnext) hstart ht ht

/-- Inputs that look the same to states that look the same show the same, or are refused
alike. -/
theorem play_view_eq {τ : Type} {look : σ → τ} {same : ι → ι → Prop}
    (hview : ∀ {s s'}, look s = look s' → m.view s = m.view s')
    (hstep : ∀ {s s' input input'}, look s = look s' → same input input' →
      (m.step s input).map look = (m.step s' input').map look) {s s' : σ}
    (hstart : look s = look s') {inputs' : List ι} (hinputs : List.Forall₂ same inputs inputs') :
    (m.play s inputs).map m.view = (m.play s' inputs').map m.view := by
  induction hinputs generalizing s s' with
  | nil => exact congrArg Except.ok (hview hstart)
  | @cons input input' _ _ hsame _ ih =>
    have hnext := hstep hstart hsame
    rw [play, play]
    cases h : m.step s input <;> cases h' : m.step s' input' <;> rw [h, h'] at hnext
    case error.error => exact congrArg Except.error (Except.error.inj hnext)
    case ok.ok => exact ih (Except.ok.inj hnext)
    all_goals cases hnext

theorem Bisimulation.sameBehaviour (h : Bisimulation m m' related) (hstart : related s s') :
    SameBehaviour m m' s s' :=
  fun _ _ _ ht ht' => h.alike (play_related related h.step hstart ht ht')

/-- The same inputs are accepted from related states, and what related states agree on is the same
after them. -/
theorem Bisimulation.play_map_eq (h : Bisimulation m m' related) {τ : Type} {look : σ → τ}
    {look' : σ' → τ} (hlook : ∀ {s s'}, related s s' → look s = look' s') (hstart : related s s')
    (inputs : List ι) :
    (m.play s inputs).toOption.map look = (m'.play s' inputs).toOption.map look' := by
  induction inputs generalizing s s' with
  | nil => exact congrArg some (hlook hstart)
  | cons input _ ih =>
    have haccepts := (h.alike hstart).accepts input
    rw [Accepts, Accepts] at haccepts
    rw [play, play]
    cases hnext : m.step s input <;> cases hnext' : m'.step s' input <;>
      rw [hnext, hnext'] at haccepts
    case error.error => rfl
    case ok.ok => exact ih (h.step hstart hnext hnext')
    all_goals simp at haccepts

/-- The machine never reads what `erase` takes out of a state. -/
structure Blind (m : Reactive σ ι ν ε) (erase : σ → σ) : Prop where
  view : ∀ s, m.view (erase s) = m.view s
  step : ∀ s input, (m.step (erase s) input).map erase = (m.step s input).map erase

theorem Blind.step_map (h : Blind m erase) {s s' : σ} (herase : erase s = erase s') (input : ι) :
    (m.step s input).map erase = (m.step s' input).map erase := by
  rw [← h.step s, ← h.step s', herase]

theorem Blind.accepts (h : Blind m erase) {s s' : σ} {input : ι} (herase : erase s = erase s')
    (haccepts : m.Accepts s input) : m.Accepts s' input := by
  obtain ⟨_, hnext⟩ := haccepts
  have hmap := h.step_map herase input
  rw [hnext] at hmap
  cases hs' : m.step s' input with
  | error => rw [hs'] at hmap; cases hmap
  | ok next' => exact ⟨next', hs'⟩

theorem Blind.bisimulation (h : Blind m erase) :
    Bisimulation m m fun s s' => erase s = erase s' where
  alike {s s'} herase :=
    ⟨by rw [← h.view s, ← h.view s', herase],
      fun _ => ⟨h.accepts herase, h.accepts herase.symm⟩⟩
  step {s s' input t t'} herase ht ht' := by
    have hmap := h.step_map herase input
    rw [ht, ht'] at hmap
    exact Except.ok.inj hmap

end Reactive

end Foundation
