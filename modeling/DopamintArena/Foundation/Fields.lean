import Mathlib.Tactic

/-!
Code that assigns fields one after the other and may throw in between. Unlike
a function into `Except`, such code leaves behind whatever it had assigned when
it threw. It is atomic if it does all its checks first: then it is a function
into `Except` after all, and a throw leaves the fields as they were.
-/

namespace Foundation

variable {ε σ α β : Type}
variable {m : EStateM ε σ α} {s : σ} {r : Except ε (α × σ)} {f : σ → Except ε α}
variable {g : α → EStateM ε σ β}

/-- Evaluates something on the fields that may throw but assigns nothing. -/
def reading (f : σ → Except ε α) : EStateM ε σ α := fun s =>
  match f s with
  | .ok a => .ok a s
  | .error e => .error e s

theorem run_reading (f : σ → Except ε α) (s : σ) :
    (reading f).run s =
      match f s with
      | .ok a => .ok a s
      | .error e => .error e s := rfl

/-- From the fields `s`, `m` does what `r` says, and changes nothing if that is to throw. -/
def Atomic (m : EStateM ε σ α) (s : σ) (r : Except ε (α × σ)) : Prop :=
  m.run s =
    match r with
    | .ok (a, s') => .ok a s'
    | .error e => .error e s

theorem Atomic.run_ok {a : α} {s' : σ} (h : Atomic m s (.ok (a, s'))) : m.run s = .ok a s' := h

theorem Atomic.run_error {e : ε} (h : Atomic m s (.error e)) : m.run s = .error e s := h

theorem Atomic.run_bind_ok {a : α} {s' : σ} (h : Atomic m s (.ok (a, s'))) :
    (m >>= g).run s = (g a).run s' := by
  rw [EStateM.run_bind, h.run_ok]

theorem Atomic.run_bind_error {e : ε} (h : Atomic m s (.error e)) :
    (m >>= g).run s = .error e s := by
  rw [EStateM.run_bind, h.run_error]

theorem atomic_pure (a : α) (s : σ) : Atomic (pure a : EStateM ε σ α) s (.ok (a, s)) := rfl

theorem atomic_modify (u : σ → σ) (s : σ) :
    Atomic (modify u : EStateM ε σ PUnit) s (.ok ((), u s)) := rfl

theorem atomic_throw {e : ε} (hf : f s = .error e) :
    Atomic (reading f) s (.error e) := by
  simp [Atomic, EStateM.run, reading, hf]

/-- Checks may come before anything atomic. -/
theorem Atomic.reading_bind {h : α → Except ε (β × σ)} (hg : ∀ a, Atomic (g a) s (h a)) :
    Atomic (reading f >>= g) s (f s >>= h) := by
  simp only [Atomic, EStateM.run, bind, EStateM.bind, reading, Except.bind]
  cases f s with
  | ok a => exact hg a
  | error => rfl

theorem Atomic.reading_ok_bind {a : α} {r : Except ε (β × σ)} (hf : f s = .ok a)
    (hg : Atomic (g a) s r) :
    Atomic (reading f >>= g) s r := by
  simp only [Atomic, EStateM.run, bind, EStateM.bind, reading, hf]
  exact hg

theorem Atomic.reading_error_bind {e : ε} (hf : f s = .error e) :
    Atomic (reading f >>= g) s (.error e) := by
  simp only [Atomic, EStateM.run, bind, EStateM.bind, reading, hf]

/-- An assignment may only be followed by code that does not throw. -/
theorem Atomic.modify_bind {u : σ → σ} {g : PUnit → EStateM ε σ β} {result : β × σ}
    (hg : Atomic (g ⟨⟩) (u s) (.ok result)) : Atomic (modify u >>= g) s (.ok result) := hg

end Foundation
