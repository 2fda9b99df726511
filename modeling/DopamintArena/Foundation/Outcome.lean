import Mathlib.Tactic

/-!
Fallible code as `Except`. A modelled function is a sequence of guards and
of calls that may themselves fail; the lemmas here turn "this block returned
`r`" into the conjunction of its guards and the equation for `r`, so that a
function's specification is read off its body once and never unfolded again.
-/

namespace Foundation

universe u

variable {ε α β : Type u}
variable {condition : Prop} {error : ε} {x : Except ε α} {f : α → Except ε β} {a : α} {g : α → β}
variable {xs : List α} {ys : List β}

/-- Stop with `error` unless `condition` holds. -/
def require {ε : Type u} (condition : Prop) [Decidable condition] (error : ε) :
    Except ε PUnit.{u + 1} :=
  if condition then .ok ⟨⟩ else .error error

@[simp] theorem require_ok_iff [Decidable condition] {u : PUnit} :
    require condition error = .ok u ↔ condition := by
  unfold require
  split <;> simp_all

theorem require_error_iff [Decidable condition] {e : ε} :
    require condition error = .error e ↔ ¬condition ∧ e = error := by
  unfold require
  split <;> simp_all [eq_comm]

theorem require_of [Decidable condition] (h : condition) :
    require condition error = .ok ⟨⟩ := if_pos h

theorem require_of_not [Decidable condition] (h : ¬condition) :
    require condition error = .error error := if_neg h

@[simp] theorem bind_ok_iff {b : β} :
    (x >>= f) = .ok b ↔ ∃ a, x = .ok a ∧ f a = .ok b := by
  cases x <;> simp [bind, Except.bind]

theorem bind_error_iff {e : ε} :
    (x >>= f) = .error e ↔ x = .error e ∨ ∃ a, x = .ok a ∧ f a = .error e := by
  cases x <;> simp [bind, Except.bind]

@[simp] theorem pure_ok_iff {b : α} : (pure a : Except ε α) = .ok b ↔ b = a := by
  simp [pure, Except.pure, eq_comm]

/-- The rules that read the guards and the results off a block that returned. -/
theorem returned :
    (∀ {ε α β : Type u} {x : Except ε α} {f : α → Except ε β} {b : β},
      (x >>= f) = .ok b ↔ ∃ a, x = .ok a ∧ f a = .ok b) ∧
    (∀ {ε α : Type u} {a b : α}, (pure a : Except ε α) = .ok b ↔ b = a) ∧
    (∀ {ε : Type u} {condition : Prop} [Decidable condition] {error : ε} {v : PUnit.{u + 1}},
      require condition error = .ok v ↔ condition) ∧
    ∀ {α : Sort (u + 1)} {p : Prop} [Nonempty α], (∃ _ : α, p) ↔ p :=
  ⟨bind_ok_iff, pure_ok_iff, require_ok_iff, exists_const _⟩

theorem ok_bind : (Except.ok a >>= f) = f a := rfl

theorem map_bind {γ : Type u} {g : β → γ} :
    (x >>= f).map g = x >>= fun a => (f a).map g := by
  cases x <;> rfl

theorem bind_map {γ : Type u} {f : α → β} {g : β → Except ε γ} :
    x.map f >>= g = x >>= fun a => g (f a) := by
  cases x <;> rfl

theorem map_ok_iff {f : α → β} {b : β} :
    x.map f = .ok b ↔ ∃ a, x = .ok a ∧ f a = b := by
  cases x <;> simp [Except.map]

theorem mapError_ok_iff {ε' : Type u} {f : ε → ε'} :
    x.mapError f = .ok a ↔ x = .ok a := by
  cases x <;> simp [Except.mapError]

theorem map_pure : (pure a : Except ε α).map g = .ok (g a) := rfl

theorem mapM_ok_of_forall (h : ∀ x ∈ xs, f x = .ok (g x)) : xs.mapM f = .ok (xs.map g) := by
  induction xs with
  | nil => rfl
  | cons x _ ih =>
    rw [List.mapM_cons, h x (by simp), ih fun y hy => h y (List.mem_cons_of_mem _ hy)]
    rfl

theorem mapM_require_ok_iff {ys : List α} {P : α → Prop} [DecidablePred P] {error : α → ε} :
    (xs.mapM fun x => do
      require (P x) (error x)
      pure x) = .ok ys ↔ (∀ x ∈ xs, P x) ∧ ys = xs := by
  induction xs generalizing ys with
  | nil => simp [List.mapM_nil]
  | cons x rest ih =>
    simp only [List.mapM_cons, bind_ok_iff, require_ok_iff, exists_const, pure_ok_iff, ih,
      List.forall_mem_cons]
    constructor
    · rintro ⟨_, ⟨hx, rfl⟩, _, ⟨hrest, rfl⟩, rfl⟩
      exact ⟨⟨hx, hrest⟩, rfl⟩
    · rintro ⟨⟨hx, hrest⟩, rfl⟩
      exact ⟨x, ⟨hx, rfl⟩, rest, ⟨hrest, rfl⟩, rfl⟩

theorem forall_ok_of_mapM (h : xs.mapM f = .ok ys) : ∀ x ∈ xs, ∃ y, f x = .ok y := by
  induction xs generalizing ys with
  | nil => simp
  | cons _ _ ih =>
    simp only [List.mapM_cons, bind_ok_iff] at h
    obtain ⟨y, hy, _, hlater, -⟩ := h
    exact List.forall_mem_cons.mpr ⟨⟨y, hy⟩, ih hlater⟩

theorem exists_error_of_mapM {e : ε} (h : xs.mapM f = .error e) : ∃ x ∈ xs, f x = .error e := by
  induction xs with
  | nil => cases h
  | cons x rest ih =>
    rw [List.mapM_cons] at h
    cases hx : f x with
    | error =>
      rw [hx] at h
      cases h
      exact ⟨x, List.mem_cons_self, hx⟩
    | ok =>
      rw [hx] at h
      cases hrest : rest.mapM f with
      | error =>
        rw [hrest] at h
        cases h
        obtain ⟨x', hmem, hx'⟩ := ih hrest
        exact ⟨x', List.mem_cons_of_mem _ hmem, hx'⟩
      | ok =>
        rw [hrest] at h
        cases h

theorem forM_ok_iff {f : α → Except ε PUnit.{u + 1}} :
    xs.forM f = .ok ⟨⟩ ↔ ∀ x ∈ xs, f x = .ok ⟨⟩ := by
  induction xs with
  | nil => simp [pure, Except.pure]
  | cons _ _ ih =>
    rw [List.forM, bind_ok_iff, List.forall_mem_cons]
    constructor
    · rintro ⟨⟨⟩, hx, hrest⟩
      exact ⟨hx, ih.mp hrest⟩
    · rintro ⟨hx, hrest⟩
      exact ⟨⟨⟩, hx, ih.mpr hrest⟩

theorem mapM_concat {x : α} {y : β} (hxs : xs.mapM f = .ok ys) (hx : f x = .ok y) :
    (xs ++ [x]).mapM f = .ok (ys ++ [y]) := by
  rw [List.mapM_append, hxs, List.mapM_cons, hx, List.mapM_nil]
  rfl

theorem mapM_map {γ : Type u} (xs : List α) (f : α → Except ε β) (g : β → γ) :
    (xs.mapM fun x => (f x).map g) = (xs.mapM f).map (List.map g) := by
  induction xs with
  | nil => rfl
  | cons x rest ih =>
    rw [List.mapM_cons, List.mapM_cons, ih, bind_map, map_bind]
    cases f x with
    | error => rfl
    | ok => cases rest.mapM f <;> rfl

theorem exists_ok_of_isOk (h : x.isOk = true) :
    ∃ a, x = .ok a := by
  cases x with
  | error => cases h
  | ok a => exact ⟨a, rfl⟩

end Foundation
