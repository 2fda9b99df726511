import Mathlib.Tactic

/-!
Retrying by halves. A group is tried at once; the outcome is final for all its
members, or it asks for the group to be halved and each half tried. Halving
stops at single members and after a given number of levels, and the outcome is
then attributed to whoever is left in the group.

`blocks` are the groups that halving can get down to; a member shares the fate of
its block.
-/

namespace Foundation.Bisection

variable {ι σ ρ : Type}

/-- The outcome of trying a group. -/
inductive Trial (ρ : Type)
  | final (outcome : ρ)
  | halve (outcome : ρ)

/-- The smallest groups that `levels` halvings lead to. -/
def blocks : (levels : ℕ) → List ι → List (List ι)
  | 0, group => [group]
  | levels + 1, group =>
    if group.length ≤ 1 then [group]
    else blocks levels (group.take (group.length / 2)) ++
      blocks levels (group.drop (group.length / 2))

theorem blocks_of_last {levels : ℕ} {group : List ι} (h : levels = 0 ∨ group.length ≤ 1) :
    blocks levels group = [group] := by
  cases levels with
  | zero => rfl
  | succ levels => rw [blocks, if_pos (h.resolve_left (Nat.succ_ne_zero levels))]

/-- Enough levels get down to single members. -/
theorem length_le_one_of_mem_blocks {levels : ℕ} {group : List ι}
    (h : group.length ≤ 2 ^ levels) : ∀ block ∈ blocks levels group, block.length ≤ 1 := by
  induction levels generalizing group with
  | zero =>
    intro block hblock
    rw [blocks, List.mem_singleton] at hblock
    rw [hblock]
    exact h
  | succ _ ih =>
    intro block hblock
    rw [pow_succ] at h
    rw [blocks] at hblock
    split at hblock
    · rename_i hone
      rw [List.mem_singleton] at hblock
      rw [hblock]
      exact hone
    · rcases List.mem_append.mp hblock with hleft | hright
      · exact ih (by rw [List.length_take]; omega) block hleft
      · exact ih (by rw [List.length_drop]; omega) block hright

theorem exists_mem_blocks {levels : ℕ} {group : List ι} {i : ι} :
    (∃ block ∈ blocks levels group, i ∈ block) ↔ i ∈ group := by
  induction levels generalizing group with
  | zero => simp [blocks]
  | succ _ ih =>
    rw [blocks]
    split
    · simp
    · have hsplit : i ∈ group ↔ i ∈ group.take (group.length / 2) ∨
          i ∈ group.drop (group.length / 2) := by
        rw [← List.mem_append, List.take_append_drop]
      rw [hsplit, ← ih, ← ih]
      simp [or_and_right, exists_or]

/-- A whole retry with its outcomes: of a halved group the right half is tried first. -/
inductive Run (trial : σ → List ι → Trial ρ × σ) :
    (levels : ℕ) → List ι → σ → List (ι × ρ) → σ → Prop
  | none {levels : ℕ} {s : σ} : Run trial levels [] s [] s
  | final {levels : ℕ} {group : List ι} {s s' : σ} {outcome : ρ} :
      group ≠ [] → trial s group = (.final outcome, s') →
        Run trial levels group s (group.map (·, outcome)) s'
  | last {levels : ℕ} {group : List ι} {s s' : σ} {outcome : ρ} :
      group ≠ [] → trial s group = (.halve outcome, s') → levels = 0 ∨ group.length ≤ 1 →
        Run trial levels group s (group.map (·, outcome)) s'
  | halve {levels : ℕ} {group : List ι} {s s' s₁ s₂ : σ} {outcome : ρ}
      {right left : List (ι × ρ)} :
      1 < group.length → trial s group = (.halve outcome, s') →
        Run trial levels (group.drop (group.length / 2)) s' right s₁ →
        Run trial levels (group.take (group.length / 2)) s₁ left s₂ →
        Run trial (levels + 1) group s (right ++ left) s₂

namespace Run

variable {trial : σ → List ι → Trial ρ × σ} {levels : ℕ} {group : List ι} {s s' : σ}
  {results : List (ι × ρ)}
variable {Ready : σ → List ι → Prop}

theorem members (h : Run trial levels group s results s') :
    (results.map Prod.fst).Perm group := by
  induction h with
  | none => exact .refl _
  | final | last => simp [Function.comp_def]
  | halve _ _ _ _ ihright ihleft =>
    rw [List.map_append]
    refine (ihright.append ihleft).trans (List.perm_append_comm.trans ?_)
    rw [List.take_append_drop]

/-- What holds of single trials, and of a run if of its parts, holds of the run. -/
theorem rel (T : σ → List (ι × ρ) → σ → Prop) (hnone : ∀ s, T s [] s)
    (hfinal : ∀ {s group outcome s'}, trial s group = (.final outcome, s') →
      T s (group.map (·, outcome)) s')
    (hlast : ∀ {s group outcome s'}, trial s group = (.halve outcome, s') →
      T s (group.map (·, outcome)) s')
    (hhalve : ∀ {s group outcome s' results s''}, trial s group = (.halve outcome, s') →
      T s' results s'' → T s results s'')
    (hjoin : ∀ {s results s' results' s''}, T s results s' → T s' results' s'' →
      T s (results ++ results') s'') (h : Run trial levels group s results s') :
    T s results s' := by
  induction h with
  | none => exact hnone _
  | final _ htrial => exact hfinal htrial
  | last _ htrial => exact hlast htrial
  | halve _ htrial _ _ ihright ihleft => exact hhalve htrial (hjoin ihright ihleft)

/-- What a group needs is kept when it is halved, and for the rest when a part of it is tried. -/
structure Divides (trial : σ → List ι → Trial ρ × σ) (Ready : σ → List ι → Prop) : Prop where
  right : ∀ {s group others}, Ready s (group ++ others) → Ready s others
  halved : ∀ {s others group outcome s'}, Ready s (others ++ group) →
    trial s group = (.halve outcome, s') → Ready s' (others ++ group)
  after : ∀ {s others group outcome s'}, Ready s (others ++ group) →
    trial s group = (outcome, s') → Ready s' others

theorem Divides.run (hdivides : Divides trial Ready) (h : Run trial levels group s results s')
    {others : List ι} (hready : Ready s (others ++ group)) : Ready s' others := by
  induction h generalizing others with
  | none =>
    rw [List.append_nil] at hready
    exact hready
  | final _ htrial | last _ htrial => exact hdivides.after hready htrial
  | halve _ htrial _ _ ihright ihleft =>
    apply ihleft
    apply ihright
    rw [List.append_assoc, List.take_append_drop]
    exact hdivides.halved hready htrial

/-- A block gets one outcome: that of a larger group, where this is final, or its own. -/
theorem of_blocks {P : List ι → ρ → Prop} (hdivides : Divides trial Ready)
    (hfinal : ∀ {s group outcome s'}, Ready s group → trial s group = (.final outcome, s') →
      ∀ block ⊆ group, P block outcome)
    (hlast : ∀ {s group outcome s'}, Ready s group → group ≠ [] →
      trial s group = (.halve outcome, s') → P group outcome)
    (h : Run trial levels group s results s') (hready : Ready s group) :
    ∀ block ∈ blocks levels group, ∀ i ∈ block, ∃ outcome, (i, outcome) ∈ results ∧
      P block outcome := by
  induction h with
  | none =>
    intro block hblock i hi
    have hmem := exists_mem_blocks.mp ⟨block, hblock, hi⟩
    cases hmem
  | @final _ group _ _ _ _ htrial =>
    intro block hblock i hi
    have hsub : block ⊆ group := fun j hj => exists_mem_blocks.mp ⟨block, hblock, hj⟩
    exact ⟨_, List.mem_map_of_mem (hsub hi), hfinal hready htrial block hsub⟩
  | last hgroup htrial hend =>
    intro block hblock i hi
    rw [blocks_of_last hend, List.mem_singleton] at hblock
    subst hblock
    exact ⟨_, List.mem_map_of_mem hi, hlast hready hgroup htrial⟩
  | @halve _ group _ s' _ _ outcome _ _ hlong htrial hrunRight _ ihright ihleft =>
    intro block hblock i hi
    have hparts : Ready s' (group.take (group.length / 2) ++ group.drop (group.length / 2)) := by
      rw [List.take_append_drop]
      rw [← List.nil_append group] at hready ⊢
      exact hdivides.halved hready htrial
    rw [blocks, if_neg (not_le.mpr hlong)] at hblock
    rcases List.mem_append.mp hblock with hblock | hblock
    · obtain ⟨outcome, hmem, hp⟩ := ihleft (hdivides.run hrunRight hparts) block hblock i hi
      exact ⟨outcome, List.mem_append_right _ hmem, hp⟩
    · obtain ⟨outcome, hmem, hp⟩ := ihright (hdivides.right hparts) block hblock i hi
      exact ⟨outcome, List.mem_append_left _ hmem, hp⟩

end Run

end Foundation.Bisection
