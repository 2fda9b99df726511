import DopamintArena.Games.BombIt
import Mathlib.Order.Bounds.Basic

/-!
The chain reaction as a least set. `resolveExplosions` works on positions of the
bomb list and repeats a scan until it finds nothing new. What goes off is the least
set of bombs that contains the due ones and every bomb on a blast cell of another
one of it, whatever the order of the list. Cells are the numbers that `idx` gives
them, as in the source.
-/

namespace DopamintArena.Games.BombIt

open Foundation

/-- The set contains the due bombs, and with a bomb every bomb on one of its blast cells. -/
structure Ignites (grid : Bytes) (bombs : List BombItBomb) (set : Set BombItBomb) : Prop where
  due : ∀ b ∈ bombs, b.fuse ≤ 0 → b ∈ set
  reached : ∀ c ∈ set, ∀ b ∈ bombs, idx b.row b.col ∈ blastCellsFor grid c → b ∈ set

/-- The bombs that go off. -/
inductive Detonates (grid : Bytes) (bombs : List BombItBomb) : BombItBomb → Prop
  | due {b : BombItBomb} (hb : b ∈ bombs) (hfuse : b.fuse ≤ 0) : Detonates grid bombs b
  | reached {b c : BombItBomb} (hc : Detonates grid bombs c) (hb : b ∈ bombs)
      (hcell : idx b.row b.col ∈ blastCellsFor grid c) : Detonates grid bombs b

variable {grid : Bytes} {bombs : List BombItBomb}

theorem Detonates.mem {b : BombItBomb} (h : Detonates grid bombs b) : b ∈ bombs := by
  cases h with
  | due hb => exact hb
  | reached _ hb => exact hb

theorem detonates_isLeast :
    IsLeast {set | Ignites grid bombs set} {b | Detonates grid bombs b} := by
  refine ⟨⟨fun b => .due, fun c hc b => .reached hc⟩, ?_⟩
  intro set hset b hb
  induction hb with
  | due hb hfuse => exact hset.due _ hb hfuse
  | reached _ hb hcell ih => exact hset.reached _ ih _ hb hcell

theorem detonates_congr {bombs' : List BombItBomb} (h : ∀ b, b ∈ bombs' ↔ b ∈ bombs)
    (b : BombItBomb) : Detonates grid bombs' b ↔ Detonates grid bombs b := by
  have hset : {set | Ignites grid bombs' set} = {set | Ignites grid bombs set} := by
    ext set
    refine ⟨fun hset => ⟨?_, ?_⟩, fun hset => ⟨?_, ?_⟩⟩
    · exact fun b hb => hset.due b ((h b).mpr hb)
    · exact fun c hc b hb => hset.reached c hc b ((h b).mpr hb)
    · exact fun b hb => hset.due b ((h b).mp hb)
    · exact fun c hc b hb => hset.reached c hc b ((h b).mp hb)
  have hleast : IsLeast {set | Ignites grid bombs' set} {b | Detonates grid bombs' b} :=
    detonates_isLeast
  rw [hset] at hleast
  exact Set.ext_iff.mp (hleast.unique detonates_isLeast) b

def dueBombs (bombs : List BombItBomb) : List Nat :=
  (List.range bombs.length).filter fun i => (bombs[i]?).any fun b => decide (b.fuse ≤ 0)

/-- What a scan adds to the bombs that go off. -/
def reachedBy (grid : Bytes) (bombs : List BombItBomb) (detonating : List Nat) : List Nat :=
  (List.range bombs.length).filter fun i => !detonating.contains i &&
    (bombs[i]?).any fun b => (blastUnion grid bombs detonating).contains (idx b.row b.col)

variable {detonating : List Nat} {i : Nat}

theorem mem_dueBombs_iff : i ∈ dueBombs bombs ↔ ∃ b, bombs[i]? = some b ∧ b.fuse ≤ 0 := by
  simp only [dueBombs, List.mem_filter, List.mem_range, Option.any_eq_true, decide_eq_true_eq]
  refine and_iff_right_of_imp ?_
  rintro ⟨_, hb, -⟩
  exact (List.getElem?_eq_some_iff.mp hb).1

theorem mem_blastUnion_iff {cell : Int} : cell ∈ blastUnion grid bombs detonating ↔
    ∃ i ∈ detonating, ∃ b, bombs[i]? = some b ∧ cell ∈ blastCellsFor grid b := by
  simp only [blastUnion, List.mem_flatMap, List.mem_filterMap]
  constructor
  · rintro ⟨b, ⟨i, hi, hb⟩, hcell⟩
    exact ⟨i, hi, b, hb, hcell⟩
  · rintro ⟨i, hi, b, hb, hcell⟩
    exact ⟨b, ⟨i, hi, hb⟩, hcell⟩

theorem mem_reachedBy_iff : i ∈ reachedBy grid bombs detonating ↔ i ∉ detonating ∧
    ∃ b, bombs[i]? = some b ∧ idx b.row b.col ∈ blastUnion grid bombs detonating := by
  simp only [reachedBy, List.mem_filter, List.mem_range, Bool.and_eq_true, Bool.not_eq_true',
    List.contains_eq_mem, decide_eq_false_iff_not, decide_eq_true_eq, Option.any_eq_true]
  refine and_iff_right_of_imp ?_
  rintro ⟨-, _, hb, -⟩
  exact (List.getElem?_eq_some_iff.mp hb).1

theorem chain_succ (rounds : Nat) : chain grid bombs (rounds + 1) detonating =
    if reachedBy grid bombs detonating = [] then detonating
    else chain grid bombs rounds (detonating ++ reachedBy grid bombs detonating) := rfl

theorem subset_chain (rounds : Nat) : detonating ⊆ chain grid bombs rounds detonating := by
  induction rounds generalizing detonating with
  | zero => exact List.Subset.refl _
  | succ _ ih =>
    rw [chain_succ]
    split
    · exact List.Subset.refl _
    · exact List.Subset.trans (List.subset_append_left _ _) ih

/-- Positions of bombs that go off. -/
def Sound (grid : Bytes) (bombs : List BombItBomb) (detonating : List Nat) : Prop :=
  ∀ i ∈ detonating, ∃ b, bombs[i]? = some b ∧ Detonates grid bombs b

theorem sound_dueBombs : Sound grid bombs (dueBombs bombs) := by
  intro i hi
  obtain ⟨b, hb, hfuse⟩ := mem_dueBombs_iff.mp hi
  exact ⟨b, hb, .due (List.mem_of_getElem? hb) hfuse⟩

theorem Sound.scan (h : Sound grid bombs detonating) :
    Sound grid bombs (detonating ++ reachedBy grid bombs detonating) := by
  intro i hi
  rcases List.mem_append.mp hi with hi | hi
  · exact h i hi
  · obtain ⟨-, b, hb, hcell⟩ := mem_reachedBy_iff.mp hi
    obtain ⟨j, hj, c, hc, hcell⟩ := mem_blastUnion_iff.mp hcell
    obtain ⟨c', hc', hgoes⟩ := h j hj
    obtain rfl : c = c' := Option.some.inj (hc.symm.trans hc')
    exact ⟨b, hb, .reached hgoes (List.mem_of_getElem? hb) hcell⟩

theorem Sound.chain (h : Sound grid bombs detonating) (rounds : Nat) :
    Sound grid bombs (chain grid bombs rounds detonating) := by
  induction rounds generalizing detonating with
  | zero => exact h
  | succ _ ih =>
    rw [chain_succ]
    split
    · exact h
    · exact ih h.scan

/-- Some of the positions of the list, each once. -/
def Positions (bombs : List BombItBomb) (detonating : List Nat) : Prop :=
  detonating.Nodup ∧ detonating ⊆ List.range bombs.length

theorem positions_dueBombs : Positions bombs (dueBombs bombs) :=
  ⟨List.nodup_range.filter _, List.filter_subset_self _⟩

theorem Positions.scan (h : Positions bombs detonating) :
    Positions bombs (detonating ++ reachedBy grid bombs detonating) := by
  refine ⟨h.1.append (List.nodup_range.filter _) ?_, List.append_subset.mpr ⟨h.2, ?_⟩⟩
  · intro i hi hreached
    exact (mem_reachedBy_iff.mp hreached).1 hi
  · exact List.filter_subset_self _

/-- The loop ends: every scan that finds something adds a position, and there are only as many
as there are bombs. -/
theorem reachedBy_chain (h : Positions bombs detonating) {rounds : Nat}
    (hrounds : bombs.length ≤ detonating.length + rounds) :
    reachedBy grid bombs (chain grid bombs rounds detonating) = [] := by
  induction rounds generalizing detonating with
  | zero =>
    -- every position goes off already
    have hall : List.range bombs.length ⊆ detonating :=
      (h.1.subperm h.2).perm_of_length_le (by simpa using hrounds) |>.symm.subset
    refine List.eq_nil_iff_forall_not_mem.mpr fun i hi => ?_
    exact (mem_reachedBy_iff.mp hi).1 (hall (List.mem_of_mem_filter hi))
  | succ _ ih =>
    rw [chain_succ]
    split
    · assumption
    · next hfound =>
      have hlength := List.length_pos_iff.mpr hfound
      refine ih h.scan ?_
      rw [List.length_append]
      omega

theorem chain_eq_of_reachedBy (h : reachedBy grid bombs detonating = []) (rounds : Nat) :
    chain grid bombs rounds detonating = detonating := by
  cases rounds with
  | zero => rfl
  | succ => rw [chain_succ, if_pos h]

theorem chain_add (rounds more : Nat) : chain grid bombs (rounds + more) detonating =
    chain grid bombs more (chain grid bombs rounds detonating) := by
  induction rounds generalizing detonating with
  | zero => rw [Nat.zero_add]; rfl
  | succ _ ih =>
    rw [Nat.succ_add, chain_succ, chain_succ]
    split
    · next hstop => exact (chain_eq_of_reachedBy hstop more).symm
    · exact ih

def detonated (grid : Bytes) (bombs : List BombItBomb) : List Nat :=
  chain grid bombs bombs.length (dueBombs bombs)

theorem reachedBy_detonated : reachedBy grid bombs (detonated grid bombs) = [] :=
  reachedBy_chain positions_dueBombs (Nat.le_add_left _ _)

/-- The loop has found the bombs that go off, wherever they stand in the list. -/
theorem mem_detonated_iff {b : BombItBomb} (hb : bombs[i]? = some b) :
    i ∈ detonated grid bombs ↔ Detonates grid bombs b := by
  constructor
  · intro hi
    obtain ⟨c, hc, hgoes⟩ := sound_dueBombs.chain bombs.length i hi
    obtain rfl : b = c := Option.some.inj (hb.symm.trans hc)
    exact hgoes
  · intro hgoes
    induction hgoes generalizing i with
    | due _ hfuse => exact subset_chain _ (mem_dueBombs_iff.mpr ⟨_, hb, hfuse⟩)
    | reached hc _ hcell ih =>
      by_contra hi
      obtain ⟨j, hj⟩ := List.mem_iff_getElem?.mp hc.mem
      have hunion := mem_blastUnion_iff.mpr ⟨j, ih hj, _, hj, hcell⟩
      have hfound := mem_reachedBy_iff.mpr ⟨hi, _, hb, hunion⟩
      rw [reachedBy_detonated] at hfound
      cases hfound

theorem mem_blastUnion_detonated_iff {cell : Int} :
    cell ∈ blastUnion grid bombs (detonated grid bombs) ↔
      ∃ b, Detonates grid bombs b ∧ cell ∈ blastCellsFor grid b := by
  rw [mem_blastUnion_iff]
  constructor
  · rintro ⟨i, hi, b, hb, hcell⟩
    exact ⟨b, (mem_detonated_iff hb).mp hi, hcell⟩
  · rintro ⟨b, hgoes, hcell⟩
    obtain ⟨i, hi⟩ := List.mem_iff_getElem?.mp hgoes.mem
    exact ⟨i, (mem_detonated_iff hi).mpr hgoes, b, hi, hcell⟩

theorem filterMap_range_getElem? (p : BombItBomb → Bool) :
    ((List.range bombs.length).filterMap fun i => (bombs[i]?).filter p) = bombs.filter p := by
  induction bombs using List.reverseRecOn with
  | nil => rfl
  | append_singleton _ b ih =>
    rw [List.length_append, List.length_singleton, List.range_succ, List.filterMap_append,
      List.filter_append, ← ih]
    congr 1
    · refine List.filterMap_congr fun i hi => ?_
      rw [List.getElem?_append_left (List.mem_range.mp hi)]
    · cases hp : p b <;> simp [hp, Option.filter]

theorem clearCrates_congr {cells cells' : List Int} (h : ∀ cell, cell ∈ cells' ↔ cell ∈ cells) :
    clearCrates grid cells' = clearCrates grid cells := by
  unfold clearCrates
  congr 1
  funext i cell
  have hcontains : cells'.contains (i : Int) = cells.contains (i : Int) := by
    rw [Bool.eq_iff_iff, List.contains_iff_mem, List.contains_iff_mem]
    exact h i
  rw [hcontains]

theorem mem_cells_iff {cell : Int} : cell ∈ (resolveExplosions grid bombs).1 ↔
    ∃ b, Detonates grid bombs b ∧ cell ∈ blastCellsFor grid b :=
  mem_blastUnion_detonated_iff

theorem remaining_eq_filter {survives : BombItBomb → Bool}
    (h : ∀ b, survives b = true ↔ ¬Detonates grid bombs b) :
    (resolveExplosions grid bombs).2.1 = bombs.filter survives := by
  rw [← filterMap_range_getElem?]
  refine List.filterMap_congr fun i hi => ?_
  obtain ⟨b, hb⟩ : ∃ b, bombs[i]? = some b :=
    ⟨_, List.getElem?_eq_getElem (List.mem_range.mp hi)⟩
  change (if (detonated grid bombs).contains i then none else bombs[i]?) = _
  have hgoes : i ∈ detonated grid bombs ↔ Detonates grid bombs b := mem_detonated_iff hb
  rw [hb, Option.filter_some, List.contains_eq_mem]
  cases hleft : survives b with
  | true => simp [hgoes, (h b).mp hleft]
  | false =>
    have hdetonates : Detonates grid bombs b := by
      by_contra hnot
      rw [(h b).mpr hnot] at hleft
      cases hleft
    simp [hgoes, hdetonates]

/-- What goes off is the least set that ignites, what burns are the blast cells of this set, the
bombs outside of it are left as they are, and only the order of what is left depends on the order
of the list. More rounds of the loop find nothing more. -/
theorem chain_reaction_exact (grid : Bytes) (bombs : List BombItBomb) :
    IsLeast {set | Ignites grid bombs set} {b | Detonates grid bombs b} ∧
      (∀ cell, cell ∈ (resolveExplosions grid bombs).1 ↔
        ∃ b, Detonates grid bombs b ∧ cell ∈ blastCellsFor grid b) ∧
      (∃ survives : BombItBomb → Bool, (∀ b, survives b = true ↔ ¬Detonates grid bombs b) ∧
        (resolveExplosions grid bombs).2.1 = bombs.filter survives) ∧
      (resolveExplosions grid bombs).2.2 =
        clearCrates grid (resolveExplosions grid bombs).1 ∧
      (∀ bombs', bombs'.Perm bombs →
        (∀ cell, cell ∈ (resolveExplosions grid bombs').1 ↔
          cell ∈ (resolveExplosions grid bombs).1) ∧
        (resolveExplosions grid bombs').2.1.Perm (resolveExplosions grid bombs).2.1 ∧
        (resolveExplosions grid bombs').2.2 = (resolveExplosions grid bombs).2.2) ∧
      ∀ more, chain grid bombs (bombs.length + more) (dueBombs bombs) =
        chain grid bombs bombs.length (dueBombs bombs) := by
  classical
  let survives : BombItBomb → Bool := fun b => decide ¬Detonates grid bombs b
  have hsurvives : ∀ b, survives b = true ↔ ¬Detonates grid bombs b := fun b => decide_eq_true_iff
  have hleft := remaining_eq_filter hsurvives
  refine ⟨detonates_isLeast, fun cell => mem_cells_iff, ⟨survives, hsurvives, hleft⟩, rfl, ?_, ?_⟩
  · intro bombs' hperm
    have hsame : ∀ b, Detonates grid bombs' b ↔ Detonates grid bombs b :=
      detonates_congr fun _ => hperm.mem_iff
    have hcells : ∀ cell, cell ∈ (resolveExplosions grid bombs').1 ↔
        cell ∈ (resolveExplosions grid bombs).1 := by
      intro cell
      simp [mem_cells_iff, hsame]
    refine ⟨hcells, ?_, clearCrates_congr hcells⟩
    rw [hleft, remaining_eq_filter fun b => (hsurvives b).trans (not_congr (hsame b)).symm]
    exact hperm.filter survives
  · intro more
    rw [chain_add]
    exact chain_eq_of_reachedBy reachedBy_detonated more

/-- On a full grid a blast stays in the grid. -/
theorem blastCellsFor_inGrid {b : BombItBomb} (hb : onBoard b.row b.col = true) :
    ∀ cell ∈ blastCellsFor grid b, 0 ≤ cell ∧ cell < cellCount := by
  have hidx : ∀ {row col}, onBoard row col = true → 0 ≤ idx row col ∧ idx row col < cellCount := by
    intro row col h
    have hon := of_decide_eq_true h
    simp only [idx, gridH, gridW, cellCount] at hon ⊢
    omega
  have harm : ∀ dr dc reach step, ∀ cell ∈ blastArm grid b.row b.col dr dc reach step,
      0 ≤ cell ∧ cell < cellCount := by
    intro dr dc reach
    induction reach with
    | zero => exact fun _ _ hcell => by cases hcell
    | succ _ ih =>
      intro step cell hcell
      simp only [blastArm] at hcell
      split at hcell
      · cases hcell
      · next hon =>
        have hin := hidx (by simpa using hon)
        split at hcell
        · cases hcell
        · split at hcell
          · rwa [List.mem_singleton.mp hcell]
          · rcases List.mem_cons.mp hcell with rfl | hcell
            · exact hin
            · exact ih _ _ hcell
  intro cell hcell
  simp only [blastCellsFor, List.mem_cons, List.mem_append] at hcell
  rcases hcell with rfl | ((hcell | hcell) | hcell) | hcell
  · exact hidx hb
  all_goals exact harm _ _ _ _ _ hcell

end DopamintArena.Games.BombIt

namespace DopamintArena.Rust.BombIt

open Foundation Games Games.BombIt

/-- `resolve_explosions`: the same loop, but cells are looked up by index, so that a burning cell
outside of the grid panics. -/
def resolveExplosions (grid : Bytes) (bombs : List BombItBomb) :
    Except String (List Int × List BombItBomb × Bytes) := do
  let resolution := Games.BombIt.resolveExplosions grid bombs
  require (∀ cell ∈ resolution.1, 0 ≤ cell ∧ cell < grid.length) "index out of bounds"
  pure resolution

/-- With the bombs on a full grid it does not panic, and the outcome is that of the other engine. -/
theorem resolveExplosions_eq {grid : Bytes} {bombs : List BombItBomb}
    (hgrid : grid.length = cellCount) (hbombs : ∀ b ∈ bombs, onBoard b.row b.col = true) :
    resolveExplosions grid bombs = .ok (Games.BombIt.resolveExplosions grid bombs) := by
  have hin : ∀ cell ∈ (Games.BombIt.resolveExplosions grid bombs).1,
      0 ≤ cell ∧ cell < grid.length := by
    intro cell hcell
    obtain ⟨b, hgoes, hcell⟩ := mem_cells_iff.mp hcell
    rw [hgrid]
    exact blastCellsFor_inGrid (hbombs b hgoes.mem) cell hcell
  simp only [resolveExplosions, require_of hin]
  rfl

end DopamintArena.Rust.BombIt
