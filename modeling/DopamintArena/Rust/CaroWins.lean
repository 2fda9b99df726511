import DopamintArena.Rust.SeriesMatch

/-!
Win detection in caro. Only the lines through the last stone are looked at. That is
enough: a stone that is not part of a run of five can only lengthen or block it, so as
long as nobody has won there is no open five anywhere on the board.
-/

namespace DopamintArena.Games.Caro

open Foundation Engine

section Lines

variable {α : Type}

/-- The cells of a line, numbered from a cell on it. -/
def along (stones : Int → Int → Option α) (r c : Int) (dir : Int × Int) (j : Int) : Option α :=
  stones (r + j * dir.1) (c + j * dir.2)

def isStone [DecidableEq α] (empty : α) (cell : Option α) : Bool :=
  cell.any fun stone => decide (stone ≠ empty)

/-- A maximal run of exactly five of the mark from the `i`-th cell on, not flanked by stones
on both ends. -/
structure OpenFive [DecidableEq α] (line : Int → Option α) (empty mark : α) (i : Int) : Prop where
  stones : ∀ j, i ≤ j → j < i + 5 → line j = some mark
  before : line (i - 1) ≠ some mark
  after : line (i + 5) ≠ some mark
  free : ¬(isStone empty (line (i - 1)) = true ∧ isStone empty (line (i + 5)) = true)

variable {stones stones' : Int → Int → Option α} {empty mark mark' : α} {r c i j : Int}
variable {dir : Int × Int}

theorem along_shift (j k : Int) :
    along stones (r + j * dir.1) (c + j * dir.2) dir k = along stones r c dir (j + k) := by
  rw [along, along, add_mul, add_mul, add_assoc, add_assoc]

variable [DecidableEq α]

theorem OpenFive.shift (h : OpenFive (along stones r c dir) empty mark i) (j : Int) :
    OpenFive (along stones (r + j * dir.1) (c + j * dir.2) dir) empty mark (i - j) := by
  have hbefore : j + (i - j - 1) = i - 1 := by omega
  have hafter : j + (i - j + 5) = i + 5 := by omega
  refine ⟨fun k hfirst hlast => ?_, ?_, ?_, ?_⟩ <;> simp only [along_shift, hbefore, hafter]
  · exact h.stones _ (by omega) (by omega)
  · exact h.before
  · exact h.after
  · exact h.free

/-- A run that the new stone is not part of was there before. -/
theorem OpenFive.of_set {p : Int × Int} (h : OpenFive (along stones' r c dir) empty mark i)
    (hmark : mark ≠ empty) (hp : stones p.1 p.2 = some empty)
    (hsame : ∀ r c, (r, c) ≠ p → stones' r c = stones r c)
    (houtside : ∀ j, i ≤ j → j < i + 5 → (r + j * dir.1, c + j * dir.2) ≠ p) :
    OpenFive (along stones r c dir) empty mark i := by
  have hcell : ∀ j, along stones r c dir j = some empty ∨
      along stones r c dir j = along stones' r c dir j := by
    intro j
    by_cases hj : (r + j * dir.1, c + j * dir.2) = p
    · subst hj
      exact .inl hp
    · exact .inr (hsame _ _ hj).symm
  have hends : ∀ j, along stones' r c dir j ≠ some mark → along stones r c dir j ≠ some mark := by
    intro j hj
    rcases hcell j with hempty | heq
    · rw [hempty]
      exact fun hsome => hmark (Option.some.inj hsome).symm
    · rwa [heq]
  have hstone : ∀ j, isStone empty (along stones r c dir j) = true →
      isStone empty (along stones' r c dir j) = true := by
    intro j hj
    rcases hcell j with hempty | heq
    · rw [hempty] at hj
      simp [isStone] at hj
    · rwa [← heq]
  refine ⟨fun j hfirst hlast => ?_, hends _ h.before, hends _ h.after, ?_⟩
  · exact (hsame _ _ (houtside j hfirst hlast)).symm.trans (h.stones j hfirst hlast)
  · rintro ⟨hbefore, hafter⟩
    exact h.free ⟨hstone _ hbefore, hstone _ hafter⟩

section Walks

variable (stones mark dir)

/-- A walk passes stones of the mark and stands at the cell after them, which is not another
one unless the walk was cut off. -/
theorem walk_run (steps : Nat) (r c : Int) : ∃ n : Nat,
    walk stones mark dir.1 dir.2 steps r c = (n, r + n * dir.1, c + n * dir.2) ∧
      (∀ k : Nat, k < n → along stones r c dir k = some mark) ∧
      (n = steps ∨ along stones r c dir n ≠ some mark) := by
  induction steps generalizing r c with
  | zero => exact ⟨0, by simp [walk], by simp, .inl rfl⟩
  | succ steps ih =>
    by_cases hmark : stones r c = some mark
    · obtain ⟨n, hwalk, hpassed, hends⟩ := ih (r + 1 * dir.1) (c + 1 * dir.2)
      simp only [along_shift] at hpassed hends
      rw [add_comm 1 (n : Int)] at hends
      refine ⟨n + 1, ?_, fun k hk => ?_, ?_⟩
      · rw [one_mul, one_mul] at hwalk
        simp only [walk, if_pos hmark, hwalk, Prod.mk.injEq, true_and]
        push_cast
        constructor <;> ring
      · cases k with
        | zero => simpa [along] using hmark
        | succ k =>
          rw [Nat.cast_succ, add_comm]
          exact hpassed k (by omega)
      · rw [Nat.cast_succ]
        exact hends.imp (congrArg (· + 1)) id
    · exact ⟨0, by simp [walk, hmark], by simp, .inr (by simpa [along] using hmark)⟩

/-- The loop of the source ends: after as many steps as the board is wide, a walk has left
the board or met a cell without the mark. -/
theorem walk_ends {size : Nat}
    (hbounds : ∀ r c, stones r c = some mark → inBounds size r c = true)
    (hdir : dir ∈ dirs ∨ (-dir.1, -dir.2) ∈ dirs) (r c : Int) : ∃ n : Nat,
    walk stones mark dir.1 dir.2 size (r + 1 * dir.1) (c + 1 * dir.2) =
        (n, r + (1 + n) * dir.1, c + (1 + n) * dir.2) ∧
      (∀ j : Int, 0 < j → j ≤ n → along stones r c dir j = some mark) ∧
      along stones r c dir (1 + n) ≠ some mark := by
  obtain ⟨n, hwalk, hpassed, hends⟩ := walk_run stones mark dir size (r + 1 * dir.1)
    (c + 1 * dir.2)
  simp only [along_shift] at hpassed hends
  have hstones : ∀ j : Int, 0 < j → j ≤ n → along stones r c dir j = some mark := by
    intro j hpos hle
    obtain ⟨k, rfl⟩ := Int.eq_ofNat_of_zero_le hpos.le
    have hstone := hpassed (k - 1) (by omega)
    rwa [Nat.cast_sub (by omega), Nat.cast_one, add_sub_cancel] at hstone
  refine ⟨n, ?_, hstones, ?_⟩
  · rw [hwalk, add_mul, add_mul, add_assoc, add_assoc]
  · rcases hends with rfl | hends
    · intro hmark
      have hlast := hbounds _ _ hmark
      have hsize : n ≠ 0 := by
        rintro rfl
        simp only [inBounds, decide_eq_true_eq] at hlast
        omega
      have hfirst := hbounds _ _ (hstones 1 (by omega) (by omega))
      simp only [inBounds, decide_eq_true_eq] at hfirst hlast
      obtain ⟨dr, dc⟩ := dir
      simp only [dirs, List.mem_cons, Prod.mk.injEq, List.not_mem_nil, or_false] at hdir
      have hstep : dr = 1 ∨ dr = -1 ∨ dr = 0 ∧ (dc = 1 ∨ dc = -1) := by omega
      rcases hstep with rfl | rfl | ⟨rfl, rfl | rfl⟩ <;> omega
    · exact hends

end Walks

/-- The line through a stone wins exactly if an open five of it runs through the stone. -/
theorem winsAlong_iff {size : Nat} (hcenter : stones r c = some mark)
    (hbounds : ∀ r c, stones r c = some mark → inBounds size r c = true) (hdir : dir ∈ dirs) :
    winsAlong stones empty mark size r c dir = true ↔
      ∃ i, i ≤ 0 ∧ 0 < i + 5 ∧ OpenFive (along stones r c dir) empty mark i := by
  have hback : ∀ j, along stones r c (-dir.1, -dir.2) j = along stones r c dir (-j) := by
    intro j
    simp only [along, mul_neg, neg_mul]
  have hzero : along stones r c dir 0 = some mark := by simpa [along] using hcenter
  obtain ⟨f, hwalk, hf, hf'⟩ := walk_ends stones mark dir hbounds (.inl hdir) r c
  obtain ⟨b, hwalk', hb, hb'⟩ :=
    walk_ends stones mark (-dir.1, -dir.2) hbounds (.inr (by simpa using hdir)) r c
  simp only [one_mul, ← sub_eq_add_neg] at hwalk hwalk'
  simp only [hback] at hb hb'
  have hrun : ∀ j, -(b : Int) ≤ j → j ≤ f → along stones r c dir j = some mark := by
    intro j hfirst hlast
    rcases lt_trichotomy j 0 with hneg | rfl | hpos
    · simpa using hb (-j) (by omega) (by omega)
    · exact hzero
    · exact hf j hpos hlast
  have hblocked : blocked stones empty (r + (1 + b) * -dir.1, c + (1 + b) * -dir.2) =
      isStone empty (along stones r c dir (-(1 + b))) := by
    simp only [blocked, isStone, along, mul_neg, neg_mul]
  simp only [winsAlong, hwalk, hwalk', hblocked, Bool.and_eq_true, decide_eq_true_eq,
    Bool.not_eq_true', Bool.and_eq_false_iff]
  constructor
  · rintro ⟨hfive, hfree⟩
    have hbefore : -(b : Int) - 1 = -(1 + b) := by omega
    have hafter : -(b : Int) + 5 = 1 + f := by omega
    refine ⟨-b, by omega, by omega, fun j hfirst hlast => hrun j hfirst (by omega), ?_, ?_, ?_⟩
    · rwa [hbefore]
    · rwa [hafter]
    · rw [hbefore, hafter]
      rintro ⟨hbehind, hahead⟩
      rcases hfree with hfree | hfree
      · exact Bool.false_ne_true (hfree.symm.trans hahead)
      · exact Bool.false_ne_true (hfree.symm.trans hbehind)
  · rintro ⟨i, hle, hlt, hopen⟩
    -- the run of five ends where the walks end
    have hb_eq : i = -(b : Int) := by
      by_contra hne
      rcases lt_or_gt_of_ne hne with hlt' | hgt
      · exact hb' (hopen.stones _ (by omega) (by omega))
      · exact hopen.before (hrun _ (by omega) (by omega))
    have hf_eq : i + 5 = 1 + f := by
      by_contra hne
      rcases lt_or_gt_of_ne hne with hlt' | hgt
      · exact hopen.after (hrun _ (by omega) (by omega))
      · exact hf' (hopen.stones _ (by omega) (by omega))
    have hbefore : i - 1 = -(1 + b : Int) := by omega
    have hfree := hopen.free
    rw [hbefore, hf_eq] at hfree
    refine ⟨by omega, ?_⟩
    by_contra hboth
    push Not at hboth
    exact hfree ⟨Bool.eq_true_of_not_eq_false hboth.2, Bool.eq_true_of_not_eq_false hboth.1⟩

end Lines

/-- No player has an open five anywhere on the board. -/
def NoOpenFive (board : List Int) (size : Int) : Prop :=
  ∀ mark ≠ 0, ∀ dir ∈ dirs, ∀ r c i, ¬OpenFive (along (stoneAt board size) r c dir) 0 mark i

/-- An open five of the mark runs through the cell. -/
def FiveThrough (board : List Int) (size cell mark : Int) : Prop :=
  ∃ dir ∈ dirs, ∃ i, i ≤ 0 ∧ 0 < i + 5 ∧
    OpenFive (along (stoneAt board size) (cell / size) (cell % size) dir) 0 mark i

section Boards

variable {board : List Int} {size : ℕ} {cell mark : Int}

theorem stoneAt_set (mark : Int) (hrange : 0 ≤ cell ∧ cell < size * size)
    (hfree : board[cell.toNat]? = some 0) :
    stoneAt board size (cell / size) (cell % size) = some 0 ∧
      stoneAt (applyMark board cell mark) size (cell / size) (cell % size) = some mark ∧
      ∀ r c, (r, c) ≠ (cell / size, cell % size) →
        stoneAt (applyMark board cell mark) size r c = stoneAt board size r c := by
  have hpos : (0 : Int) < size := by nlinarith
  have hdiv := Int.mul_ediv_add_emod cell size
  have hin : inBounds size (cell / size) (cell % size) = true := by
    simp only [inBounds, decide_eq_true_eq]
    exact ⟨Int.ediv_nonneg hrange.1 hpos.le, Int.ediv_lt_of_lt_mul hpos hrange.2,
      Int.emod_nonneg _ hpos.ne', Int.emod_lt_of_pos _ hpos⟩
  have hindex : cell / size * size + cell % size = cell := by rw [mul_comm]; exact hdiv
  have hlt : cell.toNat < board.length := (List.getElem?_eq_some_iff.mp hfree).1
  refine ⟨?_, ?_, fun r c hne => ?_⟩
  · rw [stoneAt, if_pos hin, hindex, hfree]
  · rw [stoneAt, if_pos hin, hindex, applyMark, List.getElem?_set_self hlt]
  · by_cases hin' : inBounds size r c = true
    · rw [stoneAt, stoneAt, if_pos hin', if_pos hin', applyMark, List.getElem?_set_ne]
      intro hsame
      simp only [inBounds, decide_eq_true_eq] at hin'
      have hcell : cell = c + size * r := by
        have hnonneg : 0 ≤ r * size := by nlinarith
        rw [mul_comm (size : Int) r]
        omega
      apply hne
      rw [hcell, Int.add_mul_ediv_left _ _ hpos.ne', Int.add_mul_emod_self_left,
        Int.ediv_eq_zero_of_lt hin'.2.2.1 hin'.2.2.2, Int.emod_eq_of_lt hin'.2.2.1 hin'.2.2.2,
        zero_add]
    · rw [stoneAt, stoneAt, if_neg hin', if_neg hin']

variable (hrange : 0 ≤ cell ∧ cell < size * size) (hfree : board[cell.toNat]? = some 0)
include hrange hfree

theorem noOpenFive_applyMark (hno : NoOpenFive board size)
    (hnone : ¬FiveThrough (applyMark board cell mark) size cell mark) :
    NoOpenFive (applyMark board cell mark) size := by
  obtain ⟨hempty, hset, hsame⟩ := stoneAt_set mark hrange hfree
  intro mark' hmark' dir hdir r c i hopen
  by_cases hhit : ∃ j, i ≤ j ∧ j < i + 5 ∧
      (r + j * dir.1, c + j * dir.2) = (cell / size, cell % size)
  · obtain ⟨j, hfirst, hlast, hcell⟩ := hhit
    obtain ⟨hrow, hcol⟩ := Prod.mk.inj hcell
    have hstone := hopen.stones j hfirst hlast
    have hshift := hopen.shift j
    rw [along, hrow, hcol, hset, Option.some.injEq] at hstone
    rw [hrow, hcol, ← hstone] at hshift
    exact hnone ⟨dir, hdir, i - j, by omega, by omega, hshift⟩
  · refine hno mark' hmark' dir hdir r c i (hopen.of_set hmark' hempty hsame ?_)
    intro j hfirst hlast hcell
    exact hhit ⟨j, hfirst, hlast, hcell⟩

theorem winnerAround_applyMark (hmark : mark ≠ 0) :
    winnerAround (applyMark board cell mark) size cell = mark ∧
        FiveThrough (applyMark board cell mark) size cell mark ∨
      winnerAround (applyMark board cell mark) size cell = 0 ∧
        ¬FiveThrough (applyMark board cell mark) size cell mark := by
  obtain ⟨-, hset, -⟩ := stoneAt_set mark hrange hfree
  have hlt : cell.toNat < board.length := (List.getElem?_eq_some_iff.mp hfree).1
  have hget : (applyMark board cell mark).getD cell.toNat 0 = mark := by
    simp [applyMark, hlt]
  have hbounds : ∀ r c, stoneAt (applyMark board cell mark) size r c = some mark →
      inBounds size r c = true := by
    intro r c hstone
    by_contra hout
    rw [stoneAt, if_neg hout] at hstone
    cases hstone
  have hwins : (dirs.any (winsAlong (stoneAt (applyMark board cell mark) size) 0 mark size
      (cell / size) (cell % size))) = true ↔
      FiveThrough (applyMark board cell mark) size cell mark := by
    rw [List.any_eq_true]
    exact exists_congr fun dir => and_congr_right fun hdir => winsAlong_iff hset hbounds hdir
  rw [← hwins]
  simp only [winnerAround, if_neg (show ¬(cell < 0 ∨ (size : Int) * size ≤ cell) by omega), hget,
    if_neg hmark, Int.toNat_natCast]
  split
  · next h => exact .inl ⟨rfl, h⟩
  · next h => exact .inr ⟨rfl, h⟩

end Boards

/-- As long as nobody has won there is no open five. -/
structure Watched (size : ℕ) (s : CaroState) : Prop where
  boardSize : s.size = size
  noFive : s.winner = 0 ∨ s.winner = 3 → NoOpenFive s.board size

variable {hash : Hash} {size : ℕ} {s t : CaroState} {move : CaroMove} {party : Party}

theorem Watched.applyMove (h : Watched size s) (hmove : applyMove hash s move party = .ok t) :
    Watched size t ∧ ∀ seat, t.winner = markOf seat ↔
      seat = party ∧ FiveThrough t.board size move.cell (markOf party) := by
  simp only [Caro.applyMove, returned] at hmove
  obtain ⟨hopen, -, hrange, hfree, -, _, -, _, -, rfl⟩ := hmove
  have hno := h.noFive (.inl hopen)
  rw [h.boardSize] at hrange
  have hmark : markOf party ≠ 0 := by cases party <;> decide
  have hmark' : ∀ seat, markOf seat ≠ 0 ∧ markOf seat ≠ 3 ∧
      (markOf party = markOf seat ↔ seat = party) := by
    intro seat
    cases seat <;> cases party <;> decide
  simp only [h.boardSize, resultOf]
  rcases winnerAround_applyMark hrange hfree hmark with ⟨hwinner, hfive⟩ | ⟨hwinner, hnone⟩
  · rw [hwinner, if_neg (fun hdraw => hmark hdraw.1)]
    refine ⟨⟨rfl, ?_⟩, fun seat => ?_⟩
    · rintro (hzero | hthree)
      · exact absurd hzero hmark
      · exact absurd hthree (hmark' party).2.1
    · rw [(hmark' seat).2.2]
      exact (and_iff_left hfive).symm
  · refine ⟨⟨rfl, fun _ => noOpenFive_applyMark hrange hfree hno hnone⟩, fun seat => ?_⟩
    rw [hwinner]
    refine iff_of_false ?_ fun hwon => hnone hwon.2
    split
    · exact (hmark' seat).2.1.symm
    · exact (hmark' seat).1.symm

theorem watched_play {defaultStake : Int} {ctx : ProtocolContext} {moves : List (CaroMove × Party)}
    (hplay : (protocol hash size defaultStake).reactive.play
      (initialState hash size defaultStake ctx) moves = .ok s) : Watched size s := by
  refine Reactive.play_invariant (Watched size) (fun h hstep => (h.applyMove hstep).1) ?_ hplay
  refine ⟨rfl, fun _ mark hmark dir _ r c i hopen => hmark ?_⟩
  have hstone := hopen.stones i le_rfl (by omega)
  simp only [along, stoneAt, initialState] at hstone
  split at hstone
  · exact (List.eq_of_mem_replicate (List.mem_of_getElem? hstone))
  · cases hstone

end DopamintArena.Games.Caro

namespace DopamintArena.Rust

open Foundation
open DopamintArena.Games (Hash)
open DopamintArena.Games.Caro (NoOpenFive FiveThrough markOf)

/-- As long as a game has no winner there is no open five on the board; a seat has won exactly
if the last move is its own and completes one; and Rust accepts the same games and declares the
same result. -/
theorem win_detection_complete (hash : Hash) (moves : List (Games.CaroMove × Seat)) :
    (∀ (size : ℕ) (defaultStake : Int) ctx s,
      (Games.Caro.protocol hash size defaultStake).reactive.play
          (Games.Caro.initialState hash size defaultStake ctx) moves = .ok s →
        (s.winner = 0 ∨ s.winner = 3 → NoOpenFive s.board size) ∧
          ∀ move party t, Games.Caro.applyMove hash s move party = .ok t →
            ∀ seat, t.winner = markOf seat ↔
              seat = party ∧ FiveThrough t.board size move.cell (markOf party)) ∧
      ∀ terms : SeriesTerms,
        ((Games.Caro.protocol hash terms.size terms.stake.toNat).reactive.play
            (Games.Caro.initialState hash terms.size terms.stake.toNat terms.ctx)
            moves).toOption.map (·.winner) =
          (((Caro.protocol hash terms.size terms.stake).reactive Caro.decodeMove).play
            (Caro.initialState hash terms.size terms.stake terms.ctx')
            moves).toOption.map fun s' => cellValue s'.winner := by
  refine ⟨fun size defaultStake ctx s hs => ?_, fun terms => ?_⟩
  · have hwatched := Games.Caro.watched_play hs
    exact ⟨hwatched.noFive, fun move party t ht => (hwatched.applyMove ht).2⟩
  · exact (Caro.bisimulation hash terms.size terms.stake).play_map_eq
      (fun hrelated => congrArg Games.CaroState.winner hrelated.1) (terms.caro_start hash) moves

namespace Sample

/-- A fills the first row up to its last cell, B the second. -/
def fourInARow : List (Games.CaroMove × Seat) :=
  [(⟨0, salt⟩, .A), (⟨5, salt⟩, .B), (⟨1, salt⟩, .A), (⟨6, salt⟩, .B), (⟨2, salt⟩, .A),
    (⟨7, salt⟩, .B), (⟨3, salt⟩, .A), (⟨8, salt⟩, .B)]

end Sample

/-- The fifth stone in the row wins. -/
theorem win_detection_complete_row : ∃ s t,
    (Games.Caro.protocol Sample.sumHash 5 1).reactive.play
        (Games.Caro.initialState Sample.sumHash 5 1 ⟨"", ⟨5, 5⟩⟩) Sample.fourInARow = .ok s ∧
      NoOpenFive s.board 5 ∧ Games.Caro.applyMove Sample.sumHash s ⟨4, Sample.salt⟩ .A = .ok t ∧
      FiveThrough t.board 5 4 1 := by
  have hplay : ∃ s t, (Games.Caro.protocol Sample.sumHash 5 1).reactive.play
      (Games.Caro.initialState Sample.sumHash 5 1 ⟨"", ⟨5, 5⟩⟩) Sample.fourInARow = .ok s ∧
      Games.Caro.applyMove Sample.sumHash s ⟨4, Sample.salt⟩ .A = .ok t ∧ s.winner = 0 ∧
      t.winner = 1 := ⟨_, _, rfl, rfl, rfl, rfl⟩
  obtain ⟨s, t, hs, ht, hopen, hwon⟩ := hplay
  obtain ⟨hno, hwins⟩ := (win_detection_complete Sample.sumHash Sample.fourInARow).1 5 1 _ s hs
  exact ⟨s, t, hs, hno (.inl hopen), ht, ((hwins _ _ t ht .A).mp hwon).2⟩

end DopamintArena.Rust
