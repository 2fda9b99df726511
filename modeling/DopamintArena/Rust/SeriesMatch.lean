import DopamintArena.Rust.Mirror
import DopamintArena.Rust.Series

/-!
The Rust series against the TypeScript series of the same name. Inside a game the
two sides are in step: a state in Rust has a mirror image on the other side that
encodes to the same bytes and accepts the same moves. They part at the second
game, which TypeScript gives to party B and Rust to seat A; and a move between
the games, whose cell TypeScript ignores, has to parse in Rust.
-/

namespace DopamintArena.Rust

open Foundation
open DopamintArena.Games (Hash)

section Series

variable {Inner Inner' WireMove Move : Type}
variable {rules : Games.Series.Rules Inner WireMove} {rules' : Series.Rules Inner' Move}
variable {decode : WireMove → Except String Move} {related : Inner → Inner' → Prop}
variable {s t : Games.SeriesState Inner} {s' t' : SeriesState Inner'}

/-- Inside a game both sides are in step, and both open it with seat A unless the
wrapper says otherwise. -/
structure SameGame (rules : Games.Series.Rules Inner WireMove) (rules' : Series.Rules Inner' Move)
    (decode : WireMove → Except String Move) (related : Inner → Inner' → Prop) : Prop where
  name : rules.name = rules'.name
  maxGames : rules.maxGames = rules'.maxGames.toNat
  inStep : Reactive.Bisimulation rules.inner.reactive (rules'.inner.reactive decode) related
  stake : ∀ {inner inner'}, related inner inner' →
    rules.stake inner = (rules'.stake inner').toNat
  running : ∀ ctx party, rules.inner.isTerminal
    (rules.withTurn (rules.inner.initialState ctx) party) = false
  running' : ∀ ctx, rules'.inner.isTerminal (rules'.inner.initialState ctx) = false
  opener : ∀ {inner party move seat}, rules.inner.Legal (rules.withTurn inner party) move seat →
    seat = party
  opener' : ∀ {ctx move seat next}, rules'.inner.applyMove (rules'.inner.initialState ctx) move seat =
    .ok next → seat = .A
  opens : ∀ ctx, ∃ move,
    (rules'.inner.reactive decode).Accepts (rules'.inner.initialState ctx) (move, .A)
  unparsed : ∃ move e, decode move = .error e

/-- The first game, in step. -/
structure Paired (rules : Games.Series.Rules Inner WireMove) (related : Inner → Inner' → Prop)
    (s : Games.SeriesState Inner) (s' : SeriesState Inner') : Prop where
  first : s.gamesPlayed = 0
  first' : s'.gamesPlayed = 0
  maxGames : s.maxGames = rules.maxGames
  maxGames' : s.maxGames = s'.maxGames.toNat
  inner : related s.inner s'.inner

/-- The second game as each side starts it. -/
structure Parted (rules : Games.Series.Rules Inner WireMove) (rules' : Series.Rules Inner' Move)
    (s : Games.SeriesState Inner) (s' : SeriesState Inner') : Prop where
  second : s.gamesPlayed = 1
  more : 1 < rules.maxGames
  inner : ∃ ctx, s.inner = rules.withTurn (rules.inner.initialState ctx) .B
  inner' : ∃ ctx, s'.inner = rules'.inner.initialState ctx

/-- No second game has been started, and none can be. -/
def OneGame (rules : Games.Series.Rules Inner WireMove) (s : Games.SeriesState Inner) : Prop :=
  s.gamesPlayed = 0 ∧
    (rules.inner.isTerminal s.inner = true → Games.Series.isTerminal rules s = true)

namespace Paired

variable (hgame : SameGame rules rules' decode related) (h : Paired rules related s s')
include hgame h

theorem inner_view : rules.inner.reactive.view s.inner =
    (rules'.inner.reactive decode).view s'.inner :=
  (hgame.inStep.alike h.inner).view

theorem inner_isTerminal : rules.inner.isTerminal s.inner = rules'.inner.isTerminal s'.inner :=
  congrArg Engine.Shown.isTerminal (h.inner_view hgame)

theorem inner_balances : rules.inner.balances s.inner =
    ⟨(rules'.inner.balances s'.inner).a.toNat, (rules'.inner.balances s'.inner).b.toNat⟩ :=
  congrArg Engine.Shown.balances (h.inner_view hgame)

theorem canFundNextGame : Games.Series.canFundNextGame rules s.inner =
    Series.canFundNextGame rules' s'.inner := by
  simp only [Games.Series.canFundNextGame, Series.canFundNextGame, h.inner_balances hgame,
    hgame.stake h.inner, UInt64.le_iff_toNat_le, ← UInt64.toNat_inj, UInt64.toNat_zero,
    Int.ofNat_le, Int.natCast_eq_zero]

theorem isTerminal : Games.Series.isTerminal rules s = Series.isTerminal rules' s' := by
  have hlast : (s.maxGames ≤ s.gamesPlayed + 1) = (s'.maxGames ≤ s'.gamesPlayed + 1) := by
    rw [h.maxGames', h.first, h.first', UInt64.le_iff_toNat_le]
    have hone : ((0 : UInt64) + 1).toNat = 1 := rfl
    simp only [eq_iff_iff]
    omega
  simp [Games.Series.isTerminal, Series.isTerminal, h.inner_isTerminal hgame,
    h.canFundNextGame hgame, hlast]

theorem view : (Games.Series.protocol rules).reactive.view s =
    ((Series.protocol rules').reactive decode).view s' := by
  have hencoded : rules.inner.encodeState s.inner = .ok (rules'.inner.encodeState s'.inner) :=
    congrArg Engine.Shown.encoded (h.inner_view hgame)
  have hgames : Engine.u64ToBeBytes s.gamesPlayed = .ok (u64ToBeBytes s'.gamesPlayed) := by
    rw [h.first, h.first']
    exact u64ToBeBytes_toNat 0
  have hseries : Games.Series.encodeState rules s = .ok (Series.encodeState rules' s') := by
    rw [Games.Series.encodeState, hencoded, ok_bind, hgames, ok_bind, Series.encodeState,
      ← hgame.name]
    simp only [Engine.protocolDomain, lengthPrefixedConcat_cons, lengthPrefixedConcat_nil,
      List.append_nil, List.append_assoc]
    rfl
  simp [Engine.Protocol.reactive, Protocol.reactive, Games.Series.protocol, Series.protocol,
    hseries, h.inner_balances hgame, h.isTerminal hgame]

/-- A move of both sides keeps the first game in step, or starts the second one. -/
theorem step {move : WireMove} {seat : Seat}
    (ht : (Games.Series.protocol rules).reactive.step s (move, seat) = .ok t)
    (ht' : ((Series.protocol rules').reactive decode).step s' (move, seat) = .ok t') :
    Paired rules related t t' ∨ Parted rules rules' t t' := by
  obtain ⟨mv, hmv, ht'⟩ := bind_ok_iff.mp ht'
  rcases Games.Series.applyMove_ok_iff.mp ht with ⟨hrun, inner, hinner, rfl⟩ | ⟨hover, hmore, rfl⟩
  · rcases Series.applyMove_ok_iff.mp ht' with ⟨-, inner', hinner', rfl⟩ | ⟨hover', -⟩
    · have hstep' : (rules'.inner.reactive decode).step s'.inner (move, seat) = .ok inner' :=
        bind_ok_iff.mpr ⟨mv, hmv, hinner'⟩
      exact .inl ⟨h.first, h.first', h.maxGames, h.maxGames',
        hgame.inStep.step h.inner hinner hstep'⟩
    · rw [← h.inner_isTerminal hgame, hrun] at hover'
      cases hover'
  · rcases Series.applyMove_ok_iff.mp ht' with ⟨hrun', -⟩ | ⟨-, -, rfl⟩
    · rw [← h.inner_isTerminal hgame, hover] at hrun'
      cases hrun'
    · refine .inr ⟨?_, ?_, ⟨⟨"", rules.inner.balances s.inner⟩, ?_⟩, ⟨_, rfl⟩⟩
      · simp only [Games.Series.nextGame, h.first]
        rfl
      · simp only [Games.Series.isTerminal, hover, Bool.true_and, Bool.or_eq_false_iff,
          decide_eq_false_iff_not, h.first, h.maxGames] at hmore
        omega
      · simp only [Games.Series.nextGame, h.first]
        rfl

/-- Inside the first game, and after it if it is the last one, the same moves are
accepted; between two games TypeScript takes moves that do not parse. -/
theorem alike_iff : Reactive.Alike (Games.Series.protocol rules).reactive
    ((Series.protocol rules').reactive decode) s s' ↔ OneGame rules s := by
  constructor
  · intro halike
    refine ⟨h.first, ?_⟩
    intro hover
    by_contra hmore
    rw [Bool.not_eq_true] at hmore
    obtain ⟨move, _, hmove⟩ := hgame.unparsed
    have haccepts := (halike.accepts (move, .A)).mp
      ⟨_, Games.Series.applyMove_ok_iff.mpr (.inr ⟨hover, hmore, rfl⟩)⟩
    obtain ⟨next, hnext⟩ := haccepts
    obtain ⟨mv, hmv, -⟩ := bind_ok_iff.mp hnext
    rw [hmove] at hmv
    cases hmv
  · rintro ⟨-, hlast⟩
    refine ⟨h.view hgame, ?_⟩
    rintro ⟨move, seat⟩
    constructor
    · rintro ⟨next, hnext⟩
      rcases Games.Series.applyMove_ok_iff.mp hnext with ⟨hrun, inner, hinner, -⟩ | ⟨hover, hmore, -⟩
      · obtain ⟨inner', hinner'⟩ :=
          ((hgame.inStep.alike h.inner).accepts (move, seat)).mp ⟨inner, hinner⟩
        obtain ⟨mv, hmv, hinner'⟩ := bind_ok_iff.mp hinner'
        rw [h.inner_isTerminal hgame] at hrun
        exact ⟨_, bind_ok_iff.mpr ⟨mv, hmv,
          Series.applyMove_ok_iff.mpr (.inl ⟨hrun, inner', hinner', rfl⟩)⟩⟩
      · rw [hlast hover] at hmore
        cases hmore
    · rintro ⟨_, hnext⟩
      obtain ⟨mv, hmv, hnext⟩ := bind_ok_iff.mp hnext
      rcases Series.applyMove_ok_iff.mp hnext with ⟨hrun, inner', hinner', -⟩ | ⟨hover, hmore, -⟩
      · obtain ⟨inner, hinner⟩ := ((hgame.inStep.alike h.inner).accepts (move, seat)).mpr
          ⟨inner', bind_ok_iff.mpr ⟨mv, hmv, hinner'⟩⟩
        rw [← h.inner_isTerminal hgame] at hrun
        exact ⟨_, Games.Series.applyMove_ok_iff.mpr (.inl ⟨hrun, inner, hinner, rfl⟩)⟩
      · rw [← h.inner_isTerminal hgame] at hover
        rw [← h.isTerminal hgame, hlast hover] at hmore
        cases hmore

end Paired

namespace Parted

variable (hgame : SameGame rules rules' decode related) (h : Parted rules rules' s s')
include hgame h

theorem seat_eq {move : WireMove} {seat : Seat}
    (ht : (Games.Series.protocol rules).reactive.step s (move, seat) = .ok t) : seat = .B := by
  obtain ⟨ctx, hinner⟩ := h.inner
  have hrun := hgame.running ctx .B
  rw [← hinner] at hrun
  rcases Games.Series.applyMove_ok_iff.mp ht with ⟨-, inner, hmove, -⟩ | ⟨hover, -⟩
  · rw [hinner] at hmove
    exact hgame.opener ⟨inner, hmove⟩
  · rw [hrun] at hover
    cases hover

theorem seat_eq' {move : WireMove} {seat : Seat}
    (ht' : ((Series.protocol rules').reactive decode).step s' (move, seat) = .ok t') :
    seat = .A := by
  obtain ⟨_, -, ht'⟩ := bind_ok_iff.mp ht'
  obtain ⟨ctx, hinner⟩ := h.inner'
  have hrun := hgame.running' ctx
  rw [← hinner] at hrun
  rcases Series.applyMove_ok_iff.mp ht' with ⟨-, _, hmove, -⟩ | ⟨hover, -⟩
  · rw [hinner] at hmove
    exact hgame.opener' hmove
  · rw [hrun] at hover
    cases hover

theorem not_alike : ¬Reactive.Alike (Games.Series.protocol rules).reactive
    ((Series.protocol rules').reactive decode) s s' := by
  intro halike
  obtain ⟨ctx, hinner⟩ := h.inner'
  obtain ⟨move, next, hnext⟩ := hgame.opens ctx
  obtain ⟨mv, hmv, hnext⟩ := bind_ok_iff.mp hnext
  have hrun := hgame.running' ctx
  rw [← hinner] at hrun hnext
  obtain ⟨_, ht⟩ := (halike.accepts (move, .A)).mpr
    ⟨_, bind_ok_iff.mpr ⟨mv, hmv, Series.applyMove_ok_iff.mpr (.inl ⟨hrun, next, hnext, rfl⟩)⟩⟩
  cases h.seat_eq hgame ht

end Parted

/-- After all that both sides accept they are in step in the first game, or have just
parted at the second. -/
theorem SameGame.paired_or_parted (hgame : SameGame rules rules' decode related)
    {inputs : List (WireMove × Seat)} (hstart : Paired rules related s s')
    (ht : (Games.Series.protocol rules).reactive.play s inputs = .ok t)
    (ht' : ((Series.protocol rules').reactive decode).play s' inputs = .ok t') :
    Paired rules related t t' ∨ Parted rules rules' t t' := by
  refine Reactive.play_related
    (fun s s' => Paired rules related s s' ∨ Parted rules rules' s s') ?_ (.inl hstart) ht ht'
  rintro s s' ⟨move, seat⟩ t t' (hpaired | hparted) ht ht'
  · exact hpaired.step hgame ht ht'
  · -- no move is accepted by both
    have hseats := (hparted.seat_eq hgame ht).symm.trans (hparted.seat_eq' hgame ht')
    cases hseats

/-- How far two series are in step. -/
structure InStep (rules : Games.Series.Rules Inner WireMove) (rules' : Series.Rules Inner' Move)
    (decode : WireMove → Except String Move) (s : Games.SeriesState Inner)
    (s' : SeriesState Inner') : Prop where
  /-- Throughout, if there is one game. -/
  single : rules.maxGames = 1 → Reactive.SameBehaviour (Games.Series.protocol rules).reactive
    ((Series.protocol rules').reactive decode) s s'
  /-- In what they show, until a second game starts. -/
  shown : ∀ inputs t t', (Games.Series.protocol rules).reactive.play s inputs = .ok t →
    ((Series.protocol rules').reactive decode).play s' inputs = .ok t' → t.gamesPlayed = 0 →
    (Games.Series.protocol rules).reactive.view t =
      ((Series.protocol rules').reactive decode).view t'
  /-- In all, exactly until a second game can start. -/
  alike_iff : ∀ inputs t t', (Games.Series.protocol rules).reactive.play s inputs = .ok t →
    ((Series.protocol rules').reactive decode).play s' inputs = .ok t' →
    (Reactive.Alike (Games.Series.protocol rules).reactive
      ((Series.protocol rules').reactive decode) t t' ↔ OneGame rules t)

theorem SameGame.inStep_of_paired (hgame : SameGame rules rules' decode related)
    (hstart : Paired rules related s s') : InStep rules rules' decode s s' where
  single hone inputs t t' ht ht' := by
    rcases hgame.paired_or_parted hstart ht ht' with hpaired | hparted
    · refine (hpaired.alike_iff hgame).mpr ⟨hpaired.first, ?_⟩
      intro hover
      have hlast : t.maxGames ≤ t.gamesPlayed + 1 := by
        rw [hpaired.maxGames, hone, hpaired.first]
        rfl
      simp [Games.Series.isTerminal, hover, hlast]
    · have hmore := hparted.more
      omega
  shown inputs t t' ht ht' hfirst := by
    rcases hgame.paired_or_parted hstart ht ht' with hpaired | hparted
    · exact hpaired.view hgame
    · have hsecond := hparted.second
      omega
  alike_iff inputs t t' ht ht' := by
    rcases hgame.paired_or_parted hstart ht ht' with hpaired | hparted
    · exact hpaired.alike_iff hgame
    · refine iff_of_false (hparted.not_alike hgame) ?_
      rintro ⟨_, -⟩
      have hsecond := hparted.second
      omega

end Series

theorem transfer_toNat (stake : UInt64) {winner loser : UInt64}
    (hsum : winner.toNat + loser.toNat < 2 ^ 64) :
    ((winner + min stake loser).toNat : Int) =
        winner.toNat + (if (stake.toNat : Int) < loser.toNat then (stake.toNat : Int)
          else loser.toNat) ∧
      ((loser - min stake loser).toNat : Int) =
        loser.toNat - (if (stake.toNat : Int) < loser.toNat then (stake.toNat : Int)
          else loser.toNat) ∧
      (winner + min stake loser).toNat + (loser - min stake loser).toNat =
        winner.toNat + loser.toNat := by
  have hmin : min stake loser = if stake ≤ loser then stake else loser := rfl
  have hle : min stake loser ≤ loser := by
    rw [hmin]
    split
    · assumption
    · exact UInt64.le_refl _
  have hshift : ((min stake loser).toNat : Int) =
      if (stake.toNat : Int) < loser.toNat then (stake.toNat : Int) else loser.toNat := by
    rw [hmin]
    simp only [UInt64.le_iff_toNat_le]
    split <;> split <;> omega
  have hadd : (winner + min stake loser).toNat = winner.toNat + (min stake loser).toNat := by
    rw [UInt64.toNat_add]
    exact Nat.mod_eq_of_lt (by omega)
  have hsub : (loser - min stake loser).toNat = loser.toNat - (min stake loser).toNat :=
    UInt64.toNat_sub_of_le _ _ (UInt64.le_iff_toNat_le.mpr hle)
  refine ⟨?_, ?_, ?_⟩ <;> omega

theorem stake_toNat (defaultStake a b : UInt64) :
    ((min defaultStake (min a b)).toNat : Int) =
      (if (defaultStake.toNat : Int) < (if (a.toNat : Int) < b.toNat then (a.toNat : Int)
          else b.toNat) then (defaultStake.toNat : Int)
        else if (a.toNat : Int) < b.toNat then (a.toNat : Int) else b.toNat) := by
  have hmin : ∀ x y : UInt64, min x y = if x ≤ y then x else y := fun _ _ => rfl
  simp only [hmin, UInt64.le_iff_toNat_le]
  split_ifs <;> omega

def cellValue (cell : UInt8) : Int := cell.toNat

theorem cellValue_injective : Function.Injective cellValue := by
  intro x y h
  exact UInt8.toNat_inj.mp (Int.ofNat.inj h)

theorem byteOf_cellValue (cell : UInt8) : Games.byteOf (cellValue cell) = cell := by
  have hlt : (cell.toNat : Int) % 256 = cell.toNat := Int.emod_eq_of_lt (by omega)
    (by have := cell.toNat_lt; omega)
  rw [Games.byteOf, cellValue, hlt, Int.toNat_natCast, UInt8.ofNat_toNat]

theorem map_byteOf_cellValue (board : Bytes) :
    (board.map cellValue).map Games.byteOf = board := by
  simp only [List.map_map, Function.comp_def, byteOf_cellValue, List.map_id']

theorem getElem?_map_cellValue {board : Bytes} {i : ℕ} {cell : UInt8} :
    (board.map cellValue)[i]? = some (cellValue cell) ↔ board[i]? = some cell := by
  rw [List.getElem?_map, Option.map_eq_some_iff]
  constructor
  · rintro ⟨_, hcell, hsame⟩
    rw [hcell, cellValue_injective hsame]
  · intro hcell
    exact ⟨cell, hcell, rfl⟩

section Commitment

variable {hash : Hash}

theorem computeCommitment_ok_iff {value salt : Bytes} {commitment : Bytes32} :
    computeCommitment hash value salt = .ok commitment ↔ minSaltLen ≤ salt.length ∧
      commitment = hash (domainCommitReveal ++ lengthPrefixed value ++ lengthPrefixed salt) := by
  simp only [computeCommitment, returned]

/-- Both sides commit a move to the same digest. -/
theorem computeCommitment_mirror {value salt : Bytes} {commitment : Bytes32}
    (h : computeCommitment hash value salt = .ok commitment) :
    Games.computeCommitment hash value salt = .ok commitment.bytes := by
  obtain ⟨hsalt, rfl⟩ := computeCommitment_ok_iff.mp h
  have hsalt' : Games.minSaltLen ≤ salt.length := hsalt
  rw [Games.computeCommitment, require_of hsalt', Games.hashCommitment]
  simp only [lengthPrefixedConcat_cons, lengthPrefixedConcat_nil, List.append_nil,
    List.append_assoc]
  rfl

theorem accumulator_mirror (prevAcc commitment : Bytes32) :
    (hash (Games.domainCommitReveal ++
      Engine.lengthPrefixedConcat [prevAcc.bytes, commitment.bytes])).bytes =
      (advanceAccumulator hash prevAcc commitment).bytes := by
  simp only [lengthPrefixedConcat_cons, lengthPrefixedConcat_nil, List.append_nil,
    advanceAccumulator, List.append_assoc]
  rfl

end Commitment

namespace TicTacToe

variable {hash : Hash} {s t : TicTacToeState} {mv : TicTacToeMove} {seat : Seat}
variable {move : Games.TicTacToeMove}

/-- The same state on the other side. -/
def mirror (s : TicTacToeState) : Games.TicTacToeState where
  board := s.board.map cellValue
  turn := s.turn
  movesCount := s.movesCount.toNat
  winner := s.winner
  balanceA := s.balanceA.toNat
  balanceB := s.balanceB.toNat
  total := s.total.toNat
  stake := s.stake.toNat
  moveAccumulator := s.moveAccumulator.bytes

/-- The balances fit into a word together, and an open game has a free cell. -/
structure Sound (s : TicTacToeState) : Prop where
  sum : s.balanceA.toNat + s.balanceB.toNat < 2 ^ 64
  count : s.winner = .undecided → s.movesCount.toNat < 9

theorem lineMark_mirror (board : Bytes) (line : Nat × Nat × Nat) :
    Games.TicTacToe.lineMark (board.map cellValue) line = (lineMark board line).map cellValue := by
  obtain ⟨x, _, _⟩ := line
  simp only [Games.TicTacToe.lineMark, lineMark, List.getElem?_map]
  cases board[x]? with
  | none => rfl
  | some v =>
    have hempty : cellValue v = Games.TicTacToe.emptyCell ↔ v = 0 :=
      cellValue_injective.eq_iff (a := v) (b := 0)
    have hsame : ∀ i : ℕ, (board[i]?).map cellValue = some (cellValue v) ↔ board[i]? = some v := by
      intro i
      rw [← List.getElem?_map]
      exact getElem?_map_cellValue
    simp only [Option.map_some, Option.filter_some, ne_eq, hempty, hsame, decide_eq_true_eq]
    split <;> rfl

theorem checkWinner_mirror (board : Bytes) (movesCount : UInt8) :
    Games.TicTacToe.checkWinner (board.map cellValue) movesCount.toNat =
      checkWinner board movesCount := by
  have hlines : Games.TicTacToe.lines.findSome?
      (Games.TicTacToe.lineMark (board.map cellValue)) =
      (Games.TicTacToe.lines.findSome? (lineMark board)).map cellValue := by
    rw [List.map_findSome?]
    exact congrArg (fun f => Games.TicTacToe.lines.findSome? f)
      (funext fun line => lineMark_mirror board line)
  rw [Games.TicTacToe.checkWinner, checkWinner, hlines]
  cases Games.TicTacToe.lines.findSome? (lineMark board) with
  | none =>
    have hfull : ((movesCount.toNat : Int) = 9) ↔ movesCount = 9 := by
      rw [← UInt8.toNat_inj]
      exact Int.ofNat_inj
    simp [hfull]
  | some v =>
    have hmark : cellValue v = Games.TicTacToe.markOf .A ↔ v = markFor .A :=
      cellValue_injective.eq_iff (a := v) (b := 1)
    simp [hmark]

theorem shares_mirror (h : Sound s) (winner : Games.TicTacToeWinner) :
    Games.TicTacToe.shares (mirror s) winner =
        (((shares s winner).1.toNat : Int), ((shares s winner).2.toNat : Int)) ∧
      (shares s winner).1.toNat + (shares s winner).2.toNat =
        s.balanceA.toNat + s.balanceB.toNat := by
  have hsum := h.sum
  cases winner with
  | undecided => exact ⟨rfl, rfl⟩
  | draw => exact ⟨rfl, rfl⟩
  | partyA =>
    obtain ⟨hwin, hlose, hkept⟩ := transfer_toNat s.stake hsum
    exact ⟨Prod.ext hwin.symm hlose.symm, hkept⟩
  | partyB =>
    rw [Nat.add_comm] at hsum
    obtain ⟨hwin, hlose, hkept⟩ := transfer_toNat s.stake hsum
    rw [Nat.add_comm, Nat.add_comm s.balanceB.toNat] at hkept
    exact ⟨Prod.ext hlose.symm hwin.symm, hkept⟩

theorem movesCount_succ (h : Sound s) (hopen : s.winner = .undecided) :
    (s.movesCount + 1).toNat = s.movesCount.toNat + 1 := by
  have hcount := h.count hopen
  rw [UInt8.toNat_add]
  exact Nat.mod_eq_of_lt (by simp only [UInt8.toNat_one]; omega)

theorem count_of_checkWinner {board : Bytes} {movesCount : UInt8}
    (hopen : checkWinner board movesCount = .undecided) : movesCount ≠ 9 := by
  rintro rfl
  unfold checkWinner at hopen
  split at hopen
  · split at hopen <;> cases hopen
  · cases hopen

theorem applyMove_mirror (h : Sound s) (hmove : applyMove hash s mv seat = .ok t) :
    Games.TicTacToe.applyMove hash (mirror s) ⟨mv.cell.toNat, mv.salt⟩ seat = .ok (mirror t) ∧
      Sound t := by
  simp only [applyMove, returned] at hmove
  obtain ⟨hopen, hturn, hcell, hfree, _, hcommitment, rfl⟩ := hmove
  have hsucc := movesCount_succ h hopen
  have hcount : (mirror s).movesCount + 1 = ((s.movesCount + 1).toNat : Int) := by
    rw [hsucc]
    rfl
  have hboard : (mirror s).board.set mv.cell.toNat (Games.TicTacToe.markOf seat) =
      (s.board.set mv.cell.toNat (markFor seat)).map cellValue := by
    rw [List.map_set]
    cases seat <;> rfl
  obtain ⟨hshares, hkept⟩ := shares_mirror h
    (checkWinner (s.board.set mv.cell.toNat (markFor seat)) (s.movesCount + 1))
  refine ⟨?_, hkept.trans_lt h.sum, ?_⟩
  · have hrange : (0 : Int) ≤ mv.cell.toNat ∧ (mv.cell.toNat : Int) ≤ 8 := by
      exact ⟨by omega, by exact_mod_cast hcell⟩
    have hfree' : (mirror s).board[mv.cell.toNat]? = some Games.TicTacToe.emptyCell :=
      getElem?_map_cellValue.mpr hfree
    have hsalt : Games.minSaltLen ≤ mv.salt.length := (computeCommitment_ok_iff.mp hcommitment).1
    have hplace : Games.u64s [(mirror s).movesCount + 1, (mv.cell.toNat : Int)] =
        .ok (u64ToBeBytes (s.movesCount + 1).toUInt64 ++ u64ToBeBytes mv.cell.toUInt64) := by
      have hwords := u64s_toNat [(s.movesCount + 1).toUInt64, mv.cell.toUInt64]
      rw [hcount]
      simpa using hwords
    have hvalue : Games.byteOf (Games.TicTacToe.markOf seat) = moverByte seat := by
      cases seat <;> rfl
    have hcommitment' := computeCommitment_mirror hcommitment
    rw [moveValue, ← hvalue] at hcommitment'
    simp only [Games.TicTacToe.applyMove, returned, Int.toNat_natCast]
    refine ⟨hopen, hturn, hrange, hfree', hsalt, _, hplace, _, hcommitment', ?_⟩
    rw [hboard, hcount, checkWinner_mirror, hshares]
    simp only [mirror, Games.TicTacToe.advanceAccumulator, accumulator_mirror]
    rfl
  · intro hnext
    have hnine := count_of_checkWinner hnext
    rw [Ne, ← UInt8.toNat_inj, hsucc] at hnine
    have hnine' : s.movesCount.toNat + 1 ≠ 9 := hnine
    have hfree := h.count hopen
    change (s.movesCount + 1).toNat < 9
    omega

theorem exists_applyMove {next : Games.TicTacToeState}
    (hmove : Games.TicTacToe.applyMove hash (mirror s) move seat = .ok next) :
    ∃ mv t, decodeMove move = .ok mv ∧ applyMove hash s mv seat = .ok t := by
  simp only [Games.TicTacToe.applyMove, returned]
    at hmove
  obtain ⟨hopen, hturn, hrange, hfree, hsalt, -⟩ := hmove
  have hnat : (UInt8.ofNat move.cell.toNat).toNat = move.cell.toNat :=
    UInt8.toNat_ofNat_of_lt' (by simp only [UInt8.size]; omega)
  have hcell : UInt8.ofNat move.cell.toNat ≤ 8 := by
    rw [UInt8.le_iff_toNat_le, hnat]
    change move.cell.toNat ≤ 8
    omega
  have hfree' : s.board[(UInt8.ofNat move.cell.toNat).toNat]? = some 0 := by
    rw [hnat]
    exact getElem?_map_cellValue.mp hfree
  have hdecode : decodeMove move = .ok ⟨UInt8.ofNat move.cell.toNat, move.salt⟩ := by
    rw [decodeMove, require_of ⟨hrange.1, by omega⟩]
    rfl
  have haccepted : ∃ t, applyMove hash s ⟨UInt8.ofNat move.cell.toNat, move.salt⟩ seat = .ok t := by
    simp only [applyMove, returned]
    exact ⟨_, hopen, hturn, hcell, hfree', _, computeCommitment_ok_iff.mpr ⟨hsalt, rfl⟩, rfl⟩
  obtain ⟨t, ht⟩ := haccepted
  exact ⟨_, t, hdecode, ht⟩

theorem decodeMove_ok (h : decodeMove move = .ok mv) :
    move = ⟨mv.cell.toNat, mv.salt⟩ := by
  obtain ⟨cell, _⟩ := move
  simp only [decodeMove, returned] at h
  obtain ⟨_, rfl⟩ := h
  have hnat : (UInt8.ofNat cell.toNat).toNat = cell.toNat :=
    UInt8.toNat_ofNat_of_lt' (by simp only [UInt8.size]; omega)
  simp only [Games.TicTacToeMove.mk.injEq, and_true]
  omega

theorem encodeState_mirror (s : TicTacToeState) :
    Games.TicTacToe.encodeState (mirror s) = .ok (encodeState s) := by
  have hnumbers : Games.u64s [(mirror s).balanceA, (mirror s).balanceB, (mirror s).stake] =
      .ok (u64ToBeBytes s.balanceA ++ u64ToBeBytes s.balanceB ++ u64ToBeBytes s.stake) := by
    have hwords := u64s_toNat [s.balanceA, s.balanceB, s.stake]
    simpa [mirror] using hwords
  have hboard : (mirror s).board.map Games.byteOf = s.board := map_byteOf_cellValue s.board
  have hcount : Games.byteOf (mirror s).movesCount = s.movesCount := byteOf_cellValue s.movesCount
  have hwinner : Games.TicTacToe.winnerCode (mirror s).winner = winnerCode s.winner := by
    cases hw : s.winner <;> simp [mirror, hw, Games.TicTacToe.winnerCode, winnerCode]
  rw [Games.TicTacToe.encodeState, hnumbers, ok_bind, hboard, hcount, hwinner, encodeState]
  cases hturn : s.turn <;>
    simp only [mirror, hturn, turnByte, List.append_assoc] <;> rfl

/-- A single game is the same machine on both sides. -/
theorem bisimulation (hash : Hash) (stake : UInt64) :
    Reactive.Bisimulation (Games.TicTacToe.protocol hash stake.toNat).reactive
      ((protocol hash stake).reactive decodeMove) (fun s s' => s = mirror s' ∧ Sound s') := by
  refine bisimulation_of_mirror (fun s _ => ?_) (fun _ hnext => exists_applyMove hnext) ?_
  · simp only [Engine.Protocol.reactive, Protocol.reactive, Games.TicTacToe.protocol, protocol,
      encodeState_mirror]
    rfl
  · intro s move mv seat t hsound hmv ht
    have hmove : move = ⟨mv.cell.toNat, mv.salt⟩ := decodeMove_ok hmv
    subst hmove
    exact applyMove_mirror hsound ht

theorem sameGame (hash : Hash) (maxGames stake : UInt64) :
    SameGame (Games.MultiGameTicTacToe.rules hash maxGames.toNat stake.toNat)
      (TicTacToeSeries.rules hash maxGames stake) decodeMove
      (fun s s' => s = mirror s' ∧ Sound s') where
  name := rfl
  maxGames := rfl
  inStep := bisimulation hash stake
  stake := by
    rintro _ s ⟨rfl, -⟩
    rfl
  running _ _ := rfl
  running' _ := rfl
  opener h := Games.TicTacToe.turn_of_legal h
  opener' h := by
    simp only [TicTacToeSeries.rules, protocol, applyMove, returned] at h
    exact h.2.1
  opens ctx := ⟨⟨0, List.replicate 16 0⟩, _, rfl⟩
  unparsed := ⟨⟨-1, []⟩, _, rfl⟩

end TicTacToe

namespace Caro

variable {hash : Hash} {s t : CaroState} {mv : CaroMove} {seat : Seat}
variable {size movesCount : ℕ}

/-- The same state on the other side. The total is not kept here. -/
def mirror (s : CaroState) : Games.CaroState where
  board := s.board.map cellValue
  size := s.size
  turn := s.turn
  winner := cellValue s.winner
  lastMove := s.lastMove
  movesCount := s.movesCount
  balanceA := s.balanceA.toNat
  balanceB := s.balanceB.toNat
  total := s.balanceA.toNat + s.balanceB.toNat
  stake := s.stake.toNat
  moveAccumulator := s.moveAccumulator.bytes

/-- The board is one that JavaScript can hold, the balances fit into a word together, and
an open game has a free cell. -/
structure Sound (s : CaroState) : Prop where
  cells : s.size * s.size < 2 ^ 32
  sum : s.balanceA.toNat + s.balanceB.toNat < 2 ^ 64
  count : s.winner = 0 → s.movesCount < s.size * s.size

theorem size_lt (h : size * size < 2 ^ 32) : size < 2 ^ 16 := by
  exact Nat.mul_self_lt_mul_self_iff.mp h

theorem asI32_eq {n : ℕ} (h : n < 2 ^ 31) : asI32 n = n :=
  Int.bmod_eq_of_le (by norm_num) (by norm_num; omega)

theorem stoneAt_mirror (hsize : size < 2 ^ 16) (board : Bytes) (r c : Int) :
    Games.Caro.stoneAt (board.map cellValue) size r c = (stoneAt board size r c).map cellValue := by
  have hbounds : Games.Caro.inBounds size r c = inBounds size r c := by
    rw [Games.Caro.inBounds, inBounds, asI32_eq (by omega)]
  rw [Games.Caro.stoneAt, stoneAt, hbounds]
  by_cases hin : inBounds size r c = true
  · rw [if_pos hin, if_pos hin]
    rw [← hbounds, Games.Caro.inBounds, decide_eq_true_eq] at hin
    obtain ⟨hr, -, hc, -⟩ := hin
    obtain ⟨r, rfl⟩ := Int.eq_ofNat_of_zero_le hr
    obtain ⟨c, rfl⟩ := Int.eq_ofNat_of_zero_le hc
    have hindex : ((r : Int) * size + c).toNat = (r : Int).toNat * size + (c : Int).toNat := by
      exact_mod_cast Int.toNat_natCast (r * size + c)
    rw [hindex, List.getElem?_map]
  · rw [if_neg hin, if_neg hin]
    rfl

theorem winnerAround_mirror {idx : ℕ} (hsize : size < 2 ^ 16) (board : Bytes) :
    Games.Caro.winnerAround (board.map cellValue) size idx =
      cellValue (winnerAround board size idx) := by
  have hbounds : ((idx : Int) < 0 ∨ (size : Int) * size ≤ idx) ↔ size * size ≤ idx := by
    constructor
    · rintro (hneg | hle)
      · omega
      · exact_mod_cast hle
    · intro hle
      right
      exact_mod_cast hle
  have hmark : (board.map cellValue).getD (idx : Int).toNat 0 = cellValue (board.getD idx 0) := by
    rw [Int.toNat_natCast, List.getD_eq_getElem?_getD, List.getD_eq_getElem?_getD,
      List.getElem?_map]
    cases board[idx]? <;> rfl
  have hzero : ∀ mark : UInt8, cellValue mark = 0 ↔ mark = 0 := fun mark =>
    cellValue_injective.eq_iff (a := mark) (b := 0)
  rw [Games.Caro.winnerAround, winnerAround, hmark]
  simp only [hbounds, hzero]
  split
  · rfl
  · next hidx =>
      have hrow : asI32 (idx / size) = (idx : Int) / size := by
        have hlt : idx / size < size := Nat.div_lt_of_lt_mul (by omega)
        rw [asI32_eq (by omega)]
        rfl
      have hcol : asI32 (idx % size) = (idx : Int) % size := by
        have hpos : 0 < size := by
          rcases Nat.eq_zero_or_pos size with rfl | hpos
          · omega
          · exact hpos
        have hlt := Nat.mod_lt idx hpos
        rw [asI32_eq (by omega)]
        rfl
      have hwins : Games.Caro.winsAlong (Games.Caro.stoneAt (board.map cellValue) size) 0
          (cellValue (board.getD idx 0)) (size : Int).toNat (idx / size) (idx % size) =
          Games.Caro.winsAlong (stoneAt board size) 0 (board.getD idx 0) size
            (asI32 (idx / size)) (asI32 (idx % size)) := by
        rw [hrow, hcol, Int.toNat_natCast]
        exact funext fun dir =>
          Games.Caro.winsAlong_map cellValue_injective (stoneAt_mirror hsize board) 0 _ _ _ _ dir
      rw [hwins]
      split
      · rfl
      · split <;> rfl

theorem resultOf_mirror {cell : ℕ} (hsize : size < 2 ^ 16) (board : Bytes) :
    Games.Caro.resultOf (board.map cellValue) size movesCount cell =
      cellValue (resultOf board size movesCount cell) := by
  have hzero : cellValue (winnerAround board size cell) = 0 ↔ winnerAround board size cell = 0 :=
    cellValue_injective.eq_iff (a := winnerAround board size cell) (b := 0)
  have hfull : ((movesCount : Int) = size * size) ↔ movesCount = size * size := by
    exact_mod_cast Iff.rfl
  simp only [Games.Caro.resultOf, resultOf, winnerAround_mirror hsize, hzero, hfull]
  split <;> rfl

theorem shares_mirror (h : Sound s) (winner : UInt8) :
    Games.Caro.shares (mirror s) (cellValue winner) =
        (((shares s winner).1.toNat : Int), ((shares s winner).2.toNat : Int)) ∧
      (shares s winner).1.toNat + (shares s winner).2.toNat =
        s.balanceA.toNat + s.balanceB.toNat := by
  have hsum := h.sum
  have hA : cellValue winner = 1 ↔ winner = 1 := cellValue_injective.eq_iff (a := winner) (b := 1)
  have hB : cellValue winner = 2 ↔ winner = 2 := cellValue_injective.eq_iff (a := winner) (b := 2)
  simp only [Games.Caro.shares, shares, hA, hB]
  split
  · obtain ⟨hwin, hlose, hkept⟩ := transfer_toNat s.stake hsum
    exact ⟨Prod.ext hwin.symm hlose.symm, hkept⟩
  · split
    · rw [Nat.add_comm] at hsum
      obtain ⟨hwin, hlose, hkept⟩ := transfer_toNat s.stake hsum
      rw [Nat.add_comm, Nat.add_comm s.balanceB.toNat] at hkept
      exact ⟨Prod.ext hlose.symm hwin.symm, hkept⟩
    · exact ⟨rfl, rfl⟩

theorem count_of_resultOf {board : Bytes} {cell : ℕ}
    (hopen : resultOf board size movesCount cell = 0) : movesCount ≠ size * size := by
  intro hfull
  unfold resultOf at hopen
  by_cases hwinner : winnerAround board size cell = 0
  · rw [if_pos ⟨hwinner, hfull⟩] at hopen
    cases hopen
  · rw [if_neg fun h => hwinner h.1] at hopen
    exact hwinner hopen

theorem toNat_ofNat {n : ℕ} (h : n < 2 ^ 64) : (UInt64.ofNat n).toNat = n :=
  UInt64.toNat_ofNat_of_lt' h

theorem applyMove_mirror (h : Sound s) (hmove : applyMove hash s mv seat = .ok t) :
    Games.Caro.applyMove hash (mirror s) ⟨mv.cell, mv.salt⟩ seat = .ok (mirror t) ∧ Sound t := by
  simp only [applyMove, returned] at hmove
  obtain ⟨hopen, hturn, hrange, hfree, _, hcommitment, rfl⟩ := hmove
  obtain ⟨cell, salt⟩ := mv
  have hcells := h.cells
  have hcount := h.count hopen
  push Not at hrange
  obtain ⟨hnonneg, hlt⟩ := hrange
  obtain ⟨cell, rfl⟩ := Int.eq_ofNat_of_zero_le hnonneg
  have hcell : cell < s.size * s.size := Int.ofNat_lt.mp hlt
  have hboard : Games.Caro.applyMark (mirror s).board cell (Games.Caro.markOf seat) =
      (s.board.set cell (markFor seat)).map cellValue := by
    rw [Games.Caro.applyMark, List.map_set, Int.toNat_natCast]
    cases seat <;> rfl
  have hwinner : Games.Caro.resultOf ((s.board.set cell (markFor seat)).map cellValue)
      (mirror s).size ((mirror s).movesCount + 1) cell =
      cellValue (resultOf (s.board.set cell (markFor seat)) s.size (s.movesCount + 1) cell) :=
    resultOf_mirror (size_lt hcells) _
  obtain ⟨hshares, hkept⟩ := shares_mirror h
    (resultOf (s.board.set cell (markFor seat)) s.size (s.movesCount + 1) cell)
  refine ⟨?_, hcells, hkept.trans_lt h.sum, ?_⟩
  · have hrange : (0 : Int) ≤ cell ∧ (cell : Int) < (mirror s).size * (mirror s).size := by
      refine ⟨hnonneg, ?_⟩
      change (cell : Int) < (s.size : Int) * s.size
      exact_mod_cast hcell
    have hfree' : (mirror s).board[cell]? = some 0 := getElem?_map_cellValue.mpr hfree
    have hsalt : Games.minSaltLen ≤ salt.length := (computeCommitment_ok_iff.mp hcommitment).1
    have hplace : Games.u64s [(mirror s).movesCount + 1, (cell : Int)] =
        .ok (u64ToBeBytes (UInt64.ofNat (s.movesCount + 1)) ++ u64ToBeBytes (UInt64.ofNat cell)) := by
      have hwords := u64s_toNat [UInt64.ofNat (s.movesCount + 1), UInt64.ofNat cell]
      simp only [List.map_cons, List.map_nil, toNat_ofNat (show s.movesCount + 1 < 2 ^ 64 by omega),
        toNat_ofNat (show cell < 2 ^ 64 by omega), List.flatten_cons, List.flatten_nil,
        List.append_nil] at hwords
      exact hwords
    have hvalue : Games.byteOf (Games.Caro.markOf seat) = moverByte seat := by
      cases seat <;> rfl
    have hcommitment' := computeCommitment_mirror hcommitment
    rw [moveValue, ← hvalue] at hcommitment'
    simp only [Games.Caro.applyMove, returned, Int.toNat_natCast]
    have hopen' : (mirror s).winner = 0 := by
      simp only [mirror, hopen]
      rfl
    refine ⟨hopen', hturn, hrange, hfree', hsalt, _, hplace, _, hcommitment', ?_⟩
    have htotal : (mirror s).total =
        ((shares s (resultOf (s.board.set cell (markFor seat)) s.size (s.movesCount + 1)
          cell)).1.toNat : Int) +
        (shares s (resultOf (s.board.set cell (markFor seat)) s.size (s.movesCount + 1)
          cell)).2.toNat := by
      simp only [mirror]
      omega
    rw [hboard, hwinner, hshares, htotal]
    simp only [mirror, Games.Caro.advanceAccumulator, accumulator_mirror]
    rfl
  · intro hnext
    have hfull := count_of_resultOf hnext
    change s.movesCount + 1 < s.size * s.size
    omega

theorem exists_applyMove {move : Games.CaroMove} {next : Games.CaroState} (h : Sound s)
    (hmove : Games.Caro.applyMove hash (mirror s) move seat = .ok next) :
    ∃ mv t, decodeMove move = .ok mv ∧ applyMove hash s mv seat = .ok t := by
  simp only [Games.Caro.applyMove, returned] at hmove
  obtain ⟨hopen, hturn, ⟨_, hlt⟩, hfree, hsalt, -⟩ := hmove
  have hcells := h.cells
  have hlt' : move.cell < ((s.size * s.size : ℕ) : Int) := by
    exact hlt
  have hdecode : decodeMove move = .ok ⟨move.cell, move.salt⟩ := by
    rw [decodeMove, require_of ⟨by omega, by omega⟩]
    rfl
  have hopen' : s.winner = 0 := cellValue_injective hopen
  have haccepted : ∃ t, applyMove hash s ⟨move.cell, move.salt⟩ seat = .ok t := by
    simp only [applyMove, returned]
    exact ⟨_, hopen', hturn, by omega, getElem?_map_cellValue.mp hfree, _,
      computeCommitment_ok_iff.mpr ⟨hsalt, rfl⟩, rfl⟩
  obtain ⟨t, ht⟩ := haccepted
  exact ⟨_, t, hdecode, ht⟩

theorem decodeMove_ok {move : Games.CaroMove} (h : decodeMove move = .ok mv) :
    move = ⟨mv.cell, mv.salt⟩ := by
  simp only [decodeMove, returned] at h
  obtain ⟨-, rfl⟩ := h
  rfl

theorem encodeState_mirror (h : Sound s) :
    Games.Caro.encodeState (mirror s) = .ok (encodeState s) := by
  have hcells := size_lt h.cells
  have hsize : Engine.u64ToBeBytes (mirror s).size = .ok (u64ToBeBytes (UInt64.ofNat s.size)) := by
    rw [← u64ToBeBytes_toNat, toNat_ofNat (by omega)]
    rfl
  have hA : Engine.u64ToBeBytes (mirror s).balanceA = _ := u64ToBeBytes_toNat s.balanceA
  have hB : Engine.u64ToBeBytes (mirror s).balanceB = _ := u64ToBeBytes_toNat s.balanceB
  have hstake : Engine.u64ToBeBytes (mirror s).stake = _ := u64ToBeBytes_toNat s.stake
  have hboard : (mirror s).board.map Games.byteOf = s.board := map_byteOf_cellValue s.board
  have hwinner : Games.byteOf (mirror s).winner = s.winner := byteOf_cellValue s.winner
  rw [Games.Caro.encodeState, hsize, ok_bind, hA, ok_bind, hB, ok_bind, hstake, ok_bind, hboard,
    hwinner, encodeState]
  simp only [lengthPrefixedConcat_cons, lengthPrefixedConcat_nil, List.append_nil]
  cases hturn : s.turn <;>
    simp only [mirror, hturn, turnByte, List.append_assoc] <;> rfl

theorem bisimulation (hash : Hash) (size : ℕ) (stake : UInt64) :
    Reactive.Bisimulation (Games.Caro.protocol hash size stake.toNat).reactive
      ((protocol hash size stake).reactive decodeMove) (fun s s' => s = mirror s' ∧ Sound s') := by
  refine bisimulation_of_mirror (fun s hsound => ?_) exists_applyMove ?_
  · have hopen : (mirror s).winner = 0 ↔ s.winner = 0 :=
      cellValue_injective.eq_iff (a := s.winner) (b := 0)
    simp only [Engine.Protocol.reactive, Protocol.reactive, Games.Caro.protocol, protocol,
      encodeState_mirror hsound, ne_eq, hopen]
    rfl
  · intro s move mv seat t hsound hmv ht
    have hmove : move = ⟨mv.cell, mv.salt⟩ := decodeMove_ok hmv
    subst hmove
    exact applyMove_mirror hsound ht

theorem sameGame (hash : Hash) (maxGames stake : UInt64) (hpos : 0 < size) :
    SameGame (Games.MultiGameCaro.rules hash maxGames.toNat size stake.toNat)
      (CaroSeries.rules hash maxGames size stake) decodeMove
      (fun s s' => s = mirror s' ∧ Sound s') where
  name := rfl
  maxGames := rfl
  inStep := bisimulation hash size stake
  stake := by
    rintro _ s ⟨rfl, -⟩
    rfl
  running _ _ := rfl
  running' _ := rfl
  opener h := Games.Caro.turn_of_legal h
  opener' h := by
    simp only [CaroSeries.rules, protocol, applyMove, returned] at h
    exact h.2.1
  opens ctx := by
    refine ⟨⟨0, List.replicate 16 0⟩, ?_⟩
    have hcells : 0 < size * size := Nat.mul_pos hpos hpos
    have hfree : (List.replicate (size * size) (0 : UInt8))[0]? = some 0 :=
      List.getElem?_replicate_of_lt hcells
    have haccepted : ∃ t, applyMove hash (initialState hash size stake ctx)
        ⟨0, List.replicate 16 0⟩ .A = .ok t := by
      simp only [applyMove, returned]
      exact ⟨_, rfl, rfl, by simp only [initialState]; omega, hfree, _,
        computeCommitment_ok_iff.mpr ⟨by decide, rfl⟩, rfl⟩
    obtain ⟨t, ht⟩ := haccepted
    exact ⟨t, bind_ok_iff.mpr ⟨⟨0, List.replicate 16 0⟩, rfl, ht⟩⟩
  unparsed := ⟨⟨2 ^ 63, []⟩, _, rfl⟩

end Caro

/-- What both sides agree on before a series: a number of games, a stake, a board size that
both constructors and a JavaScript array allow, and balances that are parts of one `u64`. -/
structure SeriesTerms where
  maxGames : UInt64
  stake : UInt64
  size : ℕ
  balances : Balances
  maxGames_pos : 0 < maxGames
  three_le_size : 3 ≤ size
  cells_lt : size * size < 2 ^ 32
  sum_lt : balances.a.toNat + balances.b.toNat < 2 ^ 64

namespace SeriesTerms

variable (terms : SeriesTerms) (hash : Hash)

def ctx : Engine.ProtocolContext := ⟨"", ⟨terms.balances.a.toNat, terms.balances.b.toNat⟩⟩

def ctx' : TunnelContext := ⟨"", terms.balances, .A⟩

/-- The two tic-tac-toe series under these terms. -/
def ticTacToe : Games.Series.Rules Games.TicTacToeState Games.TicTacToeMove :=
  Games.MultiGameTicTacToe.rules hash terms.maxGames.toNat terms.stake.toNat

def ticTacToe' : Series.Rules TicTacToeState TicTacToeMove :=
  TicTacToeSeries.rules hash terms.maxGames terms.stake

/-- The two caro series under these terms. -/
def caro : Games.Series.Rules Games.CaroState Games.CaroMove :=
  Games.MultiGameCaro.rules hash terms.maxGames.toNat terms.size terms.stake.toNat

def caro' : Series.Rules CaroState CaroMove :=
  CaroSeries.rules hash terms.maxGames terms.size terms.stake

theorem size_pos : 0 < terms.size := lt_of_lt_of_le (by decide) terms.three_le_size

theorem ticTacToe_start :
    Games.TicTacToe.initialState hash terms.stake.toNat terms.ctx =
        TicTacToe.mirror (TicTacToe.initialState hash terms.stake terms.ctx') ∧
      TicTacToe.Sound (TicTacToe.initialState hash terms.stake terms.ctx') := by
  have htotal : (terms.balances.sum.toNat : Int) =
      terms.balances.a.toNat + terms.balances.b.toNat := by
    rw [Balances.sum, UInt64.toNat_add, Nat.mod_eq_of_lt terms.sum_lt]
    rfl
  have hfresh : (0 : UInt8).toNat < 9 := by decide
  refine ⟨?_, terms.sum_lt, fun _ => hfresh⟩
  simp only [Games.TicTacToe.initialState, TicTacToe.mirror, TicTacToe.initialState, ctx, ctx',
    htotal, stake_toNat]
  rfl

theorem caro_start :
    Games.Caro.initialState hash terms.size terms.stake.toNat terms.ctx =
        Caro.mirror (Caro.initialState hash terms.size terms.stake terms.ctx') ∧
      Caro.Sound (Caro.initialState hash terms.size terms.stake terms.ctx') := by
  have hboard : List.replicate ((terms.size : Int) * terms.size).toNat (0 : Int) =
      (List.replicate (terms.size * terms.size) (0 : UInt8)).map cellValue := by
    rw [List.map_replicate, ← Nat.cast_mul, Int.toNat_natCast]
    rfl
  refine ⟨?_, terms.cells_lt, terms.sum_lt, fun _ => Nat.mul_pos terms.size_pos terms.size_pos⟩
  simp only [Games.Caro.initialState, Caro.mirror, Caro.initialState, ctx, ctx', stake_toNat, hboard]
  rfl

end SeriesTerms

/-- The series of the same name, under the same terms. With one game they are the same
machine; with more they show the same until a second game starts, and are the same
machine exactly until one can start. -/
theorem series_inStep (terms : SeriesTerms) (hash : Hash) :
    InStep (terms.ticTacToe hash) (terms.ticTacToe' hash) TicTacToe.decodeMove
        (Games.Series.initialState (terms.ticTacToe hash) terms.ctx)
        (Series.initialState (terms.ticTacToe' hash) terms.ctx') ∧
      InStep (terms.caro hash) (terms.caro' hash) Caro.decodeMove
        (Games.Series.initialState (terms.caro hash) terms.ctx)
        (Series.initialState (terms.caro' hash) terms.ctx') := by
  constructor
  · obtain ⟨hinner, hsound⟩ := terms.ticTacToe_start hash
    exact (TicTacToe.sameGame hash terms.maxGames terms.stake).inStep_of_paired
      ⟨rfl, rfl, rfl, rfl, hinner, hsound⟩
  · obtain ⟨hinner, hsound⟩ := terms.caro_start hash
    exact (Caro.sameGame hash terms.maxGames terms.stake terms.size_pos).inStep_of_paired
      ⟨rfl, rfl, rfl, rfl, hinner, hsound⟩

namespace Sample

def sumHash : Hash := fun message => Bytes32.fill (message.foldl (· + ·) 0)

/-- Two games on the smallest board. -/
def twoGames : SeriesTerms where
  maxGames := 2
  stake := 1
  size := 3
  balances := ⟨5, 5⟩
  maxGames_pos := by decide
  three_le_size := by decide
  cells_lt := by decide
  sum_lt := by decide

def salt : Bytes := List.replicate 16 0

/-- The seats take turns on these cells; then A starts the next game. -/
def turns {Move : Type} (place : Int → Move) (cells : List Int) : List (Move × Seat) :=
  cells.mapIdx (fun i cell => (place cell, if i % 2 = 0 then .A else .B)) ++ [(place 0, .A)]

end Sample

/-- Both sides accept the inputs. Their encodings then differ, and a move by A is accepted
in Rust and refused in TypeScript. -/
def PartAfter {Inner Inner' WireMove Move : Type} (rules : Games.Series.Rules Inner WireMove)
    (rules' : Series.Rules Inner' Move) (decode : WireMove → Except String Move)
    (terms : SeriesTerms) (inputs : List (WireMove × Seat)) (move : WireMove) : Prop :=
  ∃ t t', (Games.Series.protocol rules).reactive.play
      (Games.Series.initialState rules terms.ctx) inputs = .ok t ∧
    ((Series.protocol rules').reactive decode).play
      (Series.initialState rules' terms.ctx') inputs = .ok t' ∧
    Games.Series.encodeState rules t ≠ .ok (Series.encodeState rules' t') ∧
    ¬(Games.Series.protocol rules).reactive.Accepts t (move, .A) ∧
    ((Series.protocol rules').reactive decode).Accepts t' (move, .A)

theorem partAfter_of_replay {Inner Inner' WireMove Move : Type}
    {rules : Games.Series.Rules Inner WireMove} {rules' : Series.Rules Inner' Move}
    {decode : WireMove → Except String Move} {terms : SeriesTerms} {inputs : List (WireMove × Seat)}
    {move : WireMove} (h : (match (Games.Series.protocol rules).reactive.play
          (Games.Series.initialState rules terms.ctx) inputs,
        ((Series.protocol rules').reactive decode).play
          (Series.initialState rules' terms.ctx') inputs with
      | .ok t, .ok t' =>
        decide (Games.Series.encodeState rules t ≠ .ok (Series.encodeState rules' t')) &&
          !((Games.Series.protocol rules).reactive.step t (move, .A)).isOk &&
          (((Series.protocol rules').reactive decode).step t' (move, .A)).isOk
      | _, _ => false) = true) :
    PartAfter rules rules' decode terms inputs move := by
  split at h
  next t t' ht ht' =>
    simp only [Bool.and_eq_true, decide_eq_true_eq, Bool.not_eq_true'] at h
    obtain ⟨⟨hencoded, hrefused⟩, haccepted⟩ := h
    refine ⟨t, t', ht, ht', hencoded, ?_, exists_ok_of_isOk haccepted⟩
    rintro ⟨next, hnext⟩
    rw [hnext] at hrefused
    cases hrefused
  next => cases h

/-- A game that A wins, and a drawn game of caro, followed by the move that starts the
second game. -/
theorem second_game_parts :
    PartAfter (Sample.twoGames.ticTacToe Sample.sumHash)
        (Sample.twoGames.ticTacToe' Sample.sumHash) TicTacToe.decodeMove Sample.twoGames
        (Sample.turns (Games.TicTacToeMove.mk · Sample.salt) [0, 1, 3, 4, 6]) ⟨0, Sample.salt⟩ ∧
      PartAfter (Sample.twoGames.caro Sample.sumHash) (Sample.twoGames.caro' Sample.sumHash)
        Caro.decodeMove Sample.twoGames
        (Sample.turns (Games.CaroMove.mk · Sample.salt) [0, 1, 2, 3, 4, 5, 6, 7, 8])
        ⟨0, Sample.salt⟩ := by
  constructor
  · apply partAfter_of_replay
    decide +kernel
  · apply partAfter_of_replay
    decide +kernel

end DopamintArena.Rust
