import DopamintArena.Foundation.HashChain
import DopamintArena.Rust.SeriesMatch

/-!
The accumulator of tic-tac-toe and caro as a chain over the moves. Every move
absorbs its mover, its number, its cell and its salt, and the accumulator is the
end of the encoding. Where the hash tells the strings of two games apart, equal
encodings come from equal moves, in TypeScript and in Rust, and both accumulate
the same digests.
-/

namespace DopamintArena.Games

open Foundation Engine HashChain

/-- What a move commits to: mover, number and cell, and the salt. -/
@[ext] structure Committed where
  mover : Party
  count : UInt64
  cell : UInt64
  salt : Bytes

namespace Committed

def value (c : Committed) : Bytes :=
  byteOf (TicTacToe.markOf c.mover) :: (Move.u64ToBeBytes c.count ++ Move.u64ToBeBytes c.cell)

/-- The string behind the commitment to a move. -/
def leaf (c : Committed) : Bytes := domainCommitReveal ++ lengthPrefixedConcat [c.value, c.salt]

theorem leaf_injective : Function.Injective leaf := by
  intro c d h
  have hlength : ∀ c : Committed, c.value.length = 17 := fun c => by simp [value]
  simp only [leaf, lengthPrefixedConcat, List.map_cons, List.map_nil, List.flatten_cons,
    List.flatten_nil, List.append_nil, List.append_cancel_left_eq, hlength,
    List.append_assoc] at h
  obtain ⟨hvalue, hrest⟩ := List.append_inj h (by rw [hlength, hlength])
  have hsalt : c.salt = d.salt := (List.append_inj hrest (by simp)).2
  obtain ⟨hmark, hnumbers⟩ := List.cons.inj hvalue
  obtain ⟨hcount, hcell⟩ := List.append_inj hnumbers (by simp)
  have hmover : c.mover = d.mover := by
    revert hmark
    cases c.mover <;> cases d.mover <;> decide
  exact Committed.ext hmover (Move.u64ToBeBytes_inj hcount) (Move.u64ToBeBytes_inj hcell) hsalt

end Committed

/-- The string behind the next accumulator. -/
def accumulated (accumulator commitment : Bytes32) : Bytes :=
  domainCommitReveal ++ lengthPrefixedConcat [accumulator.bytes, commitment.bytes]

/-- The string behind the first accumulator of a game. -/
def opened (domain : Bytes) : Bytes := domainCommitReveal ++ lengthPrefixedConcat [domain]

theorem accumulated_inj {a b c d : Bytes32} (h : accumulated a b = accumulated c d) :
    a = c ∧ b = d := by
  simp only [accumulated, lengthPrefixedConcat, List.map_cons, List.map_nil, List.flatten_cons,
    List.flatten_nil, List.append_nil, List.append_cancel_left_eq, Bytes32.length_bytes,
    List.append_assoc] at h
  obtain ⟨hfirst, hrest⟩ := List.append_inj h (by simp)
  exact ⟨Bytes32.ext_bytes hfirst, Bytes32.ext_bytes (List.append_cancel_left hrest)⟩

theorem opened_ne_accumulated {domain : Bytes} (hdomain : domain.length ≠ 72) (a b : Bytes32) :
    opened domain ≠ accumulated a b := by
  intro h
  have hlength := congrArg List.length h
  simp [opened, accumulated, lengthPrefixedConcat] at hlength
  omega

variable {State Turn : Type}

/-- The commitments of some moves, the first of them after `count` others. -/
def commitments (cellOf : Turn → Int) (saltOf : Turn → Bytes) :
    Int → List (Turn × Party) → List Committed
  | _, [] => []
  | count, (move, party) :: rest =>
    ⟨party, word (count + 1), word (cellOf move), saltOf move⟩ ::
      commitments cellOf saltOf (count + 1) rest

/-- A game in which a move is counted and absorbed. -/
structure Accumulates (hash : Hash) (m : Reactive State (Turn × Party) Shown String)
    (cellOf : Turn → Int) (saltOf : Turn → Bytes) (count : State → Int)
    (accumulator : State → Bytes) : Prop where
  turn_ext : ∀ {move move'}, cellOf move = cellOf move' → saltOf move = saltOf move' → move = move'
  step : ∀ {s move party t}, m.step s (move, party) = .ok t → IsU64 (cellOf move) ∧
    count t = count s + 1 ∧ ∀ digest : Bytes32, accumulator s = digest.bytes →
      accumulator t = (absorb hash accumulated Committed.leaf digest
        ⟨party, word (count s + 1), word (cellOf move), saltOf move⟩).bytes
  ends : ∀ {s bytes}, (m.view s).encoded = .ok bytes → ∃ front, bytes = front ++ accumulator s

variable {hash : Hash} {m : Reactive State (Turn × Party) Shown String} {cellOf : Turn → Int}
variable {saltOf : Turn → Bytes} {count : State → Int} {accumulator : State → Bytes}
variable {domain : Bytes} {start : State}

namespace Accumulates

variable (h : Accumulates hash m cellOf saltOf count accumulator)
include h

theorem play {moves : List (Turn × Party)} {s t : State}
    (ht : m.play s moves = .ok t) {digest : Bytes32}
    (hdigest : accumulator s = digest.bytes) :
    accumulator t = ((commitments cellOf saltOf (count s) moves).foldl
        (absorb hash accumulated Committed.leaf) digest).bytes ∧
      ∀ turn ∈ moves, IsU64 (cellOf turn.1) := by
  induction moves generalizing s digest with
  | nil =>
    cases ht
    exact ⟨hdigest, nofun⟩
  | cons _ _ ih =>
    obtain ⟨_, hnext, ht⟩ := Reactive.play_cons_ok_iff.mp ht
    obtain ⟨hcell, hcount, habsorbed⟩ := h.step hnext
    obtain ⟨hrest, hcells⟩ := ih ht (habsorbed digest hdigest)
    rw [hcount] at hrest
    exact ⟨hrest, List.forall_mem_cons.mpr ⟨hcell, hcells⟩⟩

theorem moves_eq {moves moves' : List (Turn × Party)} {n : Int}
    (hcells : ∀ turn ∈ moves, IsU64 (cellOf turn.1))
    (hcells' : ∀ turn ∈ moves', IsU64 (cellOf turn.1))
    (heq : commitments cellOf saltOf n moves = commitments cellOf saltOf n moves') :
    moves = moves' := by
  induction moves generalizing moves' n with
  | nil =>
    cases moves' with
    | nil => rfl
    | cons => cases heq
  | cons turn _ ih =>
    cases moves' with
    | nil => cases heq
    | cons turn' =>
      obtain ⟨hhead, hrest⟩ := List.cons.inj heq
      obtain ⟨hcell, hcells⟩ := List.forall_mem_cons.mp hcells
      obtain ⟨hcell', hcells'⟩ := List.forall_mem_cons.mp hcells'
      obtain ⟨hparty, -, hword, hsalt⟩ := Committed.mk.inj hhead
      have hmove : turn.1 = turn'.1 := h.turn_ext (word_inj hcell hcell' hword) hsalt
      rw [Prod.ext hmove hparty, ih hcells hcells' hrest]

end Accumulates

/-- The strings hashed in the course of a game. -/
def gameStrings (hash : Hash) (domain : Bytes) (cellOf : Turn → Int) (saltOf : Turn → Bytes)
    (moves : List (Turn × Party)) : List Bytes :=
  opened domain :: strings hash accumulated Committed.leaf (hash (opened domain))
    (commitments cellOf saltOf 0 moves)

/-- Games from one state with equal encodings, over a hash that tells their strings apart, have the
same moves by the same seats. -/
def HistoryCommitted (hash : Hash) (m : Reactive State (Turn × Party) Shown String)
    (domain : Bytes) (cellOf : Turn → Int) (saltOf : Turn → Bytes) (start : State) : Prop :=
  ∀ moves moves' s s' bytes, m.play start moves = .ok s → m.play start moves' = .ok s' →
    (m.view s).encoded = .ok bytes → (m.view s').encoded = .ok bytes →
    Set.InjOn hash {text | text ∈ gameStrings hash domain cellOf saltOf moves ++
      gameStrings hash domain cellOf saltOf moves'} → moves = moves'

theorem Accumulates.historyCommitted (h : Accumulates hash m cellOf saltOf count accumulator)
    (hdomain : domain.length ≠ 72) (hcount : count start = 0)
    (hstart : accumulator start = (hash (opened domain)).bytes) :
    HistoryCommitted hash m domain cellOf saltOf start := by
  intro moves moves' s s' bytes hs hs' hbytes hbytes' hhash
  obtain ⟨hfold, hcells⟩ := h.play hs hstart
  obtain ⟨hfold', hcells'⟩ := h.play hs' hstart
  obtain ⟨_, hfront⟩ := h.ends hbytes
  obtain ⟨_, hfront'⟩ := h.ends hbytes'
  rw [hfront, hfold, hfold', hcount] at hfront'
  have heq := (List.append_inj' hfront' (by simp)).2
  refine h.moves_eq hcells hcells' (foldl_absorb_inj hhash accumulated_inj
    Committed.leaf_injective (opened_ne_accumulated hdomain) ?_ ?_ ?_ (Bytes32.ext_bytes heq))
  · exact List.mem_append_left _ List.mem_cons_self
  · exact fun text htext => List.mem_append_left _ (List.mem_cons_of_mem _ htext)
  · exact fun text htext => List.mem_append_right _ (List.mem_cons_of_mem _ htext)

/-- A machine in step with one that commits to its history shows the same encodings, so it commits
to it too. -/
theorem HistoryCommitted.of_bisimulation {State' : Type}
    {m' : Reactive State' (Turn × Party) Shown String} {related : State → State' → Prop}
    {start' : State'} (h : HistoryCommitted hash m domain cellOf saltOf start)
    (hinStep : Reactive.Bisimulation m m' related) (hstart : related start start') :
    HistoryCommitted hash m' domain cellOf saltOf start' := by
  have hback : ∀ {moves t'}, m'.play start' moves = .ok t' →
      ∃ t, m.play start moves = .ok t ∧ m.view t = m'.view t' := by
    intro moves t' ht'
    have heq := hinStep.play_map_eq (fun hrelated => (hinStep.alike hrelated).view) hstart moves
    rw [ht'] at heq
    cases ht : m.play start moves with
    | error => rw [ht] at heq; cases heq
    | ok t => rw [ht] at heq; exact ⟨t, rfl, Option.some.inj heq⟩
  intro moves moves' s s' bytes hs hs' hbytes hbytes' hhash
  obtain ⟨t, ht, hview⟩ := hback hs
  obtain ⟨t', ht', hview'⟩ := hback hs'
  rw [← hview] at hbytes
  rw [← hview'] at hbytes'
  exact h moves moves' t t' bytes ht ht' hbytes hbytes' hhash

theorem u64s_pair {x y : Int} {bytes : Bytes} (h : u64s [x, y] = .ok bytes) :
    IsU64 y ∧ bytes = Move.u64ToBeBytes (word x) ++ Move.u64ToBeBytes (word y) := by
  simp only [u64s, List.mapM_cons, List.mapM_nil, returned, u64ToBeBytes_ok_iff] at h
  obtain ⟨_, ⟨_, ⟨-, rfl⟩, _, ⟨_, ⟨hy, rfl⟩, _, rfl, rfl⟩, rfl⟩, rfl⟩ := h
  exact ⟨hy, by simp⟩

theorem computeCommitment_eq {hash : Hash} {value salt commitment : Bytes}
    (h : computeCommitment hash value salt = .ok commitment) :
    commitment = hashCommitment hash value salt := by
  simp only [computeCommitment, returned] at h
  exact h.2

theorem TicTacToe.accumulates (hash : Hash) (defaultStake : Int) :
    Accumulates hash (TicTacToe.protocol hash defaultStake).reactive TicTacToeMove.cell
      TicTacToeMove.salt TicTacToeState.movesCount TicTacToeState.moveAccumulator where
  turn_ext {move move'} hcell hsalt := by
    cases move
    cases move'
    simp_all
  step {s move party t} ht := by
    simp only [protocol, Protocol.reactive, applyMove, returned] at ht
    obtain ⟨-, -, -, -, -, _, hplace, _, hcommitment, rfl⟩ := ht
    obtain ⟨hcell, rfl⟩ := u64s_pair hplace
    refine ⟨hcell, rfl, fun digest hdigest => ?_⟩
    simp only [hdigest, computeCommitment_eq hcommitment]
    rfl
  ends {s bytes} hbytes := by
    simp only [protocol, Protocol.reactive, encodeState, returned] at hbytes
    obtain ⟨_, -, rfl⟩ := hbytes
    exact ⟨_, rfl⟩

theorem Caro.accumulates (hash : Hash) (size defaultStake : Int) :
    Accumulates hash (Caro.protocol hash size defaultStake).reactive CaroMove.cell CaroMove.salt
      CaroState.movesCount CaroState.moveAccumulator where
  turn_ext {move move'} hcell hsalt := by
    cases move
    cases move'
    simp_all
  step {s move party t} ht := by
    simp only [protocol, Protocol.reactive, applyMove, returned] at ht
    obtain ⟨-, -, -, -, -, _, hplace, _, hcommitment, rfl⟩ := ht
    obtain ⟨hcell, rfl⟩ := u64s_pair hplace
    refine ⟨hcell, rfl, fun digest hdigest => ?_⟩
    simp only [hdigest, computeCommitment_eq hcommitment]
    cases party <;> rfl
  ends {s bytes} hbytes := by
    simp only [protocol, Protocol.reactive, encodeState, returned] at hbytes
    obtain ⟨_, -, _, -, _, -, _, -, rfl⟩ := hbytes
    exact ⟨_, rfl⟩

end DopamintArena.Games

namespace DopamintArena.Rust

open Foundation
open DopamintArena.Games (Hash HistoryCommitted)

/-- Rust hashes the same string for the commitment to a move. -/
theorem leaf_mirror (seat : Seat) (count cell : UInt64) (salt : Bytes) :
    domainCommitReveal ++ lengthPrefixed (moveValue seat count cell) ++ lengthPrefixed salt =
      Games.Committed.leaf ⟨seat, count, cell, salt⟩ := by
  have hvalue : Games.Committed.value ⟨seat, count, cell, salt⟩ = moveValue seat count cell := by
    rw [moveValue, u64ToBeBytes_eq, u64ToBeBytes_eq]
    cases seat <;> rfl
  simp only [Games.Committed.leaf, lengthPrefixedConcat_cons, lengthPrefixedConcat_nil,
    List.append_nil, List.append_assoc, hvalue]
  rfl

theorem Caro.accumulates (hash : Hash) (size : ℕ) (stake : UInt64) :
    Games.Accumulates hash ((Caro.protocol hash size stake).reactive Caro.decodeMove)
      Games.CaroMove.cell Games.CaroMove.salt (fun s => (s.movesCount : Int))
      (fun s => s.moveAccumulator.bytes) where
  turn_ext := (Games.Caro.accumulates hash size stake.toNat).turn_ext
  step {s move party t} ht := by
    simp only [protocol, Protocol.reactive, decodeMove, applyMove, returned,
      computeCommitment_ok_iff] at ht
    obtain ⟨_, ⟨⟨-, hcell⟩, rfl⟩, -, -, hrange, -, _, ⟨-, rfl⟩, rfl⟩ := ht
    have hu64 : Engine.IsU64 move.cell := by
      dsimp only at hrange
      simp only [Engine.IsU64, Engine.u64Max]
      omega
    refine ⟨hu64, rfl, fun digest hdigest => ?_⟩
    rw [← Bytes32.ext_bytes hdigest, ← accumulator_mirror, leaf_mirror]
    rfl
  ends {s bytes} hbytes := by
    cases hbytes
    exact ⟨_, rfl⟩

/-- The same moves are accepted from `start` and from `start'`, and the accumulators agree after
them. -/
def SameAccumulator {State State' Turn : Type} (m : Reactive State (Turn × Seat) Engine.Shown String)
    (m' : Reactive State' (Turn × Seat) Engine.Shown String) (accumulator : State → Bytes)
    (accumulator' : State' → Bytes32) (start : State) (start' : State') : Prop :=
  ∀ moves, (m.play start moves).toOption.map accumulator =
    (m'.play start' moves).toOption.map fun s' => (accumulator' s').bytes

/-- Encodings commit to the moves behind them on either side, and TypeScript and Rust accept the
same games with the same accumulator. -/
theorem history_committed (hash : Hash) :
    (∀ defaultStake ctx, HistoryCommitted hash (Games.TicTacToe.protocol hash defaultStake).reactive
      Games.TicTacToe.domain (·.cell) (·.salt)
      (Games.TicTacToe.initialState hash defaultStake ctx)) ∧
    (∀ size defaultStake ctx, HistoryCommitted hash
      (Games.Caro.protocol hash size defaultStake).reactive Games.Caro.domain (·.cell) (·.salt)
      (Games.Caro.initialState hash size defaultStake ctx)) ∧
    (∀ (size : ℕ) stake ctx, HistoryCommitted hash
      ((Caro.protocol hash size stake).reactive Caro.decodeMove) Caro.domain (·.cell) (·.salt)
      (Caro.initialState hash size stake ctx)) ∧
    ∀ terms : SeriesTerms,
      HistoryCommitted hash ((TicTacToe.protocol hash terms.stake).reactive TicTacToe.decodeMove)
        TicTacToe.domain (·.cell) (·.salt)
        (TicTacToe.initialState hash terms.stake terms.ctx') ∧
      SameAccumulator (Games.TicTacToe.protocol hash terms.stake.toNat).reactive
        ((TicTacToe.protocol hash terms.stake).reactive TicTacToe.decodeMove)
        (·.moveAccumulator) (·.moveAccumulator)
        (Games.TicTacToe.initialState hash terms.stake.toNat terms.ctx)
        (TicTacToe.initialState hash terms.stake terms.ctx') ∧
      SameAccumulator (Games.Caro.protocol hash terms.size terms.stake.toNat).reactive
        ((Caro.protocol hash terms.size terms.stake).reactive Caro.decodeMove)
        (·.moveAccumulator) (·.moveAccumulator)
        (Games.Caro.initialState hash terms.size terms.stake.toNat terms.ctx)
        (Caro.initialState hash terms.size terms.stake terms.ctx') := by
  have hticTacToe : ∀ defaultStake ctx, HistoryCommitted hash
      (Games.TicTacToe.protocol hash defaultStake).reactive Games.TicTacToe.domain (·.cell) (·.salt)
      (Games.TicTacToe.initialState hash defaultStake ctx) := fun defaultStake ctx =>
    (Games.TicTacToe.accumulates hash defaultStake).historyCommitted (by decide) rfl rfl
  refine ⟨hticTacToe, fun size defaultStake ctx => ?_, fun size stake ctx => ?_,
    fun terms => ⟨?_, ?_, ?_⟩⟩
  · exact (Games.Caro.accumulates hash size defaultStake).historyCommitted (by decide) rfl rfl
  · exact (Caro.accumulates hash size stake).historyCommitted (by decide) rfl rfl
  · exact (hticTacToe _ _).of_bisimulation (TicTacToe.bisimulation hash terms.stake)
      (terms.ticTacToe_start hash)
  · exact (TicTacToe.bisimulation hash terms.stake).play_map_eq
      (fun hrelated => congrArg Games.TicTacToeState.moveAccumulator hrelated.1)
      (terms.ticTacToe_start hash)
  · exact (Caro.bisimulation hash terms.size terms.stake).play_map_eq
      (fun hrelated => congrArg Games.CaroState.moveAccumulator hrelated.1)
      (terms.caro_start hash)

namespace Sample

/-- Party A opens in the first cell, with a salt that starts with this byte. -/
def saltedOpening (byte : UInt8) : List (Games.TicTacToeMove × Seat) :=
  [(⟨0, byte :: List.replicate 15 0⟩, .A)]

def openingState : Games.TicTacToeState :=
  Games.TicTacToe.initialState sumHash 1 ⟨"0x7", ⟨5, 5⟩⟩

def openingStrings (byte : UInt8) : List Bytes :=
  Games.gameStrings sumHash Games.TicTacToe.domain (·.cell) (·.salt) (saltedOpening byte)

theorem openingStrings_apart : ∀ text ∈ openingStrings 0 ++ openingStrings 1,
    ∀ text' ∈ openingStrings 0 ++ openingStrings 1, sumHash text = sumHash text' → text = text' := by
  decide +kernel

end Sample

/-- Openings that differ in a salt have different encodings. -/
theorem history_committed_salts : ∃ s s' bytes bytes',
    (Games.TicTacToe.protocol Sample.sumHash 1).reactive.play Sample.openingState
        (Sample.saltedOpening 0) = .ok s ∧
      (Games.TicTacToe.protocol Sample.sumHash 1).reactive.play Sample.openingState
        (Sample.saltedOpening 1) = .ok s' ∧
      Games.TicTacToe.encodeState s = .ok bytes ∧ Games.TicTacToe.encodeState s' = .ok bytes' ∧
      bytes ≠ bytes' := by
  have happly : ∀ byte, ∃ s bytes, (Games.TicTacToe.protocol Sample.sumHash 1).reactive.play
      Sample.openingState (Sample.saltedOpening byte) = .ok s ∧
        Games.TicTacToe.encodeState s = .ok bytes := fun byte => ⟨_, _, rfl, rfl⟩
  obtain ⟨s, bytes, hs, hbytes⟩ := happly 0
  obtain ⟨s', bytes', hs', hbytes'⟩ := happly 1
  refine ⟨s, s', bytes, bytes', hs, hs', hbytes, hbytes', ?_⟩
  rintro rfl
  have hsame := (history_committed Sample.sumHash).1 1 ⟨"0x7", ⟨5, 5⟩⟩ _ _ s s' bytes hs hs' hbytes
    hbytes' fun text htext text' htext' => Sample.openingStrings_apart text htext text' htext'
  cases hsame

end DopamintArena.Rust
