import DopamintArena.Engine.Checkpoint
import DopamintArena.Games.Arena
import DopamintArena.Games.MerkleBattleship
import DopamintArena.Games.MultiGame
import DopamintArena.Games.Series
import DopamintArena.Games.Streams

/-!
The protocols `protocol/index.ts` exports and those the frontend adds, and which
of them an adopted checkpoint pins: those whose encoding determines every field
the rules read. Four do. Each of the others leaves one out, or writes two values
of it as the same bytes, and two states that differ there are adopted for the
same update.
-/

namespace DopamintArena.Games

open Foundation Engine

section Encodings

variable {State Move : Type} {protocol : Protocol State Move}

/-- One encoding for two states, only one of which allows the move. -/
theorem not_encodesBehaviour_of_legal (s s' : State) (move : Move) (party : Party)
    (hok : (protocol.encodeState s).isOk = true)
    (hsame : protocol.encodeState s' = protocol.encodeState s)
    (hlegal : (protocol.applyMove s move party).isOk = true)
    (hillegal : (protocol.applyMove s' move party).isOk = false) :
    ¬protocol.EncodesBehaviour := by
  intro hencodes
  obtain ⟨bytes, hbytes⟩ := exists_ok_of_isOk hok
  have halike := hencodes s s' bytes hbytes (hsame.trans hbytes) [] s s' rfl rfl
  obtain ⟨_, hnext⟩ := (halike.accepts (move, party)).mp (exists_ok_of_isOk hlegal)
  have hmove : protocol.applyMove s' move party = .ok _ := hnext
  rw [hmove] at hillegal
  cases hillegal

/-- One encoding for two states that moves take to states that show different things. -/
theorem not_encodesBehaviour_of_view {s s' t t' : State} (moves : List (Move × Party))
    (hok : (protocol.encodeState s).isOk = true)
    (hsame : protocol.encodeState s' = protocol.encodeState s)
    (ht : protocol.reactive.play s moves = .ok t) (ht' : protocol.reactive.play s' moves = .ok t')
    (hview : protocol.reactive.view t ≠ protocol.reactive.view t') :
    ¬protocol.EncodesBehaviour := by
  intro hencodes
  obtain ⟨bytes, hbytes⟩ := exists_ok_of_isOk hok
  exact hview (hencodes s s' bytes hbytes (hsame.trans hbytes) moves t t' ht ht').view

end Encodings

namespace Payments

/-- The locked total is carried along and never read. -/
def erase (s : PaymentsState) : PaymentsState := { s with total := 0 }

theorem blind : protocol.reactive.Blind erase where
  view _ := rfl
  step s := by
    rintro ⟨⟨fromParty, _⟩, _⟩
    cases fromParty <;>
      simp only [Protocol.reactive, protocol, applyMove, map_bind, map_pure] <;> rfl

theorem encodesRead : protocol.EncodesRead := by
  refine ⟨erase, blind, ?_⟩
  rintro ⟨_, _, _, _⟩ ⟨_, _, _, _⟩ bytes hs hs'
  obtain ⟨rfl, rfl, rfl⟩ := encodeState_inj hs hs'
  rfl

end Payments

namespace ApiCredits

variable (costPerCall : Int)

def erase (s : ApiCreditsState) : ApiCreditsState := { s with total := 0 }

theorem blind : (protocol costPerCall).reactive.Blind erase where
  view _ := rfl
  step s input := by
    simp only [Protocol.reactive, protocol, applyMove, map_bind, map_pure]
    rfl

theorem encodesRead : (protocol costPerCall).EncodesRead := by
  refine ⟨erase, blind costPerCall, ?_⟩
  rintro ⟨_, _, _, _⟩ ⟨_, _, _, _⟩ bytes hs hs'
  obtain ⟨-, rfl, rfl, rfl⟩ := encodeStream_inj hs hs'
  rfl

/-- Metering is exact: calls are accepted when the client makes them all and can pay for
each as it comes, and they move their price. -/
theorem calls_accepted_iff (moves : List (ApiCreditsMove × Party)) (s t : ApiCreditsState) :
    (protocol costPerCall).reactive.play s moves = .ok t ↔
      (∀ move ∈ moves, move.2 = .A) ∧
      (∀ n < moves.length, costPerCall * (n + 1) ≤ s.client) ∧
      t = { client := s.client - costPerCall * moves.length
            provider := s.provider + costPerCall * moves.length
            total := s.total
            calls := s.calls + moves.length } := by
  induction moves generalizing s with
  | nil => simp [Reactive.play, eq_comm]
  | cons move rest ih =>
    simp only [Reactive.play_cons_ok_iff, ih]
    simp only [Protocol.reactive, protocol, applyMove, returned, List.forall_mem_cons,
      List.length_cons, Nat.forall_lt_succ_left, Nat.cast_add, Nat.cast_one, Nat.cast_zero]
    constructor
    · rintro ⟨_, ⟨hparty, hcost, rfl⟩, hrest, hcosts, rfl⟩
      refine ⟨⟨hparty, hrest⟩, ⟨by linarith, fun n hn => by linarith [hcosts n hn]⟩, ?_⟩
      congr 1 <;> ring
    · rintro ⟨⟨hparty, hrest⟩, ⟨hcost, hcosts⟩, rfl⟩
      refine ⟨_, ⟨hparty, by linarith, rfl⟩, hrest, fun n hn => by linarith [hcosts n hn], ?_⟩
      congr 1 <;> ring

end ApiCredits

namespace Chat

variable (hash : Hash)

def erase (s : ChatStateData) : ChatStateData := { s with lastSender := none, total := 0 }

theorem blind : (protocol hash).reactive.Blind erase where
  view _ := rfl
  step s input := by
    simp only [Protocol.reactive, protocol, applyMove, map_bind, map_pure]
    rfl

theorem encodesRead : (protocol hash).EncodesRead := by
  refine ⟨erase, blind hash, ?_⟩
  rintro ⟨_, _, _, _, _, _⟩ ⟨_, _, _, _, _, _⟩ bytes hs hs'
  obtain ⟨rfl, rfl, rfl, rfl⟩ := encodeStream_inj hs hs'
  rfl

end Chat

namespace WorldCanvas

variable (hash : Hash) (cfg : WorldCanvasConfig)

def erase (s : WorldCanvasState) : WorldCanvasState := { s with lastPainter := none, total := 0 }

theorem blind : (protocol hash cfg).reactive.Blind erase where
  view _ := rfl
  step s input := by
    simp only [Protocol.reactive, protocol, applyMove, map_bind, map_pure]
    rfl

theorem encodesRead : (protocol hash cfg).EncodesRead := by
  refine ⟨erase, blind hash cfg, ?_⟩
  rintro ⟨_, _, _, _, _, _⟩ ⟨_, _, _, _, _, _⟩ bytes hs hs'
  obtain ⟨rfl, rfl, rfl, rfl⟩ := encodeStream_inj hs hs'
  rfl

end WorldCanvas

namespace WorldCanvasPvp

def wall (appliedSeqA balanceA balanceB : Int) : PvpCanvasState :=
  ⟨[], [], 0, 0, appliedSeqA, 0, balanceA, balanceB, 10⟩

theorem not_encodesBehaviour (hash : Hash) : ¬(protocol hash).EncodesBehaviour := by
  have ht : (protocol hash).reactive.play (wall 0 10 0) [] = .ok (wall 0 10 0) := rfl
  have ht' : (protocol hash).reactive.play (wall 0 0 10) [] = .ok (wall 0 0 10) := rfl
  have hsame : encodeState (wall 0 0 10) = encodeState (wall 0 10 0) := rfl
  refine not_encodesBehaviour_of_view [] rfl hsame ht ht' ?_
  intro hview
  have hbalances : (10 : Int) = 0 := congrArg (fun shown => shown.balances.a) hview
  omega

end WorldCanvasPvp

namespace TicTacToe

/-- An empty board but for the first cell, which is written modulo 256. -/
def opening (first : Int) : TicTacToeState :=
  ⟨first :: List.replicate 8 0, .A, 0, .undecided, 5, 5, 10, 1, []⟩

theorem not_encodesBehaviour (hash : Hash) (defaultStake : Int) :
    ¬(protocol hash defaultStake).EncodesBehaviour := by
  have hsame : encodeState (opening 256) = encodeState (opening 0) := by decide +kernel
  exact not_encodesBehaviour_of_legal (opening 0) (opening 256) ⟨0, List.replicate 16 0⟩ .A rfl
    hsame rfl rfl

end TicTacToe

namespace Cross

/-- A race in which nobody can move for a tick. The total is not encoded. -/
def waiting (total : Int) : CrossState := ⟨0, 0, ⟨0, 0, 0, 1⟩, ⟨0, 0, 0, 1⟩, none, 0, 0, total⟩

/-- The race after that tick, with the total shared evenly. -/
def waited (share : Int) : CrossState :=
  ⟨1, 0, ⟨0, 0, 0, 0⟩, ⟨0, 0, 0, 0⟩, none, share, share, 2 * share⟩

theorem not_encodesBehaviour (hazards : Hazards) : ¬(protocol hazards).EncodesBehaviour := by
  have hok : (encodeState (waiting 2)).isOk = true := rfl
  have hsame : encodeState (waiting 4) = encodeState (waiting 2) := rfl
  have ht : (protocol hazards).reactive.play (waiting 2) [(⟨none, none⟩, .A)] =
      .ok (waited 1) := rfl
  have ht' : (protocol hazards).reactive.play (waiting 4) [(⟨none, none⟩, .A)] =
      .ok (waited 2) := rfl
  refine not_encodesBehaviour_of_view _ hok hsame ht ht' ?_
  intro hview
  have hbalances : (1 : Int) = 2 := congrArg (fun shown => shown.balances.a) hview
  omega

end Cross

namespace BombIt

/-- A duel in which party A has a bomb that goes off next, and some that do not. Only the
first bomb of a seat is encoded. -/
def duel (others : List BombItBomb) : BombItState :=
  ⟨0, 0, [], ⟨1, 1, true⟩, ⟨19, 19, true⟩, ⟨10, 10, 1, .A⟩ :: others, none, 5, 5, 10⟩

/-- The duel after the blast. -/
def blasted (others : List BombItBomb) : BombItState :=
  ⟨1, 0, [], ⟨1, 1, true⟩, ⟨19, 19, true⟩, others, none, 5, 5, 10⟩

theorem applyMove_duel :
    applyMove (duel []) ⟨none, none⟩ .A = .ok (blasted []) ∧
      applyMove (duel [⟨10, 15, 5, .A⟩]) ⟨none, none⟩ .A = .ok (blasted [⟨10, 15, 4, .A⟩]) :=
  ⟨rfl, rfl⟩

theorem encodeState_duel :
    (encodeState (duel [])).isOk = true ∧
      encodeState (duel [⟨10, 15, 5, .A⟩]) = encodeState (duel []) ∧
      (encodeState (blasted [])).isOk = true ∧
      encodeState (blasted []) ≠ encodeState (blasted [⟨10, 15, 4, .A⟩]) := by
  decide +kernel

theorem not_encodesBehaviour : ¬protocol.EncodesBehaviour := by
  obtain ⟨hok, hsame, -, hdiffer⟩ := encodeState_duel
  obtain ⟨ht, ht'⟩ := applyMove_duel
  have hplay : protocol.reactive.play (duel []) [(⟨none, none⟩, .A)] = .ok (blasted []) := by
    rw [Reactive.play_cons_ok_iff]
    exact ⟨_, ht, rfl⟩
  have hplay' : protocol.reactive.play (duel [⟨10, 15, 5, .A⟩]) [(⟨none, none⟩, .A)] =
      .ok (blasted [⟨10, 15, 4, .A⟩]) := by
    rw [Reactive.play_cons_ok_iff]
    exact ⟨_, ht', rfl⟩
  refine not_encodesBehaviour_of_view _ hok hsame hplay hplay' ?_
  intro hview
  exact hdiffer (congrArg Shown.encoded hview)

end BombIt

namespace Blackjack

/-- A draw that waits for the commitments. No commitment is written as an empty one. -/
def drawing (pendingCommitA : Option Bytes) : BlackjackState :=
  ⟨.drawCommit, 1, 1, [], [], some ⟨.player, .deal⟩, pendingCommitA, none, none, none, none, none,
    5, 5, 10, 1⟩

theorem not_encodesBehaviour (playerPartyFor : Int → Party) (hash : Hash) (limit : Nat) :
    ¬(protocol playerPartyFor hash limit).EncodesBehaviour :=
  not_encodesBehaviour_of_legal (drawing none) (drawing (some []))
    (.commit (List.replicate 32 0) none) .A rfl rfl rfl rfl

end Blackjack

namespace Battleship

/-- The fleets are being placed. No commitment is written as an empty one. -/
def placing (commitA : Option Bytes) : BattleshipState :=
  ⟨.awaitingCommits, .A, none, commitA, none, [], [], 0, 0, false, false, .undecided, 5, 5, 10, 1⟩

theorem not_encodesBehaviour (hash : Hash) (defaultStake : Int) :
    ¬(protocol hash defaultStake).EncodesBehaviour :=
  not_encodesBehaviour_of_legal (placing none) (placing (some []))
    (.commit (List.replicate 32 0)) .A rfl rfl rfl rfl

end Battleship

namespace QuantumPoker

/-- The first hand. No commitments are written as an empty list of them. -/
def shuffling (commitA : Option (List Bytes)) : PokerState :=
  { initialState 1 0 ⟨"", ⟨5, 5⟩⟩ with commitA := commitA }

theorem not_encodesBehaviour (hash : Hash) (handCap ante : Int) :
    ¬(protocol hash handCap ante).EncodesBehaviour :=
  not_encodesBehaviour_of_legal (shuffling none) (shuffling (some []))
    (.commitSlots (List.replicate 9 (List.replicate 32 0)) none) .A rfl rfl rfl rfl

end QuantumPoker

namespace MultiGame

variable {Inner Move : Type} {rules : Rules Inner Move} {s t : Inner}

def firstGame (inner : Inner) : MultiGameState Inner := ⟨inner, 0, 5, 5⟩

theorem encodeState_firstGame {bytes : Bytes} (h : rules.inner.encodeState s = .ok bytes) :
    encodeState rules (firstGame s) = .ok (protocolDomain rules.name ++
      lengthPrefixedConcat [bytes, beBytes 8 0, beBytes 8 5, beBytes 8 5]) := by
  simp only [encodeState, firstGame, h, ok_bind]
  rfl

theorem encodeState_firstGame_inj {bytes bytes' : Bytes}
    (h : rules.inner.encodeState s = .ok bytes) (h' : rules.inner.encodeState t = .ok bytes')
    (hsame : encodeState rules (firstGame s) = encodeState rules (firstGame t)) :
    bytes = bytes' := by
  rw [encodeState_firstGame h, encodeState_firstGame h', Except.ok.injEq,
    List.append_cancel_left_eq] at hsame
  simp only [lengthPrefixedConcat, List.map_cons, List.flatten_cons,
    List.append_cancel_right_eq] at hsame
  exact (List.append_inj hsame (by simp)).2

theorem play_firstGame {move : Move} {party : Party} (hs : rules.inner.isTerminal s = false)
    (ht : rules.inner.isTerminal t = false) (hmove : rules.inner.applyMove s move party = .ok t) :
    (protocol rules).reactive.play (firstGame s) [(move, party)] = .ok (firstGame t) := by
  rw [Reactive.play_cons_ok_iff]
  refine ⟨firstGame t, ?_, rfl⟩
  simp only [Protocol.reactive, protocol, applyMove, firstGame, hs, ht, hmove, ok_bind]
  rfl

/-- What the inner encoding does not tell apart, the tunnel's does not either. -/
theorem not_encodesBehaviour {s' t' : Inner} {move : Move} {party : Party}
    (hok : (rules.inner.encodeState s).isOk = true)
    (hsame : rules.inner.encodeState s' = rules.inner.encodeState s)
    (hopen : ∀ inner ∈ [s, s', t, t'], rules.inner.isTerminal inner = false)
    (hmove : rules.inner.applyMove s move party = .ok t)
    (hmove' : rules.inner.applyMove s' move party = .ok t')
    (hokt : (rules.inner.encodeState t).isOk = true)
    (hokt' : (rules.inner.encodeState t').isOk = true)
    (hdiffer : rules.inner.encodeState t ≠ rules.inner.encodeState t') :
    ¬(protocol rules).EncodesBehaviour := by
  obtain ⟨_, hbytes⟩ := exists_ok_of_isOk hok
  obtain ⟨_, hafter⟩ := exists_ok_of_isOk hokt
  obtain ⟨_, hafter'⟩ := exists_ok_of_isOk hokt'
  have henc := encodeState_firstGame hbytes
  have henc' := encodeState_firstGame (hsame.trans hbytes)
  refine not_encodesBehaviour_of_view [(move, party)] ?_ (henc'.trans henc.symm)
    (play_firstGame (hopen s (by simp)) (hopen t (by simp)) hmove)
    (play_firstGame (hopen s' (by simp)) (hopen t' (by simp)) hmove') ?_
  · exact congrArg Except.isOk henc
  · intro hview
    have hafters := encodeState_firstGame_inj hafter hafter' (congrArg Shown.encoded hview)
    rw [hafter, hafter', hafters] at hdiffer
    exact hdiffer rfl

end MultiGame

namespace MultiGameCross

theorem not_encodesBehaviour (hazards : Cross.Hazards) (tunnelId : String)
    (stakePerGame : Int) : ¬(protocol hazards tunnelId stakePerGame).EncodesBehaviour := by
  have hok : (Cross.encodeState (Cross.waiting 2)).isOk = true ∧
      (Cross.encodeState (Cross.waited 1)).isOk = true ∧
      (Cross.encodeState (Cross.waited 2)).isOk = true ∧
      Cross.encodeState (Cross.waited 1) ≠ Cross.encodeState (Cross.waited 2) := by
    decide +kernel
  obtain ⟨hok, hok1, hok2, hdiffer⟩ := hok
  have hsame : Cross.encodeState (Cross.waiting 4) = Cross.encodeState (Cross.waiting 2) := rfl
  have hmove : Cross.applyMove hazards (Cross.waiting 2) ⟨none, none⟩ .A =
      .ok (Cross.waited 1) := rfl
  have hmove' : Cross.applyMove hazards (Cross.waiting 4) ⟨none, none⟩ .A =
      .ok (Cross.waited 2) := rfl
  have hopen : ∀ inner ∈ [Cross.waiting 2, Cross.waiting 4, Cross.waited 1, Cross.waited 2],
      Cross.isTerminal inner = false := by decide +kernel
  exact MultiGame.not_encodesBehaviour hok hsame hopen hmove hmove' hok1 hok2 hdiffer

end MultiGameCross

namespace MultiGameBombIt

theorem not_encodesBehaviour (tunnelId : String) (stakePerGame : Int) :
    ¬(protocol tunnelId stakePerGame).EncodesBehaviour := by
  obtain ⟨hok, hsame, hokt, hdiffer⟩ := BombIt.encodeState_duel
  obtain ⟨hmove, hmove'⟩ := BombIt.applyMove_duel
  have hokt' : (BombIt.encodeState (BombIt.blasted [⟨10, 15, 4, .A⟩])).isOk = true := by
    decide +kernel
  have hopen : ∀ inner ∈ [BombIt.duel [], BombIt.duel [⟨10, 15, 5, .A⟩], BombIt.blasted [],
      BombIt.blasted [⟨10, 15, 4, .A⟩]], BombIt.isTerminal inner = false := by decide +kernel
  exact MultiGame.not_encodesBehaviour hok hsame hopen hmove hmove' hokt hokt' hdiffer

end MultiGameBombIt

namespace MerkleBattleship

/-- The fleets are being placed. No commitment is written as an empty one. -/
def placing (commitA : Option Bytes) : MerkleBattleshipState :=
  ⟨.awaitingCommits, .A, none, commitA, none, [], [], 0, 0, .undecided, 5, 5, 10, 1⟩

theorem not_encodesBehaviour (hash : Hash) (defaultStake : Int) :
    ¬(protocol hash defaultStake).EncodesBehaviour :=
  not_encodesBehaviour_of_legal (placing none) (placing (some []))
    (.commit (List.replicate 32 0)) .A rfl rfl rfl rfl

end MerkleBattleship

namespace Caro

/-- An empty board after a number of moves, which is not encoded. -/
def counted (movesCount : Int) : CaroState :=
  ⟨List.replicate 9 0, 3, .A, 0, -1, movesCount, 5, 5, 10, 0, []⟩

theorem not_encodesBehaviour (hash : Hash) (size defaultStake : Int) :
    ¬(protocol hash size defaultStake).EncodesBehaviour := by
  have hok : (encodeState (counted 0)).isOk = true := rfl
  have hplay : ∃ t t',
      (protocol hash size defaultStake).reactive.play (counted 0)
          [(⟨0, List.replicate 16 0⟩, .A)] = .ok t ∧
        (protocol hash size defaultStake).reactive.play (counted 8)
          [(⟨0, List.replicate 16 0⟩, .A)] = .ok t' ∧ t.winner = 0 ∧ t'.winner = 3 :=
    ⟨_, _, rfl, rfl, rfl, rfl⟩
  obtain ⟨t, t', ht, ht', hopen, hdrawn⟩ := hplay
  have hsame : encodeState (counted 8) = encodeState (counted 0) := rfl
  refine not_encodesBehaviour_of_view _ hok hsame ht ht' ?_
  intro hview
  have hover : decide (t.winner ≠ 0) = decide (t'.winner ≠ 0) := congrArg Shown.isTerminal hview
  rw [hopen, hdrawn] at hover
  cases hover

end Caro

namespace Series

variable {Inner Move : Type} {rules : Rules Inner Move} {inner : Inner}

/-- The number of games of a series is not encoded, and says whether a finished game was the last
one. -/
theorem not_encodesBehaviour (hok : (rules.inner.encodeState inner).isOk = true)
    (hover : rules.inner.isTerminal inner = true) (hfunds : canFundNextGame rules inner = true) :
    ¬(protocol rules).EncodesBehaviour := by
  obtain ⟨bytes, hbytes⟩ := exists_ok_of_isOk hok
  have hencoded : (encodeState rules ⟨inner, 0, 1⟩).isOk = true := by
    rw [encodeState, hbytes]
    rfl
  have hsame : encodeState rules ⟨inner, 0, 2⟩ = encodeState rules ⟨inner, 0, 1⟩ := rfl
  refine not_encodesBehaviour_of_view [] hencoded hsame rfl rfl ?_
  intro hview
  have hlast : isTerminal rules ⟨inner, 0, 1⟩ = isTerminal rules ⟨inner, 0, 2⟩ :=
    congrArg Shown.isTerminal hview
  simp [isTerminal, hover, hfunds] at hlast

end Series

/-- The protocols of the SDK and of the frontend. -/
inductive ShippedGame
  | apiCredits
  | arena (game : ArenaGame)
  | caro
  | chat
  | merkleBattleship
  | multiGameBombIt
  | multiGameCaro
  | multiGameCross
  | multiGameTicTacToe
  | payments
  | ticTacToe
  | worldCanvas
  | worldCanvasPvp

/-- What the constructors take. -/
structure ShippedRules extends ArenaRules where
  costPerCall : Int
  canvas : WorldCanvasConfig
  tunnelId : String
  stakePerGame : Int
  maxGames : Int
  size : Int

namespace ShippedGame

abbrev State : ShippedGame → Type
  | .apiCredits => ApiCreditsState
  | .arena game => game.State
  | .caro => CaroState
  | .chat => ChatStateData
  | .merkleBattleship => MerkleBattleshipState
  | .multiGameBombIt => MultiGameState BombItState
  | .multiGameCaro => SeriesState CaroState
  | .multiGameCross => MultiGameState CrossState
  | .multiGameTicTacToe => SeriesState TicTacToeState
  | .payments => PaymentsState
  | .ticTacToe => TicTacToeState
  | .worldCanvas => WorldCanvasState
  | .worldCanvasPvp => PvpCanvasState

abbrev Move : ShippedGame → Type
  | .apiCredits => ApiCreditsMove
  | .arena game => game.Move
  | .caro | .multiGameCaro => CaroMove
  | .chat => ChatMove
  | .merkleBattleship => MerkleBattleshipMove
  | .multiGameBombIt => BombItMove
  | .multiGameCross => CrossMove
  | .multiGameTicTacToe => TicTacToeMove
  | .payments => PaymentMove
  | .ticTacToe => TicTacToeMove
  | .worldCanvas => WorldCanvasMove
  | .worldCanvasPvp => PvpPaintMove

def protocol (rules : ShippedRules) : (game : ShippedGame) → Protocol game.State game.Move
  | .apiCredits => ApiCredits.protocol rules.costPerCall
  | .arena game => game.protocol rules.toArenaRules
  | .caro => Caro.protocol rules.hash rules.size rules.stake
  | .chat => Chat.protocol rules.hash
  | .merkleBattleship => MerkleBattleship.protocol rules.hash rules.stake
  | .multiGameBombIt => MultiGameBombIt.protocol rules.tunnelId rules.stakePerGame
  | .multiGameCaro => MultiGameCaro.protocol rules.hash rules.maxGames rules.size rules.stake
  | .multiGameCross => MultiGameCross.protocol rules.hazards rules.tunnelId rules.stakePerGame
  | .multiGameTicTacToe => MultiGameTicTacToe.protocol rules.hash rules.maxGames rules.stake
  | .payments => Payments.protocol
  | .ticTacToe => TicTacToe.protocol rules.hash rules.stake
  | .worldCanvas => WorldCanvas.protocol rules.hash rules.canvas
  | .worldCanvasPvp => WorldCanvasPvp.protocol rules.hash

/-- The protocols that encode every field their rules read. -/
def encodesAll : ShippedGame → Bool
  | .apiCredits | .chat | .payments | .worldCanvas => true
  | _ => false

theorem not_encodesBehaviour_arena (rules : ArenaRules) (game : ArenaGame) :
    ¬(game.protocol rules).EncodesBehaviour := by
  cases game with
  | blackjack => exact Blackjack.not_encodesBehaviour _ _ _
  | poker => exact QuantumPoker.not_encodesBehaviour _ _ _
  | battleship => exact Battleship.not_encodesBehaviour _ _
  | cross => exact Cross.not_encodesBehaviour _
  | bombIt => exact BombIt.not_encodesBehaviour

theorem encodesRead_or_not (rules : ShippedRules) (game : ShippedGame) :
    (game.protocol rules).EncodesRead ∧ game.encodesAll = true ∨
      ¬(game.protocol rules).EncodesBehaviour ∧ game.encodesAll = false := by
  cases game with
  | apiCredits => exact .inl ⟨ApiCredits.encodesRead _, rfl⟩
  | chat => exact .inl ⟨Chat.encodesRead _, rfl⟩
  | payments => exact .inl ⟨Payments.encodesRead, rfl⟩
  | worldCanvas => exact .inl ⟨WorldCanvas.encodesRead _ _, rfl⟩
  | arena => exact .inr ⟨not_encodesBehaviour_arena _ _, rfl⟩
  | caro => exact .inr ⟨Caro.not_encodesBehaviour _ _ _, rfl⟩
  | merkleBattleship => exact .inr ⟨MerkleBattleship.not_encodesBehaviour _ _, rfl⟩
  | multiGameBombIt => exact .inr ⟨MultiGameBombIt.not_encodesBehaviour _ _, rfl⟩
  | multiGameCaro =>
    have hok : (Caro.encodeState { Caro.counted 0 with winner := 3 }).isOk = true := rfl
    exact .inr ⟨Series.not_encodesBehaviour hok rfl rfl, rfl⟩
  | multiGameCross => exact .inr ⟨MultiGameCross.not_encodesBehaviour _ _ _, rfl⟩
  | multiGameTicTacToe =>
    have hok : (TicTacToe.encodeState
      { TicTacToe.opening 0 with winner := .draw, stake := 0 }).isOk = true := rfl
    exact .inr ⟨Series.not_encodesBehaviour hok rfl rfl, rfl⟩
  | ticTacToe => exact .inr ⟨TicTacToe.not_encodesBehaviour _ _, rfl⟩
  | worldCanvasPvp => exact .inr ⟨WorldCanvasPvp.not_encodesBehaviour _, rfl⟩

end ShippedGame

/-- Adopting a checkpoint pins the game exactly if the encoding determines every field the rules
read, and that is so for four of the protocols. -/
theorem checkpoints_pin_iff_encodesRead (rules : ShippedRules) (game : ShippedGame) :
    (CheckpointsPin rules.hash (game.protocol rules) ↔ (game.protocol rules).EncodesRead) ∧
      ((game.protocol rules).EncodesRead ↔ game.encodesAll = true) := by
  rw [checkpointsPin_iff]
  rcases game.encodesRead_or_not rules with ⟨hread, hall⟩ | ⟨hnot, hall⟩
  · exact ⟨iff_of_true hread.encodesBehaviour hread, iff_of_true hread hall⟩
  · have hunread : ¬(game.protocol rules).EncodesRead := fun hread => hnot hread.encodesBehaviour
    exact ⟨iff_of_false hnot hunread, iff_of_false hunread (by simp [hall])⟩

namespace Sample

def strokes : Protocol PvpCanvasState PvpPaintMove :=
  WorldCanvasPvp.protocol Engine.Sample.crypto.blake2b256

def strokesConfig : Config PvpCanvasState PvpPaintMove :=
  openConfig Engine.Sample.crypto.blake2b256 strokes

def stroke : List (PvpPaintMove × Party) := [(⟨[⟨0, 0, 1, 2, 13, 3⟩]⟩, .A)]

theorem play_stroke :
    strokes.reactive.play (WorldCanvasPvp.wall 9 5 5) stroke =
        .ok (WorldCanvasPvp.wall 9 5 5) ∧
      (strokes.reactive.play (WorldCanvasPvp.wall 0 5 5) stroke).isOk = true ∧
      (strokes.reactive.play (WorldCanvasPvp.wall 0 5 5) stroke).map PvpCanvasState.digest ≠
        .ok [] := by
  decide +kernel

end Sample

open Sample in
/-- Two walls that differ in the cursor of party A alone are adopted for one update, and
the next stroke is painted on one of them and skipped on the other. -/
theorem stroke_cursor_not_pinned : ∃ coSigned,
    Adopts strokesConfig (openSeat (WorldCanvasPvp.wall 0 5 5)) (WorldCanvasPvp.wall 0 5 5)
        coSigned ∧
      Adopts strokesConfig (openSeat (WorldCanvasPvp.wall 9 5 5)) (WorldCanvasPvp.wall 9 5 5)
        coSigned ∧
      Separates Engine.Sample.crypto.blake2b256 strokes (WorldCanvasPvp.wall 0 5 5)
        (WorldCanvasPvp.wall 9 5 5) ∧
      ¬strokes.SameBehaviour (WorldCanvasPvp.wall 0 5 5) (WorldCanvasPvp.wall 9 5 5) := by
  obtain ⟨coSigned, hadopts⟩ := exists_adopts Engine.Sample.crypto.blake2b256 strokes []
  obtain ⟨hskipped, hok, hpainted⟩ := play_stroke
  refine ⟨coSigned, hadopts _ rfl, hadopts _ rfl, ?_, ?_⟩
  · rintro bytes bytes' hbytes hbytes' -
    cases hbytes
    cases hbytes'
    rfl
  · intro hsame
    obtain ⟨painted, hplay⟩ := exists_ok_of_isOk hok
    have halike := hsame stroke painted _ hplay hskipped
    have hencoded := congrArg Shown.encoded halike.view
    have hdigest : painted.digest = [] := Except.ok.inj hencoded
    rw [hplay] at hpainted
    exact hpainted (congrArg Except.ok hdigest)

end DopamintArena.Games
