import DopamintArena.Engine.Settlement

/-!
Whose ticks a run of the tick games consists of. The drivers alternate by the
parity of the tick, but neither `applyMove` nor the engine asks whose turn it
is. So the other side of a tunnel can make one tick after the other alone: it
sends a MOVE in which its player waits, and another one, up to the tick cap, and
a seat co-signs them all.
-/

namespace DopamintArena.Games

open Foundation Engine

/-- The games of which an accepted move is a tick, with the move in which nobody acts. -/
inductive TickGame : {State Move : Type} → Protocol State Move → Move → Prop
  | cross (hazards : Cross.Hazards) : TickGame (Cross.protocol hazards) ⟨none, none⟩
  | bombIt : TickGame BombIt.protocol ⟨none, none⟩

/-- Both games end at the latest with this tick. -/
def lastTick : ℕ := 5400

/-- Two shares of a total that fits into 64 bits. -/
structure Shares (total a b : Int) : Prop where
  nonnegA : 0 ≤ a
  nonnegB : 0 ≤ b
  sum : a + b = total
  bound : total ≤ u64Max

namespace Shares

variable {total a b : Int} (h : Shares total a b)
include h

theorem isU64A : IsU64 a := by
  obtain ⟨ha, hb, hsum, hbound⟩ := h
  exact ⟨ha, by omega⟩

theorem isU64B : IsU64 b := by
  obtain ⟨ha, hb, hsum, hbound⟩ := h
  exact ⟨hb, by omega⟩

end Shares

theorem isU64_seedFromTunnelId (tunnelId : String) : IsU64 (seedFromTunnelId tunnelId) := by
  have hlt := ((utf16Units tunnelId).foldl
    (fun h code => (h ^^^ code.toUInt32) * 16777619) (2166136261 : UInt32)).toNat_lt
  constructor
  · exact Int.natCast_nonneg _
  · simp only [seedFromTunnelId, u64Max]
    omega

/-- `waiting n` holds of a state after `n` ticks in which nobody acted: either seat can add another
such tick before the last one, and the seats can sign for the state. -/
structure Waits {State Move : Type} (protocol : Protocol State Move) (idle : Move) (total : Int)
    (waiting : ℕ → State → Prop) : Prop where
  step : ∀ {n s} (party : Party), waiting n s → n + 1 < lastTick →
    ∃ t, protocol.applyMove s idle party = .ok t ∧ waiting (n + 1) t
  running : ∀ {n s}, waiting n s → protocol.isTerminal s = false
  encodes : ∀ {n s}, waiting n s → ∃ bytes, protocol.encodeState s = .ok bytes
  shares : ∀ {n s}, waiting n s → Shares total (protocol.balances s).a (protocol.balances s).b

namespace Cross

/-- Nobody has left the spawn. -/
structure Waiting (total : Int) (n : ℕ) (s : CrossState) : Prop where
  tick : s.tick = n
  early : n < lastTick
  seed : IsU64 s.seed
  playerA : s.playerA = spawnPlayer
  playerB : s.playerB = spawnPlayer
  winner : s.winner = none
  locked : s.total = total
  shares : Shares total s.balanceA s.balanceB

theorem shares_settleShare {total a b : Int} (h : Shares total a b) :
    Shares total (settleShare total 0 0) (total - settleShare total 0 0) := by
  obtain ⟨ha, hb, hsum, hbound⟩ := h
  have hshare : settleShare total 0 0 = total * 600 / 1200 :=
    Int.tdiv_eq_ediv_of_nonneg (mul_nonneg (by omega) (by decide))
  exact ⟨by omega, by omega, by omega, hbound⟩

theorem Waiting.running {total : Int} {n : ℕ} {s : CrossState} (h : Waiting total n s) :
    isTerminal s = false := by
  have hearly := h.early
  simp only [lastTick] at hearly
  simp only [isTerminal, h.winner, h.tick, tickCap, Option.isSome_none, Bool.false_or,
    decide_eq_false_iff_not]
  omega

/-- The first lanes are grass, so a player who waits at the spawn stays there. -/
theorem stepPlayer_spawn (hazards : Hazards) (seed tick : Int) :
    stepPlayer hazards seed spawnPlayer none tick = spawnPlayer := rfl

theorem waits (hazards : Hazards) (total : Int) :
    Waits (protocol hazards) ⟨none, none⟩ total (Waiting total) where
  step {n s} party h hn := by
    have hlate : ¬tickCap ≤ s.tick + 1 := by
      simp only [lastTick] at hn
      simp only [tickCap, h.tick]
      omega
    have hwinner : winnerOf spawnPlayer spawnPlayer (s.tick + 1) = none := by
      simp [winnerOf, spawnPlayer, winLane, hlate]
    simp only [protocol, applyMove, returned, h.playerA, h.playerB, stepPlayer_spawn, hwinner,
      h.locked]
    refine ⟨_, ⟨h.running, by simp, by simp, rfl⟩, ?_, hn, h.seed, rfl, rfl, rfl, rfl,
      shares_settleShare h.shares⟩
    simp only [h.tick]
    rfl
  running h := h.running
  encodes {n s} h := by
    have hearly := h.early
    have htick : IsU64 s.tick := by
      simp only [lastTick] at hearly
      simp only [IsU64, u64Max, h.tick]
      omega
    have hplayer : ∃ bytes, encodePlayer spawnPlayer = .ok bytes := ⟨_, rfl⟩
    obtain ⟨player, hplayer⟩ := hplayer
    simp only [protocol, encodeState, returned, u64ToBeBytes_ok_iff, h.playerA, h.playerB]
    exact ⟨_, _, ⟨htick, rfl⟩, _, ⟨h.seed, rfl⟩, _, ⟨h.shares.isU64A, rfl⟩, _,
      ⟨h.shares.isU64B, rfl⟩, _, hplayer, _, hplayer, rfl⟩
  shares h := h.shares

end Cross

namespace BombIt

/-- Nobody has acted, so there is no bomb. -/
structure Waiting (total : Int) (n : ℕ) (s : BombItState) : Prop where
  tick : s.tick = n
  early : n < lastTick
  seed : IsU64 s.seed
  playerA : s.playerA = ⟨1, 1, true⟩
  playerB : s.playerB = ⟨gridH - 2, gridW - 2, true⟩
  bombs : s.bombs = []
  winner : s.winner = none
  shares : Shares total s.balanceA s.balanceB

theorem Waiting.running {total : Int} {n : ℕ} {s : BombItState} (h : Waiting total n s) :
    isTerminal s = false := by
  simp [isTerminal, h.winner]

theorem waits (total : Int) : Waits protocol ⟨none, none⟩ total (Waiting total) where
  step {n s} party h hn := by
    have hlate : ¬tickCap ≤ s.tick + 1 := by
      simp only [lastTick] at hn
      simp only [tickCap, h.tick]
      omega
    have hstay : ∀ self other owner, applyAction s.grid self other [] owner .stay = (self, []) :=
      fun self other owner => by simp [applyAction]
    have hwinner : winnerOf true true (s.tick + 1) = none := by simp [winnerOf, hlate]
    have hquiet : ∀ grid, resolveExplosions grid [] = ([], [], clearCrates grid []) := fun _ => rfl
    simp only [protocol, applyMove, returned, h.playerA, h.playerB, h.bombs, Option.getD_none,
      hstay, List.map_nil, hquiet, burn, List.contains_nil, Bool.and_false, Bool.false_eq_true,
      if_false, hwinner]
    refine ⟨_, ⟨h.running, by simp, by simp, rfl⟩, ?_, hn, h.seed, rfl, rfl, rfl, rfl, h.shares⟩
    simp only [h.tick]
    rfl
  running h := h.running
  encodes {n s} h := by
    have hearly := h.early
    have htick : IsU64 s.tick := by
      simp only [lastTick] at hearly
      simp only [IsU64, u64Max, h.tick]
      omega
    have hnumbers := u64s_total [s.tick, s.seed, s.balanceA, s.balanceB]
      (by simp [htick, h.seed, h.shares.isU64A, h.shares.isU64B])
    simp only [protocol, encodeState, returned, hnumbers, h.playerA, h.playerB, h.bombs]
    exact ⟨_, _, rfl, _, rfl, _, rfl, _, rfl, _, rfl, rfl⟩
  shares h := h.shares

end BombIt

section Ticks

variable {State Move : Type} {protocol : Protocol State Move} {idle : Move}
variable {cfg : Config State Move} {start s : Seat State Move}
variable {history : List (SeatEntry State Move)}

/-- Both games start as one in which nobody has acted. -/
theorem TickGame.waits (hgame : TickGame protocol idle) {total a b : Int}
    (hshares : Shares total a b) (tunnelId : String) : ∃ waiting,
    Waits protocol idle total waiting ∧
      waiting 0 (protocol.initialState ⟨tunnelId, ⟨a, b⟩⟩) := by
  have hearly : 0 < lastTick := by decide
  cases hgame with
  | cross hazards =>
    exact ⟨_, Cross.waits hazards total, rfl, hearly, isU64_seedFromTunnelId _, rfl, rfl, rfl,
      hshares.sum, hshares⟩
  | bombIt =>
    exact ⟨_, BombIt.waits total, rfl, hearly, isU64_seedFromTunnelId _, rfl, rfl, rfl, rfl,
      hshares⟩

/-- The seat whose move a call confirms, if it confirms one. -/
def tickBy (cfg : Config State Move) (entry : SeatEntry State Move) : Option Party :=
  match entry.turn.confirmed, entry.input with
  | some _, .frame (.move frame) => some frame.byParty
  | some _, .frame (.ack _) => some cfg.selfParty
  | _, _ => none

/-- The seats that made the ticks of a run, in order. -/
def ticks (cfg : Config State Move) (history : List (SeatEntry State Move)) : List Party :=
  history.filterMap (tickBy cfg)

/-- Each tick is made by the other seat than the one before it. -/
def Alternates (seats : List Party) : Prop :=
  seats.IsChain fun seat next => next = otherParty seat

theorem not_alternates_replicate {n : ℕ} (hn : 2 ≤ n) (party : Party) :
    ¬Alternates (List.replicate n party) := by
  obtain ⟨m, rfl⟩ := Nat.exists_eq_add_of_le' hn
  rw [List.replicate_succ, List.replicate_succ, Alternates, List.isChain_cons_cons]
  rintro ⟨hsame, -⟩
  exact otherParty_ne party hsame.symm

/-- A seat co-signs a tick of the other side, whoever made the last one. -/
theorem accepts_wait {waiting : ℕ → State → Prop} {n : ℕ}
    (hwaits : Waits cfg.protocol idle cfg.total waiting)
    (hid : ∃ id, addressToBytes32 cfg.tunnelId = .ok id)
    (hsigns : ∀ msg, ∃ sig, cfg.opponent.verify msg sig = true)
    (hnonce : s.nonce = n) (hwaiting : waiting n s.state) (hn : n + 1 < lastTick) :
    ∃ entry, (seatSystem cfg start).step s entry entry.turn.seat ∧
      tickBy cfg entry = some (otherParty cfg.selfParty) ∧
      entry.turn.seat.nonce = (n + 1 : ℕ) ∧ waiting (n + 1) entry.turn.seat.state := by
  obtain ⟨next, hnext, hwaiting'⟩ := hwaits.step (otherParty cfg.selfParty) hwaiting hn
  have hshares := hwaits.shares hwaiting'
  have hinRange : IsU64 (s.nonce + 1) := by
    simp only [IsU64, u64Max, hnonce]
    simp only [lastTick] at hn
    omega
  obtain ⟨frame, update, msg, hparty, hupdate, hact⟩ := Signable.accepted hsigns hnext
    ⟨hwaits.encodes hwaiting', hshares.sum, hshares.isU64A, hshares.isU64B, hinRange, hid⟩
  refine ⟨⟨s, .frame (.move frame), _⟩, ⟨hact, rfl, rfl⟩, congrArg some hparty, ?_, hwaiting'⟩
  simp only [hupdate, hnonce]
  rfl

theorem waits_run {waiting : ℕ → State → Prop} {n : ℕ}
    (hwaits : Waits cfg.protocol idle cfg.total waiting)
    (hid : ∃ id, addressToBytes32 cfg.tunnelId = .ok id)
    (hsigns : ∀ msg, ∃ sig, cfg.opponent.verify msg sig = true) (hnonce : start.nonce = 0)
    (hstart : waiting 0 start.state) (hn : n < lastTick) :
    ∃ history s, (seatSystem cfg start).Run history s ∧
      ticks cfg history = List.replicate n (otherParty cfg.selfParty) ∧ s.nonce = n ∧
      waiting n s.state := by
  induction n with
  | zero => exact ⟨[], start, .start ⟨rfl, rfl⟩, rfl, hnonce, hstart⟩
  | succ n ih =>
    obtain ⟨history, s, hrun, hticks, hnonce, hwaiting⟩ := ih (by omega)
    obtain ⟨entry, hstep, hby, hnonce', hwaiting'⟩ :=
      accepts_wait hwaits hid hsigns hnonce hwaiting hn
    refine ⟨history ++ [entry], entry.turn.seat, hrun.step hstep, ?_, hnonce', hwaiting'⟩
    rw [ticks, List.filterMap_append, ← ticks, hticks, List.replicate_succ']
    simp [hby]

/-- The other side of a created seat can make any number of ticks alone, short of the last one, so
the ticks of its runs do not alternate. -/
theorem opponent_ticks_alone {crypto : Crypto} {options : DistributedConfig Move}
    {initialBalances : Balances} {n : ℕ} (hgame : TickGame protocol idle)
    (hcreate : create crypto protocol options initialBalances = .ok (cfg, start))
    (hid : ∃ id, addressToBytes32 options.tunnelId = .ok id)
    (hbalances : 0 ≤ initialBalances.a ∧ 0 ≤ initialBalances.b ∧
      initialBalances.a + initialBalances.b ≤ u64Max)
    (hsigns : ∀ msg, ∃ sig, options.opponent.verify msg sig = true)
    (hn : n < lastTick) :
    ∃ history s, (seatSystem cfg start).Run history s ∧
      ticks cfg history = List.replicate n (otherParty cfg.selfParty) ∧
      protocol.isTerminal s.state = false ∧ (2 ≤ n → ¬Alternates (ticks cfg history)) := by
  have hcreated := create_ok hcreate
  obtain ⟨hA, hB, hsum⟩ := hbalances
  obtain ⟨waiting, hwaits, hinitial⟩ := hgame.waits ⟨hA, hB, rfl, hsum⟩ options.tunnelId
  rw [← hcreated.protocol, ← hcreated.total] at hwaits
  rw [← hcreated.tunnelId] at hid
  rw [← hcreated.opponent] at hsigns
  rw [← hcreated.state] at hinitial
  obtain ⟨history, s, hrun, hticks, -, hwaiting⟩ :=
    waits_run hwaits hid hsigns hcreated.fresh.nonce hinitial hn
  refine ⟨history, s, hrun, hticks, ?_, fun htwo => ?_⟩
  · rw [← hcreated.protocol]
    exact hwaits.running hwaiting
  · rw [hticks]
    exact not_alternates_replicate htwo _

end Ticks

namespace TickSample

def endpoint : PartyEndpoint := ⟨[], schemeEd25519, some fun _ => [], fun _ _ => true⟩

def config : Config CrossState CrossMove where
  crypto := ⟨fun _ => Bytes32.fill 0, fun _ _ _ => true⟩
  protocol := Cross.protocol fun _ _ _ _ => false
  tunnelId := "0x7"
  self := endpoint
  sign _ := []
  opponent := endpoint
  selfParty := .B
  total := 20
  codec := id

def seat : Seat CrossState CrossMove :=
  ⟨config.protocol.initialState ⟨"0x7", ⟨10, 10⟩⟩, 0, none, none⟩

theorem created : create config.crypto config.protocol ⟨"0x7", endpoint, endpoint, .B, none⟩
    ⟨10, 10⟩ = .ok (config, seat) := rfl

def wait (nonce : Int) : Input CrossState CrossMove :=
  .frame (.move ⟨nonce, .A, ⟨none, none⟩, 0, List.replicate 32 0, 10, 10, []⟩)

def replay : List (Input CrossState CrossMove) →
    Except String (Seat CrossState CrossMove × List (SeatEntry CrossState CrossMove)) :=
  System.replay (fun s input => (act config s input).map fun turn => (⟨s, input, turn⟩, turn.seat))
    seat []

end TickSample

/-- A thousand ticks of cross, all of them by party A. -/
theorem opponent_ticks_alone_cross : ∃ history s,
    (seatSystem TickSample.config TickSample.seat).Run history s ∧
      ticks TickSample.config history = List.replicate 1000 .A ∧
      ¬Alternates (ticks TickSample.config history) := by
  obtain ⟨history, s, hrun, hticks, -, hnot⟩ := opponent_ticks_alone (n := 1000) (.cross _)
    TickSample.created Sample.sampleTunnel (by decide) (fun _ => ⟨[], rfl⟩) (by decide)
  exact ⟨history, s, hrun, hticks, hnot (by decide)⟩

/-- Party A makes two ticks in a row, and seat B signs both. -/
theorem two_ticks_of_one_seat : ∃ history s,
    (seatSystem TickSample.config TickSample.seat).Run history s ∧
      history.map (·.input) = [TickSample.wait 1, TickSample.wait 2] ∧
      ticks TickSample.config history = [.A, .A] ∧
      ¬Alternates (ticks TickSample.config history) := by
  have heval : (TickSample.replay [TickSample.wait 1, TickSample.wait 2]).map
      (fun r => (r.2.map (·.input), ticks TickSample.config r.2)) =
        .ok ([TickSample.wait 1, TickSample.wait 2], [.A, .A]) := rfl
  obtain ⟨⟨s, history⟩, hreplay, hfacts⟩ := map_ok_iff.mp heval
  obtain ⟨hinputs, hticks⟩ := Prod.mk.inj hfacts
  have hrun : (seatSystem TickSample.config TickSample.seat).Run history s := by
    refine System.replay_run (.start ⟨rfl, rfl⟩) hreplay fun s input entry s' hstep => ?_
    obtain ⟨_, hact, ⟨⟩⟩ := map_ok_iff.mp hstep
    exact ⟨hact, rfl, rfl⟩
  refine ⟨history, s, hrun, hinputs, hticks, ?_⟩
  rw [show ticks TickSample.config history = [.A, .A] from hticks, Alternates]
  decide

end DopamintArena.Games
