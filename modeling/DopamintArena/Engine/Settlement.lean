import DopamintArena.Engine.Pair
import DopamintArena.Engine.Signer
import DopamintArena.Games.Arena

/-!
Settlement halves. The final nonce a seat signs into a half comes from the
chain and the balances come from its confirmed state, so a half stays good
only as long as that state does not move. It does not move once the protocol
accepts no more moves; a state the protocol merely reports as terminal is not
enough, and blackjack has terminal states in the middle of a round.
-/

namespace DopamintArena.Engine

open Foundation Games

variable {State Move : Type} {cfg : Config State Move} {s : Seat State Move}
variable {signed : List StateUpdate} {u : StateUpdate}

/-- What a signed half settles on. -/
structure Half where
  split : Balances
  finalNonce : Int
deriving DecidableEq

def Signed.half? : Signed → Option Half
  | .update _ => none
  | .settlement s => some ⟨⟨s.partyABalance, s.partyBBalance⟩, s.finalNonce⟩
  | .settlementWithRoot s => some ⟨⟨s.partyABalance, s.partyBBalance⟩, s.finalNonce⟩

def halvesOf (signed : List Signed) : List Half := signed.filterMap Signed.half?

@[simp] theorem halvesOf_append (signed signed' : List Signed) :
    halvesOf (signed ++ signed') = halvesOf signed ++ halvesOf signed' := by
  simp [halvesOf]

def Input.settles : Input State Move → Bool
  | .buildSettlementHalf _ _ => true
  | .buildSettlementHalfWithRoot _ _ _ => true
  | _ => false

/-- Every half the chain still accepts at `onchainNonce` carries the balances of the
confirmed state. -/
def HalvesCurrent (cfg : Config State Move) (w : Signer State Move) (onchainNonce : Int) :
    Prop :=
  ∀ half ∈ halvesOf w.signed, half.finalNonce = onchainNonce + 1 →
    half.split = cfg.protocol.balances w.seat.state

/-- Whatever was signed past the confirmed nonce is for the next one, and comes from a
move that is legal in the confirmed state. -/
def Ahead (cfg : Config State Move) (signed : List StateUpdate) (s : Seat State Move) :
    Prop :=
  ∀ u ∈ signed, u.nonce ≤ s.nonce ∨
    u.nonce = s.nonce + 1 ∧ ∃ move, cfg.protocol.Legal s.state move cfg.selfParty

theorem Ahead.le_next (h : Ahead cfg signed s) (hu : u ∈ signed) : u.nonce ≤ s.nonce + 1 := by
  rcases h u hu with hle | ⟨hnext, -⟩ <;> omega

/-- In a frozen state nothing is signed past the confirmed nonce. -/
theorem Ahead.le_of_frozen (h : Ahead cfg signed s) (hfrozen : cfg.protocol.Frozen s.state)
    (hu : u ∈ signed) :
    u.nonce ≤ s.nonce := by
  rcases h u hu with hle | ⟨-, move, hlegal⟩
  · exact hle
  · exact absurd hlegal (hfrozen move cfg.selfParty)

theorem ahead_seated {move : Move} {timestamp : Int} {next : State} {update : StateUpdate}
    {msg : Bytes} (h : Ahead cfg signed s)
    (hderived : Derived cfg s move cfg.selfParty timestamp next update msg) :
    Ahead cfg (signed ++ [update])
      { s with pending := some (proposal cfg move timestamp next update msg) } := by
  intro u hu
  rcases List.mem_append.mp hu with hu | hu
  · exact h u hu
  · rw [List.mem_singleton.mp hu]
    exact .inr ⟨hderived.nonce, move, next, hderived.applied⟩

theorem ahead_effect {signed : List StateUpdate} {input : Input State Move}
    {turn : Turn State Move} (h : Ahead cfg signed s) (hown : KeepsOwnState s input)
    (heffect : Effect cfg s input turn) :
    Ahead cfg (signed ++ turn.updates) turn.seat := by
  have hsilent {extra : List StateUpdate} (hextra : extra = []) :
      Ahead cfg (signed ++ extra) s := by
    rw [hextra, List.append_nil]
    exact h
  cases heffect with
  | idle | resent | half | halfWithRoot => exact hsilent rfl
  | reacked _ _ _ _ hnonce =>
    intro u hu
    rcases List.mem_append.mp hu with hu | hu
    · exact h u hu
    · rw [List.mem_singleton.mp hu]
      exact .inl (le_of_eq hnonce)
  | seated _ _ _ _ _ _ hderived | proposed _ _ _ _ _ _ hderived => exact ahead_seated h hderived
  | accepted _ _ _ _ _ _ hderived =>
    intro u hu
    left
    have hnext := hderived.nonce
    simp only [acceptance]
    rcases List.mem_append.mp hu with hu | hu
    · have hle := h.le_next hu
      omega
    · rw [List.mem_singleton.mp hu]
  | acked frame p hpending =>
    intro u hu
    rw [show (confirmation cfg p frame).updates = [] from rfl, List.append_nil] at hu
    have hle := h.le_next hu
    simp only [confirmation]
    omega
  | adopted state coSigned _ hadoptable =>
    intro u hu
    rw [show (adoption s state coSigned).updates = [] from rfl, List.append_nil] at hu
    have hnotOlder := hadoptable.notOlder
    simp only [adoption]
    by_cases hsame : coSigned.update.nonce = s.nonce
    · rw [hown state coSigned rfl hsame, hsame]
      exact h u hu
    · have hle := h.le_next hu
      exact .inl (by omega)

/-- A seat in a frozen state stays in it. -/
theorem frozen_effect {signed : List StateUpdate} {input : Input State Move}
    {turn : Turn State Move} (hg : Grounded cfg signed s) (h : Ahead cfg signed s)
    (hfrozen : cfg.protocol.Frozen s.state) (hown : KeepsOwnState s input)
    (hsource : ∀ state coSigned msg, input = .adoptCheckpoint state coSigned →
      Adoptable cfg s state coSigned msg → coSigned.update ∈ signed)
    (heffect : Effect cfg s input turn) : turn.seat.state = s.state := by
  cases heffect with
  | idle => rfl
  | resent => rfl
  | half => rfl
  | halfWithRoot => rfl
  | reacked => rfl
  | seated => rfl
  | proposed => rfl
  | accepted frame next _ _ _ _ hderived =>
    exact absurd ⟨next, hderived.applied⟩ (hfrozen frame.move frame.byParty)
  | acked _ p hpending =>
    have hle := h.le_of_frozen hfrozen (hg.pendingSigned p hpending)
    omega
  | adopted state coSigned msg hadoptable =>
    have hle := h.le_of_frozen hfrozen (hsource state coSigned msg rfl hadoptable)
    exact hown state coSigned rfl (le_antisymm hle hadoptable.notOlder)

/-- The halves a call signs carry the balances of the state before it. -/
theorem halves_effect {input : Input State Move} {turn : Turn State Move}
    (heffect : Effect cfg s input turn) {half : Half} (hhalf : half ∈ halvesOf turn.signed) :
    input.settles = true ∧ half.split = cfg.protocol.balances s.state := by
  cases heffect with
  | half | halfWithRoot =>
    rw [List.mem_singleton.mp hhalf]
    exact ⟨rfl, rfl⟩
  | idle | resent | reacked | seated | proposed | accepted | acked | adopted => cases hhalf

/-- If a seat signs halves only in frozen states, the state of the first half is the state
it stays in, and every half carries its balances. -/
theorem frozen_halves_current {start : Seat State Move} {history : List (SeatEntry State Move)}
    {w : Signer State Move} (hfresh : Fresh start) (hrun : (signerSystem cfg start).Run history w)
    (hfrozen : ∀ entry ∈ history, entry.input.settles = true →
      cfg.protocol.Frozen entry.before.state)
    (hown : ∀ entry ∈ history, KeepsOwnState entry.before entry.input) :
    Ahead cfg (updatesOf w.signed) w.seat ∧
      ∀ half ∈ halvesOf w.signed, cfg.protocol.Frozen w.seat.state ∧
        half.split = cfg.protocol.balances w.seat.state := by
  induction hrun with
  | start hstart =>
    obtain ⟨rfl, rfl⟩ := hstart
    exact ⟨fun u hu => (by cases hu), fun half hhalf => (by cases hhalf)⟩
  | @step history w _ entry hbefore hstep ih =>
    have hlast : entry ∈ history ++ [entry] := by simp
    obtain ⟨hahead, hcurrent⟩ := ih (fun e he => hfrozen e (List.mem_append_left _ he))
      (fun e he => hown e (List.mem_append_left _ he))
    have hgrounded := signer_grounded hfresh hbefore
    obtain ⟨hact, hentry, hunforged, rfl⟩ := hstep
    have heffect := act_effect hact
    have hownNow := hown entry hlast
    have hfrozenNow := hfrozen entry hlast
    rw [hentry] at hownNow hfrozenNow
    have hstay : cfg.protocol.Frozen w.seat.state →
        entry.turn.seat.state = w.seat.state := by
      intro hf
      refine frozen_effect hgrounded hahead hf hownNow ?_ heffect
      intro state coSigned msg hinput hadoptable
      rw [hinput] at hunforged
      exact hunforged.signed hgrounded.tunnelId hadoptable
    refine ⟨?_, ?_⟩
    · rw [updatesOf_append]
      exact ahead_effect hahead hownNow heffect
    · intro half hhalf
      rw [halvesOf_append] at hhalf
      rcases List.mem_append.mp hhalf with hhalf | hhalf
      · obtain ⟨hf, hsplit⟩ := hcurrent half hhalf
        simp only [hstay hf]
        exact ⟨hf, hsplit⟩
      · obtain ⟨hsettles, hsplit⟩ := halves_effect heffect hhalf
        have hf := hfrozenNow hsettles
        simp only [hstay hf]
        exact ⟨hf, hsplit⟩

/-- Halves never go stale for the games of the arena, if they are signed in terminal
states between rounds and no checkpoint swaps the state of a nonce. -/
theorem halves_never_stale (game : ArenaGame) (rules : ArenaRules) {crypto : Crypto}
    {options : DistributedConfig game.Move} {initialBalances : Balances}
    {cfg : Config game.State game.Move} {start : Seat game.State game.Move}
    {history : List (SeatEntry game.State game.Move)} {w : Signer game.State game.Move}
    (hcreate : create crypto (game.protocol rules) options initialBalances = .ok (cfg, start))
    (hrun : (signerSystem cfg start).Run history w)
    (hterminal : ∀ entry ∈ history, entry.input.settles = true →
      (game.protocol rules).isTerminal entry.before.state = true)
    (hround : ∀ entry ∈ history, entry.input.settles = true →
      game.BetweenRounds entry.before.state)
    (hown : ∀ entry ∈ history, KeepsOwnState entry.before entry.input) (onchainNonce : Int) :
    HalvesCurrent cfg w onchainNonce := by
  have hcreated := create_ok hcreate
  have hfrozen : ∀ entry ∈ history, entry.input.settles = true →
      cfg.protocol.Frozen entry.before.state := by
    intro entry hentry hsettles
    rw [hcreated.protocol]
    exact ArenaGame.frozen_of_terminal (hterminal entry hentry hsettles)
      (hround entry hentry hsettles)
  intro half hhalf _
  exact ((frozen_halves_current hcreated.fresh hrun hfrozen hown).2 half hhalf).2

/-- What a seat needs in order to sign the update for `next` at `nonce`. -/
structure Signable (cfg : Config State Move) (next : State) (nonce : Int) : Prop where
  encoded : ∃ bytes, cfg.protocol.encodeState next = .ok bytes
  balanced : (cfg.protocol.balances next).a + (cfg.protocol.balances next).b = cfg.total
  shareA : IsU64 (cfg.protocol.balances next).a
  shareB : IsU64 (cfg.protocol.balances next).b
  nonce : IsU64 nonce
  tunnel : ∃ id, addressToBytes32 cfg.tunnelId = .ok id

theorem Signable.derived {move : Move} {party : Party} {next : State}
    (h : Signable cfg next (s.nonce + 1))
    (happlied : cfg.protocol.applyMove s.state move party = .ok next) :
    ∃ update msg, Derived cfg s move party 0 next update msg := by
  obtain ⟨bytes, hencoded⟩ := h.encoded
  obtain ⟨_, hid⟩ := h.tunnel
  let update : StateUpdate :=
    { tunnelId := cfg.tunnelId, stateHash := (cfg.crypto.blake2b256 bytes).bytes
      nonce := s.nonce + 1, timestamp := 0
      partyABalance := (cfg.protocol.balances next).a
      partyBBalance := (cfg.protocol.balances next).b }
  have hzero : IsU64 0 := by decide
  have hencodable : update.Encodable := ⟨h.nonce, hzero, h.shareA, h.shareB⟩
  exact ⟨update, _, happlied, ⟨rfl, ⟨bytes, hencoded, rfl⟩, rfl, rfl, h.balanced⟩, rfl, rfl,
    hencodable.serialized hid⟩

/-- A seat co-signs the other side's move wherever the protocol takes it. -/
theorem Signable.accepted {move : Move} {next : State}
    (hcanSign : ∀ msg, ∃ sig, cfg.opponent.verify msg sig = true)
    (happlied : cfg.protocol.applyMove s.state move (otherParty cfg.selfParty) = .ok next)
    (h : Signable cfg next (s.nonce + 1)) : ∃ frame update msg,
    frame.byParty = otherParty cfg.selfParty ∧ update.nonce = s.nonce + 1 ∧
      act cfg s (.frame (.move frame)) = .ok (acceptance cfg s frame next update msg) := by
  obtain ⟨update, msg, hderived⟩ := h.derived happlied
  obtain ⟨sig, hverify⟩ := hcanSign msg
  let frame : MoveFrame Move :=
    { nonce := update.nonce, byParty := otherParty cfg.selfParty, move := move, timestamp := 0
      stateHash := update.stateHash, partyABalance := update.partyABalance
      partyBBalance := update.partyBBalance, sigProposer := sig }
  have hnonce : frame.nonce = s.nonce + 1 := hderived.nonce
  exact ⟨frame, update, msg, rfl, hnonce, (onMove_ok_iff (by omega)).mpr ⟨otherParty_ne _, hnonce,
    next, update, msg, hderived, ⟨rfl, rfl, rfl, hverify⟩, rfl⟩⟩

/-- A call a match hook makes: no checkpoints, and halves only in states with `P`. -/
structure HookCall (P : State → Prop) (entry : SeatEntry State Move) : Prop where
  play : ∀ state coSigned, entry.input ≠ .adoptCheckpoint state coSigned
  settles : entry.input.settles = true → P entry.before.state

/-- Some run of hook calls leads to `w`. -/
def Hooked (cfg : Config State Move) (start : Seat State Move) (P : State → Prop)
    (w : Signer State Move) : Prop :=
  ∃ history, (signerSystem cfg start).Run history w ∧ ∀ entry ∈ history, HookCall P entry

/-- Hook calls lead to `state` at `nonce`, nothing pending and with `halves` signed. -/
def Plays (cfg : Config State Move) (start : Seat State Move) (P : State → Prop)
    (state : State) (nonce : Int) (halves : List Half) : Prop :=
  ∃ w, Hooked cfg start P w ∧ w.seat.state = state ∧ w.seat.nonce = nonce ∧
    w.seat.pending = none ∧ halvesOf w.signed = halves

section Plays

variable {start : Seat State Move} {P : State → Prop} {state next : State} {nonce : Int}
variable {halves : List Half} {move : Move}

theorem Hooked.call {w : Signer State Move} {input : Input State Move}
    {turn : Turn State Move} (h : Hooked cfg start P w)
    (hact : act cfg w.seat input = .ok turn)
    (hplay : ∀ state coSigned, input ≠ .adoptCheckpoint state coSigned)
    (hsettles : input.settles = true → P w.seat.state) :
    Hooked cfg start P ⟨turn.seat, w.signed ++ turn.signed⟩ := by
  obtain ⟨history, hrun, hcalls⟩ := h
  refine ⟨history ++ [⟨w.seat, input, turn⟩],
    hrun.step ⟨hact, rfl, unforged_of_play hplay, rfl⟩, ?_⟩
  intro e he
  rcases List.mem_append.mp he with he | he
  · exact hcalls e he
  · rw [List.mem_singleton.mp he]
    exact ⟨hplay, hsettles⟩

theorem Plays.fresh (hfresh : Fresh start) : Plays cfg start P start.state 0 [] :=
  ⟨⟨start, []⟩, ⟨[], .start ⟨rfl, rfl⟩, by simp⟩, rfl, hfresh.nonce, hfresh.pending, rfl⟩

section

variable (h : Plays cfg start P state nonce halves)
include h

theorem Plays.opponent (hcanSign : ∀ msg, ∃ sig, cfg.opponent.verify msg sig = true)
    (happlied : cfg.protocol.applyMove state move (otherParty cfg.selfParty) = .ok next)
    (hsignable : Signable cfg next (nonce + 1)) :
    Plays cfg start P next (nonce + 1) halves := by
  obtain ⟨w, hhooked, rfl, rfl, hfree, rfl⟩ := h
  obtain ⟨frame, update, msg, -, hnonce, hact⟩ := hsignable.accepted hcanSign happlied
  refine ⟨_, hhooked.call hact (by simp) (by simp [Input.settles]), rfl, hnonce, ?_, ?_⟩
  · simp [acceptance, hfree, dropOvertaken]
  · rw [halvesOf_append]
    exact List.append_nil _

theorem Plays.own (hcanSign : ∀ msg, ∃ sig, cfg.opponent.verify msg sig = true)
    (happlied : cfg.protocol.applyMove state move cfg.selfParty = .ok next)
    (hsignable : Signable cfg next (nonce + 1)) :
    Plays cfg start P next (nonce + 1) halves := by
  obtain ⟨w, hhooked, rfl, rfl, hfree, rfl⟩ := h
  obtain ⟨update, msg, hderived⟩ := hsignable.derived happlied
  obtain ⟨sig, hverify⟩ := hcanSign msg
  have hseated : act cfg w.seat (.seatPending move 0) = .ok _ :=
    seatPending_ok_iff.mpr ⟨hfree, next, update, msg, hderived, rfl⟩
  have hproposed := hhooked.call hseated (by simp) (by simp [Input.settles])
  have hacked : act cfg { w.seat with pending := some (proposal cfg move 0 next update msg) }
      (.frame (.ack ⟨update.nonce, sig⟩)) = .ok _ :=
    (onAck_ok_iff (by have := hderived.nonce; simp only; omega)).mpr
      ⟨_, rfl, rfl, hverify, rfl⟩
  refine ⟨_, hproposed.call hacked (by simp) (by simp [Input.settles]), rfl, hderived.nonce,
    rfl, ?_⟩
  rw [halvesOf_append, halvesOf_append]
  exact (List.append_nil _).trans (List.append_nil _)

theorem Plays.settle (hstate : P state) (hsignable : Signable cfg state 0) :
    Plays cfg start P state nonce (halves ++ [⟨cfg.protocol.balances state, 1⟩]) := by
  obtain ⟨w, hhooked, rfl, rfl, hfree, rfl⟩ := h
  obtain ⟨_, hid⟩ := hsignable.tunnel
  have hA := u64ToBeBytes_ok_iff.mpr ⟨hsignable.shareA, rfl⟩
  have hB := u64ToBeBytes_ok_iff.mpr ⟨hsignable.shareB, rfl⟩
  have hone : u64ToBeBytes (0 + 1) = .ok _ := u64ToBeBytes_ok_iff.mpr ⟨by decide, rfl⟩
  have hzero : u64ToBeBytes 0 = .ok _ := u64ToBeBytes_ok_iff.mpr ⟨by decide, rfl⟩
  have hact : act cfg w.seat (.buildSettlementHalf 0 0) =
      .ok { seat := w.seat, signed := [.settlement (settlementFor cfg w.seat 0 0)] } := by
    simp only [act, buildSettlementHalf, settlementFor, serializeSettlement, hid, hA, hB, hone,
      hzero]
    rfl
  refine ⟨_, hhooked.call hact (by simp) (fun _ => hstate), rfl, rfl, hfree, ?_⟩
  rw [halvesOf_append]
  rfl

end

end Plays

namespace Sample

def rules : ArenaRules where
  hash := crypto.blake2b256
  playerPartyFor := Blackjack.getPlayerParty
  drawLimit := 64
  handCap := 1000
  ante := 50
  stake := 100
  hazards _ _ _ _ := false

theorem opponent_canSign {protocol : Protocol State Move} {total : Int} {party : Party}
    (msg : Bytes) : ∃ sig, (config protocol total party).opponent.verify msg sig = true :=
  ⟨key (otherParty party) ++ msg, by simp [config, endpoint]⟩

theorem sampleTunnel : ∃ id, addressToBytes32 "0x7" = .ok id :=
  exists_ok_of_isOk (by decide +kernel)

def battleshipConfig : Config BattleshipState BattleshipMove :=
  config (ArenaGame.battleship.protocol rules) (2000 + 2000) .B

def battleshipSeat : Seat BattleshipState BattleshipMove :=
  freshSeat (ArenaGame.battleship.protocol rules) ⟨2000, 2000⟩

/-- The game after party A resigned at once. -/
def resigned : BattleshipState :=
  Battleship.settle battleshipSeat.state .partyB

theorem signable_resigned (nonce : Int) (hnonce : IsU64 nonce) :
    Signable battleshipConfig resigned nonce where
  encoded := exists_ok_of_isOk (by decide +kernel)
  balanced := by decide +kernel
  shareA := by decide +kernel
  shareB := by decide +kernel
  nonce := hnonce
  tunnel := sampleTunnel

def blackjackConfig : Config BlackjackState BlackjackMove :=
  config (ArenaGame.blackjack.protocol rules) (2000 + 2000) .B

def blackjackSeat : Seat BlackjackState BlackjackMove :=
  freshSeat (ArenaGame.blackjack.protocol rules) ⟨2000, 2000⟩

/-- The match after party A has won `r` rounds with bets of 1. -/
def roundsWon (r : Int) : BlackjackState where
  phase := .roundOver
  round := r
  drawCount := 0
  playerHand := []
  dealerHand := []
  draw := none
  pendingCommitA := none
  pendingCommitB := none
  pendingRevealA := none
  pendingRevealB := none
  localSecretA := none
  localSecretB := none
  balanceA := 2000 + r
  balanceB := 2000 - r
  total := 4000
  bet := if r = 0 then 0 else 1

def betPlaced (r : Int) : BlackjackState :=
  Blackjack.beginRound { roundsWon r with bet := 1 }

def committed (r : Int) : BlackjackState :=
  { betPlaced r with pendingCommitA := some (List.replicate 32 0) }

theorem bet_placed {r : Int} (hlow : 0 ≤ r) (hhigh : r < 1000) :
    blackjackConfig.protocol.applyMove (roundsWon r) (.bet 1)
      (Blackjack.getPlayerParty (r + 1)) = .ok (betPlaced r) := by
  have hopen : Blackjack.isTerminal (roundsWon r) = false := by
    simp only [Blackjack.isTerminal, roundsWon, Blackjack.roundCap,
      Blackjack.canStartRound, Blackjack.maxBet, Blackjack.minBet]
    grind
  have hcap : (1 : Int) ≤ Blackjack.maxBet (roundsWon r) := by
    simp only [Blackjack.maxBet, roundsWon]
    grind
  change Blackjack.applyBet Blackjack.getPlayerParty (roundsWon r) 1 _ = _
  simp only [Blackjack.applyBet, returned]
  exact ⟨hopen, rfl, ⟨by decide, hcap⟩, rfl⟩

theorem share_committed (r : Int) :
    blackjackConfig.protocol.applyMove (betPlaced r) (.commit (List.replicate 32 0) none) .A =
      .ok (committed r) := rfl

/-- Nobody has answered the commit yet, and party A claims the round. -/
theorem round_claimed {r : Int} (hlow : 0 ≤ r) (hhigh : r < 1000) :
    blackjackConfig.protocol.applyMove (committed r) .forfeit .A = .ok (roundsWon (r + 1)) := by
  have hstake : (1 : Int) ≤ 2000 - r := by omega
  have hbet : r + 1 ≠ 0 := by omega
  change Blackjack.claimForfeit (committed r) .A = _
  simp only [Blackjack.claimForfeit, committed, betPlaced, roundsWon,
    Blackjack.beginRound, Blackjack.beginDraw, Blackjack.clearDraw,
    Blackjack.pendingCommit, otherParty, Blackjack.settle, hstake, hbet, if_true,
    if_false]
  simp only [require, bind, Except.bind, Option.isSome_some, Option.isNone_none, and_self,
    if_true, pure, Except.pure]
  rw [show 2000 + r + 1 = 2000 + (r + 1) by omega, show 2000 - r - 1 = 2000 - (r + 1) by omega]

theorem signable_blackjack {state : BlackjackState} {r nonce : Int} (hlow : 0 ≤ r)
    (hhigh : r ≤ 1000) (hA : state.balanceA = 2000 + r) (hB : state.balanceB = 2000 - r)
    (hround : IsU64 state.round) (hdraw : state.drawCount = 0) (hbet : IsU64 state.bet)
    (hplayer : state.playerHand = []) (hdealer : state.dealerHand = [])
    (hnonce : IsU64 nonce) : Signable blackjackConfig state nonce := by
  have hshareA : IsU64 state.balanceA := by
    rw [hA, IsU64, u64Max]
    omega
  have hshareB : IsU64 state.balanceB := by
    rw [hB, IsU64, u64Max]
    omega
  refine ⟨?_, ?_, hshareA, hshareB, hnonce, sampleTunnel⟩
  · refine Blackjack.encodeState_total ?_ (by rw [hplayer]; decide)
      (by rw [hdealer]; decide)
    rw [hdraw]
    simp only [List.mem_cons, List.not_mem_nil, or_false, forall_eq_or_imp, forall_eq]
    exact ⟨hshareA, hshareB, hround, by decide, hbet⟩
  · change state.balanceA + state.balanceB = 2000 + 2000
    omega

theorem isU64_of_le {value : Int} (hlow : 0 ≤ value) (hhigh : value ≤ 4000) : IsU64 value := by
  rw [IsU64, u64Max]
  omega

theorem signable_roundsWon {r nonce : Int} (hlow : 0 ≤ r) (hhigh : r ≤ 1000)
    (hnonce : IsU64 nonce) : Signable blackjackConfig (roundsWon r) nonce :=
  signable_blackjack hlow hhigh rfl rfl (isU64_of_le hlow (by simp only [roundsWon]; omega)) rfl
    (by simp only [roundsWon]; split <;> decide) rfl rfl hnonce

theorem signable_betPlaced {r nonce : Int} (hlow : 0 ≤ r) (hhigh : r < 1000)
    (hnonce : IsU64 nonce) : Signable blackjackConfig (betPlaced r) nonce :=
  signable_blackjack hlow (by omega) rfl rfl
    (isU64_of_le (by omega) (by omega) : IsU64 (r + 1)) rfl (by decide : IsU64 1) rfl rfl hnonce

theorem signable_committed {r nonce : Int} (hlow : 0 ≤ r) (hhigh : r < 1000)
    (hnonce : IsU64 nonce) : Signable blackjackConfig (committed r) nonce :=
  signable_blackjack hlow (by omega) rfl rfl
    (isU64_of_le (by omega) (by omega) : IsU64 (r + 1)) rfl (by decide : IsU64 1) rfl rfl hnonce

section Rounds

variable {P : BlackjackState → Prop} {r nonce : Int} {halves : List Half}

theorem plays_bet (h : Plays blackjackConfig blackjackSeat P (roundsWon r) nonce halves)
    (hlow : 0 ≤ r) (hhigh : r < 1000) (hnonce : IsU64 (nonce + 1)) :
    Plays blackjackConfig blackjackSeat P (betPlaced r) (nonce + 1) halves := by
  have hbet := bet_placed hlow hhigh
  have hsignable := signable_betPlaced hlow hhigh hnonce
  cases hplayer : Blackjack.getPlayerParty (r + 1) with
  | A =>
    rw [hplayer] at hbet
    exact h.opponent opponent_canSign hbet hsignable
  | B =>
    rw [hplayer] at hbet
    exact h.own opponent_canSign hbet hsignable

/-- Party A commits and claims the round before party B's commit can arrive. -/
theorem plays_claim (h : Plays blackjackConfig blackjackSeat P (betPlaced r) nonce halves)
    (hlow : 0 ≤ r) (hhigh : r < 1000) (hnonce : IsU64 (nonce + 1))
    (hnonce' : IsU64 (nonce + 1 + 1)) :
    Plays blackjackConfig blackjackSeat P (roundsWon (r + 1)) (nonce + 1 + 1) halves :=
  (h.opponent opponent_canSign (share_committed r)
    (signable_committed hlow hhigh hnonce)).opponent opponent_canSign
    (round_claimed hlow hhigh) (signable_roundsWon (by omega) (by omega) hnonce')

theorem plays_rounds (n : Nat) (hn : n ≤ 1000) :
    Plays blackjackConfig blackjackSeat P (roundsWon n) (3 * n) [] := by
  induction n with
  | zero => exact Plays.fresh ⟨rfl, rfl, rfl⟩
  | succ n ih =>
    have hlow : (0 : Int) ≤ n := by omega
    have hhigh : (n : Int) < 1000 := by omega
    have hplay := plays_claim
      (plays_bet (ih (by omega)) hlow hhigh (isU64_of_le (by omega) (by omega)))
      hlow hhigh (isU64_of_le (by omega) (by omega)) (isU64_of_le (by omega) (by omega))
    exact_mod_cast hplay

end Rounds

end Sample

/-- Party A resigns a battleship game and party B's seat signs its half. -/
theorem halves_never_stale_resigned : ∃ history w,
    (signerSystem Sample.battleshipConfig Sample.battleshipSeat).Run history w ∧
    halvesOf w.signed = [⟨⟨1900, 2100⟩, 1⟩] ∧
    HalvesCurrent Sample.battleshipConfig w 0 := by
  have hstart : Plays Sample.battleshipConfig Sample.battleshipSeat
      (fun state => Battleship.isTerminal state = true)
      Sample.battleshipSeat.state 0 [] :=
    Plays.fresh ⟨rfl, rfl, rfl⟩
  have hresign : Sample.battleshipConfig.protocol.applyMove Sample.battleshipSeat.state
      .resign .A = .ok Sample.resigned := by
    decide +kernel
  have hresigned := hstart.opponent Sample.opponent_canSign hresign
    (Sample.signable_resigned 1 (by decide))
  obtain ⟨w, ⟨history, hrun, hcalls⟩, -, -, -, hhalves⟩ :=
    hresigned.settle (by decide +kernel) (Sample.signable_resigned 0 (by decide))
  refine ⟨history, w, hrun, hhalves, ?_⟩
  exact halves_never_stale .battleship Sample.rules
    (Sample.create_sample _ ⟨2000, 2000⟩ .B (by decide +kernel)) hrun
    (fun entry hentry => (hcalls entry hentry).settles) (fun _ _ _ => trivial)
    (fun entry hentry state coSigned hinput =>
      absurd hinput ((hcalls entry hentry).play state coSigned)) 0

/-- Party B's bet opens round 1000, which makes the state terminal; party B's seat signs
its half, and party A then commits and claims the round. The seat ends up with two halves
for the same on-chain nonce and different splits. -/
theorem blackjack_half_goes_stale : ∃ history w,
    create Sample.crypto (ArenaGame.blackjack.protocol Sample.rules)
      (Sample.options BlackjackMove .B) ⟨2000, 2000⟩ =
      .ok (Sample.blackjackConfig, Sample.blackjackSeat) ∧
    (signerSystem Sample.blackjackConfig Sample.blackjackSeat).Run history w ∧
    (∀ entry ∈ history, entry.input.settles = true →
      Blackjack.isTerminal entry.before.state = true) ∧
    (∀ entry ∈ history, ∀ state coSigned, entry.input ≠ .adoptCheckpoint state coSigned) ∧
    halvesOf w.signed = [⟨⟨2999, 1001⟩, 1⟩, ⟨⟨3000, 1000⟩, 1⟩] ∧
    ¬HalvesCurrent Sample.blackjackConfig w 0 := by
  have hrounds := Sample.plays_rounds
    (P := fun state => Blackjack.isTerminal state = true) 999 (by omega)
  have hbet := Sample.plays_bet hrounds (by decide) (by decide) (by decide)
  have hhalf := hbet.settle (by decide)
    (Sample.signable_betPlaced (by decide) (by decide) (by decide))
  have hclaimed := Sample.plays_claim hhalf (by decide) (by decide) (by decide) (by decide)
  obtain ⟨w, ⟨history, hrun, hcalls⟩, hstate, -, -, hhalves⟩ := hclaimed.settle (by decide)
    (Sample.signable_roundsWon (by decide) (by decide) (by decide))
  refine ⟨history, w, Sample.create_sample _ ⟨2000, 2000⟩ .B (by decide +kernel), hrun,
    fun entry hentry => (hcalls entry hentry).settles,
    fun entry hentry => (hcalls entry hentry).play, hhalves, ?_⟩
  intro hcurrent
  have hfirst := hcurrent ⟨⟨2999, 1001⟩, 1⟩ (by rw [hhalves]; decide) rfl
  rw [hstate] at hfirst
  exact absurd hfirst (by decide)

end DopamintArena.Engine
