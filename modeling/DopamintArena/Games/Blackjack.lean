import DopamintArena.Games.Commitment

/-!
`protocol/blackjack.ts`: dealerless blackjack, every card drawn by a two-party
commit and reveal when it is dealt. `playerPartyFor` says which seat plays in
a round.

`isTerminal` is true in every state of round 1000, also while the round is
still being played; only between rounds does it stop the moves.
-/

namespace DopamintArena.Games

open Foundation Engine

inductive BlackjackPhase
  | drawCommit
  | drawReveal
  | player
  | roundOver
deriving DecidableEq

inductive ForHand
  | player
  | dealer
deriving DecidableEq

inductive DrawReason
  | deal
  | hit
  | dealerAuto
deriving DecidableEq

structure DrawContext where
  forHand : ForHand
  reason : DrawReason
deriving DecidableEq

structure BlackjackState where
  phase : BlackjackPhase
  round : Int
  drawCount : Int
  playerHand : List Int
  dealerHand : List Int
  draw : Option DrawContext
  pendingCommitA : Option Bytes
  pendingCommitB : Option Bytes
  pendingRevealA : Option SlotReveal
  pendingRevealB : Option SlotReveal
  localSecretA : Option SlotReveal
  localSecretB : Option SlotReveal
  balanceA : Int
  balanceB : Int
  total : Int
  bet : Int
deriving DecidableEq

inductive BlackjackMove
  | bet (amount : Int)
  | commit (commitment : Bytes) (localSecret : Option SlotReveal)
  | reveal (reveal : SlotReveal)
  | hit
  | stand
  | forfeit
deriving DecidableEq

def BlackjackMove.kind : BlackjackMove → String
  | .bet _ => "bet"
  | .commit _ _ => "commit"
  | .reveal _ => "reveal"
  | .hit => "hit"
  | .stand => "stand"
  | .forfeit => "forfeit"

namespace Blackjack

/-- The default: the seats change roles every two rounds. -/
def getPlayerParty (round : Int) : Party :=
  if ((round - 1).fdiv 2).tmod 2 = 0 then .A else .B

def minBet : Int := 1
def roundCap : Int := 1000
def dealerStandsAt : Int := 17
def bustAt : Int := 21

def phaseCode : BlackjackPhase → UInt8
  | .drawCommit => 0
  | .drawReveal => 1
  | .player => 2
  | .roundOver => 3

def forHandCode : ForHand → UInt8
  | .player => 0
  | .dealer => 1

def reasonCode : DrawReason → UInt8
  | .deal => 0
  | .hit => 1
  | .dealerAuto => 2

def rankValue (rank : Int) : Int :=
  if rank = 1 then 11 else if 11 ≤ rank then 10 else rank

def softenAces : Int → Nat → Int
  | total, 0 => total
  | total, aces + 1 => if bustAt < total then softenAces (total - 10) aces else total

def handValue (hand : List Int) : Int := softenAces hand.sum (hand.count 11)

def isBust (hand : List Int) : Bool := decide (bustAt < handValue hand)

def maxBet (s : BlackjackState) : Int :=
  if s.balanceA < s.balanceB then s.balanceA else s.balanceB

def canStartRound (s : BlackjackState) : Bool := decide (minBet ≤ maxBet s)

def deriveRank (hash : Hash) (limit : Nat) (a b : SlotReveal) : Except String Int := do
  let (v, _) ← nextU64InRange hash limit (seedFromBytes (combineReveals hash a b)) 0 13
  pure (v + 1)

section

variable (s : BlackjackState)

/-- The draw in flight is forgotten. -/
def clearDraw : BlackjackState :=
  { s with
    draw := none, pendingCommitA := none, pendingCommitB := none, pendingRevealA := none
    pendingRevealB := none, localSecretA := none, localSecretB := none }

def beginDraw (ctx : DrawContext) : BlackjackState :=
  { clearDraw s with phase := .drawCommit, draw := some ctx }

def beginRound : BlackjackState :=
  beginDraw
    { s with round := s.round + 1, drawCount := 0, playerHand := [], dealerHand := [] }
    ⟨.player, .deal⟩

def settle (winner : Option Party) : BlackjackState :=
  let (balanceA, balanceB) := match winner with
    | some .A =>
      let amt := if s.bet ≤ s.balanceB then s.bet else s.balanceB
      (s.balanceA + amt, s.balanceB - amt)
    | some .B =>
      let amt := if s.bet ≤ s.balanceA then s.bet else s.balanceA
      (s.balanceA - amt, s.balanceB + amt)
    | none => (s.balanceA, s.balanceB)
  { clearDraw s with phase := .roundOver, balanceA, balanceB }

def pendingCommit : Party → Option Bytes
  | .A => s.pendingCommitA
  | .B => s.pendingCommitB

def pendingReveal : Party → Option SlotReveal
  | .A => s.pendingRevealA
  | .B => s.pendingRevealB

/-- Records a commitment; the reveals start once both are there. -/
def applyCommit (commitment : Bytes) (localSecret : Option SlotReveal)
    (byParty : Party) : Except String BlackjackState := do
  require ((pendingCommit s byParty).isNone = true) s!"party {byParty.text} already committed"
  require (commitment.length = 32) "commitment must be 32 bytes"
  let next := match byParty with
    | .A => { s with pendingCommitA := some commitment, localSecretA := localSecret }
    | .B => { s with pendingCommitB := some commitment, localSecretB := localSecret }
  if next.pendingCommitA.isSome ∧ next.pendingCommitB.isSome then
    pure { next with phase := .drawReveal }
  else pure next

/-- `byParty` takes the round because the opponent owes a commit or a reveal. -/
def claimForfeit (byParty : Party) : Except String BlackjackState :=
  match s.phase with
  | .drawCommit => do
    require ((pendingCommit s byParty).isSome = true ∧
        (pendingCommit s (otherParty byParty)).isNone = true)
      "forfeit not claimable: opponent does not owe a commit"
    pure (settle s (some byParty))
  | .drawReveal => do
    require ((pendingReveal s byParty).isSome = true ∧
        (pendingReveal s (otherParty byParty)).isNone = true)
      "forfeit not claimable: opponent does not owe a reveal"
    pure (settle s (some byParty))
  | .player | .roundOver => .error "forfeit only valid during a pending draw"

def isTerminal : Bool :=
  decide (roundCap ≤ s.round) || (decide (s.phase = .roundOver) && !canStartRound s)

end

section Rules

variable (playerPartyFor : Int → Party) (hash : Hash) (limit : Nat)

def dealerPartyFor (round : Int) : Party := otherParty (playerPartyFor round)

section

variable (s : BlackjackState)

def resolveShowdown : BlackjackState :=
  let pv := handValue s.playerHand
  let dv := handValue s.dealerHand
  settle s <|
    if isBust s.dealerHand then some (playerPartyFor s.round)
    else if dv < pv then some (playerPartyFor s.round)
    else if pv < dv then some (dealerPartyFor playerPartyFor s.round)
    else none

/-- Deals a drawn rank and goes on with the round. -/
def afterDraw (rank : Int) : Except String BlackjackState :=
  match s.draw with
  | none => .error "Cannot read properties of null (reading 'forHand')"
  | some ctx =>
    let value := rankValue rank
    let playerHand := match ctx.forHand with
      | .player => s.playerHand ++ [value]
      | .dealer => s.playerHand
    let dealerHand := match ctx.forHand with
      | .player => s.dealerHand
      | .dealer => s.dealerHand ++ [value]
    let base := { clearDraw s with playerHand, dealerHand, drawCount := s.drawCount + 1 }
    match ctx.reason with
    | .deal =>
      if playerHand.length < 2 then .ok (beginDraw base ⟨.player, .deal⟩)
      else if dealerHand.length < 2 then .ok (beginDraw base ⟨.dealer, .deal⟩)
      else .ok { base with phase := .player }
    | .hit =>
      if isBust playerHand then
        .ok (settle base (some (dealerPartyFor playerPartyFor base.round)))
      else .ok { base with phase := .player }
    | .dealerAuto =>
      if handValue dealerHand < dealerStandsAt then
        .ok (beginDraw base ⟨.dealer, .dealerAuto⟩)
      else .ok (resolveShowdown playerPartyFor base)

def applyReveal (reveal : SlotReveal) (byParty : Party) :
    Except String BlackjackState := do
  require ((pendingReveal s byParty).isNone = true) s!"party {byParty.text} already revealed"
  match pendingCommit s byParty with
  | none => .error s!"party {byParty.text} has no commitment to reveal"
  | some commit => do
    require (verifyCommitment hash commit reveal.value reveal.salt = true)
      s!"reveal does not match commitment for party {byParty.text}"
    let next := match byParty with
      | .A => { s with pendingRevealA := some reveal }
      | .B => { s with pendingRevealB := some reveal }
    match next.pendingRevealA, next.pendingRevealB with
    | some a, some b => do
      let rank ← deriveRank hash limit a b
      afterDraw playerPartyFor next rank
    | _, _ => pure next

def applyBet (amount : Int) (byParty : Party) :
    Except String BlackjackState := do
  require (isTerminal s = false) "game over: no more rounds can be played"
  let nextPlayer := playerPartyFor (s.round + 1)
  require (byParty = nextPlayer) s!"only the player ({nextPlayer.text}) sets the bet"
  let cap := maxBet s
  require (minBet ≤ amount ∧ amount ≤ cap) s!"bet must be in [{minBet}, {cap}]"
  pure (beginRound { s with bet := amount })

def applyMove (move : BlackjackMove) (byParty : Party) :
    Except String BlackjackState :=
  match s.phase, move with
  | .roundOver, .bet amount => applyBet playerPartyFor s amount byParty
  | .roundOver, move => .error s!"expected 'bet' in round_over, got '{move.kind}'"
  | .drawCommit, .forfeit => claimForfeit s byParty
  | .drawCommit, .commit commitment localSecret => applyCommit s commitment localSecret byParty
  | .drawCommit, move => .error s!"expected 'commit' in draw_commit, got '{move.kind}'"
  | .drawReveal, .forfeit => claimForfeit s byParty
  | .drawReveal, .reveal reveal => applyReveal playerPartyFor hash limit s reveal byParty
  | .drawReveal, move => .error s!"expected 'reveal' in draw_reveal, got '{move.kind}'"
  | .player, move => do
    let playerParty := playerPartyFor s.round
    require (byParty = playerParty) s!"it is the player's ({playerParty.text}) turn"
    match move with
    | .hit => pure (beginDraw s ⟨.player, .hit⟩)
    | .stand =>
      -- a dealer that already stands draws nothing
      if dealerStandsAt ≤ handValue s.dealerHand then
        pure (resolveShowdown playerPartyFor s)
      else pure (beginDraw s ⟨.dealer, .dealerAuto⟩)
    | move => .error s!"expected 'hit' or 'stand' in player phase, got '{move.kind}'"

end

end Rules

def initialState (ctx : ProtocolContext) : BlackjackState where
  phase := .roundOver
  round := 0
  drawCount := 0
  playerHand := []
  dealerHand := []
  draw := none
  pendingCommitA := none
  pendingCommitB := none
  pendingRevealA := none
  pendingRevealB := none
  localSecretA := none
  localSecretB := none
  balanceA := ctx.initialBalances.a
  balanceB := ctx.initialBalances.b
  total := ctx.initialBalances.a + ctx.initialBalances.b
  bet := 0

def encodeReveal : Option SlotReveal → Bytes
  | none => [0]
  | some r => [1] ++ lengthPrefixedConcat [r.value] ++ lengthPrefixedConcat [r.salt]

def encodeState (s : BlackjackState) : Except String Bytes := do
  let numbers ← u64s [s.balanceA, s.balanceB, s.round, s.drawCount]
  let playerLength ← u64ToBeBytes s.playerHand.length
  let dealerLength ← u64ToBeBytes s.dealerHand.length
  let bet ← u64ToBeBytes s.bet
  let draw := match s.draw with
    | none => [0xff]
    | some ctx => [1, forHandCode ctx.forHand, reasonCode ctx.reason]
  pure (protocolDomain "blackjack.v2" ++ numbers ++ [phaseCode s.phase] ++
    playerLength ++ s.playerHand.map byteOf ++ dealerLength ++ s.dealerHand.map byteOf ++
    bet ++ draw ++ lengthPrefixedConcat [s.pendingCommitA.getD []] ++
    lengthPrefixedConcat [s.pendingCommitB.getD []] ++
    encodeReveal s.pendingRevealA ++ encodeReveal s.pendingRevealB)

/-- A state whose numbers are in range can be encoded. -/
theorem encodeState_total {s : BlackjackState}
    (hnumbers : ∀ value ∈ [s.balanceA, s.balanceB, s.round, s.drawCount, s.bet], IsU64 value)
    (hplayer : IsU64 s.playerHand.length) (hdealer : IsU64 s.dealerHand.length) :
    ∃ bytes, encodeState s = .ok bytes := by
  have hnumbers' := u64s_total [s.balanceA, s.balanceB, s.round, s.drawCount]
    (fun v hv => hnumbers v (by simp only [List.mem_cons] at hv ⊢; tauto))
  have hbet := u64ToBeBytes_ok_iff.mpr ⟨hnumbers s.bet (by simp), rfl⟩
  have hplayer' := u64ToBeBytes_ok_iff.mpr ⟨hplayer, rfl⟩
  have hdealer' := u64ToBeBytes_ok_iff.mpr ⟨hdealer, rfl⟩
  simp only [encodeState, returned]
  exact ⟨_, _, hnumbers', _, hplayer', _, hdealer', _, hbet, rfl⟩

def protocol (playerPartyFor : Int → Party) (hash : Hash) (limit : Nat) :
    Protocol BlackjackState BlackjackMove where
  name := "blackjack.v2"
  initialState := initialState
  applyMove := applyMove playerPartyFor hash limit
  encodeState := encodeState
  balances s := ⟨s.balanceA, s.balanceB⟩
  isTerminal := isTerminal

/-- Between rounds a terminal state takes no more moves. -/
theorem frozen_of_terminal {playerPartyFor : Int → Party} {hash : Hash} {limit : Nat}
    {s : BlackjackState} (h : (protocol playerPartyFor hash limit).isTerminal s = true)
    (hphase : s.phase = .roundOver) : (protocol playerPartyFor hash limit).Frozen s := by
  rintro move party ⟨next, hnext⟩
  simp only [protocol, applyMove, hphase] at hnext h
  cases move with
  | bet =>
    simp only [applyBet, returned] at hnext
    rw [h] at hnext
    exact Bool.noConfusion hnext.1
  | commit | reveal | hit | stand | forfeit => cases hnext

end Blackjack

end DopamintArena.Games
