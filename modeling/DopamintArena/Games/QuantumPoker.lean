import DopamintArena.Games.PokerHands

/-!
`protocol/quantumPoker.ts`: heads-up poker without a dealer. A hand uses nine
slots of two-party randomness: 0 and 1 are party A's hole cards, 2 and 3 party
B's, 4 to 6 the flop, 7 the turn and 8 the river. A hidden card that equals a
board card is burned at showdown.
-/

namespace DopamintArena.Games

open Foundation Engine

inductive PokerPhase
  | commit
  | openPrivateHoles
  | preflopBet
  | revealFlop
  | flopBet
  | revealTurn
  | turnBet
  | revealRiver
  | riverBet
  | showdown
  | handOver
  | done
deriving DecidableEq

inductive PokerWinner
  | seat (party : Party)
  | tie
deriving DecidableEq

inductive PokerReason
  | showdown
  | fold
deriving DecidableEq

structure PokerHandResult where
  winner : PokerWinner
  reason : PokerReason
  scoreA : Option Int
  scoreB : Option Int
  bestA : Option (List Int)
  bestB : Option (List Int)
  burnedA : List Int
  burnedB : List Int
deriving DecidableEq

structure PokerState where
  phase : PokerPhase
  handNo : Int
  handCap : Int
  commitA : Option (List Bytes)
  commitB : Option (List Bytes)
  revealsA : List (Option SlotReveal)
  revealsB : List (Option SlotReveal)
  /-- The `localSecrets` and `hole` fields are private to a seat and never encoded. -/
  localSecretsA : Option (List (Option SlotReveal))
  localSecretsB : Option (List (Option SlotReveal))
  holeA : Option (List Int)
  holeB : Option (List Int)
  board : List Int
  boardSlots : List Int
  boardCounters : List Int
  totalBetA : Int
  totalBetB : Int
  streetBetA : Int
  streetBetB : Int
  toAct : Party
  actedA : Bool
  actedB : Bool
  foldedBy : Option Party
  shownA : Bool
  shownB : Bool
  shownHoleA : Option (List Int)
  shownHoleB : Option (List Int)
  winner : Option PokerWinner
  lastResult : Option PokerHandResult
  balanceA : Int
  balanceB : Int
  total : Int
deriving DecidableEq

inductive PokerMove
  | commitSlots (commitments : List Bytes) (localSecrets : Option (List SlotReveal))
  | revealSlots (slots : List Int) (reveals : List SlotReveal)
  | bet (amount : Int)
  | check
  | call
  | fold
  | forfeit
  | nextHand
deriving DecidableEq

namespace QuantumPoker

def slotCount : Nat := 9

def aHoleSlots : List Int := [0, 1]
def bHoleSlots : List Int := [2, 3]
def flopSlots : List Int := [4, 5, 6]
def turnSlots : List Int := [7]
def riverSlots : List Int := [8]

def emptyRevealSlots : List (Option SlotReveal) := List.replicate slotCount none

def holeSlots : Party → List Int
  | .A => aHoleSlots
  | .B => bHoleSlots

def phaseText : PokerPhase → String
  | .commit => "commit"
  | .openPrivateHoles => "open_private_holes"
  | .preflopBet => "preflop_bet"
  | .revealFlop => "reveal_flop"
  | .flopBet => "flop_bet"
  | .revealTurn => "reveal_turn"
  | .turnBet => "turn_bet"
  | .revealRiver => "reveal_river"
  | .riverBet => "river_bet"
  | .showdown => "showdown"
  | .handOver => "hand_over"
  | .done => "done"

def sameNumberSet (a b : List Int) : Bool :=
  decide (a.length = b.length) &&
    decide (a.insertionSort (· ≤ ·) = b.insertionSort (· ≤ ·))

def joined (slots : List Int) : String := ",".intercalate (slots.map toString)

def slotAt {α : Type} (slots : List (Option α)) (slot : Int) : Option α :=
  if 0 ≤ slot then (slots[slot.toNat]?).join else none

def revealArrayFor (s : PokerState) : Party → List (Option SlotReveal)
  | .A => s.revealsA
  | .B => s.revealsB

def localSecretArrayFor (s : PokerState) : Party → Option (List (Option SlotReveal))
  | .A => s.localSecretsA
  | .B => s.localSecretsB

def commitArrayFor (s : PokerState) : Party → Option (List Bytes)
  | .A => s.commitA
  | .B => s.commitB

def hasRevealed (s : PokerState) (party : Party) (slots : List Int) : Bool :=
  slots.all fun slot => (slotAt (revealArrayFor s party) slot).isSome

/-- The slots a seat still owes in this phase. -/
def expectedRevealSlots (s : PokerState) (byParty : Party) : Except String (List Int) :=
  let revealIfMissing := fun slots : List Int =>
    slots.filter fun slot => (slotAt (revealArrayFor s byParty) slot).isNone
  match s.phase with
  | .openPrivateHoles => .ok (revealIfMissing (holeSlots (otherParty byParty)))
  | .revealFlop => .ok (revealIfMissing flopSlots)
  | .revealTurn => .ok (revealIfMissing turnSlots)
  | .revealRiver => .ok (revealIfMissing riverSlots)
  | .showdown => .ok (revealIfMissing (holeSlots byParty))
  | .commit | .preflopBet | .flopBet | .turnBet | .riverBet | .handOver | .done =>
    .error s!"no slot reveal legal in phase {phaseText s.phase}"

/-- The first commitment that is not 32 bytes long. -/
def malformed (commitments : List Bytes) : Option Nat :=
  commitments.findIdx? fun c => decide (c.length ≠ 32)

def validateCommitments (commitments : List Bytes) : Except String (List Bytes) := do
  require (commitments.length = slotCount) s!"expected {slotCount} slot commitments"
  match malformed commitments with
  | some i => .error s!"commitment {i} must be 32 bytes"
  | none => pure commitments

section Cards

variable (hash : Hash)

def commitSlotSecrets (secrets : List SlotReveal) : Except String (List Bytes) := do
  require (secrets.length = slotCount) s!"expected {slotCount} slot secrets"
  secrets.mapM fun secret => computeCommitment hash secret.value secret.salt

def validateLocalSecretsForCommit (commitments : List Bytes) (secrets : List SlotReveal) :
    Except String (List (Option SlotReveal)) := do
  require (secrets.length = slotCount) s!"expected {slotCount} local slot secrets"
  let expected ← commitSlotSecrets hash secrets
  require (expected = commitments) "local secrets do not match commitments"
  pure (secrets.map some)

/-- The joint seed of a slot, rehashed for a retry, modulo 52. -/
def deriveQuantumCard (a b : SlotReveal) (counter : Int) : Except String Int := do
  require (0 ≤ counter) s!"invalid card derivation counter {counter}"
  let slotSeed := combineReveals hash a b
  let seedBytes ←
    if counter = 0 then pure slotSeed
    else do
      let suffix ← u64ToBeBytes counter
      pure (hash (slotSeed ++ suffix)).bytes
  pure ((seedBytes.foldl (fun acc byte => (acc * 256 + byte.toNat) % 52) 0 : Nat) : Int)

def revealForDerivation (s : PokerState) (party : Party) (slot : Int) (allowLocal : Bool) :
    Option SlotReveal :=
  match slotAt (revealArrayFor s party) slot with
  | some reveal => some reveal
  | none =>
    if allowLocal then (localSecretArrayFor s party).bind fun secrets => slotAt secrets slot
    else none

def deriveSlotCard (s : PokerState) (slot counter : Int) (allowLocal : Bool) :
    Except String (Option Int) :=
  match revealForDerivation s .A slot allowLocal, revealForDerivation s .B slot allowLocal with
  | some a, some b => do
    let card ← deriveQuantumCard hash a b counter
    pure (some card)
  | _, _ => .ok none

/-- Retries a board slot until its card is not on the board yet. -/
def deriveUniqueBoardCard (s : PokerState) (slot : Int) (used : List Int) :
    Nat → Int → Except String (Int × Int)
  | 0, _ => .error "could not derive unique board card"
  | tries + 1, counter => do
    let card ← deriveSlotCard hash s slot counter false
    match card with
    | none => .error s!"board slot {slot} is not revealed"
    | some card =>
      if used.contains card then deriveUniqueBoardCard s slot used tries (counter + 1)
      else pure (card, counter)

/-- The hole cards of a seat as far as this process can derive them. -/
def tryDeriveHoleCards (s : PokerState) (owner : Party) : Except String (Option (List Int)) := do
  let cards ← (holeSlots owner).mapM fun slot => deriveSlotCard hash s slot 0 true
  pure (cards.mapM id)

def derivePublicHoleCards (s : PokerState) (owner : Party) : Except String (List Int) :=
  (holeSlots owner).mapM fun slot => do
    let card ← deriveSlotCard hash s slot 0 false
    match card with
    | none => .error s!"hole slot {slot} not public"
    | some card => pure card

end Cards

section

variable (s : PokerState)

def streetBet : Party → Int
  | .A => s.streetBetA
  | .B => s.streetBetB

def totalBet : Party → Int
  | .A => s.totalBetA
  | .B => s.totalBetB

/-- Neither seat can put in more than the shorter stack. -/
def availableFor (byParty : Party) : Int :=
  let effectiveStack := if s.balanceA < s.balanceB then s.balanceA else s.balanceB
  let remaining := effectiveStack - totalBet s byParty
  if 0 < remaining then remaining else 0

def bettingClosed : Bool :=
  decide (availableFor s .A = 0 ∨ availableFor s .B = 0)

def addBet (amount : Int) : Party → PokerState
  | .A => { s with streetBetA := s.streetBetA + amount, totalBetA := s.totalBetA + amount }
  | .B => { s with streetBetB := s.streetBetB + amount, totalBetB := s.totalBetB + amount }

def markActed (acted : Bool) : Party → PokerState
  | .A => { s with actedA := acted }
  | .B => { s with actedB := acted }

def beginStreet (phase : PokerPhase) : PokerState :=
  { s with
    phase := phase, streetBetA := 0, streetBetB := 0, toAct := .A, actedA := false
    actedB := false }

/-- The reveal phase that follows a betting phase. -/
def advanceStreet : Except String PokerState := do
  let phase ← match s.phase with
    | .preflopBet => pure PokerPhase.revealFlop
    | .flopBet => pure .revealTurn
    | .turnBet => pure .revealRiver
    | .riverBet => pure .showdown
    | _ => .error s!"cannot advance from {phaseText s.phase}"
  pure (beginStreet s phase)

def afterBetAction : Except String PokerState :=
  if s.streetBetA = s.streetBetB ∧ s.actedA ∧ s.actedB then advanceStreet s
  else .ok { s with toAct := otherParty s.toAct }

def applyCheck (byParty : Party) : Except String PokerState := do
  let currentMax := if s.streetBetB < s.streetBetA then s.streetBetA else s.streetBetB
  require (streetBet s byParty = currentMax) "cannot check facing a bet"
  afterBetAction (markActed s true byParty)

def applyBetOrRaise (byParty : Party) (amount : Int) :
    Except String PokerState := do
  require (0 < amount) "bet amount must be positive"
  require (streetBet s (otherParty byParty) < streetBet s byParty + amount)
    "bet must raise above opponent"
  require (amount ≤ availableFor s byParty) "bet exceeds the effective stack"
  let next := markActed (markActed (addBet s amount byParty) true byParty) false
    (otherParty byParty)
  pure { next with toAct := otherParty byParty }

def applyCall (byParty : Party) : Except String PokerState := do
  let diff := streetBet s (otherParty byParty) - streetBet s byParty
  require (0 < diff) "nothing to call"
  require (diff ≤ availableFor s byParty) "call exceeds the effective stack"
  afterBetAction (markActed (addBet s diff byParty) true byParty)

def contestedAmount : Int :=
  if s.totalBetA < s.totalBetB then s.totalBetA else s.totalBetB

def settle (winner : Party) (amount : Int) : PokerState :=
  match winner with
  | .A =>
    let moved := if amount < s.balanceB then amount else s.balanceB
    { s with balanceA := s.balanceA + moved, balanceB := s.balanceB - moved }
  | .B =>
    let moved := if amount < s.balanceA then amount else s.balanceA
    { s with balanceB := s.balanceB + moved, balanceA := s.balanceA - moved }

/-- The hand ends because `folder` gave it up. -/
def resolveFold (folder : Party) : PokerState :=
  let winner := otherParty folder
  { settle s winner (contestedAmount s) with
    foldedBy := some folder
    winner := some (.seat winner)
    lastResult := some ⟨.seat winner, .fold, none, none, none, none, [], []⟩
    phase := .handOver }

def applyBet (move : PokerMove) (byParty : Party) :
    Except String PokerState := do
  require (s.toAct = byParty) s!"not {byParty.text}'s turn to act"
  match move with
  | .check => applyCheck s byParty
  | .bet amount => applyBetOrRaise s byParty amount
  | .call => applyCall s byParty
  | .fold => pure (resolveFold s byParty)
  | _ => .error "expected betting move"

/-- Which hand wins with the hole cards `holeA` and `holeB`; the stakes move. -/
def resolveShowdown (holeA holeB : List Int) : Except String PokerState := do
  let burned := fun hole : List Int => hole.filter fun card => s.board.contains card
  let live := fun hole : List Int => hole.filter fun card => !s.board.contains card
  let bestA ← bestPokerHand (live holeA ++ s.board)
  let bestB ← bestPokerHand (live holeB ++ s.board)
  let winner :=
    if bestB.score < bestA.score then PokerWinner.seat .A
    else if bestA.score < bestB.score then .seat .B
    else .tie
  let settled := match winner with
    | .seat party => settle s party (contestedAmount s)
    | .tie => s
  pure
    { settled with
      winner := some winner
      lastResult := some ⟨winner, .showdown, some bestA.score, some bestB.score,
        some bestA.cards, some bestB.cards, burned holeA, burned holeB⟩
      phase := .handOver }

/-- A seat that owes nothing takes the pot when the opponent owes a reveal. -/
def claimForfeit (byParty : Party) : Except String PokerState :=
  match expectedRevealSlots s byParty, expectedRevealSlots s (otherParty byParty) with
  | .ok mineOwes, .ok oppOwes => do
    require (mineOwes = []) "forfeit not claimable: you still owe a reveal"
    require (oppOwes ≠ []) "forfeit not claimable: opponent does not owe a reveal"
    pure (resolveFold s (otherParty byParty))
  | _, _ => .error "forfeit only valid during a pending reveal"

def resetHandFields : PokerState :=
  { s with
    commitA := none, commitB := none
    revealsA := emptyRevealSlots, revealsB := emptyRevealSlots
    localSecretsA := none, localSecretsB := none, holeA := none, holeB := none
    board := [], boardSlots := [], boardCounters := []
    totalBetA := 0, totalBetB := 0, streetBetA := 0, streetBetB := 0
    toAct := .A, actedA := false, actedB := false, foldedBy := none
    shownA := false, shownB := false, shownHoleA := none, shownHoleB := none
    winner := none, lastResult := none }

end

section Rules

variable (hash : Hash) (ante : Int)

def applyNextHand (s : PokerState) (move : PokerMove) : Except String PokerState := do
  require (move = .nextHand) "expected next_hand"
  let handNo := s.handNo + 1
  let canContinue := decide (handNo < s.handCap ∧ ante ≤ s.balanceA ∧ ante ≤ s.balanceB)
  pure { resetHandFields s with handNo, phase := if canContinue then .commit else .done }

def applyCommit (s : PokerState) (move : PokerMove) (byParty : Party) :
    Except String PokerState :=
  match move with
  | .commitSlots commitments localSecrets => do
    let commitments ← validateCommitments commitments
    let secrets ← match localSecrets with
      | some secrets => do
        let checked ← validateLocalSecretsForCommit hash commitments secrets
        pure (some checked)
      | none => pure none
    require ((commitArrayFor s byParty).isNone = true) s!"{byParty.text} already committed"
    let next := match byParty with
      | .A =>
        { s with
          commitA := some commitments
          localSecretsA := secrets.orElse fun _ => s.localSecretsA }
      | .B =>
        { s with
          commitB := some commitments
          localSecretsB := secrets.orElse fun _ => s.localSecretsB }
    if next.commitA.isSome ∧ next.commitB.isSome then
      pure { next with phase := .openPrivateHoles }
    else pure next
  | _ => .error "expected commit_slots"

/-- Checks the revealed slots one by one and writes them into the array. -/
def openSlots (byParty : Party) (commits : List Bytes) :
    List (Int × SlotReveal) → List (Option SlotReveal) →
    Except String (List (Option SlotReveal))
  | [], target => .ok target
  | (slot, reveal) :: rest, target => do
    require (0 ≤ slot ∧ slot < slotCount) s!"invalid slot {slot}"
    require ((slotAt target slot).isNone = true)
      s!"{byParty.text} already revealed slot {slot}"
    match commits[slot.toNat]? with
    | none => .error "Cannot read properties of undefined (reading 'length')"
    | some commit => do
      require (verifyCommitment hash commit reveal.value reveal.salt = true)
        "slot reveal does not match commitment"
      openSlots byParty commits rest (target.set slot.toNat (some reveal))

section

variable (s : PokerState)

def postAntesAndBeginStreet : Except String PokerState := do
  require (ante ≤ s.balanceA ∧ ante ≤ s.balanceB) "insufficient balance for ante"
  pure (beginStreet { s with totalBetA := ante, totalBetB := ante } .preflopBet)

/-- Turns one board slot over, unless it is already there. -/
def turnOver (slot : Int) : Except String PokerState :=
  if s.boardSlots.contains slot then .ok s
  else do
    let (card, counter) ← deriveUniqueBoardCard hash s slot s.board 10000 0
    pure
      { s with
        board := s.board ++ [card], boardSlots := s.boardSlots ++ [slot]
        boardCounters := s.boardCounters ++ [counter] }

/-- Once both seats have revealed the slots, the board grows and betting goes on, or is
skipped after an all-in. -/
def tryRevealBoardThenBet (slots : List Int) (nextPhase skipTo : PokerPhase) :
    Except String PokerState :=
  if hasRevealed s .A slots && hasRevealed s .B slots then do
    let next ← slots.foldlM (turnOver hash) s
    if bettingClosed next then pure { next with phase := skipTo }
    else pure (beginStreet next nextPhase)
  else .ok s

/-- What follows once a seat's slots are written. -/
def afterReveal : Except String PokerState :=
  match s.phase with
  | .openPrivateHoles =>
    if hasRevealed s .A bHoleSlots && hasRevealed s .B aHoleSlots then do
      let holeA ← tryDeriveHoleCards hash s .A
      let holeB ← tryDeriveHoleCards hash s .B
      postAntesAndBeginStreet ante { s with holeA, holeB }
    else .ok s
  | .revealFlop => tryRevealBoardThenBet hash s flopSlots .flopBet .revealTurn
  | .revealTurn => tryRevealBoardThenBet hash s turnSlots .turnBet .revealRiver
  | .revealRiver => tryRevealBoardThenBet hash s riverSlots .riverBet .showdown
  | .showdown =>
    if hasRevealed s .A aHoleSlots && hasRevealed s .B bHoleSlots then do
      let holeA ← derivePublicHoleCards hash s .A
      let holeB ← derivePublicHoleCards hash s .B
      resolveShowdown
        { s with
          shownA := true, shownB := true, shownHoleA := some holeA
          shownHoleB := some holeB } holeA holeB
    else .ok s
  | .commit | .preflopBet | .flopBet | .turnBet | .riverBet | .handOver | .done => .ok s

def applyRevealSlots (move : PokerMove) (byParty : Party) :
    Except String PokerState :=
  match move with
  | .revealSlots slots reveals => do
    let expected ← expectedRevealSlots s byParty
    require (sameNumberSet slots expected = true)
      s!"expected {byParty.text} to reveal slots {joined expected}, got {joined slots}"
    require (reveals.length = slots.length) "slots/reveals length mismatch"
    match commitArrayFor s byParty with
    | none => .error s!"{byParty.text} has not committed"
    | some commits => do
      let target ← openSlots hash byParty commits (slots.zip reveals)
        (revealArrayFor s byParty)
      afterReveal hash ante <| match byParty with
        | .A => { s with revealsA := target }
        | .B => { s with revealsB := target }
  | _ => .error "expected reveal_slots"

def applyMove (move : PokerMove) (byParty : Party) :
    Except String PokerState :=
  if move = .forfeit then claimForfeit s byParty
  else
    match s.phase with
    | .commit => applyCommit hash s move byParty
    | .openPrivateHoles | .revealFlop | .revealTurn | .revealRiver | .showdown =>
      applyRevealSlots hash ante s move byParty
    | .preflopBet | .flopBet | .turnBet | .riverBet => applyBet s move byParty
    | .handOver => applyNextHand ante s move
    | .done => .error s!"no moves legal in phase {phaseText s.phase}"

end

end Rules

def isTerminal (s : PokerState) : Bool := decide (s.phase = .done)

def initialState (handCap ante : Int) (ctx : ProtocolContext) : PokerState where
  phase :=
    if ante ≤ ctx.initialBalances.a ∧ ante ≤ ctx.initialBalances.b then .commit else .done
  handNo := 0
  handCap := handCap
  commitA := none
  commitB := none
  revealsA := emptyRevealSlots
  revealsB := emptyRevealSlots
  localSecretsA := none
  localSecretsB := none
  holeA := none
  holeB := none
  board := []
  boardSlots := []
  boardCounters := []
  totalBetA := 0
  totalBetB := 0
  streetBetA := 0
  streetBetB := 0
  toAct := .A
  actedA := false
  actedB := false
  foldedBy := none
  shownA := false
  shownB := false
  shownHoleA := none
  shownHoleB := none
  winner := none
  lastResult := none
  balanceA := ctx.initialBalances.a
  balanceB := ctx.initialBalances.b
  total := ctx.initialBalances.a + ctx.initialBalances.b

def phaseCode : PokerPhase → UInt8
  | .commit => 0
  | .openPrivateHoles => 1
  | .preflopBet => 2
  | .revealFlop => 3
  | .flopBet => 4
  | .revealTurn => 5
  | .turnBet => 6
  | .revealRiver => 7
  | .riverBet => 8
  | .showdown => 9
  | .handOver => 10
  | .done => 11

def winnerCode : Option PokerWinner → UInt8
  | some (.seat .A) => 1
  | some (.seat .B) => 2
  | some .tie => 3
  | none => 0

def reasonCode : Option PokerReason → UInt8
  | some .fold => 1
  | some .showdown => 2
  | none => 0

def foldedCode : Option Party → UInt8
  | none => 0
  | some .A => 1
  | some .B => 2

def flags (s : PokerState) : Bytes :=
  let flag := fun b : Bool => if b then (1 : UInt8) else 0
  [match s.toAct with | .A => 0 | .B => 1, flag s.actedA, flag s.actedB,
    foldedCode s.foldedBy, flag s.shownA, flag s.shownB, winnerCode s.winner,
    reasonCode (s.lastResult.map PokerHandResult.reason)]

def encodeBytes (bytes : Bytes) : Bytes := lengthPrefixedConcat [bytes]

def encodeByteList (items : Option (List Bytes)) : Bytes :=
  beBytes 8 (items.getD []).length ++ (items.getD []).flatMap encodeBytes

def encodeCards (cards : Option (List Int)) : Bytes := encodeBytes ((cards.getD []).map byteOf)

def encodeNumbers (nums : List Int) : Except String Bytes := u64s ((nums.length : Int) :: nums)

def encodeRevealSlots (slots : List (Option SlotReveal)) : Bytes :=
  beBytes 8 slots.length ++ slots.flatMap fun
    | none => [0]
    | some reveal => 1 :: (encodeBytes reveal.value ++ encodeBytes reveal.salt)

def encodeState (s : PokerState) : Except String Bytes := do
  let numbers ← u64s [s.handNo, s.handCap, s.balanceA, s.balanceB, s.totalBetA, s.totalBetB,
    s.streetBetA, s.streetBetB]
  let boardSlots ← encodeNumbers s.boardSlots
  let boardCounters ← encodeNumbers s.boardCounters
  let scores ← u64s [(s.lastResult.bind PokerHandResult.scoreA).getD 0,
    (s.lastResult.bind PokerHandResult.scoreB).getD 0]
  pure (protocolDomain "quantum_poker.v2" ++ [phaseCode s.phase] ++ numbers ++ flags s ++
    encodeByteList s.commitA ++ encodeByteList s.commitB ++
    encodeRevealSlots s.revealsA ++ encodeRevealSlots s.revealsB ++
    encodeCards (some s.board) ++ boardSlots ++ boardCounters ++
    encodeCards (if s.shownA then s.shownHoleA else none) ++
    encodeCards (if s.shownB then s.shownHoleB else none) ++ scores ++
    encodeCards (s.lastResult.bind PokerHandResult.bestA) ++
    encodeCards (s.lastResult.bind PokerHandResult.bestB) ++
    encodeCards (s.lastResult.map PokerHandResult.burnedA) ++
    encodeCards (s.lastResult.map PokerHandResult.burnedB))

def protocol (hash : Hash) (handCap ante : Int) : Protocol PokerState PokerMove where
  name := "quantum_poker.v2"
  movesCarrySecrets := true
  initialState := initialState handCap ante
  applyMove := applyMove hash ante
  encodeState := encodeState
  balances s := ⟨s.balanceA, s.balanceB⟩
  isTerminal := isTerminal

/-- Nobody owes a reveal once the match is done, so not even a forfeit can be claimed. -/
theorem frozen_of_terminal {hash : Hash} {handCap ante : Int} {s : PokerState}
    (h : (protocol hash handCap ante).isTerminal s = true) :
    (protocol hash handCap ante).Frozen s := by
  rintro move party ⟨next, hnext⟩
  have hdone : s.phase = .done := of_decide_eq_true h
  simp only [protocol, applyMove, hdone] at hnext
  split at hnext
  · simp only [claimForfeit, expectedRevealSlots, hdone] at hnext
    cases hnext
  · cases hnext

end QuantumPoker

end DopamintArena.Games
