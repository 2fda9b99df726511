import DopamintArena.Engine.Protocol

/-!
`core/distributedTunnel.ts` and the frames of `core/distributedFrame.ts`: one
party's process, which co-signs moves with a remote counterparty.

A call returns a `Turn`: the seat afterwards, the frames it sent, what it signed
and which hooks fired. Or it throws, and the seat is taken to be as before. One
call can throw later than that: `propose` encodes the MOVE after the proposal is
seated, and a move that cannot be encoded leaves it seated. Here moves are taken
to be encodable; `Process` follows the assignments one by one and says what
happens to others.

Frames are taken at their declared TypeScript types; the JSON envelope is left
out, and so is `displayState`, which nothing but the user interface reads. A move
codec is the composition of one side's `encode` with the other's `decode`.
-/

namespace DopamintArena.Engine

open Foundation

/-- The hash and the ed25519 verifier of `core/crypto.ts`. -/
structure Crypto where
  blake2b256 : Bytes → Bytes32
  ed25519Verify : (signature message publicKey : Bytes) → Bool

structure PartyEndpoint where
  publicKey : Bytes
  scheme : Nat
  sign : Option (Bytes → Bytes)
  verify : (message signature : Bytes) → Bool

/-- `SignatureScheme.ED25519`. -/
def schemeEd25519 : Nat := 0

structure DistributedConfig (Move : Type) where
  tunnelId : String
  self : PartyEndpoint
  opponent : PartyEndpoint
  selfParty : Party
  moveCodec : Option (Move → Move)

/-- A MOVE at its declared type. `decodeFrame` takes `by` as it finds it: that it is one of the two
parties is not checked, and a frame in which it is not is left out here. -/
structure MoveFrame (Move : Type) where
  nonce : Int
  byParty : Party
  move : Move
  timestamp : Int
  stateHash : Bytes
  partyABalance : Int
  partyBBalance : Int
  sigProposer : Bytes
deriving DecidableEq

structure AckFrame where
  nonce : Int
  sigResponder : Bytes
deriving DecidableEq

inductive Frame (Move : Type)
  | move (frame : MoveFrame Move)
  | ack (frame : AckFrame)
deriving DecidableEq

structure PendingProposal (State Move : Type) where
  next : State
  update : StateUpdate
  msg : Bytes
  sigSelf : Bytes
  move : Move
  timestamp : Int

/-- The fields a `DistributedTunnel` never changes. -/
structure Config (State Move : Type) where
  crypto : Crypto
  protocol : Protocol State Move
  tunnelId : String
  self : PartyEndpoint
  /-- The signer of `self`, which the constructor checked to be there. -/
  sign : Bytes → Bytes
  opponent : PartyEndpoint
  selfParty : Party
  total : Int
  codec : Move → Move

/-- The fields a `DistributedTunnel` does change. -/
structure Seat (State Move : Type) where
  state : State
  nonce : Int
  latest : Option CoSignedUpdate
  pending : Option (PendingProposal State Move)

/-- Something the seat put its signature under. -/
inductive Signed
  | update (u : StateUpdate)
  | settlement (s : Settlement)
  | settlementWithRoot (s : SettlementWithRoot)
deriving DecidableEq

/-- What a call that did not throw leaves behind. -/
structure Turn (State Move : Type) where
  seat : Seat State Move
  sent : List (Frame Move) := []
  signed : List Signed := []
  confirmed : Option CoSignedUpdate := none
  proposed : Bool := false

variable {State Move : Type}

def create (crypto : Crypto) (protocol : Protocol State Move) (cfg : DistributedConfig Move)
    (initialBalances : Balances) : Except String (Config State Move × Seat State Move) :=
  match cfg.self.sign with
  | none => .error "DistributedTunnel: self endpoint must carry a signer"
  | some sign => do
    require (¬(protocol.movesCarrySecrets = true ∧ cfg.moveCodec.isNone = true))
      s!"DistributedTunnel: protocol '{protocol.name}' has secret-bearing moves and requires an explicit moveCodec"
    let total := initialBalances.a + initialBalances.b
    let state := protocol.initialState ⟨cfg.tunnelId, initialBalances⟩
    let balances := protocol.balances state
    require (balances.a + balances.b = total)
      s!"protocol initial balances {balances.a + balances.b} != locked total {total}"
    pure
      ({ crypto := crypto, protocol := protocol, tunnelId := cfg.tunnelId, self := cfg.self
         sign := sign, opponent := cfg.opponent, selfParty := cfg.selfParty, total := total
         codec := cfg.moveCodec.getD id },
       { state := state, nonce := 0, latest := none, pending := none })

variable (cfg : Config State Move) (s : Seat State Move)

def coSign (update : StateUpdate) (sigSelf sigOther : Bytes) : CoSignedUpdate :=
  match cfg.selfParty with
  | .A => ⟨update, sigSelf, sigOther⟩
  | .B => ⟨update, sigOther, sigSelf⟩

@[simp] theorem coSign_update (update : StateUpdate) (sigSelf sigOther : Bytes) :
    (coSign cfg update sigSelf sigOther).update = update := by
  unfold coSign
  split <;> rfl

def partyA : PartyEndpoint :=
  match cfg.selfParty with
  | .A => cfg.self
  | .B => cfg.opponent

def partyB : PartyEndpoint :=
  match cfg.selfParty with
  | .A => cfg.opponent
  | .B => cfg.self

def seatPending (move : Move) (timestamp : Int) : Except String (Turn State Move) := do
  require (s.pending.isNone = true) "a proposal is already awaiting ACK"
  let next ← cfg.protocol.applyMove s.state move cfg.selfParty
  let balances := cfg.protocol.balances next
  require (balances.a + balances.b = cfg.total)
    s!"balance sum {balances.a + balances.b} != locked total {cfg.total}"
  let encoded ← cfg.protocol.encodeState next
  let update : StateUpdate :=
    { tunnelId := cfg.tunnelId, stateHash := (cfg.crypto.blake2b256 encoded).bytes
      nonce := s.nonce + 1, timestamp := timestamp
      partyABalance := balances.a, partyBBalance := balances.b }
  let msg ← serializeStateUpdate update
  let sigSelf := cfg.sign msg
  pure
    { seat := { s with pending := some ⟨next, update, msg, sigSelf, move, timestamp⟩ }
      signed := [.update update] }

def pendingMoveFrame (p : PendingProposal State Move) : Frame Move :=
  .move
    { nonce := p.update.nonce, byParty := cfg.selfParty, move := cfg.codec p.move
      timestamp := p.timestamp, stateHash := p.update.stateHash
      partyABalance := p.update.partyABalance, partyBBalance := p.update.partyBBalance
      sigProposer := p.sigSelf }

def resendPending : Turn State Move :=
  { seat := s, sent := (s.pending.map (pendingMoveFrame cfg)).toList }

def propose (move : Move) (timestamp : Int) : Except String (Turn State Move) := do
  let seated ← seatPending cfg s move timestamp
  pure { seated with sent := (resendPending cfg seated.seat).sent, proposed := true }

/-- Drops a proposal that a confirmed `nonce` has overtaken. -/
def dropOvertaken (pending : Option (PendingProposal State Move)) (nonce : Int) :
    Option (PendingProposal State Move) :=
  pending.filter fun p => nonce < p.update.nonce

def onMove (frame : MoveFrame Move) : Except String (Turn State Move) := do
  require (frame.byParty ≠ cfg.selfParty) "received a MOVE attributed to self"
  if frame.nonce ≤ s.nonce then
    -- a replay: acknowledge again what is already confirmed, ignore anything older
    match s.latest with
    | none => pure { seat := s }
    | some latest =>
      if frame.nonce = s.nonce ∧ latest.update.nonce = frame.nonce then do
        let msg ← serializeStateUpdate latest.update
        pure
          { seat := s, sent := [.ack ⟨frame.nonce, cfg.sign msg⟩]
            signed := [.update latest.update] }
      else pure { seat := s }
  else do
    require (frame.nonce = s.nonce + 1)
      s!"nonce gap: got {frame.nonce}, expected {s.nonce + 1}"
    let next ← cfg.protocol.applyMove s.state frame.move frame.byParty
    let balances := cfg.protocol.balances next
    require (balances.a + balances.b = cfg.total)
      s!"balance sum {balances.a + balances.b} != locked total {cfg.total}"
    require (balances.a = frame.partyABalance ∧ balances.b = frame.partyBBalance)
      "frame balances != re-derived balances"
    let encoded ← cfg.protocol.encodeState next
    require ((cfg.crypto.blake2b256 encoded).bytes = frame.stateHash)
      "frame stateHash != re-derived stateHash"
    let update : StateUpdate :=
      { tunnelId := cfg.tunnelId, stateHash := (cfg.crypto.blake2b256 encoded).bytes
        nonce := frame.nonce, timestamp := frame.timestamp
        partyABalance := balances.a, partyBBalance := balances.b }
    let msg ← serializeStateUpdate update
    require (cfg.opponent.verify msg frame.sigProposer = true)
      "proposer signature failed verification"
    let sigResponder := cfg.sign msg
    let latest := coSign cfg update sigResponder frame.sigProposer
    pure
      { seat :=
          { state := next, nonce := frame.nonce, latest := some latest
            pending := dropOvertaken s.pending frame.nonce }
        sent := [.ack ⟨frame.nonce, sigResponder⟩]
        signed := [.update update]
        confirmed := some latest }

def onAck (frame : AckFrame) : Except String (Turn State Move) :=
  if frame.nonce ≤ s.nonce then .ok { seat := s }
  else
    match s.pending with
    | none => .error s!"unexpected ACK for nonce {frame.nonce}"
    | some p => do
      require (frame.nonce = p.update.nonce) s!"unexpected ACK for nonce {frame.nonce}"
      require (cfg.opponent.verify p.msg frame.sigResponder = true)
        "responder signature failed verification"
      let latest := coSign cfg p.update p.sigSelf frame.sigResponder
      pure
        { seat :=
            { state := p.next, nonce := p.update.nonce, latest := some latest
              pending := none }
          confirmed := some latest }

def onFrame : Frame Move → Except String (Turn State Move)
  | .move frame => onMove cfg s frame
  | .ack frame => onAck cfg s frame

def verifyCoSignedUpdate (crypto : Crypto) (u : CoSignedUpdate) (a b : PartyEndpoint) :
    Except String Bool := do
  require (a.scheme = schemeEd25519 ∧ b.scheme = schemeEd25519)
    "verifyCoSignedUpdate currently supports ed25519 only"
  let msg ← serializeStateUpdate u.update
  pure (crypto.ed25519Verify u.sigA msg a.publicKey &&
    crypto.ed25519Verify u.sigB msg b.publicKey)

def adoptCheckpoint (state : State) (coSigned : CoSignedUpdate) :
    Except String (Turn State Move) := do
  let u := coSigned.update
  require (u.tunnelId = cfg.tunnelId) "adoptCheckpoint: tunnelId mismatch"
  if u.nonce < s.nonce then
    pure { seat := s }
  else do
    require (u.partyABalance + u.partyBBalance = cfg.total)
      "adoptCheckpoint: balance sum != locked total"
    let encoded ← cfg.protocol.encodeState state
    require ((cfg.crypto.blake2b256 encoded).bytes = u.stateHash)
      "adoptCheckpoint: state hash mismatch"
    let verified ← verifyCoSignedUpdate cfg.crypto coSigned (partyA cfg) (partyB cfg)
    require (verified = true) "adoptCheckpoint: co-signature verification failed"
    pure
      { seat :=
          { state := state, nonce := u.nonce, latest := some coSigned
            pending := dropOvertaken s.pending u.nonce } }

def settlementFor (timestamp onchainNonce : Int) : Settlement :=
  { tunnelId := cfg.tunnelId, partyABalance := (cfg.protocol.balances s.state).a
    partyBBalance := (cfg.protocol.balances s.state).b, finalNonce := onchainNonce + 1
    timestamp := timestamp }

def settlementWithRootFor (timestamp : Int) (transcriptRoot : Bytes) (onchainNonce : Int) :
    SettlementWithRoot :=
  { tunnelId := cfg.tunnelId, partyABalance := (cfg.protocol.balances s.state).a
    partyBBalance := (cfg.protocol.balances s.state).b, finalNonce := onchainNonce + 1
    timestamp := timestamp, transcriptRoot := transcriptRoot }

def buildSettlementHalf (timestamp onchainNonce : Int) : Except String (Turn State Move) := do
  let settlement := settlementFor cfg s timestamp onchainNonce
  let _msg ← serializeSettlement settlement
  pure { seat := s, signed := [.settlement settlement] }

def buildSettlementHalfWithRoot (timestamp : Int) (transcriptRoot : Bytes)
    (onchainNonce : Int) : Except String (Turn State Move) := do
  require (transcriptRoot.length = 32) "transcriptRoot must be 32 bytes"
  let settlement := settlementWithRootFor cfg s timestamp transcriptRoot onchainNonce
  let _msg ← serializeSettlementWithRoot settlement
  pure { seat := s, signed := [.settlementWithRoot settlement] }

/-- A call of a public method, or a frame from the transport. -/
inductive Input (State Move : Type)
  | propose (move : Move) (timestamp : Int)
  | seatPending (move : Move) (timestamp : Int)
  | resendPending
  | frame (frame : Frame Move)
  | adoptCheckpoint (state : State) (coSigned : CoSignedUpdate)
  | buildSettlementHalf (timestamp onchainNonce : Int)
  | buildSettlementHalfWithRoot (timestamp : Int) (transcriptRoot : Bytes)
      (onchainNonce : Int)

def act : Input State Move → Except String (Turn State Move)
  | .propose move timestamp => propose cfg s move timestamp
  | .seatPending move timestamp => seatPending cfg s move timestamp
  | .resendPending => .ok (resendPending cfg s)
  | .frame frame => onFrame cfg s frame
  | .adoptCheckpoint state coSigned => adoptCheckpoint cfg s state coSigned
  | .buildSettlementHalf timestamp onchainNonce =>
    buildSettlementHalf cfg s timestamp onchainNonce
  | .buildSettlementHalfWithRoot timestamp transcriptRoot onchainNonce =>
    buildSettlementHalfWithRoot cfg s timestamp transcriptRoot onchainNonce

end DopamintArena.Engine
