import DopamintArena.Move.Tunnel.State

/-!
The functions of `tunnel.move`, guard by guard in source order. The clock
argument is `clock.timestamp_ms()` and `sender` is `ctx.sender()`. The entry
wrappers and `create_and_share` only forward to the functions below and are
not repeated.
-/

namespace DopamintArena.Move

open Foundation

def add (x y : UInt64) : Except Abort UInt64 := checkedAdd .arithmeticError x y

def sub (x y : UInt64) : Except Abort UInt64 := checkedSub .arithmeticError x y

def split (balance amount : UInt64) : Except Abort UInt64 :=
  checkedSub .notEnough balance amount

/-- The arguments of the constructors, apart from the clock and the fresh id. -/
structure CreateParams where
  partyAAddress : Address
  partyAPk : Bytes
  partyASigType : UInt8
  partyBAddress : Address
  partyBPk : Bytes
  partyBSigType : UInt8
  timeoutMs : UInt64
  penaltyAmount : UInt64

def validateCreateParams (p : CreateParams) : Except Abort Unit := do
  require (p.partyAAddress ≠ p.partyBAddress) .invalidParties
  require (isValidSignatureType p.partyASigType = true) .unsupportedSignatureType
  require (isValidSignatureType p.partyBSigType = true) .unsupportedSignatureType
  require (isValidPublicKeyLength p.partyASigType p.partyAPk = true) .invalidPublicKey
  require (isValidPublicKeyLength p.partyBSigType p.partyBPk = true) .invalidPublicKey

/-- The tunnel every constructor starts from. -/
def freshTunnel (id : Address) (p : CreateParams) (now : UInt64) : Tunnel where
  id := id
  version := currentVersion
  partyA := ⟨p.partyAAddress, p.partyAPk, p.partyASigType⟩
  partyB := ⟨p.partyBAddress, p.partyBPk, p.partyBSigType⟩
  balance := 0
  partyADeposit := 0
  partyBDeposit := 0
  status := .created
  state :=
    { stateHash := [], nonce := 0, timestamp := now
      partyABalance := 0, partyBBalance := 0 }
  createdAt := now
  lastActivity := now
  timeoutMs := p.timeoutMs
  penaltyAmount := p.penaltyAmount
  disputeRaiser := none
  lastDisputedNonce := 0
  htlcs := ∅
  counters := ∅
  referee := none

def buildTunnel (id : Address) (p : CreateParams) (now : UInt64) :
    Except Abort Receipt := do
  validateCreateParams p
  require (p.timeoutMs > 0) .invalidTimeout
  require (p.timeoutMs ≤ maxTotalTimeoutMs) .timeoutTooLong
  pure
    { tunnel := freshTunnel id p now
      events := [.tunnelCreated id p.partyAAddress p.partyBAddress now] }

def create (id : Address) (p : CreateParams) (now : UInt64) : Except Abort Receipt :=
  buildTunnel id p now

/-- Activates a funded tunnel. The signed balances start at the deposits, so a
dispute raised before the first update has valid balances. -/
def maybeActivate (t : Tunnel) (now : UInt64) : Tunnel × List Event :=
  if t.status = .created ∧ t.partyADeposit > 0 ∧ t.partyBDeposit > 0 then
    ({ t with
        status := .active
        state := { t.state with
          partyABalance := t.partyADeposit
          partyBBalance := t.partyBDeposit } },
      [.tunnelActivated t.id t.partyADeposit t.partyBDeposit now])
  else
    (t, [])

def creditDeposit (t : Tunnel) (isPartyA : Bool) (amount : UInt64) :
    Except Abort Tunnel :=
  if isPartyA then do
    let deposit ← add t.partyADeposit amount
    pure { t with partyADeposit := deposit }
  else do
    let deposit ← add t.partyBDeposit amount
    pure { t with partyBDeposit := deposit }

def depositInternal (t : Tunnel) (coin : UInt64) (isPartyA : Bool) (now : UInt64) :
    Except Abort Receipt := do
  require (t.version = currentVersion) .invalidVersion
  require (t.status = .created) .tunnelClosed
  require (coin ≥ minDeposit) .minimumDepositNotMet
  let credited ← creditDeposit t isPartyA coin
  let balance ← add t.balance coin
  let funded := { credited with balance := balance, lastActivity := now }
  let party := if isPartyA then t.partyA.address else t.partyB.address
  let activated := maybeActivate funded now
  pure
    { tunnel := activated.1
      events := .tunnelDeposit t.id party coin balance :: activated.2 }

def createAndFundWithId (id : Address) (p : CreateParams)
    (partyACoin partyBCoin now : UInt64) : Except Abort Receipt := do
  let created ← buildTunnel id p now
  let fundedA ← depositInternal created.tunnel partyACoin true now
  let fundedB ← depositInternal fundedA.tunnel partyBCoin false now
  pure
    { tunnel := fundedB.tunnel
      events := created.events ++ fundedA.events ++ fundedB.events }

/-- Whether the sender is party A; aborts for a stranger. -/
def partyOf (t : Tunnel) (sender : Address) : Except Abort Bool :=
  if sender = t.partyA.address then .ok true
  else if sender = t.partyB.address then .ok false
  else .error .notAuthorized

def deposit (t : Tunnel) (coin now : UInt64) (sender : Address) :
    Except Abort Receipt := do
  let isPartyA ← partyOf t sender
  depositInternal t coin isPartyA now

def depositPartyA (t : Tunnel) (coin now : UInt64) (sender : Address) :
    Except Abort Receipt := do
  require (sender = t.partyA.address) .notAuthorized
  depositInternal t coin true now

def depositPartyB (t : Tunnel) (coin now : UInt64) (sender : Address) :
    Except Abort Receipt := do
  require (sender = t.partyB.address) .notAuthorized
  depositInternal t coin false now

def assertBalanceSplit (partyABalance partyBBalance total : UInt64) :
    Except Abort Unit := do
  require (partyABalance ≤ total) .balanceSumMismatch
  let rest ← sub total partyABalance
  require (partyBBalance = rest) .balanceSumMismatch

/-- `assert!(signature::verify(..), error)` under one party's key. -/
def assertSigned (env : Natives) (party : PartyConfig) (message signature : Bytes)
    (error : Abort) : Except Abort Unit := do
  let valid ← verify env party.signatureType party.publicKey message signature
  require (valid = true) error

/-- The arguments of a signed state update, without the signatures. -/
structure UpdateArgs where
  stateHash : Bytes
  nonce : UInt64
  partyABalance : UInt64
  partyBBalance : UInt64
  timestamp : UInt64
deriving DecidableEq

/-- The message both parties sign for `u` on the tunnel with this id. -/
def UpdateArgs.message (u : UpdateArgs) (tunnelId : Address) : Bytes :=
  serializeStateUpdate
    { tunnelId := tunnelId, stateHash := u.stateHash, nonce := u.nonce
      timestamp := u.timestamp, partyABalance := u.partyABalance
      partyBBalance := u.partyBBalance }

/-- The commitment stored when `u` is accepted at chain time `now`. -/
def UpdateArgs.commitment (u : UpdateArgs) (now : UInt64) : StateCommitment :=
  { stateHash := u.stateHash, nonce := u.nonce, timestamp := now
    partyABalance := u.partyABalance, partyBBalance := u.partyBBalance }

def updateState (env : Natives) (t : Tunnel) (u : UpdateArgs) (sigA sigB : Bytes)
    (now : UInt64) : Except Abort Receipt := do
  require (t.version = currentVersion) .invalidVersion
  require (t.status = .active) .invalidState
  require (u.stateHash.length = 32) .invalidHash
  require (u.nonce > t.state.nonce) .invalidNonce
  require (u.nonce < maxU64) .invalidNonce
  assertBalanceSplit u.partyABalance u.partyBBalance t.balance
  require (u.timestamp ≤ now) .invalidParameter
  require (u.timestamp ≥ t.createdAt) .invalidParameter
  assertSigned env t.partyA (u.message t.id) sigA .invalidSignature
  assertSigned env t.partyB (u.message t.id) sigB .invalidSignature
  pure
    { tunnel := { t with state := u.commitment now, lastActivity := now }
      events := [.stateUpdated t.id u.stateHash u.nonce now] }

/-- Marks the tunnel closed and sends each party its share of the balance. -/
def distribute (t : Tunnel) (partyABalance partyBBalance now : UInt64) :
    Except Abort (Tunnel × List Transfer) := do
  let afterA ← split t.balance partyABalance
  let afterB ← split afterA partyBBalance
  pure
    ({ t with status := .closed, lastActivity := now, balance := afterB },
      [⟨partyABalance, t.partyA.address⟩, ⟨partyBBalance, t.partyB.address⟩])

def closeCooperative (env : Natives) (t : Tunnel) (partyABalance partyBBalance : UInt64)
    (sigA sigB : Bytes) (timestamp now : UInt64) : Except Abort Receipt := do
  require (t.version = currentVersion) .invalidVersion
  require (t.status = .active ∨ t.status = .created) .tunnelClosed
  assertBalanceSplit partyABalance partyBBalance t.balance
  require (sigA ≠ [] ∧ sigB ≠ []) .invalidSignature
  let finalNonce ← add t.state.nonce 1
  require (timestamp ≤ now) .invalidParameter
  require (timestamp ≥ t.createdAt) .invalidParameter
  let message := serializeSettlement
    { tunnelId := t.id, partyABalance := partyABalance
      partyBBalance := partyBBalance, finalNonce := finalNonce
      timestamp := timestamp }
  assertSigned env t.partyA message sigA .invalidSignature
  assertSigned env t.partyB message sigB .invalidSignature
  let paid ← distribute t partyABalance partyBBalance now
  pure
    { tunnel := paid.1, transfers := paid.2
      events := [.tunnelClosed t.id partyABalance partyBBalance finalNonce now] }

def closeCooperativeWithRoot (env : Natives) (t : Tunnel)
    (partyABalance partyBBalance : UInt64) (sigA sigB : Bytes) (timestamp : UInt64)
    (transcriptRoot : Bytes) (now : UInt64) : Except Abort Receipt := do
  require (t.version = currentVersion) .invalidVersion
  require (t.status = .active ∨ t.status = .created) .tunnelClosed
  require (transcriptRoot.length = 32) .invalidTranscriptRoot
  assertBalanceSplit partyABalance partyBBalance t.balance
  require (sigA ≠ [] ∧ sigB ≠ []) .invalidSignature
  let finalNonce ← add t.state.nonce 1
  require (timestamp ≤ now) .invalidParameter
  require (timestamp ≥ t.createdAt) .invalidParameter
  let message := serializeSettlementWithRoot
    { tunnelId := t.id, partyABalance := partyABalance
      partyBBalance := partyBBalance, finalNonce := finalNonce
      timestamp := timestamp, transcriptRoot := transcriptRoot }
  assertSigned env t.partyA message sigA .invalidSignature
  assertSigned env t.partyB message sigB .invalidSignature
  let paid ← distribute t partyABalance partyBBalance now
  pure
    { tunnel := paid.1, transfers := paid.2
      events := [.tunnelClosedWithRoot t.id partyABalance partyBBalance finalNonce
        transcriptRoot now] }

def closeCooperativeAndTransfer (env : Natives) (t : Tunnel)
    (partyABalance partyBBalance : UInt64) (sigA sigB : Bytes)
    (timestamp now : UInt64) : Except Abort Receipt :=
  closeCooperative env t partyABalance partyBBalance sigA sigB timestamp now

/-- The configuration of the party that `sender` is not. -/
def otherParty (t : Tunnel) (isPartyA : Bool) : PartyConfig :=
  if isPartyA then t.partyB else t.partyA

def raiseDispute (env : Natives) (t : Tunnel) (u : UpdateArgs) (otherPartySig : Bytes)
    (now : UInt64) (sender : Address) : Except Abort Receipt := do
  require (t.version = currentVersion) .invalidVersion
  require (t.status = .active) .invalidState
  require (u.stateHash.length = 32) .invalidHash
  assertBalanceSplit u.partyABalance u.partyBBalance t.balance
  let isPartyA ← partyOf t sender
  require (u.nonce > t.state.nonce) .staleState
  require (u.nonce < maxU64) .invalidNonce
  require (u.nonce ≥ t.lastDisputedNonce) .staleState
  require (u.timestamp ≤ now) .invalidParameter
  require (u.timestamp ≥ t.createdAt) .invalidParameter
  assertSigned env (otherParty t isPartyA) (u.message t.id) otherPartySig
    .invalidSignature
  let highWater ← add u.nonce 1
  pure
    { tunnel := { t with
        status := .disputed
        disputeRaiser := some sender
        lastDisputedNonce := highWater
        state := u.commitment now
        lastActivity := now }
      events := [.disputeRaised t.id sender u.stateHash u.nonce now] }

def resolveDispute (env : Natives) (t : Tunnel) (u : UpdateArgs) (sigA sigB : Bytes)
    (now : UInt64) : Except Abort Receipt := do
  require (t.version = currentVersion) .invalidVersion
  require (t.status = .disputed) .noActiveDispute
  require (u.stateHash.length = 32) .invalidHash
  require (u.nonce > t.state.nonce) .staleState
  require (u.nonce < maxU64) .invalidNonce
  assertBalanceSplit u.partyABalance u.partyBBalance t.balance
  require (u.timestamp ≤ now) .invalidParameter
  require (u.timestamp ≥ t.createdAt) .invalidParameter
  assertSigned env t.partyA (u.message t.id) sigA .invalidSignature
  assertSigned env t.partyB (u.message t.id) sigB .invalidSignature
  -- `last_disputed_nonce` is deliberately not reset
  pure
    { tunnel := { t with
        status := .active
        disputeRaiser := none
        state := u.commitment now
        lastActivity := now }
      events := [.disputeResolved t.id u.stateHash u.nonce u.partyABalance
        u.partyBBalance now] }

section

variable (t : Tunnel)

def raiseDisputeCurrentState (now : UInt64) (sender : Address) :
    Except Abort Receipt := do
  require (t.version = currentVersion) .invalidVersion
  require (t.status = .active) .invalidState
  require (t.timeoutMs > 0) .notSupported
  require (sender = t.partyA.address ∨ sender = t.partyB.address) .notAuthorized
  require (t.state.nonce ≥ t.lastDisputedNonce) .staleState
  let highWater ← add t.state.nonce 1
  pure
    { tunnel := { t with
        lastDisputedNonce := highWater
        status := .disputed
        disputeRaiser := some sender
        state := { t.state with timestamp := now }
        lastActivity := now }
      events := [.disputeRaised t.id sender t.state.stateHash t.state.nonce now] }

/-- The balances after the raiser takes the capped penalty from the other
party. -/
def applyPenalty (raiser : Address) : Except Abort (UInt64 × UInt64) :=
  let a := t.state.partyABalance
  let b := t.state.partyBBalance
  if t.penaltyAmount > 0 then
    if raiser = t.partyA.address then do
      let actualPenalty := min t.penaltyAmount b
      let b ← sub b actualPenalty
      let a ← add a actualPenalty
      pure (a, b)
    else do
      let actualPenalty := min t.penaltyAmount a
      let a ← sub a actualPenalty
      let b ← add b actualPenalty
      pure (a, b)
  else
    pure (a, b)

def forceCloseAfterTimeout (now : UInt64) (sender : Address) :
    Except Abort Receipt := do
  require (t.version = currentVersion) .invalidVersion
  require (t.status = .disputed) .noActiveDispute
  require (t.timeoutMs > 0) .notSupported
  require (t.disputeRaiser.isSome = true) .notAuthorized
  require (some sender = t.disputeRaiser) .notAuthorized
  let deadline ← add t.state.timestamp t.timeoutMs
  require (now ≥ deadline) .timeoutNotReached
  let shares ← applyPenalty t sender
  assertBalanceSplit shares.1 shares.2 t.balance
  let paid ← distribute t shares.1 shares.2 now
  pure
    { tunnel := paid.1, transfers := paid.2
      events := [.tunnelClosed t.id shares.1 shares.2 t.state.nonce now] }

def agreeToDispute (now : UInt64) (sender : Address) :
    Except Abort Receipt := do
  require (t.version = currentVersion) .invalidVersion
  require (t.status = .disputed) .noActiveDispute
  require (t.disputeRaiser.isSome = true) .notAuthorized
  require (some sender ≠ t.disputeRaiser) .notAuthorized
  require (sender = t.partyA.address ∨ sender = t.partyB.address) .notAuthorized
  assertBalanceSplit t.state.partyABalance t.state.partyBBalance t.balance
  let paid ← distribute t t.state.partyABalance t.state.partyBBalance now
  pure
    { tunnel := paid.1, transfers := paid.2
      events := [.tunnelClosed t.id t.state.partyABalance t.state.partyBBalance
        t.state.nonce now] }

def canExtendTimeout : Bool :=
  t.status = .active

def extendTimeout (additionalMs now : UInt64) (sender : Address) :
    Except Abort Receipt := do
  require (t.version = currentVersion) .invalidVersion
  require (t.status ≠ .disputed) .cannotExtendDuringDispute
  require (canExtendTimeout t = true) .invalidState
  require (additionalMs > 0) .invalidParameter
  require (additionalMs ≤ maxTimeoutExtensionMs) .timeoutExtensionTooLarge
  let room ← sub maxTotalTimeoutMs additionalMs
  require (t.timeoutMs ≤ room) .timeoutTooLong
  require (sender = t.partyA.address ∨ sender = t.partyB.address) .notAuthorized
  let timeoutMs ← add t.timeoutMs additionalMs
  pure
    { tunnel := { t with timeoutMs := timeoutMs, lastActivity := now }
      events := [.tunnelTimeoutExtended t.id sender additionalMs timeoutMs now] }

/-- Bumps or lowers one party's counter, creating it at zero first. -/
def updatePartyHtlcCounter (party : Address) (adding : Bool)
    (amount : UInt64) : Except Abort Tunnel :=
  let counter := (t.counters.lookup party).getD ⟨0, 0⟩
  if adding then do
    let count ← add counter.count 1
    let totalLocked ← add counter.totalLocked amount
    pure { t with counters := t.counters.insert party ⟨count, totalLocked⟩ }
  else do
    let count ← sub counter.count 1
    let totalLocked ← sub counter.totalLocked amount
    pure { t with counters := t.counters.insert party ⟨count, totalLocked⟩ }

def partyHtlcLockedInternal (party : Address) : UInt64 :=
  match t.counters.lookup party with
  | some counter => counter.totalLocked
  | none => 0

def debitState (isPartyA : Bool) (amount : UInt64) : Except Abort Tunnel :=
  if isPartyA then do
    let rest ← sub t.state.partyABalance amount
    pure { t with state := { t.state with partyABalance := rest } }
  else do
    let rest ← sub t.state.partyBBalance amount
    pure { t with state := { t.state with partyBBalance := rest } }

end

/-- The terms of an HTLC besides the locking party. -/
structure LockArgs where
  paymentHash : Bytes
  amount : UInt64
  receiver : Address
  expiryMs : UInt64
deriving DecidableEq

/-- The message the counterparty signs for `l`. -/
def LockArgs.message (l : LockArgs) (tunnelId sender : Address) : Bytes :=
  serializeHtlcLock
    { tunnelId := tunnelId, paymentHash := l.paymentHash, amount := l.amount
      sender := sender, receiver := l.receiver, expiryMs := l.expiryMs }

/-- The HTLC that `l` locks for `sender`. -/
def LockArgs.htlc (l : LockArgs) (sender : Address) : TunnelHTLC :=
  { paymentHash := l.paymentHash, amount := l.amount, sender := sender
    receiver := l.receiver, expiryMs := l.expiryMs, balance := l.amount }

def lockHtlcInternal (t : Tunnel) (l : LockArgs) (sender : Address) (isPartyA : Bool)
    (now : UInt64) : Except Abort Receipt := do
  let senderBalance :=
    if isPartyA then t.state.partyABalance else t.state.partyBBalance
  require (l.amount ≤ senderBalance) .insufficientBalance
  require (l.paymentHash ∉ t.htlcs) .alreadyExists
  let balance ← split t.balance l.amount
  let added := { t with
    balance := balance
    htlcs := t.htlcs.insert l.paymentHash (l.htlc sender) }
  let counted ← updatePartyHtlcCounter added sender true l.amount
  let debited ← debitState counted isPartyA l.amount
  pure
    { tunnel := { debited with lastActivity := now }
      events := [.htlcLocked t.id l.paymentHash l.amount sender l.receiver
        l.expiryMs] }

def lockHtlc (env : Natives) (t : Tunnel) (l : LockArgs) (counterpartySig : Bytes)
    (now : UInt64) (sender : Address) : Except Abort Receipt := do
  require (t.version = currentVersion) .invalidVersion
  require (t.status = .active) .invalidState
  require (l.amount > 0) .invalidParameter
  require (l.paymentHash.length = 32) .invalidHash
  require (l.expiryMs > now) .invalidTimeout
  let isPartyA ← partyOf t sender
  assertSigned env (otherParty t isPartyA) (l.message t.id sender) counterpartySig
    .invalidSignature
  lockHtlcInternal t l sender isPartyA now

/-- `df::remove` after `df::exists`. -/
def takeHtlc (t : Tunnel) (paymentHash : Bytes) : Except Abort TunnelHTLC :=
  match t.htlcs.lookup paymentHash with
  | some htlc => .ok htlc
  | none => .error .notFound

def claimHtlcInTunnel (env : Natives) (t : Tunnel) (paymentHash preimage : Bytes)
    (now : UInt64) (sender : Address) : Except Abort Receipt := do
  require (t.version = currentVersion) .invalidVersion
  require (t.status ≠ .destroyed) .invalidState
  let htlc ← takeHtlc t paymentHash
  require (sender = htlc.receiver) .notAuthorized
  require ((env.blake2b256 preimage).bytes = htlc.paymentHash) .invalidPreimage
  require (now < htlc.expiryMs) .htlcExpired
  let removed := { t with htlcs := t.htlcs.erase paymentHash }
  let counted ← updatePartyHtlcCounter removed htlc.sender false htlc.amount
  pure
    { tunnel := { counted with lastActivity := now }
      transfers := [⟨htlc.balance, htlc.receiver⟩]
      events := [.htlcClaimedInTunnel t.id paymentHash htlc.amount htlc.receiver] }

def expireHtlcInTunnel (t : Tunnel) (paymentHash : Bytes) (now : UInt64)
    (sender : Address) : Except Abort Receipt := do
  require (t.version = currentVersion) .invalidVersion
  require (t.status ≠ .destroyed) .invalidState
  let htlc ← takeHtlc t paymentHash
  require (now ≥ htlc.expiryMs) .htlcNotExpired
  require (sender = htlc.sender) .notAuthorized
  let removed := { t with htlcs := t.htlcs.erase paymentHash }
  let counted ← updatePartyHtlcCounter removed htlc.sender false htlc.amount
  pure
    { tunnel := { counted with lastActivity := now }
      transfers := [⟨htlc.balance, htlc.sender⟩]
      events := [.htlcExpiredInTunnel t.id paymentHash htlc.amount htlc.sender] }

def writeReferee (t : Tunnel) (referee : Address) : Receipt :=
  { tunnel := { t with referee := some referee }
    events := [.refereeAssigned t.id referee] }

def setRefereeCosigned (env : Natives) (t : Tunnel) (referee : Address)
    (sigA sigB : Bytes) : Except Abort Receipt := do
  require (t.version = currentVersion) .invalidVersion
  require (t.status = .created) .invalidState
  require (t.partyADeposit = 0 ∧ t.partyBDeposit = 0) .invalidState
  require (sigA ≠ [] ∧ sigB ≠ []) .invalidSignature
  let message := serializeRefereeAssignment t.id referee
  assertSigned env t.partyA message sigA .invalidPartyASignature
  assertSigned env t.partyB message sigB .invalidPartyBSignature
  pure (writeReferee t referee)

section

variable (t : Tunnel)

/-- Package-internal: one party assigns the referee alone. -/
def setReferee (referee sender : Address) : Except Abort Receipt := do
  require (t.version = currentVersion) .invalidVersion
  require (t.status = .created) .invalidState
  require (t.partyADeposit = 0 ∧ t.partyBDeposit = 0) .invalidState
  require (sender = t.partyA.address ∨ sender = t.partyB.address) .notAuthorized
  pure (writeReferee t referee)

def resolveDisputeExternal (partyABalance partyBBalance now : UInt64)
    (sender : Address) : Except Abort Receipt := do
  require (t.version = currentVersion) .invalidVersion
  require (t.status = .disputed) .noActiveDispute
  require (t.referee.isSome = true) .notSupported
  require (some sender = t.referee) .refereeNotAuthorized
  assertBalanceSplit partyABalance partyBBalance t.balance
  let paid ← distribute t partyABalance partyBBalance now
  pure
    { tunnel := paid.1, transfers := paid.2
      events := [.disputeResolvedByReferee t.id sender partyABalance partyBBalance
        now] }

/-- Package-internal: settlement by a verifier module of the package. -/
def resolveDisputeVerified (partyABalance partyBBalance now : UInt64) :
    Except Abort Receipt := do
  require (t.version = currentVersion) .invalidVersion
  require (t.status = .disputed) .noActiveDispute
  require (t.timeoutMs > 0) .notSupported
  let deadline ← add t.state.timestamp t.timeoutMs
  require (now ≥ deadline) .timeoutNotReached
  assertBalanceSplit partyABalance partyBBalance t.balance
  let paid ← distribute t partyABalance partyBBalance now
  pure
    { tunnel := paid.1, transfers := paid.2
      events := [.disputeResolvedByVerifiedProof t.id partyABalance partyBBalance
        now] }

def depositOf (isPartyA : Bool) : UInt64 :=
  if isPartyA then t.partyADeposit else t.partyBDeposit

/-- Zeroes the deposit, splits it off the balance and closes an empty tunnel.
Both withdrawals end this way. -/
def withdrawDeposit (isPartyA : Bool) (now : UInt64) (sender : Address) :
    Except Abort Receipt := do
  let amount := depositOf t isPartyA
  let cleared :=
    if isPartyA then { t with partyADeposit := 0 } else { t with partyBDeposit := 0 }
  let balance ← split t.balance amount
  pure
    { tunnel := { cleared with
        balance := balance
        lastActivity := now
        status := if balance = 0 then .closed else cleared.status }
      returned := some amount
      events := [.tunnelWithdrawal t.id sender amount now] }

def withdrawBeforeActive (now : UInt64) (sender : Address) :
    Except Abort Receipt := do
  require (t.version = currentVersion) .invalidVersion
  require (t.status = .created) .invalidState
  let isPartyA ← partyOf t sender
  require (depositOf t isPartyA > 0) .insufficientBalance
  require (depositOf t (!isPartyA) = 0) .invalidState
  withdrawDeposit t isPartyA now sender

def withdrawTimeout (now : UInt64) (sender : Address) :
    Except Abort Receipt := do
  require (t.version = currentVersion) .invalidVersion
  require (t.status = .created) .invalidState
  require (t.timeoutMs > 0) .notSupported
  let deadline ← add t.createdAt t.timeoutMs
  require (now ≥ deadline) .timeoutNotReached
  let isPartyA ← partyOf t sender
  require (depositOf t isPartyA > 0) .insufficientBalance
  withdrawDeposit t isPartyA now sender

def destroyTunnel (now : UInt64) (sender : Address) :
    Except Abort Receipt := do
  require (t.version = currentVersion) .invalidVersion
  require (t.status = .closed) .invalidState
  require (t.balance = 0) .insufficientBalance
  require (partyHtlcLockedInternal t t.partyA.address = 0 ∧
    partyHtlcLockedInternal t t.partyB.address = 0) .outstandingHtlc
  require (sender = t.partyA.address ∨ sender = t.partyB.address) .notAuthorized
  pure
    { tunnel := { t with status := .destroyed }
      events := [.tunnelDestroyed t.id sender now] }

def migrate (sender : Address) : Except Abort Receipt := do
  require (sender = t.partyA.address ∨ sender = t.partyB.address) .notAuthorized
  require (t.version < currentVersion) .notAnUpgrade
  pure { tunnel := { t with version := currentVersion } }

end

end DopamintArena.Move
