import DopamintArena.Foundation.Keyed
import DopamintArena.Foundation.Machine
import DopamintArena.Move.Signature

/-!
The data of `tunnel.move`: the tunnel object with its dynamic fields, the
signed messages with their byte layouts, and the events.

The three kinds of dynamic field hang off one object id under keys of
different types, so they never collide; they are kept here as two stores and
one optional value. A `Balance` is its 64-bit value.
-/

namespace DopamintArena.Move

open Foundation

def currentVersion : UInt64 := 1
def minDeposit : UInt64 := 1
def maxTimeoutExtensionMs : UInt64 := 604800000
def maxTotalTimeoutMs : UInt64 := 2592000000

def maxU64 : UInt64 := 18446744073709551615

inductive Status
  | created
  | active
  | closed
  | disputed
  | destroyed
deriving DecidableEq

structure PartyConfig where
  address : Address
  publicKey : Bytes
  signatureType : UInt8
deriving DecidableEq

structure StateCommitment where
  stateHash : Bytes
  nonce : UInt64
  timestamp : UInt64
  partyABalance : UInt64
  partyBBalance : UInt64
deriving DecidableEq

structure HTLCPartyCounter where
  count : UInt64
  totalLocked : UInt64
deriving DecidableEq

structure TunnelHTLC where
  paymentHash : Bytes
  amount : UInt64
  sender : Address
  receiver : Address
  expiryMs : UInt64
  balance : UInt64
deriving DecidableEq

/-- The shared tunnel object. -/
structure Tunnel where
  id : Address
  version : UInt64
  partyA : PartyConfig
  partyB : PartyConfig
  balance : UInt64
  partyADeposit : UInt64
  partyBDeposit : UInt64
  status : Status
  state : StateCommitment
  createdAt : UInt64
  lastActivity : UInt64
  timeoutMs : UInt64
  penaltyAmount : UInt64
  disputeRaiser : Option Address
  lastDisputedNonce : UInt64
  htlcs : Store Bytes TunnelHTLC
  counters : Store Address HTLCPartyCounter
  referee : Option Address

structure StateUpdateData where
  tunnelId : Address
  stateHash : Bytes
  nonce : UInt64
  timestamp : UInt64
  partyABalance : UInt64
  partyBBalance : UInt64
deriving DecidableEq

structure SettlementData where
  tunnelId : Address
  partyABalance : UInt64
  partyBBalance : UInt64
  finalNonce : UInt64
  timestamp : UInt64
deriving DecidableEq

structure SettlementWithRootData where
  tunnelId : Address
  partyABalance : UInt64
  partyBBalance : UInt64
  finalNonce : UInt64
  timestamp : UInt64
  transcriptRoot : Bytes
deriving DecidableEq

structure HTLCLockData where
  tunnelId : Address
  paymentHash : Bytes
  amount : UInt64
  sender : Address
  receiver : Address
  expiryMs : UInt64
deriving DecidableEq

def serializeStateUpdate (data : StateUpdateData) : Bytes :=
  bytesOf "sui_tunnel::state_update" ++ data.tunnelId.bytes ++ data.stateHash ++
    u64ToBeBytes data.nonce ++ u64ToBeBytes data.timestamp ++
    u64ToBeBytes data.partyABalance ++ u64ToBeBytes data.partyBBalance

def serializeSettlement (data : SettlementData) : Bytes :=
  bytesOf "sui_tunnel::settlement" ++ data.tunnelId.bytes ++
    u64ToBeBytes data.partyABalance ++ u64ToBeBytes data.partyBBalance ++
    u64ToBeBytes data.finalNonce ++ u64ToBeBytes data.timestamp

def serializeSettlementWithRoot (data : SettlementWithRootData) : Bytes :=
  bytesOf "sui_tunnel::settlement_v2" ++ data.tunnelId.bytes ++
    u64ToBeBytes data.partyABalance ++ u64ToBeBytes data.partyBBalance ++
    u64ToBeBytes data.finalNonce ++ u64ToBeBytes data.timestamp ++
    data.transcriptRoot

def serializeHtlcLock (data : HTLCLockData) : Bytes :=
  bytesOf "sui_tunnel::htlc_lock" ++ data.tunnelId.bytes ++ data.paymentHash ++
    u64ToBeBytes data.amount ++ data.sender.bytes ++ data.receiver.bytes ++
    u64ToBeBytes data.expiryMs

def serializeRefereeAssignment (tunnelId referee : Address) : Bytes :=
  bytesOf "sui_tunnel::referee_assignment" ++ tunnelId.bytes ++ referee.bytes

inductive Event
  | tunnelCreated (tunnelId partyA partyB : Address) (createdAt : UInt64)
  | tunnelDeposit (tunnelId party : Address) (amount totalBalance : UInt64)
  | tunnelActivated (tunnelId : Address) (partyADeposit partyBDeposit activatedAt : UInt64)
  | stateUpdated (tunnelId : Address) (stateHash : Bytes) (nonce timestamp : UInt64)
  | tunnelClosed (tunnelId : Address)
      (partyABalance partyBBalance finalNonce closedAt : UInt64)
  | tunnelClosedWithRoot (tunnelId : Address)
      (partyABalance partyBBalance finalNonce : UInt64) (transcriptRoot : Bytes)
      (closedAt : UInt64)
  | disputeRaised (tunnelId raisedBy : Address) (stateHash : Bytes)
      (nonce timestamp : UInt64)
  | disputeResolved (tunnelId : Address) (stateHash : Bytes)
      (nonce partyABalance partyBBalance timestamp : UInt64)
  | tunnelWithdrawal (tunnelId party : Address) (amount timestamp : UInt64)
  | tunnelDestroyed (tunnelId destroyedBy : Address) (timestamp : UInt64)
  | tunnelTimeoutExtended (tunnelId extendedBy : Address)
      (additionalMs newTimeoutMs timestamp : UInt64)
  | htlcLocked (tunnelId : Address) (paymentHash : Bytes) (amount : UInt64)
      (sender receiver : Address) (expiryMs : UInt64)
  | htlcClaimedInTunnel (tunnelId : Address) (paymentHash : Bytes) (amount : UInt64)
      (claimedBy : Address)
  | htlcExpiredInTunnel (tunnelId : Address) (paymentHash : Bytes) (amount : UInt64)
      (returnedTo : Address)
  | refereeAssigned (tunnelId referee : Address)
  | disputeResolvedByReferee (tunnelId referee : Address)
      (partyABalance partyBBalance timestamp : UInt64)
  | disputeResolvedByVerifiedProof (tunnelId : Address)
      (partyABalance partyBBalance timestamp : UInt64)
deriving DecidableEq

/-- A coin sent with `public_transfer`. -/
structure Transfer where
  amount : UInt64
  recipient : Address
deriving DecidableEq

/-- What a successful call leaves behind: the tunnel, the coins transferred in
order, the coin handed back to the caller if there is one, and the events. -/
structure Receipt where
  tunnel : Tunnel
  transfers : List Transfer := []
  returned : Option UInt64 := none
  events : List Event := []

end DopamintArena.Move
