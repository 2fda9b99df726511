import DopamintArena.Engine.Wire

/-!
The six signed messages of `core/wire.ts` together. An encoder of this side
returns exactly when the fields have an on-chain reading, and then returns the
bytes the contract serializes that reading to. Since those bytes determine the
reading, a signature under one message is no signature under another.
-/

namespace DopamintArena.Engine

open Foundation
open DopamintArena.Move (SignedMessage)

structure HtlcLock where
  tunnelId : String
  paymentHash : Bytes
  amount : Int
  sender : String
  receiver : String
  expiryMs : Int
deriving DecidableEq

structure SpendAuthorization where
  allowanceId : String
  authorizedTotal : Int
deriving DecidableEq

def serializeHtlcLock (h : HtlcLock) : Except String Bytes := do
  let id ← addressToBytes32 h.tunnelId
  let amount ← u64ToBeBytes h.amount
  let sender ← addressToBytes32 h.sender
  let receiver ← addressToBytes32 h.receiver
  let expiryMs ← u64ToBeBytes h.expiryMs
  pure (bytesOf "sui_tunnel::htlc_lock" ++ id.bytes ++ h.paymentHash ++ amount ++ sender.bytes ++
    receiver.bytes ++ expiryMs)

def serializeRefereeAssignment (tunnelId referee : String) : Except String Bytes := do
  let id ← addressToBytes32 tunnelId
  let referee ← addressToBytes32 referee
  pure (bytesOf "sui_tunnel::referee_assignment" ++ id.bytes ++ referee.bytes)

def serializeSpendAuthorization (a : SpendAuthorization) : Except String Bytes := do
  let id ← addressToBytes32 a.allowanceId
  let authorizedTotal ← u64ToBeBytes a.authorizedTotal
  pure (bytesOf "sui_tunnel::spend_authorization" ++ id.bytes ++ authorizedTotal)

/-- A message before it is encoded. -/
inductive WireMessage
  | stateUpdate (u : StateUpdate)
  | settlement (s : Settlement)
  | settlementWithRoot (s : SettlementWithRoot)
  | htlcLock (h : HtlcLock)
  | refereeAssignment (tunnelId referee : String)
  | spendAuthorization (a : SpendAuthorization)
deriving DecidableEq

namespace WireMessage

def serialize : WireMessage → Except String Bytes
  | .stateUpdate u => serializeStateUpdate u
  | .settlement s => serializeSettlement s
  | .settlementWithRoot s => serializeSettlementWithRoot s
  | .htlcLock h => serializeHtlcLock h
  | .refereeAssignment tunnelId referee => serializeRefereeAssignment tunnelId referee
  | .spendAuthorization a => serializeSpendAuthorization a

end WireMessage

/-- The word of a bigint, which has to be in range. -/
def toWord (value : Int) : Except String UInt64 := do
  let v ← asU64 value
  pure (UInt64.ofNat v)

namespace WireMessage

/-- The message with its ids as 32 bytes and its integers as words. -/
def read : WireMessage → Except String SignedMessage
  | .stateUpdate u => do
    let id ← addressToBytes32 u.tunnelId
    let nonce ← toWord u.nonce
    let timestamp ← toWord u.timestamp
    let partyABalance ← toWord u.partyABalance
    let partyBBalance ← toWord u.partyBBalance
    pure (.stateUpdate ⟨id, u.stateHash, nonce, timestamp, partyABalance, partyBBalance⟩)
  | .settlement s => do
    let id ← addressToBytes32 s.tunnelId
    let partyABalance ← toWord s.partyABalance
    let partyBBalance ← toWord s.partyBBalance
    let finalNonce ← toWord s.finalNonce
    let timestamp ← toWord s.timestamp
    pure (.settlement ⟨id, partyABalance, partyBBalance, finalNonce, timestamp⟩)
  | .settlementWithRoot s => do
    require (s.transcriptRoot.length = 32)
      s!"transcript root must be 32 bytes, got {s.transcriptRoot.length}"
    let id ← addressToBytes32 s.tunnelId
    let partyABalance ← toWord s.partyABalance
    let partyBBalance ← toWord s.partyBBalance
    let finalNonce ← toWord s.finalNonce
    let timestamp ← toWord s.timestamp
    pure (.settlementWithRoot
      ⟨id, partyABalance, partyBBalance, finalNonce, timestamp, s.transcriptRoot⟩)
  | .htlcLock h => do
    let id ← addressToBytes32 h.tunnelId
    let amount ← toWord h.amount
    let sender ← addressToBytes32 h.sender
    let receiver ← addressToBytes32 h.receiver
    let expiryMs ← toWord h.expiryMs
    pure (.htlcLock ⟨id, h.paymentHash, amount, sender, receiver, expiryMs⟩)
  | .refereeAssignment tunnelId referee => do
    let id ← addressToBytes32 tunnelId
    let referee ← addressToBytes32 referee
    pure (.refereeAssignment id referee)
  | .spendAuthorization a => do
    let id ← addressToBytes32 a.allowanceId
    let authorizedTotal ← toWord a.authorizedTotal
    pure (.spendAuthorization id authorizedTotal)

end WireMessage

theorem u64ToBeBytes_eq_toWord (value : Int) :
    u64ToBeBytes value = (toWord value).map Move.u64ToBeBytes := by
  by_cases hvalue : IsU64 value
  · have hbytes := u64ToBeBytes_ok_iff.mpr ⟨hvalue, rfl⟩
    have hword : toWord value = .ok (word value) := by
      simp only [toWord, asU64, returned]
      exact ⟨_, ⟨hvalue, rfl⟩, rfl⟩
    rw [hbytes, hword]
    rfl
  · have herror : asU64 value = .error s!"u64 out of range: {value}" := by
      have hrange : ¬(0 ≤ value ∧ value ≤ u64Max) := hvalue
      rw [asU64, require, if_neg hrange]
      rfl
    rw [u64ToBeBytes, toWord, herror]
    rfl

namespace WireMessage

/-- The encoders of the two sides, as one equation: the same bytes, or the same error as the
reading. -/
theorem serialize_eq_read (m : WireMessage) : m.serialize = m.read.map SignedMessage.serialize := by
  cases m with
  | stateUpdate =>
    simp only [serialize, serializeStateUpdate, read, u64ToBeBytes_eq_toWord, map_bind,
      bind_map, map_pure]
    rfl
  | settlement =>
    simp only [serialize, serializeSettlement, read, u64ToBeBytes_eq_toWord, map_bind,
      bind_map, map_pure]
    rfl
  | settlementWithRoot =>
    simp only [serialize, serializeSettlementWithRoot, read, u64ToBeBytes_eq_toWord, map_bind,
      bind_map, map_pure]
    rfl
  | htlcLock =>
    simp only [serialize, serializeHtlcLock, read, u64ToBeBytes_eq_toWord, map_bind,
      bind_map, map_pure]
    rfl
  | refereeAssignment =>
    simp only [serialize, serializeRefereeAssignment, read, map_bind, map_pure]
    rfl
  | spendAuthorization =>
    simp only [serialize, serializeSpendAuthorization, read, u64ToBeBytes_eq_toWord, map_bind,
      bind_map, map_pure]
    rfl

theorem serialize_ok_iff {m : WireMessage} {bytes : Bytes} :
    m.serialize = .ok bytes ↔ ∃ d, m.read = .ok d ∧ d.serialize = bytes := by
  rw [serialize_eq_read]
  cases m.read with
  | error => simp [Except.map]
  | ok => simp [Except.map]

/-- Equal bytes are the same message on chain. -/
theorem read_eq_of_serialize {m m' : WireMessage} {bytes : Bytes}
    (h : m.serialize = .ok bytes) (h' : m'.serialize = .ok bytes) :
    ∃ d, m.read = .ok d ∧ m'.read = .ok d := by
  obtain ⟨d, hd, rfl⟩ := serialize_ok_iff.mp h
  obtain ⟨_, hd', hbytes⟩ := serialize_ok_iff.mp h'
  rw [SignedMessage.serialize_inj hbytes] at hd'
  exact ⟨d, hd, hd'⟩

end WireMessage

/-- The bytes of the six signed messages never coincide, neither between two kinds nor
between two contents of one kind, on chain and off chain. So where a signature fits at most
one byte string under a key, it fits at most one message. -/
theorem signed_messages_separated (verify : (signature message publicKey : Bytes) → Bool)
    (hbinds : ∀ signature publicKey message message',
      verify signature message publicKey = true → verify signature message' publicKey = true →
        message = message') :
    Function.Injective SignedMessage.serialize ∧
      (∀ (m m' : WireMessage) (bytes : Bytes), m.serialize = .ok bytes →
        m'.serialize = .ok bytes → ∃ d, m.read = .ok d ∧ m'.read = .ok d) ∧
      ∀ (m m' : SignedMessage) (signature publicKey : Bytes),
        verify signature m.serialize publicKey = true →
          verify signature m'.serialize publicKey = true → m = m' := by
  refine ⟨fun _ _ => SignedMessage.serialize_inj, fun _ _ _ => WireMessage.read_eq_of_serialize,
    ?_⟩
  intro m m' signature publicKey hm hm'
  exact SignedMessage.serialize_inj (hbinds signature publicKey _ _ hm hm')

namespace Sample

def repeatVerify (signature message publicKey : Bytes) : Bool := signature == publicKey ++ message

theorem repeatVerify_binds (signature publicKey message message' : Bytes)
    (h : repeatVerify signature message publicKey = true)
    (h' : repeatVerify signature message' publicKey = true) : message = message' := by
  simp only [repeatVerify, beq_iff_eq] at h h'
  exact List.append_cancel_left (h.symm.trans h')

def closing : SignedMessage := .settlement ⟨Bytes32.fill 7, 5, 5, 1, 9⟩

def anchoredClosing : SignedMessage :=
  .settlementWithRoot ⟨Bytes32.fill 7, 5, 5, 1, 9, (Bytes32.fill 3).bytes⟩

end Sample

/-- The signature under a settlement is not one under the same settlement with a root. -/
theorem signed_messages_separated_settlements :
    Sample.repeatVerify ([1] ++ Sample.closing.serialize) Sample.closing.serialize [1] = true ∧
      Sample.repeatVerify ([1] ++ Sample.closing.serialize) Sample.anchoredClosing.serialize [1] =
        false := by
  have hsigned : Sample.repeatVerify ([1] ++ Sample.closing.serialize)
      Sample.closing.serialize [1] = true := by decide +kernel
  refine ⟨hsigned, Bool.eq_false_of_not_eq_true ?_⟩
  intro hother
  have hsame := (signed_messages_separated Sample.repeatVerify Sample.repeatVerify_binds).2.2
    Sample.closing Sample.anchoredClosing _ _ hsigned hother
  cases hsame

end DopamintArena.Engine
