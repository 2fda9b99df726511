import DopamintArena.Engine.Messages
import DopamintArena.Engine.StateUpdates

/-!
`tunnel-core/src/wire.rs` with the encodings of `codec.rs`: the Rust side of
the signed messages. Hashes are arrays of 32 bytes and integers are `u64` by
type; an id is text, and a bad one is a panic. Where the other two sides have
a value for the same fields, all three encode it to the same bytes.
-/

namespace DopamintArena.Rust

open Foundation
open DopamintArena.Move (SignedMessage)
open DopamintArena.Engine (hexDigit hexByte toHex WireMessage StateUpdateWriter UpdateTail
  parseStateUpdate)

def stripMark (mark text : List Char) : Option (List Char) :=
  if mark.isPrefixOf text then some (text.drop mark.length) else none

def addressToBytes32 (addr : String) : Except String Bytes32 := do
  let h := ((stripMark ['0', 'x'] addr.toList).or (stripMark ['0', 'X'] addr.toList)).getD
    addr.toList
  require (h.all (fun c => (hexDigit c).isSome) = true) s!"invalid hex address: {addr}"
  require (h.length ≤ 64) s!"address longer than 32 bytes: {addr}"
  let padded := List.replicate (64 - h.length) '0' ++ h
  pure ⟨(List.range 32).map (hexByte padded), by simp⟩

def u64ToBeBytes (v : UInt64) : Bytes := beBytes 8 v.toNat

def expect {α : Type} (result : Except String α) (message : String) : Except String α :=
  match result with
  | .ok a => .ok a
  | .error e => .error s!"{message}: {e}"

structure StateUpdate where
  tunnelId : String
  stateHash : Bytes32
  nonce : UInt64
  timestamp : UInt64
  partyABalance : UInt64
  partyBBalance : UInt64

structure Settlement where
  tunnelId : String
  partyABalance : UInt64
  partyBBalance : UInt64
  finalNonce : UInt64
  timestamp : UInt64

structure HtlcLock where
  tunnelId : String
  paymentHash : Bytes32
  amount : UInt64
  sender : String
  receiver : String
  expiryMs : UInt64

def serializeStateUpdate (u : StateUpdate) : Except String Bytes := do
  let id ← expect (addressToBytes32 u.tunnelId) "valid tunnel id"
  pure (bytesOf "sui_tunnel::state_update" ++ id.bytes ++ u.stateHash.bytes ++
    u64ToBeBytes u.nonce ++ u64ToBeBytes u.timestamp ++ u64ToBeBytes u.partyABalance ++
    u64ToBeBytes u.partyBBalance)

def serializeSettlement (s : Settlement) : Except String Bytes := do
  let id ← expect (addressToBytes32 s.tunnelId) "valid tunnel id"
  pure (bytesOf "sui_tunnel::settlement" ++ id.bytes ++ u64ToBeBytes s.partyABalance ++
    u64ToBeBytes s.partyBBalance ++ u64ToBeBytes s.finalNonce ++ u64ToBeBytes s.timestamp)

def serializeSettlementWithRoot (s : Settlement) (transcriptRoot : Bytes32) :
    Except String Bytes := do
  let id ← expect (addressToBytes32 s.tunnelId) "valid tunnel id"
  pure (bytesOf "sui_tunnel::settlement_v2" ++ id.bytes ++ u64ToBeBytes s.partyABalance ++
    u64ToBeBytes s.partyBBalance ++ u64ToBeBytes s.finalNonce ++ u64ToBeBytes s.timestamp ++
    transcriptRoot.bytes)

def serializeHtlcLock (h : HtlcLock) : Except String Bytes := do
  let id ← expect (addressToBytes32 h.tunnelId) "valid tunnel id"
  let sender ← expect (addressToBytes32 h.sender) "valid sender"
  let receiver ← expect (addressToBytes32 h.receiver) "valid receiver"
  pure (bytesOf "sui_tunnel::htlc_lock" ++ id.bytes ++ h.paymentHash.bytes ++
    u64ToBeBytes h.amount ++ sender.bytes ++ receiver.bytes ++ u64ToBeBytes h.expiryMs)

/-- A message of this side before it is encoded. -/
inductive RustMessage
  | stateUpdate (u : StateUpdate)
  | settlement (s : Settlement)
  | settlementWithRoot (s : Settlement) (transcriptRoot : Bytes32)
  | htlcLock (h : HtlcLock)

namespace RustMessage

def serialize : RustMessage → Except String Bytes
  | .stateUpdate u => serializeStateUpdate u
  | .settlement s => serializeSettlement s
  | .settlementWithRoot s transcriptRoot => serializeSettlementWithRoot s transcriptRoot
  | .htlcLock h => serializeHtlcLock h

def toWire : RustMessage → WireMessage
  | .stateUpdate u => .stateUpdate ⟨u.tunnelId, u.stateHash.bytes, u.nonce.toNat,
      u.timestamp.toNat, u.partyABalance.toNat, u.partyBBalance.toNat⟩
  | .settlement s => .settlement ⟨s.tunnelId, s.partyABalance.toNat, s.partyBBalance.toNat,
      s.finalNonce.toNat, s.timestamp.toNat⟩
  | .settlementWithRoot s transcriptRoot => .settlementWithRoot ⟨s.tunnelId,
      s.partyABalance.toNat, s.partyBBalance.toNat, s.finalNonce.toNat, s.timestamp.toNat,
      transcriptRoot.bytes⟩
  | .htlcLock h => .htlcLock ⟨h.tunnelId, h.paymentHash.bytes, h.amount.toNat, h.sender,
      h.receiver, h.expiryMs.toNat⟩

end RustMessage

theorem u64ToBeBytes_eq (v : UInt64) : u64ToBeBytes v = Move.u64ToBeBytes v :=
  (Move.u64ToBeBytes_eq v).symm

theorem expect_ok_iff {α : Type} {result : Except String α} {message : String} {a : α} :
    expect result message = .ok a ↔ result = .ok a := by
  cases result <;> simp [expect]

theorem stripMark_eq (text : List Char) :
    ((stripMark ['0', 'x'] text).or (stripMark ['0', 'X'] text)).getD text =
      Engine.stripHexMark text := by
  unfold Engine.stripHexMark
  split
  · simp [stripMark]
  · simp [stripMark]
  · rename_i hlower hupper
    match text with
    | [] => simp [stripMark]
    | [a] => simp [stripMark]
    | a :: b :: rest =>
      have hx : ¬(a = '0' ∧ b = 'x') := by
        rintro ⟨rfl, rfl⟩
        exact hlower rest rfl
      have hX : ¬(a = '0' ∧ b = 'X') := by
        rintro ⟨rfl, rfl⟩
        exact hupper rest rfl
      simp only [stripMark, List.isPrefixOf, Bool.and_true, Bool.and_eq_true, beq_iff_eq]
      rw [if_neg (by rintro ⟨h, h'⟩; exact hx ⟨h.symm, h'.symm⟩),
        if_neg (by rintro ⟨h, h'⟩; exact hX ⟨h.symm, h'.symm⟩)]
      rfl

theorem addressToBytes32_eq (addr : String) :
    addressToBytes32 addr = Engine.addressToBytes32 addr := by
  simp only [addressToBytes32, Engine.addressToBytes32, stripMark_eq]

theorem toWord_toNat (v : UInt64) : Engine.toWord v.toNat = .ok v := by
  have hv := v.toNat_lt
  simp only [Engine.toWord, Engine.asU64, returned]
  refine ⟨v.toNat, ⟨⟨by omega, by simp only [Engine.u64Max]; omega⟩, by simp⟩, ?_⟩
  simp

namespace RustMessage

/-- This side encodes exactly what has an on-chain reading, to the bytes of that reading. -/
theorem serialize_ok_iff {r : RustMessage} {bytes : Bytes} :
    r.serialize = .ok bytes ↔ ∃ d, r.toWire.read = .ok d ∧ d.serialize = bytes := by
  cases r with
  | stateUpdate | settlement =>
    simp only [serialize, serializeStateUpdate, serializeSettlement, toWire, WireMessage.read,
      returned, expect_ok_iff, addressToBytes32_eq, toWord_toNat, ok_bind, u64ToBeBytes_eq]
    constructor
    · rintro ⟨id, hid, rfl⟩
      exact ⟨_, ⟨id, hid, rfl⟩, rfl⟩
    · rintro ⟨d, ⟨id, hid, rfl⟩, rfl⟩
      exact ⟨id, hid, rfl⟩
  | settlementWithRoot _ transcriptRoot =>
    simp only [serialize, serializeSettlementWithRoot, toWire, WireMessage.read, returned,
      require_of transcriptRoot.length_bytes, expect_ok_iff, addressToBytes32_eq, toWord_toNat,
      ok_bind, u64ToBeBytes_eq]
    constructor
    · rintro ⟨id, hid, rfl⟩
      exact ⟨_, ⟨id, hid, rfl⟩, rfl⟩
    · rintro ⟨d, ⟨id, hid, rfl⟩, rfl⟩
      exact ⟨id, hid, rfl⟩
  | htlcLock =>
    simp only [serialize, serializeHtlcLock, toWire, WireMessage.read, returned, expect_ok_iff,
      addressToBytes32_eq, toWord_toNat, ok_bind, u64ToBeBytes_eq]
    constructor
    · rintro ⟨id, hid, sender, hsender, receiver, hreceiver, rfl⟩
      exact ⟨_, ⟨id, hid, sender, hsender, receiver, hreceiver, rfl⟩, rfl⟩
    · rintro ⟨_, ⟨id, hid, sender, hsender, receiver, hreceiver, rfl⟩, rfl⟩
      exact ⟨id, hid, sender, hsender, receiver, hreceiver, rfl⟩

end RustMessage

/-- The messages that have an encoder on all three sides, with hashes of the length the
contract asserts. -/
def OnAllSides : SignedMessage → Prop
  | .stateUpdate data => data.stateHash.length = 32
  | .settlement _ => True
  | .settlementWithRoot data => data.transcriptRoot.length = 32
  | .htlcLock data => data.paymentHash.length = 32
  | .refereeAssignment _ _ | .spendAuthorization _ _ => False

def textOf (id : Bytes32) : String := "0x" ++ toHex id.bytes

/-- Every such message can be written down on this side. -/
theorem exists_rustMessage {d : SignedMessage} (h : OnAllSides d) :
    ∃ r : RustMessage, r.toWire.read = .ok d := by
  have htext : ∀ id, Engine.addressToBytes32 (textOf id) = .ok id := Engine.addressToBytes32_toHex
  cases d with
  | stateUpdate data =>
    refine ⟨.stateUpdate ⟨textOf data.tunnelId, ⟨data.stateHash, h⟩, data.nonce, data.timestamp,
      data.partyABalance, data.partyBBalance⟩, ?_⟩
    simp only [RustMessage.toWire, WireMessage.read, htext, toWord_toNat, ok_bind]
    rfl
  | settlement data =>
    refine ⟨.settlement ⟨textOf data.tunnelId, data.partyABalance, data.partyBBalance,
      data.finalNonce, data.timestamp⟩, ?_⟩
    simp only [RustMessage.toWire, WireMessage.read, htext, toWord_toNat, ok_bind]
    rfl
  | settlementWithRoot data =>
    refine ⟨.settlementWithRoot ⟨textOf data.tunnelId, data.partyABalance, data.partyBBalance,
      data.finalNonce, data.timestamp⟩ ⟨data.transcriptRoot, h⟩, ?_⟩
    have hroot : data.transcriptRoot.length = 32 := h
    simp only [RustMessage.toWire, WireMessage.read, require_of hroot, htext, toWord_toNat,
      ok_bind]
    rfl
  | htlcLock data =>
    refine ⟨.htlcLock ⟨textOf data.tunnelId, ⟨data.paymentHash, h⟩, data.amount,
      textOf data.sender, textOf data.receiver, data.expiryMs⟩, ?_⟩
    simp only [RustMessage.toWire, WireMessage.read, htext, toWord_toNat, ok_bind]
    rfl
  | refereeAssignment => exact h.elim
  | spendAuthorization => exact h.elim

/-- The three sides write the same bytes for the same message, and each message of the
contract has such a form on the other two sides. The parser undoes the serializer and
accepts nothing else, and a reused writer writes what the serializer does. -/
theorem wire_formats_agree :
    (∀ (r : RustMessage) (bytes : Bytes),
      (r.serialize = .ok bytes ↔ ∃ d, r.toWire.read = .ok d ∧ d.serialize = bytes) ∧
        (r.serialize = .ok bytes ↔ r.toWire.serialize = .ok bytes)) ∧
      (∀ (m : WireMessage) (d : SignedMessage), m.read = .ok d → m.serialize = .ok d.serialize) ∧
      (∀ d : SignedMessage, OnAllSides d → ∃ r : RustMessage, r.toWire.read = .ok d) ∧
      (∀ (u : Engine.StateUpdate) (bytes : Bytes), u.stateHash.length = 32 →
        Engine.serializeStateUpdate u = .ok bytes →
          ∃ id, Engine.addressToBytes32 u.tunnelId = .ok id ∧
            parseStateUpdate bytes = .ok { u with tunnelId := textOf id }) ∧
      (∀ (bytes : Bytes) (u : Engine.StateUpdate), parseStateUpdate bytes = .ok u →
        Engine.serializeStateUpdate u = .ok bytes) ∧
      ∀ (tunnelId : String) (stateHashLen : Nat) (w : StateUpdateWriter) (buf : Bytes)
        (us : List UpdateTail), StateUpdateWriter.create tunnelId stateHashLen = .ok (w, buf) →
          w.writes buf us = us.map (StateUpdateWriter.serialized tunnelId stateHashLen) := by
  refine ⟨?_, ?_, fun _ => exists_rustMessage, fun _ _ => Engine.parseStateUpdate_serialize,
    fun _ _ => Engine.serializeStateUpdate_parse, ?_⟩
  · intro r bytes
    exact ⟨RustMessage.serialize_ok_iff,
      RustMessage.serialize_ok_iff.trans WireMessage.serialize_ok_iff.symm⟩
  · intro m d hread
    exact WireMessage.serialize_ok_iff.mpr ⟨d, hread, rfl⟩
  · intro tunnelId stateHashLen w buf us hcreate
    obtain ⟨_, hid, rfl, hframed⟩ := StateUpdateWriter.create_framed hcreate
    exact StateUpdateWriter.writes_eq hid hframed us

end DopamintArena.Rust
