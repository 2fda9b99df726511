import DopamintArena.Move.Tunnel.Messages

/-!
`core/wire.ts` and the signed data of `core/tunnel.ts`. A bigint is an integer
of any size; encoding it as a `u64` throws when it is out of range. Tunnel ids
are hexadecimal strings with or without `0x`.

On values that are in range the encoders produce the bytes of the contract's
serializers, which is what makes an off-chain signature usable on chain.
-/

namespace DopamintArena.Engine

open Foundation

def u64Max : Int := 18446744073709551615

def asU64 (value : Int) : Except String Nat := do
  require (0 ≤ value ∧ value ≤ u64Max) s!"u64 out of range: {value}"
  pure value.toNat

def u64ToBeBytes (value : Int) : Except String Bytes := do
  let v ← asU64 value
  pure (beBytes 8 v)

def hexDigit (c : Char) : Option Nat :=
  if c.isDigit then some (c.toNat - 48)
  else if 97 ≤ c.toNat ∧ c.toNat ≤ 102 then some (c.toNat - 87)
  else if 65 ≤ c.toNat ∧ c.toNat ≤ 70 then some (c.toNat - 55)
  else none

def stripHexMark : List Char → List Char
  | '0' :: 'x' :: rest => rest
  | '0' :: 'X' :: rest => rest
  | other => other

def hexByte (digits : List Char) (i : Nat) : UInt8 :=
  ((hexDigit (digits.getD (2 * i) '0')).getD 0 * 16 +
    (hexDigit (digits.getD (2 * i + 1) '0')).getD 0).toUInt8

def addressToBytes32 (addr : String) : Except String Bytes32 := do
  let h := stripHexMark addr.toList
  require (h.all (fun c => (hexDigit c).isSome) = true) s!"invalid hex address: {addr}"
  require (h.length ≤ 64) s!"address longer than 32 bytes: {addr}"
  let digits := List.replicate (64 - h.length) '0' ++ h
  pure ⟨(List.range 32).map (hexByte digits), by simp⟩

structure StateUpdate where
  tunnelId : String
  stateHash : Bytes
  nonce : Int
  timestamp : Int
  partyABalance : Int
  partyBBalance : Int
deriving DecidableEq

structure Settlement where
  tunnelId : String
  partyABalance : Int
  partyBBalance : Int
  finalNonce : Int
  timestamp : Int
deriving DecidableEq

structure SettlementWithRoot where
  tunnelId : String
  partyABalance : Int
  partyBBalance : Int
  finalNonce : Int
  timestamp : Int
  transcriptRoot : Bytes
deriving DecidableEq

structure CoSignedUpdate where
  update : StateUpdate
  sigA : Bytes
  sigB : Bytes
deriving DecidableEq

def serializeStateUpdate (u : StateUpdate) : Except String Bytes := do
  let id ← addressToBytes32 u.tunnelId
  let nonce ← u64ToBeBytes u.nonce
  let timestamp ← u64ToBeBytes u.timestamp
  let partyABalance ← u64ToBeBytes u.partyABalance
  let partyBBalance ← u64ToBeBytes u.partyBBalance
  pure (bytesOf "sui_tunnel::state_update" ++ id.bytes ++ u.stateHash ++ nonce ++ timestamp ++
    partyABalance ++ partyBBalance)

def serializeSettlement (s : Settlement) : Except String Bytes := do
  let id ← addressToBytes32 s.tunnelId
  let partyABalance ← u64ToBeBytes s.partyABalance
  let partyBBalance ← u64ToBeBytes s.partyBBalance
  let finalNonce ← u64ToBeBytes s.finalNonce
  let timestamp ← u64ToBeBytes s.timestamp
  pure (bytesOf "sui_tunnel::settlement" ++ id.bytes ++ partyABalance ++ partyBBalance ++
    finalNonce ++ timestamp)

def serializeSettlementWithRoot (s : SettlementWithRoot) : Except String Bytes := do
  require (s.transcriptRoot.length = 32)
    s!"transcript root must be 32 bytes, got {s.transcriptRoot.length}"
  let id ← addressToBytes32 s.tunnelId
  let partyABalance ← u64ToBeBytes s.partyABalance
  let partyBBalance ← u64ToBeBytes s.partyBBalance
  let finalNonce ← u64ToBeBytes s.finalNonce
  let timestamp ← u64ToBeBytes s.timestamp
  pure (bytesOf "sui_tunnel::settlement_v2" ++ id.bytes ++ partyABalance ++ partyBBalance ++
    finalNonce ++ timestamp ++ s.transcriptRoot)

def IsU64 (value : Int) : Prop := 0 ≤ value ∧ value ≤ u64Max

instance (value : Int) : Decidable (IsU64 value) := inferInstanceAs (Decidable (_ ∧ _))

def word (value : Int) : UInt64 := UInt64.ofNat value.toNat

variable {value : Int}

theorem toNat_word (h : IsU64 value) : (word value).toNat = value.toNat := by
  obtain ⟨_, hhigh⟩ := h
  simp only [u64Max] at hhigh
  rw [word, UInt64.toNat_ofNat']
  exact Nat.mod_eq_of_lt (by omega)

variable {bytes : Bytes}

theorem u64ToBeBytes_ok_iff :
    u64ToBeBytes value = .ok bytes ↔
      IsU64 value ∧ bytes = Move.u64ToBeBytes (word value) := by
  simp only [u64ToBeBytes, asU64, returned]
  constructor
  · rintro ⟨_, ⟨hrange, rfl⟩, rfl⟩
    refine ⟨hrange, ?_⟩
    rw [Move.u64ToBeBytes_eq, toNat_word hrange]
  · rintro ⟨hrange, rfl⟩
    refine ⟨_, ⟨hrange, rfl⟩, ?_⟩
    rw [Move.u64ToBeBytes_eq, toNat_word hrange]

def StateUpdate.onChain (u : StateUpdate) (id : Bytes32) : Move.StateUpdateData where
  tunnelId := id
  stateHash := u.stateHash
  nonce := word u.nonce
  timestamp := word u.timestamp
  partyABalance := word u.partyABalance
  partyBBalance := word u.partyBBalance

/-- What the encoder needs: a well-formed id and four integers in range. -/
structure StateUpdate.Encodable (u : StateUpdate) : Prop where
  nonce : IsU64 u.nonce
  timestamp : IsU64 u.timestamp
  partyABalance : IsU64 u.partyABalance
  partyBBalance : IsU64 u.partyBBalance

variable {u : StateUpdate} {message : Bytes}

/-- The TypeScript and the Move serializer agree on everything the former encodes. -/
theorem serializeStateUpdate_ok_iff :
    serializeStateUpdate u = .ok message ↔
      ∃ id, addressToBytes32 u.tunnelId = .ok id ∧ u.Encodable ∧
        message = Move.serializeStateUpdate (u.onChain id) := by
  simp only [serializeStateUpdate, returned, u64ToBeBytes_ok_iff]
  constructor
  · rintro ⟨id, hid, _, ⟨hnonce, rfl⟩, _, ⟨htimestamp, rfl⟩, _, ⟨hA, rfl⟩, _, ⟨hB, rfl⟩, rfl⟩
    exact ⟨id, hid, ⟨hnonce, htimestamp, hA, hB⟩, rfl⟩
  · rintro ⟨id, hid, ⟨hnonce, htimestamp, hA, hB⟩, rfl⟩
    exact ⟨id, hid, _, ⟨hnonce, rfl⟩, _, ⟨htimestamp, rfl⟩, _, ⟨hA, rfl⟩, _, ⟨hB, rfl⟩, rfl⟩

theorem StateUpdate.Encodable.serialized {id : Bytes32} (h : u.Encodable)
    (hid : addressToBytes32 u.tunnelId = .ok id) :
    serializeStateUpdate u = .ok (Move.serializeStateUpdate (u.onChain id)) :=
  serializeStateUpdate_ok_iff.mpr ⟨id, hid, h, rfl⟩

theorem word_inj {x y : Int} (hx : IsU64 x) (hy : IsU64 y) (h : word x = word y) : x = y := by
  have hnat := congrArg UInt64.toNat h
  rw [toNat_word hx, toNat_word hy] at hnat
  have hxlow := hx.1
  have hylow := hy.1
  omega

theorem length_of_u64ToBeBytes (h : u64ToBeBytes value = .ok bytes) : bytes.length = 8 := by
  rw [(u64ToBeBytes_ok_iff.mp h).2, Move.length_u64ToBeBytes]

theorem u64ToBeBytes_inj {x y : Int} {bytes : Bytes} (hx : u64ToBeBytes x = .ok bytes)
    (hy : u64ToBeBytes y = .ok bytes) : x = y := by
  obtain ⟨hxrange, hxbytes⟩ := u64ToBeBytes_ok_iff.mp hx
  obtain ⟨hyrange, hybytes⟩ := u64ToBeBytes_ok_iff.mp hy
  exact word_inj hxrange hyrange (Move.u64ToBeBytes_inj (hxbytes.symm.trans hybytes))

/-- An integer at the end of an encoding can be read off it. -/
theorem u64ToBeBytes_append_inj {x y : Int} {front front' bytes' : Bytes}
    (hx : u64ToBeBytes x = .ok bytes) (hy : u64ToBeBytes y = .ok bytes')
    (h : front ++ bytes = front' ++ bytes') : front = front' ∧ x = y := by
  have hlength : bytes.length = bytes'.length := by
    rw [length_of_u64ToBeBytes hx, length_of_u64ToBeBytes hy]
  obtain ⟨hfront, rfl⟩ := List.append_inj' h hlength
  exact ⟨hfront, u64ToBeBytes_inj hx hy⟩

/-- A signed message determines the update it encodes, up to the spelling of the id. -/
theorem serializeStateUpdate_inj {v : StateUpdate} (htunnel : u.tunnelId = v.tunnelId)
    (hu : serializeStateUpdate u = .ok message) (hv : serializeStateUpdate v = .ok message) :
    u = v := by
  obtain ⟨_, -, hur, rfl⟩ := serializeStateUpdate_ok_iff.mp hu
  obtain ⟨_, -, hvr, hmessage⟩ := serializeStateUpdate_ok_iff.mp hv
  have hdata := Move.serializeStateUpdate_inj hmessage
  simp only [StateUpdate.onChain, Move.StateUpdateData.mk.injEq] at hdata
  obtain ⟨-, hhash, hnonce, htimestamp, hA, hB⟩ := hdata
  cases u
  cases v
  simp only [StateUpdate.mk.injEq]
  exact ⟨htunnel, hhash, word_inj hur.nonce hvr.nonce hnonce,
    word_inj hur.timestamp hvr.timestamp htimestamp,
    word_inj hur.partyABalance hvr.partyABalance hA,
    word_inj hur.partyBBalance hvr.partyBBalance hB⟩

end DopamintArena.Engine
