import DopamintArena.Move.Tunnel.State

/-!
What a signed message says. Each of the six messages determines its fields,
whatever the length of a hash field. The domain strings of two kinds differ in
their first fourteen bytes, except that the plain settlement's is a prefix of
the root-anchored one's; those two differ in length.
-/

namespace DopamintArena.Move

open Foundation

section Append

variable {first second : Bytes}

/-- The last field of a message is read off its end. -/
theorem append_u64_inj {x y : UInt64} (h : first ++ u64ToBeBytes x = second ++ u64ToBeBytes y) :
    first = second ∧ x = y := by
  obtain ⟨h, hlast⟩ := List.append_inj' h (by simp)
  exact ⟨h, u64ToBeBytes_inj hlast⟩

theorem append_address_inj {x y : Address} (h : first ++ x.bytes = second ++ y.bytes) :
    first = second ∧ x = y := by
  obtain ⟨h, hlast⟩ := List.append_inj' h (by simp)
  exact ⟨h, Bytes32.ext_bytes hlast⟩

end Append

theorem serializeStateUpdate_inj {d d' : StateUpdateData}
    (h : serializeStateUpdate d = serializeStateUpdate d') : d = d' := by
  obtain ⟨id, hash, _, _, _, _⟩ := d
  obtain ⟨_, _, _, _, _, _⟩ := d'
  simp only [serializeStateUpdate] at h
  -- the four integers are peeled off the end, the id and the hash are what remains
  obtain ⟨h, hb⟩ := append_u64_inj h
  obtain ⟨h, ha⟩ := append_u64_inj h
  obtain ⟨h, htimestamp⟩ := append_u64_inj h
  obtain ⟨h, hnonce⟩ := append_u64_inj h
  obtain ⟨h, hhash⟩ := List.append_inj h (by simp)
  rw [(append_address_inj h).2, hhash, hnonce, htimestamp, ha, hb]

/-- The start of a message that tells the signed domains apart. -/
def domainStart (message : Bytes) : Bytes := message.take 14

theorem domainStart_append {domain rest : Bytes} (h : 14 ≤ domain.length) :
    domainStart (domain ++ rest) = domainStart domain :=
  List.take_append_of_le_length h

theorem domainStart_stateUpdate (d : StateUpdateData) :
    domainStart (serializeStateUpdate d) = bytesOf "sui_tunnel::st" := by
  simp only [serializeStateUpdate, List.append_assoc]
  rw [domainStart_append (by decide)]
  decide

theorem domainStart_settlement (d : SettlementData) :
    domainStart (serializeSettlement d) = bytesOf "sui_tunnel::se" := by
  simp only [serializeSettlement, List.append_assoc]
  rw [domainStart_append (by decide)]
  decide

theorem domainStart_settlementWithRoot (d : SettlementWithRootData) :
    domainStart (serializeSettlementWithRoot d) = bytesOf "sui_tunnel::se" := by
  simp only [serializeSettlementWithRoot, List.append_assoc]
  rw [domainStart_append (by decide)]
  decide

theorem domainStart_htlcLock (d : HTLCLockData) :
    domainStart (serializeHtlcLock d) = bytesOf "sui_tunnel::ht" := by
  simp only [serializeHtlcLock, List.append_assoc]
  rw [domainStart_append (by decide)]
  decide

theorem serializeSettlement_inj {d d' : SettlementData}
    (h : serializeSettlement d = serializeSettlement d') : d = d' := by
  obtain ⟨_, _, _, _, _⟩ := d
  obtain ⟨_, _, _, _, _⟩ := d'
  simp only [serializeSettlement] at h
  obtain ⟨h, htimestamp⟩ := append_u64_inj h
  obtain ⟨h, hnonce⟩ := append_u64_inj h
  obtain ⟨h, hb⟩ := append_u64_inj h
  obtain ⟨h, ha⟩ := append_u64_inj h
  rw [(append_address_inj h).2, ha, hb, hnonce, htimestamp]

theorem serializeSettlementWithRoot_inj {d d' : SettlementWithRootData}
    (h : serializeSettlementWithRoot d = serializeSettlementWithRoot d') : d = d' := by
  obtain ⟨_, a, _, _, _, root⟩ := d
  obtain ⟨_, _, _, _, _, _⟩ := d'
  simp only [serializeSettlementWithRoot] at h
  -- everything before the root has a fixed length
  obtain ⟨h, hroot⟩ := List.append_inj h (by simp)
  obtain ⟨h, htimestamp⟩ := append_u64_inj h
  obtain ⟨h, hnonce⟩ := append_u64_inj h
  obtain ⟨h, hb⟩ := append_u64_inj h
  obtain ⟨h, ha⟩ := append_u64_inj h
  rw [(append_address_inj h).2, ha, hb, hnonce, htimestamp, hroot]

theorem serializeHtlcLock_inj {d d' : HTLCLockData}
    (h : serializeHtlcLock d = serializeHtlcLock d') : d = d' := by
  obtain ⟨_, _, _, _, _, _⟩ := d
  obtain ⟨_, _, _, _, _, _⟩ := d'
  simp only [serializeHtlcLock] at h
  obtain ⟨h, hexpiry⟩ := append_u64_inj h
  obtain ⟨h, hreceiver⟩ := append_address_inj h
  obtain ⟨h, hsender⟩ := append_address_inj h
  obtain ⟨h, hamount⟩ := append_u64_inj h
  obtain ⟨h, hhash⟩ := List.append_inj h (by simp)
  rw [(append_address_inj h).2, hhash, hamount, hsender, hreceiver, hexpiry]

theorem serializeRefereeAssignment_inj {tunnelId referee tunnelId' referee' : Address}
    (h : serializeRefereeAssignment tunnelId referee =
      serializeRefereeAssignment tunnelId' referee') :
    tunnelId = tunnelId' ∧ referee = referee' := by
  simp only [serializeRefereeAssignment] at h
  obtain ⟨h, hreferee⟩ := append_address_inj h
  exact ⟨(append_address_inj h).2, hreferee⟩

/-- The voucher of `example_agent_allowance.move`. -/
def serializeSpendAuthorization (allowanceId : Address) (authorizedTotal : UInt64) : Bytes :=
  bytesOf "sui_tunnel::spend_authorization" ++ allowanceId.bytes ++ u64ToBeBytes authorizedTotal

theorem serializeSpendAuthorization_inj {allowanceId allowanceId' : Address}
    {authorizedTotal authorizedTotal' : UInt64}
    (h : serializeSpendAuthorization allowanceId authorizedTotal =
      serializeSpendAuthorization allowanceId' authorizedTotal') :
    allowanceId = allowanceId' ∧ authorizedTotal = authorizedTotal' := by
  simp only [serializeSpendAuthorization] at h
  obtain ⟨h, htotal⟩ := append_u64_inj h
  exact ⟨(append_address_inj h).2, htotal⟩

theorem domainStart_refereeAssignment (tunnelId referee : Address) :
    domainStart (serializeRefereeAssignment tunnelId referee) = bytesOf "sui_tunnel::re" := by
  simp only [serializeRefereeAssignment, List.append_assoc]
  rw [domainStart_append (by decide)]
  decide

theorem domainStart_spendAuthorization (allowanceId : Address) (authorizedTotal : UInt64) :
    domainStart (serializeSpendAuthorization allowanceId authorizedTotal) =
      bytesOf "sui_tunnel::sp" := by
  simp only [serializeSpendAuthorization, List.append_assoc]
  rw [domainStart_append (by decide)]
  decide

/-- Everything a party or a principal signs. -/
inductive SignedMessage
  | stateUpdate (data : StateUpdateData)
  | settlement (data : SettlementData)
  | settlementWithRoot (data : SettlementWithRootData)
  | htlcLock (data : HTLCLockData)
  | refereeAssignment (tunnelId referee : Address)
  | spendAuthorization (allowanceId : Address) (authorizedTotal : UInt64)
deriving DecidableEq

namespace SignedMessage

def serialize : SignedMessage → Bytes
  | .stateUpdate data => serializeStateUpdate data
  | .settlement data => serializeSettlement data
  | .settlementWithRoot data => serializeSettlementWithRoot data
  | .htlcLock data => serializeHtlcLock data
  | .refereeAssignment tunnelId referee => serializeRefereeAssignment tunnelId referee
  | .spendAuthorization allowanceId authorizedTotal =>
    serializeSpendAuthorization allowanceId authorizedTotal

/-- The kind of a message, the two settlements taken together. -/
inductive Kind
  | stateUpdate
  | settlement
  | htlcLock
  | refereeAssignment
  | spendAuthorization
deriving DecidableEq

def kind : SignedMessage → Kind
  | .stateUpdate _ => .stateUpdate
  | .settlement _ | .settlementWithRoot _ => .settlement
  | .htlcLock _ => .htlcLock
  | .refereeAssignment _ _ => .refereeAssignment
  | .spendAuthorization _ _ => .spendAuthorization

/-- The first bytes of a message of this kind. -/
def Kind.start : Kind → Bytes
  | .stateUpdate => bytesOf "sui_tunnel::st"
  | .settlement => bytesOf "sui_tunnel::se"
  | .htlcLock => bytesOf "sui_tunnel::ht"
  | .refereeAssignment => bytesOf "sui_tunnel::re"
  | .spendAuthorization => bytesOf "sui_tunnel::sp"

theorem Kind.start_inj {k k' : Kind} (h : k.start = k'.start) : k = k' := by
  revert h
  cases k <;> cases k' <;> decide

theorem domainStart_serialize (m : SignedMessage) : domainStart m.serialize = m.kind.start := by
  cases m with
  | stateUpdate data => exact domainStart_stateUpdate data
  | settlement data => exact domainStart_settlement data
  | settlementWithRoot data => exact domainStart_settlementWithRoot data
  | htlcLock data => exact domainStart_htlcLock data
  | refereeAssignment tunnelId referee => exact domainStart_refereeAssignment tunnelId referee
  | spendAuthorization allowanceId authorizedTotal =>
    exact domainStart_spendAuthorization allowanceId authorizedTotal

theorem kind_eq_of_serialize {m m' : SignedMessage} (h : m.serialize = m'.serialize) :
    m.kind = m'.kind := by
  apply Kind.start_inj
  rw [← domainStart_serialize, ← domainStart_serialize, h]

theorem serializeSettlement_ne (d : SettlementData) (d' : SettlementWithRootData) :
    serializeSettlement d ≠ serializeSettlementWithRoot d' := by
  intro h
  have hlength := congrArg List.length h
  have hdomain : (bytesOf "sui_tunnel::settlement").length = 22 := by decide
  have hdomain' : (bytesOf "sui_tunnel::settlement_v2").length = 25 := by decide
  simp only [serializeSettlement, serializeSettlementWithRoot, List.length_append,
    Bytes32.length_bytes, length_u64ToBeBytes, hdomain, hdomain'] at hlength
  omega

/-- The bytes determine which message it is and all of its fields. -/
theorem serialize_inj {m m' : SignedMessage} (h : m.serialize = m'.serialize) : m = m' := by
  have hkind := kind_eq_of_serialize h
  cases m <;> cases m' <;> cases hkind
  case stateUpdate.stateUpdate => rw [serializeStateUpdate_inj h]
  case settlement.settlement => rw [serializeSettlement_inj h]
  case settlement.settlementWithRoot => exact absurd h (serializeSettlement_ne _ _)
  case settlementWithRoot.settlement => exact absurd h.symm (serializeSettlement_ne _ _)
  case settlementWithRoot.settlementWithRoot => rw [serializeSettlementWithRoot_inj h]
  case htlcLock.htlcLock => rw [serializeHtlcLock_inj h]
  case refereeAssignment.refereeAssignment =>
    obtain ⟨rfl, rfl⟩ := serializeRefereeAssignment_inj h
    rfl
  case spendAuthorization.spendAuthorization =>
    obtain ⟨rfl, rfl⟩ := serializeSpendAuthorization_inj h
    rfl

end SignedMessage

end DopamintArena.Move
