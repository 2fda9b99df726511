import DopamintArena.Move.Tunnel.Calls

/-!
The proof referee: `quantum_poker.move`, `quantum_poker_referee.move` and the
part of `zk_verifier.move` they call. It is the only code outside `tunnel.move`
that reaches the package-visible resolver `resolve_dispute_verified`.

Sui's native Groth16 verifier is a parameter. The sessions' `id`,
`protocol_version` and `five_of_a_kind_enabled`, the circuits' names and the
events play no part in any decision and are left out.
-/

namespace DopamintArena.Move

open Foundation

inductive PokerAbort
  | invalidHash
  | invalidCircuit
  | notParty
  | wrongTunnel
  | notCounterparty
  | paramsMismatch
  | invalidWinner
  | stateHashMismatch
  | invalidProof
  | untrustedRegistry
  | schemaMismatch
  | paramsNotAgreed
  | circuitNotRegistered
  | invalidPublicInputs
  | invalidParameter
  /-- The native verifier rejects malformed points. -/
  | malformedPoints
  | tunnel (reason : Abort)
deriving DecidableEq

structure PokerSession where
  tunnelId : Address
  rulesHash : Bytes
  circuitId : Bytes
  inputSchemaHash : Bytes
  createdBy : Address
  paramsAgreed : Bool
deriving DecidableEq

structure Circuit where
  id : Bytes
  curve : UInt8
  pvk : Bytes
  numPublicInputs : UInt64
  inputSchemaHash : Bytes
  active : Bool

structure CircuitRegistry where
  circuits : List Circuit
  trusted : Bool

/-- `sui::groth16`: curve, prepared key, public inputs and proof. `none` is an abort. -/
abbrev Groth16 := (curve : UInt8) → (pvk inputs proof : Bytes) → Option Bool

def isParty (t : Tunnel) (sender : Address) : Prop :=
  sender = t.partyA.address ∨ sender = t.partyB.address

instance (t : Tunnel) (sender : Address) : Decidable (isParty t sender) :=
  inferInstanceAs (Decidable (_ ∨ _))

def createSession (t : Tunnel) (rulesHash circuitId inputSchemaHash : Bytes)
    (sender : Address) : Except PokerAbort PokerSession := do
  require (rulesHash.length = 32) .invalidHash
  require (inputSchemaHash.length = 32) .invalidHash
  require (circuitId.length = 32) .invalidCircuit
  require (isParty t sender) .notParty
  pure ⟨t.id, rulesHash, circuitId, inputSchemaHash, sender, false⟩

def confirmSessionParams (session : PokerSession) (t : Tunnel)
    (rulesHash circuitId inputSchemaHash : Bytes) (sender : Address) :
    Except PokerAbort PokerSession := do
  require (session.tunnelId = t.id) .wrongTunnel
  require (isParty t sender) .notParty
  require (sender ≠ session.createdBy) .notCounterparty
  require (rulesHash = session.rulesHash) .paramsMismatch
  require (circuitId = session.circuitId) .paramsMismatch
  require (inputSchemaHash = session.inputSchemaHash) .paramsMismatch
  pure { session with paramsAgreed := true }

def scalarSize : Nat := 32
def maxPublicInputs : Nat := 8
def curveBls12381 : UInt8 := 0
def curveBn254 : UInt8 := 1
def winnerTie : UInt64 := 2

/-- Eight bytes least significant first, padded to a scalar. -/
def u64ToScalar (value : UInt64) : Bytes :=
  (u64ToBeBytes value).reverse ++ List.replicate 24 0

def concatScalars (scalars : List Bytes) : Except PokerAbort Bytes := do
  require (scalars.length ≤ maxPublicInputs) .invalidPublicInputs
  require (∀ scalar ∈ scalars, scalar.length = 32) .invalidPublicInputs
  pure scalars.flatten

/-- Clears the top three bits so that the hash is below the field modulus. -/
def fieldSafeScalar (hash32 : Bytes) : Except PokerAbort Bytes := do
  require (hash32.length = 32) .invalidHash
  pure (hash32.set 31 (hash32.getD 31 0 &&& 0x1f))

/-- What the caller of `resolve_with_proof` claims and proves. -/
structure ProofArgs where
  proof : Bytes
  stateHash : Bytes
  handId : UInt64
  winner : UInt64
  partyABalance : UInt64
  partyBBalance : UInt64
  resultHash : Bytes

def buildPublicInputsForTunnel (env : Natives) (session : PokerSession) (t : Tunnel)
    (args : ProofArgs) : Except PokerAbort Bytes := do
  require (session.tunnelId = t.id) .wrongTunnel
  require (args.winner ≤ winnerTie) .invalidWinner
  let rules ← fieldSafeScalar session.rulesHash
  let tunnelIdHash ← fieldSafeScalar (env.blake2b256 t.id.bytes).bytes
  let state ← fieldSafeScalar args.stateHash
  let result ← fieldSafeScalar args.resultHash
  concatScalars [rules, tunnelIdHash, state, u64ToScalar args.handId,
    u64ToScalar args.winner, u64ToScalar args.partyABalance,
    u64ToScalar args.partyBBalance, result]

def getCircuit (registry : CircuitRegistry) (circuitId : Bytes) :
    Except PokerAbort Circuit :=
  match registry.circuits.find? (fun circuit => circuit.id == circuitId) with
  | some circuit => .ok circuit
  | none => .error .circuitNotRegistered

def verifyCircuitProof (groth16 : Groth16) (registry : CircuitRegistry) (circuitId : Bytes)
    (publicInputs proof : Bytes) : Except PokerAbort Bool := do
  let circuit ← getCircuit registry circuitId
  require (circuit.active = true) .circuitNotRegistered
  require (publicInputs.length = circuit.numPublicInputs.toNat * scalarSize)
    .invalidPublicInputs
  require (circuit.curve = curveBls12381 ∨ circuit.curve = curveBn254) .invalidParameter
  match groth16 circuit.curve circuit.pvk publicInputs proof with
  | some result => pure result
  | none => .error .malformedPoints

def verifyResultProof (env : Natives) (groth16 : Groth16) (session : PokerSession)
    (registry : CircuitRegistry) (t : Tunnel) (args : ProofArgs) :
    Except PokerAbort Bool := do
  require (args.stateHash = t.state.stateHash) .stateHashMismatch
  require (registry.trusted = true) .untrustedRegistry
  let circuit ← getCircuit registry session.circuitId
  require (circuit.inputSchemaHash = session.inputSchemaHash) .schemaMismatch
  let publicInputs ← buildPublicInputsForTunnel env session t args
  verifyCircuitProof groth16 registry session.circuitId publicInputs args.proof

def resolveWithProof (env : Natives) (groth16 : Groth16) (session : PokerSession)
    (registry : CircuitRegistry) (t : Tunnel) (args : ProofArgs) (now : UInt64) :
    Except PokerAbort Receipt := do
  require (session.paramsAgreed = true) .paramsNotAgreed
  let verified ← verifyResultProof env groth16 session registry t args
  require (verified = true) .invalidProof
  (resolveDisputeVerified t args.partyABalance args.partyBBalance now).mapError .tunnel

section Spec

variable {env : Natives} {groth16 : Groth16} {session session' : PokerSession}
variable {registry : CircuitRegistry} {t : Tunnel} {sender : Address} {r : Receipt}
variable {rulesHash circuitId inputSchemaHash : Bytes}

/-- The proof referee acts only on a session of this tunnel that both parties agreed to. -/
theorem resolveWithProof_ok {args : ProofArgs} {now : UInt64}
    (h : resolveWithProof env groth16 session registry t args now = .ok r) :
    session.tunnelId = t.id ∧ session.paramsAgreed = true := by
  simp only [resolveWithProof, verifyResultProof, buildPublicInputsForTunnel, returned] at h
  obtain ⟨hagreed, _, ⟨-, -, _, -, -, _, ⟨htunnel, -⟩, -⟩, -⟩ := h
  exact ⟨htunnel, hagreed⟩

end Spec

end DopamintArena.Move
