import DopamintArena.Rust.Transcript

/-!
`RootOnlyTranscriptRecorder` of `transcript.rs`: the transcript root without the
transcript. The frontier holds at most one node a level, as the bits of the
number of leaves do; a new leaf is carried upwards through the occupied levels.
-/

namespace DopamintArena.Rust

open Foundation

inductive TranscriptError
  | missingTunnelId
  | duplicateNonce (nonce : UInt64)
  | nonMonotonicNonce (previous nonce : UInt64)
deriving DecidableEq

/-- An entry is refused, or recording it panics. -/
inductive RecordError
  | refused (e : TranscriptError)
  | panics (message : String)
deriving DecidableEq

/-- A computation that may panic, as part of recording. -/
def RecordError.ofPanic {α : Type} (result : Except String α) : Except RecordError α :=
  result.mapError .panics

structure RootOnlyState where
  tunnelId : Option String
  previousNonce : Option UInt64
  leafCount : UInt64
  frontier : List (Option Bytes32)
deriving DecidableEq

namespace RootOnlyState

def default : RootOnlyState := ⟨none, none, 0, []⟩

section Hash

variable (blake2b256 : Bytes → Bytes32)

/-- `while count & 1 == 1`. The count has 64 bits, so 64 passes clear it. -/
def carryLoop : Nat → UInt64 → Nat → List (Option Bytes32) → Bytes32 →
    Except String (Nat × List (Option Bytes32) × Bytes32)
  | 0, _, level, frontier, carry => pure (level, frontier, carry)
  | fuel + 1, count, level, frontier, carry =>
    if count &&& 1 = 1 then
      let frontier := if level ≥ frontier.length then frontier ++ [none] else frontier
      match frontier[level]?.join with
      | none => .error "occupied frontier level for set count bit"
      | some left =>
        carryLoop fuel (count >>> 1) (level + 1) (frontier.set level none)
          (transcriptNode blake2b256 left carry)
    else pure (level, frontier, carry)

def pushLeaf (state : RootOnlyState) (leaf : Bytes32) : Except String RootOnlyState := do
  let (level, frontier, carry) ←
    carryLoop blake2b256 64 state.leafCount 0 state.frontier leaf
  let frontier := frontier ++ List.replicate (level + 1 - frontier.length) none
  pure
    { state with
      frontier := frontier.set level (some carry)
      leafCount := state.leafCount + 1 }

/-- `while current_level < left_level`: pad with empty right siblings. -/
def padUp : Nat → Bytes32 → Bytes32
  | 0, current => current
  | levels + 1, current => padUp levels (transcriptNode blake2b256 current zeroRoot)

/-- One block of `for (left_level, left) in blocks`. -/
def joinBlock (current : Nat × Bytes32) (block : Nat × Bytes32) : Nat × Bytes32 :=
  (block.1 + 1,
    transcriptNode blake2b256 block.2 (padUp blake2b256 (block.1 - current.1) current.2))

def root (state : RootOnlyState) : Bytes32 :=
  if state.leafCount = 0 then zeroRoot
  else
    match state.frontier.zipIdx.filterMap fun p => p.1.map fun hash => (p.2, hash) with
    | [] => zeroRoot
    | first :: blocks => (blocks.foldl (joinBlock blake2b256) first).2

def record {Move : Type} (state : RootOnlyState) (entry : TranscriptEntry Move) :
    Except RecordError RootOnlyState := do
  match state.tunnelId with
  | none => .error (.refused .missingTunnelId)
  | some tunnelId =>
    match state.previousNonce with
    | some previous => do
      require (entry.nonce ≠ previous) (.refused (.duplicateNonce entry.nonce))
      require (¬entry.nonce < previous) (.refused (.nonMonotonicNonce previous entry.nonce))
    | none => pure ()
    let leaf ← RecordError.ofPanic (transcriptLeaf blake2b256 tunnelId entry)
    RecordError.ofPanic
      (pushLeaf blake2b256 { state with previousNonce := some entry.nonce } leaf)

def canonicalRootForTunnel (state : RootOnlyState) (tunnelId : String) :
    Except TranscriptError Bytes32 := do
  require (state.tunnelId = some tunnelId) .missingTunnelId
  pure (root blake2b256 state)

end Hash

def setTunnelId (state : RootOnlyState) (tunnelId : String) : RootOnlyState :=
  { state with tunnelId := some tunnelId }

end RootOnlyState

end DopamintArena.Rust
