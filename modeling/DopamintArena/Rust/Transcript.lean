import DopamintArena.Proof.Transcript
import DopamintArena.Rust.Harness

/-!
`tunnel-harness/src/transcript.rs` and the settle entries of `anchor.rs`: the
Rust side of the transcript root. An entry keeps the fields of the update and
the signatures of its proposer and its responder; the leaf puts them back into
the message and the seats' order. The move itself is not hashed.

The two sides compute the same root, and a root determines the messages and
signatures below it.
-/

namespace DopamintArena.Rust

open Foundation

def transcriptLeafDomain : Bytes := bytesOf "sui_tunnel::transcript::leaf"
def transcriptNodeDomain : Bytes := bytesOf "sui_tunnel::transcript::node"
def zeroRoot : Bytes32 := Bytes32.fill 0

structure TranscriptEntry (Move : Type) where
  nonce : UInt64
  bySeat : Seat
  mv : Move
  stateHash : Bytes32
  timestamp : UInt64
  partyABalance : UInt64
  partyBBalance : UInt64
  sigProposer : Bytes64
  sigResponder : Bytes64

structure TranscriptSettleEntry where
  message : Bytes
  sigA : Bytes64
  sigB : Bytes64
deriving DecidableEq

namespace TranscriptEntry

variable {Move : Type}

def update (tunnelId : String) (entry : TranscriptEntry Move) : StateUpdate :=
  ⟨tunnelId, entry.stateHash, entry.nonce, entry.timestamp, entry.partyABalance,
    entry.partyBBalance⟩

def sigs (entry : TranscriptEntry Move) : Bytes64 × Bytes64 :=
  match entry.bySeat with
  | .A => (entry.sigProposer, entry.sigResponder)
  | .B => (entry.sigResponder, entry.sigProposer)

end TranscriptEntry

def TranscriptSettleEntry.fromTranscriptEntry {Move : Type} (tunnelId : String)
    (entry : TranscriptEntry Move) : Except String TranscriptSettleEntry := do
  let message ← serializeStateUpdate (entry.update tunnelId)
  pure ⟨message, entry.sigs.1, entry.sigs.2⟩

section Root

variable (blake2b256 : Bytes → Bytes32)

def transcriptNode (left right : Bytes32) : Bytes32 :=
  blake2b256 (transcriptNodeDomain ++ left.bytes ++ right.bytes)

/-- `chunks_exact(2)` mapped to nodes: an odd element at the end is dropped. -/
def chunkNodes : List Bytes32 → List Bytes32
  | left :: right :: rest => transcriptNode blake2b256 left right :: chunkNodes rest
  | _ => []

/-- `while level.len() > 1`. Every pass shortens the level, so its length is
enough fuel. -/
def rootLoop : Nat → List Bytes32 → List Bytes32
  | 0, level => level
  | fuel + 1, level =>
    if level.length > 1 then
      let level := if level.length % 2 = 1 then level ++ [zeroRoot] else level
      rootLoop fuel (chunkNodes blake2b256 level)
    else level

def transcriptRoot (leaves : List Bytes32) : Bytes32 :=
  if leaves.isEmpty then zeroRoot
  else (rootLoop blake2b256 leaves.length leaves).headD zeroRoot

def transcriptLeaf {Move : Type} (tunnelId : String) (entry : TranscriptEntry Move) :
    Except String Bytes32 := do
  let message ← serializeStateUpdate (entry.update tunnelId)
  pure (blake2b256 (transcriptLeafDomain ++ message ++ entry.sigs.1.bytes ++ entry.sigs.2.bytes))

def rootForTunnel {Move : Type} (tunnelId : String) (entries : List (TranscriptEntry Move)) :
    Except String Bytes32 := do
  let leaves ← entries.mapM (transcriptLeaf blake2b256 tunnelId)
  pure (transcriptRoot blake2b256 leaves)

end Root

section Agree

variable {blake2b256 : Bytes → Bytes32}

theorem chunkNodes_eq : ∀ level : List Bytes32,
    chunkNodes blake2b256 level = Merkle.pairUp blake2b256 Proof.nodeString level
  | [] => rfl
  | [_] => rfl
  | _ :: _ :: rest => by
    rw [chunkNodes, Merkle.pairUp, chunkNodes_eq rest]
    rfl

theorem rootLoop_eq (fuel : Nat) (level : List Bytes32) :
    rootLoop blake2b256 fuel level =
      Merkle.paddedTop blake2b256 Proof.nodeString Proof.zero32 fuel level := by
  induction fuel generalizing level with
  | zero => rfl
  | succ _ ih =>
    rw [rootLoop, Merkle.paddedTop]
    simp only [chunkNodes_eq, ih]
    rfl

theorem transcriptRoot_eq (leaves : List Bytes32) :
    transcriptRoot blake2b256 leaves = Proof.transcriptRoot blake2b256 leaves := by
  rw [Proof.transcriptRoot_eq]
  unfold transcriptRoot
  cases leaves with
  | nil => rfl
  | cons =>
    rw [if_neg (by simp), rootLoop_eq]
    rfl

end Agree

def TranscriptSettleEntry.toProof (nonce : UInt64) (entry : TranscriptSettleEntry) :
    Proof.TranscriptEntry :=
  ⟨nonce.toNat, entry.message, entry.sigA.bytes, entry.sigB.bytes⟩

/-- The entry that the TypeScript transcript records for the same update. -/
def TranscriptEntry.toProof {Move : Type} (tunnelId : String) (entry : TranscriptEntry Move) :
    Except String Proof.TranscriptEntry :=
  (TranscriptSettleEntry.fromTranscriptEntry tunnelId entry).map
    (TranscriptSettleEntry.toProof entry.nonce)

theorem transcriptLeaf_eq {Move : Type} (blake2b256 : Bytes → Bytes32) (tunnelId : String)
    (entry : TranscriptEntry Move) :
    transcriptLeaf blake2b256 tunnelId entry =
      (entry.toProof tunnelId).map (Proof.transcriptLeaf blake2b256) := by
  unfold transcriptLeaf TranscriptEntry.toProof TranscriptSettleEntry.fromTranscriptEntry
  cases serializeStateUpdate (entry.update tunnelId) <;> rfl

theorem rootForTunnel_eq {Move : Type} (blake2b256 : Bytes → Bytes32) (tunnelId : String)
    (entries : List (TranscriptEntry Move)) :
    rootForTunnel blake2b256 tunnelId entries =
      (entries.mapM (TranscriptEntry.toProof tunnelId)).map fun es =>
        Proof.transcriptRoot blake2b256 (es.map (Proof.transcriptLeaf blake2b256)) := by
  have hleaves : entries.mapM (transcriptLeaf blake2b256 tunnelId) =
      (entries.mapM (TranscriptEntry.toProof tunnelId)).map
        (List.map (Proof.transcriptLeaf blake2b256)) := by
    rw [← mapM_map]
    exact congrArg entries.mapM (funext (transcriptLeaf_eq blake2b256 tunnelId))
  unfold rootForTunnel
  rw [hleaves]
  simp only [transcriptRoot_eq]
  cases entries.mapM (TranscriptEntry.toProof tunnelId) <;> rfl

/-- The Rust root is the TypeScript root, over any leaves and over any recorded entries.
Entries with the same root have the same messages and signatures, in the same order,
whatever the lengths of the two lists. -/
theorem transcript_root_binds (blake2b256 : Bytes → Bytes32) :
    (∀ leaves : List Bytes32,
      transcriptRoot blake2b256 leaves = Proof.transcriptRoot blake2b256 leaves) ∧
    (∀ (Move : Type) (tunnelId : String) (entries : List (TranscriptEntry Move)),
      rootForTunnel blake2b256 tunnelId entries =
        (entries.mapM (TranscriptEntry.toProof tunnelId)).map fun es =>
          Proof.transcriptRoot blake2b256 (es.map (Proof.transcriptLeaf blake2b256))) ∧
    ∀ entries entries' : List Proof.TranscriptEntry,
      (∀ e ∈ entries ++ entries', e.sigA.length = 64 ∧ e.sigB.length = 64) →
      Proof.HashesApart blake2b256
        (Proof.rootStrings blake2b256 entries ++ Proof.rootStrings blake2b256 entries') →
      Proof.transcriptRoot blake2b256 (entries.map (Proof.transcriptLeaf blake2b256)) =
        Proof.transcriptRoot blake2b256 (entries'.map (Proof.transcriptLeaf blake2b256)) →
      entries.map Proof.TranscriptEntry.committed =
        entries'.map Proof.TranscriptEntry.committed :=
  ⟨transcriptRoot_eq, fun _ => rootForTunnel_eq blake2b256, fun _ _ => Proof.committed_eq_of_root⟩

/-- Three updates, recorded once with one set of nonces and once with another. -/
def sampleEntries (firstNonce : Int) : List Proof.TranscriptEntry :=
  [⟨firstNonce, [1], List.replicate 64 7, List.replicate 64 8⟩,
    ⟨firstNonce + 1, [2], List.replicate 64 7, List.replicate 64 8⟩,
    ⟨firstNonce + 2, [3], List.replicate 64 7, List.replicate 64 8⟩]

/-- The sum of the bytes, with the length in the last place. -/
def sampleDigest (bytes : Bytes) : Bytes32 :=
  ⟨List.replicate 31 (bytes.foldl (· + ·) 1) ++ [bytes.length.toUInt8], rfl⟩

theorem transcript_root_binds_renumbered :
    (sampleEntries 1).map Proof.TranscriptEntry.committed =
      (sampleEntries 5).map Proof.TranscriptEntry.committed := by
  have happart : ∀ s ∈ Proof.rootStrings sampleDigest (sampleEntries 1) ++
      Proof.rootStrings sampleDigest (sampleEntries 5),
      ∀ t ∈ Proof.rootStrings sampleDigest (sampleEntries 1) ++
        Proof.rootStrings sampleDigest (sampleEntries 5),
        sampleDigest s = sampleDigest t → s = t := by decide +kernel
  exact (transcript_root_binds sampleDigest).2.2 (sampleEntries 1) (sampleEntries 5)
    (by decide) ⟨fun s hs t ht => happart s hs t ht, by decide +kernel⟩ (by decide +kernel)

end DopamintArena.Rust
