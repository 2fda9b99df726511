import DopamintArena.Engine.Protocol

/-!
`core/commitment.ts` and the draws of `core/randomness.ts`: two-party commit
and reveal, and numbers drawn from the joint seed. The hash is a parameter.

`nextU64InRange` draws until a draw falls below the threshold, with no bound
on how often it is rejected; here `limit` says how many draws are followed.
-/

namespace DopamintArena.Games

open Foundation Engine

/-- `blake2b256`. -/
abbrev Hash := Bytes → Bytes32

/-- A number stored into a `Uint8Array`. -/
def byteOf (value : Int) : UInt8 := UInt8.ofNat (value % 256).toNat

def u64s (values : List Int) : Except String Bytes := do
  let parts ← values.mapM u64ToBeBytes
  pure parts.flatten

theorem u64s_total (values : List Int) (h : ∀ value ∈ values, IsU64 value) :
    u64s values = .ok (values.map fun value => Move.u64ToBeBytes (word value)).flatten := by
  have hparts : values.mapM u64ToBeBytes = _ :=
    mapM_ok_of_forall fun value hvalue => u64ToBeBytes_ok_iff.mpr ⟨h value hvalue, rfl⟩
  rw [u64s, hparts]
  rfl

def domainCommitReveal : Bytes := bytesOf "sui_tunnel::randomness::commit_reveal"

def minSaltLen : Nat := 16

/-- A committed value and the salt that hides it. -/
structure SlotReveal where
  value : Bytes
  salt : Bytes
deriving DecidableEq

structure Seed where
  bytes : Bytes
  counter : Int

variable (hash : Hash)

def hashCommitment (value salt : Bytes) : Bytes :=
  (hash (domainCommitReveal ++ lengthPrefixedConcat [value, salt])).bytes

def computeCommitment (value salt : Bytes) : Except String Bytes := do
  require (minSaltLen ≤ salt.length) s!"salt must be >= {minSaltLen} bytes, got {salt.length}"
  pure (hashCommitment hash value salt)

/-- A salt of any length is accepted here. -/
def verifyCommitment (commitmentHash value salt : Bytes) : Bool :=
  hashCommitment hash value salt == commitmentHash

def combineReveals (a b : SlotReveal) : Bytes :=
  (hash (domainCommitReveal ++ lengthPrefixedConcat [a.value, a.salt, b.value, b.salt])).bytes

def seedFromBytes (bytes : Bytes) : Seed := ⟨bytes, 0⟩

def nextSeed (seed : Seed) : Except String Seed := do
  let counter ← u64ToBeBytes seed.counter
  pure ⟨(hash (bytesOf "sui_tunnel::randomness::chain" ++ seed.bytes ++ counter)).bytes, 0⟩

def bytesToU64BE (b : Bytes) : Int :=
  (b.take 8).foldl (fun v byte => v * 256 + byte.toNat) 0

/-- The rejection loop. -/
def drawBelow (range min threshold : Int) : Nat → Seed → Except String (Int × Seed)
  | 0, _ => .error "every draw was rejected"
  | limit + 1, current => do
    let ns ← nextSeed hash current
    let raw := bytesToU64BE ns.bytes
    if threshold = 0 ∨ raw < threshold then
      pure (raw.tmod range + min, { ns with counter := ns.counter + 1 })
    else drawBelow range min threshold limit ns

def nextU64InRange (limit : Nat) (seed : Seed) (min max : Int) :
    Except String (Int × Seed) := do
  require (min < max) "invalid randomness range"
  let range := max - min
  if range = 1 then do
    let ns ← nextSeed hash seed
    pure (min, { ns with counter := ns.counter + 1 })
  else
    let remainder := (u64Max.tmod range + 1).tmod range
    let threshold := if remainder = 0 then 0 else u64Max - remainder + 1
    drawBelow hash range min threshold limit seed

end DopamintArena.Games
