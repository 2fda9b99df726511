import DopamintArena.Rust.Mirror
import DopamintArena.Rust.Series

/-!
Commit and reveal in `randomness.move`, `core/commitment.ts` and
`tunnel-core/src/commitment.rs`. Each side hashes every field behind its length, so
what is hashed determines the fields; the length of a byte vector is a `u64`.
-/

namespace DopamintArena.Move

open Foundation
open DopamintArena.Games (Hash)

/-- `vector<u8>`. -/
abbrev ByteVector := { bytes : Bytes // bytes.length < 2 ^ 64 }

structure Commitment where
  hash : Bytes
  committer : Address
  timestamp : UInt64

structure Reveal where
  value : ByteVector
  salt : ByteVector
deriving DecidableEq

structure Seed where
  bytes : Bytes
  counter : UInt64

def domainCommitReveal : Bytes := bytesOf "sui_tunnel::randomness::commit_reveal"

def lengthBytes (vector : ByteVector) : Bytes := u64ToBeBytes (UInt64.ofNat vector.1.length)

/-- What is hashed for a commitment. -/
def Reveal.hashInput (r : Reveal) : Bytes :=
  domainCommitReveal ++ lengthBytes r.value ++ r.value.1 ++ lengthBytes r.salt ++ r.salt.1

/-- What is hashed for the joint seed. -/
def jointInput (a b : Reveal) : Bytes :=
  domainCommitReveal ++ lengthBytes a.value ++ a.value.1 ++ lengthBytes a.salt ++ a.salt.1 ++
    lengthBytes b.value ++ b.value.1 ++ lengthBytes b.salt ++ b.salt.1

variable (blake2b256 : Hash)

def createCommitment (value salt : ByteVector) (committer : Address) (timestamp : UInt64) :
    Except Abort Commitment := do
  require (16 ≤ salt.1.length) .invalidParameter
  pure ⟨(blake2b256 (Reveal.hashInput ⟨value, salt⟩)).bytes, committer, timestamp⟩

def verifyCommitment (commitment : Commitment) (reveal : Reveal) : Bool :=
  (blake2b256 reveal.hashInput).bytes == commitment.hash

def combineReveals (revealA revealB : Reveal) : Seed :=
  ⟨(blake2b256 (jointInput revealA revealB)).bytes, 0⟩

end DopamintArena.Move

namespace DopamintArena.Rust

open Foundation
open DopamintArena.Games (Hash)
open DopamintArena.Move (ByteVector Commitment Reveal)

section

variable (hash : Hash)

def hashCommitment (value salt : Bytes) : Bytes32 :=
  hash (domainCommitReveal ++ lengthPrefixed value ++ lengthPrefixed salt)

def verifyCommitment (commitment : Bytes32) (value salt : Bytes) : Bool :=
  hashCommitment hash value salt == commitment

def combineReveals (valueA saltA valueB saltB : Bytes) : Bytes32 :=
  hash (domainCommitReveal ++ lengthPrefixed valueA ++ lengthPrefixed saltA ++
    lengthPrefixed valueB ++ lengthPrefixed saltB)

/-- The three sides compute the same. -/
structure SidesAgree : Prop where
  commits : ∀ (value salt : ByteVector) (committer : Move.Address) (timestamp : UInt64),
    (Move.createCommitment hash value salt committer timestamp).toOption =
      (computeCommitment hash value.1 salt.1).toOption.map
        (fun digest => ⟨digest.bytes, committer, timestamp⟩) ∧
    (Games.computeCommitment hash value.1 salt.1).toOption =
      (computeCommitment hash value.1 salt.1).toOption.map Bytes32.bytes
  verifies : ∀ (digest : Bytes32) (committer : Move.Address) (timestamp : UInt64) (r : Reveal),
    Move.verifyCommitment hash ⟨digest.bytes, committer, timestamp⟩ r =
      Games.verifyCommitment hash digest.bytes r.value.1 r.salt.1 ∧
    verifyCommitment hash digest r.value.1 r.salt.1 =
      Games.verifyCommitment hash digest.bytes r.value.1 r.salt.1
  combines : ∀ a b : Reveal,
    (Move.combineReveals hash a b).bytes =
      Games.combineReveals hash ⟨a.value.1, a.salt.1⟩ ⟨b.value.1, b.salt.1⟩ ∧
    (combineReveals hash a.value.1 a.salt.1 b.value.1 b.salt.1).bytes =
      Games.combineReveals hash ⟨a.value.1, a.salt.1⟩ ⟨b.value.1, b.salt.1⟩

/-- A commitment opens in one way, and a joint seed comes from one pair of reveals, among those
whose strings are known. -/
structure Binds (known : Set Bytes) : Prop where
  opens : ∀ (commitment : Commitment) (r r' : Reveal), r.hashInput ∈ known →
    r'.hashInput ∈ known → Move.verifyCommitment hash commitment r = true →
    Move.verifyCommitment hash commitment r' = true → r = r'
  combines : ∀ a b a' b' : Reveal, Move.jointInput a b ∈ known → Move.jointInput a' b' ∈ known →
    Move.combineReveals hash a b = Move.combineReveals hash a' b' → a = a' ∧ b = b'

end

variable {hash : Hash}

theorem lengthBytes_append (vector : ByteVector) :
    Move.lengthBytes vector ++ vector.1 = lengthPrefixed vector.1 := by
  rw [Move.lengthBytes, Move.u64ToBeBytes_eq]
  rfl

/-- A field behind its length is read off the front. -/
theorem lengthPrefixed_append_inj {x y : ByteVector} {rest rest' : Bytes}
    (h : lengthPrefixed x.1 ++ rest = lengthPrefixed y.1 ++ rest') : x = y ∧ rest = rest' := by
  rw [lengthPrefixed_eq, lengthPrefixed_eq, List.append_assoc, List.append_assoc] at h
  obtain ⟨hlength, h⟩ := List.append_inj h (by simp)
  obtain ⟨hbytes, hrest⟩ := List.append_inj h (beBytes_inj x.2 y.2 hlength)
  exact ⟨Subtype.ext hbytes, hrest⟩

theorem hashInput_eq (r : Reveal) :
    r.hashInput = domainCommitReveal ++ (lengthPrefixed r.value.1 ++ lengthPrefixed r.salt.1) := by
  rw [← lengthBytes_append, ← lengthBytes_append]
  simp only [Move.Reveal.hashInput, List.append_assoc]
  rfl

theorem jointInput_eq (a b : Reveal) :
    Move.jointInput a b = domainCommitReveal ++ (lengthPrefixed a.value.1 ++
      (lengthPrefixed a.salt.1 ++ (lengthPrefixed b.value.1 ++ lengthPrefixed b.salt.1))) := by
  simp only [← lengthBytes_append, Move.jointInput, List.append_assoc]
  rfl

theorem hashInput_inj {r r' : Reveal} (h : r.hashInput = r'.hashInput) : r = r' := by
  rw [hashInput_eq, hashInput_eq, List.append_cancel_left_eq] at h
  obtain ⟨hvalue, h⟩ := lengthPrefixed_append_inj h
  obtain ⟨hsalt, -⟩ := lengthPrefixed_append_inj (congrArg (· ++ []) h)
  cases r
  cases r'
  simp_all

theorem jointInput_inj {a b a' b' : Reveal} (h : Move.jointInput a b = Move.jointInput a' b') :
    a = a' ∧ b = b' := by
  rw [jointInput_eq, jointInput_eq, List.append_cancel_left_eq] at h
  obtain ⟨hvalue, h⟩ := lengthPrefixed_append_inj h
  obtain ⟨hsalt, h⟩ := lengthPrefixed_append_inj h
  have hb : b.hashInput = b'.hashInput := by rw [hashInput_eq, hashInput_eq, h]
  cases a
  cases a'
  simp_all [hashInput_inj hb]

theorem hash_hashInput (hash : Hash) (r : Reveal) :
    hash r.hashInput = hashCommitment hash r.value.1 r.salt.1 := by
  rw [hashInput_eq, hashCommitment, List.append_assoc]

theorem games_hashCommitment (value salt : Bytes) :
    Games.hashCommitment hash value salt = (hashCommitment hash value salt).bytes := by
  rw [Games.hashCommitment, hashCommitment, lengthPrefixedConcat_cons, lengthPrefixedConcat_cons,
    lengthPrefixedConcat_nil, List.append_nil, List.append_assoc]
  rfl

theorem sidesAgree (hash : Hash) : SidesAgree hash where
  commits := by
    intro value salt committer timestamp
    rw [Move.createCommitment, Games.computeCommitment, computeCommitment, hash_hashInput hash,
      games_hashCommitment]
    simp only [Games.minSaltLen, minSaltLen, require]
    by_cases hlong : 16 ≤ salt.1.length
    · simp only [hlong, if_true]
      exact ⟨rfl, rfl⟩
    · simp only [hlong, if_false]
      exact ⟨rfl, rfl⟩
  verifies := by
    intro digest committer timestamp r
    rw [Move.verifyCommitment, Games.verifyCommitment, hash_hashInput hash, games_hashCommitment]
    refine ⟨rfl, ?_⟩
    rw [verifyCommitment, Bool.eq_iff_iff, beq_iff_eq, beq_iff_eq]
    exact ⟨congrArg _, Bytes32.ext_bytes⟩
  combines := by
    intro a b
    have hjoint : Games.combineReveals hash ⟨a.value.1, a.salt.1⟩ ⟨b.value.1, b.salt.1⟩ =
        (combineReveals hash a.value.1 a.salt.1 b.value.1 b.salt.1).bytes := by
      simp only [Games.combineReveals, combineReveals, lengthPrefixedConcat_cons,
        lengthPrefixedConcat_nil, List.append_nil, List.append_assoc]
      rfl
    rw [hjoint, Move.combineReveals, jointInput_eq, combineReveals]
    simp only [List.append_assoc, and_self]

theorem binds {known : Set Bytes} (hinj : Set.InjOn hash known) : Binds hash known where
  opens := by
    intro commitment r r' hr hr' hverified hverified'
    simp only [Move.verifyCommitment, beq_iff_eq] at hverified hverified'
    have hsame : hash r.hashInput = hash r'.hashInput :=
      Bytes32.ext_bytes (hverified.trans hverified'.symm)
    exact hashInput_inj (hinj hr hr' hsame)
  combines := by
    intro a b a' b' hab hab' h
    have hsame : hash (Move.jointInput a b) = hash (Move.jointInput a' b') :=
      Bytes32.ext_bytes (Move.Seed.mk.inj h).1
    exact jointInput_inj (hinj hab hab' hsame)

/-- Commitments and joint seeds bind under a hash that is injective on what is hashed, and the
three sides compute the same ones. -/
theorem commit_reveal_binds_and_agrees {known : Set Bytes} (hinj : Set.InjOn hash known) :
    Binds hash known ∧ SidesAgree hash :=
  ⟨binds hinj, sidesAgree hash⟩

/-- The openings of the value 7 with salts of sixteen equal bytes. -/
def sampleReveal (byte : UInt8) : Reveal :=
  ⟨⟨[7], by decide⟩, ⟨List.replicate 16 byte, by simp⟩⟩

def lastByte : Hash := fun string => Bytes32.fill (string.getLastD 0)

theorem commit_reveal_binds_and_agrees_two_salts :
    Move.verifyCommitment lastByte ⟨(Bytes32.fill 1).bytes, Bytes32.fill 0, 0⟩ (sampleReveal 1) =
      true ∧
    ∀ r, r = sampleReveal 1 ∨ r = sampleReveal 2 → Move.verifyCommitment lastByte
      ⟨(Bytes32.fill 1).bytes, Bytes32.fill 0, 0⟩ r = true → r = sampleReveal 1 := by
  have hinj : Set.InjOn lastByte {(sampleReveal 1).hashInput, (sampleReveal 2).hashInput} := by
    rintro _ (rfl | rfl) _ (rfl | rfl) h
    · rfl
    · exact absurd h (by decide +kernel)
    · exact absurd h (by decide +kernel)
    · rfl
  refine ⟨by decide +kernel, fun r hr hverified => ?_⟩
  apply (commit_reveal_binds_and_agrees hinj).1.opens _ r _ _ (.inl rfl) hverified
  · decide +kernel
  · rcases hr with rfl | rfl
    · exact .inl rfl
    · exact .inr rfl

end DopamintArena.Rust
