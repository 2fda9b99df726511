import DopamintArena.Foundation.Bytes
import DopamintArena.Foundation.PaddedMerkle

/-!
`proof/transcript.ts`: the leaves of a transcript and the Merkle root over
them. The hash is a parameter and returns 32 bytes.

A root determines the messages and signatures it was built from. Leaves and
nodes are hashed under different domains of the same length, signatures are 64
bytes, and no hash is the padding value; the hash is only assumed injective on
the strings that the two roots hash.
-/

namespace DopamintArena.Proof

open Foundation

def leafDomain : Bytes := bytesOf "sui_tunnel::transcript::leaf"
def nodeDomain : Bytes := bytesOf "sui_tunnel::transcript::node"

/-- The padding leaf and the root of no leaves. -/
def zero32 : Bytes32 := Bytes32.fill 0

structure TranscriptEntry where
  nonce : Int
  message : Bytes
  sigA : Bytes
  sigB : Bytes
deriving DecidableEq

/-- What the entry's leaf hashes. -/
def leafString (e : TranscriptEntry) : Bytes :=
  leafDomain ++ e.message ++ e.sigA ++ e.sigB

def nodeString (left right : Bytes32) : Bytes :=
  nodeDomain ++ left.bytes ++ right.bytes

section Root

variable (blake2b256 : Bytes → Bytes32)

def transcriptLeaf (e : TranscriptEntry) : Bytes32 := blake2b256 (leafString e)

/-- One pass of the outer loop: `i` runs over the even positions. -/
def nextLevel (level : List Bytes32) : List Bytes32 :=
  let level := if level.length % 2 = 1 then level ++ [zero32] else level
  (List.range (level.length / 2)).map fun k =>
    blake2b256 (nodeString (level.getD (2 * k) zero32) (level.getD (2 * k + 1) zero32))

/-- `while (level.length > 1)`. Every pass shortens the level, so its length is
enough fuel. -/
def rootLoop : Nat → List Bytes32 → List Bytes32
  | 0, level => level
  | fuel + 1, level =>
    if level.length > 1 then rootLoop fuel (nextLevel blake2b256 level) else level

def transcriptRoot (leaves : List Bytes32) : Bytes32 :=
  if leaves.length = 0 then zero32
  else (rootLoop blake2b256 leaves.length leaves).headD zero32

/-- Every string that is hashed for the root over `entries`. -/
def rootStrings (entries : List TranscriptEntry) : List Bytes :=
  entries.map leafString ++
    Merkle.paddedStrings blake2b256 nodeString zero32 entries.length
      (entries.map (transcriptLeaf blake2b256))

end Root

section Levels

variable {blake2b256 : Bytes → Bytes32}

theorem nextLevel_eq (level : List Bytes32) :
    nextLevel blake2b256 level = Merkle.padUp blake2b256 nodeString zero32 level :=
  (Merkle.pairUp_eq_map zero32 _).symm

theorem rootLoop_eq (fuel : Nat) (level : List Bytes32) :
    rootLoop blake2b256 fuel level = Merkle.paddedTop blake2b256 nodeString zero32 fuel level := by
  induction fuel generalizing level with
  | zero => rfl
  | succ _ ih => rw [rootLoop, Merkle.paddedTop, nextLevel_eq, ih]

/-- The loop builds the padded tree. -/
theorem transcriptRoot_eq (leaves : List Bytes32) :
    transcriptRoot blake2b256 leaves = Merkle.paddedRoot blake2b256 nodeString zero32 leaves := by
  unfold transcriptRoot
  split
  · rename_i hnone
    rw [List.eq_nil_of_length_eq_zero hnone]
    rfl
  · rw [rootLoop_eq]
    rfl

end Levels

theorem nodeString_inj {left right left' right' : Bytes32}
    (h : nodeString left right = nodeString left' right') : left = left' ∧ right = right' := by
  unfold nodeString at h
  obtain ⟨hfront, hright⟩ := List.append_inj' h (by rw [right.length_bytes, right'.length_bytes])
  exact ⟨Bytes32.ext_bytes (List.append_cancel_left hfront), Bytes32.ext_bytes hright⟩

theorem leafString_ne_nodeString (e : TranscriptEntry) (left right : Bytes32) :
    leafString e ≠ nodeString left right := by
  intro h
  have hdomain := congrArg (List.take leafDomain.length) h
  simp only [leafString, nodeString, List.append_assoc] at hdomain
  rw [List.take_left' rfl, List.take_left' (by decide)] at hdomain
  exact absurd hdomain (by decide)

/-- With signatures of 64 bytes a leaf string determines its parts. -/
theorem leafString_inj {e e' : TranscriptEntry} (hA : e.sigA.length = e'.sigA.length)
    (hB : e.sigB.length = e'.sigB.length) (h : leafString e = leafString e') :
    e.message = e'.message ∧ e.sigA = e'.sigA ∧ e.sigB = e'.sigB := by
  unfold leafString at h
  obtain ⟨hfront, hsigB⟩ := List.append_inj' h hB
  obtain ⟨hmessage, hsigA⟩ := List.append_inj' hfront hA
  exact ⟨List.append_cancel_left hmessage, hsigA, hsigB⟩

/-- What a leaf commits to. -/
def TranscriptEntry.committed (e : TranscriptEntry) : Bytes × Bytes × Bytes :=
  (e.message, e.sigA, e.sigB)

/-- What the collision argument needs of the hash, on the strings of two roots. -/
structure HashesApart (blake2b256 : Bytes → Bytes32) (strings : List Bytes) : Prop where
  injective : Set.InjOn blake2b256 {string | string ∈ strings}
  nonzero : ∀ string ∈ strings, blake2b256 string ≠ zero32

/-- Equal leaves come from equal messages and signatures. -/
theorem committed_eq_of_leaves {blake2b256 : Bytes → Bytes32} {strings : List Bytes}
    (hinj : Set.InjOn blake2b256 {string | string ∈ strings})
    {entries entries' : List TranscriptEntry}
    (hknown : ∀ e ∈ entries, leafString e ∈ strings)
    (hknown' : ∀ e ∈ entries', leafString e ∈ strings)
    (hsigs : ∀ e ∈ entries, e.sigA.length = 64 ∧ e.sigB.length = 64)
    (hsigs' : ∀ e ∈ entries', e.sigA.length = 64 ∧ e.sigB.length = 64)
    (h : entries.map (transcriptLeaf blake2b256) = entries'.map (transcriptLeaf blake2b256)) :
    entries.map TranscriptEntry.committed = entries'.map TranscriptEntry.committed := by
  induction entries generalizing entries' with
  | nil =>
    rw [List.eq_nil_of_map_eq_nil h.symm]
  | cons e _ ih =>
    cases entries' with
    | nil => cases h
    | cons e' =>
      rw [List.map_cons, List.map_cons, List.cons.injEq] at h
      have hstring := hinj (hknown e List.mem_cons_self) (hknown' e' List.mem_cons_self) h.1
      have hlengths := hsigs e List.mem_cons_self
      have hlengths' := hsigs' e' List.mem_cons_self
      obtain ⟨hmessage, hsigA, hsigB⟩ := leafString_inj
        (hlengths.1.trans hlengths'.1.symm) (hlengths.2.trans hlengths'.2.symm) hstring
      have hrest := ih (fun x hx => hknown x (List.mem_cons_of_mem _ hx))
        (fun x hx => hknown' x (List.mem_cons_of_mem _ hx))
        (fun x hx => hsigs x (List.mem_cons_of_mem _ hx))
        (fun x hx => hsigs' x (List.mem_cons_of_mem _ hx)) h.2
      rw [List.map_cons, List.map_cons, hrest]
      simp [TranscriptEntry.committed, hmessage, hsigA, hsigB]

/-- Equal roots come from equal lists of messages with both signatures, whatever
their lengths. -/
theorem committed_eq_of_root {blake2b256 : Bytes → Bytes32}
    {entries entries' : List TranscriptEntry}
    (hsigs : ∀ e ∈ entries ++ entries', e.sigA.length = 64 ∧ e.sigB.length = 64)
    (hhash : HashesApart blake2b256 (rootStrings blake2b256 entries ++ rootStrings blake2b256 entries'))
    (h : transcriptRoot blake2b256 (entries.map (transcriptLeaf blake2b256)) =
      transcriptRoot blake2b256 (entries'.map (transcriptLeaf blake2b256))) :
    entries.map TranscriptEntry.committed = entries'.map TranscriptEntry.committed := by
  have hleafKnown : ∀ e ∈ entries ++ entries',
      leafString e ∈ rootStrings blake2b256 entries ++ rootStrings blake2b256 entries' := by
    intro e he
    rcases List.mem_append.mp he with he | he
    · exact List.mem_append_left _ (List.mem_append_left _ (List.mem_map_of_mem he))
    · exact List.mem_append_right _ (List.mem_append_left _ (List.mem_map_of_mem he))
  rw [transcriptRoot_eq, transcriptRoot_eq] at h
  have hleaves : entries.map (transcriptLeaf blake2b256) =
      entries'.map (transcriptLeaf blake2b256) := by
    apply Merkle.paddedRoot_inj (fun _ _ _ _ => nodeString_inj) hhash.injective hhash.nonzero
      _ _ _ h
    · intro digest hdigest
      rw [← List.map_append] at hdigest
      obtain ⟨e, he, rfl⟩ := List.mem_map.mp hdigest
      refine ⟨hhash.nonzero _ (hleafKnown e he), fun left right hnode heq => ?_⟩
      exact leafString_ne_nodeString e left right (hhash.injective (hleafKnown e he) hnode heq)
    · intro string hstring
      rw [List.length_map] at hstring
      exact List.mem_append_left _ (List.mem_append_right _ hstring)
    · intro string hstring
      rw [List.length_map] at hstring
      exact List.mem_append_right _ (List.mem_append_right _ hstring)
  exact committed_eq_of_leaves hhash.injective
    (fun e he => hleafKnown e (List.mem_append_left _ he))
    (fun e he => hleafKnown e (List.mem_append_right _ he))
    (fun e he => hsigs e (List.mem_append_left _ he))
    (fun e he => hsigs e (List.mem_append_right _ he)) hleaves

end DopamintArena.Proof
