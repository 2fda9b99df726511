import DopamintArena.Engine.Seat
import DopamintArena.Proof.SettleBody
import DopamintArena.Proof.Transcript

/-!
The verifier of `proof/transcript.ts`. It folds four checks over the entries of
a settle body, or of reassembled chunks: both signatures, the order of the
nonces, the constant total, and the Merkle root against the anchor (and against
the header, if there is one).

No check reads the tunnel id of an entry or of the header. What ties the
entries to a tunnel is the anchor: a root commits to one list of messages and
signatures, so whoever anchored it decided which tunnel they are from.
-/

namespace DopamintArena.Proof

open Foundation
open DopamintArena.Engine (Crypto StateUpdate parseStateUpdate schemeEd25519 toHex stripHexMark
  hexPair toHex_inj)

def normRoot (hex : String) : String :=
  String.ofList ((stripHexMark hex.toList).map Char.toLower)

structure PartyKey where
  publicKey : Bytes
  scheme : Nat

structure VerifyParams where
  partyA : PartyKey
  partyB : PartyKey
  onchainRoot : String
  lockedTotal : Option Int

structure VerifiedStep where
  nonce : Int
  sigAValid : Bool
  sigBValid : Bool
  partyABalance : Int
  partyBBalance : Int
deriving DecidableEq

structure TranscriptVerification where
  ok : Bool
  rootMatches : Bool
  allSigsValid : Bool
  nonceMonotonic : Bool
  balancesConserved : Bool
  stepCount : Nat
  steps : List VerifiedStep
  failures : List String
deriving DecidableEq

structure Verifying where
  steps : List VerifiedStep
  leaves : List Bytes32
  allSigsValid : Bool
  nonceMonotonic : Bool
  balancesConserved : Bool
  prevNonce : Option Int
  total : Option Int

section Verifier

variable (crypto : Crypto)

def verifyEntry (params : VerifyParams) (s : Verifying) (e : SettleEntry) :
    Except String Verifying := do
  let su ← parseStateUpdate e.message
  let sigAValid := crypto.ed25519Verify e.sigA e.message params.partyA.publicKey
  let sigBValid := crypto.ed25519Verify e.sigB e.message params.partyB.publicKey
  let sum := su.partyABalance + su.partyBBalance
  pure
    { steps := s.steps ++ [⟨su.nonce, sigAValid, sigBValid, su.partyABalance, su.partyBBalance⟩]
      leaves := s.leaves ++
        [transcriptLeaf crypto.blake2b256 ⟨su.nonce, e.message, e.sigA, e.sigB⟩]
      allSigsValid := if !sigAValid || !sigBValid then false else s.allSigsValid
      nonceMonotonic := match s.prevNonce with
        | some prevNonce => if su.nonce ≤ prevNonce then false else s.nonceMonotonic
        | none => s.nonceMonotonic
      balancesConserved := match s.total with
        | some total => if sum ≠ total then false else s.balancesConserved
        | none => s.balancesConserved
      prevNonce := some su.nonce
      total := some (s.total.getD sum) }

def verifyStart (params : VerifyParams) : Verifying :=
  ⟨[], [], true, true, true, none, params.lockedTotal⟩

def verifyEntries (entries : List SettleEntry) (params : VerifyParams)
    (bodyHeaderRoot : Option String) : Except String TranscriptVerification := do
  require (params.partyA.scheme = schemeEd25519 ∧ params.partyB.scheme = schemeEd25519)
    "verifyTranscript currently supports ed25519 only"
  let s ← entries.foldlM (verifyEntry crypto params) (verifyStart params)
  let recomputed := toHex (transcriptRoot crypto.blake2b256 s.leaves).bytes
  let rootMatches := recomputed == normRoot params.onchainRoot &&
    match bodyHeaderRoot with
    | some root => recomputed == normRoot root
    | none => true
  let failures :=
    (if !rootMatches then ["merkle root does not match the on-chain anchor"] else []) ++
    (if !s.allSigsValid then ["one or more dual signatures are invalid"] else []) ++
    (if !s.nonceMonotonic then ["nonces are not strictly increasing"] else []) ++
    (if !s.balancesConserved then ["balance conservation violated"] else [])
  pure
    { ok := rootMatches && s.allSigsValid && s.nonceMonotonic && s.balancesConserved
      rootMatches
      allSigsValid := s.allSigsValid
      nonceMonotonic := s.nonceMonotonic
      balancesConserved := s.balancesConserved
      stepCount := entries.length
      steps := s.steps
      failures }

def verifyTranscript (blob : Bytes) (params : VerifyParams) :
    Except String TranscriptVerification := do
  let decoded ← decodeSettleBody blob
  verifyEntries crypto decoded.entries params (some (toHex decoded.transcriptRoot))

end Verifier

/-! ### The loop -/

def recorded (updates : List StateUpdate) (entries : List SettleEntry) : List TranscriptEntry :=
  List.zipWith (fun u e => ⟨u.nonce, e.message, e.sigA, e.sigB⟩) updates entries

/-- Both parties signed the entry's message. -/
structure CoSigned (crypto : Crypto) (params : VerifyParams) (e : SettleEntry) : Prop where
  partyA : crypto.ed25519Verify e.sigA e.message params.partyA.publicKey = true
  partyB : crypto.ed25519Verify e.sigB e.message params.partyB.publicKey = true

/-- All updates split one total, the given one if there is one. -/
def SplitTotal (given : Option Int) (updates : List StateUpdate) : Prop :=
  ∃ total, (∀ locked, given = some locked → locked = total) ∧
    ∀ u ∈ updates, u.partyABalance + u.partyBBalance = total

/-- What the loop has found out about `entries` when it started in `s`. -/
structure LoopSpec (crypto : Crypto) (params : VerifyParams) (s s' : Verifying)
    (entries : List SettleEntry) (updates : List StateUpdate) : Prop where
  parsed : entries.mapM (fun e => parseStateUpdate e.message) = .ok updates
  leaves : s'.leaves = s.leaves ++
    (recorded updates entries).map (transcriptLeaf crypto.blake2b256)
  signed : s'.allSigsValid = true ↔ s.allSigsValid = true ∧ ∀ e ∈ entries, CoSigned crypto params e
  ordered : s'.nonceMonotonic = true ↔ s.nonceMonotonic = true ∧
    (s.prevNonce.toList ++ updates.map StateUpdate.nonce).IsChain (· < ·)
  conserved : s'.balancesConserved = true ↔ s.balancesConserved = true ∧
    SplitTotal s.total updates

theorem splitTotal_nil (given : Option Int) : SplitTotal given [] :=
  ⟨given.getD 0, fun locked hlocked => by rw [hlocked]; rfl, by simp⟩

/-- After the first update the total is fixed. -/
theorem splitTotal_cons {given : Option Int} {u : StateUpdate} {updates : List StateUpdate} :
    SplitTotal given (u :: updates) ↔
      (∀ locked, given = some locked → u.partyABalance + u.partyBBalance = locked) ∧
        SplitTotal (some (given.getD (u.partyABalance + u.partyBBalance))) updates := by
  constructor
  · rintro ⟨total, hgiven, hall⟩
    rw [List.forall_mem_cons] at hall
    refine ⟨fun locked hlocked => hall.1.trans (hgiven locked hlocked).symm, total, ?_, hall.2⟩
    rintro locked ⟨rfl⟩
    cases given with
    | none => exact hall.1
    | some locked => exact hgiven locked rfl
  · rintro ⟨hgiven, total, htotal, hall⟩
    have hsame := htotal _ rfl
    refine ⟨total, fun locked hlocked => ?_, List.forall_mem_cons.mpr ⟨?_, hall⟩⟩
    · rw [hlocked] at hsame
      exact hsame
    · cases given with
      | none => exact hsame
      | some locked => exact (hgiven locked rfl).trans hsame

variable {s s' : Verifying}

/-- What the loop does with one entry. -/
theorem verifyEntry_spec {crypto : Crypto} {params : VerifyParams} {e : SettleEntry}
    (h : verifyEntry crypto params s e = .ok s') :
    ∃ u, parseStateUpdate e.message = .ok u ∧
      s'.leaves = s.leaves ++
        [transcriptLeaf crypto.blake2b256 ⟨u.nonce, e.message, e.sigA, e.sigB⟩] ∧
      (s'.allSigsValid = true ↔ s.allSigsValid = true ∧ CoSigned crypto params e) ∧
      (s'.nonceMonotonic = true ↔ s.nonceMonotonic = true ∧
        ∀ prevNonce, s.prevNonce = some prevNonce → prevNonce < u.nonce) ∧
      (s'.balancesConserved = true ↔ s.balancesConserved = true ∧
        ∀ locked, s.total = some locked → u.partyABalance + u.partyBBalance = locked) ∧
      s'.prevNonce = some u.nonce ∧
      s'.total = some (s.total.getD (u.partyABalance + u.partyBBalance)) := by
  simp only [verifyEntry, returned] at h
  obtain ⟨u, hparse, rfl⟩ := h
  refine ⟨u, hparse, rfl, ?_, ?_, ?_, rfl, rfl⟩
  · dsimp only
    constructor
    · intro hvalid
      split at hvalid
      · cases hvalid
      · rename_i hboth
        simp only [Bool.or_eq_true, Bool.not_eq_true', not_or, Bool.not_eq_false] at hboth
        exact ⟨hvalid, hboth.1, hboth.2⟩
    · rintro ⟨hvalid, hA, hB⟩
      rw [hA, hB]
      exact hvalid
  · dsimp only
    cases s.prevNonce with
    | none => simp
    | some =>
      simp only [Option.some.injEq, forall_eq']
      split
      · simp only [Bool.false_eq_true, false_iff, not_and, not_lt]
        exact fun _ => by assumption
      · rename_i hlater
        exact ⟨fun hbefore => ⟨hbefore, not_le.mp hlater⟩, fun hboth => hboth.1⟩
  · dsimp only
    cases s.total with
    | none => simp
    | some =>
      simp only [Option.some.injEq, forall_eq']
      split
      · rename_i hother
        simp only [Bool.false_eq_true, false_iff, not_and]
        exact fun _ => hother
      · rename_i hsame
        exact ⟨fun hbefore => ⟨hbefore, not_not.mp hsame⟩, fun hboth => hboth.1⟩

theorem foldlM_verifyEntry {crypto : Crypto} {params : VerifyParams} {entries : List SettleEntry}
    (h : entries.foldlM (verifyEntry crypto params) s = .ok s') :
    ∃ updates, LoopSpec crypto params s s' entries updates := by
  induction entries generalizing s with
  | nil =>
    rw [List.foldlM_nil, pure_ok_iff] at h
    subst h
    refine ⟨[], rfl, by simp [recorded], by simp, ?_, ?_⟩
    · cases s'.prevNonce <;> simp
    · simp [splitTotal_nil]
  | cons _ _ ih =>
    rw [List.foldlM_cons, bind_ok_iff] at h
    obtain ⟨_, hstep, hrest⟩ := h
    obtain ⟨u, hparse, hleaves, hsigned, hordered, hconserved, hprevNonce, htotal⟩ :=
      verifyEntry_spec hstep
    obtain ⟨updates, hspec⟩ := ih hrest
    refine ⟨u :: updates, ?_, ?_, ?_, ?_, ?_⟩
    · rw [List.mapM_cons, hparse, hspec.parsed]
      rfl
    · rw [hspec.leaves, hleaves, List.append_assoc]
      rfl
    · rw [hspec.signed, hsigned, List.forall_mem_cons, and_assoc]
    · rw [hspec.ordered, hordered, hprevNonce, and_assoc]
      apply and_congr_right
      cases s.prevNonce with
      | none => simp
      | some => simp
    · rw [hspec.conserved, hconserved, htotal, splitTotal_cons, and_assoc]

/-! ### What a verified transcript is -/

theorem length_parsed {entries : List SettleEntry} {updates : List StateUpdate}
    (h : entries.mapM (fun e => parseStateUpdate e.message) = .ok updates) :
    updates.length = entries.length := by
  induction entries generalizing updates with
  | nil =>
    rw [List.mapM_nil, pure_ok_iff] at h
    rw [h]
    rfl
  | cons _ _ ih =>
    simp only [List.mapM_cons, returned] at h
    obtain ⟨_, -, _, hlater, rfl⟩ := h
    rw [List.length_cons, List.length_cons, ih hlater]

theorem mem_parsed {entries : List SettleEntry} {updates : List StateUpdate}
    (h : entries.mapM (fun e => parseStateUpdate e.message) = .ok updates) :
    ∀ u ∈ updates, ∃ e ∈ entries, parseStateUpdate e.message = .ok u := by
  induction entries generalizing updates with
  | nil =>
    rw [List.mapM_nil, pure_ok_iff] at h
    simp [h]
  | cons e _ ih =>
    simp only [List.mapM_cons, returned] at h
    obtain ⟨_, hparse, _, hlater, rfl⟩ := h
    refine List.forall_mem_cons.mpr ⟨⟨e, List.mem_cons_self, hparse⟩, fun u' hu' => ?_⟩
    obtain ⟨e', he', hparse'⟩ := ih hlater u' hu'
    exact ⟨e', List.mem_cons_of_mem _ he', hparse'⟩

/-- What an entry commits to. -/
def SettleEntry.committed (e : SettleEntry) : Bytes × Bytes × Bytes := (e.message, e.sigA, e.sigB)

theorem recorded_committed {updates : List StateUpdate} {entries : List SettleEntry}
    (h : updates.length = entries.length) :
    (recorded updates entries).map TranscriptEntry.committed =
      entries.map SettleEntry.committed := by
  induction entries generalizing updates with
  | nil => simp [recorded]
  | cons _ _ ih =>
    cases updates with
    | nil => cases h
    | cons =>
      simp only [recorded, List.zipWith_cons_cons, List.map_cons, List.cons.injEq]
      exact ⟨rfl, ih (Nat.succ_injective h)⟩

theorem normRoot_toHex (bytes : Bytes) : normRoot (toHex bytes) = toHex bytes := by
  have hstrip : stripHexMark (bytes.flatMap hexPair) = bytes.flatMap hexPair := by
    unfold stripHexMark
    split
    · rename_i heq
      exact absurd rfl (Engine.hex_ne_mark heq).1
    · rename_i heq
      exact absurd rfl (Engine.hex_ne_mark heq).2
    · rfl
  rw [normRoot, toHex, String.toList_ofList, hstrip, Engine.map_toLower_hex]

/-- What the four checks say about entries and the updates in them. -/
structure Verified (crypto : Crypto) (params : VerifyParams) (entries : List SettleEntry)
    (updates : List StateUpdate) : Prop where
  parsed : entries.mapM (fun e => parseStateUpdate e.message) = .ok updates
  signed : ∀ e ∈ entries, CoSigned crypto params e
  ordered : (updates.map StateUpdate.nonce).Pairwise (· < ·)
  conserved : SplitTotal params.lockedTotal updates
  anchored : normRoot params.onchainRoot = toHex (transcriptRoot crypto.blake2b256
    ((recorded updates entries).map (transcriptLeaf crypto.blake2b256))).bytes

theorem verified_of_verifyEntries {crypto : Crypto} {params : VerifyParams}
    {entries : List SettleEntry} {bodyHeaderRoot : Option String} {v : TranscriptVerification}
    (h : verifyEntries crypto entries params bodyHeaderRoot = .ok v) (hok : v.ok = true) :
    ∃ updates, Verified crypto params entries updates ∧
      ∀ root, bodyHeaderRoot = some root → normRoot root = normRoot params.onchainRoot := by
  simp only [verifyEntries, returned] at h
  obtain ⟨-, s, hloop, rfl⟩ := h
  obtain ⟨updates, hspec⟩ := foldlM_verifyEntry hloop
  simp only [Bool.and_eq_true, beq_iff_eq] at hok
  obtain ⟨⟨⟨⟨hanchor, hheader⟩, hsigned⟩, hordered⟩, hconserved⟩ := hok
  have hleaves : s.leaves = (recorded updates entries).map (transcriptLeaf crypto.blake2b256) :=
    hspec.leaves
  refine ⟨updates, ⟨hspec.parsed, (hspec.signed.mp hsigned).2, ?_,
    (hspec.conserved.mp hconserved).2, ?_⟩, ?_⟩
  · exact List.isChain_iff_pairwise.mp (hspec.ordered.mp hordered).2
  · rw [← hanchor, hleaves]
  · rintro root rfl
    rw [beq_iff_eq] at hheader
    rw [← hheader, hanchor]

theorem length_recorded {updates : List StateUpdate} {entries : List SettleEntry}
    (hsigs : ∀ e ∈ entries, e.sigA.length = 64 ∧ e.sigB.length = 64) :
    ∀ e ∈ recorded updates entries, e.sigA.length = 64 ∧ e.sigB.length = 64 := by
  induction entries generalizing updates with
  | nil => simp [recorded]
  | cons _ _ ih =>
    cases updates with
    | nil => simp [recorded]
    | cons =>
      rw [List.forall_mem_cons] at hsigs
      simp only [recorded, List.zipWith_cons_cons]
      exact List.forall_mem_cons.mpr ⟨hsigs.1, ih hsigs.2⟩

namespace Verified

variable {crypto : Crypto} {params : VerifyParams} {entries : List SettleEntry}
  {updates : List StateUpdate}
variable {anchored : List TranscriptEntry}

/-- Whatever the anchor was computed from has the same messages and signatures. -/
theorem committed_eq (h : Verified crypto params entries updates)
    (hlength : ∀ signature message publicKey,
      crypto.ed25519Verify signature message publicKey = true → signature.length = 64)
    (hsigs : ∀ e ∈ anchored, e.sigA.length = 64 ∧ e.sigB.length = 64)
    (hanchor : normRoot params.onchainRoot = toHex (transcriptRoot crypto.blake2b256
      (anchored.map (transcriptLeaf crypto.blake2b256))).bytes)
    (hhash : HashesApart crypto.blake2b256
      (rootStrings crypto.blake2b256 (recorded updates entries) ++
        rootStrings crypto.blake2b256 anchored)) :
    entries.map SettleEntry.committed = anchored.map TranscriptEntry.committed := by
  have hroots := toHex_inj (h.anchored.symm.trans hanchor)
  have hrecorded : ∀ e ∈ recorded updates entries, e.sigA.length = 64 ∧ e.sigB.length = 64 :=
    length_recorded fun e he =>
      ⟨hlength _ _ _ (h.signed e he).partyA, hlength _ _ _ (h.signed e he).partyB⟩
  rw [← recorded_committed (length_parsed h.parsed)]
  apply committed_eq_of_root _ hhash hroots
  intro e he
  rcases List.mem_append.mp he with he | he
  · exact hrecorded e he
  · exact hsigs e he

/-- An anchor of one tunnel's updates verifies updates of that tunnel only. -/
theorem tunnelId_eq (h : Verified crypto params entries updates) {tunnelId : String}
    (hcommitted : entries.map SettleEntry.committed = anchored.map TranscriptEntry.committed)
    (htunnel : ∀ e ∈ anchored, ∀ u, parseStateUpdate e.message = .ok u → u.tunnelId = tunnelId) :
    ∀ u ∈ updates, u.tunnelId = tunnelId := by
  intro u hu
  obtain ⟨e, he, hparse⟩ := mem_parsed h.parsed u hu
  have hmem : e.committed ∈ anchored.map TranscriptEntry.committed := by
    rw [← hcommitted]
    exact List.mem_map_of_mem he
  obtain ⟨e', he', hsame⟩ := List.mem_map.mp hmem
  have hmessage : e'.message = e.message := congrArg Prod.fst hsame
  apply htunnel e' he'
  rw [hmessage]
  exact hparse

end Verified

/-- Every entry of a verified transcript is a co-signed update; their nonces increase, they split
one total, and the anchor is the root over exactly these entries in this order, as is the root
in the header. Whatever list of entries the anchor was computed from has the same messages and
signatures, so an anchor over the updates of one tunnel verifies no update of another. -/
theorem verifyTranscript_sound (crypto : Crypto) (hlength : ∀ signature message publicKey,
      crypto.ed25519Verify signature message publicKey = true → signature.length = 64)
    (blob : Bytes) (params : VerifyParams) (v : TranscriptVerification)
    (h : verifyTranscript crypto blob params = .ok v) (hok : v.ok = true) :
    ∃ (b : SettleBody) (updates : List StateUpdate), decodeSettleBody blob = .ok b ∧
      Verified crypto params b.entries updates ∧
      b.transcriptRoot = (transcriptRoot crypto.blake2b256
        ((recorded updates b.entries).map (transcriptLeaf crypto.blake2b256))).bytes ∧
      ∀ anchored : List TranscriptEntry,
        (∀ e ∈ anchored, e.sigA.length = 64 ∧ e.sigB.length = 64) →
        normRoot params.onchainRoot = toHex (transcriptRoot crypto.blake2b256
          (anchored.map (transcriptLeaf crypto.blake2b256))).bytes →
        HashesApart crypto.blake2b256 (rootStrings crypto.blake2b256 (recorded updates b.entries) ++
          rootStrings crypto.blake2b256 anchored) →
        b.entries.map SettleEntry.committed = anchored.map TranscriptEntry.committed ∧
          ∀ tunnelId, (∀ e ∈ anchored, ∀ u, parseStateUpdate e.message = .ok u →
            u.tunnelId = tunnelId) → ∀ u ∈ updates, u.tunnelId = tunnelId := by
  simp only [verifyTranscript, bind_ok_iff] at h
  obtain ⟨b, hdecode, hverify⟩ := h
  obtain ⟨updates, hverified, hheader⟩ := verified_of_verifyEntries hverify hok
  refine ⟨b, updates, hdecode, hverified, ?_, ?_⟩
  · have hroot := hheader _ rfl
    obtain ⟨_, -, _, -, -, rfl⟩ := decodeSettleBody_ok_iff.mp hdecode
    rw [normRoot_toHex, hverified.anchored] at hroot
    exact congrArg Bytes32.bytes (toHex_inj hroot)
  · intro anchored hsigs hanchor hhash
    have hcommitted := hverified.committed_eq hlength hsigs hanchor hhash
    exact ⟨hcommitted, fun _ => hverified.tunnelId_eq hcommitted⟩

/-! ### A transcript of other tunnels -/

/-- The sum of the bytes, with the length in the last place. -/
def sumDigest (bytes : Bytes) : Bytes32 :=
  ⟨List.replicate 31 (bytes.foldl (· + ·) 1) ++ [bytes.length.toUInt8], by simp⟩

def sumSign (message publicKey : Bytes) : Bytes :=
  publicKey ++ (sumDigest message).bytes

/-- A key signs a message by itself next to the digest. -/
def sumCrypto : Crypto where
  blake2b256 := sumDigest
  ed25519Verify signature message publicKey :=
    signature.length == 64 && signature == sumSign message publicKey

def keyA : Bytes := List.replicate 32 10
def keyB : Bytes := List.replicate 32 11

/-- An update of the tunnel whose id is made of `tunnel`, signed with both keys. -/
def signedUpdate (tunnel : UInt8) (nonce : UInt64) : SettleEntry :=
  let message := Move.serializeStateUpdate
    ⟨Bytes32.fill tunnel, List.replicate 32 0, nonce, 1000, 60, 40⟩
  ⟨message, sumSign message keyA, sumSign message keyB⟩

def sampleLeaves (entries : List SettleEntry) : List Bytes32 :=
  entries.map fun e => transcriptLeaf sumDigest ⟨0, e.message, e.sigA, e.sigB⟩

/-- The header of a settle body of the tunnel `0x0101…` over two entries. -/
def sampleFields (first second : SettleEntry) : HeaderFields :=
  ⟨Bytes32.fill 1, 60, 40, 2, 1000, transcriptRoot sumDigest (sampleLeaves [first, second]),
    Bytes64.fill 3, Bytes64.fill 4, 2⟩

def sampleBlob (first second : SettleEntry) : Bytes :=
  (sampleFields first second).bytes ++ (first.bytes ++ second.bytes)

def sampleParams (first second : SettleEntry) : VerifyParams where
  partyA := ⟨keyA, schemeEd25519⟩
  partyB := ⟨keyB, schemeEd25519⟩
  onchainRoot := "0x" ++ toHex (transcriptRoot sumDigest (sampleLeaves [first, second])).bytes
  lockedTotal := some 100

/-- The verdict in which every check passes. -/
def allPassed : TranscriptVerification where
  ok := true
  rootMatches := true
  allSigsValid := true
  nonceMonotonic := true
  balancesConserved := true
  stepCount := 2
  steps := [⟨1, true, true, 60, 40⟩, ⟨2, true, true, 60, 40⟩]
  failures := []

/-- The update of `signedUpdate` as it is parsed. -/
def sampleUpdate (tunnel : UInt8) (nonce : UInt64) : StateUpdate :=
  ⟨"0x" ++ toHex (Bytes32.fill tunnel).bytes, List.replicate 32 0, nonce.toNat, 1000, 60, 40⟩

/-- Two updates of one tunnel, and their anchor as computed from a transcript of them. -/
theorem verifyTranscript_sound_two_updates :
    ∃ (b : SettleBody) (updates : List StateUpdate),
      decodeSettleBody (sampleBlob (signedUpdate 1 1) (signedUpdate 1 2)) = .ok b ∧
        Verified sumCrypto (sampleParams (signedUpdate 1 1) (signedUpdate 1 2)) b.entries updates ∧
        ∀ u ∈ updates, u.tunnelId = "0x" ++ toHex (Bytes32.fill 1).bytes := by
  have hlength : ∀ signature message publicKey,
      sumCrypto.ed25519Verify signature message publicKey = true → signature.length = 64 := by
    intro signature message publicKey hverify
    simp only [sumCrypto, Bool.and_eq_true, beq_iff_eq] at hverify
    exact hverify.1
  obtain ⟨_, _, hdecode, hverified, -, hanchored⟩ := verifyTranscript_sound sumCrypto hlength
    (sampleBlob (signedUpdate 1 1) (signedUpdate 1 2))
    (sampleParams (signedUpdate 1 1) (signedUpdate 1 2)) allPassed (by decide +kernel) rfl
  have hbody : decodeSettleBody (sampleBlob (signedUpdate 1 1) (signedUpdate 1 2)) =
      .ok ((sampleFields (signedUpdate 1 1) (signedUpdate 1 2)).body
        ⟨[signedUpdate 1 1, signedUpdate 1 2], rfl⟩) := by decide +kernel
  obtain rfl := Except.ok.inj (hbody.symm.trans hdecode)
  have hupdates : [signedUpdate 1 1, signedUpdate 1 2].mapM
      (fun e => parseStateUpdate e.message) = .ok [sampleUpdate 1 1, sampleUpdate 1 2] := by
    decide +kernel
  obtain rfl := Except.ok.inj (hupdates.symm.trans hverified.parsed)
  have hstrings : ∀ s ∈ rootStrings sumDigest (recorded [sampleUpdate 1 1, sampleUpdate 1 2]
      [signedUpdate 1 1, signedUpdate 1 2]), sumDigest s ≠ zero32 ∧
      ∀ t ∈ rootStrings sumDigest (recorded [sampleUpdate 1 1, sampleUpdate 1 2]
        [signedUpdate 1 1, signedUpdate 1 2]), sumDigest s = sumDigest t → s = t := by
    decide +kernel
  have hmem : ∀ {strings : List Bytes} {s : Bytes}, s ∈ strings ++ strings → s ∈ strings := by
    intro strings s hs
    exact (List.mem_append.mp hs).elim id id
  have htunnel := (hanchored (recorded [sampleUpdate 1 1, sampleUpdate 1 2]
    [signedUpdate 1 1, signedUpdate 1 2]) (by decide +kernel) (by decide +kernel)
    ⟨fun s hs t ht => (hstrings s (hmem hs)).2 t (hmem ht), fun s hs => (hstrings s (hmem hs)).1⟩).2
  have hparsed : ∀ e ∈ recorded [sampleUpdate 1 1, sampleUpdate 1 2]
      [signedUpdate 1 1, signedUpdate 1 2], (parseStateUpdate e.message).map StateUpdate.tunnelId =
        .ok ("0x" ++ toHex (Bytes32.fill 1).bytes) := by decide +kernel
  refine ⟨_, _, hdecode, hverified, htunnel _ fun e he u hu => ?_⟩
  have hid := hparsed e he
  rw [hu] at hid
  exact Except.ok.inj hid

/-- A body of one tunnel verifies with updates that the same two keys signed for two others. -/
theorem other_tunnels_verify :
    verifyTranscript sumCrypto (sampleBlob (signedUpdate 2 1) (signedUpdate 3 2))
        (sampleParams (signedUpdate 2 1) (signedUpdate 3 2)) = .ok allPassed ∧
      ((decodeSettleBody (sampleBlob (signedUpdate 2 1) (signedUpdate 3 2))).map fun b =>
        (b.tunnelId, b.entries.map fun e => (parseStateUpdate e.message).map
          StateUpdate.tunnelId)) =
        .ok ("0x" ++ toHex (Bytes32.fill 1).bytes,
          [.ok ("0x" ++ toHex (Bytes32.fill 2).bytes),
            .ok ("0x" ++ toHex (Bytes32.fill 3).bytes)]) := by
  constructor <;> decide +kernel

end DopamintArena.Proof
