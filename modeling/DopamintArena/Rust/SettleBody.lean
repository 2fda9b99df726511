import DopamintArena.Proof.SettleBody
import DopamintArena.Rust.Wire

/-!
The settle body of `tunnel-core/src/wire.rs`. Roots and signatures are arrays
and integers are `u64` by type; a bad id and a message that does not fit its
length field are panics.

The TypeScript encoder wraps such a length instead, so its body reads back as
another one; and its decoder stops after the announced entries and shortens a
last entry that is cut off, so it accepts byte strings that neither encoder
writes.
-/

namespace DopamintArena.Rust

open Foundation
open DopamintArena.Proof (SettleBody SettleEntry HeaderFields decodeSettleBody announcedEnd)

def settleBodyVersion : UInt8 := 0x01

structure SettleBodyEntry where
  message : Bytes
  sigA : Bytes64
  sigB : Bytes64
deriving DecidableEq

/-- What the entry appends to the body. -/
def encodeSettleEntry (entry : SettleBodyEntry) : Except String Bytes := do
  require (entry.message.length < 65536)
    "transcript entry message length fits u16: TryFromIntError(())"
  pure (beBytes 2 entry.message.length ++ entry.message ++ entry.sigA.bytes ++ entry.sigB.bytes)

/-- The arguments of `encode_settle_body`. There are fewer than 2^32 entries, so that an array
of the other side holds them. -/
structure SettleInput where
  settlement : Settlement
  transcriptRoot : Bytes32
  sigA : Bytes64
  sigB : Bytes64
  transcriptEntries : List SettleBodyEntry
  length_transcriptEntries : transcriptEntries.length < 2 ^ 32

def encodeSettleBody (r : SettleInput) : Except String Bytes := do
  let id ← expect (addressToBytes32 r.settlement.tunnelId) "valid tunnel id"
  let entries ← r.transcriptEntries.mapM encodeSettleEntry
  pure ([settleBodyVersion] ++ id.bytes ++ u64ToBeBytes r.settlement.partyABalance ++
    u64ToBeBytes r.settlement.partyBBalance ++ u64ToBeBytes r.settlement.finalNonce ++
    u64ToBeBytes r.settlement.timestamp ++ r.transcriptRoot.bytes ++ r.sigA.bytes ++
    r.sigB.bytes ++ beBytes 4 (UInt32.ofNat r.transcriptEntries.length).toNat ++ entries.flatten)

def SettleBodyEntry.toProof (entry : SettleBodyEntry) : SettleEntry :=
  ⟨entry.message, entry.sigA.bytes, entry.sigB.bytes⟩

def SettleInput.toBody (r : SettleInput) : SettleBody where
  tunnelId := r.settlement.tunnelId
  partyABalance := r.settlement.partyABalance.toNat
  partyBBalance := r.settlement.partyBBalance.toNat
  finalNonce := r.settlement.finalNonce.toNat
  timestamp := r.settlement.timestamp.toNat
  transcriptRoot := r.transcriptRoot.bytes
  sigA := r.sigA.bytes
  sigB := r.sigB.bytes
  entries := r.transcriptEntries.map SettleBodyEntry.toProof
  length_entries := by
    rw [List.length_map]
    exact r.length_transcriptEntries

theorem encodeSettleEntry_of_lt {entry : SettleBodyEntry} (h : entry.message.length < 65536) :
    encodeSettleEntry entry = .ok entry.toProof.bytes := by
  rw [encodeSettleEntry, require_of h]
  rfl

theorem lt_of_encodeSettleEntries {entries : List SettleBodyEntry} {parts : List Bytes}
    (h : entries.mapM encodeSettleEntry = .ok parts) :
    ∀ entry ∈ entries, entry.message.length < 65536 := by
  induction entries generalizing parts with
  | nil => simp
  | cons _ _ ih =>
    simp only [List.mapM_cons, bind_ok_iff] at h
    obtain ⟨_, hentry, _, hrest, -⟩ := h
    simp only [encodeSettleEntry, returned] at hentry
    exact List.forall_mem_cons.mpr ⟨hentry.1, ih hrest⟩

namespace SettleInput

def header (r : SettleInput) : HeaderFields :=
  ⟨⟨Proof.id32 r.settlement.tunnelId, Proof.length_id32 _⟩, r.settlement.partyABalance,
    r.settlement.partyBBalance, r.settlement.finalNonce, r.settlement.timestamp, r.transcriptRoot,
    r.sigA, r.sigB, UInt32.ofNat r.transcriptEntries.length⟩

theorem header_of (r : SettleInput) : r.header.Of r.toBody := by
  refine ⟨rfl, rfl, rfl, rfl, rfl, rfl, rfl, rfl, ?_⟩
  rw [toBody, List.length_map]
  exact (UInt32.toNat_ofNat_of_lt' r.length_transcriptEntries).symm

/-- The other side encodes every such input. -/
theorem encode_toBody (r : SettleInput) :
    Proof.encodeSettleBody r.toBody =
      .ok (r.header.bytes ++ r.toBody.entries.flatMap SettleEntry.bytes) := by
  refine Proof.encodeSettleBody_ok_iff.mpr ⟨r.header, r.header_of, ?_, rfl⟩
  intro e he
  obtain ⟨entry, -, rfl⟩ := List.mem_map.mp he
  exact ⟨entry.sigA.length_bytes, entry.sigB.length_bytes⟩

theorem encode_eq {r : SettleInput} {id : Bytes32} (hid : r.settlement.tunnelId = textOf id)
    (hshort : ∀ entry ∈ r.transcriptEntries, entry.message.length < 65536) :
    encodeSettleBody r = .ok (r.header.bytes ++ r.toBody.entries.flatMap SettleEntry.bytes) := by
  have hrust : addressToBytes32 r.settlement.tunnelId = .ok id := by
    rw [hid, addressToBytes32_eq]
    exact Engine.addressToBytes32_toHex id
  have hentries := mapM_ok_of_forall fun entry hentry =>
    encodeSettleEntry_of_lt (hshort entry hentry)
  have hheader : r.header.id.bytes = id.bytes := by
    simp only [header, hid]
    exact Proof.id32_toHex id
  simp only [encodeSettleBody, hrust, expect, hentries, ok_bind, u64ToBeBytes_eq,
    HeaderFields.bytes, hheader, toBody, List.flatMap_map]
  rfl

end SettleInput

/-- Both encoders write the same bytes and the decoder returns what was encoded, exactly for
canonical ids and messages that fit their length field. A byte string that the decoder accepts
is one that the encoder writes, for the decoded body or for any whose messages fit, exactly
when it is as long as its count and its entries' lengths announce. -/
theorem settle_body_codec_iff (bytes : Bytes) (b : SettleBody) :
    (∀ r : SettleInput, ∃ written, Proof.encodeSettleBody r.toBody = .ok written ∧
      ((decodeSettleBody written = .ok r.toBody ∧ encodeSettleBody r = .ok written) ↔
        (∃ id : Bytes32, r.settlement.tunnelId = textOf id) ∧
          ∀ entry ∈ r.transcriptEntries, entry.message.length < 65536)) ∧
    (decodeSettleBody bytes = .ok b →
      (Proof.encodeSettleBody b = .ok bytes ↔ bytes.length = announcedEnd bytes) ∧
        ((∃ b' : SettleBody, (∀ e ∈ b'.entries, e.Short) ∧
          Proof.encodeSettleBody b' = .ok bytes) ↔ bytes.length = announcedEnd bytes)) := by
  refine ⟨fun r => ⟨_, r.encode_toBody, ?_⟩, Proof.encode_decode_iff⟩
  have hdecode := Proof.decode_encode_iff r.encode_toBody
  constructor
  · rintro ⟨hback, hrust⟩
    refine ⟨(hdecode.mp hback).1, ?_⟩
    simp only [encodeSettleBody, bind_ok_iff] at hrust
    obtain ⟨_, -, _, hentries, -⟩ := hrust
    exact lt_of_encodeSettleEntries hentries
  · rintro ⟨⟨id, hid⟩, hshort⟩
    refine ⟨hdecode.mpr ⟨⟨id, hid⟩, ?_⟩, SettleInput.encode_eq hid hshort⟩
    intro e he
    obtain ⟨entry, hentry, rfl⟩ := List.mem_map.mp he
    exact hshort entry hentry

def sampleHeader (count : UInt32) : HeaderFields :=
  ⟨Bytes32.fill 1, 60, 40, 9, 1000, Bytes32.fill 2, Bytes64.fill 3, Bytes64.fill 4, count⟩

def sampleInput : SettleInput where
  settlement := ⟨textOf (Bytes32.fill 1), 60, 40, 9, 1000⟩
  transcriptRoot := Bytes32.fill 2
  sigA := Bytes64.fill 3
  sigB := Bytes64.fill 4
  transcriptEntries := [⟨[5, 6, 7], Bytes64.fill 8, Bytes64.fill 9⟩]
  length_transcriptEntries := by decide

/-- A body with one entry, written by both encoders, read back, and written again. -/
theorem settle_body_codec_iff_one_entry :
    ∃ written, encodeSettleBody sampleInput = .ok written ∧
      decodeSettleBody written = .ok sampleInput.toBody ∧
      Proof.encodeSettleBody sampleInput.toBody = .ok written ∧
      written.length = announcedEnd written := by
  obtain ⟨written, hencode, hcodec⟩ := (settle_body_codec_iff [] sampleInput.toBody).1 sampleInput
  obtain ⟨hdecode, hrust⟩ := hcodec.mpr ⟨⟨Bytes32.fill 1, rfl⟩, by simp [sampleInput]⟩
  have hback := ((settle_body_codec_iff written sampleInput.toBody).2 hdecode).1
  exact ⟨written, hrust, hdecode, hencode, hback.mp hencode⟩

/-- What is written behind a header is nothing or at least one whole entry. -/
theorem length_written {f : HeaderFields} {rest : Bytes} {b : SettleBody}
    (h : Proof.encodeSettleBody b = .ok (f.bytes ++ rest)) : rest = [] ∨ 130 ≤ rest.length := by
  obtain ⟨f', -, hsigned, hbytes⟩ := Proof.encodeSettleBody_ok_iff.mp h
  have hrest := (List.append_inj hbytes (by rw [f.length_bytes, f'.length_bytes])).2
  rw [hrest]
  cases hentries : b.entries with
  | nil => exact .inl rfl
  | cons =>
    rw [hentries, List.forall_mem_cons] at hsigned
    right
    simp only [List.flatMap_cons, SettleEntry.bytes, Proof.u16, List.length_append,
      length_beBytes, hsigned.1.sigA, hsigned.1.sigB]
    omega

/-- One byte behind the last entry is ignored, and an entry of which only the length is left is
returned with empty signatures; the encoder writes neither byte string. -/
theorem decode_accepts_trailing_and_cut_off :
    decodeSettleBody ((sampleHeader 0).bytes ++ [7]) = .ok ((sampleHeader 0).body ⟨[], rfl⟩) ∧
      (∀ b, Proof.encodeSettleBody b ≠ .ok ((sampleHeader 0).bytes ++ [7])) ∧
      decodeSettleBody ((sampleHeader 1).bytes ++ [0, 0]) =
        .ok ((sampleHeader 1).body ⟨[⟨[], [], []⟩], rfl⟩) ∧
      (∀ b, Proof.encodeSettleBody b ≠ .ok ((sampleHeader 1).bytes ++ [0, 0])) ∧
      Proof.decodeSettleEntries [0, 0] = .error "truncated entry body" := by
  refine ⟨by decide +kernel, fun b h => ?_, by decide +kernel, fun b h => ?_, by decide +kernel⟩
  · have hlength := length_written h
    simp at hlength
  · have hlength := length_written h
    simp at hlength

end DopamintArena.Rust
