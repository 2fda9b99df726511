import DopamintArena.Backend.TranscriptStream

/-!
When a sealed transcript can be read back. Whatever the flushes, the chunks and
the buffer are the encodings of the entries in order, the chunks are numbered
from 0, and the counters follow them. The seal does not wait for the uploads and
does not look at their outcome: the manifest promises all chunks, so it is good
exactly if every upload has been stored by then.
-/

namespace DopamintArena.Backend

open Foundation
open DopamintArena.Rust (TranscriptEntry TranscriptSettleEntry SettleBodyEntry encodeSettleEntry
  serializeStateUpdate RootOnlyState RecordError)

/-! ### Keys -/

theorem ofDigitChars_padded (zeros : Nat) (digits : List Char) :
    Nat.ofDigitChars 10 (List.replicate zeros '0' ++ digits) 0 = Nat.ofDigitChars 10 digits 0 := by
  induction zeros with
  | zero => rfl
  | succ _ ih => simpa [List.replicate_succ, Nat.ofDigitChars] using ih

theorem paddedSeq_inj {x y : UInt32} (h : paddedSeq x = paddedSeq y) : x = y := by
  have hvalue := congrArg (Nat.ofDigitChars 10 · 0) (String.ofList_inj.mp h)
  simp only [ofDigitChars_padded, Nat.ofDigitChars_toDigits (by decide : 1 < 10) (le_refl 10)]
    at hvalue
  exact UInt32.toNat_inj.mp hvalue

theorem chunkKey_inj {pfx tunnelId : String} {x y : UInt32}
    (h : chunkKey pfx tunnelId x = chunkKey pfx tunnelId y) : x = y := by
  simp only [chunkKey, String.append_right_inj, String.append_left_inj] at h
  exact paddedSeq_inj h

/-! ### Entries -/

/-- What recording an entry appends to the buffer. -/
def encodeEntry {Move : Type} (tunnelId : String) (entry : TranscriptEntry Move) :
    Except String Bytes := do
  let settleEntry ← TranscriptSettleEntry.fromTranscriptEntry tunnelId entry
  encodeSettleEntry ⟨settleEntry.message, settleEntry.sigA, settleEntry.sigB⟩

/-- The settle entry as a reader of the transcript gets it. -/
def readEntry (e : TranscriptSettleEntry) : Proof.SettleEntry :=
  SettleBodyEntry.toProof ⟨e.message, e.sigA, e.sigB⟩

theorem length_serializeStateUpdate {u : Rust.StateUpdate} {message : Bytes}
    (h : serializeStateUpdate u = .ok message) : message.length = 120 := by
  simp only [serializeStateUpdate, returned] at h
  obtain ⟨_, -, rfl⟩ := h
  simp [Rust.u64ToBeBytes, bytesOf]

/-- An encoded entry is one that reads back, and takes 250 bytes. -/
theorem encodeEntry_ok {Move : Type} {tunnelId : String} {entry : TranscriptEntry Move}
    {part : Bytes} (h : encodeEntry tunnelId entry = .ok part) :
    ∃ e, TranscriptSettleEntry.fromTranscriptEntry tunnelId entry = .ok e ∧
      part = (readEntry e).bytes ∧ (readEntry e).Short ∧ part.length = 250 := by
  simp only [encodeEntry, bind_ok_iff] at h
  obtain ⟨e, he, hpart⟩ := h
  have hlength : e.message.length = 120 := by
    simp only [TranscriptSettleEntry.fromTranscriptEntry, returned] at he
    obtain ⟨message, hmessage, rfl⟩ := he
    exact length_serializeStateUpdate hmessage
  have hshort : e.message.length < 65536 := by omega
  rw [Rust.encodeSettleEntry_of_lt hshort, Except.ok.injEq] at hpart
  refine ⟨e, he, hpart.symm, hshort, ?_⟩
  simp [← hpart, Proof.SettleEntry.bytes, SettleBodyEntry.toProof, Proof.u16, hlength]

theorem decode_encodeEntries {Move : Type} {tunnelId : String}
    {entries : List (TranscriptEntry Move)} {parts : List Bytes}
    (h : entries.mapM (encodeEntry tunnelId) = .ok parts) :
    ∃ es, entries.mapM (TranscriptSettleEntry.fromTranscriptEntry tunnelId) = .ok es ∧
      Proof.decodeSettleEntries parts.flatten = .ok (es.map readEntry) := by
  have hread : ∃ es, entries.mapM (TranscriptSettleEntry.fromTranscriptEntry tunnelId) = .ok es ∧
      parts = es.map (fun e => (readEntry e).bytes) ∧ ∀ e ∈ es, (readEntry e).Short := by
    induction entries generalizing parts with
    | nil =>
      cases h
      exact ⟨[], rfl, rfl, by simp⟩
    | cons _ _ ih =>
      simp only [List.mapM_cons, returned] at h
      obtain ⟨_, hpart, _, hlater, rfl⟩ := h
      obtain ⟨e, he, rfl, hshort, -⟩ := encodeEntry_ok hpart
      obtain ⟨es, hes, rfl, hshorts⟩ := ih hlater
      refine ⟨e :: es, ?_, rfl, List.forall_mem_cons.mpr ⟨hshort, hshorts⟩⟩
      rw [List.mapM_cons, he, hes]
      rfl
  obtain ⟨es, hes, rfl, hshort⟩ := hread
  refine ⟨es, hes, ?_⟩
  have hflat : (es.map fun e => (readEntry e).bytes).flatten =
      (es.map readEntry).flatMap Proof.SettleEntry.bytes := by
    rw [List.flatMap_map, List.flatMap_def]
  rw [hflat]
  apply Proof.decodeSettleEntries_bytes
  · intro e he
    obtain ⟨e, -, rfl⟩ := List.mem_map.mp he
    exact ⟨e.sigA.length_bytes, e.sigB.length_bytes⟩
  · intro e he
    obtain ⟨e, hmem, rfl⟩ := List.mem_map.mp he
    exact hshort e hmem

/-! ### The recorder on its own -/

def S3StreamingRecorder.setup (r : S3StreamingRecorder) : String × Bool × Bool :=
  (r.tunnelId, r.tx, r.writer)

variable {r' : S3StreamingRecorder}

theorem setup_record {Move : Type} {r : S3StreamingRecorder} {blake2b256 : Bytes → Bytes32}
    {entry : TranscriptEntry Move} {now later : Nat} {chunk : Option ChunkUpload}
    (h : r.record blake2b256 entry now later = .ok (r', chunk)) :
    r'.setup = r.setup ∧ (r.tx = false → chunk = none) := by
  unfold S3StreamingRecorder.record at h
  split at h
  · simp only [returned, Prod.mk.injEq] at h
    obtain ⟨inner, -, rfl, rfl⟩ := h
    exact ⟨rfl, fun _ => rfl⟩
  · simp only [bind_ok_iff] at h
    obtain ⟨_, -, _, -, _, -, -, -, h⟩ := h
    split at h
    · rename_i hflush
      simp only [pure_ok_iff, Prod.mk.injEq] at h
      obtain ⟨rfl, rfl⟩ := h
      exact ⟨rfl, fun htx => absurd hflush.1 (by simp [htx])⟩
    · simp only [pure_ok_iff, Prod.mk.injEq] at h
      obtain ⟨rfl, rfl⟩ := h
      exact ⟨rfl, fun _ => rfl⟩

theorem setup_takeTail {r : S3StreamingRecorder} {tail : Option ChunkUpload}
    (h : r.takeTail = (r', tail)) : r'.setup = r.setup := by
  unfold S3StreamingRecorder.takeTail at h
  split at h <;> obtain ⟨rfl, -⟩ := Prod.mk.inj h <;> rfl

/-- The entries encoded so far are the chunks and the buffer; the chunks are numbered from 0
and the counters follow them. A recorder without a sink buffers nothing. -/
structure Chunked {Move : Type} (r : S3StreamingRecorder) (chunks : List ChunkUpload)
    (recorded : List (TranscriptEntry Move)) : Prop where
  encoded : r.tx = true ∨ r.writer = true → ∃ parts,
    recorded.mapM (encodeEntry r.tunnelId) = .ok parts ∧
      parts.flatten = chunks.flatMap ChunkUpload.bytes ++ r.buf.bytes
  numbered : chunks.map ChunkUpload.seq = (List.range chunks.length).map UInt32.ofNat
  each : ∀ c ∈ chunks, c.tunnelId = r.tunnelId ∧ c.bytes ≠ [] ∧ c.bytes.length ≤ isizeMax
  seq : r.buf.seq = UInt32.ofNat chunks.length
  totalBytes : r.buf.totalBytes = UInt64.ofNat (chunks.map fun c => c.bytes.length).sum
  buffered : r.buf.bytes.length ≤ isizeMax
  streamed : r.tx = true → r.buf.bytes.length < chunkTarget ∧
    ∀ c ∈ chunks, c.bytes.length < 2 ^ 32

namespace Chunked

variable {Move : Type} {r : S3StreamingRecorder} {chunks : List ChunkUpload}
  {recorded : List (TranscriptEntry Move)}
variable {r' : S3StreamingRecorder}

theorem new (tunnelId : String) (tx writer : Bool) :
    Chunked (.new tunnelId tx writer) [] ([] : List (TranscriptEntry Move)) where
  encoded _ := ⟨[], rfl, rfl⟩
  numbered := rfl
  each := by simp
  seq := rfl
  totalBytes := rfl
  buffered := Nat.zero_le _
  streamed _ := ⟨Nat.succ_pos _, by simp⟩

section

variable (h : Chunked r chunks recorded)
include h

theorem with_inner (inner : RootOnlyState) :
    Chunked { r with inner } chunks recorded :=
  ⟨h.encoded, h.numbered, h.each, h.seq, h.totalBytes, h.buffered, h.streamed⟩

theorem takeChunk {bytes : Bytes} {recorded' : List (TranscriptEntry Move)} (hbytes : bytes ≠ [])
    (hfits : bytes.length ≤ isizeMax) (hstreamed : r.tx = true → bytes.length < 2 ^ 32)
    (hencoded : r.tx = true ∨ r.writer = true → ∃ parts,
      recorded'.mapM (encodeEntry r.tunnelId) = .ok parts ∧
        parts.flatten = chunks.flatMap ChunkUpload.bytes ++ bytes) :
    Chunked (r.takeChunk bytes).1 (chunks ++ [(r.takeChunk bytes).2]) recorded' where
  encoded hsink := by
    obtain ⟨parts, hparts, hflat⟩ := hencoded hsink
    exact ⟨parts, hparts, by simp [S3StreamingRecorder.takeChunk, hflat]⟩
  numbered := by
    simp [h.numbered, h.seq, S3StreamingRecorder.takeChunk, List.range_succ]
  each c hc := by
    rcases List.mem_append.mp hc with hold | hnew
    · exact h.each c hold
    · rw [List.mem_singleton.mp hnew]
      exact ⟨rfl, hbytes, hfits⟩
  seq := by
    simp [h.seq, S3StreamingRecorder.takeChunk]
  totalBytes := by
    simp [h.totalBytes, S3StreamingRecorder.takeChunk]
  buffered := Nat.zero_le _
  streamed htx := by
    refine ⟨by simp [S3StreamingRecorder.takeChunk, chunkTarget], ?_⟩
    intro c hc
    rcases List.mem_append.mp hc with hold | hnew
    · exact (h.streamed htx).2 c hold
    · rw [List.mem_singleton.mp hnew]
      exact hstreamed htx

theorem record {blake2b256 : Bytes → Bytes32} {entry : TranscriptEntry Move} {now later : Nat}
    {chunk : Option ChunkUpload} (hrecord : r.record blake2b256 entry now later = .ok (r', chunk)) :
    Chunked r' (chunks ++ chunk.toList) (recorded ++ [entry]) := by
  unfold S3StreamingRecorder.record at hrecord
  split at hrecord
  · rename_i hnone
    simp only [returned, Prod.mk.injEq] at hrecord
    obtain ⟨inner, -, rfl, rfl⟩ := hrecord
    have hsink : ¬(r.tx = true ∨ r.writer = true) := by simp [hnone.1, hnone.2]
    have hkept := h.with_inner inner
    rw [Option.toList_none, List.append_nil]
    exact ⟨fun h => absurd h hsink, hkept.numbered, hkept.each, hkept.seq, hkept.totalBytes,
      hkept.buffered, hkept.streamed⟩
  · rename_i hsome
    simp only [returned, RecordError.ofPanic, mapError_ok_iff] at hrecord
    obtain ⟨_, he, inner, -, part, hpart, hfits, hrest⟩ := hrecord
    have hencode : encodeEntry r.tunnelId entry = .ok part := by
      rw [encodeEntry, he, ok_bind]
      exact hpart
    obtain ⟨-, -, -, -, hlength⟩ := encodeEntry_ok hencode
    have hsink : r.tx = true ∨ r.writer = true := by
      cases htx : r.tx <;> cases hwriter : r.writer <;> simp_all
    have hencoded : r.tx = true ∨ r.writer = true → ∃ parts,
        (recorded ++ [entry]).mapM (encodeEntry r.tunnelId) = .ok parts ∧
          parts.flatten = chunks.flatMap ChunkUpload.bytes ++ (r.buf.bytes ++ part) := by
      intro _
      obtain ⟨parts, hparts, hflat⟩ := h.encoded hsink
      exact ⟨parts ++ [part], mapM_concat hparts hencode, by simp [hflat]⟩
    split at hrest
    · simp only [pure_ok_iff, Prod.mk.injEq] at hrest
      obtain ⟨rfl, rfl⟩ := hrest
      apply (h.with_inner inner).takeChunk _ hfits _ hencoded
      · intro hnil
        rw [(List.append_eq_nil_iff.mp hnil).2] at hlength
        cases hlength
      · intro htx
        have hbuf := (h.streamed htx).1
        rw [List.length_append, hlength]
        simp only [chunkTarget] at hbuf
        omega
    · rename_i hkeep
      simp only [pure_ok_iff, Prod.mk.injEq] at hrest
      obtain ⟨rfl, rfl⟩ := hrest
      rw [Option.toList_none, List.append_nil]
      refine ⟨hencoded, h.numbered, h.each, h.seq, h.totalBytes, hfits, ?_⟩
      intro htx
      refine ⟨?_, (h.streamed htx).2⟩
      by_contra hfull
      exact hkeep ⟨htx, .inl (not_lt.mp hfull)⟩

theorem takeTail {tail : Option ChunkUpload} (htail : r.takeTail = (r', tail)) :
    Chunked r' (chunks ++ tail.toList) recorded ∧ r'.buf.bytes = [] := by
  unfold S3StreamingRecorder.takeTail at htail
  split at htail
  · rename_i hempty
    obtain ⟨rfl, rfl⟩ := Prod.mk.inj htail
    rw [Option.toList_none, List.append_nil]
    exact ⟨h, hempty⟩
  · rename_i hbytes
    obtain ⟨rfl, rfl⟩ := Prod.mk.inj htail
    refine ⟨h.takeChunk hbytes h.buffered ?_ h.encoded, rfl⟩
    intro htx
    have hbuf := (h.streamed htx).1
    simp only [chunkTarget] at hbuf
    omega

theorem seq_getElem {i : Nat} {c : ChunkUpload} (hc : chunks[i]? = some c) :
    c.seq = UInt32.ofNat i := by
  have hget := congrArg (fun l => l[i]?) h.numbered
  obtain ⟨hi, -⟩ := List.getElem?_eq_some_iff.mp hc
  simpa [hc, List.getElem?_range hi] using hget

end

end Chunked

/-! ### The uploads -/

/-- The bucket holds the chunks that were stored. -/
structure Holding (store : TranscriptStore) (tunnelId : String) (stored : ChunkUpload → Prop) :
    Prop where
  source : ∀ key bytes, store.objects key = some bytes →
    ∃ c, stored c ∧ key = chunkKey store.pfx tunnelId c.seq ∧ c.bytes = bytes
  present : ∀ c, stored c → (store.objects (chunkKey store.pfx tunnelId c.seq)).isSome = true

namespace Holding

variable {store : TranscriptStore} {tunnelId : String} {stored stored' : ChunkUpload → Prop}

theorem congr (h : Holding store tunnelId stored) (hsame : ∀ c, stored' c ↔ stored c) :
    Holding store tunnelId stored' := by
  have heq : stored' = stored := funext fun c => propext (hsame c)
  rw [heq]
  exact h

theorem put (h : Holding store tunnelId stored) {upload : ChunkUpload}
    (htunnel : upload.tunnelId = tunnelId) (hsame : ∀ c, stored' c ↔ c = upload ∨ stored c) :
    Holding (store.putChunk upload.tunnelId upload.seq upload.bytes) tunnelId stored' := by
  subst htunnel
  constructor
  · intro key bytes hkey
    rcases eq_or_ne key (chunkKey store.pfx upload.tunnelId upload.seq) with rfl | hne
    · refine ⟨upload, (hsame upload).mpr (.inl rfl), rfl, ?_⟩
      simpa [TranscriptStore.putChunk] using hkey
    · have hold : store.objects key = some bytes := by
        simpa [TranscriptStore.putChunk, Function.update_of_ne hne] using hkey
      obtain ⟨c, hc, hrest⟩ := h.source key bytes hold
      exact ⟨c, (hsame c).mpr (.inr hc), hrest⟩
  · intro c hc
    simp only [TranscriptStore.putChunk]
    rcases eq_or_ne (chunkKey store.pfx upload.tunnelId c.seq)
      (chunkKey store.pfx upload.tunnelId upload.seq) with heq | hne
    · rw [heq, Function.update_self]
      rfl
    · rw [Function.update_of_ne hne]
      rcases (hsame c).mp hc with rfl | hold
      · exact absurd rfl hne
      · exact h.present c hold

end Holding

namespace Stream

variable {Move : Type} {s : Stream Move}
variable {seq : UInt32} {bytes : Bytes}

/-- The chunk is among the stored ones. -/
def Stored (s : Stream Move) (c : ChunkUpload) : Prop := (c, Fate.stored) ∈ s.uploads

/-- What holds between the recorder, its uploads, the bucket and the manifest. -/
structure Sound (s : Stream Move) : Prop where
  chunked : Chunked s.recorder (s.uploads.map Prod.fst) s.recorded
  holding : Holding s.store s.recorder.tunnelId s.Stored
  lone : s.recorder.tx = false → (s.phase = .playing → s.uploads = []) ∧ s.uploads.length ≤ 1
  flushed : s.phase ≠ .playing → s.recorder.buf.bytes = [] ∧ s.recorder.writer = true
  promised : ∀ manifest, s.store.manifests s.recorder.tunnelId = some manifest →
    s.phase = .finished ∧ manifest.chunkCount = s.recorder.buf.seq ∧
      manifest.totalBytes = s.recorder.buf.totalBytes

theorem mem_set_of_ne {α : Type} {l : List α} {i : Nat} {old new x : α} (hold : l[i]? = some old)
    (hx : x ≠ old) : x ∈ l.set i new ↔ x = new ∨ x ∈ l := by
  obtain ⟨hi, -⟩ := List.getElem?_eq_some_iff.mp hold
  constructor
  · intro hmem
    exact (List.mem_or_eq_of_mem_set hmem).symm
  · rintro (rfl | hmem)
    · exact List.mem_set hi _
    · obtain ⟨j, hj⟩ := List.mem_iff_getElem?.mp hmem
      rcases eq_or_ne i j with rfl | hne
      · exact absurd (Option.some.inj (hj.symm.trans hold)) hx
      · exact List.mem_iff_getElem?.mpr ⟨j, by rw [List.getElem?_set_ne hne, hj]⟩

theorem Sound.start (pfx tunnelId : String) (tx writer : Bool) :
    (Stream.start pfx tunnelId tx writer : Stream Move).Sound where
  chunked := Chunked.new tunnelId tx writer
  holding := ⟨by rintro _ _ ⟨⟩, by rintro _ ⟨⟩⟩
  lone _ := ⟨fun _ => rfl, Nat.zero_le _⟩
  flushed h := absurd rfl h
  promised _ h := by cases h

/-- Before the end of the match there is no manifest. -/
theorem Sound.unsealed (h : s.Sound) (hphase : s.phase ≠ .finished) :
    s.store.manifests s.recorder.tunnelId = none := by
  by_contra hsome
  obtain ⟨manifest, hmanifest⟩ := Option.ne_none_iff_exists'.mp hsome
  exact hphase (h.promised manifest hmanifest).1

/-- What the uploads carry, whatever becomes of the last one. -/
theorem map_fst_append (chunk : Option ChunkUpload) (fate : Fate) :
    (s.uploads ++ (chunk.map fun upload => (upload, fate)).toList).map Prod.fst =
      s.uploads.map Prod.fst ++ chunk.toList := by
  cases chunk <;> simp

section Steps

variable {blake2b256 : Bytes → Bytes32}
variable {s' : Stream Move} {succeeds : Bool}

section

variable (h : s.Sound)
include h

theorem Sound.record {entry : TranscriptEntry Move} {now later : Nat} {delivered : Bool}
    (hstep : step blake2b256 s (.record entry now later delivered) = .ok s') :
    s'.Sound := by
  simp only [Stream.step, returned, mapError_ok_iff] at hstep
  obtain ⟨hplaying, ⟨_, chunk⟩, hrecord, rfl⟩ := hstep
  obtain ⟨hsetup, hchunk⟩ := setup_record hrecord
  simp only [S3StreamingRecorder.setup, Prod.mk.injEq] at hsetup
  obtain ⟨htunnel, htx, _⟩ := hsetup
  have hstored : ∀ c, (c, Fate.stored) ∉
      (chunk.map fun upload => (upload, if delivered then Fate.queued else Fate.dropped)).toList := by
    intro c
    cases chunk <;> cases delivered <;> simp
  refine ⟨?_, ?_, ?_, ?_, ?_⟩
  · rw [map_fst_append]
    exact h.chunked.record hrecord
  · simp only [htunnel]
    apply h.holding.congr
    intro c
    simp [Stored, hstored c]
  · intro hfalse
    simp only [htx] at hfalse
    have hnone := hchunk hfalse
    subst hnone
    simpa using h.lone hfalse
  · intro hphase
    exact absurd hplaying hphase
  · intro manifest hmanifest
    simp only [htunnel] at hmanifest
    rw [h.unsealed (by rw [hplaying]; simp)] at hmanifest
    cases hmanifest

theorem Sound.put {index : Nat} (hstep : step blake2b256 s (.put index succeeds) = .ok s') :
    s'.Sound := by
  simp only [Stream.step] at hstep
  split at hstep
  · rename_i upload hget
    cases hstep
    have hmap : ∀ fate : Fate, (s.uploads.set index (upload, fate)).map Prod.fst =
        s.uploads.map Prod.fst := by
      intro fate
      obtain ⟨hi, hupload⟩ := List.getElem?_eq_some_iff.mp hget
      have hsame := List.set_getElem_self
        (show index < (s.uploads.map Prod.fst).length by simpa using hi)
      rw [List.getElem_map, hupload] at hsame
      rw [List.map_set, hsame]
    have hmem : upload ∈ s.uploads.map Prod.fst :=
      List.mem_map.mpr ⟨_, List.mem_iff_getElem?.mpr ⟨index, hget⟩, rfl⟩
    have hne : ∀ c, (c, Fate.stored) ≠ (upload, Fate.queued) := by simp
    refine ⟨by rw [hmap]; exact h.chunked, ?_, ?_, h.flushed, ?_⟩
    · cases succeeds with
      | true =>
        apply h.holding.put (h.chunked.each upload hmem).1
        intro c
        simp [Stored, mem_set_of_ne hget (hne c)]
      | false =>
        apply h.holding.congr
        intro c
        simp [Stored, mem_set_of_ne hget (hne c)]
    · intro htx
      rw [List.length_set]
      refine ⟨fun hplaying => ?_, (h.lone htx).2⟩
      rw [(h.lone htx).1 hplaying] at hget
      cases hget
    · cases succeeds <;> exact h.promised
  · cases hstep

theorem Sound.shutdown (hstep : step blake2b256 s .shutdown = .ok s') : s'.Sound := by
  cases hstep
  refine ⟨?_, ?_, ?_, h.flushed, h.promised⟩
  · rw [List.map_map]
    exact h.chunked
  · apply h.holding.congr
    intro c
    simp only [Stored, List.mem_map, Prod.exists, Prod.mk.injEq]
    constructor
    · rintro ⟨_, _, hmem, rfl, hfate⟩
      split at hfate
      · cases hfate
      · rwa [← hfate]
    · intro hmem
      exact ⟨c, .stored, hmem, rfl, rfl⟩
  · intro htx
    rw [List.length_map]
    refine ⟨fun hplaying => ?_, (h.lone htx).2⟩
    rw [(h.lone htx).1 hplaying]
    rfl

theorem Sound.setTunnelId (tunnelId : String) :
    Sound { s with recorder := s.recorder.setTunnelId tunnelId } :=
  ⟨h.chunked.with_inner _, h.holding, h.lone, h.flushed, h.promised⟩

theorem Sound.flushTail (hstep : step blake2b256 s (.flushTail succeeds) = .ok s') :
    s'.Sound := by
  simp only [Stream.step, returned] at hstep
  obtain ⟨hplaying, hwriter, rfl⟩ := hstep
  cases htail : s.recorder.takeTail with
  | mk recorder tail =>
  have hsetup := setup_takeTail htail
  simp only [S3StreamingRecorder.setup, Prod.mk.injEq] at hsetup
  obtain ⟨htunnel, htx, hsame⟩ := hsetup
  obtain ⟨hchunked, hempty⟩ := h.chunked.takeTail htail
  refine ⟨?_, ?_, ?_, fun _ => ⟨hempty, by rw [← hwriter]; exact hsame⟩, ?_⟩
  · rw [map_fst_append]
    exact hchunked
  · simp only [htunnel]
    cases tail with
    | none =>
      apply h.holding.congr
      intro c
      simp [Stored]
    | some upload =>
      have hupload : upload.tunnelId = s.recorder.tunnelId := by
        rw [← htunnel]
        exact (hchunked.each upload (by simp)).1
      cases succeeds with
      | true =>
        apply h.holding.put hupload
        intro c
        simp [Stored, or_comm]
      | false =>
        apply h.holding.congr
        intro c
        simp [Stored]
  · intro hfalse
    simp only [htx] at hfalse
    refine ⟨by rintro ⟨⟩, ?_⟩
    rw [(h.lone hfalse).1 hplaying]
    cases tail <;> simp
  · intro manifest hmanifest
    have hold : s.store.manifests s.recorder.tunnelId = some manifest := by
      rw [← htunnel]
      cases tail with
      | none => exact hmanifest
      | some => cases succeeds <;> exact hmanifest
    rw [h.unsealed (by rw [hplaying]; simp)] at hold
    cases hold

theorem Sound.sealManifest (hstep : step blake2b256 s (.sealManifest succeeds) = .ok s') :
    s'.Sound := by
  simp only [Stream.step, returned] at hstep
  obtain ⟨hsealing, hstep⟩ := hstep
  have hflushed := h.flushed (by simp [hsealing])
  have hunsealed : ∀ manifest, s.store.manifests s.recorder.tunnelId ≠ some manifest := by
    simp [h.unsealed (by rw [hsealing]; simp)]
  have hlone : s.recorder.tx = false → (StreamPhase.finished = .playing → s.uploads = []) ∧
      s.uploads.length ≤ 1 := fun htx => ⟨by rintro ⟨⟩, (h.lone htx).2⟩
  split at hstep
  · rename_i manifest hmanifest
    rw [pure_ok_iff] at hstep
    subst hstep
    cases succeeds with
    | false =>
      exact ⟨h.chunked, h.holding, hlone, fun _ => hflushed,
        fun other hother => absurd hother (hunsealed other)⟩
    | true =>
      refine ⟨h.chunked, ⟨h.holding.source, h.holding.present⟩, hlone, fun _ => hflushed, ?_⟩
      intro other hother
      simp only [if_true, TranscriptStore.sealManifest, Function.update_self,
        Option.some.injEq] at hother
      subst hother
      unfold S3StreamingRecorder.manifest at hmanifest
      split at hmanifest
      · cases hmanifest
      · split at hmanifest
        · cases hmanifest
        · cases hmanifest
          exact ⟨rfl, rfl, rfl⟩
  · rw [pure_ok_iff] at hstep
    subst hstep
    exact ⟨h.chunked, h.holding, hlone, fun _ => hflushed,
      fun other hother => absurd hother (hunsealed other)⟩

theorem Sound.step {event : StreamEvent Move} (hstep : Stream.step blake2b256 s event = .ok s') :
    s'.Sound := by
  cases event with
  | record => exact h.record hstep
  | put => exact h.put hstep
  | shutdown => exact h.shutdown hstep
  | setTunnelId tunnelId =>
    cases hstep
    exact h.setTunnelId tunnelId
  | flushTail => exact h.flushTail hstep
  | sealManifest => exact h.sealManifest hstep

end

theorem sound_of_run {pfx tunnelId : String} {tx writer : Bool}
    {history : List (StreamEvent Move)}
    (hrun : (system blake2b256 pfx tunnelId tx writer).Run history s) : s.Sound := by
  apply hrun.invariant (I := fun _ s => s.Sound)
  · rintro _ _ ⟨-, rfl⟩
    exact Sound.start pfx tunnelId tx writer
  · intro _ _ _ _ _ hbefore hstep
    exact hbefore.step hstep

end Steps

/-! ### Reading back -/

/-- The chunks that the manifest promises are stored, and reading them back gives as many bytes
as it says: those of the recorded entries, in order. -/
structure Readable (s : Stream Move) (manifest : TranscriptManifest) : Prop where
  stored : ∀ seq < manifest.chunkCount,
    (s.store.objects (chunkKey s.store.pfx s.recorder.tunnelId seq)).isSome = true
  returned : ∃ parts entries,
    s.recorded.mapM (encodeEntry s.recorder.tunnelId) = .ok parts ∧
      s.recorded.mapM (TranscriptSettleEntry.fromTranscriptEntry s.recorder.tunnelId) =
        .ok entries ∧
      s.store.reassembleFromManifest s.recorder.tunnelId manifest = .ok parts.flatten ∧
      parts.flatten.length = manifest.totalBytes.toNat ∧
      Proof.decodeSettleEntries parts.flatten = .ok (entries.map readEntry)

theorem getChunk_ok_iff {store : TranscriptStore} {tunnelId : String} {count : UInt32} :
    store.getChunk tunnelId count seq = .ok bytes ↔
      store.objects (chunkKey store.pfx tunnelId seq) = some bytes := by
  unfold TranscriptStore.getChunk
  cases hget : store.objects (chunkKey store.pfx tunnelId seq) <;> simp [hget]

/-- The chunk under a key has the number of the key, up to the wrap of the counter. -/
theorem Sound.exists_index (h : s.Sound)
    (hget : s.store.objects (chunkKey s.store.pfx s.recorder.tunnelId seq) = some bytes) :
    ∃ i c, s.uploads[i]? = some (c, .stored) ∧ UInt32.ofNat i = seq ∧ c.bytes = bytes := by
  obtain ⟨c, hstored, hkey, hbytes⟩ := h.holding.source _ _ hget
  obtain ⟨i, hi⟩ := List.mem_iff_getElem?.mp hstored
  refine ⟨i, c, hi, ?_, hbytes⟩
  rw [chunkKey_inj hkey]
  exact (h.chunked.seq_getElem (by rw [List.getElem?_map, hi]; rfl)).symm

theorem Sound.total_lt (h : s.Sound) (hcount : s.uploads.length < 2 ^ 32) :
    ((s.uploads.map Prod.fst).map fun c => c.bytes.length).sum < 2 ^ 64 := by
  cases htx : s.recorder.tx with
  | true =>
    have hle := List.sum_le_card_nsmul
      ((s.uploads.map Prod.fst).map fun c => c.bytes.length) (2 ^ 32 - 1) (by
        intro n hn
        obtain ⟨c, hc, rfl⟩ := List.mem_map.mp hn
        exact Nat.le_pred_of_lt ((h.chunked.streamed htx).2 c hc))
    rw [List.length_map, List.length_map, smul_eq_mul] at hle
    omega
  | false =>
    have hlone := (h.lone htx).2
    have heach := h.chunked.each
    match hu : s.uploads, hlone with
    | [], _ => simp
    | [u], _ =>
      have hfits := (heach u.1 (by simp [hu])).2.2
      simp only [isizeMax] at hfits
      simp only [List.map_cons, List.map_nil, List.sum_cons, List.sum_nil]
      omega

theorem sum_lt_of_nodup {α : Type} {f : α → Nat} {some all : List α} (hnodup : some.Nodup)
    (hsub : some ⊆ all) (hfewer : some.length < all.length) (hpos : ∀ x ∈ all, 0 < f x) :
    (some.map f).sum < (all.map f).sum := by
  obtain ⟨x, hmore⟩ := (List.subperm_of_subset hnodup hsub).exists_of_length_lt hfewer
  have hx := hpos x (hmore.subset List.mem_cons_self)
  obtain ⟨_, hperm, hsublist⟩ := hmore
  have hle := (hsublist.map f).sum_le_sum fun _ _ => Nat.zero_le _
  rw [(hperm.map f).sum_eq, List.map_cons, List.sum_cons] at hle
  omega

section Seal

variable {manifest : TranscriptManifest}

section

variable (h : s.Sound)
include h

variable (hsealed : s.store.manifests s.recorder.tunnelId = some manifest)
include hsealed

theorem Sound.encoded :
    ∃ parts, s.recorded.mapM (encodeEntry s.recorder.tunnelId) = .ok parts ∧
      parts.flatten = (s.uploads.map Prod.fst).flatMap ChunkUpload.bytes := by
  have hflushed := h.flushed (by rw [(h.promised _ hsealed).1]; simp)
  obtain ⟨parts, hparts, hflat⟩ := h.chunked.encoded (.inr hflushed.2)
  rw [hflushed.1, List.append_nil] at hflat
  exact ⟨parts, hparts, hflat⟩

theorem Sound.chunkCount :
    manifest.chunkCount = UInt32.ofNat s.uploads.length := by
  rw [(h.promised _ hsealed).2.1, h.chunked.seq, List.length_map]

omit hsealed in
/-- A chunk that was stored, and that the counter has not gone past, is still there. -/
theorem Sound.get_of_stored (hcount : s.uploads.length < 2 ^ 32) {i : Nat} {c : ChunkUpload}
    (hi : s.uploads[i]? = some (c, .stored)) :
    s.store.objects (chunkKey s.store.pfx s.recorder.tunnelId (UInt32.ofNat i)) =
      some c.bytes := by
  have hseq : c.seq = UInt32.ofNat i :=
    h.chunked.seq_getElem (by rw [List.getElem?_map, hi]; rfl)
  have hpresent := h.holding.present c (List.mem_iff_getElem?.mpr ⟨i, hi⟩)
  rw [hseq] at hpresent
  obtain ⟨_, hbytes⟩ := Option.isSome_iff_exists.mp hpresent
  obtain ⟨i', _, hi', hsame, rfl⟩ := h.exists_index hbytes
  have hlt := (List.getElem?_eq_some_iff.mp hi).1
  have hlt' := (List.getElem?_eq_some_iff.mp hi').1
  have hindex : i' = i := by
    have hmod := congrArg UInt32.toNat hsame
    simp only [UInt32.toNat_ofNat'] at hmod
    omega
  rw [hindex, hi] at hi'
  cases hi'
  exact hbytes

theorem Sound.readable_of_stored
    (hall : ∀ p ∈ s.uploads, p.2 = .stored) (hcount : s.uploads.length < 2 ^ 32) :
    s.Readable manifest := by
  have hnumber : manifest.chunkCount.toNat = s.uploads.length := by
    rw [h.chunkCount hsealed, UInt32.toNat_ofNat_of_lt' hcount]
  have hget : ∀ i < s.uploads.length, s.store.objects (chunkKey s.store.pfx s.recorder.tunnelId
      (UInt32.ofNat i)) = some (((s.uploads[i]?).map fun p => p.1.bytes).getD []) := by
    intro i hi
    have hfate := hall _ (List.getElem_mem hi)
    have hup : s.uploads[i]? = some (s.uploads[i].1, .stored) := by
      rw [List.getElem?_eq_getElem hi, ← hfate]
    rw [h.get_of_stored hcount hup, hup]
    rfl
  obtain ⟨parts, hparts, hflat⟩ := h.encoded hsealed
  obtain ⟨entries, hentries, hdecode⟩ := decode_encodeEntries hparts
  have hlength : parts.flatten.length =
      ((s.uploads.map Prod.fst).map fun c => c.bytes.length).sum := by
    rw [hflat, List.length_flatMap]
  have htotal : manifest.totalBytes = UInt64.ofNat parts.flatten.length := by
    rw [(h.promised _ hsealed).2.2, h.chunked.totalBytes, hlength]
  refine ⟨?_, parts, entries, hparts, hentries, ?_, ?_, hdecode⟩
  · intro seq hseq
    have hlt : seq.toNat < s.uploads.length := by
      rw [← hnumber]
      exact hseq
    have hsome := hget seq.toNat hlt
    rw [UInt32.ofNat_toNat] at hsome
    rw [hsome]
    rfl
  · have hchunks : (List.range manifest.chunkCount.toNat).mapM (fun seq =>
        s.store.getChunk s.recorder.tunnelId manifest.chunkCount (UInt32.ofNat seq)) =
          .ok (s.uploads.map fun p => p.1.bytes) := by
      rw [mapM_ok_of_forall (g := fun i => ((s.uploads[i]?).map fun p => p.1.bytes).getD [])]
      · congr 1
        apply List.ext_getElem
        · rw [List.length_map, List.length_range, List.length_map, hnumber]
        · intro i hi _
          rw [List.length_map, List.length_range, hnumber] at hi
          simp [List.getElem?_eq_getElem hi]
      · intro i hi
        rw [List.mem_range, hnumber] at hi
        exact getChunk_ok_iff.mpr (hget i hi)
    have hsame : (s.uploads.map fun p => p.1.bytes).flatten = parts.flatten := by
      rw [hflat, List.flatMap_map, List.flatMap_def]
    simp only [TranscriptStore.reassembleFromManifest, returned]
    refine ⟨_, hchunks, ?_, hsame.symm⟩
    rw [← List.length_flatten, hsame, htotal]
  · rw [htotal, UInt64.toNat_ofNat_of_lt' (by rw [hlength]; exact h.total_lt hcount)]

omit hsealed in
/-- The chunk that is read for a number of the manifest. -/
theorem Sound.exists_read (hread : s.Readable manifest) :
    ∀ r < manifest.chunkCount.toNat, ∃ i c, s.uploads[i]? = some (c, .stored) ∧
      i % 2 ^ 32 = r ∧
      s.store.getChunk s.recorder.tunnelId manifest.chunkCount (UInt32.ofNat r) = .ok c.bytes := by
  intro r hr
  have hfits : r < 2 ^ 32 := hr.trans manifest.chunkCount.toNat_lt
  have hseq : UInt32.ofNat r < manifest.chunkCount := by
    rw [UInt32.lt_iff_toNat_lt, UInt32.toNat_ofNat_of_lt' hfits]
    exact hr
  obtain ⟨_, hbytes⟩ := Option.isSome_iff_exists.mp (hread.stored _ hseq)
  obtain ⟨i, c, hi, hsame, rfl⟩ := h.exists_index hbytes
  refine ⟨i, c, hi, ?_, getChunk_ok_iff.mpr hbytes⟩
  have hmod := congrArg UInt32.toNat hsame
  rwa [UInt32.toNat_ofNat', UInt32.toNat_ofNat_of_lt' hfits] at hmod

/-- Past the wrap of the counter, the chunks that are read are too few to make up the
transcript. -/
theorem Sound.count_lt_of_readable
    (hread : s.Readable manifest) : s.uploads.length < 2 ^ 32 := by
  by_contra hwrapped
  have hreads := h.exists_read hread
  choose! index chunk hstored hmod hchunk using hreads
  obtain ⟨parts, hparts, hflat⟩ := h.encoded hsealed
  obtain ⟨parts', _, hparts', -, hreturned, -⟩ := hread.returned
  have hsame : parts' = parts := Except.ok.inj (hparts'.symm.trans hparts)
  subst hsame
  -- The weight of a chunk is its length.
  let weight : Nat → Nat := fun i => ((s.uploads[i]?).map fun p => p.1.bytes.length).getD 0
  have hall : (List.range s.uploads.length).map weight =
      s.uploads.map fun p => p.1.bytes.length := by
    apply List.ext_getElem
    · rw [List.length_map, List.length_range, List.length_map]
    · intro i hi _
      rw [List.length_map, List.length_range] at hi
      simp [weight, List.getElem?_eq_getElem hi]
  have hsome : ((List.range manifest.chunkCount.toNat).map index).map weight =
      (List.range manifest.chunkCount.toNat).map fun r => (chunk r).bytes.length := by
    rw [List.map_map]
    apply List.map_congr_left
    intro r hr
    simp [weight, hstored r (List.mem_range.mp hr)]
  have hless : (((List.range manifest.chunkCount.toNat).map index).map weight).sum <
      ((List.range s.uploads.length).map weight).sum := by
    apply sum_lt_of_nodup
    · apply List.Nodup.map_on _ List.nodup_range
      intro r hr r' hr' heq
      rw [← hmod r (List.mem_range.mp hr), ← hmod r' (List.mem_range.mp hr'), heq]
    · intro i hi
      obtain ⟨r, hr, rfl⟩ := List.mem_map.mp hi
      exact List.mem_range.mpr (List.getElem?_eq_some_iff.mp (hstored r (List.mem_range.mp hr))).1
    · have hlt := manifest.chunkCount.toNat_lt
      rw [List.length_map, List.length_range, List.length_range]
      omega
    · intro i hi
      have hlt := List.mem_range.mp hi
      have hbytes := (h.chunked.each s.uploads[i].1
        (List.mem_map_of_mem (List.getElem_mem hlt))).2.1
      simpa [weight, List.getElem?_eq_getElem hlt] using List.length_pos_of_ne_nil hbytes
  have hlength : parts'.flatten.length = (s.uploads.map fun p => p.1.bytes.length).sum := by
    rw [hflat, List.length_flatMap, List.map_map]
    rfl
  have hreadLength : parts'.flatten.length =
      ((List.range manifest.chunkCount.toNat).map fun r => (chunk r).bytes.length).sum := by
    simp only [TranscriptStore.reassembleFromManifest, returned] at hreturned
    obtain ⟨_, hchunks, -, hreturned⟩ := hreturned
    rw [mapM_ok_of_forall fun r hr => hchunk r (List.mem_range.mp hr), Except.ok.injEq] at hchunks
    rw [hreturned, ← hchunks, List.length_flatten, List.map_map]
    rfl
  rw [hall, hsome, ← hlength, ← hreadLength] at hless
  exact lt_irrefl _ hless

theorem Sound.stored_of_readable
    (hread : s.Readable manifest) :
    (∀ p ∈ s.uploads, p.2 = .stored) ∧ s.uploads.length < 2 ^ 32 := by
  have hcount := h.count_lt_of_readable hsealed hread
  refine ⟨?_, hcount⟩
  intro p hp
  obtain ⟨i, hi⟩ := List.mem_iff_getElem?.mp hp
  have hlt := (List.getElem?_eq_some_iff.mp hi).1
  have hnumber : manifest.chunkCount.toNat = s.uploads.length := by
    rw [h.chunkCount hsealed, UInt32.toNat_ofNat_of_lt' hcount]
  obtain ⟨i', _, hi', hmod, -⟩ := h.exists_read hread i (by rw [hnumber]; exact hlt)
  have hlt' := (List.getElem?_eq_some_iff.mp hi').1
  have hsame : i' = i := by
    rw [Nat.mod_eq_of_lt (hlt'.trans hcount)] at hmod
    exact hmod
  rw [hsame, hi] at hi'
  cases hi'
  rfl

end

end Seal

/-- In every state that a match can reach, with any flushes and any fates of its uploads: a
sealed transcript reads back as the recorded entries exactly if every chunk has been stored and
the counter of chunks has not wrapped. -/
theorem sealed_readable_iff {blake2b256 : Bytes → Bytes32} {pfx tunnelId : String}
    {tx writer : Bool} {history : List (StreamEvent Move)} {manifest : TranscriptManifest}
    (hrun : (system blake2b256 pfx tunnelId tx writer).Run history s)
    (hsealed : s.store.manifests s.recorder.tunnelId = some manifest) :
    s.Readable manifest ↔ (∀ p ∈ s.uploads, p.2 = .stored) ∧ s.uploads.length < 2 ^ 32 := by
  have hsound := sound_of_run hrun
  constructor
  · exact hsound.stored_of_readable hsealed
  · rintro ⟨hall, hcount⟩
    exact hsound.readable_of_stored hsealed hall hcount

/-- A digest for small runs. -/
def lengthDigest (bytes : Bytes) : Bytes32 := Bytes32.fill bytes.length.toUInt8

def sampleEntry (nonce : UInt64) : TranscriptEntry Unit :=
  ⟨nonce, .A, (), Bytes32.fill 1, 0, 5, 5, Bytes64.fill 2, Bytes64.fill 3⟩

/-- Two entries six seconds apart, so that the second one flushes both as a chunk. -/
def slowMatch : List (StreamEvent Unit) :=
  [.record (sampleEntry 1) 0 0 true, .record (sampleEntry 2) 6000 6000 true]

theorem sealed_readable_iff_stored_first :
    ∃ s : Stream Unit, (system lengthDigest "" "0x1" true true).Run
        (slowMatch ++ [.put 0 true, .flushTail true, .sealManifest true]) s ∧
      ∃ manifest, s.store.manifests s.recorder.tunnelId = some manifest ∧
        manifest.chunkCount = 1 ∧ s.Readable manifest := by
  obtain ⟨s, hrun, hobserved⟩ : ∃ s : Stream Unit, (system lengthDigest "" "0x1" true true).Run
      (slowMatch ++ [.put 0 true, .flushTail true, .sealManifest true]) s ∧
      ((s.store.manifests s.recorder.tunnelId).map TranscriptManifest.chunkCount,
        s.uploads.map Prod.snd) = (some 1, [Fate.stored]) :=
    System.exists_run_of_replay (by decide +kernel)
  obtain ⟨hmanifest, hfates⟩ := Prod.mk.inj hobserved
  obtain ⟨manifest, hsealed, hcount⟩ := Option.map_eq_some_iff.mp hmanifest
  refine ⟨s, hrun, manifest, hsealed, hcount, (sealed_readable_iff hrun hsealed).mpr ⟨?_, ?_⟩⟩
  · intro p hp
    have hmem := List.mem_map_of_mem (f := Prod.snd) hp
    rw [hfates] at hmem
    exact List.mem_singleton.mp hmem
  · have hlength := congrArg List.length hfates
    rw [List.length_map] at hlength
    rw [hlength]
    decide

/-- The chunk is still queued when the manifest is sealed. -/
theorem sealed_before_upload :
    ∃ s : Stream Unit, (system lengthDigest "" "0x1" true true).Run
        (slowMatch ++ [.flushTail true, .sealManifest true]) s ∧
      ∃ manifest, s.store.manifests "0x1" = some manifest ∧
        s.store.reassembleFromManifest "0x1" manifest = .error (.incomplete "0x1"
          "manifest lists 1 chunks but transcripts/0x1/chunk-00000000.bin is missing") := by
  obtain ⟨s, hrun, hobserved⟩ : ∃ s : Stream Unit, (system lengthDigest "" "0x1" true true).Run
      (slowMatch ++ [.flushTail true, .sealManifest true]) s ∧
      (s.store.manifests "0x1").map (s.store.reassembleFromManifest "0x1") =
        some (.error (.incomplete "0x1"
          "manifest lists 1 chunks but transcripts/0x1/chunk-00000000.bin is missing")) :=
    System.exists_run_of_replay (by decide +kernel)
  obtain ⟨manifest, hsealed, hmissing⟩ := Option.map_eq_some_iff.mp hobserved
  exact ⟨s, hrun, manifest, hsealed, hmissing⟩

end Stream

end DopamintArena.Backend
