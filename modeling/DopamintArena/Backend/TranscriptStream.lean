import DopamintArena.Foundation.Runs
import DopamintArena.Rust.RootRecorder
import DopamintArena.Rust.SettleBody

/-!
`transcript-stream` and the chunk part of `transcript-store`: the transcript is
uploaded in chunks while it is played, and a manifest seals it. A mid-play chunk
goes through a channel to a pool of workers; a failed upload is only logged. The
tail is uploaded by `finish` itself, which then writes the manifest.

A chunk's fate says what became of its upload: it may sit in the channel or with
a worker for any time, be stored, fail, or be dropped when the uploader is gone.
Workers may finish in any order. The clock is read when an entry is buffered and
again when its age is checked. Object reads are reliable, and the manifest is kept
typed instead of as JSON.
-/

namespace DopamintArena.Backend

open Foundation
open DopamintArena.Engine (toHex)
open DopamintArena.Rust (TranscriptEntry TranscriptSettleEntry SettleBodyEntry encodeSettleEntry
  RootOnlyState RecordError)

/-! ### The store -/

/-- `trim_end_matches('/')`. -/
def trimSlashes (text : String) : List Char :=
  (text.toList.reverse.dropWhile (· = '/')).reverse

def chunkDir (pfx tunnelId : String) : String :=
  let trimmed := trimSlashes pfx
  if trimmed = [] then "transcripts/" ++ tunnelId ++ "/"
  else String.ofList trimmed ++ "/transcripts/" ++ tunnelId ++ "/"

/-- `{seq:08}`. -/
def paddedSeq (seq : UInt32) : String :=
  let digits := Nat.toDigits 10 seq.toNat
  String.ofList (List.replicate (8 - digits.length) '0' ++ digits)

def chunkKey (pfx tunnelId : String) (seq : UInt32) : String :=
  chunkDir pfx tunnelId ++ ("chunk-" ++ (paddedSeq seq ++ ".bin"))

structure TranscriptManifest where
  chunkCount : UInt32
  totalBytes : UInt64
  transcriptRoot : String
  settleVersion : UInt8
deriving DecidableEq

inductive StoreError
  | incomplete (tunnelId detail : String)
deriving DecidableEq

/-- The bucket: chunks by their key, and the manifest of each tunnel. -/
structure TranscriptStore where
  pfx : String
  objects : String → Option Bytes
  manifests : String → Option TranscriptManifest

namespace TranscriptStore

def putChunk (store : TranscriptStore) (tunnelId : String) (seq : UInt32) (bytes : Bytes) :
    TranscriptStore :=
  { store with
    objects := Function.update store.objects (chunkKey store.pfx tunnelId seq) (some bytes) }

/-- `seal`. -/
def sealManifest (store : TranscriptStore) (tunnelId : String) (manifest : TranscriptManifest) :
    TranscriptStore :=
  { store with manifests := Function.update store.manifests tunnelId (some manifest) }

/-- One chunk of the manifest. -/
def getChunk (store : TranscriptStore) (tunnelId : String) (chunkCount seq : UInt32) :
    Except StoreError Bytes :=
  let key := chunkKey store.pfx tunnelId seq
  match store.objects key with
  | some bytes => .ok bytes
  | none => .error (.incomplete tunnelId
      s!"manifest lists {chunkCount.toNat} chunks but {key} is missing")

def reassembleFromManifest (store : TranscriptStore) (tunnelId : String)
    (manifest : TranscriptManifest) : Except StoreError Bytes := do
  let chunks ← (List.range manifest.chunkCount.toNat).mapM fun seq =>
    store.getChunk tunnelId manifest.chunkCount (UInt32.ofNat seq)
  let total := (chunks.map List.length).sum
  require (UInt64.ofNat total = manifest.totalBytes) (.incomplete tunnelId
    s!"manifest says {manifest.totalBytes} bytes, reassembled {total}")
  pure chunks.flatten

end TranscriptStore

/-! ### The recorder -/

def chunkTarget : Nat := 1024 * 1024

/-- In milliseconds. -/
def flushInterval : Nat := 5000

/-- The longest vector there can be. -/
def isizeMax : Nat := 2 ^ 63 - 1

structure ChunkUpload where
  tunnelId : String
  seq : UInt32
  bytes : Bytes
deriving DecidableEq, Inhabited

structure ChunkBuf where
  bytes : Bytes
  seq : UInt32
  totalBytes : UInt64
  bufferingSince : Option Nat
deriving DecidableEq

/-- `tx` and `writer` say whether the recorder has them. -/
structure S3StreamingRecorder where
  inner : RootOnlyState
  tunnelId : String
  tx : Bool
  writer : Bool
  buf : ChunkBuf

namespace S3StreamingRecorder

/-- `S3StreamingRecorder::new`. -/
def new (tunnelId : String) (tx writer : Bool) : S3StreamingRecorder :=
  ⟨RootOnlyState.default.setTunnelId tunnelId, tunnelId, tx, writer, ⟨[], 0, 0, none⟩⟩

def setTunnelId (r : S3StreamingRecorder) (tunnelId : String) : S3StreamingRecorder :=
  { r with inner := r.inner.setTunnelId tunnelId }

/-- The buffer becomes the next chunk. -/
def takeChunk (r : S3StreamingRecorder) (bytes : Bytes) : S3StreamingRecorder × ChunkUpload :=
  ({ r with buf :=
      { bytes := []
        seq := r.buf.seq + 1
        totalBytes := r.buf.totalBytes + UInt64.ofNat bytes.length
        bufferingSince := none } }, ⟨r.tunnelId, r.buf.seq, bytes⟩)

section Hash

variable (blake2b256 : Bytes → Bytes32)

/-- `record` up to the hand-over of a chunk that is ready. -/
def record {Move : Type} (r : S3StreamingRecorder) (entry : TranscriptEntry Move)
    (now later : Nat) : Except RecordError (S3StreamingRecorder × Option ChunkUpload) :=
  if r.tx = false ∧ r.writer = false then do
    let inner ← r.inner.record blake2b256 entry
    pure ({ r with inner }, none)
  else do
    let settleEntry ← RecordError.ofPanic
      (TranscriptSettleEntry.fromTranscriptEntry r.tunnelId entry)
    let inner ← r.inner.record blake2b256 entry
    let part ← RecordError.ofPanic
      (encodeSettleEntry ⟨settleEntry.message, settleEntry.sigA, settleEntry.sigB⟩)
    let bytes := r.buf.bytes ++ part
    require (bytes.length ≤ isizeMax) (.panics "capacity overflow")
    let since := r.buf.bufferingSince.getD now
    let full := chunkTarget ≤ bytes.length
    let stale := flushInterval ≤ later - since
    if r.tx = true ∧ (full ∨ stale) then
      let (next, upload) := takeChunk { r with inner } bytes
      pure (next, some upload)
    else
      pure ({ r with inner, buf := { r.buf with bytes, bufferingSince := some since } }, none)

/-- The first half of `finish`: the tail, if there is one. -/
def takeTail (r : S3StreamingRecorder) : S3StreamingRecorder × Option ChunkUpload :=
  if r.buf.bytes = [] then (r, none)
  else
    let (next, upload) := r.takeChunk r.buf.bytes
    (next, some upload)

/-- The second half of `finish`: the manifest, if there is anything to seal. -/
def manifest (r : S3StreamingRecorder) : Option TranscriptManifest :=
  if r.buf.seq = 0 then none
  else
    match r.inner.canonicalRootForTunnel blake2b256 r.tunnelId with
    | .error _ => none
    | .ok root =>
      some ⟨r.buf.seq, r.buf.totalBytes, "0x" ++ toHex root.bytes, Rust.settleBodyVersion⟩

end Hash

end S3StreamingRecorder

/-! ### A match and its uploads -/

inductive Fate
  | queued
  | stored
  | failed
  | dropped
deriving DecidableEq

inductive StreamPhase
  | playing
  | sealing
  | finished
deriving DecidableEq

/-- The recorder of one match with the uploads it has started, in order. `recorded`
remembers the entries; nothing reads it. -/
structure Stream (Move : Type) where
  recorder : S3StreamingRecorder
  uploads : List (ChunkUpload × Fate)
  store : TranscriptStore
  phase : StreamPhase
  recorded : List (TranscriptEntry Move)

inductive StreamEvent (Move : Type)
  | record (entry : TranscriptEntry Move) (now later : Nat) (delivered : Bool)
  | put (index : Nat) (succeeds : Bool)
  | shutdown
  | setTunnelId (tunnelId : String)
  | flushTail (succeeds : Bool)
  | sealManifest (succeeds : Bool)

inductive StreamError
  | record (e : RecordError)
  | notEnabled (reason : String)
deriving DecidableEq

namespace Stream

variable {Move : Type}

def start (pfx tunnelId : String) (tx writer : Bool) : Stream Move :=
  ⟨.new tunnelId tx writer, [], ⟨pfx, fun _ => none, fun _ => none⟩, .playing, []⟩

/-- `put_chunk` of an upload. -/
def putUpload (store : TranscriptStore) (upload : ChunkUpload) (succeeds : Bool) :
    TranscriptStore :=
  if succeeds then store.putChunk upload.tunnelId upload.seq upload.bytes else store

/-- `record` and `finish` of the recorder, a worker's upload, and the end of the uploader. -/
def step (blake2b256 : Bytes → Bytes32) (s : Stream Move) :
    StreamEvent Move → Except StreamError (Stream Move)
  | .record entry now later delivered => do
    require (s.phase = .playing) (.notEnabled "no production at finish")
    let (recorder, chunk) ← (s.recorder.record blake2b256 entry now later).mapError .record
    -- A closed channel drops the chunk; a full one only delays the recorder.
    let fate := if delivered then Fate.queued else Fate.dropped
    pure
      { s with
        recorder
        uploads := s.uploads ++ (chunk.map fun upload => (upload, fate)).toList
        recorded := s.recorded ++ [entry] }
  | .put index succeeds =>
    match s.uploads[index]? with
    | some (upload, .queued) => .ok
        { s with
          uploads := s.uploads.set index (upload, if succeeds then .stored else .failed)
          store := putUpload s.store upload succeeds }
    | _ => .error (.notEnabled "not queued")
  | .shutdown => .ok
      { s with uploads := s.uploads.map fun p =>
          (p.1, if p.2 = .queued then .dropped else p.2) }
  | .setTunnelId tunnelId => .ok { s with recorder := s.recorder.setTunnelId tunnelId }
  | .flushTail succeeds => do
    require (s.phase = .playing) (.notEnabled "finish is called once")
    require (s.recorder.writer = true) (.notEnabled "no writer")
    let (recorder, tail) := s.recorder.takeTail
    let fate := if succeeds then Fate.stored else Fate.failed
    pure
      { s with
        recorder
        uploads := s.uploads ++ (tail.map fun upload => (upload, fate)).toList
        store := (tail.map fun upload => putUpload s.store upload succeeds).getD s.store
        phase := .sealing }
  | .sealManifest succeeds => do
    require (s.phase = .sealing) (.notEnabled "the tail is not flushed")
    match s.recorder.manifest blake2b256 with
    | some manifest =>
      pure
        { s with
          store := if succeeds then s.store.sealManifest s.recorder.tunnelId manifest else s.store
          phase := .finished }
    | none => pure { s with phase := .finished }

def system (blake2b256 : Bytes → Bytes32) (pfx tunnelId : String) (tx writer : Bool) :
    System (Stream Move) (StreamEvent Move) :=
  .accepting (step blake2b256) (start pfx tunnelId tx writer)

end Stream

end DopamintArena.Backend
