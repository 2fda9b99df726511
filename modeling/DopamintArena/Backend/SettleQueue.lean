import DopamintArena.Backend.SettleBatch
import DopamintArena.Engine.StateUpdates

/-!
`settle_queue.rs` with its in-memory queue, and the `/settle` handler of
`routes.rs` that feeds it. An entry's id is a running number (the text `m-N`):
the counter is an `AtomicU64`, and 2^64 requests are out of reach. `claim` takes an
entry out of the queue for good, and its body is kept until it is acknowledged.
-/

namespace DopamintArena.Backend

open Foundation
open DopamintArena.Engine (toHex hexPair)

structure QueuedSettle where
  id : Nat
  tunnelId : String
  header : Bytes
deriving DecidableEq

structure SettleQueue where
  pending : List QueuedSettle
  bodies : List (Nat × Bytes)
  counter : Nat
deriving DecidableEq

namespace SettleQueue

def empty : SettleQueue := ⟨[], [], 0⟩

section

variable (q : SettleQueue)

def entry (tunnelId : String) (header : Bytes) : QueuedSettle :=
  ⟨q.counter, tunnelId, header⟩

def enqueue (tunnelId : String) (header body : Bytes) : SettleQueue where
  pending := q.pending ++ [q.entry tunnelId header]
  bodies := (q.counter, body) :: q.bodies
  counter := q.counter + 1

def claim (max : Nat) : List QueuedSettle × SettleQueue :=
  (q.pending.take max, { q with pending := q.pending.drop max })

def body (id : Nat) : Option Bytes := q.bodies.lookup id

def ack (ids : List Nat) : SettleQueue :=
  { q with bodies := q.bodies.filter fun p => p.1 ∉ ids }

end

end SettleQueue

/-! ### The header -/

def settleBodyVersion : UInt8 := 0x01
def settleBodyHeaderLen : Nat := 229

structure SettleBody where
  tunnelId : String
  partyABalance : UInt64
  partyBBalance : UInt64
  finalNonce : UInt64
  timestamp : UInt64
  transcriptRoot : Bytes
  sigA : Bytes
  sigB : Bytes
  updateCount : UInt32
deriving DecidableEq

/-- `b[from..to]`. -/
def range (b : Bytes) (start stop : Nat) : Bytes := (b.drop start).take (stop - start)

def u64be (b : Bytes) (o : Nat) : UInt64 := UInt64.ofNat (ofBeBytes (range b o (o + 8)))

def parseSettleBody (b : Bytes) : Except String SettleBody := do
  require (settleBodyHeaderLen ≤ b.length)
    s!"body too short: {b.length} < {settleBodyHeaderLen}"
  require (b.headD 0 = settleBodyVersion) s!"unexpected settle version {b.headD 0}"
  pure
    { tunnelId := "0x" ++ toHex (range b 1 33)
      partyABalance := u64be b 33
      partyBBalance := u64be b 41
      finalNonce := u64be b 49
      timestamp := u64be b 57
      transcriptRoot := range b 65 97
      sigA := range b 97 161
      sigB := range b 161 225
      updateCount := UInt32.ofNat (ofBeBytes (range b 225 229)) }

def closeArgsFromSettleHeader (header : Bytes) : Except String CloseArgs := do
  let p ← parseSettleBody header
  pure
    { tunnelId := p.tunnelId
      partyABalance := p.partyABalance
      partyBBalance := p.partyBBalance
      sigA := p.sigA
      sigB := p.sigB
      timestamp := p.timestamp
      transcriptRoot := p.transcriptRoot }

/-- `trim_start_matches("0x")`: every mark at the start. -/
def trimMarks : List Char → List Char
  | '0' :: 'x' :: rest => trimMarks rest
  | other => other

def normalizeTunnelId (id : String) : String :=
  let h := (trimMarks id.toList).map Char.toLower
  String.ofList (List.replicate (64 - h.length) '0' ++ h)

/-! ### The handler -/

inductive TunnelStatus
  | created
  | active
  | closed
deriving DecidableEq

/-- The registry of tunnels, by the text of their id. -/
abbrev Registry := String → Option TunnelStatus

def setTunnelStatus (registry : Registry) (id : String) (status : TunnelStatus) : Registry :=
  fun text => if text = id then some status else registry text

inductive SettleResponse
  | accepted (settlementId : Nat)
  | refused (status : Nat) (error message : String)
deriving DecidableEq

/-- `stored` says whether `enqueue` returns `Ok`. -/
def settle (queue : SettleQueue) (registry : Registry) (tunnelId : String) (body : Bytes)
    (stored : Bool) : SettleResponse × SettleQueue :=
  match parseSettleBody body with
  | .error e => (.refused 422 "bad_settlement" s!"invalid settle body: {e}", queue)
  | .ok p =>
    if normalizeTunnelId p.tunnelId ≠ normalizeTunnelId tunnelId then
      (.refused 422 "tunnel_mismatch" "settlement tunnelId does not match the path", queue)
    else if registry tunnelId = some .closed then
      (.refused 409 "already_settled" "tunnel already closed on-chain", queue)
    else if stored then
      (.accepted queue.counter, queue.enqueue tunnelId (body.take settleBodyHeaderLen) body)
    else
      (.refused 503 "settle_enqueue_failed" "could not queue settlement; retry shortly", queue)

/-- What the handler lets into the queue. -/
theorem settle_cases (queue : SettleQueue) (registry : Registry) (tunnelId : String) (body : Bytes)
    (stored : Bool) :
    (∃ status error message,
      settle queue registry tunnelId body stored = (.refused status error message, queue)) ∨
      (∃ p, parseSettleBody body = .ok p ∧
        normalizeTunnelId p.tunnelId = normalizeTunnelId tunnelId ∧
        settle queue registry tunnelId body stored = (.accepted queue.counter,
          queue.enqueue tunnelId (body.take settleBodyHeaderLen) body)) := by
  unfold settle
  cases hparse : parseSettleBody body with
  | error => exact .inl ⟨_, _, _, rfl⟩
  | ok p =>
    dsimp only
    split
    · exact .inl ⟨_, _, _, rfl⟩
    · rename_i hsame
      split
      · exact .inl ⟨_, _, _, rfl⟩
      · split
        · exact .inr ⟨p, rfl, not_not.mp hsame, rfl⟩
        · exact .inl ⟨_, _, _, rfl⟩

theorem range_take {b : Bytes} {start stop : Nat} (h : stop ≤ settleBodyHeaderLen) :
    range (b.take settleBodyHeaderLen) start stop = range b start stop := by
  rw [range, range, List.drop_take, List.take_take, Nat.min_eq_left (by omega)]

variable {b : Bytes} {p : SettleBody}

/-- The header is enough: cutting off the entries changes nothing that is parsed. -/
theorem parseSettleBody_take (h : parseSettleBody b = .ok p) :
    parseSettleBody (b.take settleBodyHeaderLen) = .ok p := by
  simp only [parseSettleBody, returned] at h ⊢
  obtain ⟨_, hversion, rfl⟩ := h
  have hhead : (b.take settleBodyHeaderLen).headD 0 = b.headD 0 := by
    cases b with
    | nil => rfl
    | cons => rfl
  refine ⟨by rw [List.length_take]; omega, by rw [hhead]; exact hversion, ?_⟩
  simp [u64be, range_take (by decide : 33 ≤ settleBodyHeaderLen),
    range_take (by decide : 33 + 8 ≤ settleBodyHeaderLen),
    range_take (by decide : 41 + 8 ≤ settleBodyHeaderLen),
    range_take (by decide : 49 + 8 ≤ settleBodyHeaderLen),
    range_take (by decide : 57 + 8 ≤ settleBodyHeaderLen),
    range_take (by decide : 97 ≤ settleBodyHeaderLen),
    range_take (by decide : 161 ≤ settleBodyHeaderLen),
    range_take (by decide : 225 ≤ settleBodyHeaderLen),
    range_take (by decide : 229 ≤ settleBodyHeaderLen)]

def textOf (id : Bytes32) : String := "0x" ++ toHex id.bytes

theorem exists_textOf (h : parseSettleBody b = .ok p) :
    ∃ id : Bytes32, p.tunnelId = textOf id := by
  simp only [parseSettleBody, returned] at h
  obtain ⟨hlength, -, rfl⟩ := h
  rw [settleBodyHeaderLen] at hlength
  exact ⟨⟨range b 1 33, by simp only [range, List.length_take, List.length_drop]; omega⟩, rfl⟩

theorem exists_closeArgs (h : parseSettleBody b = .ok p) :
    ∃ ca, closeArgsFromSettleHeader b = .ok ca ∧ ca.tunnelId = p.tunnelId := by
  rw [closeArgsFromSettleHeader, h, ok_bind]
  exact ⟨_, rfl, rfl⟩

theorem exists_textOf_closeArgs {header : Bytes} {ca : CloseArgs}
    (h : closeArgsFromSettleHeader header = .ok ca) : ∃ id : Bytes32, ca.tunnelId = textOf id := by
  simp only [closeArgsFromSettleHeader, returned] at h
  obtain ⟨_, hp, rfl⟩ := h
  exact exists_textOf hp

theorem normalizeTunnelId_textOf (id : Bytes32) : normalizeTunnelId (textOf id) = toHex id.bytes := by
  have hlist : (textOf id).toList = '0' :: 'x' :: id.bytes.flatMap hexPair := by
    simp [textOf, toHex]
  have htrim : trimMarks (id.bytes.flatMap hexPair) = id.bytes.flatMap hexPair := by
    unfold trimMarks
    split
    · rename_i heq
      exact absurd rfl (Engine.hex_ne_mark heq).1
    · rfl
  have hlength : (id.bytes.flatMap hexPair).length = 64 := by
    simp [List.length_flatMap, hexPair]
  simp only [normalizeTunnelId, hlist, trimMarks, htrim, Engine.map_toLower_hex, hlength,
    Nat.sub_self, List.replicate_zero, List.nil_append]
  rfl

theorem textOf_inj {x y : Bytes32}
    (h : normalizeTunnelId (textOf x) = normalizeTunnelId (textOf y)) : x = y := by
  rw [normalizeTunnelId_textOf, normalizeTunnelId_textOf] at h
  exact Engine.toHex_inj h

end DopamintArena.Backend
