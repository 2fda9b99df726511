import DopamintArena.Backend.SettleQueue
import DopamintArena.Backend.Settler
import DopamintArena.Foundation.Runs

/-!
`settle_worker.rs`: any number of workers drain the settle queue while requests
come in. A drain is cut into its calls, so the drains of different workers and
the requests interleave: claiming, going through the claimed entries, submitting
the batch, recording the results one by one, and acknowledging. A drain that
fails in the middle drops its entries: they are unacknowledged, but they are in
no queue and with no worker.

What happens around the workers is in the events: whether a queue operation
returns `Ok`, what the settler answers, what the chain closes and what the
indexer writes into the registry. `log` remembers everything ever enqueued;
nothing reads it. Archiving and dead-letter messages are left out.
-/

namespace DopamintArena.Backend

open Foundation

namespace Chain

variable (chain : Chain)

instance (closed : List Bytes32) (c : CloseArgs) : Decidable (chain.Lands closed c) :=
  match href : chain.refOf c.tunnelId with
  | none => isFalse (by
      rintro ⟨ref, hsome, -⟩
      rw [href] at hsome
      cases hsome)
  | some ref =>
    decidable_of_iff (chain.accepts ref.id c = true ∧ ref.id ∉ closed ∧
      c.transcriptRoot.length = 32) (by
        unfold Lands
        rw [href]
        simp)

/-- The tunnel of a close, if its id resolves. -/
def tunnelOf (c : CloseArgs) : Option Bytes32 := (chain.refOf c.tunnelId).map SharedRef.id

/-- A result that judges the close on its own merits, between the closed tunnels before and
after the batch. A rate limit may hit any close. -/
def JudgedOne (closed after : List Bytes32) (c : CloseArgs) : CloseResult → Prop
  | .ok _ => chain.Lands closed c ∧ ∀ id, chain.tunnelOf c = some id → id ∈ after
  | .error (.rejected _) => ¬chain.Lands after c
  | .error (.transient _ _) => True

instance (closed after : List Bytes32) (c : CloseArgs) (r : CloseResult) :
    Decidable (chain.JudgedOne closed after c r) :=
  match r with
  | .ok _ =>
    have : Decidable (∀ id, chain.tunnelOf c = some id → id ∈ after) :=
      match htunnel : chain.tunnelOf c with
      | none => isTrue (by simp)
      | some id => decidable_of_iff (id ∈ after) (by simp)
    inferInstanceAs (Decidable (_ ∧ _))
  | .error (.rejected _) => inferInstanceAs (Decidable (¬_))
  | .error (.transient _ _) => inferInstanceAs (Decidable True)

/-- The answer of a settler to a batch. -/
structure Judged (closed after : List Bytes32) (closes : List CloseArgs)
    (results : List CloseResult) : Prop where
  length : results.length = closes.length
  grown : ∀ id ∈ closed, id ∈ after
  each : ∀ p ∈ closes.zip results, chain.JudgedOne closed after p.1 p.2

instance (closed after : List Bytes32) (closes : List CloseArgs) (results : List CloseResult) :
    Decidable (chain.Judged closed after closes results) :=
  decidable_of_iff (results.length = closes.length ∧ (∀ id ∈ closed, id ∈ after) ∧
      ∀ p ∈ closes.zip results, chain.JudgedOne closed after p.1 p.2)
    ⟨fun h => ⟨h.1, h.2.1, h.2.2⟩, fun h => ⟨h.length, h.grown, h.each⟩⟩

end Chain

/-- Where a worker is in `drain_once`. -/
inductive Phase
  | idle
  | preparing (todo : List QueuedSettle) (seen : List String)
      (work : List (QueuedSettle × CloseArgs))
  | recording (todo : List ((QueuedSettle × CloseArgs) × CloseResult)) (toAck : List Nat)

/-- The entries a worker still has to do something for. -/
def Phase.entries : Phase → List QueuedSettle
  | .idle => []
  | .preparing todo _ work => todo ++ work.map Prod.fst
  | .recording todo _ => todo.map fun x => x.1.1

/-- What a worker that has prepared its entries gives to `settle_batch`. -/
def Phase.submits : Phase → Option (List CloseArgs)
  | .preparing [] _ (p :: work) => some ((p :: work).map Prod.snd)
  | _ => none

structure Settling where
  queue : SettleQueue
  registry : Registry
  closed : List Bytes32
  workers : Nat → Phase
  log : List QueuedSettle

inductive Event
  | request (tunnelId : String) (body : Bytes) (stored : Bool)
  | claim (worker max : Nat) (claimed : Bool)
  | prepare (worker : Nat) (acked : Bool)
  | submit (worker : Nat) (results : List CloseResult) (after : List Bytes32)
  | record (worker : Nat) (bodyRead stored : Bool)
  | finish (worker : Nat) (acked : Bool)
  | indexed (tunnel : Bytes32) (status : TunnelStatus)
  | closedOnChain (tunnel : Bytes32)

/-- The worker that makes the call. -/
def Event.worker : Event → Option Nat
  | .claim worker _ _ | .prepare worker _ | .submit worker _ _ | .record worker _ _
  | .finish worker _ => some worker
  | .request _ _ _ | .indexed _ _ | .closedOnChain _ => none

namespace Settling

def start : Settling := ⟨.empty, fun _ => none, [], fun _ => .idle, []⟩

def enqueued (s : Settling) (tunnelId : String) (header body : Bytes) : Settling :=
  { s with
    queue := s.queue.enqueue tunnelId header body
    log := s.log ++ [s.queue.entry tunnelId header] }

def advance (s : Settling) (worker : Nat) (phase : Phase) (acked : List Nat) : Settling :=
  { s with
    queue := s.queue.ack acked
    workers := Function.update s.workers worker phase }

/-- `for q in claimed`: one entry. -/
def prepareOne (s : Settling) (worker : Nat) (acked : Bool) (q : QueuedSettle)
    (todo : List QueuedSettle) (seen : List String) (work : List (QueuedSettle × CloseArgs)) :
    Settling :=
  let dup := q.tunnelId ∈ seen
  let alreadyClosed := s.registry q.tunnelId = some .closed
  let seen := q.tunnelId :: seen
  if dup ∨ alreadyClosed then
    if acked then s.advance worker (.preparing todo seen work) [q.id]
    else s.advance worker .idle []
  else
    match closeArgsFromSettleHeader q.header with
    | .ok ca => s.advance worker (.preparing todo seen (work ++ [(q, ca)])) []
    | .error _ =>
      if acked then s.advance worker (.preparing todo seen work) [q.id]
      else s.advance worker .idle []

/-- `for ((q, close), res) in work.into_iter().zip(results)`: one result. -/
def recordOne (s : Settling) (worker : Nat) (bodyRead stored : Bool) (q : QueuedSettle)
    (close : CloseArgs) (res : CloseResult)
    (todo : List ((QueuedSettle × CloseArgs) × CloseResult)) (toAck : List Nat) : Settling :=
  let next := s.advance worker (.recording todo (toAck ++ [q.id])) []
  match res with
  | .ok _ => { next with registry := setTunnelStatus s.registry close.tunnelId .closed }
  | .error (.rejected _) => next
  | .error (.transient _ _) =>
    let body := if bodyRead then (s.queue.body q.id).getD [] else []
    if stored then next.enqueued close.tunnelId q.header body else next

def step (chain : Chain) (s : Settling) : Event → Except String Settling
  | .request tunnelId body stored =>
    match settle s.queue s.registry tunnelId body stored with
    | (.accepted _, _) => .ok (s.enqueued tunnelId (body.take settleBodyHeaderLen) body)
    | (.refused _ _ _, _) => .ok s
  | .claim worker max claimed =>
    match s.workers worker with
    | .idle =>
      if claimed then
        let (entries, queue) := s.queue.claim max
        .ok { s with
          queue
          workers := Function.update s.workers worker
            (if entries.isEmpty then .idle else .preparing entries [] []) }
      else .ok s
    | _ => .error "the worker is not idle"
  | .prepare worker acked =>
    match s.workers worker with
    | .preparing (q :: todo) seen work => .ok (s.prepareOne worker acked q todo seen work)
    | _ => .error "the worker has no entry to prepare"
  | .submit worker results after =>
    match s.workers worker with
    | .preparing [] _ work =>
      if work.isEmpty then .ok (s.advance worker .idle [])
      else .ok { s.advance worker (.recording (work.zip results) []) [] with closed := after }
    | _ => .error "the worker has nothing to submit"
  | .record worker bodyRead stored =>
    match s.workers worker with
    | .recording (((q, close), res) :: todo) toAck =>
      .ok (s.recordOne worker bodyRead stored q close res todo toAck)
    | _ => .error "the worker has no result to record"
  | .finish worker acked =>
    match s.workers worker with
    | .recording [] toAck => .ok (s.advance worker .idle (if acked then toAck else []))
    | _ => .error "the worker is not done"
  | .indexed tunnel status => do
    require (status = .closed →
      ∃ id ∈ s.closed, (chain.refOf (textOf tunnel)).map SharedRef.id = some id)
      "no such event on chain"
    pure { s with registry := setTunnelStatus s.registry (textOf tunnel) status }
  | .closedOnChain tunnel => .ok { s with closed := tunnel :: s.closed }

/-- The settler judges each close it is given on its own merits. -/
def Truthful (chain : Chain) (s : Settling) : Event → Prop
  | .submit worker results after => ∀ closes ∈ (s.workers worker).submits,
      chain.Judged s.closed after closes results
  | _ => True

instance (chain : Chain) (s : Settling) : DecidablePred (s.Truthful chain)
  | .submit .. => inferInstanceAs (Decidable (∀ closes ∈ _, _))
  | .request .. | .claim .. | .prepare .. | .record .. | .finish .. | .indexed ..
  | .closedOnChain .. => inferInstanceAs (Decidable True)

/-- Every interleaving of requests and drains. -/
def system (chain : Chain) : System Settling Event :=
  .accepting (fun s event => do
    require (s.Truthful chain event) "not an answer of the settler"
    step chain s event) start

end Settling

/-! ### What must not get lost -/

namespace Chain

variable (chain : Chain)

/-- The header names a tunnel, and what it asks of this tunnel satisfies `P`. -/
def Asks (P : Bytes32 → CloseArgs → Prop) (header : Bytes) : Prop :=
  ∃ ca ref, closeArgsFromSettleHeader header = .ok ca ∧ chain.refOf ca.tunnelId = some ref ∧
    P ref.id ca

instance (P : Bytes32 → CloseArgs → Prop) [∀ id ca, Decidable (P id ca)] (header : Bytes) :
    Decidable (chain.Asks P header) :=
  match hparse : closeArgsFromSettleHeader header with
  | .error _ => isFalse (by
      rintro ⟨ca, ref, hok, -⟩
      rw [hparse] at hok
      cases hok)
  | .ok ca =>
    match href : chain.refOf ca.tunnelId with
    | none => isFalse (by
        rintro ⟨ca', ref, hok, hsome, -⟩
        cases hparse.symm.trans hok
        cases href.symm.trans hsome)
    | some ref =>
      decidable_of_iff (P ref.id ca) (by
        constructor
        · intro h
          exact ⟨ca, ref, hparse, href, h⟩
        · rintro ⟨ca', ref', hok, hsome, h⟩
          cases hparse.symm.trans hok
          cases href.symm.trans hsome
          exact h)

/-- The chain accepts the settlement while its tunnel is open. -/
def Acceptable (header : Bytes) : Prop :=
  chain.Asks (fun id ca => chain.accepts id ca = true ∧ ca.transcriptRoot.length = 32) header

/-- The tunnel of the settlement is closed. -/
def TunnelClosed (closed : List Bytes32) (header : Bytes) : Prop :=
  chain.Asks (fun id _ => id ∈ closed) header

instance (header : Bytes) : Decidable (chain.Acceptable header) :=
  inferInstanceAs (Decidable (chain.Asks _ header))

instance (closed : List Bytes32) (header : Bytes) : Decidable (chain.TunnelClosed closed header) :=
  inferInstanceAs (Decidable (chain.Asks _ header))

/-- The first entry does not crowd out the second: they are the same settlement, or go by
different texts, or nothing is lost with the second. -/
def Spares (closed : List Bytes32) (q q' : QueuedSettle) : Prop :=
  q.tunnelId = q'.tunnelId → chain.Acceptable q'.header →
    chain.TunnelClosed closed q'.header ∨ q.header = q'.header

instance (closed : List Bytes32) : DecidableRel (chain.Spares closed) := fun _ _ =>
  inferInstanceAs (Decidable (_ → _ → _))

end Chain

/-- The next result to record is a rate limit. -/
def Phase.limited : Phase → Bool
  | .recording ((_, .error (.transient _ _)) :: _) _ => true
  | _ => false

namespace Settling

variable (chain : Chain)

/-- A settlement waits in the queue, or a worker has it in hand. A settlement is its header: a
retry enqueues it under a new id. -/
def Retains (s : Settling) (header : Bytes) : Prop :=
  ∃ q : QueuedSettle, q.header = header ∧
    (q ∈ s.queue.pending ∨ ∃ worker, q ∈ (s.workers worker).entries)

/-- A settlement that was enqueued and that the chain accepts is in the queue or in flight
until its tunnel is closed. -/
def NothingLost (s : Settling) : Prop :=
  ∀ q ∈ s.log, chain.Acceptable q.header →
    chain.TunnelClosed s.closed q.header ∨ s.Retains q.header

/-- What keeps a settlement from being lost: no claim has an entry that crowds out a later one,
an acknowledgement fails only in a drain that has nothing to lose, and a settlement that hit a
rate limit is enqueued again. -/
def Sparing (s : Settling) : Event → Prop
  | .claim _ max claimed => claimed = true →
      (s.queue.pending.take max).Pairwise (chain.Spares s.closed)
  | .prepare worker acked => acked = false → ∀ q ∈ (s.workers worker).entries,
      chain.Acceptable q.header → chain.TunnelClosed s.closed q.header
  | .record worker _ stored => (s.workers worker).limited = true → stored = true
  | _ => True

instance (s : Settling) : DecidablePred (s.Sparing chain)
  | .claim .. | .prepare .. | .record .. => inferInstanceAs (Decidable (_ → _))
  | .request .. | .submit .. | .finish .. | .indexed .. | .closedOnChain .. =>
    inferInstanceAs (Decidable True)

/-- The runs whose every step is sparing. -/
def sparingSystem : System Settling Event :=
  .accepting (fun s event => do
    require (s.Truthful chain event) "not an answer of the settler"
    require (s.Sparing chain event) "a settlement is given up"
    step chain s event) start

/-- A chain with one tunnel, which closes on one signature. -/
def oneTunnel : Chain where
  address text := if text = textOf (Bytes32.fill 1) then some (Bytes32.fill 1) else none
  sharedVersion _ := some 1
  accepts _ c := c.sigA == List.replicate 64 1
  epoch := 1
  gasPrice := 1
  digest _ := "digest"

/-- A body for this tunnel: version, id, and the same byte in every other field. -/
def bodyOf (byte : UInt8) : Bytes := List.replicate 33 1 ++ List.replicate 196 byte

end Settling

end DopamintArena.Backend
