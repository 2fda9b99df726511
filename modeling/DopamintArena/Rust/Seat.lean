import DopamintArena.Rust.Transcript

/-!
`tunnel-harness/src/seat.rs` with the frames of `frame/mod.rs`: one party's
runtime on the Rust side. The wire codec, the hash and the signatures are
parameters.

`propose` and `on_move` change nothing unless they succeed; `on_ack` takes the
pending proposal out before it has looked at the acknowledgement, so its result
comes with a runtime in any case. A failed `expect`, and the overflow of the
nonce counter after `2^64 - 1` moves, is a panic.
-/

namespace DopamintArena.Rust

open Foundation
open DopamintArena.Engine (toHex)

/-! ### Frames and errors -/

structure MoveFrame (Move : Type) where
  nonce : UInt64
  bySeat : Seat
  mv : Move
  timestamp : UInt64
  stateHash : Bytes32
  partyABalance : UInt64
  partyBBalance : UInt64
  sigProposer : Bytes64
deriving DecidableEq

structure AckFrame where
  nonce : UInt64
  sigResponder : Bytes64
deriving DecidableEq

inductive TunnelFrame (Move : Type)
  | move (frame : MoveFrame Move)
  | ack (frame : AckFrame)
deriving DecidableEq

inductive CodecError
  | malformed (e : String)
  | missingField (name : String)
  | badField (name : String)
deriving DecidableEq

def CodecError.text : CodecError → String
  | .malformed e => s!"malformed frame: {e}"
  | .missingField name => s!"missing field: {name}"
  | .badField name => s!"bad field: {name}"

inductive FrameTransportError
  | closed
  | transport (message : String)
deriving DecidableEq

inductive HarnessError
  | protocol (message : String)
  | frameTransport (error : FrameTransportError)
  | verification (message : String)
  | panicked (message : String)
deriving DecidableEq

/-- `impl From<CodecError> for HarnessError`. -/
def HarnessError.ofCodec (e : CodecError) : HarnessError := .verification e.text

/-! ### The runtime -/

structure Pending (State Move : Type) where
  next : State
  msg : Bytes
  nonce : UInt64
  mv : Move
  stateHash : Bytes32
  timestamp : UInt64
  partyABalance : UInt64
  partyBBalance : UInt64
  sigProposer : Bytes64

/-- The fields a `PartyRuntime` never changes, and the primitives it calls. -/
structure RuntimeConfig (State Move : Type) where
  protocol : Protocol State Move
  sign : Bytes → Bytes64
  blake2b256 : Bytes → Bytes32
  verify : (publicKey : Bytes32) → (message : Bytes) → (signature : Bytes64) → Bool
  encode : TunnelFrame Move → Bytes
  decode : Bytes → Except CodecError (TunnelFrame Move)
  opponentPk : Bytes32
  tunnelId : String
  seat : Seat

/-- The fields a `PartyRuntime` does change. -/
structure PartyRuntime (State Move : Type) where
  state : State
  nonce : UInt64
  pending : Option (Pending State Move)
  lastCommitted : Option (TranscriptEntry Move)
  lastAck : Option AckFrame

/-- The result of a call, and the runtime it leaves behind. -/
abbrev Handled (State Move α : Type) := Except HarnessError α × PartyRuntime State Move

variable {State Move : Type}

/-- A call that changes the runtime only if it succeeds. -/
def handledOr {α : Type} (rt : PartyRuntime State Move)
    (result : Except HarnessError (α × PartyRuntime State Move)) : Handled State Move α :=
  match result with
  | .ok (a, rt') => (.ok a, rt')
  | .error e => (.error e, rt)

/-- A panic inside a call. -/
def orPanic {α : Type} (result : Except String α) : Except HarnessError α :=
  result.mapError .panicked

/-- The runtime that has co-signed the move of the frame. -/
def PartyRuntime.commitMove (rt : PartyRuntime State Move) (m : MoveFrame Move) (next : State)
    (update : StateUpdate) (sigResponder : Bytes64) : PartyRuntime State Move :=
  { rt with
    state := next
    nonce := m.nonce
    lastCommitted := some
      { nonce := m.nonce, bySeat := m.bySeat, mv := m.mv, stateHash := update.stateHash
        timestamp := m.timestamp, partyABalance := update.partyABalance
        partyBBalance := update.partyBBalance, sigProposer := m.sigProposer
        sigResponder := sigResponder }
    lastAck := some ⟨m.nonce, sigResponder⟩ }

namespace RuntimeConfig

variable (cfg : RuntimeConfig State Move)

def withCodec (initial : Balances) : PartyRuntime State Move where
  state := cfg.protocol.initialState ⟨cfg.tunnelId, initial, cfg.seat⟩
  nonce := 0
  pending := none
  lastCommitted := none
  lastAck := none

def updateOf (next : State) (nonce timestamp : UInt64) : StateUpdate where
  tunnelId := cfg.tunnelId
  stateHash := cfg.blake2b256 (cfg.protocol.encodeState next)
  nonce := nonce
  timestamp := timestamp
  partyABalance := (cfg.protocol.balances next).a
  partyBBalance := (cfg.protocol.balances next).b

def buildUpdate (next : State) (nonce timestamp : UInt64) :
    Except HarnessError (StateUpdate × Bytes) := do
  let update := cfg.updateOf next nonce timestamp
  let msg ← orPanic (serializeStateUpdate update)
  pure (update, msg)

def moveFrame (p : Pending State Move) : MoveFrame Move where
  nonce := p.nonce
  bySeat := cfg.seat
  mv := p.mv
  timestamp := p.timestamp
  stateHash := p.stateHash
  partyABalance := p.partyABalance
  partyBBalance := p.partyBBalance
  sigProposer := p.sigProposer

def propose (rt : PartyRuntime State Move) (mv : Move) (timestamp : UInt64) :
    Except HarnessError (Bytes × PartyRuntime State Move) := do
  require (rt.pending.isNone = true) (HarnessError.verification "a proposal already awaits ack")
  let next ← (cfg.protocol.applyMove rt.state mv cfg.seat).mapError .protocol
  require (rt.nonce.toNat + 1 < 2 ^ 64) (HarnessError.panicked "attempt to add with overflow")
  let nonce := rt.nonce + 1
  let (update, msg) ← cfg.buildUpdate next nonce timestamp
  let sig := cfg.sign msg
  let p : Pending State Move :=
    { next := next, msg := msg, nonce := nonce, mv := mv, stateHash := update.stateHash
      timestamp := timestamp, partyABalance := update.partyABalance
      partyBBalance := update.partyBBalance, sigProposer := sig }
  pure (cfg.encode (.move (cfg.moveFrame p)), { rt with pending := some p })

def hex8 (bytes : Bytes32) : String := toHex (bytes.bytes.take 8)

section

variable (rt : PartyRuntime State Move)

def onMove (m : MoveFrame Move) :
    Except HarnessError (List Bytes × PartyRuntime State Move) :=
  if m.nonce ≤ rt.nonce then
    match rt.lastAck.filter fun a => a.nonce = m.nonce with
    | some ack => .ok ([cfg.encode (.ack ack)], rt)
    | none => .ok ([], rt)
  else do
    require (rt.pending.isNone = true) (HarnessError.verification "expected ack, got move")
    require (m.bySeat ≠ cfg.seat) (HarnessError.verification "move attributed to self")
    require (m.nonce = rt.nonce + 1) (HarnessError.verification "nonce gap")
    let next ← (cfg.protocol.applyMove rt.state m.mv m.bySeat).mapError .protocol
    let bals := cfg.protocol.balances next
    require (bals.a = m.partyABalance ∧ bals.b = m.partyBBalance)
      (HarnessError.verification s!"frame balances mismatch: bot a={bals.a} b={bals.b} vs frame a={m.partyABalance} b={m.partyBBalance} (nonce {m.nonce})")
    let update := cfg.updateOf next m.nonce m.timestamp
    require (update.stateHash = m.stateHash)
      (HarnessError.verification s!"frame state_hash mismatch: tunnel={cfg.tunnelId} nonce={m.nonce} bot={hex8 update.stateHash} vs frame={hex8 m.stateHash}")
    let msg ← orPanic (serializeStateUpdate update)
    require (cfg.verify cfg.opponentPk msg m.sigProposer = true)
      (HarnessError.verification s!"proposer sig failed: tunnel={cfg.tunnelId} nonce={m.nonce} ts={m.timestamp} bal a={bals.a} b={bals.b} opp_pk={hex8 cfg.opponentPk} sh={hex8 update.stateHash}")
    let sigResponder := cfg.sign msg
    pure ([cfg.encode (.ack ⟨m.nonce, sigResponder⟩)],
      rt.commitMove m next update sigResponder)

def commitPending (p : Pending State Move)
    (sigResponder : Bytes64) : PartyRuntime State Move :=
  { rt with
    state := p.next
    nonce := p.nonce
    pending := none
    lastCommitted := some
      { nonce := p.nonce, bySeat := cfg.seat, mv := p.mv, stateHash := p.stateHash
        timestamp := p.timestamp, partyABalance := p.partyABalance
        partyBBalance := p.partyBBalance, sigProposer := p.sigProposer
        sigResponder := sigResponder } }

def onAck (a : AckFrame) : Handled State Move (List Bytes) :=
  if a.nonce ≤ rt.nonce then (.ok [], rt)
  else
    match rt.pending with
    | none => (.error (.verification "unexpected ack"), rt)
    | some p =>
      let taken := { rt with pending := none }
      if a.nonce ≠ p.nonce then (.error (.verification "unexpected ack nonce"), taken)
      else if cfg.verify cfg.opponentPk p.msg a.sigResponder = false then
        (.error (.verification "ack sig failed"), taken)
      else (.ok [], cfg.commitPending rt p a.sigResponder)

def handleFrame (bytes : Bytes) :
    Handled State Move (List Bytes) :=
  match cfg.decode bytes with
  | .error e => (.error (.ofCodec e), rt)
  | .ok (.move m) => handledOr rt (cfg.onMove rt m)
  | .ok (.ack a) => cfg.onAck rt a

end

end RuntimeConfig

def PartyRuntime.takeLastCommitted (rt : PartyRuntime State Move) :
    Option (TranscriptEntry Move) × PartyRuntime State Move :=
  (rt.lastCommitted, { rt with lastCommitted := none })

/-! ### What a call does -/

namespace RuntimeConfig

variable {cfg : RuntimeConfig State Move} {rt rt' : PartyRuntime State Move}
variable {m : MoveFrame Move} {a : AckFrame} {p : Pending State Move}

theorem orPanic_ok_iff {α : Type} {result : Except String α} {a : α} :
    orPanic result = .ok a ↔ result = .ok a := mapError_ok_iff

def pendingOf (cfg : RuntimeConfig State Move) (rt : PartyRuntime State Move) (mv : Move)
    (timestamp : UInt64) (next : State) (msg : Bytes) : Pending State Move where
  next := next
  msg := msg
  nonce := rt.nonce + 1
  mv := mv
  stateHash := (cfg.updateOf next (rt.nonce + 1) timestamp).stateHash
  timestamp := timestamp
  partyABalance := (cfg.protocol.balances next).a
  partyBBalance := (cfg.protocol.balances next).b
  sigProposer := cfg.sign msg

theorem propose_ok_iff {mv : Move} {timestamp : UInt64} {bytes : Bytes} :
    cfg.propose rt mv timestamp = .ok (bytes, rt') ↔
      rt.pending = none ∧ rt.nonce.toNat + 1 < 2 ^ 64 ∧ ∃ next msg,
        cfg.protocol.applyMove rt.state mv cfg.seat = .ok next ∧
        serializeStateUpdate (cfg.updateOf next (rt.nonce + 1) timestamp) = .ok msg ∧
        bytes = cfg.encode (.move (cfg.moveFrame (cfg.pendingOf rt mv timestamp next msg))) ∧
        rt' = { rt with pending := some (cfg.pendingOf rt mv timestamp next msg) } := by
  simp only [propose, buildUpdate, returned, mapError_ok_iff, orPanic_ok_iff,
    Option.isNone_iff_eq_none, Prod.mk.injEq]
  constructor
  · rintro ⟨hfree, next, happly, hbound, _, ⟨msg, hmsg, rfl⟩, rfl, rfl⟩
    exact ⟨hfree, hbound, next, msg, happly, hmsg, rfl, rfl⟩
  · rintro ⟨hfree, hbound, next, msg, happly, hmsg, rfl, rfl⟩
    exact ⟨hfree, next, happly, hbound, _, ⟨msg, hmsg, rfl⟩, rfl, rfl⟩

/-- A move beyond the confirmed nonce is co-signed exactly if nothing is pending, it is the next
one, by the other seat and legal, and the frame carries its balances, hash and signature. -/
theorem onMove_ok_iff {out : List Bytes} (hnew : rt.nonce < m.nonce) :
    cfg.onMove rt m = .ok (out, rt') ↔
      rt.pending = none ∧ m.bySeat ≠ cfg.seat ∧ m.nonce = rt.nonce + 1 ∧ ∃ next msg,
        cfg.protocol.applyMove rt.state m.mv m.bySeat = .ok next ∧
        (cfg.protocol.balances next).a = m.partyABalance ∧
        (cfg.protocol.balances next).b = m.partyBBalance ∧
        (cfg.updateOf next m.nonce m.timestamp).stateHash = m.stateHash ∧
        serializeStateUpdate (cfg.updateOf next m.nonce m.timestamp) = .ok msg ∧
        cfg.verify cfg.opponentPk msg m.sigProposer = true ∧
        out = [cfg.encode (.ack ⟨m.nonce, cfg.sign msg⟩)] ∧
        rt' = rt.commitMove m next (cfg.updateOf next m.nonce m.timestamp) (cfg.sign msg) := by
  rw [onMove, if_neg (UInt64.not_le.mpr hnew)]
  simp only [returned, mapError_ok_iff, orPanic_ok_iff, Option.isNone_iff_eq_none, Prod.mk.injEq]
  constructor
  · rintro ⟨hfree, hby, hnext, next, happly, ⟨ha, hb⟩, hhash, msg, hmsg, hverify, rfl, rfl⟩
    exact ⟨hfree, hby, hnext, next, msg, happly, ha, hb, hhash, hmsg, hverify, rfl, rfl⟩
  · rintro ⟨hfree, hby, hnext, next, msg, happly, ha, hb, hhash, hmsg, hverify, rfl, rfl⟩
    exact ⟨hfree, hby, hnext, next, happly, ⟨ha, hb⟩, hhash, msg, hmsg, hverify, rfl, rfl⟩

theorem onMove_old (hold : m.nonce ≤ rt.nonce) :
    cfg.onMove rt m = .ok (((rt.lastAck.filter fun a => a.nonce = m.nonce).toList.map
      fun a => cfg.encode (.ack a)), rt) := by
  rw [onMove, if_pos hold]
  cases rt.lastAck.filter fun a => a.nonce = m.nonce <;> rfl

theorem onAck_old (hold : a.nonce ≤ rt.nonce) :
    cfg.onAck rt a = (.ok [], rt) := if_pos hold

/-- An acknowledgement of the pending proposal. -/
def Acknowledges (cfg : RuntimeConfig State Move) (p : Pending State Move) (a : AckFrame) :
    Prop :=
  a.nonce = p.nonce ∧ cfg.verify cfg.opponentPk p.msg a.sigResponder = true

instance (p : Pending State Move) (a : AckFrame) : Decidable (cfg.Acknowledges p a) :=
  inferInstanceAs (Decidable (_ ∧ _))

theorem onAck_of_acknowledges (hpending : rt.pending = some p) (hnew : rt.nonce < p.nonce)
    (hack : cfg.Acknowledges p a) :
    cfg.onAck rt a = (.ok [], cfg.commitPending rt p a.sigResponder) := by
  obtain ⟨hnonce, hverify⟩ := hack
  rw [onAck, if_neg (by rw [hnonce]; exact UInt64.not_le.mpr hnew)]
  simp [hpending, hnonce, hverify]

/-- Any other acknowledgement beyond the confirmed nonce costs the pending proposal. -/
theorem onAck_of_not_acknowledges (hpending : rt.pending = some p) (hnew : rt.nonce < a.nonce)
    (hack : ¬cfg.Acknowledges p a) :
    ∃ e, cfg.onAck rt a = (.error e, { rt with pending := none }) := by
  rw [onAck, if_neg (UInt64.not_le.mpr hnew)]
  simp only [hpending]
  by_cases hnonce : a.nonce = p.nonce
  · have hverify : cfg.verify cfg.opponentPk p.msg a.sigResponder = false := by
      cases h : cfg.verify cfg.opponentPk p.msg a.sigResponder with
      | false => rfl
      | true => exact absurd ⟨hnonce, h⟩ hack
    rw [if_neg (not_not.mpr hnonce), if_pos hverify]
    exact ⟨_, rfl⟩
  · rw [if_pos hnonce]
    exact ⟨_, rfl⟩

theorem onAck_of_no_pending (hpending : rt.pending = none) (hnew : rt.nonce < a.nonce) :
    cfg.onAck rt a = (.error (.verification "unexpected ack"), rt) := by
  rw [onAck, if_neg (UInt64.not_le.mpr hnew)]
  simp [hpending]

end RuntimeConfig

/-! ### Reachable runtimes -/

inductive RuntimeCall (State Move : Type)
  | propose (mv : Move) (timestamp : UInt64)
  | handleFrame (bytes : Bytes)
  | takeLastCommitted
  | withStateMut (state : State)

namespace RuntimeConfig

variable (cfg : RuntimeConfig State Move)

/-- The runtime after a call, whether or not it returned an error. -/
def after (rt : PartyRuntime State Move) : RuntimeCall State Move → PartyRuntime State Move
  | .propose mv timestamp => (handledOr rt (cfg.propose rt mv timestamp)).2
  | .handleFrame bytes => (cfg.handleFrame rt bytes).2
  | .takeLastCommitted => rt.takeLastCommitted.2
  | .withStateMut state => { rt with state := state }

/-- A runtime that some sequence of calls leads to. -/
def Reachable (rt : PartyRuntime State Move) : Prop :=
  ∃ initial calls, rt = List.foldl cfg.after (cfg.withCodec initial) calls

variable {cfg} {rt rt' : PartyRuntime State Move}

theorem handledOr_snd_cases {α : Type} (rt : PartyRuntime State Move)
    (result : Except HarnessError (α × PartyRuntime State Move)) :
    (handledOr rt result).2 = rt ∨ ∃ a, result = .ok (a, (handledOr rt result).2) := by
  cases result with
  | error => exact .inl rfl
  | ok pair => exact .inr ⟨pair.1, rfl⟩

/-- What handling a frame can do to a runtime: nothing, co-sign a move while nothing is pending,
commit the pending proposal, or drop it. -/
theorem handleFrame_cases (cfg : RuntimeConfig State Move) (rt : PartyRuntime State Move)
    (bytes : Bytes) :
    (cfg.handleFrame rt bytes).2 = rt ∨
      (∃ (m : MoveFrame Move) (next : State) (update : StateUpdate) (sig : Bytes64),
        rt.nonce < m.nonce ∧ rt.pending = none ∧
        (cfg.handleFrame rt bytes).2 = rt.commitMove m next update sig) ∨
      (∃ p sig, rt.pending = some p ∧
        (cfg.handleFrame rt bytes).2 = cfg.commitPending rt p sig) ∨
      (cfg.handleFrame rt bytes).2 = { rt with pending := none } := by
  unfold handleFrame
  split
  · exact .inl rfl
  · next m _ =>
      rcases handledOr_snd_cases rt (cfg.onMove rt m) with hsame | ⟨out, hok⟩
      · exact .inl hsame
      · by_cases hold : m.nonce ≤ rt.nonce
        · rw [onMove_old hold]
          exact .inl rfl
        · have hnew := UInt64.not_le.mp hold
          obtain ⟨hfree, -, -, next, _, -, -, -, -, -, -, -, hcommit⟩ :=
            (onMove_ok_iff hnew).mp hok
          exact .inr (.inl ⟨m, next, _, _, hnew, hfree, hcommit⟩)
  · next a _ =>
      by_cases hold : a.nonce ≤ rt.nonce
      · rw [onAck_old hold]
        exact .inl rfl
      · have hnew := UInt64.not_le.mp hold
        cases hpending : rt.pending with
        | none =>
          rw [onAck_of_no_pending hpending hnew]
          exact .inl rfl
        | some p =>
          by_cases hack : cfg.Acknowledges p a
          · rw [onAck_of_acknowledges hpending (hack.1 ▸ hnew) hack]
            exact .inr (.inr (.inl ⟨p, _, rfl, rfl⟩))
          · obtain ⟨_, he⟩ := onAck_of_not_acknowledges hpending hnew hack
            rw [he]
            exact .inr (.inr (.inr rfl))

/-- A pending proposal is for the next nonce. -/
def PendingNext (rt : PartyRuntime State Move) : Prop :=
  ∀ p, rt.pending = some p → rt.nonce < p.nonce

theorem PendingNext.after (h : PendingNext rt) (call : RuntimeCall State Move) :
    PendingNext (cfg.after rt call) := by
  cases call with
  | propose mv timestamp =>
    rcases handledOr_snd_cases rt (cfg.propose rt mv timestamp) with hsame | ⟨bytes, hok⟩
    · rw [RuntimeConfig.after, hsame]
      exact h
    · obtain ⟨-, _, next, _, -, -, -, hrt⟩ := propose_ok_iff.mp hok
      rw [RuntimeConfig.after, hrt]
      intro p hp
      cases hp
      rw [UInt64.lt_iff_toNat_lt]
      simp only [pendingOf, UInt64.toNat_add, UInt64.toNat_one]
      omega
  | handleFrame bytes =>
    rw [RuntimeConfig.after]
    rcases handleFrame_cases cfg rt bytes with
      hsame | ⟨m, next, update, sig, -, hfree, hcommit⟩ | ⟨p, sig, -, hcommit⟩ | hdrop
    · rw [hsame]
      exact h
    · rw [hcommit]
      intro p hp
      rw [PartyRuntime.commitMove, hfree] at hp
      cases hp
    · rw [hcommit]
      rintro _ ⟨⟩
    · rw [hdrop]
      rintro _ ⟨⟩
  | takeLastCommitted => exact h
  | withStateMut => exact h

theorem Reachable.pendingNext (h : cfg.Reachable rt) : PendingNext rt := by
  obtain ⟨_, calls, rfl⟩ := h
  induction calls using List.reverseRecOn with
  | nil => rintro _ ⟨⟩
  | append_singleton _ call ih =>
    rw [List.foldl_append]
    exact ih.after call

/-! ### Failed frames -/

/-- A failed frame leaves the runtime as it was, so an acknowledgement of the pending proposal
commits it afterwards. -/
def FailsHarmlessly (cfg : RuntimeConfig State Move) (rt : PartyRuntime State Move)
    (bytes : Bytes) : Prop :=
  ∀ e rt', cfg.handleFrame rt bytes = (.error e, rt') →
    rt'.state = rt.state ∧ rt'.nonce = rt.nonce ∧ rt'.pending = rt.pending ∧
    rt'.lastAck = rt.lastAck ∧ rt'.lastCommitted = rt.lastCommitted ∧
    ∀ p a ackBytes, rt.pending = some p → cfg.Acknowledges p a →
      cfg.decode ackBytes = .ok (.ack a) →
      cfg.handleFrame rt' ackBytes = (.ok [], cfg.commitPending rt' p a.sigResponder)

/-- An acknowledgement beyond the confirmed nonce that is not one of the pending proposal. -/
def WrongAck (cfg : RuntimeConfig State Move) (rt : PartyRuntime State Move) (bytes : Bytes) :
    Prop :=
  ∃ p a, rt.pending = some p ∧ cfg.decode bytes = .ok (.ack a) ∧ rt.nonce < a.nonce ∧
    ¬cfg.Acknowledges p a

theorem handleFrame_error {bytes : Bytes} {e : HarnessError} (hright : ¬cfg.WrongAck rt bytes)
    (h : cfg.handleFrame rt bytes = (.error e, rt')) : rt' = rt := by
  unfold handleFrame at h
  split at h
  · cases h
    rfl
  · next m _ =>
      cases hmove : cfg.onMove rt m with
      | error =>
        rw [hmove] at h
        cases h
        rfl
      | ok =>
        rw [hmove] at h
        cases h
  · next a hdecode =>
      by_cases hold : a.nonce ≤ rt.nonce
      · rw [onAck_old hold] at h
        cases h
      · have hnew := UInt64.not_le.mp hold
        cases hpending : rt.pending with
        | none =>
          rw [onAck_of_no_pending hpending hnew] at h
          cases h
          rfl
        | some p =>
          by_cases hack : cfg.Acknowledges p a
          · rw [onAck_of_acknowledges hpending (hack.1 ▸ hnew) hack] at h
            cases h
          · exact absurd ⟨p, a, hpending, hdecode, hnew, hack⟩ hright

end RuntimeConfig

/-- Failed frames are harmless to a reachable runtime exactly if they are not wrong
acknowledgements that meet a pending proposal. -/
theorem failed_frame_harmless_iff {cfg : RuntimeConfig State Move}
    {rt : PartyRuntime State Move} (hreach : cfg.Reachable rt) (bytes : Bytes) :
    cfg.FailsHarmlessly rt bytes ↔ ¬cfg.WrongAck rt bytes := by
  constructor
  · rintro hharmless ⟨p, a, hpending, hdecode, hnew, hack⟩
    obtain ⟨e, he⟩ := RuntimeConfig.onAck_of_not_acknowledges hpending hnew hack
    have hhandle : cfg.handleFrame rt bytes = (.error e, { rt with pending := none }) := by
      simp [RuntimeConfig.handleFrame, hdecode, he]
    have hkept := (hharmless e _ hhandle).2.2.1
    rw [hpending] at hkept
    cases hkept
  · intro hright e rt' h
    obtain rfl := RuntimeConfig.handleFrame_error hright h
    refine ⟨rfl, rfl, rfl, rfl, rfl, ?_⟩
    intro p a ackBytes hpending hack hdecode
    simp only [RuntimeConfig.handleFrame, hdecode]
    exact RuntimeConfig.onAck_of_acknowledges hpending (hreach.pendingNext p hpending) hack

namespace Sample

/-- The players take turns, party A first; the state counts the moves. -/
def turnGame : Protocol Nat Unit where
  name := "turns"
  initialState _ := 0
  applyMove n _ seat :=
    if seat = (if n % 2 = 0 then .A else .B) then .ok (n + 1) else .error "not your turn"
  encodeState n := beBytes 8 n
  balances _ := ⟨10, 10⟩
  isTerminal _ := false

def key : Seat → UInt8
  | .A => 1
  | .B => 2

/-- A signature repeats the end of the message behind the signer's key. -/
def signature (key : UInt8) (message : Bytes) : Bytes64 :=
  ⟨(key :: message.reverse ++ List.replicate 63 0).take 64, by simp⟩

/-- A number as that many ones before a zero. -/
def encodeNat (n : Nat) : Bytes := List.replicate n 1 ++ [0]

def decodeNat (bytes : Bytes) : Nat × Bytes :=
  ((bytes.takeWhile (· == 1)).length, (bytes.dropWhile (· == 1)).tail)

def decodeU64 (bytes : Bytes) : UInt64 × Bytes :=
  (UInt64.ofNat (decodeNat bytes).1, (decodeNat bytes).2)

def decode32 (bytes : Bytes) : Bytes32 × Bytes :=
  (⟨(bytes ++ List.replicate 32 0).take 32, by simp⟩, bytes.drop 32)

def decode64 (bytes : Bytes) : Bytes64 × Bytes :=
  (⟨(bytes ++ List.replicate 64 0).take 64, by simp⟩, bytes.drop 64)

def encode : TunnelFrame Unit → Bytes
  | .move m => key m.bySeat :: (encodeNat m.nonce.toNat ++ (encodeNat m.timestamp.toNat ++
      (encodeNat m.partyABalance.toNat ++ (encodeNat m.partyBBalance.toNat ++
        (m.stateHash.bytes ++ m.sigProposer.bytes)))))
  | .ack a => 0 :: (encodeNat a.nonce.toNat ++ a.sigResponder.bytes)

def decodeMove (bySeat : Seat) (bytes : Bytes) : TunnelFrame Unit :=
  let (nonce, rest) := decodeU64 bytes
  let (timestamp, rest) := decodeU64 rest
  let (partyABalance, rest) := decodeU64 rest
  let (partyBBalance, rest) := decodeU64 rest
  let (stateHash, rest) := decode32 rest
  .move
    { nonce := nonce, bySeat := bySeat, mv := (), timestamp := timestamp, stateHash := stateHash
      partyABalance := partyABalance, partyBBalance := partyBBalance
      sigProposer := (decode64 rest).1 }

def decode : Bytes → Except CodecError (TunnelFrame Unit)
  | 0 :: bytes => .ok (.ack ⟨(decodeU64 bytes).1, (decode64 (decodeU64 bytes).2).1⟩)
  | 1 :: bytes => .ok (decodeMove .A bytes)
  | 2 :: bytes => .ok (decodeMove .B bytes)
  | _ => .error (.malformed "unknown frame kind")

theorem decodeNat_encodeNat (n : Nat) (rest : Bytes) :
    decodeNat (encodeNat n ++ rest) = (n, rest) := by
  simp [decodeNat, encodeNat]

theorem decodeU64_encodeNat (n : UInt64) (rest : Bytes) :
    decodeU64 (encodeNat n.toNat ++ rest) = (n, rest) := by
  rw [decodeU64, decodeNat_encodeNat]
  simp

theorem decode32_bytes (b : Bytes32) (rest : Bytes) : decode32 (b.bytes ++ rest) = (b, rest) := by
  have hlength := b.length_bytes
  rw [decode32, Prod.mk.injEq]
  refine ⟨Bytes32.ext_bytes ?_, ?_⟩
  · simp only [List.append_assoc]
    rw [← hlength, List.take_left]
  · rw [← hlength, List.drop_left]

theorem decode64_bytes (b : Bytes64) : (decode64 b.bytes).1 = b := by
  have hlength := b.length_bytes
  apply Bytes64.ext_bytes
  simp only [decode64]
  rw [← hlength, List.take_left]

theorem decode_encode (frame : TunnelFrame Unit) : decode (encode frame) = .ok frame := by
  cases frame with
  | ack =>
    simp [encode, decode, decodeU64_encodeNat, decode64_bytes]
  | move m =>
    have hmove : ∀ seat, decodeMove seat (encodeNat m.nonce.toNat ++ (encodeNat m.timestamp.toNat ++
        (encodeNat m.partyABalance.toNat ++ (encodeNat m.partyBBalance.toNat ++
          (m.stateHash.bytes ++ m.sigProposer.bytes))))) = .move { m with bySeat := seat } := by
      intro seat
      simp [decodeMove, decodeU64_encodeNat, decode32_bytes, decode64_bytes]
    cases hseat : m.bySeat with
    | A | B =>
      rw [encode, hseat]
      simp [key, decode, hmove, ← hseat]

theorem length_padded (bytes : Bytes) :
    ((bytes.reverse ++ List.replicate 32 0).take 32).length = 32 := by simp

def runtime (seat : Seat) : RuntimeConfig Nat Unit where
  protocol := turnGame
  sign := signature (key seat)
  blake2b256 bytes := ⟨_, length_padded bytes⟩
  verify publicKey message sig := sig = signature (publicKey.bytes.headD 0) message
  encode := encode
  decode := decode
  opponentPk := Bytes32.fill (key seat.other)
  tunnelId := "0x7"
  seat := seat

def proposed : PartyRuntime Nat Unit :=
  [.propose () 5].foldl (runtime .A).after ((runtime .A).withCodec ⟨10, 10⟩)

theorem reachable_proposed : (runtime .A).Reachable proposed := ⟨_, _, rfl⟩

def genuineAck : Bytes :=
  encode (.ack ⟨1, signature (key .B) (proposed.pending.elim [] Pending.msg)⟩)

/-- An acknowledgement of the same nonce under a signature of nobody. -/
def forgedAck : Bytes := encode (.ack ⟨1, Bytes64.fill 0⟩)

end Sample

theorem failed_frame_harmless_iff_malformed :
    Sample.proposed.pending.isSome = true ∧
    ((Sample.runtime .A).handleFrame Sample.proposed [7]).1 =
      .error (.verification "malformed frame: unknown frame kind") ∧
    ((Sample.runtime .A).FailsHarmlessly Sample.proposed [7] ↔
      ¬(Sample.runtime .A).WrongAck Sample.proposed [7]) :=
  ⟨by decide +kernel, by decide +kernel,
    failed_frame_harmless_iff Sample.reachable_proposed [7]⟩

/-- A forged acknowledgement fails and takes the proposal with it: the acknowledgement of the
peer, which was good before, is not expected any more. -/
theorem forged_ack_drops_proposal :
    (Sample.runtime .A).Reachable Sample.proposed ∧
    Sample.proposed.pending.isSome = true ∧
    ((Sample.runtime .A).handleFrame Sample.proposed Sample.genuineAck).1 = .ok [] ∧
    ∃ rt', (Sample.runtime .A).handleFrame Sample.proposed Sample.forgedAck =
        (.error (.verification "ack sig failed"), rt') ∧
      rt'.pending = none ∧
      ((Sample.runtime .A).handleFrame rt' Sample.genuineAck).1 =
        .error (.verification "unexpected ack") ∧
      ¬(Sample.runtime .A).FailsHarmlessly Sample.proposed Sample.forgedAck := by
  have hpending : Sample.proposed.pending.isSome = true := by decide +kernel
  have hforged : ((Sample.runtime .A).handleFrame Sample.proposed Sample.forgedAck).1 =
      .error (.verification "ack sig failed") := by decide +kernel
  have hdropped : ((Sample.runtime .A).handleFrame Sample.proposed
      Sample.forgedAck).2.pending.isNone = true := by decide +kernel
  have hlater : ((Sample.runtime .A).handleFrame ((Sample.runtime .A).handleFrame Sample.proposed
      Sample.forgedAck).2 Sample.genuineAck).1 = .error (.verification "unexpected ack") := by
    decide +kernel
  obtain ⟨rt', hhandle⟩ : ∃ rt', (Sample.runtime .A).handleFrame Sample.proposed
      Sample.forgedAck = (.error (.verification "ack sig failed"), rt') :=
    ⟨_, Prod.ext hforged rfl⟩
  rw [hhandle] at hdropped hlater
  have hnone := Option.isNone_iff_eq_none.mp hdropped
  refine ⟨Sample.reachable_proposed, hpending, by decide +kernel, rt', hhandle, hnone, hlater, ?_⟩
  intro hharmless
  have hkept := (hharmless _ _ hhandle).2.2.1
  rw [← hkept, hnone] at hpending
  cases hpending

end DopamintArena.Rust
