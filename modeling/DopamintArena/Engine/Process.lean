import DopamintArena.Engine.Pair
import DopamintArena.Engine.Signer
import DopamintArena.Engine.Sound
import DopamintArena.Foundation.Fields

/-!
`core/distributedTunnel.ts` once more, statement by statement: the methods of a
`DistributedTunnel` assign its fields one after the other and may throw in
between, and what was assigned before a throw stays assigned.

Every method checks first and assigns afterwards, with one exception: `propose`
encodes the MOVE after the proposal is seated. The transport and the hooks are
taken not to throw. What encoding a move does, the codec of the game and
`JSON.stringify`, is a parameter that may.
-/

namespace DopamintArena.Engine

open Foundation

variable {State Move : Type}

/-- A method of a tunnel. The fields are the seat, next to what the call has sent, signed
and reported so far. -/
abbrev Method (State Move α : Type) := EStateM String (Turn State Move) α

namespace Methods

variable (encodeMove : Move → Except String Bytes) (cfg : Config State Move)

def assign (u : Seat State Move → Seat State Move) : Method State Move PUnit :=
  modify fun t => { t with seat := u t.seat }

def sign (item : Signed) : Method State Move PUnit :=
  modify fun t => { t with signed := t.signed ++ [item] }

def send (frame : Frame Move) : Method State Move PUnit :=
  modify fun t => { t with sent := t.sent ++ [frame] }

def seatPending (move : Move) (timestamp : Int) : Method State Move PUnit := do
  let s ← reading fun t => .ok t.seat
  reading fun _ => require (s.pending.isNone = true) "a proposal is already awaiting ACK"
  let next ← reading fun _ => cfg.protocol.applyMove s.state move cfg.selfParty
  let balances := cfg.protocol.balances next
  reading fun _ => require (balances.a + balances.b = cfg.total)
    s!"balance sum {balances.a + balances.b} != locked total {cfg.total}"
  let encoded ← reading fun _ => cfg.protocol.encodeState next
  let update : StateUpdate :=
    { tunnelId := cfg.tunnelId, stateHash := (cfg.crypto.blake2b256 encoded).bytes
      nonce := s.nonce + 1, timestamp := timestamp
      partyABalance := balances.a, partyBBalance := balances.b }
  let msg ← reading fun _ => serializeStateUpdate update
  sign (.update update)
  assign fun s => { s with pending := some ⟨next, update, msg, cfg.sign msg, move, timestamp⟩ }

def resendPending : Method State Move PUnit := do
  let s ← reading fun t => .ok t.seat
  match s.pending with
  | none => pure ()
  | some p => do
    let _ ← reading fun _ => encodeMove p.move
    send (pendingMoveFrame cfg p)

def propose (move : Move) (timestamp : Int) : Method State Move PUnit := do
  seatPending cfg move timestamp
  resendPending encodeMove cfg
  modify fun t => { t with proposed := true }

def onMove (frame : MoveFrame Move) : Method State Move PUnit := do
  reading fun _ => require (frame.byParty ≠ cfg.selfParty) "received a MOVE attributed to self"
  let s ← reading fun t => .ok t.seat
  if frame.nonce ≤ s.nonce then
    match s.latest with
    | none => pure ()
    | some latest =>
      if frame.nonce = s.nonce ∧ latest.update.nonce = frame.nonce then do
        let msg ← reading fun _ => serializeStateUpdate latest.update
        sign (.update latest.update)
        send (.ack ⟨frame.nonce, cfg.sign msg⟩)
      else pure ()
  else do
    reading fun _ => require (frame.nonce = s.nonce + 1)
      s!"nonce gap: got {frame.nonce}, expected {s.nonce + 1}"
    let next ← reading fun _ => cfg.protocol.applyMove s.state frame.move frame.byParty
    let balances := cfg.protocol.balances next
    reading fun _ => require (balances.a + balances.b = cfg.total)
      s!"balance sum {balances.a + balances.b} != locked total {cfg.total}"
    reading fun _ => require (balances.a = frame.partyABalance ∧ balances.b = frame.partyBBalance)
      "frame balances != re-derived balances"
    let encoded ← reading fun _ => cfg.protocol.encodeState next
    reading fun _ => require ((cfg.crypto.blake2b256 encoded).bytes = frame.stateHash)
      "frame stateHash != re-derived stateHash"
    let update : StateUpdate :=
      { tunnelId := cfg.tunnelId, stateHash := (cfg.crypto.blake2b256 encoded).bytes
        nonce := frame.nonce, timestamp := frame.timestamp
        partyABalance := balances.a, partyBBalance := balances.b }
    let msg ← reading fun _ => serializeStateUpdate update
    reading fun _ => require (cfg.opponent.verify msg frame.sigProposer = true)
      "proposer signature failed verification"
    sign (.update update)
    let latest := coSign cfg update (cfg.sign msg) frame.sigProposer
    assign fun s => { s with latest := some latest }
    assign fun s => { s with state := next }
    assign fun s => { s with nonce := frame.nonce }
    assign fun s => { s with pending := dropOvertaken s.pending s.nonce }
    send (.ack ⟨frame.nonce, cfg.sign msg⟩)
    modify fun t => { t with confirmed := some latest }

def onAck (frame : AckFrame) : Method State Move PUnit := do
  let s ← reading fun t => .ok t.seat
  if frame.nonce ≤ s.nonce then pure ()
  else
    match s.pending with
    | none => reading fun _ => .error s!"unexpected ACK for nonce {frame.nonce}"
    | some p => do
      reading fun _ => require (frame.nonce = p.update.nonce)
        s!"unexpected ACK for nonce {frame.nonce}"
      reading fun _ => require (cfg.opponent.verify p.msg frame.sigResponder = true)
        "responder signature failed verification"
      let latest := coSign cfg p.update p.sigSelf frame.sigResponder
      assign fun s => { s with latest := some latest }
      assign fun s => { s with state := p.next }
      assign fun s => { s with nonce := p.update.nonce }
      assign fun s => { s with pending := none }
      modify fun t => { t with confirmed := some latest }

def onFrame : Frame Move → Method State Move PUnit
  | .move frame => onMove cfg frame
  | .ack frame => onAck cfg frame

def adoptCheckpoint (state : State) (coSigned : CoSignedUpdate) : Method State Move PUnit := do
  let u := coSigned.update
  reading fun _ => require (u.tunnelId = cfg.tunnelId) "adoptCheckpoint: tunnelId mismatch"
  let s ← reading fun t => .ok t.seat
  if u.nonce < s.nonce then pure ()
  else do
    reading fun _ => require (u.partyABalance + u.partyBBalance = cfg.total)
      "adoptCheckpoint: balance sum != locked total"
    let encoded ← reading fun _ => cfg.protocol.encodeState state
    reading fun _ => require ((cfg.crypto.blake2b256 encoded).bytes = u.stateHash)
      "adoptCheckpoint: state hash mismatch"
    let verified ← reading fun _ =>
      verifyCoSignedUpdate cfg.crypto coSigned (partyA cfg) (partyB cfg)
    reading fun _ => require (verified = true)
      "adoptCheckpoint: co-signature verification failed"
    assign fun s => { s with state := state }
    assign fun s => { s with nonce := u.nonce }
    assign fun s => { s with latest := some coSigned }
    assign fun s => { s with pending := dropOvertaken s.pending u.nonce }

def buildSettlementHalf (timestamp onchainNonce : Int) : Method State Move PUnit := do
  let s ← reading fun t => .ok t.seat
  let settlement := settlementFor cfg s timestamp onchainNonce
  let _msg ← reading fun _ => serializeSettlement settlement
  sign (.settlement settlement)

def buildSettlementHalfWithRoot (timestamp : Int) (transcriptRoot : Bytes)
    (onchainNonce : Int) : Method State Move PUnit := do
  reading fun _ => require (transcriptRoot.length = 32) "transcriptRoot must be 32 bytes"
  let s ← reading fun t => .ok t.seat
  let settlement := settlementWithRootFor cfg s timestamp transcriptRoot onchainNonce
  let _msg ← reading fun _ => serializeSettlementWithRoot settlement
  sign (.settlementWithRoot settlement)

/-- The method an event calls. -/
def call : Input State Move → Method State Move PUnit
  | .propose move timestamp => propose encodeMove cfg move timestamp
  | .seatPending move timestamp => seatPending cfg move timestamp
  | .resendPending => resendPending encodeMove cfg
  | .frame frame => onFrame cfg frame
  | .adoptCheckpoint state coSigned => adoptCheckpoint cfg state coSigned
  | .buildSettlementHalf timestamp onchainNonce =>
    buildSettlementHalf cfg timestamp onchainNonce
  | .buildSettlementHalfWithRoot timestamp transcriptRoot onchainNonce =>
    buildSettlementHalfWithRoot cfg timestamp transcriptRoot onchainNonce

end Methods

/-- From a seat, a method does what the function says, and leaves the fields alone when it
throws. -/
def Mirrors (m : Method State Move PUnit)
    (f : Seat State Move → Except String (Turn State Move)) : Prop :=
  ∀ s, Atomic m { seat := s } ((f s).map fun turn => ((), turn))

section Atomicity

variable {encodeMove : Move → Except String Bytes} {cfg : Config State Move}

theorem mirrors_seatPending (move : Move) (timestamp : Int) :
    Mirrors (Methods.seatPending cfg move timestamp)
      fun s => seatPending cfg s move timestamp := by
  intro s
  have hatomic : Atomic (Methods.seatPending cfg move timestamp) { seat := s } _ :=
    Atomic.reading_ok_bind rfl <| .reading_bind fun _ => .reading_bind fun next =>
      .reading_bind fun _ => .reading_bind fun encoded =>
        .reading_bind fun msg => .modify_bind <| atomic_modify _ _
  simp only [seatPending, map_bind, map_pure]
  exact hatomic

theorem mirrors_onMove (frame : MoveFrame Move) :
    Mirrors (Methods.onMove cfg frame) fun s => onMove cfg s frame := by
  intro s
  simp only [onMove, map_bind]
  apply Atomic.reading_bind
  intro _
  apply Atomic.reading_ok_bind rfl
  split
  · cases hlatest : s.latest with
    | none => exact atomic_pure _ _
    | some =>
      simp only
      split
      · simp only [map_bind, map_pure]
        exact .reading_bind fun msg => .modify_bind <| atomic_modify _ _
      · exact atomic_pure _ _
  · simp only [map_bind, map_pure]
    exact .reading_bind fun _ => .reading_bind fun next =>
      .reading_bind fun _ => .reading_bind fun _ =>
        .reading_bind fun encoded => .reading_bind fun _ =>
          .reading_bind fun msg => .reading_bind fun _ =>
            .modify_bind <| .modify_bind <| .modify_bind <| .modify_bind <| .modify_bind <|
              .modify_bind <| atomic_modify _ _

theorem mirrors_onAck (frame : AckFrame) :
    Mirrors (Methods.onAck cfg frame) fun s => onAck cfg s frame := by
  intro s
  apply Atomic.reading_ok_bind rfl
  simp only [onAck]
  split
  · exact atomic_pure _ _
  · cases hpending : s.pending with
    | none => exact atomic_throw rfl
    | some =>
      simp only [map_bind, map_pure]
      exact .reading_bind fun _ => .reading_bind fun _ =>
        .modify_bind <| .modify_bind <| .modify_bind <| .modify_bind <| atomic_modify _ _

theorem mirrors_adoptCheckpoint (state : State) (coSigned : CoSignedUpdate) :
    Mirrors (Methods.adoptCheckpoint cfg state coSigned)
      fun s => adoptCheckpoint cfg s state coSigned := by
  intro s
  simp only [adoptCheckpoint, map_bind]
  apply Atomic.reading_bind
  intro _
  apply Atomic.reading_ok_bind rfl
  split
  · exact atomic_pure _ _
  · simp only [map_bind, map_pure]
    exact .reading_bind fun _ => .reading_bind fun encoded =>
      .reading_bind fun _ => .reading_bind fun verified =>
        .reading_bind fun _ =>
          .modify_bind <| .modify_bind <| .modify_bind <| atomic_modify _ _

theorem mirrors_buildSettlementHalf (timestamp onchainNonce : Int) :
    Mirrors (Methods.buildSettlementHalf cfg timestamp onchainNonce)
      fun s => buildSettlementHalf cfg s timestamp onchainNonce := by
  intro s
  simp only [buildSettlementHalf, map_bind, map_pure]
  exact Atomic.reading_ok_bind rfl <| .reading_bind fun _ => atomic_modify _ _

theorem mirrors_buildSettlementHalfWithRoot (timestamp : Int) (transcriptRoot : Bytes)
    (onchainNonce : Int) :
    Mirrors (Methods.buildSettlementHalfWithRoot cfg timestamp transcriptRoot onchainNonce)
      fun s => buildSettlementHalfWithRoot cfg s timestamp transcriptRoot onchainNonce := by
  intro s
  simp only [buildSettlementHalfWithRoot, map_bind, map_pure]
  exact .reading_bind fun _ => Atomic.reading_ok_bind rfl <|
    .reading_bind fun _ => atomic_modify _ _

/-- How a call ends. A proposal whose move cannot be encoded is refused with the proposal already
seated and signed. -/
inductive Ends (encodeMove : Move → Except String Bytes) (cfg : Config State Move)
    (s : Seat State Move) (input : Input State Move) :
    EStateM.Result String (Turn State Move) PUnit → Prop
  | returned {turn : Turn State Move} (hact : act cfg s input = .ok turn) :
      Ends encodeMove cfg s input (.ok () turn)
  | refused (e : String) : Ends encodeMove cfg s input (.error e { seat := s })
  | stranded {move : Move} {timestamp : Int} {e : String} {turn : Turn State Move}
      (hinput : input = .propose move timestamp) (hencode : encodeMove move = .error e)
      (hact : act cfg s (.seatPending move timestamp) = .ok turn) :
      Ends encodeMove cfg s input (.error e turn)

theorem Mirrors.ends {input : Input State Move}
    (h : Mirrors (Methods.call encodeMove cfg input) fun s => act cfg s input)
    (s : Seat State Move) :
    Ends encodeMove cfg s input ((Methods.call encodeMove cfg input).run { seat := s }) := by
  have hatomic : Atomic _ _ ((act cfg s input).map fun turn => ((), turn)) := h s
  cases hact : act cfg s input with
  | error e =>
    rw [hact] at hatomic
    rw [Atomic.run_error hatomic]
    exact .refused e
  | ok =>
    rw [hact] at hatomic
    rw [Atomic.run_ok hatomic]
    exact .returned hact

theorem resendPending_throws {t : Turn State Move} {p : PendingProposal State Move} {e : String}
    (hpending : t.seat.pending = some p) (hencode : encodeMove p.move = .error e) :
    Atomic (Methods.resendPending encodeMove cfg) t (.error e) := by
  apply Atomic.reading_ok_bind rfl
  simp only [hpending]
  exact Atomic.reading_error_bind hencode

theorem resendPending_sends {t : Turn State Move} {p : PendingProposal State Move} {bytes : Bytes}
    (hpending : t.seat.pending = some p) (hencode : encodeMove p.move = .ok bytes) :
    Atomic (Methods.resendPending encodeMove cfg) t
      (.ok ((), { t with sent := t.sent ++ [pendingMoveFrame cfg p] })) := by
  apply Atomic.reading_ok_bind rfl
  simp only [hpending]
  exact Atomic.reading_ok_bind hencode (atomic_modify _ _)

theorem ends_resendPending (s : Seat State Move) :
    Ends encodeMove cfg s .resendPending
      ((Methods.resendPending encodeMove cfg).run { seat := s }) := by
  obtain ⟨state, nonce, latest, _ | p⟩ := s
  · exact .returned rfl
  · cases hencode : encodeMove p.move with
    | error e =>
      rw [(resendPending_throws rfl hencode).run_error]
      exact .refused e
    | ok =>
      rw [(resendPending_sends rfl hencode).run_ok]
      exact .returned rfl

theorem ends_propose (s : Seat State Move) (move : Move) (timestamp : Int) :
    Ends encodeMove cfg s (.propose move timestamp)
      ((Methods.propose encodeMove cfg move timestamp).run { seat := s }) := by
  have hseated : Atomic (Methods.seatPending cfg move timestamp) { seat := s }
      ((seatPending cfg s move timestamp).map fun turn => ((), turn)) :=
    mirrors_seatPending move timestamp s
  cases hseat : seatPending cfg s move timestamp with
  | error e =>
    rw [hseat] at hseated
    rw [Methods.propose, Atomic.run_bind_error hseated]
    exact .refused e
  | ok turn =>
    rw [hseat] at hseated
    rw [Methods.propose, Atomic.run_bind_ok hseated]
    obtain ⟨-, next, update, msg, -, rfl⟩ := seatPending_ok_iff.mp hseat
    -- the proposal is seated by now, and stays so if its move cannot be encoded
    cases hencode : encodeMove move with
    | error e =>
      rw [(resendPending_throws rfl hencode).run_bind_error]
      exact .stranded rfl hencode hseat
    | ok =>
      rw [(resendPending_sends rfl hencode).run_bind_ok]
      refine .returned ?_
      simp only [act, propose, hseat, ok_bind]
      rfl

variable (encodeMove cfg) in
theorem ends_call (s : Seat State Move) (input : Input State Move) :
    Ends encodeMove cfg s input ((Methods.call encodeMove cfg input).run { seat := s }) := by
  cases input with
  | propose move timestamp => exact ends_propose s move timestamp
  | seatPending move timestamp => exact Mirrors.ends (by exact mirrors_seatPending move timestamp) s
  | resendPending => exact ends_resendPending s
  | frame frame =>
    cases frame with
    | move frame => exact Mirrors.ends (by exact mirrors_onMove frame) s
    | ack frame => exact Mirrors.ends (by exact mirrors_onAck frame) s
  | adoptCheckpoint state coSigned =>
    exact Mirrors.ends (by exact mirrors_adoptCheckpoint state coSigned) s
  | buildSettlementHalf timestamp onchainNonce =>
    exact Mirrors.ends (by exact mirrors_buildSettlementHalf timestamp onchainNonce) s
  | buildSettlementHalfWithRoot timestamp transcriptRoot onchainNonce =>
    exact Mirrors.ends
      (by exact mirrors_buildSettlementHalfWithRoot timestamp transcriptRoot onchainNonce) s

end Atomicity

/-- The fields after a method, whether it threw or not. -/
def fieldsOf : EStateM.Result String (Turn State Move) PUnit → Turn State Move
  | .ok _ t => t
  | .error _ t => t

/-- A tunnel and what it has signed after it was asked for something. -/
def attempt (encodeMove : Move → Except String Bytes) (cfg : Config State Move)
    (w : Signer State Move) (input : Input State Move) : Signer State Move :=
  let t := fieldsOf ((Methods.call encodeMove cfg input).run { seat := w.seat })
  ⟨t.seat, w.signed ++ t.signed⟩

/-- Everything a tunnel is asked to do, one event after the other, by a network that does
not forge its signatures. An event that throws is an event too. -/
def processSystem (encodeMove : Move → Except String Bytes) (cfg : Config State Move)
    (start : Seat State Move) :
    System (Signer State Move) (Seat State Move × Input State Move) where
  init history w := history = [] ∧ w = ⟨start, []⟩
  step w event w' := event.1 = w.seat ∧ Unforged cfg w.signed event.2 ∧
    w' = attempt encodeMove cfg w event.2

/-- The bytes a call hashes, if it gets that far. -/
def hashes (cfg : Config State Move) (s : Seat State Move) : Input State Move → Option Bytes
  | .propose move _ | .seatPending move _ =>
    (cfg.protocol.applyMove s.state move cfg.selfParty >>= cfg.protocol.encodeState).toOption
  | .frame (.move frame) =>
    (cfg.protocol.applyMove s.state frame.move frame.byParty >>=
      cfg.protocol.encodeState).toOption
  | .adoptCheckpoint state _ => (cfg.protocol.encodeState state).toOption
  | _ => none

def hashed (cfg : Config State Move) (history : List (Seat State Move × Input State Move)) :
    List Bytes :=
  history.filterMap fun event => hashes cfg event.1 event.2

/-- No two byte strings the tunnel has hashed have the same hash. -/
def CollisionFree (cfg : Config State Move)
    (history : List (Seat State Move × Input State Move)) : Prop :=
  ∀ bytes ∈ hashed cfg history, ∀ bytes' ∈ hashed cfg history,
    cfg.crypto.blake2b256 bytes = cfg.crypto.blake2b256 bytes' → bytes = bytes'

/-- The latest update is signed by both parties and is about the confirmed state, and a
proposal is for the next nonce. -/
structure Consistent (cfg : Config State Move) (s : Seat State Move) : Prop where
  signed : ∀ held, s.latest = some held → ∃ message, FullySigned cfg held message
  nonce : ∀ held, s.latest = some held → held.update.nonce = s.nonce
  describes : ∀ held, s.latest = some held → Describes cfg s.state held.update
  pending : ∀ p, s.pending = some p → p.update.nonce = s.nonce + 1

section Accounted

variable {encodeMove : Move → Except String Bytes} {cfg : Config State Move}
variable {history : List (Seat State Move × Input State Move)} {w : Signer State Move}
variable {bytes msg : Bytes} {s start : Seat State Move} {input : Input State Move} {state : State}

/-- `u` is the update for `state`, whose encoding the tunnel has hashed. -/
def Known (cfg : Config State Move) (history : List (Seat State Move × Input State Move))
    (state : State) (u : StateUpdate) : Prop :=
  Describes cfg state u ∧
    ∀ bytes, cfg.protocol.encodeState state = .ok bytes → bytes ∈ hashed cfg history

/-- Everything signed or held is the update for some state the tunnel has hashed. -/
structure Accounted (cfg : Config State Move)
    (history : List (Seat State Move × Input State Move)) (w : Signer State Move) : Prop where
  grounded : Grounded cfg (updatesOf w.signed) w.seat
  sound : Sound cfg w.seat
  signed : ∀ u ∈ updatesOf w.signed, ∃ state, Known cfg history state u
  latest : ∀ held, w.seat.latest = some held → Known cfg history w.seat.state held.update
  pending : ∀ p, w.seat.pending = some p → Known cfg history p.next p.update

theorem mem_hashed_append (event : Seat State Move × Input State Move)
    (h : bytes ∈ hashed cfg history) : bytes ∈ hashed cfg (history ++ [event]) := by
  rw [hashed, List.filterMap_append]
  exact List.mem_append_left _ h

theorem mem_hashed_last (h : hashes cfg s input = some bytes) :
    bytes ∈ hashed cfg (history ++ [(s, input)]) := by
  simp [hashed, h]

theorem Known.append {u : StateUpdate} (h : Known cfg history state u)
    (event : Seat State Move × Input State Move) : Known cfg (history ++ [event]) state u :=
  ⟨h.1, fun bytes hbytes => mem_hashed_append event (h.2 bytes hbytes)⟩

theorem accounted_fresh (hfresh : Fresh start) :
    Accounted cfg [] ⟨start, []⟩ where
  grounded := grounded_fresh hfresh
  sound := sound_fresh hfresh
  signed u hu := by cases hu
  latest held h := by simp only [hfresh.latest, reduceCtorEq] at h
  pending p h := by simp only [hfresh.pending, reduceCtorEq] at h

section

variable (h : Accounted cfg history w)
include h

theorem Accounted.append
    (event : Seat State Move × Input State Move) : Accounted cfg (history ++ [event]) w where
  grounded := h.grounded
  sound := h.sound
  signed u hu := by
    obtain ⟨state, hknown⟩ := h.signed u hu
    exact ⟨state, hknown.append event⟩
  latest held hheld := (h.latest held hheld).append event
  pending p hp := (h.pending p hp).append event

omit h in
/-- What a seat derives for a move is about a state it hashes. -/
theorem Derived.known {move : Move} {party : Party} {timestamp : Int} {next : State}
    {update : StateUpdate} (h : Derived cfg s move party timestamp next update msg)
    (hhashes : hashes cfg s input =
      (cfg.protocol.applyMove s.state move party >>= cfg.protocol.encodeState).toOption) :
    Known cfg (history ++ [(s, input)]) next update := by
  refine ⟨h.describes, fun bytes hbytes => mem_hashed_last ?_⟩
  rw [hhashes, h.applied, ok_bind, hbytes]
  rfl

/-- A checkpoint the seat has signed is about the state it is adopted with: the hash has
no collision there, and the encoding determines the shares. -/
theorem Accounted.adoptable {coSigned : CoSignedUpdate}
    (hbalances : cfg.protocol.EncodesBalances) (hinjective : CollisionFree cfg
      (history ++ [(w.seat, .adoptCheckpoint state coSigned)]))
    (hunforged : Unforged cfg w.signed (.adoptCheckpoint state coSigned))
    (hadoptable : Adoptable cfg w.seat state coSigned msg) :
    Known cfg (history ++ [(w.seat, .adoptCheckpoint state coSigned)]) state
      coSigned.update := by
  obtain ⟨signedState, hdescribes, hknown⟩ :=
    h.signed _ (hunforged.signed h.grounded.tunnelId hadoptable)
  obtain ⟨bytes, hbytes, hhash⟩ := hadoptable.encoded
  obtain ⟨signedBytes, hsignedBytes, hsignedHash⟩ := hdescribes.encoded
  have hnow : bytes ∈ hashed cfg (history ++ [(w.seat, .adoptCheckpoint state coSigned)]) := by
    apply mem_hashed_last
    rw [hashes, hbytes]
    rfl
  have hearlier := mem_hashed_append (w.seat, .adoptCheckpoint state coSigned)
    (hknown signedBytes hsignedBytes)
  have hsame : bytes = signedBytes :=
    hinjective _ hnow _ hearlier (Bytes32.ext_bytes (hhash.symm.trans hsignedHash))
  subst hsame
  have hshares := hbalances signedState state bytes hsignedBytes hbytes
  refine ⟨⟨hadoptable.tunnelId, ⟨bytes, hbytes, hhash⟩, ?_, ?_, hadoptable.balanced⟩, ?_⟩
  · rw [hdescribes.shareA, hshares]
  · rw [hdescribes.shareB, hshares]
  · intro other hother
    rw [hbytes, Except.ok.injEq] at hother
    rw [← hother]
    exact hnow

theorem Accounted.signs
    (event : Seat State Move × Input State Move) {items : List Signed}
    (hitems : ∀ u ∈ updatesOf items, ∃ state, Known cfg (history ++ [event]) state u) :
    ∀ u ∈ updatesOf (w.signed ++ items), ∃ state, Known cfg (history ++ [event]) state u := by
  intro u hu
  rw [updatesOf_append, List.mem_append] at hu
  rcases hu with hu | hu
  · obtain ⟨state, hknown⟩ := h.signed u hu
    exact ⟨state, hknown.append event⟩
  · exact hitems u hu

/-- One call keeps everything accounted for. -/
theorem accounted_act {turn : Turn State Move}
    (hbalances : cfg.protocol.EncodesBalances)
    (hinjective : CollisionFree cfg (history ++ [(w.seat, input)]))
    (hunforged : Unforged cfg w.signed input) (hact : act cfg w.seat input = .ok turn) :
    Accounted cfg (history ++ [(w.seat, input)]) ⟨turn.seat, w.signed ++ turn.signed⟩ := by
  have heffect := act_effect hact
  have hgrounded : Grounded cfg (updatesOf (w.signed ++ turn.signed)) turn.seat := by
    rw [updatesOf_append]
    exact grounded_effect h.grounded heffect
  have hsound := sound_effect h.sound heffect
  have hlater := h.append (w.seat, input)
  cases heffect with
  | idle | resent =>
    exact ⟨hgrounded, hsound, h.signs _ (by simp [updatesOf]), hlater.latest, hlater.pending⟩
  | half | halfWithRoot =>
    exact ⟨hgrounded, hsound, h.signs _ (by simp [updatesOf, Signed.update?]),
      hlater.latest, hlater.pending⟩
  | reacked _ latest _ hlatest =>
    refine ⟨hgrounded, hsound, h.signs _ ?_, hlater.latest, hlater.pending⟩
    intro u hu
    obtain rfl : u = latest.update := by
      simpa [updatesOf, reacknowledgement, Signed.update?] using hu
    exact ⟨_, hlater.latest latest hlatest⟩
  | seated _ _ next update _ _ hderived | proposed _ _ next update _ _ hderived =>
    refine ⟨hgrounded, hsound, h.signs _ ?_, hlater.latest, ?_⟩
    · intro u hu
      obtain rfl : u = update := by simpa [updatesOf, Signed.update?] using hu
      exact ⟨next, hderived.known rfl⟩
    · intro p hp
      cases hp
      exact hderived.known rfl
  | accepted frame next update _ _ _ hderived =>
    have hknown : Known cfg (history ++ [(w.seat, .frame (.move frame))]) next update :=
      hderived.known rfl
    refine ⟨hgrounded, hsound, h.signs _ ?_, ?_, ?_⟩
    · intro u hu
      obtain rfl : u = update := by
        simpa [updatesOf, acceptance, Signed.update?] using hu
      exact ⟨next, hknown⟩
    · intro held hheld
      cases hheld
      rw [coSign_update]
      exact hknown
    · intro p hp
      exact hlater.pending p (dropOvertaken_some.mp hp).1
  | acked _ p hpending =>
    refine ⟨hgrounded, hsound, h.signs _ (by simp [updatesOf, confirmation]), ?_, ?_⟩
    · intro held hheld
      cases hheld
      rw [coSign_update]
      exact hlater.pending p hpending
    · intro p' hp'
      cases hp'
  | adopted _ _ _ hadoptable =>
    refine ⟨hgrounded, hsound, h.signs _ (by simp [updatesOf, adoption]), ?_, ?_⟩
    · intro held hheld
      cases hheld
      exact h.adoptable hbalances hinjective hunforged hadoptable
    · intro p hp
      exact hlater.pending p (dropOvertaken_some.mp hp).1

end

theorem hashed_seatPending (move : Move) (timestamp : Int) :
    hashed cfg (history ++ [(s, .seatPending move timestamp)]) =
      hashed cfg (history ++ [(s, .propose move timestamp)]) := by
  simp only [hashed, List.filterMap_append]
  rfl

theorem Accounted.of_hashed {history' : List (Seat State Move × Input State Move)}
    (h : Accounted cfg history w) (hsame : hashed cfg history = hashed cfg history') :
    Accounted cfg history' w := by
  have hknown : ∀ {state u}, Known cfg history state u → Known cfg history' state u := by
    intro state u hu
    rw [Known, ← hsame]
    exact hu
  exact ⟨h.grounded, h.sound, fun u hu => (h.signed u hu).imp fun _ => hknown,
    fun held hheld => hknown (h.latest held hheld), fun p hp => hknown (h.pending p hp)⟩

/-- One event keeps everything accounted for, whether it throws or not. -/
theorem accounted_attempt (h : Accounted cfg history w) (hbalances : cfg.protocol.EncodesBalances)
    (hinjective : CollisionFree cfg (history ++ [(w.seat, input)]))
    (hunforged : Unforged cfg w.signed input) :
    Accounted cfg (history ++ [(w.seat, input)]) (attempt encodeMove cfg w input) := by
  have hends := ends_call encodeMove cfg w.seat input
  rw [attempt]
  generalize (Methods.call encodeMove cfg input).run { seat := w.seat } = result at hends ⊢
  cases hends with
  | returned hact => exact accounted_act h hbalances hinjective hunforged hact
  | refused =>
    simp only [fieldsOf, List.append_nil]
    exact h.append _
  | stranded hinput _ hact =>
    subst hinput
    rw [CollisionFree, ← hashed_seatPending] at hinjective
    exact (accounted_act h hbalances hinjective (unforged_of_play (by simp)) hact).of_hashed
      (hashed_seatPending _ _)

theorem process_accounted (hfresh : Fresh start)
    (hbalances : cfg.protocol.EncodesBalances)
    (hrun : (processSystem encodeMove cfg start).Run history w)
    (hinjective : CollisionFree cfg history) :
    Accounted cfg history w := by
  induction hrun with
  | start hstart =>
    obtain ⟨rfl, rfl⟩ := hstart
    exact accounted_fresh hfresh
  | @step _ _ _ event _ hstep ih =>
    have hearlier := ih fun bytes hbytes bytes' hbytes' =>
      hinjective bytes (mem_hashed_append event hbytes) bytes' (mem_hashed_append event hbytes')
    obtain ⟨_, _⟩ := event
    obtain ⟨rfl, hunforged, rfl⟩ := hstep
    exact accounted_attempt hearlier hbalances hinjective hunforged

end Accounted

/-- The move an event proposes, if it proposes one, can be encoded. -/
def Encodable (encodeMove : Move → Except String Bytes) : Input State Move → Prop
  | .propose move _ => ∃ bytes, encodeMove move = .ok bytes
  | _ => True

/-- Whatever happens to a tunnel, its latest update is signed by both parties for the
confirmed state, and an event that throws changes nothing unless it proposes a move that cannot be
encoded. -/
theorem tunnel_consistent {crypto : Crypto} {protocol : Protocol State Move}
    {options : DistributedConfig Move} {initialBalances : Balances} {cfg : Config State Move}
    {start : Seat State Move} {encodeMove : Move → Except String Bytes}
    {history : List (Seat State Move × Input State Move)} {w : Signer State Move}
    (hcreate : create crypto protocol options initialBalances = .ok (cfg, start))
    (hbalances : protocol.EncodesBalances)
    (hrun : (processSystem encodeMove cfg start).Run history w)
    (hinjective : CollisionFree cfg history) :
    Consistent cfg w.seat ∧
      ∀ input e t, Encodable encodeMove input →
        (Methods.call encodeMove cfg input).run { seat := w.seat } = .error e t →
          t.seat = w.seat := by
  have hcreated := create_ok hcreate
  have haccounted : Accounted cfg history w := by
    apply process_accounted hcreated.fresh _ hrun hinjective
    rw [hcreated.protocol]
    exact hbalances
  constructor
  · refine ⟨haccounted.sound.latest, ?_, ?_, ?_⟩
    · intro held hheld
      exact haccounted.grounded.latestNonce held hheld
    · intro held hheld
      exact (haccounted.latest held hheld).1
    · intro p hp
      exact haccounted.grounded.pendingNonce p hp
  · intro input e t hencodable hthrown
    have hends := ends_call encodeMove cfg w.seat input
    rw [hthrown] at hends
    cases hends with
    | refused => rfl
    | stranded hinput hencode =>
      subst hinput
      obtain ⟨_, hbytes⟩ := hencodable
      rw [hbytes] at hencode
      cases hencode

namespace Sample

def encodePayment (move : Games.PaymentMove) : Except String Bytes :=
  .ok (bytesOf (toString move.amount))

def paymentSignature : Bytes :=
  let encoded := Games.Payments.encodeState ⟨9, 11, 20, 1⟩
  let message := encoded.bind fun bytes => serializeStateUpdate
    ⟨"0x7", (crypto.blake2b256 bytes).bytes, 1, 5, 9, 11⟩
  key .B ++ message.toOption.getD []

/-- A payment, an attempt to make it again before it is acknowledged, and the
acknowledgement. -/
def paymentOnce : List (Input Games.PaymentsState Games.PaymentMove) :=
  [.propose ⟨.A, 1⟩ 5, .propose ⟨.A, 1⟩ 6, .frame (.ack ⟨1, paymentSignature⟩)]

def paymentsSystem := processSystem encodePayment (paymentsConfig .A) (paymentsPair.seat .A)

def paymentReplay : Except String (Signer Games.PaymentsState Games.PaymentMove ×
    List (Seat Games.PaymentsState Games.PaymentMove ×
      Input Games.PaymentsState Games.PaymentMove)) :=
  System.replay (fun w input =>
    match input with
    | .adoptCheckpoint .. => .error "no checkpoints"
    | input => .ok ((w.seat, input), attempt encodePayment (paymentsConfig .A) w input))
    ⟨paymentsPair.seat .A, []⟩ [] paymentOnce

end Sample

theorem tunnel_consistent_payment : ∃ history w, Sample.paymentsSystem.Run history w ∧
    history.length = 3 ∧ w.seat.nonce = 1 ∧ Consistent (Sample.paymentsConfig .A) w.seat := by
  have heval : Sample.paymentReplay.map (fun r => (r.2.length, r.1.seat.nonce,
      decide (∀ bytes ∈ hashed (Sample.paymentsConfig .A) r.2,
        ∀ bytes' ∈ hashed (Sample.paymentsConfig .A) r.2,
          (Sample.paymentsConfig .A).crypto.blake2b256 bytes =
            (Sample.paymentsConfig .A).crypto.blake2b256 bytes' → bytes = bytes'))) =
      .ok (3, 1, true) := by
    decide +kernel
  obtain ⟨⟨w, history⟩, hreplay, hfacts⟩ := map_ok_iff.mp heval
  simp only [Prod.mk.injEq, decide_eq_true_eq] at hfacts
  obtain ⟨hlength, hnonce, hinjective⟩ := hfacts
  have hrun : Sample.paymentsSystem.Run history w := by
    refine System.replay_run (.start ⟨rfl, rfl⟩) hreplay fun w input entry w' hnext => ?_
    split at hnext
    · cases hnext
    · next hplay =>
        cases hnext
        exact ⟨rfl, unforged_of_play hplay, rfl⟩
  exact ⟨history, w, hrun, hlength, hnonce, (tunnel_consistent
    (Sample.create_sample Games.Payments.protocol ⟨10, 10⟩ .A (by decide))
    Games.Payments.encodesBalances hrun hinjective).1⟩

/-- The amount of a payment is a bigint, which `JSON.stringify` does not take. -/
def Sample.stringifyPayment (_ : Games.PaymentMove) : Except String Bytes :=
  .error "Do not know how to serialize a BigInt"

/-- With the move codec left at its default, `propose` throws on a payment and leaves it pending. -/
theorem payment_pending_after_throw :
    create Sample.crypto Games.Payments.protocol (Sample.options _ .A) ⟨10, 10⟩ =
        .ok (Sample.paymentsConfig .A, Sample.paymentsPair.seat .A) ∧
      Games.Payments.protocol.EncodesBalances ∧ (Sample.paymentsPair.seat .A).pending = none ∧
      ∃ t, (Methods.call Sample.stringifyPayment (Sample.paymentsConfig .A)
          (.propose ⟨.A, 1⟩ 5)).run { seat := Sample.paymentsPair.seat .A } =
            .error "Do not know how to serialize a BigInt" t ∧
        t.seat.pending.isSome = true :=
  ⟨Sample.create_sample Games.Payments.protocol ⟨10, 10⟩ .A (by decide),
    Games.Payments.encodesBalances, rfl, _, rfl, rfl⟩

end DopamintArena.Engine
