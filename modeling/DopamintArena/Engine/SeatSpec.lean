import DopamintArena.Engine.Seat

/-!
What a call of a seat that did not throw can have done. Each method has one
lemma that lists its guards; `Effect` puts them together, and later arguments
about seats are case analyses of it.
-/

namespace DopamintArena.Engine

open Foundation

variable {State Move : Type} {cfg : Config State Move} {s : Seat State Move}
variable {turn : Turn State Move}
variable {frame : MoveFrame Move} {msg : Bytes} {state : State} {coSigned : CoSignedUpdate}

/-- `update` is the update of this tunnel for the state `next`. -/
structure Describes (cfg : Config State Move) (next : State) (update : StateUpdate) :
    Prop where
  tunnelId : update.tunnelId = cfg.tunnelId
  encoded : ∃ encoded, cfg.protocol.encodeState next = .ok encoded ∧
    update.stateHash = (cfg.crypto.blake2b256 encoded).bytes
  shareA : update.partyABalance = (cfg.protocol.balances next).a
  shareB : update.partyBBalance = (cfg.protocol.balances next).b
  balanced : update.partyABalance + update.partyBBalance = cfg.total

/-- `update`, with message `msg`, is what a seat derives from its confirmed state for a
move of `party`. -/
structure Derived (cfg : Config State Move) (s : Seat State Move) (move : Move)
    (party : Party) (timestamp : Int) (next : State) (update : StateUpdate) (msg : Bytes) :
    Prop where
  applied : cfg.protocol.applyMove s.state move party = .ok next
  describes : Describes cfg next update
  nonce : update.nonce = s.nonce + 1
  timestamp : update.timestamp = timestamp
  serialized : serializeStateUpdate update = .ok msg

def proposal (cfg : Config State Move) (move : Move) (timestamp : Int) (next : State)
    (update : StateUpdate) (msg : Bytes) : PendingProposal State Move :=
  ⟨next, update, msg, cfg.sign msg, move, timestamp⟩

theorem seatPending_ok_iff {move : Move} {timestamp : Int} :
    seatPending cfg s move timestamp = .ok turn ↔
      s.pending = none ∧ ∃ next update msg,
        Derived cfg s move cfg.selfParty timestamp next update msg ∧
        turn =
          { seat := { s with pending := some (proposal cfg move timestamp next update msg) }
            signed := [.update update] } := by
  simp only [seatPending, returned, Option.isNone_iff_eq_none]
  constructor
  · rintro ⟨hfree, next, happlied, hbalanced, encoded, hencoded, msg, hmsg, rfl⟩
    exact ⟨hfree, next, _, msg,
      ⟨happlied, ⟨rfl, ⟨encoded, hencoded, rfl⟩, rfl, rfl, hbalanced⟩, rfl, rfl, hmsg⟩, rfl⟩
  · rintro ⟨hfree, next, update, msg, hderived, rfl⟩
    obtain ⟨happlied, ⟨htunnel, ⟨encoded, hencoded, hhash⟩, hA, hB, hbalanced⟩, hnonce,
      htimestamp, hmsg⟩ := hderived
    obtain ⟨_, _, _, _, _, _⟩ := update
    simp only at htunnel hhash hA hB hbalanced hnonce htimestamp
    subst htunnel hhash hA hB hnonce htimestamp
    exact ⟨hfree, next, happlied, hbalanced, encoded, hencoded, msg, hmsg, rfl⟩

/-- The checks a responder makes on a MOVE beyond re-deriving its update. -/
structure Matches (cfg : Config State Move) (frame : MoveFrame Move) (update : StateUpdate)
    (msg : Bytes) : Prop where
  stateHash : frame.stateHash = update.stateHash
  shareA : frame.partyABalance = update.partyABalance
  shareB : frame.partyBBalance = update.partyBBalance
  verified : cfg.opponent.verify msg frame.sigProposer = true

/-- The turn of a responder that co-signs `update`. -/
def acceptance (cfg : Config State Move) (s : Seat State Move) (frame : MoveFrame Move)
    (next : State) (update : StateUpdate) (msg : Bytes) : Turn State Move where
  seat :=
    { state := next, nonce := update.nonce
      latest := some (coSign cfg update (cfg.sign msg) frame.sigProposer)
      pending := dropOvertaken s.pending update.nonce }
  sent := [.ack ⟨update.nonce, cfg.sign msg⟩]
  signed := [.update update]
  confirmed := some (coSign cfg update (cfg.sign msg) frame.sigProposer)

/-- The turn of a responder that acknowledges a confirmed update once more. -/
def reacknowledgement (cfg : Config State Move) (s : Seat State Move)
    (latest : CoSignedUpdate) (msg : Bytes) : Turn State Move where
  seat := s
  sent := [.ack ⟨s.nonce, cfg.sign msg⟩]
  signed := [.update latest.update]

/-- A replayed MOVE changes nothing; at the current nonce it is acknowledged again. -/
theorem onMove_stale_ok (hstale : frame.nonce ≤ s.nonce) (h : onMove cfg s frame = .ok turn) :
    turn = { seat := s } ∨ ∃ latest msg, s.latest = some latest ∧
      latest.update.nonce = s.nonce ∧ serializeStateUpdate latest.update = .ok msg ∧
      turn = reacknowledgement cfg s latest msg := by
  simp only [onMove, hstale, if_true, returned] at h
  obtain ⟨-, h⟩ := h
  cases hlatest : s.latest with
  | none =>
    simp only [hlatest, pure_ok_iff] at h
    exact .inl h
  | some latest =>
    simp only [hlatest] at h
    split at h
    · next hsame =>
        simp only [returned] at h
        obtain ⟨msg, hmsg, rfl⟩ := h
        obtain ⟨hnonce, hlatestNonce⟩ := hsame
        refine .inr ⟨latest, msg, rfl, hlatestNonce.trans hnonce, hmsg, ?_⟩
        rw [hnonce]
        rfl
    · exact .inl (pure_ok_iff.mp h)

theorem onMove_repeated {held : CoSignedUpdate} (hparty : frame.byParty ≠ cfg.selfParty)
    (hnonce : frame.nonce = s.nonce) (hlatest : s.latest = some held)
    (hheld : held.update.nonce = s.nonce) (hmsg : serializeStateUpdate held.update = .ok msg) :
    onMove cfg s frame = .ok (reacknowledgement cfg s held msg) := by
  have hrequired : require (frame.byParty ≠ cfg.selfParty)
      "received a MOVE attributed to self" = .ok ⟨⟩ := require_ok_iff.mpr hparty
  simp only [onMove, hrequired, ok_bind, hnonce, le_refl, if_true, hlatest, hheld, and_self,
    hmsg]
  rfl

/-- A MOVE past the confirmed nonce is co-signed exactly when it is the next one, its
update is the one this seat derives itself and the proposer signed it. -/
theorem onMove_ok_iff (hnewer : s.nonce < frame.nonce) :
    onMove cfg s frame = .ok turn ↔
      frame.byParty ≠ cfg.selfParty ∧ frame.nonce = s.nonce + 1 ∧ ∃ next update msg,
        Derived cfg s frame.move frame.byParty frame.timestamp next update msg ∧
        Matches cfg frame update msg ∧ turn = acceptance cfg s frame next update msg := by
  have hnotStale : ¬frame.nonce ≤ s.nonce := by omega
  simp only [onMove, hnotStale, if_false, returned]
  constructor
  · rintro ⟨hparty, hnext, next, happlied, hbalanced, ⟨hA, hB⟩, encoded, hencoded, hhash, msg,
      hmsg, hverified, rfl⟩
    exact ⟨hparty, hnext, next, _, msg, ⟨happlied, ⟨rfl, ⟨encoded, hencoded, rfl⟩, rfl, rfl,
      hbalanced⟩, hnext, rfl, hmsg⟩, ⟨hhash.symm, hA.symm, hB.symm, hverified⟩, rfl⟩
  · rintro ⟨hparty, hnext, next, update, msg, hderived, hmatches, rfl⟩
    obtain ⟨happlied, ⟨htunnel, ⟨encoded, hencoded, hhash⟩, hA, hB, hbalanced⟩, hnonce,
      htimestamp, hmsg⟩ := hderived
    obtain ⟨hhash', hA', hB', hverified⟩ := hmatches
    obtain ⟨_, _, _, _, _, _⟩ := update
    simp only at htunnel hhash hA hB hbalanced hnonce htimestamp hhash' hA' hB'
    rw [← hnext] at hnonce
    subst htunnel hhash hA hB hnonce htimestamp
    exact ⟨hparty, hnext, next, happlied, hbalanced, ⟨hA'.symm, hB'.symm⟩, encoded, hencoded,
      hhash'.symm, msg, hmsg, hverified, rfl⟩

def confirmation (cfg : Config State Move) (p : PendingProposal State Move)
    (frame : AckFrame) : Turn State Move where
  seat :=
    { state := p.next, nonce := p.update.nonce
      latest := some (coSign cfg p.update p.sigSelf frame.sigResponder), pending := none }
  confirmed := some (coSign cfg p.update p.sigSelf frame.sigResponder)

theorem onAck_ok_iff {frame : AckFrame} (hnewer : s.nonce < frame.nonce) :
    onAck cfg s frame = .ok turn ↔ ∃ p, s.pending = some p ∧ frame.nonce = p.update.nonce ∧
      cfg.opponent.verify p.msg frame.sigResponder = true ∧
      turn = confirmation cfg p frame := by
  have hnotStale : ¬frame.nonce ≤ s.nonce := by omega
  simp only [onAck, hnotStale, if_false]
  cases s.pending with
  | none => simp
  | some =>
    simp only [returned, Option.some.injEq, exists_eq_left']
    rfl

/-- What a checkpoint has to pass. -/
structure Adoptable (cfg : Config State Move) (s : Seat State Move) (state : State)
    (coSigned : CoSignedUpdate) (msg : Bytes) : Prop where
  tunnelId : coSigned.update.tunnelId = cfg.tunnelId
  notOlder : s.nonce ≤ coSigned.update.nonce
  balanced : coSigned.update.partyABalance + coSigned.update.partyBBalance = cfg.total
  encoded : ∃ encoded, cfg.protocol.encodeState state = .ok encoded ∧
    coSigned.update.stateHash = (cfg.crypto.blake2b256 encoded).bytes
  serialized : serializeStateUpdate coSigned.update = .ok msg
  verifiedA : cfg.crypto.ed25519Verify coSigned.sigA msg (partyA cfg).publicKey = true
  verifiedB : cfg.crypto.ed25519Verify coSigned.sigB msg (partyB cfg).publicKey = true

/-- The turn of a seat that jumps to a checkpoint. -/
def adoption (s : Seat State Move) (state : State) (coSigned : CoSignedUpdate) :
    Turn State Move where
  seat :=
    { state := state, nonce := coSigned.update.nonce, latest := some coSigned
      pending := dropOvertaken s.pending coSigned.update.nonce }

theorem adoptCheckpoint_ok (h : adoptCheckpoint cfg s state coSigned = .ok turn) :
    coSigned.update.nonce < s.nonce ∧ turn = { seat := s } ∨
      ∃ msg, Adoptable cfg s state coSigned msg ∧ turn = adoption s state coSigned := by
  simp only [adoptCheckpoint, returned] at h
  obtain ⟨htunnel, h⟩ := h
  split at h
  · next holder => exact .inl ⟨holder, pure_ok_iff.mp h⟩
  · next hnotOlder =>
      simp only [verifyCoSignedUpdate, returned]
        at h
      obtain ⟨hbalanced, encoded, hencoded, hhash, _, ⟨-, msg, hmsg, rfl⟩, hverified,
        rfl⟩ := h
      rw [Bool.and_eq_true] at hverified
      exact .inr ⟨msg, ⟨htunnel, by omega, hbalanced, ⟨encoded, hencoded, hhash.symm⟩, hmsg,
        hverified.1, hverified.2⟩, rfl⟩

theorem adoptCheckpoint_of_adoptable (hschemeA : (partyA cfg).scheme = schemeEd25519)
    (hschemeB : (partyB cfg).scheme = schemeEd25519) (h : Adoptable cfg s state coSigned msg) :
    adoptCheckpoint cfg s state coSigned = .ok (adoption s state coSigned) := by
  obtain ⟨htunnel, _, hbalanced, ⟨encoded, hencoded, hhash⟩, hmsg, hA, hB⟩ := h
  simp only [adoptCheckpoint, returned]
  refine ⟨htunnel, ?_⟩
  rw [if_neg (by omega)]
  simp only [verifyCoSignedUpdate, returned]
  exact ⟨hbalanced, encoded, hencoded, hhash.symm, true,
    ⟨⟨hschemeA, hschemeB⟩, msg, hmsg, by rw [hA, hB]; rfl⟩, rfl, rfl⟩

/-- Everything a call that did not throw can have done. -/
inductive Effect (cfg : Config State Move) (s : Seat State Move) :
    Input State Move → Turn State Move → Prop
  /-- A replayed or outdated frame, an older checkpoint, nothing to re-send. -/
  | idle (input : Input State Move) : Effect cfg s input { seat := s }
  | resent (p : PendingProposal State Move) (hpending : s.pending = some p) :
      Effect cfg s .resendPending { seat := s, sent := [pendingMoveFrame cfg p] }
  | reacked (frame : MoveFrame Move) (latest : CoSignedUpdate) (msg : Bytes)
      (hlatest : s.latest = some latest) (hnonce : latest.update.nonce = s.nonce)
      (hmsg : serializeStateUpdate latest.update = .ok msg) :
      Effect cfg s (.frame (.move frame)) (reacknowledgement cfg s latest msg)
  | seated (move : Move) (timestamp : Int) (next : State) (update : StateUpdate)
      (msg : Bytes) (hfree : s.pending = none)
      (hderived : Derived cfg s move cfg.selfParty timestamp next update msg) :
      Effect cfg s (.seatPending move timestamp)
        { seat := { s with pending := some (proposal cfg move timestamp next update msg) }
          signed := [.update update] }
  | proposed (move : Move) (timestamp : Int) (next : State) (update : StateUpdate)
      (msg : Bytes) (hfree : s.pending = none)
      (hderived : Derived cfg s move cfg.selfParty timestamp next update msg) :
      Effect cfg s (.propose move timestamp)
        { seat := { s with pending := some (proposal cfg move timestamp next update msg) }
          sent := [pendingMoveFrame cfg (proposal cfg move timestamp next update msg)]
          signed := [.update update]
          proposed := true }
  | accepted (frame : MoveFrame Move) (next : State) (update : StateUpdate) (msg : Bytes)
      (hparty : frame.byParty ≠ cfg.selfParty) (hnonce : frame.nonce = s.nonce + 1)
      (hderived : Derived cfg s frame.move frame.byParty frame.timestamp next update msg)
      (hmatches : Matches cfg frame update msg) :
      Effect cfg s (.frame (.move frame)) (acceptance cfg s frame next update msg)
  | acked (frame : AckFrame) (p : PendingProposal State Move) (hpending : s.pending = some p)
      (hnewer : s.nonce < frame.nonce) (hnonce : frame.nonce = p.update.nonce)
      (hverified : cfg.opponent.verify p.msg frame.sigResponder = true) :
      Effect cfg s (.frame (.ack frame)) (confirmation cfg p frame)
  | adopted (state : State) (coSigned : CoSignedUpdate) (msg : Bytes)
      (hadoptable : Adoptable cfg s state coSigned msg) :
      Effect cfg s (.adoptCheckpoint state coSigned) (adoption s state coSigned)
  | half (timestamp onchainNonce : Int) :
      Effect cfg s (.buildSettlementHalf timestamp onchainNonce)
        { seat := s, signed := [.settlement (settlementFor cfg s timestamp onchainNonce)] }
  | halfWithRoot (timestamp : Int) (root : Bytes) (onchainNonce : Int) :
      Effect cfg s (.buildSettlementHalfWithRoot timestamp root onchainNonce)
        { seat := s
          signed := [.settlementWithRoot
            (settlementWithRootFor cfg s timestamp root onchainNonce)] }

theorem act_effect {input : Input State Move} (h : act cfg s input = .ok turn) :
    Effect cfg s input turn := by
  cases input with
  | propose move timestamp =>
    simp only [act, propose, returned] at h
    obtain ⟨seated, hseated, rfl⟩ := h
    obtain ⟨hfree, next, update, msg, hderived, rfl⟩ := seatPending_ok_iff.mp hseated
    exact .proposed move timestamp next update msg hfree hderived
  | seatPending move timestamp =>
    obtain ⟨hfree, next, update, msg, hderived, rfl⟩ := seatPending_ok_iff.mp h
    exact .seated move timestamp next update msg hfree hderived
  | resendPending =>
    simp only [act, Except.ok.injEq] at h
    subst h
    cases hpending : s.pending with
    | none =>
      simp only [resendPending, hpending, Option.map_none, Option.toList_none]
      exact .idle _
    | some p =>
      simp only [resendPending, hpending, Option.map_some, Option.toList_some]
      exact .resent p hpending
  | frame frame =>
    cases frame with
    | move frame =>
      by_cases hstale : frame.nonce ≤ s.nonce
      · rcases onMove_stale_ok hstale h with rfl | ⟨latest, msg, hlatest, hnonce, hmsg, rfl⟩
        · exact .idle _
        · exact .reacked frame latest msg hlatest hnonce hmsg
      · obtain ⟨hparty, hnonce, next, update, msg, hderived, hmatches, rfl⟩ :=
          (onMove_ok_iff (by omega)).mp h
        exact .accepted frame next update msg hparty hnonce hderived hmatches
    | ack frame =>
      by_cases hstale : frame.nonce ≤ s.nonce
      · simp only [act, onFrame, onAck, hstale, if_true, Except.ok.injEq] at h
        subst h
        exact .idle _
      · obtain ⟨p, hpending, hnonce, hverified, rfl⟩ := (onAck_ok_iff (by omega)).mp h
        exact .acked frame p hpending (by omega) hnonce hverified
  | adoptCheckpoint state coSigned =>
    rcases adoptCheckpoint_ok h with ⟨-, rfl⟩ | ⟨msg, hadoptable, rfl⟩
    · exact .idle _
    · exact .adopted state coSigned msg hadoptable
  | buildSettlementHalf timestamp onchainNonce =>
    simp only [act, buildSettlementHalf, returned] at h
    obtain ⟨-, -, rfl⟩ := h
    exact .half timestamp onchainNonce
  | buildSettlementHalfWithRoot timestamp root onchainNonce =>
    simp only [act, buildSettlementHalfWithRoot, returned] at h
    obtain ⟨-, -, -, rfl⟩ := h
    exact .halfWithRoot timestamp root onchainNonce

end DopamintArena.Engine
