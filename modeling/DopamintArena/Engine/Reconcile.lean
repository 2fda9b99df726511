import Mathlib.Data.List.DropRight
import DopamintArena.Engine.Resume

/-!
`core/reconcile.ts` and the handshake of `pvp/resumeSession.ts` between two
live seats. A connection drops and comes back any number of times; each time a
seat is back it announces where it stands (a resync) and re-sends its pending
proposal, and the other side adopts, re-sends or waits.

Frames of the tunnel may arrive late, twice, in any order or never. What a seat
sends since it is back, and what that leads to, is tracked: it is outstanding
until it arrives. An exchange is over when both seats are back and nothing is
outstanding.
-/

namespace DopamintArena.Engine

open Foundation

/-- What one seat sends the other over the relay. -/
inductive PeerMessage (Move StateJson : Type)
  | frame (frame : Frame Move)
  | resync (msg : ResyncMessage StateJson)

def framesIn {Move StateJson : Type} (messages : List (PeerMessage Move StateJson)) :
    List (Frame Move) :=
  messages.filterMap fun
    | .frame frame => some frame
    | .resync _ => none

/-- Two seats, every frame ever sent to each, and the exchange since the last drop: who is
back, and what has still to arrive. -/
structure Link (State Move StateJson : Type) where
  seat : Party → Seat State Move
  inbox : Party → List (Frame Move)
  resynced : Party → Bool
  outstanding : Party → List (PeerMessage Move StateJson)

inductive LinkEvent (Move : Type)
  | propose (party : Party) (move : Move) (timestamp : Int)
  | resend (party : Party)
  | disconnect
  /-- The relay reports the match as resumed. -/
  | resumeKick (party : Party)
  /-- Any frame sent to `party` so far arrives, again or for the first time. -/
  | redeliver (party : Party) (index : Nat)
  /-- Something outstanding arrives. -/
  | deliver (party : Party) (index : Nat)

section Model

variable {State Move StateJson MoveJson : Type}
variable (adapter : ResumeAdapter State Move StateJson MoveJson)

def sendResync (s : Seat State Move) : ResyncMessage StateJson where
  view := ⟨s.nonce, s.pending.isSome, s.latest⟩
  fullState := some (adapter.serializeState s.state)

/-- A frame that makes the tunnel throw is lost. -/
def receiveFrame (cfg : Config State Move) (s : Seat State Move) (frame : Frame Move) :
    Seat State Move × List (PeerMessage Move StateJson) :=
  match act cfg s (.frame frame) with
  | .ok turn => (turn.seat, turn.sent.map .frame)
  | .error _ => (s, [])

/-- A seat that adopted a checkpoint beyond which the peer has a proposal asks for it. -/
def onResync (cfg : Config State Move) (s : Seat State Move) (msg : ResyncMessage StateJson) :
    Seat State Move × List (PeerMessage Move StateJson) :=
  match resyncInput adapter s msg with
  | none => (s, [])
  | some input =>
    match act cfg s input with
    | .error _ => (s, [])
    | .ok turn =>
      let again := if !input.plays && msg.view.hasPending then
        [.resync (sendResync adapter turn.seat)] else []
      (turn.seat, turn.sent.map .frame ++ again)

def onMessage (cfg : Config State Move) (s : Seat State Move) :
    PeerMessage Move StateJson → Seat State Move × List (PeerMessage Move StateJson)
  | .frame frame => receiveFrame cfg s frame
  | .resync msg => onResync adapter cfg s msg

namespace Link

variable (w : Link State Move StateJson)

/-- `party` is now at `s` and has sent some messages, some of them tracked. -/
def advance (party : Party) (s : Seat State Move)
    (sent tracked : List (PeerMessage Move StateJson)) : Link State Move StateJson where
  seat := Function.update w.seat party s
  inbox := Function.update w.inbox (otherParty party)
    (w.inbox (otherParty party) ++ framesIn sent)
  resynced := w.resynced
  outstanding := Function.update w.outstanding (otherParty party)
    (w.outstanding (otherParty party) ++ tracked)

/-- A message arrived at `party`. -/
def consume (party : Party) (index : Nat) : Link State Move StateJson :=
  { w with outstanding :=
      Function.update w.outstanding party ((w.outstanding party).eraseIdx index) }

/-- Both seats are back and everything has arrived. -/
def settled : Bool :=
  w.resynced .A && w.resynced .B && (w.outstanding .A).isEmpty && (w.outstanding .B).isEmpty

end Link

def resent (cfg : Config State Move) (s : Seat State Move) :
    List (PeerMessage Move StateJson) :=
  (resendPending cfg s).sent.map .frame

def linkStep (cfg : Party → Config State Move) (w : Link State Move StateJson) :
    LinkEvent Move → Option (Link State Move StateJson)
  | .propose party move timestamp =>
    match act (cfg party) (w.seat party) (.propose move timestamp) with
    | .error _ => none
    | .ok turn =>
      let sent := turn.sent.map .frame
      some (w.advance party turn.seat sent (if w.resynced party then sent else []))
  | .resend party =>
    some (w.advance party (w.seat party) (resent (cfg party) (w.seat party)) [])
  | .disconnect => some { w with resynced := fun _ => false, outstanding := fun _ => [] }
  | .resumeKick party =>
    let sent := .resync (sendResync adapter (w.seat party)) ::
      resent (cfg party) (w.seat party)
    some { w.advance party (w.seat party) sent sent with
      resynced := Function.update w.resynced party true }
  | .redeliver party index =>
    (w.inbox party)[index]?.map fun frame =>
      let result := onMessage adapter (cfg party) (w.seat party) (.frame frame)
      w.advance party result.1 result.2 []
  | .deliver party index =>
    (w.outstanding party)[index]?.map fun message =>
      let result := onMessage adapter (cfg party) (w.seat party) message
      (w.consume party index).advance party result.1 result.2 result.2

abbrev LinkEntry (State Move StateJson : Type) := Link State Move StateJson × LinkEvent Move

def linkSystem (cfg : Party → Config State Move) (start : Party → Seat State Move) :
    System (Link State Move StateJson) (LinkEntry State Move StateJson) where
  init history w := history = [] ∧ w = ⟨start, fun _ => [], fun _ => false, fun _ => []⟩
  step w entry w' := entry.1 = w ∧ linkStep adapter cfg w entry.2 = some w'

end Model

section Properties

variable {State Move StateJson : Type}

/-- At most one move apart, and the same encoding at the same nonce. -/
structure Agree (protocol : Protocol State Move) (s t : Seat State Move) : Prop where
  close : s.nonce ≤ t.nonce + 1 ∧ t.nonce ≤ s.nonce + 1
  same : s.nonce = t.nonce → protocol.encodeState s.state = protocol.encodeState t.state

/-- The same nonce and encoding, and nothing left to answer. -/
structure Converged (protocol : Protocol State Move) (s t : Seat State Move) : Prop where
  nonce : s.nonce = t.nonce
  state : protocol.encodeState s.state = protocol.encodeState t.state
  answered : s.pending = none ∧ t.pending = none

def LinkEvent.isDisconnect : LinkEvent Move → Bool
  | .disconnect => true
  | _ => false

/-- The exchange under way: what has happened since the last disconnect. -/
def sinceDisconnect (history : List (LinkEntry State Move StateJson)) :
    List (LinkEntry State Move StateJson) :=
  history.rtakeWhile fun entry => !entry.2.isDisconnect

/-- No MOVE of the exchange arrives before the one it follows. -/
def inOrder (entry : LinkEntry State Move StateJson) : Bool :=
  match entry.2 with
  | .deliver party index =>
    match (entry.1.outstanding party)[index]? with
    | some (.frame (.move frame)) => frame.nonce ≤ (entry.1.seat party).nonce + 1
    | _ => true
  | _ => true

end Properties

section Invariant

variable {State Move StateJson MoveJson : Type}

/-- `R` relates the states the two seats keep of one game. It only has to be kept by what
the game's own code does: a move sent through the codec, a state sent through the
adapter. Where both are the identity, equality will do. -/
structure Replicas (protocol : Protocol State Move) (codec : Move → Move)
    (adapter : ResumeAdapter State Move StateJson MoveJson) (R : State → State → Prop) :
    Prop where
  initial : ∀ ctx, R (protocol.initialState ctx) (protocol.initialState ctx)
  symm : ∀ s t, R s t → R t s
  encodeState : ∀ s t, R s t → protocol.encodeState s = protocol.encodeState t
  balances : ∀ s t, R s t → protocol.balances s = protocol.balances t
  applyMove : ∀ s t move party next, R s t → protocol.applyMove s move party = .ok next →
    ∃ next', protocol.applyMove t (codec move) party = .ok next' ∧ R next next'
  adapter : ∀ s t, R s t →
    ∃ s', adapter.deserializeState (adapter.serializeState s) = .ok s' ∧ R s s'

/-- Signatures of either seat verify at both. -/
structure KeysWork (cfg : Party → Config State Move) : Prop where
  opponent : ∀ party message, (cfg party).opponent.verify message
    ((cfg (otherParty party)).sign message) = true
  partyA : ∀ party message, (cfg party).crypto.ed25519Verify ((cfg .A).sign message) message
    (partyA (cfg party)).publicKey = true
  partyB : ∀ party message, (cfg party).crypto.ed25519Verify ((cfg .B).sign message) message
    (partyB (cfg party)).publicKey = true
  schemeA : ∀ party, (Engine.partyA (cfg party)).scheme = schemeEd25519
  schemeB : ∀ party, (Engine.partyB (cfg party)).scheme = schemeEd25519

/-- Two seats of one tunnel that can play with each other. -/
structure Connected (protocol : Protocol State Move)
    (adapter : ResumeAdapter State Move StateJson MoveJson) (R : State → State → Prop)
    (cfg : Party → Config State Move) : Prop where
  turnBased : protocol.TurnBased
  replicas : ∀ party, Replicas protocol (cfg party).codec adapter R
  keys : KeysWork cfg
  side : ∀ party, (cfg party).selfParty = party
  protocol : ∀ party, (cfg party).protocol = protocol
  crypto : ∀ p q, (cfg p).crypto = (cfg q).crypto
  tunnelId : ∀ p q, (cfg p).tunnelId = (cfg q).tunnelId
  total : ∀ p q, (cfg p).total = (cfg q).total

/-- Both signatures are the ones the two seats make. -/
structure HonestlySigned (cfg : Party → Config State Move) (held : CoSignedUpdate)
    (msg : Bytes) : Prop where
  serialized : serializeStateUpdate held.update = .ok msg
  sigA : held.sigA = (cfg .A).sign msg
  sigB : held.sigB = (cfg .B).sign msg

/-- What a seat holds is about its own state. -/
structure SeatOk (cfg : Party → Config State Move) (party : Party) (s : Seat State Move) :
    Prop where
  derived : ∀ p, s.pending = some p →
    Derived (cfg party) s p.move (cfg party).selfParty p.timestamp p.next p.update p.msg
  sigSelf : ∀ p, s.pending = some p → p.sigSelf = (cfg party).sign p.msg
  latestNonce : ∀ held, s.latest = some held → held.update.nonce = s.nonce
  describes : ∀ held, s.latest = some held → Describes (cfg party) s.state held.update
  signed : ∀ held, s.latest = some held → ∃ msg, HonestlySigned cfg held msg

def Level (R : State → State → Prop) (s t : Seat State Move) : Prop :=
  s.nonce = t.nonce ∧ R s.state t.state

/-- `t` has confirmed what `s` still has pending. -/
structure Behind (R : State → State → Prop) (s t : Seat State Move)
    (p : PendingProposal State Move) (held : CoSignedUpdate) : Prop where
  pending : s.pending = some p
  latest : t.latest = some held
  update : held.update = p.update
  nonce : t.nonce = s.nonce + 1
  replica : R p.next t.state

def Aligned (R : State → State → Prop) (s t : Seat State Move) : Prop :=
  Level R s t ∨ (∃ p held, Behind R s t p held) ∨ ∃ p held, Behind R t s p held

/-- A message on its way from `t`, the seat of `sender`, to `s`. A MOVE is old or the
pending one, an acknowledgement or a resync is old or about the latest update. -/
def MessageOk (adapter : ResumeAdapter State Move StateJson MoveJson)
    (cfg : Party → Config State Move) (sender : Party) (s t : Seat State Move) :
    PeerMessage Move StateJson → Prop
  | .frame (.move frame) => frame.nonce ≤ s.nonce ∨
      ∃ p, t.pending = some p ∧ .move frame = pendingMoveFrame (cfg sender) p
  | .frame (.ack frame) => frame.nonce ≤ t.nonce ∧ (frame.nonce = t.nonce →
      ∃ held msg, t.latest = some held ∧ serializeStateUpdate held.update = .ok msg ∧
        frame.sigResponder = (cfg sender).sign msg)
  | .resync msg => msg.view.nonce ≤ t.nonce ∧
      (msg.view.nonce = t.nonce → msg.view.checkpoint = t.latest ∧
        msg.fullState = some (adapter.serializeState t.state)) ∧
      (msg.view.nonce = s.nonce →
        decideReconcile.conflict s.latest msg.view.checkpoint = false)

variable {adapter : ResumeAdapter State Move StateJson MoveJson}
variable {protocol : Protocol State Move} {R : State → State → Prop}
variable {cfg : Party → Config State Move} {party : Party} {s t s' : Seat State Move}
variable {state : State} {update : StateUpdate} {p : PendingProposal State Move}
variable {sent : List (PeerMessage Move StateJson)} {message : PeerMessage Move StateJson}

theorem Level.symm (h : Connected protocol adapter R cfg) (hlevel : Level R s t) :
    Level R t s :=
  ⟨hlevel.1.symm, (h.replicas .A).symm _ _ hlevel.2⟩

theorem Aligned.symm (h : Connected protocol adapter R cfg) (haligned : Aligned R s t) :
    Aligned R t s := by
  rcases haligned with hlevel | hbehind | hahead
  · exact .inl (hlevel.symm h)
  · exact .inr (.inr hbehind)
  · exact .inr (.inl hahead)

theorem Aligned.behind (h : Aligned R s t) (hnonce : s.nonce < t.nonce) :
    ∃ p held, Behind R s t p held := by
  rcases h with hlevel | hbehind | ⟨p, held, hahead⟩
  · have hsame := hlevel.1
    omega
  · exact hbehind
  · have hnext := hahead.nonce
    omega

theorem Aligned.level (h : Aligned R s t) (hnonce : s.nonce = t.nonce) : Level R s t := by
  rcases h with hlevel | ⟨p, held, hbehind⟩ | ⟨p, held, hahead⟩
  · exact hlevel
  · have hnext := hbehind.nonce
    omega
  · have hnext := hahead.nonce
    omega

section

variable (h : Connected protocol adapter R cfg)
include h

/-- An update describes all replicas of a state, at either seat. -/
theorem Connected.describes {p q : Party} {state' : State} (hR : R state state')
    (hdescribes : Describes (cfg p) state update) :
    Describes (cfg q) state' update := by
  obtain ⟨htunnel, ⟨encoded, hencoded, hhash⟩, hA, hB, htotal⟩ := hdescribes
  rw [h.protocol] at hencoded hA hB
  refine ⟨?_, ⟨encoded, ?_, ?_⟩, ?_, ?_, ?_⟩
  · rw [htunnel, h.tunnelId p q]
  · rw [h.protocol, ← (h.replicas .A).encodeState _ _ hR, hencoded]
  · rw [hhash, h.crypto p q]
  · rw [hA, h.protocol, (h.replicas .A).balances _ _ hR]
  · rw [hB, h.protocol, (h.replicas .A).balances _ _ hR]
  · rw [htotal, h.total p q]

theorem Connected.not_both_pending (hs : SeatOk cfg party s) (ht : SeatOk cfg (otherParty party) t)
    (hlevel : Level R s t) {q : PendingProposal State Move} (hp : s.pending = some p)
    (hq : t.pending = some q) :
    False := by
  have happlied := (hs.derived p hp).applied
  have happlied' := (ht.derived q hq).applied
  rw [h.protocol, h.side] at happlied happlied'
  obtain ⟨next, hnext, -⟩ := (h.replicas party).applyMove _ _ _ _ _ hlevel.2 happlied
  exact h.turnBased.not_both (otherParty_ne party).symm ⟨next, hnext⟩ ⟨q.next, happlied'⟩

theorem Connected.no_conflict (hs : SeatOk cfg party s) (ht : SeatOk cfg (otherParty party) t)
    (hlevel : Level R s t) :
    decideReconcile.conflict s.latest t.latest = false := by
  cases hmine : s.latest with
  | none => rfl
  | some mine =>
    cases htheirs : t.latest with
    | none => rfl
    | some theirs =>
      obtain ⟨encoded, hencoded, hhash⟩ := (hs.describes mine hmine).encoded
      obtain ⟨_, hencoded', hhash'⟩ := (ht.describes theirs htheirs).encoded
      rw [h.protocol] at hencoded hencoded'
      rw [(h.replicas .A).encodeState _ _ hlevel.2, hencoded', Except.ok.injEq] at hencoded
      simp [decideReconcile.conflict, hhash, hhash', hencoded,
        h.crypto party (otherParty party)]

theorem honestlySigned_coSign {msg : Bytes} (hmsg : serializeStateUpdate update = .ok msg) :
    HonestlySigned cfg (coSign (cfg party) update ((cfg party).sign msg)
      ((cfg (otherParty party)).sign msg)) msg := by
  have hside := h.side party
  cases party with
  | A | B =>
    simp only [coSign, hside]
    exact ⟨hmsg, rfl, rfl⟩

end

theorem seatOk_at {nonce : Int} {held : CoSignedUpdate} {msg : Bytes}
    (hnonce : held.update.nonce = nonce) (hdescribes : Describes (cfg party) state held.update)
    (hsigned : HonestlySigned cfg held msg) :
    SeatOk cfg party { state := state, nonce := nonce, latest := some held, pending := none } where
  derived p hp := by cases hp
  sigSelf p hp := by cases hp
  latestNonce other hother := by
    cases hother
    exact hnonce
  describes other hother := by
    cases hother
    exact hdescribes
  signed other hother := by
    cases hother
    exact ⟨msg, hsigned⟩

/-- The MOVE inside the frame of a proposal. -/
def moveOf (cfg : Config State Move) (p : PendingProposal State Move) : MoveFrame Move where
  nonce := p.update.nonce
  byParty := cfg.selfParty
  move := cfg.codec p.move
  timestamp := p.timestamp
  stateHash := p.update.stateHash
  partyABalance := p.update.partyABalance
  partyBBalance := p.update.partyBBalance
  sigProposer := p.sigSelf

theorem pendingMoveFrame_eq (cfg : Config State Move) (p : PendingProposal State Move) :
    pendingMoveFrame cfg p = .move (moveOf cfg p) := rfl

/-- `s'` is one update further and has nothing pending. -/
structure Advanced (cfg : Party → Config State Move) (party : Party)
    (s s' : Seat State Move) : Prop where
  ok : SeatOk cfg party s'
  nonce : s'.nonce = s.nonce + 1
  pending : s'.pending = none

/-- What a message from `t` does to `s`, the seat of `party`, and what it sends back. -/
inductive Reaction (adapter : ResumeAdapter State Move StateJson MoveJson)
    (cfg : Party → Config State Move) (R : State → State → Prop) (party : Party)
    (s t : Seat State Move) : PeerMessage Move StateJson → Seat State Move →
    List (PeerMessage Move StateJson) → Prop
  /-- A pending MOVE is ignored only across a gap, an awaited acknowledgement never. -/
  | ignored (message : PeerMessage Move StateJson)
      (hmove : ∀ p, t.pending = some p →
        message = .frame (pendingMoveFrame (cfg (otherParty party)) p) → s.nonce < t.nonce)
      (hack : ∀ p sig, s.pending = some p → message ≠ .frame (.ack ⟨p.update.nonce, sig⟩)) :
      Reaction adapter cfg R party s t message s []
  | reacked (frame : MoveFrame Move) (held : CoSignedUpdate) (msg : Bytes)
      (hlatest : s.latest = some held) (hmsg : serializeStateUpdate held.update = .ok msg)
      (hnonce : ∀ p, t.pending = some p →
        .move frame = pendingMoveFrame (cfg (otherParty party)) p → s.nonce = p.update.nonce) :
      Reaction adapter cfg R party s t (.frame (.move frame)) s
        [.frame (.ack ⟨s.nonce, (cfg party).sign msg⟩)]
  | resent (msg : ResyncMessage StateJson) (p : PendingProposal State Move)
      (hp : s.pending = some p) :
      Reaction adapter cfg R party s t (.resync msg) s
        [.frame (pendingMoveFrame (cfg party) p)]
  | accepted (p : PendingProposal State Move) (held : CoSignedUpdate) (s' : Seat State Move)
      (hlevel : Level R s t) (hp : t.pending = some p) (hadvanced : Advanced cfg party s s')
      (hlatest : s'.latest = some held) (hupdate : held.update = p.update)
      (hmsg : serializeStateUpdate p.update = .ok p.msg) (hreplica : R p.next s'.state) :
      Reaction adapter cfg R party s t (.frame (pendingMoveFrame (cfg (otherParty party)) p)) s'
        [.frame (.ack ⟨s'.nonce, (cfg party).sign p.msg⟩)]
  | caughtUp (message : PeerMessage Move StateJson) (p : PendingProposal State Move)
      (held held' : CoSignedUpdate) (s' : Seat State Move)
      (sent : List (PeerMessage Move StateJson)) (hbehind : Behind R s t p held)
      (hadvanced : Advanced cfg party s s') (hlatest : s'.latest = some held')
      (hupdate : held'.update = p.update) (hreplica : R s'.state t.state)
      (hmessage : ∀ frame, message ≠ .frame (.move frame))
      (hsent : ∀ reply ∈ sent, reply = .resync (sendResync adapter s')) :
      Reaction adapter cfg R party s t message s' sent

/-- Receiving `message` is one of these reactions. -/
def Reacts (adapter : ResumeAdapter State Move StateJson MoveJson)
    (cfg : Party → Config State Move) (R : State → State → Prop) (party : Party)
    (s t : Seat State Move) (message : PeerMessage Move StateJson) : Prop :=
  Reaction adapter cfg R party s t message (onMessage adapter (cfg party) s message).1
    (onMessage adapter (cfg party) s message).2

theorem onMessage_error {frame : Frame Move} {e : String}
    (hact : act (cfg party) s (.frame frame) = .error e) :
    onMessage adapter (cfg party) s (.frame frame) = (s, []) := by
  simp [onMessage, receiveFrame, hact]

theorem onMessage_ok {frame : Frame Move} {turn : Turn State Move}
    (hact : act (cfg party) s (.frame frame) = .ok turn) :
    onMessage adapter (cfg party) s (.frame frame) = (turn.seat, turn.sent.map .frame) := by
  simp [onMessage, receiveFrame, hact]

/-- A MOVE that is not the pending one of the peer is at most acknowledged again. -/
theorem reacts_old_move {frame : MoveFrame Move} (hstale : frame.nonce ≤ s.nonce)
    (hother : ∀ p, t.pending = some p →
      .move frame ≠ pendingMoveFrame (cfg (otherParty party)) p) :
    Reacts adapter cfg R party s t (.frame (.move frame)) := by
  have hignored : Reaction adapter cfg R party s t (.frame (.move frame)) s [] := by
    apply Reaction.ignored
    · intro p hp hmessage
      cases hmessage
      exact absurd rfl (hother p hp)
    · intro p sig hp hmessage
      cases hmessage
  cases hact : act (cfg party) s (.frame (.move frame)) with
  | error =>
    rw [Reacts, onMessage_error hact]
    exact hignored
  | ok =>
    rw [Reacts, onMessage_ok hact]
    rcases onMove_stale_ok hstale hact with rfl | ⟨held, msg, hlatest, -, hmsg, rfl⟩
    · exact hignored
    · exact .reacked frame held msg hlatest hmsg fun p hp hmove => absurd hmove (hother p hp)

theorem reacts_early_move (ht : SeatOk cfg (otherParty party) t) (hp : t.pending = some p)
    (hgap : t.nonce = s.nonce + 1) :
    Reacts adapter cfg R party s t
      (.frame (pendingMoveFrame (cfg (otherParty party)) p)) := by
  have hnonce := (ht.derived p hp).nonce
  cases hact : act (cfg party) s (.frame (pendingMoveFrame (cfg (otherParty party)) p)) with
  | ok =>
    have hnext := ((onMove_ok_iff (by simp only; omega)).mp hact).2.1
    simp only at hnext
    omega
  | error =>
    rw [Reacts, onMessage_error hact]
    apply Reaction.ignored
    · intro q _ _
      omega
    · intro q sig _ hmessage
      cases hmessage

section React

variable (h : Connected protocol adapter R cfg) (hs : SeatOk cfg party s)
variable (ht : SeatOk cfg (otherParty party) t)
variable {p : PendingProposal State Move} {held : CoSignedUpdate} {msg : ResyncMessage StateJson}
include h hs ht

theorem reacts_next_move (hlevel : Level R s t) (hp : t.pending = some p) :
    Reacts adapter cfg R party s t
      (.frame (pendingMoveFrame (cfg (otherParty party)) p)) := by
  have hderived := ht.derived p hp
  have hfree : s.pending = none := by
    cases hmine : s.pending with
    | none => rfl
    | some => exact (h.not_both_pending hs ht hlevel hmine hp).elim
  -- the proposer's derivation carries over to this seat's replica of the state
  obtain ⟨next, hnext, hreplica⟩ : ∃ next, (cfg party).protocol.applyMove s.state
      ((cfg (otherParty party)).codec p.move) (cfg (otherParty party)).selfParty = .ok next ∧
      R p.next next := by
    have happlied := hderived.applied
    rw [h.protocol] at happlied ⊢
    exact (h.replicas _).applyMove _ _ _ _ _ (hlevel.symm h).2 happlied
  have hdescribes : Describes (cfg party) next p.update :=
    h.describes hreplica hderived.describes
  have hnonce : p.update.nonce = s.nonce + 1 := by rw [hderived.nonce, hlevel.1]
  have hverified : (cfg party).opponent.verify p.msg p.sigSelf = true := by
    rw [ht.sigSelf p hp]
    exact h.keys.opponent party p.msg
  have hbyParty : (cfg (otherParty party)).selfParty ≠ (cfg party).selfParty := by
    rw [h.side, h.side]
    exact otherParty_ne party
  have hnewer : s.nonce < (moveOf (cfg (otherParty party)) p).nonce := by
    simp only [moveOf]
    omega
  have hact : act (cfg party) s (.frame (pendingMoveFrame (cfg (otherParty party)) p)) =
      .ok (acceptance (cfg party) s (moveOf (cfg (otherParty party)) p) next p.update p.msg) :=
    (onMove_ok_iff hnewer).mpr ⟨hbyParty, hnonce, next, p.update, p.msg,
      ⟨hnext, hdescribes, hnonce, hderived.timestamp, hderived.serialized⟩,
      ⟨rfl, rfl, rfl, hverified⟩, rfl⟩
  have hseat : (acceptance (cfg party) s (moveOf (cfg (otherParty party)) p) next p.update
      p.msg).seat = ⟨next, p.update.nonce, some (coSign (cfg party) p.update
        ((cfg party).sign p.msg) ((cfg (otherParty party)).sign p.msg)), none⟩ := by
    simp only [acceptance, hfree, moveOf, ht.sigSelf p hp]
    rfl
  rw [Reacts, onMessage_ok hact, hseat]
  apply Reaction.accepted p _ _ hlevel hp _ rfl (coSign_update _ _ _ _) hderived.serialized
    hreplica
  refine ⟨?_, hnonce, rfl⟩
  apply seatOk_at (by rw [coSign_update]) (by rw [coSign_update]; exact hdescribes)
    (honestlySigned_coSign h hderived.serialized)

theorem reacts_repeated_move (hahead : Behind R t s p held) :
    Reacts adapter cfg R party s t
      (.frame (pendingMoveFrame (cfg (otherParty party)) p)) := by
  have hderived := ht.derived p hahead.pending
  have hnonce : p.update.nonce = s.nonce := by rw [hderived.nonce, hahead.nonce]
  have hbyParty : (cfg (otherParty party)).selfParty ≠ (cfg party).selfParty := by
    rw [h.side, h.side]
    exact otherParty_ne party
  have hmsg : serializeStateUpdate held.update = .ok p.msg := by
    rw [hahead.update]
    exact hderived.serialized
  have hact : act (cfg party) s (.frame (pendingMoveFrame (cfg (otherParty party)) p)) =
      .ok (reacknowledgement (cfg party) s held p.msg) :=
    onMove_repeated hbyParty hnonce hahead.latest (hs.latestNonce held hahead.latest) hmsg
  rw [Reacts, onMessage_ok hact]
  apply Reaction.reacked _ held p.msg hahead.latest hmsg
  intro q hq _
  rw [hahead.pending, Option.some.injEq] at hq
  rw [← hq, hnonce]

omit ht in
theorem reacts_ack {frame : AckFrame} (haligned : Aligned R s t)
    (hframe : MessageOk adapter cfg (otherParty party) s t (.frame (.ack frame))) :
    Reacts adapter cfg R party s t (.frame (.ack frame)) := by
  obtain ⟨_, hcurrent⟩ := hframe
  by_cases hstale : frame.nonce ≤ s.nonce
  · have hact : act (cfg party) s (.frame (.ack frame)) = .ok { seat := s } := by
      simp [act, onFrame, onAck, hstale]
    rw [Reacts, onMessage_ok hact]
    apply Reaction.ignored
    · intro p _ hmessage
      cases hmessage
    · intro p sig hp hmessage
      cases hmessage
      have hnonce := (hs.derived p hp).nonce
      simp only at hstale
      omega
  · obtain ⟨p, held, hbehind⟩ := haligned.behind (by omega)
    have hnonce := hbehind.nonce
    have hderived := hs.derived p hbehind.pending
    have hnext := hderived.nonce
    obtain ⟨_, msg, hheld', hmsg, hsig⟩ := hcurrent (by omega)
    have hverified : (cfg party).opponent.verify p.msg frame.sigResponder = true := by
      rw [hbehind.latest, Option.some.injEq] at hheld'
      rw [← hheld', hbehind.update, hderived.serialized, Except.ok.injEq] at hmsg
      rw [hsig, ← hmsg]
      exact h.keys.opponent party p.msg
    have hact : act (cfg party) s (.frame (.ack frame)) = .ok (confirmation (cfg party) p frame) :=
      (onAck_ok_iff (by omega)).mpr ⟨p, hbehind.pending, by omega, hverified, rfl⟩
    rw [Reacts, onMessage_ok hact]
    have hhonest : HonestlySigned cfg (coSign (cfg party) p.update p.sigSelf
        frame.sigResponder) p.msg := by
      rw [hbehind.latest, Option.some.injEq] at hheld'
      rw [← hheld', hbehind.update, hderived.serialized, Except.ok.injEq] at hmsg
      rw [hsig, ← hmsg, hs.sigSelf p hbehind.pending]
      exact honestlySigned_coSign h hderived.serialized
    have hdescribes : Describes (cfg party) p.next
        (coSign (cfg party) p.update p.sigSelf frame.sigResponder).update := by
      rw [coSign_update]
      exact hderived.describes
    apply Reaction.caughtUp _ p held _ _ _ hbehind ⟨_, hnext, rfl⟩ rfl (coSign_update _ _ _ _)
      hbehind.replica
    · intro move hmove
      cases hmove
    · simp [confirmation]
    · exact seatOk_at (by rw [coSign_update]) hdescribes hhonest

omit hs in
/-- What a peer that is ahead holds can be adopted. -/
theorem adoptable_of_behind {state : State} (hbehind : Behind R s t p held)
    (hreplica : R t.state state) :
    ∃ msg, HonestlySigned cfg held msg ∧ Adoptable (cfg party) s state held msg := by
  obtain ⟨msg, hsigned⟩ := ht.signed held hbehind.latest
  have hdescribes : Describes (cfg party) state held.update :=
    h.describes hreplica (ht.describes held hbehind.latest)
  have hnonce := ht.latestNonce held hbehind.latest
  have hnext := hbehind.nonce
  refine ⟨msg, hsigned, hdescribes.tunnelId, by omega, hdescribes.balanced, hdescribes.encoded,
    hsigned.serialized, ?_, ?_⟩
  · rw [hsigned.sigA]
    exact h.keys.partyA party msg
  · rw [hsigned.sigB]
    exact h.keys.partyB party msg

omit hs in
theorem reacts_resync_ahead (hbehind : Behind R s t p held) (hview : msg.view.nonce = t.nonce)
    (hcheckpoint : msg.view.checkpoint = some held)
    (hfullState : msg.fullState = some (adapter.serializeState t.state)) :
    Reacts adapter cfg R party s t (.resync msg) := by
  have hnonce := hbehind.nonce
  obtain ⟨state, hstate, hreplica⟩ :=
    (h.replicas .A).adapter _ _ ((h.replicas .A).symm _ _ hbehind.replica)
  obtain ⟨_, hsigned, hadoptable⟩ := adoptable_of_behind h ht hbehind hreplica
  have hadvance : s.nonce < msg.view.nonce := by omega
  have hinput : resyncInput adapter s msg = some (.adoptCheckpoint state held) := by
    simp [resyncInput, decideReconcile, hadvance, hcheckpoint, hfullState, hstate,
      Except.toOption]
  have hact : act (cfg party) s (.adoptCheckpoint state held) = .ok (adoption s state held) :=
    adoptCheckpoint_of_adoptable (h.keys.schemeA party) (h.keys.schemeB party) hadoptable
  have hdropped : dropOvertaken s.pending held.update.nonce = none := by
    rw [hbehind.pending, hbehind.update]
    simp [dropOvertaken]
  have hseat : (adoption s state held).seat = ⟨state, held.update.nonce, some held, none⟩ := by
    simp [adoption, hdropped]
  simp only [Reacts, onMessage, onResync, hinput, hact, hseat]
  apply Reaction.caughtUp _ p held held _ _ hbehind ⟨_, _, rfl⟩ rfl hbehind.update
    ((h.replicas .A).symm _ _ hreplica)
  · intro frame hframe
    cases hframe
  · intro reply hreply
    simp only [adoption, List.map_nil, List.nil_append] at hreply
    split at hreply
    · rw [List.mem_singleton.mp hreply]
    · cases hreply
  · exact seatOk_at rfl (h.describes hreplica (ht.describes held hbehind.latest)) hsigned
  · rw [ht.latestNonce held hbehind.latest, hnonce]

omit hs in
/-- A resync from a peer that is ahead is adopted, one from a level peer makes the seat
re-send. -/
theorem reacts_resync (haligned : Aligned R s t)
    (hmsg : MessageOk adapter cfg (otherParty party) s t (.resync msg)) :
    Reacts adapter cfg R party s t (.resync msg) := by
  obtain ⟨_, hcurrent, hclean⟩ := hmsg
  have hignored : Reaction adapter cfg R party s t (.resync msg) s [] := by
    apply Reaction.ignored
    · intro p _ hmessage
      cases hmessage
    · intro p sig _ hmessage
      cases hmessage
  rcases lt_trichotomy s.nonce msg.view.nonce with hahead | hlevel | hbehind
  · obtain ⟨p, _, hbehind⟩ := haligned.behind (by omega)
    have hnonce := hbehind.nonce
    have hview : msg.view.nonce = t.nonce := by omega
    obtain ⟨hcheckpoint, hfullState⟩ := hcurrent hview
    exact reacts_resync_ahead h ht hbehind hview (hcheckpoint.trans hbehind.latest) hfullState
  · have hconflict := hclean hlevel.symm
    cases hpending : s.pending with
    | none =>
      have hinput : resyncInput adapter s msg = none := by
        simp [resyncInput, decideReconcile, hlevel, hconflict, hpending]
      simp only [Reacts, onMessage, onResync, hinput]
      exact hignored
    | some p =>
      have hinput : resyncInput adapter s msg = some .resendPending := by
        simp [resyncInput, decideReconcile, hlevel, hconflict, hpending]
      simp only [Reacts, onMessage, onResync, hinput, act, resendPending, hpending]
      exact .resent msg p hpending
  · have hinput : resyncInput adapter s msg = none := by
      simp [resyncInput, decideReconcile, hbehind, not_lt_of_gt hbehind]
    simp only [Reacts, onMessage, onResync, hinput]
    exact hignored

theorem reacts_message (haligned : Aligned R s t) {message : PeerMessage Move StateJson}
    (hmessage : MessageOk adapter cfg (otherParty party) s t message) :
    Reacts adapter cfg R party s t message := by
  cases message with
  | resync => exact reacts_resync h ht haligned hmessage
  | frame frame =>
    cases frame with
    | ack => exact reacts_ack h hs haligned hmessage
    | move frame =>
      by_cases hpending : ∃ p, t.pending = some p ∧
          .move frame = pendingMoveFrame (cfg (otherParty party)) p
      · obtain ⟨p, hp, hframe⟩ := hpending
        rw [hframe]
        rcases haligned with hlevel | ⟨q, held, hbehind⟩ | ⟨q, held, hahead⟩
        · exact reacts_next_move h hs ht hlevel hp
        · exact reacts_early_move ht hp hbehind.nonce
        · obtain rfl : q = p := by
            rw [hahead.pending, Option.some.injEq] at hp
            exact hp
          exact reacts_repeated_move h hs ht hahead
      · rcases hmessage with hstale | hcurrent
        · exact reacts_old_move hstale fun p hp hframe => hpending ⟨p, hp, hframe⟩
        · exact absurd hcurrent hpending

end React

/-- Moving the seat of `party` from `s` to `s'` and sending `sent` disturbs nothing. -/
structure Keeps (adapter : ResumeAdapter State Move StateJson MoveJson)
    (cfg : Party → Config State Move) (R : State → State → Prop) (party : Party)
    (s t s' : Seat State Move) (sent : List (PeerMessage Move StateJson)) : Prop where
  ok : SeatOk cfg party s'
  aligned : Aligned R s' t
  incoming : ∀ message, MessageOk adapter cfg (otherParty party) s t message →
    MessageOk adapter cfg (otherParty party) s' t message
  outgoing : ∀ message, MessageOk adapter cfg party t s message →
    MessageOk adapter cfg party t s' message
  sent : ∀ message ∈ sent, MessageOk adapter cfg party t s' message

theorem messageOk_sendResync (h : Connected protocol adapter R cfg)
    (hs : SeatOk cfg party s) (ht : SeatOk cfg (otherParty party) t) (haligned : Aligned R s t) :
    MessageOk adapter cfg party t s (.resync (sendResync adapter s)) := by
  refine ⟨le_refl _, fun _ => ⟨rfl, rfl⟩, ?_⟩
  intro hnonce
  have hlevel : Level R t s := (haligned.level hnonce).symm h
  apply h.no_conflict ht _ hlevel
  rw [otherParty_otherParty]
  exact hs

theorem messageOk_pendingMove (hp : s.pending = some p) :
    MessageOk adapter cfg party t s (.frame (pendingMoveFrame (cfg party) p)) :=
  .inr ⟨p, hp, rfl⟩

theorem messageOk_resent :
    ∀ message ∈ resent (cfg party) s, MessageOk adapter cfg party t s message := by
  intro message hmessage
  cases hpending : s.pending with
  | none => simp [resent, resendPending, hpending] at hmessage
  | some =>
    simp only [resent, resendPending, hpending, Option.map_some, Option.toList_some,
      List.map_cons, List.map_nil, List.mem_singleton] at hmessage
    rw [hmessage]
    exact messageOk_pendingMove hpending

theorem keeps_same (hs : SeatOk cfg party s) (haligned : Aligned R s t)
    (hsent : ∀ message ∈ sent, MessageOk adapter cfg party t s message) :
    Keeps adapter cfg R party s t s sent :=
  ⟨hs, haligned, fun _ hmessage => hmessage, fun _ hmessage => hmessage, hsent⟩

theorem keeps_proposed (hs : SeatOk cfg party s) (haligned : Aligned R s t)
    (hfree : s.pending = none)
    (hderived : Derived (cfg party) s p.move (cfg party).selfParty p.timestamp p.next p.update
      p.msg) (hsig : p.sigSelf = (cfg party).sign p.msg) :
    Keeps adapter cfg R party s t { s with pending := some p }
      [.frame (pendingMoveFrame (cfg party) p)] where
  ok :=
    { derived := by
        intro q hq
        cases hq
        exact hderived.of_same rfl rfl
      sigSelf := by
        intro q hq
        cases hq
        exact hsig
      latestNonce := hs.latestNonce
      describes := hs.describes
      signed := hs.signed }
  aligned := by
    rcases haligned with hlevel | ⟨q, held, hbehind⟩ | ⟨q, held, hahead⟩
    · exact .inl hlevel
    · have hpending := hbehind.pending
      rw [hfree] at hpending
      cases hpending
    · exact .inr (.inr ⟨q, held, hahead.pending, hahead.latest, hahead.update, hahead.nonce,
        hahead.replica⟩)
  incoming message hmessage := by
    cases message with
    | resync => exact hmessage
    | frame frame => cases frame <;> exact hmessage
  outgoing message hmessage := by
    cases message with
    | resync => exact hmessage
    | frame frame =>
      cases frame with
      | ack => exact hmessage
      | move =>
        rcases hmessage with hold | ⟨q, hq, -⟩
        · exact .inl hold
        · rw [hfree] at hq
          cases hq
  sent message hmessage := by
    rw [List.mem_singleton.mp hmessage]
    exact messageOk_pendingMove rfl

/-- A seat that took the next update. What it had pending is old by then, and a resync of
the peer at the new nonce must not contradict the new update. -/
theorem keeps_advanced (hadvanced : Advanced cfg party s s') (haligned : Aligned R s' t)
    (hspent : ∀ p, s.pending = some p → p.update.nonce ≤ t.nonce)
    (hclean : ∀ msg, MessageOk adapter cfg (otherParty party) s t (.resync msg) →
      msg.view.nonce = s'.nonce →
      decideReconcile.conflict s'.latest msg.view.checkpoint = false)
    (hsent : ∀ message ∈ sent, MessageOk adapter cfg party t s' message) :
    Keeps adapter cfg R party s t s' sent where
  ok := hadvanced.ok
  aligned := haligned
  incoming message hmessage := by
    have hnonce := hadvanced.nonce
    cases message with
    | resync msg => exact ⟨hmessage.1, hmessage.2.1, hclean msg hmessage⟩
    | frame frame =>
      cases frame with
      | ack => exact hmessage
      | move =>
        rcases hmessage with hold | hpending
        · exact .inl (by omega)
        · exact .inr hpending
  outgoing message hmessage := by
    have hnonce := hadvanced.nonce
    cases message with
    | resync =>
      obtain ⟨hle, -, hother⟩ := hmessage
      exact ⟨by omega, fun hsame => by omega, hother⟩
    | frame frame =>
      cases frame with
      | ack => exact ⟨by have hle := hmessage.1; omega,
          fun hsame => by have hle := hmessage.1; omega⟩
      | move frame =>
        rcases hmessage with hold | ⟨p, hp, hframe⟩
        · exact .inl hold
        · left
          have hmove : frame.nonce = p.update.nonce := by
            rw [pendingMoveFrame_eq, Frame.move.injEq] at hframe
            rw [hframe, moveOf]
          have hle := hspent p hp
          omega
  sent := hsent

theorem Reaction.keeps (h : Connected protocol adapter R cfg) (hs : SeatOk cfg party s)
    (ht : SeatOk cfg (otherParty party) t) (haligned : Aligned R s t)
    (hreaction : Reaction adapter cfg R party s t message s' sent) :
    Keeps adapter cfg R party s t s' sent := by
  cases hreaction with
  | ignored => exact keeps_same hs haligned (by simp)
  | reacked _ held msg hlatest hmsg =>
    apply keeps_same hs haligned
    intro reply hreply
    rw [List.mem_singleton.mp hreply]
    exact ⟨le_refl _, fun _ => ⟨held, msg, hlatest, hmsg, rfl⟩⟩
  | resent _ _ hp =>
    apply keeps_same hs haligned
    intro reply hreply
    rw [List.mem_singleton.mp hreply]
    exact messageOk_pendingMove hp
  | accepted p held _ hlevel hp hadvanced hlatest hupdate hmsg hreplica =>
    have hnonce := hadvanced.nonce
    have hsame := hlevel.1
    have hbehind : Behind R t s' p held := ⟨hp, hlatest, hupdate, by omega, hreplica⟩
    apply keeps_advanced hadvanced (.inr (.inr ⟨p, held, hbehind⟩))
    · intro q hq
      exact (h.not_both_pending hs ht hlevel hq hp).elim
    · intro msg hmessage hview
      have hle := hmessage.1
      omega
    · intro reply hreply
      rw [List.mem_singleton.mp hreply]
      refine ⟨le_refl _, fun _ => ⟨held, p.msg, hlatest, ?_, rfl⟩⟩
      rw [hupdate]
      exact hmsg
  | caughtUp _ p _ _ _ _ hbehind hadvanced hlatest hupdate hreplica _ hsent =>
    have hnonce := hadvanced.nonce
    have hnext := hbehind.nonce
    have haligned' : Aligned R s' t := .inl ⟨by omega, hreplica⟩
    apply keeps_advanced hadvanced haligned'
    · intro q hq
      rw [hbehind.pending, Option.some.injEq] at hq
      have hpending := (hs.derived p hbehind.pending).nonce
      rw [← hq]
      omega
    · intro msg hok hview
      have hcheckpoint := (hok.2.1 (by omega)).1
      simp [hcheckpoint, hbehind.latest, hlatest, decideReconcile.conflict, hupdate,
        hbehind.update]
    · intro reply hreply
      rw [hsent reply hreply]
      exact messageOk_sendResync h hadvanced.ok ht haligned'

section

variable (hreaction : Reaction adapter cfg R party s t message s' sent)
include hreaction

theorem Reaction.pending_old (hp : s'.pending = some p) : s.pending = some p := by
  cases hreaction with
  | ignored | reacked | resent => exact hp
  | accepted _ _ _ _ _ hadvanced | caughtUp _ _ _ _ _ _ _ hadvanced =>
    rw [hadvanced.pending] at hp
    cases hp

theorem Reaction.not_awaited (hp : s'.pending = some p) (sig : Bytes) :
    message ≠ .frame (.ack ⟨p.update.nonce, sig⟩) := by
  cases hreaction with
  | ignored _ _ hack => exact hack p sig hp
  | reacked | resent => simp
  | accepted _ _ _ _ _ hadvanced | caughtUp _ _ _ _ _ _ _ hadvanced =>
    rw [hadvanced.pending] at hp
    cases hp

/-- The pending MOVE of the peer is acknowledged, unless it comes across a gap. -/
theorem Reaction.acknowledges (ht : SeatOk cfg (otherParty party) t) (hp : t.pending = some p)
    (hmessage : message = .frame (pendingMoveFrame (cfg (otherParty party)) p))
    (hnonce : t.nonce ≤ s.nonce) :
    ∃ sig, .frame (.ack ⟨p.update.nonce, sig⟩) ∈ sent := by
  cases hreaction with
  | ignored _ hmove =>
    have hgap := hmove p hp hmessage
    omega
  | reacked frame _ _ _ _ hsame =>
    rw [PeerMessage.frame.injEq] at hmessage
    exact ⟨_, by rw [hsame p hp hmessage]; exact List.mem_singleton_self _⟩
  | resent => cases hmessage
  | accepted _ _ _ hlevel hq hadvanced =>
    rw [hp, Option.some.injEq] at hq
    have hnext : s'.nonce = p.update.nonce := by
      rw [hadvanced.nonce, (ht.derived p hp).nonce, hlevel.1]
    exact ⟨_, by rw [hnext]; exact List.mem_singleton_self _⟩
  | caughtUp _ _ _ _ _ _ _ _ _ _ _ hother =>
    exact absurd hmessage (hother _)

end

end Invariant

end DopamintArena.Engine
