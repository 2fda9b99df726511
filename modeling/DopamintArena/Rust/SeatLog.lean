import DopamintArena.Foundation.Handshake
import DopamintArena.Rust.Seat

/-!
A Rust runtime as one side of a handshake. The log is the sequence of moves it
has confirmed; the pending proposal is the entry it has offered. `Follows` ties
the runtime to the side, and each lemma says what a call does to both.

Nothing is assumed about the other end but that its frames are about entries of
this tunnel and carry signatures that verify.
-/

namespace DopamintArena.Rust

open Foundation
open Foundation.Handshake (Side Message)

variable {State Move : Type}

/-- A move, who made it and when, and the state it led to. -/
structure Entry (State Move : Type) where
  bySeat : Seat
  mv : Move
  timestamp : UInt64
  next : State

/-- The state after the moves of a log. -/
def stateAfter (initial : State) (log : List (Entry State Move)) : State :=
  (log.getLast?.map Entry.next).getD initial

@[simp] theorem stateAfter_concat (initial : State) (log : List (Entry State Move))
    (e : Entry State Move) : stateAfter initial (log ++ [e]) = e.next := by
  simp [stateAfter]

namespace Protocol

def Legal (protocol : Protocol State Move) (state : State) (mv : Move) (seat : Seat) : Prop :=
  ∃ next, protocol.applyMove state mv seat = .ok next

/-- At most one seat has a legal move in any state. -/
def TurnBased (protocol : Protocol State Move) : Prop :=
  ∀ state mv mv', protocol.Legal state mv .A → ¬protocol.Legal state mv' .B

/-- The states that legal moves lead to. -/
inductive Reaches (protocol : Protocol State Move) (initial : State) : State → Prop
  | start : Reaches protocol initial initial
  | step {state next : State} {mv : Move} {seat : Seat} :
      Reaches protocol initial state → protocol.applyMove state mv seat = .ok next →
      Reaches protocol initial next

/-- The entry is a legal move of this seat after the log. -/
def Turn (protocol : Protocol State Move) (initial : State) (seat : Seat)
    (log : List (Entry State Move)) (e : Entry State Move) : Prop :=
  e.bySeat = seat ∧ protocol.applyMove (stateAfter initial log) e.mv e.bySeat = .ok e.next

theorem TurnBased.exclusive {protocol : Protocol State Move} (h : protocol.TurnBased)
    {initial : State} {seat seat' : Seat} (hne : seat ≠ seat') (log : List (Entry State Move))
    (e e' : Entry State Move) (he : protocol.Turn initial seat log e) :
    ¬protocol.Turn initial seat' log e' := by
  rintro ⟨rfl, happly'⟩
  obtain ⟨rfl, happly⟩ := he
  cases hseat : e.bySeat <;> cases hseat' : e'.bySeat <;> rw [hseat] at happly <;>
    rw [hseat'] at happly'
  · exact hne (hseat.trans hseat'.symm)
  · exact h _ _ _ ⟨_, happly⟩ ⟨_, happly'⟩
  · exact h _ _ _ ⟨_, happly'⟩ ⟨_, happly⟩
  · exact hne (hseat.trans hseat'.symm)

end Protocol

def nonceAt (k : Nat) : UInt64 := UInt64.ofNat (k + 1)

theorem toNat_nonceAt {k : Nat} (hk : k + 1 < 2 ^ 64) : (nonceAt k).toNat = k + 1 := by
  rw [nonceAt, UInt64.toNat_ofNat', Nat.mod_eq_of_lt hk]

namespace RuntimeConfig

variable (cfg : RuntimeConfig State Move)

/-- `msg` is what the seats sign for the entry at index `k`. -/
def Writes (k : Nat) (e : Entry State Move) (msg : Bytes) : Prop :=
  k + 1 < 2 ^ 64 ∧
    serializeStateUpdate (cfg.updateOf e.next (nonceAt k) e.timestamp) = .ok msg

/-- The entry is a legal move of this seat after the log, and there is a message to sign for it. -/
def Turn (initial : State) (seat : Seat) (log : List (Entry State Move))
    (e : Entry State Move) : Prop :=
  cfg.protocol.Turn initial seat log e ∧ ∃ msg, cfg.Writes log.length e msg

def frameFor (k : Nat) (e : Entry State Move) (sig : Bytes64) : MoveFrame Move where
  nonce := nonceAt k
  bySeat := e.bySeat
  mv := e.mv
  timestamp := e.timestamp
  stateHash := cfg.blake2b256 (cfg.protocol.encodeState e.next)
  partyABalance := (cfg.protocol.balances e.next).a
  partyBBalance := (cfg.protocol.balances e.next).b
  sigProposer := sig

def wireFrame (sig : Bytes64) : Message (Entry State Move) → TunnelFrame Move
  | .offer k e => .move (cfg.frameFor k e sig)
  | .receipt k _ => .ack ⟨nonceAt k, sig⟩

def transcriptEntry (k : Nat) (e : Entry State Move) (sigProposer sigResponder : Bytes64) :
    TranscriptEntry Move where
  nonce := nonceAt k
  bySeat := e.bySeat
  mv := e.mv
  stateHash := cfg.blake2b256 (cfg.protocol.encodeState e.next)
  timestamp := e.timestamp
  partyABalance := (cfg.protocol.balances e.next).a
  partyBBalance := (cfg.protocol.balances e.next).b
  sigProposer := sigProposer
  sigResponder := sigResponder

/-- The seat itself has signed the message and framed it in these bytes. -/
def Issues (bytes : Bytes) (message : Message (Entry State Move)) : Prop :=
  ∃ msg, cfg.Writes message.index message.entry msg ∧
    bytes = cfg.encode (cfg.wireFrame (cfg.sign msg) message)

/-- The seat reads the message in these bytes, under a signature of the peer that verifies. -/
def Reads (bytes : Bytes) (message : Message (Entry State Move)) : Prop :=
  ∃ msg sig, cfg.Writes message.index message.entry msg ∧
    cfg.verify cfg.opponentPk msg sig = true ∧
    cfg.decode bytes = .ok (cfg.wireFrame sig message)

def pendingFor (k : Nat) (e : Entry State Move) (msg : Bytes) : Pending State Move where
  next := e.next
  msg := msg
  nonce := nonceAt k
  mv := e.mv
  stateHash := cfg.blake2b256 (cfg.protocol.encodeState e.next)
  timestamp := e.timestamp
  partyABalance := (cfg.protocol.balances e.next).a
  partyBBalance := (cfg.protocol.balances e.next).b
  sigProposer := cfg.sign msg

/-- The runtime stands where the side stands. -/
structure Follows (initial : State) (rt : PartyRuntime State Move)
    (x : Side (Entry State Move)) : Prop where
  state : rt.state = stateAfter initial x.log
  nonce : rt.nonce.toNat = x.log.length
  pending : rt.pending = none ∧ x.pending = none ∨ ∃ e msg, x.pending = some e ∧
    e.bySeat = cfg.seat ∧ cfg.Writes x.log.length e msg ∧
    rt.pending = some (cfg.pendingFor x.log.length e msg)
  acked : ∀ a, rt.lastAck = some a → ∃ k e msg, x.log[k]? = some e ∧ cfg.Writes k e msg ∧
    a = ⟨nonceAt k, cfg.sign msg⟩
  acksLast : ∀ e, x.log.getLast? = some e → e.bySeat ≠ cfg.seat →
    ∃ a, rt.lastAck = some a ∧ a.nonce = rt.nonce

theorem turn_exclusive {initial : State} {seat seat' : Seat} (h : cfg.protocol.TurnBased)
    (hne : seat ≠ seat') (log : List (Entry State Move)) (e e' : Entry State Move)
    (he : cfg.Turn initial seat log e) : ¬cfg.Turn initial seat' log e' :=
  fun he' => h.exclusive hne log e e' he.1 he'.1

theorem follows_withCodec (initial : Balances) :
    cfg.Follows (cfg.withCodec initial).state (cfg.withCodec initial) Side.fresh where
  state := rfl
  nonce := rfl
  pending := .inl ⟨rfl, rfl⟩
  acked := by rintro a ⟨⟩
  acksLast := by rintro e ⟨⟩

namespace Follows

variable {cfg} {initial : State} {rt rt' : PartyRuntime State Move}
variable {x : Side (Entry State Move)} {e : Entry State Move} {k : Nat} {msg bytes : Bytes}
variable {sig : Bytes64}

section

variable (h : cfg.Follows initial rt x)
include h

theorem pending_none (hfree : x.pending = none) :
    rt.pending = none := by
  rcases h.pending with ⟨hpending, -⟩ | ⟨_, _, hown, -⟩
  · exact hpending
  · rw [hfree] at hown
    cases hown

theorem free_of_pending_none (hfree : rt.pending = none) :
    x.pending = none := by
  rcases h.pending with ⟨-, hpending⟩ | ⟨_, _, -, -, -, hown⟩
  · exact hpending
  · rw [hfree] at hown
    cases hown

theorem pending_some (hpending : x.pending = some e) :
    e.bySeat = cfg.seat ∧ ∃ msg, cfg.Writes x.log.length e msg ∧
      rt.pending = some (cfg.pendingFor x.log.length e msg) := by
  rcases h.pending with ⟨-, hnone⟩ | ⟨_, msg, hown, hseat, hwrites, hrt⟩
  · rw [hpending] at hnone
    cases hnone
  · rw [hpending] at hown
    cases hown
    exact ⟨hseat, msg, hwrites, hrt⟩

theorem nonce_succ : rt.nonce + 1 = nonceAt x.log.length := by
  apply UInt64.toNat_inj.mp
  rw [UInt64.toNat_add, h.nonce, nonceAt, UInt64.toNat_ofNat', UInt64.toNat_one]

theorem lt_nonceAt (hk : x.log.length ≤ k) (hbound : k + 1 < 2 ^ 64) : rt.nonce < nonceAt k := by
  rw [UInt64.lt_iff_toNat_lt, toNat_nonceAt hbound, h.nonce]
  omega

theorem nonceAt_le (hk : k < x.log.length) (hbound : k + 1 < 2 ^ 64) : nonceAt k ≤ rt.nonce := by
  rw [UInt64.le_iff_toNat_le, toNat_nonceAt hbound, h.nonce]
  omega

theorem take : cfg.Follows initial rt.takeLastCommitted.2 x :=
  ⟨h.state, h.nonce, h.pending, h.acked, h.acksLast⟩

theorem keeps {x' : Side (Entry State Move)} (h' : cfg.Follows initial rt' x')
    (hadvances : x.Advances x') (p : Pending State Move) (hp : rt.pending = some p) :
    rt'.pending = some p ∨ rt'.pending = none ∧ rt'.nonce = p.nonce ∧ rt'.state = p.next := by
  cases hpending : x.pending with
  | none =>
    rw [h.pending_none hpending] at hp
    cases hp
  | some =>
    obtain ⟨-, msg, hwrites, hrt⟩ := h.pending_some hpending
    rw [hp] at hrt
    cases hrt
    rcases hadvances.pending hpending with rfl | rfl
    · obtain ⟨-, msg', hwrites', hrt'⟩ := h'.pending_some hpending
      obtain rfl : msg' = msg := Except.ok.inj (hwrites'.2.symm.trans hwrites.2)
      exact .inl hrt'
    · refine .inr ⟨h'.pending_none rfl, ?_, ?_⟩
      · apply UInt64.toNat_inj.mp
        rw [h'.nonce, pendingFor, toNat_nonceAt hwrites.1]
        simp [Side.commit]
      · rw [h'.state]
        simp [Side.commit, pendingFor]

/-! ### Proposing -/

theorem propose {mv : Move} {timestamp : UInt64}
    (hok : cfg.propose rt mv timestamp = .ok (bytes, rt')) :
    x.pending = none ∧ ∃ e, e.mv = mv ∧ e.timestamp = timestamp ∧
      cfg.Turn initial cfg.seat x.log e ∧ cfg.Follows initial rt' (x.offer e) ∧
      cfg.Issues bytes (.offer x.log.length e) := by
  obtain ⟨hfree, hbound, next, msg, happly, hmsg, rfl, rfl⟩ := propose_ok_iff.mp hok
  rw [h.nonce_succ] at hmsg
  rw [h.nonce] at hbound
  have hwrites : cfg.Writes x.log.length ⟨cfg.seat, mv, timestamp, next⟩ msg := ⟨hbound, hmsg⟩
  have hproposal : cfg.pendingOf rt mv timestamp next msg =
      cfg.pendingFor x.log.length ⟨cfg.seat, mv, timestamp, next⟩ msg := by
    rw [pendingOf, h.nonce_succ]
    rfl
  refine ⟨h.free_of_pending_none hfree, ⟨cfg.seat, mv, timestamp, next⟩, rfl, rfl,
    ⟨⟨rfl, by rw [← h.state]; exact happly⟩, msg, hwrites⟩,
    ⟨h.state, h.nonce, .inr ⟨_, msg, rfl, rfl, hwrites, ?_⟩, h.acked, h.acksLast⟩,
    msg, hwrites, ?_⟩
  · exact congrArg some hproposal
  · rw [hproposal]
    rfl

theorem can_propose (hfree : x.pending = none) (hturn : cfg.Turn initial cfg.seat x.log e) :
    ∃ bytes rt', cfg.propose rt e.mv e.timestamp = .ok (bytes, rt') := by
  obtain ⟨hturn, msg, hbound, hmsg⟩ := hturn
  refine ⟨_, _, propose_ok_iff.mpr ⟨h.pending_none hfree, ?_, e.next, msg, ?_, ?_, rfl, rfl⟩⟩
  · rw [h.nonce]
    exact hbound
  · rw [h.state, ← hturn.1]
    exact hturn.2
  · rw [h.nonce_succ]
    exact hmsg

theorem resend (hpending : x.pending = some e) :
    ∃ p, rt.pending = some p ∧
      cfg.Issues (cfg.encode (.move (cfg.moveFrame p))) (.offer x.log.length e) := by
  obtain ⟨hseat, msg, hwrites, hrt⟩ := h.pending_some hpending
  refine ⟨_, hrt, msg, hwrites, ?_⟩
  simp [moveFrame, pendingFor, wireFrame, frameFor, hseat]

end

/-! ### Receiving -/

theorem handleFrame_offer (hdecode : cfg.decode bytes = .ok (cfg.wireFrame sig (.offer k e))) :
    cfg.handleFrame rt bytes = handledOr rt (cfg.onMove rt (cfg.frameFor k e sig)) := by
  simp [handleFrame, hdecode, wireFrame]

theorem handleFrame_receipt
    (hdecode : cfg.decode bytes = .ok (cfg.wireFrame sig (.receipt k e))) :
    cfg.handleFrame rt bytes = cfg.onAck rt ⟨nonceAt k, sig⟩ := by
  simp [handleFrame, hdecode, wireFrame]

section

variable (h : cfg.Follows initial rt x)
include h

/-- A MOVE that is already confirmed is answered at most with the acknowledgement of it. -/
theorem handle_stale_offer (hk : k < x.log.length) (hwrites : cfg.Writes k e msg)
    (hdecode : cfg.decode bytes = .ok (cfg.wireFrame sig (.offer k e))) :
    ∃ out, cfg.handleFrame rt bytes = (.ok out, rt) ∧
      (∀ reply ∈ out, ∃ e', x.log[k]? = some e' ∧ cfg.Issues reply (.receipt k e')) := by
  have hold : (cfg.frameFor k e sig).nonce ≤ rt.nonce := h.nonceAt_le hk hwrites.1
  refine ⟨_, (handleFrame_offer hdecode).trans (congrArg (handledOr rt) (onMove_old hold)), ?_⟩
  intro reply hreply
  obtain ⟨a, ha, rfl⟩ := List.mem_map.mp hreply
  obtain ⟨hlast, hnonce⟩ := Option.filter_eq_some_iff.mp (Option.mem_toList.mp ha)
  obtain ⟨k', e', msg', hat, hwrites', rfl⟩ := h.acked a hlast
  have hsame : k' = k := by
    have hnonce' : nonceAt k' = nonceAt k := of_decide_eq_true hnonce
    have htoNat := congrArg UInt64.toNat hnonce'
    rw [toNat_nonceAt hwrites'.1, toNat_nonceAt hwrites.1] at htoNat
    omega
  subst hsame
  exact ⟨e', hat, msg', hwrites', rfl⟩

/-- A MOVE of the last confirmed entry, if it is the peer's, is acknowledged again. -/
theorem handle_last_offer (hk : k + 1 = x.log.length) (hat : x.log[k]? = some e)
    (hby : e.bySeat ≠ cfg.seat) (hwrites : cfg.Writes k e msg)
    (hdecode : cfg.decode bytes = .ok (cfg.wireFrame sig (.offer k e))) :
    ∃ reply, cfg.handleFrame rt bytes = (.ok [reply], rt) ∧ cfg.Issues reply (.receipt k e) := by
  obtain ⟨_, hout, hreplies⟩ := h.handle_stale_offer (by omega) hwrites hdecode
  have hlast : x.log.getLast? = some e := by
    rw [List.getLast?_eq_getElem?, ← hk, Nat.add_sub_cancel]
    exact hat
  obtain ⟨a, ha, hnonce⟩ := h.acksLast e hlast hby
  have hsame : a.nonce = (cfg.frameFor k e sig).nonce := by
    apply UInt64.toNat_inj.mp
    rw [hnonce, h.nonce, frameFor, toNat_nonceAt hwrites.1, hk]
  have hold : (cfg.frameFor k e sig).nonce ≤ rt.nonce := h.nonceAt_le (by omega) hwrites.1
  have hhandle : cfg.handleFrame rt bytes = (.ok [cfg.encode (.ack a)], rt) := by
    rw [handleFrame_offer hdecode, onMove_old hold, ha, Option.filter_some,
      if_pos (by simpa using hsame)]
    rfl
  refine ⟨_, hhandle, ?_⟩
  rw [hhandle] at hout
  obtain ⟨_, hat', hissues⟩ := hreplies (cfg.encode (.ack a)) (by
    rw [← Except.ok.inj (Prod.mk.inj hout).1]
    exact List.mem_singleton_self _)
  rw [hat] at hat'
  cases hat'
  exact hissues

theorem handle_next_offer (hfree : x.pending = none) (hby : e.bySeat ≠ cfg.seat)
    (happly : cfg.protocol.applyMove (stateAfter initial x.log) e.mv e.bySeat = .ok e.next)
    (hwrites : cfg.Writes x.log.length e msg) (hverify : cfg.verify cfg.opponentPk msg sig = true)
    (hdecode : cfg.decode bytes = .ok (cfg.wireFrame sig (.offer x.log.length e))) :
    ∃ reply rt', cfg.handleFrame rt bytes = (.ok [reply], rt') ∧
      cfg.Issues reply (.receipt x.log.length e) ∧ cfg.Follows initial rt' (x.accept e) ∧
      rt'.lastCommitted = some (cfg.transcriptEntry x.log.length e sig (cfg.sign msg)) := by
  have hnew : rt.nonce < (cfg.frameFor x.log.length e sig).nonce :=
    h.lt_nonceAt le_rfl hwrites.1
  have hmove := (onMove_ok_iff hnew).mpr ⟨h.pending_none hfree, hby, h.nonce_succ.symm, e.next,
    msg, by rw [h.state]; exact happly, rfl, rfl, rfl, hwrites.2, hverify, rfl, rfl⟩
  refine ⟨_, _, (handleFrame_offer hdecode).trans (congrArg (handledOr rt) hmove),
    ⟨msg, hwrites, rfl⟩, ⟨?_, ?_, ?_, ?_, ?_⟩, rfl⟩
  · simp [Side.accept, PartyRuntime.commitMove]
  · simp [Side.accept, PartyRuntime.commitMove, frameFor, toNat_nonceAt hwrites.1]
  · exact .inl ⟨h.pending_none hfree, hfree⟩
  · rintro a ⟨⟩
    exact ⟨x.log.length, e, msg, by simp [Side.accept], hwrites, rfl⟩
  · intro e' _ _
    exact ⟨_, rfl, rfl⟩

theorem handle_early_offer {own : Entry State Move} (hown : x.pending = some own)
    (hk : x.log.length ≤ k) (hwrites : cfg.Writes k e msg)
    (hdecode : cfg.decode bytes = .ok (cfg.wireFrame sig (.offer k e))) :
    cfg.handleFrame rt bytes = (.error (.verification "expected ack, got move"), rt) := by
  obtain ⟨-, _, -, hrt⟩ := h.pending_some hown
  have hnew : rt.nonce < (cfg.frameFor k e sig).nonce := h.lt_nonceAt hk hwrites.1
  rw [handleFrame_offer hdecode, onMove, if_neg (UInt64.not_le.mpr hnew), hrt]
  rfl

theorem handle_old_receipt (hk : k < x.log.length) (hwrites : cfg.Writes k e msg)
    (hdecode : cfg.decode bytes = .ok (cfg.wireFrame sig (.receipt k e))) :
    cfg.handleFrame rt bytes = (.ok [], rt) := by
  rw [handleFrame_receipt hdecode]
  exact onAck_old (h.nonceAt_le hk hwrites.1)

theorem handle_receipt (hpending : x.pending = some e) (hwrites : cfg.Writes x.log.length e msg)
    (hverify : cfg.verify cfg.opponentPk msg sig = true)
    (hdecode : cfg.decode bytes = .ok (cfg.wireFrame sig (.receipt x.log.length e))) :
    ∃ rt', cfg.handleFrame rt bytes = (.ok [], rt') ∧ cfg.Follows initial rt' (x.commit e) ∧
      rt'.lastCommitted = some (cfg.transcriptEntry x.log.length e (cfg.sign msg) sig) := by
  obtain ⟨hseat, msg', hwrites', hrt⟩ := h.pending_some hpending
  obtain rfl : msg' = msg := Except.ok.inj (hwrites'.2.symm.trans hwrites.2)
  have hcommit := onAck_of_acknowledges (a := ⟨nonceAt x.log.length, sig⟩) hrt
    (h.lt_nonceAt le_rfl hwrites.1) ⟨rfl, hverify⟩
  refine ⟨_, (handleFrame_receipt hdecode).trans hcommit, ⟨?_, ?_, ?_, ?_, ?_⟩, ?_⟩
  · simp [Side.commit, commitPending, pendingFor]
  · simp [Side.commit, commitPending, pendingFor, toNat_nonceAt hwrites.1]
  · exact .inl ⟨rfl, rfl⟩
  · intro a ha
    obtain ⟨k, e', msg'', hat, hrest⟩ := h.acked a ha
    refine ⟨k, e', msg'', ?_, hrest⟩
    rw [Side.commit, List.getElem?_append_left (List.getElem?_eq_some_iff.mp hat).1]
    exact hat
  · intro e' hlast hby
    simp only [Side.commit, List.getLast?_concat, Option.some.injEq] at hlast
    rw [← hlast] at hby
    exact absurd hseat hby
  · simp [commitPending, pendingFor, transcriptEntry, hseat]

end

end Follows

end RuntimeConfig

end DopamintArena.Rust
