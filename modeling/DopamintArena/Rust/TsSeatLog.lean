import DopamintArena.Engine.Runs
import DopamintArena.Rust.SeatLog

/-!
A TypeScript seat opposite a Rust one, as the other side of the handshake. The
entries of the log are those of the Rust seat: the two protocols are the same
game up to a correspondence of their states and moves, so an entry has the same
update on both sides and the two sign the same bytes.

The TypeScript seat refuses a move whose balances do not add up to the locked
total, which the Rust seat does not check.
-/

namespace DopamintArena.Rust

open Foundation
open Foundation.Handshake (Side Message)
open DopamintArena.Engine (IsU64 word toNat_word)

variable {TsState TsMove State Move : Type}

/-! ### Updates and frames in TypeScript -/

def StateUpdate.toTs (u : StateUpdate) : Engine.StateUpdate where
  tunnelId := u.tunnelId
  stateHash := u.stateHash.bytes
  nonce := u.nonce.toNat
  timestamp := u.timestamp.toNat
  partyABalance := u.partyABalance.toNat
  partyBBalance := u.partyBBalance.toNat

/-- The two sides serialize an update to the same bytes. -/
theorem serialize_toTs_iff {u : StateUpdate} {msg : Bytes} :
    Engine.serializeStateUpdate u.toTs = .ok msg ↔ serializeStateUpdate u = .ok msg :=
  (Engine.WireMessage.serialize_ok_iff (m := .stateUpdate u.toTs)).trans
    (RustMessage.serialize_ok_iff (r := .stateUpdate u)).symm

def MoveFrame.toTs (m : MoveFrame Move) (move : TsMove) : Engine.MoveFrame TsMove where
  nonce := m.nonce.toNat
  byParty := m.bySeat
  move := move
  timestamp := m.timestamp.toNat
  stateHash := m.stateHash.bytes
  partyABalance := m.partyABalance.toNat
  partyBBalance := m.partyBBalance.toNat
  sigProposer := m.sigProposer.bytes

def AckFrame.toTs (a : AckFrame) : Engine.AckFrame where
  nonce := a.nonce.toNat
  sigResponder := a.sigResponder.bytes

/-! ### Two implementations of one game -/

/-- How the states and moves of two implementations correspond. -/
structure GameMap (TsState TsMove State Move : Type) where
  same : TsState → State → Prop
  toRust : TsMove → Move
  toTs : Move → TsMove

/-- Equal transition functions, encodings and balances, up to the correspondence. -/
structure SamePlay (g : GameMap TsState TsMove State Move) (ts : Engine.Protocol TsState TsMove)
    (rust : Protocol State Move) : Prop where
  initialState : ∀ tunnelId balances seat,
    g.same (ts.initialState ⟨tunnelId, ⟨balances.a.toNat, balances.b.toNat⟩⟩)
      (rust.initialState ⟨tunnelId, balances, seat⟩)
  moveOfTs : ∀ t s move party t', g.same t s → ts.applyMove t move party = .ok t' →
    ∃ s', rust.applyMove s (g.toRust move) party = .ok s' ∧ g.same t' s'
  moveOfRust : ∀ t s mv party s', g.same t s → rust.applyMove s mv party = .ok s' →
    ∃ t', ts.applyMove t (g.toTs mv) party = .ok t' ∧ g.same t' s'
  encodeState : ∀ t s, g.same t s → ts.encodeState t = .ok (rust.encodeState s)
  balances : ∀ t s, g.same t s →
    ts.balances t = ⟨(rust.balances s).a.toNat, (rust.balances s).b.toNat⟩

/-- A TypeScript seat and a Rust runtime, with the frame codec of the former. -/
structure MixedPair (TsState TsMove State Move : Type) where
  ts : Engine.Config TsState TsMove
  rust : RuntimeConfig State Move
  encodeFrame : Engine.Frame TsMove → Bytes
  decodeFrame : Bytes → Except String (Engine.Frame TsMove)

/-- The two were set up for the two sides of one tunnel: they hash alike, read each other's
frames and accept each other's signatures. -/
structure MixedPair.Honest (pair : MixedPair TsState TsMove State Move)
    (g : GameMap TsState TsMove State Move) (start : Engine.Seat TsState TsMove)
    (initial : Balances) : Prop where
  created : ∃ crypto protocol options, Engine.create crypto protocol options
    ⟨initial.a.toNat, initial.b.toNat⟩ = .ok (pair.ts, start)
  game : SamePlay g pair.ts.protocol pair.rust.protocol
  tunnelId : pair.ts.tunnelId = pair.rust.tunnelId
  sides : pair.ts.selfParty = pair.rust.seat.other
  hash : ∀ bytes, pair.ts.crypto.blake2b256 bytes = pair.rust.blake2b256 bytes
  tsSigns : ∀ message, ∃ sig : Bytes64, sig.bytes = pair.ts.sign message ∧
    pair.rust.verify pair.rust.opponentPk message sig = true
  rustSigns : ∀ message, pair.ts.opponent.verify message (pair.rust.sign message).bytes = true
  movesToTs : ∀ m, pair.decodeFrame (pair.rust.encode (.move m)) =
    .ok (.move (m.toTs (g.toTs m.mv)))
  acksToTs : ∀ a, pair.decodeFrame (pair.rust.encode (.ack a)) = .ok (.ack a.toTs)
  movesToRust : ∀ (m : MoveFrame Move) move, m.mv = g.toRust move →
    pair.rust.decode (pair.encodeFrame (.move (m.toTs (pair.ts.codec move)))) = .ok (.move m)
  acksToRust : ∀ a : AckFrame, pair.rust.decode (pair.encodeFrame (.ack a.toTs)) = .ok (.ack a)

namespace MixedPair

variable (pair : MixedPair TsState TsMove State Move) (g : GameMap TsState TsMove State Move)

/-- The update of the entry at index `k`. -/
def update (k : Nat) (e : Entry State Move) : StateUpdate :=
  pair.rust.updateOf e.next (nonceAt k) e.timestamp

/-- The TypeScript frame that the Rust seat sends for a message. -/
def tsFrame (sig : Bytes64) : Message (Entry State Move) → Engine.Frame TsMove
  | .offer k e => .move ((pair.rust.frameFor k e sig).toTs (g.toTs e.mv))
  | .receipt k _ => .ack (AckFrame.toTs ⟨nonceAt k, sig⟩)

/-- The amount that is split in a state. -/
def lockedIn (s : State) : Int :=
  (pair.rust.protocol.balances s).a.toNat + (pair.rust.protocol.balances s).b.toNat

/-- The TypeScript seat stands where the side stands. -/
structure TsFollows (initial : State) (s : Engine.Seat TsState TsMove)
    (y : Side (Entry State Move)) : Prop where
  state : g.same s.state (stateAfter initial y.log)
  nonce : s.nonce = y.log.length
  pending : s.pending = none ∧ y.pending = none ∨ ∃ e msg next move, y.pending = some e ∧
    e.bySeat = pair.ts.selfParty ∧ pair.rust.Writes y.log.length e msg ∧ g.same next e.next ∧
    e.mv = g.toRust move ∧ s.pending = some ⟨next, (pair.update y.log.length e).toTs, msg,
      pair.ts.sign msg, move, e.timestamp.toNat⟩
  latest : ∀ k e, k + 1 = y.log.length → y.log[k]? = some e → ∃ held, s.latest = some held ∧
    held.update = (pair.update k e).toTs

/-- The proposal of a seat is still pending, or it was confirmed. -/
def TsKeeps (s s' : Engine.Seat TsState TsMove) : Prop :=
  ∀ p, s.pending = some p → s'.pending = some p ∨
    s'.pending = none ∧ s'.nonce = p.update.nonce ∧ s'.state = p.next

variable {pair g} {start s : Engine.Seat TsState TsMove} {balances : Balances} {initial : State}
variable {y : Side (Entry State Move)} {e : Entry State Move} {k : Nat} {msg : Bytes}
variable {turn : Engine.Turn TsState TsMove}

section

variable (h : pair.Honest g start balances)
include h

theorem Honest.tsFollows :
    pair.TsFollows g (pair.rust.withCodec balances).state start Side.fresh := by
  obtain ⟨_, protocol, _, hcreate⟩ := h.created
  have hc := Engine.create_ok hcreate
  refine ⟨?_, hc.fresh.nonce, .inl ⟨hc.fresh.pending, rfl⟩, ?_⟩
  · rw [hc.state, ← hc.protocol, ← hc.tunnelId, h.tunnelId]
    exact h.game.initialState _ _ _
  · rintro k e hk
    simp [Side.fresh] at hk

theorem Honest.rust_ne_ts :
    pair.rust.seat ≠ pair.ts.selfParty := by
  rw [h.sides]
  exact Ne.symm (Engine.otherParty_ne _)

theorem Honest.ne_self (hby : e.bySeat = pair.rust.seat) : e.bySeat ≠ pair.ts.selfParty := by
  rw [hby]
  exact h.rust_ne_ts

/-- What the Rust seat has sent is read by the TypeScript one. -/
theorem Honest.ts_reads {bytes : Bytes} {message : Message (Entry State Move)}
    (hissues : pair.rust.Issues bytes message) :
    ∃ msg, pair.rust.Writes message.index message.entry msg ∧
      pair.decodeFrame bytes = .ok (pair.tsFrame g (pair.rust.sign msg) message) := by
  obtain ⟨msg, hwrites, rfl⟩ := hissues
  refine ⟨msg, hwrites, ?_⟩
  cases message with
  | offer => exact h.movesToTs _
  | receipt => exact h.acksToTs _

/-- The acknowledgement that the TypeScript seat signs is read by the Rust one. -/
theorem Honest.rust_reads_receipt (hwrites : pair.rust.Writes k e msg) :
    pair.rust.Reads (pair.encodeFrame (.ack ⟨(nonceAt k).toNat, pair.ts.sign msg⟩))
      (.receipt k e) := by
  obtain ⟨sig, hsig, hverify⟩ := h.tsSigns msg
  refine ⟨msg, sig, hwrites, hverify, ?_⟩
  rw [← hsig]
  exact h.acksToRust ⟨nonceAt k, sig⟩

end

theorem toTs_update_nonce (hk : k + 1 < 2 ^ 64) : (pair.update k e).toTs.nonce = k + 1 := by
  simp only [StateUpdate.toTs, update, RuntimeConfig.updateOf, toNat_nonceAt hk]
  omega

/-- Corresponding states have the same update. -/
theorem Honest.describes (h : pair.Honest g start balances) {t : TsState}
    (hsame : g.same t e.next) (hlocked : pair.lockedIn e.next = pair.ts.total) :
    Engine.Describes pair.ts t (pair.update k e).toTs where
  tunnelId := h.tunnelId.symm
  encoded := ⟨_, h.game.encodeState t e.next hsame, by rw [h.hash]; rfl⟩
  shareA := by
    rw [h.game.balances t e.next hsame]
    rfl
  shareB := by
    rw [h.game.balances t e.next hsame]
    rfl
  balanced := hlocked

/-- An update that describes a state is the one of the corresponding entry. -/
theorem Honest.update_eq (h : pair.Honest g start balances) {t : TsState}
    {u : Engine.StateUpdate} (hsame : g.same t e.next) (hdescribes : Engine.Describes pair.ts t u)
    (hk : k + 1 < 2 ^ 64) (hnonce : u.nonce = k + 1) (htime : u.timestamp = e.timestamp.toNat) :
    u = (pair.update k e).toTs := by
  obtain ⟨encoded, hencoded, hhash⟩ := hdescribes.encoded
  rw [h.game.encodeState t e.next hsame] at hencoded
  cases hencoded
  rw [h.hash] at hhash
  have hshares := h.game.balances t e.next hsame
  have hA := hdescribes.shareA
  have hB := hdescribes.shareB
  rw [hshares] at hA hB
  have htunnel := hdescribes.tunnelId.trans h.tunnelId
  obtain ⟨_, _, _, _, _, _⟩ := u
  simp only at hhash hA hB htunnel hnonce htime
  simp only [StateUpdate.toTs, update, RuntimeConfig.updateOf, toNat_nonceAt hk,
    Engine.StateUpdate.mk.injEq]
  exact ⟨htunnel, hhash, by omega, htime, hA, hB⟩

namespace TsFollows

theorem frame_reads (h : pair.Honest g start balances) {move : TsMove} (next : TsState)
    (hby : e.bySeat = pair.ts.selfParty) (hwrites : pair.rust.Writes k e msg)
    (hmove : e.mv = g.toRust move) :
    pair.rust.Reads (pair.encodeFrame (Engine.pendingMoveFrame pair.ts ⟨next,
      (pair.update k e).toTs, msg, pair.ts.sign msg, move, e.timestamp.toNat⟩)) (.offer k e) := by
  obtain ⟨sig, hsig, hverify⟩ := h.tsSigns msg
  refine ⟨msg, sig, hwrites, hverify, ?_⟩
  have hframe := h.movesToRust (pair.rust.frameFor k e sig) move hmove
  rw [RuntimeConfig.wireFrame, ← hframe]
  simp [Engine.pendingMoveFrame, MoveFrame.toTs, RuntimeConfig.frameFor, StateUpdate.toTs, update,
    RuntimeConfig.updateOf, hby, hsig]

/-- The last entry of an extended log is the latest one. -/
theorem latest_concat {log : List (Entry State Move)} {held : Engine.CoSignedUpdate}
    (hupdate : held.update = (pair.update log.length e).toTs) (k : Nat) (e' : Entry State Move)
    (hk : k + 1 = (log ++ [e]).length) (hat : (log ++ [e])[k]? = some e') :
    ∃ held', some held = some held' ∧ held'.update = (pair.update k e').toTs := by
  rw [List.length_append, List.length_singleton, Nat.add_right_cancel_iff] at hk
  subst hk
  rw [List.getElem?_concat_length, Option.some.injEq] at hat
  subst hat
  exact ⟨held, rfl, hupdate⟩

variable (hf : pair.TsFollows g initial s y)
include hf

theorem pending_none (hfree : y.pending = none) :
    s.pending = none := by
  rcases hf.pending with ⟨hpending, -⟩ | ⟨_, _, _, _, hown, -⟩
  · exact hpending
  · rw [hfree] at hown
    cases hown

theorem free_of_pending_none (hfree : s.pending = none) :
    y.pending = none := by
  rcases hf.pending with ⟨-, hpending⟩ | ⟨_, _, _, _, -, -, -, -, -, hown⟩
  · exact hpending
  · rw [hfree] at hown
    cases hown

theorem pending_some (hpending : y.pending = some e) :
    e.bySeat = pair.ts.selfParty ∧ ∃ msg next move, pair.rust.Writes y.log.length e msg ∧
      g.same next e.next ∧ e.mv = g.toRust move ∧
      s.pending = some ⟨next, (pair.update y.log.length e).toTs, msg, pair.ts.sign msg, move,
        e.timestamp.toNat⟩ := by
  rcases hf.pending with ⟨-, hnone⟩ | ⟨_, msg, next, move, hown, hby, hrest⟩
  · rw [hpending] at hnone
    cases hnone
  · rw [hpending] at hown
    cases hown
    exact ⟨hby, msg, next, move, hrest⟩

theorem stale_nonce (hk : k < y.log.length)
    (hbound : k + 1 < 2 ^ 64) : ((nonceAt k).toNat : Int) ≤ s.nonce := by
  rw [toNat_nonceAt hbound, hf.nonce]
  omega

theorem new_nonce (hk : y.log.length ≤ k)
    (hbound : k + 1 < 2 ^ 64) : s.nonce < ((nonceAt k).toNat : Int) := by
  rw [toNat_nonceAt hbound, hf.nonce]
  omega

theorem early_offer (hk : y.log.length < k)
    (hwrites : pair.rust.Writes k e msg) (sig : Bytes64) :
    ∀ turn, Engine.onFrame pair.ts s (pair.tsFrame g sig (.offer k e)) ≠ .ok turn := by
  intro turn hok
  obtain ⟨-, hnext, -⟩ :=
    (Engine.onMove_ok_iff (hf.new_nonce (Nat.le_of_lt hk) hwrites.1)).mp hok
  simp only [MoveFrame.toTs, RuntimeConfig.frameFor, toNat_nonceAt hwrites.1, hf.nonce] at hnext
  omega

theorem old_receipt (hk : k < y.log.length)
    (hwrites : pair.rust.Writes k e msg) (sig : Bytes64) :
    Engine.onFrame pair.ts s (pair.tsFrame g sig (.receipt k e)) = .ok { seat := s } :=
  if_pos (hf.stale_nonce hk hwrites.1)

variable (h : pair.Honest g start balances)
include h

/-! ### Proposing -/

theorem propose
    {move : TsMove} {timestamp : Int}
    (hok : Engine.propose pair.ts s move timestamp = .ok turn) :
    y.pending = none ∧ turn.confirmed = none ∧ ∃ e frame, turn.sent = [frame] ∧
      pair.rust.Turn initial pair.ts.selfParty y.log e ∧
      pair.lockedIn e.next = pair.ts.total ∧
      pair.TsFollows g initial turn.seat (y.offer e) ∧
      pair.rust.Reads (pair.encodeFrame frame) (.offer y.log.length e) := by
  simp only [Engine.propose, returned] at hok
  obtain ⟨_, hseated, rfl⟩ := hok
  obtain ⟨hfree, next, u, msg, hderived, rfl⟩ := Engine.seatPending_ok_iff.mp hseated
  obtain ⟨next', happly, hsame⟩ :=
    h.game.moveOfTs _ _ move pair.ts.selfParty next hf.state hderived.applied
  obtain ⟨_, _, hencodable, -⟩ := Engine.serializeStateUpdate_ok_iff.mp hderived.serialized
  have htime : IsU64 timestamp := hderived.timestamp ▸ hencodable.timestamp
  have hk : y.log.length + 1 < 2 ^ 64 := by
    have hnonce := hencodable.nonce.2
    rw [hderived.nonce, hf.nonce] at hnonce
    simp only [Engine.u64Max] at hnonce
    omega
  have htoNat : ((word timestamp).toNat : Int) = timestamp := by
    rw [toNat_word htime]
    exact Int.toNat_of_nonneg htime.1
  let e : Entry State Move := ⟨pair.ts.selfParty, g.toRust move, word timestamp, next'⟩
  have hu : u = (pair.update y.log.length e).toTs := h.update_eq hsame hderived.describes hk
    (by rw [hderived.nonce, hf.nonce]) (hderived.timestamp.trans htoNat.symm)
  have hwrites : pair.rust.Writes y.log.length e msg :=
    ⟨hk, serialize_toTs_iff.mp (hu ▸ hderived.serialized)⟩
  have hlocked : pair.lockedIn e.next = pair.ts.total := by
    have hbalanced := hderived.describes.balanced
    rw [hu] at hbalanced
    exact hbalanced
  have hproposal : Engine.proposal pair.ts move timestamp next u msg = ⟨next,
      (pair.update y.log.length e).toTs, msg, pair.ts.sign msg, move, e.timestamp.toNat⟩ := by
    rw [Engine.proposal, hu, htoNat]
  refine ⟨hf.free_of_pending_none hfree, rfl, e, _, rfl, ⟨⟨rfl, happly⟩, msg, hwrites⟩, hlocked,
    ⟨hf.state, hf.nonce, .inr ⟨e, msg, next, move, rfl, rfl, hwrites, hsame, rfl, ?_⟩,
      hf.latest⟩, ?_⟩
  · exact congrArg some hproposal
  · rw [hproposal]
    exact frame_reads h next rfl hwrites rfl

theorem resend
    (hpending : y.pending = some e) : ∃ frame,
      Engine.resendPending pair.ts s = { seat := s, sent := [frame] } ∧
      pair.rust.Reads (pair.encodeFrame frame) (.offer y.log.length e) := by
  obtain ⟨hby, _, next, _, hwrites, -, hmove, hs⟩ := hf.pending_some hpending
  refine ⟨_, ?_, frame_reads h next hby hwrites hmove⟩
  rw [Engine.resendPending, hs]
  rfl

/-! ### Receiving -/

theorem last_offer (hk : k + 1 = y.log.length)
    (hat : y.log[k]? = some e) (hby : e.bySeat = pair.rust.seat)
    (hwrites : pair.rust.Writes k e msg) (sig : Bytes64) : ∃ frame signed,
      Engine.onFrame pair.ts s (pair.tsFrame g sig (.offer k e)) =
        .ok { seat := s, sent := [frame], signed := signed } ∧
      pair.rust.Reads (pair.encodeFrame frame) (.receipt k e) := by
  obtain ⟨held, hlatest, hupdate⟩ := hf.latest k e hk hat
  have hnonce : ((nonceAt k).toNat : Int) = s.nonce := by
    rw [toNat_nonceAt hwrites.1, hf.nonce, hk]
  have hheld : held.update.nonce = s.nonce := by
    rw [hupdate]
    exact hnonce
  have hmsg : Engine.serializeStateUpdate held.update = .ok msg := by
    rw [hupdate]
    exact serialize_toTs_iff.mpr hwrites.2
  have hparty := h.ne_self hby
  have hreack : Engine.onMove pair.ts s ((pair.rust.frameFor k e sig).toTs (g.toTs e.mv)) =
      .ok (Engine.reacknowledgement pair.ts s held msg) :=
    Engine.onMove_repeated hparty hnonce hlatest hheld hmsg
  refine ⟨_, _, hreack, ?_⟩
  rw [← hnonce]
  exact h.rust_reads_receipt hwrites

theorem older_offer (hk : k + 1 < y.log.length)
    (hby : e.bySeat = pair.rust.seat) (hwrites : pair.rust.Writes k e msg) (sig : Bytes64) :
    Engine.onFrame pair.ts s (pair.tsFrame g sig (.offer k e)) = .ok { seat := s } := by
  have hparty := h.ne_self hby
  have hstale := hf.stale_nonce (by omega : k < y.log.length) hwrites.1
  have hne : ((nonceAt k).toNat : Int) ≠ s.nonce := by
    rw [toNat_nonceAt hwrites.1, hf.nonce]
    omega
  have hrequired : require (e.bySeat ≠ pair.ts.selfParty)
      "received a MOVE attributed to self" = .ok ⟨⟩ := require_ok_iff.mpr hparty
  simp only [tsFrame, Engine.onFrame, Engine.onMove, MoveFrame.toTs, RuntimeConfig.frameFor,
    hrequired, ok_bind, hstale, if_true, hne, false_and, if_false]
  cases s.latest <;> rfl

/-- The next move of the Rust seat is co-signed if its balances add up to the locked total. -/
theorem next_offer (hfree : y.pending = none)
    (hturn : pair.rust.Turn initial pair.rust.seat y.log e)
    (hwrites : pair.rust.Writes y.log.length e msg)
    (hlocked : pair.lockedIn e.next = pair.ts.total) : ∃ turn held frame,
      Engine.onFrame pair.ts s
        (pair.tsFrame g (pair.rust.sign msg) (.offer y.log.length e)) = .ok turn ∧
      turn.sent = [frame] ∧ turn.confirmed = some held ∧
      held.update = (pair.update y.log.length e).toTs ∧
      pair.TsFollows g initial turn.seat (y.accept e) ∧
      pair.rust.Reads (pair.encodeFrame frame) (.receipt y.log.length e) := by
  obtain ⟨⟨hby, happly⟩, -⟩ := hturn
  obtain ⟨next, happly', hsame⟩ := h.game.moveOfRust _ _ e.mv e.bySeat e.next hf.state happly
  have hnew := hf.new_nonce le_rfl hwrites.1
  have hnext : (pair.update y.log.length e).toTs.nonce = s.nonce + 1 := by
    rw [toTs_update_nonce hwrites.1, hf.nonce]
  have hderived : Engine.Derived pair.ts s (g.toTs e.mv) e.bySeat e.timestamp.toNat next
      (pair.update y.log.length e).toTs msg :=
    ⟨happly', h.describes hsame hlocked, hnext, rfl, serialize_toTs_iff.mpr hwrites.2⟩
  have hparty := h.ne_self hby
  have haccept : Engine.onMove pair.ts s
      ((pair.rust.frameFor y.log.length e (pair.rust.sign msg)).toTs (g.toTs e.mv)) = .ok _ :=
    (Engine.onMove_ok_iff hnew).mpr
      ⟨hparty, hnext, next, _, msg, hderived, ⟨rfl, rfl, rfl, h.rustSigns msg⟩, rfl⟩
  refine ⟨_, _, _, haccept, rfl, rfl, Engine.coSign_update _ _ _ _, ⟨?_, ?_, ?_, ?_⟩,
    h.rust_reads_receipt hwrites⟩
  · simpa [Side.accept, Engine.acceptance] using hsame
  · rw [Engine.acceptance, toTs_update_nonce hwrites.1]
    simp [Side.accept]
  · refine .inl ⟨?_, hfree⟩
    rw [Engine.acceptance, hf.pending_none hfree]
    rfl
  · exact latest_concat (Engine.coSign_update _ _ _ _)

theorem unbalanced_offer
    (hturn : pair.rust.Turn initial pair.rust.seat y.log e)
    (hwrites : pair.rust.Writes y.log.length e msg) (hlocked : pair.lockedIn e.next ≠ pair.ts.total)
    (sig : Bytes64) :
    ∀ turn, Engine.onFrame pair.ts s (pair.tsFrame g sig (.offer y.log.length e)) ≠ .ok turn := by
  intro turn hok
  obtain ⟨⟨_, happly⟩, -⟩ := hturn
  obtain ⟨next, happly', hsame⟩ := h.game.moveOfRust _ _ e.mv e.bySeat e.next hf.state happly
  obtain ⟨-, -, next', _, _, hderived, -⟩ :=
    (Engine.onMove_ok_iff (hf.new_nonce le_rfl hwrites.1)).mp hok
  obtain rfl : next' = next := Except.ok.inj (hderived.applied.symm.trans happly')
  have hbalanced := hderived.describes.balanced
  rw [hderived.describes.shareA, hderived.describes.shareB, h.game.balances _ _ hsame]
    at hbalanced
  exact hlocked hbalanced

theorem receipt
    (hpending : y.pending = some e) (hwrites : pair.rust.Writes y.log.length e msg) :
    ∃ turn held, Engine.onFrame pair.ts s
        (pair.tsFrame g (pair.rust.sign msg) (.receipt y.log.length e)) = .ok turn ∧
      turn.sent = [] ∧ turn.confirmed = some held ∧
      held.update = (pair.update y.log.length e).toTs ∧ TsKeeps s turn.seat ∧
      pair.TsFollows g initial turn.seat (y.commit e) := by
  obtain ⟨_, msg', _, _, hwrites', hsame, _, hs⟩ := hf.pending_some hpending
  obtain rfl : msg' = msg := Except.ok.inj (hwrites'.2.symm.trans hwrites.2)
  have hack : Engine.onAck pair.ts s
      (AckFrame.toTs ⟨nonceAt y.log.length, pair.rust.sign msg'⟩) = .ok _ :=
    (Engine.onAck_ok_iff (hf.new_nonce le_rfl hwrites.1)).mpr
      ⟨_, hs, rfl, h.rustSigns msg', rfl⟩
  refine ⟨_, _, hack, rfl, rfl, Engine.coSign_update _ _ _ _, ?_,
    ⟨?_, ?_, .inl ⟨rfl, rfl⟩, ?_⟩⟩
  · intro p hp
    rw [hs] at hp
    cases hp
    exact .inr ⟨rfl, rfl, rfl⟩
  · simpa [Side.commit, Engine.confirmation] using hsame
  · rw [Engine.confirmation, toTs_update_nonce hwrites.1]
    simp [Side.commit]
  · exact latest_concat (Engine.coSign_update _ _ _ _)

end TsFollows

end MixedPair

end DopamintArena.Rust
