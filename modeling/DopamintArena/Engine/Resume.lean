import DopamintArena.Engine.Pair
import DopamintArena.Engine.Signer
import DopamintArena.Games.TicTacToe

/-!
`pvp/resume.ts` and `pvp/resumeSession.ts`: a browser seat that survives
reloads. Hooks of the tunnel put a record of it aside, a later flush writes the
record to storage, and a crash loses everything but the storage. After a
reload the tunnel is rebuilt from the stored record.

Storage lags behind: an update is signed and sent before the record that
remembers it is even built. What follows is when that is harmless.

The adapter of a game writes states and moves into a record and reads them
back. Identity fields, expiry times and the hidden secrets of a game, which are
not part of any signed state, are left out.
-/

namespace DopamintArena.Engine

open Foundation

/-- How a game stores its states and moves. -/
structure ResumeAdapter (State Move StateJson MoveJson : Type) where
  serializeState : State → StateJson
  deserializeState : StateJson → Except String State
  serializeMove : Move → MoveJson
  deserializeMove : MoveJson → Except String Move

structure ResumeRecord (StateJson MoveJson : Type) where
  latestCoSigned : CoSignedUpdate
  latestState : StateJson
  pending : Option (MoveJson × Int)

/-- What a peer says about its side. -/
structure ResyncView where
  nonce : Int
  hasPending : Bool
  checkpoint : Option CoSignedUpdate

inductive ReconcileAction
  | adopt
  | wait
  | rePropose
  | noop
  | settle
deriving DecidableEq

/-- `core/reconcile.ts`. -/
def decideReconcile (self peer : ResyncView) : ReconcileAction :=
  if self.nonce < peer.nonce then .adopt
  else if peer.nonce < self.nonce then .wait
  else if conflict self.checkpoint peer.checkpoint then .settle
  else if self.hasPending then .rePropose
  else .noop
where
  /-- Both sides show a checkpoint, with different state hashes. -/
  conflict : Option CoSignedUpdate → Option CoSignedUpdate → Bool
    | some mine, some theirs => decide (mine.update.stateHash ≠ theirs.update.stateHash)
    | _, _ => false

structure ResyncMessage (StateJson : Type) where
  view : ResyncView
  fullState : Option StateJson

/-- A live tunnel in memory. -/
structure Session (State Move : Type) where
  cfg : Config State Move
  seat : Seat State Move

/-- A browser: the tunnel in memory, the record that waits for a flush, the stored one, and
everything it ever signed for this tunnel. -/
structure Browser (State Move StateJson MoveJson : Type) where
  session : Option (Session State Move)
  dirty : Option (ResumeRecord StateJson MoveJson)
  stored : Option (ResumeRecord StateJson MoveJson)
  signed : List Signed

inductive BrowserEvent (State Move StateJson : Type)
  /-- The app calls the tunnel or a frame arrives. -/
  | call (input : Input State Move)
  | resync (msg : ResyncMessage StateJson)
  | flush
  | crash
  /-- The page is loaded again; records past their time are evicted first. -/
  | resume (expired : Bool)

section Model

variable {State Move StateJson MoveJson : Type}
variable (crypto : Crypto) (protocol : Protocol State Move) (options : DistributedConfig Move)
variable (adapter : ResumeAdapter State Move StateJson MoveJson)

/-- Nothing is recorded before something is co-signed. -/
def buildRecord (s : Seat State Move) : Option (ResumeRecord StateJson MoveJson) :=
  s.latest.map fun latest =>
    { latestCoSigned := latest
      latestState := adapter.serializeState s.state
      pending := s.pending.map fun p => (adapter.serializeMove p.move, p.timestamp) }

/-- Seats a fresh tunnel at a record, and signs its pending proposal again. -/
def restoreInto (cfg : Config State Move) (s : Seat State Move)
    (record : ResumeRecord StateJson MoveJson) :
    Except String (Seat State Move × List Signed) := do
  let state ← adapter.deserializeState record.latestState
  let adopted ← adoptCheckpoint cfg s state record.latestCoSigned
  match record.pending with
  | none => pure (adopted.seat, adopted.signed)
  | some (moveJson, timestamp) => do
    let move ← adapter.deserializeMove moveJson
    let seated ← seatPending cfg adopted.seat move timestamp
    pure (seated.seat, adopted.signed ++ seated.signed)

/-- The locked balances of the rebuilt tunnel are the split of the checkpoint. -/
def rebuildTunnel (record : ResumeRecord StateJson MoveJson) :
    Except String (Session State Move × List Signed) := do
  let u := record.latestCoSigned.update
  let (cfg, fresh) ← create crypto protocol options ⟨u.partyABalance, u.partyBBalance⟩
  let (seat, signed) ← restoreInto adapter cfg fresh record
  pure (⟨cfg, seat⟩, signed)

/-- `resumeActiveTunnels` for one tunnel. A finished match is not resumed. -/
def resumeTunnel (record : ResumeRecord StateJson MoveJson) :
    Except String (Session State Move × List Signed) := do
  let state ← adapter.deserializeState record.latestState
  require (protocol.isTerminal state = false) "the match is over"
  rebuildTunnel crypto protocol options adapter record

/-- The call on the tunnel that a peer's resync leads to. -/
def resyncInput (s : Seat State Move) (msg : ResyncMessage StateJson) :
    Option (Input State Move) :=
  match decideReconcile ⟨s.nonce, s.pending.isSome, s.latest⟩ msg.view with
  | .adopt =>
    match msg.view.checkpoint, msg.fullState with
    | some checkpoint, some fullState =>
      (adapter.deserializeState fullState).toOption.map fun state =>
        .adoptCheckpoint state checkpoint
    | _, _ => none
  | .rePropose => some .resendPending
  | .wait | .noop | .settle => none

/-- Checkpoints come from a resync only. -/
def Input.plays : Input State Move → Bool
  | .adoptCheckpoint _ _ => false
  | _ => true

/-- The call on the tunnel that an event makes. -/
def engineInput (s : Seat State Move) : BrowserEvent State Move StateJson →
    Option (Input State Move)
  | .call input => if input.plays then some input else none
  | .resync msg => resyncInput adapter s msg
  | .flush | .crash | .resume _ => none

/-- The record waiting for a flush after a turn: the confirm and propose hooks renew it. -/
def hookRecord (turn : Turn State Move)
    (dirty : Option (ResumeRecord StateJson MoveJson)) :
    Option (ResumeRecord StateJson MoveJson) :=
  if turn.confirmed.isSome || turn.proposed then (buildRecord adapter turn.seat).or dirty
  else dirty

variable (w : Browser State Move StateJson MoveJson)

/-- A call on the live tunnel. One that throws changes nothing. -/
def engineStep (event : BrowserEvent State Move StateJson) :
    Browser State Move StateJson MoveJson :=
  match w.session with
  | none => w
  | some session =>
    match engineInput adapter session.seat event with
    | none => w
    | some input =>
      match act session.cfg session.seat input with
      | .error _ => w
      | .ok turn =>
        { w with
          session := some ⟨session.cfg, turn.seat⟩
          dirty := hookRecord adapter turn w.dirty
          signed := w.signed ++ turn.signed }

/-- A reload. A record that cannot be restored is dropped. -/
def reload (expired : Bool) : Browser State Move StateJson MoveJson :=
  match w.session, w.stored with
  | none, some record =>
    if expired then { w with dirty := none, stored := none }
    else
      match resumeTunnel crypto protocol options adapter record with
      | .ok (session, signed) => { w with session := some session, signed := w.signed ++ signed }
      | .error _ => { w with dirty := none, stored := none }
  | _, _ => w

def browserStep : BrowserEvent State Move StateJson → Browser State Move StateJson MoveJson
  | .call input => engineStep adapter w (.call input)
  | .resync msg => engineStep adapter w (.resync msg)
  | .flush => { w with stored := w.dirty.or w.stored, dirty := none }
  | .crash => { w with session := none, dirty := none }
  | .resume expired => reload crypto protocol options adapter w expired

structure BrowserEntry (State Move StateJson MoveJson : Type) where
  before : Browser State Move StateJson MoveJson
  event : BrowserEvent State Move StateJson

/-- The lifetimes of a browser seat whose signatures nobody forges. -/
def browserSystem (cfg : Config State Move) (start : Seat State Move) :
    System (Browser State Move StateJson MoveJson)
      (BrowserEntry State Move StateJson MoveJson) where
  init history w := history = [] ∧ w = ⟨some ⟨cfg, start⟩, none, none, []⟩
  step w entry w' := entry.before = w ∧
    (∀ session input, w.session = some session →
      engineInput adapter session.seat entry.event = some input →
      Unforged session.cfg w.signed input) ∧
    w' = browserStep crypto protocol options adapter w entry.event

end Model

section Lifetime

variable {State Move StateJson MoveJson : Type} {cfg : Config State Move}
variable {s : Seat State Move} {adapter : ResumeAdapter State Move StateJson MoveJson}
variable {signed : List StateUpdate} {input : Input State Move} {turn : Turn State Move}
variable {s' restored fresh : Seat State Move} {move : Move} {next state : State}
variable {update : StateUpdate} {msg : Bytes} {record : ResumeRecord StateJson MoveJson}
variable {p : PendingProposal State Move} {latest : CoSignedUpdate} {new : List Signed}
variable {dirty : Option (ResumeRecord StateJson MoveJson)}

/-- What a seat has to satisfy so that a record of it can stand in for it. -/
structure Resumable (cfg : Config State Move) (signed : List StateUpdate)
    (s : Seat State Move) : Prop where
  grounded : Grounded cfg signed s
  committed : Committed signed s
  nonce : 0 ≤ s.nonce
  pending : ∀ p, s.pending = some p →
    Derived cfg s p.move cfg.selfParty p.timestamp p.next p.update p.msg
  balanced : ∀ latest, s.latest = some latest →
    latest.update.partyABalance + latest.update.partyBBalance = cfg.total

theorem resumable_fresh (hfresh : Fresh s) : Resumable cfg [] s where
  grounded := grounded_fresh hfresh
  committed := committed_fresh hfresh
  nonce := by rw [hfresh.nonce]
  pending p hp := by rw [hfresh.pending] at hp; cases hp
  balanced latest h := by rw [hfresh.latest] at h; cases h

/-- With a proposal pending it is this seat's turn, so no MOVE of the opponent crosses
it. -/
theorem Resumable.not_crosses (h : Resumable cfg signed s) (hturn : cfg.protocol.TurnBased)
    (hact : act cfg s input = .ok turn) : ¬Crosses s input := by
  rintro ⟨_, p, rfl, hpending, _, -⟩
  obtain ⟨hparty, -, next, _, _, hderived, -⟩ := (onMove_ok_iff (by omega)).mp hact
  exact hturn.not_both hparty ⟨next, hderived.applied⟩ ⟨p.next, (h.pending p hpending).applied⟩

theorem pending_dropped (h : Resumable cfg signed s) {nonce : Int} (hadvanced : s.nonce < nonce) :
    dropOvertaken s.pending nonce = none := by
  cases hdropped : dropOvertaken s.pending nonce with
  | none => rfl
  | some p =>
    obtain ⟨hpending, _⟩ := dropOvertaken_some.mp hdropped
    have hp := h.grounded.pendingNonce p hpending
    omega

theorem Derived.of_same {party : Party} {timestamp : Int}
    (h : Derived cfg s move party timestamp next update msg) (hstate : s'.state = s.state)
    (hnonce : s'.nonce = s.nonce) : Derived cfg s' move party timestamp next update msg where
  applied := by rw [hstate]; exact h.applied
  describes := h.describes
  nonce := by rw [hnonce]; exact h.nonce
  timestamp := h.timestamp
  serialized := h.serialized

theorem resumable_pending_effect (h : Resumable cfg signed s) (hown : KeepsOwnState s input)
    (heffect : Effect cfg s input turn) :
    ∀ p, turn.seat.pending = some p →
      Derived cfg turn.seat p.move cfg.selfParty p.timestamp p.next p.update p.msg := by
  intro p hp
  cases heffect with
  | idle | resent | reacked | half | halfWithRoot => exact h.pending p hp
  | seated _ _ _ _ _ _ hderived | proposed _ _ _ _ _ _ hderived =>
    cases hp
    exact hderived.of_same rfl rfl
  | accepted frame next update msg _ _ hderived =>
    have hnext := hderived.nonce
    rw [show (acceptance cfg s frame next update msg).seat.pending = none from
      pending_dropped h (by omega)] at hp
    cases hp
  | acked => cases hp
  | adopted state coSigned _ hadoptable =>
    have hnotOlder := hadoptable.notOlder
    by_cases hsame : coSigned.update.nonce = s.nonce
    · have hkept := h.pending p (dropOvertaken_some.mp hp).1
      exact hkept.of_same (hown state coSigned rfl hsame) hsame
    · rw [show (adoption s state coSigned).seat.pending = none from
        pending_dropped h (by omega)] at hp
      cases hp

theorem resumable_balanced_effect (h : Resumable cfg signed s) (heffect : Effect cfg s input turn) :
    ∀ latest, turn.seat.latest = some latest →
      latest.update.partyABalance + latest.update.partyBBalance = cfg.total := by
  intro latest hlatest
  cases heffect with
  | idle | resent | reacked | half | halfWithRoot | seated | proposed =>
    exact h.balanced latest hlatest
  | accepted _ _ _ _ _ _ hderived =>
    cases hlatest
    rw [coSign_update]
    exact hderived.describes.balanced
  | acked _ p hpending =>
    cases hlatest
    rw [coSign_update]
    exact (h.pending p hpending).describes.balanced
  | adopted _ _ _ hadoptable =>
    cases hlatest
    exact hadoptable.balanced

theorem nonce_effect {input : Input State Move} {turn : Turn State Move}
    (heffect : Effect cfg s input turn) : s.nonce ≤ turn.seat.nonce := by
  cases heffect with
  | idle | resent | reacked | half | halfWithRoot | seated | proposed => exact le_refl _
  | accepted _ _ _ _ _ _ hderived =>
    have hnext := hderived.nonce
    simp only [acceptance]
    omega
  | acked =>
    simp only [confirmation]
    omega
  | adopted _ _ _ hadoptable => exact hadoptable.notOlder

/-- One call on a live tunnel keeps it resumable. -/
theorem resumable_act {signed : List Signed} (h : Resumable cfg (updatesOf signed) s)
    (hturn : cfg.protocol.TurnBased) (hown : KeepsOwnState s input)
    (hunforged : Unforged cfg signed input) (hact : act cfg s input = .ok turn) :
    Resumable cfg (updatesOf (signed ++ turn.signed)) turn.seat := by
  have heffect := act_effect hact
  rw [updatesOf_append]
  refine ⟨grounded_effect h.grounded heffect, ?_, h.nonce.trans (nonce_effect heffect),
    resumable_pending_effect h hown heffect, resumable_balanced_effect h heffect⟩
  refine committed_effect h.grounded h.committed (h.not_crosses hturn hact) ?_ heffect
  intro state coSigned msg hinput hadoptable
  rw [hinput] at hunforged
  exact hunforged.signed h.grounded.tunnelId hadoptable

/-- A move applied to a stored state gives the encoding it would have given without the
detour through storage. -/
def ResumeAdapter.Faithful (adapter : ResumeAdapter State Move StateJson MoveJson)
    (protocol : Protocol State Move) : Prop :=
  ∀ state state' move move' party next next',
    adapter.deserializeState (adapter.serializeState state) = .ok state' →
    adapter.deserializeMove (adapter.serializeMove move) = .ok move' →
    protocol.applyMove state move party = .ok next →
    protocol.applyMove state' move' party = .ok next' →
    protocol.encodeState next' = protocol.encodeState next

theorem restoreInto_ok {signed : List Signed} (hfresh : Fresh s)
    (hnonce : 0 ≤ record.latestCoSigned.update.nonce)
    (h : restoreInto adapter cfg s record = .ok (restored, signed)) :
    ∃ state msg, adapter.deserializeState record.latestState = .ok state ∧
      Adoptable cfg s state record.latestCoSigned msg ∧
      (record.pending = none ∧ restored = (adoption s state record.latestCoSigned).seat ∧
          signed = [] ∨
        ∃ moveJson timestamp move next update updateMsg,
          record.pending = some (moveJson, timestamp) ∧
          adapter.deserializeMove moveJson = .ok move ∧
          Derived cfg (adoption s state record.latestCoSigned).seat move cfg.selfParty timestamp
            next update updateMsg ∧
          restored =
            { (adoption s state record.latestCoSigned).seat with
              pending := some (proposal cfg move timestamp next update updateMsg) } ∧
          signed = [.update update]) := by
  simp only [restoreInto, bind_ok_iff] at h
  obtain ⟨state, hstate, _, hadopted, h⟩ := h
  rcases adoptCheckpoint_ok hadopted with ⟨holder, -⟩ | ⟨msg, hadoptable, rfl⟩
  · rw [hfresh.nonce] at holder
    omega
  · refine ⟨state, msg, hstate, hadoptable, ?_⟩
    cases hpending : record.pending with
    | none =>
      simp only [hpending, pure_ok_iff, Prod.mk.injEq] at h
      exact .inl ⟨rfl, h.1, h.2⟩
    | some stored =>
      obtain ⟨moveJson, timestamp⟩ := stored
      simp only [hpending, returned, Prod.mk.injEq] at h
      obtain ⟨move, hmove, _, hseated, hrestored, hsigned⟩ := h
      obtain ⟨-, next, update, updateMsg, hderived, rfl⟩ := seatPending_ok_iff.mp hseated
      exact .inr ⟨moveJson, timestamp, move, next, update, updateMsg, rfl, hmove, hderived,
        hrestored, hsigned⟩

/-- The proposal a restored seat signs again has the hash of the one it stored. -/
theorem restored_hash (h : Resumable cfg signed s) (hadapter : adapter.Faithful cfg.protocol)
    (hpending : s.pending = some p)
    (hstate : adapter.deserializeState (adapter.serializeState s.state) = .ok state)
    (hmove : adapter.deserializeMove (adapter.serializeMove p.move) = .ok move)
    (hsame : s'.state = state)
    (hderived : Derived cfg s' move cfg.selfParty p.timestamp next update msg) :
    update.stateHash = p.update.stateHash := by
  have hstored := h.pending p hpending
  have happlied := hderived.applied
  rw [hsame] at happlied
  have hencoding := hadapter s.state state p.move move cfg.selfParty p.next next hstate hmove
    hstored.applied happlied
  obtain ⟨encoded, hencoded, hhash⟩ := hderived.describes.encoded
  obtain ⟨_, hencoded', hhash'⟩ := hstored.describes.encoded
  rw [hencoding, hencoded', Except.ok.injEq] at hencoded
  rw [hhash, hhash', hencoded]

theorem Fresh.adoption_free (hfresh : Fresh fresh) (state : State) (latest : CoSignedUpdate)
    (p : PendingProposal State Move) : (adoption fresh state latest).seat.pending ≠ some p := by
  simp [adoption, dropOvertaken, hfresh.pending]

theorem grounded_restored (state : State) (h : Grounded cfg signed s)
    (hlatest : s.latest = some latest) (hfresh : Fresh fresh) :
    Grounded cfg signed (adoption fresh state latest).seat := by
  have hfree := hfresh.adoption_free state latest
  refine ⟨fun p hp => absurd hp (hfree p), fun p hp => absurd hp (hfree p),
    fun p hp => absurd hp (hfree p), ?_, ?_, h.tunnelId⟩
  · intro other hother
    cases hother
    rfl
  · intro other hother
    cases hother
    exact h.latestTunnel latest hlatest

/-- A seat restored from the record of `s`, without a proposal, may replace it. -/
theorem committed_restored (h : Resumable cfg signed s) (hlatest : s.latest = some latest)
    (hfree : s.pending = none) :
    Committed signed (adoption fresh state latest).seat := by
  have hnonce := h.grounded.latestNonce latest hlatest
  refine ⟨?_, h.committed.once, ?_⟩
  · intro u hu
    left
    have hle := h.committed.le_nonce hfree hu
    simp only [adoption]
    omega
  · intro other hother
    cases hother
    obtain ⟨u, hu, hunonce, huhash⟩ := h.committed.latestSigned latest hlatest
    exact ⟨u, hu, hunonce.trans hnonce.symm, huhash⟩

/-- With the proposal signed again, under the same hash, it may replace `s` as well. -/
theorem committed_reseated {q : PendingProposal State Move} (h : Resumable cfg signed s)
    (hlatest : s.latest = some latest) (hpending : s.pending = some p)
    (hnonce' : s'.nonce = s.nonce) (hlatest' : s'.latest = some latest)
    (hpending' : s'.pending = some q) (hnext : q.update.nonce = s.nonce + 1)
    (hhash : q.update.stateHash = p.update.stateHash) :
    Committed (signed ++ [q.update]) s' := by
  have hp := h.grounded.pendingNonce p hpending
  -- what was signed for the pending nonce has the hash of the proposal
  have hsame : ∀ u ∈ signed, u.nonce ≤ s.nonce ∨
      u.nonce = q.update.nonce ∧ u.stateHash = q.update.stateHash := by
    intro u hu
    rcases h.committed.ahead u hu with hle | ⟨p', hpending'', hunonce, huhash⟩
    · exact .inl hle
    · rw [hpending, Option.some.injEq] at hpending''
      subst hpending''
      exact .inr ⟨by omega, huhash.trans hhash.symm⟩
  refine ⟨?_, h.committed.once.concat ?_, ?_⟩
  · intro u hu
    rcases List.mem_append.mp hu with hu | hu
    · rcases hsame u hu with hle | ⟨hunonce, huhash⟩
      · exact .inl (by omega)
      · exact .inr ⟨q, hpending', hunonce, huhash⟩
    · rw [List.mem_singleton.mp hu]
      exact .inr ⟨q, hpending', rfl, rfl⟩
  · intro v hv hvnonce
    rcases hsame v hv with hle | ⟨-, hvhash⟩
    · omega
    · exact hvhash
  · intro other hother
    rw [hlatest', Option.some.injEq] at hother
    subst hother
    obtain ⟨u, hu, hunonce, huhash⟩ := h.committed.latestSigned latest hlatest
    exact ⟨u, List.mem_append_left _ hu, hunonce.trans hnonce'.symm, huhash⟩

theorem resumable_restored {signed : List Signed} (h : Resumable cfg (updatesOf signed) s)
    (hadapter : adapter.Faithful cfg.protocol) (hrecord : buildRecord adapter s = some record)
    (hfresh : Fresh fresh)
    (hrestored : restoreInto adapter cfg fresh record = .ok (restored, new)) :
    Resumable cfg (updatesOf (signed ++ new)) restored := by
  obtain ⟨latest, hlatest, rfl⟩ := Option.map_eq_some_iff.mp hrecord
  have hnonce := h.grounded.latestNonce latest hlatest
  have hlow := h.nonce
  obtain ⟨state, _, hstate, _, hcase⟩ :=
    restoreInto_ok hfresh (by simp only; omega) hrestored
  have hgrounded := grounded_restored state h.grounded hlatest hfresh
  have hbalanced : ∀ other, some latest = some other →
      other.update.partyABalance + other.update.partyBBalance = cfg.total := by
    rintro _ ⟨⟩
    exact h.balanced latest hlatest
  rw [updatesOf_append]
  rcases hcase with ⟨hpending, rfl, rfl⟩ |
    ⟨_, timestamp, move, next, update, updateMsg, hpending, hmove, hderived, rfl, rfl⟩
  · have hfree : s.pending = none := Option.map_eq_none_iff.mp hpending
    rw [show updatesOf [] = [] from rfl, List.append_nil]
    exact ⟨hgrounded, committed_restored h hlatest hfree, by simp only [adoption]; omega,
      fun p hp => absurd hp (hfresh.adoption_free state latest p), hbalanced⟩
  · obtain ⟨p, hp, hstored⟩ := Option.map_eq_some_iff.mp hpending
    obtain ⟨rfl, rfl⟩ := Prod.mk.inj hstored
    have hhash := restored_hash h hadapter hp hstate hmove rfl hderived
    have hnext : update.nonce = s.nonce + 1 := by
      have hnext := hderived.nonce
      simp only [adoption] at hnext
      omega
    refine ⟨grounded_seated hgrounded hderived,
      committed_reseated (q := proposal cfg move p.timestamp next update updateMsg) h hlatest hp
        hnonce rfl rfl hnext hhash, by simp only [adoption]; omega, ?_, hbalanced⟩
    rintro _ ⟨⟩
    exact hderived.of_same rfl rfl

/-- Nothing was signed beyond the checkpoint of a record and its pending proposal. -/
def ResumeRecord.Remembers (record : ResumeRecord StateJson MoveJson)
    (signed : List StateUpdate) : Prop :=
  ∀ u ∈ signed, u.nonce ≤ record.latestCoSigned.update.nonce ∨
    record.pending.isSome = true ∧ u.nonce = record.latestCoSigned.update.nonce + 1

instance (record : ResumeRecord StateJson MoveJson) (signed : List StateUpdate) :
    Decidable (record.Remembers signed) :=
  inferInstanceAs (Decidable (∀ u ∈ signed, _))

def BrowserEvent.isCrash : BrowserEvent State Move StateJson → Bool
  | .crash => true
  | _ => false

/-- A crash that loses no signature: the stored record, if there is one, remembers all of
them. -/
def RememberedCrash (entry : BrowserEntry State Move StateJson MoveJson) : Prop :=
  entry.event.isCrash = true → ∀ record ∈ entry.before.stored,
    record.Remembers (updatesOf entry.before.signed)

instance (entry : BrowserEntry State Move StateJson MoveJson) :
    Decidable (RememberedCrash entry) :=
  inferInstanceAs (Decidable (_ → ∀ record ∈ entry.before.stored, _))

/-- A resync that adopts a checkpoint at the seat's own nonce keeps its state. -/
def KeepsOwnStates (adapter : ResumeAdapter State Move StateJson MoveJson)
    (entry : BrowserEntry State Move StateJson MoveJson) : Prop :=
  ∀ session input, entry.before.session = some session →
    engineInput adapter session.seat entry.event = some input →
    KeepsOwnState session.seat input

theorem Resumable.widen {earlier : List StateUpdate} (h : Resumable cfg earlier s)
    (hrecord : buildRecord adapter s = some record) (hearlier : earlier ⊆ signed)
    (honce : SignsOnce signed) (htunnel : ∀ u ∈ signed, u.tunnelId = cfg.tunnelId)
    (hremembers : record.Remembers signed) : Resumable cfg signed s := by
  obtain ⟨latest, hlatest, rfl⟩ := Option.map_eq_some_iff.mp hrecord
  have hnonce := h.grounded.latestNonce latest hlatest
  refine ⟨?_, ⟨?_, honce, ?_⟩, h.nonce, h.pending, h.balanced⟩
  · exact
      { h.grounded with
        pendingSigned := fun p hp => hearlier (h.grounded.pendingSigned p hp)
        tunnelId := htunnel }
  · intro u hu
    rcases hremembers u hu with hle | ⟨hpending, hnext⟩
    · exact .inl (hle.trans hnonce.le)
    · rw [Option.isSome_map] at hpending
      obtain ⟨p, hp⟩ := Option.isSome_iff_exists.mp hpending
      have hpnonce := h.grounded.pendingNonce p hp
      have hsame : u.nonce = p.update.nonce := by
        simp only at hnext
        omega
      have hsigned := hearlier (h.grounded.pendingSigned p hp)
      exact .inr ⟨p, hp, hsame, honce u hu p.update hsigned hsame⟩
  · intro other hother
    obtain ⟨u, hu, hunonce, huhash⟩ := h.committed.latestSigned other hother
    exact ⟨u, hearlier hu, hunonce, huhash⟩

/-- The record was built of a resumable seat, at some earlier time. -/
def Recorded (cfg : Config State Move) (adapter : ResumeAdapter State Move StateJson MoveJson)
    (signed : List StateUpdate) (record : ResumeRecord StateJson MoveJson) : Prop :=
  ∃ s earlier, Resumable cfg earlier s ∧ earlier ⊆ signed ∧ buildRecord adapter s = some record

theorem Recorded.append {signed : List Signed}
    (h : Recorded cfg adapter (updatesOf signed) record) :
    Recorded cfg adapter (updatesOf (signed ++ new)) record := by
  obtain ⟨s, earlier, hresumable, hearlier, hrecord⟩ := h
  rw [updatesOf_append]
  exact ⟨s, earlier, hresumable, List.subset_append_of_subset_left _ hearlier, hrecord⟩

/-- The live seat is resumable, and every record is one of a seat that was. Without a live
seat the stored record remembers everything. -/
structure BrowserInvariant (cfg : Config State Move)
    (adapter : ResumeAdapter State Move StateJson MoveJson)
    (w : Browser State Move StateJson MoveJson) : Prop where
  live : ∀ session, w.session = some session →
    session.cfg = cfg ∧ Resumable cfg (updatesOf w.signed) session.seat
  down : w.session = none → w.dirty = none ∧
    ∀ record, w.stored = some record → record.Remembers (updatesOf w.signed)
  dirty : ∀ record, w.dirty = some record → Recorded cfg adapter (updatesOf w.signed) record
  stored : ∀ record, w.stored = some record → Recorded cfg adapter (updatesOf w.signed) record
  once : SignsOnce (updatesOf w.signed)
  tunnelId : ∀ u ∈ updatesOf w.signed, u.tunnelId = cfg.tunnelId

theorem recorded_hookRecord {signed : List Signed}
    (hdirty : ∀ record, dirty = some record → Recorded cfg adapter (updatesOf signed) record)
    (hseat : Resumable cfg (updatesOf (signed ++ new)) turn.seat)
    (record : ResumeRecord StateJson MoveJson)
    (hrecord : hookRecord adapter turn dirty = some record) :
    Recorded cfg adapter (updatesOf (signed ++ new)) record := by
  unfold hookRecord at hrecord
  split at hrecord
  · rcases Option.or_eq_some_iff.mp hrecord with hbuilt | ⟨-, hkept⟩
    · exact ⟨turn.seat, _, hseat, List.Subset.refl _, hbuilt⟩
    · exact (hdirty record hkept).append
  · exact (hdirty record hrecord).append

theorem BrowserInvariant.live_step {w : Browser State Move StateJson MoveJson}
    {session : Session State Move} (h : BrowserInvariant cfg adapter w) (hcfg : session.cfg = cfg)
    (hafter : Resumable cfg (updatesOf (w.signed ++ new)) session.seat)
    (hdirty : ∀ record, dirty = some record →
      Recorded cfg adapter (updatesOf (w.signed ++ new)) record) :
    BrowserInvariant cfg adapter
      { w with session := some session, dirty := dirty, signed := w.signed ++ new } := by
  refine ⟨?_, ?_, hdirty, ?_, hafter.committed.once, hafter.grounded.tunnelId⟩
  · rintro _ ⟨⟩
    exact ⟨hcfg, hafter⟩
  · intro hnone
    cases hnone
  · intro record hrecord
    exact (h.stored record hrecord).append

theorem invariant_engineStep {w : Browser State Move StateJson MoveJson}
    {event : BrowserEvent State Move StateJson} (h : BrowserInvariant cfg adapter w)
    (hturn : cfg.protocol.TurnBased) (hown : KeepsOwnStates adapter ⟨w, event⟩)
    (hunforged : ∀ session input, w.session = some session →
      engineInput adapter session.seat event = some input →
      Unforged session.cfg w.signed input) :
    BrowserInvariant cfg adapter (engineStep adapter w event) := by
  unfold engineStep
  split
  · exact h
  · next session hsession =>
      split
      · exact h
      · next input hinput =>
          split
          · exact h
          · next turn hact =>
              obtain ⟨hcfg, hresumable⟩ := h.live session hsession
              have hunforgedNow := hunforged session input hsession hinput
              rw [hcfg] at hact hunforgedNow
              have hafter := resumable_act hresumable hturn (hown session input hsession hinput)
                hunforgedNow hact
              exact h.live_step hcfg hafter (recorded_hookRecord h.dirty hafter)

theorem invariant_flush {w : Browser State Move StateJson MoveJson}
    (h : BrowserInvariant cfg adapter w) :
    BrowserInvariant cfg adapter { w with stored := w.dirty.or w.stored, dirty := none } := by
  refine ⟨h.live, ?_, ?_, ?_, h.once, h.tunnelId⟩
  · intro hdown
    obtain ⟨hclean, hstored⟩ := h.down hdown
    refine ⟨rfl, fun record hrecord => hstored record ?_⟩
    rwa [hclean, Option.none_or] at hrecord
  · intro record hrecord
    cases hrecord
  · intro record hrecord
    rcases Option.or_eq_some_iff.mp hrecord with hflushed | ⟨-, hkept⟩
    · exact h.dirty record hflushed
    · exact h.stored record hkept

theorem invariant_crash {w : Browser State Move StateJson MoveJson}
    (h : BrowserInvariant cfg adapter w)
    (hremembered : RememberedCrash (⟨w, .crash⟩ : BrowserEntry State Move StateJson MoveJson)) :
    BrowserInvariant cfg adapter { w with session := none, dirty := none } := by
  refine ⟨?_, fun _ => ⟨rfl, hremembered rfl⟩, ?_, h.stored, h.once, h.tunnelId⟩
  · intro session hsession
    cases hsession
  · intro record hrecord
    cases hrecord

theorem invariant_reload {crypto : Crypto} {protocol : Protocol State Move}
    {options : DistributedConfig Move} {initialBalances : Balances} {start : Seat State Move}
    {w : Browser State Move StateJson MoveJson} {expired : Bool}
    (hcreate : create crypto protocol options initialBalances = .ok (cfg, start))
    (h : BrowserInvariant cfg adapter w) (hadapter : adapter.Faithful cfg.protocol) :
    BrowserInvariant cfg adapter (reload crypto protocol options adapter w expired) := by
  -- dropping the record leaves nothing that could ever sign again
  have hdrop : BrowserInvariant cfg adapter { w with dirty := none, stored := none } := by
    exact ⟨h.live, fun _ => ⟨rfl, nofun⟩, nofun, nofun, h.once, h.tunnelId⟩
  unfold reload
  split
  · next record hdown hstored =>
      split
      · exact hdrop
      · split
        · next session new hresume =>
            obtain ⟨_, _, hrecorded, hearlier, hrecord⟩ := h.stored record hstored
            have hresumable := hrecorded.widen hrecord hearlier h.once h.tunnelId
              ((h.down hdown).2 record hstored)
            simp only [resumeTunnel, rebuildTunnel, returned] at hresume
            obtain ⟨-, -, -, ⟨cfg', fresh⟩, hcreate', ⟨_, _⟩, hrestored, hsession⟩ :=
              hresume
            cases hsession
            have htotal : record.latestCoSigned.update.partyABalance +
                record.latestCoSigned.update.partyBBalance = cfg.total := by
              obtain ⟨latest, hlatest, rfl⟩ := Option.map_eq_some_iff.mp hrecord
              exact hresumable.balanced latest hlatest
            have hcfg : cfg' = cfg := create_config_eq hcreate hcreate' htotal
            subst hcfg
            have hafter := resumable_restored hresumable hadapter hrecord
              (create_ok hcreate').fresh hrestored
            apply h.live_step rfl hafter
            intro dirtyRecord hdirty
            rw [(h.down hdown).1] at hdirty
            cases hdirty
        · exact hdrop
  · exact h

/-- A browser seat signs once per nonce over its whole lifetime, if no crash finds a stored
record that is behind what the seat has signed. -/
theorem signs_once_across_crashes {crypto : Crypto} {protocol : Protocol State Move}
    {options : DistributedConfig Move} {initialBalances : Balances} {start : Seat State Move}
    {history : List (BrowserEntry State Move StateJson MoveJson)}
    {w : Browser State Move StateJson MoveJson}
    (hcreate : create crypto protocol options initialBalances = .ok (cfg, start))
    (hturn : protocol.TurnBased) (hadapter : adapter.Faithful protocol)
    (hrun : (browserSystem crypto protocol options adapter cfg start).Run history w)
    (hremembered : ∀ entry ∈ history, RememberedCrash entry)
    (hown : ∀ entry ∈ history, KeepsOwnStates adapter entry) :
    SignsOnce (updatesOf w.signed) := by
  have hcreated := create_ok hcreate
  rw [← hcreated.protocol] at hturn hadapter
  suffices hinvariant : BrowserInvariant cfg adapter w from hinvariant.once
  induction hrun with
  | start hstart =>
    obtain ⟨-, rfl⟩ := hstart
    have hstart : Resumable cfg [] start := resumable_fresh hcreated.fresh
    refine ⟨?_, ?_, ?_, ?_, hstart.committed.once, hstart.grounded.tunnelId⟩
    · rintro _ ⟨⟩
      exact ⟨rfl, hstart⟩
    · intro hnone
      cases hnone
    · intro record hrecord
      cases hrecord
    · intro record hrecord
      cases hrecord
  | @step history _ _ entry _ hstep ih =>
    have hlast : entry ∈ history ++ [entry] := by simp
    have hinvariant := ih (fun e he => hremembered e (List.mem_append_left _ he))
      (fun e he => hown e (List.mem_append_left _ he))
    have hrememberedNow := hremembered entry hlast
    have hownNow := hown entry hlast
    obtain ⟨_, event⟩ := entry
    obtain ⟨rfl, hunforged, rfl⟩ := hstep
    cases event with
    | call | resync => exact invariant_engineStep hinvariant hturn hownNow hunforged
    | crash => exact invariant_crash hinvariant hrememberedNow
    | resume => exact invariant_reload hcreate hinvariant hadapter
    | flush => exact invariant_flush hinvariant

end Lifetime

section Replay

variable {State Move StateJson MoveJson : Type}
variable {crypto : Crypto} {protocol : Protocol State Move} {options : DistributedConfig Move}
variable {adapter : ResumeAdapter State Move StateJson MoveJson} {cfg : Config State Move}
variable {start : Seat State Move}

def browserReplay (crypto : Crypto) (protocol : Protocol State Move)
    (options : DistributedConfig Move)
    (adapter : ResumeAdapter State Move StateJson MoveJson) :
    Browser State Move StateJson MoveJson → List (BrowserEntry State Move StateJson MoveJson) →
    List (BrowserEvent State Move StateJson) →
    Browser State Move StateJson MoveJson × List (BrowserEntry State Move StateJson MoveJson)
  | w, history, [] => (w, history)
  | w, history, event :: rest =>
    browserReplay crypto protocol options adapter
      (browserStep crypto protocol options adapter w event) (history ++ [⟨w, event⟩]) rest

def BrowserEvent.isLocal : BrowserEvent State Move StateJson → Bool
  | .resync _ => false
  | _ => true

theorem engineInput_local {s : Seat State Move} {event : BrowserEvent State Move StateJson}
    {input : Input State Move} (hlocal : event.isLocal = true)
    (hinput : engineInput adapter s event = some input) :
    ∀ state coSigned, input ≠ .adoptCheckpoint state coSigned := by
  rintro state coSigned rfl
  cases event with
  | call =>
    simp only [engineInput, Option.ite_none_right_eq_some, Option.some.injEq] at hinput
    obtain ⟨hplays, rfl⟩ := hinput
    cases hplays
  | resync => cases hlocal
  | flush | crash | resume => cases hinput

theorem keepsOwnStates_local {entry : BrowserEntry State Move StateJson MoveJson}
    (hlocal : entry.event.isLocal = true) : KeepsOwnStates adapter entry := by
  intro session input _ hinput state coSigned hadopt
  exact absurd hadopt (engineInput_local hlocal hinput state coSigned)

theorem browserReplay_run {w w' : Browser State Move StateJson MoveJson}
    {history history' : List (BrowserEntry State Move StateJson MoveJson)}
    {events : List (BrowserEvent State Move StateJson)}
    (hrun : (browserSystem crypto protocol options adapter cfg start).Run history w)
    (hearlier : ∀ entry ∈ history, entry.event.isLocal = true)
    (hevents : ∀ event ∈ events, event.isLocal = true)
    (h : browserReplay crypto protocol options adapter w history events = (w', history')) :
    (browserSystem crypto protocol options adapter cfg start).Run history' w' ∧
      ∀ entry ∈ history', entry.event.isLocal = true := by
  induction events generalizing w history with
  | nil =>
    cases h
    exact ⟨hrun, hearlier⟩
  | cons event _ ih =>
    have hlocal := hevents event (by simp)
    have hstep : (browserSystem crypto protocol options adapter cfg start).step w ⟨w, event⟩
        (browserStep crypto protocol options adapter w event) :=
      ⟨rfl, fun _ _ _ hinput => unforged_of_play (engineInput_local hlocal hinput), rfl⟩
    refine ih (hrun.step hstep) ?_ (fun e he => hevents e (List.mem_cons_of_mem _ he)) h
    intro entry hentry
    rcases List.mem_append.mp hentry with hentry | hentry
    · exact hearlier entry hentry
    · rw [List.mem_singleton.mp hentry]
      exact hlocal

end Replay

namespace Sample

open Games (TicTacToeState TicTacToeMove)

/-- Tic-tac-toe over 500 from each side. -/
def ticTacToe : Protocol TicTacToeState TicTacToeMove :=
  Games.TicTacToe.protocol crypto.blake2b256 100

def boardConfig : Party → Config TicTacToeState TicTacToeMove :=
  config ticTacToe (500 + 500)

def boardSeat : Seat TicTacToeState TicTacToeMove :=
  freshSeat ticTacToe ⟨500, 500⟩

def plainAdapter (State Move : Type) : ResumeAdapter State Move State Move where
  serializeState := id
  deserializeState := .ok
  serializeMove := id
  deserializeMove := .ok

theorem faithful_plain {State Move : Type} (protocol : Protocol State Move) :
    (plainAdapter State Move).Faithful protocol := by
  rintro state _ move _ party next next' ⟨⟩ ⟨⟩ hnext hnext'
  have hsame : next = next' := Except.ok.inj (hnext.symm.trans hnext')
  rw [hsame]

def mark (cell : Int) : TicTacToeMove := ⟨cell, List.replicate 16 7⟩

abbrev BoardEvent := BrowserEvent TicTacToeState TicTacToeMove TicTacToeState

def boardBrowser : Browser TicTacToeState TicTacToeMove TicTacToeState
    TicTacToeMove :=
  ⟨some ⟨boardConfig .A, boardSeat⟩, none, none, []⟩

def boardReplay := browserReplay crypto ticTacToe (options TicTacToeMove .A)
  (plainAdapter TicTacToeState TicTacToeMove) boardBrowser []

/-- Party B's seat after party A's opening move, and its answer. -/
def opening : Except String (Turn TicTacToeState TicTacToeMove) := do
  let proposed ← act (boardConfig .A) boardSeat (.propose (mark 0) 5)
  match proposed.sent with
  | [frame] => act (boardConfig .B) boardSeat (.frame frame)
  | _ => .error "one frame expected"

def reply (cell : Int) : Except String (Turn TicTacToeState TicTacToeMove) := do
  let answered ← opening
  act (boardConfig .B) answered.seat (.propose (mark cell) 6)

def arrive (turn : Except String (Turn TicTacToeState TicTacToeMove)) :
    List BoardEvent :=
  match turn with
  | .ok turn => turn.sent.map fun frame => .call (.frame frame)
  | .error _ => []

theorem isLocal_arrive (turn : Except String (Turn TicTacToeState TicTacToeMove)) :
    (arrive turn).all (·.isLocal) = true := by
  cases turn with
  | ok => simp [arrive, BrowserEvent.isLocal]
  | error => rfl

/-- Every crash comes after a flush. -/
def flushedReloads : List BoardEvent :=
  List.flatten [[.call (.propose (mark 0) 5)], arrive opening, [.flush], arrive (reply 1),
    [.flush, .crash, .resume false], arrive (reply 1),
    [.call (.propose (mark 2) 7), .flush, .crash, .resume false]]

/-- The browser crashes before the record of party B's MOVE is flushed; restored, it is
sent another one. -/
def lostWrite : List BoardEvent :=
  List.flatten [[.call (.propose (mark 0) 5)], arrive opening, [.flush], arrive (reply 1),
    [.crash, .resume false], arrive (reply 2)]

theorem isLocal_flushedReloads : flushedReloads.all (·.isLocal) = true := by
  simp only [flushedReloads, List.all_flatten, List.all_cons, isLocal_arrive]
  rfl

theorem isLocal_lostWrite : lostWrite.all (·.isLocal) = true := by
  simp only [lostWrite, List.all_flatten, List.all_cons, isLocal_arrive]
  rfl

def boardSystem := browserSystem crypto ticTacToe (options TicTacToeMove .A)
  (plainAdapter TicTacToeState TicTacToeMove) (boardConfig .A) boardSeat

theorem boardReplay_run (events : List BoardEvent) (hlocal : events.all (·.isLocal) = true) :
    boardSystem.Run (boardReplay events).2 (boardReplay events).1 ∧
      ∀ entry ∈ (boardReplay events).2, entry.event.isLocal = true :=
  browserReplay_run (.start ⟨rfl, rfl⟩) (by simp) (List.all_eq_true.mp hlocal) rfl

theorem create_board : create crypto ticTacToe (options TicTacToeMove .A) ⟨500, 500⟩ =
    .ok (boardConfig .A, boardSeat) :=
  create_sample ticTacToe ⟨500, 500⟩ .A (by decide)

end Sample

/-- Two reloads, each after a flush: the seat answers nonce 2 and re-sends nonce 3 again,
and signs what it signed before. -/
theorem signs_once_across_crashes_board :
    (updatesOf (Sample.boardReplay Sample.flushedReloads).1.signed).map (·.nonce) =
        [1, 2, 2, 3, 3] ∧
      SignsOnce (updatesOf (Sample.boardReplay Sample.flushedReloads).1.signed) := by
  obtain ⟨hnonces, hremembered⟩ :
      (updatesOf (Sample.boardReplay Sample.flushedReloads).1.signed).map (·.nonce) =
          [1, 2, 2, 3, 3] ∧
        ∀ entry ∈ (Sample.boardReplay Sample.flushedReloads).2, RememberedCrash entry := by
    decide +kernel
  obtain ⟨hrun, hlocal⟩ := Sample.boardReplay_run Sample.flushedReloads
    Sample.isLocal_flushedReloads
  refine ⟨hnonces, signs_once_across_crashes Sample.create_board (Games.TicTacToe.turnBased _ _)
    (Sample.faithful_plain _) hrun hremembered ?_⟩
  intro entry hentry
  exact keepsOwnStates_local (hlocal entry hentry)

/-- The flush is a later task than the one that signs and sends. Party A answers a MOVE for
nonce 2 and crashes before the record of it is flushed; restored from the record of
nonce 1, it answers another MOVE for nonce 2. -/
theorem signs_twice_after_lost_write :
    create Sample.crypto Sample.ticTacToe (Sample.options Games.TicTacToeMove .A) ⟨500, 500⟩ =
        .ok (Sample.boardConfig .A, Sample.boardSeat) ∧
      Sample.ticTacToe.TurnBased ∧
      (Sample.plainAdapter _ _).Faithful Sample.ticTacToe ∧
      ∃ history w, Sample.boardSystem.Run history w ∧
        (∀ entry ∈ history, KeepsOwnStates (Sample.plainAdapter _ _) entry) ∧
        (updatesOf w.signed).map (·.nonce) = [1, 2, 2] ∧ ¬SignsOnce (updatesOf w.signed) := by
  obtain ⟨hrun, hlocal⟩ := Sample.boardReplay_run Sample.lostWrite Sample.isLocal_lostWrite
  refine ⟨Sample.create_board, Games.TicTacToe.turnBased _ _, Sample.faithful_plain _,
    _, _, hrun, ?_, by decide +kernel⟩
  intro entry hentry
  exact keepsOwnStates_local (hlocal entry hentry)

end DopamintArena.Engine
