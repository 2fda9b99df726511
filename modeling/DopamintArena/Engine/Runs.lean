import DopamintArena.Engine.SeatSpec
import DopamintArena.Foundation.Runs

/-!
Runs of one seat and what it signs over a run. A call that throws changes
nothing and signs nothing, so a run lists the calls that returned.

A seat with no pending proposal has signed nothing past its confirmed nonce;
with one, it has signed that proposal and nothing else there. What breaks this
is a MOVE that is co-signed while a different proposal is pending at the same
nonce (`Crosses`).
-/

namespace DopamintArena.Engine

open Foundation

variable {State Move : Type} {cfg : Config State Move} {s s' : Seat State Move}
variable {p : PendingProposal State Move} {crypto : Crypto} {protocol : Protocol State Move}
variable {options : DistributedConfig Move} {initialBalances : Balances} {signed : List StateUpdate}
variable {move : Move} {party : Party} {timestamp : Int} {next : State} {update u : StateUpdate}
variable {msg : Bytes} {input : Input State Move} {turn : Turn State Move} {start : Seat State Move}

/-- A call that returned: the seat before it, the call and its turn. -/
structure SeatEntry (State Move : Type) where
  before : Seat State Move
  input : Input State Move
  turn : Turn State Move

/-- The runs of one seat from `start`, whatever it is asked to do. -/
def seatSystem (cfg : Config State Move) (start : Seat State Move) :
    System (Seat State Move) (SeatEntry State Move) where
  init history s := history = [] ∧ s = start
  step s entry s' := act cfg s entry.input = .ok entry.turn ∧ entry.before = s ∧
    s' = entry.turn.seat

def Signed.update? : Signed → Option StateUpdate
  | .update u => some u
  | _ => none

def Turn.updates (turn : Turn State Move) : List StateUpdate :=
  turn.signed.filterMap Signed.update?

def signedUpdates (history : List (SeatEntry State Move)) : List StateUpdate :=
  history.flatMap fun entry => entry.turn.updates

/-- At most one state hash per nonce. -/
def SignsOnce (signed : List StateUpdate) : Prop :=
  ∀ u ∈ signed, ∀ v ∈ signed, u.nonce = v.nonce → u.stateHash = v.stateHash

instance (signed : List StateUpdate) : Decidable (SignsOnce signed) :=
  inferInstanceAs (Decidable (∀ u ∈ signed, ∀ v ∈ signed, _ → _))

/-- A MOVE for the next nonce while a different proposal for it is pending. -/
def Crosses (s : Seat State Move) (input : Input State Move) : Prop :=
  ∃ frame p, input = .frame (.move frame) ∧ s.pending = some p ∧
    frame.nonce = s.nonce + 1 ∧ frame.stateHash ≠ p.update.stateHash

@[simp] theorem signedUpdates_append (history history' : List (SeatEntry State Move)) :
    signedUpdates (history ++ history') = signedUpdates history ++ signedUpdates history' := by
  simp [signedUpdates]

@[simp] theorem signedUpdates_singleton (entry : SeatEntry State Move) :
    signedUpdates [entry] = entry.turn.updates := by
  simp [signedUpdates]

theorem dropOvertaken_some {pending : Option (PendingProposal State Move)} {nonce : Int} :
    dropOvertaken pending nonce = some p ↔ pending = some p ∧ nonce < p.update.nonce := by
  simp [dropOvertaken]

/-- What ties a seat to the updates it has signed, whatever it was sent. -/
structure Grounded (cfg : Config State Move) (signed : List StateUpdate)
    (s : Seat State Move) : Prop where
  pendingNonce : ∀ p, s.pending = some p → p.update.nonce = s.nonce + 1
  pendingSigned : ∀ p, s.pending = some p → p.update ∈ signed
  pendingMessage : ∀ p, s.pending = some p → serializeStateUpdate p.update = .ok p.msg
  latestNonce : ∀ latest, s.latest = some latest → latest.update.nonce = s.nonce
  latestTunnel : ∀ latest, s.latest = some latest → latest.update.tunnelId = cfg.tunnelId
  tunnelId : ∀ u ∈ signed, u.tunnelId = cfg.tunnelId

/-- A seat as the constructor leaves it. -/
structure Fresh (s : Seat State Move) : Prop where
  nonce : s.nonce = 0
  latest : s.latest = none
  pending : s.pending = none

/-- What the constructor builds. -/
structure Created (crypto : Crypto) (protocol : Protocol State Move)
    (options : DistributedConfig Move) (initialBalances : Balances)
    (cfg : Config State Move) (s : Seat State Move) : Prop where
  fresh : Fresh s
  state : s.state = protocol.initialState ⟨options.tunnelId, initialBalances⟩
  crypto : cfg.crypto = crypto
  protocol : cfg.protocol = protocol
  tunnelId : cfg.tunnelId = options.tunnelId
  selfParty : cfg.selfParty = options.selfParty
  self : cfg.self = options.self
  sign : options.self.sign = some cfg.sign
  opponent : cfg.opponent = options.opponent
  total : cfg.total = initialBalances.a + initialBalances.b

theorem create_ok (h : create crypto protocol options initialBalances = .ok (cfg, s)) :
    Created crypto protocol options initialBalances cfg s := by
  unfold create at h
  split at h
  · cases h
  · next sign hsign =>
      simp only [returned, Prod.mk.injEq] at h
      obtain ⟨-, -, rfl, rfl⟩ := h
      exact ⟨⟨rfl, rfl, rfl⟩, rfl, rfl, rfl, rfl, rfl, rfl, hsign, rfl, rfl⟩

/-- The configuration depends on the balances only through their sum. -/
theorem create_config_eq {otherBalances : Balances} {cfg' : Config State Move}
    {s' : Seat State Move} (h : create crypto protocol options initialBalances = .ok (cfg, s))
    (h' : create crypto protocol options otherBalances = .ok (cfg', s'))
    (htotal : otherBalances.a + otherBalances.b = cfg.total) : cfg' = cfg := by
  unfold create at h h'
  cases hsign : options.self.sign with
  | none =>
    rw [hsign] at h
    cases h
  | some =>
    simp only [hsign, returned, Prod.mk.injEq] at h h'
    obtain ⟨-, -, rfl, -⟩ := h
    obtain ⟨-, -, rfl, -⟩ := h'
    rw [htotal]

theorem grounded_fresh (hfresh : Fresh s) : Grounded cfg [] s where
  pendingNonce p h := by rw [hfresh.pending] at h; cases h
  pendingSigned p h := by rw [hfresh.pending] at h; cases h
  pendingMessage p h := by rw [hfresh.pending] at h; cases h
  latestNonce latest h := by rw [hfresh.latest] at h; cases h
  latestTunnel latest h := by rw [hfresh.latest] at h; cases h
  tunnelId u h := by cases h

section

variable (h : Grounded cfg signed s)
include h

theorem Grounded.signs {extra : List StateUpdate}
    (hextra : ∀ u ∈ extra, u.tunnelId = cfg.tunnelId) : Grounded cfg (signed ++ extra) s where
  pendingNonce := h.pendingNonce
  pendingSigned p hp := List.mem_append_left _ (h.pendingSigned p hp)
  pendingMessage := h.pendingMessage
  latestNonce := h.latestNonce
  latestTunnel := h.latestTunnel
  tunnelId u hu := by
    rcases List.mem_append.mp hu with hu | hu
    · exact h.tunnelId u hu
    · exact hextra u hu

/-- A seat that advanced to `coSigned` keeps only proposals beyond it, so it keeps a
grounded one only if it did not advance at all. -/
theorem Grounded.advance (state : State) (coSigned : CoSignedUpdate) (extra : List StateUpdate)
    (hnotOlder : s.nonce ≤ coSigned.update.nonce)
    (htunnel : coSigned.update.tunnelId = cfg.tunnelId)
    (hextra : ∀ u ∈ extra, u.tunnelId = cfg.tunnelId) :
    Grounded cfg (signed ++ extra)
      { state := state, nonce := coSigned.update.nonce, latest := some coSigned
        pending := dropOvertaken s.pending coSigned.update.nonce } where
  pendingNonce p hp := by
    obtain ⟨hp, _⟩ := dropOvertaken_some.mp hp
    have hnonce := h.pendingNonce p hp
    simp only
    omega
  pendingSigned p hp := List.mem_append_left _ (h.pendingSigned p (dropOvertaken_some.mp hp).1)
  pendingMessage p hp := h.pendingMessage p (dropOvertaken_some.mp hp).1
  latestNonce latest hlatest := by
    cases hlatest
    rfl
  latestTunnel latest hlatest := by
    cases hlatest
    exact htunnel
  tunnelId := (h.signs hextra).tunnelId

theorem grounded_seated (hderived : Derived cfg s move party timestamp next update msg) :
    Grounded cfg (signed ++ [update])
      { s with pending := some (proposal cfg move timestamp next update msg) } where
  pendingNonce p hp := by
    cases hp
    exact hderived.nonce
  pendingSigned p hp := by
    cases hp
    simp [proposal]
  pendingMessage p hp := by
    cases hp
    exact hderived.serialized
  latestNonce := h.latestNonce
  latestTunnel := h.latestTunnel
  tunnelId := (h.signs (by simpa using hderived.describes.tunnelId)).tunnelId

theorem grounded_effect (heffect : Effect cfg s input turn) :
    Grounded cfg (signed ++ turn.updates) turn.seat := by
  cases heffect with
  | idle | resent => exact h.signs (by simp [Turn.updates])
  | half | halfWithRoot => exact h.signs (by simp [Turn.updates, Signed.update?])
  | reacked _ latest _ hlatest =>
    apply h.signs
    simp only [Turn.updates, reacknowledgement, List.filterMap_cons, Signed.update?,
      List.filterMap_nil, List.mem_singleton, forall_eq]
    exact h.latestTunnel latest hlatest
  | seated _ _ _ _ _ _ hderived | proposed _ _ _ _ _ _ hderived =>
    exact grounded_seated h hderived
  | accepted frame next update msg _ _ hderived =>
    have hadvance := h.advance next (coSign cfg update (cfg.sign msg) frame.sigProposer) [update]
      (by rw [coSign_update, hderived.nonce]; omega)
      (by rw [coSign_update]; exact hderived.describes.tunnelId)
      (by simpa using hderived.describes.tunnelId)
    rw [coSign_update] at hadvance
    exact hadvance
  | acked frame p hpending =>
    have hgrounded := h.pendingNonce p hpending
    have hadvance := h.advance p.next (coSign cfg p.update p.sigSelf frame.sigResponder) []
      (by rw [coSign_update]; omega)
      (by rw [coSign_update]; exact h.tunnelId _ (h.pendingSigned p hpending))
      (by simp)
    -- the proposal that was acknowledged is dropped, as an overtaken one is
    have hdropped : dropOvertaken s.pending p.update.nonce = none := by
      rw [hpending]
      simp [dropOvertaken]
    rw [coSign_update, hdropped] at hadvance
    exact hadvance
  | adopted state coSigned _ hadoptable =>
    exact h.advance state coSigned _ hadoptable.notOlder hadoptable.tunnelId
      (by simp [Turn.updates, adoption])

end

variable {history : List (SeatEntry State Move)}

theorem seat_grounded (hfresh : Fresh start) (hrun : (seatSystem cfg start).Run history s) :
    Grounded cfg (signedUpdates history) s := by
  apply hrun.invariant (I := fun history s => Grounded cfg (signedUpdates history) s)
  · rintro _ _ ⟨rfl, rfl⟩
    exact grounded_fresh hfresh
  · rintro history s entry s' - hgrounded ⟨hact, -, rfl⟩
    rw [signedUpdates_append, signedUpdates_singleton]
    exact grounded_effect hgrounded (act_effect hact)

/-- What was signed is settled, or is the pending proposal. -/
structure Committed (signed : List StateUpdate) (s : Seat State Move) : Prop where
  ahead : ∀ u ∈ signed, u.nonce ≤ s.nonce ∨ ∃ p, s.pending = some p ∧
    u.nonce = p.update.nonce ∧ u.stateHash = p.update.stateHash
  once : SignsOnce signed
  latestSigned : ∀ latest, s.latest = some latest → ∃ u ∈ signed, u.nonce = s.nonce ∧
    u.stateHash = latest.update.stateHash

theorem committed_fresh (hfresh : Fresh s) : Committed [] s where
  ahead u hu := by cases hu
  once u hu := by cases hu
  latestSigned latest h := by rw [hfresh.latest] at h; cases h

theorem SignsOnce.concat (h : SignsOnce signed)
    (hu : ∀ v ∈ signed, v.nonce = u.nonce → v.stateHash = u.stateHash) :
    SignsOnce (signed ++ [u]) := by
  intro v hv w hw hnonce
  rcases List.mem_append.mp hv with hv | hv <;> rcases List.mem_append.mp hw with hw | hw
  · exact h v hv w hw hnonce
  · rw [List.mem_singleton.mp hw] at hnonce ⊢
    exact hu v hv hnonce
  · rw [List.mem_singleton.mp hv] at hnonce ⊢
    exact (hu w hw hnonce.symm).symm
  · rw [List.mem_singleton.mp hv, List.mem_singleton.mp hw]

/-- Nothing is signed past the confirmed nonce of a seat without a proposal. -/
theorem Committed.le_nonce (h : Committed signed s) (hfree : s.pending = none) (hu : u ∈ signed) :
    u.nonce ≤ s.nonce := by
  rcases h.ahead u hu with hle | ⟨p, hpending, -⟩
  · exact hle
  · rw [hfree] at hpending
    cases hpending

theorem committed_seated (h : Committed signed s) (hfree : s.pending = none)
    (hderived : Derived cfg s move party timestamp next update msg) :
    Committed (signed ++ [update])
      { s with pending := some (proposal cfg move timestamp next update msg) } where
  ahead u hu := by
    rcases List.mem_append.mp hu with hu | hu
    · exact .inl (h.le_nonce hfree hu)
    · rw [List.mem_singleton.mp hu]
      exact .inr ⟨_, rfl, rfl, rfl⟩
  once := by
    apply h.once.concat
    intro v hv hnonce
    have hle := h.le_nonce hfree hv
    have hnext := hderived.nonce
    omega
  latestSigned latest hlatest := by
    obtain ⟨u, hu, hnonce, hhash⟩ := h.latestSigned latest hlatest
    exact ⟨u, List.mem_append_left _ hu, hnonce, hhash⟩

theorem committed_accepted {frame : MoveFrame Move} (hg : Grounded cfg signed s)
    (h : Committed signed s) (hclean : ¬Crosses s (.frame (.move frame)))
    (hnext : frame.nonce = s.nonce + 1) (hnonce : update.nonce = s.nonce + 1)
    (hhash : frame.stateHash = update.stateHash) :
    Committed (signed ++ [update]) (acceptance cfg s frame next update msg).seat where
  ahead u hu := by
    left
    simp only [acceptance]
    rcases List.mem_append.mp hu with hu | hu
    · rcases h.ahead u hu with hle | ⟨p, hpending, hsame, -⟩
      · omega
      · have hp := hg.pendingNonce p hpending
        omega
    · rw [List.mem_singleton.mp hu]
  once := by
    apply h.once.concat
    intro v hv hsame
    rcases h.ahead v hv with hle | ⟨p, hpending, -, hvhash⟩
    · omega
    · by_contra hne
      refine hclean ⟨frame, p, rfl, hpending, hnext, ?_⟩
      rw [hhash, ← hvhash]
      exact Ne.symm hne
  latestSigned latest hlatest := by
    cases hlatest
    exact ⟨update, by simp, rfl, by rw [coSign_update]⟩

theorem committed_acked {frame : AckFrame} (hg : Grounded cfg signed s) (h : Committed signed s)
    (hpending : s.pending = some p) : Committed signed (confirmation cfg p frame).seat where
  ahead u hu := by
    have hp := hg.pendingNonce p hpending
    left
    simp only [confirmation]
    rcases h.ahead u hu with hle | ⟨p', hpending', hsame, -⟩
    · omega
    · rw [hpending, Option.some.injEq] at hpending'
      subst hpending'
      omega
  once := h.once
  latestSigned latest hlatest := by
    cases hlatest
    exact ⟨p.update, hg.pendingSigned p hpending, rfl, by rw [coSign_update]⟩

theorem committed_adopted {signed : List StateUpdate} {state : State}
    {coSigned : CoSignedUpdate} (h : Committed signed s)
    (hnotOlder : s.nonce ≤ coSigned.update.nonce) (hsigned : coSigned.update ∈ signed) :
    Committed signed (adoption s state coSigned).seat where
  ahead u hu := by
    simp only [adoption]
    rcases h.ahead u hu with hle | ⟨p, hpending, hsame, hhash⟩
    · exact .inl (by omega)
    · by_cases hahead : coSigned.update.nonce < p.update.nonce
      · exact .inr ⟨p, dropOvertaken_some.mpr ⟨hpending, hahead⟩, hsame, hhash⟩
      · exact .inl (by omega)
  once := h.once
  latestSigned latest hlatest := by
    cases hlatest
    exact ⟨coSigned.update, hsigned, rfl, rfl⟩

/-- One call keeps a seat committed, if it does not cross a proposal and adopts only a
checkpoint the seat has signed. -/
theorem committed_effect (hg : Grounded cfg signed s) (h : Committed signed s)
    (hclean : ¬Crosses s input)
    (hsource : ∀ state coSigned msg, input = .adoptCheckpoint state coSigned →
      Adoptable cfg s state coSigned msg → coSigned.update ∈ signed)
    (heffect : Effect cfg s input turn) :
    Committed (signed ++ turn.updates) turn.seat := by
  have hsilent {extra : List StateUpdate} (hextra : extra = []) :
      Committed (signed ++ extra) s := by
    rw [hextra, List.append_nil]
    exact h
  cases heffect with
  | idle | resent | half | halfWithRoot => exact hsilent rfl
  | reacked _ latest _ hlatest hnonce =>
    obtain ⟨u, hu, hunonce, huhash⟩ := h.latestSigned latest hlatest
    refine ⟨?_, h.once.concat ?_, ?_⟩
    · intro v hv
      rcases List.mem_append.mp hv with hv | hv
      · exact h.ahead v hv
      · rw [List.mem_singleton.mp hv]
        exact .inl (le_of_eq hnonce)
    · intro v hv hsame
      rw [← huhash]
      exact h.once v hv u hu (by rw [hsame, hnonce, hunonce])
    · intro latest' hlatest'
      obtain ⟨w, hw, hrest⟩ := h.latestSigned latest' hlatest'
      exact ⟨w, List.mem_append_left _ hw, hrest⟩
  | seated _ _ _ _ _ hfree hderived | proposed _ _ _ _ _ hfree hderived =>
    exact committed_seated h hfree hderived
  | accepted _ _ _ _ _ hnonce hderived hmatches =>
    exact committed_accepted hg h hclean hnonce hderived.nonce hmatches.stateHash
  | acked frame p hpending =>
    rw [show (confirmation cfg p frame).updates = [] from rfl, List.append_nil]
    exact committed_acked hg h hpending
  | adopted state coSigned msg hadoptable =>
    rw [show (adoption s state coSigned).updates = [] from rfl, List.append_nil]
    exact committed_adopted h hadoptable.notOlder
      (hsource state coSigned msg rfl hadoptable)

theorem seat_committed (hfresh : Fresh start) (hrun : (seatSystem cfg start).Run history s)
    (hclean : ∀ entry ∈ history, ¬Crosses entry.before entry.input)
    (hplay : ∀ entry ∈ history, ∀ state coSigned,
      entry.input ≠ .adoptCheckpoint state coSigned) :
    Committed (signedUpdates history) s := by
  induction hrun with
  | start hstart =>
    obtain ⟨rfl, rfl⟩ := hstart
    exact committed_fresh hfresh
  | @step history _ _ entry hbefore hstep ih =>
    obtain ⟨hact, hentry, rfl⟩ := hstep
    have hlast : entry ∈ history ++ [entry] := by simp
    have hearlier := ih (fun e he => hclean e (List.mem_append_left _ he))
      (fun e he => hplay e (List.mem_append_left _ he))
    have hnow := hclean entry hlast
    rw [hentry] at hnow
    rw [signedUpdates_append, signedUpdates_singleton]
    refine committed_effect (seat_grounded hfresh hbefore) hearlier hnow ?_ (act_effect hact)
    intro state coSigned msg hinput
    exact absurd hinput (hplay entry hlast state coSigned)

end DopamintArena.Engine
