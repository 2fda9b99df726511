import DopamintArena.Move.PokerReferee
import DopamintArena.Move.Tunnel.Disputes
import DopamintArena.Move.Tunnel.Messages
import DopamintArena.Move.Tunnel.Payouts

/-!
What an honest party is guaranteed. From an active tunnel without a referee,
one party `H` holds the newest co-signed update `U` and follows a fixed
strategy; the counterparty and strangers may call anything in any order. Every
call of the strategy succeeds and a close pays `H` at least its share in `U`.

Signatures enter through one assumption, `HonestSigner`: a message that
verifies under `H`'s key is one `H` signed. The strategy's only liveness
assumption is that `H` answers a dispute of the counterparty before its
deadline.
-/

namespace DopamintArena.Move

open Foundation

variable {env : Natives} {t t' : Tunnel} {tx : Tx} {r : Receipt} {history : List Entry}
variable {transfers : List Transfer} {returned : Option UInt64}

/-- An update both parties signed and the contract's format admits: a 32-byte hash
and a nonce above the initial state's and below the reserved maximum. -/
structure CoSigned (env : Natives) (t : Tunnel) (U : UpdateArgs) (sigA sigB : Bytes) :
    Prop where
  hashLength : U.stateHash.length = 32
  positive : 0 < U.nonce.toNat
  belowMax : U.nonce.toNat + 1 < 2 ^ 64
  signedA : Verifies env t.partyA (U.message t.id) sigA
  signedB : Verifies env t.partyB (U.message t.id) sigB

/-- The signing behaviour of an honest party with configuration `party` on the tunnel
`id`. Only messages it signed verify under its key; `U` is the only update it signed
with a nonce at least `U`'s; it signed no settlement and no HTLC lock. -/
structure HonestSigner (env : Natives) (id : Address) (party : PartyConfig)
    (U : UpdateArgs) (signed : Bytes → Prop) : Prop where
  unforgeable : ∀ message sig, Verifies env party message sig → signed message
  newest : ∀ v : UpdateArgs, signed (v.message id) → U.nonce.toNat ≤ v.nonce.toNat → v = U
  noSettlement : ∀ a b finalNonce timestamp,
    ¬signed (serializeSettlement ⟨id, a, b, finalNonce, timestamp⟩)
  noSettlementWithRoot : ∀ a b finalNonce timestamp transcriptRoot,
    ¬signed (serializeSettlementWithRoot ⟨id, a, b, finalNonce, timestamp, transcriptRoot⟩)
  noLock : ∀ (l : LockArgs) (sender : Address), ¬signed (l.message id sender)

/-- A commitment that is `U` up to HTLC debits. -/
structure AtMost (U : UpdateArgs) (c : StateCommitment) : Prop where
  nonce : c.nonce = U.nonce
  stateHash : c.stateHash = U.stateHash
  shareA : c.partyABalance.toNat ≤ U.partyABalance.toNat
  shareB : c.partyBBalance.toNat ≤ U.partyBBalance.toNat

/-- A commitment that is `U`. -/
structure Holds (U : UpdateArgs) (c : StateCommitment) : Prop where
  nonce : c.nonce = U.nonce
  stateHash : c.stateHash = U.stateHash
  shareA : c.partyABalance = U.partyABalance
  shareB : c.partyBBalance = U.partyBBalance

theorem holds_commitment (U : UpdateArgs) (now : UInt64) : Holds U (U.commitment now) :=
  ⟨rfl, rfl, rfl, rfl⟩

theorem Holds.atMost {U : UpdateArgs} {c : StateCommitment} (h : Holds U c) : AtMost U c :=
  ⟨h.nonce, h.stateHash, by rw [h.shareA], by rw [h.shareB]⟩

/-- `AtMost` becomes `Holds` once the shares sum to `U`'s total. -/
theorem AtMost.holds {U : UpdateArgs} {c : StateCommitment} (h : AtMost U c)
    (hsum : U.partyABalance.toNat + U.partyBBalance.toNat =
      c.partyABalance.toNat + c.partyBBalance.toNat) : Holds U c := by
  have hA := h.shareA
  have hB := h.shareB
  exact ⟨h.nonce, h.stateHash, UInt64.toNat_inj.mp (by omega),
    UInt64.toNat_inj.mp (by omega)⟩

section Past

variable {side : Bool} {U : UpdateArgs} {signed : Bytes → Prop}

/-- An accepted update that `H` signed is `U` or older than `U`. -/
theorem signed_update {u : UpdateArgs} {sig : Bytes}
    (hsigner : HonestSigner env t.id (t.party side) U signed)
    (hverifies : Verifies env (t.party side) (u.message t.id) sig)
    (hle : U.nonce.toNat ≤ u.nonce.toNat) : u = U :=
  hsigner.newest u (hsigner.unforgeable _ _ hverifies) hle

theorem party_verifies {message sigA sigB : Bytes} (side : Bool)
    (hA : Verifies env t.partyA message sigA) (hB : Verifies env t.partyB message sigB) :
    ∃ sig, Verifies env (t.party side) message sig := by
  cases side with
  | true => exact ⟨sigA, hA⟩
  | false => exact ⟨sigB, hB⟩

theorem otherParty_eq {isPartyA : Bool} (hparty : partyOf t tx.sender = .ok isPartyA)
    (hsender : tx.sender ≠ (t.party side).address) :
    otherParty t isPartyA = t.party side := by
  rcases partyOf_ok_iff.mp hparty with ⟨rfl, hA⟩ | ⟨rfl, hA, hB⟩
  · cases side with
    | true => exact absurd hA hsender
    | false => rfl
  · cases side with
    | true => rfl
    | false => exact absurd hB hsender

/-- While active, the stored nonce passes `U`'s only by being `U`. While disputed it
may also be something `H` itself raised. -/
structure PastInvariant (side : Bool) (U : UpdateArgs) (t : Tunnel) : Prop where
  active : t.status = .active → U.nonce.toNat ≤ t.state.nonce.toNat → AtMost U t.state
  disputed : t.status = .disputed → U.nonce.toNat ≤ t.state.nonce.toNat →
    AtMost U t.state ∨ t.disputeRaiser = some (t.party side).address

theorem pastInvariant_idle (hstatus : t.status ≠ .active) (hstatus' : t.status ≠ .disputed) :
    PastInvariant side U t :=
  ⟨fun h => absurd h hstatus, fun h => absurd h hstatus'⟩

theorem pastInvariant_effect (hpositive : 0 < U.nonce.toNat)
    (hsigner : HonestSigner env t.id (t.party side) U signed) (hwf : WellFormed t)
    (hrec : Recorded history t) (hpast : PastInvariant side U t)
    (heffect : Effect env t tx t' transfers returned) : PastInvariant side U t' := by
  cases heffect with
  | fund isPartyA _ deposit balance _ hstatus =>
    have hzero := (hrec.waiting hstatus).2.2
    have hlow : ¬U.nonce.toNat ≤ (maybeActivate
        (fundedTunnel t isPartyA deposit balance tx.clock) tx.clock).1.state.nonce.toNat := by
      rw [maybeActivate_nonce]
      change ¬U.nonce.toNat ≤ t.state.nonce.toNat
      rw [hzero, UInt64.toNat_zero]
      omega
    exact ⟨fun _ h => absurd h hlow, fun _ h => absurd h hlow⟩
  | update _ _ _ _ hstatus _ hA hB | resolve _ _ _ _ hstatus _ hA hB =>
    obtain ⟨_, hverifies⟩ := party_verifies side hA hB
    refine ⟨?_, fun h => by simp [hstatus] at h⟩
    intro _ hle
    have hsame := signed_update hsigner hverifies hle
    subst hsame
    exact (holds_commitment _ _).atMost
  | raise _ _ _ _ _ _ _ _ hparty hsig =>
    refine ⟨fun h => by simp at h, ?_⟩
    intro _ hle
    by_cases hsender : tx.sender = (t.party side).address
    · exact .inr (congrArg some hsender)
    · rw [otherParty_eq hparty hsender] at hsig
      have hsame := signed_update hsigner hsig hle
      subst hsame
      exact .inl (holds_commitment _ _).atMost
  | raiseCurrent _ _ hstatus =>
    refine ⟨fun h => by simp at h, ?_⟩
    intro _ hle
    obtain ⟨hnonce, hhash, hA, hB⟩ := hpast.active hstatus hle
    exact .inl ⟨hnonce, hhash, hA, hB⟩
  | extend | claim | expire =>
    exact ⟨hpast.active, hpast.disputed⟩
  | lock _ _ isPartyA _ _ _ _ hstatus _ _ _ _ _ _ _ hrest =>
      refine ⟨?_, fun h => by simp [hstatus] at h⟩
      intro _ hle
      rw [withBalance_nonce] at hle
      obtain ⟨hnonce, hhash, hA, hB⟩ := hpast.active hstatus hle
      cases isPartyA <;>
        simp only [StateCommitment.balanceOf, Bool.false_eq_true, if_false, if_true] at hrest
      · exact ⟨hnonce, hhash, hA, by simp only [StateCommitment.withBalance,
          Bool.false_eq_true, if_false]; omega⟩
      · exact ⟨hnonce, hhash, by simp only [StateCommitment.withBalance, if_true]; omega, hB⟩
  | close =>
    exact pastInvariant_idle (by simp [closedTunnel]) (by simp [closedTunnel])
  | assignReferee _ _ hstatus =>
    exact pastInvariant_idle (by simp [hstatus]) (by simp [hstatus])
  | withdraw _ _ _ hstatus =>
    refine pastInvariant_idle ?_ ?_ <;> simp only [withdrawnTunnel, hstatus] <;> split <;>
      simp
  | destroy => exact pastInvariant_idle (by simp) (by simp)
  | migrate _ hversion =>
    exact absurd hversion hwf.current

theorem run_pastInvariant {id : Address} {party : PartyConfig}
    (hpositive : 0 < U.nonce.toNat) (hsigner : HonestSigner env id party U signed)
    (hrun : (tunnelSystem env).Run history t) (hid : t.id = id)
    (hparty : t.party side = party) : PastInvariant side U t := by
  refine hrun.invariant
    (I := fun _ t => t.id = id → t.party side = party → PastInvariant side U t) ?_ ?_ hid hparty
  · rintro h s ⟨g, r, hg, -, rfl⟩ - -
    rcases genesis_cases hg with ⟨id, p, now, -, -, htunnel, -⟩ |
      ⟨id, _, _, _, _, _, -, -, -, -, -, htunnel, -⟩
    · rw [htunnel]
      exact pastInvariant_idle (by simp [freshTunnel]) (by simp [freshTunnel])
    · have hlow : ¬U.nonce.toNat ≤ r.tunnel.state.nonce.toNat := by
        rw [htunnel]
        simp only [fundedAtCreation, UInt64.toNat_zero]
        omega
      exact ⟨fun _ h => absurd h hlow, fun _ h => absurd h hlow⟩
  · rintro h s label s' hbefore hpast ⟨tx, r, hexec, -, rfl⟩ hid hparty
    have heffect := exec_effect hexec
    have hsame := effect_identity heffect
    have hid' : s.id = id := hsame.id.symm.trans hid
    have hparty' : s.party side = party := by
      rw [← hparty, Tunnel.party, Tunnel.party, hsame.partyA, hsame.partyB]
    have hsigner' : HonestSigner env s.id (s.party side) U signed := by
      rw [hid', hparty']
      exact hsigner
    exact pastInvariant_effect hpositive hsigner' (reachable_wellFormed hbefore)
      (run_recorded hbefore) (hpast hid' hparty') heffect

end Past

/-- Whether a function can be called from outside the package. -/
def Call.isPublic : Call → Bool
  | .setReferee _ | .resolveDisputeVerified _ _ => false
  | _ => true

/-- The calls of the honest strategy: raise with `U`, or with the recorded state once
that is `U`; answer a dispute of the counterparty with `U` while the recorded nonce is
lower and agree otherwise; force the close of its own dispute after the timeout. -/
inductive HonestCall (side : Bool) (U : UpdateArgs) (sigA sigB : Bytes) (t : Tunnel)
    (clock : UInt64) : Call → Prop
  | raise (hstatus : t.status = .active)
      (hnewer : t.state.nonce.toNat < U.nonce.toNat) :
      HonestCall side U sigA sigB t clock (.raiseDispute U (if side then sigB else sigA))
  | raiseCurrent (hstatus : t.status = .active) (hsame : t.state.nonce = U.nonce) :
      HonestCall side U sigA sigB t clock .raiseDisputeCurrentState
  | resolve (hstatus : t.status = .disputed)
      (hraiser : t.disputeRaiser ≠ some (t.party side).address)
      (hnewer : t.state.nonce.toNat < U.nonce.toNat) :
      HonestCall side U sigA sigB t clock (.resolveDispute U sigA sigB)
  | agree (hstatus : t.status = .disputed)
      (hraiser : t.disputeRaiser ≠ some (t.party side).address)
      (hnotNewer : ¬t.state.nonce.toNat < U.nonce.toNat) :
      HonestCall side U sigA sigB t clock .agreeToDispute
  | forceClose (hstatus : t.status = .disputed)
      (hraiser : t.disputeRaiser = some (t.party side).address)
      (htime : t.state.timestamp.toNat + t.timeoutMs.toNat ≤ clock.toNat) :
      HonestCall side U sigA sigB t clock .forceCloseAfterTimeout

/-- No transaction at `clock` finds a dispute of the counterparty past its deadline:
the honest party has answered it by then. -/
def Answered (side : Bool) (t : Tunnel) (clock : UInt64) : Prop :=
  t.status = .disputed → t.disputeRaiser ≠ some (t.party side).address →
    clock.toNat < t.state.timestamp.toNat + t.timeoutMs.toNat

/-- A tunnel, the latest chain time and the poker sessions on chain. -/
structure Position where
  tunnel : Tunnel
  now : UInt64
  sessions : List PokerSession

/-- One step of the game. The honest party only makes calls of its strategy. Anyone
else calls any public function of the tunnel, creates or confirms poker sessions on it
and closes it through the proof referee. The label is the tunnel call with its receipt,
`none` for a call that only concerns a session. -/
inductive HonestStep (env : Natives) (groth16 : Groth16) (side : Bool) (U : UpdateArgs)
    (sigA sigB : Bytes) (p : Position) : Option Entry → Position → Prop
  | adversary (tx : Tx) (r : Receipt) (hsender : tx.sender ≠ (p.tunnel.party side).address)
      (hpublic : tx.call.isPublic = true) (hexec : exec env p.tunnel tx = .ok r)
      (hclock : p.now ≤ tx.clock) (hanswered : Answered side p.tunnel tx.clock) :
      HonestStep env groth16 side U sigA sigB p (some (.called tx r))
        { p with tunnel := r.tunnel, now := tx.clock }
  | honest (tx : Tx) (r : Receipt) (hsender : tx.sender = (p.tunnel.party side).address)
      (hcall : HonestCall side U sigA sigB p.tunnel tx.clock tx.call)
      (hexec : exec env p.tunnel tx = .ok r) (hclock : p.now ≤ tx.clock) :
      HonestStep env groth16 side U sigA sigB p (some (.called tx r))
        { p with tunnel := r.tunnel, now := tx.clock }
  | createSession (rulesHash circuitId inputSchemaHash : Bytes) (sender : Address)
      (session : PokerSession) (hsender : sender ≠ (p.tunnel.party side).address)
      (hcreate : createSession p.tunnel rulesHash circuitId inputSchemaHash sender =
        .ok session) :
      HonestStep env groth16 side U sigA sigB p none
        { p with sessions := session :: p.sessions }
  | confirmSession (rulesHash circuitId inputSchemaHash : Bytes) (sender : Address)
      (index : Nat) (session session' : PokerSession)
      (hsender : sender ≠ (p.tunnel.party side).address)
      (hsession : p.sessions[index]? = some session)
      (hconfirm : confirmSessionParams session p.tunnel rulesHash circuitId
        inputSchemaHash sender = .ok session') :
      HonestStep env groth16 side U sigA sigB p none
        { p with sessions := p.sessions.set index session' }
  | resolveWithProof (sender : Address) (clock : UInt64) (session : PokerSession)
      (registry : CircuitRegistry) (args : ProofArgs) (r : Receipt)
      (hsession : session ∈ p.sessions)
      (hresolve : resolveWithProof env groth16 session registry p.tunnel args clock = .ok r)
      (hclock : p.now ≤ clock) :
      HonestStep env groth16 side U sigA sigB p
        (some (.called ⟨sender, clock,
          .resolveDisputeVerified args.partyABalance args.partyBBalance⟩ r))
        { p with tunnel := r.tunnel, now := clock }

/-- The game from `start`. Time does not run backwards and the counterparty's disputes
are answered in time. -/
def honestSystem (env : Natives) (groth16 : Groth16) (side : Bool) (U : UpdateArgs)
    (sigA sigB : Bytes) (start : Position) : System Position (Option Entry) where
  init history p := history = [] ∧ p = start
  step := HonestStep env groth16 side U sigA sigB

/-- The honest party takes part in no poker session of the tunnel, so no proof referee
is agreed on. -/
def NoProofReferee (side : Bool) (t : Tunnel) (sessions : List PokerSession) : Prop :=
  ∀ session ∈ sessions, session.tunnelId = t.id →
    session.createdBy = (t.party (!side)).address ∧ session.paramsAgreed = false

def paidTo (address : Address) (transfers : List Transfer) : Nat :=
  ((transfers.filter fun transfer => transfer.recipient = address).map
    fun transfer => transfer.amount.toNat).sum

theorem paidTo_shares (hwf : WellFormed t) (side : Bool) (a b : UInt64) :
    paidTo (t.party side).address (shares t a b) = (if side then a else b).toNat := by
  have hdistinct := hwf.parties
  cases side with
  | true => simp [paidTo, shares, Tunnel.party, Ne.symm hdistinct]
  | false => simp [paidTo, shares, Tunnel.party, hdistinct]

section Game

variable {side : Bool} {U : UpdateArgs} {signed : Bytes → Prop} {sigA sigB : Bytes}

/-- What is true of an open tunnel throughout the game. -/
structure Guarded (side : Bool) (U : UpdateArgs) (t : Tunnel) : Prop where
  balanced : U.partyABalance.toNat + U.partyBBalance.toNat = t.balance.toNat
  standing : Holds U t.state ∨ t.state.nonce.toNat < U.nonce.toNat ∧
    (t.status = .disputed → t.disputeRaiser ≠ some (t.party side).address)

/-- Some entry of the game closed the tunnel and paid the honest party its share. -/
def Paid (address : Address) (share : Nat) (future : List (Option Entry)) : Prop :=
  ∃ tx r, some (Entry.called tx r) ∈ future ∧ tx.call.closes = true ∧
    share ≤ paidTo address r.transfers

/-- What one adversarial transaction does to a guarded tunnel: it leaves it open and
guarded, or closes it paying the honest party its share. -/
theorem guarded_adversary (hwf : WellFormed t) (hreferee : t.referee = none)
    (hsigner : HonestSigner env t.id (t.party side) U signed)
    (hopen : t.status = .active ∨ t.status = .disputed) (hguard : Guarded side U t)
    (hanswered : Answered side t tx.clock)
    (hsender : tx.sender ≠ (t.party side).address) (hpublic : tx.call.isPublic = true)
    (heffect : Effect env t tx t' transfers returned) :
    t'.referee = none ∧
      ((t'.status = .active ∨ t'.status = .disputed) ∧ Guarded side U t' ∨
        t'.status = .closed ∧ tx.call.closes = true ∧
          (U.balanceOf side).toNat ≤ paidTo (t.party side).address transfers) := by
  have hclassify (now : UInt64) {u : UpdateArgs} {sig : Bytes}
      (hverifies : Verifies env (t.party side) (u.message t.id) sig) :
      Holds U (u.commitment now) ∨ u.nonce.toNat < U.nonce.toNat := by
    by_cases hle : U.nonce.toNat ≤ u.nonce.toNat
    · rw [signed_update hsigner hverifies hle]
      exact .inl (holds_commitment U now)
    · exact .inr (by omega)
  cases heffect with
  | fund _ _ _ _ _ hstatus | assignReferee _ _ hstatus | withdraw _ _ _ hstatus
  | destroy _ hstatus => simp [hstatus] at hopen
  | migrate _ hversion =>
    exact absurd hversion hwf.current
  | update _ _ _ _ hstatus _ hA hB | resolve _ _ _ _ hstatus _ hA hB =>
    obtain ⟨sig, hverifies⟩ := party_verifies side hA hB
    refine ⟨hreferee, .inl ⟨.inl (by simp [hstatus]), hguard.balanced, ?_⟩⟩
    rcases hclassify tx.clock hverifies with hholds | hlow
    · exact .inl hholds
    · exact .inr ⟨hlow, fun h => by simp [hstatus] at h⟩
  | raise _ _ _ _ _ _ _ _ hparty hsig =>
    rw [otherParty_eq hparty hsender] at hsig
    refine ⟨hreferee, .inl ⟨.inr rfl, hguard.balanced, ?_⟩⟩
    rcases hclassify tx.clock hsig with hholds | hlow
    · exact .inl hholds
    · exact .inr ⟨hlow, fun _ h => hsender (Option.some.inj h)⟩
  | raiseCurrent =>
    refine ⟨hreferee, .inl ⟨.inr rfl, hguard.balanced, ?_⟩⟩
    rcases hguard.standing with ⟨hnonce, hhash, hA, hB⟩ | ⟨hlow, -⟩
    · exact .inl ⟨hnonce, hhash, hA, hB⟩
    · exact .inr ⟨hlow, fun _ h => hsender (Option.some.inj h)⟩
  | extend | claim | expire =>
    exact ⟨hreferee, .inl ⟨hopen, hguard.balanced, hguard.standing⟩⟩
  | lock l _ _ _ _ _ _ _ _ _ _ hparty hsig =>
      -- the counterparty cannot lock: the honest party signed no lock
      rw [otherParty_eq hparty hsender] at hsig
      exact absurd (hsigner.unforgeable _ _ hsig) (hsigner.noLock l tx.sender)
  | close a b _ hreason =>
    have hcloses := closeReason_closes hreason
    refine ⟨hreferee, .inr ⟨rfl, hcloses, ?_⟩⟩
    rw [paidTo_shares hwf]
    cases hreason with
    | cooperative _ _ finalNonce timestamp _ _ _ hA hB =>
      obtain ⟨sig, hverifies⟩ := party_verifies side hA hB
      exact absurd (hsigner.unforgeable _ _ hverifies)
        (hsigner.noSettlement a b finalNonce timestamp)
    | cooperativeWithRoot _ _ finalNonce timestamp root _ _ _ _ hA hB =>
      obtain ⟨_, hverifies⟩ := party_verifies side hA hB
      exact absurd (hsigner.unforgeable _ _ hverifies)
        (hsigner.noSettlementWithRoot a b finalNonce timestamp root)
    | forced _ hstatus hraiser =>
      -- only the raiser can force a close, and its dispute was answered in time
      have hother : t.disputeRaiser ≠ some (t.party side).address := by
        rw [hraiser]
        exact fun h => hsender (Option.some.inj h)
      have hearly := hanswered hstatus hother
      omega
    | agreed _ hstatus hraiser hparty hA hB =>
      -- the counterparty can only agree to a dispute the honest party raised
      obtain ⟨raiser, hsome, hmember⟩ := hwf.raiser hstatus
      have hmine : t.disputeRaiser = some (t.party side).address := by
        rw [hsome] at hraiser ⊢
        cases side <;> simp only [Tunnel.party, Bool.false_eq_true, if_false, if_true]
          at hsender ⊢ <;> rcases hmember with h | h <;> rcases hparty with h' | h' <;>
          simp_all
      rcases hguard.standing with hholds | ⟨-, hnot⟩
      · rw [hA, hB, hholds.shareA, hholds.shareB]
        exact le_rfl
      · exact absurd hmine (hnot hstatus)
    | external _ _ href =>
      rw [hreferee] at href
      cases href
    | verified hcall =>
      rw [hcall] at hpublic
      cases hpublic

/-- Every call of the strategy succeeds on a guarded tunnel. -/
theorem honestCall_succeeds {clock : UInt64} {call : Call} (hwf : WellFormed t)
    (hcosigned : CoSigned env t U sigA sigB)
    (hguard : t.status = .active ∨ t.status = .disputed → Guarded side U t)
    (hnotBefore : t.createdAt.toNat ≤ U.timestamp.toNat)
    (hnotFuture : U.timestamp.toNat ≤ clock.toNat)
    (hcall : HonestCall side U sigA sigB t clock call) :
    ∃ r, exec env t ⟨(t.party side).address, clock, call⟩ = .ok r := by
  have hmember : (t.party side).address = t.partyA.address ∨
      (t.party side).address = t.partyB.address := by
    cases side with
    | true => exact .inl rfl
    | false => exact .inr rfl
  have hacceptable (hopen : t.status = .active ∨ t.status = .disputed)
      (hnewer : t.state.nonce.toNat < U.nonce.toNat) : Acceptable t U clock :=
    ⟨hcosigned.hashLength, hnewer, hcosigned.belowMax, (hguard hopen).balanced, hnotFuture,
      hnotBefore⟩
  cases hcall with
  | raise hstatus hnewer =>
    have hmark := hwf.mark (.inr hstatus)
    have hfits : U.nonce.toNat + (1 : UInt64).toNat < 2 ^ 64 := hcosigned.belowMax
    have hverifies : Verifies env (otherParty t side) (U.message t.id)
        (if side then sigB else sigA) := by
      cases side with
      | true => exact hcosigned.signedB
      | false => exact hcosigned.signedA
    exact ⟨_, raiseDispute_ok_iff.mpr ⟨hwf.version, hstatus,
      hacceptable (.inl hstatus) hnewer, by omega, side, partyOf_self hwf side, hverifies,
      U.nonce + 1, toNat_add_of_fits hfits, rfl⟩⟩
  | raiseCurrent hstatus =>
    exact raiseDisputeCurrentState_succeeds clock hwf hstatus hmember
  | resolve hstatus _ hnewer =>
    exact ⟨_, resolveDispute_ok_iff.mpr ⟨hwf.version, hstatus,
      hacceptable (.inr hstatus) hnewer, hcosigned.signedA, hcosigned.signedB, rfl⟩⟩
  | agree hstatus hraiser =>
    exact agreeToDispute_succeeds clock hwf hstatus hmember hraiser.symm
  | forceClose hstatus hraiser htime =>
    exact forceCloseAfterTimeout_succeeds hwf hstatus hraiser htime

/-- A commitment that is not older than `U` is `U`. -/
theorem Guarded.holds (hguard : Guarded side U t)
    (hnotNewer : ¬t.state.nonce.toNat < U.nonce.toNat) : Holds U t.state := by
  rcases hguard.standing with hholds | ⟨hlow, -⟩
  · exact hholds
  · exact absurd hlow hnotNewer

theorem penalised_raiser {a b : UInt64} (hwf : WellFormed t)
    (hshares : Penalised t (t.party side).address a b) :
    (t.state.balanceOf side).toNat ≤ (if side then a else b).toNat := by
  cases side with
  | true =>
    simp only [Penalised, Tunnel.party, if_true] at hshares
    simp only [StateCommitment.balanceOf, if_true]
    omega
  | false =>
    have hdistinct : ¬t.partyB.address = t.partyA.address := Ne.symm hwf.parties
    simp only [Penalised, Tunnel.party, Bool.false_eq_true, if_false, hdistinct] at hshares
    simp only [StateCommitment.balanceOf, Bool.false_eq_true, if_false]
    omega

theorem Holds.balanceOf {c : StateCommitment} (h : Holds U c) (side : Bool) :
    c.balanceOf side = U.balanceOf side := by
  cases side with
  | true => exact h.shareA
  | false => exact h.shareB

/-- What one transaction of the strategy does to a guarded tunnel. -/
theorem guarded_honest (hwf : WellFormed t) (hreferee : t.referee = none)
    (hguard : t.status = .active ∨ t.status = .disputed → Guarded side U t)
    (hsender : tx.sender = (t.party side).address)
    (hcall : HonestCall side U sigA sigB t tx.clock tx.call)
    (hexec : exec env t tx = .ok r) :
    r.tunnel.referee = none ∧
      ((r.tunnel.status = .active ∨ r.tunnel.status = .disputed) ∧ Guarded side U r.tunnel ∨
        r.tunnel.status = .closed ∧ tx.call.closes = true ∧
          (U.balanceOf side).toNat ≤ paidTo (t.party side).address r.transfers) := by
  obtain ⟨_, _, _⟩ := tx
  subst hsender
  cases hcall with
  | raise hstatus =>
    obtain ⟨-, -, -, -, _, -, -, highWater, -, rfl⟩ := raiseDispute_ok_iff.mp hexec
    exact ⟨hreferee, .inl ⟨.inr rfl, (hguard (.inl hstatus)).balanced,
      .inl (holds_commitment _ _)⟩⟩
  | raiseCurrent hstatus hsame =>
    obtain ⟨-, -, -, -, -, _, -, rfl⟩ := raiseDisputeCurrentState_ok_iff.mp hexec
    have hholds := (hguard (.inl hstatus)).holds (by rw [hsame]; exact lt_irrefl _)
    obtain ⟨hnonce, hhash, hA, hB⟩ := hholds
    exact ⟨hreferee, .inl ⟨.inr rfl, (hguard (.inl hstatus)).balanced,
      .inl ⟨hnonce, hhash, hA, hB⟩⟩⟩
  | resolve hstatus =>
    obtain ⟨-, -, -, -, -, rfl⟩ := resolveDispute_ok_iff.mp hexec
    exact ⟨hreferee, .inl ⟨.inl rfl, (hguard (.inr hstatus)).balanced,
      .inl (holds_commitment _ _)⟩⟩
  | agree hstatus _ hnotNewer =>
    obtain ⟨-, -, -, -, -, -, rfl⟩ := agreeToDispute_ok_iff.mp hexec
    have hholds := (hguard (.inr hstatus)).holds hnotNewer
    refine ⟨hreferee, .inr ⟨rfl, rfl, ?_⟩⟩
    rw [paidTo_shares hwf, ← hholds.balanceOf]
    exact le_rfl
  | forceClose hstatus hraiser =>
    obtain ⟨-, -, -, -, -, _, _, hshares, -, rfl⟩ :=
      forceCloseAfterTimeout_ok_iff.mp hexec
    have hholds : Holds U t.state := by
      rcases (hguard (.inr hstatus)).standing with hholds | ⟨-, hnot⟩
      · exact hholds
      · exact absurd hraiser (hnot hstatus)
    refine ⟨hreferee, .inr ⟨rfl, rfl, ?_⟩⟩
    rw [paidTo_shares hwf, ← hholds.balanceOf]
    exact penalised_raiser hwf hshares

theorem effect_closed (hwf : WellFormed t)
    (hclosed : t.status = .closed ∨ t.status = .destroyed)
    (heffect : Effect env t tx t' transfers returned) :
    t'.status = .closed ∨ t'.status = .destroyed := by
  cases heffect with
  | fund _ _ _ _ _ hstatus | update _ _ _ _ hstatus | raise _ _ _ _ _ hstatus
  | resolve _ _ _ _ hstatus | raiseCurrent _ _ hstatus | lock _ _ _ _ _ _ _ hstatus
  | assignReferee _ _ hstatus | withdraw _ _ _ hstatus => simp [hstatus] at hclosed
  | extend | claim | expire => exact hclosed
  | close => exact .inl rfl
  | destroy => exact .inr rfl
  | migrate _ hversion =>
    exact absurd hversion hwf.current

theorem SameIdentity.party {t t' : Tunnel} (h : SameIdentity t t') (side : Bool) :
    t'.party side = t.party side := by
  rw [Tunnel.party, Tunnel.party, h.partyA, h.partyB]

theorem SameIdentity.trans {t t' t'' : Tunnel} (h : SameIdentity t t')
    (h' : SameIdentity t' t'') : SameIdentity t t'' :=
  ⟨h'.id.trans h.id, h'.partyA.trans h.partyA, h'.partyB.trans h.partyB,
    h'.createdAt.trans h.createdAt, h'.penaltyAmount.trans h.penaltyAmount⟩

/-- Without the honest party no session is ever agreed on: the counterparty creates
them and cannot confirm its own. -/
theorem NoProofReferee.confirm {sessions : List PokerSession} {index : Nat}
    {session session' : PokerSession} {sender : Address}
    {rulesHash circuitId inputSchemaHash : Bytes} (h : NoProofReferee side t sessions)
    (hsender : sender ≠ (t.party side).address)
    (hsession : sessions[index]? = some session)
    (hconfirm : confirmSessionParams session t rulesHash circuitId inputSchemaHash sender =
      .ok session') : False := by
  simp only [confirmSessionParams, returned] at hconfirm
  obtain ⟨htunnel, hparty, hcreator, -⟩ := hconfirm
  have hcreated := (h session (List.mem_of_getElem? hsession) htunnel).1
  rw [hcreated] at hcreator
  cases side <;> rcases hparty with hparty | hparty <;>
    simp_all [Tunnel.party]

/-- What holds at every point of the game: an open tunnel is guarded, a closed one has
paid the honest party. -/
structure GameInvariant (side : Bool) (U : UpdateArgs) (t₀ : Tunnel)
    (future : List (Option Entry)) (p : Position) : Prop where
  identity : SameIdentity t₀ p.tunnel
  wellFormed : WellFormed p.tunnel
  elapsed : U.timestamp.toNat ≤ p.now.toNat
  sessions : NoProofReferee side p.tunnel p.sessions
  outcome : (p.tunnel.status = .active ∨ p.tunnel.status = .disputed) ∧
      p.tunnel.referee = none ∧ Guarded side U p.tunnel ∨
    (p.tunnel.status = .closed ∨ p.tunnel.status = .destroyed) ∧
      Paid (t₀.party side).address (U.balanceOf side).toNat future

theorem Paid.append {address : Address} {share : Nat} {future : List (Option Entry)}
    (h : Paid address share future) (entry : Option Entry) :
    Paid address share (future ++ [entry]) := by
  obtain ⟨tx, r, hmem, hcloses, hshare⟩ := h
  exact ⟨tx, r, List.mem_append_left _ hmem, hcloses, hshare⟩

/-- A tunnel call keeps the invariant if, on an open tunnel, it guards or pays. -/
theorem gameInvariant_call {t₀ : Tunnel} {future : List (Option Entry)} {p : Position}
    (hinv : GameInvariant side U t₀ future p) (hexec : exec env p.tunnel tx = .ok r)
    (hclock : p.now ≤ tx.clock)
    (hstep : p.tunnel.status = .active ∨ p.tunnel.status = .disputed →
      p.tunnel.referee = none → Guarded side U p.tunnel →
      r.tunnel.referee = none ∧
        ((r.tunnel.status = .active ∨ r.tunnel.status = .disputed) ∧
            Guarded side U r.tunnel ∨
          r.tunnel.status = .closed ∧ tx.call.closes = true ∧
            (U.balanceOf side).toNat ≤
              paidTo (p.tunnel.party side).address r.transfers)) :
    GameInvariant side U t₀ (future ++ [some (.called tx r)])
      { p with tunnel := r.tunnel, now := tx.clock } := by
  have heffect := exec_effect hexec
  have hsame := effect_identity heffect
  have helapsed := hinv.elapsed
  rw [UInt64.le_iff_toNat_le] at hclock
  refine ⟨hinv.identity.trans hsame, wellFormed_effect hinv.wellFormed heffect,
    helapsed.trans hclock, ?_, ?_⟩
  · intro session hmem htunnel
    rw [hsame.party]
    exact hinv.sessions session hmem (htunnel.trans hsame.id)
  rcases hinv.outcome with ⟨hopen, hreferee, hguard⟩ | ⟨hclosed, hpaid⟩
  · obtain ⟨hreferee', hnext⟩ := hstep hopen hreferee hguard
    rcases hnext with ⟨hopen', hguard'⟩ | ⟨hclosed, hcloses, hshare⟩
    · exact .inl ⟨hopen', hreferee', hguard'⟩
    · rw [hinv.identity.party] at hshare
      exact .inr ⟨.inl hclosed, tx, r, by simp, hcloses, hshare⟩
  · exact .inr ⟨effect_closed hinv.wellFormed hclosed heffect, hpaid.append _⟩

variable {groth16 : Groth16} {t₀ : Tunnel} {now₀ : UInt64} {sessions : List PokerSession}
variable {past : List Entry} {future : List (Option Entry)} {p p' : Position}

theorem gameInvariant_step {entry : Option Entry}
    (hsigner : HonestSigner env t₀.id (t₀.party side) U signed)
    (hinv : GameInvariant side U t₀ future p)
    (hstep : HonestStep env groth16 side U sigA sigB p entry p') :
    GameInvariant side U t₀ (future ++ [entry]) p' := by
  cases hstep with
  | adversary _ _ hsender hpublic hexec hclock hanswered =>
    apply gameInvariant_call hinv hexec hclock
    intro hopen hreferee hguard
    have hsigner' : HonestSigner env p.tunnel.id (p.tunnel.party side) U signed := by
      rw [hinv.identity.id, hinv.identity.party]
      exact hsigner
    exact guarded_adversary hinv.wellFormed hreferee hsigner' hopen hguard hanswered
      hsender hpublic (exec_effect hexec)
  | honest _ _ hsender hcall hexec hclock =>
    apply gameInvariant_call hinv hexec hclock
    intro hopen hreferee hguard
    exact guarded_honest hinv.wellFormed hreferee (fun _ => hguard) hsender hcall hexec
  | createSession _ _ _ sender _ _ hcreate =>
    simp only [createSession, returned] at hcreate
    obtain ⟨-, -, -, hparty, rfl⟩ := hcreate
    have hother : sender = (p.tunnel.party (!side)).address := by
      cases side <;> rcases hparty with hparty | hparty <;> simp_all [Tunnel.party]
    refine ⟨hinv.identity, hinv.wellFormed, hinv.elapsed, ?_, ?_⟩
    · intro other hmem
      rcases List.mem_cons.mp hmem with rfl | hmem
      · exact fun _ => ⟨hother, rfl⟩
      · exact hinv.sessions other hmem
    · exact hinv.outcome.imp_right fun h => ⟨h.1, h.2.append none⟩
  | confirmSession _ _ _ _ _ _ _ hsender hsession hconfirm =>
      exact (hinv.sessions.confirm hsender hsession hconfirm).elim
  | resolveWithProof _ _ session _ _ _ hsession hresolve =>
    obtain ⟨htunnel, hagreed⟩ := resolveWithProof_ok hresolve
    have hnot := (hinv.sessions session hsession htunnel).2
    rw [hagreed] at hnot
    cases hnot

/-- The tunnel the game starts from is guarded: what the past left on chain is `U`, or
older than `U`. -/
theorem gameInvariant_start (hreach : (tunnelSystem env).Run past t₀)
    (hactive : t₀.status = .active) (hreferee : t₀.referee = none)
    (hsessions : NoProofReferee side t₀ sessions)
    (hcosigned : CoSigned env t₀ U sigA sigB)
    (hbalanced : U.partyABalance.toNat + U.partyBBalance.toNat = t₀.balance.toNat)
    (hnotFuture : U.timestamp.toNat ≤ now₀.toNat)
    (hsigner : HonestSigner env t₀.id (t₀.party side) U signed) :
    GameInvariant side U t₀ [] ⟨t₀, now₀, sessions⟩ := by
  have hwf := reachable_wellFormed hreach
  have hpast := run_pastInvariant hcosigned.positive hsigner hreach rfl rfl
  refine ⟨⟨rfl, rfl, rfl, rfl, rfl⟩, hwf, hnotFuture, hsessions,
    .inl ⟨.inl hactive, hreferee, hbalanced, ?_⟩⟩
  by_cases hle : U.nonce.toNat ≤ t₀.state.nonce.toNat
  · have hsum := hwf.allocated (.inl hactive)
    exact .inl ((hpast.active hactive hle).holds (hbalanced.trans hsum.symm))
  · exact .inr ⟨Nat.lt_of_not_le hle, fun h => by simp [hactive] at h⟩

/-- The honest-party guarantee. From any reachable active tunnel without a referee,
whatever the counterparty and strangers call, every call of the honest strategy
succeeds at any chain time the clock can have reached, and a tunnel that was closed
has paid the honest party at least its share in `U`. -/
theorem honest_party_protected (hreach : (tunnelSystem env).Run past t₀)
    (hactive : t₀.status = .active) (hreferee : t₀.referee = none)
    (hsessions : NoProofReferee side t₀ sessions)
    (hcosigned : CoSigned env t₀ U sigA sigB)
    (hbalanced : U.partyABalance.toNat + U.partyBBalance.toNat = t₀.balance.toNat)
    (hnotBefore : t₀.createdAt.toNat ≤ U.timestamp.toNat)
    (hnotFuture : U.timestamp.toNat ≤ now₀.toNat)
    (hsigner : HonestSigner env t₀.id (t₀.party side) U signed)
    (hrun : (honestSystem env groth16 side U sigA sigB ⟨t₀, now₀, sessions⟩).Run future p) :
    (∀ clock call, p.now ≤ clock → HonestCall side U sigA sigB p.tunnel clock call →
      ∃ r, exec env p.tunnel ⟨(t₀.party side).address, clock, call⟩ = .ok r) ∧
    (p.tunnel.status = .closed ∨ p.tunnel.status = .destroyed →
      Paid (t₀.party side).address (U.balanceOf side).toNat future) := by
  have hinv : GameInvariant side U t₀ future p := by
    apply hrun.invariant (I := GameInvariant side U t₀)
    · rintro _ _ ⟨rfl, rfl⟩
      exact gameInvariant_start hreach hactive hreferee hsessions hcosigned hbalanced
        hnotFuture hsigner
    · intro future p entry p' _ hinv hstep
      exact gameInvariant_step hsigner hinv hstep
  refine ⟨?_, ?_⟩
  · intro clock call hclock hcall
    rw [UInt64.le_iff_toNat_le] at hclock
    have hcosigned' : CoSigned env p.tunnel U sigA sigB := by
      obtain ⟨hhash, hpositive, hmax, hA, hB⟩ := hcosigned
      refine ⟨hhash, hpositive, hmax, ?_, ?_⟩
      · rw [hinv.identity.partyA, hinv.identity.id]
        exact hA
      · rw [hinv.identity.partyB, hinv.identity.id]
        exact hB
    have hguard : p.tunnel.status = .active ∨ p.tunnel.status = .disputed →
        Guarded side U p.tunnel := by
      intro hopen
      rcases hinv.outcome with ⟨-, -, hguard⟩ | ⟨hclosed, -⟩
      · exact hguard
      · rcases hopen with h | h <;> rw [h] at hclosed <;> simp at hclosed
    rw [← hinv.identity.party]
    exact honestCall_succeeds hinv.wellFormed hcosigned' hguard
      (by rw [hinv.identity.createdAt]; exact hnotBefore) (hinv.elapsed.trans hclock) hcall
  · intro hclosed
    rcases hinv.outcome with ⟨hopen, -⟩ | ⟨-, hpaid⟩
    · rcases hopen with h | h <;> rw [h] at hclosed <;> simp at hclosed
    · exact hpaid

end Game

/-- On a platform where only `U`'s message is signed, everybody is an honest signer. -/
theorem honestSigner_signedOnly (id : Address) (party : PartyConfig) (U : UpdateArgs)
    (htype : party.signatureType = sigTypeEd25519) :
    HonestSigner (signedOnly [U.message id]) id party U
      (fun message => message = U.message id) where
  unforgeable message sig hverifies := by
    simp only [Verifies, verify, htype, returned, if_true] at hverifies
    obtain ⟨-, -, -, hsigned⟩ := hverifies
    simpa [signedOnly] using hsigned
  newest v hsigned _ := by
    have hdata := serializeStateUpdate_inj hsigned
    obtain ⟨_, _, a, b, timestamp⟩ := v
    obtain ⟨_, _, _, _, _⟩ := U
    simp_all
  noSettlement a b finalNonce timestamp hsigned := by
    have hdomain := congrArg domainStart hsigned
    rw [domainStart_settlement, UpdateArgs.message, domainStart_stateUpdate] at hdomain
    exact absurd hdomain (by decide)
  noSettlementWithRoot a b finalNonce timestamp root hsigned := by
    have hdomain := congrArg domainStart hsigned
    rw [domainStart_settlementWithRoot, UpdateArgs.message, domainStart_stateUpdate] at hdomain
    exact absurd hdomain (by decide)
  noLock l sender hsigned := by
    have hdomain := congrArg domainStart hsigned
    rw [LockArgs.message, domainStart_htlcLock, UpdateArgs.message,
      domainStart_stateUpdate] at hdomain
    exact absurd hdomain (by decide)

namespace Sample

/-- The newest co-signed update of the game below. -/
def newest : UpdateArgs := update 3 90 60

def newestOnly : Natives := signedOnly [newest.message tunnelId]

def opened : Tunnel := fundedAtCreation tunnelId params 100 50 150 10

def neverProves : Groth16 := fun _ _ _ _ => none

/-- The tunnel after a transaction on `newestOnly`. -/
def after (t : Tunnel) (tx : Tx) : Tunnel :=
  match exec newestOnly t tx with
  | .ok r => r.tunnel
  | .error _ => t

theorem exec_after (t : Tunnel) (tx : Tx) (h : (exec newestOnly t tx).isOk = true) :
    ∃ r, exec newestOnly t tx = .ok r ∧ r.tunnel = after t tx := by
  obtain ⟨r, hexec⟩ := exists_ok_of_isOk h
  exact ⟨r, hexec, by rw [after, hexec]⟩

/-- Bob disputes with the stale opening state, Alice answers with the newest update
and raises it, Bob agrees. -/
def staleRaise : Tx := ⟨bob, 12, .raiseDisputeCurrentState⟩
def answer : Tx := ⟨alice, 13, .resolveDispute newest sig sig⟩
def raiseNewest : Tx := ⟨alice, 14, .raiseDisputeCurrentState⟩
def concede : Tx := ⟨bob, 15, .agreeToDispute⟩

theorem game_played : ∃ future p,
    (honestSystem newestOnly neverProves true newest sig sig ⟨opened, 11, []⟩).Run future p ∧
      p.tunnel.status = .closed := by
  obtain ⟨r₁, hexec₁, h₁⟩ := exec_after opened staleRaise (by decide +kernel)
  obtain ⟨r₂, hexec₂, h₂⟩ := exec_after r₁.tunnel answer (by rw [h₁]; decide +kernel)
  obtain ⟨r₃, hexec₃, h₃⟩ := exec_after r₂.tunnel raiseNewest
    (by rw [h₂, h₁]; decide +kernel)
  obtain ⟨r₄, hexec₄, h₄⟩ := exec_after r₃.tunnel concede
    (by rw [h₃, h₂, h₁]; decide +kernel)
  refine ⟨_, _, .step (.step (.step (.step (.start ⟨rfl, rfl⟩)
    (.adversary staleRaise r₁ (by decide) rfl hexec₁ (by decide) ?_))
    (.honest answer r₂ ?_ (.resolve ?_ ?_ ?_) hexec₂ ?_))
    (.honest raiseNewest r₃ ?_ (.raiseCurrent ?_ ?_) hexec₃ ?_))
    (.adversary concede r₄ ?_ rfl hexec₄ ?_ ?_), ?_⟩
  all_goals
    simp only [Answered, h₄, h₃, h₂, h₁]
    decide +kernel

theorem opened_reachable : ∃ past, (tunnelSystem newestOnly).Run past opened := by
  obtain ⟨r, hcreated⟩ := exists_ok_of_isOk
    (x := (Genesis.createAndFund tunnelId params 100 50 10).run) (by decide +kernel)
  obtain ⟨-, -, -, ⟨balance, hbalance, htunnel⟩, -⟩ := createAndFundWithId_ok hcreated
  have hsum : balance = 150 := UInt64.toNat_inj.mp (hbalance.trans (by decide))
  subst hsum
  exact ⟨_, .start ⟨_, r, hcreated, rfl, htunnel.symm⟩⟩

end Sample

theorem honest_party_protected_answered : ∃ future p,
    (honestSystem Sample.newestOnly Sample.neverProves true Sample.newest Sample.sig
      Sample.sig ⟨Sample.opened, 11, []⟩).Run future p ∧
    p.tunnel.status = .closed ∧ Paid Sample.alice 90 future := by
  obtain ⟨future, p, hplay, hclosed⟩ := Sample.game_played
  obtain ⟨_, hreach⟩ := Sample.opened_reachable
  have hsessions : NoProofReferee true Sample.opened [] := by simp [NoProofReferee]
  have hcosigned : CoSigned Sample.newestOnly Sample.opened Sample.newest Sample.sig
      Sample.sig :=
    ⟨by decide, by decide, by decide, by decide +kernel, by decide +kernel⟩
  have hsigner : HonestSigner Sample.newestOnly Sample.opened.id (Sample.opened.party true)
      Sample.newest (fun message => message = Sample.newest.message Sample.tunnelId) :=
    honestSigner_signedOnly _ _ _ rfl
  have hprotected := honest_party_protected hreach rfl rfl hsessions hcosigned (by decide)
    (by decide) (by decide) hsigner hplay
  exact ⟨future, p, hplay, hclosed, hprotected.2 (.inl hclosed)⟩

end DopamintArena.Move
