import DopamintArena.Move.Tunnel.Invariants

/-!
HTLCs over whole runs. The per-party counters are the number and the sum of
the outstanding HTLCs of that sender. A ghost book keeps one record per lock
and writes every release into the record it releases, so "released at most
once, and to the right address" is a statement about the book.
-/

namespace DopamintArena.Move

open Foundation

variable {env : Natives} {t t' : Tunnel} {tx : Tx} {r : Receipt} {history : List Entry}
variable {transfers : List Transfer} {returned : Option UInt64}
variable {counter : HTLCPartyCounter}

/-- Whether a call locks or releases an HTLC. -/
def Call.isHtlc : Call → Bool
  | .lockHtlc _ _ | .claimHtlcInTunnel _ _ | .expireHtlcInTunnel _ => true
  | _ => false

def Call.releases : Call → Option Bytes
  | .claimHtlcInTunnel hash _ | .expireHtlcInTunnel hash => some hash
  | _ => none

/-- `tx` released `htlc` properly: either its receiver showed a preimage strictly
before expiry and was paid, or its sender reclaimed it at or after expiry. -/
def ProperRelease (env : Natives) (htlc : TunnelHTLC) (tx : Tx)
    (transfers : List Transfer) : Prop :=
  (∃ hash preimage, tx.call = .claimHtlcInTunnel hash preimage ∧
    tx.sender = htlc.receiver ∧ (env.blake2b256 preimage).bytes = htlc.paymentHash ∧
    tx.clock.toNat < htlc.expiryMs.toNat ∧
    transfers = [⟨htlc.amount, htlc.receiver⟩]) ∨
  (∃ hash, tx.call = .expireHtlcInTunnel hash ∧ tx.sender = htlc.sender ∧
    htlc.expiryMs.toNat ≤ tx.clock.toNat ∧ transfers = [⟨htlc.amount, htlc.sender⟩])

/-- The invariant of an outstanding HTLC stored under `hash`. -/
structure Outstanding (t : Tunnel) (hash : Bytes) (htlc : TunnelHTLC) : Prop where
  key : htlc.paymentHash = hash
  funded : htlc.balance = htlc.amount
  positive : 0 < htlc.amount.toNat
  sender : htlc.sender = t.partyA.address ∨ htlc.sender = t.partyB.address

/-- What an effect does to the HTLC dynamic fields. -/
inductive HtlcEffect (env : Natives) (t : Tunnel) (tx : Tx) (transfers : List Transfer) :
    Store Bytes TunnelHTLC → Store Address HTLCPartyCounter → Prop
  | quiet (hcall : tx.call.isHtlc = false) : HtlcEffect env t tx transfers t.htlcs t.counters
  | lock (l : LockArgs) (sig : Bytes) (counter : HTLCPartyCounter)
      (hcall : tx.call = .lockHtlc l sig) (hstatus : t.status = .active)
      (hamount : 0 < l.amount.toNat)
      (hexpiry : tx.clock.toNat < l.expiryMs.toNat)
      (hparty : tx.sender = t.partyA.address ∨ tx.sender = t.partyB.address)
      (hfresh : l.paymentHash ∉ t.htlcs)
      (hcount : counter.count.toNat = (counterOf t tx.sender).count.toNat + 1)
      (htotal : counter.totalLocked.toNat =
        (counterOf t tx.sender).totalLocked.toNat + l.amount.toNat) :
      HtlcEffect env t tx transfers (t.htlcs.insert l.paymentHash (l.htlc tx.sender))
        (t.counters.insert tx.sender counter)
  | release (hash : Bytes) (htlc : TunnelHTLC) (counter : HTLCPartyCounter)
      (hcall : tx.call.releases = some hash) (hstatus : t.status ≠ .destroyed)
      (hentry : t.htlcs.lookup hash = some htlc)
      (hcounter : Uncounts t htlc counter)
      (hproper : htlc.balance = htlc.amount → ProperRelease env htlc tx transfers) :
      HtlcEffect env t tx transfers (t.htlcs.erase hash)
        (t.counters.insert htlc.sender counter)

theorem coin_notHtlc {c : Call} {coin : UInt64} (h : c.coin = some coin) :
    c.isHtlc = false := by
  cases c <;> simp_all [Call.coin, Call.isHtlc]

theorem closes_notHtlc {c : Call} (h : c.closes = true) : c.isHtlc = false := by
  cases c <;> simp_all [Call.closes, Call.isHtlc]

theorem effect_htlcs (heffect : Effect env t tx t' transfers returned) :
    HtlcEffect env t tx transfers t'.htlcs t'.counters := by
  cases heffect with
  | fund isPartyA _ deposit balance hcall =>
    obtain ⟨_, _, _, hactivated⟩ := maybeActivate_eq
      (fundedTunnel t isPartyA deposit balance tx.clock) tx.clock
    rw [hactivated]
    exact .quiet (coin_notHtlc hcall)
  | lock l sig _ _ _ counter hcall hstatus hamount _ hexpiry hparty _ hfresh _ _ hcount htotal =>
      exact .lock l sig counter hcall hstatus hamount hexpiry (partyOf_party hparty) hfresh
        hcount htotal
  | claim hash preimage htlc counter hcall hstatus hentry hsender hpreimage hexpiry
      hcounter =>
      apply HtlcEffect.release hash htlc counter (by rw [hcall]; rfl) hstatus hentry hcounter
      intro hfunded
      rw [hfunded]
      exact .inl ⟨hash, preimage, hcall, hsender, hpreimage, hexpiry, rfl⟩
  | expire hash htlc counter hcall hstatus hentry hexpiry hsender hcounter =>
    apply HtlcEffect.release hash htlc counter (by rw [hcall]; rfl) hstatus hentry hcounter
    intro hfunded
    rw [hfunded]
    exact .inr ⟨hash, hcall, hsender, hexpiry, rfl⟩
  | close _ _ _ hreason => exact .quiet (closes_notHtlc (closeReason_closes hreason))
  | assignReferee _ hcall =>
    apply HtlcEffect.quiet
    rcases hcall with ⟨_, _, hcall⟩ | hcall <;> rw [hcall] <;> rfl
  | withdraw _ _ hcall =>
    apply HtlcEffect.quiet
    rcases hcall with hcall | hcall <;> rw [hcall] <;> rfl
  | update _ _ _ hcall | raise _ _ _ _ hcall | resolve _ _ _ hcall | raiseCurrent _ hcall
  | extend _ _ hcall | destroy hcall | migrate hcall => exact .quiet (by rw [hcall]; rfl)

/-- The sum of `weight` over the outstanding HTLCs sent by `party`. -/
def outstandingBy (weight : TunnelHTLC → Nat) (t : Tunnel) (party : Address) : Nat :=
  Store.total (fun _ htlc => if htlc.sender = party then weight htlc else 0) t.htlcs

def outstandingCount (t : Tunnel) (party : Address) : Nat :=
  outstandingBy (fun _ => 1) t party

def outstandingSum (t : Tunnel) (party : Address) : Nat :=
  outstandingBy (fun htlc => htlc.amount.toNat) t party

section Sums

variable (weight : TunnelHTLC → Nat) {hash : Bytes} {htlc : TunnelHTLC}

theorem outstandingBy_insert (hfresh : hash ∉ t.htlcs)
    (hhtlcs : t'.htlcs = t.htlcs.insert hash htlc) (party : Address) :
    outstandingBy weight t' party =
      (if htlc.sender = party then weight htlc else 0) + outstandingBy weight t party := by
  rw [outstandingBy, hhtlcs, Store.total_insert _ _ hfresh, outstandingBy]

theorem outstandingBy_erase (hentry : t.htlcs.lookup hash = some htlc)
    (hhtlcs : t'.htlcs = t.htlcs.erase hash) (party : Address) :
    outstandingBy weight t party =
      (if htlc.sender = party then weight htlc else 0) + outstandingBy weight t' party := by
  rw [outstandingBy, Store.total_erase _ hentry, outstandingBy, hhtlcs]

theorem weight_le_outstandingBy (hentry : t.htlcs.lookup hash = some htlc) :
    weight htlc ≤ outstandingBy weight t htlc.sender := by
  have hshare := Store.le_total
    (fun _ other => if other.sender = htlc.sender then weight other else 0) hentry
  simpa [outstandingBy] using hshare

end Sums

/-- What the counters of the senders keep is a sum over their outstanding HTLCs. -/
def Tallied (value : HTLCPartyCounter → UInt64) (weight : TunnelHTLC → Nat) (t : Tunnel) : Prop :=
  ∀ party, (value (counterOf t party)).toNat = outstandingBy weight t party

/-- The stored counters and the stored HTLCs agree, and every HTLC is funded. -/
structure HtlcInvariant (t : Tunnel) : Prop where
  counted : Tallied HTLCPartyCounter.count (fun _ => 1) t
  totalled : Tallied HTLCPartyCounter.totalLocked (fun htlc => htlc.amount.toNat) t
  entries : ∀ hash htlc, t.htlcs.lookup hash = some htlc → Outstanding t hash htlc
  destroyed : t.status = .destroyed → ∀ hash, t.htlcs.lookup hash = none

theorem counterOf_insert {sender : Address}
    (hcounters : t'.counters = t.counters.insert sender counter) (party : Address) :
    counterOf t' party = if sender = party then counter else counterOf t party := by
  unfold counterOf
  rw [hcounters]
  split
  · rename_i heq
    rw [heq, AList.lookup_insert, Option.getD_some]
  · rename_i hne
    rw [AList.lookup_insert_ne (Ne.symm hne)]

section Tallies

variable {value : HTLCPartyCounter → UInt64} {weight : TunnelHTLC → Nat} {hash : Bytes}
  {htlc : TunnelHTLC}

theorem Tallied.insert (h : Tallied value weight t) (hfresh : hash ∉ t.htlcs)
    (hhtlcs : t'.htlcs = t.htlcs.insert hash htlc)
    (hcounters : t'.counters = t.counters.insert htlc.sender counter)
    (hvalue : (value counter).toNat = (value (counterOf t htlc.sender)).toNat + weight htlc) :
    Tallied value weight t' := by
  intro party
  have hbefore := h party
  rw [counterOf_insert hcounters, outstandingBy_insert _ hfresh hhtlcs]
  by_cases hsender : htlc.sender = party
  · rw [← hsender] at hbefore ⊢
    simp only [if_true]
    omega
  · simpa [hsender] using hbefore

theorem Tallied.erase (h : Tallied value weight t) (hentry : t.htlcs.lookup hash = some htlc)
    (hhtlcs : t'.htlcs = t.htlcs.erase hash)
    (hcounters : t'.counters = t.counters.insert htlc.sender counter)
    (hvalue : (value counter).toNat + weight htlc = (value (counterOf t htlc.sender)).toNat) :
    Tallied value weight t' := by
  intro party
  have hbefore := h party
  rw [outstandingBy_erase _ hentry hhtlcs] at hbefore
  rw [counterOf_insert hcounters]
  by_cases hsender : htlc.sender = party
  · rw [← hsender] at hbefore ⊢
    simp only [if_true] at hbefore ⊢
    omega
  · simpa [hsender] using hbefore

end Tallies

theorem Outstanding.of_same {hash : Bytes} {htlc : TunnelHTLC} (h : Outstanding t hash htlc)
    (hsame : SameIdentity t t') : Outstanding t' hash htlc :=
  ⟨h.key, h.funded, h.positive, by rw [hsame.partyA, hsame.partyB]; exact h.sender⟩

theorem partyHtlcLockedInternal_eq (t : Tunnel) (party : Address) :
    partyHtlcLockedInternal t party = (counterOf t party).totalLocked := by
  unfold partyHtlcLockedInternal counterOf
  split <;> rename_i hlookup <;> rw [hlookup] <;> rfl

theorem effect_destroyed (hwf : WellFormed t)
    (heffect : Effect env t tx t' transfers returned) (hstatus : t'.status = .destroyed) :
    t'.htlcs = t.htlcs ∧ (counterOf t t.partyA.address).totalLocked = 0 ∧
      (counterOf t t.partyB.address).totalLocked = 0 := by
  cases heffect with
  | destroy _ _ hA hB =>
    rw [partyHtlcLockedInternal_eq] at hA hB
    exact ⟨rfl, hA, hB⟩
  | fund _ _ _ _ _ hcreated =>
    unfold maybeActivate at hstatus
    split at hstatus <;> simp [fundedTunnel, hcreated] at hstatus
  | migrate _ hversion =>
    exact absurd hversion hwf.current
  | withdraw _ _ _ hcreated =>
    simp only [withdrawnTunnel, hcreated] at hstatus
    split at hstatus <;> cases hstatus
  | claim _ _ _ _ _ hopen | expire _ _ _ _ hopen => exact absurd hstatus hopen
  | _ => simp_all [closedTunnel]

theorem no_htlc_of_unlocked (hinv : HtlcInvariant t)
    (hA : (counterOf t t.partyA.address).totalLocked = 0)
    (hB : (counterOf t t.partyB.address).totalLocked = 0) (hash : Bytes) :
    t.htlcs.lookup hash = none := by
  cases hentry : t.htlcs.lookup hash with
  | none => rfl
  | some htlc =>
    have hout := hinv.entries hash htlc hentry
    have hshare := weight_le_outstandingBy (fun htlc => htlc.amount.toNat) hentry
    have htotal := hinv.totalled htlc.sender
    have hpositive := hout.positive
    have hzero : (counterOf t htlc.sender).totalLocked = 0 := by
      rcases hout.sender with h | h <;> rw [h] <;> assumption
    rw [hzero, UInt64.toNat_zero] at htotal
    omega

theorem htlcInvariant_effect (hwf : WellFormed t) (hinv : HtlcInvariant t)
    (heffect : Effect env t tx t' transfers returned) : HtlcInvariant t' := by
  have hsame := effect_identity heffect
  -- a destroyed tunnel can only come from `destroy_tunnel`, which checked the counters
  have hdestroyed : t'.status = .destroyed → ∀ hash, t'.htlcs.lookup hash = none := by
    intro hstatus hash
    obtain ⟨hhtlcs, hA, hB⟩ := effect_destroyed hwf heffect hstatus
    rw [hhtlcs]
    exact no_htlc_of_unlocked hinv hA hB hash
  have hhtlc := effect_htlcs heffect
  generalize hhtlcs : t'.htlcs = htlcs at hhtlc
  generalize hcounters : t'.counters = counters at hhtlc
  cases hhtlc with
  | quiet =>
    have htallied {value weight} (h : Tallied value weight t) : Tallied value weight t' := by
      intro party
      rw [counterOf, hcounters, outstandingBy, hhtlcs]
      exact h party
    refine ⟨htallied hinv.counted, htallied hinv.totalled, ?_, hdestroyed⟩
    intro hash htlc hentry
    rw [hhtlcs] at hentry
    exact (hinv.entries hash htlc hentry).of_same hsame
  | lock l _ _ _ _ hamount _ hparty hfresh hcount htotal =>
    refine ⟨hinv.counted.insert hfresh hhtlcs hcounters hcount,
      hinv.totalled.insert hfresh hhtlcs hcounters htotal, ?_, hdestroyed⟩
    intro hash htlc hentry
    rw [hhtlcs] at hentry
    by_cases hhash : hash = l.paymentHash
    · rw [hhash, AList.lookup_insert, Option.some.injEq] at hentry
      rw [← hentry]
      exact ⟨hhash.symm, rfl, hamount, by rw [hsame.partyA, hsame.partyB]; exact hparty⟩
    · rw [AList.lookup_insert_ne hhash] at hentry
      exact (hinv.entries hash htlc hentry).of_same hsame
  | release hash _ _ _ _ hentry hcounter =>
    refine ⟨hinv.counted.erase hentry hhtlcs hcounters hcounter.1,
      hinv.totalled.erase hentry hhtlcs hcounters hcounter.2, ?_, hdestroyed⟩
    intro hash' htlc' hentry'
    rw [hhtlcs] at hentry'
    by_cases hhash : hash' = hash
    · rw [hhash, AList.lookup_erase] at hentry'
      cases hentry'
    · rw [AList.lookup_erase_ne hhash] at hentry'
      exact (hinv.entries hash' htlc' hentry').of_same hsame

theorem htlcInvariant_empty (hhtlcs : t.htlcs = ∅) (hcounters : t.counters = ∅) :
    HtlcInvariant t := by
  have htallied {value weight} (hzero : value ⟨0, 0⟩ = 0) : Tallied value weight t := by
    intro party
    rw [counterOf, hcounters, AList.lookup_empty, Option.getD_none, hzero, outstandingBy, hhtlcs,
      Store.total_empty]
    rfl
  refine ⟨htallied rfl, htallied rfl, ?_, ?_⟩
  · intro hash htlc hentry
    rw [hhtlcs, AList.lookup_empty] at hentry
    cases hentry
  · intro _ hash
    rw [hhtlcs, AList.lookup_empty]

theorem run_htlcInvariant (hrun : (tunnelSystem env).Run history t) :
    HtlcInvariant t := by
  apply hrun.invariant (I := fun _ t => HtlcInvariant t)
  · rintro h s ⟨g, r, hg, -, rfl⟩
    rcases genesis_cases hg with ⟨id, p, now, -, -, htunnel, -⟩ |
      ⟨_, _, _, _, _, _, -, -, -, -, -, htunnel, -⟩
    · rw [htunnel]
      exact htlcInvariant_empty rfl rfl
    · rw [htunnel]
      exact htlcInvariant_empty rfl rfl
  · rintro h s label s' hbefore hinv ⟨tx, r, hexec, -, rfl⟩
    exact htlcInvariant_effect (reachable_wellFormed hbefore) hinv (exec_effect hexec)

/-- One release: the transaction and the coins it sent. -/
structure Release where
  tx : Tx
  transfers : List Transfer

/-- One lock with every release attributed to it. -/
structure HtlcRecord where
  terms : TunnelHTLC
  releases : List Release

/-- Attributes a release to the latest lock under `hash`. -/
def addRelease (hash : Bytes) (release : Release) : List HtlcRecord → List HtlcRecord
  | [] => []
  | record :: rest =>
    if record.terms.paymentHash = hash then
      { record with releases := record.releases ++ [release] } :: rest
    else
      record :: addRelease hash release rest

/-- The book after one more history entry, newest lock first. -/
def Entry.enter (book : List HtlcRecord) : Entry → List HtlcRecord
  | .created _ _ => book
  | .called tx r =>
    match tx.call with
    | .lockHtlc l _ => ⟨l.htlc tx.sender, []⟩ :: book
    | .claimHtlcInTunnel hash _ | .expireHtlcInTunnel hash =>
      addRelease hash ⟨tx, r.transfers⟩ book
    | _ => book

/-- Every lock of a history with its releases. -/
def htlcBook (history : List Entry) : List HtlcRecord :=
  history.foldl Entry.enter []

def Entry.isRelease : Entry → Bool
  | .created _ _ => false
  | .called tx _ => tx.call.releases.isSome

/-- The releases written into a book. -/
def releaseCount (book : List HtlcRecord) : Nat :=
  (book.map fun record => record.releases.length).sum

/-- The terms that are still open under `hash`: those of the latest lock, unless it
was released. -/
def openTerms (hash : Bytes) : List HtlcRecord → Option TunnelHTLC
  | [] => none
  | record :: rest =>
    if record.terms.paymentHash = hash then
      if record.releases.length = 0 then some record.terms else none
    else
      openTerms hash rest

section Book

variable {hash : Bytes} {terms : TunnelHTLC} {release : Release} {book : List HtlcRecord}

section

variable (hopen : openTerms hash book = some terms)
include hopen

theorem openTerms_addRelease (hash' : Bytes) :
    openTerms hash' (addRelease hash release book) =
      if hash' = hash then none else openTerms hash' book := by
  induction book with
  | nil => cases hopen
  | cons record _ ih =>
    simp only [openTerms] at hopen
    by_cases hhere : record.terms.paymentHash = hash
    · by_cases hsame : hash' = hash
      · simp [addRelease, openTerms, hhere, hsame]
      · have hne : ¬hash = hash' := fun h => hsame h.symm
        simp [addRelease, openTerms, hhere, hsame, hne]
    · rw [if_neg hhere] at hopen
      by_cases hsame : hash' = hash
      · subst hsame
        simpa [addRelease, openTerms, hhere] using ih hopen
      · simp only [addRelease, hhere, if_false, openTerms, hsame]
        rw [ih hopen, if_neg hsame]

theorem mem_addRelease {record : HtlcRecord} (hmem : record ∈ addRelease hash release book) :
    record ∈ book ∨ record = ⟨terms, [release]⟩ := by
  induction book with
  | nil => cases hopen
  | cons first _ ih =>
    simp only [openTerms] at hopen
    by_cases hhere : first.terms.paymentHash = hash
    · rw [if_pos hhere] at hopen
      split at hopen
      · rename_i hnone
        rw [List.length_eq_zero_iff] at hnone
        rw [Option.some.injEq] at hopen
        rw [addRelease, if_pos hhere, List.mem_cons] at hmem
        rcases hmem with hmem | hmem
        · rw [hnone, hopen] at hmem
          exact .inr hmem
        · exact .inl (List.mem_cons_of_mem _ hmem)
      · cases hopen
    · rw [if_neg hhere] at hopen
      simp only [addRelease, hhere, if_false, List.mem_cons] at hmem
      rcases hmem with hmem | hmem
      · exact .inl (by rw [hmem]; exact List.mem_cons_self)
      · rcases ih hopen hmem with hrest | hnew
        · exact .inl (List.mem_cons_of_mem _ hrest)
        · exact .inr hnew

theorem releaseCount_addRelease :
    releaseCount (addRelease hash release book) = releaseCount book + 1 := by
  induction book with
  | nil => cases hopen
  | cons first _ ih =>
    simp only [openTerms] at hopen
    by_cases hhere : first.terms.paymentHash = hash
    · simp only [addRelease, hhere, if_true, releaseCount, List.map_cons, List.sum_cons,
        List.length_append, List.length_singleton]
      omega
    · rw [if_neg hhere] at hopen
      have hrest := ih hopen
      unfold releaseCount at hrest
      simp only [addRelease, hhere, if_false, releaseCount, List.map_cons, List.sum_cons,
        hrest]
      omega

end

end Book

/-- The book and the stored HTLCs agree, and every release in it is proper. -/
structure BookInvariant (env : Natives) (history : List Entry) (t : Tunnel) : Prop where
  stored : ∀ hash, t.htlcs.lookup hash = openTerms hash (htlcBook history)
  once : ∀ record ∈ htlcBook history, record.releases.length ≤ 1
  proper : ∀ record ∈ htlcBook history, ∀ release ∈ record.releases,
    ProperRelease env record.terms release.tx release.transfers
  complete : releaseCount (htlcBook history) = history.countP Entry.isRelease

theorem htlcBook_append (entry : Entry) :
    htlcBook (history ++ [entry]) = entry.enter (htlcBook history) := by
  simp [htlcBook]

theorem bookInvariant_effect (hinv : HtlcInvariant t) (hbook : BookInvariant env history t)
    (heffect : Effect env t tx r.tunnel r.transfers r.returned) :
    BookInvariant env (history ++ [.called tx r]) r.tunnel := by
  have hhtlc := effect_htlcs heffect
  have hcomplete := hbook.complete
  generalize hhtlcs : r.tunnel.htlcs = htlcs at hhtlc
  generalize r.tunnel.counters = counters at hhtlc
  cases hhtlc with
  | quiet =>
    have hsame : htlcBook (history ++ [.called tx r]) = htlcBook history := by
      rw [htlcBook_append, Entry.enter]
      cases hkind : tx.call <;> simp_all [Call.isHtlc]
    have hnone : (Entry.called tx r).isRelease = false := by
      rw [Entry.isRelease]
      cases hkind : tx.call <;> simp_all [Call.isHtlc, Call.releases]
    refine ⟨?_, ?_, ?_, ?_⟩
    · rw [hsame, hhtlcs]
      exact hbook.stored
    · rw [hsame]
      exact hbook.once
    · rw [hsame]
      exact hbook.proper
    · rw [hsame, hcomplete]
      simp [hnone]
  | lock l _ _ hcall =>
    have hgrow : htlcBook (history ++ [.called tx r]) =
        ⟨l.htlc tx.sender, []⟩ :: htlcBook history := by
      rw [htlcBook_append, Entry.enter, hcall]
    refine ⟨?_, ?_, ?_, ?_⟩
    · intro hash
      rw [hgrow, hhtlcs, openTerms]
      split
      · rename_i heq
        have hkey : l.paymentHash = hash := heq
        rw [← hkey, AList.lookup_insert]
        rfl
      · rename_i hne
        have hkey : hash ≠ l.paymentHash := fun h => hne h.symm
        rw [AList.lookup_insert_ne hkey]
        exact hbook.stored hash
    · rw [hgrow]
      simpa using hbook.once
    · rw [hgrow]
      simpa using hbook.proper
    · rw [hgrow]
      simp [releaseCount, Entry.isRelease, hcall, Call.releases, ← hcomplete]
  | release hash htlc _ hcall _ hentry _ hproper =>
    have hopen : openTerms hash (htlcBook history) = some htlc := by
      rw [← hbook.stored, hentry]
    have hgrow : htlcBook (history ++ [.called tx r]) =
        addRelease hash ⟨tx, r.transfers⟩ (htlcBook history) := by
      rw [htlcBook_append, Entry.enter]
      cases hkind : tx.call <;> simp_all [Call.releases]
    refine ⟨?_, ?_, ?_, ?_⟩
    · intro hash'
      rw [hgrow, hhtlcs, openTerms_addRelease hopen]
      split
      · rename_i heq
        rw [heq, AList.lookup_erase]
      · rename_i hne
        rw [AList.lookup_erase_ne hne]
        exact hbook.stored hash'
    · rw [hgrow]
      intro record hmem
      rcases mem_addRelease hopen hmem with hold | rfl
      · exact hbook.once record hold
      · exact le_rfl
    · rw [hgrow]
      intro record hmem rel hrel
      rcases mem_addRelease hopen hmem with hold | rfl
      · exact hbook.proper record hold rel hrel
      · rw [List.mem_singleton.mp hrel]
        exact hproper (hinv.entries hash htlc hentry).funded
    · have hone : (Entry.called tx r).isRelease = true := by
        rw [Entry.isRelease, hcall]
        rfl
      rw [hgrow, releaseCount_addRelease hopen, hcomplete]
      simp [hone]

theorem run_bookInvariant (hrun : (tunnelSystem env).Run history t) :
    BookInvariant env history t := by
  apply hrun.invariant (I := BookInvariant env)
  · rintro h s ⟨g, r, hg, rfl, rfl⟩
    have hempty : htlcBook [.created g r] = [] := rfl
    refine ⟨?_, by simp [hempty], by simp [hempty], rfl⟩
    intro hash
    rw [hempty]
    rcases genesis_cases hg with ⟨id, p, now, -, -, htunnel, -⟩ |
      ⟨_, _, _, _, _, _, -, -, -, -, -, htunnel, -⟩ <;> rw [htunnel] <;> rfl
  · rintro h s label s' hbefore hbook ⟨tx, r, hexec, rfl, rfl⟩
    exact bookInvariant_effect (run_htlcInvariant hbefore) hbook (exec_effect hexec)

theorem exists_uncounts (hinv : HtlcInvariant t) {hash : Bytes} {htlc : TunnelHTLC}
    (hentry : t.htlcs.lookup hash = some htlc) : ∃ counter, Uncounts t htlc counter := by
  have hone := weight_le_outstandingBy (fun _ => 1) hentry
  have hsum := weight_le_outstandingBy (fun htlc => htlc.amount.toNat) hentry
  have hcount := hinv.counted htlc.sender
  have htotal := hinv.totalled htlc.sender
  have hcountBound := (counterOf t htlc.sender).count.toNat_lt
  have htotalBound := (counterOf t htlc.sender).totalLocked.toNat_lt
  obtain ⟨count, _⟩ := exists_toNat_eq
    (n := (counterOf t htlc.sender).count.toNat - 1) (by omega)
  obtain ⟨total, _⟩ := exists_toNat_eq
    (n := (counterOf t htlc.sender).totalLocked.toNat - htlc.amount.toNat) (by omega)
  exact ⟨⟨count, total⟩, by simp only; omega, by simp only; omega⟩

/-- At any clock value exactly one of the two releases of an outstanding HTLC is
open: before expiry the claim, to its receiver with a preimage; from expiry on the
reclaim, to its sender. -/
def ExactlyOneOpen (env : Natives) (t : Tunnel) (hash : Bytes) (htlc : TunnelHTLC)
    (clock : UInt64) : Prop :=
  (clock.toNat < htlc.expiryMs.toNat →
    (∀ preimage, (env.blake2b256 preimage).bytes = hash →
      ∃ r, exec env t ⟨htlc.receiver, clock, .claimHtlcInTunnel hash preimage⟩ = .ok r) ∧
    ∀ sender r, exec env t ⟨sender, clock, .expireHtlcInTunnel hash⟩ ≠ .ok r) ∧
  (htlc.expiryMs.toNat ≤ clock.toNat →
    (∃ r, exec env t ⟨htlc.sender, clock, .expireHtlcInTunnel hash⟩ = .ok r) ∧
    ∀ sender preimage r,
      exec env t ⟨sender, clock, .claimHtlcInTunnel hash preimage⟩ ≠ .ok r)

theorem exactlyOneOpen (hwf : WellFormed t) (hinv : HtlcInvariant t) {hash : Bytes}
    {htlc : TunnelHTLC} (hentry : t.htlcs.lookup hash = some htlc) (clock : UInt64) :
    ExactlyOneOpen env t hash htlc clock := by
  have hopen : t.status ≠ .destroyed := by
    intro hstatus
    have hnone := hinv.destroyed hstatus hash
    rw [hentry] at hnone
    cases hnone
  have hkey := (hinv.entries hash htlc hentry).key
  obtain ⟨counter, hcounter⟩ := exists_uncounts hinv hentry
  constructor
  · intro hbefore
    constructor
    · intro preimage hpreimage
      rw [← hkey] at hpreimage
      exact ⟨_, claimHtlcInTunnel_ok_iff.mpr ⟨hwf.version, hopen, htlc, hentry, rfl,
        hpreimage, hbefore, counter, hcounter, rfl⟩⟩
    · intro sender r hexec
      obtain ⟨-, -, htlc', hentry', hexpired, -⟩ := expireHtlcInTunnel_ok_iff.mp hexec
      rw [hentry, Option.some.injEq] at hentry'
      subst hentry'
      simp only at hexpired
      omega
  · intro hexpired
    constructor
    · exact ⟨_, expireHtlcInTunnel_ok_iff.mpr ⟨hwf.version, hopen, htlc, hentry, hexpired,
        rfl, counter, hcounter, rfl⟩⟩
    · intro sender preimage r hexec
      obtain ⟨-, -, _, hentry', -, -, hbefore, -⟩ := claimHtlcInTunnel_ok_iff.mp hexec
      rw [hentry, Option.some.injEq] at hentry'
      subst hentry'
      simp only at hbefore
      omega

/-- HTLC accounting over every run: each counter is the number and the sum of the
outstanding HTLCs of that sender, no decrement underflows, each lock is released at
most once and properly, every release of the history is in the book, exactly one
release is open at each clock value, and a destroyed tunnel has none outstanding. -/
theorem htlcs_accounted (hrun : (tunnelSystem env).Run history t) :
    (∀ party, (counterOf t party).count.toNat = outstandingCount t party ∧
      (counterOf t party).totalLocked.toNat = outstandingSum t party) ∧
    (∀ hash htlc, t.htlcs.lookup hash = some htlc →
      (∃ t', updatePartyHtlcCounter t htlc.sender false htlc.amount = .ok t') ∧
      ∀ clock, ExactlyOneOpen env t hash htlc clock) ∧
    (∀ record ∈ htlcBook history, record.releases.length ≤ 1 ∧
      ∀ release ∈ record.releases,
        ProperRelease env record.terms release.tx release.transfers) ∧
    releaseCount (htlcBook history) = history.countP Entry.isRelease ∧
    (t.status = .destroyed → ∀ hash, t.htlcs.lookup hash = none) := by
  have hwf := reachable_wellFormed hrun
  have hinv := run_htlcInvariant hrun
  have hbook := run_bookInvariant hrun
  refine ⟨fun party => ⟨hinv.counted party, hinv.totalled party⟩, ?_, ?_, hbook.complete,
    hinv.destroyed⟩
  · intro hash htlc hentry
    obtain ⟨counter, hcount, htotal⟩ := exists_uncounts hinv hentry
    exact ⟨⟨_, updatePartyHtlcCounter_sub_ok_iff.mpr ⟨counter, hcount, htotal, rfl⟩⟩,
      exactlyOneOpen hwf hinv hentry⟩
  · intro record hrecord
    exact ⟨hbook.once record hrecord, hbook.proper record hrecord⟩

theorem htlcs_accounted_dispute : ∃ t history,
    replay permissive Sample.genesis (Sample.dispute.take 5) = .ok (t, history) ∧
    (∃ htlc, t.htlcs.lookup Sample.lock.paymentHash = some htlc ∧
      ∀ clock, ExactlyOneOpen permissive t Sample.lock.paymentHash htlc clock) ∧
    (∀ party, (counterOf t party).count.toNat = outstandingCount t party ∧
      (counterOf t party).totalLocked.toNat = outstandingSum t party) ∧
    releaseCount (htlcBook history) = history.countP Entry.isRelease := by
  have hlocked : (replay permissive Sample.genesis (Sample.dispute.take 5)).map
      (fun s => s.1.htlcs.lookup Sample.lock.paymentHash) =
        .ok (some (Sample.lock.htlc Sample.alice)) := by
    decide +kernel
  obtain ⟨⟨t, history⟩, hreplay, hentry⟩ := map_ok_iff.mp hlocked
  obtain ⟨hcounted, hopen, -, hcomplete, -⟩ := htlcs_accounted (replay_run hreplay)
  exact ⟨t, history, hreplay, ⟨_, hentry, (hopen _ _ hentry).2⟩, hcounted, hcomplete⟩

end DopamintArena.Move
