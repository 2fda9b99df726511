import DopamintArena.Move.Tunnel.Htlc

/-!
How often one signature on HTLC terms can be used. The terms carry no nonce
and the only guard against a second use is the dynamic field under the
payment hash, which a claim removes. Terms whose HTLC expired cannot be locked
again, because the expiry has passed; terms whose HTLC was claimed can.
-/

namespace DopamintArena.Move

open Foundation

variable {env : Natives} {t t' : Tunnel} {tx : Tx} {r : Receipt} {history : List Entry}
variable {entry : Entry} {terms : TunnelHTLC}

def Entry.clock : Entry → UInt64
  | .created (.create _ _ now) _ => now
  | .created (.createAndFund _ _ _ _ now) _ => now
  | .called tx _ => tx.clock

/-- The chain clock never runs backwards. -/
def ClockMonotone (history : List Entry) : Prop :=
  (history.map Entry.clock).Pairwise (· ≤ ·)

instance : Decidable (ClockMonotone history) :=
  inferInstanceAs (Decidable (List.Pairwise _ _))

/-- The payment hash, amount, sender, receiver and expiry a successful lock used. -/
def Entry.lockedTerms : Entry → Option TunnelHTLC
  | .created _ _ => none
  | .called tx _ =>
    match tx.call with
    | .lockHtlc l _ => some (l.htlc tx.sender)
    | _ => none

def lockedTerms (history : List Entry) : List TunnelHTLC :=
  history.filterMap Entry.lockedTerms

/-- No two successful locks carry the same terms. -/
def SingleUse (history : List Entry) : Prop := (lockedTerms history).Nodup

instance : Decidable (SingleUse history) :=
  inferInstanceAs (Decidable (List.Nodup _))

/-- Whether a history entry claimed the HTLC under `hash`. -/
def Entry.claims (hash : Bytes) : Entry → Prop
  | .created _ _ => False
  | .called tx _ => ∃ preimage, tx.call = .claimHtlcInTunnel hash preimage

/-- No lock repeats the terms of an earlier one after a claim of their hash. -/
def NoRelockAfterClaim (history : List Entry) : Prop :=
  ∀ before first between second after terms,
    history = before ++ first :: between ++ second :: after →
    first.lockedTerms = some terms → second.lockedTerms = some terms →
    ∀ entry ∈ between, ¬entry.claims terms.paymentHash

theorem noRelockAfterClaim_of_append (h : NoRelockAfterClaim (history ++ [entry])) :
    NoRelockAfterClaim history := by
  intro before first between second after terms hsplit
  apply h before first between second (after ++ [entry]) terms
  rw [hsplit]
  simp

/-- Where a lock without a later claim of its hash stands: it is outstanding, or some
later entry has seen its expiry pass. -/
def Standing (history : List Entry) (t : Tunnel) : Prop :=
  ∀ before first after terms, history = before ++ first :: after →
    first.lockedTerms = some terms → (∀ entry ∈ after, ¬entry.claims terms.paymentHash) →
    t.htlcs.lookup terms.paymentHash = some terms ∨
      ∃ entry ∈ history, terms.expiryMs ≤ entry.clock

/-- The part of `Standing` that one more entry has to re-establish: the earlier locks
that were still outstanding. -/
theorem standing_append (hstanding : Standing history t)
    (hnew : ∀ terms, entry.lockedTerms = some terms →
      t'.htlcs.lookup terms.paymentHash = some terms)
    (hkeep : ∀ terms, t.htlcs.lookup terms.paymentHash = some terms →
      ¬entry.claims terms.paymentHash →
      t'.htlcs.lookup terms.paymentHash = some terms ∨ terms.expiryMs ≤ entry.clock) :
    Standing (history ++ [entry]) t' := by
  intro before first after terms hsplit hfirst hclaims
  rcases List.eq_nil_or_concat after with rfl | ⟨after', last, rfl⟩
  · -- the last entry is the lock itself
    obtain ⟨-, hlast⟩ := List.append_inj' hsplit rfl
    rw [List.singleton_inj] at hlast
    subst hlast
    exact .inl (hnew terms hfirst)
  · rw [List.concat_eq_append] at hsplit hclaims
    rw [← List.cons_append, ← List.append_assoc] at hsplit
    obtain ⟨hfront, hlast⟩ := List.append_inj' hsplit rfl
    rw [List.singleton_inj] at hlast
    subst hlast
    have hearlier : ∀ e ∈ after', ¬e.claims terms.paymentHash :=
      fun e he => hclaims e (List.mem_append_left _ he)
    rcases hstanding before first after' terms hfront hfirst hearlier with
      hlookup | ⟨e, he, hexpired⟩
    · have hnotClaim := hclaims entry (List.mem_append_right _ (List.mem_singleton_self _))
      rcases hkeep terms hlookup hnotClaim with hstill | hexpired
      · exact .inl hstill
      · exact .inr ⟨entry, List.mem_append_right _ (List.mem_singleton_self _), hexpired⟩
    · exact .inr ⟨e, List.mem_append_left _ he, hexpired⟩

theorem lockedTerms_called (h : (Entry.called tx r).lockedTerms = some terms) :
    ∃ l sig, tx.call = .lockHtlc l sig ∧ terms = l.htlc tx.sender := by
  unfold Entry.lockedTerms at h
  cases hcall : tx.call <;> simp_all

theorem standing_effect (hinv : HtlcInvariant t) (hstanding : Standing history t)
    (heffect : Effect env t tx r.tunnel r.transfers r.returned) :
    Standing (history ++ [.called tx r]) r.tunnel := by
  have hhtlc := effect_htlcs heffect
  generalize hhtlcs : r.tunnel.htlcs = htlcs at hhtlc
  generalize r.tunnel.counters = counters at hhtlc
  cases hhtlc with
  | quiet hcall =>
    apply standing_append hstanding
    · intro terms hlocked
      obtain ⟨l, sig, hlock, -⟩ := lockedTerms_called hlocked
      rw [hlock] at hcall
      cases hcall
    · intro terms hlookup _
      rw [hhtlcs]
      exact .inl hlookup
  | lock l _ _ hcall _ _ _ _ hfresh =>
    apply standing_append hstanding
    · intro terms hlocked
      obtain ⟨_, _, hcall', rfl⟩ := lockedTerms_called hlocked
      rw [hcall, Call.lockHtlc.injEq] at hcall'
      rw [hhtlcs, ← hcall'.1]
      exact AList.lookup_insert _
    · intro terms hlookup _
      have hne : terms.paymentHash ≠ l.paymentHash := by
        intro heq
        rw [heq] at hlookup
        exact hfresh (AList.lookup_isSome.mp (by simp [hlookup]))
      rw [hhtlcs, AList.lookup_insert_ne hne]
      exact .inl hlookup
  | release hash htlc _ hcall _ hentry _ hproper =>
    apply standing_append hstanding
    · intro terms hlocked
      obtain ⟨_, _, hlock, -⟩ := lockedTerms_called hlocked
      rw [hlock] at hcall
      cases hcall
    · intro terms hlookup hnotClaim
      by_cases hsame : terms.paymentHash = hash
      · -- it was released, and not by a claim: so it had expired
        have hterms : htlc = terms := by
          rw [hsame, hentry, Option.some.injEq] at hlookup
          exact hlookup
        rcases hproper (hinv.entries hash htlc hentry).funded with
          ⟨hash', preimage, hclaim, -⟩ | ⟨hash', _, -, hexpired, -⟩
        · rw [hclaim] at hcall
          have hhash : hash' = hash := Option.some.inj hcall
          exact absurd ⟨preimage, by rw [hsame, hclaim, hhash]⟩ hnotClaim
        · rw [hterms] at hexpired
          exact .inr (UInt64.le_iff_toNat_le.mpr hexpired)
      · rw [hhtlcs, AList.lookup_erase_ne hsame]
        exact .inl hlookup

theorem run_standing (hrun : (tunnelSystem env).Run history t) : Standing history t := by
  apply hrun.invariant (I := Standing)
  · rintro h s ⟨g, r, -, rfl, rfl⟩
    intro before first after terms hsplit hfirst
    rcases before with _ | ⟨_, _⟩
    · simp only [List.nil_append, List.cons.injEq] at hsplit
      rw [← hsplit.1] at hfirst
      cases hfirst
    · simp at hsplit
  · rintro h s label s' hbefore hstanding ⟨tx, r, hexec, rfl, rfl⟩
    exact standing_effect (run_htlcInvariant hbefore) hstanding (exec_effect hexec)

/-- A lock cannot repeat terms that were locked before, unless their hash was claimed
in between: they are outstanding or their expiry has passed. -/
theorem lock_fresh (hrun : (tunnelSystem env).Run history t)
    (hclock : ClockMonotone (history ++ [.called tx r]))
    (hclaims : NoRelockAfterClaim (history ++ [.called tx r])) (hexec : exec env t tx = .ok r)
    (hlocked : (Entry.called tx r).lockedTerms = some terms) :
    terms ∉ lockedTerms history := by
  intro hmem
  obtain ⟨first, hfirst, hterms⟩ := List.mem_filterMap.mp hmem
  obtain ⟨before, after, hsplit⟩ := List.append_of_mem hfirst
  obtain ⟨l, _, hcall, rfl⟩ := lockedTerms_called hlocked
  have hlock := hexec
  simp only [exec, hcall] at hlock
  rw [lockHtlc_ok_iff] at hlock
  obtain ⟨-, -, -, -, _, _, -, -, hinternal⟩ := hlock
  obtain ⟨hfresh, -⟩ := lockHtlcInternal_ok_iff.mp hinternal
  have hnoClaim : ∀ entry ∈ after, ¬entry.claims (l.htlc tx.sender).paymentHash :=
    hclaims before first after (.called tx r) [] (l.htlc tx.sender)
      (by rw [hsplit]) hterms hlocked
  rcases run_standing hrun before first after _ hsplit hterms hnoClaim with
    hlookup | ⟨entry, hentry, hexpired⟩
  · exact hfresh (AList.lookup_isSome.mp (by
      have hlookup' : t.htlcs.lookup l.paymentHash = some (l.htlc tx.sender) := hlookup
      simp [hlookup']))
  · have hordered : entry.clock ≤ tx.clock := by
      rw [ClockMonotone, List.map_append, List.pairwise_append] at hclock
      exact hclock.2.2 _ (List.mem_map_of_mem hentry) _ (by simp [Entry.clock])
    have hexpired' : l.expiryMs ≤ entry.clock := hexpired
    rw [UInt64.le_iff_toNat_le] at hexpired' hordered
    omega

theorem lockedTerms_append_none (h : entry.lockedTerms = none) :
    lockedTerms (history ++ [entry]) = lockedTerms history := by
  simp [lockedTerms, h]

theorem lockedTerms_append_some (h : entry.lockedTerms = some terms) :
    lockedTerms (history ++ [entry]) = lockedTerms history ++ [terms] := by
  simp [lockedTerms, h]

theorem singleUse_of_noRelockAfterClaim (hrun : (tunnelSystem env).Run history t)
    (hclock : ClockMonotone history) (hclaims : NoRelockAfterClaim history) :
    SingleUse history := by
  induction hrun with
  | start hstart =>
    obtain ⟨g, r, -, rfl, -⟩ := hstart
    have hnone : lockedTerms [.created g r] = [] := rfl
    simp [SingleUse, hnone]
  | @step history _ _ _ hbefore hstep ih =>
    obtain ⟨tx, r, hexec, rfl, rfl⟩ := hstep
    have hclock' : ClockMonotone history := by
      rw [ClockMonotone, List.map_append, List.pairwise_append] at hclock
      exact hclock.1
    have hearlier := ih hclock' (noRelockAfterClaim_of_append hclaims)
    cases hlocked : (Entry.called tx r).lockedTerms with
    | none =>
      rw [SingleUse, lockedTerms_append_none hlocked]
      exact hearlier
    | some =>
      have hfresh := lock_fresh hbefore hclock hclaims hexec hlocked
      rw [SingleUse, lockedTerms_append_some hlocked]
      apply pairwise_concat hearlier
      intro other hother heq
      exact hfresh (heq ▸ hother)

theorem noRelockAfterClaim_of_singleUse (hsingle : SingleUse history) :
    NoRelockAfterClaim history := by
  intro before first between second after terms hsplit hfirst hsecond
  exfalso
  rw [SingleUse, lockedTerms, hsplit] at hsingle
  simp only [List.filterMap_append, List.append_assoc, List.cons_append,
    List.filterMap_cons, hfirst, hsecond] at hsingle
  rw [List.nodup_append] at hsingle
  obtain ⟨-, hrest, -⟩ := hsingle
  rw [List.nodup_cons] at hrest
  exact hrest.1 (List.mem_append_right _ List.mem_cons_self)

/-- A signature on HTLC terms is used once exactly when nobody locks the same terms
again after their hash was claimed. -/
theorem lock_singleUse_iff (hrun : (tunnelSystem env).Run history t)
    (hclock : ClockMonotone history) :
    SingleUse history ↔ NoRelockAfterClaim history :=
  ⟨noRelockAfterClaim_of_singleUse, singleUse_of_noRelockAfterClaim hrun hclock⟩

theorem lock_singleUse_iff_dispute : ∃ t history,
    replay permissive Sample.genesis Sample.dispute = .ok (t, history) ∧
    ClockMonotone history ∧ lockedTerms history = [Sample.lock.htlc Sample.alice] ∧
    (SingleUse history ↔ NoRelockAfterClaim history) := by
  have heval : (replay permissive Sample.genesis Sample.dispute).map
      (fun s => (s.2.map Entry.clock, lockedTerms s.2)) =
        .ok ([10, 10, 11, 12, 13, 14, 15], [Sample.lock.htlc Sample.alice]) := by
    decide +kernel
  obtain ⟨⟨t, history⟩, hreplay, hfacts⟩ := map_ok_iff.mp heval
  obtain ⟨hclocks, hlocked⟩ := Prod.mk.inj hfacts
  have hclock : ClockMonotone history := by
    rw [ClockMonotone, hclocks]
    decide
  exact ⟨t, history, hreplay, hclock, hlocked, lock_singleUse_iff (replay_run hreplay) hclock⟩

namespace Sample

/-- Bob signs one message, the terms of one lock. Alice locks, Bob claims, and Alice
locks again with the same signature. -/
def relock : List Tx :=
  [⟨alice, 10, .deposit 100⟩, ⟨bob, 11, .deposit 50⟩,
   ⟨alice, 12, .lockHtlc lock sig⟩,
   ⟨bob, 13, .claimHtlcInTunnel lock.paymentHash [3]⟩,
   ⟨alice, 14, .lockHtlc lock sig⟩]

end Sample

/-- One signature, two locks: sixty units leave the balance under a signature for
thirty. -/
theorem lock_reused_after_claim : ∃ t history,
    replay (signedOnly [Sample.lock.message Sample.tunnelId Sample.alice])
      Sample.genesis Sample.relock = .ok (t, history) ∧
    ClockMonotone history ∧ t.balance = 90 ∧
    lockedTerms history =
      [Sample.lock.htlc Sample.alice, Sample.lock.htlc Sample.alice] ∧
    ¬SingleUse history := by
  have heval : (replay
      (signedOnly [Sample.lock.message Sample.tunnelId Sample.alice])
      Sample.genesis Sample.relock).map
      (fun s => (s.2.map Entry.clock, s.1.balance, lockedTerms s.2)) =
        .ok ([10, 10, 11, 12, 13, 14], 90,
          [Sample.lock.htlc Sample.alice, Sample.lock.htlc Sample.alice]) := by
    decide +kernel
  obtain ⟨⟨t, history⟩, hreplay, hfacts⟩ := map_ok_iff.mp heval
  simp only [Prod.mk.injEq] at hfacts
  obtain ⟨hclocks, hbalance, hlocked⟩ := hfacts
  refine ⟨t, history, hreplay, ?_, hbalance, hlocked, ?_⟩
  · rw [ClockMonotone, hclocks]
    decide
  · rw [SingleUse, hlocked]
    simp

end DopamintArena.Move
