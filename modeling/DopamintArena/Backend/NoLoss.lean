import DopamintArena.Backend.SettleWorker

/-!
Whether a settlement can get lost between the `/settle` handler and the chain.
Every settlement waits in the queue or is in the hands of a worker, so a loss can
only come from an entry that a worker gives up: as a duplicate within a claim,
because the registry shows its tunnel closed, after its result, or because an
acknowledgement fails and ends the drain. Of these, a duplicate may be another
settlement, an entry that was rate-limited may fail to be enqueued again, and a
drain that ends early gives up everything it has claimed.
-/

namespace DopamintArena.Backend

open Foundation

namespace Settling

variable {s : Settling} {chain : Chain} {closed after : List Bytes32}

/-! ### What the workers know -/

/-- What a result says about its close. -/
def Reported (chain : Chain) (closed : List Bytes32) (header : Bytes) : CloseResult → Prop
  | .ok _ => chain.TunnelClosed closed header
  | .error (.rejected _) => chain.Acceptable header → chain.TunnelClosed closed header
  | .error (.transient _ _) => True

/-- The header names the tunnel that it was sent for. -/
def Addressed (q : QueuedSettle) : Prop :=
  ∃ ca, closeArgsFromSettleHeader q.header = .ok ca ∧
    normalizeTunnelId ca.tunnelId = normalizeTunnelId q.tunnelId

/-- What a worker knows in its phase. -/
def Knows (chain : Chain) (closed : List Bytes32) : Phase → Prop
  | .idle => True
  | .preparing todo seen work =>
    (∀ p ∈ work, closeArgsFromSettleHeader p.1.header = .ok p.2) ∧
      (∀ q ∈ todo, Addressed q) ∧ todo.Pairwise (chain.Spares closed) ∧
      ∀ q ∈ todo, q.tunnelId ∈ seen → chain.Acceptable q.header →
        chain.TunnelClosed closed q.header ∨ ∃ p ∈ work, p.1.header = q.header
  | .recording todo _ =>
    ∀ x ∈ todo, closeArgsFromSettleHeader x.1.1.header = .ok x.1.2 ∧
      Reported chain closed x.1.1.header x.2

/-- The registry shows a tunnel as closed only under its canonical text, and only once it is. -/
def Registered (chain : Chain) (closed : List Bytes32) (registry : Registry) : Prop :=
  ∀ text, registry text = some .closed → ∃ raw ref, text = textOf raw ∧
    chain.refOf text = some ref ∧ ref.id ∈ closed

structure Kept (chain : Chain) (s : Settling) : Prop where
  addressed : ∀ q ∈ s.queue.pending, Addressed q
  registered : Registered chain s.closed s.registry
  known : ∀ worker, Knows chain s.closed (s.workers worker)
  nothingLost : s.NothingLost chain

section

variable (hgrown : ∀ id ∈ closed, id ∈ after)
include hgrown

theorem tunnelClosed_mono {header : Bytes} (h : chain.TunnelClosed closed header) :
    chain.TunnelClosed after header := by
  obtain ⟨ca, ref, hparse, href, hmem⟩ := h
  exact ⟨ca, ref, hparse, href, hgrown _ hmem⟩

theorem reported_mono {header : Bytes} {res : CloseResult} (h : Reported chain closed header res) :
    Reported chain after header res :=
  match res, h with
  | .ok _, hclosed => tunnelClosed_mono hgrown hclosed
  | .error (.rejected _), hrejected => fun haccept => tunnelClosed_mono hgrown (hrejected haccept)
  | .error (.transient _ _), _ => trivial

theorem knows_mono {phase : Phase} (h : Knows chain closed phase) :
    Knows chain after phase := by
  cases phase with
  | idle => trivial
  | preparing =>
    obtain ⟨hwork, haddressed, hspares, hseen⟩ := h
    refine ⟨hwork, haddressed, hspares.imp fun hs htext haccept =>
      (hs htext haccept).imp_left (tunnelClosed_mono hgrown), ?_⟩
    intro q hq htext haccept
    exact (hseen q hq htext haccept).imp_left (tunnelClosed_mono hgrown)
  | recording =>
    intro x hx
    obtain ⟨hparse, hreported⟩ := h x hx
    exact ⟨hparse, reported_mono hgrown hreported⟩

end

/-! ### The steps around the workers -/

theorem retains_pending {q : QueuedSettle} (hq : q ∈ s.queue.pending) : s.Retains q.header :=
  ⟨q, rfl, .inl hq⟩

theorem retains_entry (worker : Nat) {q : QueuedSettle} (hq : q ∈ (s.workers worker).entries) :
    s.Retains q.header :=
  ⟨q, rfl, .inr ⟨worker, hq⟩⟩

section

variable (h : s.Kept chain)
include h

theorem Kept.closed_mono (hgrown : ∀ id ∈ s.closed, id ∈ after) :
    Kept chain { s with closed := after } where
  addressed := h.addressed
  registered text hclosed := by
    obtain ⟨raw, ref, htext, href, hmem⟩ := h.registered text hclosed
    exact ⟨raw, ref, htext, href, hgrown _ hmem⟩
  known worker := knows_mono hgrown (h.known worker)
  nothingLost q hq haccept := (h.nothingLost q hq haccept).imp_left (tunnelClosed_mono hgrown)

theorem Kept.register {text : String} {status : TunnelStatus}
    (hclosed : status = .closed → ∃ raw ref, text = textOf raw ∧
      chain.refOf text = some ref ∧ ref.id ∈ s.closed) :
    Kept chain { s with registry := setTunnelStatus s.registry text status } where
  addressed := h.addressed
  registered other hother := by
    simp only [setTunnelStatus] at hother
    split at hother
    · rename_i hsame
      rw [hsame]
      exact hclosed (Option.some.inj hother)
    · exact h.registered other hother
  known := h.known
  nothingLost := h.nothingLost

theorem Kept.enqueued {tunnelId : String} {header body : Bytes}
    (haddressed : Addressed (s.queue.entry tunnelId header)) :
    (s.enqueued tunnelId header body).Kept chain where
  addressed q hq := by
    rcases List.mem_append.mp hq with hold | hnew
    · exact h.addressed q hold
    · rw [List.mem_singleton.mp hnew]
      exact haddressed
  registered := h.registered
  known := h.known
  nothingLost q hq haccept := by
    rcases List.mem_append.mp hq with hold | hnew
    · refine (h.nothingLost q hold haccept).imp_right ?_
      rintro ⟨q', hheader, hpending | hworker⟩
      · exact ⟨q', hheader, .inl (List.mem_append_left _ hpending)⟩
      · exact ⟨q', hheader, .inr hworker⟩
    · exact .inr (retains_pending (List.mem_append_right _ hnew))

/-- The one place where something can get lost: of what a worker has in hand, it keeps what is
needed. -/
theorem Kept.advance {worker : Nat} {phase : Phase} {acked : List Nat}
    (hknows : Knows chain s.closed phase)
    (hkeeps : ∀ q ∈ (s.workers worker).entries, chain.Acceptable q.header →
      chain.TunnelClosed s.closed q.header ∨ (s.advance worker phase acked).Retains q.header) :
    (s.advance worker phase acked).Kept chain where
  addressed := h.addressed
  registered := h.registered
  known other := by
    rcases eq_or_ne other worker with rfl | hne
    · simpa [Settling.advance] using hknows
    · simpa [Settling.advance, Function.update_of_ne hne] using h.known other
  nothingLost q hq haccept := by
    rcases h.nothingLost q hq haccept with hclosed | ⟨q', hheader, hpending | ⟨other, hother⟩⟩
    · exact .inl hclosed
    · exact .inr ⟨q', hheader, .inl hpending⟩
    · rcases eq_or_ne other worker with rfl | hne
      · rw [← hheader] at haccept ⊢
        exact hkeeps q' hother haccept
      · refine .inr ⟨q', hheader, .inr ⟨other, ?_⟩⟩
        simpa [Settling.advance, Function.update_of_ne hne] using hother

/-- A worker that keeps all it has in hand. -/
theorem Kept.advance_keeping {worker : Nat} {phase : Phase} {acked : List Nat}
    (hknows : Knows chain s.closed phase)
    (hsub : ∀ q ∈ (s.workers worker).entries, q ∈ phase.entries) :
    (s.advance worker phase acked).Kept chain := by
  refine h.advance hknows fun q hq _ => .inr (retains_entry worker ?_)
  simpa [Settling.advance] using hsub q hq

theorem Kept.claim {worker max : Nat} {phase : Phase} (hphase : s.workers worker = .idle)
    (hentries : phase.entries = s.queue.pending.take max) (hknows : Knows chain s.closed phase) :
    Kept chain { s with
      queue := (s.queue.claim max).2
      workers := Function.update s.workers worker phase } where
  addressed q hq := h.addressed q (List.mem_of_mem_drop hq)
  registered := h.registered
  known other := by
    rcases eq_or_ne other worker with rfl | hne
    · simpa using hknows
    · simpa [Function.update_of_ne hne] using h.known other
  nothingLost q hq haccept := by
    refine (h.nothingLost q hq haccept).imp_right ?_
    rintro ⟨q', hheader, hpending | ⟨other, hother⟩⟩
    · rw [← List.take_append_drop max s.queue.pending, List.mem_append] at hpending
      rcases hpending with htaken | hleft
      · exact ⟨q', hheader, .inr ⟨worker, by simpa [hentries] using htaken⟩⟩
      · exact ⟨q', hheader, .inl hleft⟩
    · have hne : other ≠ worker := by
        rintro rfl
        rw [hphase] at hother
        cases hother
      exact ⟨q', hheader, .inr ⟨other, by simpa [Function.update_of_ne hne] using hother⟩⟩

/-- An entry under the text of a closed tunnel is for this tunnel. -/
theorem Kept.tunnelClosed_of_registry {q : QueuedSettle} (hq : Addressed q)
    (hregistry : s.registry q.tunnelId = some .closed) :
    chain.TunnelClosed s.closed q.header := by
  obtain ⟨_, ref, htext, href, hmem⟩ := h.registered _ hregistry
  obtain ⟨ca, hparse, hsame⟩ := hq
  obtain ⟨_, hid⟩ := exists_textOf_closeArgs hparse
  rw [hid, htext] at hsame
  rw [textOf_inj hsame, ← htext] at hid
  exact ⟨ca, ref, hparse, by rw [hid]; exact href, hmem⟩

end

/-! ### The steps of a drain -/

section Prepare

variable {worker : Nat} {q : QueuedSettle} {todo : List QueuedSettle} {seen : List String}
  {work : List (QueuedSettle × CloseArgs)}

theorem Kept.dropEntry (h : s.Kept chain)
    (hphase : s.workers worker = .preparing (q :: todo) seen work)
    (hknows : Knows chain s.closed (.preparing todo (q.tunnelId :: seen) work))
    (hexcuse : chain.Acceptable q.header → chain.TunnelClosed s.closed q.header ∨
      ∃ p ∈ work, p.1.header = q.header) :
    (s.advance worker (.preparing todo (q.tunnelId :: seen) work) [q.id]).Kept chain := by
  have hkept : ∀ x ∈ todo ++ work.map Prod.fst,
      (s.advance worker (.preparing todo (q.tunnelId :: seen) work) [q.id]).Retains x.header := by
    intro x hx
    apply retains_entry worker
    simpa [Settling.advance, Phase.entries] using hx
  refine h.advance hknows ?_
  intro x hx haccept
  rw [hphase] at hx
  rcases List.mem_cons.mp hx with rfl | hrest
  · refine (hexcuse haccept).imp_right ?_
    rintro ⟨p, hp, hheader⟩
    rw [← hheader]
    exact hkept p.1 (List.mem_append_right _ (List.mem_map_of_mem hp))
  · exact .inr (hkept x hrest)

theorem Kept.prepareOne (h : s.Kept chain) {acked : Bool}
    (hphase : s.workers worker = .preparing (q :: todo) seen work)
    (hsparing : s.Sparing chain (.prepare worker acked)) :
    (s.prepareOne worker acked q todo seen work).Kept chain := by
  have hknown := h.known worker
  rw [hphase] at hknown
  obtain ⟨hwork, haddressed, hspares, hseen⟩ := hknown
  obtain ⟨ca, hparse, -⟩ := haddressed q List.mem_cons_self
  rw [List.pairwise_cons] at hspares
  rw [List.forall_mem_cons] at hseen
  have hrest : ∀ x ∈ todo, Addressed x := fun x hx => haddressed x (List.mem_cons_of_mem _ hx)
  unfold Settling.prepareOne
  simp only [hparse]
  split
  · rename_i hskip
    split
    · -- Everything under this text is excused already.
      have hexcuse : ∀ x ∈ q :: todo, x.tunnelId = q.tunnelId → chain.Acceptable x.header →
          chain.TunnelClosed s.closed x.header ∨ ∃ p ∈ work, p.1.header = x.header := by
        intro x hx htext haccept
        rcases hskip with hdup | hclosed
        · rcases List.mem_cons.mp hx with rfl | hrest
          · exact hseen.1 hdup haccept
          · exact hseen.2 x hrest (by rw [htext]; exact hdup) haccept
        · rw [← htext] at hclosed
          exact .inl (h.tunnelClosed_of_registry (haddressed x hx) hclosed)
      refine h.dropEntry hphase ⟨hwork, hrest, hspares.2, ?_⟩ (hexcuse q List.mem_cons_self rfl)
      intro x hx htext haccept
      rcases List.mem_cons.mp htext with hsame | hbefore
      · exact hexcuse x (List.mem_cons_of_mem _ hx) hsame haccept
      · exact hseen.2 x hx hbefore haccept
    · rename_i hfails
      exact h.advance trivial fun x hx haccept =>
        .inl (hsparing (Bool.eq_false_iff.mpr hfails) x hx haccept)
  · apply h.advance_keeping
    · refine ⟨?_, hrest, hspares.2, ?_⟩
      · intro p hp
        rcases List.mem_append.mp hp with hold | hnew
        · exact hwork p hold
        · rw [List.mem_singleton.mp hnew]
          exact hparse
      · intro x hx htext haccept
        rcases List.mem_cons.mp htext with hsame | hbefore
        · refine (hspares.1 x hx hsame.symm haccept).imp_right fun hheader => ?_
          exact ⟨(q, ca), by simp, hheader⟩
        · refine (hseen.2 x hx hbefore haccept).imp_right ?_
          rintro ⟨p, hp, hheader⟩
          exact ⟨p, List.mem_append_left _ hp, hheader⟩
    · intro x hx
      rw [hphase] at hx
      simp only [Phase.entries, List.cons_append, List.mem_cons, List.map_append, List.map_cons,
        List.map_nil, List.mem_append] at hx ⊢
      tauto

end Prepare

section Submit

/-- What the settler's answer says about a settlement. -/
theorem reported_of_judged {header : Bytes} {ca : CloseArgs} {res : CloseResult}
    (hparse : closeArgsFromSettleHeader header = .ok ca)
    (h : chain.JudgedOne closed after ca res) : Reported chain after header res := by
  match res, h with
  | .ok _, ⟨⟨ref, href, _⟩, hafter⟩ =>
    have htunnel : chain.tunnelOf ca = some ref.id := by rw [Chain.tunnelOf, href]; rfl
    exact ⟨ca, ref, hparse, href, hafter ref.id htunnel⟩
  | .error (.rejected _), hrejected =>
    rintro ⟨_, ref, hparse', href, haccepts, hroot⟩
    cases hparse.symm.trans hparse'
    refine ⟨ca, ref, hparse, href, ?_⟩
    by_contra hopen
    exact hrejected ⟨ref, href, haccepts, hopen, hroot⟩
  | .error (.transient _ _), _ => trivial

theorem Kept.submit (h : s.Kept chain) {worker : Nat} {seen : List String}
    {work : List (QueuedSettle × CloseArgs)} {results : List CloseResult}
    (hphase : s.workers worker = .preparing [] seen work)
    (hjudged : chain.Judged s.closed after (work.map Prod.snd) results) :
    Kept chain { s.advance worker (.recording (work.zip results) []) [] with closed := after } := by
  have hknown := h.known worker
  rw [hphase] at hknown
  have hlength : work.length ≤ results.length := by
    rw [hjudged.length, List.length_map]
  have hentries : (Phase.recording (work.zip results) []).entries = (s.workers worker).entries := by
    have hfst := List.map_fst_zip hlength
    rw [hphase]
    simp only [Phase.entries, List.nil_append]
    calc (work.zip results).map (fun x => x.1.1)
        = ((work.zip results).map Prod.fst).map Prod.fst := by rw [List.map_map]; rfl
      _ = work.map Prod.fst := by rw [hfst]
  have hknows : Knows chain after (.recording (work.zip results) []) := by
    rintro ⟨⟨q, ca⟩, res⟩ hx
    have hparse := hknown.1 (q, ca) (List.of_mem_zip hx).1
    refine ⟨hparse, reported_of_judged hparse (hjudged.each (ca, res) ?_)⟩
    rw [List.zip_map_left, List.mem_map]
    exact ⟨((q, ca), res), hx, rfl⟩
  apply (h.closed_mono hjudged.grown).advance_keeping hknows
  intro q hq
  rw [hentries]
  exact hq

end Submit

section Record

variable {worker : Nat} {q : QueuedSettle} {close : CloseArgs} {res : CloseResult}
  {todo : List ((QueuedSettle × CloseArgs) × CloseResult)} {toAck : List Nat}

theorem Kept.letGo (h : s.Kept chain)
    (hphase : s.workers worker = .recording (((q, close), res) :: todo) toAck)
    (hexcuse : chain.Acceptable q.header → chain.TunnelClosed s.closed q.header ∨
      ∃ q' ∈ s.queue.pending, q'.header = q.header) :
    (s.advance worker (.recording todo (toAck ++ [q.id])) []).Kept chain := by
  have hknown := h.known worker
  rw [hphase] at hknown
  refine h.advance (fun x hx => hknown x (List.mem_cons_of_mem _ hx)) ?_
  intro x hx haccept
  rw [hphase] at hx
  rcases List.mem_cons.mp hx with rfl | hrest
  · refine (hexcuse haccept).imp_right ?_
    rintro ⟨q', hpending, hheader⟩
    exact ⟨q', hheader, .inl hpending⟩
  · refine .inr (retains_entry worker ?_)
    simpa [Settling.advance, Phase.entries] using hrest

/-- Enqueuing and a step of a worker that acknowledges nothing can be swapped. -/
theorem advance_enqueued {phase : Phase} {tunnelId : String} {header body : Bytes} :
    (s.advance worker phase []).enqueued tunnelId header body =
      (s.enqueued tunnelId header body).advance worker phase [] := by
  simp [advance, SettleQueue.ack, enqueued]

theorem Kept.recordOne (h : s.Kept chain) {bodyRead stored : Bool}
    (hphase : s.workers worker = .recording (((q, close), res) :: todo) toAck)
    (hsparing : s.Sparing chain (.record worker bodyRead stored)) :
    (s.recordOne worker bodyRead stored q close res todo toAck).Kept chain := by
  have hknown := h.known worker
  rw [hphase] at hknown
  obtain ⟨hparse, hreported⟩ := hknown _ List.mem_cons_self
  unfold Settling.recordOne
  match res, hreported with
  | .ok digest, hclosed =>
    have hkept := h.letGo hphase fun _ => .inl hclosed
    apply hkept.register
    intro _
    obtain ⟨_, ref, hparse', href, hmem⟩ := hclosed
    cases hparse.symm.trans hparse'
    obtain ⟨raw, hraw⟩ := exists_textOf_closeArgs hparse
    exact ⟨raw, ref, hraw, href, hmem⟩
  | .error (.rejected msg), hrejected =>
    exact h.letGo hphase fun haccept => .inl (hrejected haccept)
  | .error (.transient msg retryAfter), _ =>
    have hstored : stored = true := hsparing (by rw [hphase]; rfl)
    simp only [hstored, if_true, advance_enqueued]
    have hkept : ∀ body, (s.enqueued close.tunnelId q.header body).Kept chain :=
      fun _ => h.enqueued ⟨close, hparse, rfl⟩
    apply (hkept _).letGo hphase
    exact fun _ => .inr ⟨_, List.mem_append_right _ (List.mem_singleton_self _), rfl⟩

end Record

/-! ### Every step -/

theorem Kept.start : Settling.start.Kept chain where
  addressed _ hq := by cases hq
  registered _ hclosed := by cases hclosed
  known _ := trivial
  nothingLost _ hq := by cases hq

theorem Kept.step (h : s.Kept chain) {event : Event} {s' : Settling}
    (htruthful : s.Truthful chain event) (hsparing : s.Sparing chain event)
    (hstep : Settling.step chain s event = .ok s') : s'.Kept chain := by
  cases event with
  | request tunnelId body stored =>
    rcases settle_cases s.queue s.registry tunnelId body stored with
      ⟨_, _, _, hrefused⟩ | ⟨_, hparse, hsame, haccepted⟩
    · rw [Settling.step, hrefused] at hstep
      cases hstep
      exact h
    · rw [Settling.step, haccepted] at hstep
      cases hstep
      apply h.enqueued
      obtain ⟨ca, hca, htunnel⟩ := exists_closeArgs (parseSettleBody_take hparse)
      exact ⟨ca, hca, by rw [htunnel]; exact hsame⟩
  | claim _ max =>
    simp only [Settling.step] at hstep
    split at hstep
    · rename_i hphase
      split at hstep
      · rename_i hclaimed
        cases hstep
        apply h.claim hphase
        · split
          · rename_i hnone
            exact (List.isEmpty_iff.mp hnone).symm
          · exact List.append_nil _
        · split
          · trivial
          · exact ⟨by simp, fun q hq => h.addressed q (List.mem_of_mem_take hq),
              hsparing hclaimed, by simp⟩
      · cases hstep
        exact h
    · cases hstep
  | prepare =>
    simp only [Settling.step] at hstep
    split at hstep
    · rename_i hphase
      cases hstep
      exact h.prepareOne hphase hsparing
    · cases hstep
  | submit worker =>
    simp only [Settling.step] at hstep
    split at hstep
    · next seen work hphase =>
        cases work with
        | nil =>
          cases hstep
          exact h.advance_keeping trivial (by simp [hphase, Phase.entries])
        | cons p work =>
          cases hstep
          exact h.submit hphase (htruthful _ (by rw [hphase]; rfl))
    · cases hstep
  | record =>
    simp only [Settling.step] at hstep
    split at hstep
    · rename_i hphase
      cases hstep
      exact h.recordOne hphase hsparing
    · cases hstep
  | finish =>
    simp only [Settling.step] at hstep
    split at hstep
    · rename_i hphase
      cases hstep
      exact h.advance_keeping trivial (by simp [hphase, Phase.entries])
    · cases hstep
  | indexed tunnel =>
    simp only [Settling.step, returned] at hstep
    obtain ⟨hclosed, rfl⟩ := hstep
    apply h.register
    intro hstatus
    obtain ⟨id, hmem, hid⟩ := hclosed hstatus
    obtain ⟨ref, href, rfl⟩ := Option.map_eq_some_iff.mp hid
    exact ⟨tunnel, ref, rfl, href, hmem⟩
  | closedOnChain =>
    cases hstep
    exact h.closed_mono fun id hid => List.mem_cons_of_mem _ hid

/-- In every interleaving of requests and drains whose claims crowd nothing out, whose failing
acknowledgements end no drain that has something to lose and whose rate-limited settlements are
enqueued again, no settlement is lost. -/
theorem sparing_runs_lose_nothing (chain : Chain) {history : List Event} {s : Settling}
    (hrun : (sparingSystem chain).Run history s) : s.NothingLost chain := by
  have hkept : s.Kept chain := by
    apply hrun.invariant (I := fun _ s => s.Kept chain)
    · rintro _ _ ⟨-, rfl⟩
      exact Kept.start
    · intro _ before event after _ hbefore hstep
      simp only [sparingSystem, System.accepting, returned] at hstep
      obtain ⟨htruthful, hsparing, hnext⟩ := hstep
      exact hbefore.step htruthful hsparing hnext
  exact hkept.nothingLost

/-- A settlement is rate-limited, goes through the queue once more, and lands. -/
def retried : List Event :=
  [.request (textOf (Bytes32.fill 1)) (bodyOf 1) true, .claim 0 8 true, .prepare 0 true,
    .submit 0 [.error (.transient "busy" none)] [], .record 0 true true, .finish 0 true,
    .claim 1 8 true, .prepare 1 true]

theorem sparing_runs_lose_nothing_retried :
    ∃ s, (sparingSystem oneTunnel).Run retried s ∧ s.closed = [] ∧ s.queue.pending = [] ∧
      oneTunnel.Acceptable (bodyOf 1) ∧ s.NothingLost oneTunnel := by
  obtain ⟨s, hrun, hfacts⟩ :
      ∃ s, (sparingSystem oneTunnel).Run retried s ∧ (s.closed, s.queue.pending) = ([], []) :=
    System.exists_run_of_replay (by decide +kernel)
  obtain ⟨hclosed, hpending⟩ := Prod.mk.inj hfacts
  exact ⟨s, hrun, hclosed, hpending, by decide +kernel, sparing_runs_lose_nothing oneTunnel hrun⟩

/-! ### Runs that lose a settlement -/

/-- What an event of one worker does leaves the others where they are. -/
theorem workers_step {worker : Nat} {event : Event} {s' : Settling}
    (hother : event.worker ≠ some worker) (hstep : Settling.step chain s event = .ok s') :
    s'.workers worker = s.workers worker := by
  have hmoved : ∀ {w : Nat} (phase : Phase), some w ≠ some worker →
      Function.update s.workers w phase worker = s.workers worker :=
    fun phase hne => Function.update_of_ne (fun hsame => hne (congrArg some hsame.symm)) _ _
  cases event with
  | request =>
    simp only [Settling.step] at hstep
    split at hstep <;> cases hstep <;> rfl
  | claim =>
    simp only [Settling.step] at hstep
    split at hstep
    · split at hstep <;> cases hstep
      · exact hmoved _ hother
      · rfl
    · cases hstep
  | prepare =>
    simp only [Settling.step] at hstep
    split at hstep
    · cases hstep
      simp only [Settling.prepareOne]
      repeat' split
      all_goals exact hmoved _ hother
    · cases hstep
  | submit =>
    simp only [Settling.step] at hstep
    split at hstep
    · split at hstep <;> cases hstep <;> exact hmoved _ hother
    · cases hstep
  | record =>
    simp only [Settling.step] at hstep
    split at hstep
    · cases hstep
      simp only [Settling.recordOne]
      repeat' split
      all_goals exact hmoved _ hother
    · cases hstep
  | finish =>
    simp only [Settling.step] at hstep
    split at hstep
    · cases hstep
      exact hmoved _ hother
    · cases hstep
  | indexed =>
    simp only [Settling.step, returned] at hstep
    obtain ⟨-, rfl⟩ := hstep
    rfl
  | closedOnChain =>
    cases hstep
    rfl

/-- One worker drains, and at the end nothing is in the queue or with it. -/
theorem lost_of_run {history : List Event} {q : QueuedSettle}
    (hrun : (system chain).Run history s)
    (hevents : ∀ event ∈ history, event.worker = none ∨ event.worker = some 0)
    (hpending : s.queue.pending = []) (hentries : (s.workers 0).entries = []) (hq : q ∈ s.log)
    (haccept : chain.Acceptable q.header) (hopen : ¬chain.TunnelClosed s.closed q.header) :
    ¬s.NothingLost chain := by
  have hidle : ∀ worker ≠ 0, s.workers worker = .idle := by
    intro worker hworker
    revert hevents
    apply hrun.invariant (I := fun history s =>
      (∀ event ∈ history, event.worker = none ∨ event.worker = some 0) → s.workers worker = .idle)
    · rintro _ _ ⟨-, rfl⟩ -
      rfl
    · intro _ before event after _ hbefore hstep hevents
      simp only [system, System.accepting, returned] at hstep
      have hother : event.worker ≠ some worker := by
        intro hsame
        rcases hevents event (by simp) with hnone | hzero
        · rw [hnone] at hsame
          cases hsame
        · rw [hzero] at hsame
          exact hworker (Option.some.inj hsame).symm
      rw [workers_step hother hstep.2]
      exact hbefore fun event hevent => hevents event (List.mem_append_left _ hevent)
  intro hnothing
  rcases hnothing q hq haccept with hclosed | ⟨q', -, hq' | ⟨worker, hq'⟩⟩
  · exact hopen hclosed
  · rw [hpending] at hq'
    cases hq'
  · by_cases hworker : worker = 0
    · rw [hworker, hentries] at hq'
      cases hq'
    · rw [hidle worker hworker] at hq'
      cases hq'

/-- Garbage for the same tunnel is claimed ahead of a settlement: the settlement is dropped as
its duplicate, and the garbage is rejected. -/
def crowdedOut : List Event :=
  [.request (textOf (Bytes32.fill 1)) (bodyOf 2) true,
    .request (textOf (Bytes32.fill 1)) (bodyOf 1) true, .claim 0 8 true, .prepare 0 true,
    .prepare 0 true, .submit 0 [.error (.rejected "abort")] [], .record 0 true true,
    .finish 0 true]

/-- A settlement is rate-limited, and enqueuing it again fails. -/
def notRequeued : List Event :=
  [.request (textOf (Bytes32.fill 1)) (bodyOf 1) true, .claim 0 8 true, .prepare 0 true,
    .submit 0 [.error (.transient "busy" none)] [], .record 0 true false, .finish 0 true]

/-- A settlement is sent twice, and acknowledging the second entry fails. -/
def notAcknowledged : List Event :=
  [.request (textOf (Bytes32.fill 1)) (bodyOf 1) true,
    .request (textOf (Bytes32.fill 1)) (bodyOf 1) true, .claim 0 8 true, .prepare 0 true,
    .prepare 0 false]

theorem settlement_acknowledged_away :
    (∃ s, (system oneTunnel).Run crowdedOut s ∧ ¬s.NothingLost oneTunnel) ∧
      (∃ s, (system oneTunnel).Run notRequeued s ∧ ¬s.NothingLost oneTunnel) ∧
      ∃ s, (system oneTunnel).Run notAcknowledged s ∧ ¬s.NothingLost oneTunnel := by
  have hlost : ∀ {events : List Event},
      (∀ event ∈ events, event.worker = none ∨ event.worker = some 0) →
      (∃ s, (system oneTunnel).Run events s ∧ (s.queue.pending, (s.workers 0).entries,
        s.log.any fun q => decide (oneTunnel.Acceptable q.header ∧
          ¬oneTunnel.TunnelClosed s.closed q.header)) = ([], [], true)) →
      ∃ s, (system oneTunnel).Run events s ∧ ¬s.NothingLost oneTunnel := by
    rintro events hevents ⟨s, hrun, hfacts⟩
    simp only [Prod.mk.injEq, List.any_eq_true, decide_eq_true_eq] at hfacts
    obtain ⟨hpending, hentries, q, hq, haccept, hopen⟩ := hfacts
    exact ⟨s, hrun, lost_of_run hrun hevents hpending hentries hq haccept hopen⟩
  refine ⟨hlost (by decide) (System.exists_run_of_replay ?_),
    hlost (by decide) (System.exists_run_of_replay ?_),
    hlost (by decide) (System.exists_run_of_replay ?_)⟩ <;> decide +kernel

end Settling

end DopamintArena.Backend
