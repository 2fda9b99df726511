import DopamintArena.Backend.SettleWorker

/-!
Whether a tunnel can be submitted twice. The handler compares the id in the path
with the one in the body up to spelling, but it is the text of the path that
goes into the queue, is compared within a claim and is looked up in the
registry, while a close is recorded under the id of the body. Where every path
is spelled as the body has it, the two texts are the same.

Requests come in at any time; the drains follow each other, as one worker runs
them.
-/

namespace DopamintArena.Backend

open Foundation

/-- The entry goes by the id that its header names. -/
def QueuedSettle.Spelled (q : QueuedSettle) : Prop :=
  ∀ ca, closeArgsFromSettleHeader q.header = .ok ca → ca.tunnelId = q.tunnelId

/-- A close that was read off its entry's header, under the entry's own id. -/
def ReadOff (p : QueuedSettle × CloseArgs) : Prop :=
  closeArgsFromSettleHeader p.1.header = .ok p.2 ∧ p.2.tunnelId = p.1.tunnelId

namespace Settling

/-- A request, or a call of the one worker's drains. -/
def InSequence : Event → Prop
  | .request _ _ _ => True
  | .claim worker _ _ | .prepare worker _ | .submit worker _ _ | .record worker _ _
  | .finish worker _ => worker = 0
  | .indexed _ _ => False
  | .closedOnChain _ => True

instance : DecidablePred InSequence
  | .request .. | .closedOnChain .. => inferInstanceAs (Decidable True)
  | .claim .. | .prepare .. | .submit .. | .record .. | .finish .. =>
    inferInstanceAs (Decidable (_ = _))
  | .indexed .. => inferInstanceAs (Decidable False)

/-- The request's path spells the tunnel id as the header in its body is read. -/
def PathSpelled : Event → Prop
  | .request tunnelId body _ => (parseSettleBody body).map SettleBody.tunnelId = .ok tunnelId ∨
      (parseSettleBody body).isOk = false
  | _ => True

instance : DecidablePred PathSpelled
  | .request .. => inferInstanceAs (Decidable (_ ∨ _))
  | .claim .. | .prepare .. | .submit .. | .record .. | .finish .. | .indexed ..
  | .closedOnChain .. => inferInstanceAs (Decidable True)

/-- A drain that is about to submit has no two closes of one tunnel and none of a tunnel
recorded as closed. -/
def SettlesOnce (s : Settling) : Prop :=
  ∀ worker seen work, s.workers worker = .preparing [] seen work →
    (work.map fun p => p.2.tunnelId).Nodup ∧
      ∀ p ∈ work, s.registry p.2.tunnelId ≠ some .closed

/-- Every sequence of requests and drains. -/
def sequenceSystem (chain : Chain) : System Settling Event :=
  .accepting (fun s event => do
    require (InSequence event) "drains follow each other"
    step chain s event) start

/-- The sequences in which every path is spelled as the body has it. -/
def spelledSystem (chain : Chain) : System Settling Event :=
  .accepting (fun s event => do
    require (InSequence event) "drains follow each other"
    require (PathSpelled event) "another spelling of the tunnel id"
    step chain s event) start

/-- A drain goes by the ids of the headers. What it has prepared are different tunnels, all of
them seen and none recorded as closed. -/
def PhaseSpelled (registry : Registry) : Phase → Prop
  | .idle => True
  | .preparing todo seen work =>
    (∀ q ∈ todo, q.Spelled) ∧ (∀ p ∈ work, ReadOff p) ∧
      (work.map fun p => p.2.tunnelId).Nodup ∧
      ∀ p ∈ work, p.2.tunnelId ∈ seen ∧ registry p.2.tunnelId ≠ some .closed
  | .recording todo _ => ∀ x ∈ todo, ReadOff x.1

structure Spelled (s : Settling) : Prop where
  pending : ∀ q ∈ s.queue.pending, q.Spelled
  alone : ∀ worker, worker ≠ 0 → s.workers worker = .idle
  phase : PhaseSpelled s.registry (s.workers 0)

theorem Spelled.settlesOnce {s : Settling} (h : s.Spelled) : s.SettlesOnce := by
  intro worker seen work hworker
  rcases eq_or_ne worker 0 with rfl | hother
  · have hphase := h.phase
    rw [hworker] at hphase
    obtain ⟨-, -, hnodup, hseen⟩ := hphase
    exact ⟨hnodup, fun p hp => (hseen p hp).2⟩
  · rw [h.alone worker hother] at hworker
    cases hworker

section

variable {s s' : Settling} {chain : Chain}

section

variable (h : s.Spelled)
include h

theorem Spelled.enqueued {tunnelId : String} {header body : Bytes}
    (hentry : ∀ ca, closeArgsFromSettleHeader header = .ok ca → ca.tunnelId = tunnelId) :
    (s.enqueued tunnelId header body).Spelled := by
  refine ⟨?_, h.alone, h.phase⟩
  intro q hq
  rcases List.mem_append.mp hq with hq | hq
  · exact h.pending q hq
  · rw [List.mem_singleton.mp hq]
    exact hentry

theorem Spelled.advance {phase : Phase} {acked : List Nat}
    (hphase : PhaseSpelled s.registry phase) : (s.advance 0 phase acked).Spelled := by
  refine ⟨h.pending, ?_, ?_⟩
  · intro worker hworker
    simpa [Settling.advance, Function.update_of_ne hworker] using h.alone worker hworker
  · simpa [Settling.advance] using hphase

theorem Spelled.request {tunnelId : String} {body : Bytes} {stored : Bool}
    (hpath : PathSpelled (.request tunnelId body stored))
    (hstep : step chain s (.request tunnelId body stored) = .ok s') : s'.Spelled := by
  simp only [step] at hstep
  rcases settle_cases s.queue s.registry tunnelId body stored with
    ⟨_, _, _, hsettle⟩ | ⟨_, hparse, -, hsettle⟩
  · rw [hsettle] at hstep
    cases hstep
    exact h
  · rw [hsettle] at hstep
    cases hstep
    apply h.enqueued
    intro ca hca
    obtain ⟨_, hca', hid⟩ := exists_closeArgs (parseSettleBody_take hparse)
    cases hca.symm.trans hca'
    rw [hid]
    simpa [PathSpelled, hparse, Except.map, Except.isOk, Except.toBool] using hpath

theorem Spelled.claim {max : Nat} {claimed : Bool}
    (hstep : step chain s (.claim 0 max claimed) = .ok s') : s'.Spelled := by
  simp only [step] at hstep
  split at hstep
  · split at hstep
    · cases hstep
      refine ⟨fun q hq => h.pending q (List.mem_of_mem_drop hq), ?_, ?_⟩
      · intro worker hworker
        simpa [Function.update_of_ne hworker] using h.alone worker hworker
      · simp only [Function.update_self]
        split
        · trivial
        · refine ⟨fun q hq => h.pending q (List.mem_of_mem_take hq), ?_, List.nodup_nil, ?_⟩ <;>
            simp
    · cases hstep
      exact h
  · cases hstep

/-- One entry more: its tunnel was not seen, and the registry does not show it closed. -/
theorem Spelled.prepare {acked : Bool} (hstep : step chain s (.prepare 0 acked) = .ok s') :
    s'.Spelled := by
  simp only [step] at hstep
  split at hstep
  · next q todo seen work hworker =>
      cases hstep
      have hphase := h.phase
      rw [hworker] at hphase
      obtain ⟨htodo, hread, hnodup, hseen⟩ := hphase
      have htodo' : ∀ r ∈ todo, r.Spelled := fun r hr => htodo r (List.mem_cons_of_mem _ hr)
      have hskip : PhaseSpelled s.registry (.preparing todo (q.tunnelId :: seen) work) :=
        ⟨htodo', hread, hnodup,
          fun p hp => ⟨List.mem_cons_of_mem _ (hseen p hp).1, (hseen p hp).2⟩⟩
      simp only [prepareOne]
      split
      · split
        · exact h.advance hskip
        · exact h.advance trivial
      · next hfresh =>
          rw [not_or] at hfresh
          split
          · next ca hca =>
              have hid : ca.tunnelId = q.tunnelId := htodo q List.mem_cons_self ca hca
              apply h.advance
              refine ⟨htodo', ?_, ?_, ?_⟩
              · intro p hp
                rcases List.mem_append.mp hp with hp | hp
                · exact hread p hp
                · rw [List.mem_singleton.mp hp]
                  exact ⟨hca, hid⟩
              · rw [List.map_append, List.nodup_append]
                refine ⟨hnodup, List.nodup_singleton _, ?_⟩
                intro text htext other hother
                obtain ⟨p, hp, rfl⟩ := List.mem_map.mp htext
                rw [List.map_singleton, List.mem_singleton, hid] at hother
                rw [hother]
                intro hsame
                exact hfresh.1 (hsame ▸ (hseen p hp).1)
              · intro p hp
                rcases List.mem_append.mp hp with hp | hp
                · exact hskip.2.2.2 p hp
                · rw [List.mem_singleton.mp hp, hid]
                  exact ⟨List.mem_cons_self, hfresh.2⟩
          · split
            · exact h.advance hskip
            · exact h.advance trivial
  · cases hstep

theorem Spelled.submit {results : List CloseResult} {after : List Bytes32}
    (hstep : step chain s (.submit 0 results after) = .ok s') : s'.Spelled := by
  simp only [step] at hstep
  split at hstep
  · next seen work hworker =>
      have hphase := h.phase
      rw [hworker] at hphase
      split at hstep
      · cases hstep
        exact h.advance trivial
      · cases hstep
        have hadvanced : (s.advance 0 (.recording (work.zip results) []) []).Spelled :=
          h.advance fun x hx => hphase.2.1 x.1 (List.of_mem_zip hx).1
        exact ⟨hadvanced.pending, hadvanced.alone, hadvanced.phase⟩
  · cases hstep

theorem Spelled.record {bodyRead stored : Bool}
    (hstep : step chain s (.record 0 bodyRead stored) = .ok s') : s'.Spelled := by
  simp only [step] at hstep
  split at hstep
  · next q close res todo toAck hworker =>
      cases hstep
      have hphase := h.phase
      rw [hworker] at hphase
      have hread := hphase _ List.mem_cons_self
      have hnext : (s.advance 0 (.recording todo (toAck ++ [q.id])) []).Spelled :=
        h.advance fun x hx => hphase x (List.mem_cons_of_mem _ hx)
      simp only [recordOne]
      split
      · exact ⟨hnext.pending, hnext.alone, by
          simpa [Settling.advance, PhaseSpelled] using fun x hx =>
            hphase x (List.mem_cons_of_mem _ hx)⟩
      · exact hnext
      · split
        · apply hnext.enqueued
          intro ca hca
          cases hca.symm.trans hread.1
          rfl
        · exact hnext
  · cases hstep

theorem Spelled.step {event : Event} (hseq : InSequence event) (hpath : PathSpelled event)
    (hstep : step chain s event = .ok s') : s'.Spelled := by
  cases event with
  | request => exact h.request hpath hstep
  | claim =>
    cases hseq
    exact h.claim hstep
  | prepare =>
    cases hseq
    exact h.prepare hstep
  | submit =>
    cases hseq
    exact h.submit hstep
  | record =>
    cases hseq
    exact h.record hstep
  | finish =>
    cases hseq
    simp only [Settling.step] at hstep
    split at hstep
    · cases hstep
      exact h.advance trivial
    · cases hstep
  | indexed => exact hseq.elim
  | closedOnChain =>
    cases hstep
    exact ⟨h.pending, h.alone, h.phase⟩

end

end

/-- In a sequence of requests and drains whose paths are all spelled as the bodies have it, no
drain submits two closes of one tunnel or a close of a tunnel it has recorded as closed. -/
theorem spelled_runs_settle_once {chain : Chain} {history : List Event} {s : Settling}
    (hrun : (spelledSystem chain).Run history s) : s.SettlesOnce := by
  have hspelled : s.Spelled := by
    apply hrun.invariant (I := fun _ s => s.Spelled)
    · rintro _ _ ⟨-, rfl⟩
      exact ⟨by rintro _ ⟨⟩, fun _ _ => rfl, trivial⟩
    · intro _ before event after _ hbefore hstep
      simp only [spelledSystem, System.accepting, returned]
        at hstep
      exact hbefore.step hstep.1 hstep.2.1 hstep.2.2
  exact hspelled.settlesOnce

/-- One tunnel is asked for twice in one spelling; the second entry is dropped. -/
def askedTwice : List Event :=
  [.request (textOf (Bytes32.fill 1)) (bodyOf 1) true,
    .request (textOf (Bytes32.fill 1)) (bodyOf 1) true, .claim 0 8 true, .prepare 0 true,
    .prepare 0 true]

theorem spelled_runs_settle_once_asked_twice : ∃ s, (spelledSystem oneTunnel).Run askedTwice s ∧
    s.log.length = 2 ∧ s.SettlesOnce := by
  obtain ⟨s, hrun, hlog⟩ :
      ∃ s, (spelledSystem oneTunnel).Run askedTwice s ∧ s.log.length = 2 :=
    System.exists_run_of_replay (by decide +kernel)
  exact ⟨s, hrun, hlog, spelled_runs_settle_once hrun⟩

/-- The text of the id without its mark. -/
def unmarked (id : Bytes32) : String := Engine.toHex id.bytes

/-- One tunnel is asked for in two spellings, and both are claimed at once. -/
def twoSpellings : List Event :=
  [.request (textOf (Bytes32.fill 1)) (bodyOf 1) true,
    .request (unmarked (Bytes32.fill 1)) (bodyOf 1) true, .claim 0 8 true, .prepare 0 true,
    .prepare 0 true]

/-- A tunnel that was settled and recorded as closed is asked for in another spelling. -/
def settledAgain : List Event :=
  [.request (textOf (Bytes32.fill 1)) (bodyOf 1) true, .claim 0 8 true, .prepare 0 true,
    .submit 0 [.ok "digest"] [Bytes32.fill 1], .record 0 true true, .finish 0 true,
    .request (unmarked (Bytes32.fill 1)) (bodyOf 1) true, .claim 0 8 true, .prepare 0 true]

/-- The closes the worker is about to submit, and whether their tunnels are recorded as
closed. -/
def aboutToSubmit (s : Settling) : Option (List (String × Bool)) :=
  match s.workers 0 with
  | .preparing [] _ work => some (work.map fun p =>
    (p.2.tunnelId, s.registry p.2.tunnelId = some .closed))
  | _ => none

theorem two_spellings_settle_twice :
    (∃ s, (sequenceSystem oneTunnel).Run twoSpellings s ∧
      s.aboutToSubmit = some [(textOf (Bytes32.fill 1), false), (textOf (Bytes32.fill 1), false)] ∧
      ¬s.SettlesOnce) ∧
    ∃ s, (sequenceSystem oneTunnel).Run settledAgain s ∧
      s.aboutToSubmit = some [(textOf (Bytes32.fill 1), true)] ∧ ¬s.SettlesOnce := by
  have hclash : ∀ (s : Settling) closes, s.aboutToSubmit = some closes →
      (¬(closes.map Prod.fst).Nodup ∨ ∃ p ∈ closes, p.2 = true) → ¬s.SettlesOnce := by
    intro s closes hclosing hbad honce
    simp only [aboutToSubmit] at hclosing
    split at hclosing
    · next seen work hworker =>
        cases hclosing
        obtain ⟨hnodup, hopen⟩ := honce 0 seen work hworker
        rcases hbad with hbad | ⟨p, hp, hclosed⟩
        · rw [List.map_map] at hbad
          exact hbad hnodup
        · obtain ⟨q, hq, rfl⟩ := List.mem_map.mp hp
          exact hopen q hq (of_decide_eq_true hclosed)
    · cases hclosing
  constructor
  · obtain ⟨s, hrun, hclosing⟩ : ∃ s, (sequenceSystem oneTunnel).Run twoSpellings s ∧
        s.aboutToSubmit =
          some [(textOf (Bytes32.fill 1), false), (textOf (Bytes32.fill 1), false)] :=
      System.exists_run_of_replay (by decide +kernel)
    exact ⟨s, hrun, hclosing, hclash s _ hclosing (.inl (by simp))⟩
  · obtain ⟨s, hrun, hclosing⟩ : ∃ s, (sequenceSystem oneTunnel).Run settledAgain s ∧
        s.aboutToSubmit = some [(textOf (Bytes32.fill 1), true)] :=
      System.exists_run_of_replay (by decide +kernel)
    exact ⟨s, hrun, hclosing, hclash s _ hclosing (.inr (by simp))⟩

end Settling

end DopamintArena.Backend
