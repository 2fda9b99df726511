import DopamintArena.Foundation.Bisection
import DopamintArena.Foundation.Bytes
import DopamintArena.Foundation.Outcome

/-!
`settle_batch.rs`: a batch of closes goes out as one transaction, and a rejected
batch is halved and retried. Work items are sets of positions on a stack, so the
right half is submitted first; the state that `submit` works on is threaded
through. A rate limit is not retried.

The loop is a run of `Bisection`: it ends within its fuel, resolves every
position and never panics by itself.
-/

namespace DopamintArena.Backend

open Foundation

structure CloseArgs where
  tunnelId : String
  partyABalance : UInt64
  partyBBalance : UInt64
  sigA : Bytes
  sigB : Bytes
  timestamp : UInt64
  transcriptRoot : Bytes
deriving DecidableEq

/-- Whether the client should retry: a rate limit, or a settlement that is itself bad. -/
inductive CloseError
  | transient (msg : String) (retryAfter : Option UInt64)
  | rejected (msg : String)
deriving DecidableEq

abbrev CloseResult := Except CloseError String

section Split

variable {σ : Type} (closes : List CloseArgs) (maxDepth : Nat)
  (submit : σ → List CloseArgs → Except String (CloseResult × σ))

abbrev Position := Fin closes.length

/-- `out[i] = Some(result)` for every `i` of the work item. -/
def fill (out : Position closes → Option CloseResult) (idxs : List (Position closes))
    (result : CloseResult) : Position closes → Option CloseResult :=
  fun i => if i ∈ idxs then some result else out i

/-- `while let Some((idxs, depth)) = stack.pop()`. -/
def splitLoop : (fuel : Nat) → List (List (Position closes) × Nat) →
    (Position closes → Option CloseResult) → σ →
    Except String ((Position closes → Option CloseResult) × σ)
  | 0, _, out, s => pure (out, s)
  | _ + 1, [], out, s => pure (out, s)
  | fuel + 1, (idxs, depth) :: stack, out, s =>
    if idxs.isEmpty then splitLoop fuel stack out s
    else do
      let sub := idxs.map closes.get
      match ← submit s sub with
      | (.ok digest, s) => splitLoop fuel stack (fill closes out idxs (.ok digest)) s
      | (.error (.transient msg retryAfter), s) =>
        splitLoop fuel stack (fill closes out idxs (.error (.transient msg retryAfter))) s
      | (.error (.rejected msg), s) =>
        if idxs.length = 1 ∨ depth ≥ maxDepth then
          splitLoop fuel stack (fill closes out idxs (.error (.rejected msg))) s
        else
          let mid := idxs.length / 2
          splitLoop fuel ((idxs.drop mid, depth + 1) :: (idxs.take mid, depth + 1) :: stack)
            out s

/-- A batch of `n` closes has at most `2 * n` work items. -/
def splitSubmit (s : σ) : Except String (List CloseResult × σ) := do
  let (out, s) ← splitLoop closes maxDepth submit (2 * closes.length + 1)
    [(List.finRange closes.length, 0)] (fun _ => none) s
  let results ← (List.finRange closes.length).mapM fun i =>
    match out i with
    | some result => .ok result
    | none => .error "every index is resolved before return"
  pure (results, s)

end Split

section Runs

open Bisection (Trial Run)

variable {σ : Type} {closes : List CloseArgs} {maxDepth : Nat}
variable {out : Position closes → Option CloseResult}
variable {results : List (Position closes × CloseResult)} {i : Position closes}

/-- What the loop does with the result of one submission. -/
def trialOf (attempt : σ → List CloseArgs → CloseResult × σ) (s : σ)
    (idxs : List (Position closes)) : Trial CloseResult × σ :=
  match attempt s (idxs.map closes.get) with
  | (.error (.rejected msg), s) => (.halve (.error (.rejected msg)), s)
  | (result, s) => (.final result, s)

/-- The slots after outcomes were written one by one. -/
def assign (out : Position closes → Option CloseResult)
    (results : List (Position closes × CloseResult)) : Position closes → Option CloseResult :=
  fun i => results.foldl (fun slot p => if p.1 = i then some p.2 else slot) (out i)

theorem assign_append (out : Position closes → Option CloseResult)
    (first second : List (Position closes × CloseResult)) :
    assign out (first ++ second) = assign (assign out first) second := by
  funext i
  simp [assign]

theorem fill_eq (out : Position closes → Option CloseResult) (idxs : List (Position closes))
    (result : CloseResult) :
    fill closes out idxs result = assign out (idxs.map (·, result)) := by
  funext i
  induction idxs using List.reverseRecOn with
  | nil => simp [fill, assign]
  | append_singleton _ j ih =>
    simp only [fill, assign, List.map_append, List.foldl_append, List.map_cons, List.map_nil,
      List.foldl_cons, List.foldl_nil, List.mem_append, List.mem_singleton] at ih ⊢
    by_cases hj : j = i
    · simp [hj]
    · rw [if_neg hj, ← ih]
      simp [Ne.symm hj]

theorem assign_of_not_mem (h : i ∉ results.map Prod.fst) : assign out results i = out i := by
  induction results using List.reverseRecOn with
  | nil => rfl
  | append_singleton _ _ ih =>
    simp only [List.map_append, List.mem_append, List.map_cons, List.map_nil,
      List.mem_singleton, not_or] at h
    rw [assign_append]
    simp only [assign, List.foldl_cons, List.foldl_nil, if_neg (Ne.symm h.2)]
    exact ih h.1

theorem assign_of_mem (hkeys : (results.map Prod.fst).Nodup) {result : CloseResult}
    (h : (i, result) ∈ results) :
    assign out results i = some result := by
  obtain ⟨before, after, rfl⟩ := List.append_of_mem h
  have hafter : i ∉ after.map Prod.fst := by
    rw [List.map_append, List.map_cons] at hkeys
    exact (List.nodup_cons.mp (List.nodup_append.mp hkeys).2.1).1
  have hcons : before ++ (i, result) :: after = (before ++ [(i, result)]) ++ after := by simp
  rw [hcons, assign_append, assign_of_not_mem hafter, assign_append]
  simp [assign]

variable {submit : σ → List CloseArgs → Except String (CloseResult × σ)}
  {attempt : σ → List CloseArgs → CloseResult × σ}

section Steps

variable {idxs : List (Position closes)} {s s' : σ} {result : CloseResult} {depth : Nat}

variable (hsubmit : submit s (idxs.map closes.get) = .ok (attempt s (idxs.map closes.get)))
include hsubmit

/-- The three things that become of a work item. -/
theorem splitLoop_final
    (hidxs : idxs ≠ []) (htrial : trialOf attempt s idxs = (.final result, s')) (fuel : Nat)
    (stack : List (List (Position closes) × Nat)) (out : Position closes → Option CloseResult) :
    splitLoop closes maxDepth submit (fuel + 1) ((idxs, depth) :: stack) out s =
      splitLoop closes maxDepth submit fuel stack (fill closes out idxs result) s' := by
  rw [splitLoop, if_neg (by simpa using hidxs)]
  simp only [hsubmit, ok_bind]
  unfold trialOf at htrial
  split at htrial
  · cases htrial
  · rename_i hattempt hother
    cases htrial
    cases result with
    | ok => rw [hother]
    | error e =>
      cases e with
      | transient => rw [hother]
      | rejected msg => exact (hattempt msg rfl).elim

theorem splitLoop_rejected
    (hidxs : idxs ≠ []) (htrial : trialOf attempt s idxs = (.halve result, s')) (fuel : Nat)
    (stack : List (List (Position closes) × Nat)) (out : Position closes → Option CloseResult) :
    splitLoop closes maxDepth submit (fuel + 1) ((idxs, depth) :: stack) out s =
      if idxs.length = 1 ∨ depth ≥ maxDepth then
        splitLoop closes maxDepth submit fuel stack (fill closes out idxs result) s'
      else splitLoop closes maxDepth submit fuel ((idxs.drop (idxs.length / 2), depth + 1) ::
        (idxs.take (idxs.length / 2), depth + 1) :: stack) out s' := by
  rw [splitLoop, if_neg (by simpa using hidxs)]
  simp only [hsubmit, ok_bind]
  unfold trialOf at htrial
  split at htrial
  · rename_i hattempt
    cases htrial
    rw [hattempt]
  · cases htrial

end Steps

section

variable (hsubmit : ∀ s (idxs : List (Position closes)),
  submit s (idxs.map closes.get) = .ok (attempt s (idxs.map closes.get)))
include hsubmit

/-- Taking a work item off the stack is a run over its positions. -/
theorem splitLoop_run (levels : Nat)
    {depth : Nat} (hdepth : depth + levels = maxDepth) (idxs : List (Position closes)) (s : σ) :
    ∃ results s' cost, Run (trialOf attempt) levels idxs s results s' ∧
      cost ≤ 2 * idxs.length + 1 ∧ (idxs ≠ [] → cost ≤ 2 * idxs.length - 1) ∧
      ∀ fuel stack out, splitLoop closes maxDepth submit (fuel + cost) ((idxs, depth) :: stack)
        out s = splitLoop closes maxDepth submit fuel stack (assign out results) s' := by
  induction levels using Nat.strong_induction_on generalizing depth idxs s with
  | h levels ih =>
  by_cases hidxs : idxs = []
  · subst hidxs
    exact ⟨[], s, 1, .none, by simp, by simp, fun fuel stack out => rfl⟩
  have hpos := List.length_pos_iff.mpr hidxs
  cases htrial : trialOf attempt s idxs with
  | mk outcome s' =>
  cases outcome with
  | final =>
    refine ⟨_, s', 1, .final hidxs htrial, by omega, fun _ => by omega, ?_⟩
    intro fuel stack out
    rw [splitLoop_final (hsubmit s idxs) hidxs htrial, fill_eq]
  | halve =>
    by_cases hlast : levels = 0 ∨ idxs.length ≤ 1
    · refine ⟨_, s', 1, .last hidxs htrial hlast, by omega, fun _ => by omega, ?_⟩
      intro fuel stack out
      rw [splitLoop_rejected (hsubmit s idxs) hidxs htrial, if_pos (by omega), fill_eq]
    · obtain ⟨levels, rfl⟩ := Nat.exists_eq_succ_of_ne_zero fun hzero => hlast (.inl hzero)
      have hdepth' : depth + 1 + levels = maxDepth := by omega
      obtain ⟨right, s₁, costRight, hright, -, hcostRight, hloopRight⟩ :=
        ih levels (Nat.lt_succ_self _) hdepth' (idxs.drop (idxs.length / 2)) s'
      obtain ⟨left, s₂, costLeft, hleft, -, hcostLeft, hloopLeft⟩ :=
        ih levels (Nat.lt_succ_self _) hdepth' (idxs.take (idxs.length / 2)) s₁
      have hnonempty : idxs.drop (idxs.length / 2) ≠ [] ∧ idxs.take (idxs.length / 2) ≠ [] := by
        rw [← List.length_pos_iff, ← List.length_pos_iff, List.length_drop, List.length_take]
        omega
      have hcosts := And.intro (hcostRight hnonempty.1) (hcostLeft hnonempty.2)
      rw [List.length_drop, List.length_take] at hcosts
      refine ⟨right ++ left, s₂, costLeft + costRight + 1, .halve (by omega) htrial hright hleft,
        by omega, fun _ => by omega, ?_⟩
      intro fuel stack out
      have hfuel : fuel + (costLeft + costRight + 1) = fuel + costLeft + costRight + 1 := by omega
      rw [hfuel, splitLoop_rejected (hsubmit s idxs) hidxs htrial, if_neg (by omega),
        hloopRight, hloopLeft, assign_append]

/-- The result of every position, as a run over the whole batch attributes it. -/
theorem splitSubmit_run (s : σ) :
    ∃ (outcomes : List (Position closes × CloseResult)) (s' : σ)
      (result : Position closes → CloseResult),
      Run (trialOf attempt) maxDepth (List.finRange closes.length) s outcomes s' ∧
        (∀ i r, (i, r) ∈ outcomes ↔ result i = r) ∧
        splitSubmit closes maxDepth submit s =
          .ok ((List.finRange closes.length).map result, s') := by
  obtain ⟨outcomes, s', cost, hrun, hcost, -, hloop⟩ := splitLoop_run hsubmit maxDepth
    (Nat.zero_add maxDepth) (List.finRange closes.length) s
  have hkeys : (outcomes.map Prod.fst).Nodup :=
    hrun.members.nodup_iff.mpr (List.nodup_finRange _)
  have hresult : ∀ i, ∃ r, (i, r) ∈ outcomes := by
    intro i
    have hmem := hrun.members.mem_iff.mpr (List.mem_finRange i)
    obtain ⟨p, hp, hi⟩ := List.mem_map.mp hmem
    refine ⟨p.2, ?_⟩
    rw [← hi]
    exact hp
  choose result hresult using hresult
  have hout : ∀ i, assign (fun _ => none) outcomes i = some (result i) := fun i =>
    assign_of_mem hkeys (hresult i)
  refine ⟨outcomes, s', result, hrun, fun i r => ?_, ?_⟩
  · constructor
    · intro hmem
      exact Option.some.inj ((hout i).symm.trans (assign_of_mem hkeys hmem))
    · rintro rfl
      exact hresult i
  · rw [List.length_finRange] at hcost
    have hfuel : 2 * closes.length + 1 = 2 * closes.length + 1 - cost + cost := by omega
    have hmapM : (List.finRange closes.length).mapM (fun i =>
        match assign (fun _ => none) outcomes i with
        | some result => .ok result
        | none => .error "every index is resolved before return") =
        Except.ok ((List.finRange closes.length).map result) := by
      apply mapM_ok_of_forall
      intro i _
      rw [hout i]
    have hdone : ∀ fuel (out : Position closes → Option CloseResult),
        splitLoop closes maxDepth submit fuel [] out s' = .ok (out, s') := by
      intro fuel out
      cases fuel <;> rfl
    rw [splitSubmit, hfuel, hloop, hdone, ok_bind]
    simp only
    rw [hmapM]
    rfl

end

/-! ### Isolating the closes that are rejected -/

/-- The sub-batches submitted so far, and whether each was taken. -/
abbrev Submissions := List (List CloseArgs × Bool)

/-- `submit` with its submissions written down. -/
def logged (attempt : σ → List CloseArgs → CloseResult × σ) (s : σ × Submissions)
    (sub : List CloseArgs) : CloseResult × σ × Submissions :=
  let (result, after) := attempt s.1 sub
  (result, after, s.2 ++ [(sub, result.isOk)])

/-- The closes of the sub-batches that were taken. -/
def taken (log : Submissions) : List CloseArgs :=
  ((log.filter Prod.snd).map Prod.fst).flatten

/-- A result is a rejection exactly where the close is poison. -/
def CloseResult.Fits (poison : Bool) (result : CloseResult) : Prop :=
  if poison then ∃ msg, result = .error (.rejected msg) else ∃ digest, result = .ok digest

variable {poison : CloseArgs → Bool}

section

variable (hattempt : ∀ s sub, CloseResult.Fits (sub.any poison) (attempt s sub).1)
include hattempt

/-- A group with a poison is halved, any other is final. -/
theorem trialOf_logged {idxs : List (Position closes)} {trial : Bisection.Trial CloseResult}
    {s s' : σ × Submissions} (h : trialOf (logged attempt) s idxs = (trial, s')) :
    ((idxs.map closes.get).any poison = true ∧ (∃ msg, trial = .halve (.error (.rejected msg))) ∧
      s'.2 = s.2 ++ [(idxs.map closes.get, false)]) ∨
    ((idxs.map closes.get).any poison = false ∧ (∃ digest, trial = .final (.ok digest)) ∧
      s'.2 = s.2 ++ [(idxs.map closes.get, true)]) := by
  have hfits := hattempt s.1 (idxs.map closes.get)
  cases hany : (idxs.map closes.get).any poison with
  | true =>
    rw [hany] at hfits
    obtain ⟨msg, hresult⟩ := hfits
    simp only [trialOf, logged, hresult] at h
    cases h
    exact .inl ⟨rfl, ⟨msg, rfl⟩, rfl⟩
  | false =>
    rw [hany] at hfits
    obtain ⟨digest, hresult⟩ := hfits
    simp only [trialOf, logged, hresult] at h
    cases h
    exact .inr ⟨rfl, ⟨digest, rfl⟩, rfl⟩

/-- Enough levels isolate every poison. A poison costs two submissions for each halving. -/
theorem run_isolates {levels : Nat} {group : List (Position closes)} {s s' : σ × Submissions}
    (h : Run (trialOf (logged attempt)) levels group s results s')
    (hlevels : group.length ≤ 2 ^ levels) :
    (∀ p ∈ results, p.2.Fits (poison (closes.get p.1))) ∧ ∃ log, s'.2 = s.2 ++ log ∧
      (taken log).Perm ((group.map closes.get).filter fun close => !poison close) ∧
      log.length ≤ 1 + 2 * (group.map closes.get).countP poison * Nat.clog 2 group.length := by
  induction h with
  | none => exact ⟨by simp, [], by simp [taken]⟩
  | @final _ group s s' outcome hgroup htrial =>
    obtain ⟨-, ⟨_, ⟨⟩⟩, -⟩ | ⟨hclean, ⟨digest, ⟨⟩⟩, hlog⟩ := trialOf_logged hattempt htrial
    have hgood : ∀ close ∈ group.map closes.get, poison close = false := by
      simpa using hclean
    refine ⟨?_, [(group.map closes.get, true)], hlog, ?_, by simp⟩
    · intro p hp
      obtain ⟨i, hi, rfl⟩ := List.mem_map.mp hp
      rw [hgood _ (List.mem_map_of_mem hi)]
      exact ⟨digest, rfl⟩
    · rw [List.filter_eq_self.mpr fun close hclose => by rw [hgood close hclose]; rfl]
      simp [taken]
  | @last levels group s s' outcome hgroup htrial hend =>
    obtain ⟨hany, ⟨msg, ⟨⟩⟩, hlog⟩ | ⟨-, ⟨_, ⟨⟩⟩, -⟩ := trialOf_logged hattempt htrial
    obtain ⟨i, rfl⟩ : ∃ i, group = [i] := by
      have hpos := List.length_pos_iff.mpr hgroup
      apply List.length_eq_one_iff.mp
      rcases hend with rfl | hone <;> omega
    have hpoison : poison (closes.get i) = true := by simpa using hany
    refine ⟨?_, [([closes.get i], false)], hlog, ?_, by simp⟩
    · simp only [List.map_cons, List.map_nil, List.mem_singleton, forall_eq, hpoison]
      exact ⟨msg, rfl⟩
    · simpa [taken] using hpoison
  | @halve levels group s s' s₁ s₂ outcome right left hlong htrial _ _ ihright ihleft =>
    obtain ⟨hany, -, hlog⟩ | ⟨-, ⟨_, ⟨⟩⟩, -⟩ := trialOf_logged hattempt htrial
    rw [pow_succ] at hlevels
    obtain ⟨hright, log, hlogRight, hperm, hcount⟩ := ihright (by rw [List.length_drop]; omega)
    obtain ⟨hleft, log', hlogLeft, hperm', hcount'⟩ := ihleft (by rw [List.length_take]; omega)
    have hparts : group.map closes.get = (group.take (group.length / 2)).map closes.get ++
        (group.drop (group.length / 2)).map closes.get := by
      rw [← List.map_append, List.take_append_drop]
    refine ⟨?_, (group.map closes.get, false) :: (log ++ log'),
      by simp [hlog, hlogRight, hlogLeft], ?_, ?_⟩
    · intro p hp
      rcases List.mem_append.mp hp with hp | hp
      · exact hright p hp
      · exact hleft p hp
    · rw [hparts, List.filter_append]
      refine List.Perm.trans ?_ (List.perm_append_comm.trans (hperm'.append hperm))
      simp [taken]
    · have hpoison : 0 < (group.map closes.get).countP poison := by
        rw [List.countP_pos_iff]
        simpa using hany
      have hclog := Nat.clog_of_two_le (le_refl 2) (show 2 ≤ group.length from hlong)
      have hmono : Nat.clog 2 (group.length / 2) ≤ Nat.clog 2 ((group.length + 2 - 1) / 2) :=
        Nat.clog_mono_right 2 (by omega)
      have hhalf : group.length - group.length / 2 = (group.length + 2 - 1) / 2 := by omega
      rw [hparts, List.countP_append] at hpoison ⊢
      rw [List.length_drop, hhalf] at hcount
      rw [List.length_take, Nat.min_eq_left (Nat.div_le_self _ _)] at hcount'
      rw [hclog, List.length_cons, List.length_append]
      nlinarith

end

/-- If `submit` rejects exactly the sub-batches with a poison and takes the others, and the
depth suffices for single closes, every close gets its own result, in order: the rejections are
those of the poisons. Every other close is taken once, and `p` poisons among `n` closes cost at
most `1 + 2 * p * (1 + ⌈log₂ n⌉)` submissions. -/
theorem split_submit_isolates (hattempt : ∀ s sub,
      CloseResult.Fits (sub.any poison) (attempt s sub).1)
    (hlength : closes.length ≤ 2 ^ maxDepth) (s : σ) :
    ∃ results after log,
      splitSubmit closes maxDepth (fun s sub => .ok (logged attempt s sub)) (s, []) =
        .ok (results, after, log) ∧
      List.Forall₂ (fun close result => CloseResult.Fits (poison close) result) closes results ∧
      (taken log).Perm (closes.filter fun close => !poison close) ∧
      log.length ≤ 1 + 2 * closes.countP poison * (1 + Nat.clog 2 closes.length) := by
  obtain ⟨outcomes, ⟨after, log⟩, result, hrun, hresult, hsplit⟩ := @splitSubmit_run _ closes
    maxDepth (fun s sub => .ok (logged attempt s sub)) (logged attempt) (fun _ _ => rfl) (s, [])
  obtain ⟨hfits, log', hlog, hperm, hcount⟩ :=
    run_isolates hattempt hrun (by rw [List.length_finRange]; exact hlength)
  rw [List.nil_append] at hlog
  subst hlog
  rw [List.map_get_finRange] at hperm hcount
  rw [List.length_finRange] at hcount
  refine ⟨_, after, _, hsplit, ?_, hperm, hcount.trans ?_⟩
  · rw [List.forall₂_iff_get]
    refine ⟨by simp, fun i hi _ => ?_⟩
    have hmem := (hresult ⟨i, hi⟩ _).mpr rfl
    simpa using hfits _ hmem
  · rw [Nat.mul_add]
    omega

def closeOf (tunnelId : String) : CloseArgs := ⟨tunnelId, 1, 1, [], [], 0, []⟩

/-- Rejects what holds a close of tunnel `0xbad`. -/
def pickySubmit (_ : Unit) (sub : List CloseArgs) : CloseResult × Unit :=
  (if sub.any (fun close => close.tunnelId = "0xbad") then .error (.rejected "dry run failed")
    else .ok "digest", ())

theorem split_submit_isolates_one_of_two :
    ∃ results after log, splitSubmit [closeOf "0x1", closeOf "0xbad"] 1
        (fun s sub => .ok (logged pickySubmit s sub)) ((), []) = .ok (results, after, log) ∧
      (taken log).Perm [closeOf "0x1"] := by
  have hpicky : ∀ s sub, CloseResult.Fits (sub.any fun close => close.tunnelId = "0xbad")
      (pickySubmit s sub).1 := by
    intro s sub
    unfold pickySubmit
    split <;> simp_all [CloseResult.Fits]
  have hlength : [closeOf "0x1", closeOf "0xbad"].length ≤ 2 ^ 1 := by decide
  obtain ⟨results, after, log, hsplit, -, hperm, -⟩ := split_submit_isolates hpicky hlength ()
  exact ⟨results, after, log, hsplit, hperm⟩

end Runs

end DopamintArena.Backend
