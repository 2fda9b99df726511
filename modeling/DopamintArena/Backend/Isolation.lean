import DopamintArena.Backend.Settler

/-!
Poison isolation in a batch of closes. A batch whose ids all resolve is bisected,
and then a close is rejected exactly when its block holds one that would fail on
its own: with at most 128 closes, when it is that close. But the ids of a batch
are resolved together, and one that is not a shared object rejects them all.
-/

namespace DopamintArena.Backend

open Foundation
open Foundation.Bisection (Run Trial blocks)

namespace Chain

variable {chain : Chain} {closed : List Bytes32}
variable {chunk ids : List String} {e : Failure}

/-! ### Resolving the ids -/

theorem refOf_eq_some_iff {id : String} {ref : SharedRef} :
    chain.refOf id = some ref ↔
      chain.address id = some ref.id ∧ chain.sharedVersion ref.id = some ref.initialSharedVersion := by
  unfold refOf
  cases chain.address id with
  | none => simp
  | some address =>
    cases hversion : chain.sharedVersion address with
    | none =>
      simp only [Option.bind_eq_bind, Option.bind_some, hversion, Option.bind_none,
        reduceCtorEq, Option.some.injEq, false_iff, not_and]
      rintro rfl
      simp [hversion]
    | some =>
      obtain ⟨_, _⟩ := ref
      simp only [Option.bind_eq_bind, Option.bind_some, hversion, Option.pure_def,
        Option.some.injEq, SharedRef.mk.injEq]
      constructor
      · rintro ⟨rfl, rfl⟩
        exact ⟨rfl, hversion⟩
      · rintro ⟨rfl, hsame⟩
        rw [hversion] at hsame
        exact ⟨rfl, Option.some.inj hsame⟩

theorem resolveChunk_ok {ref : String → SharedRef}
    (h : ∀ id ∈ chunk, chain.refOf id = some (ref id)) :
    resolveChunk chain.node chain.address closed chunk = .ok (chunk.map ref) := by
  have haddresses : chunk.mapM chain.address = some (chunk.map fun id => (ref id).id) := by
    induction chunk with
    | nil => rfl
    | cons _ _ ih =>
      rw [List.forall_mem_cons] at h
      rw [List.mapM_cons, (refOf_eq_some_iff.mp h.1).1, ih h.2]
      rfl
  have hobjects : (chunk.map fun id => (ref id).id).map
      (fun id => (⟨chain.sharedVersion id, ""⟩ : RpcObject)) =
      chunk.map fun id => ⟨some (ref id).initialSharedVersion, ""⟩ := by
    rw [List.map_map]
    apply List.map_congr_left
    intro id hid
    simp [(refOf_eq_some_iff.mp (h id hid)).2]
  have hzip : ((chunk.map fun id => (⟨some (ref id).initialSharedVersion, ""⟩ : RpcObject)).zip
      chunk).mapM (fun p => resolveOne chain.address p.1 p.2) = .ok (chunk.map ref) := by
    clear haddresses hobjects
    induction chunk with
    | nil => rfl
    | cons _ _ ih =>
      rw [List.forall_mem_cons] at h
      rw [List.map_cons, List.zip_cons_cons, List.mapM_cons, ih h.2]
      simp only [resolveOne, okOr, (refOf_eq_some_iff.mp h.1).1]
      rfl
  have hanswer : chain.node.multiGetObjects closed chunk =
      .ok (chunk.map fun id => ⟨some (ref id).initialSharedVersion, ""⟩) := by
    simp only [node, haddresses]
    rw [hobjects]
  simp only [resolveChunk, hanswer, rpc, ok_bind]
  rw [require_of (List.length_map _), ok_bind, hzip]

theorem refOf_of_resolveChunk {refs : List SharedRef}
    (h : resolveChunk chain.node chain.address closed chunk = .ok refs) :
    ∀ id ∈ chunk, ∃ ref, chain.refOf id = some ref := by
  simp only [resolveChunk, returned] at h
  obtain ⟨arr, hanswer, hlength, hresolved⟩ := h
  have hobjects : arr = chunk.map fun id =>
      (⟨(chain.address id).bind chain.sharedVersion, ""⟩ : RpcObject) := by
    simp only [node] at hanswer
    cases haddresses : chunk.mapM chain.address with
    | none =>
      rw [haddresses] at hanswer
      cases hanswer
    | some addresses =>
      rw [haddresses] at hanswer
      cases hanswer
      clear hlength hresolved
      induction chunk generalizing addresses with
      | nil =>
        cases haddresses
        rfl
      | cons _ _ ih =>
        simp only [List.mapM_cons, Option.bind_eq_bind, Option.bind_eq_some_iff,
          Option.pure_def, Option.some.injEq] at haddresses
        obtain ⟨address, haddress, later, hlater, rfl⟩ := haddresses
        rw [List.map_cons, List.map_cons, ih later hlater, haddress]
        rfl
  intro id hid
  have hmem : ((⟨(chain.address id).bind chain.sharedVersion, ""⟩ : RpcObject), id) ∈
      arr.zip chunk := by
    rw [hobjects, ← List.map_id chunk, List.map_map, List.zip_map']
    exact List.mem_map.mpr ⟨id, hid, rfl⟩
  obtain ⟨_, href⟩ := forall_ok_of_mapM hresolved _ hmem
  simp only [resolveOne, returned] at href
  obtain ⟨version, hversion, address, haddress, rfl⟩ := href
  refine ⟨⟨address, version⟩, refOf_eq_some_iff.mpr ?_⟩
  cases hid : chain.address id with
  | none =>
    rw [hid] at haddress
    cases haddress
  | some =>
    rw [hid] at haddress hversion
    cases haddress
    refine ⟨rfl, ?_⟩
    simp only [Option.bind_some] at hversion
    cases hshared : chain.sharedVersion address with
    | none =>
      rw [hshared] at hversion
      cases hversion
    | some =>
      rw [hshared] at hversion
      cases hversion
      rfl

theorem okOr_anyhow {α : Type} {o : Option α} {text : String}
    (h : okOr o (anyhow text) = .error e) : e.rateLimit = none := by
  cases o with
  | none =>
    cases h
    rfl
  | some => cases h

theorem rateLimit_of_resolveChunk
    (h : resolveChunk chain.node chain.address closed chunk = .error e) : e.rateLimit = none := by
  rcases bind_error_iff.mp h with hanswer | ⟨arr, -, h⟩
  · simp only [node] at hanswer
    cases haddresses : chunk.mapM chain.address with
    | none =>
      rw [haddresses] at hanswer
      cases hanswer
      rfl
    | some =>
      rw [haddresses] at hanswer
      cases hanswer
  · rcases bind_error_iff.mp h with hlength | ⟨_, -, h⟩
    · rw [(require_error_iff.mp hlength).2]
      rfl
    · obtain ⟨p, -, hp⟩ := exists_error_of_mapM h
      rcases bind_error_iff.mp hp with hversion | ⟨_, -, hp⟩
      · exact okOr_anyhow hversion
      · rcases bind_error_iff.mp hp with haddress | ⟨_, -, hp⟩
        · exact okOr_anyhow haddress
        · cases hp

theorem resolveChunks_ok {ref : String → SharedRef} (h : ∀ id ∈ ids, chain.refOf id = some (ref id))
    {fuel : Nat} (hfuel : ids.length ≤ fuel) :
    resolveChunks chain.node chain.address closed fuel ids = .ok (ids.map ref) := by
  induction fuel generalizing ids with
  | zero =>
    rw [List.eq_nil_of_length_eq_zero (Nat.le_zero.mp hfuel)]
    rfl
  | succ fuel ih =>
    rw [resolveChunks]
    split
    · rename_i hnone
      rw [List.isEmpty_iff.mp hnone]
      rfl
    · have hrest := ih (fun id hid => h id (List.mem_of_mem_drop hid))
        (by rw [List.length_drop]; omega : (ids.drop 50).length ≤ fuel)
      rw [resolveChunk_ok fun id hid => h id (List.mem_of_mem_take hid), hrest, ok_bind, ok_bind,
        ← List.map_append, List.take_append_drop]
      rfl

theorem resolveChunks_error (h : ∃ id ∈ ids, chain.refOf id = none) {fuel : Nat}
    (hfuel : ids.length ≤ fuel) :
    ∃ e, resolveChunks chain.node chain.address closed fuel ids = .error e ∧
      e.rateLimit = none := by
  induction fuel generalizing ids with
  | zero =>
    obtain ⟨id, hid, -⟩ := h
    rw [List.eq_nil_of_length_eq_zero (Nat.le_zero.mp hfuel)] at hid
    cases hid
  | succ _ ih =>
    obtain ⟨id, hid, hnone⟩ := h
    rw [resolveChunks, if_neg (by rw [List.isEmpty_iff]; exact List.ne_nil_of_mem hid)]
    cases hchunk : resolveChunk chain.node chain.address closed (ids.take 50) with
    | error e => exact ⟨e, rfl, rateLimit_of_resolveChunk hchunk⟩
    | ok =>
      -- The bad id is behind this chunk.
      have hlater : id ∈ ids.drop 50 := by
        rw [← List.take_append_drop 50 ids] at hid
        refine (List.mem_append.mp hid).resolve_left fun hfirst => ?_
        obtain ⟨_, href⟩ := refOf_of_resolveChunk hchunk id hfirst
        rw [hnone] at href
        cases href
      obtain ⟨e, herror, hlimit⟩ := ih ⟨id, hlater, hnone⟩
        (by rw [List.length_drop]; omega)
      rw [ok_bind, herror]
      exact ⟨e, rfl, hlimit⟩

/-! ### One transaction -/

section Batch

variable {ref : String → SharedRef}
variable {sub : List CloseArgs}

def callsOf (ref : String → SharedRef) (sub : List CloseArgs) : List (CloseArgs × SharedRef) :=
  sub.map fun c => (c, ref c.tunnelId)

def tunnelsOf (ref : String → SharedRef) (sub : List CloseArgs) : List Bytes32 :=
  sub.map fun c => (ref c.tunnelId).id

/-- Every call of the sub-batch goes through, also after the ones before it. -/
structure Accepted (chain : Chain) (ref : String → SharedRef) (closed : List Bytes32)
    (sub : List CloseArgs) : Prop where
  accepts : ∀ c ∈ sub, chain.accepts (ref c.tunnelId).id c = true
  isOpen : ∀ c ∈ sub, (ref c.tunnelId).id ∉ closed
  roots : ∀ c ∈ sub, c.transcriptRoot.length = 32
  apart : (tunnelsOf ref sub).Nodup

theorem foldlM_closeOne (hrefs : ∀ c ∈ sub, chain.refOf c.tunnelId = some (ref c.tunnelId))
    {after : List Bytes32} :
    (callsOf ref sub).foldlM chain.closeOne closed = some after ↔
      (∀ c ∈ sub, chain.accepts (ref c.tunnelId).id c = true) ∧
        (∀ c ∈ sub, (ref c.tunnelId).id ∉ closed) ∧ (tunnelsOf ref sub).Nodup ∧
        after = (tunnelsOf ref sub).reverse ++ closed := by
  induction sub generalizing closed with
  | nil =>
    simp only [callsOf, tunnelsOf, List.map_nil, List.foldlM_nil, Option.pure_def,
      Option.some.injEq, List.reverse_nil, List.nil_append, List.nodup_nil, List.not_mem_nil,
      false_implies, implies_true, true_and]
    exact eq_comm
  | cons c rest ih =>
    rw [List.forall_mem_cons] at hrefs
    have hversion := (refOf_eq_some_iff.mp hrefs.1).2
    have hstep : ∀ {next}, chain.closeOne closed (c, ref c.tunnelId) = some next ↔
        (chain.accepts (ref c.tunnelId).id c = true ∧ (ref c.tunnelId).id ∉ closed) ∧
          next = (ref c.tunnelId).id :: closed := by
      simp only [closeOne, hversion, true_and]
      by_cases hboth : chain.accepts (ref c.tunnelId).id c = true ∧ (ref c.tunnelId).id ∉ closed
      · rw [if_pos hboth]
        exact ⟨fun h => ⟨hboth, (Option.some.inj h).symm⟩, fun h => congrArg some h.2.symm⟩
      · rw [if_neg hboth]
        exact ⟨fun h => (by cases h), fun h => absurd h.1 hboth⟩
    have hfold : (callsOf ref (c :: rest)).foldlM chain.closeOne closed = some after ↔
        ∃ next, chain.closeOne closed (c, ref c.tunnelId) = some next ∧
          (callsOf ref rest).foldlM chain.closeOne next = some after := by
      rw [callsOf, List.map_cons, List.foldlM_cons, Option.bind_eq_bind,
        Option.bind_eq_some_iff]
      rfl
    simp only [hfold, hstep, ih hrefs.2, List.forall_mem_cons, tunnelsOf, List.map_cons,
      List.nodup_cons, List.reverse_cons, List.append_assoc, List.singleton_append]
    constructor
    · rintro ⟨_, ⟨⟨haccepts, hopen⟩, rfl⟩, hall, hrest, hnodup, rfl⟩
      have happart : ∀ d ∈ rest, (ref d.tunnelId).id ≠ (ref c.tunnelId).id ∧
          (ref d.tunnelId).id ∉ closed := by
        intro d hd
        have hnot := hrest d hd
        rw [List.mem_cons, not_or] at hnot
        exact hnot
      refine ⟨⟨haccepts, hall⟩, ⟨hopen, fun d hd => (happart d hd).2⟩, ⟨?_, hnodup⟩, rfl⟩
      intro hmem
      obtain ⟨d, hd, hsame⟩ := List.mem_map.mp hmem
      exact (happart d hd).1 hsame
    · rintro ⟨⟨haccepts, hall⟩, ⟨hopen, hrest⟩, ⟨hnew, hnodup⟩, rfl⟩
      refine ⟨_, ⟨⟨haccepts, hopen⟩, rfl⟩, hall, fun d hd => ?_, hnodup, rfl⟩
      rw [List.mem_cons, not_or]
      exact ⟨fun hsame => hnew (List.mem_map.mpr ⟨d, hd, hsame⟩), hrest d hd⟩

theorem zip_refs (sub : List CloseArgs) :
    sub.zip (sub.map fun c => ref c.tunnelId) = callsOf ref sub := by
  induction sub with
  | nil => rfl
  | cons _ _ ih =>
    rw [List.map_cons, List.zip_cons_cons, ih]
    rfl

def batchTx (ref : String → SharedRef) (sub : List CloseArgs) (gasPrice epoch : UInt64) :
    CloseTx where
  calls := callsOf ref sub
  gasBudget := min (min (gasBudgetPerClose * sub.length) (2 ^ 64 - 1)) maxBatchGasBudget
  gasPrice := if gasPrice = 0 then 1 else gasPrice
  epoch := epoch

theorem buildCloseBatchTx_ok_iff (hsub : sub ≠ []) {gasPrice epoch : UInt64} {tx : CloseTx} :
    buildCloseBatchTx sub (sub.map fun c => ref c.tunnelId) gasPrice epoch = .ok tx ↔
      (∀ c ∈ sub, c.transcriptRoot.length = 32) ∧ tx = batchTx ref sub gasPrice epoch := by
  have hroots : (∀ p ∈ callsOf ref sub, p.1.transcriptRoot.length = 32) ↔
      ∀ c ∈ sub, c.transcriptRoot.length = 32 := by
    simp [callsOf]
  simp only [buildCloseBatchTx, returned, zip_refs, mapM_require_ok_iff, List.length_map, hroots]
  constructor
  · rintro ⟨-, -, _, ⟨hall, rfl⟩, rfl⟩
    exact ⟨hall, rfl⟩
  · rintro ⟨hall, rfl⟩
    exact ⟨hsub, trivial, _, ⟨hall, rfl⟩, rfl⟩

/-- What is submitted for a sub-batch, once its ids are resolved. -/
def attempt (chain : Chain) (ref : String → SharedRef) (closed : List Bytes32)
    (sub : List CloseArgs) : CloseResult × List Bytes32 :=
  trySubmitOnePtb chain.node closed sub (sub.map fun c => ref c.tunnelId) chain.epoch chain.gasPrice

theorem attempt_of_accepted (hsub : sub ≠ [])
    (hrefs : ∀ c ∈ sub, chain.refOf c.tunnelId = some (ref c.tunnelId))
    (h : Accepted chain ref closed sub) :
    ∃ digest, attempt chain ref closed sub =
      (.ok digest, (tunnelsOf ref sub).reverse ++ closed) := by
  have hbuild := (buildCloseBatchTx_ok_iff hsub).mpr
    ⟨h.roots, (rfl : batchTx ref sub chain.gasPrice chain.epoch = _)⟩
  have hrun : chain.runTx closed (batchTx ref sub chain.gasPrice chain.epoch) =
      some ((tunnelsOf ref sub).reverse ++ closed) :=
    (foldlM_closeOne hrefs).mpr ⟨h.accepts, h.isOpen, h.apart, rfl⟩
  refine ⟨chain.digest (batchTx ref sub chain.gasPrice chain.epoch), ?_⟩
  simp only [attempt, trySubmitOnePtb, hbuild, dryRun, execute, node, hrun, rpc, Option.isSome_some,
    if_true, ok_bind]
  rfl

theorem attempt_of_not_accepted (hsub : sub ≠ [])
    (hrefs : ∀ c ∈ sub, chain.refOf c.tunnelId = some (ref c.tunnelId))
    (h : ¬Accepted chain ref closed sub) :
    ∃ msg, attempt chain ref closed sub = (.error (.rejected msg), closed) := by
  unfold attempt trySubmitOnePtb
  cases hbuild : buildCloseBatchTx sub (sub.map fun c => ref c.tunnelId) chain.gasPrice
      chain.epoch with
  | error => exact ⟨_, rfl⟩
  | ok =>
    obtain ⟨hroots, rfl⟩ := (buildCloseBatchTx_ok_iff hsub).mp hbuild
    have hrun : chain.runTx closed (batchTx ref sub chain.gasPrice chain.epoch) = none := by
      cases hafter : chain.runTx closed (batchTx ref sub chain.gasPrice chain.epoch) with
      | none => rfl
      | some =>
        obtain ⟨haccepts, hopen, hnodup, -⟩ := (foldlM_closeOne hrefs).mp hafter
        exact absurd ⟨haccepts, hopen, hroots, hnodup⟩ h
    have hdry : dryRun chain.node closed (batchTx ref sub chain.gasPrice chain.epoch) =
        .error (anyhow "close dry-run failed: abort") := by
      simp only [dryRun, node, hrun, rpc, Option.isSome_none, Bool.false_eq_true, if_false,
        ok_bind]
      rfl
    simp only [hdry]
    exact ⟨_, rfl⟩

/-! ### The whole batch -/

/-- A close whose id resolves lands when its tunnel is open and accepts it. -/
theorem lands_iff {c : CloseArgs} (href : chain.refOf c.tunnelId = some (ref c.tunnelId)) :
    chain.Lands closed c ↔ chain.accepts (ref c.tunnelId).id c = true ∧
      (ref c.tunnelId).id ∉ closed ∧ c.transcriptRoot.length = 32 := by
  unfold Lands
  rw [href]
  simp

variable {closes : List CloseArgs} {s s' : List Bytes32}
variable {group others : List (Position closes)} {levels : Nat}
variable {outcomes : List (Position closes × CloseResult)}

/-- The tunnel of the close at a position. -/
def tunnelAt (ref : String → SharedRef) (i : Position closes) : Bytes32 :=
  (ref (closes.get i).tunnelId).id

theorem tunnelsOf_get (group : List (Position closes)) :
    tunnelsOf ref (group.map closes.get) = group.map (tunnelAt ref) := by
  rw [tunnelsOf, List.map_map]
  rfl

/-- The closes that would land close different tunnels. -/
def Apart (chain : Chain) (closed : List Bytes32) (closes : List CloseArgs) : Prop :=
  ∀ i j : Position closes, chain.Lands closed (closes.get i) → chain.Lands closed (closes.get j) →
    chain.address (closes.get i).tunnelId = chain.address (closes.get j).tunnelId → i = j

/-- What is closed so far leaves open what would land, once the closes are apart. -/
structure Ready (chain : Chain) (ref : String → SharedRef) (closed s : List Bytes32)
    (group : List (Position closes)) : Prop where
  grown : ∀ id ∈ closed, id ∈ s
  once : group.Nodup
  isOpen : Apart chain closed closes → ∀ i ∈ group, chain.Lands closed (closes.get i) →
    tunnelAt ref i ∉ s

/-- The outcome of a group of closes: a rejection if one of them would fail on its own, and
otherwise a digest, once the closes are apart. -/
structure Deserved (chain : Chain) (closed : List Bytes32) (group : List (Position closes))
    (outcome : CloseResult) : Prop where
  rejected : (∃ i ∈ group, ¬chain.Lands closed (closes.get i)) →
    ∃ msg, outcome = .error (.rejected msg)
  sent : Apart chain closed closes → (∀ i ∈ group, chain.Lands closed (closes.get i)) →
    ∃ digest, outcome = .ok digest

section

variable (hrefs : ∀ c ∈ closes, chain.refOf c.tunnelId = some (ref c.tunnelId))
include hrefs

theorem trial_cases {trial : Trial CloseResult}
    (htrial : trialOf (attempt chain ref) s group = (trial, s')) :
    (∃ digest, trial = .final (.ok digest) ∧ s' = (group.map (tunnelAt ref)).reverse ++ s ∧
        Accepted chain ref s (group.map closes.get)) ∨
      ∃ msg, trial = .halve (.error (.rejected msg)) ∧ s' = s ∧
        (group = [] ∨ ¬Accepted chain ref s (group.map closes.get)) := by
  have hsubRefs : ∀ c ∈ group.map closes.get, chain.refOf c.tunnelId = some (ref c.tunnelId) := by
    intro c hc
    obtain ⟨i, -, rfl⟩ := List.mem_map.mp hc
    exact hrefs _ (List.get_mem closes i)
  by_cases hgroup : group = []
  · subst hgroup
    cases htrial
    exact .inr ⟨_, rfl, rfl, .inl rfl⟩
  · have hsub : group.map closes.get ≠ [] := by simpa using hgroup
    by_cases haccepted : Accepted chain ref s (group.map closes.get)
    · obtain ⟨digest, hattempt⟩ := attempt_of_accepted hsub hsubRefs haccepted
      rw [trialOf, hattempt, tunnelsOf_get] at htrial
      cases htrial
      exact .inl ⟨digest, rfl, rfl, haccepted⟩
    · obtain ⟨msg, hattempt⟩ := attempt_of_not_accepted hsub hsubRefs haccepted
      rw [trialOf, hattempt] at htrial
      cases htrial
      exact .inr ⟨msg, rfl, rfl, .inr haccepted⟩

theorem tunnelAt_of_address (i : Position closes) :
    chain.address (closes.get i).tunnelId = some (tunnelAt ref i) :=
  (refOf_eq_some_iff.mp (hrefs _ (List.get_mem closes i))).1

/-- What goes out after the closes of `closed` would land. -/
theorem Accepted.lands (h : Accepted chain ref s (group.map closes.get))
    (hgrown : ∀ id ∈ closed, id ∈ s) {i : Position closes} (hi : i ∈ group) :
    chain.Lands closed (closes.get i) := by
  have hmem : closes.get i ∈ group.map closes.get := List.mem_map_of_mem hi
  exact (lands_iff (hrefs _ (List.get_mem closes i))).mpr
    ⟨h.accepts _ hmem, fun hin => h.isOpen _ hmem (hgrown _ hin), h.roots _ hmem⟩

theorem Ready.accepted (h : Ready chain ref closed s group) (happart : Apart chain closed closes)
    (hgood : ∀ i ∈ group, chain.Lands closed (closes.get i)) :
    Accepted chain ref s (group.map closes.get) := by
  have hlands : ∀ i ∈ group, _ := fun i hi =>
    (lands_iff (hrefs _ (List.get_mem closes i))).mp (hgood i hi)
  refine ⟨?_, ?_, ?_, ?_⟩
  · exact List.forall_mem_map.mpr fun i hi => (hlands i hi).1
  · exact List.forall_mem_map.mpr fun i hi => h.isOpen happart i hi (hgood i hi)
  · exact List.forall_mem_map.mpr fun i hi => (hlands i hi).2.2
  · rw [tunnelsOf_get]
    refine h.once.map_on fun i hi j hj hsame => happart i j (hgood i hi) (hgood j hj) ?_
    rw [tunnelAt_of_address hrefs, tunnelAt_of_address hrefs, hsame]

theorem ready_divides :
    Run.Divides (trialOf (attempt chain ref)) (@Ready closes chain ref closed) where
  right h := ⟨h.grown, h.once.of_append_right,
    fun happart i hi => h.isOpen happart i (List.mem_append_right _ hi)⟩
  halved h htrial := by
    obtain ⟨_, ⟨⟩, -⟩ | ⟨_, -, rfl, -⟩ := trial_cases hrefs htrial
    exact h
  after h htrial := by
    obtain ⟨honce, -, hdisjoint⟩ := List.nodup_append.mp h.once
    obtain ⟨_, -, rfl, haccepted⟩ | ⟨_, -, rfl, -⟩ := trial_cases hrefs htrial
    · refine ⟨fun id hid => List.mem_append_right _ (h.grown id hid), honce,
        fun happart i hi hlands hmem => ?_⟩
      rcases List.mem_append.mp hmem with hmem | hmem
      · rw [List.mem_reverse] at hmem
        obtain ⟨j, hj, hsame⟩ := List.mem_map.mp hmem
        refine hdisjoint i hi j hj (happart i j hlands (haccepted.lands hrefs h.grown hj) ?_)
        rw [tunnelAt_of_address hrefs, tunnelAt_of_address hrefs, hsame]
      · exact h.isOpen happart i (List.mem_append_left _ hi) hlands hmem
    · exact ⟨h.grown, honce, fun happart i hi => h.isOpen happart i (List.mem_append_left _ hi)⟩

/-- Every block that halving gets down to is judged by its own closes. -/
theorem deserved_of_run (h : Run (trialOf (attempt chain ref)) levels group s outcomes s')
    (hready : Ready chain ref closed s group) :
    ∀ block ∈ blocks levels group, ∀ i ∈ block, ∃ outcome, (i, outcome) ∈ outcomes ∧
      Deserved chain closed block outcome := by
  refine h.of_blocks (ready_divides hrefs) ?_ ?_ hready
  · intro s group outcome s' hready htrial block hsub
    obtain ⟨digest, ⟨⟩, -, haccepted⟩ | ⟨_, ⟨⟩, -⟩ := trial_cases hrefs htrial
    refine ⟨?_, fun _ _ => ⟨digest, rfl⟩⟩
    rintro ⟨i, hi, hfails⟩
    exact absurd (haccepted.lands hrefs hready.grown (hsub hi)) hfails
  · intro s group outcome s' hready hgroup htrial
    obtain ⟨_, ⟨⟩, -⟩ | ⟨msg, ⟨⟩, -, hnot⟩ := trial_cases hrefs htrial
    refine ⟨fun _ => ⟨msg, rfl⟩, fun happart hgood => ?_⟩
    exact absurd (hready.accepted hrefs happart hgood) (hnot.resolve_left hgroup)

end

def sent (ref : String → SharedRef) (outcomes : List (Position closes × CloseResult)) :
    List Bytes32 :=
  (outcomes.filter fun p => p.2.isOk).map fun p => tunnelAt ref p.1

/-- A run closes the tunnels of what it sent, each once and none that was closed. -/
structure SentOnce (ref : String → SharedRef) (s : List Bytes32)
    (outcomes : List (Position closes × CloseResult)) (s' : List Bytes32) : Prop where
  once : (sent ref outcomes).Nodup
  isOpen : ∀ id ∈ sent ref outcomes, id ∉ s
  after : ∀ id, id ∈ s' ↔ id ∈ sent ref outcomes ∨ id ∈ s

theorem sentOnce_of_run (hrefs : ∀ c ∈ closes, chain.refOf c.tunnelId = some (ref c.tunnelId))
    (h : Run (trialOf (attempt chain ref)) levels group s outcomes s') :
    SentOnce ref s outcomes s' := by
  refine h.rel (SentOnce ref) (fun s => ⟨List.nodup_nil, by simp [sent], by simp [sent]⟩) ?_ ?_ ?_
    ?_
  · intro s group outcome s' htrial
    obtain ⟨digest, ⟨⟩, rfl, haccepted⟩ | ⟨_, ⟨⟩, -⟩ := trial_cases hrefs htrial
    have hsent : sent ref (group.map fun i =>
        ((i, .ok digest) : Position closes × CloseResult)) = group.map (tunnelAt ref) := by
      simp [sent, Except.toBool, List.filter_map, Function.comp_def]
    refine ⟨?_, ?_, ?_⟩
    · rw [hsent, ← tunnelsOf_get]
      exact haccepted.apart
    · rw [hsent]
      refine List.forall_mem_map.mpr fun i hi => ?_
      exact haccepted.isOpen _ (List.mem_map_of_mem hi)
    · rw [hsent]
      simp
  · intro s group outcome s' htrial
    obtain ⟨_, ⟨⟩, -⟩ | ⟨msg, ⟨⟩, rfl, -⟩ := trial_cases hrefs htrial
    have hnone : sent ref (group.map fun i =>
        ((i, .error (.rejected msg)) : Position closes × CloseResult)) = [] := by
      simp [sent, Except.toBool]
    refine ⟨?_, ?_, ?_⟩ <;> simp [hnone]
  · intro s group outcome s' results s'' htrial hrest
    obtain ⟨_, ⟨⟩, -⟩ | ⟨_, -, rfl, -⟩ := trial_cases hrefs htrial
    exact hrest
  · intro s results s' results' s'' hfirst hsecond
    have hsent : sent ref (results ++ results') = sent ref results ++ sent ref results' := by
      simp [sent]
    refine ⟨?_, ?_, ?_⟩
    · rw [hsent]
      refine List.nodup_append.mpr ⟨hfirst.once, hsecond.once, ?_⟩
      rintro id hid _ hid' rfl
      exact hsecond.isOpen id hid' ((hfirst.after id).mpr (.inl hid))
    · intro id hid
      rw [hsent] at hid
      rcases List.mem_append.mp hid with hid | hid
      · exact hfirst.isOpen id hid
      · exact fun hin => hsecond.isOpen id hid ((hfirst.after id).mpr (.inr hin))
    · intro id
      rw [hsecond.after, hfirst.after, hsent, List.mem_append]
      tauto

theorem lookup_refs {pairs : List (String × SharedRef)} (hpairs : ∀ p ∈ pairs, p.2 = ref p.1)
    {id : String} (hid : id ∈ pairs.map Prod.fst) : pairs.lookup id = some (ref id) := by
  induction pairs with
  | nil => cases hid
  | cons p _ ih =>
    rw [List.forall_mem_cons] at hpairs
    obtain ⟨key, _⟩ := p
    rw [List.lookup_cons]
    by_cases hkey : id = key
    · subst hkey
      rw [beq_self_eq_true]
      exact congrArg some hpairs.1
    · rw [beq_false_of_ne hkey]
      rw [List.map_cons, List.mem_cons] at hid
      exact ih hpairs.2 (hid.resolve_left hkey)

/-- The map of references that a batch is submitted with. -/
def refMapOf (ref : String → SharedRef) (closes : List CloseArgs) : List (String × SharedRef) :=
  ((closes.map CloseArgs.tunnelId).zip ((closes.map CloseArgs.tunnelId).map ref)).reverse

theorem submitSub_eq (s : List Bytes32) (idxs : List (Position closes)) :
    submitSub chain.node (refMapOf ref closes) chain.epoch chain.gasPrice s
      (idxs.map closes.get) = .ok (attempt chain ref s (idxs.map closes.get)) := by
  have hpairs : ∀ p ∈ refMapOf ref closes, p.2 = ref p.1 := by
    intro p hp
    rw [refMapOf, List.mem_reverse] at hp
    obtain ⟨i, _, rfl⟩ := List.mem_iff_getElem.mp hp
    simp
  have hlookups : (idxs.map closes.get).mapM (fun c =>
      okOr ((refMapOf ref closes).lookup c.tunnelId) "no entry found for key") =
      .ok ((idxs.map closes.get).map fun c => ref c.tunnelId) := by
    apply mapM_ok_of_forall
    intro c hc
    obtain ⟨i, -, rfl⟩ := List.mem_map.mp hc
    have hmem : (closes.get i).tunnelId ∈ (refMapOf ref closes).map Prod.fst := by
      rw [refMapOf, List.map_reverse, List.mem_reverse, List.map_fst_zip (by simp)]
      exact List.mem_map_of_mem (List.get_mem closes i)
    rw [lookup_refs hpairs hmem]
    rfl
  rw [submitSub, hlookups]
  rfl

theorem submitCloseBatch_eq (hcloses : closes ≠ [])
    (hrefs : ∀ c ∈ closes, chain.refOf c.tunnelId = some (ref c.tunnelId)) :
    submitCloseBatch chain.node chain.address closed closes =
      splitSubmit closes maxSettleSplitDepth
        (submitSub chain.node (refMapOf ref closes) chain.epoch chain.gasPrice) closed := by
  have hresolved : resolveSharedMany chain.node chain.address closed
      (closes.map CloseArgs.tunnelId) =
      .ok ((closes.map CloseArgs.tunnelId).map ref) := by
    apply resolveChunks_ok _ (le_refl _)
    exact List.forall_mem_map.mpr hrefs
  have hempty : closes.isEmpty = false := by simpa using hcloses
  have hepoch : epochAndGasPrice chain.node closed = .ok (chain.epoch, chain.gasPrice) := rfl
  simp only [submitCloseBatch, hempty, Bool.false_eq_true, if_false, hresolved, hepoch]
  rfl

/-- The blocks that halving gets down to hold no close that would land next to one that
would not. -/
def Uniform (chain : Chain) (closed : List Bytes32) (closes : List CloseArgs) : Prop :=
  ∀ block ∈ blocks maxSettleSplitDepth (List.finRange closes.length),
    (∀ i ∈ block, chain.Lands closed (closes.get i)) ∨
      ∀ i ∈ block, ¬chain.Lands closed (closes.get i)

/-- A batch of up to 128 closes is split down to single ones. -/
theorem uniform_of_length_le (h : closes.length ≤ 128) : Uniform chain closed closes := by
  intro block hblock
  have hone := Bisection.length_le_one_of_mem_blocks
    (by rw [List.length_finRange]; exact h) block hblock
  match block, hone with
  | [], _ => exact .inl (by simp)
  | [i], _ =>
    rcases Classical.em (chain.Lands closed (closes.get i)) with hlands | hfails
    · exact .inl (by simpa using hlands)
    · exact .inr (by simpa using hfails)

end Batch

variable {closes : List CloseArgs}

theorem exists_refs (h : ∀ c ∈ closes, ∃ ref, chain.refOf c.tunnelId = some ref) :
    ∃ ref : String → SharedRef, ∀ c ∈ closes, chain.refOf c.tunnelId = some (ref c.tunnelId) := by
  refine ⟨fun id => (chain.refOf id).getD ⟨Bytes32.fill 0, 0⟩, fun c hc => ?_⟩
  obtain ⟨_, href⟩ := h c hc
  simp [href]

theorem forall₂_finRange_iff {R : CloseArgs → CloseResult → Prop}
    {result : Position closes → CloseResult} :
    List.Forall₂ R closes ((List.finRange closes.length).map result) ↔
      ∀ i, R (closes.get i) (result i) := by
  have hself : (List.finRange closes.length).map closes.get = closes := List.map_get_finRange closes
  calc List.Forall₂ R closes ((List.finRange closes.length).map result)
      ↔ List.Forall₂ R ((List.finRange closes.length).map closes.get)
          ((List.finRange closes.length).map result) := by rw [hself]
    _ ↔ ∀ i, R (closes.get i) (result i) := by
        rw [List.forall₂_map_left_iff, List.forall₂_map_right_iff, List.forall₂_same]
        simp

/-- A batch whose ids all resolve is judged fairly exactly when it can be taken apart. -/
theorem fair_iff_of_resolved (hcloses : closes ≠ [])
    (hresolved : ∀ c ∈ closes, ∃ ref, chain.refOf c.tunnelId = some ref) :
    ∃ results after, submitCloseBatch chain.node chain.address closed closes =
        .ok (results, after) ∧ results.length = closes.length ∧
      (List.Forall₂ (chain.Fair closed) closes results ↔
        Apart chain closed closes ∧ Uniform chain closed closes) := by
  obtain ⟨ref, hrefs⟩ := exists_refs hresolved
  have hsubmit : ∀ s (idxs : List (Position closes)),
      submitSub chain.node (refMapOf ref closes) chain.epoch chain.gasPrice s
        (idxs.map closes.get) = .ok (attempt chain ref s (idxs.map closes.get)) := submitSub_eq
  obtain ⟨outcomes, after, result, hrun, hresult, hsplit⟩ := splitSubmit_run hsubmit closed
  have hready : Ready chain ref closed closed (List.finRange closes.length) :=
    ⟨fun _ => id, List.nodup_finRange _, fun _ j _ hlands =>
      ((lands_iff (hrefs _ (List.get_mem closes j))).mp hlands).2.1⟩
  have hdeserved := deserved_of_run hrefs hrun hready
  refine ⟨_, after, (submitCloseBatch_eq hcloses hrefs).trans hsplit, by simp, ?_⟩
  rw [forall₂_finRange_iff]
  constructor
  · intro hfair
    have hlanded : ∀ i, chain.Lands closed (closes.get i) → ∃ digest, result i = .ok digest :=
      fun i hlands => (hfair i).elim And.right fun h => absurd hlands h.1
    refine ⟨fun i j hi hj hsame => ?_, fun block hblock => ?_⟩
    · -- Both went out, and a tunnel is closed once.
      obtain ⟨digest, hdigest⟩ := hlanded i hi
      obtain ⟨_, hdigest'⟩ := hlanded j hj
      rw [tunnelAt_of_address hrefs, tunnelAt_of_address hrefs, Option.some.injEq] at hsame
      have honce := (sentOnce_of_run hrefs hrun).once
      have hmem : ∀ {k : Position closes} {d : String}, result k = .ok d →
          (k, (.ok d : CloseResult)) ∈ outcomes.filter fun p => p.2.isOk := fun hk =>
        List.mem_filter.mpr ⟨(hresult _ _).mpr hk, rfl⟩
      exact congrArg Prod.fst
        (List.inj_on_of_nodup_map honce (hmem hdigest) (hmem hdigest') hsame)
    · by_cases hall : ∀ i ∈ block, chain.Lands closed (closes.get i)
      · exact .inl hall
      · right
        intro i hi hlands
        push Not at hall
        obtain ⟨_, hmem, houtcome⟩ := hdeserved block hblock i hi
        obtain ⟨msg, rfl⟩ := houtcome.rejected hall
        obtain ⟨digest, hdigest⟩ := hlanded i hlands
        rw [(hresult i _).mp hmem] at hdigest
        cases hdigest
  · rintro ⟨happart, huniform⟩ i
    obtain ⟨block, hblock, hi⟩ := Bisection.exists_mem_blocks.mpr (List.mem_finRange i)
    obtain ⟨_, hmem, houtcome⟩ := hdeserved block hblock i hi
    rcases huniform block hblock with hall | hnone
    · obtain ⟨digest, rfl⟩ := houtcome.sent happart hall
      exact .inl ⟨hall i hi, digest, (hresult i _).mp hmem⟩
    · obtain ⟨msg, rfl⟩ := houtcome.rejected ⟨i, hi, hnone i hi⟩
      exact .inr ⟨hnone i hi, msg, (hresult i _).mp hmem⟩

/-- A batch with an id that does not resolve is rejected as a whole. -/
theorem rejected_of_unresolved (h : ∃ c ∈ closes, chain.refOf c.tunnelId = none) :
    ∃ msg, submitCloseBatch chain.node chain.address closed closes =
      .ok (closes.map fun _ => .error (.rejected msg), closed) := by
  obtain ⟨c, hc, hnone⟩ := h
  have hids : ∃ id ∈ closes.map CloseArgs.tunnelId, chain.refOf id = none :=
    ⟨c.tunnelId, List.mem_map_of_mem hc, hnone⟩
  obtain ⟨e, hresolve, hlimit⟩ : ∃ e, resolveSharedMany chain.node chain.address closed
      (closes.map CloseArgs.tunnelId) = .error e ∧ e.rateLimit = none :=
    resolveChunks_error hids (le_refl _)
  refine ⟨e.text, ?_⟩
  simp [submitCloseBatch, hresolve, anyhowToCloseError, hlimit]

end Chain

/-- Every batch gets one result for each close, in order. The closes that would succeed on their
own succeed and all others are rejected exactly when none would succeed, or every id of the batch
is one of a shared object, no two of them close the same tunnel, and the blocks that seven
halvings lead to are not mixed, as in every batch of up to 128. A batch of one close always
gets the result that the close deserves. -/
theorem close_batch_isolates_iff (chain : Chain) (closed : List Bytes32) :
    (∀ closes : List CloseArgs, ∃ results after,
      submitCloseBatch chain.node chain.address closed closes = .ok (results, after) ∧
        results.length = closes.length ∧
        (List.Forall₂ (chain.Fair closed) closes results ↔
          (∀ c ∈ closes, ¬chain.Lands closed c) ∨
            (∀ c ∈ closes, ∃ ref, chain.refOf c.tunnelId = some ref) ∧
              chain.Apart closed closes ∧ chain.Uniform closed closes)) ∧
    (∀ closes : List CloseArgs, closes.length ≤ 128 → chain.Uniform closed closes) ∧
    ∀ c : CloseArgs, ∃ result after,
      submitCloseBatch chain.node chain.address closed [c] = .ok ([result], after) ∧
        chain.Fair closed c result := by
  have hbatch : ∀ closes : List CloseArgs, ∃ results after,
      submitCloseBatch chain.node chain.address closed closes = .ok (results, after) ∧
        results.length = closes.length ∧
        (List.Forall₂ (chain.Fair closed) closes results ↔
          (∀ c ∈ closes, ¬chain.Lands closed c) ∨
            (∀ c ∈ closes, ∃ ref, chain.refOf c.tunnelId = some ref) ∧
              chain.Apart closed closes ∧ chain.Uniform closed closes) := by
    intro closes
    by_cases hunresolved : ∃ c ∈ closes, chain.refOf c.tunnelId = none
    · obtain ⟨msg, hresults⟩ := Chain.rejected_of_unresolved hunresolved
      refine ⟨_, _, hresults, by simp, ?_⟩
      obtain ⟨c, hc, hnone⟩ := hunresolved
      rw [List.forall₂_map_right_iff, List.forall₂_same]
      constructor
      · intro hfair
        left
        intro c hc hlands
        rcases hfair c hc with ⟨-, _, hok⟩ | ⟨hfails, -⟩
        · cases hok
        · exact hfails hlands
      · rintro (hfails | ⟨hresolved, -⟩)
        · exact fun c hc => .inr ⟨hfails c hc, msg, rfl⟩
        · obtain ⟨ref, href⟩ := hresolved c hc
          rw [hnone] at href
          cases href
    · have hresolved : ∀ c ∈ closes, ∃ ref, chain.refOf c.tunnelId = some ref := by
        intro c hc
        exact Option.ne_none_iff_exists'.mp fun hnone => hunresolved ⟨c, hc, hnone⟩
      by_cases hcloses : closes = []
      · subst hcloses
        exact ⟨[], closed, rfl, rfl, iff_of_true .nil (.inl (by simp))⟩
      · obtain ⟨results, after, hsubmit, hlength, hfair⟩ :=
          Chain.fair_iff_of_resolved hcloses hresolved
        refine ⟨results, after, hsubmit, hlength, hfair.trans ⟨fun h => .inr ⟨hresolved, h⟩, ?_⟩⟩
        rintro (hfails | ⟨-, h⟩)
        · exact ⟨fun i j hi => absurd hi (hfails _ (List.get_mem closes i)),
            fun block _ => .inr fun i _ => hfails _ (List.get_mem closes i)⟩
        · exact h
  refine ⟨hbatch, fun closes => Chain.uniform_of_length_le, fun c => ?_⟩
  obtain ⟨results, after, hsubmit, -, hfair⟩ := hbatch [c]
  have hone : List.Forall₂ (chain.Fair closed) [c] results := by
    refine hfair.mpr ?_
    have honly : ∀ i j : Position [c], i = j := by
      intro i j
      have hi : i.val < 1 := i.isLt
      have hj : j.val < 1 := j.isLt
      exact Fin.ext (by omega)
    by_cases hlands : chain.Lands closed c
    · refine .inr ⟨?_, fun i j _ _ _ => honly i j,
        Chain.uniform_of_length_le (by decide : 1 ≤ 128)⟩
      obtain ⟨ref, href, -⟩ := hlands
      simpa using ⟨ref, href⟩
    · exact .inl (by simpa using hlands)
  cases hone with
  | cons hfirst hrest =>
    cases hrest with
    | nil => exact ⟨_, after, hsubmit, hfirst⟩

/-- A chain on which the tunnels `0x1` and `0x2` are shared and open. -/
def sampleChain : Chain where
  address id :=
    if id = "0x1" then some (Bytes32.fill 1)
    else if id = "0x2" then some (Bytes32.fill 2)
    else if id = "0x3" then some (Bytes32.fill 3)
    else none
  sharedVersion id := if id = Bytes32.fill 3 then none else some 1
  accepts _ _ := true
  epoch := 1
  gasPrice := 1000
  digest _ := "digest"

def sampleClose (tunnelId : String) : CloseArgs :=
  ⟨tunnelId, 60, 40, List.replicate 64 1, List.replicate 64 2, 1000, List.replicate 32 0⟩

/-- The tunnel `0x2` is closed already: its close is rejected and the other one goes out. -/
theorem close_batch_isolates_iff_poison : ∃ digest msg after,
    submitCloseBatch sampleChain.node sampleChain.address [Bytes32.fill 2]
      [sampleClose "0x1", sampleClose "0x2"] = .ok ([.ok digest, .error (.rejected msg)], after) := by
  obtain ⟨hbatch, huniform, -⟩ := close_batch_isolates_iff sampleChain [Bytes32.fill 2]
  obtain ⟨results, after, hsubmit, -, hfair⟩ := hbatch [sampleClose "0x1", sampleClose "0x2"]
  have hresolved : ∀ c ∈ [sampleClose "0x1", sampleClose "0x2"],
      ∃ ref, sampleChain.refOf c.tunnelId = some ref := by
    simp only [List.forall_mem_cons]
    exact ⟨⟨⟨Bytes32.fill 1, 1⟩, by decide⟩, ⟨⟨Bytes32.fill 2, 1⟩, by decide⟩, by simp⟩
  have happart : ∀ i j : Position [sampleClose "0x1", sampleClose "0x2"],
      sampleChain.address ([sampleClose "0x1", sampleClose "0x2"].get i).tunnelId =
        sampleChain.address ([sampleClose "0x1", sampleClose "0x2"].get j).tunnelId → i = j := by
    unfold Position
    decide
  have hlands : sampleChain.Lands [Bytes32.fill 2] (sampleClose "0x1") :=
    ⟨⟨Bytes32.fill 1, 1⟩, by decide⟩
  have hfails : ¬sampleChain.Lands [Bytes32.fill 2] (sampleClose "0x2") := by
    rintro ⟨ref, href, -, hopen, -⟩
    have hclosed : sampleChain.refOf "0x2" = some ⟨Bytes32.fill 2, 1⟩ := by decide
    cases hclosed.symm.trans href
    exact hopen (by simp)
  obtain _ | ⟨hfirst, _ | ⟨hsecond, _ | _⟩⟩ :=
    hfair.mpr (.inr ⟨hresolved, fun i j _ _ => happart i j, huniform _ (by decide)⟩)
  obtain ⟨-, digest, rfl⟩ := hfirst.resolve_right fun h => h.1 hlands
  obtain ⟨-, msg, rfl⟩ := hsecond.resolve_left fun h => hfails h.1
  exact ⟨digest, msg, after, hsubmit⟩

/-- Two closes that would each succeed are rejected with one whose id is not a shared object. -/
theorem unshared_id_rejects_batch :
    (submitCloseBatch sampleChain.node sampleChain.address []
        [sampleClose "0x1", sampleClose "0x3", sampleClose "0x2"]).map Prod.fst =
      .ok (List.replicate 3 (.error (.rejected "object 0x3 is not a shared tunnel: "))) ∧
    ∀ tunnelId ∈ ["0x1", "0x2"], (submitCloseBatch sampleChain.node sampleChain.address []
        [sampleClose tunnelId]).map Prod.fst = .ok [.ok "digest"] := by
  constructor
  · decide +kernel
  · decide +kernel

end DopamintArena.Backend
