import DopamintArena.Backend.SettleQueue
import DopamintArena.Foundation.Runs

/-!
`store/memory.rs`: the tunnel counters and the faucet windows of the in-memory
control store.

The counters are kept by difference against the previous status of an id. They
agree with the history of the calls as long as no tunnel falls back from active
to created and none is closed anew, which a replay from an earlier cursor does.
They are `AtomicU64` in the source and natural numbers here: a call raises each by
at most one, so that a wrap takes `2 ^ 64` calls, and the tunnel that is taken off
was counted before.

A faucet window is reset lazily by a claim, while a release takes one off
whatever window is current. A run records for each outstanding grant the window
it was granted in.
-/

namespace DopamintArena.Backend

open Foundation

/-- A moment, in nanoseconds since the clock was started. -/
abbrev Instant := Nat

structure InMemoryControlStore where
  tunnels : Registry
  activeTunnels : Nat
  settledTunnels : Nat
  faucetWindows : String → Option (Nat × Instant)

namespace InMemoryControlStore

def default : InMemoryControlStore := ⟨fun _ => none, 0, 0, fun _ => none⟩

/-! ### Tunnel counters -/

def setTunnelStatus (store : InMemoryControlStore) (id : String) (s : TunnelStatus) :
    InMemoryControlStore :=
  let prev := store.tunnels id
  let stored := { store with tunnels := Backend.setTunnelStatus store.tunnels id s }
  let wasActive := prev = some .active
  match s with
  | .active =>
    if wasActive then stored else { stored with activeTunnels := store.activeTunnels + 1 }
  | .closed =>
    if prev = some .closed then stored
    else
      { stored with
        activeTunnels := if wasActive then store.activeTunnels - 1 else store.activeTunnels
        settledTunnels := store.settledTunnels + 1 }
  | .created => stored

/-- A call of `set_tunnel_status`. -/
abbrev StatusCall := String × TunnelStatus

def afterCalls (calls : List StatusCall) : InMemoryControlStore :=
  calls.foldl (fun store call => store.setTunnelStatus call.1 call.2) default

/-- The status an id was last given. -/
def latestStatus (calls : List StatusCall) (id : String) : Option TunnelStatus :=
  calls.reverse.lookup id

/-- The ids whose latest status is active. -/
def activeIds (calls : List StatusCall) : Finset String :=
  (calls.map Prod.fst).toFinset.filter fun id => latestStatus calls id = some .active

/-- The ids that were closed at some point. -/
def closedIds (calls : List StatusCall) : Finset String :=
  (calls.map Prod.fst).toFinset.filter fun id => (id, .closed) ∈ calls

/-- The call puts an active tunnel back to created. -/
def Regresses (before : List StatusCall) (call : StatusCall) : Prop :=
  call.2 = .created ∧ latestStatus before call.1 = some .active

/-- The call closes a tunnel that was closed and has another status since. -/
def Recloses (before : List StatusCall) (call : StatusCall) : Prop :=
  call.2 = .closed ∧ call ∈ before ∧ latestStatus before call.1 ≠ some .closed

/-- `P` fails of every call and what came before it. -/
def Never (P : List StatusCall → StatusCall → Prop) (calls : List StatusCall) : Prop :=
  ∀ before call after, calls = before ++ call :: after → ¬P before call

theorem never_nil (P : List StatusCall → StatusCall → Prop) : Never P [] := by
  intro before call after h
  simp at h

theorem never_concat {P : List StatusCall → StatusCall → Prop} {calls : List StatusCall}
    {last : StatusCall} : Never P (calls ++ [last]) ↔ Never P calls ∧ ¬P calls last := by
  constructor
  · intro h
    refine ⟨?_, h calls last [] rfl⟩
    rintro before call after rfl
    exact h before call (after ++ [last]) (by simp)
  · rintro ⟨hcalls, hlast⟩ before call after hsplit
    rcases List.eq_nil_or_concat after with rfl | ⟨rest, x, rfl⟩
    · obtain ⟨rfl, hcall⟩ := List.append_inj' hsplit rfl
      cases hcall
      exact hlast
    · have hsplit' : calls ++ [last] = (before ++ call :: rest) ++ [x] := by
        simpa using hsplit
      obtain ⟨rfl, -⟩ := List.append_inj' hsplit' rfl
      exact hcalls before call rest rfl

section

variable {calls : List StatusCall} {call : StatusCall} {id : String}

@[simp] theorem afterCalls_concat :
    afterCalls (calls ++ [call]) = (afterCalls calls).setTunnelStatus call.1 call.2 := by
  simp [afterCalls]

theorem latestStatus_concat : latestStatus (calls ++ [call]) id =
    if id = call.1 then some call.2 else latestStatus calls id := by
  obtain ⟨name, _⟩ := call
  by_cases hid : id = name
  · simp [latestStatus, hid]
  · have hbeq : (id == name) = false := by simpa using hid
    simp [latestStatus, List.lookup_cons, hid, hbeq]

@[simp] theorem tunnels_setTunnelStatus (store : InMemoryControlStore) (s : TunnelStatus) :
    (store.setTunnelStatus id s).tunnels = Backend.setTunnelStatus store.tunnels id s := by
  cases s <;> simp only [setTunnelStatus] <;> split <;> rfl

theorem tunnels_afterCalls (calls : List StatusCall) (id : String) :
    (afterCalls calls).tunnels id = latestStatus calls id := by
  induction calls using List.reverseRecOn with
  | nil => rfl
  | append_singleton _ _ ih =>
    rw [afterCalls_concat, tunnels_setTunnelStatus, latestStatus_concat, ← ih]
    rfl

theorem mem_of_latestStatus {s : TunnelStatus} (h : latestStatus calls id = some s) :
    (id, s) ∈ calls := by
  induction calls using List.reverseRecOn with
  | nil => cases h
  | append_singleton _ _ ih =>
    rw [latestStatus_concat] at h
    split at h
    · next hid =>
        cases h
        simp [hid]
    · exact List.mem_append_left _ (ih h)

@[simp] theorem mem_activeIds :
    id ∈ activeIds calls ↔ latestStatus calls id = some .active := by
  simp only [activeIds, Finset.mem_filter, List.mem_toFinset, List.mem_map, and_iff_right_iff_imp]
  intro h
  exact ⟨_, mem_of_latestStatus h, rfl⟩

@[simp] theorem mem_closedIds : id ∈ closedIds calls ↔ (id, .closed) ∈ calls := by
  simp only [closedIds, Finset.mem_filter, List.mem_toFinset, List.mem_map, and_iff_right_iff_imp]
  intro h
  exact ⟨_, h, rfl⟩

theorem activeIds_concat_active :
    activeIds (calls ++ [(id, .active)]) = insert id (activeIds calls) := by
  ext other
  by_cases hother : other = id <;> simp [latestStatus_concat, hother]

theorem activeIds_concat_other {s : TunnelStatus} (hs : s ≠ .active) :
    activeIds (calls ++ [(id, s)]) = (activeIds calls).erase id := by
  ext other
  by_cases hother : other = id <;> simp [latestStatus_concat, hother, hs]

theorem closedIds_concat_closed :
    closedIds (calls ++ [(id, .closed)]) = insert id (closedIds calls) := by
  ext other
  simp only [mem_closedIds, List.mem_append, List.mem_singleton, Prod.mk.injEq, and_true,
    Finset.mem_insert]
  exact or_comm

theorem closedIds_concat_other {s : TunnelStatus} (hs : s ≠ .closed) :
    closedIds (calls ++ [(id, s)]) = closedIds calls := by
  ext other
  simp [Ne.symm hs]

/-- The active counter is never too low, and exact while no call regresses. -/
theorem activeTunnels_count (calls : List StatusCall) :
    (activeIds calls).card ≤ (afterCalls calls).activeTunnels ∧
      ((afterCalls calls).activeTunnels = (activeIds calls).card ↔ Never Regresses calls) := by
  induction calls using List.reverseRecOn with
  | nil => exact ⟨Nat.le_refl _, iff_of_true rfl (never_nil _)⟩
  | append_singleton calls call ih =>
    obtain ⟨id, s⟩ := call
    obtain ⟨hle, hexact⟩ := ih
    rw [never_concat, ← hexact, afterCalls_concat]
    have hprev := tunnels_afterCalls calls id
    have hmem : id ∈ activeIds calls ↔ latestStatus calls id = some .active := mem_activeIds
    by_cases hactive : latestStatus calls id = some .active
    · have hid := hmem.mpr hactive
      have herase := Finset.card_erase_add_one hid
      cases s with
      | created =>
        rw [activeIds_concat_other (by decide)]
        simp only [setTunnelStatus, Regresses, hactive, and_self, not_true, and_false, iff_false]
        omega
      | active =>
        rw [activeIds_concat_active, Finset.insert_eq_of_mem hid]
        simpa [setTunnelStatus, Regresses, hprev, hactive] using hle
      | closed =>
        rw [activeIds_concat_other (by decide)]
        simp only [setTunnelStatus, hprev, hactive, Option.some.injEq, reduceCtorEq, if_false,
          if_true, Regresses, not_false_eq_true, and_true]
        omega
    · have hid := mt hmem.mp hactive
      cases s with
      | created =>
        rw [activeIds_concat_other (by decide), Finset.erase_eq_of_notMem hid]
        simpa [setTunnelStatus, Regresses, hactive] using hle
      | active =>
        rw [activeIds_concat_active, Finset.card_insert_of_notMem hid]
        simpa [setTunnelStatus, Regresses, hprev, hactive] using hle
      | closed =>
        rw [activeIds_concat_other (by decide), Finset.erase_eq_of_notMem hid]
        simp only [setTunnelStatus, hprev, hactive, if_false, Regresses, reduceCtorEq,
          false_and, not_false_eq_true, and_true]
        split <;> simpa using hle

/-- The settled counter is never too low, and exact while no call closes a tunnel anew. -/
theorem settledTunnels_count (calls : List StatusCall) :
    (closedIds calls).card ≤ (afterCalls calls).settledTunnels ∧
      ((afterCalls calls).settledTunnels = (closedIds calls).card ↔ Never Recloses calls) := by
  induction calls using List.reverseRecOn with
  | nil => exact ⟨Nat.le_refl _, iff_of_true rfl (never_nil _)⟩
  | append_singleton calls call ih =>
    obtain ⟨id, s⟩ := call
    obtain ⟨hle, hexact⟩ := ih
    rw [never_concat, ← hexact, afterCalls_concat]
    have hprev := tunnels_afterCalls calls id
    cases s with
    | created =>
      rw [closedIds_concat_other (by decide)]
      simpa [setTunnelStatus, Recloses] using hle
    | active =>
      rw [closedIds_concat_other (by decide)]
      simp only [setTunnelStatus, Recloses, reduceCtorEq, false_and, not_false_eq_true,
        and_true]
      split <;> simpa using hle
    | closed =>
      rw [closedIds_concat_closed]
      by_cases hclosed : latestStatus calls id = some .closed
      · rw [Finset.insert_eq_of_mem (mem_closedIds.mpr (mem_of_latestStatus hclosed))]
        simpa [setTunnelStatus, Recloses, hprev, hclosed] using hle
      · by_cases hever : (id, TunnelStatus.closed) ∈ calls
        · rw [Finset.insert_eq_of_mem (mem_closedIds.mpr hever)]
          simp only [setTunnelStatus, hprev, hclosed, if_false, Recloses, hever, ne_eq,
            not_false_eq_true, and_self, not_true, and_false, iff_false]
          omega
        · rw [Finset.card_insert_of_notMem (mt mem_closedIds.mp hever)]
          simpa [setTunnelStatus, Recloses, hprev, hclosed, hever] using hle

end

/-- The two counters say what the history says exactly when no call put an active tunnel back
to created and none closed a tunnel that had been closed and reopened. -/
theorem counters_exact_iff (calls : List StatusCall) :
    ((afterCalls calls).activeTunnels = (activeIds calls).card ∧
      (afterCalls calls).settledTunnels = (closedIds calls).card) ↔
    ∀ before id s after, calls = before ++ (id, s) :: after →
      ¬(s = .created ∧ latestStatus before id = some .active) ∧
      ¬(s = .closed ∧ (id, .closed) ∈ before ∧ latestStatus before id ≠ some .closed) := by
  rw [(activeTunnels_count calls).2, (settledTunnels_count calls).2]
  constructor
  · rintro ⟨hregress, hreclose⟩ before id s after hsplit
    refine ⟨hregress before (id, s) after hsplit, ?_⟩
    rintro ⟨rfl, hever, hlatest⟩
    exact hreclose before _ after hsplit ⟨rfl, hever, hlatest⟩
  · intro h
    refine ⟨fun before call after hsplit => (h before call.1 call.2 after hsplit).1, ?_⟩
    rintro before ⟨id, s⟩ after hsplit ⟨hclosed, hever, hlatest⟩
    cases hclosed
    exact (h before id _ after hsplit).2 ⟨rfl, hever, hlatest⟩

/-- A tunnel runs through its life and the indexer, restarted, reads the same three events
again: one tunnel is settled, the counter says two. -/
theorem replayed_life_settles_twice :
    (afterCalls [("0xt", .created), ("0xt", .active), ("0xt", .closed),
      ("0xt", .created), ("0xt", .active), ("0xt", .closed)]).settledTunnels = 2 ∧
    (closedIds [("0xt", .created), ("0xt", .active), ("0xt", .closed),
      ("0xt", .created), ("0xt", .active), ("0xt", .closed)]).card = 1 ∧
    (afterCalls [("0xu", .created), ("0xu", .active), ("0xu", .created)]).activeTunnels = 1 ∧
    (activeIds [("0xu", .created), ("0xu", .active), ("0xu", .created)]).card = 0 := by
  decide

/-! ### Faucet windows -/

/-- `Duration::from_secs(window_secs.max(0) as u64)`. -/
def faucetWindow (windowSecs : Int) : Nat := windowSecs.toNat * 1000000000

/-- The claim finds no window, or one that has elapsed. -/
def OpensWindow (store : InMemoryControlStore) (address : String) (now : Instant) : Prop :=
  ∀ entry, store.faucetWindows address = some entry → entry.2 ≤ now

instance (store : InMemoryControlStore) (address : String) (now : Instant) :
    Decidable (store.OpensWindow address now) :=
  match h : store.faucetWindows address with
  | none => isTrue fun _ hentry => by rw [h] at hentry; cases hentry
  | some entry => decidable_of_iff (entry.2 ≤ now) (by simp [OpensWindow, h])

def claimFaucetSlot (store : InMemoryControlStore) (now : Instant) (address : String)
    (windowSecs : Int) (maxPerWindow : Nat) : Bool × InMemoryControlStore :=
  let window := faucetWindow windowSecs
  let entry := (store.faucetWindows address).getD (0, now + window)
  let entry := if entry.2 ≤ now then (0, now + window) else entry
  if entry.1 < maxPerWindow then
    (true, { store with
      faucetWindows := Function.update store.faucetWindows address (some (entry.1 + 1, entry.2)) })
  else
    (false, { store with
      faucetWindows := Function.update store.faucetWindows address (some entry) })

def releaseFaucetSlot (store : InMemoryControlStore) (address : String) : InMemoryControlStore :=
  match store.faucetWindows address with
  | some entry => { store with
      faucetWindows := Function.update store.faucetWindows address (some (entry.1 - 1, entry.2)) }
  | none => store

/-- The pulls counted in the window that a claim at `now` falls into. -/
def pulls (store : InMemoryControlStore) (address : String) (now : Instant) : Nat :=
  if store.OpensWindow address now then 0 else ((store.faucetWindows address).map Prod.fst).getD 0

/-- A claim is granted while the window it falls into has room, and counted there. -/
theorem claimFaucetSlot_spec (store : InMemoryControlStore) (now : Instant) (address : String)
    (windowSecs : Int) (maxPerWindow : Nat) :
    let granted := decide (store.pulls address now < maxPerWindow)
    ∃ deadline, store.claimFaucetSlot now address windowSecs maxPerWindow =
      (granted, { store with
        faucetWindows := Function.update store.faucetWindows address
          (some (store.pulls address now + granted.toNat, deadline)) }) := by
  cases hentry : store.faucetWindows address with
  | none =>
    have hpulls : store.pulls address now = 0 := by simp [pulls, hentry]
    simp only [claimFaucetSlot, hentry, Option.getD_none, hpulls]
    split <;> split <;> rename_i hroom
    all_goals
      simp only at hroom
      simp only [hroom, decide_true, decide_false, Bool.toNat_true, Bool.toNat_false]
      exact ⟨_, rfl⟩
  | some entry =>
    by_cases helapsed : entry.2 ≤ now
    · have hpulls : store.pulls address now = 0 := by
        simp [pulls, OpensWindow, hentry, helapsed]
      simp only [claimFaucetSlot, hentry, Option.getD_some, helapsed, if_true, hpulls]
      split <;> rename_i hroom
      all_goals
        simp only [hroom, decide_true, decide_false, Bool.toNat_true, Bool.toNat_false]
        exact ⟨_, rfl⟩
    · have hpulls : store.pulls address now = entry.1 := by
        simp [pulls, OpensWindow, hentry, helapsed]
      simp only [claimFaucetSlot, hentry, Option.getD_some, helapsed, if_false, hpulls]
      split <;> rename_i hroom
      all_goals
        simp only [hroom, decide_true, decide_false, Bool.toNat_true, Bool.toNat_false]
        exact ⟨_, rfl⟩

end InMemoryControlStore

/-- A granted claim: who made it, and which of the address's windows it fell into. -/
abbrev Grant := String × Nat

/-- The store with what a run records about it: how many windows each address has opened, the
grants not given back, and the time of the last call. -/
structure FaucetRun where
  store : InMemoryControlStore
  opened : String → Nat
  grants : List Grant
  clock : Instant

inductive FaucetCall
  | claim (address : String) (now : Instant)
  | release (grant : Grant) (now : Instant)

namespace FaucetRun

def start : FaucetRun := ⟨.default, fun _ => 0, [], 0⟩

/-- The windows opened once a claim at `now` has been made. -/
def openedBy (s : FaucetRun) (address : String) (now : Instant) : String → Nat :=
  if s.store.OpensWindow address now then Function.update s.opened address (s.opened address + 1)
  else s.opened

/-- Times do not decrease, and a release follows a granted claim. -/
def step (windowSecs : Int) (maxPerWindow : Nat) (s : FaucetRun) :
    FaucetCall → Except String FaucetRun
  | .claim address now => do
    require (s.clock ≤ now) "the clock went back"
    let (granted, store) := s.store.claimFaucetSlot now address windowSecs maxPerWindow
    let opened := s.openedBy address now
    pure
      { store := store, opened := opened, clock := now
        grants := if granted then (address, opened address) :: s.grants else s.grants }
  | .release grant now => do
    require (s.clock ≤ now) "the clock went back"
    require (grant ∈ s.grants) "no such claim"
    pure
      { s with
        store := s.store.releaseFaucetSlot grant.1, grants := s.grants.erase grant, clock := now }

/-- The claim that is released fell into what still is the address's window. -/
def InItsWindow (s : FaucetRun) : FaucetCall → Prop
  | .claim _ _ => True
  | .release grant _ => grant.2 = s.opened grant.1

instance (s : FaucetRun) (call : FaucetCall) : Decidable (s.InItsWindow call) :=
  match call with
  | .claim _ _ => isTrue trivial
  | .release _ _ => inferInstanceAs (Decidable (_ = _))

/-- In no window are more claims granted and kept than the limit. -/
def WithinLimit (maxPerWindow : Nat) (s : FaucetRun) : Prop :=
  ∀ grant, s.grants.count grant ≤ maxPerWindow

/-- All runs of the faucet. -/
def system (windowSecs : Int) (maxPerWindow : Nat) : System FaucetRun FaucetCall :=
  .accepting (step windowSecs maxPerWindow) start

/-- The runs in which each release comes while its claim's window is still the current one. -/
def promptSystem (windowSecs : Int) (maxPerWindow : Nat) : System FaucetRun FaucetCall :=
  .accepting (fun s call => do
    require (s.InItsWindow call) "the claim's window has been replaced"
    step windowSecs maxPerWindow s call) start

/-- The counter of an address is the number of its grants in the current window, every window
keeps to the limit, and no grant lies ahead of the current window. -/
structure Metered (maxPerWindow : Nat) (s : FaucetRun) : Prop where
  counted : ∀ address, s.grants.count (address, s.opened address) =
    ((s.store.faucetWindows address).map Prod.fst).getD 0
  limited : s.WithinLimit maxPerWindow
  opened : ∀ grant ∈ s.grants, grant.2 ≤ s.opened grant.1

section

variable {windowSecs : Int} {maxPerWindow : Nat} {s s' : FaucetRun} {address : String}
variable {now : Instant}

theorem openedBy_of_ne {other : String} (hother : other ≠ address) :
    s.openedBy address now other = s.opened other := by
  unfold openedBy
  split
  · exact Function.update_of_ne hother _ _
  · rfl

theorem le_openedBy (other : String) : s.opened other ≤ s.openedBy address now other := by
  by_cases hother : other = address
  · subst hother
    unfold openedBy
    split
    · simp
    · exact Nat.le_refl _
  · exact Nat.le_of_eq (openedBy_of_ne hother).symm

/-- The pulls a claim finds are the grants of the window it falls into: a window it opens
has none yet. -/
theorem Metered.count_openedBy (h : s.Metered maxPerWindow) (address : String) (now : Instant) :
    s.grants.count (address, s.openedBy address now address) = s.store.pulls address now := by
  by_cases hopens : s.store.OpensWindow address now
  · simp only [openedBy, hopens, if_true, Function.update_self, InMemoryControlStore.pulls]
    apply List.count_eq_zero.mpr
    intro hmem
    have := h.opened _ hmem
    simp at this
  · simp only [openedBy, hopens, if_false, InMemoryControlStore.pulls]
    exact h.counted address

theorem Metered.claim (h : s.Metered maxPerWindow)
    (hstep : step windowSecs maxPerWindow s (.claim address now) = .ok s') :
    s'.Metered maxPerWindow := by
  obtain ⟨_, hclaim⟩ :=
    s.store.claimFaucetSlot_spec now address windowSecs maxPerWindow
  have hcount := h.count_openedBy address now
  simp only [step, hclaim, returned, decide_eq_true_eq] at hstep
  obtain ⟨-, rfl⟩ := hstep
  have hgrants (grant : Grant) :
      (if s.store.pulls address now < maxPerWindow then
        (address, s.openedBy address now address) :: s.grants else s.grants).count grant =
      s.grants.count grant + if grant = (address, s.openedBy address now address) then
        (decide (s.store.pulls address now < maxPerWindow)).toNat else 0 := by
    by_cases hroom : s.store.pulls address now < maxPerWindow
    · by_cases hgrant : grant = (address, s.openedBy address now address)
      · simp [hroom, hgrant]
      · simp [hroom, hgrant, Ne.symm hgrant]
    · simp [hroom]
  refine ⟨?_, ?_, ?_⟩
  · intro other
    simp only [hgrants, Prod.mk.injEq]
    by_cases hother : other = address
    · subst hother
      simp [hcount]
    · simp [hother, openedBy_of_ne hother, h.counted other]
  · intro grant
    simp only [hgrants]
    have hlimit := h.limited grant
    split
    · next hgrant =>
        rw [hgrant, hcount] at hlimit ⊢
        by_cases hroom : s.store.pulls address now < maxPerWindow
        · simp only [hroom, decide_true, Bool.toNat_true]
          omega
        · simpa [hroom] using hlimit
    · simpa using hlimit
  · intro grant hgrant
    simp only at hgrant ⊢
    split at hgrant
    · rcases List.mem_cons.mp hgrant with rfl | hgrant
      · exact Nat.le_refl _
      · exact (h.opened grant hgrant).trans (le_openedBy grant.1)
    · exact (h.opened grant hgrant).trans (le_openedBy grant.1)

/-- A release in its own window takes the counter down with the grant. -/
theorem Metered.release (h : s.Metered maxPerWindow) {grant : Grant}
    (hwindow : grant.2 = s.opened grant.1)
    (hstep : step windowSecs maxPerWindow s (.release grant now) = .ok s') :
    s'.Metered maxPerWindow := by
  obtain ⟨address, _⟩ := grant
  simp only at hwindow
  subst hwindow
  simp only [step, returned] at hstep
  obtain ⟨-, _, rfl⟩ := hstep
  refine ⟨?_, ?_, ?_⟩
  · intro other
    have hcounted := h.counted other
    simp only [InMemoryControlStore.releaseFaucetSlot]
    by_cases hother : other = address
    · subst hother
      rw [List.count_erase_self, hcounted]
      cases hentry : s.store.faucetWindows other <;> simp [hentry]
    · have hne : (other, s.opened other) ≠ (address, s.opened address) := by
        simp [hother]
      rw [List.count_erase_of_ne hne, hcounted]
      cases s.store.faucetWindows address <;> simp [hother]
  · intro grant
    exact (List.erase_sublist.count_le grant).trans (h.limited grant)
  · intro grant hgrant
    exact h.opened grant (List.mem_of_mem_erase hgrant)

theorem prompt_metered {calls : List FaucetCall}
    (hrun : (promptSystem windowSecs maxPerWindow).Run calls s) : s.Metered maxPerWindow := by
  apply hrun.invariant (I := fun _ s => s.Metered maxPerWindow)
  · rintro _ _ ⟨-, rfl⟩
    refine ⟨fun _ => rfl, fun _ => Nat.zero_le _, ?_⟩
    intro grant hgrant
    cases hgrant
  · intro _ s call s' _ hmetered hstep
    simp only [promptSystem, System.accepting, returned] at hstep
    obtain ⟨hwindow, hstep⟩ := hstep
    cases call with
    | claim => exact hmetered.claim hstep
    | release => exact hmetered.release hwindow hstep

end

/-- As long as each release comes while its claim's window is still the current one of the
address, no window ever has more kept grants than the limit. -/
theorem prompt_runs_within_limit {windowSecs : Int} {maxPerWindow : Nat}
    {calls : List FaucetCall} {s : FaucetRun}
    (hrun : (promptSystem windowSecs maxPerWindow).Run calls s) :
    s.WithinLimit maxPerWindow :=
  (prompt_metered hrun).limited

/-- Two pulls in ten seconds: one is given back and made up for, a fourth claim is refused. -/
def promptCalls : List FaucetCall :=
  [.claim "0xa" 0, .release ("0xa", 1) 5, .claim "0xa" 6, .claim "0xa" 7, .claim "0xa" 8]

theorem prompt_runs_within_limit_two : ∃ s, (promptSystem 10 2).Run promptCalls s ∧
    s.grants = [("0xa", 1), ("0xa", 1)] ∧ s.WithinLimit 2 := by
  obtain ⟨s, hrun, hgrants⟩ : ∃ s, (promptSystem 10 2).Run promptCalls s ∧
      s.grants = [("0xa", 1), ("0xa", 1)] :=
    System.exists_run_of_replay (by decide +kernel)
  exact ⟨s, hrun, hgrants, prompt_runs_within_limit hrun⟩

/-- One pull in ten seconds. The first claim's mint fails only after its window has elapsed and
a second claim has opened the next one; the release makes room for a third. -/
def lateRelease : List FaucetCall :=
  [.claim "0xa" 0, .claim "0xa" 10000000000, .release ("0xa", 1) 10000000001,
    .claim "0xa" 10000000002]

theorem late_release_exceeds_limit : ∃ s, (system 10 1).Run lateRelease s ∧
    s.grants = [("0xa", 2), ("0xa", 2)] ∧ ¬s.WithinLimit 1 := by
  obtain ⟨s, hrun, hgrants⟩ : ∃ s, (system 10 1).Run lateRelease s ∧
      s.grants = [("0xa", 2), ("0xa", 2)] :=
    System.exists_run_of_replay (by decide +kernel)
  refine ⟨s, hrun, hgrants, ?_⟩
  intro hwithin
  have hcount := hwithin ("0xa", 2)
  rw [hgrants] at hcount
  revert hcount
  decide

end FaucetRun

end DopamintArena.Backend
