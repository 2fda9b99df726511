import DopamintArena.Foundation.Machine
import DopamintArena.Foundation.Runs
import DopamintArena.Foundation.Weights
import DopamintArena.Move.Signature

/-!
The referee committee of `referee.move`: weighted members that are added and
deactivated, and the tally of their votes.

A vote's suggested penalty and timestamp are not read by the tally and are
left out.
-/

namespace DopamintArena.Move

open Foundation

structure CommitteeMember where
  address : Address
  weight : UInt64
  active : Bool
deriving DecidableEq

structure Committee where
  members : List CommitteeMember
  threshold : UInt64
  totalWeight : UInt64
deriving DecidableEq

structure Vote where
  voter : Address
  inFavorOfA : Bool
deriving DecidableEq

def createCommittee (threshold : UInt64) : Committee :=
  ⟨[], threshold, 0⟩

def addCommitteeMember (committee : Committee) (memberAddress : Address) (weight : UInt64) :
    Except Abort Committee := do
  require (weight > 0) .invalidParameter
  require (∀ existing ∈ committee.members,
    ¬(existing.address = memberAddress ∧ existing.active = true)) .invalidParameter
  let total ← checkedAdd .arithmeticError committee.totalWeight weight
  pure { committee with
    members := committee.members ++ [⟨memberAddress, weight, true⟩]
    totalWeight := total }

/-- The first active member with this address, deactivated in place: its weight
and the new member list. -/
def deactivate (memberAddress : Address) :
    List CommitteeMember → Option (UInt64 × List CommitteeMember)
  | [] => none
  | member :: rest =>
    if member.address = memberAddress ∧ member.active = true then
      some (member.weight, { member with active := false } :: rest)
    else
      (deactivate memberAddress rest).map fun found => (found.1, member :: found.2)

def removeCommitteeMember (committee : Committee) (memberAddress : Address) :
    Except Abort Committee :=
  match deactivate memberAddress committee.members with
  | some (weight, members) => do
    let total ← checkedSub .arithmeticError committee.totalWeight weight
    pure { committee with members := members, totalWeight := total }
  | none => pure committee

/-- One pass of the loop over the votes: the weight counted so far and the
voters already seen. A vote for the other side or by a voter already seen
changes nothing, and so does one by somebody who is not an active member. -/
def countVote (committee : Committee) (inFavorOfA : Bool)
    (counted : UInt64 × List Address) (vote : Vote) : Except Abort (UInt64 × List Address) :=
  if vote.voter ∉ counted.2 ∧ vote.inFavorOfA = inFavorOfA then
    match committee.members.find? fun member =>
        member.address = vote.voter ∧ member.active = true with
    | some member => do
      let total ← checkedAdd .arithmeticError counted.1 member.weight
      pure (total, counted.2 ++ [vote.voter])
    | none => pure counted
  else
    pure counted

def votesMeetThreshold (committee : Committee) (votes : List Vote) (inFavorOfA : Bool) :
    Except Abort Bool := do
  let counted ← votes.foldlM (countVote committee inFavorOfA) (0, [])
  pure (counted.1 ≥ committee.threshold)

inductive CommitteeCall
  | add (memberAddress : Address) (weight : UInt64)
  | remove (memberAddress : Address)

def committeeStep (committee : Committee) : CommitteeCall → Except Abort Committee
  | .add memberAddress weight => addCommitteeMember committee memberAddress weight
  | .remove memberAddress => removeCommitteeMember committee memberAddress

/-- The committees reachable from a fresh one through successful calls. -/
abbrev committees (threshold : UInt64) : System Committee CommitteeCall :=
  System.accepting committeeStep (createCommittee threshold)

/-!
The weight of a group of addresses is the sum over the active members in it.
Active members have distinct addresses, so an address weighs what its only
active member does.
-/

/-- The weight of the active members whose address is in `group`. -/
def activeWeight (members : List CommitteeMember) (group : Address → Bool) : Nat :=
  weightOf (fun member => member.weight.toNat) members
    fun member => member.active && group member.address

/-- No two active members share an address. -/
def DistinctActive (members : List CommitteeMember) : Prop :=
  members.Pairwise fun member member' =>
    member.active = true → member'.active = true → member.address ≠ member'.address

/-- What holds of every committee that calls can build. -/
structure Committee.WellFormed (committee : Committee) : Prop where
  distinct : DistinctActive committee.members
  total : committee.totalWeight.toNat = activeWeight committee.members fun _ => true

section Weights

variable {members rest updated : List CommitteeMember} {member : CommitteeMember}
  {group : Address → Bool} {address : Address} {weight : UInt64}

theorem activeWeight_le_all :
    activeWeight members group ≤ activeWeight members fun _ => true := by
  refine weightOf_mono fun member _ hcounts => ?_
  have hactive : member.active = true := (Bool.and_eq_true_iff.mp hcounts).1
  simp [hactive]

theorem deactivate_cons
    (hfound : deactivate address (member :: rest) = some (weight, updated)) :
    (member.active = true ∧ weight = member.weight ∧
        updated = { member with active := false } :: rest) ∨
      ∃ tail, deactivate address rest = some (weight, tail) ∧ updated = member :: tail := by
  unfold deactivate at hfound
  split at hfound
  · rename_i hmatch
    obtain ⟨rfl, rfl⟩ := Prod.mk.inj (Option.some.inj hfound)
    exact .inl ⟨hmatch.2, rfl, rfl⟩
  · obtain ⟨⟨_, tail⟩, htail, hpair⟩ := Option.map_eq_some_iff.mp hfound
    obtain ⟨rfl, rfl⟩ := Prod.mk.inj hpair
    exact .inr ⟨tail, htail, rfl⟩

section

variable (hfound : deactivate address members = some (weight, updated))
include hfound

theorem activeWeight_deactivate :
    activeWeight members (fun _ => true) =
      activeWeight updated (fun _ => true) + weight.toNat := by
  induction members generalizing updated with
  | nil => cases hfound
  | cons _ _ ih =>
    rcases deactivate_cons hfound with ⟨hactive, rfl, rfl⟩ | ⟨_, htail, rfl⟩
    · simp [activeWeight, weightOf_cons, hactive, Nat.add_comm]
    · have hrest := ih htail
      simp only [activeWeight, weightOf_cons] at hrest ⊢
      omega

theorem mem_of_mem_deactivate (hmember : member ∈ updated) (hactive : member.active = true) :
    member ∈ members := by
  induction members generalizing updated with
  | nil => cases hfound
  | cons _ _ ih =>
    rcases deactivate_cons hfound with ⟨-, -, rfl⟩ | ⟨_, htail, rfl⟩
    · rcases List.mem_cons.mp hmember with rfl | hrest
      · cases hactive
      · exact List.mem_cons_of_mem _ hrest
    · rcases List.mem_cons.mp hmember with rfl | hrest
      · exact List.mem_cons_self
      · exact List.mem_cons_of_mem _ (ih htail hrest)

theorem distinctActive_deactivate (hdistinct : DistinctActive members) :
    DistinctActive updated := by
  induction members generalizing updated with
  | nil => cases hfound
  | cons _ _ ih =>
    obtain ⟨hfirst, hrest⟩ := List.pairwise_cons.mp hdistinct
    rcases deactivate_cons hfound with ⟨-, -, rfl⟩ | ⟨_, htail, rfl⟩
    · refine List.pairwise_cons.mpr ⟨?_, hrest⟩
      intro other _ hinactive
      cases hinactive
    · refine List.pairwise_cons.mpr ⟨?_, ih htail hrest⟩
      intro other hother hactive hactive'
      exact hfirst other (mem_of_mem_deactivate htail hother hactive') hactive hactive'

end

/-- Among distinct active members the one that `find?` returns is the whole
weight of its address. -/
theorem activeWeight_address (hdistinct : DistinctActive members)
    (hfound : members.find? (fun member => member.address = address ∧ member.active = true) =
      some member) :
    activeWeight members (fun a => a = address) = member.weight.toNat := by
  induction members with
  | nil => cases hfound
  | cons first rest ih =>
    obtain ⟨hfirst, hrest⟩ := List.pairwise_cons.mp hdistinct
    unfold activeWeight at ih ⊢
    rw [weightOf_cons]
    by_cases hmatch : first.address = address ∧ first.active = true
    · rw [List.find?_cons_of_pos (by simpa using hmatch)] at hfound
      cases hfound
      have hothers : weightOf (fun member => member.weight.toNat) rest
          (fun member => member.active && decide (member.address = address)) = 0 := by
        refine weightOf_eq_zero fun other hother => ?_
        by_contra hcounts
        have hcounts' : other.active = true ∧ other.address = address := by
          simpa using hcounts
        exact hfirst other hother hmatch.2 hcounts'.1 (hmatch.1.trans hcounts'.2.symm)
      simp [hmatch, hothers]
    · rw [List.find?_cons_of_neg (by simpa using hmatch)] at hfound
      have hskip : (first.active && decide (first.address = address)) = false := by
        rw [Bool.eq_false_iff]
        intro hcounts
        have hcounts' : first.active = true ∧ first.address = address := by
          simpa using hcounts
        exact hmatch hcounts'.symm
      rw [hskip, ih hrest hfound]
      simp

end Weights

/-!
Every call keeps the committee well formed.
-/

theorem wellFormed_createCommittee (threshold : UInt64) :
    (createCommittee threshold).WellFormed :=
  ⟨List.Pairwise.nil, rfl⟩

theorem wellFormed_addCommitteeMember {committee committee' : Committee}
    {memberAddress : Address} {weight : UInt64}
    (hadd : addCommitteeMember committee memberAddress weight = .ok committee')
    (hbefore : committee.WellFormed) : committee'.WellFormed := by
  simp only [addCommitteeMember, bind_ok_iff, require_ok_iff, pure_ok_iff,
    checkedAdd_ok_iff] at hadd
  obtain ⟨-, -, -, hnew, total, _, rfl⟩ := hadd
  refine ⟨pairwise_concat hbefore.distinct ?_, ?_⟩
  · intro existing hexisting hactive _ hsame
    exact hnew existing hexisting ⟨hsame, hactive⟩
  · have hsum := hbefore.total
    simp only [activeWeight, weightOf_append, weightOf_cons, weightOf_nil] at hsum ⊢
    simp only [Bool.and_true, reduceIte] at hsum ⊢
    omega

theorem wellFormed_removeCommitteeMember {committee committee' : Committee}
    {memberAddress : Address}
    (hremove : removeCommitteeMember committee memberAddress = .ok committee')
    (hbefore : committee.WellFormed) : committee'.WellFormed := by
  unfold removeCommitteeMember at hremove
  cases hfound : deactivate memberAddress committee.members with
  | none =>
    rw [hfound] at hremove
    cases hremove
    exact hbefore
  | some found =>
    obtain ⟨_, members⟩ := found
    rw [hfound] at hremove
    simp only [bind_ok_iff, pure_ok_iff, checkedSub_ok_iff] at hremove
    obtain ⟨total, _, rfl⟩ := hremove
    refine ⟨distinctActive_deactivate hfound hbefore.distinct, ?_⟩
    have hsum := hbefore.total
    rw [activeWeight_deactivate hfound] at hsum
    show total.toNat = activeWeight members fun _ => true
    omega

/-- The weight to take off the total is part of it. -/
theorem removeCommitteeMember_isOk {committee : Committee} (hcommittee : committee.WellFormed)
    (memberAddress : Address) :
    (removeCommitteeMember committee memberAddress).isOk = true := by
  unfold removeCommitteeMember
  cases hfound : deactivate memberAddress committee.members with
  | none => rfl
  | some found =>
    have hsum := hcommittee.total
    rw [activeWeight_deactivate hfound] at hsum
    have hle : found.1 ≤ committee.totalWeight := by
      rw [UInt64.le_iff_toNat_le]
      omega
    simp [checkedSub, hle]
    rfl

theorem wellFormed_of_run {threshold : UInt64} {calls : List CommitteeCall}
    {committee : Committee} (hrun : (committees threshold).Run calls committee) :
    committee.WellFormed := by
  refine hrun.invariant (I := fun _ committee => committee.WellFormed) ?_ ?_
  · rintro _ _ ⟨-, rfl⟩
    exact wellFormed_createCommittee threshold
  · intro _ before call after _ hbefore hstep
    cases call with
    | add => exact wellFormed_addCommitteeMember hstep hbefore
    | remove => exact wellFormed_removeCommitteeMember hstep hbefore

/-!
The tally. A side's count is the weight of the active members who voted for it
at least once.
-/

def votedFor (votes : List Vote) (inFavorOfA : Bool) (address : Address) : Bool :=
  votes.any fun vote => vote.voter = address ∧ vote.inFavorOfA = inFavorOfA

/-- The loop's state after some votes: the voters seen are the active members
who voted for the side, and their weight has been counted. -/
structure Counted (committee : Committee) (votes : List Vote) (inFavorOfA : Bool)
    (counted : UInt64 × List Address) : Prop where
  seen : ∀ member ∈ committee.members, member.active = true →
    (member.address ∈ counted.2 ↔ votedFor votes inFavorOfA member.address = true)
  weight : counted.1.toNat = activeWeight committee.members fun a => a ∈ counted.2

section Tally

variable {committee : Committee} {votes : List Vote} {inFavorOfA : Bool}
  {counted : UInt64 × List Address}

theorem votedFor_concat {vote : Vote} {address : Address} :
    votedFor (votes ++ [vote]) inFavorOfA address = true ↔
      votedFor votes inFavorOfA address = true ∨
        vote.voter = address ∧ vote.inFavorOfA = inFavorOfA := by
  simp [votedFor]

section

variable (hcommittee : committee.WellFormed)
include hcommittee

/-- A new voter who is an active member adds exactly that member's weight. -/
theorem activeWeight_concat {seen : List Address} {voter : Address} {member : CommitteeMember}
    (hnew : voter ∉ seen) (hfound : committee.members.find?
        (fun member => member.address = voter ∧ member.active = true) = some member) :
    activeWeight committee.members (fun a => a ∈ seen ++ [voter]) =
      activeWeight committee.members (fun a => a ∈ seen) + member.weight.toNat := by
  have hdisjoint : weightOf (fun member => member.weight.toNat) committee.members
      (fun member => (member.active && decide (member.address ∈ seen)) &&
        (member.active && decide (member.address = voter))) = 0 := by
    refine weightOf_eq_zero fun other _ => ?_
    by_cases hvoter : other.address = voter
    · simp [hvoter, hnew]
    · simp [hvoter]
  have hunion : activeWeight committee.members (fun a => a ∈ seen ++ [voter]) =
      weightOf (fun member => member.weight.toNat) committee.members
        (fun member => (member.active && decide (member.address ∈ seen)) ||
          (member.active && decide (member.address = voter))) := by
    refine weightOf_congr fun other _ => ?_
    simp [← Bool.and_or_distrib_left]
  calc activeWeight committee.members (fun a => a ∈ seen ++ [voter])
      _ = activeWeight committee.members (fun a => a ∈ seen) +
            activeWeight committee.members (fun a => a = voter) := by
          rw [hunion, ← Nat.add_zero (weightOf _ _ _), ← hdisjoint]
          exact weightOf_or_add_and
      _ = activeWeight committee.members (fun a => a ∈ seen) + member.weight.toNat := by
          rw [activeWeight_address hcommittee.distinct hfound]

/-- One more vote is counted, and never overflows: what is counted is part of
the committee's total weight. -/
theorem countVote_counted (hcounted : Counted committee votes inFavorOfA counted) (vote : Vote) :
    ∃ counted', countVote committee inFavorOfA counted vote = .ok counted' ∧
      Counted committee (votes ++ [vote]) inFavorOfA counted' := by
  unfold countVote
  by_cases hcounts : vote.voter ∉ counted.2 ∧ vote.inFavorOfA = inFavorOfA
  · rw [if_pos hcounts]
    cases hfound : committee.members.find? (fun member =>
        member.address = vote.voter ∧ member.active = true) with
    | none =>
      refine ⟨counted, rfl, fun member hmember hactive => ?_, hcounted.weight⟩
      have hother : ¬(vote.voter = member.address ∧ vote.inFavorOfA = inFavorOfA) := by
        rintro ⟨hvoter, -⟩
        have hnone := List.find?_eq_none.mp hfound member hmember
        simp [hvoter, hactive] at hnone
      rw [votedFor_concat, hcounted.seen member hmember hactive]
      exact ⟨Or.inl, fun h => h.resolve_right hother⟩
    | some member =>
      have hsum := activeWeight_concat hcommittee hcounts.1 hfound
      have hbound : activeWeight committee.members (fun a => a ∈ counted.2 ++ [vote.voter]) ≤
          committee.totalWeight.toNat := by
        rw [hcommittee.total]
        exact activeWeight_le_all
      have hfits := committee.totalWeight.toNat_lt
      obtain ⟨total, htotal⟩ : ∃ total : UInt64,
          total.toNat = counted.1.toNat + member.weight.toNat :=
        exists_toNat_eq (by rw [hcounted.weight]; omega)
      refine ⟨(total, counted.2 ++ [vote.voter]), ?_, ?_, ?_⟩
      · simp only [bind_ok_iff, pure_ok_iff, checkedAdd_ok_iff]
        exact ⟨total, htotal, rfl⟩
      · intro member hmember hactive
        rw [votedFor_concat, ← hcounted.seen member hmember hactive]
        simp [hcounts.2, eq_comm]
      · rw [hsum, htotal, hcounted.weight]
  · rw [if_neg hcounts]
    refine ⟨counted, rfl, fun member hmember hactive => ?_, hcounted.weight⟩
    rw [votedFor_concat, hcounted.seen member hmember hactive]
    refine ⟨Or.inl, fun h => h.elim id ?_⟩
    -- the vote was skipped for its voter, who had been counted before
    rintro ⟨hvoter, hside⟩
    rw [← hcounted.seen member hmember hactive, ← hvoter]
    by_contra hunseen
    exact hcounts ⟨hunseen, hside⟩

theorem foldlM_countVote_counted (more : List Vote)
    (hcounted : Counted committee votes inFavorOfA counted) :
    ∃ counted', more.foldlM (countVote committee inFavorOfA) counted = .ok counted' ∧
      Counted committee (votes ++ more) inFavorOfA counted' := by
  induction more generalizing votes counted with
  | nil => exact ⟨counted, rfl, by rwa [List.append_nil]⟩
  | cons vote _ ih =>
    obtain ⟨_, hnext, hcounted'⟩ := countVote_counted hcommittee hcounted vote
    obtain ⟨final, hfinal, hall⟩ := ih hcounted'
    refine ⟨final, ?_, by rwa [List.append_assoc] at hall⟩
    rw [List.foldlM_cons, hnext, ok_bind, hfinal]

/-- The tally never aborts, and compares the threshold with the weight of the
active members who voted for the side. -/
theorem votesMeetThreshold_eq (votes : List Vote) (inFavorOfA : Bool) :
    votesMeetThreshold committee votes inFavorOfA =
      .ok (committee.threshold.toNat ≤
        activeWeight committee.members (votedFor votes inFavorOfA)) := by
  have hstart : Counted committee [] inFavorOfA (0, []) :=
    ⟨fun _ _ _ => by simp [votedFor], by simp [activeWeight, weightOf]⟩
  obtain ⟨counted, hok, hcounted⟩ := foldlM_countVote_counted hcommittee votes hstart
  have hweight : counted.1.toNat =
      activeWeight committee.members (votedFor votes inFavorOfA) := by
    rw [hcounted.weight]
    refine weightOf_congr fun member hmember => ?_
    cases hactive : member.active with
    | false => rfl
    | true =>
      have hseen := hcounted.seen member hmember hactive
      rw [List.nil_append] at hseen
      rw [Bool.true_and, Bool.true_and, Bool.eq_iff_iff, decide_eq_true_iff, hseen]
  unfold votesMeetThreshold
  rw [hok, ok_bind]
  show Except.ok _ = Except.ok _
  rw [← hweight]
  simp only [ge_iff_le, UInt64.le_iff_toNat_le]

end

end Tally

/-- Whatever members were added, removed and added again: the active ones are distinct and
weigh the total, which no removal takes below zero. The tally weighs each active member who
voted for the side once, and depends on nothing else in the votes. -/
theorem committee_represents_members {threshold : UInt64} {calls : List CommitteeCall}
    {committee : Committee} (hrun : (committees threshold).Run calls committee) :
    DistinctActive committee.members ∧
    committee.totalWeight.toNat = activeWeight committee.members (fun _ => true) ∧
    (∀ memberAddress, (removeCommitteeMember committee memberAddress).isOk = true) ∧
    ∀ votes inFavorOfA,
      votesMeetThreshold committee votes inFavorOfA = .ok (committee.threshold.toNat ≤
        activeWeight committee.members (votedFor votes inFavorOfA)) ∧
      ∀ votes', (∀ member ∈ committee.members, member.active = true →
          votedFor votes' inFavorOfA member.address = votedFor votes inFavorOfA member.address) →
        votesMeetThreshold committee votes' inFavorOfA =
          votesMeetThreshold committee votes inFavorOfA := by
  have hcommittee := wellFormed_of_run hrun
  refine ⟨hcommittee.distinct, hcommittee.total, removeCommitteeMember_isOk hcommittee, ?_⟩
  refine fun votes inFavorOfA => ⟨votesMeetThreshold_eq hcommittee votes inFavorOfA, ?_⟩
  intro votes' hsame
  have hweight : activeWeight committee.members (votedFor votes' inFavorOfA) =
      activeWeight committee.members (votedFor votes inFavorOfA) := by
    refine weightOf_congr fun member hmember => ?_
    cases hactive : member.active with
    | false => rfl
    | true => rw [hsame member hmember hactive]
  rw [votesMeetThreshold_eq hcommittee, votesMeetThreshold_eq hcommittee, hweight]

def sampleVoter : Address := ⟨List.replicate 32 7, rfl⟩

/-- A member is removed and comes back with another weight. -/
theorem committee_represents_members_readded :
    ∃ committee, (committees 2).Run [.add sampleVoter 1, .remove sampleVoter, .add sampleVoter 2]
        committee ∧ DistinctActive committee.members ∧ committee.members.length = 2 := by
  have hrun : (committees 2).Run [.add sampleVoter 1, .remove sampleVoter, .add sampleVoter 2]
      ⟨[⟨sampleVoter, 1, false⟩, ⟨sampleVoter, 2, true⟩], 2, 2⟩ :=
    System.run_of_accepted (by decide +kernel)
  exact ⟨_, hrun, (committee_represents_members hrun).1, rfl⟩

/-- The weight of the active members who voted for both sides. -/
def Committee.doubleWeight (committee : Committee) (votes : List Vote) : Nat :=
  activeWeight committee.members fun a => votedFor votes true a && votedFor votes false a

/-- The weight of the active members who voted for this side and not the other. -/
def Committee.singleWeight (committee : Committee) (votes : List Vote) (inFavorOfA : Bool) :
    Nat :=
  activeWeight committee.members fun a =>
    votedFor votes inFavorOfA a && !votedFor votes (!inFavorOfA) a

theorem activeWeight_votedFor {committee : Committee} {votes : List Vote} (inFavorOfA : Bool) :
    activeWeight committee.members (votedFor votes inFavorOfA) =
      committee.doubleWeight votes + committee.singleWeight votes inFavorOfA := by
  have hboth : committee.doubleWeight votes = activeWeight committee.members fun a =>
      votedFor votes inFavorOfA a && votedFor votes (!inFavorOfA) a := by
    cases inFavorOfA with
    | true => rfl
    | false => simp only [Committee.doubleWeight, Bool.not_false, Bool.and_comm]
  rw [hboth]
  unfold Committee.singleWeight activeWeight
  simp only [← Bool.and_assoc]
  exact weightOf_and_add_and_not.symm

/-- The two sides together weigh no more than the committee and its double
voters. -/
theorem activeWeight_sides_le {committee : Committee} (hcommittee : committee.WellFormed)
    (votes : List Vote) :
    activeWeight committee.members (votedFor votes true) +
        activeWeight committee.members (votedFor votes false) ≤
      committee.totalWeight.toNat + committee.doubleWeight votes := by
  have hactive : ∀ inFavorOfA, ∀ member ∈ committee.members,
      (member.active && votedFor votes inFavorOfA member.address) = true →
        (member.active && true) = true := by
    intro inFavorOfA member _ hcounts
    rw [Bool.and_true]
    exact (Bool.and_eq_true_iff.mp hcounts).1
  have hdouble : committee.doubleWeight votes =
      weightOf (fun member => member.weight.toNat) committee.members fun member =>
        (member.active && votedFor votes true member.address) &&
          (member.active && votedFor votes false member.address) := by
    refine weightOf_congr fun member _ => ?_
    cases member.active <;> simp
  rw [hcommittee.total, hdouble]
  exact weightOf_add_le (hactive true) (hactive false)

/-- Both sides reach the threshold exactly when the members who voted both ways
and the lighter of the two one-sided groups do. Where nobody votes both ways, a
majority threshold makes the decision unambiguous. -/
theorem decision_unambiguous_iff {threshold : UInt64} {calls : List CommitteeCall}
    {committee : Committee} (hrun : (committees threshold).Run calls committee)
    (hmajority : committee.totalWeight.toNat < 2 * committee.threshold.toNat)
    (votes : List Vote) :
    (¬(votesMeetThreshold committee votes true = .ok true ∧
        votesMeetThreshold committee votes false = .ok true) ↔
      committee.doubleWeight votes +
          min (committee.singleWeight votes true) (committee.singleWeight votes false) <
        committee.threshold.toNat) ∧
    ((∀ member ∈ committee.members, member.active = true →
        ¬(votedFor votes true member.address = true ∧
          votedFor votes false member.address = true)) →
      ¬(votesMeetThreshold committee votes true = .ok true ∧
        votesMeetThreshold committee votes false = .ok true)) := by
  have hcommittee := wellFormed_of_run hrun
  have hsides := activeWeight_sides_le hcommittee votes
  rw [votesMeetThreshold_eq hcommittee, votesMeetThreshold_eq hcommittee,
    Except.ok.injEq, Except.ok.injEq, decide_eq_true_iff, decide_eq_true_iff]
  constructor
  · rw [activeWeight_votedFor, activeWeight_votedFor]
    omega
  · intro hsingle
    have hnone : committee.doubleWeight votes = 0 := by
      refine weightOf_eq_zero fun member hmember => ?_
      cases hactive : member.active with
      | false => rfl
      | true => simpa using hsingle member hmember hactive
    omega

/-- Of three members that decide by two votes one votes for both sides: the decision is
unambiguous exactly if the other two agree. -/
theorem decision_unambiguous_iff_double_vote :
    ∃ committee, (committees 2).Run ([1, 2, 3].map fun n => .add (Bytes32.fill n) 1) committee ∧
      ∀ second third : Bool,
        let votes : List Vote := [⟨Bytes32.fill 1, true⟩, ⟨Bytes32.fill 1, false⟩,
          ⟨Bytes32.fill 2, second⟩, ⟨Bytes32.fill 3, third⟩]
        ¬(votesMeetThreshold committee votes true = .ok true ∧
          votesMeetThreshold committee votes false = .ok true) ↔ second = third := by
  have hrun : (committees 2).Run ([1, 2, 3].map fun n => .add (Bytes32.fill n) 1)
      ⟨[1, 2, 3].map fun n => ⟨Bytes32.fill n, 1, true⟩, 2, 3⟩ :=
    System.run_of_accepted (by decide +kernel)
  refine ⟨_, hrun, fun second third => (decision_unambiguous_iff hrun (by decide) _).1.trans ?_⟩
  revert second third
  decide +kernel

/-- The only member of a committee votes for both sides, and both meet its
majority threshold. -/
theorem double_vote_meets_both :
    ∃ committee, (committees 1).Run [.add sampleVoter 1] committee ∧
      committee.totalWeight.toNat < 2 * committee.threshold.toNat ∧
      votesMeetThreshold committee [⟨sampleVoter, true⟩, ⟨sampleVoter, false⟩] true =
        .ok true ∧
      votesMeetThreshold committee [⟨sampleVoter, true⟩, ⟨sampleVoter, false⟩] false =
        .ok true :=
  ⟨⟨[⟨sampleVoter, 1, true⟩], 1, 1⟩, System.run_of_accepted (by decide +kernel),
    by decide +kernel⟩

end DopamintArena.Move
