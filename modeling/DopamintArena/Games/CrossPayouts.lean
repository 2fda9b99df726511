import DopamintArena.Engine.Checkpoint
import DopamintArena.Games.Cross

/-!
What a tick of the race does to the stakes. A seat's share is a floored linear
function of its clamped lead, scores never fall, and a tick moves only the score
of the seat that submits it. So an undecided tick never costs the seat that
submits it anything, and a tick without progress moves nothing.
-/

namespace DopamintArena.Games.Cross

open Foundation Engine

section Share

variable {total : Int} (htotal : 0 ≤ total) (scoreA scoreB : Int)
include htotal

theorem settleShare_mono {scoreA' scoreB' : Int} (h : scoreA - scoreB ≤ scoreA' - scoreB') :
    settleShare total scoreA scoreB ≤ settleShare total scoreA' scoreB' := by
  unfold settleShare
  refine Int.tdiv_le_tdiv (by decide) (Int.mul_le_mul_of_nonneg_left ?_ htotal)
  omega

theorem settleShare_nonneg : 0 ≤ settleShare total scoreA scoreB := by
  have hclamp : 0 ≤ winLane + max (-winLane) (min winLane (scoreA - scoreB)) := by omega
  exact Int.tdiv_nonneg (Int.mul_nonneg htotal hclamp) (by decide)

theorem settleShare_le_total : settleShare total scoreA scoreB ≤ total := by
  have hclamp : winLane + max (-winLane) (min winLane (scoreA - scoreB)) ≤ 2 * winLane := by
    unfold winLane
    omega
  calc settleShare total scoreA scoreB
      ≤ (total * (2 * winLane)).tdiv (2 * winLane) :=
        Int.tdiv_le_tdiv (by decide) (Int.mul_le_mul_of_nonneg_left hclamp htotal)
    _ = total := Int.mul_tdiv_cancel _ (by decide)

end Share

theorem settleShare_level (stake : Int) : settleShare (stake + stake) 0 0 = stake := by
  have hhalf : (stake + stake) * (winLane + max (-winLane) (min winLane (0 - 0))) =
      stake * (2 * winLane) := by
    have hclamp : winLane + max (-winLane) (min winLane (0 - 0)) = 600 := by decide
    rw [hclamp, winLane]
    omega
  change Int.tdiv _ _ = _
  rw [hhalf]
  exact Int.mul_tdiv_cancel _ (by decide)

/-- The score is at least the lane, which is never behind the first one. -/
structure OnCourse (p : CrossPlayer) : Prop where
  lane_nonneg : 0 ≤ p.lane
  lane_le_score : p.lane ≤ p.score

section Step

variable {hazards : Hazards} {seed tick : Int} {p : CrossPlayer} {dir : Option CrossDir}

theorem hop_nonneg (h : OnCourse p) : 0 ≤ (hop hazards seed p dir tick).1 := by
  have hlane := h.lane_nonneg
  unfold hop
  cases dir with
  | none => exact hlane
  | some dir =>
    simp only
    split
    · exact hlane
    · cases dir <;> simp only [destOf] <;> omega

theorem stepPlayer_onCourse (h : OnCourse p) : OnCourse (stepPlayer hazards seed p dir tick) := by
  have hlane : 0 ≤ (hop hazards seed p dir tick).1 := hop_nonneg h
  unfold stepPlayer
  simp only
  split
  · exact ⟨h.lane_nonneg, h.lane_le_score⟩
  · split
    · exact ⟨Int.le_refl 0, Int.le_trans hlane (Int.le_max_right _ _)⟩
    · exact ⟨hlane, Int.le_max_right _ _⟩

theorem score_le_stepPlayer : p.score ≤ (stepPlayer hazards seed p dir tick).score := by
  unfold stepPlayer
  simp only
  split
  · exact Int.le_refl _
  · split
    · exact Int.le_max_left _ _
    · exact Int.le_max_left _ _

/-- Without a hop the score stays, whatever happens to the player. -/
theorem score_stepPlayer_none (h : OnCourse p) :
    (stepPlayer hazards seed p none tick).score = p.score := by
  have hscore : max p.score p.lane = p.score := max_eq_left h.lane_le_score
  unfold stepPlayer hop
  simp only
  split
  · rfl
  · split
    · exact hscore
    · exact hscore

end Step

def shareOf (s : CrossState) : Party → Int
  | .A => s.balanceA
  | .B => s.balanceB

def scoreOf (s : CrossState) : Party → Int
  | .A => s.playerA.score
  | .B => s.playerB.score

/-- The balances split the total, by the lead as long as nobody has won. -/
structure Shared (total : Int) (s : CrossState) : Prop where
  total_eq : s.total = total
  onCourseA : OnCourse s.playerA
  onCourseB : OnCourse s.playerB
  splits : 0 ≤ s.balanceA ∧ 0 ≤ s.balanceB ∧ s.balanceA + s.balanceB = total
  byLead : s.winner = none → s.balanceA = settleShare total s.playerA.score s.playerB.score

/-- No score falls. An undecided tick never moves a share away from the seat that submits it, and
moves none at all without progress of this seat. -/
structure Rewards (party : Party) (s t : CrossState) : Prop where
  scores : ∀ seat, scoreOf s seat ≤ scoreOf t seat
  keeps : isTerminal t = false → shareOf s party ≤ shareOf t party ∧
    shareOf t (otherParty party) ≤ shareOf s (otherParty party)
  stalls : isTerminal t = false → scoreOf t party = scoreOf s party →
    ∀ seat, shareOf t seat = shareOf s seat

theorem winner_none_of_running {s : CrossState} (h : isTerminal s = false) : s.winner = none := by
  rw [isTerminal, Bool.or_eq_false_iff] at h
  exact Option.isSome_eq_false_iff.mp h.1 |> Option.isNone_iff_eq_none.mp

variable {hazards : Hazards} {total : Int} {s t : CrossState} {move : CrossMove} {party : Party}

theorem shared_step (htotal : 0 ≤ total) (h : Shared total s)
    (ht : applyMove hazards s move party = .ok t) : Shared total t := by
  simp only [applyMove, returned] at ht
  obtain ⟨-, -, -, rfl⟩ := ht
  obtain ⟨rfl, hA, hB, -, -⟩ := h
  have hnonneg := settleShare_nonneg htotal
  have hle := settleShare_le_total htotal
  refine ⟨rfl, stepPlayer_onCourse hA, stepPlayer_onCourse hB, ?_, fun hnone => ?_⟩
  · simp only
    generalize winnerOf _ _ _ = winner
    rcases winner with _ | (_ | _)
    · exact ⟨hnonneg _ _, Int.sub_nonneg_of_le (hle _ _), add_sub_cancel _ _⟩
    · exact ⟨htotal, Int.le_refl 0, Int.add_zero _⟩
    · exact ⟨Int.le_refl 0, htotal, Int.zero_add _⟩
  · simp only at hnone ⊢
    rw [hnone]

/-- A tick of a seat leaves the score of the other one. -/
theorem score_other (h : Shared total s) (ht : applyMove hazards s move party = .ok t) :
    scoreOf t (otherParty party) = scoreOf s (otherParty party) := by
  simp only [applyMove, returned] at ht
  obtain ⟨-, hA, hB, rfl⟩ := ht
  cases party with
  | A =>
    have hdir : move.dirB = none := by simpa using hA
    simp only [otherParty, scoreOf, hdir]
    exact score_stepPlayer_none h.onCourseB
  | B =>
    have hdir : move.dirA = none := by simpa using hB
    simp only [otherParty, scoreOf, hdir]
    exact score_stepPlayer_none h.onCourseA

theorem score_le (ht : applyMove hazards s move party = .ok t) (seat : Party) :
    scoreOf s seat ≤ scoreOf t seat := by
  simp only [applyMove, returned] at ht
  obtain ⟨-, -, -, rfl⟩ := ht
  cases seat with
  | A | B => exact score_le_stepPlayer

theorem rewards_step (htotal : 0 ≤ total) (h : Shared total s)
    (ht : applyMove hazards s move party = .ok t) : Rewards party s t := by
  have hnext : Shared total t := shared_step htotal h ht
  have hscore := score_le ht
  have hother := score_other h ht
  have hlead := h.byLead (winner_none_of_running (by
    simp only [applyMove, returned] at ht
    exact ht.1))
  have hsum := h.splits.2.2
  have hsum' := hnext.splits.2.2
  refine ⟨hscore, fun hrunning => ?_, fun hrunning hsame => ?_⟩
  · have hlead' := hnext.byLead (winner_none_of_running hrunning)
    cases party with
    | A =>
      have hmono := settleShare_mono htotal s.playerA.score s.playerB.score
        (Int.sub_le_sub (hscore .A) hother.le)
      simp only [shareOf, scoreOf, otherParty] at *
      omega
    | B =>
      have hmono := settleShare_mono htotal t.playerA.score t.playerB.score
        (Int.sub_le_sub hother.le (hscore .B))
      simp only [shareOf, scoreOf, otherParty] at *
      omega
  · have hlead' := hnext.byLead (winner_none_of_running hrunning)
    have hlevel : t.balanceA = s.balanceA := by
      cases party with
      | A | B =>
        simp only [scoreOf, otherParty] at hsame hother
        rw [hlead, hlead', hsame, hother]
    rintro (_ | _)
    · exact hlevel
    · simp only [shareOf]
      omega

/-- From equal stakes, after any ticks: the balances are non-negative and add up to the total, and
the next tick rewards progress only. -/
theorem payouts_reward_progress (hazards : Hazards) (tunnelId : String) {stake : Int}
    (hstake : 0 ≤ stake) {moves : List (CrossMove × Party)} {s : CrossState}
    (hs : (protocol hazards).reactive.play (initialState ⟨tunnelId, ⟨stake, stake⟩⟩) moves =
      .ok s) :
    0 ≤ s.balanceA ∧ 0 ≤ s.balanceB ∧ s.balanceA + s.balanceB = s.total ∧
      s.total = stake + stake ∧
      ∀ move party t, (protocol hazards).applyMove s move party = .ok t → Rewards party s t := by
  have htotal : 0 ≤ stake + stake := Int.add_nonneg hstake hstake
  have hstart : Shared (stake + stake) (initialState ⟨tunnelId, ⟨stake, stake⟩⟩) := by
    refine ⟨rfl, ⟨Int.le_refl 0, Int.le_refl 0⟩, ⟨Int.le_refl 0, Int.le_refl 0⟩,
      ⟨hstake, hstake, rfl⟩, fun _ => ?_⟩
    exact (settleShare_level stake).symm
  have hshared : Shared (stake + stake) s :=
    Reactive.play_invariant (Shared (stake + stake)) (fun h ht => shared_step htotal h ht) hstart hs
  obtain ⟨hA, hB, hsum⟩ := hshared.splits
  exact ⟨hA, hB, hsum.trans hshared.total_eq.symm, hshared.total_eq,
    fun _ _ _ ht => rewards_step htotal hshared ht⟩

/-- In a race without hazards, A hops ahead and then stalls: its share stays what it was. -/
theorem payouts_reward_progress_stalling : ∃ s t,
    (protocol fun _ _ _ _ => false).reactive.play (initialState ⟨"0x7", ⟨600, 600⟩⟩)
        [(⟨some .north, none⟩, .A)] = .ok s ∧
      (protocol fun _ _ _ _ => false).applyMove s ⟨none, none⟩ .A = .ok t ∧
      s.balanceA = 601 ∧ t.balanceA = 601 ∧ Rewards .A s t := by
  obtain ⟨s, hs⟩ := exists_ok_of_isOk (x := (protocol fun _ _ _ _ => false).reactive.play
    (initialState ⟨"0x7", ⟨600, 600⟩⟩) [(⟨some .north, none⟩, .A)]) rfl
  have hlast : ((protocol fun _ _ _ _ => false).reactive.play (initialState ⟨"0x7", ⟨600, 600⟩⟩)
      [(⟨some .north, none⟩, .A)] >>= fun s =>
        (applyMove (fun _ _ _ _ => false) s ⟨none, none⟩ .A).map fun t =>
          (s.balanceA, t.balanceA)) = .ok (601, 601) := rfl
  rw [hs, ok_bind] at hlast
  obtain ⟨t, ht, hend⟩ := map_ok_iff.mp hlast
  obtain ⟨hshare, hshare'⟩ := Prod.mk.inj hend
  obtain ⟨-, -, -, -, hrewards⟩ := payouts_reward_progress (fun _ _ _ _ => false) "0x7"
    (by decide) hs
  exact ⟨s, t, hs, ht, hshare, hshare', hrewards _ _ _ ht⟩

end DopamintArena.Games.Cross

namespace DopamintArena.Rust.Cross

open Games.Cross (winLane settleShare_le_total)

/-- The product is taken in 128 bits and the quotient cut to 64. -/
def settleShare (total : UInt64) (scoreA scoreB distance : Int) : UInt64 :=
  let lead := max (-distance) (min distance (scoreA - scoreB))
  UInt64.ofNat (total.toNat * (distance + lead).toNat / (2 * distance).toNat)

/-- Both engines share alike. -/
theorem settleShare_eq (total : UInt64) (scoreA scoreB : Int) :
    ((settleShare total scoreA scoreB winLane).toNat : Int) =
      Games.Cross.settleShare total.toNat scoreA scoreB := by
  have hle := settleShare_le_total (Int.natCast_nonneg total.toNat) scoreA scoreB
  have hclamp : 0 ≤ winLane + max (-winLane) (min winLane (scoreA - scoreB)) := by omega
  have hshare : ((total.toNat * (winLane + max (-winLane) (min winLane (scoreA - scoreB))).toNat /
      (2 * winLane).toNat : Nat) : Int) = Games.Cross.settleShare total.toNat scoreA scoreB := by
    rw [Games.Cross.settleShare, Int.tdiv_eq_ediv_of_nonneg
      (Int.mul_nonneg (Int.natCast_nonneg _) hclamp), Int.natCast_ediv, Int.natCast_mul,
      Int.toNat_of_nonneg hclamp]
    rfl
  rw [← hshare] at hle ⊢
  rw [settleShare, UInt64.toNat_ofNat_of_lt'
    (Nat.lt_of_le_of_lt (Int.ofNat_le.mp hle) total.toNat_lt)]

end DopamintArena.Rust.Cross
