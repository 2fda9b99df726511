import DopamintArena.Engine.Checkpoint
import DopamintArena.Games.QuantumPoker

/-!
What a poker state keeps for its own seat only. `erase` forgets the secrets and
the hole cards a process derived from them; every operation of the game, up to
`erase`, does the same to a state and to what is left of it. So two processes of
which one was given secrets that the other was not stay the same to look at.
-/

namespace DopamintArena.Games

open Foundation Engine

namespace PokerMove

/-- The move as it goes over the wire. -/
def strip : PokerMove → PokerMove
  | .commitSlots commitments _ => .commitSlots commitments none
  | move => move

/-- The secrets that come with a commit, if any, are those it commits to. -/
def Opens (hash : Hash) : PokerMove → Prop
  | .commitSlots commitments (some secrets) =>
    QuantumPoker.commitSlotSecrets hash secrets = .ok commitments
  | _ => True

end PokerMove

namespace QuantumPoker

def erase (s : PokerState) : PokerState :=
  { s with localSecretsA := none, localSecretsB := none, holeA := none, holeB := none }

variable {hash : Hash} {ante : Int} {s : PokerState} {party : Party}
variable {condition : Prop} {x y x' y' : Except String PokerState}

theorem guard_erase [Decidable condition] {error : String} (h : x = y.map erase) :
    (require condition error >>= fun _ => x) =
      (require condition error >>= fun _ => y).map erase := by
  rw [map_bind, h]

theorem ite_erase [Decidable condition] (h : x = y.map erase) (h' : x' = y'.map erase) :
    (if condition then x else x') = (if condition then y else y').map erase := by
  split
  · exact h
  · exact h'

theorem expectedRevealSlots_erase :
    expectedRevealSlots (erase s) party = expectedRevealSlots s party := by
  cases party <;> rfl

theorem claimForfeit_erase : claimForfeit (erase s) party = (claimForfeit s party).map erase := by
  unfold claimForfeit
  rw [expectedRevealSlots_erase, expectedRevealSlots_erase]
  split
  · exact guard_erase (guard_erase (by cases party <;> rfl))
  · rfl

theorem afterBetAction_erase : afterBetAction (erase s) = (afterBetAction s).map erase := by
  refine ite_erase ?_ rfl
  unfold advanceStreet erase
  cases s.phase <;> rfl

theorem applyBet_erase (move : PokerMove) :
    applyBet (erase s) move party = (applyBet s move party).map erase := by
  refine guard_erase ?_
  cases move with
  | check =>
    cases party with
    | A => exact guard_erase (afterBetAction_erase (s := markActed s true .A))
    | B => exact guard_erase (afterBetAction_erase (s := markActed s true .B))
  | bet =>
    cases party <;> exact guard_erase (guard_erase (guard_erase rfl))
  | call =>
    cases party with
    | A =>
      exact guard_erase (guard_erase
        (afterBetAction_erase (s := markActed (addBet s _ .A) true .A)))
    | B =>
      exact guard_erase (guard_erase
        (afterBetAction_erase (s := markActed (addBet s _ .B) true .B)))
  | fold => cases party <;> rfl
  | commitSlots | revealSlots | forfeit | nextHand => rfl

theorem deriveUniqueBoardCard_erase (slot : Int) (used : List Int) (tries : Nat) (counter : Int) :
    deriveUniqueBoardCard hash (erase s) slot used tries counter =
      deriveUniqueBoardCard hash s slot used tries counter := by
  induction tries generalizing counter with
  | zero => rfl
  | succ _ ih =>
    simp only [deriveUniqueBoardCard, ih]
    rfl

theorem turnOver_erase (slot : Int) :
    turnOver hash (erase s) slot = (turnOver hash s slot).map erase := by
  refine ite_erase rfl ?_
  rw [deriveUniqueBoardCard_erase, map_bind]
  rfl

theorem foldlM_turnOver_erase (slots : List Int) :
    slots.foldlM (turnOver hash) (erase s) = (slots.foldlM (turnOver hash) s).map erase := by
  induction slots generalizing s with
  | nil => rfl
  | cons _ _ ih =>
    rw [List.foldlM_cons, List.foldlM_cons, turnOver_erase, bind_map, map_bind]
    exact congrArg _ (funext fun _ => ih)

theorem tryRevealBoardThenBet_erase (slots : List Int) (nextPhase skipTo : PokerPhase) :
    tryRevealBoardThenBet hash (erase s) slots nextPhase skipTo =
      (tryRevealBoardThenBet hash s slots nextPhase skipTo).map erase := by
  refine ite_erase ?_ rfl
  rw [foldlM_turnOver_erase, bind_map, map_bind]
  exact congrArg _ (funext fun _ => ite_erase rfl rfl)

theorem resolveShowdown_erase (holeA holeB : List Int) :
    resolveShowdown (erase s) holeA holeB = (resolveShowdown s holeA holeB).map erase := by
  simp only [resolveShowdown, map_bind]
  refine congrArg _ (funext fun bestA => congrArg _ (funext fun bestB => congrArg Except.ok ?_))
  split_ifs <;> rfl

/-- A process without the secrets derives no cards, and goes on. -/
theorem tryDeriveHoleCards_ok (hash : Hash) (s : PokerState) (owner : Party) :
    ∃ cards, tryDeriveHoleCards hash s owner = .ok cards := by
  have hslot : ∀ slot, ∃ card, deriveSlotCard hash s slot 0 true = .ok card := by
    intro slot
    unfold deriveSlotCard
    split
    · exact ⟨_, rfl⟩
    · exact ⟨_, rfl⟩
  choose card hcard using hslot
  have hcards := mapM_ok_of_forall fun slot (_ : slot ∈ holeSlots owner) => hcard slot
  rw [tryDeriveHoleCards, hcards]
  exact ⟨_, rfl⟩

theorem map_erase_erase (x : Except String PokerState) : (x.map erase).map erase = x.map erase := by
  cases x <;> rfl

theorem ite_map_erase [Decidable condition] (h : x.map erase = y.map erase)
    (h' : x'.map erase = y'.map erase) :
    (if condition then x else x').map erase = (if condition then y else y').map erase := by
  split
  · exact h
  · exact h'

theorem afterReveal_erase :
    (afterReveal hash ante (erase s)).map erase = (afterReveal hash ante s).map erase := by
  have hphase : (erase s).phase = s.phase := rfl
  unfold afterReveal
  rw [hphase]
  split
  case h_1 =>
    obtain ⟨_, hA⟩ := tryDeriveHoleCards_ok hash s .A
    obtain ⟨_, hB⟩ := tryDeriveHoleCards_ok hash s .B
    obtain ⟨_, hA'⟩ := tryDeriveHoleCards_ok hash (erase s) .A
    obtain ⟨_, hB'⟩ := tryDeriveHoleCards_ok hash (erase s) .B
    rw [hA, hB, hA', hB']
    refine ite_map_erase ?_ rfl
    simp only [ok_bind, postAntesAndBeginStreet, map_bind]
    rfl
  case h_2 => rw [tryRevealBoardThenBet_erase, map_erase_erase]
  case h_3 => rw [tryRevealBoardThenBet_erase, map_erase_erase]
  case h_4 => rw [tryRevealBoardThenBet_erase, map_erase_erase]
  case h_5 =>
    refine ite_map_erase ?_ rfl
    simp only [map_bind]
    refine congrArg _ (funext fun holeA => congrArg _ (funext fun holeB => ?_))
    have hshown := resolveShowdown_erase (s := { s with
      shownA := true, shownB := true, shownHoleA := some holeA, shownHoleB := some holeB })
      holeA holeB
    exact (congrArg _ hshown).trans (map_erase_erase _)
  all_goals rfl

theorem applyRevealSlots_erase (move : PokerMove) :
    (applyRevealSlots hash ante (erase s) move party).map erase =
      (applyRevealSlots hash ante s move party).map erase := by
  cases move with
  | revealSlots =>
    simp only [applyRevealSlots, expectedRevealSlots_erase, map_bind]
    refine congrArg _ (funext fun expected => congrArg _ (funext fun _ =>
      congrArg _ (funext fun _ => ?_)))
    have hcommits : commitArrayFor (erase s) party = commitArrayFor s party := by
      cases party <;> rfl
    have hreveals : revealArrayFor (erase s) party = revealArrayFor s party := by
      cases party <;> rfl
    rw [hcommits, hreveals]
    split
    · rfl
    · rw [map_bind, map_bind]
      refine congrArg _ (funext fun target => ?_)
      cases party with
      | A => exact afterReveal_erase (s := { s with revealsA := target })
      | B => exact afterReveal_erase (s := { s with revealsB := target })
  | commitSlots | bet | check | call | fold | forfeit | nextHand => rfl

theorem validateLocalSecretsForCommit_ok {commitments : List Bytes} {secrets : List SlotReveal}
    (h : commitSlotSecrets hash secrets = .ok commitments) :
    validateLocalSecretsForCommit hash commitments secrets = .ok (secrets.map some) := by
  have hlength : secrets.length = slotCount := by
    simp only [commitSlotSecrets, returned] at h
    exact h.1
  rw [validateLocalSecretsForCommit, require_of hlength, h]
  simp only [ok_bind, require_of]
  rfl

theorem validateCommitments_ok {commitments checked : List Bytes}
    (h : validateCommitments commitments = .ok checked) : checked = commitments := by
  simp only [validateCommitments, returned] at h
  obtain ⟨-, h⟩ := h
  split at h
  · cases h
  · exact pure_ok_iff.mp h

/-- Secrets that open a commit are accepted with it. -/
theorem applyCommit_erase {commitments : List Bytes} {secrets : Option (List SlotReveal)}
    (h : (PokerMove.commitSlots commitments secrets).Opens hash) :
    (applyCommit hash s (.commitSlots commitments secrets) party).map erase =
      (applyCommit hash (erase s) (.commitSlots commitments none) party).map erase := by
  cases hchecked : validateCommitments commitments with
  | error =>
    simp only [applyCommit, hchecked]
    rfl
  | ok =>
    obtain rfl := validateCommitments_ok hchecked
    cases secrets with
    | none =>
      simp only [applyCommit, hchecked, ok_bind, pure_bind, Foundation.map_bind]
      cases party <;> exact congrArg _ (funext fun _ => ite_map_erase rfl rfl)
    | some =>
      simp only [applyCommit, hchecked, ok_bind, validateLocalSecretsForCommit_ok h, pure_bind,
        Foundation.map_bind]
      cases party <;> exact congrArg _ (funext fun _ => ite_map_erase rfl rfl)

/-- What a move does to the public state does not depend on secrets. -/
theorem applyMove_erase {move : PokerMove} (h : move.Opens hash) :
    (applyMove hash ante s move party).map erase =
      (applyMove hash ante (erase s) move.strip party).map erase := by
  have hphase : (erase s).phase = s.phase := rfl
  have hcommit : (applyCommit hash s move party).map erase =
      (applyCommit hash (erase s) move.strip party).map erase := by
    cases move with
    | commitSlots => exact applyCommit_erase h
    | _ => rfl
  have hbet : (applyBet s move party).map erase =
      (applyBet (erase s) move.strip party).map erase := by
    rw [show applyBet (erase s) move.strip party = applyBet (erase s) move party by
      cases move <;> rfl, applyBet_erase, map_erase_erase]
  have hreveal : (applyRevealSlots hash ante s move party).map erase =
      (applyRevealSlots hash ante (erase s) move.strip party).map erase := by
    rw [← applyRevealSlots_erase]
    cases move <;> rfl
  have hnext : (applyNextHand ante s move).map erase =
      (applyNextHand ante (erase s) move.strip).map erase := by
    cases move <;> rfl
  by_cases hforfeit : move = .forfeit
  · subst hforfeit
    change (claimForfeit s party).map erase = (claimForfeit (erase s) party).map erase
    rw [claimForfeit_erase, map_erase_erase]
  · have hforfeit' : move.strip ≠ .forfeit := by cases move <;> simp_all [PokerMove.strip]
    rw [applyMove, applyMove, if_neg hforfeit, if_neg hforfeit', hphase]
    cases hphase : s.phase
    case commit => exact hcommit
    case done => rfl
    case preflopBet => exact hbet
    case flopBet => exact hbet
    case turnBet => exact hbet
    case riverBet => exact hbet
    case handOver => exact hnext
    all_goals exact hreveal

/-- The same move of the same seat, with its secrets or without. -/
def Stripped (hash : Hash) (turn turn' : PokerMove × Party) : Prop :=
  turn.1.Opens hash ∧ (turn' = turn ∨ turn' = (turn.1.strip, turn.2))

theorem Stripped.step {s s' : PokerState} {turn turn' : PokerMove × Party}
    (hsame : erase s = erase s') (h : Stripped hash turn turn') :
    (applyMove hash ante s turn.1 turn.2).map erase =
      (applyMove hash ante s' turn'.1 turn'.2).map erase := by
  obtain ⟨hopens, rfl | rfl⟩ := h
  · rw [applyMove_erase hopens, hsame, ← applyMove_erase hopens]
  · have hstrip : turn.1.strip.Opens hash ∧ turn.1.strip.strip = turn.1.strip := by
      cases turn.1 <;> exact ⟨trivial, rfl⟩
    refine (applyMove_erase hopens).trans (Eq.trans ?_ (applyMove_erase hstrip.1).symm)
    rw [hsame, hstrip.2]

/-- Whether and with what a process has been given secrets cannot be seen. -/
theorem local_secrets_unseen (hash : Hash) (handCap ante : Int) (ctx : ProtocolContext)
    {moves moves' : List (PokerMove × Party)} (hmoves : List.Forall₂ (Stripped hash) moves moves')
    (n : Nat) :
    ((protocol hash handCap ante).reactive.play (initialState handCap ante ctx)
        (moves.take n)).map (protocol hash handCap ante).reactive.view =
      ((protocol hash handCap ante).reactive.play (initialState handCap ante ctx)
        (moves'.take n)).map (protocol hash handCap ante).reactive.view := by
  refine Reactive.play_view_eq (fun {s s'} hsame => ?_)
    (fun hsame hturn => Stripped.step hsame hturn) rfl (List.forall₂_take n hmoves)
  have hview : ∀ s, (protocol hash handCap ante).reactive.view (erase s) =
      (protocol hash handCap ante).reactive.view s := fun _ => rfl
  rw [← hview s, hsame, hview]

/-- With a hash of nothing the zero commits are opened by any long enough salts. Both seats
commit, with their secrets or without, and the one opens the other's hole cards. -/
theorem local_secrets_unseen_reveal :
    let hash : Hash := fun _ => Bytes32.fill 0
    let ctx : ProtocolContext := ⟨"t", ⟨10, 10⟩⟩
    let opening : SlotReveal := ⟨[], List.replicate 16 0⟩
    let moves (secrets : Option (List SlotReveal)) : List (PokerMove × Party) :=
      [(.commitSlots (List.replicate slotCount (List.replicate 32 0)) secrets, .A),
        (.commitSlots (List.replicate slotCount (List.replicate 32 0)) secrets, .B),
        (.revealSlots (holeSlots .B) [opening, opening], .A)]
    let play (secrets : Option (List SlotReveal)) :=
      (protocol hash 2 1).reactive.play (initialState 2 1 ctx) (moves secrets)
    (play (some (List.replicate slotCount opening))).isOk = true ∧
      (play (some (List.replicate slotCount opening))).map (protocol hash 2 1).reactive.view =
        (play none).map (protocol hash 2 1).reactive.view := by
  intro hash ctx opening moves play
  have hmoves : List.Forall₂ (Stripped hash) (moves (some (List.replicate slotCount opening)))
      (moves none) :=
    .cons ⟨rfl, .inr rfl⟩ (.cons ⟨rfl, .inr rfl⟩ (.cons ⟨trivial, .inl rfl⟩ .nil))
  exact ⟨by decide +kernel, local_secrets_unseen hash 2 1 ctx hmoves 3⟩

end QuantumPoker

end DopamintArena.Games
