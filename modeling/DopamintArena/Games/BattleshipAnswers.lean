import DopamintArena.Foundation.Runs
import DopamintArena.Games.Battleship

/-!
What the board reveal of `protocol/battleship.ts` proves about the answers given
during the game. Both seats may play any moves that are accepted. When the second
reveal settles the game, every shot at a seat has been answered, and the answers
agree with the cells of its board that hold exactly 1.

The fleet check counts every nonzero cell as a ship. The two readings agree on
the cells that were shot exactly if those cells hold 0 or 1.
-/

namespace DopamintArena.Games.Battleship

open Foundation Engine

abbrev Turn := BattleshipMove × Party

def plays (hash : Hash) (defaultStake : Int) (ctx : ProtocolContext) :
    System BattleshipState Turn :=
  System.accepting (fun s turn => applyMove hash s turn.1 turn.2)
    (initialState defaultStake ctx)

def revealed (s : BattleshipState) : Party → Bool
  | .A => s.revealedA
  | .B => s.revealedB

def firedAt (defender : Party) (history : List Turn) : List Int :=
  history.filterMap fun
    | (.shoot cell, shooter) => if shooter = otherParty defender then some cell else none
    | (.answer _ (some cell), shooter) =>
      if shooter = otherParty defender then some cell else none
    | _ => none

def answersBy (defender : Party) (history : List Turn) : List Bool :=
  history.filterMap fun
    | (.answer isHit _, party) => if party = defender then some isHit else none
    | _ => none

def pendingAt (s : BattleshipState) (defender : Party) : List Int :=
  match s.pendingShot with
  | some shot => if shot.byParty = otherParty defender then [shot.cell] else []
  | none => []

/-- Nothing of the fleets changes. -/
structure SameFleets (s s' : BattleshipState) : Prop where
  shots : ∀ p, shotsAt s' p = shotsAt s p
  hits : ∀ p, hitsOn s' p = hitsOn s p
  pending : s'.pendingShot = s.pendingShot

/-- A board that opens the seat's commitment, has a legal fleet and contradicts no
answer. -/
structure Opens (hash : Hash) (s : BattleshipState) (p : Party) (board salt : Bytes) :
    Prop where
  committed : ∃ commitment, commitFor s p = some commitment ∧
    verifyCommitment hash commitment board salt = true
  legal : isLegalBoard board = true
  consistent : contradiction board (shotsAt s p) = none

/-- What an accepted move does. -/
inductive Effect (hash : Hash) (s : BattleshipState) : Turn → BattleshipState → Prop
  | commit {p : Party} {commitment : Bytes} {s' : BattleshipState}
      (hphase : s.phase = .awaitingCommits)
      (hcommits : ∀ q, commitFor s' q = if q = p then some commitment else commitFor s q)
      (hphase' : s'.phase = .awaitingCommits ∨ s'.phase = .playing)
      (hrevealed : ∀ q, revealed s' q = revealed s q) (hsame : SameFleets s s') :
      Effect hash s (.commit commitment, p) s'
  | shoot {p : Party} {cell : Int} (hphase : s.phase = .playing)
      (hpending : s.pendingShot = none) (hcell : 0 ≤ cell ∧ cell < cellCount) :
      Effect hash s (.shoot cell, p) { s with pendingShot := some ⟨p, cell⟩ }
  | answer {shot : BattleshipShot} {isHit : Bool} {next fired : Option Int} {turn : Party}
      {phase : BattleshipPhase} (hphase : s.phase = .playing)
      (hpending : s.pendingShot = some shot)
      (hfired : fired = next ∨ (fleetCells : Int) ≤ hitsOn s (otherParty shot.byParty))
      (hcell : ∀ cell, fired = some cell → 0 ≤ cell ∧ cell < cellCount)
      (hphase' : phase = .playing ∧
          hitsOn (recordShot s (otherParty shot.byParty) shot.cell isHit)
            (otherParty shot.byParty) < fleetCells ∨
        phase = .revealBoards ∧ fired = none) :
      Effect hash s (.answer isHit next, otherParty shot.byParty)
        { recordShot s (otherParty shot.byParty) shot.cell isHit with
          turn := turn, phase := phase
          pendingShot := fired.map (⟨otherParty shot.byParty, ·⟩) }
  | reveal {p : Party} {board salt : Bytes} {s' : BattleshipState}
      (hphase : s.phase = .revealBoards) (hopens : Opens hash s p board salt)
      (hrevealed : ∀ q, revealed s' q = (decide (q = p) || revealed s q))
      (hphase' : s'.phase = .revealBoards ∨ s'.phase = .over ∧ ∀ q, revealed s' q = true)
      (hcommits : ∀ q, commitFor s' q = commitFor s q) (hsame : SameFleets s s') :
      Effect hash s (.revealBoard board salt, p) s'
  | resign {p : Party} {winner : BattleshipWinner} :
      Effect hash s (.resign, p) (settle s winner)

variable {hash : Hash} {s s' : BattleshipState} {p : Party} {history : List Turn}
variable {commitment board : Bytes} {next : Option Int} {turn : Turn}

theorem settle_commitFor (s : BattleshipState) (winner : BattleshipWinner) (p : Party) :
    commitFor (settle s winner) p = commitFor s p := by
  cases p <;> rfl

theorem settle_revealed (s : BattleshipState) (winner : BattleshipWinner) (p : Party) :
    revealed (settle s winner) p = revealed s p := by
  cases p <;> rfl

theorem settle_sameFleets (s : BattleshipState) (winner : BattleshipWinner) :
    SameFleets s (settle s winner) :=
  ⟨fun p => by cases p <;> rfl, fun p => by cases p <;> rfl, rfl⟩

def withCommit (s : BattleshipState) (p : Party) (commitment : Bytes) : BattleshipState :=
  match p with
  | .A => { s with commitA := some commitment }
  | .B => { s with commitB := some commitment }

theorem applyCommit_ok (h : applyCommit s commitment p = .ok s') :
    s.phase = .awaitingCommits ∧ ∃ phase turn,
      (phase = .awaitingCommits ∨ phase = .playing) ∧
      s' = { withCommit s p commitment with phase := phase, turn := turn } := by
  simp only [applyCommit, returned] at h
  obtain ⟨hphase, -, h⟩ := h
  refine ⟨hphase, ?_⟩
  have hstored : (if (withCommit s p commitment).commitA.isSome ∧
        (withCommit s p commitment).commitB.isSome then
      pure { withCommit s p commitment with phase := .playing, turn := .A }
    else pure (withCommit s p commitment) : Except String BattleshipState) = .ok s' := by
    split at h
    · simp only [returned] at h
      exact h.2
    · simp only [returned] at h
      exact h.2
    · cases h
  split_ifs at hstored
  · cases hstored
    exact ⟨.playing, .A, .inr rfl, rfl⟩
  · cases hstored
    exact ⟨.awaitingCommits, s.turn, .inl rfl, by cases p <;> simp [withCommit, ← hphase]⟩

theorem applyCommit_effect (h : applyCommit s commitment p = .ok s') :
    Effect hash s (.commit commitment, p) s' := by
  obtain ⟨hphase, _, _, hphase', rfl⟩ := applyCommit_ok h
  cases p <;> refine .commit hphase ?_ hphase' ?_ ⟨?_, ?_, rfl⟩ <;>
    intro q <;> cases q <;> rfl

theorem applyShoot_effect {cell : Int} (h : applyShoot s cell p = .ok s') :
    Effect hash s (.shoot cell, p) s' := by
  simp only [applyShoot, assertShootable, returned] at h
  obtain ⟨hphase, hpending, -, ⟨hcell, -⟩, rfl⟩ := h
  exact .shoot hphase (Option.isNone_iff_eq_none.mp hpending) hcell

section RecordShot

variable (s : BattleshipState) (defender q : Party) (cell : Int) (isHit : Bool)

theorem recordShot_eq :
    recordShot s defender cell isHit =
      { recordShot s defender cell isHit with
        phase := s.phase, turn := s.turn, pendingShot := none } := by
  cases defender <;> rfl

theorem recordShot_hitsOn :
    hitsOn (recordShot s defender cell isHit) q =
      if q = defender ∧ isHit = true then hitsOn s q + 1 else hitsOn s q := by
  cases defender <;> cases q <;> cases isHit <;> rfl

theorem recordShot_commitFor :
    commitFor (recordShot s defender cell isHit) q = commitFor s q := by
  cases defender <;> cases q <;> rfl

theorem recordShot_revealed :
    revealed (recordShot s defender cell isHit) q = revealed s q := by
  cases defender <;> cases q <;> rfl

end RecordShot

theorem applyAnswer_effect {isHit : Bool} (h : applyAnswer s isHit next p = .ok s') :
    Effect hash s (.answer isHit next, p) s' := by
  simp only [applyAnswer, returned] at h
  obtain ⟨hphase, h⟩ := h
  have hunfired : ∀ cell : Int, none = some cell → 0 ≤ cell ∧ cell < cellCount := by
    rintro cell ⟨⟩
  split at h
  · cases h
  rename_i shot hpending
  simp only [returned] at h
  obtain ⟨rfl, hguard, h⟩ := h
  have hnext : isHit = true → next = none := by
    intro hhit
    cases next with
    | none => rfl
    | some => exact absurd ⟨rfl, hhit⟩ hguard
  split at h
  case isTrue hsunk =>
    -- a miss adds no hit, so here the fleet was sunk before this answer
    have hfired : none = next ∨ (fleetCells : Int) ≤ hitsOn s (otherParty shot.byParty) := by
      cases isHit with
      | true => exact .inl (hnext rfl).symm
      | false =>
        right
        simpa [recordShot_hitsOn] using hsunk
    cases h
    rw [recordShot_eq]
    exact .answer hphase hpending hfired hunfired (.inr ⟨rfl, rfl⟩)
  case isFalse hafloat =>
    rw [not_le] at hafloat
    split at h
    case isTrue hhit =>
      obtain rfl := hnext hhit
      split at h <;> cases h <;> rw [recordShot_eq]
      · exact .answer hphase hpending (.inl rfl) hunfired (.inr ⟨rfl, rfl⟩)
      · exact .answer hphase hpending (.inl rfl) hunfired (.inl ⟨hphase, hafloat⟩)
    case isFalse hmiss =>
      cases next with
      | none =>
        dsimp only at h
        split at h <;> cases h <;> rw [recordShot_eq]
        · exact .answer hphase hpending (.inl rfl) hunfired (.inr ⟨rfl, rfl⟩)
        · exact .answer hphase hpending (.inl rfl) hunfired (.inl ⟨hphase, hafloat⟩)
      | some =>
        simp only [assertShootable, returned] at h
        obtain ⟨⟨hcell, -⟩, rfl⟩ := h
        rw [recordShot_eq]
        refine .answer hphase hpending (.inl rfl) ?_ (.inl ⟨hphase, hafloat⟩)
        intro fired hfired
        rw [← Option.some.inj hfired]
        exact hcell

def withRevealed (s : BattleshipState) (p : Party) : BattleshipState :=
  match p with
  | .A => { s with revealedA := true }
  | .B => { s with revealedB := true }

theorem withRevealed_commitFor (s : BattleshipState) (p q : Party) :
    commitFor (withRevealed s p) q = commitFor s q := by
  cases p <;> cases q <;> rfl

theorem withRevealed_revealed (s : BattleshipState) (p q : Party) :
    revealed (withRevealed s p) q = (decide (q = p) || revealed s q) := by
  cases p <;> cases q <;> rfl

theorem withRevealed_sameFleets (s : BattleshipState) (p : Party) :
    SameFleets s (withRevealed s p) :=
  ⟨fun q => by cases p <;> cases q <;> rfl, fun q => by cases p <;> cases q <;> rfl,
    by cases p <;> rfl⟩

theorem applyRevealBoard_ok {salt : Bytes} (h : applyRevealBoard hash s board salt p = .ok s') :
    s.phase = .revealBoards ∧ Opens hash s p board salt ∧
      s' = if (withRevealed s p).revealedA && (withRevealed s p).revealedB then
        finalize (withRevealed s p) else withRevealed s p := by
  simp only [applyRevealBoard, returned] at h
  obtain ⟨hphase, -, h⟩ := h
  split at h
  · cases h
  rename_i commitment hcommitment
  simp only [returned] at h
  obtain ⟨hverified, hlegal, h⟩ := h
  split at h
  · cases h
  rename_i hconsistent
  refine ⟨hphase, ⟨⟨commitment, hcommitment, hverified⟩, hlegal, hconsistent⟩, ?_⟩
  change (if (withRevealed s p).revealedA && (withRevealed s p).revealedB then
    pure (finalize (withRevealed s p)) else pure (withRevealed s p) :
      Except String BattleshipState) = .ok s' at h
  split_ifs at h ⊢ <;> cases h <;> rfl

theorem applyRevealBoard_effect {salt : Bytes} (h : applyRevealBoard hash s board salt p = .ok s') :
    Effect hash s (.revealBoard board salt, p) s' := by
  obtain ⟨hphase, hopens, rfl⟩ := applyRevealBoard_ok h
  split
  case isTrue hboth =>
    rw [Bool.and_eq_true] at hboth
    have hsettled : ∀ q, revealed (finalize (withRevealed s p)) q = true := by
      intro q
      cases q with
      | A => exact hboth.1
      | B => exact hboth.2
    refine .reveal hphase hopens ?_ (.inr ⟨rfl, hsettled⟩) ?_ ⟨?_, ?_, ?_⟩
    · intro q
      exact (settle_revealed _ _ q).trans (withRevealed_revealed s p q)
    · intro q
      exact (settle_commitFor _ _ q).trans (withRevealed_commitFor s p q)
    · intro q
      exact ((settle_sameFleets _ _).shots q).trans ((withRevealed_sameFleets s p).shots q)
    · intro q
      exact ((settle_sameFleets _ _).hits q).trans ((withRevealed_sameFleets s p).hits q)
    · exact (withRevealed_sameFleets s p).pending
  case isFalse =>
    have hkept : (withRevealed s p).phase = .revealBoards := by
      cases p <;> exact hphase
    exact .reveal hphase hopens (withRevealed_revealed s p) (.inl hkept)
      (withRevealed_commitFor s p) (withRevealed_sameFleets s p)

theorem applyMove_effect (h : applyMove hash s turn.1 turn.2 = .ok s') :
    Effect hash s turn s' := by
  obtain ⟨move, _⟩ := turn
  simp only [applyMove, returned] at h
  obtain ⟨-, h⟩ := h
  cases move with
  | commit => exact applyCommit_effect h
  | shoot => exact applyShoot_effect h
  | answer => exact applyAnswer_effect h
  | revealBoard => exact applyRevealBoard_effect h
  | resign =>
    cases h
    exact .resign

/-- The invariant of a run. -/
structure Recorded (hash : Hash) (history : List Turn) (s : BattleshipState) : Prop where
  committed : ∀ p commitment, commitFor s p = some commitment →
    (.commit commitment, p) ∈ history
  fired : ∀ p, firedAt p history = (shotsAt s p).map (·.cell) ++ pendingAt s p
  answered : ∀ p, answersBy p history = (shotsAt s p).map (·.isHit)
  inRange : ∀ p, ∀ cell ∈ firedAt p history, 0 ≤ cell ∧ cell < cellCount
  afloat : s.phase = .awaitingCommits ∨ s.phase = .playing →
    ∀ p, hitsOn s p < fleetCells ∧ revealed s p = false
  quiet : s.phase = .revealBoards → s.pendingShot = none
  opened : ∀ p, revealed s p = true → ∃ board salt, (.revealBoard board salt, p) ∈ history
  opens : ∀ p board salt, (.revealBoard board salt, p) ∈ history →
    revealed s p = true ∧ Opens hash s p board salt

theorem recorded_initialState (hash : Hash) (defaultStake : Int) (ctx : ProtocolContext) :
    Recorded hash [] (initialState defaultStake ctx) := by
  constructor
  case committed => intro p commitment h; cases p <;> cases h
  case fired => intro p; cases p <;> rfl
  case answered => intro p; cases p <;> rfl
  case inRange => intro p cell h; cases h
  case afloat =>
    have hships : (0 : Int) < fleetCells := by decide
    intro _ p
    cases p <;> exact ⟨hships, rfl⟩
  case quiet => intro h; cases h
  case opened => intro p h; cases p <;> cases h
  case opens => intro p board salt h; cases h

theorem opens_congr {salt : Bytes} (hcommit : commitFor s' p = commitFor s p)
    (hshots : shotsAt s' p = shotsAt s p) (h : Opens hash s p board salt) :
    Opens hash s' p board salt :=
  ⟨by rw [hcommit]; exact h.committed, h.legal, by rw [hshots]; exact h.consistent⟩

theorem pendingAt_congr (h : s'.pendingShot = s.pendingShot) (p : Party) :
    pendingAt s' p = pendingAt s p := by
  rw [pendingAt, h, pendingAt]

section

variable (h : Recorded hash history s)
include h

/-- A move that fires nothing and answers nothing keeps the invariant if it keeps the
fleets and accounts for its commitments, reveals and phase. -/
theorem Recorded.quietStep (hsame : SameFleets s s')
    (hfired : ∀ p, firedAt p (history ++ [turn]) = firedAt p history)
    (hanswers : ∀ p, answersBy p (history ++ [turn]) = answersBy p history)
    (hcommitted : ∀ p commitment, commitFor s' p = some commitment →
      (.commit commitment, p) ∈ history ++ [turn])
    (hafloat : s'.phase = .awaitingCommits ∨ s'.phase = .playing →
      (s.phase = .awaitingCommits ∨ s.phase = .playing) ∧
        ∀ p, revealed s' p = revealed s p)
    (hquiet : s'.phase = .revealBoards → s.pendingShot = none)
    (hopened : ∀ p, revealed s' p = true →
      ∃ board salt, (.revealBoard board salt, p) ∈ history ++ [turn])
    (hopens : ∀ p board salt, (.revealBoard board salt, p) ∈ history ++ [turn] →
      revealed s' p = true ∧ Opens hash s' p board salt) :
    Recorded hash (history ++ [turn]) s' where
  committed := hcommitted
  fired p := by rw [hfired, hsame.shots, pendingAt_congr hsame.pending, h.fired]
  answered p := by rw [hanswers, hsame.shots, h.answered]
  inRange p := by rw [hfired]; exact h.inRange p
  afloat hphase p := by
    obtain ⟨hphase, hrevealed⟩ := hafloat hphase
    rw [hsame.hits, hrevealed]
    exact h.afloat hphase p
  quiet hphase := by rw [hsame.pending]; exact hquiet hphase
  opened := hopened
  opens := hopens

theorem Recorded.keepOpened (hrevealed : revealed s p = true) :
    ∃ board salt, (.revealBoard board salt, p) ∈ history ++ [turn] := by
  obtain ⟨board, salt, hmem⟩ := h.opened p hrevealed
  exact ⟨board, salt, List.mem_append_left _ hmem⟩

theorem Recorded.keepOpens {salt : Bytes} (hrevealed : revealed s p = true → revealed s' p = true)
    (hcommits : commitFor s' p = commitFor s p) (hshots : shotsAt s' p = shotsAt s p)
    (hmem : (.revealBoard board salt, p) ∈ history) :
    revealed s' p = true ∧ Opens hash s' p board salt := by
  obtain ⟨hbefore, hopens⟩ := h.opens p board salt hmem
  exact ⟨hrevealed hbefore, opens_congr hcommits hshots hopens⟩

theorem Recorded.not_revealed {salt : Bytes}
    (hphase : s.phase = .awaitingCommits ∨ s.phase = .playing) :
    (.revealBoard board salt, p) ∉ history := by
  intro hmem
  cases (h.opens p board salt hmem).1.symm.trans (h.afloat hphase p).2

end

theorem mem_concat_of_ne {other : Turn} (hne : other ≠ turn) (hmem : other ∈ history ++ [turn]) :
    other ∈ history := by
  rcases List.mem_append.mp hmem with hmem | hmem
  · exact hmem
  · exact absurd (List.mem_singleton.mp hmem) hne

section

variable (h : Recorded hash history s)
include h

theorem recorded_commit (hphase : s.phase = .awaitingCommits)
    (hcommits : ∀ q, commitFor s' q = if q = p then some commitment else commitFor s q)
    (hphase' : s'.phase = .awaitingCommits ∨ s'.phase = .playing)
    (hrevealed : ∀ q, revealed s' q = revealed s q) (hsame : SameFleets s s') :
    Recorded hash (history ++ [(.commit commitment, p)]) s' := by
  refine h.quietStep hsame (by simp [firedAt]) (by simp [answersBy]) ?_
    (fun _ => ⟨.inl hphase, hrevealed⟩) ?_ ?_ ?_
  · intro q c hc
    rw [hcommits] at hc
    split_ifs at hc with hq
    · cases hc
      subst hq
      simp
    · exact List.mem_append_left _ (h.committed q c hc)
  · intro hreveal
    rw [hreveal] at hphase'
    simp at hphase'
  · intro q hq
    rw [hrevealed, (h.afloat (.inl hphase) q).2] at hq
    cases hq
  · intro q board salt hmem
    exact absurd (mem_concat_of_ne (by simp) hmem) (h.not_revealed (.inl hphase))

theorem recorded_shoot {cell : Int} (hphase : s.phase = .playing) (hpending : s.pendingShot = none)
    (hcell : 0 ≤ cell ∧ cell < cellCount) :
    Recorded hash (history ++ [(.shoot cell, p)])
      { s with pendingShot := some ⟨p, cell⟩ } := by
  have hnone : ∀ q, pendingAt s q = [] := by
    intro q
    rw [pendingAt, hpending]
  have hfired : ∀ q, firedAt q (history ++ [(.shoot cell, p)]) =
      firedAt q history ++ if p = otherParty q then [cell] else [] := by
    intro q
    simp only [firedAt, List.filterMap_append]
    split_ifs with hp <;> simp [hp]
  constructor
  case committed =>
    intro q c hc
    have hc' : commitFor s q = some c := by
      cases q <;> exact hc
    exact List.mem_append_left _ (h.committed q c hc')
  case fired =>
    intro q
    rw [hfired, h.fired, hnone, List.append_nil]
    cases q <;> rfl
  case answered =>
    intro q
    have hanswers : answersBy q (history ++ [(.shoot cell, p)]) = answersBy q history := by
      simp [answersBy]
    rw [hanswers, h.answered]
    cases q <;> rfl
  case inRange =>
    intro q c hc
    rw [hfired, List.mem_append] at hc
    rcases hc with hc | hc
    · exact h.inRange q c hc
    · split_ifs at hc
      · rw [List.mem_singleton.mp hc]
        exact hcell
      · cases hc
  case afloat =>
    intro _ q
    have hq := h.afloat (.inr hphase) q
    cases q <;> exact hq
  case quiet =>
    intro hreveal
    cases hphase.symm.trans hreveal
  case opened =>
    intro q hq
    have hclosed := (h.afloat (.inr hphase) q).2
    cases q <;> cases hq.symm.trans hclosed
  case opens =>
    intro q board salt hmem
    exact absurd (mem_concat_of_ne (by simp) hmem) (h.not_revealed (.inr hphase))

theorem recorded_answer {shot : BattleshipShot} {isHit : Bool} {turn : Party}
    {phase : BattleshipPhase} (hphase : s.phase = .playing) (hpending : s.pendingShot = some shot)
    (hcell : ∀ cell, next = some cell → 0 ≤ cell ∧ cell < cellCount) (hphase' : phase = .playing ∧
        hitsOn (recordShot s (otherParty shot.byParty) shot.cell isHit)
          (otherParty shot.byParty) < fleetCells ∨
      phase = .revealBoards ∧ next = none) :
    Recorded hash (history ++ [(.answer isHit next, otherParty shot.byParty)])
      { recordShot s (otherParty shot.byParty) shot.cell isHit with
        turn := turn, phase := phase
        pendingShot := next.map (⟨otherParty shot.byParty, ·⟩) } := by
  obtain ⟨shooter, cell⟩ := shot
  have hfired : ∀ q, firedAt q (history ++ [(.answer isHit next, otherParty shooter)]) =
      firedAt q history ++ if q = shooter then next.toList else [] := by
    intro q
    simp only [firedAt, List.filterMap_append]
    cases next <;> cases q <;> cases shooter <;> simp [otherParty]
  have hanswers : ∀ q,
      answersBy q (history ++ [(.answer isHit next, otherParty shooter)]) =
        answersBy q history ++ if q = otherParty shooter then [isHit] else [] := by
    intro q
    simp only [answersBy, List.filterMap_append]
    cases q <;> cases shooter <;> simp [otherParty]
  have hafloat := h.afloat (.inr hphase)
  constructor
  case committed =>
    intro q c hc
    have hc' : commitFor s q = some c := by
      rw [← recordShot_commitFor s (otherParty shooter) q cell isHit]
      cases q <;> exact hc
    exact List.mem_append_left _ (h.committed q c hc')
  case fired =>
    intro q
    rw [hfired, h.fired, pendingAt, hpending]
    cases shooter <;> cases q <;> cases next <;>
      simp [otherParty, pendingAt, shotsAt, recordShot]
  case answered =>
    intro q
    rw [hanswers, h.answered]
    cases shooter <;> cases q <;> simp [otherParty, shotsAt, recordShot]
  case inRange =>
    intro q c hc
    rw [hfired, List.mem_append] at hc
    rcases hc with hc | hc
    · exact h.inRange q c hc
    · split_ifs at hc
      · exact hcell c (Option.mem_toList.mp hc)
      · cases hc
  case afloat =>
    intro hplaying q
    rcases hphase' with ⟨-, hhits⟩ | ⟨hreveal, -⟩
    · have hother : hitsOn (recordShot s (otherParty shooter) cell isHit) q < fleetCells := by
        by_cases hq : q = otherParty shooter
        · rw [hq]
          exact hhits
        · rw [recordShot_hitsOn, if_neg (by simp [hq])]
          exact (hafloat q).1
      have hclosed := (recordShot_revealed s (otherParty shooter) q cell isHit).trans
        (hafloat q).2
      cases q <;> exact ⟨hother, hclosed⟩
    · subst hreveal
      simp at hplaying
  case quiet =>
    intro hreveal
    rcases hphase' with ⟨hplaying, -⟩ | ⟨-, hnone⟩
    · subst hplaying
      cases hreveal
    · rw [hnone]
      rfl
  case opened =>
    intro q hq
    have hclosed := (recordShot_revealed s (otherParty shooter) q cell isHit).trans
      (hafloat q).2
    cases q <;> cases hq.symm.trans hclosed
  case opens =>
    intro q board salt hmem
    exact absurd (mem_concat_of_ne (by simp) hmem) (h.not_revealed (.inr hphase))

theorem recorded_reveal {salt : Bytes} (hphase : s.phase = .revealBoards)
    (hopens : Opens hash s p board salt)
    (hrevealed : ∀ q, revealed s' q = (decide (q = p) || revealed s q))
    (hphase' : s'.phase = .revealBoards ∨ s'.phase = .over ∧ ∀ q, revealed s' q = true)
    (hcommits : ∀ q, commitFor s' q = commitFor s q) (hsame : SameFleets s s') :
    Recorded hash (history ++ [(.revealBoard board salt, p)]) s' := by
  refine h.quietStep hsame (by simp [firedAt]) (by simp [answersBy]) ?_ ?_
    (fun _ => h.quiet hphase) ?_ ?_
  · intro q c hc
    rw [hcommits] at hc
    exact List.mem_append_left _ (h.committed q c hc)
  · rintro (hearly | hearly) <;> rcases hphase' with hlate | ⟨hlate, -⟩ <;>
      cases hearly.symm.trans hlate
  · intro q hq
    by_cases hqp : q = p
    · subst hqp
      exact ⟨board, salt, by simp⟩
    · rw [hrevealed, decide_eq_false hqp, Bool.false_or] at hq
      exact h.keepOpened hq
  · intro q board' salt' hmem
    rcases List.mem_append.mp hmem with hmem | hmem
    · exact h.keepOpens (fun hq => by rw [hrevealed, hq, Bool.or_true]) (hcommits q)
        (hsame.shots q) hmem
    · simp only [List.mem_singleton, Prod.mk.injEq, BattleshipMove.revealBoard.injEq] at hmem
      obtain ⟨⟨rfl, rfl⟩, rfl⟩ := hmem
      exact ⟨by simp [hrevealed], opens_congr (hcommits q) (hsame.shots q) hopens⟩

theorem recorded_resign {winner : BattleshipWinner} :
    Recorded hash (history ++ [(.resign, p)]) (settle s winner) := by
  refine h.quietStep (settle_sameFleets s winner) (by simp [firedAt]) (by simp [answersBy])
    ?_ ?_ nofun ?_ ?_
  · intro q c hc
    rw [settle_commitFor] at hc
    exact List.mem_append_left _ (h.committed q c hc)
  · rintro (hearly | hearly) <;> cases hearly
  · intro q hq
    rw [settle_revealed] at hq
    exact h.keepOpened hq
  · intro q board salt hmem
    exact h.keepOpens (fun hq => by rw [settle_revealed, hq]) (settle_commitFor s winner q)
      ((settle_sameFleets s winner).shots q) (mem_concat_of_ne (by simp) hmem)

theorem Recorded.step (heffect : Effect hash s turn s') :
    Recorded hash (history ++ [turn]) s' := by
  cases heffect with
  | commit hphase hcommits hphase' hrevealed hsame =>
    exact recorded_commit h hphase hcommits hphase' hrevealed hsame
  | shoot hphase hpending hcell => exact recorded_shoot h hphase hpending hcell
  | answer hphase hpending hfired hcell hphase' =>
    rcases hfired with rfl | hsunk
    · exact recorded_answer h hphase hpending hcell hphase'
    · exact absurd hsunk (not_le.mpr (h.afloat (.inr hphase) _).1)
  | reveal hphase hopens hrevealed hphase' hcommits hsame =>
    exact recorded_reveal h hphase hopens hrevealed hphase' hcommits hsame
  | resign => exact recorded_resign h

end

theorem run_recorded {defaultStake : Int} {ctx : ProtocolContext}
    (hrun : (plays hash defaultStake ctx).Run history s) : Recorded hash history s := by
  apply hrun.invariant (I := Recorded hash)
  · rintro _ _ ⟨rfl, rfl⟩
    exact recorded_initialState hash defaultStake ctx
  · intro past before turn after _ hrecorded hstep
    exact hrecorded.step (applyMove_effect hstep)

/-- A board whose answers stood the check holds 1 exactly on the cells answered as hits. -/
theorem isHit_iff_of_consistent {shots : List BattleshipShotResult} {shot : BattleshipShotResult}
    (h : contradiction board shots = none) (hmem : shot ∈ shots) (hcell : 0 ≤ shot.cell) :
    shot.isHit = true ↔ board.getD shot.cell.toNat 0 = 1 := by
  simp only [contradiction, List.find?_eq_none, decide_eq_true_eq] at h
  have hshot := h shot hmem
  rw [List.getD_eq_getElem?_getD]
  cases hvalue : board[shot.cell.toNat]? with
  | none => simp_all
  | some => cases hhit : shot.isHit <;> simp_all

/-- The string behind a board's commitment. -/
def committedString (board salt : Bytes) : Bytes :=
  domainCommitReveal ++ lengthPrefixedConcat [board, salt]

/-- With a hash that tells the two strings apart, a commitment opens to one legal board. -/
theorem board_eq_of_verified {salt board' salt' : Bytes}
    (hinj : Set.InjOn hash {committedString board salt, committedString board' salt'})
    (hverified : verifyCommitment hash commitment board salt = true)
    (hverified' : verifyCommitment hash commitment board' salt' = true)
    (hlegal : isLegalBoard board = true) (hlegal' : isLegalBoard board' = true) :
    board' = board := by
  simp only [verifyCommitment, beq_iff_eq] at hverified hverified'
  have hbytes : (hash (committedString board' salt')).bytes =
      (hash (committedString board salt)).bytes :=
    hverified'.trans hverified.symm
  have hstrings : committedString board' salt' = committedString board salt :=
    hinj (by simp) (by simp) (Bytes32.ext_bytes hbytes)
  simp only [isLegalBoard, Bool.and_eq_true, decide_eq_true_eq] at hlegal hlegal'
  simp only [committedString, lengthPrefixedConcat, List.map_cons, List.map_nil,
    List.flatten_cons, List.flatten_nil, List.append_assoc, List.append_cancel_left_eq,
    hlegal.1.1.1, hlegal'.1.1.1] at hstrings
  exact (List.append_inj hstrings (hlegal'.1.1.1.trans hlegal.1.1.1.symm)).1

/-- A reveal that ends the game is the second one, and no shot waits for an answer. -/
theorem settled_of_reveal {defaultStake : Int} {ctx : ProtocolContext} {salt : Bytes}
    (hrun : (plays hash defaultStake ctx).Run history s)
    (hlast : history.getLast? = some (.revealBoard board salt, p)) (hover : s.phase = .over) :
    (∀ q, revealed s q = true) ∧ s.pendingShot = none := by
  obtain ⟨_, rfl⟩ := List.getLast?_eq_some_iff.mp hlast
  obtain ⟨_, hbefore, hstep⟩ := System.accepting_last hrun
  cases applyMove_effect hstep with
  | reveal hphase _ _ hphase' _ hsame =>
    rcases hphase' with hopen | ⟨-, hrevealed⟩
    · cases hopen.symm.trans hover
    · exact ⟨hrevealed, hsame.pending.trans ((run_recorded hbefore).quiet hphase)⟩

/-- A byte that is a ship to the fleet check is one to the answer check exactly if it is
0 or 1. -/
theorem readings_agree_iff {isHit : Bool} {value : UInt8} (h : isHit = true ↔ value = 1) :
    isHit = decide (value ≠ 0) ↔ value = 0 ∨ value = 1 := by
  by_cases hzero : value = 0
  · subst hzero
    have hmiss : isHit = false := by simpa using h
    simp [hmiss]
  · cases isHit with
    | true => simp [h.mp rfl]
    | false =>
      have hother : value ≠ 1 := by simpa using h
      simp [hother]

/-- The answers of a game that the board reveals settle, for the winner and for the loser.
Every shot at the seat was answered. The board it revealed is the one it committed to
and has a legal fleet. The answers say what the fleet check sees on the cells that were
shot exactly if the board holds 0 or 1 there. -/
theorem answers_honest_iff {defaultStake : Int} {ctx : ProtocolContext}
    {lastBoard lastSalt : Bytes} (hrun : (plays hash defaultStake ctx).Run history s)
    (hlast : history.getLast? = some (.revealBoard lastBoard lastSalt, p))
    (hover : s.phase = .over) (x : Party) :
    (∃ board salt, (.revealBoard board salt, x) ∈ history) ∧
    (firedAt x history).length = (answersBy x history).length ∧
    ∀ board salt, (.revealBoard board salt, x) ∈ history →
      isLegalBoard board = true ∧
      (∃ commitment, (.commit commitment, x) ∈ history ∧
        verifyCommitment hash commitment board salt = true ∧
        ∀ board' salt', isLegalBoard board' = true →
          verifyCommitment hash commitment board' salt' = true →
          Set.InjOn hash {committedString board salt, committedString board' salt'} →
          board' = board) ∧
      ((∀ shot ∈ (firedAt x history).zip (answersBy x history),
          shot.2 = shipAt board shot.1.toNat) ↔
        ∀ cell ∈ firedAt x history,
          board.getD cell.toNat 0 = 0 ∨ board.getD cell.toNat 0 = 1) := by
  have hrecorded := run_recorded hrun
  obtain ⟨hrevealed, hquiet⟩ := settled_of_reveal hrun hlast hover
  have hnone : pendingAt s x = [] := by
    rw [pendingAt, hquiet]
  have hfired := hrecorded.fired x
  rw [hnone, List.append_nil] at hfired
  have hanswered := hrecorded.answered x
  refine ⟨hrecorded.opened x (hrevealed x), by simp [hfired, hanswered], ?_⟩
  intro board salt hmem
  obtain ⟨-, ⟨commitment, hcommitment, hverified⟩, hlegal, hconsistent⟩ :=
    hrecorded.opens x board salt hmem
  refine ⟨hlegal, ⟨commitment, hrecorded.committed x _ hcommitment, hverified, ?_⟩, ?_⟩
  · intro board' salt' hlegal' hverified' hinj
    exact board_eq_of_verified hinj hverified hverified' hlegal hlegal'
  · rw [hfired, hanswered, List.zip_map', List.forall_mem_map, List.forall_mem_map]
    apply forall₂_congr
    intro shot hshot
    have hrange := hrecorded.inRange x shot.cell
      (by rw [hfired]; exact List.mem_map_of_mem hshot)
    exact readings_agree_iff (isHit_iff_of_consistent hconsistent hshot hrange.1)

namespace Sample

/-- Adds up the bytes; enough to tell the sample's two boards apart. -/
def sumHash : Hash := fun message => Bytes32.fill (message.foldl (· + ·) 0)

def shipCells : List Nat := [0, 1, 2, 3, 4, 20, 21, 22, 23, 40, 41, 42, 60, 61, 62, 80, 81]

/-- Five ships in five rows, written with the given byte. -/
def fleetOf (ship : UInt8) : Bytes :=
  (List.range cellCount).map fun cell => if cell ∈ shipCells then ship else 0

def salt : Bytes := List.replicate 16 0

/-- Party A fires once, at `target`, and is told that it missed. Party B sinks A's fleet,
and both reveal. -/
def game (boardB : Bytes) (target : Int) : List Turn :=
  [(.commit (hashCommitment sumHash (fleetOf 1) salt), .A),
   (.commit (hashCommitment sumHash boardB salt), .B),
   (.shoot target, .A), (.answer false (some 0), .B), (.answer true none, .A)] ++
  (shipCells.drop 1).flatMap (fun cell => [(.shoot cell, .B), (.answer true none, .A)]) ++
  [(.revealBoard boardB salt, .B), (.revealBoard (fleetOf 1) salt, .A)]

def ctx : ProtocolContext := ⟨"", ⟨5, 5⟩⟩

theorem game_run (boardB : Bytes) (target : Int) (balances : Balances)
    (h : ((game boardB target).foldlM (fun s turn => applyMove sumHash s turn.1 turn.2)
      (initialState 1 ctx)).map (fun s => (s.phase, s.winner, s.balanceA, s.balanceB)) =
        .ok (.over, .partyB, balances.a, balances.b)) :
    ∃ s, (plays sumHash 1 ctx).Run (game boardB target) s ∧ s.phase = .over ∧
      s.winner = .partyB ∧ s.balanceB = balances.b := by
  obtain ⟨s, hrun, hresult⟩ := System.exists_run_of_replay h
  obtain ⟨hphase, hrest⟩ := Prod.mk.inj hresult
  obtain ⟨hwinner, hrest⟩ := Prod.mk.inj hrest
  exact ⟨s, hrun, hphase, hwinner, (Prod.mk.inj hrest).2⟩

end Sample

theorem answers_honest_iff_water : ∃ s,
    (plays Sample.sumHash 1 Sample.ctx).Run (Sample.game (Sample.fleetOf 1) 99) s ∧
    s.winner = .partyB ∧
    ∀ shot ∈ (firedAt .B (Sample.game (Sample.fleetOf 1) 99)).zip
        (answersBy .B (Sample.game (Sample.fleetOf 1) 99)),
      shot.2 = shipAt (Sample.fleetOf 1) shot.1.toNat := by
  obtain ⟨s, hrun, hover, hwinner, -⟩ := Sample.game_run (Sample.fleetOf 1) 99 ⟨4, 6⟩
    (by decide +kernel)
  have hlast : (Sample.game (Sample.fleetOf 1) 99).getLast? =
      some (.revealBoard (Sample.fleetOf 1) Sample.salt, .A) := by
    decide +kernel
  obtain ⟨-, -, hboards⟩ := answers_honest_iff hrun hlast hover .B
  obtain ⟨-, -, hhonest⟩ := hboards (Sample.fleetOf 1) Sample.salt (by decide +kernel)
  exact ⟨s, hrun, hwinner, hhonest.mpr (by decide +kernel)⟩

/-- Party B writes its ships as 2. Its board passes the fleet check, the shot at one of
its ships is answered as a miss, and B wins. -/
theorem ships_written_as_two : ∃ s,
    (plays Sample.sumHash 1 Sample.ctx).Run (Sample.game (Sample.fleetOf 2) 0) s ∧
    (Sample.game (Sample.fleetOf 2) 0).getLast? =
      some (.revealBoard (Sample.fleetOf 1) Sample.salt, .A) ∧
    s.phase = .over ∧ s.winner = .partyB ∧ s.balanceB = 6 ∧
    Set.InjOn Sample.sumHash {committedString (Sample.fleetOf 1) Sample.salt,
      committedString (Sample.fleetOf 2) Sample.salt} ∧
    (.revealBoard (Sample.fleetOf 2) Sample.salt, .B) ∈ Sample.game (Sample.fleetOf 2) 0 ∧
    isLegalBoard (Sample.fleetOf 2) = true ∧
    (firedAt .B (Sample.game (Sample.fleetOf 2) 0)).zip
      (answersBy .B (Sample.game (Sample.fleetOf 2) 0)) = [(0, false)] ∧
    shipAt (Sample.fleetOf 2) 0 = true := by
  obtain ⟨s, hrun, hover, hwinner, hbalance⟩ := Sample.game_run (Sample.fleetOf 2) 0 ⟨4, 6⟩
    (by decide +kernel)
  have hapart : Sample.sumHash (committedString (Sample.fleetOf 1) Sample.salt) ≠
      Sample.sumHash (committedString (Sample.fleetOf 2) Sample.salt) := by
    decide +kernel
  refine ⟨s, hrun, by decide +kernel, hover, hwinner, hbalance, ?_, by decide +kernel,
    by decide +kernel, by decide +kernel, by decide +kernel⟩
  rintro _ (rfl | rfl) _ (rfl | rfl) hsame
  · rfl
  · exact absurd hsame hapart
  · exact absurd hsame.symm hapart
  · rfl

end DopamintArena.Games.Battleship
