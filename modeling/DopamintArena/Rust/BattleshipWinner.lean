import DopamintArena.Foundation.Runs
import DopamintArena.Rust.CellProofs

/-!
Who can win the Rust battleship. A win is confirmed by the winner's own board
reveal: the board hashes to the committed root and passes the fleet check. The
tree marks a cell as a ship if it holds exactly 1, the fleet check counts every
nonzero cell. What a seat could prove about its cells is therefore a legal fleet
exactly if its board holds only 0 and 1.
-/

namespace DopamintArena.Rust.Battleship

open Foundation
open DopamintArena.Games (Hash)
open DopamintArena.Games.Battleship (shipAt shipCellCount)

def leafStrings (board : Bytes) (salts : List Bytes32) : List Bytes :=
  (List.range treeLeaves).map fun cell =>
    match board[cell]?, salts[cell]? with
    | some value, some salt => leafString (UInt8.ofNat cell) (value == 1) salt
    | _, _ => padString

/-- The strings hashed to commit to a board. -/
def boardStrings (hash : Hash) (board : Bytes) (salts : List Bytes32) : List Bytes :=
  leafStrings board salts ++
    Merkle.treeStrings hash nodeString treeLeaves (leaves hash board salts)

/-- The seat can open the cell as a ship with strings that are hashed somewhere. -/
def CanProve (hash : Hash) (known : Set Bytes) (root : Bytes32) (cell : UInt8) : Prop :=
  ∃ salt proof, (∀ string ∈ openingStrings hash cell ⟨true, salt, proof⟩, string ∈ known) ∧
    Accepted hash root cell ⟨true, salt, proof⟩

/-- The cells are the ships of a board that passes the fleet check. -/
def LegalFleet (ships : UInt8 → Prop) : Prop :=
  ∃ board, isLegalBoard board = true ∧
    ∀ cell : UInt8, cell.toNat < cellCount → (shipAt board cell.toNat = true ↔ ships cell)

variable {hash : Hash} {known : Set Bytes} {root : Bytes32} {cell : UInt8} {board : Bytes}
variable {salts : List Bytes32}

theorem leaves_eq (hash : Hash) (board : Bytes) (salts : List Bytes32) :
    leaves hash board salts = (leafStrings board salts).map hash := by
  simp only [leaves, leafStrings, List.map_map, List.map_inj_left, Function.comp_apply]
  intro cell _
  cases board[cell]? <;> cases salts[cell]? <;> rfl

theorem length_leaves (hash : Hash) (board : Bytes) (salts : List Bytes32) :
    (leaves hash board salts).length = 2 ^ 7 := by
  simp [leaves, treeLeaves]

/-- The string behind a leaf is never that of an inner node. -/
theorem leafStrings_ne_nodeString {string : Bytes} (h : string ∈ leafStrings board salts)
    (l r : Bytes32) : string ≠ nodeString l r := by
  obtain ⟨_, -, rfl⟩ := List.mem_map.mp h
  split
  · exact leafString_ne_nodeString _ _ _ _ _
  · intro hpad
    cases (List.cons.inj hpad).1

/-- A leaf that marks its cell as a ship stands for a cell that holds 1. -/
theorem eq_one_of_leaf {salt : Bytes32} (hcell : cell.toNat < 2 ^ 7)
    (hleaf : (leafStrings board salts)[cell.toNat]? = some (leafString cell true salt)) :
    board[cell.toNat]? = some 1 := by
  simp only [leafStrings, List.getElem?_map] at hleaf
  rw [List.getElem?_range (by exact hcell), Option.map_some, Option.some.injEq] at hleaf
  split at hleaf
  next value salt' hvalue hsalt =>
    have hship := leafString_flag hleaf
    rw [hvalue, beq_iff_eq.mp hship]
  next => cases (List.cons.inj hleaf).1

theorem mod_two_pow_turn {x n k : ℕ} (hk : k < n) : x % 2 ^ n / 2 ^ k % 2 = x / 2 ^ k % 2 := by
  obtain ⟨_, rfl⟩ := Nat.exists_eq_add_of_lt hk
  rw [Nat.add_assoc, pow_add, Nat.mod_mul_right_div_self, pow_succ]
  exact Nat.mod_mul_left_mod _ _ _

section Openings

variable (hroot : commitmentRoot
  (Merkle.layers hash nodeString treeLeaves (leaves hash board salts)) = some root)
include hroot

/-- Every leaf of the tree climbs to its root in seven steps. -/
theorem climb_leaf {idx : ℕ} (hidx : idx < 2 ^ 7) :
    ∃ string proof, (leafStrings board salts)[idx]? = some string ∧ proof.length = 7 ∧
      Merkle.climb hash nodeString (hash string) idx proof = root ∧
      ∀ s ∈ Merkle.climbStrings hash nodeString (hash string) idx proof,
        s ∈ boardStrings hash board salts := by
  have hfuel : 7 ≤ treeLeaves := by decide
  obtain ⟨_, proof, hdigest, -, hlength, hlast, hstrings⟩ :=
    Merkle.climb_siblings hash nodeString hfuel (length_leaves hash board salts) hidx
  rw [commitmentRoot, hlast] at hroot
  rw [leaves_eq, List.getElem?_map, Option.map_eq_some_iff] at hdigest
  obtain ⟨string, hstring, rfl⟩ := hdigest
  exact ⟨string, proof, hstring, hlength, Option.some.inj hroot,
    fun s hs => List.mem_append_right _ (hstrings s hs)⟩

variable (hknown : ∀ string ∈ boardStrings hash board salts, string ∈ known)
include hknown

/-- The tree's own opening of a cell that holds 1. -/
theorem canProve_of_eq_one (hsalts : salts.length = cellCount) (hcell : cell.toNat < cellCount)
    (hvalue : board[cell.toNat]? = some 1) : CanProve hash known root cell := by
  have hcell' : cell.toNat < 2 ^ 7 := hcell.trans (by decide)
  obtain ⟨salt, hsalt⟩ : ∃ salt, salts[cell.toNat]? = some salt :=
    ⟨_, List.getElem?_eq_getElem (by rw [hsalts]; exact hcell)⟩
  obtain ⟨string, proof, hstring, -, hclimb, hstrings⟩ := climb_leaf hroot hcell'
  have hmem := List.mem_of_getElem? hstring
  simp only [leafStrings, List.getElem?_map] at hstring
  rw [List.getElem?_range (by exact hcell'), Option.map_some, Option.some.injEq, hvalue,
    hsalt] at hstring
  subst hstring
  simp only [UInt8.ofNat_toNat] at hclimb hstrings hmem
  refine ⟨salt, proof, ?_, accepted_iff.mpr ⟨hcell, hclimb⟩⟩
  intro string hopening
  apply hknown
  rcases List.mem_cons.mp hopening with rfl | hopening
  · exact List.mem_append_left _ hmem
  · exact hstrings string hopening

variable (hinj : Set.InjOn hash known)
include hinj

section

variable {isShip : Bool} {salt : Bytes32} {proof : List Bytes32}
variable (hstrings : ∀ string ∈ openingStrings hash cell ⟨isShip, salt, proof⟩, string ∈ known)
include hstrings

/-- Along fewer siblings the cell's leaf would be an inner node of the tree. -/
theorem not_climb_short (hshort : proof.length < 7) :
    Merkle.climb hash nodeString (leafHash hash cell isShip salt) cell.toNat proof ≠ root := by
  intro hclimb
  obtain ⟨extra, hextra⟩ : ∃ extra, 7 = proof.length + extra := ⟨7 - proof.length, by omega⟩
  -- a leaf of the tree below the node where the short climb would have to start
  have hidx : cell.toNat % 2 ^ proof.length * 2 ^ extra < 2 ^ 7 := by
    rw [hextra, pow_add]
    exact Nat.mul_lt_mul_of_pos_right (Nat.mod_lt _ (by positivity)) (by positivity)
  obtain ⟨_, path, -, hpath, hclimb', hstrings'⟩ := climb_leaf hroot hidx
  have hturns : ∀ k < proof.length, cell.toNat / 2 ^ k % 2 =
      cell.toNat % 2 ^ proof.length * 2 ^ extra / 2 ^ (k + extra) % 2 := by
    intro k hk
    rw [pow_add, Nat.mul_div_mul_right _ _ (by positivity), mod_two_pow_turn hk]
  have hmeet := Merkle.climb_peel nodeString_inj hinj (hpath.trans hextra) hturns
    (fun s hs => hstrings s (List.mem_cons_of_mem _ hs))
    (fun s hs => hknown s (hstrings' s hs)) (hclimb.trans hclimb'.symm)
  have hproof : path ≠ [] := by
    rintro rfl
    cases hpath
  exact hash_ne_climb hinj (hstrings _ List.mem_cons_self) (leafString_ne_nodeString _ _ _)
    (fun s hs => hknown s (hstrings' s hs)) (by omega) hproof hmeet

/-- Along more siblings a leaf of the tree would be an inner node. -/
theorem not_climb_long (hlong : 7 < proof.length) :
    Merkle.climb hash nodeString (leafHash hash cell isShip salt) cell.toNat proof ≠ root := by
  intro hclimb
  obtain ⟨extra, _⟩ : ∃ extra, proof.length = 7 + extra := ⟨proof.length - 7, by omega⟩
  have hidx : cell.toNat / 2 ^ extra % 2 ^ 7 < 2 ^ 7 := Nat.mod_lt _ (by positivity)
  obtain ⟨_, path, hstring, hpath, hclimb', hstrings'⟩ := climb_leaf hroot hidx
  have hturns : ∀ k < path.length, cell.toNat / 2 ^ extra % 2 ^ 7 / 2 ^ k % 2 =
      cell.toNat / 2 ^ (k + extra) % 2 := by
    intro k hk
    rw [hpath] at hk
    rw [mod_two_pow_turn hk, Nat.div_div_eq_div_mul, ← pow_add, Nat.add_comm]
  have hlength : proof.length = path.length + extra := by omega
  have hmeet := Merkle.climb_peel nodeString_inj hinj hlength hturns
    (fun s hs => hknown s (hstrings' s hs))
    (fun s hs => hstrings s (List.mem_cons_of_mem _ hs)) (hclimb'.trans hclimb.symm)
  have hproof : proof ≠ [] := by
    rintro rfl
    cases hlong
  have hleaf := List.mem_of_getElem? hstring
  exact hash_ne_climb hinj (hknown _ (List.mem_append_left _ hleaf))
    (leafStrings_ne_nodeString hleaf)
    (fun s hs => hstrings s (List.mem_cons_of_mem _ hs)) (by omega) hproof hmeet

/-- Along seven siblings the cell's leaf is the tree's own. -/
theorem leaf_of_climb_seven (hcell : cell.toNat < 2 ^ 7) (hseven : proof.length = 7)
    (hclimb : Merkle.climb hash nodeString (leafHash hash cell isShip salt) cell.toNat proof =
      root) :
    (leafStrings board salts)[cell.toNat]? = some (leafString cell isShip salt) := by
  obtain ⟨_, path, hstring, hpath, hclimb', hstrings'⟩ := climb_leaf hroot hcell
  have hlength : path.length = proof.length + 0 := hpath.trans hseven.symm
  have hmeet := Merkle.climb_peel nodeString_inj hinj hlength (fun _ _ => rfl)
    (fun s hs => hstrings s (List.mem_cons_of_mem _ hs))
    (fun s hs => hknown s (hstrings' s hs)) (hclimb.trans hclimb'.symm)
  have hleaf := hknown _ (List.mem_append_left _ (List.mem_of_getElem? hstring))
  rw [hstring, hinj (hstrings _ List.mem_cons_self) hleaf hmeet]

end

/-- A board's tree accepts a cell as a ship, over known strings, only if the board holds 1
there. -/
theorem eq_one_of_canProve (hprove : CanProve hash known root cell) :
    board[cell.toNat]? = some 1 := by
  obtain ⟨_, proof, hstrings, haccepted⟩ := hprove
  obtain ⟨hcell, hclimb⟩ := accepted_iff.mp haccepted
  have hcell' : cell.toNat < 2 ^ 7 := hcell.trans (by decide)
  rcases Nat.lt_trichotomy proof.length 7 with hshort | hseven | hlong
  · exact absurd hclimb (not_climb_short hroot hknown hinj hstrings hshort)
  · exact eq_one_of_leaf hcell'
      (leaf_of_climb_seven hroot hknown hinj hstrings hcell' hseven hclimb)
  · exact absurd hclimb (not_climb_long hroot hknown hinj hstrings hlong)

end Openings

theorem isLegalBoard_length (h : isLegalBoard board = true) : board.length = cellCount := by
  simp only [isLegalBoard, Games.Battleship.isLegalBoard, Bool.and_eq_true,
    decide_eq_true_eq] at h
  exact h.1.1.1

theorem isLegalBoard_shipCellCount (h : isLegalBoard board = true) :
    shipCellCount board = Games.Battleship.fleetCells := by
  simp only [isLegalBoard, Games.Battleship.isLegalBoard, Bool.and_eq_true,
    decide_eq_true_eq] at h
  exact h.1.1.2

theorem countP_eq_of_getElem? {p q : UInt8 → Bool} {xs ys : Bytes}
    (hlength : xs.length = ys.length)
    (h : ∀ i, i < xs.length → ((xs[i]?).map p = (ys[i]?).map q)) :
    xs.countP p = ys.countP q := by
  have hmap : xs.map p = ys.map q := by
    apply List.ext_getElem?
    intro i
    rw [List.getElem?_map, List.getElem?_map]
    rcases Nat.lt_or_ge i xs.length with hi | hi
    · exact h i hi
    · rw [List.getElem?_eq_none hi, List.getElem?_eq_none (hlength ▸ hi)]
      rfl
  have hcount := congrArg (List.countP id) hmap
  rwa [List.countP_map, List.countP_map] at hcount

/-- If as many cells hold 1 as are nonzero, no cell holds more than 1. -/
theorem zero_or_one_of_countP
    (h : board.countP (fun value => decide (value = 1)) = shipCellCount board) :
    ∀ value ∈ board, value = 0 ∨ value = 1 := by
  have hsub : (board.filter fun value => decide (value = 1)).Sublist
      (board.filter fun value => decide (value ≠ 0)) := by
    apply List.monotone_filter_right
    intro value hone
    simp only [decide_eq_true_eq] at hone ⊢
    rw [hone]
    decide
  have hsame := hsub.eq_of_length (by
    rw [← List.countP_eq_length_filter, ← List.countP_eq_length_filter]
    exact h)
  intro value hvalue
  by_cases hzero : value = 0
  · exact .inl hzero
  · have hmem : value ∈ board.filter fun value => decide (value ≠ 0) :=
      List.mem_filter.mpr ⟨hvalue, by simpa using hzero⟩
    rw [← hsame] at hmem
    exact .inr (by simpa using (List.mem_filter.mp hmem).2)

/-- A fleet on the cells that hold 1 has as many ships as there are such cells. -/
theorem countP_one_of_fleet {fleet : Bytes} (hlength : board.length = cellCount)
    (hsize : fleet.length = cellCount) (hships : ∀ cell : UInt8, cell.toNat < cellCount →
      (shipAt fleet cell.toNat = true ↔ board[cell.toNat]? = some 1)) :
    board.countP (fun value => decide (value = 1)) = shipCellCount fleet := by
  apply countP_eq_of_getElem? (hlength.trans hsize.symm)
  intro i hi
  have hi' : i < fleet.length := by omega
  rw [hlength] at hi
  have hnat : (UInt8.ofNat i).toNat = i := UInt8.toNat_ofNat_of_lt' (hi.trans (by decide))
  have hcell : shipAt fleet i = true ↔ board[i]? = some 1 := by
    simpa only [hnat] using hships (UInt8.ofNat i) (by rw [hnat]; exact hi)
  rw [← hlength] at hi
  rw [shipAt, List.getD_eq_getElem?_getD, List.getElem?_eq_getElem hi,
    List.getElem?_eq_getElem hi', Option.getD_some, Option.some.injEq,
    decide_eq_true_eq] at hcell
  rw [List.getElem?_eq_getElem hi, List.getElem?_eq_getElem hi', Option.map_some,
    Option.map_some, Option.some.injEq, decide_eq_decide]
  exact hcell.symm

/-- The cells of a legal board that hold 1 are a legal fleet exactly if no cell holds more. -/
theorem legalFleet_ones_iff (hlegal : isLegalBoard board = true) :
    LegalFleet (fun cell => board[cell.toNat]? = some 1) ↔
      ∀ value ∈ board, value = 0 ∨ value = 1 := by
  have hlength := isLegalBoard_length hlegal
  constructor
  · rintro ⟨_, hfleet, hships⟩
    apply zero_or_one_of_countP
    rw [countP_one_of_fleet hlength (isLegalBoard_length hfleet) hships,
      isLegalBoard_shipCellCount hlegal, isLegalBoard_shipCellCount hfleet]
  · intro hplain
    refine ⟨board, hlegal, ?_⟩
    intro cell hcell
    rw [← hlength] at hcell
    change shipAt board cell.toNat = true ↔ board[cell.toNat]? = some 1
    rw [shipAt, List.getD_eq_getElem?_getD, List.getElem?_eq_getElem hcell, Option.getD_some,
      decide_eq_true_eq, Option.some.injEq]
    rcases hplain _ (List.getElem_mem hcell) with hzero | hone
    · simp [hzero]
    · simp [hone]

abbrev Turn := BattleshipMove × Seat

def plays (hash : Hash) (defaultStake : UInt64) (ctx : TunnelContext) :
    System BattleshipState Turn :=
  System.accepting (fun s turn => applyMove hash s turn.1 turn.2)
    (initialState defaultStake ctx)

def winnerOf : Seat → BattleshipWinner
  | .A => .seatA
  | .B => .seatB

variable {s s' : BattleshipState} {seat : Seat} {history : List Turn}
variable {target : UInt8} {ships : UInt8 → Prop}

theorem applyCommit_commitFor {newRoot : Bytes32} (h : applyCommit s newRoot seat = .ok s') :
    commitFor s seat = none ∧
      ∀ q, commitFor s' q = if q = seat then some newRoot else commitFor s q := by
  simp only [applyCommit, returned] at h
  obtain ⟨-, h⟩ := h
  split at h
  case h_1 hnone =>
    simp only [returned] at h
    obtain ⟨rfl, h⟩ := h
    refine ⟨hnone, ?_⟩
    split_ifs at h <;> cases h <;> intro q <;> cases q <;> rfl
  case h_2 hnone =>
    simp only [returned] at h
    obtain ⟨rfl, h⟩ := h
    refine ⟨hnone, ?_⟩
    split_ifs at h <;> cases h <;> intro q <;> cases q <;> rfl
  case h_3 => cases h

theorem applyShoot_commitFor (h : applyShoot s target seat = .ok s') (q : Seat) :
    commitFor s' q = commitFor s q := by
  simp only [applyShoot, returned] at h
  obtain ⟨-, -, -, -, -, rfl⟩ := h
  cases q <;> rfl

theorem applyReveal_commitFor {isShip : Bool} {salt : Bytes32} {proof : List Bytes32}
    (h : applyReveal hash s target isShip salt proof seat = .ok s') (q : Seat) :
    commitFor s' q = commitFor s q := by
  unfold applyReveal at h
  split at h
  · cases h
  simp only [returned] at h
  obtain ⟨-, -, -, h⟩ := h
  split at h
  · cases h
  simp only [returned] at h
  obtain ⟨-, h⟩ := h
  split_ifs at h <;> cases h <;> cases seat <;> cases q <;> rfl

theorem applyRevealBoard_ok (h : applyRevealBoard hash s board salts seat = .ok s') :
    board.length = cellCount ∧ salts.length = cellCount ∧
    ∃ committed, commitFor s seat = some committed ∧
      commitmentRoot (Merkle.layers hash nodeString treeLeaves (leaves hash board salts)) =
        some committed ∧
      s' = settle s (if isLegalBoard board then seat else seat.other) := by
  unfold applyRevealBoard at h
  split at h
  · cases h
  simp only [returned] at h
  obtain ⟨rfl, hboard, hsalts, h⟩ := h
  split at h
  · cases h
  rename_i committed hcommitted
  simp only [commitBoard, returned] at h
  obtain ⟨_, ⟨-, -, rfl⟩, h⟩ := h
  split at h
  · cases h
  rename_i root hroot
  simp only [returned] at h
  obtain ⟨rfl, rfl⟩ := h
  exact ⟨hboard, hsalts, root, hcommitted, hroot, rfl⟩

theorem settle_commitFor (s : BattleshipState) (beneficiary q : Seat) :
    commitFor (settle s beneficiary) q = commitFor s q := by
  cases beneficiary <;> cases q <;> rfl

theorem settle_winner (s : BattleshipState) (beneficiary : Seat) :
    (settle s beneficiary).winner = winnerOf beneficiary := by
  cases beneficiary <;> rfl

/-- The commitments of a run are the commit moves in it. -/
theorem committed_iff {defaultStake : UInt64} {ctx : TunnelContext}
    (hrun : (plays hash defaultStake ctx).Run history s) :
    ∀ q committed, (.commit committed, q) ∈ history ↔ commitFor s q = some committed := by
  apply hrun.invariant (I := fun history s =>
    ∀ q committed, (.commit committed, q) ∈ history ↔ commitFor s q = some committed)
  · rintro _ _ ⟨rfl, rfl⟩ q committed
    cases q <;> simp [commitFor, initialState]
  · rintro past before ⟨mv, seat⟩ after _ hcommitted hstep q committed
    change applyMove hash before mv seat = .ok after at hstep
    simp only [applyMove, returned] at hstep
    obtain ⟨-, hstep⟩ := hstep
    rw [List.mem_append, hcommitted, List.mem_singleton]
    cases mv with
    | commit =>
      obtain ⟨hnone, hcommits⟩ := applyCommit_commitFor hstep
      rw [hcommits]
      by_cases hq : q = seat
      · subst hq
        simp [hnone, eq_comm]
      · simp [hq]
    | shoot => simp [applyShoot_commitFor hstep]
    | reveal => simp [applyReveal_commitFor hstep]
    | revealBoard =>
      obtain ⟨-, -, -, -, -, rfl⟩ := applyRevealBoard_ok hstep
      simp [settle_commitFor]

theorem legalFleet_congr {ships' : UInt8 → Prop}
    (h : ∀ cell : UInt8, cell.toNat < cellCount → (ships cell ↔ ships' cell)) :
    LegalFleet ships ↔ LegalFleet ships' := by
  constructor
  · rintro ⟨fleet, hlegal, hships⟩
    exact ⟨fleet, hlegal, fun cell hcell => (hships cell hcell).trans (h cell hcell)⟩
  · rintro ⟨fleet, hlegal, hships⟩
    exact ⟨fleet, hlegal, fun cell hcell => (hships cell hcell).trans (h cell hcell).symm⟩

theorem LegalFleet.nonempty (h : LegalFleet ships) :
    ∃ cell, ships cell := by
  obtain ⟨fleet, hlegal, hships⟩ := h
  have hcount : 0 < fleet.countP fun cell => decide (cell ≠ 0) := by
    have hfleet := isLegalBoard_shipCellCount hlegal
    rw [shipCellCount] at hfleet
    rw [hfleet]
    decide
  obtain ⟨_, hmem, hvalue⟩ := List.countP_pos_iff.mp hcount
  obtain ⟨i, hi, rfl⟩ := List.getElem_of_mem hmem
  have hcell : i < cellCount := by rw [← isLegalBoard_length hlegal]; exact hi
  have hnat : (UInt8.ofNat i).toNat = i := UInt8.toNat_ofNat_of_lt' (hcell.trans (by decide))
  refine ⟨UInt8.ofNat i, (hships _ (by rw [hnat]; exact hcell)).mp ?_⟩
  rw [hnat, shipAt, List.getD_eq_getElem?_getD, List.getElem?_eq_getElem hi]
  exact hvalue

/-- The winner's fleet. In every run in which a board reveal confirms the revealer's win,
the board is the one the seat committed to, and what it could prove as ships is a legal
fleet, and so has a ship, exactly if the board holds only 0 and 1. -/
theorem winner_fleet_legal_iff {defaultStake : UInt64} {ctx : TunnelContext}
    (hrun : (plays hash defaultStake ctx).Run history s)
    (hlast : history.getLast? = some (.revealBoard board salts, seat))
    (hwon : s.winner = winnerOf seat) (hinj : Set.InjOn hash known)
    (hknown : ∀ string ∈ boardStrings hash board salts, string ∈ known) :
    ∃ root layers, (∀ root', (.commit root', seat) ∈ history ↔ root' = root) ∧
      commitBoard hash board salts = .ok layers ∧ commitmentRoot layers = some root ∧
      (LegalFleet (CanProve hash known root) ↔ ∀ value ∈ board, value = 0 ∨ value = 1) ∧
      (LegalFleet (CanProve hash known root) → ∃ cell, CanProve hash known root cell) := by
  have hcommitted := committed_iff hrun
  obtain ⟨_, rfl⟩ := List.getLast?_eq_some_iff.mp hlast
  obtain ⟨_, _, hstep⟩ := System.accepting_last hrun
  simp only [applyMove, returned] at hstep
  obtain ⟨hboard, hsalts, root, hroot, hlayers, rfl⟩ := applyRevealBoard_ok hstep.2
  have hlegal : isLegalBoard board = true := by
    by_contra hillegal
    rw [if_neg hillegal, settle_winner] at hwon
    cases seat <;> cases hwon
  have hcommit : commitBoard hash board salts =
      .ok (Merkle.layers hash nodeString treeLeaves (leaves hash board salts)) := by
    rw [commitBoard, require_of hboard, require_of hsalts]
    rfl
  refine ⟨root, _, ?_, hcommit, hlayers, ?_, LegalFleet.nonempty⟩
  · intro root'
    rw [hcommitted, settle_commitFor, hroot, Option.some.injEq, eq_comm]
  · rw [← legalFleet_ones_iff hlegal]
    apply legalFleet_congr
    intro cell hcell
    exact ⟨eq_one_of_canProve hlayers hknown hinj, canProve_of_eq_one hlayers hknown hsalts hcell⟩

namespace Sample

/-- A digest that starts with three given bytes. -/
def place (level first ships : UInt8) : Bytes32 :=
  ⟨level :: first :: ships :: List.replicate 29 0, rfl⟩

/-- Digests that tell the level, the first cell below and the number of ships below. -/
def placeHash : Hash
  | 0x00 :: cell :: flag :: _ => place 0 cell flag
  | 0x01 :: level :: first :: ships :: rest =>
    place (level + 1) first (ships + rest.getD 31 0)
  | _ => place 0 100 0

def rank (digest : Bytes32) : ℕ := ofBeBytes (digest.bytes.take 3)

def shipCells : List UInt8 := [0, 1, 2, 3, 4, 20, 21, 22, 23, 40, 41, 42, 60, 61, 62, 80, 81]

/-- Five ships in five rows, written with the given byte. -/
def fleetOf (ship : UInt8) : Bytes :=
  (List.range cellCount).map fun cell => if UInt8.ofNat cell ∈ shipCells then ship else 0

def zeroSalt : Bytes32 := place 0 0 0

def zeroSalts : List Bytes32 := List.replicate cellCount zeroSalt

def layersOf (ship : UInt8) : List (List Bytes32) :=
  Merkle.layers placeHash nodeString treeLeaves (leaves placeHash (fleetOf ship) zeroSalts)

def rootOf (ship : UInt8) : Bytes32 := (commitmentRoot (layersOf ship)).getD zeroSalt

/-- A cell opened along its siblings in the tree. -/
def opening (ship cell : UInt8) (isShip : Bool) : BattleshipMove :=
  .reveal cell isShip zeroSalt ((Merkle.siblings (layersOf ship) cell.toNat).getD [])

/-- Seat A fires at the ships of B, and B at water of A, until B's fleet is sunk and A
reveals its board. -/
def game (ship : UInt8) : List Turn :=
  [(.commit (rootOf ship), .A), (.commit (rootOf 1), .B)] ++
  ((shipCells.take 16).zipIdx 84).flatMap (fun (cell, water) =>
    [(.shoot cell, .A), (opening 1 cell true, .B),
      (.shoot (UInt8.ofNat water), .B), (opening ship (UInt8.ofNat water) false, .A)]) ++
  [(.shoot 81, .A), (opening 1 81 true, .B), (.revealBoard (fleetOf ship) zeroSalts, .A)]

def ctx : TunnelContext := ⟨"", ⟨5, 5⟩, .A⟩

def strings (ship : UInt8) : List Bytes := boardStrings placeHash (fleetOf ship) zeroSalts

/-- The strings of two boards, position by position. -/
def bothStrings : List Bytes := ((strings 2).zip (strings 1)).flatMap fun s => [s.1, s.2]

theorem mem_bothStrings {string : Bytes} (h : string ∈ strings 2 ∨ string ∈ strings 1) :
    string ∈ bothStrings := by
  have hlength : (strings 2).length = (strings 1).length := by decide +kernel
  rcases h with h | h
  · rw [← List.map_fst_zip hlength.le] at h
    obtain ⟨both, hboth, rfl⟩ := List.mem_map.mp h
    exact List.mem_flatMap.mpr ⟨both, hboth, by simp⟩
  · rw [← List.map_snd_zip hlength.ge] at h
    obtain ⟨both, hboth, rfl⟩ := List.mem_map.mp h
    exact List.mem_flatMap.mpr ⟨both, hboth, by simp⟩

theorem injOn_bothStrings : Set.InjOn placeHash {string | string ∈ bothStrings} :=
  Merkle.injOn_of_isChain rank (by decide +kernel)

end Sample

theorem winner_fleet_legal_iff_ones :
    LegalFleet (CanProve Sample.placeHash {string | string ∈ Sample.bothStrings}
      (Sample.rootOf 1)) := by
  have hlast : (Sample.game 1).getLast? =
      some (.revealBoard (Sample.fleetOf 1) Sample.zeroSalts, .A) := by
    decide +kernel
  obtain ⟨s, hrun, hwinner⟩ := System.exists_run_of_replay
    (show ((Sample.game 1).foldlM
      (fun s turn => applyMove Sample.placeHash s turn.1 turn.2)
      (initialState 1 Sample.ctx)).map (·.winner) = .ok .seatA by decide +kernel)
  obtain ⟨_, _, hcommitted, -, -, hlegal, -⟩ := winner_fleet_legal_iff hrun hlast hwinner
    Sample.injOn_bothStrings fun string h => Sample.mem_bothStrings (.inr h)
  have hroot := (hcommitted (Sample.rootOf 1)).mp List.mem_cons_self
  rw [hroot]
  exact hlegal.mpr (by decide +kernel)

/-- Seat A writes its ships as 2 and wins, although it could not prove any cell as a
ship. -/
theorem unsinkable_fleet_wins : ∃ s,
    (plays Sample.placeHash 1 Sample.ctx).Run (Sample.game 2) s ∧
    (Sample.game 2).getLast? = some (.revealBoard (Sample.fleetOf 2) Sample.zeroSalts, .A) ∧
    s.winner = .seatA ∧ s.balanceA = 6 ∧
    (.commit (Sample.rootOf 2), .A) ∈ Sample.game 2 ∧
    Set.InjOn Sample.placeHash {string | string ∈ Sample.bothStrings} ∧
    (∀ string ∈ boardStrings Sample.placeHash (Sample.fleetOf 2) Sample.zeroSalts,
      string ∈ Sample.bothStrings) ∧
    ∀ cell, ¬CanProve Sample.placeHash {string | string ∈ Sample.bothStrings}
      (Sample.rootOf 2) cell := by
  obtain ⟨s, hrun, hresult⟩ := System.exists_run_of_replay
    (show ((Sample.game 2).foldlM
      (fun s turn => applyMove Sample.placeHash s turn.1 turn.2)
      (initialState 1 Sample.ctx)).map (fun s => (s.winner, s.balanceA)) = .ok (.seatA, 6) by
        decide +kernel)
  obtain ⟨hwinner, hbalance⟩ := Prod.mk.inj hresult
  have hknown : ∀ string ∈ boardStrings Sample.placeHash (Sample.fleetOf 2) Sample.zeroSalts,
      string ∈ Sample.bothStrings := fun string h => Sample.mem_bothStrings (.inl h)
  have hroot : commitmentRoot (Sample.layersOf 2) = some (Sample.rootOf 2) := by
    decide +kernel
  have hnone : (1 : UInt8) ∉ Sample.fleetOf 2 := by decide +kernel
  refine ⟨s, hrun, by decide +kernel, hwinner, hbalance, List.mem_cons_self,
    Sample.injOn_bothStrings, hknown, ?_⟩
  intro cell hprove
  exact hnone (List.mem_of_getElem?
    (eq_one_of_canProve hroot hknown Sample.injOn_bothStrings hprove))

end DopamintArena.Rust.Battleship
