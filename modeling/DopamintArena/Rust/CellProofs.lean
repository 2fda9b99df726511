import DopamintArena.Rust.Battleship

/-!
What `verify_cell` binds a defender to. Leaves, inner nodes and padding are
hashed under different tags, so a climb that starts at a leaf can neither end
nor continue inside another leaf. The number of siblings is free, though, and a
climb of another length turns at other bits of the cell.

Two openings of one cell are bound to the same flag exactly if their climbs turn
alike from the root down. Otherwise they leave each other at an inner node of a
tree that a cheating defender can build, one for a hit and one for a miss.
-/

namespace DopamintArena.Rust.Battleship

open Foundation
open DopamintArena.Games (Hash)

/-- What a defender shows for a cell. -/
structure Opening where
  isShip : Bool
  salt : Bytes32
  proof : List Bytes32

/-- The strings that are hashed to check an opening. -/
def openingStrings (hash : Hash) (cell : UInt8) (o : Opening) : List Bytes :=
  leafString cell o.isShip o.salt ::
    Merkle.climbStrings hash nodeString (leafHash hash cell o.isShip o.salt) cell.toNat o.proof

def Accepted (hash : Hash) (root : Bytes32) (cell : UInt8) (o : Opening) : Prop :=
  verifyCell hash root cell o.isShip o.salt o.proof = true

/-- From the root down, two climbs from one cell take the same turns as far as the
shorter one goes. -/
def TurnsAgree (cell n n' : ℕ) : Prop :=
  ∀ k < min n n', cell / 2 ^ k % 2 = cell / 2 ^ (k + (max n n' - min n n')) % 2

/-- Two accepted openings of the cell with `n` and `n'` siblings carry the same flag, for
every hash that is injective on the strings hashed for them. -/
def Binding (cell : UInt8) (n n' : ℕ) : Prop :=
  ∀ (hash : Hash) (root : Bytes32) (o o' : Opening),
    o.proof.length = n → o'.proof.length = n' →
    Set.InjOn hash {string | string ∈ openingStrings hash cell o ∨
      string ∈ openingStrings hash cell o'} →
    Accepted hash root cell o → Accepted hash root cell o' → o.isShip = o'.isShip

theorem nodeString_inj (l r l' r' : Bytes32) (h : nodeString l r = nodeString l' r') :
    l = l' ∧ r = r' := by
  have hbytes := List.append_inj (List.cons.inj h).2 (by simp)
  exact ⟨Bytes32.ext_bytes hbytes.1, Bytes32.ext_bytes hbytes.2⟩

theorem leafString_ne_nodeString (cell : UInt8) (isShip : Bool) (salt l r : Bytes32) :
    leafString cell isShip salt ≠ nodeString l r := by
  intro h
  cases (List.cons.inj h).1

theorem leafString_flag {cell cell' : UInt8} {isShip isShip' : Bool} {salt salt' : Bytes32}
    (h : leafString cell isShip salt = leafString cell' isShip' salt') : isShip = isShip' := by
  have hflag := (List.cons.inj (List.cons.inj (List.cons.inj h).2).2).1
  cases isShip <;> cases isShip' <;> first | rfl | cases hflag

theorem accepted_iff {hash : Hash} {root : Bytes32} {cell : UInt8} {o : Opening} :
    Accepted hash root cell o ↔ cell.toNat < cellCount ∧
      Merkle.climb hash nodeString (leafHash hash cell o.isShip o.salt) cell.toNat o.proof =
        root := by
  simp [Accepted, verifyCell]

/-- A leaf's digest is not met in the middle of a climb. -/
theorem hash_ne_climb {hash : Hash} {known : Set Bytes} {string : Bytes} {digest : Bytes32}
    {idx extra : ℕ} {proof : List Bytes32} (hinj : Set.InjOn hash known)
    (hstring : string ∈ known) (hleaf : ∀ l r, string ≠ nodeString l r)
    (hstrings : ∀ s ∈ Merkle.climbStrings hash nodeString digest idx proof, s ∈ known)
    (hextra : extra ≠ 0) (hproof : proof ≠ []) :
    hash string ≠ Merkle.climb hash nodeString digest idx (proof.take extra) := by
  intro hmeet
  have hnonempty : proof.take extra ≠ [] := by
    intro hempty
    rcases List.take_eq_nil_iff.mp hempty with hzero | hzero
    · exact hextra hzero
    · exact hproof hzero
  obtain ⟨l, r, hmem, hnode⟩ := Merkle.climb_eq_hash hash nodeString digest idx hnonempty
  have hinner := hstrings _ (Merkle.climbStrings_take hmem)
  exact hleaf l r (hinj hstring hinner (hmeet.trans hnode))

/-- With the shorter climb first: where the turns agree, both openings start at one leaf. -/
theorem flag_eq_of_le {hash : Hash} {root : Bytes32} {cell : UInt8} {o o' : Opening}
    {known : Set Bytes} (hinj : Set.InjOn hash known)
    (hstrings : ∀ string ∈ openingStrings hash cell o, string ∈ known)
    (hstrings' : ∀ string ∈ openingStrings hash cell o', string ∈ known)
    (hle : o.proof.length ≤ o'.proof.length)
    (hturns : ∀ k < o.proof.length, cell.toNat / 2 ^ k % 2 =
      cell.toNat / 2 ^ (k + (o'.proof.length - o.proof.length)) % 2)
    (haccepted : Accepted hash root cell o) (haccepted' : Accepted hash root cell o') :
    o.isShip = o'.isShip := by
  have hroot := (accepted_iff.mp haccepted).2.trans (accepted_iff.mp haccepted').2.symm
  have hmeet := Merkle.climb_peel nodeString_inj hinj (by omega) hturns
    (fun string hmem => hstrings string (List.mem_cons_of_mem _ hmem))
    (fun string hmem => hstrings' string (List.mem_cons_of_mem _ hmem)) hroot
  have hleaf := hstrings _ List.mem_cons_self
  by_cases hsame : o'.proof.length - o.proof.length = 0
  · rw [hsame, List.take_zero] at hmeet
    exact leafString_flag (hinj hleaf (hstrings' _ List.mem_cons_self) hmeet)
  · -- the longer climb would pass through the leaf of the shorter one
    have hproof : o'.proof ≠ [] := by
      intro hempty
      rw [hempty] at hsame
      simp at hsame
    exact absurd hmeet (hash_ne_climb hinj hleaf (leafString_ne_nodeString _ _ _)
      (fun string hmem => hstrings' string (List.mem_cons_of_mem _ hmem)) hsame hproof)

variable {n : ℕ}

theorem binding_of_turnsAgree {cell : UInt8} {n' : ℕ} (hturns : TurnsAgree cell.toNat n n') :
    Binding cell n n' := by
  intro hash root o o' hn hn' hinj haccepted haccepted'
  subst hn hn'
  unfold TurnsAgree at hturns
  rcases Nat.le_total o.proof.length o'.proof.length with hle | hle
  · rw [min_eq_left hle, max_eq_right hle] at hturns
    exact flag_eq_of_le hinj (fun _ => .inl) (fun _ => .inr) hle hturns haccepted haccepted'
  · rw [min_eq_right hle, max_eq_left hle] at hturns
    exact (flag_eq_of_le hinj (fun _ => .inr) (fun _ => .inl) hle hturns haccepted'
      haccepted).symm

def digestOf (n : ℕ) : Bytes32 := ⟨beBytes 32 n, length_beBytes 32 n⟩

theorem ofBeBytes_digestOf (h : n < 2 ^ 256) : ofBeBytes (digestOf n).bytes = n := by
  apply ofBeBytes_beBytes
  simpa using h

theorem digestOf_inj {m : ℕ} (hm : m < 2 ^ 256) (hn : n < 2 ^ 256) (h : digestOf m = digestOf n) :
    m = n := by
  rw [← ofBeBytes_digestOf hm, h, ofBeBytes_digestOf hn]

/-- A hash that counts: a ship is 1, water is 2, and a node is two more than the sum of
its parts. -/
def countingHash : Hash
  | 0x00 :: _ :: flag :: _ => digestOf (if flag = 1 then 1 else 2)
  | 0x01 :: parts =>
    digestOf (ofBeBytes (parts.take 32) + ofBeBytes (parts.drop 32) + 2)
  | _ => digestOf 0

theorem countingHash_leaf (cell : UInt8) (isShip : Bool) (salt : Bytes32) :
    leafHash countingHash cell isShip salt = digestOf (if isShip then 1 else 2) := by
  cases isShip <;> rfl

theorem countingHash_node {a b : ℕ} (ha : a < 2 ^ 256) (hb : b < 2 ^ 256) :
    countingHash (nodeString (digestOf a) (digestOf b)) = digestOf (a + b + 2) := by
  simp [countingHash, nodeString, ofBeBytes_digestOf ha, ofBeBytes_digestOf hb]

theorem countingHash_join {a b : ℕ} (idx : ℕ) (ha : a < 2 ^ 256) (hb : b < 2 ^ 256) :
    countingHash (Merkle.joinString nodeString idx (digestOf a) (digestOf b)) =
      digestOf (a + b + 2) := by
  unfold Merkle.joinString
  split
  · exact countingHash_node ha hb
  · rw [countingHash_node hb ha, Nat.add_comm b a]

section Forgery

-- the climbs leave each other `level` levels above the ship's leaf and `level + extra`
-- levels above the water's leaf
variable (cell : UInt8) (level extra : ℕ)

def shipCount (m : ℕ) : ℕ :=
  if m ≤ level then 1 + 2 * m else 4 * level + 2 * extra + 5 + 2 * (m - level - 1)

def waterCount (m : ℕ) : ℕ :=
  if m ≤ level + extra then 2 + 2 * m
  else 4 * level + 2 * extra + 5 + 2 * (m - level - extra - 1)

/-- Each climb takes the other one as its sibling where they leave each other. -/
def shipSibling (m : ℕ) : ℕ := if m = level then 2 + 2 * (level + extra) else 0

def waterSibling (m : ℕ) : ℕ := if m = level + extra then 1 + 2 * level else 0

/-- The string whose hash is the `m`-th digest of a climb. -/
def countString (isShip : Bool) (count sibling : ℕ → ℕ) : ℕ → Bytes
  | 0 => leafString cell isShip (digestOf 0)
  | m + 1 => Merkle.joinString nodeString (cell.toNat / 2 ^ m) (digestOf (count m))
      (digestOf (sibling m))

def countOpening (isShip : Bool) (sibling : ℕ → ℕ) (length : ℕ) : Opening :=
  ⟨isShip, digestOf 0, (List.range length).map fun m => digestOf (sibling m)⟩

variable {cell level extra}
variable {n m : ℕ}

theorem countOpening_climb (cell : UInt8) (isShip : Bool) {count sibling : ℕ → ℕ} {length : ℕ}
    (hfirst : count 0 = if isShip then 1 else 2)
    (hnext : ∀ m, count (m + 1) = count m + sibling m + 2)
    (hcount : ∀ m ≤ length, count m < 2 ^ 256) (hsibling : ∀ m, sibling m < 2 ^ 256) :
    Merkle.climb countingHash nodeString (leafHash countingHash cell isShip (digestOf 0))
      cell.toNat (countOpening isShip sibling length).proof = digestOf (count length) ∧
    (∀ string, string ∈ openingStrings countingHash cell (countOpening isShip sibling length) ↔
      ∃ m ≤ length, string = countString cell isShip count sibling m) ∧
    ∀ m ≤ length, countingHash (countString cell isShip count sibling m) =
      digestOf (count m) := by
  have hjoin : ∀ m < length, countingHash (Merkle.joinString nodeString (cell.toNat / 2 ^ m)
      (digestOf (count m)) (digestOf (sibling m))) = digestOf (count (m + 1)) := by
    intro m hm
    rw [hnext]
    exact countingHash_join _ (hcount m hm.le) (hsibling m)
  have hleaf : leafHash countingHash cell isShip (digestOf 0) = digestOf (count 0) := by
    rw [countingHash_leaf, hfirst]
  obtain ⟨hclimb, hstrings⟩ := Merkle.climb_range hjoin
  refine ⟨?_, ?_, ?_⟩
  · rw [hleaf]
    exact hclimb
  · intro string
    simp only [openingStrings, countOpening]
    rw [hleaf, hstrings, List.mem_cons, List.mem_map]
    constructor
    · rintro (rfl | ⟨m, hm, rfl⟩)
      · exact ⟨0, Nat.zero_le _, rfl⟩
      · exact ⟨m + 1, List.mem_range.mp hm, rfl⟩
    · rintro ⟨m, hm, rfl⟩
      cases m with
      | zero => exact .inl rfl
      | succ m => exact .inr ⟨m, List.mem_range.mpr hm, rfl⟩
  · intro m hm
    cases m with
    | zero => exact hleaf
    | succ m => exact hjoin m hm

theorem shipCount_succ (m : ℕ) :
    shipCount level extra (m + 1) = shipCount level extra m + shipSibling level extra m + 2 := by
  unfold shipCount shipSibling
  split_ifs <;> omega

theorem waterCount_succ (m : ℕ) :
    waterCount level extra (m + 1) =
      waterCount level extra m + waterSibling level extra m + 2 := by
  unfold waterCount waterSibling
  split_ifs <;> omega

theorem shipCount_inj (h : shipCount level extra m = shipCount level extra n) :
    m = n := by
  unfold shipCount at h
  split_ifs at h <;> omega

theorem waterCount_inj (h : waterCount level extra m = waterCount level extra n) :
    m = n := by
  unfold waterCount at h
  split_ifs at h <;> omega

/-- The two climbs have equal digests only above the node where they meet. -/
theorem shipCount_eq_waterCount (h : shipCount level extra m = waterCount level extra n) :
    level < m ∧ n = m + extra := by
  unfold shipCount waterCount at h
  split_ifs at h <;> omega

/-- Above the meeting node both climbs hash the same strings. -/
theorem countString_eq (hm : level < m)
    (hleave : cell.toNat / 2 ^ level % 2 ≠ cell.toNat / 2 ^ (level + extra) % 2)
    (habove : ∀ k, level < k → k < m →
      cell.toNat / 2 ^ k % 2 = cell.toNat / 2 ^ (k + extra) % 2) :
    countString cell true (shipCount level extra) (shipSibling level extra) m =
      countString cell false (waterCount level extra) (waterSibling level extra)
        (m + extra) := by
  obtain ⟨k, rfl⟩ : ∃ k, m = k + 1 := ⟨m - 1, by omega⟩
  rw [Nat.add_right_comm]
  simp only [countString, Merkle.joinString]
  rcases Nat.lt_or_ge level k with hk | hk
  · have hcount : shipCount level extra k = waterCount level extra (k + extra) := by
      unfold shipCount waterCount
      split_ifs <;> omega
    have hship : shipSibling level extra k = 0 := if_neg (by omega)
    have hwater : waterSibling level extra (k + extra) = 0 := if_neg (by omega)
    rw [habove k hk (by omega), hcount, hship, hwater]
  · obtain rfl : k = level := by omega
    have hship : shipSibling k extra k = waterCount k extra (k + extra) := by
      unfold shipSibling waterCount
      split_ifs <;> omega
    have hwater : waterSibling k extra (k + extra) = shipCount k extra k := by
      unfold waterSibling shipCount
      split_ifs <;> omega
    rw [hship, hwater]
    rcases Nat.mod_two_eq_zero_or_one (cell.toNat / 2 ^ k) with heven | hodd
    · rw [if_pos heven, if_neg (by omega)]
    · rw [if_neg (by omega), if_pos (by omega)]

theorem exists_forgery (hcell : cell.toNat < cellCount) (hbound : n + extra < 2 ^ 64)
    (hlevel : level < n)
    (hleave : cell.toNat / 2 ^ level % 2 ≠ cell.toNat / 2 ^ (level + extra) % 2)
    (habove : ∀ k, level < k → k < n →
      cell.toNat / 2 ^ k % 2 = cell.toNat / 2 ^ (k + extra) % 2) :
    ∃ (hash : Hash) (root : Bytes32) (hit miss : Opening),
      hit.proof.length = n ∧ miss.proof.length = n + extra ∧
      Set.InjOn hash {string | string ∈ openingStrings hash cell hit ∨
        string ∈ openingStrings hash cell miss} ∧
      Accepted hash root cell hit ∧ Accepted hash root cell miss ∧
      hit.isShip = true ∧ miss.isShip = false := by
  have hships : ∀ m ≤ n, shipCount level extra m < 2 ^ 256 := by
    intro m hm
    unfold shipCount
    split_ifs <;> omega
  have hwaters : ∀ m ≤ n + extra, waterCount level extra m < 2 ^ 256 := by
    intro m hm
    unfold waterCount
    split_ifs <;> omega
  have hshipSiblings : ∀ m, shipSibling level extra m < 2 ^ 256 := by
    intro m
    unfold shipSibling
    split_ifs <;> omega
  have hwaterSiblings : ∀ m, waterSibling level extra m < 2 ^ 256 := by
    intro m
    unfold waterSibling
    split_ifs <;> omega
  obtain ⟨hclimb, hmem, hhash⟩ := countOpening_climb cell true
    (by simp [shipCount]) shipCount_succ hships hshipSiblings
  obtain ⟨hclimb', hmem', hhash'⟩ := countOpening_climb cell false
    (by simp [waterCount]) waterCount_succ hwaters hwaterSiblings
  have hroot : shipCount level extra n = waterCount level extra (n + extra) := by
    unfold shipCount waterCount
    split_ifs <;> omega
  -- a digest that both climbs reach is the hash of one string
  have hcross : ∀ m ≤ n, ∀ m' ≤ n + extra,
      digestOf (shipCount level extra m) = digestOf (waterCount level extra m') →
      countString cell true (shipCount level extra) (shipSibling level extra) m =
        countString cell false (waterCount level extra) (waterSibling level extra) m' := by
    intro m hm m' hm' hsame
    obtain ⟨hmeet, rfl⟩ := shipCount_eq_waterCount
      (digestOf_inj (hships m hm) (hwaters m' hm') hsame)
    exact countString_eq hmeet hleave fun k hk hkm => habove k hk (by omega)
  refine ⟨countingHash, digestOf (shipCount level extra n),
    countOpening true (shipSibling level extra) n,
    countOpening false (waterSibling level extra) (n + extra), by simp [countOpening],
    by simp [countOpening], ?_, accepted_iff.mpr ⟨hcell, hclimb⟩,
    accepted_iff.mpr ⟨hcell, hclimb'.trans (congrArg digestOf hroot.symm)⟩, rfl, rfl⟩
  rintro string (hstring | hstring) string' (hstring' | hstring') hsame
  · obtain ⟨m, hm, rfl⟩ := (hmem string).mp hstring
    obtain ⟨m', hm', rfl⟩ := (hmem string').mp hstring'
    rw [hhash m hm, hhash m' hm'] at hsame
    rw [shipCount_inj (digestOf_inj (hships m hm) (hships m' hm') hsame)]
  · obtain ⟨m, hm, rfl⟩ := (hmem string).mp hstring
    obtain ⟨m', hm', rfl⟩ := (hmem' string').mp hstring'
    rw [hhash m hm, hhash' m' hm'] at hsame
    exact hcross m hm m' hm' hsame
  · obtain ⟨m, hm, rfl⟩ := (hmem' string).mp hstring
    obtain ⟨m', hm', rfl⟩ := (hmem string').mp hstring'
    rw [hhash' m hm, hhash m' hm'] at hsame
    exact (hcross m' hm' m hm hsame.symm).symm
  · obtain ⟨m, hm, rfl⟩ := (hmem' string).mp hstring
    obtain ⟨m', hm', rfl⟩ := (hmem' string').mp hstring'
    rw [hhash' m hm, hhash' m' hm'] at hsame
    rw [waterCount_inj (digestOf_inj (hwaters m hm) (hwaters m' hm') hsame)]

end Forgery

/-- The topmost level at which the turns of two climbs differ. -/
theorem exists_last_turn {cell extra : ℕ}
    (h : ¬∀ k < n, cell / 2 ^ k % 2 = cell / 2 ^ (k + extra) % 2) :
    ∃ level < n, cell / 2 ^ level % 2 ≠ cell / 2 ^ (level + extra) % 2 ∧
      ∀ k, level < k → k < n → cell / 2 ^ k % 2 = cell / 2 ^ (k + extra) % 2 := by
  induction n with
  | zero => exact absurd (fun k hk => absurd hk (Nat.not_lt_zero k)) h
  | succ n ih =>
    by_cases htop : cell / 2 ^ n % 2 = cell / 2 ^ (n + extra) % 2
    · have hbelow : ¬∀ k < n, cell / 2 ^ k % 2 = cell / 2 ^ (k + extra) % 2 := by
        intro hall
        apply h
        intro k hk
        rcases Nat.lt_succ_iff_lt_or_eq.mp hk with hk | rfl
        · exact hall k hk
        · exact htop
      obtain ⟨level, hlevel, hleave, habove⟩ := ih hbelow
      refine ⟨level, hlevel.trans (Nat.lt_succ_self n), hleave, ?_⟩
      intro k hk hkn
      rcases Nat.lt_succ_iff_lt_or_eq.mp hkn with hkn | rfl
      · exact habove k hk hkn
      · exact htop
    · exact ⟨n, Nat.lt_succ_self n, htop, fun k hk hkn => by omega⟩

theorem binding_comm {cell : UInt8} {n' : ℕ} (h : Binding cell n n') : Binding cell n' n := by
  intro hash root o o' hn hn' hinj haccepted haccepted'
  refine (h hash root o' o hn' hn ?_ haccepted' haccepted).symm
  exact hinj.mono fun _ => Or.symm

theorem turnsAgree_of_binding {cell : UInt8} {n extra : ℕ} (hcell : cell.toNat < cellCount)
    (hbound : n + extra < 2 ^ 64) (h : Binding cell n (n + extra)) :
    ∀ k < n, cell.toNat / 2 ^ k % 2 = cell.toNat / 2 ^ (k + extra) % 2 := by
  by_contra hturns
  obtain ⟨_, hlevel, hleave, habove⟩ := exists_last_turn hturns
  obtain ⟨hash, root, hit, miss, hlength, hlength', hinj, haccepted, haccepted', hship,
    hwater⟩ := exists_forgery hcell hbound hlevel hleave habove
  have hflag := h hash root hit miss hlength hlength' hinj haccepted haccepted'
  rw [hship, hwater] at hflag
  cases hflag

/-- When `verify_cell` binds. For a cell on the board and any two numbers of siblings, all
pairs of accepted openings carry the same flag exactly if the two climbs turn alike from
the root down, as they do whenever the numbers are equal. -/
theorem binding_iff_turnsAgree (cell : UInt8) {n n' : ℕ} (hn : n < 2 ^ 64)
    (hn' : n' < 2 ^ 64) :
    Binding cell n n' ↔ cellCount ≤ cell.toNat ∨ TurnsAgree cell.toNat n n' := by
  constructor
  · intro hbinding
    rcases Nat.lt_or_ge cell.toNat cellCount with hcell | hcell
    · right
      unfold TurnsAgree
      rcases Nat.le_total n n' with hle | hle
      · obtain ⟨extra, rfl⟩ := Nat.exists_eq_add_of_le hle
        rw [min_eq_left hle, max_eq_right hle, Nat.add_sub_cancel_left]
        exact turnsAgree_of_binding hcell hn' hbinding
      · obtain ⟨_, rfl⟩ := Nat.exists_eq_add_of_le hle
        rw [min_eq_right hle, max_eq_left hle, Nat.add_sub_cancel_left]
        exact turnsAgree_of_binding hcell hn (binding_comm hbinding)
    · exact .inl hcell
  · rintro (hcell | hturns)
    · intro hash root o o' _ _ _ haccepted
      exact absurd (accepted_iff.mp haccepted).1 (not_lt.mpr hcell)
    · exact binding_of_turnsAgree hturns

theorem binding_iff_turnsAgree_seven : Binding 37 7 7 ∧ ¬Binding 37 7 8 := by
  have hturns : TurnsAgree 37 7 7 := fun k _ => by simp
  refine ⟨(binding_iff_turnsAgree 37 (by decide) (by decide)).mpr (.inr hturns), ?_⟩
  intro hbinding
  rcases (binding_iff_turnsAgree 37 (by decide) (by decide)).mp hbinding with hcell | hturns'
  · exact absurd hcell (by decide)
  · exact absurd (hturns' 0 (by decide)) (by decide)

/-- A defender that committed to a root of its own making opens cell 37 as a ship with seven
siblings and as water with eight. -/
theorem cell_opened_both_ways : ∃ (hash : Hash) (root : Bytes32) (hit miss : Opening),
    hit.proof.length = 7 ∧ miss.proof.length = 8 ∧
    Set.InjOn hash {string | string ∈ openingStrings hash 37 hit ∨
      string ∈ openingStrings hash 37 miss} ∧
    Accepted hash root 37 hit ∧ Accepted hash root 37 miss ∧
    hit.isShip = true ∧ miss.isShip = false := by
  have hturns : ¬∀ k < 7, (37 : UInt8).toNat / 2 ^ k % 2 =
      (37 : UInt8).toNat / 2 ^ (k + 1) % 2 := by
    decide
  obtain ⟨_, hlevel, hleave, habove⟩ := exists_last_turn hturns
  exact exists_forgery (by decide) (by decide) hlevel hleave habove

end DopamintArena.Rust.Battleship
