import Mathlib.Data.Nat.Bitwise
import Mathlib.Data.Set.Function
import Mathlib.Tactic

/-!
Binary hash trees and the climbs that check a leaf against a root. A climb takes
one sibling per level and turns by the bits of an index; nothing fixes how many
levels it has, so climbs of different lengths are compared as well.

The hash is any function from strings to digests. It is never assumed to be
injective everywhere, only on the strings that were hashed.
-/

namespace Foundation.Merkle

variable {α D : Type*}

section Climb

variable (hash : α → D) (node : D → D → α)

/-- The string over a digest and its sibling; the digest is on the left at an even
index. -/
def joinString (idx : ℕ) (digest sibling : D) : α :=
  if idx % 2 = 0 then node digest sibling else node sibling digest

/-- Hashes from a digest up along its siblings. -/
def climb (digest : D) (idx : ℕ) : List D → D
  | [] => digest
  | sibling :: rest => climb (hash (joinString node idx digest sibling)) (idx / 2) rest

/-- The strings hashed on the way. -/
def climbStrings (digest : D) (idx : ℕ) : List D → List α
  | [] => []
  | sibling :: rest =>
    joinString node idx digest sibling ::
      climbStrings (hash (joinString node idx digest sibling)) (idx / 2) rest

variable {hash node}

/-- The turn of an index at a level. -/
theorem div_two_pow_succ (idx level : ℕ) : idx / 2 / 2 ^ level = idx / 2 ^ (level + 1) := by
  rw [Nat.div_div_eq_div_mul, pow_succ, mul_comm]

theorem climb_concat (digest sibling : D) (idx : ℕ) (proof : List D) :
    climb hash node digest idx (proof ++ [sibling]) =
      hash (joinString node (idx / 2 ^ proof.length) (climb hash node digest idx proof)
        sibling) := by
  induction proof generalizing digest idx with
  | nil => simp [climb]
  | cons _ _ ih =>
    rw [List.cons_append, climb, ih, climb, List.length_cons, div_two_pow_succ]

theorem climbStrings_concat (digest sibling : D) (idx : ℕ) (proof : List D) :
    climbStrings hash node digest idx (proof ++ [sibling]) =
      climbStrings hash node digest idx proof ++
        [joinString node (idx / 2 ^ proof.length) (climb hash node digest idx proof)
          sibling] := by
  induction proof generalizing digest idx with
  | nil => simp [climb, climbStrings]
  | cons _ _ ih =>
    rw [List.cons_append, climbStrings, ih, climb, List.length_cons, div_two_pow_succ,
      climbStrings, List.cons_append]

theorem joinString_inj {i j : ℕ} {x y s t : D}
    (hnode : ∀ l r l' r', node l r = node l' r' → l = l' ∧ r = r')
    (hturn : i % 2 = j % 2) (h : joinString node i x s = joinString node j y t) : x = y := by
  unfold joinString at h
  rw [hturn] at h
  split at h
  · exact (hnode _ _ _ _ h).1
  · exact (hnode _ _ _ _ h).2

theorem exists_concat {proof : List D} (h : proof ≠ []) :
    ∃ front last, proof = front ++ [last] :=
  ⟨proof.dropLast, proof.getLast h, (List.dropLast_append_getLast h).symm⟩

/-- Two climbs that end at one root and turn alike from the root down, as far as the
shorter one goes, meet where the shorter one started. -/
theorem climb_peel {known : Set α} {x y : D} {i j extra : ℕ} {proof longer : List D}
    (hnode : ∀ l r l' r', node l r = node l' r' → l = l' ∧ r = r')
    (hinj : Set.InjOn hash known)
    (hlength : longer.length = proof.length + extra)
    (hturns : ∀ k < proof.length, i / 2 ^ k % 2 = j / 2 ^ (k + extra) % 2)
    (hstrings : ∀ string ∈ climbStrings hash node x i proof, string ∈ known)
    (hstrings' : ∀ string ∈ climbStrings hash node y j longer, string ∈ known)
    (hroot : climb hash node x i proof = climb hash node y j longer) :
    x = climb hash node y j (longer.take extra) := by
  induction proof using List.reverseRecOn generalizing longer with
  | nil =>
    rw [List.length_nil, zero_add] at hlength
    rw [List.take_of_length_le hlength.le]
    exact hroot
  | append_singleton proof _ ih =>
    -- the last steps of both climbs hash the same string
    have hnonempty : longer ≠ [] := by
      rintro rfl
      simp only [List.length_nil, List.length_append, List.length_singleton] at hlength
      omega
    obtain ⟨longer, sibling', rfl⟩ := exists_concat hnonempty
    simp only [List.length_append, List.length_singleton] at hlength hturns
    have hshorter : longer.length = proof.length + extra := by omega
    rw [climbStrings_concat] at hstrings hstrings'
    rw [climb_concat, climb_concat] at hroot
    have hlast := hinj (hstrings _ (by simp)) (hstrings' _ (by simp)) hroot
    have hturn := hturns proof.length (Nat.lt_succ_self _)
    rw [← hshorter] at hturn
    have hmeet := joinString_inj hnode hturn hlast
    have htake : (longer ++ [sibling']).take extra = longer.take extra :=
      List.take_append_of_le_length (by omega)
    rw [htake]
    apply ih hshorter
    · intro k hk
      exact hturns k (by omega)
    · intro string hmem
      exact hstrings string (List.mem_append_left _ hmem)
    · intro string hmem
      exact hstrings' string (List.mem_append_left _ hmem)
    · exact hmeet

/-- A climb of at least one level ends in a hashed string over two digests. -/
theorem climb_eq_hash (hash : α → D) (node : D → D → α) (digest : D) (idx : ℕ)
    {proof : List D} (hproof : proof ≠ []) :
    ∃ l r, node l r ∈ climbStrings hash node digest idx proof ∧
      climb hash node digest idx proof = hash (node l r) := by
  obtain ⟨_, _, rfl⟩ := exists_concat hproof
  rw [climb_concat, climbStrings_concat]
  unfold joinString
  split
  · exact ⟨_, _, by simp, rfl⟩
  · exact ⟨_, _, by simp, rfl⟩

theorem climbStrings_take {digest : D} {idx count : ℕ} {proof : List D} {string : α}
    (h : string ∈ climbStrings hash node digest idx (proof.take count)) :
    string ∈ climbStrings hash node digest idx proof := by
  induction proof generalizing digest idx count with
  | nil => simpa using h
  | cons _ _ ih =>
    cases count with
    | zero => simp [climbStrings] at h
    | succ =>
      rw [List.take_succ_cons, climbStrings] at h
      rw [climbStrings]
      rcases List.mem_cons.mp h with rfl | h
      · exact List.mem_cons_self
      · exact List.mem_cons_of_mem _ (ih h)

/-- A climb along a given sequence of digests and siblings. -/
theorem climb_range {digest sibling : ℕ → D} {idx count : ℕ}
    (hstep : ∀ m < count,
      hash (joinString node (idx / 2 ^ m) (digest m) (sibling m)) = digest (m + 1)) :
    climb hash node (digest 0) idx ((List.range count).map sibling) = digest count ∧
    climbStrings hash node (digest 0) idx ((List.range count).map sibling) =
      (List.range count).map fun m =>
        joinString node (idx / 2 ^ m) (digest m) (sibling m) := by
  induction count with
  | zero => simp [climb, climbStrings]
  | succ count ih =>
    obtain ⟨hclimb, hstrings⟩ := ih fun m hm => hstep m (hm.trans (Nat.lt_succ_self _))
    rw [List.range_succ, List.map_append, List.map_append, List.map_singleton,
      List.map_singleton, climb_concat, climbStrings_concat, hclimb, hstrings,
      List.length_map, List.length_range, hstep count (Nat.lt_succ_self _)]
    exact ⟨rfl, rfl⟩

end Climb

section Tree

variable (hash : α → D) (node : D → D → α)

/-- The next level of a tree: the hashes of neighbouring pairs. -/
def pairUp : List D → List D
  | left :: right :: rest => hash (node left right) :: pairUp rest
  | _ => []

def pairStrings : List D → List α
  | left :: right :: rest => node left right :: pairStrings rest
  | _ => []

/-- All levels of a tree, from the leaves to the root. A level has at most half the
digests of the level below, so the number of leaves is enough fuel. -/
def layers : ℕ → List D → List (List D)
  | 0, level => [level]
  | fuel + 1, level =>
    if 1 < level.length then level :: layers fuel (pairUp hash node level) else [level]

/-- The strings over two digests that are hashed to build a tree. -/
def treeStrings : ℕ → List D → List α
  | 0, _ => []
  | fuel + 1, level =>
    if 1 < level.length then
      pairStrings node level ++ treeStrings fuel (pairUp hash node level)
    else []

/-- The siblings on the way from an index of the first level to the root, if every level
below the last is long enough. -/
def siblings : List (List D) → ℕ → Option (List D)
  | level :: above :: rest, idx => do
    let sibling ← level[idx ^^^ 1]?
    let path ← siblings (above :: rest) (idx / 2)
    pure (sibling :: path)
  | _, _ => some []

variable {hash node}

theorem length_pairUp (level : List D) : (pairUp hash node level).length = level.length / 2 := by
  induction level using pairUp.induct with
  | case1 _ _ _ ih =>
    simp only [pairUp, List.length_cons, ih]
    omega
  | case2 level h =>
    match level with
    | [] => simp [pairUp]
    | [only] => simp [pairUp]
    | left :: right :: rest => exact absurd rfl (h left right rest)

theorem getElem?_pairUp {level : List D} {idx : ℕ} {left right : D}
    (hleft : level[2 * idx]? = some left) (hright : level[2 * idx + 1]? = some right) :
    (pairUp hash node level)[idx]? = some (hash (node left right)) ∧
      node left right ∈ pairStrings node level := by
  induction level using pairUp.induct generalizing idx with
  | case1 _ _ rest ih =>
    cases idx with
    | zero =>
      cases hleft
      cases hright
      simp [pairUp, pairStrings]
    | succ idx =>
      have hleft' : rest[2 * idx]? = some left := hleft
      have hright' : rest[2 * idx + 1]? = some right := hright
      obtain ⟨hnext, hmem⟩ := ih hleft' hright'
      simp [pairUp, pairStrings, hnext, hmem]
  | case2 level h =>
    match level with
    | [] => simp at hleft
    | [only] => simp at hright
    | l :: r :: rest => exact absurd rfl (h l r rest)

/-- A digest and its sibling are a pair of the level. -/
theorem join_mem_pairUp (hash : α → D) (node : D → D → α) {level : List D} {idx : ℕ}
    {digest sibling : D} (hdigest : level[idx]? = some digest)
    (hsibling : level[idx ^^^ 1]? = some sibling) :
    (pairUp hash node level)[idx / 2]? = some (hash (joinString node idx digest sibling)) ∧
      joinString node idx digest sibling ∈ pairStrings node level := by
  unfold joinString
  rcases Nat.even_or_odd idx with heven | hodd
  · rw [Nat.xor_one_of_even heven] at hsibling
    rw [if_pos (Nat.even_iff.mp heven)]
    have hhalf : 2 * (idx / 2) = idx := Nat.two_mul_div_two_of_even heven
    exact getElem?_pairUp (by rwa [hhalf]) (by rwa [hhalf])
  · rw [Nat.xor_one_of_odd hodd] at hsibling
    have hodd' := Nat.odd_iff.mp hodd
    rw [if_neg (by omega)]
    have hhalf : 2 * (idx / 2) = idx - 1 := by omega
    refine getElem?_pairUp (by rwa [hhalf]) ?_
    rwa [hhalf, Nat.sub_add_cancel hodd.pos]

/-- Every digest of a first level of `2 ^ height` digests climbs to the root of the tree
along its siblings, over strings of the tree. -/
theorem climb_siblings (hash : α → D) (node : D → D → α) {height fuel idx : ℕ}
    {level : List D} (hfuel : height ≤ fuel)
    (hlength : level.length = 2 ^ height) (hidx : idx < 2 ^ height) :
    ∃ digest proof, level[idx]? = some digest ∧
      siblings (layers hash node fuel level) idx = some proof ∧ proof.length = height ∧
      (layers hash node fuel level).getLast? = some [climb hash node digest idx proof] ∧
      ∀ string ∈ climbStrings hash node digest idx proof,
        string ∈ treeStrings hash node fuel level := by
  induction height generalizing fuel idx level with
  | zero =>
    obtain ⟨digest, rfl⟩ := List.length_eq_one_iff.mp hlength
    have hzero : idx = 0 := by omega
    subst hzero
    refine ⟨digest, [], rfl, ?_, rfl, ?_, by simp [climbStrings]⟩ <;>
      cases fuel <;> simp [layers, siblings, climb]
  | succ height ih =>
    obtain ⟨fuel, rfl⟩ : ∃ fuel', fuel = fuel' + 1 := ⟨fuel - 1, by omega⟩
    have hmany : 1 < level.length := by
      rw [hlength]
      exact Nat.one_lt_two_pow (Nat.succ_ne_zero _)
    have hsib : idx ^^^ 1 < 2 ^ (height + 1) := by
      exact Nat.xor_lt_two_pow hidx (Nat.one_lt_two_pow (Nat.succ_ne_zero _))
    obtain ⟨digest, hdigest⟩ : ∃ digest, level[idx]? = some digest :=
      ⟨_, List.getElem?_eq_getElem (by rw [hlength]; exact hidx)⟩
    obtain ⟨sibling, hsibling⟩ : ∃ sibling, level[idx ^^^ 1]? = some sibling :=
      ⟨_, List.getElem?_eq_getElem (by rw [hlength]; exact hsib)⟩
    obtain ⟨hparent, hjoin⟩ := join_mem_pairUp hash node hdigest hsibling
    have hhalf : (pairUp hash node level).length = 2 ^ height := by
      rw [length_pairUp, hlength, pow_succ, Nat.mul_div_cancel _ Nat.two_pos]
    have hidx' : idx / 2 < 2 ^ height := by
      rw [pow_succ] at hidx
      omega
    have hfuel' : height ≤ fuel := by omega
    obtain ⟨_, proof, hparent', hproof, hheight, hroot, hstrings⟩ :=
      ih hfuel' hhalf hidx'
    rw [hparent, Option.some.injEq] at hparent'
    subst hparent'
    obtain ⟨above, rest, habove⟩ : ∃ above rest,
        layers hash node fuel (pairUp hash node level) = above :: rest := by
      cases fuel with
      | zero => exact ⟨_, _, rfl⟩
      | succ =>
        rw [layers]
        split
        · exact ⟨_, _, rfl⟩
        · exact ⟨_, _, rfl⟩
    refine ⟨digest, sibling :: proof, hdigest, ?_, by simp [hheight], ?_, ?_⟩
    · rw [layers, if_pos hmany, habove, siblings, hsibling, ← habove, hproof]
      rfl
    · rw [layers, if_pos hmany, climb, ← hroot, habove, List.getLast?_cons_cons]
    · rw [treeStrings, if_pos hmany, climbStrings]
      intro string hmem
      rcases List.mem_cons.mp hmem with rfl | hmem
      · exact List.mem_append_left _ hjoin
      · exact List.mem_append_right _ (hstrings string hmem)

end Tree

/-- A hash is injective on strings that are listed in the order of their digests. -/
theorem injOn_of_isChain {hash : α → D} (rank : D → ℕ) {strings : List α}
    (h : strings.IsChain fun s t => rank (hash s) < rank (hash t) ∨ s = t) :
    Set.InjOn hash {string | string ∈ strings} := by
  have htrans : IsTrans α fun s t => rank (hash s) < rank (hash t) ∨ s = t := by
    constructor
    rintro s t u (hst | rfl) (htu | rfl)
    · exact .inl (hst.trans htu)
    · exact .inl hst
    · exact .inl htu
    · exact .inr rfl
  have hpairs := List.isChain_iff_pairwise.mp h
  have happart : strings.Pairwise fun s t => hash s = hash t → s = t := by
    apply hpairs.imp
    rintro s t (hlt | rfl) hsame
    · rw [hsame] at hlt
      exact absurd hlt (lt_irrefl _)
    · rfl
  have hsymm : Std.Symm fun s t => hash s = hash t → s = t :=
    ⟨fun s t h hsame => (h hsame.symm).symm⟩
  intro s hs t ht
  exact happart.forall_of_forall (fun _ _ _ => rfl) hs ht

end Foundation.Merkle
