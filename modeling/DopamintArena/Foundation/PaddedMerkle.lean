import DopamintArena.Foundation.Merkle

/-!
Merkle trees over any number of digests, whose odd levels are completed with a
fixed digest that no string hashes to. The root determines the digests it was
built from, provided none of them is itself the hash of a node: levels that
agree come from levels that agree, so of two trees with one root the lower
tree's first level is a level of the other.

As for the other trees, the hash is only assumed to be injective on the strings
that are hashed.
-/

namespace Foundation.Merkle

variable {α D : Type*}

section Padded

variable (hash : α → D) (node : D → D → α) (zero : D)

/-- A level completed to an even number of digests. -/
def pad (level : List D) : List D :=
  if level.length % 2 = 1 then level ++ [zero] else level

def padUp (level : List D) : List D := pairUp hash node (pad zero level)

/-- The strings hashed for the level above. -/
def padStrings (level : List D) : List α := pairStrings node (pad zero level)

/-- Builds levels until one digest is left. A level has fewer digests than the
level below, so the number of leaves is enough fuel. -/
def paddedTop : ℕ → List D → List D
  | 0, level => level
  | fuel + 1, level =>
    if 1 < level.length then paddedTop fuel (padUp hash node zero level) else level

/-- The digest at the top, or the padding digest for no leaves at all. -/
def paddedRoot (leaves : List D) : D :=
  (paddedTop hash node zero leaves.length leaves).headD zero

/-- The strings over two digests that are hashed on the way. -/
def paddedStrings : ℕ → List D → List α
  | 0, _ => []
  | fuel + 1, level =>
    if 1 < level.length then
      padStrings node zero level ++ paddedStrings fuel (padUp hash node zero level)
    else []

/-- `above` is the level `height` steps over `level`, and every string hashed on
the way is known. -/
inductive Tower (known : Set α) : List D → ℕ → List D → Prop
  | base {level : List D} : Tower known level 0 level
  | up {level above : List D} {height : ℕ} (hmany : 1 < above.length)
      (hknown : ∀ string ∈ padStrings node zero above, string ∈ known)
      (hbelow : Tower known level height above) :
      Tower known level (height + 1) (padUp hash node zero above)

end Padded

section Levels

variable {hash : α → D} {node : D → D → α} {zero : D} {known : Set α}
  {level level' above : List D} {height : ℕ}

theorem length_pad : (pad zero level).length = 2 * ((level.length + 1) / 2) := by
  unfold pad
  split
  · rw [List.length_append, List.length_singleton]
    omega
  · omega

theorem length_padUp : (padUp hash node zero level).length = (level.length + 1) / 2 := by
  rw [padUp, length_pairUp, length_pad]
  omega

/-- Levels without the padding digest are told apart after padding. -/
theorem pad_inj (hlevel : zero ∉ level) (hlevel' : zero ∉ level')
    (h : pad zero level = pad zero level') : level = level' := by
  unfold pad at h
  split at h
  · split at h
    · exact List.append_cancel_right h
    · exact absurd (h ▸ List.mem_append_right level (List.mem_singleton_self zero)) hlevel'
  · split at h
    · exact absurd (h ▸ List.mem_append_right level' (List.mem_singleton_self zero)) hlevel
    · exact h

theorem length_lt_two (hshort : ∀ left right rest, level ≠ left :: right :: rest) :
    level.length < 2 := by
  match level with
  | [] => simp
  | [_] => simp
  | left :: right :: rest => exact absurd rfl (hshort left right rest)

theorem pairUp_eq_map (zero : D) (level : List D) :
    pairUp hash node level = (List.range (level.length / 2)).map fun k =>
      hash (node (level.getD (2 * k) zero) (level.getD (2 * k + 1) zero)) := by
  fun_induction pairUp hash node level with
  | case1 left right rest ih =>
    have hhalf : (left :: right :: rest).length / 2 = rest.length / 2 + 1 := by
      simp only [List.length_cons]
      omega
    rw [hhalf, List.range_succ_eq_map, List.map_cons, List.map_map, ih]
    congr 1
  | case2 level hshort =>
    have hnone : level.length / 2 = 0 := Nat.div_eq_of_lt (length_lt_two hshort)
    rw [hnone]
    rfl

theorem mem_pairUp {digest : D} (h : digest ∈ pairUp hash node level) :
    ∃ left right, node left right ∈ pairStrings node level ∧
      digest = hash (node left right) := by
  fun_induction pairUp hash node level with
  | case1 left right _ ih =>
    rcases List.mem_cons.mp h with rfl | hrest
    · exact ⟨left, right, List.mem_cons_self, rfl⟩
    · obtain ⟨left', right', hstring, hdigest⟩ := ih hrest
      exact ⟨left', right', List.mem_cons_of_mem _ hstring, hdigest⟩
  | case2 => cases h

/-- A level over another one consists of hashes of known strings. -/
theorem Tower.hashed (htower : Tower hash node zero known level height above)
    (hheight : 0 < height) {digest : D} (hdigest : digest ∈ above) :
    ∃ left right, node left right ∈ known ∧ digest = hash (node left right) := by
  cases htower with
  | base => cases hheight
  | up _ hknown =>
    obtain ⟨left, right, hstring, heq⟩ := mem_pairUp hdigest
    exact ⟨left, right, hknown _ hstring, heq⟩

/-- The loop that builds the levels climbs a tower and stops at one digest. -/
theorem Tower.paddedTop {fuel : ℕ} (hfuel : above.length ≤ fuel)
    (hknown : ∀ string ∈ paddedStrings hash node zero fuel above, string ∈ known)
    (habove : above ≠ []) (htower : Tower hash node zero known level height above) :
    ∃ top digest, paddedTop hash node zero fuel above = [digest] ∧
      Tower hash node zero known level top [digest] := by
  have hpositive : 0 < above.length := List.length_pos_iff.mpr habove
  induction fuel generalizing above height with
  | zero => omega
  | succ _ ih =>
    rw [paddedStrings] at hknown
    rw [Merkle.paddedTop]
    by_cases hmany : 1 < above.length
    · rw [if_pos hmany] at hknown ⊢
      have hnext : (padUp hash node zero above).length = (above.length + 1) / 2 :=
        length_padUp
      apply ih
      · omega
      · exact fun string hmem => hknown string (List.mem_append_right _ hmem)
      · exact List.length_pos_iff.mp (by omega)
      · exact .up hmany (fun string hmem => hknown string (List.mem_append_left _ hmem)) htower
      · omega
    · rw [if_neg hmany]
      obtain ⟨digest, rfl⟩ := List.length_eq_one_iff.mp (by omega : above.length = 1)
      exact ⟨height, digest, rfl, htower⟩

section

variable (hzero : ∀ string ∈ known, hash string ≠ zero)
include hzero

theorem Tower.zero_not_mem (hlevel : zero ∉ level)
    (htower : Tower hash node zero known level height above) : zero ∉ above := by
  rcases Nat.eq_zero_or_pos height with rfl | hheight
  · cases htower
    exact hlevel
  · intro hmem
    obtain ⟨_, _, hstring, heq⟩ := htower.hashed hheight hmem
    exact hzero _ hstring heq.symm

/-- A tower from the leaves to the root, which is never the padding digest. -/
theorem exists_tower (hfree : zero ∉ level)
    (hknown : ∀ string ∈ paddedStrings hash node zero level.length level, string ∈ known)
    (hlevel : level ≠ []) :
    paddedRoot hash node zero level ≠ zero ∧
      ∃ height, Tower hash node zero known level height [paddedRoot hash node zero level] := by
  have hbase : Tower hash node zero known level 0 level := .base
  obtain ⟨height, digest, htop, htower⟩ := hbase.paddedTop le_rfl hknown hlevel
  have hroot : paddedRoot hash node zero level = digest := by
    rw [paddedRoot, htop, List.headD_cons]
  rw [hroot]
  refine ⟨?_, height, htower⟩
  rintro rfl
  exact htower.zero_not_mem hzero hfree (List.mem_singleton_self _)

end

variable (hnode : ∀ left right left' right', node left right = node left' right' →
  left = left' ∧ right = right')
variable (hinj : Set.InjOn hash known)
include hnode hinj

/-- Where strings over two digests determine them, equal levels come from equal
pairs. -/
theorem pairUp_inj (heven : level.length % 2 = 0) (heven' : level'.length % 2 = 0)
    (hknown : ∀ string ∈ pairStrings node level, string ∈ known)
    (hknown' : ∀ string ∈ pairStrings node level', string ∈ known)
    (h : pairUp hash node level = pairUp hash node level') : level = level' := by
  induction level using pairUp.induct generalizing level' with
  | case1 _ _ rest ih =>
    rcases level' with _ | ⟨left', _ | ⟨right', rest'⟩⟩
    · cases h
    · simp at heven'
    · rw [pairUp, pairUp, List.cons.injEq] at h
      have hstring := hinj (hknown _ List.mem_cons_self) (hknown' _ List.mem_cons_self) h.1
      obtain ⟨rfl, rfl⟩ := hnode _ _ _ _ hstring
      rw [List.length_cons, List.length_cons] at heven heven'
      have hrest : rest = rest' := by
        apply ih (by omega) (by omega) _ _ h.2
        · exact fun string hmem => hknown string (List.mem_cons_of_mem _ hmem)
        · exact fun string hmem => hknown' string (List.mem_cons_of_mem _ hmem)
      rw [hrest]
  | case2 level hshort =>
    have hlength := length_lt_two hshort
    have hlengths := congrArg List.length h
    rw [length_pairUp, length_pairUp] at hlengths
    rw [List.eq_nil_of_length_eq_zero (by omega : level.length = 0),
      List.eq_nil_of_length_eq_zero (by omega : level'.length = 0)]

theorem padUp_inj (hlevel : zero ∉ level) (hlevel' : zero ∉ level')
    (hknown : ∀ string ∈ padStrings node zero level, string ∈ known)
    (hknown' : ∀ string ∈ padStrings node zero level', string ∈ known)
    (h : padUp hash node zero level = padUp hash node zero level') : level = level' := by
  apply pad_inj hlevel hlevel'
  apply pairUp_inj hnode hinj _ _ hknown hknown' h
  · rw [length_pad]
    omega
  · rw [length_pad]
    omega

variable (hzero : ∀ string ∈ known, hash string ≠ zero)
include hzero

/-- Two towers that meet at the top agree all the way down the lower one. -/
theorem Tower.descend (hlevel : zero ∉ level) (hlevel' : zero ∉ level') {extra : ℕ}
    (hlow : Tower hash node zero known level height above)
    (hhigh : Tower hash node zero known level' (height + extra) above) :
    Tower hash node zero known level' extra level := by
  generalize hsum : height + extra = total at hhigh
  induction hlow generalizing total with
  | base =>
    rw [Nat.zero_add] at hsum
    rwa [hsum]
  | @up below _ _ hknown hbelow ih =>
    generalize htop : padUp hash node zero below = top at hhigh
    cases hhigh with
    | base => omega
    | @up below' height' _ hknown' hbelow' =>
      have hsame : below = below' :=
        padUp_inj hnode hinj (hbelow.zero_not_mem hzero hlevel)
          (hbelow'.zero_not_mem hzero hlevel') hknown hknown' htop
      subst hsame
      exact ih height' (by omega) hbelow'

/-- Of two towers with one digest at the top, neither first level lies above the
other, so they are the same. -/
theorem Tower.level_eq (hlevel : level ≠ []) (hleaf : ∀ digest ∈ level ++ level', digest ≠ zero ∧
      ∀ left right, node left right ∈ known → digest ≠ hash (node left right))
    {height' : ℕ} (hle : height ≤ height')
    (hlow : Tower hash node zero known level height above)
    (hhigh : Tower hash node zero known level' height' above) : level = level' := by
  obtain ⟨extra, rfl⟩ := Nat.exists_eq_add_of_le hle
  have hfree : zero ∉ level := fun hmem => (hleaf zero (List.mem_append_left _ hmem)).1 rfl
  have hfree' : zero ∉ level' := fun hmem => (hleaf zero (List.mem_append_right _ hmem)).1 rfl
  have hbetween := hlow.descend hnode hinj hzero hfree hfree' hhigh
  rcases Nat.eq_zero_or_pos extra with rfl | hextra
  · cases hbetween
    rfl
  · obtain ⟨digest, hdigest⟩ := List.exists_mem_of_ne_nil level hlevel
    obtain ⟨left, right, hstring, heq⟩ := hbetween.hashed hextra hdigest
    exact absurd heq ((hleaf digest (List.mem_append_left _ hdigest)).2 left right hstring)

/-- A root determines the digests it was built from. -/
theorem paddedRoot_inj (hleaf : ∀ digest ∈ level ++ level', digest ≠ zero ∧
      ∀ left right, node left right ∈ known → digest ≠ hash (node left right))
    (hknown : ∀ string ∈ paddedStrings hash node zero level.length level, string ∈ known)
    (hknown' : ∀ string ∈ paddedStrings hash node zero level'.length level', string ∈ known)
    (h : paddedRoot hash node zero level = paddedRoot hash node zero level') :
    level = level' := by
  have hfree : zero ∉ level := fun hmem => (hleaf zero (List.mem_append_left _ hmem)).1 rfl
  have hfree' : zero ∉ level' := fun hmem => (hleaf zero (List.mem_append_right _ hmem)).1 rfl
  by_cases hlevel : level = []
  · by_cases hlevel' : level' = []
    · rw [hlevel, hlevel']
    · subst hlevel
      exact absurd h.symm (exists_tower hzero hfree' hknown' hlevel').1
  · by_cases hlevel' : level' = []
    · subst hlevel'
      exact absurd h (exists_tower hzero hfree hknown hlevel).1
    · obtain ⟨-, height, htower⟩ := exists_tower hzero hfree hknown hlevel
      obtain ⟨-, height', htower'⟩ := exists_tower hzero hfree' hknown' hlevel'
      rw [h] at htower
      rcases Nat.le_total height height' with hle | hle
      · exact htower.level_eq hnode hinj hzero hlevel hleaf hle htower'
      · have hswap : ∀ digest ∈ level' ++ level, digest ≠ zero ∧
            ∀ left right, node left right ∈ known → digest ≠ hash (node left right) :=
          fun digest hmem => hleaf digest (List.mem_append.mpr (List.mem_append.mp hmem).symm)
        exact (htower'.level_eq hnode hinj hzero hlevel' hswap hle htower).symm

end Levels

end Foundation.Merkle
