import Mathlib.Data.Set.Function
import Mathlib.Data.List.Induction

/-!
A chain that absorbs values one after the other: each value is hashed by itself,
and its digest together with the digest of the chain so far. Where the hash tells
the hashed strings apart, the last digest determines the values, whatever their
number.
-/

namespace Foundation.HashChain

variable {D S V : Type} (hash : S → D) (join : D → D → S) (leaf : V → S)

def absorb (digest : D) (value : V) : D := hash (join digest (hash (leaf value)))

/-- The strings hashed on the way. -/
def strings : D → List V → List S
  | _, [] => []
  | digest, value :: rest =>
    leaf value :: join digest (hash (leaf value)) ::
      strings (absorb hash join leaf digest value) rest

variable {hash join leaf}

theorem strings_concat (digest : D) (values : List V) (value : V) :
    strings hash join leaf digest (values ++ [value]) = strings hash join leaf digest values ++
      [leaf value, join (values.foldl (absorb hash join leaf) digest) (hash (leaf value))] := by
  induction values generalizing digest with
  | nil => rfl
  | cons _ _ ih =>
    simp only [List.cons_append, strings, List.foldl_cons]
    rw [ih]

theorem foldl_absorb_inj {start : S} {known : Set S} (hhash : Set.InjOn hash known)
    (hjoin : ∀ {a b c d}, join a b = join c d → a = c ∧ b = d) (hleaf : Function.Injective leaf)
    (hstart : ∀ a b, start ≠ join a b) (hknown : start ∈ known) {values values' : List V}
    (hvalues : ∀ s ∈ strings hash join leaf (hash start) values, s ∈ known)
    (hvalues' : ∀ s ∈ strings hash join leaf (hash start) values', s ∈ known)
    (h : values.foldl (absorb hash join leaf) (hash start) =
      values'.foldl (absorb hash join leaf) (hash start)) : values = values' := by
  -- the last digests are hashes of joins, or one of the chains is empty
  induction values using List.reverseRecOn generalizing values' with
  | nil =>
    cases values' using List.reverseRecOn with
    | nil => rfl
    | append_singleton =>
      rw [strings_concat] at hvalues'
      rw [List.foldl_append] at h
      exact absurd (hhash hknown (hvalues' _ (by simp)) h) (hstart _ _)
  | append_singleton values value ih =>
    rw [strings_concat] at hvalues
    cases values' using List.reverseRecOn with
    | nil =>
      rw [List.foldl_append] at h
      exact absurd (hhash hknown (hvalues _ (by simp)) h.symm) (hstart _ _)
    | append_singleton values' value' =>
      rw [strings_concat] at hvalues'
      rw [List.foldl_append, List.foldl_append] at h
      obtain ⟨hbefore, hdigest⟩ := hjoin (hhash (hvalues _ (by simp)) (hvalues' _ (by simp)) h)
      have hvalue : value = value' :=
        hleaf (hhash (hvalues _ (by simp)) (hvalues' _ (by simp)) hdigest)
      have hrest : values = values' :=
        ih (fun s hs => hvalues s (List.mem_append_left _ hs))
          (fun s hs => hvalues' s (List.mem_append_left _ hs)) hbefore
      rw [hvalue, hrest]

end Foundation.HashChain
