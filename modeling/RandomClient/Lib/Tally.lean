import Mathlib.Algebra.BigOperators.Group.Finset.Basic
import Mathlib.Data.Finset.Card
import Mathlib.Data.List.AList

/-!
# Tallies

A finite map from keys to classes, and the number of keys in each class. A new
key raises the number of its class by one (`card_classed_new`); a key that
moves to another class lowers the number of the class it leaves, which is not
zero, and raises the other (`card_classed_move`).
-/

namespace Tally

variable {κ γ : Type*} [DecidableEq κ] {m : AList fun _ : κ => γ} {k : κ} {c : γ}

/-! ## The keys -/

/-- The keys of a map. -/
def keySet (m : AList fun _ : κ => γ) : Finset κ := m.keys.toFinset

theorem mem_keySet : k ∈ keySet m ↔ (m.lookup k).isSome := by
  rw [keySet, List.mem_toFinset, ← AList.mem_keys, AList.lookup_isSome]

@[simp] theorem keySet_empty : keySet (∅ : AList fun _ : κ => γ) = ∅ := rfl

theorem keySet_insert (m : AList fun _ : κ => γ) (k : κ) (c : γ) :
    keySet (m.insert k c) = insert k (keySet m) := by
  ext k'
  rw [Finset.mem_insert, mem_keySet, mem_keySet]
  by_cases hk : k' = k
  · subst hk
    simp
  · rw [AList.lookup_insert_ne hk]
    simp [hk]

theorem card_keySet_new (h : m.lookup k = none) (c : γ) :
    (keySet (m.insert k c)).card = (keySet m).card + 1 := by
  rw [keySet_insert, Finset.card_insert_of_notMem]
  rw [mem_keySet, h]
  exact Bool.false_ne_true

theorem keySet_insert_old (h : (m.lookup k).isSome) (c : γ) :
    keySet (m.insert k c) = keySet m := by
  rw [keySet_insert, Finset.insert_eq_of_mem (mem_keySet.2 h)]

/-! ## The classes -/

variable [DecidableEq γ]

/-- The keys a map puts into a class. -/
def classed (m : AList fun _ : κ => γ) (c : γ) : Finset κ :=
  (keySet m).filter fun k => m.lookup k = some c

theorem mem_classed : k ∈ classed m c ↔ m.lookup k = some c := by
  unfold classed
  rw [Finset.mem_filter]
  constructor
  · intro h
    exact h.2
  · intro h
    refine ⟨?_, h⟩
    rw [mem_keySet, h]
    rfl

@[simp] theorem classed_empty (c : γ) : classed (∅ : AList fun _ : κ => γ) c = ∅ := rfl

theorem classed_subset (m : AList fun _ : κ => γ) (c : γ) : classed m c ⊆ keySet m :=
  Finset.filter_subset _ _

theorem classed_insert_self (m : AList fun _ : κ => γ) (k : κ) (c : γ) :
    classed (m.insert k c) c = insert k (classed m c) := by
  ext k'
  rw [Finset.mem_insert, mem_classed, mem_classed]
  by_cases hk : k' = k
  · subst hk
    simp
  · rw [AList.lookup_insert_ne hk]
    simp [hk]

theorem classed_insert_other (m : AList fun _ : κ => γ) (k : κ) {c c' : γ} (h : c' ≠ c) :
    classed (m.insert k c) c' = (classed m c').erase k := by
  ext k'
  rw [Finset.mem_erase, mem_classed, mem_classed]
  by_cases hk : k' = k
  · subst hk
    simp [Ne.symm h]
  · rw [AList.lookup_insert_ne hk]
    simp [hk]

/-- A new key is one more in its class. -/
theorem card_classed_new (h : m.lookup k = none) (c c' : γ) :
    (classed (m.insert k c) c').card = (classed m c').card + if c' = c then 1 else 0 := by
  have hnot : ∀ c, k ∉ classed m c := by
    intro c hmem
    rw [mem_classed, h] at hmem
    cases hmem
  by_cases hc : c' = c
  · subst hc
    rw [classed_insert_self, Finset.card_insert_of_notMem (hnot c'), if_pos rfl]
  · rw [classed_insert_other m k hc, Finset.erase_eq_of_notMem (hnot c'), if_neg hc, Nat.add_zero]

/-- A key that moves leaves one class, which held it, for the other. -/
theorem card_classed_move {p : γ} (h : m.lookup k = some p) (hne : p ≠ c) (c' : γ) :
    (classed (m.insert k c) c').card + (if c' = p then 1 else 0) =
      (classed m c').card + if c' = c then 1 else 0 := by
  by_cases hc : c' = c
  · subst hc
    have hnot : k ∉ classed m c' := by
      rw [mem_classed, h]
      exact fun heq => hne (Option.some.inj heq)
    rw [classed_insert_self, Finset.card_insert_of_notMem hnot, if_pos rfl, if_neg hne.symm]
  · rw [classed_insert_other m k hc, if_neg hc]
    by_cases hp : c' = p
    · subst hp
      have hmem : k ∈ classed m c' := mem_classed.2 h
      rw [if_pos rfl, Finset.card_erase_add_one hmem, Nat.add_zero]
    · have hnot : k ∉ classed m c' := by
        rw [mem_classed, h]
        exact fun heq => hp (Option.some.inj heq).symm
      rw [Finset.erase_eq_of_notMem hnot, if_neg hp]

/-- The class of a key is not empty. -/
theorem card_classed_pos (h : m.lookup k = some c) : 0 < (classed m c).card :=
  Finset.card_pos.2 ⟨k, mem_classed.2 h⟩

/-- The classes share the keys among themselves. -/
theorem sum_card_classed [Fintype γ] (m : AList fun _ : κ => γ) :
    ∑ c, (classed m c).card = (keySet m).card := by
  rw [Finset.card_eq_sum_card_fiberwise (f := fun k => m.lookup k)
    (t := Finset.univ.image (some : γ → Option γ))]
  · rw [Finset.sum_image (fun _ _ _ _ h => Option.some.inj h)]
    rfl
  · intro k hmem
    rcases Option.isSome_iff_exists.1 (mem_keySet.1 hmem) with ⟨c, hc⟩
    simp [hc]

end Tally
