import Mathlib.Data.List.DropRight

/-!
# The last block of a list

The longest end of a list on which a key is constant, and how one more element
extends it or opens a new one.
-/

namespace Block

variable {α β κ : Type*} [DecidableEq κ]

/-- The longest end of the list on which the key is constant. -/
def lastBlock (key : α → κ) (l : List α) : List α :=
  match l.getLast? with
  | some last => l.rtakeWhile fun a => key a = key last
  | none => []

variable {key : α → κ}

@[simp] theorem lastBlock_nil : lastBlock key [] = [] := rfl

/-- An element with the key of the last one extends the block, any other opens a new one. -/
theorem lastBlock_snoc (l : List α) (a : α) :
    lastBlock key (l ++ [a]) =
      if l.getLast?.map key = some (key a) then lastBlock key l ++ [a] else [a] := by
  have hconcat : lastBlock key (l ++ [a]) = l.rtakeWhile (fun b => key b = key a) ++ [a] := by
    unfold lastBlock
    rw [List.getLast?_concat]
    exact List.rtakeWhile_concat_pos _ _ _ (by simp)
  rw [hconcat]
  cases hlast : l.getLast? with
  | none =>
    rw [List.getLast?_eq_none_iff] at hlast
    subst hlast
    rfl
  | some last =>
    by_cases hkey : key last = key a
    · have hblock : lastBlock key l = l.rtakeWhile fun b => key b = key a := by
        unfold lastBlock
        rw [hlast, ← hkey]
      rw [Option.map_some, hkey, if_pos rfl, hblock]
    · have hnone : l.rtakeWhile (fun b => key b = key a) = [] := by
        rw [List.rtakeWhile_eq_nil_iff]
        intro hne
        rw [List.getLast?_eq_some_getLast hne, Option.some.injEq] at hlast
        rw [hlast]
        simpa using hkey
      rw [Option.map_some, hnone, if_neg (fun h => hkey (Option.some.inj h))]
      rfl

/-- The block of a list that is not empty is not empty. -/
theorem lastBlock_eq_nil {l : List α} : lastBlock key l = [] ↔ l = [] := by
  constructor
  · intro h
    rcases List.eq_nil_or_concat l with rfl | ⟨front, a, rfl⟩
    · rfl
    · rw [List.concat_eq_append, lastBlock_snoc] at h
      split at h <;> simp at h
  · rintro rfl
    rfl

end Block
