import Mathlib.Data.List.Nodup

/-!
# Custody of a resource

A holder takes resources and gives them up, one at a time. `run` replays the
moves of a history and fails where a resource is taken while another is held,
where one is given up that is not held, or where a named one is given up and
another is held. A replay that succeeds gives what is held in the end.

Holders that sit in a list under distinct keys are replayed together
(`run_flatMap`): the moves under a key are those of its holder.
-/

namespace Custody

/-- A move: take a resource, or give one up, named or not. -/
inductive Move (τ : Type*) where
  | take (x : τ)
  | give (named : Option τ)
deriving DecidableEq

variable {τ : Type*}

def Move.isTake : Move τ → Bool
  | .take _ => true
  | .give _ => false

@[simp] theorem isTake_take (x : τ) : (Move.take x).isTake = true := rfl

@[simp] theorem isTake_give (named : Option τ) : (Move.give named).isTake = false := rfl

section Replay

variable [DecidableEq τ]

/-- What is held after a move, if the move is allowed. -/
def step : Option τ → Move τ → Option (Option τ)
  | none, .take x => some (some x)
  | some _, .take _ => none
  | none, .give _ => none
  | some _, .give none => some none
  | some x, .give (some y) => if x = y then some none else none

/-- What is held after the moves, if all are allowed. -/
def run : Option τ → List (Move τ) → Option (Option τ)
  | held, [] => some held
  | held, move :: moves =>
    match step held move with
    | some held => run held moves
    | none => none

@[simp] theorem run_nil (held : Option τ) : run held [] = some held := rfl

theorem run_append {held held' : Option τ} {xs : List (Move τ)} (h : run held xs = some held')
    (ys : List (Move τ)) : run held (xs ++ ys) = run held' ys := by
  induction xs generalizing held with
  | nil =>
    cases h
    rfl
  | cons move xs ih =>
    simp only [run, List.cons_append] at h ⊢
    split at h
    · exact ih h
    · cases h

/-- A replay that succeeds has succeeded before every move. -/
theorem run_before {held held' : Option τ} {xs ys : List (Move τ)}
    (h : run held (xs ++ ys) = some held') : ∃ between, run held xs = some between := by
  induction xs generalizing held with
  | nil => exact ⟨held, rfl⟩
  | cons move xs ih =>
    simp only [run, List.cons_append] at h ⊢
    split at h
    · exact ih h
    · cases h

/-- Nothing is held when a resource is taken. -/
theorem free_at_take {held held' : Option τ} {xs ys : List (Move τ)} {x : τ}
    (h : run held (xs ++ .take x :: ys) = some held') : run held xs = some none := by
  rcases run_before h with ⟨between, hbefore⟩
  rw [run_append hbefore] at h
  cases between with
  | none => exact hbefore
  | some y => simp [run, step] at h

/-- What becomes of a resource: it is still held, or the next move gives it up. -/
theorem fate_of_take {held held' : Option τ} {xs ys : List (Move τ)} {x : τ}
    (h : run held (xs ++ .take x :: ys) = some held') :
    (held' = some x ∧ ys = []) ∨
      ∃ named rest, ys = .give named :: rest ∧ ∀ y, named = some y → y = x := by
  rw [run_append (free_at_take h)] at h
  rcases ys with _ | ⟨move, rest⟩
  · cases h
    exact .inl ⟨rfl, rfl⟩
  · right
    rcases move with y | (_ | y)
    · simp [run, step] at h
    · exact ⟨none, rest, rfl, fun _ hnamed => by cases hnamed⟩
    · refine ⟨some y, rest, rfl, ?_⟩
      intro z hz
      cases hz
      by_contra hne
      simp [run, step, Ne.symm hne] at h

end Replay

/-! ## Holders under keys -/

section Keyed

variable {ι κ ε : Type*} [DecidableEq κ] (key : ι → κ) (held : ι → Option τ)

/-- What the holder of the key holds. -/
def holding (items : List ι) (k : κ) : Option τ :=
  (items.find? fun item => key item = k).bind held

@[simp] theorem holding_nil (k : κ) : holding key held [] k = none := rfl

theorem holding_cons (item : ι) (items : List ι) (k : κ) :
    holding key held (item :: items) k =
      if key item = k then held item else holding key held items k := by
  unfold holding
  by_cases h : key item = k <;> simp [h]

/-- Without the key nothing is held. -/
theorem holding_of_notMem {items : List ι} {k : κ} (h : k ∉ items.map key) :
    holding key held items k = none := by
  induction items with
  | nil => rfl
  | cons item items ih =>
    simp only [List.map_cons, List.mem_cons, not_or] at h
    rw [holding_cons, if_neg (Ne.symm h.1), ih h.2]

/-- Where no item holds anything nothing is held. -/
theorem holding_of_idle {items : List ι} (h : ∀ item ∈ items, held item = none) (k : κ) :
    holding key held items k = none := by
  unfold holding
  rcases hfind : items.find? fun item => key item = k with _ | item
  · rfl
  · exact h item (List.mem_of_find?_eq_some hfind)

/-- Further items that hold nothing change nothing. -/
theorem holding_append {more : List ι} (h : ∀ item ∈ more, held item = none) (items : List ι)
    (k : κ) : holding key held (items ++ more) k = holding key held items k := by
  induction items with
  | nil => exact holding_of_idle key held h k
  | cons first items ih => rw [List.cons_append, holding_cons, holding_cons, ih]

/-- Items that hold nothing may be dropped. -/
theorem holding_filter {keep : ι → Bool} {items : List ι} (hkeys : (items.map key).Nodup)
    (h : ∀ item ∈ items, keep item = false → held item = none) (k : κ) :
    holding key held (items.filter keep) k = holding key held items k := by
  induction items with
  | nil => rfl
  | cons first items ih =>
    obtain ⟨hfirst, hkeys⟩ := List.nodup_cons.1 hkeys
    have hrest := ih hkeys fun item hmem => h item (List.mem_cons_of_mem _ hmem)
    rw [List.filter_cons, holding_cons]
    split
    · rw [holding_cons, hrest]
    · rename_i hdrop
      rw [hrest]
      split
      · rename_i hkey
        rw [h first List.mem_cons_self (by simpa using hdrop), ← hkey,
          holding_of_notMem key held hfirst]
      · rfl

/-- If the effects of every item are moves under its own key, and replay what it
holds, the effects of all items replay what is held under any key. -/
theorem run_flatMap [DecidableEq τ] {moves : κ → ε → Option (Move τ)} {after : ι → ι} {effects : ι → List ε}
    {items : List ι} (hkeys : (items.map key).Nodup) (hsame : ∀ item, key (after item) = key item)
    (hother : ∀ item ∈ items, ∀ k, k ≠ key item → (effects item).filterMap (moves k) = [])
    (hown : ∀ item ∈ items, run (held item) ((effects item).filterMap (moves (key item))) =
      some (held (after item))) (k : κ) :
    run (holding key held items k) ((items.flatMap effects).filterMap (moves k)) =
      some (holding key held (items.map after) k) := by
  induction items with
  | nil => rfl
  | cons first items ih =>
    obtain ⟨hfirst, hkeys⟩ := List.nodup_cons.1 hkeys
    have hrest := ih hkeys (fun item hmem => hother item (List.mem_cons_of_mem _ hmem))
      fun item hmem => hown item (List.mem_cons_of_mem _ hmem)
    rw [List.flatMap_cons, List.filterMap_append, List.map_cons, holding_cons, holding_cons, hsame]
    by_cases hkey : key first = k
    · subst hkey
      have hquiet : (items.flatMap effects).filterMap (moves (key first)) = [] := by
        rw [List.filterMap_flatMap, List.flatMap_eq_nil_iff]
        intro item hmem
        apply hother item (List.mem_cons_of_mem _ hmem)
        intro heq
        exact hfirst (heq ▸ List.mem_map_of_mem hmem)
      rw [if_pos rfl, if_pos rfl, hquiet, List.append_nil]
      exact hown first List.mem_cons_self
    · rw [if_neg hkey, if_neg hkey, hother first List.mem_cons_self k (Ne.symm hkey),
        List.nil_append]
      exact hrest

end Keyed

end Custody
