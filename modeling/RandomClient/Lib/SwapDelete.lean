import Mathlib.Algebra.BigOperators.Group.List.Basic
import Mathlib.Data.List.Induction
import Mathlib.Data.List.Perm.Basic

/-!
# Walks that delete by swapping

An array keeps its entries in an occupied prefix, and an entry is removed by
moving the last one into its place. A walk from the back to the front visits
every entry once: the entry moved into a freed place was visited before.

`walk` is the loop over indices, `sweep` the same visits over the list of
entries. `walk_sweep` says that both end in the same state and, up to their
order, with the same entries.
-/

namespace SwapDelete

variable {α σ : Type*}

/-- Move the last entry to an index. -/
def swapDelete (l : List α) (i : Nat) : List α :=
  match l.getLast? with
  | none => l
  | some last => (l.set i last).dropLast

/-- Visit the entries at the indices below a bound from the back to the front.
A visit changes the state and keeps the entry, changed or not, or deletes it. -/
def walk (visit : α → σ → σ × Option α) : Nat → σ → List α → σ × List α
  | 0, s, l => (s, l)
  | i + 1, s, l =>
    match l[i]? with
    | none => walk visit i s l
    | some x =>
      match visit x s with
      | (s, some x) => walk visit i s (l.set i x)
      | (s, none) => walk visit i s (swapDelete l i)

/-- Visit entries in order, and collect those that are kept. -/
def sweep (visit : α → σ → σ × Option α) : List α → σ → σ × List α
  | [], s => (s, [])
  | x :: l, s =>
    let (s, kept) := visit x s
    let (s, rest) := sweep visit l s
    (s, kept.toList ++ rest)

/-- What follows a deleted entry is permuted, and what comes before it stays. -/
theorem swapDelete_append (front : List α) (x : α) (back : List α) :
    ∃ back', swapDelete (front ++ x :: back) front.length = front ++ back' ∧ back'.Perm back := by
  rcases back.eq_nil_or_concat with rfl | ⟨back, last, rfl⟩
  · exact ⟨[], by simp [swapDelete], .refl _⟩
  · refine ⟨last :: back, ?_, ?_⟩
    · rw [List.concat_eq_append]
      have hlast : (front ++ x :: (back ++ [last])).getLast? = some last := by
        simp [List.getLast?_append, List.getLast?_cons]
      have hset : (front ++ x :: (back ++ [last])).set front.length last =
          front ++ last :: back ++ [last] := by simp
      simp only [swapDelete, hlast, hset, List.dropLast_concat]
    · rw [List.concat_eq_append]
      exact (List.perm_append_singleton last back).symm

/-- The walk over a prefix is the sweep over its reverse. -/
theorem walk_append (visit : α → σ → σ × Option α) (front back : List α) (s : σ) :
    (walk visit front.length s (front ++ back)).1 = (sweep visit front.reverse s).1 ∧
      (walk visit front.length s (front ++ back)).2.Perm
        ((sweep visit front.reverse s).2 ++ back) := by
  induction front using List.reverseRecOn generalizing back s with
  | nil => exact ⟨rfl, .refl _⟩
  | append_singleton front x ih =>
    have hget : (front ++ [x] ++ back)[front.length]? = some x := by simp
    simp only [List.length_append, List.length_singleton, walk, hget, List.reverse_append,
      List.reverse_cons, List.reverse_nil, List.nil_append, List.singleton_append, sweep]
    rcases hvisit : visit x s with ⟨s', _ | x'⟩
    · -- the entry is deleted
      obtain ⟨back', hdelete, hperm⟩ := swapDelete_append front x back
      rw [List.append_assoc, List.singleton_append]
      simp only [hdelete]
      obtain ⟨hstate, hentries⟩ := ih back' s'
      refine ⟨hstate, hentries.trans ?_⟩
      simpa using hperm.append_left (sweep visit front.reverse s').2
    · have hset : (front ++ [x] ++ back).set front.length x' = front ++ x' :: back := by simp
      simp only [hset]
      obtain ⟨hstate, hentries⟩ := ih (x' :: back) s'
      exact ⟨hstate, hentries.trans (by simp)⟩

/-- The walk over all entries is the sweep from the back. -/
theorem walk_sweep (visit : α → σ → σ × Option α) (l : List α) (s : σ) :
    (walk visit l.length s l).1 = (sweep visit l.reverse s).1 ∧
      (walk visit l.length s l).2.Perm (sweep visit l.reverse s).2 := by
  have h := walk_append visit l [] s
  rwa [List.append_nil, List.append_nil] at h

/-! ## Following some of the entries -/

variable {visit : α → σ → σ × Option α} {p : α → Bool}

/-- What every visit keeps, the sweep keeps. -/
theorem sweep_invariant (P : σ → Prop) {l : List α}
    (hvisit : ∀ x ∈ l, ∀ s, P s → P (visit x s).1) {s : σ} (h : P s) : P (sweep visit l s).1 := by
  induction l generalizing s with
  | nil => exact h
  | cons x l ih =>
    exact ih (fun y hy => hvisit y (List.mem_cons_of_mem _ hy)) (hvisit x (by simp) s h)

/-- Entries that no visit moves into or out of `p` are followed one by one. -/
theorem sweep_filter_nil (hkeeps : ∀ x s, ∀ x' ∈ (visit x s).2, p x' = p x) {l : List α}
    (h : l.filter p = []) (s : σ) : (sweep visit l s).2.filter p = [] := by
  induction l generalizing s with
  | nil => rfl
  | cons x l ih =>
    rw [List.filter_cons] at h
    split at h
    · cases h
    · rename_i hx
      have hkept : (visit x s).2.toList.filter p = [] := by
        rw [List.filter_eq_nil_iff]
        intro x' hx'
        rw [hkeeps x s x' (Option.mem_toList.1 hx')]
        exact hx
      simp only [sweep, List.filter_append, hkept, ih h, List.append_nil]

/-- The only entry of `p` is visited in some state, and is kept as its visit says. -/
theorem sweep_filter_singleton (hkeeps : ∀ x s, ∀ x' ∈ (visit x s).2, p x' = p x) {l : List α}
    {e : α} (h : l.filter p = [e]) (s : σ) :
    ∃ s', (sweep visit l s).2.filter p = (visit e s').2.toList := by
  induction l generalizing s with
  | nil => cases h
  | cons x l ih =>
    rw [List.filter_cons] at h
    split at h
    · rename_i hx
      obtain ⟨rfl, hrest⟩ := List.cons_eq_cons.1 h
      refine ⟨s, ?_⟩
      have hkept : (visit x s).2.toList.filter p = (visit x s).2.toList := by
        rw [List.filter_eq_self]
        intro x' hx'
        rw [hkeeps x s x' (Option.mem_toList.1 hx')]
        exact hx
      simp only [sweep, List.filter_append, hkept, sweep_filter_nil hkeeps hrest, List.append_nil]
    · rename_i hx
      obtain ⟨s', hs'⟩ := ih h (visit x s).1
      refine ⟨s', ?_⟩
      have hkept : (visit x s).2.toList.filter p = [] := by
        rw [List.filter_eq_nil_iff]
        intro x' hx'
        rw [hkeeps x s x' (Option.mem_toList.1 hx')]
        exact hx
      simp only [sweep, List.filter_append, hkept, List.nil_append, hs']

/-- No more entries of `p` are kept than there were. -/
theorem sweep_filter_length_le (hkeeps : ∀ x s, ∀ x' ∈ (visit x s).2, p x' = p x) (l : List α)
    (s : σ) : ((sweep visit l s).2.filter p).length ≤ (l.filter p).length := by
  induction l generalizing s with
  | nil => exact Nat.zero_le _
  | cons x l ih =>
    have hkept : ((visit x s).2.toList.filter p).length ≤ ([x].filter p).length := by
      cases hvisit : (visit x s).2 with
      | none => exact Nat.zero_le _
      | some x' =>
        have hsame := hkeeps x s x' hvisit
        cases hp : p x <;> simp [hsame, hp]
    have hrest := ih (visit x s).1
    rw [← List.singleton_append, List.filter_append, List.length_append]
    simp only [sweep, List.filter_append, List.length_append, List.singleton_append]
    omega

/-- A property that every visit keeps holds of the kept entries. -/
theorem sweep_forall (Q : α → Prop) (hkeeps : ∀ x s, Q x → ∀ x' ∈ (visit x s).2, Q x') {l : List α}
    (h : ∀ x ∈ l, Q x) (s : σ) : ∀ x ∈ (sweep visit l s).2, Q x := by
  induction l generalizing s with
  | nil => exact fun x hx => absurd hx List.not_mem_nil
  | cons x l ih =>
    intro x' hx'
    rcases List.mem_append.1 hx' with hx' | hx'
    · exact hkeeps x s (h x (by simp)) x' (Option.mem_toList.1 hx')
    · exact ih (fun y hy => h y (List.mem_cons_of_mem _ hy)) (visit x s).1 x' hx'

/-- What is kept is what the visit of some entry kept, in a state that satisfies
what every visit keeps. -/
theorem sweep_kept_of (P : σ → Prop) {l : List α} (hvisit : ∀ x ∈ l, ∀ s, P s → P (visit x s).1)
    {s : σ} (hs : P s) {x' : α} (h : x' ∈ (sweep visit l s).2) :
    ∃ x ∈ l, ∃ s, P s ∧ (visit x s).2 = some x' := by
  induction l generalizing s with
  | nil => cases h
  | cons x l ih =>
    rcases List.mem_append.1 h with h | h
    · exact ⟨x, by simp, s, hs, Option.mem_toList.1 h⟩
    · rcases ih (fun y hy => hvisit y (List.mem_cons_of_mem _ hy)) (hvisit x (by simp) s hs) h with
        ⟨y, hy, hkept⟩
      exact ⟨y, List.mem_cons_of_mem _ hy, hkept⟩

theorem walk_kept_of (P : σ → Prop) {l : List α} (hvisit : ∀ x ∈ l, ∀ s, P s → P (visit x s).1)
    {s : σ} (hs : P s) {x' : α} (h : x' ∈ (walk visit l.length s l).2) :
    ∃ x ∈ l, ∃ s, P s ∧ (visit x s).2 = some x' := by
  rcases sweep_kept_of P (fun x hx => hvisit x (List.mem_reverse.1 hx)) hs
    ((walk_sweep visit l s).2.subset h) with ⟨x, hx, hkept⟩
  exact ⟨x, List.mem_reverse.1 hx, hkept⟩

theorem walk_kept {l : List α} {s : σ} {x' : α} (h : x' ∈ (walk visit l.length s l).2) :
    ∃ x ∈ l, ∃ s, (visit x s).2 = some x' := by
  rcases walk_kept_of (fun _ => True) (fun _ _ _ _ => trivial) trivial h with ⟨x, hx, s, -, hkept⟩
  exact ⟨x, hx, s, hkept⟩

/-- Every entry is visited in some state, which satisfies what every visit keeps. -/
theorem sweep_visit (P : σ → Prop) {l : List α} (hvisit : ∀ x ∈ l, ∀ s, P s → P (visit x s).1)
    {s : σ} (h : P s) {x : α} (hx : x ∈ l) :
    ∃ s', P s' ∧ ∀ x', (visit x s').2 = some x' → x' ∈ (sweep visit l s).2 := by
  induction l generalizing s with
  | nil => cases hx
  | cons y l ih =>
    rcases List.mem_cons.1 hx with rfl | hx
    · refine ⟨s, h, ?_⟩
      intro x' hx'
      exact List.mem_append_left _ (Option.mem_toList.2 hx')
    · rcases ih (fun z hz => hvisit z (List.mem_cons_of_mem _ hz)) (hvisit y (by simp) s h) hx with
        ⟨s', hs', hkept⟩
      exact ⟨s', hs', fun x' hx' => List.mem_append_right _ (hkept x' hx')⟩

theorem walk_visit (P : σ → Prop) {l : List α} (hvisit : ∀ x ∈ l, ∀ s, P s → P (visit x s).1)
    {s : σ} (h : P s) {x : α} (hx : x ∈ l) :
    ∃ s', P s' ∧ ∀ x', (visit x s').2 = some x' → x' ∈ (walk visit l.length s l).2 := by
  rcases sweep_visit P (fun z hz => hvisit z (List.mem_reverse.1 hz)) h (List.mem_reverse.2 hx) with
    ⟨s', hs', hkept⟩
  exact ⟨s', hs', fun x' hx' => (walk_sweep visit l s).2.symm.subset (hkept x' hx')⟩

theorem walk_invariant (P : σ → Prop) {l : List α} (hvisit : ∀ x ∈ l, ∀ s, P s → P (visit x s).1)
    {s : σ} (h : P s) : P (walk visit l.length s l).1 := by
  rw [(walk_sweep visit l s).1]
  exact sweep_invariant P (fun x hx => hvisit x (List.mem_reverse.1 hx)) h

theorem walk_filter_nil (hkeeps : ∀ x s, ∀ x' ∈ (visit x s).2, p x' = p x) {l : List α}
    (h : l.filter p = []) (s : σ) : (walk visit l.length s l).2.filter p = [] := by
  have hperm := (walk_sweep visit l s).2.filter p
  have hreverse : l.reverse.filter p = [] := by rw [List.filter_reverse, h, List.reverse_nil]
  rw [sweep_filter_nil hkeeps hreverse] at hperm
  exact hperm.eq_nil

theorem walk_filter_singleton (hkeeps : ∀ x s, ∀ x' ∈ (visit x s).2, p x' = p x) {l : List α}
    {e : α} (h : l.filter p = [e]) (s : σ) :
    ∃ s', (walk visit l.length s l).2.filter p = (visit e s').2.toList := by
  have hperm := (walk_sweep visit l s).2.filter p
  have hreverse : l.reverse.filter p = [e] := by
    rw [List.filter_reverse, h, List.reverse_singleton]
  obtain ⟨s', hs'⟩ := sweep_filter_singleton hkeeps hreverse s
  refine ⟨s', ?_⟩
  rw [hs'] at hperm
  cases hkept : (visit e s').2 with
  | none =>
    rw [hkept] at hperm
    exact hperm.eq_nil
  | some e' =>
    rw [hkept] at hperm
    exact List.perm_singleton.1 hperm

theorem walk_filter_length_le (hkeeps : ∀ x s, ∀ x' ∈ (visit x s).2, p x' = p x) (l : List α)
    (s : σ) : ((walk visit l.length s l).2.filter p).length ≤ (l.filter p).length := by
  have hle := sweep_filter_length_le hkeeps l.reverse s
  rw [((walk_sweep visit l s).2.filter p).length_eq]
  rwa [List.filter_reverse, List.length_reverse] at hle

theorem walk_forall (Q : α → Prop) (hkeeps : ∀ x s, Q x → ∀ x' ∈ (visit x s).2, Q x') {l : List α}
    (h : ∀ x ∈ l, Q x) (s : σ) : ∀ x ∈ (walk visit l.length s l).2, Q x := by
  intro x hx
  exact sweep_forall Q hkeeps (fun y hy => h y (List.mem_reverse.1 hy)) s x
    ((walk_sweep visit l s).2.subset hx)

/-! ## What a walk emits and keeps -/

section

variable {β : Type*}

/-- When every visit appends what its entry says to an output, the sweep emits it all. -/
theorem sweep_output (output : σ → List β) (emits : α → List β) {l : List α}
    (hvisit : ∀ x ∈ l, ∀ s, output (visit x s).1 = output s ++ emits x) (s : σ) :
    output (sweep visit l s).1 = output s ++ l.flatMap emits := by
  induction l generalizing s with
  | nil => rw [List.flatMap_nil, List.append_nil]; rfl
  | cons x l ih =>
    have hrest := ih (fun y hy => hvisit y (List.mem_cons_of_mem _ hy)) (visit x s).1
    rw [hvisit x (by simp) s, List.append_assoc] at hrest
    rw [List.flatMap_cons]
    exact hrest

theorem walk_output (output : σ → List β) (emits : α → List β) {l : List α}
    (hvisit : ∀ x ∈ l, ∀ s, output (visit x s).1 = output s ++ emits x) (s : σ) :
    (output (walk visit l.length s l).1).Perm (output s ++ l.flatMap emits) := by
  rw [(walk_sweep visit l s).1,
    sweep_output output emits (fun x hx => hvisit x (List.mem_reverse.1 hx)) s]
  exact (l.reverse_perm.flatMap_right emits).append_left _

/-- When an aspect of the kept entry depends on the visited entry alone, the sweep
keeps these aspects. -/
theorem sweep_filterMap (f : α → β) (g : α → Option β) {l : List α}
    (hvisit : ∀ x ∈ l, ∀ s, (visit x s).2.map f = g x) (s : σ) :
    (sweep visit l s).2.map f = l.filterMap g := by
  induction l generalizing s with
  | nil => rfl
  | cons x l ih =>
    have hrest := ih (fun y hy => hvisit y (List.mem_cons_of_mem _ hy)) (visit x s).1
    have hfirst : (visit x s).2.toList.map f = (g x).toList := by
      rw [← hvisit x (by simp) s]
      cases (visit x s).2 <;> rfl
    simp only [sweep, List.map_append, hrest, hfirst]
    cases hg : g x with
    | none => rw [List.filterMap_cons_none hg]; rfl
    | some y => rw [List.filterMap_cons_some hg]; rfl

theorem walk_filterMap (f : α → β) (g : α → Option β) {l : List α}
    (hvisit : ∀ x ∈ l, ∀ s, (visit x s).2.map f = g x) (s : σ) :
    ((walk visit l.length s l).2.map f).Perm (l.filterMap g) := by
  have hperm := (walk_sweep visit l s).2.map f
  rw [sweep_filterMap f g (fun x hx => hvisit x (List.mem_reverse.1 hx)) s] at hperm
  exact hperm.trans (l.reverse_perm.filterMap g)

end

/-! ## Weights -/

section

variable {M : Type*} [AddCommMonoid M] (weight : α → M) (taken : σ → M)

/-- When every visit takes from its entry what the kept entry no longer weighs,
nothing is lost in the sweep. -/
theorem sweep_weight {l : List α}
    (hvisit : ∀ x ∈ l, ∀ s,
      taken (visit x s).1 + ((visit x s).2.toList.map weight).sum = taken s + weight x) (s : σ) :
    taken (sweep visit l s).1 + ((sweep visit l s).2.map weight).sum =
      taken s + (l.map weight).sum := by
  induction l generalizing s with
  | nil => rfl
  | cons x l ih =>
    have hrest := ih (fun y hy => hvisit y (List.mem_cons_of_mem _ hy)) (visit x s).1
    have hfirst := hvisit x (by simp) s
    simp only [sweep, List.map_append, List.sum_append, List.map_cons, List.sum_cons]
    calc taken (sweep visit l (visit x s).1).1 + (((visit x s).2.toList.map weight).sum +
          ((sweep visit l (visit x s).1).2.map weight).sum)
        = taken (sweep visit l (visit x s).1).1 + ((sweep visit l (visit x s).1).2.map weight).sum +
            ((visit x s).2.toList.map weight).sum := by
          rw [add_comm ((visit x s).2.toList.map weight).sum, add_assoc]
      _ = taken (visit x s).1 + ((visit x s).2.toList.map weight).sum + (l.map weight).sum := by
          rw [hrest, add_right_comm]
      _ = taken s + (weight x + (l.map weight).sum) := by rw [hfirst, add_assoc]

theorem walk_weight {l : List α}
    (hvisit : ∀ x ∈ l, ∀ s,
      taken (visit x s).1 + ((visit x s).2.toList.map weight).sum = taken s + weight x) (s : σ) :
    taken (walk visit l.length s l).1 + ((walk visit l.length s l).2.map weight).sum =
      taken s + (l.map weight).sum := by
  rw [(walk_sweep visit l s).1, ((walk_sweep visit l s).2.map weight).sum_eq,
    sweep_weight weight taken (fun x hx => hvisit x (List.mem_reverse.1 hx)) s, List.map_reverse,
    List.sum_reverse]

end

end SwapDelete
