import Mathlib.Data.List.Chain

/-!
# Commit–reveal chains

A commit–reveal chain is a list of links at regularly spaced targets. Every
link but a closing one commits to a fresh secret by its hash; every link but
the first reveals the secret the link before it committed to. The secrets, the
digests and the hash are arbitrary.
-/

namespace CommitReveal

/-- One link: what it reveals, what it commits to, and the secret behind the
commitment, which a closing link does not have. -/
structure Link (α β : Type*) where
  target : Nat
  reveal : α
  commit : β
  secret : Option α

variable {α β : Type*} (hash : α → β) (noSecret : α) (noCommit : β) (period : Nat)

/-- The link commits to its secret, or to nothing when it closes the chain. -/
def Link.Commits (l : Link α β) : Prop :=
  match l.secret with
  | some s => l.commit = hash s
  | none => l.commit = noCommit

/-- The link can open a chain: it reveals nothing and commits to a secret. -/
structure Link.Opens (l : Link α β) : Prop where
  reveal : l.reveal = noSecret
  secret : l.secret.isSome
  commits : l.Commits hash noCommit

/-- `l` can follow `k`: one period later, it reveals the secret of `k`. -/
structure Link.Follows (k l : Link α β) : Prop where
  target : l.target = k.target + period
  reveal : k.secret = some l.reveal
  commits : l.Commits hash noCommit

/-- A list of links that forms one chain. -/
structure IsRevealChain (links : List (Link α β)) : Prop where
  opens : ∀ l ∈ links.head?, l.Opens hash noSecret noCommit
  follows : links.IsChain (Link.Follows hash noCommit period)

namespace IsRevealChain

variable {hash noSecret noCommit period} {links : List (Link α β)}

theorem nil : IsRevealChain hash noSecret noCommit period ([] : List (Link α β)) where
  opens := by simp
  follows := .nil

theorem singleton {l : Link α β} (h : l.Opens hash noSecret noCommit) :
    IsRevealChain hash noSecret noCommit period [l] where
  opens := by simpa using h
  follows := List.isChain_singleton l

/-- A chain grows at its end. -/
theorem snoc (hc : IsRevealChain hash noSecret noCommit period links) {k l : Link α β}
    (hk : links.getLast? = some k) (hl : k.Follows hash noCommit period l) :
    IsRevealChain hash noSecret noCommit period (links ++ [l]) where
  opens := by
    intro x hx
    have hne : links ≠ [] := by
      rintro rfl
      cases hk
    rw [List.head?_append_of_ne_nil _ hne] at hx
    exact hc.opens x hx
  follows := by
    rw [List.isChain_append]
    refine ⟨hc.follows, List.isChain_singleton l, ?_⟩
    intro x hx y hy
    rw [hk, Option.mem_some_iff] at hx
    rw [List.head?_cons, Option.mem_some_iff] at hy
    rw [← hx, ← hy]
    exact hl

/-- The links before a link form a chain. -/
theorem init {pre post : List (Link α β)}
    (hc : IsRevealChain hash noSecret noCommit period (pre ++ post)) :
    IsRevealChain hash noSecret noCommit period pre where
  opens := by
    intro l hl
    refine hc.opens l ?_
    cases pre with
    | nil => cases hl
    | cons x pre => exact hl
  follows := (List.isChain_append.1 hc.follows).1

/-- Two neighbours of a chain follow each other. -/
theorem next {pre post : List (Link α β)} {k l : Link α β}
    (hc : IsRevealChain hash noSecret noCommit period (pre ++ k :: l :: post)) :
    k.Follows hash noCommit period l := by
  have h := (List.isChain_append.1 hc.follows).2.1
  exact (List.isChain_cons_cons.1 h).1

/-- Every link of a chain commits to its secret. -/
theorem commits (hc : IsRevealChain hash noSecret noCommit period links) {l : Link α β}
    (hl : l ∈ links) : l.Commits hash noCommit := by
  obtain ⟨pre, post, rfl⟩ := List.append_of_mem hl
  rcases pre.eq_nil_or_concat with rfl | ⟨pre, k, rfl⟩
  · exact (hc.opens l rfl).commits
  · have h : IsRevealChain hash noSecret noCommit period (pre ++ k :: l :: post) := by
      simpa using hc
    exact h.next.commits

/-- A link that is followed commits to what its successor reveals. -/
theorem commit_eq_hash_reveal {pre post : List (Link α β)} {k l : Link α β}
    (hc : IsRevealChain hash noSecret noCommit period (pre ++ k :: l :: post)) :
    k.commit = hash l.reveal := by
  have hk := hc.commits (l := k) (by simp)
  have hl := hc.next
  simpa [Link.Commits, hl.reveal] using hk

/-- Each target lies at least one period before the later ones. -/
theorem targets_increase (hc : IsRevealChain hash noSecret noCommit period links) :
    links.Pairwise fun k l => k.target + period ≤ l.target := by
  let later (k l : Link α β) : Prop := k.target + period ≤ l.target
  have htrans : Trans later later later := ⟨fun {k l m} hkl hlm => by
    change k.target + period ≤ m.target
    simp only [later] at hkl hlm
    omega⟩
  have hchain : links.IsChain later := hc.follows.imp fun k l hkl => hkl.target.ge
  exact hchain.pairwise

/-- The targets of a chain run in steps of one period from the first to the last. -/
theorem exists_target_iff (hc : IsRevealChain hash noSecret noCommit period links)
    (hperiod : 0 < period) {first last : Nat} (hfirst : ∃ k, links.head? = some k ∧ k.target = first)
    (hlast : ∃ l, links.getLast? = some l ∧ l.target = last) (t : Nat) :
    (∃ l ∈ links, l.target = t) ↔ first ≤ t ∧ t ≤ last ∧ period ∣ t - first := by
  induction links using List.reverseRecOn generalizing last t with
  | nil =>
    obtain ⟨_, hnone, -⟩ := hfirst
    cases hnone
  | append_singleton links x ih =>
    obtain ⟨l, hl, rfl⟩ := hlast
    obtain ⟨k, hk, rfl⟩ := hfirst
    rw [List.getLast?_concat, Option.some.injEq] at hl
    subst hl
    rcases links.eq_nil_or_concat with rfl | ⟨front, y, rfl⟩
    · simp only [List.nil_append, List.head?_cons, Option.some.injEq] at hk
      subst hk
      simp only [List.nil_append, List.mem_singleton, exists_eq_left]
      constructor
      · rintro rfl
        simp
      · rintro ⟨hle, hle', -⟩
        exact Nat.le_antisymm hle hle'
    · rw [List.concat_eq_append] at hc ih hk ⊢
      have hk' : (front ++ [y]).head? = some k := by
        rw [List.head?_append_of_ne_nil _ (by simp)] at hk
        exact hk
      have hchain : IsRevealChain hash noSecret noCommit period (front ++ y :: x :: []) := by
        simpa using hc
      have hx : x.target = y.target + period := hchain.next.target
      have hold := fun t => ih hc.init ⟨k, hk', rfl⟩ ⟨y, by simp, rfl⟩ t
      obtain ⟨hky, -, hdvdy⟩ := (hold y.target).1 ⟨y, by simp, rfl⟩
      have hsplit : (∃ l ∈ front ++ [y] ++ [x], l.target = t) ↔
          (∃ l ∈ front ++ [y], l.target = t) ∨ x.target = t := by
        simp [or_and_right, exists_or, or_assoc]
      rw [hsplit, hold t, hx]
      constructor
      · rintro (⟨hle, hle', hdvd⟩ | rfl)
        · exact ⟨hle, by omega, hdvd⟩
        · refine ⟨by omega, le_rfl, ?_⟩
          rw [Nat.sub_add_comm hky]
          exact Nat.dvd_add hdvdy (Nat.dvd_refl period)
      · rintro ⟨hle, hle', hdvd⟩
        by_cases hty : t ≤ y.target
        · exact .inl ⟨hle, hty, hdvd⟩
        · -- past the last but one, only the last is left
          right
          have hdiff : period ∣ t - y.target := by
            have hsub := Nat.dvd_sub hdvd hdvdy
            rwa [Nat.sub_sub_sub_cancel_right hky] at hsub
          have hle'' := Nat.le_of_dvd (by omega) hdiff
          omega

end IsRevealChain

end CommitReveal
