import RandomClient.Lib.Machine

/-!
# Labelled transition relations

A step relation whose steps carry a list of effects, and its finite runs. An
invariant is proved for one step and holds along every run
(`LabelledRun.invariant`); a simulation is proved for one step and carries
every run over (`LabelledRun.simulate`). A machine each of whose operations is
a run of the relation has only runs of the relation (`Machine.labelledRun`).
-/

variable {σ τ ε δ : Type*}

/-- The runs of a step relation, with the effects of their steps in order. -/
inductive LabelledRun (step : σ → List ε → σ → Prop) : σ → List ε → σ → Prop where
  | nil {s : σ} : LabelledRun step s [] s
  | snoc {s m s' : σ} {t u : List ε} :
      LabelledRun step s t m → step m u s' → LabelledRun step s (t ++ u) s'

namespace LabelledRun

variable {step : σ → List ε → σ → Prop} {s m s' : σ} {t u : List ε}

theorem single (h : step s t s') : LabelledRun step s t s' := by
  have hrun := LabelledRun.snoc .nil h
  simpa using hrun

theorem trans (hs : LabelledRun step s t m) (hm : LabelledRun step m u s') :
    LabelledRun step s (t ++ u) s' := by
  induction hm with
  | nil => simpa using hs
  | snoc _ hstep ih =>
    rw [← List.append_assoc]
    exact .snoc ih hstep

theorem cons (h : step s t m) (hm : LabelledRun step m u s') :
    LabelledRun step s (t ++ u) s' := (single h).trans hm

/-- A step without effects in front of a run. -/
theorem silent (h : step s [] m) (hm : LabelledRun step m u s') : LabelledRun step s u s' :=
  cons h hm

/-- The invariant rule: what every step preserves holds along a run. The
property may speak of the effects since the start of time. -/
theorem invariant (P : σ → List ε → Prop)
    (hstep : ∀ s t u s', P s t → step s u s' → P s' (t ++ u))
    (hrun : LabelledRun step s u s') : ∀ {t}, P s t → P s' (t ++ u) := by
  induction hrun with
  | nil =>
    intro t hs
    simpa using hs
  | snoc _ hlast ih =>
    intro t hs
    rw [← List.append_assoc]
    exact hstep _ _ _ _ (ih hs) hlast

/-- The simulation rule: if the abstract relation answers every step, up to an
observation of the effects, it answers every run. -/
theorem simulate {stepA : τ → List δ → τ → Prop} (R : σ → τ → Prop) (obs : List ε → List δ)
    (hnil : obs [] = []) (happend : ∀ t u, obs (t ++ u) = obs t ++ obs u)
    (hstep : ∀ s u s' a, R s a → step s u s' → ∃ a', LabelledRun stepA a (obs u) a' ∧ R s' a')
    (hrun : LabelledRun step s t s') :
    ∀ {a}, R s a → ∃ a', LabelledRun stepA a (obs t) a' ∧ R s' a' := by
  induction hrun with
  | nil =>
    intro a ha
    exact ⟨a, by rw [hnil]; exact .nil, ha⟩
  | snoc _ hlast ih =>
    intro a ha
    obtain ⟨b, hrunb, hb⟩ := ih ha
    obtain ⟨c, hrunc, hc⟩ := hstep _ _ _ _ hb hlast
    exact ⟨c, by rw [happend]; exact hrunb.trans hrunc, hc⟩

/-- Every effect of a run comes from one of its steps. -/
theorem split (hrun : LabelledRun step s t s') {pre post : List ε} {e : ε}
    (ht : t = pre ++ e :: post) : ∃ t₁ m u₁ u₂ m', LabelledRun step s t₁ m ∧
      step m (u₁ ++ e :: u₂) m' ∧ pre = t₁ ++ u₁ := by
  induction hrun generalizing post with
  | nil => simp at ht
  | snoc hinit hlast ih =>
    rcases List.append_eq_append_iff.1 ht with ⟨rest, rfl, hu⟩ | ⟨rest, rfl, hrest⟩
    · subst hu
      exact ⟨_, _, rest, post, _, hinit, hlast, rfl⟩
    · cases rest with
      | nil =>
        simp only [List.nil_append] at hrest
        subst hrest
        exact ⟨_, _, [], post, _, hinit, hlast, by simp⟩
      | cons x rest =>
        simp only [List.cons_append, List.cons.injEq] at hrest
        obtain ⟨rfl, -⟩ := hrest
        exact ih rfl

end LabelledRun

/-- A machine each of whose operations is a run of the relation, in the states
of an invariant. -/
theorem Machine.labelledRun {ω : Type*} (M : Machine σ ω ε) {step : σ → List ε → σ → Prop}
    {I : σ → Prop} (hpres : ∀ op s, I s → I (M.step op s).1)
    (h : ∀ op s, I s → LabelledRun step s (M.step op s).2 (M.step op s).1) {s : σ} (hs : I s)
    (ops : List ω) : LabelledRun step s (M.trace s ops) (M.state s ops) := by
  induction ops generalizing s with
  | nil => exact .nil
  | cons op ops ih => exact (h op s hs).trans (ih (hpres op s hs))
