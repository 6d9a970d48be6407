import RandomClient.Engine
import RandomClient.Lib.CommitReveal

/-!
# Reading a slot's trace

Projections of the effects of a slot. A reset effect ends an epoch period: the
effects after the last one belong to the period that is still running
(`period`). `periodCalls` are the calls signed in it; `currentChain` are the
calls signed since its last first commit, the signed inputs of the newest chain.
-/

namespace RandomClient

/-- The link a signed call adds to its chain. -/
def SignedCall.link (call : SignedCall) : CommitReveal.Link Preimage Digest where
  target := call.targetTick
  reveal := call.input.reveal
  commit := call.input.commit
  secret := call.preimage

/-- The effects of planning: what was signed, frozen or reset. -/
def Effect.isPlan : Effect → Bool
  | .signed _ | .froze _ _ | .reset => true
  | _ => false

/-- The planning effects of a trace. -/
def planEffects (t : List Effect) : List Effect := t.filter Effect.isPlan

def periodStep (current : List Effect) (e : Effect) : List Effect :=
  if e = .reset then [] else current ++ [e]

/-- The effects since the last reset. -/
def period (t : List Effect) : List Effect := t.foldl periodStep []

def callsStep (calls : List SignedCall) : Effect → List SignedCall
  | .signed call => calls ++ [call]
  | .reset => []
  | _ => calls

/-- The calls signed since the last reset, in order. -/
def periodCalls (t : List Effect) : List SignedCall := t.foldl callsStep []

def chainStep (calls : List SignedCall) : Effect → List SignedCall
  | .signed call => if call.kind = .firstCommit then [call] else calls ++ [call]
  | .reset => []
  | _ => calls

/-- The calls signed since the last first commit of the period, that commit included. -/
def currentChain (t : List Effect) : List SignedCall := t.foldl chainStep []

/-- The backend accepted the call of the target in the running period. -/
def AcceptedIn (t : List Effect) (target : Nat) : Prop :=
  ∃ kind, Effect.harvested target kind false .ok ∈ period t

/-! ## Appending effects -/

theorem planEffects_append (t u : List Effect) :
    planEffects (t ++ u) = planEffects t ++ planEffects u := List.filter_append ..

theorem period_snoc (t : List Effect) (e : Effect) :
    period (t ++ [e]) = periodStep (period t) e := by
  simp [period, List.foldl_append]

theorem period_append {u : List Effect} (h : Effect.reset ∉ u) (t : List Effect) :
    period (t ++ u) = period t ++ u := by
  induction u using List.reverseRecOn with
  | nil => simp
  | append_singleton u e ih =>
    have hu : Effect.reset ∉ u := fun hmem => h (List.mem_append_left _ hmem)
    have he : e ≠ .reset := fun heq => h (by simp [heq])
    rw [← List.append_assoc, period_snoc, ih hu, periodStep, if_neg he, List.append_assoc]

theorem period_reset (t : List Effect) : period (t ++ [.reset]) = [] := by
  rw [period_snoc]
  rfl

theorem mem_of_period {t : List Effect} {e : Effect} (h : e ∈ period t) : e ∈ t := by
  induction t using List.reverseRecOn with
  | nil => cases h
  | append_singleton t last ih =>
    rw [period_snoc, periodStep] at h
    split at h
    · cases h
    · rcases List.mem_append.1 h with h | h
      · exact List.mem_append_left _ (ih h)
      · exact List.mem_append_right _ h

theorem callsStep_of_not_plan {e : Effect} (h : e.isPlan = false) (calls : List SignedCall) :
    callsStep calls e = calls := by
  cases e <;> first | rfl | cases h

theorem chainStep_of_not_plan {e : Effect} (h : e.isPlan = false) (calls : List SignedCall) :
    chainStep calls e = calls := by
  cases e <;> first | rfl | cases h

/-- A fold that only planning effects move can be taken over the planning effects. -/
theorem foldl_planEffects {σ : Type*} {step : σ → Effect → σ}
    (h : ∀ e, e.isPlan = false → ∀ s, step s e = s) (s : σ) (t : List Effect) :
    (planEffects t).foldl step s = t.foldl step s := by
  induction t generalizing s with
  | nil => rfl
  | cons e t ih =>
    unfold planEffects at ih ⊢
    by_cases he : e.isPlan = true
    · simp only [List.filter_cons, he, if_true, List.foldl_cons]
      exact ih _
    · have hfalse : e.isPlan = false := by simpa using he
      simp only [List.filter_cons, hfalse, Bool.false_eq_true, if_false, List.foldl_cons]
      rw [h e hfalse s]
      exact ih s

theorem periodCalls_planEffects (t : List Effect) : periodCalls (planEffects t) = periodCalls t :=
  foldl_planEffects (fun _ he s => callsStep_of_not_plan he s) [] t

theorem currentChain_planEffects (t : List Effect) :
    currentChain (planEffects t) = currentChain t :=
  foldl_planEffects (fun _ he s => chainStep_of_not_plan he s) [] t

@[simp] theorem periodCalls_nil : periodCalls [] = [] := rfl

@[simp] theorem currentChain_nil : currentChain [] = [] := rfl

theorem periodCalls_append (t u : List Effect) :
    periodCalls (t ++ u) = u.foldl callsStep (periodCalls t) := by
  simp [periodCalls, List.foldl_append]

theorem currentChain_append (t u : List Effect) :
    currentChain (t ++ u) = u.foldl chainStep (currentChain t) := by
  simp [currentChain, List.foldl_append]

@[simp] theorem periodCalls_signed (t : List Effect) (call : SignedCall) :
    periodCalls (t ++ [.signed call]) = periodCalls t ++ [call] := by
  rw [periodCalls_append]
  rfl

@[simp] theorem periodCalls_froze (t : List Effect) (tail : Nat) (restarting : Bool) :
    periodCalls (t ++ [.froze tail restarting]) = periodCalls t := by
  rw [periodCalls_append]
  rfl

@[simp] theorem periodCalls_reset (t : List Effect) : periodCalls (t ++ [.reset]) = [] := by
  rw [periodCalls_append]
  rfl

theorem currentChain_first {call : SignedCall} (h : call.kind = .firstCommit) (t : List Effect) :
    currentChain (t ++ [.signed call]) = [call] := by
  rw [currentChain_append]
  simp [chainStep, h]

theorem currentChain_later {call : SignedCall} (h : call.kind ≠ .firstCommit) (t : List Effect) :
    currentChain (t ++ [.signed call]) = currentChain t ++ [call] := by
  rw [currentChain_append]
  simp [chainStep, h]

@[simp] theorem currentChain_froze (t : List Effect) (tail : Nat) (restarting : Bool) :
    currentChain (t ++ [.froze tail restarting]) = currentChain t := by
  rw [currentChain_append]
  rfl

@[simp] theorem currentChain_reset (t : List Effect) : currentChain (t ++ [.reset]) = [] := by
  rw [currentChain_append]
  rfl

/-- A period with calls has a newest chain. -/
theorem currentChain_eq_nil {t : List Effect} : currentChain t = [] ↔ periodCalls t = [] := by
  induction t using List.reverseRecOn with
  | nil => simp
  | append_singleton t e ih =>
    rw [currentChain_append, periodCalls_append]
    cases e with
    | signed call =>
      simp only [List.foldl_cons, List.foldl_nil, callsStep, chainStep]
      split <;> simp
    | reset => simp [callsStep, chainStep]
    | _ => simpa [callsStep, chainStep] using ih

/-- The calls of a period are those signed in it. -/
theorem mem_periodCalls_append {t u : List Effect} {signed : SignedCall}
    (h : signed ∈ periodCalls (t ++ u)) (hreset : Effect.reset ∉ u) :
    signed ∈ periodCalls t ∨ Effect.signed signed ∈ u := by
  induction u using List.reverseRecOn with
  | nil => simpa using h
  | append_singleton u e ih =>
    rw [← List.append_assoc, periodCalls_append] at h
    have hu : Effect.reset ∉ u := fun hmem => hreset (List.mem_append_left _ hmem)
    have hold : signed ∈ periodCalls (t ++ u) →
        signed ∈ periodCalls t ∨ Effect.signed signed ∈ u ++ [e] := by
      intro hmem
      rcases ih hmem hu with hmem | hmem
      · exact .inl hmem
      · exact .inr (List.mem_append_left _ hmem)
    cases e with
    | signed call =>
      rcases List.mem_append.1 h with h | h
      · exact hold h
      · rw [List.mem_singleton.1 h]
        exact .inr (by simp)
    | reset => simp at hreset
    | _ => exact hold h

/-- Within a period calls are only added. -/
theorem periodCalls_isPrefix {u : List Effect} (h : Effect.reset ∉ u) (t : List Effect) :
    periodCalls t <+: periodCalls (t ++ u) := by
  induction u using List.reverseRecOn with
  | nil => simp
  | append_singleton u e ih =>
    have hu : Effect.reset ∉ u := fun hmem => h (List.mem_append_left _ hmem)
    rw [← List.append_assoc, periodCalls_append]
    refine (ih hu).trans ?_
    cases e with
    | signed call => exact List.prefix_append _ _
    | reset => simp at h
    | _ => exact List.prefix_rfl

theorem signed_mem_of_periodCalls {t : List Effect} {signed : SignedCall}
    (h : signed ∈ periodCalls t) : Effect.signed signed ∈ t := by
  induction t using List.reverseRecOn with
  | nil => cases h
  | append_singleton t e ih =>
    by_cases he : e = .reset
    · rw [he, periodCalls_reset] at h
      cases h
    · rcases mem_periodCalls_append h (by simpa [eq_comm] using he) with h | h
      · exact List.mem_append_left _ (ih h)
      · exact List.mem_append_right _ h

/-! ## Acceptance -/

theorem acceptedIn_append {u : List Effect} (h : Effect.reset ∉ u) (t : List Effect)
    (target : Nat) : AcceptedIn (t ++ u) target ↔
      AcceptedIn t target ∨ ∃ kind, Effect.harvested target kind false .ok ∈ u := by
  unfold AcceptedIn
  rw [period_append h]
  simp only [List.mem_append, exists_or]

/-- Effects without a reset and without an acceptance. -/
theorem acceptedIn_append_of_quiet {u : List Effect} (hreset : Effect.reset ∉ u)
    (hquiet : ∀ target kind, Effect.harvested target kind false .ok ∉ u) (t : List Effect)
    (target : Nat) : AcceptedIn (t ++ u) target ↔ AcceptedIn t target := by
  rw [acceptedIn_append hreset]
  simp [hquiet]

/-- Effects that plan nothing keep the signed calls. -/
theorem periodCalls_append_of_not_plan {u : List Effect} (h : planEffects u = [])
    (t : List Effect) : periodCalls (t ++ u) = periodCalls t := by
  rw [periodCalls_append, ← foldl_planEffects (fun _ he s => callsStep_of_not_plan he s), h]
  rfl

theorem currentChain_append_of_not_plan {u : List Effect} (h : planEffects u = [])
    (t : List Effect) : currentChain (t ++ u) = currentChain t := by
  rw [currentChain_append, ← foldl_planEffects (fun _ he s => chainStep_of_not_plan he s), h]
  rfl

/-- The signed calls of a trace. -/
def signedCalls (t : List Effect) : List SignedCall :=
  t.filterMap fun
    | .signed call => some call
    | _ => none

theorem mem_signedCalls {t : List Effect} {call : SignedCall} :
    call ∈ signedCalls t ↔ Effect.signed call ∈ t := by
  unfold signedCalls
  rw [List.mem_filterMap]
  constructor
  · rintro ⟨e, he, hcall⟩
    cases e <;> first | cases hcall; exact he | cases hcall
  · intro h
    exact ⟨_, h, rfl⟩

end RandomClient
