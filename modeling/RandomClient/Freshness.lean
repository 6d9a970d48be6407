import RandomClient.Steps

/-!
# Fresh absence

A slot in Waiting or Restarting starts a chain only after a status that reports
it absent and was requested late enough. The freshness boundary says how late:
`boundaries` records every boundary set since the slot entered Waiting or
Restarting, and `FreshInv` relates the record to the slot.
-/

namespace RandomClient

variable {cfg : Config}

/-- The freshness boundary and the absence flag of a slot that waits for absence. -/
def SlotState.freshness : SlotState → Option (Nat × Bool)
  | .waiting absenceAfterTick absenceObserved
  | .restarting _ absenceAfterTick absenceObserved _ => some (absenceAfterTick, absenceObserved)
  | .starting _ | .active | .draining _ _ | .drained _ => none

/-- The freshness an operation leaves, if it leaves the slot waiting for absence. -/
def freshnessAfter (key : SlotKey) : SlotOp → Option (Nat × Bool) → Option (Nat × Bool)
  | .reset, _ => some (0, false)
  | .applyStatus observation, some (absenceAfterTick, absenceObserved) =>
    some (observeFreshness absenceAfterTick absenceObserved (observation.observedTarget key)
      observation.requestedTick)
  | .applyStatus observation, none =>
    match observation.observedTarget key with
    | none => some (observation.requestedTick, true)
    | some _ => some (saturatingAdd observation.requestedTick 1, false)
  | .expireCalls currentTick, none | .extendChain _ currentTick, none =>
    some (saturatingAdd currentTick 1, false)
  | _, freshness => freshness

/-! ## What each operation does to the freshness -/

theorem suspicionAfter_evidence (suspicion : Option StatusSuspicion) (evidence : StatusEvidence)
    {requestedTick : Nat} (h : isStale suspicion requestedTick = false) :
    (suspicionAfter suspicion evidence requestedTick).evidence = evidence ∧
      (suspicionAfter suspicion evidence requestedTick).lastRequestedTick = requestedTick := by
  cases suspicion with
  | none => exact ⟨rfl, rfl⟩
  | some current =>
    have hnew : ¬ requestedTick ≤ current.lastRequestedTick := by simpa [isStale] using h
    simp only [suspicionAfter, StatusSuspicion.observe, if_neg hnew]
    split <;> exact ⟨rfl, rfl⟩

/-- The freshness a freeze leaves, by the kind of the evidence. -/
def frozenFreshness (evidence : StatusEvidence) (requestedTick : Nat) : Nat × Bool :=
  match evidence with
  | .absent => (requestedTick, true)
  | .foreign _ | .lag _ => (saturatingAdd requestedTick 1, false)

theorem beginStatusRestart_freshness (after : Nat) (observed : Bool) (slot : ManagedSlot) :
    (beginStatusRestart after observed slot).slot.state.freshness = none ∨
      (beginStatusRestart after observed slot).slot.state.freshness = slot.state.freshness ∨
      (beginStatusRestart after observed slot).slot.state.freshness = some (after, observed) := by
  unfold beginStatusRestart
  split
  · exact .inr (.inl rfl)
  · split
    · exact .inl rfl
    · exact .inr (.inr rfl)

theorem observeStatusEvidence_freshness (evidence : StatusEvidence) (requestedTick : Nat)
    {slot : ManagedSlot} (hplanning : slot.state.freshness = none) :
    (observeStatusEvidence evidence requestedTick slot).slot.state.freshness = none ∨
      (observeStatusEvidence evidence requestedTick slot).slot.state.freshness =
        some (frozenFreshness evidence requestedTick) := by
  unfold observeStatusEvidence
  split
  · exact .inl hplanning
  · rename_i chain hchain
    split
    · exact .inl hplanning
    · rename_i hstale
      obtain ⟨hevidence, hlast⟩ := suspicionAfter_evidence chain.statusSuspicion evidence
        (by simpa using hstale)
      have hboundary : confirmedBoundary
          (suspicionAfter chain.statusSuspicion evidence requestedTick) =
            frozenFreshness evidence requestedTick := by
        unfold confirmedBoundary frozenFreshness
        cases evidence <;> simp only [hevidence, hlast]
      dsimp only
      split
      · rw [hboundary]
        rcases beginStatusRestart_freshness (frozenFreshness evidence requestedTick).1
          (frozenFreshness evidence requestedTick).2 { slot with chain := some { chain with
            statusSuspicion := some (suspicionAfter chain.statusSuspicion evidence requestedTick) } }
          with hnone | hsame | hfrozen
        · exact .inl hnone
        · exact .inl (hsame.trans hplanning)
        · exact .inr hfrozen
      · exact .inl hplanning

theorem applyConfirmationWatermark_freshness (confirmedTick requestedTick : Nat)
    {slot : ManagedSlot} (hplanning : slot.state.freshness = none) :
    (applyConfirmationWatermark confirmedTick requestedTick slot).slot.state.freshness = none ∨
      (applyConfirmationWatermark confirmedTick requestedTick slot).slot.state.freshness =
        some (saturatingAdd requestedTick 1, false) := by
  unfold applyConfirmationWatermark applyAcknowledgement
  split
  · exact .inl hplanning
  · split
    · exact .inl hplanning
    · exact .inl hplanning
    · exact observeStatusEvidence_freshness _ requestedTick hplanning

theorem applyStatus_freshness (observation : StatusObservation) (slot : ManagedSlot) :
    (applyStatus observation slot).slot.state.freshness = none ∨
      (applyStatus observation slot).slot.state.freshness =
        freshnessAfter slot.key (.applyStatus observation) slot.state.freshness := by
  cases hstate : slot.state with
  | waiting after observed =>
    simp only [applyStatus, hstate]
    exact .inr rfl
  | restarting tail after observed drain =>
    simp only [applyStatus, hstate]
    exact .inr rfl
  | draining reason target =>
    simp only [applyStatus, hstate]
    exact .inl rfl
  | drained outcome =>
    simp only [applyStatus, hstate]
    exact .inl rfl
  | starting first =>
    have hnone : slot.state.freshness = none := by rw [hstate]; rfl
    rw [hstate.symm, hnone]
    simp only [applyStatus, hstate, freshnessAfter]
    cases hobserved : observation.observedTarget slot.key with
    | none =>
      dsimp only
      split
      · exact observeStatusEvidence_freshness .absent observation.requestedTick hnone
      · exact .inl hnone
    | some target =>
      dsimp only
      split
      · exact applyConfirmationWatermark_freshness target observation.requestedTick rfl
      · split
        · exact observeStatusEvidence_freshness (.foreign target) observation.requestedTick hnone
        · exact .inl hnone
  | active =>
    have hnone : slot.state.freshness = none := by rw [hstate]; rfl
    rw [hstate.symm, hnone]
    simp only [applyStatus, hstate, freshnessAfter]
    cases hobserved : observation.observedTarget slot.key with
    | none =>
      exact observeStatusEvidence_freshness .absent observation.requestedTick hnone
    | some target =>
      dsimp only
      split
      · exact applyConfirmationWatermark_freshness target observation.requestedTick hnone
      · exact observeStatusEvidence_freshness (.foreign target) observation.requestedTick hnone

theorem loseChain_freshness (after : Nat) (slot : ManagedSlot) :
    (loseChain after false slot).slot.state.freshness = none ∨
      (loseChain after false slot).slot.state.freshness = some (after, false) := by
  unfold loseChain
  dsimp only
  split
  · exact .inl rfl
  · exact .inr rfl

theorem expireCalls_freshness (currentTick : Nat) (slot : ManagedSlot) :
    (expireCalls currentTick slot).slot.state.freshness = none ∨
      (expireCalls currentTick slot).slot.state.freshness =
        freshnessAfter slot.key (.expireCalls currentTick) slot.state.freshness := by
  have hkeep : slot.state.freshness = none ∨
      slot.state.freshness =
        freshnessAfter slot.key (.expireCalls currentTick) slot.state.freshness := by
    cases h : slot.state.freshness with
    | none => exact .inl rfl
    | some fresh => exact .inr rfl
  unfold expireCalls
  split
  · exact hkeep
  · dsimp only
    split
    · exact hkeep
    · split
      · rename_i hstate
        rw [hstate]
        exact loseChain_freshness _ _
      · rename_i hstate
        rw [hstate]
        exact loseChain_freshness _ _
      · exact .inl rfl
      · exact hkeep
      · exact hkeep
      · exact hkeep

theorem extendChain_freshness (env : SigningEnv) (currentTick : Nat) (slot : ManagedSlot) :
    (extendChain cfg env currentTick slot).slot.state.freshness = none ∨
      (extendChain cfg env currentTick slot).slot.state.freshness =
        freshnessAfter slot.key (.extendChain env currentTick) slot.state.freshness := by
  have hkeep : slot.state.freshness = none ∨
      slot.state.freshness =
        freshnessAfter slot.key (.extendChain env currentTick) slot.state.freshness := by
    cases h : slot.state.freshness with
    | none => exact .inl rfl
    | some fresh => exact .inr rfl
  unfold extendChain
  split
  · rename_i hplanning
    split
    · simp only [SlotResult.followedBy]
      have hnone : slot.state.freshness = none := by
        cases hstate : slot.state <;> simp_all [SlotState.isPlanning, SlotState.freshness]
      split
      · rw [hnone]
        exact loseChain_freshness _ _
      · have hexpired := expireCalls_freshness currentTick slot
        rw [hnone] at hexpired ⊢
        exact hexpired
    · split
      · exact hkeep
      · split
        · exact hkeep
        · exact hkeep
  · exact hkeep

/-- The operations that change no freshness except by ending the wait. -/
theorem freshness_of_same {slot slot' : ManagedSlot} {op : SlotOp}
    (hop : ∀ freshness, freshnessAfter slot.key op freshness = freshness)
    (h : slot'.state.freshness = none ∨ slot'.state.freshness = slot.state.freshness) :
    slot'.state.freshness = none ∨
      slot'.state.freshness = freshnessAfter slot.key op slot.state.freshness := by
  rw [hop]
  exact h

theorem enterDrain_freshness (env : SigningEnv) (reason : DrainReason) (slot : ManagedSlot) :
    (enterDrain cfg env reason slot).slot.state.freshness = none ∨
      (enterDrain cfg env reason slot).slot.state.freshness = slot.state.freshness := by
  cases hstate : slot.state with
  | draining reason' target =>
    simp only [enterDrain, hstate]
    exact .inl rfl
  | drained outcome =>
    simp only [enterDrain, hstate]
    exact .inl rfl
  | waiting after observed =>
    simp only [enterDrain, hstate]
    exact .inl rfl
  | restarting tail after observed drain =>
    simp only [enterDrain, hstate]
    exact .inr rfl
  | starting _ | active =>
    left
    simp only [enterDrain, hstate]
    repeat' split
    all_goals first | rfl | simp [hstate, SlotState.freshness]

theorem startIfReady_freshness (env : SigningEnv) (currentTick : Nat) (slot : ManagedSlot) :
    (startIfReady cfg env currentTick slot).slot.state.freshness = none ∨
      (startIfReady cfg env currentTick slot).slot.state.freshness = slot.state.freshness := by
  unfold startIfReady
  split
  · split
    · exact .inr rfl
    · split
      · exact .inr rfl
      · dsimp only
        split
        · exact .inr rfl
        · exact .inl rfl
  · exact .inr rfl

theorem finishDrain_freshness (slot : ManagedSlot) :
    (finishDrain slot).slot.state.freshness = none ∨
      (finishDrain slot).slot.state.freshness = slot.state.freshness := by
  unfold finishDrain
  dsimp only
  split
  · split
    · exact .inl rfl
    · exact .inl rfl
    · exact .inr rfl
  · exact .inr rfl

theorem finishStatusRestart_freshness (currentTick : Nat) (slot : ManagedSlot) :
    (finishStatusRestart currentTick slot).slot.state.freshness = none ∨
      (finishStatusRestart currentTick slot).slot.state.freshness = slot.state.freshness := by
  cases hstate : slot.state with
  | restarting tail after observed drain =>
    simp only [finishStatusRestart, hstate]
    split
    · right
      rw [hstate]
    · cases drain with
      | none => exact .inr rfl
      | some reason => exact .inl rfl
  | _ =>
    right
    simp only [finishStatusRestart, hstate]

/-- An operation leaves the slot not waiting for absence, or with the freshness
`freshnessAfter` says. -/
theorem SlotOp.freshness (op : SlotOp) (slot : ManagedSlot) :
    (op.run cfg slot).slot.state.freshness = none ∨
      (op.run cfg slot).slot.state.freshness =
        freshnessAfter slot.key op slot.state.freshness := by
  cases op with
  | reset => exact .inr rfl
  | applyStatus observation => exact applyStatus_freshness observation slot
  | expireCalls currentTick => exact expireCalls_freshness currentTick slot
  | extendChain env currentTick => exact extendChain_freshness env currentTick slot
  | harvestBroadcasts results =>
    exact freshness_of_same (fun _ => rfl) (.inr (by rw [SlotOp.run, harvestBroadcasts_state]))
  | dispatchCalls currentTick tickDurationMs =>
    exact freshness_of_same (fun _ => rfl) (.inr (by rw [SlotOp.run, dispatchCalls_state]))
  | pruneCalls currentTick =>
    exact freshness_of_same (fun _ => rfl) (.inr (by rw [SlotOp.run, pruneCalls_state]))
  | enterDrain env reason => exact freshness_of_same (fun _ => rfl) (enterDrain_freshness env reason slot)
  | startIfReady env currentTick =>
    exact freshness_of_same (fun _ => rfl) (startIfReady_freshness env currentTick slot)
  | finishDrain => exact freshness_of_same (fun _ => rfl) (finishDrain_freshness slot)
  | finishStatusRestart currentTick =>
    exact freshness_of_same (fun _ => rfl) (finishStatusRestart_freshness currentTick slot)

/-! ## The boundaries of a wait -/

/-- The freshness boundary an operation sets: one past the tick at which a
chain is lost to a missed target, the request tick of a confirmed absence, one
past the request tick of other confirmed evidence and of every report that
shows the waiting slot occupied. -/
def boundarySet (cfg : Config) (slot : ManagedSlot) (op : SlotOp) : Option Nat :=
  if (op.run cfg slot).slot.state.freshness.isSome then
    match op with
    | .expireCalls currentTick | .extendChain _ currentTick =>
      if slot.state.freshness.isSome then none else some (saturatingAdd currentTick 1)
    | .applyStatus observation =>
      match observation.observedTarget slot.key with
      | some _ => some (saturatingAdd observation.requestedTick 1)
      | none => if slot.state.freshness.isSome then none else some observation.requestedTick
    | _ => none
  else none

def SlotOp.isReset : SlotOp → Bool
  | .reset => true
  | _ => false

/-- The boundaries since the slot began to wait, an epoch change being a new beginning. -/
def recordBoundary (cfg : Config) (slot : ManagedSlot) (op : SlotOp) (boundaries : List Nat) :
    List Nat :=
  (if slot.state.freshness.isSome ∧ ¬ op.isReset then boundaries else []) ++
    (boundarySet cfg slot op).toList

/-- Every freshness boundary set since the slot last entered Waiting or Restarting. -/
def boundaries (cfg : Config) (i : Fin 3) (ops : List SlotOp) : List Nat :=
  (slotMachine cfg).track (recordBoundary cfg) (slot₀ cfg i) [] ops

/-- In the running epoch the slot was reported absent by a status requested at
the tick or later, and never occupied after it. -/
def AbsentSince (ops : List SlotOp) (key : SlotKey) (tick : Nat) : Prop :=
  ∃ pre observation post, ops = pre ++ .applyStatus observation :: post ∧
    observation.observedTarget key = none ∧ tick ≤ observation.requestedTick ∧
    .reset ∉ post ∧ ∀ later, .applyStatus later ∈ post → later.observedTarget key = none

theorem AbsentSince.snoc {ops : List SlotOp} {key : SlotKey} {tick : Nat} {op : SlotOp}
    (h : AbsentSince ops key tick) (hreset : op.isReset = false)
    (habsent : ∀ later, op = .applyStatus later → later.observedTarget key = none) :
    AbsentSince (ops ++ [op]) key tick := by
  obtain ⟨pre, observation, post, rfl, hobserved, hle, hnoReset, hlater⟩ := h
  refine ⟨pre, observation, post ++ [op], by simp, hobserved, hle, ?_, ?_⟩
  · intro hmem
    rcases List.mem_append.1 hmem with hmem | hmem
    · exact hnoReset hmem
    · rw [← List.mem_singleton.1 hmem] at hreset
      cases hreset
  · intro later hmem
    rcases List.mem_append.1 hmem with hmem | hmem
    · exact hlater later hmem
    · exact habsent later (List.mem_singleton.1 hmem).symm

theorem AbsentSince.now {ops : List SlotOp} {key : SlotKey} {observation : StatusObservation}
    {tick : Nat} (hobserved : observation.observedTarget key = none)
    (hle : tick ≤ observation.requestedTick) :
    AbsentSince (ops ++ [.applyStatus observation]) key tick :=
  ⟨ops, observation, [], rfl, hobserved, hle, by simp, by simp⟩

/-- What the freshness of a slot says about the operations so far: the boundary
is the largest one set since the wait began, and the flag is raised by an
absence requested at the boundary or later. -/
structure FreshInv (key : SlotKey) (ops : List SlotOp) (slot : ManagedSlot)
    (boundaries : List Nat) : Prop where
  key_eq : slot.key = key
  waiting : ∀ after observed, slot.state.freshness = some (after, observed) →
    boundaries.foldl max 0 = after ∧ (observed = true → AbsentSince ops key after)

/-- An operation that keeps a waiting slot as it was and sets no boundary. -/
theorem FreshInv.carry {key : SlotKey} {ops : List SlotOp} {slot : ManagedSlot}
    {boundaries : List Nat} (h : FreshInv key ops slot boundaries) {op : SlotOp} {after : Nat}
    {observed : Bool} (hbefore : slot.state.freshness = some (after, observed))
    (hset : boundarySet cfg slot op = none) (hreset : op.isReset = false)
    (hstatus : ∀ later, op ≠ .applyStatus later) :
    (recordBoundary cfg slot op boundaries).foldl max 0 = after ∧
      (observed = true → AbsentSince (ops ++ [op]) key after) := by
  obtain ⟨hboundary, habsent⟩ := h.waiting _ _ hbefore
  refine ⟨by simpa [recordBoundary, hbefore, hreset, hset] using hboundary, fun hobserved => ?_⟩
  exact (habsent hobserved).snoc hreset fun later heq => absurd heq (hstatus later)

theorem FreshInv.step {key : SlotKey} {ops : List SlotOp} {slot : ManagedSlot}
    {boundaries : List Nat} (h : FreshInv key ops slot boundaries) (op : SlotOp)
    (hkey : (op.run cfg slot).slot.key = slot.key) :
    FreshInv key (ops ++ [op]) (op.run cfg slot).slot (recordBoundary cfg slot op boundaries) := by
  refine ⟨hkey.trans h.key_eq, ?_⟩
  intro after observed hsome
  have hafter : freshnessAfter key op slot.state.freshness = some (after, observed) := by
    rw [← h.key_eq, ← hsome]
    rcases op.freshness slot with hnone | hfresh
    · rw [hnone] at hsome
      cases hsome
    · exact hfresh.symm
  cases op with
  | reset =>
    cases hafter
    simp [recordBoundary, boundarySet, SlotOp.isReset]
  | applyStatus observation =>
    cases hbefore : slot.state.freshness with
    | none =>
      -- a freeze: the wait begins with its boundary
      rw [hbefore] at hafter
      cases hobserved : observation.observedTarget key with
      | none =>
        simp only [freshnessAfter, hobserved, Option.some.injEq, Prod.mk.injEq] at hafter
        obtain ⟨rfl, rfl⟩ := hafter
        refine ⟨?_, fun _ => .now hobserved le_rfl⟩
        simp [recordBoundary, boundarySet, hsome, hbefore, h.key_eq, hobserved]
      | some target =>
        simp only [freshnessAfter, hobserved, Option.some.injEq, Prod.mk.injEq] at hafter
        obtain ⟨rfl, rfl⟩ := hafter
        refine ⟨?_, fun hfalse => by cases hfalse⟩
        simp [recordBoundary, boundarySet, hsome, hbefore, h.key_eq, hobserved]
    | some fresh =>
      obtain ⟨before, observedBefore⟩ := fresh
      obtain ⟨hboundary, habsent⟩ := h.waiting _ _ hbefore
      rw [hbefore] at hafter
      cases hobserved : observation.observedTarget key with
      | none =>
        -- an absence keeps the boundary, and counts from the boundary on
        have hset : boundarySet cfg slot (.applyStatus observation) = none := by
          simp [boundarySet, hsome, hbefore, h.key_eq, hobserved]
        have hrecord : recordBoundary cfg slot (.applyStatus observation) boundaries =
            boundaries := by
          simp [recordBoundary, hbefore, hset, SlotOp.isReset]
        rw [hrecord]
        simp only [freshnessAfter, observeFreshness, hobserved] at hafter
        split at hafter
        · rename_i hle
          cases hafter
          exact ⟨hboundary, fun _ => .now hobserved hle⟩
        · cases hafter
          refine ⟨hboundary, fun htrue => (habsent htrue).snoc rfl ?_⟩
          intro later heq
          cases heq
          exact hobserved
      | some target =>
        -- an occupied report raises the boundary
        have hset : boundarySet cfg slot (.applyStatus observation) =
            some (saturatingAdd observation.requestedTick 1) := by
          simp [boundarySet, hsome, h.key_eq, hobserved]
        simp only [freshnessAfter, observeFreshness, hobserved, Option.some.injEq,
          Prod.mk.injEq] at hafter
        obtain ⟨rfl, rfl⟩ := hafter
        refine ⟨?_, fun hfalse => by cases hfalse⟩
        simp [recordBoundary, hbefore, hset, SlotOp.isReset, hboundary]
  | expireCalls currentTick | extendChain _ currentTick =>
    cases hbefore : slot.state.freshness with
    | none =>
      -- the chain is lost to a missed target
      rw [hbefore] at hafter
      cases hafter
      simp [recordBoundary, boundarySet, hsome, hbefore]
    | some fresh =>
      rw [hbefore] at hafter
      cases hafter
      exact h.carry hbefore (by simp [boundarySet, hbefore]) rfl (by simp)
  | harvestBroadcasts _ | enterDrain _ _ | startIfReady _ _ | dispatchCalls _ _ | finishDrain
  | finishStatusRestart _ | pruneCalls _ =>
    exact h.carry hafter (by simp [boundarySet]) rfl (by simp)

theorem freshInv (i : Fin 3) (ops : List SlotOp) :
    FreshInv (slot₀ cfg i).key ops ((slotMachine cfg).state (slot₀ cfg i) ops)
      (boundaries cfg i ops) := by
  refine (slotMachine cfg).track_invariant (recordBoundary cfg) (slot₀ cfg i) []
    (FreshInv (slot₀ cfg i).key) ⟨rfl, ?_⟩ ?_ ops
  · intro after observed hfresh
    cases hfresh
    exact ⟨rfl, fun hobserved => by cases hobserved⟩
  · intro ops slot boundaries op h
    have hstream : slot.key.stream < streamCount := by
      rw [h.key_eq]
      exact i.isLt
    exact h.step op (op.steps hstream).key

/-! ## Starting a chain -/

theorem le_foldl_max {boundaries : List Nat} {boundary : Nat} (h : boundary ∈ boundaries) :
    boundary ≤ boundaries.foldl max 0 := by
  induction boundaries using List.reverseRecOn with
  | nil => cases h
  | append_singleton boundaries last ih =>
    rw [List.foldl_append]
    rcases List.mem_append.1 h with h | h
    · exact (ih h).trans (le_max_left _ _)
    · rw [List.mem_singleton.1 h]
      exact le_max_right _ _

theorem startIfReady_ready {env : SigningEnv} {currentTick : Nat} {slot : ManagedSlot}
    {call : SignedCall} (h : Effect.signed call ∈ (startIfReady cfg env currentTick slot).effects) :
    (∃ after, slot.state = .waiting after true) ∨
      ∃ tail after, slot.state = .restarting tail after true none := by
  unfold startIfReady at h
  split at h
  · rename_i hready
    unfold SlotState.readyToStart at hready
    split at hready
    · exact .inl ⟨_, ‹_›⟩
    · exact .inr ⟨_, _, ‹_›⟩
    · cases hready
  · cases h

/-- The boundary moves forward while the slot waits. -/
theorem boundary_mono {op : SlotOp} {slot : ManagedSlot} {after after' : Nat}
    {observed observed' : Bool} (hop : op ≠ .reset)
    (hbefore : slot.state.freshness = some (after, observed))
    (hafter : (op.run cfg slot).slot.state.freshness = some (after', observed')) :
    after ≤ after' := by
  rcases @SlotOp.freshness cfg op slot with hnone | hfresh
  · rw [hnone] at hafter
    cases hafter
  · rw [hafter, hbefore] at hfresh
    cases op with
    | reset => exact absurd rfl hop
    | applyStatus observation =>
      simp only [freshnessAfter, observeFreshness] at hfresh
      repeat' split at hfresh
      all_goals cases hfresh
      · exact le_rfl
      · exact le_rfl
      · exact le_max_left _ _
    | _ =>
      cases hfresh
      exact le_rfl

/-- After all operations on a slot, those of every run among them: whenever a
chain is created the slot waits without a drain reason, and was reported absent
in the running epoch by a status requested at every freshness boundary of the
wait or later, and never occupied after it. The boundary of a slot is the largest
one of its wait and never decreases during it. -/
theorem fresh_absence (i : Fin 3) (ops : List SlotOp) (op : SlotOp) :
    let slot := (slotMachine cfg).state (slot₀ cfg i) ops
    (∀ call, Effect.signed call ∈ (op.run cfg slot).effects → call.kind = .firstCommit →
      ((∃ after, slot.state = .waiting after true) ∨
        ∃ tail after, slot.state = .restarting tail after true none) ∧
      ∃ pre observation post, ops = pre ++ .applyStatus observation :: post ∧
        observation.observedTarget
          { stream := i, collateralTier := collateralTier cfg.collateral } = none ∧
        (∀ boundary ∈ boundaries cfg i ops, boundary ≤ observation.requestedTick) ∧
        .reset ∉ post ∧
        ∀ later, .applyStatus later ∈ post → later.observedTarget
          { stream := i, collateralTier := collateralTier cfg.collateral } = none) ∧
    (∀ after observed, slot.state.freshness = some (after, observed) →
      (boundaries cfg i ops).foldl max 0 = after ∧
      ∀ after' observed', op ≠ .reset →
        (op.run cfg slot).slot.state.freshness = some (after', observed') → after ≤ after') := by
  intro slot
  have hinv : FreshInv (slot₀ cfg i).key ops slot (boundaries cfg i ops) := freshInv i ops
  refine ⟨?_, ?_⟩
  · intro call hsigned hkind
    rcases SlotOp.emits hsigned with hnote | hemits
    · cases hnote
    · cases hemits with
      | closes hclose =>
        rw [hkind] at hclose
        cases hclose
      | continues hcontinue =>
        rw [hkind] at hcontinue
        cases hcontinue
      | starts =>
        have hready := startIfReady_ready hsigned
        obtain ⟨after, hfresh⟩ : ∃ after, slot.state.freshness = some (after, true) := by
          rcases hready with ⟨after, hstate⟩ | ⟨tail, after, hstate⟩
          · exact ⟨after, by rw [hstate]; rfl⟩
          · exact ⟨after, by rw [hstate]; rfl⟩
        obtain ⟨hboundary, habsent⟩ := hinv.waiting _ _ hfresh
        obtain ⟨pre, observation, post, hsplit, hobserved, hle, hreset, hlater⟩ := habsent rfl
        refine ⟨hready, pre, observation, post, hsplit, hobserved, ?_, hreset, hlater⟩
        intro boundary hmem
        exact (le_foldl_max hmem).trans (hboundary.trans_le hle)
  · intro after observed hfresh
    refine ⟨(hinv.waiting _ _ hfresh).1, ?_⟩
    intro after' observed' hop hafter
    exact boundary_mono hop hfresh hafter

/-- In a run with no report of stream 1 its chain freezes at the third absence,
requested at tick 10, and the chain created next rests on that absence. -/
theorem fresh_absence_restart :
    let inputs := steadyRun [0, 1, 2, 3, 4, 5, 6, 7, 8, 9, 10, 11]
    let ops := (history sampleConfig sampleEngine inputs 1).take 101
    boundaries sampleConfig 1 ops = [10] ∧
      ∃ pre observation post, ops = pre ++ .applyStatus observation :: post ∧
        observation.observedTarget { stream := 1, collateralTier := 1 } = none ∧
        10 ≤ observation.requestedTick := by
  intro inputs ops
  have hbounds : boundaries sampleConfig 1 ops = [10] := by decide +kernel
  obtain ⟨op, -, call, hcall, hkind⟩ : ∃ op ∈ (history sampleConfig sampleEngine inputs 1)[101]?,
      ∃ call ∈ signedCalls (op.run sampleConfig
        ((slotMachine sampleConfig).state (slot₀ sampleConfig 1) ops)).effects,
          call.kind = .firstCommit := by decide +kernel
  have hresult := @fresh_absence sampleConfig 1 ops op
  obtain ⟨-, pre, observation, post, hsplit, hobserved, hle, -⟩ :=
    hresult.1 call (mem_signedCalls.1 hcall) hkind
  exact ⟨hbounds, pre, observation, post, hsplit, hobserved, hle 10 (by rw [hbounds]; simp)⟩

end RandomClient
