import RandomClient.Steps

/-!
# The slot refines the planner

`Represents` reads the planner's state off a slot. Every atomic change of the
slot is a run of the planner with the same planning effects
(`SlotStep.refines`), so the invariant of the planner holds of the trace of
every slot history (`slot_plan`).
-/

namespace RandomClient

variable {cfg : Config}

/-- The planner's state a slot stands for. -/
inductive Represents (slot : ManagedSlot) : PlanState → Prop where
  | waiting {after : Nat} {observed : Bool} (hstate : slot.state = .waiting after observed)
      (hchain : slot.chain = none) : Represents slot (.idle slot.restartAt)
  | planning {chain : Chain} (hstate : slot.state.isPlanning = true)
      (hfirst : ∀ first, slot.state = .starting first → first = chain.firstTarget)
      (hchain : slot.chain = some chain) :
      Represents slot (.live chain.firstTarget chain.lastTarget chain.outstandingPreimage)
  | restarting {chain : Chain} {after : Nat} {observed : Bool} {drain : Option DrainReason}
      (hstate : slot.state = .restarting chain.lastTarget after observed drain)
      (hrestart : slot.restartAt = chain.lastTarget + streamCount)
      (hchain : slot.chain = some chain) :
      Represents slot (.frozen chain.firstTarget chain.lastTarget chain.outstandingPreimage)
  | draining {chain : Chain} {reason : DrainReason}
      (hstate : slot.state = .draining reason (chain.lastTarget + streamCount))
      (hchain : slot.chain = some chain) :
      Represents slot
        (.closing chain.firstTarget chain.lastTarget chain.outstandingPreimage reason)
  | drained {outcome : DrainOutcome} (hstate : slot.state = .drained outcome)
      (hchain : slot.chain = none) : Represents slot .closed

/-! ## Reading a representation -/

section Inversion

variable {slot : ManagedSlot} {p : PlanState}

theorem Represents.of_planning (h : Represents slot p) (hstate : slot.state.isPlanning = true) :
    ∃ chain, slot.chain = some chain ∧
      (∀ first, slot.state = .starting first → first = chain.firstTarget) ∧
      p = .live chain.firstTarget chain.lastTarget chain.outstandingPreimage := by
  cases h with
  | planning _ hfirst hchain => exact ⟨_, hchain, hfirst, rfl⟩
  | waiting h => simp [h, SlotState.isPlanning] at hstate
  | restarting h => simp [h, SlotState.isPlanning] at hstate
  | draining h => simp [h, SlotState.isPlanning] at hstate
  | drained h => simp [h, SlotState.isPlanning] at hstate

theorem Represents.of_waiting (h : Represents slot p) {after : Nat} {observed : Bool}
    (hstate : slot.state = .waiting after observed) :
    slot.chain = none ∧ p = .idle slot.restartAt := by
  cases h with
  | waiting _ hchain => exact ⟨hchain, rfl⟩
  | planning h => simp [hstate, SlotState.isPlanning] at h
  | restarting h => simp [hstate] at h
  | draining h => simp [hstate] at h
  | drained h => simp [hstate] at h

theorem Represents.of_restarting (h : Represents slot p) {tail after : Nat} {observed : Bool}
    {drain : Option DrainReason} (hstate : slot.state = .restarting tail after observed drain) :
    ∃ chain, slot.chain = some chain ∧ tail = chain.lastTarget ∧
      slot.restartAt = chain.lastTarget + streamCount ∧
      p = .frozen chain.firstTarget chain.lastTarget chain.outstandingPreimage := by
  cases h with
  | restarting h hrestart hchain =>
    rw [hstate] at h
    cases h
    exact ⟨_, hchain, rfl, hrestart, rfl⟩
  | waiting h => simp [hstate] at h
  | planning h => simp [hstate, SlotState.isPlanning] at h
  | draining h => simp [hstate] at h
  | drained h => simp [hstate] at h

theorem Represents.of_draining (h : Represents slot p) {reason : DrainReason} {target : Nat}
    (hstate : slot.state = .draining reason target) :
    ∃ chain, slot.chain = some chain ∧ target = chain.lastTarget + streamCount ∧
      p = .closing chain.firstTarget chain.lastTarget chain.outstandingPreimage reason := by
  cases h with
  | draining h hchain =>
    rw [hstate] at h
    cases h
    exact ⟨_, hchain, rfl, rfl⟩
  | waiting h => simp [hstate] at h
  | planning h => simp [hstate, SlotState.isPlanning] at h
  | restarting h => simp [hstate] at h
  | drained h => simp [hstate] at h

theorem Represents.of_closing (h : Represents slot p) {first last : Nat} {outstanding : Preimage}
    {reason : DrainReason} (hp : p = .closing first last outstanding reason) :
    ∃ target, slot.state = .draining reason target := by
  cases h with
  | draining hstate =>
    cases hp
    exact ⟨_, hstate⟩
  | _ => cases hp

/-- A slot whose queue alone changes stands for the same planner state. -/
theorem Represents.with_calls {chain : Chain} (h : Represents slot p)
    (hchain : slot.chain = some chain) (calls : List PlannedCall) :
    Represents { slot with chain := some { chain with calls := calls } } p := by
  cases h with
  | waiting _ hnone => simp [hnone] at hchain
  | planning hstate hfirst hsome =>
    obtain rfl := Option.some.inj (hchain.symm.trans hsome)
    exact @Represents.planning _ { chain with calls := calls } hstate hfirst rfl
  | restarting hstate hrestart hsome =>
    obtain rfl := Option.some.inj (hchain.symm.trans hsome)
    exact @Represents.restarting _ { chain with calls := calls } _ _ _ hstate hrestart rfl
  | draining hstate hsome =>
    obtain rfl := Option.some.inj (hchain.symm.trans hsome)
    exact @Represents.draining _ { chain with calls := calls } _ hstate rfl
  | drained _ hnone => simp [hnone] at hchain

/-- A slot ready to start stands for a planner that may sign a first commit. -/
theorem Represents.of_ready (h : Represents slot p) (hready : slot.state.readyToStart = true) :
    p = .idle slot.restartAt ∨ ∃ first last outstanding,
      p = .frozen first last outstanding ∧ slot.restartAt = last + streamCount := by
  cases h with
  | waiting => exact .inl rfl
  | restarting _ hrestart => exact .inr ⟨_, _, _, rfl, hrestart⟩
  | planning h =>
    cases hstate : slot.state <;> simp_all [SlotState.isPlanning, SlotState.readyToStart]
  | draining h => simp [h, SlotState.readyToStart] at hready
  | drained h => simp [h, SlotState.readyToStart] at hready

/-- A slot with a chain stands for a planner with that chain. -/
theorem Represents.of_chain (h : Represents slot p) {chain : Chain}
    (hchain : slot.chain = some chain) :
    (slot.state.isDraining = false ∧
      (p = .live chain.firstTarget chain.lastTarget chain.outstandingPreimage ∨
        p = .frozen chain.firstTarget chain.lastTarget chain.outstandingPreimage)) ∨
    ∃ reason, slot.state = .draining reason (chain.lastTarget + streamCount) ∧
      p = .closing chain.firstTarget chain.lastTarget chain.outstandingPreimage reason := by
  cases h with
  | waiting _ hnone => simp [hnone] at hchain
  | planning hstate _ hsome =>
    obtain rfl := Option.some.inj (hchain.symm.trans hsome)
    refine .inl ⟨?_, .inl rfl⟩
    cases hs : slot.state <;> simp_all [SlotState.isPlanning, SlotState.isDraining]
  | restarting hstate _ hsome =>
    obtain rfl := Option.some.inj (hchain.symm.trans hsome)
    exact .inl ⟨by simp [hstate, SlotState.isDraining], .inr rfl⟩
  | draining hstate hsome =>
    obtain rfl := Option.some.inj (hchain.symm.trans hsome)
    exact .inr ⟨_, hstate, rfl⟩
  | drained _ hnone => simp [hnone] at hchain

theorem Represents.hasChain (h : Represents slot p) {chain : Chain}
    (hchain : slot.chain = some chain) : p.HasChain chain.firstTarget chain.lastTarget := by
  rcases h.of_chain hchain with ⟨-, rfl | rfl⟩ | ⟨_, -, rfl⟩
  · exact .live
  · exact .frozen
  · exact .closing

end Inversion

/-! ## The simulation -/

/-- The effects of a sweep leave planning alone. -/
theorem planEffects_harvest (shutdownDrain : Bool) (results : Nat → Option Delivery)
    (calls : List PlannedCall) :
    planEffects (calls.flatMap (harvestEffects shutdownDrain results)) = [] := by
  refine List.filter_eq_nil_iff.2 (fun e he => ?_)
  obtain ⟨call, -, he⟩ := List.mem_flatMap.1 he
  unfold harvestEffects at he
  split at he <;> simp_all [Effect.isPlan]

theorem planEffects_dispatch (ctx : DispatchContext) (tickDurationMs : Nat)
    (calls : List PlannedCall) :
    planEffects (calls.flatMap (dispatchEffects ctx tickDurationMs)) = [] := by
  refine List.filter_eq_nil_iff.2 (fun e he => ?_)
  obtain ⟨call, -, he⟩ := List.mem_flatMap.1 he
  unfold dispatchEffects at he
  split at he
  · cases he
  · cases he
  · split at he <;> simp at he
    · simp [he, Effect.isPlan]
    · rcases he with rfl | rfl <;> simp [Effect.isPlan]

theorem planEffects_notes {effects : List Effect} (h : ∀ e ∈ effects, e.isNote = true) :
    planEffects effects = [] := by
  refine List.filter_eq_nil_iff.2 (fun e he => ?_)
  have hnote := h e he
  cases e <;> simp_all [Effect.isNote, Effect.isPlan]

theorem SlotStep.refines {slot slot' : ManagedSlot} {u : List Effect} {p : PlanState}
    (hr : Represents slot p) (h : SlotStep cfg slot u slot') :
    ∃ p', PlanRun cfg slot.key.stream p (planEffects u) p' ∧ Represents slot' p' := by
  cases h with
  | note h =>
    rw [planEffects_notes h]
    exact ⟨p, .nil, hr⟩
  | reset => exact ⟨_, .single .reset, .waiting rfl rfl⟩
  | start hready hcall =>
    rename_i call next
    have hnew : Represents { slot with
        chain := some (freshChain slot.queue call next), state := .starting call.targetTick }
        (.live call.targetTick call.targetTick next) :=
      @Represents.planning _ (freshChain slot.queue call next) rfl
        (fun first h => by cases h; rfl) rfl
    rcases hr.of_ready hready with rfl | ⟨first, last, outstanding, rfl, hrestart⟩
    · exact ⟨_, .single (.start hcall), hnew⟩
    · rw [hrestart] at hcall
      exact ⟨_, .single (.restart hcall), hnew⟩
  | extend hstate hchain hcall =>
    rename_i chain call next
    obtain ⟨chain', hchain', hfirst, rfl⟩ := hr.of_planning hstate
    obtain rfl := Option.some.inj (hchain.symm.trans hchain')
    exact ⟨_, .single (.extend hcall),
      @Represents.planning _ (chain.extendBy call next) hstate hfirst rfl⟩
  | close hstate hchain hcall =>
    rename_i chain reason call
    obtain ⟨chain', hchain', -, rfl⟩ := hr.of_planning hstate
    obtain rfl := Option.some.inj (hchain.symm.trans hchain')
    refine ⟨_, .single (.close hcall), ?_⟩
    rw [hcall.target]
    exact @Represents.draining _ { chain with calls := chain.calls ++ [call.planned] } _ rfl rfl
  | watch hstate hchain hnext =>
    rename_i chain state confirmed suspicion
    obtain ⟨chain', hchain', hfirst, rfl⟩ := hr.of_planning hstate
    obtain rfl := Option.some.inj (hchain.symm.trans hchain')
    refine ⟨_, .nil, @Represents.planning _
      { chain with confirmedThrough := confirmed, statusSuspicion := suspicion } ?_ ?_ rfl⟩
    · rcases hnext with rfl | rfl
      · exact hstate
      · rfl
    · rcases hnext with rfl | rfl
      · exact hfirst
      · intro first h
        cases h
  | freeze hstate hchain =>
    obtain ⟨chain', hchain', -, rfl⟩ := hr.of_planning hstate
    obtain rfl := Option.some.inj (hchain.symm.trans hchain')
    exact ⟨_, .single .freeze, .restarting rfl rfl hchain⟩
  | exhaust hstate hchain =>
    obtain ⟨chain', hchain', -, rfl⟩ := hr.of_planning hstate
    obtain rfl := Option.some.inj (hchain.symm.trans hchain')
    exact ⟨_, .single .exhaust, .drained rfl rfl⟩
  | wait hstate =>
    obtain ⟨hchain, rfl⟩ := hr.of_waiting hstate
    exact ⟨_, .nil, .waiting rfl hchain⟩
  | hold hstate =>
    obtain ⟨chain, hchain, rfl, hrestart, rfl⟩ := hr.of_restarting hstate
    exact ⟨_, .nil, .restarting rfl hrestart hchain⟩
  | harvest results hchain =>
    rw [planEffects_harvest]
    exact ⟨p, .nil, hr.with_calls hchain _⟩
  | expire currentTick hchain => exact ⟨p, .nil, hr.with_calls hchain _⟩
  | dispatch currentTick tickDurationMs hchain =>
    rw [planEffects_dispatch]
    exact ⟨p, .nil, hr.with_calls hchain _⟩
  | prune currentTick _ hchain => exact ⟨p, .nil, hr.with_calls hchain _⟩
  | lose hstate hchain =>
    obtain ⟨chain', hchain', -, rfl⟩ := hr.of_planning hstate
    obtain rfl := Option.some.inj (hchain.symm.trans hchain')
    exact ⟨_, .single .lose, .waiting rfl rfl⟩
  | settle hstate =>
    obtain ⟨chain, -, rfl, hrestart, rfl⟩ := hr.of_restarting hstate
    refine ⟨_, .single .settle, ?_⟩
    rw [← hrestart]
    exact .waiting rfl rfl
  | rest hstate =>
    obtain ⟨hchain, rfl⟩ := hr.of_waiting hstate
    exact ⟨_, .single .abandon, .drained rfl hchain⟩
  | abandon => exact ⟨_, .single .abandon, .drained rfl rfl⟩

/-- The planner's invariant reads the planning effects of a trace only. -/
theorem planInv_planEffects {stream : Nat} {t : List Effect} {p : PlanState} :
    PlanInv cfg stream (planEffects t) p ↔ PlanInv cfg stream t p := by
  constructor
  · rintro ⟨hfirst, hsucc, hlinked, hsuffix, hshape⟩
    simp only [periodCalls_planEffects, currentChain_planEffects] at *
    exact ⟨hfirst, hsucc, hlinked, hsuffix, hshape⟩
  · rintro ⟨hfirst, hsucc, hlinked, hsuffix, hshape⟩
    constructor <;> simpa only [periodCalls_planEffects, currentChain_planEffects]

/-- The slot stands for a planner that kept its invariant along the trace. -/
def Planned (cfg : Config) (slot : ManagedSlot) (t : List Effect) : Prop :=
  ∃ p, Represents slot p ∧ PlanInv cfg slot.key.stream t p

theorem Planned.step {slot slot' : ManagedSlot} {t u : List Effect} (h : Planned cfg slot t)
    (hstep : SlotStep cfg slot u slot') : Planned cfg slot' (t ++ u) := by
  obtain ⟨p, hr, hinv⟩ := h
  obtain ⟨p', hrun, hr'⟩ := hstep.refines hr
  refine ⟨p', hr', ?_⟩
  rw [hstep.key, ← planInv_planEffects, planEffects_append]
  exact (planInv_planEffects.2 hinv).run hrun

theorem Planned.new (i : Fin 3) : Planned cfg (slot₀ cfg i) [] :=
  ⟨_, .waiting rfl rfl, .init cfg _⟩

/-- A slot that a run from a new one reaches stands for a planner that kept its invariant. -/
theorem SlotRun.planned {i : Fin 3} {slot : ManagedSlot} {t : List Effect}
    (h : SlotRun cfg (slot₀ cfg i) t slot) : Planned cfg slot t := by
  have hplanned := h.invariant (fun slot t => Planned cfg slot t)
    (fun _ _ _ _ h hstep => h.step hstep) (Planned.new i)
  simpa using hplanned

end RandomClient
