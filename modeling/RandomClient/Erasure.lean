import RandomClient.Shape

/-!
# Erasing retained calls

A chain keeps the undelivered calls of the chains before it in its queue, below
its first target. `ManagedSlot.current` drops them, and `currentEffects` drops
what a slot does for them. Every operation of the engine commutes with the
erasure (`SlotOp.run_current`): the retained calls decide nothing about the
chain that follows them.
-/

namespace RandomClient

variable {cfg : Config}

/-! ## The current part of a slot -/

/-- The first target of the chain, if there is one. -/
def ManagedSlot.first (slot : ManagedSlot) : Option Nat := slot.chain.map Chain.firstTarget

/-- The target is not below the first target: it is one of the chain or of its continuations. -/
def isCurrent (first : Option Nat) (target : Nat) : Bool := first.any fun first => first ≤ target

/-- The calls from the first target of the chain on. -/
def Chain.current (chain : Chain) : Chain :=
  { chain with calls := chain.calls.filter fun call => isCurrent (some chain.firstTarget) call.targetTick }

/-- The slot without the calls it retains from older chains. -/
def ManagedSlot.current (slot : ManagedSlot) : ManagedSlot :=
  { slot with chain := slot.chain.map Chain.current }

/-- The target of the call an effect is about, for an effect of one call in the queue. -/
def Effect.callTarget : Effect → Option Nat
  | .handed _ target _ _ _ | .harvested target _ _ _ | .aborted target _ | .recordedOk target
  | .financialFailure target | .digest target _ => some target
  | .signed _ | .froze _ _ | .reset => none

/-- The effects that are not about a retained call. -/
def currentEffects (first : Option Nat) (t : List Effect) : List Effect :=
  t.filter fun e => e.callTarget.all (isCurrent first)

/-- The current part of the result of an operation on a slot with the first target. -/
def SlotResult.current (first : Option Nat) (r : SlotResult) : SlotResult where
  slot := r.slot.current
  effects := currentEffects first r.effects
  error := r.error

attribute [ext] SlotResult

@[simp] theorem ManagedSlot.current_state (slot : ManagedSlot) : slot.current.state = slot.state :=
  rfl

@[simp] theorem ManagedSlot.current_key (slot : ManagedSlot) : slot.current.key = slot.key := rfl

@[simp] theorem ManagedSlot.current_restartAt (slot : ManagedSlot) :
    slot.current.restartAt = slot.restartAt := rfl

theorem ManagedSlot.current_none {slot : ManagedSlot} (h : slot.chain = none) :
    slot.current = slot := by
  unfold ManagedSlot.current
  rw [h, Option.map_none, ← h]

theorem ManagedSlot.current_some {slot : ManagedSlot} {chain : Chain} (h : slot.chain = some chain) :
    slot.current.chain = some chain.current := by
  unfold ManagedSlot.current
  rw [h, Option.map_some]

theorem ManagedSlot.first_some {slot : ManagedSlot} {chain : Chain} (h : slot.chain = some chain) :
    slot.first = some chain.firstTarget := by
  unfold ManagedSlot.first
  rw [h, Option.map_some]

@[simp] theorem isCurrent_some (first target : Nat) :
    isCurrent (some first) target = decide (first ≤ target) := rfl

@[simp] theorem Chain.current_current (chain : Chain) : chain.current.current = chain.current := by
  simp [Chain.current, List.filter_filter, Bool.and_self]

@[simp] theorem ManagedSlot.current_current (slot : ManagedSlot) :
    slot.current.current = slot.current := by
  cases h : slot.chain with
  | none => rw [ManagedSlot.current_none h, ManagedSlot.current_none h]
  | some chain => simp [ManagedSlot.current, h]

@[simp] theorem currentEffects_append (first : Option Nat) (t u : List Effect) :
    currentEffects first (t ++ u) = currentEffects first t ++ currentEffects first u :=
  List.filter_append ..

/-! ## The queue -/

/-- The current calls of a queue. -/
abbrev currentCalls (first : Nat) (calls : List PlannedCall) : List PlannedCall :=
  calls.filter fun call => isCurrent (some first) call.targetTick

/-- A change of the calls one by one keeps the current ones. -/
theorem currentCalls_map {f : PlannedCall → PlannedCall}
    (hf : ∀ call : PlannedCall, call.Keeps (f call)) (first : Nat) (calls : List PlannedCall) :
    currentCalls first (calls.map f) = (currentCalls first calls).map f := by
  unfold currentCalls
  rw [List.filter_map]
  congr 2
  funext call
  simp only [Function.comp_apply, (hf call).target]

/-- The current effects of a loop over the queue are those of the current calls. -/
theorem currentEffects_flatMap {f : PlannedCall → List Effect}
    (hf : ∀ call, ∀ e ∈ f call, e.callTarget = some call.targetTick) (first : Nat)
    (calls : List PlannedCall) : currentEffects (some first) (calls.flatMap f) =
      currentEffects (some first) ((currentCalls first calls).flatMap f) := by
  unfold currentCalls
  induction calls with
  | nil => rfl
  | cons call calls ih =>
    rw [List.flatMap_cons, currentEffects_append, ih, List.filter_cons]
    by_cases hcurrent : isCurrent (some first) call.targetTick = true
    · rw [if_pos hcurrent, List.flatMap_cons, currentEffects_append]
    · have hnil : currentEffects (some first) (f call) = [] := by
        rw [currentEffects, List.filter_eq_nil_iff]
        intro e he
        rw [hf call e he, Option.all_some]
        exact hcurrent
      rw [if_neg hcurrent, hnil, List.nil_append]

theorem abortCalls_target {call : PlannedCall} {e : Effect} (h : e ∈ abortCalls [call]) :
    e.callTarget = some call.targetTick := by
  simp only [abortCalls, List.filterMap_cons, List.filterMap_nil] at h
  split at h
  · cases h
  · rename_i effect heffect
    rcases Option.map_eq_some_iff.1 heffect with ⟨task, -, rfl⟩
    rw [List.mem_singleton.1 h]
    rfl

theorem abortCalls_flatMap (calls : List PlannedCall) :
    abortCalls calls = calls.flatMap fun call => abortCalls [call] := by
  induction calls with
  | nil => rfl
  | cons call calls ih =>
    have hcons : abortCalls (call :: calls) = abortCalls [call] ++ abortCalls calls := by
      simp only [abortCalls, List.filterMap_cons, List.filterMap_nil]
      split <;> rfl
    rw [hcons, ih, List.flatMap_cons]

theorem currentEffects_abortCalls (first : Nat) (calls : List PlannedCall) :
    currentEffects (some first) (abortCalls calls) =
      currentEffects (some first) (abortCalls (currentCalls first calls)) := by
  rw [abortCalls_flatMap, currentEffects_flatMap fun call e he => abortCalls_target he,
    ← abortCalls_flatMap]

/-- The aborts of a chain that is dropped. -/
theorem currentEffects_abortChain (slot : ManagedSlot) :
    currentEffects slot.first (abortChain slot.chain) =
      currentEffects slot.first (abortChain slot.current.chain) := by
  cases h : slot.chain with
  | none => rw [ManagedSlot.current_none h, h]
  | some chain =>
    rw [ManagedSlot.current_some h, ManagedSlot.first_some h]
    exact currentEffects_abortCalls chain.firstTarget chain.calls

/-! ## Dropping the chain -/

theorem loseChain_current (after : Nat) (observed : Bool) (slot : ManagedSlot) :
    (loseChain after observed slot).current slot.first =
      (loseChain after observed slot.current).current slot.first := by
  cases h : slot.chain with
  | none => rw [ManagedSlot.current_none h]
  | some chain =>
    have heffects := currentEffects_abortChain slot
    have hlast : chain.current.lastTarget = chain.lastTarget := rfl
    rw [h, ManagedSlot.current_some h] at heffects
    unfold loseChain
    simp only [h, ManagedSlot.current_some h, hlast]
    split
    · exact SlotResult.ext rfl heffects rfl
    · exact SlotResult.ext rfl heffects rfl

theorem completeDrain_current (outcome : DrainOutcome) (slot : ManagedSlot) :
    (completeDrain outcome slot).current slot.first =
      (completeDrain outcome slot.current).current slot.first :=
  SlotResult.ext rfl (currentEffects_abortChain slot) rfl

theorem resetSlot_current (slot : ManagedSlot) :
    (resetSlot slot).current slot.first = (resetSlot slot.current).current slot.first := by
  apply SlotResult.ext
  · rfl
  · show currentEffects slot.first (abortChain slot.chain ++ [.reset]) =
      currentEffects slot.first (abortChain slot.current.chain ++ [.reset])
    rw [currentEffects_append, currentEffects_append, currentEffects_abortChain]
  · rfl

theorem SlotResult.followedBy_current {first : Option Nat} {r r' : SlotResult}
    {next next' : ManagedSlot → SlotResult}
    (h : currentEffects first r.effects = currentEffects first r'.effects)
    (hnext : (next r.slot).current first = (next' r'.slot).current first) :
    (r.followedBy next).current first = (r'.followedBy next').current first := by
  have hparts := SlotResult.ext_iff.1 hnext
  apply SlotResult.ext
  · exact hparts.1
  · show currentEffects first (r.effects ++ (next r.slot).effects) =
      currentEffects first (r'.effects ++ (next' r'.slot).effects)
    rw [currentEffects_append, currentEffects_append, h]
    exact congrArg _ hparts.2.1
  · exact hparts.2.2

/-! ## Expiry -/

theorem expiredCalls_current (currentTick first : Nat) (calls : List PlannedCall) :
    expiredCalls currentTick first (currentCalls first calls) =
      expiredCalls currentTick first calls := by
  unfold expiredCalls currentCalls
  rw [List.filter_filter]
  congr 1
  funext call
  by_cases hcurrent : first ≤ call.targetTick
  · simp [hcurrent]
  · have hnot : expiryOf currentTick first call ≠ .expired := by
      unfold expiryOf
      split
      · exact Expiry.noConfusion
      · split
        · exact Expiry.noConfusion
        · rw [if_pos (by omega)]
          exact Expiry.noConfusion
    simp [hcurrent, hnot]

theorem expireAborts_current (currentTick first : Nat) (calls : List PlannedCall) :
    currentEffects (some first) (expireAborts currentTick calls) =
      currentEffects (some first) (expireAborts currentTick (currentCalls first calls)) := by
  unfold expireAborts
  rw [currentEffects_abortCalls, currentEffects_abortCalls first (List.filter _ (currentCalls _ _))]
  unfold currentCalls
  simp only [List.filter_filter]
  congr 3
  funext call
  cases isCurrent (some first) call.targetTick <;> simp

/-- The slot after the loop of `expire_calls`. -/
def expireSwept (currentTick : Nat) (slot : ManagedSlot) (chain : Chain) : ManagedSlot :=
  { slot with chain := some { chain with
      calls := chain.calls.map (expireCall currentTick chain.firstTarget) } }

/-- The failure `expire_calls` notes. -/
def expiryNote (state : SlotState) (expired : List PlannedCall) : List Effect :=
  match expiryFailure state expired with
  | some target => [.financialFailure target]
  | none => []

/-- What `expire_calls` does after its loop when a current call expired. -/
def expiryEnd (currentTick : Nat) (state : SlotState) (slot : ManagedSlot) : SlotResult :=
  match state with
  | .starting _ | .active => loseChain (saturatingAdd currentTick 1) false slot
  | .draining _ _ => completeDrain .failed slot
  | .restarting _ _ _ _ | .waiting _ _ | .drained _ => { slot := slot }

theorem expireCalls_some {slot : ManagedSlot} {chain : Chain} (h : slot.chain = some chain)
    (currentTick : Nat) : expireCalls currentTick slot =
      let expired := expiredCalls currentTick chain.firstTarget chain.calls
      let aborts := expireAborts currentTick chain.calls
      if expired.isEmpty then { slot := expireSwept currentTick slot chain, effects := aborts }
      else
        ({ slot := expireSwept currentTick slot chain
           effects := aborts ++ expiryNote slot.state expired } : SlotResult).followedBy
          (expiryEnd currentTick slot.state) := by
  rcases slot with ⟨key, state, chain', restartAt⟩
  obtain rfl : chain' = some chain := h
  unfold expireCalls
  dsimp only
  split
  · rfl
  · cases state with
    | starting first => rfl
    | active => rfl
    | draining reason target => rfl
    | _ => exact SlotResult.ext rfl (List.append_nil _).symm rfl

theorem expiryEnd_current (currentTick : Nat) (state : SlotState) (slot : ManagedSlot) :
    (expiryEnd currentTick state slot).current slot.first =
      (expiryEnd currentTick state slot.current).current slot.first := by
  unfold expiryEnd
  split
  · exact loseChain_current _ _ slot
  · exact loseChain_current _ _ slot
  · exact completeDrain_current _ slot
  all_goals exact SlotResult.ext (ManagedSlot.current_current slot).symm rfl rfl

theorem expireSwept_current {slot : ManagedSlot} (currentTick : Nat) (chain : Chain) :
    expireSwept currentTick slot.current chain.current =
      (expireSwept currentTick slot chain).current := by
  have hcalls := currentCalls_map (expireCall_keeps currentTick chain.firstTarget)
    chain.firstTarget chain.calls
  show ({ slot with
    chain := some { chain with
      calls := (currentCalls chain.firstTarget chain.calls).map
        (expireCall currentTick chain.firstTarget) } } : ManagedSlot) = _
  rw [← hcalls]
  rfl

theorem expireCalls_current (currentTick : Nat) (slot : ManagedSlot) :
    (expireCalls currentTick slot).current slot.first =
      (expireCalls currentTick slot.current).current slot.first := by
  cases h : slot.chain with
  | none => rw [ManagedSlot.current_none h]
  | some chain =>
    have hexpired : expiredCalls currentTick chain.current.firstTarget chain.current.calls =
        expiredCalls currentTick chain.firstTarget chain.calls := expiredCalls_current ..
    have haborts : currentEffects (some chain.firstTarget)
          (expireAborts currentTick chain.calls) =
        currentEffects (some chain.firstTarget) (expireAborts currentTick chain.current.calls) :=
      expireAborts_current ..
    have hend := expiryEnd_current currentTick slot.state (expireSwept currentTick slot chain)
    rw [expireCalls_some h, expireCalls_some (ManagedSlot.current_some h), hexpired,
      expireSwept_current, ManagedSlot.first_some h, ManagedSlot.current_state]
    dsimp only
    split
    · exact SlotResult.ext (ManagedSlot.current_current _).symm haborts rfl
    · apply SlotResult.followedBy_current _ hend
      rw [currentEffects_append, currentEffects_append, haborts]

/-! ## Harvest -/

theorem currentCalls_currentCalls (first : Nat) (calls : List PlannedCall) :
    currentCalls first (currentCalls first calls) = currentCalls first calls := by
  simp [currentCalls, List.filter_filter, Bool.and_self]

/-- The effects that name the targets of some calls: the current ones name the current calls. -/
theorem currentEffects_targets {c : Nat → Effect} (hc : ∀ t, (c t).callTarget = some t)
    (first : Nat) (p : PlannedCall → Bool) (calls : List PlannedCall) :
    currentEffects (some first) (((calls.filter p).map PlannedCall.targetTick).map c) =
      (((currentCalls first calls).filter p).map PlannedCall.targetTick).map c := by
  unfold currentEffects currentCalls
  rw [List.map_map, List.map_map, List.filter_map, List.filter_filter, List.filter_filter]
  congr 2
  funext call
  simp only [Function.comp_apply, hc, Option.all_some, Bool.and_comm]

theorem harvestEffects_target {shutdownDrain : Bool} {results : Nat → Option Delivery}
    {call : PlannedCall} {e : Effect} (h : e ∈ harvestEffects shutdownDrain results call) :
    e.callTarget = some call.targetTick := by
  unfold harvestEffects at h
  split at h
  · cases h
  all_goals
    rw [List.mem_singleton.1 h]
    rfl

theorem harvestBroadcasts_current (results : Nat → Option Delivery) (slot : ManagedSlot) :
    (harvestBroadcasts results slot).current slot.first =
      (harvestBroadcasts results slot.current).current slot.first := by
  cases h : slot.chain with
  | none => rw [ManagedSlot.current_none h]
  | some chain =>
    rw [ManagedSlot.first_some h]
    unfold harvestBroadcasts
    rw [h, ManagedSlot.current_some h]
    dsimp only
    rw [ManagedSlot.current_state]
    generalize slot.state.isShutdownDrain = drain
    apply SlotResult.ext
    · have hcalls := currentCalls_map (harvestCall_keeps drain results) chain.firstTarget
      show ({ slot with chain := some { chain with
          calls := currentCalls chain.firstTarget (chain.calls.map (harvestCall drain results)) } } :
            ManagedSlot) = { slot with chain := some { chain with
          calls := currentCalls chain.firstTarget
            ((currentCalls chain.firstTarget chain.calls).map (harvestCall drain results)) } }
      rw [hcalls, hcalls, currentCalls_currentCalls]
    · show currentEffects _ (_ ++ _ ++ _) = currentEffects _ (_ ++ _ ++ _)
      simp only [currentEffects_append]
      unfold acceptedNormalTargets failedTerminalTargets
      rw [currentEffects_flatMap fun call e he => harvestEffects_target he,
        currentEffects_targets (fun _ => rfl), currentEffects_targets (fun _ => rfl),
        currentEffects_targets (fun _ => rfl) _ _ chain.current.calls,
        currentEffects_targets (fun _ => rfl) _ _ chain.current.calls]
      show _ = _ ++ ((((currentCalls _ (currentCalls _ _)).filter _).map _).map _) ++
        ((((currentCalls _ (currentCalls _ _)).filter _).map _).map _)
      rw [currentCalls_currentCalls]
      rfl
    · rfl

/-- Without retained calls only the results of the current ones matter. -/
theorem harvestBroadcasts_results {results results' : Nat → Option Delivery} {slot : ManagedSlot}
    (hresults : ∀ target, isCurrent slot.first target = true → results' target = results target) :
    harvestBroadcasts results' slot.current = harvestBroadcasts results slot.current := by
  cases h : slot.chain with
  | none =>
    rw [ManagedSlot.current_none h]
    unfold harvestBroadcasts
    rw [h]
  | some chain =>
    rw [ManagedSlot.first_some h] at hresults
    have hof : ∀ drain, ∀ call ∈ chain.current.calls,
        harvestOf drain results' call = harvestOf drain results call := by
      intro drain call hmem
      unfold harvestOf
      rw [hresults _ (List.mem_filter.1 hmem).2]
    have hcalls : ∀ drain, chain.current.calls.map (harvestCall drain results') =
        chain.current.calls.map (harvestCall drain results) := by
      intro drain
      apply List.map_congr_left
      intro call hmem
      unfold harvestCall
      rw [hof drain call hmem]
    have heffects : ∀ drain, chain.current.calls.flatMap (harvestEffects drain results') =
        chain.current.calls.flatMap (harvestEffects drain results) := by
      intro drain
      apply List.flatMap_congr
      intro call hmem
      unfold harvestEffects
      rw [hof drain call hmem]
    have haccepted : ∀ drain, acceptedNormalTargets drain results' chain.current.calls =
        acceptedNormalTargets drain results chain.current.calls := by
      intro drain
      unfold acceptedNormalTargets
      congr 1
      apply List.filter_congr
      intro call hmem
      rw [hof drain call hmem]
    have hfailed : ∀ drain, failedTerminalTargets drain results' chain.current.calls =
        failedTerminalTargets drain results chain.current.calls := by
      intro drain
      unfold failedTerminalTargets
      congr 1
      apply List.filter_congr
      intro call hmem
      rw [hof drain call hmem]
    unfold harvestBroadcasts
    rw [ManagedSlot.current_some h]
    simp only [hcalls, heffects, haccepted, hfailed]

/-! ## Dispatch -/

/-- A terminal reveal in the queue belongs to the current chain. -/
def TerminalCurrent (slot : ManagedSlot) : Prop :=
  ∀ call ∈ slot.queue, call.kind = .terminalReveal → isCurrent slot.first call.targetTick = true

theorem dispatchEffects_target {ctx : DispatchContext} {tickDurationMs : Nat} {call : PlannedCall}
    {e : Effect} (h : e ∈ dispatchEffects ctx tickDurationMs call) :
    e.callTarget = some call.targetTick := by
  have hmem : e ∈ [call].flatMap (dispatchEffects ctx tickDurationMs) := by simpa using h
  rcases mem_dispatchEffects hmem with ⟨call', hcall, _, -, rfl | rfl⟩
  · rw [List.mem_singleton.1 hcall]
    rfl
  · rw [List.mem_singleton.1 hcall]
    rfl

/-- The retained calls do not gate the terminal reveal. -/
theorem dispatchContext_current (currentTick : Nat) (state : SlotState) (chain : Chain) :
    dispatchContext currentTick state chain.current = dispatchContext currentTick state chain := by
  have hready : terminalReady state chain.current = terminalReady state chain := by
    unfold terminalReady
    split
    · rename_i terminalTarget
      show ((chain.calls.filter _).all _) = chain.calls.all _
      rw [List.all_filter]
      congr 1
      funext call
      by_cases hcurrent : chain.firstTarget ≤ call.targetTick
      · simp [hcurrent]
        rfl
      · simp [hcurrent, Nat.lt_of_not_le hcurrent]
    · rfl
  unfold dispatchContext
  rw [hready]
  rfl

theorem dispatchCalls_current (currentTick tickDurationMs : Nat) {slot : ManagedSlot}
    (hterminal : TerminalCurrent slot) :
    (dispatchCalls currentTick tickDurationMs slot).current slot.first =
      (dispatchCalls currentTick tickDurationMs slot.current).current slot.first := by
  cases h : slot.chain with
  | none => rw [ManagedSlot.current_none h]
  | some chain =>
    have hgiven : ∀ ctx, failedTerminalTarget ctx chain.current.calls =
        failedTerminalTarget ctx chain.calls := by
      intro ctx
      unfold failedTerminalTarget
      show Option.map _ ((List.filter _ (chain.calls.filter _)).getLast?) = _
      rw [List.filter_filter]
      congr 2
      apply List.filter_congr
      intro call hmem
      by_cases hfails : dispatchOf ctx call = .failTerminal
      · have hcurrent := hterminal call (by rw [queue_of_chain h]; exact hmem)
          (dispatchOf_failTerminal hfails).1
        rw [ManagedSlot.first_some h] at hcurrent
        rw [hcurrent, Bool.and_true]
      · simp [hfails]
    rw [ManagedSlot.first_some h]
    unfold dispatchCalls
    rw [h, ManagedSlot.current_some h]
    dsimp only
    rw [ManagedSlot.current_state, dispatchContext_current, hgiven]
    generalize dispatchContext currentTick slot.state chain = ctx
    apply SlotResult.ext
    · have hcalls := currentCalls_map (dispatchCall_keeps ctx tickDurationMs) chain.firstTarget
      show ({ slot with chain := some { chain with
          calls := currentCalls chain.firstTarget
            (chain.calls.map (dispatchCall ctx tickDurationMs)) } } : ManagedSlot) =
        { slot with chain := some { chain with
          calls := currentCalls chain.firstTarget
            ((currentCalls chain.firstTarget chain.calls).map (dispatchCall ctx tickDurationMs)) } }
      rw [hcalls, hcalls, currentCalls_currentCalls]
    · show currentEffects _ (_ ++ _) = currentEffects _ (_ ++ _)
      rw [currentEffects_append, currentEffects_append,
        currentEffects_flatMap fun call e he => dispatchEffects_target he]
      rfl
    · rfl

/-! ## Finishing and pruning -/

theorem finishDrain_current {slot : ManagedSlot} (hterminal : TerminalCurrent slot) :
    (finishDrain slot).current slot.first = (finishDrain slot.current).current slot.first := by
  cases h : slot.chain with
  | none => rw [ManagedSlot.current_none h]
  | some chain =>
    have hfind : chain.current.calls.find? (fun call => call.kind = .terminalReveal) =
        chain.calls.find? fun call => call.kind = .terminalReveal := by
      show (chain.calls.filter _).find? _ = _
      rw [← List.head?_filter, ← List.head?_filter, List.filter_filter]
      congr 1
      apply List.filter_congr
      intro call hmem
      by_cases hkind : call.kind = .terminalReveal
      · have hcurrent := hterminal call (by rw [queue_of_chain h]; exact hmem) hkind
        rw [ManagedSlot.first_some h] at hcurrent
        rw [hcurrent, Bool.and_true]
      · simp [hkind]
    have hkeep : ({ slot := slot } : SlotResult).current slot.first =
        ({ slot := slot.current } : SlotResult).current slot.first :=
      SlotResult.ext (ManagedSlot.current_current slot).symm rfl rfl
    unfold finishDrain
    rw [h, ManagedSlot.current_some h, ManagedSlot.current_state]
    simp only [Option.bind_some, hfind]
    split
    · split
      · exact completeDrain_current .accepted slot
      · exact completeDrain_current .failed slot
      · exact hkeep
    · exact hkeep

theorem finishStatusRestart_current (currentTick : Nat) (slot : ManagedSlot) :
    (finishStatusRestart currentTick slot).current slot.first =
      (finishStatusRestart currentTick slot.current).current slot.first := by
  have hkeep : ({ slot := slot } : SlotResult).current slot.first =
      ({ slot := slot.current } : SlotResult).current slot.first :=
    SlotResult.ext (ManagedSlot.current_current slot).symm rfl rfl
  unfold finishStatusRestart
  rw [ManagedSlot.current_state]
  split
  · split
    · exact hkeep
    · exact SlotResult.ext rfl (currentEffects_abortChain slot) rfl
  · exact hkeep

theorem pruneCalls_current (currentTick : Nat) (slot : ManagedSlot) :
    (pruneCalls currentTick slot).current slot.first =
      (pruneCalls currentTick slot.current).current slot.first := by
  cases h : slot.chain with
  | none => rw [ManagedSlot.current_none h]
  | some chain =>
    unfold pruneCalls
    rw [h, ManagedSlot.current_some h, ManagedSlot.current_state]
    split
    · exact SlotResult.ext (ManagedSlot.current_current slot).symm rfl rfl
    · apply SlotResult.ext
      · show ({ slot with chain := some { chain with
            calls := currentCalls chain.firstTarget (chain.calls.filter _) } } : ManagedSlot) =
          { slot with chain := some { chain with
            calls := currentCalls chain.firstTarget
              ((currentCalls chain.firstTarget chain.calls).filter _) } }
        have hcomm : currentCalls chain.firstTarget
              (chain.calls.filter (keepsCall currentTick chain.firstTarget)) =
            currentCalls chain.firstTarget ((currentCalls chain.firstTarget chain.calls).filter
              (keepsCall currentTick chain.firstTarget)) := by
          unfold currentCalls
          simp only [List.filter_filter]
          congr 1
          funext call
          cases isCurrent (some chain.firstTarget) call.targetTick <;> simp
        rw [hcomm]
        rfl
      · rfl
      · rfl

/-! ## Planning -/

theorem currentCalls_append (first : Nat) (calls more : List PlannedCall) :
    currentCalls first (calls ++ more) = currentCalls first calls ++ currentCalls first more :=
  List.filter_append ..

/-- The same call is added to the queue with and without the retained calls. -/
theorem currentCalls_add (first : Nat) (calls more : List PlannedCall) :
    currentCalls first (calls ++ more) = currentCalls first (currentCalls first calls ++ more) := by
  rw [currentCalls_append, currentCalls_append, currentCalls_currentCalls]

theorem enterDrain_current (env : SigningEnv) (reason : DrainReason) (slot : ManagedSlot) :
    (enterDrain cfg env reason slot).current slot.first =
      (enterDrain cfg env reason slot.current).current slot.first := by
  cases h : slot.chain with
  | none => rw [ManagedSlot.current_none h]
  | some chain =>
    have hkeep : ∀ error, ({ slot := slot, error := error } : SlotResult).current slot.first =
        ({ slot := slot.current, error := error } : SlotResult).current slot.first :=
      fun error => SlotResult.ext (ManagedSlot.current_current slot).symm rfl rfl
    have hstate : ∀ state, ({ slot := { slot with state := state, chain := some chain } } :
          SlotResult).current slot.first =
        ({ slot := { slot.current with state := state, chain := some chain.current } } :
          SlotResult).current slot.first := by
      intro state
      apply SlotResult.ext
      · show ({ slot with state := state, chain := some chain.current } : ManagedSlot) =
          { slot with state := state, chain := some chain.current.current }
        rw [Chain.current_current]
      · rfl
      · rfl
    unfold enterDrain
    rw [h, ManagedSlot.current_some h, ManagedSlot.current_state]
    split
    · exact hkeep none
    · exact hkeep none
    · exact hstate _
    · exact hstate _
    all_goals
      dsimp only
      have hlast : chain.current.lastTarget = chain.lastTarget := rfl
      have hreveal : chain.current.outstandingPreimage = chain.outstandingPreimage := rfl
      rw [hlast, hreveal, ManagedSlot.current_key]
      split
      · exact hkeep _
      · split
        · exact hkeep _
        · apply SlotResult.ext
          · show ({ slot with state := _, chain := some { chain with
                calls := currentCalls chain.firstTarget (chain.calls ++ _) } } : ManagedSlot) =
              { slot with state := _, chain := some { chain with
                calls := currentCalls chain.firstTarget
                  (currentCalls chain.firstTarget chain.calls ++ _) } }
            rw [currentCalls_add]
          · rfl
          · rfl

/-- A round of the loop reads the queue only to add to it. -/
theorem extendOnce_calls (env : SigningEnv) (currentTick horizon : Nat) (key : SlotKey)
    (chain : Chain) (calls : List PlannedCall) :
    extendOnce cfg env currentTick horizon key { chain with calls := calls } =
      match extendOnce cfg env currentTick horizon key chain with
      | .done => .done
      | .failed err => .failed err
      | .extended longer signed =>
        .extended { longer with calls := calls ++ [signed.planned] } signed := by
  unfold extendOnce
  dsimp only
  cases checkedAdd chain.lastTarget streamCount with
  | none => rfl
  | some target =>
    dsimp only
    by_cases hpast : horizon < target
    · simp only [hpast, if_true]
    · simp only [hpast, if_false]
      cases buildTransaction cfg env
        { reveal := chain.outstandingPreimage, commit := cfg.commitDigest (env.draw target) }
          target key with
      | error err => rfl
      | ok txBytes => rfl

theorem Chain.current_calls {chain : Chain} {calls : List PlannedCall}
    (h : currentCalls chain.firstTarget calls = currentCalls chain.firstTarget chain.calls) :
    ({ chain with calls := calls } : Chain).current = chain.current := by
  show ({ chain with calls := currentCalls chain.firstTarget calls } : Chain) = _
  rw [h]
  rfl

theorem extendLoop_current (env : SigningEnv) (currentTick horizon fuel : Nat) (key : SlotKey)
    (chain : Chain) {calls : List PlannedCall}
    (hcalls : currentCalls chain.firstTarget calls = currentCalls chain.firstTarget chain.calls) :
    (extendLoop cfg env currentTick horizon key fuel { chain with calls := calls }).1.current =
      (extendLoop cfg env currentTick horizon key fuel chain).1.current ∧
    (extendLoop cfg env currentTick horizon key fuel { chain with calls := calls }).2 =
      (extendLoop cfg env currentTick horizon key fuel chain).2 := by
  induction fuel generalizing chain calls with
  | zero => exact ⟨Chain.current_calls hcalls, rfl⟩
  | succ fuel ih =>
    simp only [extendLoop]
    rw [extendOnce_calls]
    cases honce : extendOnce cfg env currentTick horizon key chain with
    | done => exact ⟨Chain.current_calls hcalls, rfl⟩
    | failed err => exact ⟨Chain.current_calls hcalls, rfl⟩
    | extended longer signed =>
      rcases extendOnce_extends honce with ⟨next, -, rfl⟩
      have hlonger : currentCalls (chain.extendBy signed next).firstTarget (calls ++ [signed.planned]) =
          currentCalls (chain.extendBy signed next).firstTarget
            (chain.extendBy signed next).calls := by
        show currentCalls chain.firstTarget (calls ++ [signed.planned]) =
          currentCalls chain.firstTarget (chain.calls ++ [signed.planned])
        rw [currentCalls_append, currentCalls_append, hcalls]
      rcases ih (chain.extendBy signed next) hlonger with ⟨hchain, hrest⟩
      dsimp only
      have herror := congrArg Prod.snd hrest
      refine ⟨hchain, Prod.ext ?_ herror⟩
      exact congrArg (Effect.signed signed :: ·) (congrArg Prod.fst hrest)

theorem extendChain_current (env : SigningEnv) (currentTick : Nat) (slot : ManagedSlot) :
    (extendChain cfg env currentTick slot).current slot.first =
      (extendChain cfg env currentTick slot.current).current slot.first := by
  have hkeep : ∀ error, ({ slot := slot, error := error } : SlotResult).current slot.first =
      ({ slot := slot.current, error := error } : SlotResult).current slot.first :=
    fun error => SlotResult.ext (ManagedSlot.current_current slot).symm rfl rfl
  cases h : slot.chain with
  | none => rw [ManagedSlot.current_none h]
  | some chain =>
    have hmissed : missedTarget currentTick chain.current = missedTarget currentTick chain := rfl
    unfold extendChain
    rw [h, ManagedSlot.current_some h, ManagedSlot.current_state, Option.bind_some,
      Option.bind_some, hmissed]
    split
    · rename_i hstate
      split
      · rename_i missed _
        have hexpired := SlotResult.ext_iff.1 (expireCalls_current currentTick slot)
        apply SlotResult.followedBy_current hexpired.2.1
        have hslot : (expireCalls currentTick slot).slot.current =
            (expireCalls currentTick slot.current).slot.current := hexpired.1
        have hplanning := congrArg ManagedSlot.state hslot
        rw [ManagedSlot.current_state, ManagedSlot.current_state] at hplanning
        rw [← hplanning]
        split
        · -- both keep their chain, with the same first target, and lose it now
          rename_i hafter
          have hafter' := hafter
          rw [hplanning] at hafter'
          have hkept := expireCalls_of_planning hstate h hafter
          have hkept' := @expireCalls_of_planning currentTick slot.current _ hstate
            (ManagedSlot.current_some h) hafter'
          have hlose := loseChain_current (saturatingAdd currentTick 1) false
            (expireSwept currentTick slot chain)
          rw [← expireSwept_current] at hlose
          have hparts := SlotResult.ext_iff.1 hlose
          rw [hkept, hkept']
          apply SlotResult.ext
          · exact hparts.1
          · show currentEffects slot.first ([.financialFailure missed] ++ _) =
              currentEffects slot.first ([.financialFailure missed] ++ _)
            rw [currentEffects_append, currentEffects_append, ManagedSlot.first_some h]
            exact congrArg _ hparts.2.1
          · exact hparts.2.2
        · exact SlotResult.ext hslot rfl rfl
      · split
        · exact hkeep _
        · rename_i horizon _
          have hloop := @extendLoop_current cfg env currentTick horizon
            (horizon - chain.lastTarget) slot.key chain chain.current.calls
            (currentCalls_currentCalls _ _)
          have hlast : chain.current.lastTarget = chain.lastTarget := rfl
          dsimp only
          rw [hlast, ManagedSlot.current_key]
          apply SlotResult.ext
          · show ({ slot with chain := some (Chain.current _) } : ManagedSlot) =
              { slot with chain := some (Chain.current _) }
            rw [← hloop.1]
            rfl
          · show currentEffects slot.first _ = currentEffects slot.first _
            exact congrArg _ (congrArg Prod.fst hloop.2.symm)
          · exact congrArg Prod.snd hloop.2.symm
    · exact hkeep none

/-- A slot that may start has no chain, or a frozen one that begins before its restart tick. -/
def RestartsBehind (slot : ManagedSlot) : Prop :=
  slot.state.readyToStart = true → ∀ chain, slot.chain = some chain →
    chain.firstTarget ≤ slot.restartAt

theorem le_of_nextStreamTick {atOrAfter stream target : Nat}
    (h : nextStreamTick atOrAfter stream = some target) : atOrAfter ≤ target := by
  rcases Bounded.checkedAdd_eq_some.1 h with ⟨hsum, -⟩
  omega

/-- The calls of the chain before are retained ones of the chain that starts. -/
theorem startIfReady_current {slot : ManagedSlot} (hbehind : RestartsBehind slot)
    (env : SigningEnv) (currentTick : Nat) :
    (startIfReady cfg env currentTick slot).current slot.first =
      (startIfReady cfg env currentTick slot.current).current slot.first := by
  have hkeep : ∀ error, ({ slot := slot, error := error } : SlotResult).current slot.first =
      ({ slot := slot.current, error := error } : SlotResult).current slot.first :=
    fun error => SlotResult.ext (ManagedSlot.current_current slot).symm rfl rfl
  cases h : slot.chain with
  | none => rw [ManagedSlot.current_none h]
  | some chain =>
    unfold startIfReady
    rw [h, ManagedSlot.current_some h, ManagedSlot.current_state, ManagedSlot.current_restartAt,
      ManagedSlot.current_key]
    split
    · rename_i hready
      split
      · exact hkeep _
      · split
        · exact hkeep _
        · rename_i target htarget
          have hlater : chain.firstTarget ≤ target :=
            ((hbehind hready chain h).trans (le_max_right _ _)).trans (le_of_nextStreamTick htarget)
          dsimp only
          split
          · exact hkeep _
          · have hcalls : ∀ more, currentCalls target (chain.current.calls ++ more) =
                currentCalls target (chain.calls ++ more) := by
              intro more
              rw [currentCalls_append, currentCalls_append]
              congr 1
              show currentCalls target (currentCalls chain.firstTarget chain.calls) = _
              unfold currentCalls
              rw [List.filter_filter]
              congr 1
              funext call
              simp only [isCurrent_some, Bool.and_eq_left_iff_imp, decide_eq_true_eq]
              omega
            apply SlotResult.ext
            · show ({ slot with
                state := .starting target
                chain := some { firstTarget := target, lastTarget := target, confirmedThrough := none,
                                statusSuspicion := none, outstandingPreimage := env.draw target,
                                calls := currentCalls target (chain.calls ++ _) } } : ManagedSlot) =
                { slot with
                  state := .starting target
                  chain := some { firstTarget := target, lastTarget := target, confirmedThrough := none,
                                  statusSuspicion := none, outstandingPreimage := env.draw target,
                                  calls := currentCalls target (chain.current.calls ++ _) } }
              rw [hcalls]
            · rfl
            · rfl
    · exact hkeep none

/-! ## Status -/

theorem beginStatusRestart_current (after : Nat) (observed : Bool) (slot : ManagedSlot) :
    (beginStatusRestart after observed slot).current slot.first =
      (beginStatusRestart after observed slot.current).current slot.first := by
  cases h : slot.chain with
  | none => rw [ManagedSlot.current_none h]
  | some chain =>
    have haborts := currentEffects_abortChain slot
    have hlast : chain.current.lastTarget = chain.lastTarget := rfl
    rw [h, ManagedSlot.current_some h] at haborts
    unfold beginStatusRestart
    rw [h, ManagedSlot.current_some h]
    dsimp only
    rw [hlast]
    split
    · apply SlotResult.ext
      · rfl
      · show currentEffects slot.first (_ ++ _) = currentEffects slot.first (_ ++ _)
        rw [currentEffects_append, currentEffects_append, haborts]
      · rfl
    · apply SlotResult.ext
      · show ({ slot with restartAt := _, state := _, chain := some chain.current } : ManagedSlot) =
          { slot with restartAt := _, state := _, chain := some chain.current.current }
        rw [Chain.current_current]
      · rfl
      · rfl

theorem observeStatusEvidence_current (evidence : StatusEvidence) (requestedTick : Nat)
    (slot : ManagedSlot) :
    (observeStatusEvidence evidence requestedTick slot).current slot.first =
      (observeStatusEvidence evidence requestedTick slot.current).current slot.first := by
  cases h : slot.chain with
  | none => rw [ManagedSlot.current_none h]
  | some chain =>
    have hsuspicion : chain.current.statusSuspicion = chain.statusSuspicion := rfl
    have htarget : ∀ suspicion evidence,
        financialFailureTarget { chain.current with statusSuspicion := suspicion } evidence =
          financialFailureTarget { chain with statusSuspicion := suspicion } evidence :=
      fun _ _ => rfl
    unfold observeStatusEvidence
    rw [h, ManagedSlot.current_some h]
    dsimp only
    rw [hsuspicion]
    split
    · exact SlotResult.ext (ManagedSlot.current_current slot).symm rfl rfl
    · generalize suspicionAfter chain.statusSuspicion evidence requestedTick = suspicion
      let suspected : ManagedSlot :=
        { slot with chain := some { chain with statusSuspicion := some suspicion } }
      have hsuspected : ({ slot.current with
          chain := some { chain.current with statusSuspicion := some suspicion } } : ManagedSlot) =
            suspected.current := rfl
      rw [hsuspected]
      split
      · have hparts := SlotResult.ext_iff.1 (beginStatusRestart_current
          (confirmedBoundary suspicion).1 (confirmedBoundary suspicion).2 suspected)
        apply SlotResult.ext
        · exact hparts.1
        · show currentEffects slot.first (_ ++ _) = currentEffects slot.first (_ ++ _)
          rw [currentEffects_append, currentEffects_append, ManagedSlot.first_some h]
          exact congrArg₂ _ rfl hparts.2.1
        · exact hparts.2.2
      · exact SlotResult.ext (ManagedSlot.current_current suspected).symm rfl rfl

/-- The acknowledgement of an update tick does not read the queue. -/
def Acknowledgement.current : Acknowledgement → Acknowledgement
  | .ignored => .ignored
  | .settled chain => .settled chain.current
  | .missing chain missingTarget => .missing chain.current missingTarget

theorem Chain.acknowledge_current (confirmedTick requestedTick : Nat) (chain : Chain) :
    chain.current.acknowledge confirmedTick requestedTick =
      (chain.acknowledge confirmedTick requestedTick).current := by
  have hdue : ∀ chain : Chain, chain.current.acknowledgeDue confirmedTick requestedTick =
      (chain.acknowledgeDue confirmedTick requestedTick).current := by
    intro chain
    have hlatest : chain.current.latestTargetBefore requestedTick =
        chain.latestTargetBefore requestedTick := rfl
    unfold Chain.acknowledgeDue
    rw [hlatest]
    split
    · rfl
    · split
      · rfl
      · split <;> rfl
  have hconfirmed : chain.current.confirmedThrough = chain.confirmedThrough := rfl
  have hsuspicion : chain.current.statusSuspicion = chain.statusSuspicion := rfl
  unfold Chain.acknowledge
  rw [hconfirmed, hsuspicion]
  split
  · rfl
  · dsimp only
    split
    · rfl
    · split
      · exact hdue { chain with confirmedThrough := some confirmedTick, statusSuspicion := none }
      · exact hdue chain

theorem applyConfirmationWatermark_current (confirmedTick requestedTick : Nat)
    (slot : ManagedSlot) :
    (applyConfirmationWatermark confirmedTick requestedTick slot).current slot.first =
      (applyConfirmationWatermark confirmedTick requestedTick slot.current).current slot.first := by
  cases h : slot.chain with
  | none => rw [ManagedSlot.current_none h]
  | some chain =>
    unfold applyConfirmationWatermark
    rw [h, ManagedSlot.current_some h]
    dsimp only
    rw [Chain.acknowledge_current]
    cases hack : chain.acknowledge confirmedTick requestedTick with
    | ignored => exact SlotResult.ext (ManagedSlot.current_current slot).symm rfl rfl
    | settled chain' =>
      apply SlotResult.ext
      · show ({ slot with chain := some chain'.current } : ManagedSlot) =
          { slot with chain := some chain'.current.current }
        rw [Chain.current_current]
      · rfl
      · rfl
    | missing chain' missingTarget =>
      have hfirst : chain'.firstTarget = chain.firstTarget := by
        rcases Chain.acknowledge_chain (.inr ⟨missingTarget, hack⟩) with ⟨_, _, rfl⟩
        rfl
      have hobserved := observeStatusEvidence_current (.lag missingTarget) requestedTick
        { slot with chain := some chain' }
      rw [ManagedSlot.first_some h, ← hfirst]
      exact hobserved

theorem applyStatus_current (observation : StatusObservation) (slot : ManagedSlot) :
    (applyStatus observation slot).current slot.first =
      (applyStatus observation slot.current).current slot.first := by
  have hkeep : ({ slot := slot } : SlotResult).current slot.first =
      ({ slot := slot.current } : SlotResult).current slot.first :=
    SlotResult.ext (ManagedSlot.current_current slot).symm rfl rfl
  have howns : ∀ target, chainOwnsTarget slot.current target = chainOwnsTarget slot target := by
    intro target
    unfold chainOwnsTarget
    cases h : slot.chain with
    | none => rw [ManagedSlot.current_none h, h]
    | some chain =>
      rw [ManagedSlot.current_some h]
      rfl
  have hstate : ∀ state, ({ slot := { slot with state := state } } : SlotResult).current slot.first =
      ({ slot := { slot.current with state := state } } : SlotResult).current slot.first := by
    intro state
    apply SlotResult.ext
    · show ({ slot.current with state := state } : ManagedSlot) =
        { slot.current.current with state := state }
      rw [ManagedSlot.current_current]
    · rfl
    · rfl
  unfold applyStatus
  dsimp only
  rw [ManagedSlot.current_state, ManagedSlot.current_key]
  split
  · exact hkeep
  · exact hkeep
  · exact hstate _
  · split
    · rename_i confirmedTick _
      rw [howns]
      split
      · exact applyConfirmationWatermark_current confirmedTick observation.requestedTick
          { slot with state := .active }
      · split
        · exact observeStatusEvidence_current _ _ slot
        · exact hkeep
    · split
      · exact observeStatusEvidence_current _ _ slot
      · exact hkeep
  · split
    · rw [howns]
      split
      · exact applyConfirmationWatermark_current _ _ slot
      · exact observeStatusEvidence_current _ _ slot
    · exact observeStatusEvidence_current _ _ slot
  · exact hstate _

/-! ## Every operation -/

/-- What the erasure relies on in a slot of a run. -/
structure Erasable (slot : ManagedSlot) : Prop where
  terminal : TerminalCurrent slot
  behind : RestartsBehind slot

theorem erasable (i : Fin 3) (ops : List SlotOp) :
    Erasable ((slotMachine cfg).state (slot₀ cfg i) ops) := by
  have hshape := @slotShape cfg i ops
  have hregular := fun chain => @slotMachine_regular cfg i ops chain
  generalize (slotMachine cfg).state (slot₀ cfg i) ops = slot at *
  constructor
  · intro call hmem hkind
    cases hdraining : slot.state.isDraining with
    | false => exact absurd hkind (hshape.normal hdraining call hmem)
    | true =>
      cases hstate : slot.state with
      | draining reason target =>
        rcases hshape.draining reason target hstate with
          ⟨chain, normal, terminal, hchain, htarget, hcalls, -, hterminal, hnormal⟩
        rw [queue_of_chain hchain, hcalls] at hmem
        rcases List.mem_append.1 hmem with hold | hlast
        · exact absurd hkind (hnormal call hold)
        · have hfirst := (hregular chain hchain).first_le
          rw [List.mem_singleton.1 hlast, hterminal, htarget, ManagedSlot.first_some hchain]
          simp only [isCurrent_some, decide_eq_true_eq, streamCount]
          omega
      | _ =>
        rw [hstate] at hdraining
        cases hdraining
  · intro hready chain hchain
    cases hstate : slot.state with
    | restarting tail after observed drain =>
      rcases hshape.restarting tail after observed drain hstate with
        ⟨chain', hchain', htail, hrestart⟩
      cases hchain.symm.trans hchain'
      have hfirst := (hregular chain hchain).first_le
      rw [hrestart, htail]
      omega
    | waiting after observed =>
      have hsome := hshape.present.1 (by rw [hchain]; rfl)
      rw [hstate] at hsome
      rcases hsome with h | h | h <;> cases h
    | _ =>
      rw [hstate] at hready
      cases hready

/-- Every operation does to the current part of a slot what it does to the slot. -/
theorem SlotOp.run_current (op : SlotOp) {slot : ManagedSlot} (h : Erasable slot) :
    (op.run cfg slot).current slot.first = (op.run cfg slot.current).current slot.first := by
  cases op with
  | reset => exact resetSlot_current slot
  | harvestBroadcasts results => exact harvestBroadcasts_current results slot
  | applyStatus observation => exact applyStatus_current observation slot
  | enterDrain env reason => exact enterDrain_current env reason slot
  | startIfReady env currentTick => exact startIfReady_current h.behind env currentTick
  | extendChain env currentTick => exact extendChain_current env currentTick slot
  | expireCalls currentTick => exact expireCalls_current currentTick slot
  | dispatchCalls currentTick tickDurationMs =>
    exact dispatchCalls_current currentTick tickDurationMs h.terminal
  | finishDrain => exact finishDrain_current h.terminal
  | finishStatusRestart currentTick => exact finishStatusRestart_current currentTick slot
  | pruneCalls currentTick => exact pruneCalls_current currentTick slot

end RandomClient
