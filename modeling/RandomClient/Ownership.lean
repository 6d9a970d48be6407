import RandomClient.Tasks

/-!
# Ownership of broadcast tasks

What becomes of a broadcast task over a whole run: it stays with the call that
started it until that call joins or aborts it. `prune_calls` drops calls
without looking at their tasks; a cycle runs it only behind the expiry and the
dispatch of the same tick (`PrunesDelivered`), which leave no task to a call
whose target has come.
-/

namespace RandomClient

variable {cfg : Config}

/-! ## Pruning in a history -/

section Pruning

variable {slot : ManagedSlot}

theorem expireCalls_cleared (currentTick : Nat) (slot : ManagedSlot) :
    (expireCalls currentTick slot).slot.Cleared currentTick := by
  intro call' hmem htarget
  unfold expireCalls at hmem
  split at hmem
  · rename_i hchain
    simp [ManagedSlot.queue, hchain] at hmem
  · rename_i chain hchain
    have hswept : ∀ call ∈ chain.calls.map (expireCall currentTick chain.firstTarget),
        call.targetTick ≤ currentTick → call.broadcast = none := by
      intro call hcall hle
      rcases List.mem_map.1 hcall with ⟨before, -, rfl⟩
      rw [(expireCall_keeps currentTick chain.firstTarget before).target] at hle
      rw [expireCall_broadcast, if_pos hle]
    dsimp only at hmem
    split at hmem
    · exact hswept call' hmem htarget
    · split at hmem
      · simp [SlotResult.followedBy, ManagedSlot.queue, loseChain_chain] at hmem
      · simp [SlotResult.followedBy, ManagedSlot.queue, loseChain_chain] at hmem
      · simp [SlotResult.followedBy, ManagedSlot.queue, completeDrain] at hmem
      all_goals exact hswept call' hmem htarget

/-- No task is started at or after its target. -/
theorem dispatchCalls_cleared {currentTick : Nat} (h : slot.Cleared currentTick)
    (tickDurationMs : Nat) :
    (dispatchCalls currentTick tickDurationMs slot).slot.Cleared currentTick := by
  intro call' hmem htarget
  unfold dispatchCalls at hmem
  split at hmem
  · exact h call' hmem htarget
  · rename_i chain hchain
    rcases List.mem_map.1 hmem with ⟨call, hcall, rfl⟩
    rw [(dispatchCall_keeps _ tickDurationMs call).target] at htarget
    have hidle := h call (by rw [queue_of_chain hchain]; exact hcall) htarget
    have hskip : dispatchOf (dispatchContext currentTick slot.state chain) call = .skip := by
      unfold dispatchOf
      exact if_pos (.inl htarget)
    rw [dispatchCall, hskip]
    exact hidle

/-- Dropping calls clears no less. -/
theorem ManagedSlot.Cleared.of_subset {slot' : ManagedSlot} {currentTick : Nat}
    (h : slot.Cleared currentTick) (hsub : ∀ call ∈ slot'.queue, call ∈ slot.queue) :
    slot'.Cleared currentTick := by
  intro call hmem
  exact h call (hsub call hmem)

theorem finishDrain_queue (slot : ManagedSlot) :
    ∀ call ∈ (finishDrain slot).slot.queue, call ∈ slot.queue := by
  intro call hmem
  unfold finishDrain at hmem
  split at hmem
  · dsimp only at hmem
    split at hmem
    · cases hmem
    · cases hmem
    · exact hmem
  · exact hmem

theorem finishStatusRestart_queue (currentTick : Nat) (slot : ManagedSlot) :
    ∀ call ∈ (finishStatusRestart currentTick slot).slot.queue, call ∈ slot.queue := by
  intro call hmem
  unfold finishStatusRestart at hmem
  split at hmem
  · split at hmem
    · exact hmem
    · cases hmem
  · exact hmem

theorem pruneCalls_queue (currentTick : Nat) (slot : ManagedSlot) :
    ∀ call ∈ (pruneCalls currentTick slot).slot.queue, call ∈ slot.queue := by
  intro call hmem
  unfold pruneCalls at hmem
  split at hmem
  · exact hmem
  · split at hmem
    · exact hmem
    · rename_i chain hchain
      rw [queue_of_chain hchain]
      exact (List.mem_filter.1 hmem).1

/-- The operations of a cycle between its planning and its pruning. -/
def sweepOps (currentTick tickDurationMs : Nat) : List SlotOp :=
  [.expireCalls currentTick, .dispatchCalls currentTick tickDurationMs, .finishDrain,
    .finishStatusRestart currentTick]

/-- Behind these operations no task remains for a target that has come. -/
theorem sweepOps_cleared (currentTick tickDurationMs : Nat) (slot : ManagedSlot) :
    ((slotMachine cfg).state slot (sweepOps currentTick tickDurationMs)).Cleared currentTick := by
  have hswept := dispatchCalls_cleared (expireCalls_cleared currentTick slot) tickDurationMs
  have hdrained := hswept.of_subset (finishDrain_queue _)
  exact hdrained.of_subset (finishStatusRestart_queue currentTick _)

/-- Every pruning directly follows the sweep of the same tick. -/
def PrunesDelivered (ops : List SlotOp) : Prop :=
  ∀ before currentTick after, ops = before ++ .pruneCalls currentTick :: after →
    ∃ earlier tickDurationMs, before = earlier ++ sweepOps currentTick tickDurationMs

def SlotOp.isPrune : SlotOp → Bool
  | .pruneCalls _ => true
  | _ => false

theorem PrunesDelivered.of_none {ops : List SlotOp} (h : ∀ op ∈ ops, op.isPrune = false) :
    PrunesDelivered ops := by
  rintro before currentTick after rfl
  have hprune := h (.pruneCalls currentTick) (by simp)
  cases hprune

theorem PrunesDelivered.isPrefix {ops ops' : List SlotOp} (h : PrunesDelivered ops')
    (hbegun : ops <+: ops') : PrunesDelivered ops := by
  rcases hbegun with ⟨rest, rfl⟩
  rintro before currentTick after rfl
  exact h before currentTick (after ++ rest) (by simp)

theorem PrunesDelivered.append {xs ys : List SlotOp} (hx : PrunesDelivered xs)
    (hy : PrunesDelivered ys) : PrunesDelivered (xs ++ ys) := by
  intro before currentTick after hsplit
  rcases List.append_eq_append_iff.1 hsplit with ⟨rest, rfl, hys⟩ | ⟨rest, hxs, hrest⟩
  · rcases hy rest currentTick after hys with ⟨earlier, tickDurationMs, rfl⟩
    exact ⟨xs ++ earlier, tickDurationMs, by rw [List.append_assoc]⟩
  · cases rest with
    | nil =>
      rw [List.append_nil] at hxs
      subst hxs
      rcases hy [] currentTick after (by simpa using hrest.symm) with ⟨earlier, duration, hnil⟩
      simp [sweepOps] at hnil
    | cons op rest =>
      rw [List.cons_append, List.cons.injEq] at hrest
      rcases hrest with ⟨rfl, -⟩
      exact hx before currentTick rest hxs

/-- A list without a pruning, ended by the sweep and the pruning of a tick. -/
theorem PrunesDelivered.swept {ops : List SlotOp} (h : ∀ op ∈ ops, op.isPrune = false)
    (currentTick tickDurationMs : Nat) :
    PrunesDelivered (ops ++ sweepOps currentTick tickDurationMs ++ [.pruneCalls currentTick]) := by
  intro before currentTick' after hsplit
  rcases List.eq_nil_or_concat after with rfl | ⟨rest, last, rfl⟩
  · rcases List.append_inj' hsplit rfl with ⟨rfl, hlast⟩
    cases hlast
    exact ⟨ops, tickDurationMs, rfl⟩
  · -- an earlier pruning would be among the other operations
    exfalso
    rw [List.concat_eq_append, ← List.cons_append, ← List.append_assoc] at hsplit
    have hmem : SlotOp.pruneCalls currentTick' ∈ ops ++ sweepOps currentTick tickDurationMs := by
      rw [(List.append_inj' hsplit rfl).1]
      simp
    rcases List.mem_append.1 hmem with hmem | hmem
    · cases h _ hmem
    · simp [sweepOps] at hmem

/-- One cycle ends with the sweep and the pruning of its tick. -/
theorem cycleOps_prunesDelivered (tick : TickInfo) (input : CycleInput) (e : Engine) (i : Fin 3) :
    PrunesDelivered (cycleOps cfg tick input e i) := by
  have hops : deliveryOps tick =
      sweepOps tick.tick tick.tickDurationMs ++ [.pruneCalls tick.tick] := rfl
  unfold cycleOps
  rw [hops, ← List.append_assoc]
  apply PrunesDelivered.swept
  intro op hmem
  simp only [List.mem_append] at hmem
  rcases hmem with ((hmem | hmem) | hmem) | hmem
  · split at hmem
    · rw [List.mem_singleton.1 hmem]
      rfl
    · cases hmem
  · rw [List.mem_singleton.1 hmem]
    rfl
  · unfold statusOps at hmem
    repeat' split at hmem
    · rw [List.mem_singleton.1 hmem]
      rfl
    · cases hmem
    · cases hmem
  · unfold planOps at hmem
    split at hmem
    · rw [List.mem_singleton.1 hmem]
      rfl
    · rcases List.mem_cons.1 hmem with rfl | hmem
      · rfl
      · rw [List.mem_singleton.1 hmem]
        rfl
    · cases hmem

theorem history_prunesDelivered (e : Engine) (inputs : List EngineInput) (i : Fin 3) :
    PrunesDelivered (history cfg e inputs i) := by
  induction inputs using List.reverseRecOn with
  | nil => exact .of_none (by intro op hmem; cases hmem)
  | append_singleton inputs input ih =>
    rw [history_snoc]
    apply ih.append
    rcases engineStep_ops cfg input ((engineMachine cfg).state e inputs) i with
      ⟨tick, cycleInput, -, -, hbegun⟩ | ⟨-, hnil | ⟨env, hdrain⟩⟩
    · exact (cycleOps_prunesDelivered tick cycleInput _ i).isPrefix hbegun
    · rw [hnil]
      exact .of_none (by intro op hmem; cases hmem)
    · rw [hdrain]
      apply PrunesDelivered.of_none
      intro op hmem
      rw [List.mem_singleton.1 hmem]
      rfl

end Pruning

/-! ## Custody along a history -/

theorem slotMachine_distinctTargets (i : Fin 3) (ops : List SlotOp) :
    ((slotMachine cfg).state (slot₀ cfg i) ops).DistinctTargets :=
  (slotMachine_run i ops).slotInv.queue.increasing.imp fun hlt => Nat.ne_of_lt hlt

theorem slotMachine_tasked (i : Fin 3) (ops : List SlotOp) :
    ∀ call ∈ ((slotMachine cfg).state (slot₀ cfg i) ops).queue, call.Tasked := by
  refine (slotMachine cfg).state_invariant (slot₀ cfg i)
    (fun slot => ∀ call ∈ slot.queue, call.Tasked) ?_ ?_ ops
  · intro call hmem
    cases hmem
  · intro slot op ih
    exact op.tasked ih

/-- The effects of a history account for the tasks its slot owns. -/
theorem slotMachine_accounted (i : Fin 3) {ops : List SlotOp} (h : PrunesDelivered ops) :
    Accounted (slot₀ cfg i) ((slotMachine cfg).trace (slot₀ cfg i) ops)
      ((slotMachine cfg).state (slot₀ cfg i) ops) := by
  induction ops using List.reverseRecOn with
  | nil => exact .refl _
  | append_singleton ops op ih =>
    rw [slotMachine_trace_snoc, slotMachine_state_snoc]
    apply (ih (h.isPrefix (List.prefix_append _ _))).trans
    apply op.accounted (slotMachine_distinctTargets i ops) (slotMachine_tasked i ops)
    rintro currentTick rfl
    rcases h ops currentTick [] rfl with ⟨earlier, tickDurationMs, rfl⟩
    rw [Machine.state_append]
    exact sweepOps_cleared currentTick tickDurationMs _

/-- The slot part of `Drop for ProviderEngine`. -/
def Engine.drop (e : Engine) (stream : Fin 3) : List Effect := abortChain (e.slots stream).chain

/-- The effects after a hand-off say nothing of its target, and its call still
owns the task. -/
def StillOwned (slot : ManagedSlot) (after : List Effect) (target : Nat) (task : BroadcastTask) :
    Prop :=
  (∀ e ∈ after, taskMove target e = none) ∧
    ∃ call ∈ slot.queue, call.targetTick = target ∧ call.broadcast = some task

/-- The first effect after a hand-off that concerns its target joins the task
or aborts this very task. -/
def GivenUp (after : List Effect) (target : Nat) (task : BroadcastTask) : Prop :=
  ∃ between e rest, after = between ++ e :: rest ∧ (∀ e' ∈ between, taskMove target e' = none) ∧
    ((∃ kind redundant result, e = .harvested target kind redundant result) ∨
      e = .aborted target task)

theorem taskMove_give {target : Nat} {e : Effect} {named : Option BroadcastTask}
    (h : taskMove target e = some (.give named)) :
    (∃ kind redundant result, e = .harvested target kind redundant result) ∨
      ∃ task, named = some task ∧ e = .aborted target task := by
  unfold taskMove at h
  split at h
  · split at h <;> cases h
  · split at h
    · rename_i htarget
      exact .inl ⟨_, _, _, by rw [htarget]⟩
    · cases h
  · split at h
    · rename_i htarget
      cases h
      exact .inr ⟨_, rfl, by rw [htarget]⟩
    · cases h
  · cases h

/-- The replayed moves, read back in the effects. -/
theorem fate_of_handed {slot : ManagedSlot} {before after : List Effect}
    {currentTick target : Nat} {kind : CallKind} {redundant : Bool} {task : BroadcastTask}
    (h : Custody.run none ((before ++ .handed currentTick target kind redundant task ::
      after).filterMap (taskMove target)) = some (ownedTask slot target)) :
    StillOwned slot after target task ∨ GivenUp after target task := by
  rw [List.filterMap_append, List.filterMap_cons] at h
  simp only [taskMove, if_true] at h
  rcases Custody.fate_of_take h with ⟨howned, hnil⟩ | ⟨named, rest, hgive, hnamed⟩
  · left
    refine ⟨List.filterMap_eq_nil_iff.1 hnil, ?_⟩
    unfold ownedTask Custody.holding at howned
    rcases Option.bind_eq_some_iff.1 howned with ⟨call, hfind, htask⟩
    exact ⟨call, List.mem_of_find?_eq_some hfind, by simpa using List.find?_some hfind, htask⟩
  · right
    rcases List.filterMap_eq_cons_iff.1 hgive with ⟨between, e, later, rfl, hbetween, he, -⟩
    refine ⟨between, e, later, rfl, hbetween, ?_⟩
    rcases taskMove_give he with hharvested | ⟨named', hsome, haborted⟩
    · exact .inl hharvested
    · right
      rw [haborted, hnamed named' hsome]

/-- The tasks of a stream at a point of its history. -/
structure TasksOwned (slot : ManagedSlot) (t : List Effect) : Prop where
  /-- A broadcasting call owns a task. -/
  running : ∀ call ∈ slot.queue, call.state = .broadcasting → call.broadcast.isSome
  /-- Besides it only an accepted call may own one, its additional broadcast. -/
  owner : ∀ call ∈ slot.queue, call.broadcast.isSome →
    call.state = .broadcasting ∨ (call.state = .accepted ∧ call.redundantAttempted = true)
  distinct : slot.DistinctTargets
  /-- Every task started is still owned by its call, or was joined or aborted. -/
  fate : ∀ before currentTick target kind redundant task after,
    t = before ++ .handed currentTick target kind redundant task :: after →
      StillOwned slot after target task ∨ GivenUp after target task

theorem tasksOwned (i : Fin 3) {ops : List SlotOp} (h : PrunesDelivered ops) :
    TasksOwned ((slotMachine cfg).state (slot₀ cfg i) ops)
      ((slotMachine cfg).trace (slot₀ cfg i) ops) where
  running call hmem := (slotMachine_tasked i ops call hmem).running
  owner call hmem := (slotMachine_tasked i ops call hmem).owner
  distinct := slotMachine_distinctTargets i ops
  fate := by
    intro before currentTick target kind redundant task after hsplit
    have hrun := @slotMachine_accounted cfg i _ h target
    rw [hsplit, ownedTask_of_none rfl] at hrun
    exact fate_of_handed hrun

/-- After the engine was dropped every task it started was joined or aborted. -/
theorem givenUp_of_drop (i : Fin 3) {ops : List SlotOp} (h : PrunesDelivered ops)
    {before after : List Effect} {currentTick target : Nat} {kind : CallKind} {redundant : Bool}
    {task : BroadcastTask}
    (hsplit : (slotMachine cfg).trace (slot₀ cfg i) ops ++
      abortChain ((slotMachine cfg).state (slot₀ cfg i) ops).chain =
        before ++ .handed currentTick target kind redundant task :: after) :
    GivenUp after target task := by
  let emptied : ManagedSlot := { (slotMachine cfg).state (slot₀ cfg i) ops with chain := none }
  have hdropped : Accounted _ _ emptied :=
    (@slotMachine_accounted cfg i _ h).trans
      (.abort (slotMachine_distinctTargets i ops) rfl)
  have hrun := hdropped target
  rw [hsplit, ownedTask_of_none rfl] at hrun
  rcases fate_of_handed hrun with ⟨-, call, hmem, -⟩ | hgiven
  · cases hmem
  · exact hgiven

/-- A cycle that completes leaves no task for a target that has come. -/
theorem cleared_of_cycle (e : Engine) (i : Fin 3) {input : CycleInput} {tick : TickInfo}
    (htick : input.tick = .ok tick) (herror : (engineStep cfg (.cycle input) e).error = none) :
    ((engineStep cfg (.cycle input) e).engine.slots i).Cleared tick.tick := by
  rw [engineStep_slots]
  simp only [engineStep, cycle, htick] at herror ⊢
  rw [(cycleAt_performed cfg tick input e).2 herror i]
  have hops : deliveryOps tick =
      sweepOps tick.tick tick.tickDurationMs ++ [.pruneCalls tick.tick] := rfl
  unfold cycleOps
  rw [hops, ← List.append_assoc, slotMachine_state_snoc, Machine.state_append]
  exact (sweepOps_cleared tick.tick tick.tickDurationMs _).of_subset (pruneCalls_queue tick.tick _)

/-- At every point of a run a call owns a task exactly while it broadcasts, or
for the one additional broadcast of an accepted call; every task started is
still owned by its call, or was joined or aborted before its call did anything
else with a task; dropping the engine aborts the rest; and after a cycle that
completes no task is owned for a target at or before the reported tick. -/
theorem broadcast_task_ownership (cfg : Config) (a b c : Nat) (inputs : List EngineInput)
    (i : Fin 3) :
    let e := (engineMachine cfg).state (Engine.new cfg a b c) inputs
    (∀ ops, ops <+: history cfg (Engine.new cfg a b c) inputs i →
      TasksOwned ((slotMachine cfg).state (slot₀ cfg i) ops)
        ((slotMachine cfg).trace (slot₀ cfg i) ops)) ∧
    (∀ before currentTick target kind redundant task after,
      runTrace cfg (Engine.new cfg a b c) inputs i ++ e.drop i =
        before ++ .handed currentTick target kind redundant task :: after →
          GivenUp after target task) ∧
    (∀ tick input, input.tick = .ok tick → (engineStep cfg (.cycle input) e).error = none →
      ∀ call ∈ ((engineStep cfg (.cycle input) e).engine.slots i).queue,
        call.targetTick ≤ tick.tick → call.broadcast = none) := by
  have hprunes := @history_prunesDelivered cfg (Engine.new cfg a b c) inputs i
  refine ⟨?_, ?_, ?_⟩
  · intro ops hbegun
    exact tasksOwned i (hprunes.isPrefix hbegun)
  · intro before currentTick target kind redundant task after hsplit
    apply @givenUp_of_drop cfg i _ hprunes
    rw [← hsplit, Engine.drop, slots_of_log]
    rfl
  · intro tick input htick herror
    exact cleared_of_cycle _ i htick herror

end RandomClient
