import RandomClient.Lib.Custody
import RandomClient.Linkage
import RandomClient.Windows

/-!
# The tasks of a slot

Dropping the handle of a task detaches the task and does not cancel it, so a
slot must join or abort every task it started. The tasks of a slot are kept in
custody under their targets (`Custody`): a hand-off takes one, a harvest or an
abort gives it up. For every operation the replay of its effects ends in what
the queue owns after it (`Accounted`), so no task is overwritten and none is
dropped. The one operation that drops calls without looking at their tasks is
`prune_calls`, which needs a cleared queue.
-/

namespace RandomClient

variable {cfg : Config}

/-! ## Who may own a task -/

/-- A call owns a task while it is broadcasting, and at most once more after it
was accepted. -/
structure PlannedCall.Tasked (call : PlannedCall) : Prop where
  running : call.state = .broadcasting → call.broadcast.isSome
  owner : call.broadcast.isSome →
    call.state = .broadcasting ∨ (call.state = .accepted ∧ call.redundantAttempted = true)

/-- A call that is not broadcasting and owns nothing. -/
theorem PlannedCall.Tasked.of_idle {call : PlannedCall} (hstate : call.state ≠ .broadcasting)
    (hidle : call.broadcast = none) : call.Tasked where
  running h := absurd h hstate
  owner h := by simp [hidle] at h

theorem SignedCall.tasked_planned (signed : SignedCall) : signed.planned.Tasked :=
  .of_idle BroadcastState.noConfusion rfl

/-- A call that may be sent now owns nothing. -/
theorem PlannedCall.Tasked.free_of_send {call : PlannedCall} (h : call.Tasked)
    {ctx : DispatchContext} {redundant : Bool} (hsend : dispatchOf ctx call = .send redundant) :
    call.broadcast = none := by
  rcases dispatchOf_send hsend with ⟨-, -, -, hred, hstate, -⟩
  by_contra htask
  rcases h.owner (Option.isSome_iff_ne_none.2 htask) with hown | ⟨hown, hattempted⟩
  · cases redundant with
    | false => rcases hstate rfl with hstate | hstate <;> simp [hown] at hstate
    | true => simp [(isRedundant_eq_true.1 hred.symm).2.2.1] at hown
  · cases redundant with
    | false => rcases hstate rfl with hstate | hstate <;> simp [hown] at hstate
    | true => simp [(isRedundant_eq_true.1 hred.symm).2.2.2.2.1] at hattempted

theorem PlannedCall.Swept.tasked {state : SlotState} {tick : Option Nat} {call call' : PlannedCall}
    (h : call.Swept state tick call') (hok : call.Tasked) : call'.Tasked := by
  cases h with
  | same => exact hok
  | harvest results =>
    unfold harvestCall
    split
    · exact hok
    · -- the additional broadcast of an accepted call
      rename_i hharvest
      refine .of_idle ?_ rfl
      intro hstate
      have hstate : call.state = .broadcasting := hstate
      unfold harvestOf at hharvest
      split at hharvest
      · rw [if_neg (by simp [hstate])] at hharvest
        split at hharvest
        · cases hharvest
        · split at hharvest <;> cases hharvest
      · cases hharvest
    all_goals exact .of_idle BroadcastState.noConfusion rfl
  | expire currentTick firstTarget htick =>
    unfold expireCall
    split
    · exact hok
    · rename_i hsettled
      refine .of_idle ?_ rfl
      intro hstate
      have hstate : call.state = .broadcasting := hstate
      unfold expiryOf at hsettled
      rw [if_neg (c := call.state = .accepted ∨ call.state = .failed) (by simp [hstate])] at hsettled
      split at hsettled
      · cases hsettled
      · split at hsettled <;> cases hsettled
    all_goals exact .of_idle BroadcastState.noConfusion rfl
  | dispatch currentTick tickDurationMs chain =>
    unfold dispatchCall
    split
    · exact hok
    · -- a call given up had been waiting for its retry
      rename_i hfail
      refine .of_idle BroadcastState.noConfusion ?_
      by_contra htask
      have hown := hok.owner (Option.isSome_iff_ne_none.2 htask)
      simp [(dispatchOf_failTerminal hfail).2.2] at hown
    · rename_i hsend
      rcases dispatchOf_send hsend with ⟨-, -, -, hred, -⟩
      have haccepted := (isRedundant_eq_true.1 hred.symm).2.2.1
      exact ⟨fun _ => rfl, fun _ => .inr ⟨haccepted, rfl⟩⟩
    · exact ⟨fun _ => rfl, fun _ => .inl rfl⟩

theorem SlotOp.tasked (op : SlotOp) {slot : ManagedSlot} (h : ∀ call ∈ slot.queue, call.Tasked) :
    ∀ call ∈ (op.run cfg slot).slot.queue, call.Tasked := by
  intro call' hmem
  rcases op.queueAfter slot call' hmem with ⟨call, hcall, hswept⟩ | ⟨signed, -, rfl⟩
  · exact hswept.tasked (h call hcall)
  · exact signed.tasked_planned

/-! ## Custody of the tasks of a slot -/

/-- The move an effect is for the task of a target. -/
def taskMove (target : Nat) : Effect → Option (Custody.Move BroadcastTask)
  | .handed _ target' _ _ task => if target' = target then some (.take task) else none
  | .harvested target' _ _ _ => if target' = target then some (.give none) else none
  | .aborted target' task => if target' = target then some (.give (some task)) else none
  | _ => none

/-- The task the queue owns for a target. -/
def ownedTask (slot : ManagedSlot) (target : Nat) : Option BroadcastTask :=
  Custody.holding PlannedCall.targetTick PlannedCall.broadcast slot.queue target

/-- Replayed from what one slot owns, the effects end in what the other owns. -/
def Accounted (slot : ManagedSlot) (effects : List Effect) (slot' : ManagedSlot) : Prop :=
  ∀ target, Custody.run (ownedTask slot target) (effects.filterMap (taskMove target)) =
    some (ownedTask slot' target)

/-- The targets along the queue are distinct. -/
abbrev ManagedSlot.DistinctTargets (slot : ManagedSlot) : Prop :=
  (slot.queue.map PlannedCall.targetTick).Nodup

section Accounts

variable {slot slot' slot'' : ManagedSlot} {u v : List Effect}

theorem Accounted.trans (h : Accounted slot u slot') (h' : Accounted slot' v slot'') :
    Accounted slot (u ++ v) slot'' := by
  intro target
  rw [List.filterMap_append, Custody.run_append (h target)]
  exact h' target

/-- Effects that move no task. -/
def Still (effects : List Effect) : Prop :=
  ∀ e ∈ effects, ∀ target, taskMove target e = none

theorem Still.filterMap (h : Still u) (target : Nat) : u.filterMap (taskMove target) = [] := by
  rw [List.filterMap_eq_nil_iff]
  intro e he
  exact h e he target

theorem Still.nil : Still [] := by
  intro e he
  cases he

theorem Accounted.still (hu : Still u) (h : ∀ target, ownedTask slot' target = ownedTask slot target) :
    Accounted slot u slot' := by
  intro target
  rw [hu.filterMap, h]
  rfl

theorem Accounted.of_queue (hu : Still u) (h : slot'.queue = slot.queue) :
    Accounted slot u slot' := by
  apply Accounted.still hu
  intro target
  rw [ownedTask, ownedTask, h]

theorem Accounted.refl (slot : ManagedSlot) : Accounted slot [] slot := .of_queue .nil rfl

/-- Further effects that move no task. -/
theorem Accounted.append_still (h : Accounted slot u slot') (hv : Still v) :
    Accounted slot (u ++ v) slot' :=
  h.trans (.of_queue hv rfl)

theorem Accounted.still_append (hv : Still v) (h : Accounted slot u slot') :
    Accounted slot (v ++ u) slot' :=
  (Accounted.of_queue hv rfl).trans h

/-- Without a chain nothing is owned. -/
theorem ownedTask_of_none (h : slot.chain = none) (target : Nat) : ownedTask slot target = none := by
  simp [ownedTask, ManagedSlot.queue, h]

theorem ownedTask_of_idle (h : ∀ call ∈ slot.queue, call.broadcast = none) (target : Nat) :
    ownedTask slot target = none :=
  Custody.holding_of_idle _ _ h target

/-- Every call's effects concern the task of its own target, and replay it. -/
theorem Accounted.sweep (hkeys : slot.DistinctTargets) {f : PlannedCall → PlannedCall}
    {effects : PlannedCall → List Effect} (hkeeps : ∀ call : PlannedCall, call.Keeps (f call))
    (hqueue : slot'.queue = slot.queue.map f)
    (hother : ∀ call ∈ slot.queue, ∀ target, target ≠ call.targetTick →
      (effects call).filterMap (taskMove target) = [])
    (hown : ∀ call ∈ slot.queue, Custody.run call.broadcast
      ((effects call).filterMap (taskMove call.targetTick)) = some (f call).broadcast) :
    Accounted slot (slot.queue.flatMap effects) slot' := by
  intro target
  unfold ownedTask
  rw [hqueue]
  exact Custody.run_flatMap _ _ hkeys (fun call => (hkeeps call).target) hother hown target

/-- A signed call is queued without a task. -/
theorem Accounted.sign {calls : List SignedCall}
    (hqueue : slot'.queue = slot.queue ++ calls.map SignedCall.planned) :
    Accounted slot (calls.map Effect.signed) slot' := by
  apply Accounted.still
  · intro e he target
    rcases List.mem_map.1 he with ⟨call, -, rfl⟩
    rfl
  · intro target
    unfold ownedTask
    rw [hqueue]
    apply Custody.holding_append
    intro call hmem
    rcases List.mem_map.1 hmem with ⟨signed, -, rfl⟩
    rfl

/-! ### Aborting -/

/-- The abort of one call's task. -/
def abortCall (call : PlannedCall) : List Effect := abortCalls [call]

theorem abortCalls_eq_flatMap (calls : List PlannedCall) :
    abortCalls calls = calls.flatMap abortCall := by
  induction calls with
  | nil => rfl
  | cons call calls ih =>
    have hcons : abortCalls (call :: calls) = abortCall call ++ abortCalls calls := by
      unfold abortCall abortCalls
      rw [← List.filterMap_append]
      rfl
    rw [hcons, ih, List.flatMap_cons]

theorem abortCall_other (call : PlannedCall) {target : Nat} (h : target ≠ call.targetTick) :
    (abortCall call).filterMap (taskMove target) = [] := by
  unfold abortCall abortCalls
  cases hbroadcast : call.broadcast with
  | none => simp [hbroadcast]
  | some task => simp [hbroadcast, taskMove, Ne.symm h]

theorem abortCall_own (call : PlannedCall) : Custody.run call.broadcast
    ((abortCall call).filterMap (taskMove call.targetTick)) = some none := by
  unfold abortCall abortCalls
  cases hbroadcast : call.broadcast with
  | none => simp [hbroadcast]
  | some task => simp [hbroadcast, taskMove, Custody.run, Custody.step]

/-- `abort_chain` gives up every task of the slot. -/
theorem Accounted.abort (hkeys : slot.DistinctTargets) (hnone : slot'.chain = none) :
    Accounted slot (abortChain slot.chain) slot' := by
  have hidle : ∀ target, ownedTask slot' target = none := ownedTask_of_none hnone
  cases hchain : slot.chain with
  | none =>
    apply Accounted.of_queue .nil
    simp [ManagedSlot.queue, hchain, hnone]
  | some chain =>
    let f (call : PlannedCall) : PlannedCall := { call with broadcast := none }
    have hqueue := queue_of_chain hchain
    have hcleared : Accounted slot (slot.queue.flatMap abortCall)
        { slot with chain := some { chain with calls := slot.queue.map f } } := by
      refine Accounted.sweep hkeys (f := f) (fun _ => ⟨rfl, rfl, rfl⟩) rfl ?_ ?_
      · intro call _ target hne
        exact abortCall_other call hne
      · intro call _
        exact abortCall_own call
    rw [hqueue, ← abortCalls_eq_flatMap] at hcleared
    intro target
    rw [show abortChain (some chain) = abortCalls chain.calls from rfl, hcleared target, hidle,
      ownedTask_of_idle]
    intro call hmem
    rcases List.mem_map.1 hmem with ⟨_, -, rfl⟩
    rfl

end Accounts

/-! ## The operations keep custody -/

section Operations

variable {slot : ManagedSlot}

theorem still_failure (failure : Option Nat) : Still (match failure with
    | some target => [Effect.financialFailure target]
    | none => []) := by
  intro e he target
  cases failure with
  | none => cases he
  | some _ =>
    rw [List.mem_singleton.1 he]
    rfl

theorem loseChain_accounted (hkeys : slot.DistinctTargets) (after : Nat) (observed : Bool) :
    Accounted slot (loseChain after observed slot).effects
      (loseChain after observed slot).slot := by
  unfold loseChain
  dsimp only
  split
  · exact .abort hkeys rfl
  · exact .abort hkeys rfl

/-- A second operation after a first. -/
theorem Accounted.followedBy {r : SlotResult} {next : ManagedSlot → SlotResult}
    (h : Accounted slot r.effects r.slot)
    (hnext : Accounted r.slot (next r.slot).effects (next r.slot).slot) :
    Accounted slot (r.followedBy next).effects (r.followedBy next).slot :=
  h.trans hnext

theorem distinctTargets_map {slot' : ManagedSlot} {f : PlannedCall → PlannedCall}
    (hkeys : slot.DistinctTargets) (hkeeps : ∀ call : PlannedCall, call.Keeps (f call))
    (hqueue : slot'.queue = slot.queue.map f) : slot'.DistinctTargets := by
  have htargets : PlannedCall.targetTick ∘ f = PlannedCall.targetTick :=
    funext fun call => (hkeeps call).target
  unfold ManagedSlot.DistinctTargets
  rw [hqueue, List.map_map, htargets]
  exact hkeys

/-- Expiry clears the task of every call whose target has come. -/
theorem expireCall_broadcast (currentTick firstTarget : Nat) (call : PlannedCall) :
    (expireCall currentTick firstTarget call).broadcast =
      if call.targetTick ≤ currentTick then none else call.broadcast := by
  unfold expireCall
  cases hexpiry : expiryOf currentTick firstTarget call with
  | future =>
    unfold expiryOf at hexpiry
    split at hexpiry
    · rename_i htarget
      rw [if_neg (Nat.not_le.2 htarget)]
    · repeat' split at hexpiry
      all_goals cases hexpiry
  | _ =>
    have htarget : call.targetTick ≤ currentTick := by
      by_contra hlt
      simp [expiryOf, Nat.not_le.1 hlt] at hexpiry
    rw [if_pos htarget]

/-- The loop of `expire_calls` aborts the tasks it clears. -/
theorem expireAborts_accounted (hkeys : slot.DistinctTargets) {chain : Chain}
    (hchain : slot.chain = some chain) (currentTick : Nat) :
    Accounted slot (expireAborts currentTick chain.calls)
      { slot with chain := some { chain with
          calls := chain.calls.map (expireCall currentTick chain.firstTarget) } } := by
  let effects (call : PlannedCall) : List Effect :=
    if call.targetTick ≤ currentTick then abortCall call else []
  have heffects : expireAborts currentTick chain.calls = slot.queue.flatMap effects := by
    rw [queue_of_chain hchain, expireAborts, abortCalls_eq_flatMap]
    induction chain.calls with
    | nil => rfl
    | cons call calls ih =>
      rw [List.filter_cons, List.flatMap_cons, ← ih]
      by_cases htarget : call.targetTick ≤ currentTick <;> simp [effects, htarget]
  rw [heffects]
  refine Accounted.sweep hkeys (expireCall_keeps currentTick chain.firstTarget)
    (by rw [queue_of_chain hchain]; rfl) ?_ ?_
  · intro call _ target hne
    simp only [effects]
    split
    · exact abortCall_other call hne
    · rfl
  · intro call _
    simp only [effects, expireCall_broadcast]
    split
    · exact abortCall_own call
    · rfl

theorem expireCalls_accounted (hkeys : slot.DistinctTargets) (currentTick : Nat) :
    Accounted slot (expireCalls currentTick slot).effects (expireCalls currentTick slot).slot := by
  unfold expireCalls
  split
  · exact .refl slot
  · rename_i chain hchain
    have hswept := expireAborts_accounted hkeys hchain currentTick
    have hkeys' : ({ slot with chain := some { chain with
        calls := chain.calls.map (expireCall currentTick chain.firstTarget) } } :
          ManagedSlot).DistinctTargets :=
      distinctTargets_map hkeys (expireCall_keeps currentTick chain.firstTarget)
        (by rw [queue_of_chain hchain]; rfl)
    dsimp only
    split
    · exact hswept
    · have hnoted := hswept.append_still (still_failure (expiryFailure slot.state
        (expiredCalls currentTick chain.firstTarget chain.calls)))
      split
      · exact hnoted.followedBy (loseChain_accounted hkeys' _ _)
      · exact hnoted.followedBy (loseChain_accounted hkeys' _ _)
      · exact hnoted.followedBy (.abort hkeys' rfl)
      · exact hnoted
      · exact hnoted
      · exact hnoted

theorem dispatchEffects_other (ctx : DispatchContext) (tickDurationMs : Nat) (call : PlannedCall)
    {target : Nat} (h : target ≠ call.targetTick) :
    (dispatchEffects ctx tickDurationMs call).filterMap (taskMove target) = [] := by
  unfold dispatchEffects
  split
  · rfl
  · rfl
  · split <;> simp [taskMove, Ne.symm h]

theorem dispatchEffects_own {call : PlannedCall} (h : call.Tasked) (ctx : DispatchContext)
    (tickDurationMs : Nat) : Custody.run call.broadcast
      ((dispatchEffects ctx tickDurationMs call).filterMap (taskMove call.targetTick)) =
        some (dispatchCall ctx tickDurationMs call).broadcast := by
  unfold dispatchEffects dispatchCall
  cases hdispatch : dispatchOf ctx call with
  | skip => rfl
  | failTerminal => rfl
  | send redundant =>
    rw [h.free_of_send hdispatch]
    cases redundant <;> dsimp only <;> split <;>
      simp [List.filterMap_cons, taskMove, Custody.run, Custody.step]

theorem dispatchCalls_accounted (hkeys : slot.DistinctTargets)
    (htasked : ∀ call ∈ slot.queue, call.Tasked) (currentTick tickDurationMs : Nat) :
    Accounted slot (dispatchCalls currentTick tickDurationMs slot).effects
      (dispatchCalls currentTick tickDurationMs slot).slot := by
  unfold dispatchCalls
  split
  · exact .refl slot
  · rename_i chain hchain
    dsimp only
    apply Accounted.append_still _ (still_failure _)
    rw [← queue_of_chain hchain]
    refine Accounted.sweep hkeys (dispatchCall_keeps _ tickDurationMs)
      (by rw [queue_of_chain hchain]; rfl) ?_ ?_
    · intro call _ target hne
      exact dispatchEffects_other _ tickDurationMs call hne
    · intro call hmem
      exact dispatchEffects_own (htasked call hmem) _ tickDurationMs

theorem harvestEffects_other (shutdownDrain : Bool) (results : Nat → Option Delivery)
    (call : PlannedCall) {target : Nat} (h : target ≠ call.targetTick) :
    (harvestEffects shutdownDrain results call).filterMap (taskMove target) = [] := by
  unfold harvestEffects
  split <;> simp [taskMove, Ne.symm h]

theorem harvestEffects_own (shutdownDrain : Bool) (results : Nat → Option Delivery)
    (call : PlannedCall) : Custody.run call.broadcast
      ((harvestEffects shutdownDrain results call).filterMap (taskMove call.targetTick)) =
        some (harvestCall shutdownDrain results call).broadcast := by
  unfold harvestEffects harvestCall
  cases hharvest : harvestOf shutdownDrain results call with
  | pending => rfl
  | _ =>
    -- only a call with a task is joined
    cases hbroadcast : call.broadcast with
    | none => simp [harvestOf, hbroadcast] at hharvest
    | some task => simp [taskMove, Custody.run, Custody.step]

theorem harvestBroadcasts_accounted (hkeys : slot.DistinctTargets)
    (results : Nat → Option Delivery) :
    Accounted slot (harvestBroadcasts results slot).effects
      (harvestBroadcasts results slot).slot := by
  unfold harvestBroadcasts
  split
  · exact .refl slot
  · rename_i chain hchain
    dsimp only
    rw [List.append_assoc]
    apply Accounted.append_still
    · rw [← queue_of_chain hchain]
      refine Accounted.sweep hkeys (harvestCall_keeps _ results)
        (by rw [queue_of_chain hchain]; rfl) ?_ ?_
      · intro call _ target hne
        exact harvestEffects_other _ results call hne
      · intro call _
        exact harvestEffects_own _ results call
    · intro e he target
      rcases List.mem_append.1 he with he | he
      · rcases List.mem_map.1 he with ⟨_, -, rfl⟩
        rfl
      · rcases List.mem_map.1 he with ⟨_, -, rfl⟩
        rfl

theorem Chain.extendAll_calls (signed : List SignedCall) (chain : Chain) :
    (chain.extendAll signed).calls = chain.calls ++ signed.map SignedCall.planned := by
  induction signed generalizing chain with
  | nil => simp [Chain.extendAll]
  | cons call signed ih =>
    have hrest := ih (chain.extendBy call (call.preimage.getD chain.outstandingPreimage))
    rw [List.map_cons, List.append_cons]
    exact hrest

theorem startIfReady_accounted (env : SigningEnv) (currentTick : Nat) :
    Accounted slot (startIfReady cfg env currentTick slot).effects
      (startIfReady cfg env currentTick slot).slot := by
  unfold startIfReady
  split
  · split
    · exact .refl slot
    · split
      · exact .refl slot
      · dsimp only
        split
        · exact .refl slot
        · -- the older calls stay queued, and the new one owns nothing
          exact @Accounted.sign _ _ [_] rfl
  · exact .refl slot

theorem extendChain_accounted (hkeys : slot.DistinctTargets) (env : SigningEnv)
    (currentTick : Nat) :
    Accounted slot (extendChain cfg env currentTick slot).effects
      (extendChain cfg env currentTick slot).slot := by
  unfold extendChain
  split
  · rename_i hstate
    split
    · rename_i missed hmissed
      rcases Option.bind_eq_some_iff.1 hmissed with ⟨chain, hchain, -⟩
      apply (expireCalls_accounted hkeys currentTick).followedBy
      split
      · rename_i hafter
        have hkeys' : (expireCalls currentTick slot).slot.DistinctTargets := by
          rw [expireCalls_of_planning hstate hchain hafter]
          exact distinctTargets_map hkeys (expireCall_keeps currentTick chain.firstTarget)
            (by rw [queue_of_chain hchain]; rfl)
        have hstill : Still [Effect.financialFailure missed] := by
          intro e he target
          rw [List.mem_singleton.1 he]
          rfl
        exact Accounted.still_append hstill (loseChain_accounted hkeys' _ _)
      · exact .refl _
    · split
      · exact .refl slot
      · rename_i horizon hhorizon
        split
        · exact .refl slot
        · rename_i chain hchain
          rcases extendLoop_extendAll cfg env currentTick horizon (horizon - chain.lastTarget)
            slot.key chain with ⟨calls, heffects, hafter⟩
          dsimp only
          rw [heffects, hafter]
          apply Accounted.sign
          rw [queue_of_chain hchain]
          exact Chain.extendAll_calls calls chain
  · exact .refl slot

theorem enterDrain_accounted (env : SigningEnv) (reason : DrainReason) :
    Accounted slot (enterDrain cfg env reason slot).effects
      (enterDrain cfg env reason slot).slot := by
  unfold enterDrain
  split
  · exact .refl slot
  · exact .refl slot
  · exact .of_queue .nil rfl
  · exact .of_queue .nil rfl
  all_goals
    split
    · exact .refl slot
    · rename_i chain hchain
      split
      · exact .refl slot
      · dsimp only
        split
        · exact .refl slot
        · exact @Accounted.sign _ _ [_] (by rw [queue_of_chain hchain]; rfl)

/-! ### Status -/

theorem beginStatusRestart_accounted (hkeys : slot.DistinctTargets) (after : Nat)
    (observed : Bool) :
    Accounted slot (beginStatusRestart after observed slot).effects
      (beginStatusRestart after observed slot).slot := by
  have hstill : ∀ tail restarting, Still [Effect.froze tail restarting] := by
    intro tail restarting e he target
    rw [List.mem_singleton.1 he]
    rfl
  unfold beginStatusRestart
  split
  · exact .refl slot
  · rename_i chain hchain
    split
    · exact Accounted.append_still (.abort hkeys rfl) (hstill _ _)
    · exact .of_queue (hstill _ _) rfl

theorem observeStatusEvidence_accounted (hkeys : slot.DistinctTargets) (evidence : StatusEvidence)
    (requestedTick : Nat) :
    Accounted slot (observeStatusEvidence evidence requestedTick slot).effects
      (observeStatusEvidence evidence requestedTick slot).slot := by
  unfold observeStatusEvidence
  split
  · exact .refl slot
  · rename_i chain hchain
    split
    · exact .refl slot
    · generalize suspicionAfter chain.statusSuspicion evidence requestedTick = suspicion
      have hwatched : Accounted slot [] { slot with chain := some { chain with
          statusSuspicion := some suspicion } } :=
        .of_queue .nil (by rw [queue_of_chain hchain]; rfl)
      have hkeys' : ({ slot with chain := some { chain with
          statusSuspicion := some suspicion } } : ManagedSlot).DistinctTargets := by
        unfold ManagedSlot.DistinctTargets at hkeys ⊢
        rw [queue_of_chain hchain] at hkeys
        exact hkeys
      dsimp only
      split
      · exact hwatched.trans (Accounted.still_append (still_failure _)
          (beginStatusRestart_accounted hkeys' _ _))
      · exact hwatched

theorem applyConfirmationWatermark_accounted (hkeys : slot.DistinctTargets)
    (confirmedTick requestedTick : Nat) :
    Accounted slot (applyConfirmationWatermark confirmedTick requestedTick slot).effects
      (applyConfirmationWatermark confirmedTick requestedTick slot).slot := by
  unfold applyConfirmationWatermark applyAcknowledgement
  split
  · exact .refl slot
  · rename_i chain hchain
    split
    · exact .refl slot
    · rename_i chain' hack
      rcases Chain.acknowledge_chain (.inl hack) with ⟨confirmed, suspicion, rfl⟩
      exact .of_queue .nil (by rw [queue_of_chain hchain]; rfl)
    · rename_i chain' target hack
      rcases Chain.acknowledge_chain (.inr ⟨target, hack⟩) with ⟨confirmed, suspicion, rfl⟩
      have hqueue : ({ slot with chain := some { chain with
          confirmedThrough := confirmed, statusSuspicion := suspicion } } : ManagedSlot).queue =
            slot.queue := by
        rw [queue_of_chain hchain]
        rfl
      have hkeys' : ({ slot with chain := some { chain with
          confirmedThrough := confirmed, statusSuspicion := suspicion } } :
            ManagedSlot).DistinctTargets := by
        unfold ManagedSlot.DistinctTargets
        rw [hqueue]
        exact hkeys
      exact (Accounted.of_queue .nil hqueue).trans
        (observeStatusEvidence_accounted hkeys' (.lag target) requestedTick)

theorem applyStatus_accounted (hkeys : slot.DistinctTargets) (observation : StatusObservation) :
    Accounted slot (applyStatus observation slot).effects (applyStatus observation slot).slot := by
  have hactive : Accounted slot [] { slot with state := .active } := .of_queue .nil rfl
  have hkeys' : ({ slot with state := .active } : ManagedSlot).DistinctTargets := hkeys
  unfold applyStatus
  dsimp only
  split
  · exact .refl slot
  · exact .refl slot
  · exact .of_queue .nil rfl
  · split
    · split
      · exact hactive.trans (applyConfirmationWatermark_accounted hkeys' _ _)
      · split
        · exact observeStatusEvidence_accounted hkeys _ _
        · exact .refl slot
    · split
      · exact observeStatusEvidence_accounted hkeys _ _
      · exact .refl slot
  · split
    · split
      · exact applyConfirmationWatermark_accounted hkeys _ _
      · exact observeStatusEvidence_accounted hkeys _ _
    · exact observeStatusEvidence_accounted hkeys _ _
  · exact .of_queue .nil rfl

/-! ### Finishing and pruning -/

theorem finishDrain_accounted (hkeys : slot.DistinctTargets) :
    Accounted slot (finishDrain slot).effects (finishDrain slot).slot := by
  unfold finishDrain
  split
  · dsimp only
    split
    · exact .abort hkeys rfl
    · exact .abort hkeys rfl
    · exact .refl slot
  · exact .refl slot

theorem finishStatusRestart_accounted (hkeys : slot.DistinctTargets) (currentTick : Nat) :
    Accounted slot (finishStatusRestart currentTick slot).effects
      (finishStatusRestart currentTick slot).slot := by
  unfold finishStatusRestart
  split
  · split
    · exact .refl slot
    · exact .abort hkeys rfl
  · exact .refl slot

/-- No call whose target has come owns a task. -/
def ManagedSlot.Cleared (slot : ManagedSlot) (currentTick : Nat) : Prop :=
  ∀ call ∈ slot.queue, call.targetTick ≤ currentTick → call.broadcast = none

/-- Only calls whose target has come are pruned. -/
theorem pruneCalls_accounted (hkeys : slot.DistinctTargets) {currentTick : Nat}
    (hcleared : slot.Cleared currentTick) :
    Accounted slot (pruneCalls currentTick slot).effects (pruneCalls currentTick slot).slot := by
  unfold pruneCalls
  split
  · exact .refl slot
  · split
    · exact .refl slot
    · rename_i chain hchain
      apply Accounted.still .nil
      intro target
      unfold ownedTask
      rw [queue_of_chain hchain]
      have hkeys' : (chain.calls.map PlannedCall.targetTick).Nodup := by
        rw [← queue_of_chain hchain]
        exact hkeys
      refine Custody.holding_filter _ _ hkeys' ?_ target
      intro call hmem hdrop
      apply hcleared call (by rw [queue_of_chain hchain]; exact hmem)
      unfold keepsCall at hdrop
      by_contra htarget
      split at hdrop <;> simp at hdrop <;> omega

theorem SlotOp.accounted (op : SlotOp) (hkeys : slot.DistinctTargets)
    (htasked : ∀ call ∈ slot.queue, call.Tasked)
    (hprune : ∀ currentTick, op = .pruneCalls currentTick → slot.Cleared currentTick) :
    Accounted slot (op.run cfg slot).effects (op.run cfg slot).slot := by
  cases op with
  | reset =>
    have hstill : Still [Effect.reset] := by
      intro e he target
      rw [List.mem_singleton.1 he]
      rfl
    exact Accounted.append_still (.abort hkeys rfl) hstill
  | harvestBroadcasts results => exact harvestBroadcasts_accounted hkeys results
  | applyStatus observation => exact applyStatus_accounted hkeys observation
  | enterDrain env reason => exact enterDrain_accounted env reason
  | startIfReady env currentTick => exact startIfReady_accounted env currentTick
  | extendChain env currentTick => exact extendChain_accounted hkeys env currentTick
  | expireCalls currentTick => exact expireCalls_accounted hkeys currentTick
  | dispatchCalls currentTick tickDurationMs =>
    exact dispatchCalls_accounted hkeys htasked currentTick tickDurationMs
  | finishDrain => exact finishDrain_accounted hkeys
  | finishStatusRestart currentTick => exact finishStatusRestart_accounted hkeys currentTick
  | pruneCalls currentTick => exact pruneCalls_accounted hkeys (hprune currentTick rfl)

end Operations

end RandomClient
