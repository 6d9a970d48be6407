import RandomClient.Attribution
import RandomClient.Erasure
import RandomClient.Separation

/-!
# Extending a chain after any movement of the tick

`extend_chain` either continues a chain up to six ticks ahead, or, when the next
target has come already, gives the chain up without signing anything. A chain that
is being planned has no failed call of its own (`Undecided`), so what an expiry
finds are exactly its unaccepted calls.
-/

namespace RandomClient

variable {cfg : Config}

/-! ## No failed call in a planned chain -/

/-- No call of the current chain has failed. -/
def ManagedSlot.Unfailed (slot : ManagedSlot) : Prop :=
  ∀ chain, slot.chain = some chain → ∀ call ∈ chain.calls, chain.firstTarget ≤ call.targetTick →
    call.state ≠ .failed

/-- A slot in Starting or Active has no failed call of its current chain. -/
def ManagedSlot.Undecided (slot : ManagedSlot) : Prop :=
  slot.state.isPlanning = true → slot.Unfailed

section Unfailed

variable {slot : ManagedSlot}

theorem ManagedSlot.Unfailed.of_none (h : slot.chain = none) : slot.Unfailed := by
  intro chain hchain
  rw [h] at hchain
  cases hchain

/-- The chain keeps its first target and every call left was there, or is not failed. -/
theorem ManagedSlot.Unfailed.of_calls (h : slot.Unfailed) {slot' : ManagedSlot}
    {chain chain' : Chain} (hchain : slot.chain = some chain) (hchain' : slot'.chain = some chain')
    (hfirst : chain'.firstTarget = chain.firstTarget)
    (hcalls : ∀ call' ∈ chain'.calls, call' ∈ chain.calls ∨ call'.state ≠ .failed) :
    slot'.Unfailed := by
  intro other hother call hmem hcurrent
  rw [hchain', Option.some.injEq] at hother
  subst hother
  rcases hcalls call hmem with hold | hstate
  · rw [hfirst] at hcurrent
    exact h chain hchain call hold hcurrent
  · exact hstate

/-- A sweep that fails no call of the chain. -/
theorem ManagedSlot.Unfailed.of_map (h : slot.Unfailed) {slot' : ManagedSlot} {chain : Chain}
    (hchain : slot.chain = some chain) {f : PlannedCall → PlannedCall}
    (hchain' : slot'.chain = some { chain with calls := chain.calls.map f })
    (hkeeps : ∀ call : PlannedCall, call.Keeps (f call))
    (hfailed : ∀ call ∈ chain.calls, chain.firstTarget ≤ call.targetTick →
      (f call).state = .failed → call.state = .failed) : slot'.Unfailed := by
  intro other hother call' hmem hcurrent
  rw [hchain', Option.some.injEq] at hother
  subst hother
  rcases List.mem_map.1 hmem with ⟨call, hcall, rfl⟩
  rw [(hkeeps call).target] at hcurrent
  intro hstate
  exact h chain hchain call hcall hcurrent (hfailed call hcall hcurrent hstate)

theorem beginStatusRestart_unfailed (h : slot.Unfailed) (after : Nat) (observed : Bool) :
    (beginStatusRestart after observed slot).slot.Unfailed := by
  unfold beginStatusRestart
  split
  · exact h
  · split
    · exact .of_none rfl
    · exact h

theorem observeStatusEvidence_unfailed (h : slot.Unfailed) (evidence : StatusEvidence)
    (requestedTick : Nat) : (observeStatusEvidence evidence requestedTick slot).slot.Unfailed := by
  unfold observeStatusEvidence
  split
  · exact h
  · rename_i chain hchain
    have hsame : ∀ suspicion, ManagedSlot.Unfailed { slot with
        chain := some { chain with statusSuspicion := suspicion } } := fun suspicion =>
      h.of_calls hchain rfl rfl fun _ hmem => .inl hmem
    split
    · exact h
    · dsimp only
      split
      · exact beginStatusRestart_unfailed (hsame _) _ _
      · exact hsame _

theorem applyConfirmationWatermark_unfailed (h : slot.Unfailed) (confirmedTick requestedTick : Nat) :
    (applyConfirmationWatermark confirmedTick requestedTick slot).slot.Unfailed := by
  unfold applyConfirmationWatermark applyAcknowledgement
  split
  · exact h
  · rename_i chain hchain
    split
    · exact h
    · rename_i chain' hack
      rcases Chain.acknowledge_chain (.inl hack) with ⟨_, _, rfl⟩
      exact h.of_calls hchain rfl rfl fun _ hmem => .inl hmem
    · rename_i chain' target hack
      rcases Chain.acknowledge_chain (.inr ⟨target, hack⟩) with ⟨_, _, rfl⟩
      apply observeStatusEvidence_unfailed
      exact h.of_calls hchain rfl rfl fun _ hmem => .inl hmem

theorem applyStatus_unfailed (h : slot.Unfailed) (observation : StatusObservation) :
    (applyStatus observation slot).slot.Unfailed := by
  unfold applyStatus
  dsimp only
  repeat' split
  all_goals
    first
    | exact h
    | exact observeStatusEvidence_unfailed h _ _
    | exact applyConfirmationWatermark_unfailed h _ _
    | exact @applyConfirmationWatermark_unfailed { slot with state := .active } h _ _

/-! ### The operations -/

theorem expireCall_failed {currentTick firstTarget : Nat} {call : PlannedCall}
    (hnot : expiryOf currentTick firstTarget call ≠ .expired)
    (hcurrent : firstTarget ≤ call.targetTick)
    (h : (expireCall currentTick firstTarget call).state = .failed) : call.state = .failed := by
  unfold expireCall at h
  cases hexpiry : expiryOf currentTick firstTarget call with
  | future =>
    rw [hexpiry] at h
    exact h
  | settled =>
    rw [hexpiry] at h
    exact h
  | retained =>
    -- a call of the current chain is not retained
    unfold expiryOf at hexpiry
    split at hexpiry
    · cases hexpiry
    · split at hexpiry
      · cases hexpiry
      · split at hexpiry
        · omega
        · cases hexpiry
  | expired => exact absurd hexpiry hnot

/-- An expiry that leaves the slot planning failed no call of the chain. -/
theorem expireCalls_undecided (h : slot.Undecided) (currentTick : Nat) :
    (expireCalls currentTick slot).slot.Undecided := by
  intro hafter
  cases hchain : slot.chain with
  | none =>
    have hsame : (expireCalls currentTick slot).slot = slot := by simp [expireCalls, hchain]
    rw [hsame]
    exact .of_none hchain
  | some chain =>
    rcases expireCalls_cases currentTick hchain with ⟨hexpired, hsweep⟩ | ⟨_, _, hlost, _⟩ |
      ⟨_, _, hlost, _⟩ | ⟨hnot, _, _, hsame⟩
    · rw [hsweep] at hafter ⊢
      refine (h hafter).of_map hchain rfl (expireCall_keeps currentTick chain.firstTarget) ?_
      intro call hmem hcurrent
      apply expireCall_failed _ hcurrent
      intro hexpiry
      have hin : call ∈ expiredCalls currentTick chain.firstTarget chain.calls :=
        List.mem_filter.2 ⟨hmem, decide_eq_true hexpiry⟩
      rw [hexpired] at hin
      cases hin
    · exact .of_none hlost
    · exact .of_none hlost
    · rw [hsame, hnot] at hafter
      cases hafter

theorem harvestBroadcasts_undecided (h : slot.Undecided) (results : Nat → Option Delivery) :
    (harvestBroadcasts results slot).slot.Undecided := by
  intro hafter
  rw [harvestBroadcasts_state] at hafter
  cases hchain : slot.chain with
  | none =>
    have hsame : (harvestBroadcasts results slot).slot = slot := by simp [harvestBroadcasts, hchain]
    rw [hsame]
    exact .of_none hchain
  | some chain =>
    have hshutdown : slot.state.isShutdownDrain = false := by
      cases hstate : slot.state <;> simp_all [SlotState.isPlanning, SlotState.isShutdownDrain]
    have hchain' : (harvestBroadcasts results slot).slot.chain = some { chain with
        calls := chain.calls.map (harvestCall slot.state.isShutdownDrain results) } := by
      simp [harvestBroadcasts, hchain]
    refine (h hafter).of_map hchain hchain' (harvestCall_keeps _ results) ?_
    intro call _ _ hfailed
    rw [hshutdown] at hfailed
    unfold harvestCall at hfailed
    cases hharvest : harvestOf false results call with
    | failedTerminal => exact absurd (harvestOf_failedTerminal hharvest).1 (by decide)
    | _ =>
      rw [hharvest] at hfailed
      first
      | exact hfailed
      | cases hfailed

theorem dispatchCalls_undecided (h : slot.Undecided) (currentTick tickDurationMs : Nat) :
    (dispatchCalls currentTick tickDurationMs slot).slot.Undecided := by
  intro hafter
  rw [dispatchCalls_state] at hafter
  cases hchain : slot.chain with
  | none =>
    have hsame : (dispatchCalls currentTick tickDurationMs slot).slot = slot := by
      simp [dispatchCalls, hchain]
    rw [hsame]
    exact .of_none hchain
  | some chain =>
    have hchain' : (dispatchCalls currentTick tickDurationMs slot).slot.chain = some { chain with
        calls := chain.calls.map
          (dispatchCall (dispatchContext currentTick slot.state chain) tickDurationMs) } := by
      simp [dispatchCalls, hchain]
    refine (h hafter).of_map hchain hchain' (dispatchCall_keeps _ tickDurationMs) ?_
    intro call _ _ hfailed
    unfold dispatchCall at hfailed
    cases hdispatch : dispatchOf (dispatchContext currentTick slot.state chain) call with
    | skip =>
      rw [hdispatch] at hfailed
      exact hfailed
    | failTerminal =>
      -- only a draining slot gives a terminal reveal up
      have hdrain := (dispatchOf_failTerminal hdispatch).2.1
      cases hstate : slot.state <;>
        simp_all [SlotState.isPlanning, dispatchContext]
    | send redundant =>
      rw [hdispatch] at hfailed
      cases redundant with
      | true => exact hfailed
      | false => cases hfailed

/-- A fresh chain has one call of its own, and it waits to be sent. -/
theorem startIfReady_undecided (h : slot.Undecided) (env : SigningEnv) (currentTick : Nat)
    {stream : Nat} (hshape : SlotShape stream (startIfReady cfg env currentTick slot).slot) :
    (startIfReady cfg env currentTick slot).slot.Undecided := by
  unfold startIfReady at hshape ⊢
  split
  · rename_i hready
    rw [if_pos hready] at hshape
    split
    · exact h
    · rename_i lead hlead
      rw [hlead] at hshape
      dsimp only at hshape
      split
      · exact h
      · rename_i target htarget
        rw [htarget] at hshape
        dsimp only at hshape ⊢
        split
        · exact h
        · rename_i txBytes hbuild
          rw [hbuild] at hshape
          intro _ chain hchain call hmem hcurrent
          have hincreasing := hshape.increasing
          rw [queue_of_chain hchain] at hincreasing
          cases hchain
          rcases List.mem_append.1 hmem with hold | hnew
          · -- the calls before it have earlier targets
            rw [List.map_append, List.pairwise_append] at hincreasing
            have hlt := hincreasing.2.2 call.targetTick (List.mem_map_of_mem hold) target
              (by simp [SignedCall.planned])
            exact absurd hcurrent (Nat.not_le.2 hlt)
          · rw [List.mem_singleton.1 hnew]
            intro h; cases h
  · exact h

theorem extendLoop_calls {env : SigningEnv} {currentTick horizon fuel : Nat} {key : SlotKey}
    {chain : Chain} :
    (extendLoop cfg env currentTick horizon key fuel chain).1.firstTarget = chain.firstTarget ∧
      ∀ call ∈ (extendLoop cfg env currentTick horizon key fuel chain).1.calls,
        call ∈ chain.calls ∨ call.state ≠ .failed := by
  induction fuel generalizing chain with
  | zero => exact ⟨rfl, fun _ hmem => .inl hmem⟩
  | succ fuel ih =>
    simp only [extendLoop]
    cases honce : extendOnce cfg env currentTick horizon key chain with
    | done => exact ⟨rfl, fun _ hmem => .inl hmem⟩
    | failed err => exact ⟨rfl, fun _ hmem => .inl hmem⟩
    | extended chain' signed =>
      rcases extendOnce_extends honce with ⟨next, _, rfl⟩
      have hrest := @ih (chain.extendBy signed next)
      refine ⟨hrest.1, ?_⟩
      intro call hmem
      rcases hrest.2 call hmem with hold | hstate
      · rcases List.mem_append.1 hold with hold | hnew
        · exact .inl hold
        · rw [List.mem_singleton.1 hnew]
          exact .inr (fun h => by cases h)
      · exact .inr hstate

theorem loseChain_not_planning (after : Nat) (observed : Bool) (slot : ManagedSlot) :
    (loseChain after observed slot).slot.state.isPlanning = false := by
  unfold loseChain
  dsimp only
  split <;> rfl

theorem extendChain_undecided (h : slot.Undecided) (env : SigningEnv) (currentTick : Nat) :
    (extendChain cfg env currentTick slot).slot.Undecided := by
  unfold extendChain
  split
  · rename_i hplanning
    split
    · -- the chain is lost, by its own expiry or by the gap
      have hexpired := expireCalls_undecided h currentTick
      intro hafter
      simp only [SlotResult.followedBy] at hafter ⊢
      split at hafter
      · rw [loseChain_not_planning] at hafter
        cases hafter
      · rename_i hnot
        rw [if_neg hnot]
        exact hexpired hafter
    · dsimp only
      split
      · exact h
      · split
        · exact h
        · rename_i chain hchain
          intro _
          have hloop := @extendLoop_calls cfg env currentTick
          exact (h hplanning).of_calls hchain rfl hloop.1 hloop.2
  · exact h

/-- Every operation keeps the chain of a planned slot free of failed calls. -/
theorem SlotOp.undecided {op : SlotOp} (h : slot.Undecided) {stream : Nat}
    (hafter : SlotShape stream (op.run cfg slot).slot) : (op.run cfg slot).slot.Undecided := by
  cases op with
  | reset => exact fun hplanning => by cases hplanning
  | harvestBroadcasts results => exact harvestBroadcasts_undecided h results
  | applyStatus observation =>
    intro hplanning
    have hbefore : slot.state.isPlanning = true := by
      by_contra hnot
      have hstill := applyStatus_not_planning observation (Bool.eq_false_iff.2 hnot)
      rw [SlotOp.run, hstill] at hplanning
      cases hplanning
    exact applyStatus_unfailed (h hbefore) observation
  | enterDrain env reason =>
    show (RandomClient.enterDrain cfg env reason slot).slot.Undecided
    unfold RandomClient.enterDrain
    repeat' split
    all_goals
      try dsimp only
      try split
      all_goals
        first
        | exact h
        | exact fun hplanning => by cases hplanning
  | startIfReady env currentTick => exact startIfReady_undecided h env currentTick hafter
  | extendChain env currentTick => exact extendChain_undecided h env currentTick
  | expireCalls currentTick => exact expireCalls_undecided h currentTick
  | dispatchCalls currentTick tickDurationMs =>
    exact dispatchCalls_undecided h currentTick tickDurationMs
  | finishDrain =>
    show (RandomClient.finishDrain slot).slot.Undecided
    unfold RandomClient.finishDrain
    dsimp only
    repeat' split
    all_goals
      first
      | exact h
      | exact fun hplanning => by cases hplanning
  | finishStatusRestart currentTick =>
    show (RandomClient.finishStatusRestart currentTick slot).slot.Undecided
    unfold RandomClient.finishStatusRestart
    repeat' split
    all_goals
      first
      | exact h
      | exact fun hplanning => by cases hplanning
  | pruneCalls currentTick =>
    show (RandomClient.pruneCalls currentTick slot).slot.Undecided
    unfold RandomClient.pruneCalls
    split
    · exact h
    · split
      · exact h
      · rename_i chain hchain
        intro hplanning
        exact (h hplanning).of_calls hchain rfl rfl fun _ hmem => .inl (List.mem_filter.1 hmem).1

end Unfailed

/-- No slot a history reaches plans a chain with a failed call. -/
theorem undecided_of_ops (i : Fin 3) (ops : List SlotOp) :
    ((slotMachine cfg).state (slot₀ cfg i) ops).Undecided := by
  induction ops using List.reverseRecOn with
  | nil => exact fun hplanning => by cases hplanning
  | append_singleton ops op ih =>
    have hafter := @slotShape cfg i (ops ++ [op])
    rw [slotMachine_state_snoc] at hafter ⊢
    exact SlotOp.undecided ih hafter

/-! ## Continuing a chain -/

/-- The calls signed on top of a chain are its next continuations up to the
horizon. -/
structure Continues (cfg : Config) (horizon : Nat) (chain chain' : Chain)
    (signed : List SignedCall) : Prop where
  /-- The targets are the next ones, three ticks apart and in order. -/
  targets : signed.map SignedCall.targetTick = (List.range signed.length).map chain.continuation
  kind : ∀ call ∈ signed, call.kind = .revealAndCommit
  target_le : ∀ call ∈ signed, call.targetTick ≤ horizon
  /-- Each reveals the preimage that was committed just before. -/
  follows : ∀ prev : SignedCall, prev.targetTick = chain.lastTarget →
    prev.preimage = some chain.outstandingPreimage → (prev :: signed).IsChain (Follows cfg)
  first : chain'.firstTarget = chain.firstTarget
  last : chain'.lastTarget = chain.lastTarget + streamCount * signed.length
  calls : chain'.calls = chain.calls ++ signed.map SignedCall.planned

theorem Continues.nil (cfg : Config) (horizon : Nat) (chain : Chain) :
    Continues cfg horizon chain chain [] where
  targets := rfl
  kind _ h := by cases h
  target_le _ h := by cases h
  follows prev _ _ := List.isChain_singleton prev
  first := rfl
  last := rfl
  calls := (List.append_nil _).symm

/-- One more continuation in front. -/
theorem Continues.cons {stream horizon : Nat} {chain chain' : Chain} {call : SignedCall}
    {next : Preimage} {signed : List SignedCall}
    (hcall : Extends cfg stream chain.lastTarget chain.outstandingPreimage call next)
    (hle : call.targetTick ≤ horizon)
    (h : Continues cfg horizon (chain.extendBy call next) chain' signed) :
    Continues cfg horizon chain chain' (call :: signed) where
  targets := by
    have hshift : (List.range signed.length).map (chain.extendBy call next).continuation =
        (List.range signed.length).map (chain.continuation ∘ Nat.succ) :=
      List.map_congr_left fun k _ => Chain.continuation_extendBy hcall.target k
    rw [List.length_cons, List.range_succ_eq_map, List.map_cons, List.map_cons, List.map_map,
      h.targets, hshift, hcall.target]
    rfl
  kind call' hmem := by
    rcases List.mem_cons.1 hmem with rfl | hmem
    · exact hcall.kind
    · exact h.kind call' hmem
  target_le call' hmem := by
    rcases List.mem_cons.1 hmem with rfl | hmem
    · exact hle
    · exact h.target_le call' hmem
  follows prev htarget hpreimage :=
    List.isChain_cons_cons.2 ⟨hcall.follows htarget hpreimage, h.follows call rfl hcall.preimage⟩
  first := h.first
  last := by
    rw [h.last]
    show call.targetTick + _ = _
    rw [hcall.target, List.length_cons]
    simp only [streamCount]
    omega
  calls := by
    rw [h.calls]
    simp [Chain.extendBy]

theorem extendOnce_target_le {env : SigningEnv} {currentTick horizon : Nat} {key : SlotKey}
    {chain chain' : Chain} {call : SignedCall}
    (h : extendOnce cfg env currentTick horizon key chain = .extended chain' call) :
    call.targetTick ≤ horizon := by
  unfold extendOnce at h
  split at h
  · cases h
  · split at h
    · cases h
    · rename_i hle
      dsimp only at h
      split at h
      · cases h
      · cases h
        exact Nat.not_lt.1 hle

/-- A round that signs nothing has the next target past the horizon. -/
theorem extendOnce_done {env : SigningEnv} {currentTick horizon : Nat} {key : SlotKey}
    {chain : Chain} (hhorizon : horizon ≤ u32Max)
    (h : extendOnce cfg env currentTick horizon key chain = .done) :
    horizon < chain.lastTarget + streamCount := by
  unfold extendOnce at h
  split at h
  · rename_i hover
    have hlt := Bounded.checkedAdd_eq_none.1 hover
    omega
  · rename_i target htarget
    rcases Bounded.checkedAdd_eq_some.1 htarget with ⟨rfl, -⟩
    split at h
    · assumption
    · dsimp only at h
      split at h
      · cases h
      · cases h

/-- The loop of `extend_chain` continues the chain, and stops without an error
only past the horizon. -/
theorem extendLoop_continues (env : SigningEnv) (currentTick : Nat) {horizon fuel : Nat}
    (key : SlotKey) (hhorizon : horizon ≤ u32Max) (chain : Chain)
    (hfuel : horizon - chain.lastTarget ≤ fuel) : ∃ signed,
      (extendLoop cfg env currentTick horizon key fuel chain).2.1 = signed.map .signed ∧
      Continues cfg horizon chain (extendLoop cfg env currentTick horizon key fuel chain).1 signed ∧
      ((extendLoop cfg env currentTick horizon key fuel chain).2.2 = none →
        horizon < (extendLoop cfg env currentTick horizon key fuel chain).1.lastTarget +
          streamCount) := by
  induction fuel generalizing chain with
  | zero =>
    refine ⟨[], rfl, .nil cfg horizon chain, fun _ => ?_⟩
    simp only [extendLoop, streamCount]
    omega
  | succ fuel ih =>
    simp only [extendLoop]
    cases honce : extendOnce cfg env currentTick horizon key chain with
    | done => exact ⟨[], rfl, .nil cfg horizon chain, fun _ => extendOnce_done hhorizon honce⟩
    | failed err => exact ⟨[], rfl, .nil cfg horizon chain, by simp⟩
    | extended chain' call =>
      rcases extendOnce_extends honce with ⟨next, hcall, rfl⟩
      have hfuel' : horizon - (chain.extendBy call next).lastTarget ≤ fuel := by
        show horizon - call.targetTick ≤ fuel
        rw [hcall.target]
        simp only [streamCount]
        omega
      rcases ih (chain.extendBy call next) hfuel' with ⟨signed, heffects, hrest, hend⟩
      refine ⟨call :: signed, ?_, hrest.cons hcall (extendOnce_target_le honce), hend⟩
      simp only [heffects, List.map_cons]

/-! ## Giving a chain up at a gap -/

/-- The call belongs to the current chain and the backend has not accepted it. -/
structure Chain.Owes (chain : Chain) (call : PlannedCall) : Prop where
  mem : call ∈ chain.calls
  current : chain.firstTarget ≤ call.targetTick
  unaccepted : call.state ≠ .accepted

/-- The failures recorded for a chain that is given up at a gap. -/
inductive GapFailures (chain : Chain) : List Nat → Prop where
  /-- Of the unaccepted reveals, the earliest one. -/
  | reveal {target : Nat} (h : IsLeast {t | ∃ call, chain.Owes call ∧
      call.kind = .revealAndCommit ∧ call.targetTick = t} target) : GapFailures chain [target]
  /-- A first commit that was never accepted costs nothing. -/
  | firstCommit {call : PlannedCall} (h : chain.Owes call) (hkind : call.kind = .firstCommit)
      (honly : ∀ other, chain.Owes other → other = call) : GapFailures chain []
  /-- With every call accepted, the target that was never planned. -/
  | unplanned (h : ∀ call, ¬ chain.Owes call) :
      GapFailures chain [chain.lastTarget + streamCount]

/-- An expiry past all targets of a chain without failed calls finds the
unaccepted ones. -/
theorem mem_expiredCalls_iff {currentTick : Nat} {chain : Chain}
    (hpast : ∀ call ∈ chain.calls, call.targetTick ≤ currentTick)
    (hunfailed : ∀ call ∈ chain.calls, chain.firstTarget ≤ call.targetTick → call.state ≠ .failed)
    (call : PlannedCall) :
    call ∈ expiredCalls currentTick chain.firstTarget chain.calls ↔ chain.Owes call := by
  have hexpired : expiryOf currentTick chain.firstTarget call = .expired ↔
      call.targetTick ≤ currentTick ∧ ¬ (call.state = .accepted ∨ call.state = .failed) ∧
        chain.firstTarget ≤ call.targetTick := by
    unfold expiryOf
    split
    · rename_i hfuture
      simp [Nat.not_le.2 hfuture]
    · split
      · rename_i hsettled
        simp [hsettled]
      · split
        · rename_i hretained
          simp [Nat.not_le.2 hretained]
        · simp_all
  unfold expiredCalls
  rw [List.mem_filter, decide_eq_true_iff, hexpired]
  constructor
  · rintro ⟨hmem, -, hunsettled, hcurrent⟩
    exact ⟨hmem, hcurrent, fun hstate => hunsettled (.inl hstate)⟩
  · intro h
    refine ⟨h.mem, hpast call h.mem, ?_, h.current⟩
    rintro (hstate | hstate)
    · exact h.unaccepted hstate
    · exact hunfailed call h.mem h.current hstate

/-- In a queue of increasing targets the first expired reveal is the earliest. -/
theorem firstExpiredNormal_isLeast {currentTick : Nat} {chain : Chain}
    (hincreasing : (chain.calls.map PlannedCall.targetTick).Pairwise (· < ·))
    (hmem : ∀ call, call ∈ expiredCalls currentTick chain.firstTarget chain.calls ↔
      chain.Owes call) {target : Nat}
    (h : firstExpiredNormal (expiredCalls currentTick chain.firstTarget chain.calls) =
      some target) :
    IsLeast {t | ∃ call, chain.Owes call ∧ call.kind = .revealAndCommit ∧ call.targetTick = t}
      target := by
  have hsorted : (expiredCalls currentTick chain.firstTarget chain.calls).Pairwise
      fun k l => k.targetTick < l.targetTick :=
    (List.pairwise_map.1 hincreasing).sublist List.filter_sublist
  generalize expiredCalls currentTick chain.firstTarget chain.calls = expired at *
  rcases Option.map_eq_some_iff.1 h with ⟨call, hfind, rfl⟩
  rcases List.find?_eq_some_iff_append.1 hfind with ⟨hkind, before, after, rfl, hbefore⟩
  constructor
  · exact ⟨call, (hmem call).1 (by simp), by simpa using hkind, rfl⟩
  · rintro _ ⟨other, howes, hother, rfl⟩
    rcases List.mem_append.1 ((hmem other).2 howes) with hin | hin
    · -- nothing before the first one is a reveal
      have hnot := hbefore other hin
      simp [hother] at hnot
    · rcases List.mem_cons.1 hin with rfl | hin
      · exact le_rfl
      · have hrest := (List.pairwise_append.1 hsorted).2.1
        exact Nat.le_of_lt ((List.pairwise_cons.1 hrest).1 other hin)

/-- What is left of a slot whose chain was given up at a gap. -/
def ManagedSlot.afterGap (slot : ManagedSlot) (currentTick lastTarget : Nat) : ManagedSlot :=
  { slot with
    chain := none
    state := .waiting (currentTick + 1) false
    restartAt := lastTarget + streamCount }

theorem loseChain_afterGap {slot : ManagedSlot} {chain : Chain} (hchain : slot.chain = some chain)
    {currentTick : Nat} (htick : currentTick < u32Max)
    (hgap : chain.lastTarget + streamCount ≤ currentTick) :
    loseChain (saturatingAdd currentTick 1) false slot =
      { slot := slot.afterGap currentTick chain.lastTarget, effects := abortChain slot.chain } := by
  have hrestart : checkedAdd chain.lastTarget streamCount = some (chain.lastTarget + streamCount) :=
    Bounded.checkedAdd_eq_some.2 ⟨rfl, by omega⟩
  have hafter : saturatingAdd currentTick 1 = currentTick + 1 := by
    exact Bounded.saturatingAdd_of_le htick
  unfold loseChain
  rw [hchain]
  dsimp only
  rw [hrestart, hafter]
  rfl

/-- The chain is given up by its expired calls, or by the gap. -/
theorem extendChain_gap {slot : ManagedSlot} {chain : Chain}
    (hplanning : slot.state.isPlanning = true) (hchain : slot.chain = some chain) (env : SigningEnv)
    {currentTick : Nat} (htick : currentTick < u32Max)
    (hgap : chain.lastTarget + streamCount ≤ currentTick) :
    (extendChain cfg env currentTick slot).error = none ∧
      (extendChain cfg env currentTick slot).slot =
        slot.afterGap currentTick chain.lastTarget ∧
      (∀ e ∈ (extendChain cfg env currentTick slot).effects, e.isNote = true) ∧
      failures (extendChain cfg env currentTick slot).effects =
        if expiredCalls currentTick chain.firstTarget chain.calls = [] then
          [chain.lastTarget + streamCount]
        else
          (firstExpiredNormal
            (expiredCalls currentTick chain.firstTarget chain.calls)).toList := by
  have hmissed : slot.chain.bind (missedTarget currentTick) =
      some (chain.lastTarget + streamCount) := by
    have hadd : checkedAdd chain.lastTarget streamCount = some (chain.lastTarget + streamCount) :=
      Bounded.checkedAdd_eq_some.2 ⟨rfl, by omega⟩
    rw [hchain, Option.bind_some, missedTarget, hadd, Option.filter_some,
      if_pos (decide_eq_true hgap)]
  have hexpire := expireCalls_some hchain currentTick
  have haborts := failures_abortCalls
    (chain.calls.filter fun call => call.targetTick ≤ currentTick)
  change failures (expireAborts currentTick chain.calls) = [] at haborts
  have hnotes : ∀ e ∈ expireAborts currentTick chain.calls, e.isNote = true :=
    fun _ => abortCalls_notes
  have hlost := @loseChain_afterGap (expireSwept currentTick slot chain) _ rfl _ htick hgap
  unfold extendChain
  rw [if_pos hplanning, hmissed]
  dsimp only at hexpire ⊢
  rw [hexpire]
  cases hexpired : expiredCalls currentTick chain.firstTarget chain.calls with
  | nil =>
    -- every planned call was accepted, so the gap itself is the loss
    have hswept : (expireSwept currentTick slot chain).state.isPlanning = true := hplanning
    simp only [List.isEmpty_nil, if_true, SlotResult.followedBy, hswept, hlost]
    refine ⟨trivial, rfl, ?_, ?_⟩
    · intro e he
      rcases List.mem_append.1 he with he | he
      · exact hnotes e he
      · rcases List.mem_cons.1 he with rfl | he
        · rfl
        · exact abortChain_notes he
    · rw [failures_append, haborts, List.nil_append]
      show (chain.lastTarget + streamCount) :: failures (abortChain _) = _
      rw [failures_abortChain]
  | cons call rest =>
    have hend : expiryEnd currentTick slot.state (expireSwept currentTick slot chain) =
        loseChain (saturatingAdd currentTick 1) false (expireSwept currentTick slot chain) := by
      cases hstate : slot.state <;> first | rfl | simp [hstate, SlotState.isPlanning] at hplanning
    have hlosses : expiryFailure slot.state (call :: rest) = firstExpiredNormal (call :: rest) := by
      cases hstate : slot.state <;> first | rfl | simp [hstate, SlotState.isPlanning] at hplanning
    have hnote : failures (expiryNote slot.state (call :: rest)) =
        (firstExpiredNormal (call :: rest)).toList := by
      rw [← hlosses]
      exact failures_option _
    have hafter : ((expireSwept currentTick slot chain).afterGap currentTick
        chain.lastTarget).state.isPlanning = false := rfl
    simp only [List.isEmpty_cons, Bool.false_eq_true, if_false, SlotResult.followedBy, hend, hlost,
      hafter, List.append_nil, reduceCtorEq]
    refine ⟨trivial, rfl, ?_, ?_⟩
    · intro e he
      rcases List.mem_append.1 he with he | he
      · rcases List.mem_append.1 he with he | he
        · exact hnotes e he
        · exact failure_notes _ he
      · exact abortChain_notes he
    · rw [failures_append, failures_append, haborts, hnote, failures_abortChain, List.nil_append,
        List.append_nil]

/-! ## Any movement of the tick -/

/-- The invariant of a slot under extension: what its trace signed and accepted,
and no failed call in a planned chain. -/
structure ExtensionInv (cfg : Config) (slot : ManagedSlot) (t : List Effect) : Prop where
  inv : SlotInv cfg slot t
  undecided : slot.Undecided

/-- Every history of a stream keeps the invariant. -/
theorem extensionInv (i : Fin 3) (ops : List SlotOp) :
    ExtensionInv cfg ((slotMachine cfg).state (slot₀ cfg i) ops)
      ((slotMachine cfg).trace (slot₀ cfg i) ops) where
  inv := (slotMachine_run i ops : SlotRun cfg (slot₀ cfg i) _ _).slotInv
  undecided := undecided_of_ops i ops

/-- The chain was continued up to six ticks ahead, as far as the wallet signs. -/
structure Extended (cfg : Config) (env : SigningEnv) (currentTick : Nat) (slot : ManagedSlot)
    (t : List Effect) (chain chain' : Chain) (signed : List SignedCall) (r : SlotResult) :
    Prop where
  slot : r.slot = { slot with chain := some chain' }
  effects : r.effects = signed.map .signed
  continues : Continues cfg (currentTick + sendLeadTicks) chain chain' signed
  few : signed.length ≤ 2
  ahead : ∀ call ∈ signed, currentTick < call.targetTick
  /-- The first one reveals what the last call of the chain committed to. -/
  linked : ∃ prev, (currentChain t).getLast? = some prev ∧ prev.targetTick = chain.lastTarget ∧
    (prev :: signed).IsChain (Follows cfg)
  error : r.error.isSome = true ↔ ∃ k, chain.continuation k ≤ currentTick + sendLeadTicks ∧
    Refused cfg env (chain.continuationInput cfg env k) (chain.continuation k)
  /-- Without an error nothing up to the horizon is left out. -/
  complete : r.error = none →
    (∀ k, chain.continuation k ≤ currentTick + sendLeadTicks ↔ k < signed.length) ∧
      currentTick + sendLeadTicks < chain'.lastTarget + streamCount

/-- The chain was given up without signing anything. -/
structure ChainGivenUp (currentTick : Nat) (slot : ManagedSlot) (chain : Chain) (r : SlotResult) :
    Prop where
  error : r.error = none
  slot : r.slot = slot.afterGap currentTick chain.lastTarget
  unsigned : ∀ call, Effect.signed call ∉ r.effects
  once : (failures r.effects).length ≤ 1
  loss : GapFailures chain (failures r.effects)

section Movement

variable {slot : ManagedSlot} {t : List Effect}

/-- The queue of a planned chain ends at its last target. -/
theorem SlotInv.target_le_last (h : SlotInv cfg slot t) (hplanning : slot.state.isPlanning = true)
    {chain : Chain} (hchain : slot.chain = some chain) :
    ∀ call ∈ chain.calls, call.targetTick ≤ chain.lastTarget := by
  rcases h.planned with ⟨p, hrepresents, hinv⟩
  rcases hrepresents.of_planning hplanning with ⟨chain', hchain', -, rfl⟩
  cases hchain.symm.trans hchain'
  rcases PlanInv.last_of_chainAt hinv.shape.1 hinv.shape.2 with ⟨last, hlast, htarget, -⟩
  rcases List.getLast?_eq_some_iff.1 hlast with ⟨before, hbefore⟩
  intro call hmem
  rw [← queue_of_chain hchain] at hmem
  rcases h.queue.recorded call hmem with ⟨signed, hsigned, hrecords⟩
  have hspaced := hinv.spaced
  rw [hbefore] at hsigned hspaced
  rw [← hrecords.target]
  rcases List.mem_append.1 hsigned with hsigned | hsigned
  · have hlt := (List.pairwise_append.1 hspaced).2.2 signed hsigned last (by simp)
    omega
  · rw [List.mem_singleton.1 hsigned, htarget]

/-- The calls of a planned chain are its first commit and reveals. -/
theorem SlotInv.current_kind (h : SlotInv cfg slot t) (hplanning : slot.state.isPlanning = true)
    {chain : Chain} (hchain : slot.chain = some chain) {call : PlannedCall}
    (hmem : call ∈ chain.calls) (hcurrent : chain.firstTarget ≤ call.targetTick) :
    call.kind = .revealAndCommit ∨
      call.kind = .firstCommit ∧ call.targetTick = chain.firstTarget := by
  rcases h.planned with ⟨p, hrepresents, hinv⟩
  rcases hrepresents.of_planning hplanning with ⟨chain', hchain', -, rfl⟩
  cases hchain.symm.trans hchain'
  rw [← queue_of_chain hchain] at hmem
  rcases h.queue.recorded call hmem with ⟨signed, hperiod, hrecords⟩
  rw [← hrecords.target] at hcurrent
  have hsigned := hinv.mem_chain_of_first_le (hrepresents.hasChain hchain) hperiod hcurrent
  have hnormal := hinv.shape.1.normal signed hsigned
  rw [← hrecords.kind, ← hrecords.target]
  rcases hinv.shape.1.head with ⟨first, hhead, hfirst, -⟩
  rcases List.head?_eq_some_iff.1 hhead with ⟨rest, hrest⟩
  have htail := @currentChain_tail_kind t
  rw [hrest] at hsigned htail
  cases hkind : signed.kind with
  | revealAndCommit => exact .inl rfl
  | terminalReveal => exact absurd hkind hnormal
  | firstCommit =>
    right
    rcases List.mem_cons.1 hsigned with rfl | hsigned
    · exact ⟨rfl, hfirst⟩
    · exact absurd hkind (htail signed hsigned)

theorem extendChain_extended (h : ExtensionInv cfg slot t)
    (hplanning : slot.state.isPlanning = true) {chain : Chain} (hchain : slot.chain = some chain)
    (env : SigningEnv) {currentTick : Nat} (htick : currentTick + sendLeadTicks ≤ u32Max)
    (hnext : currentTick < chain.lastTarget + streamCount) : ∃ chain' signed,
      Extended cfg env currentTick slot t chain chain' signed
        (extendChain cfg env currentTick slot) := by
  have hmissed : slot.chain.bind (missedTarget currentTick) = none := by
    rw [hchain, Option.bind_some, missedTarget, Option.filter_eq_none_iff]
    intro target htarget
    rcases Bounded.checkedAdd_eq_some.1 htarget with ⟨rfl, -⟩
    simpa using hnext
  have hhorizon : checkedAdd currentTick sendLeadTicks = some (currentTick + sendLeadTicks) :=
    Bounded.checkedAdd_eq_some.2 ⟨rfl, htick⟩
  have hmod : chain.lastTarget % streamCount = slot.key.stream :=
    Planned.last_mod h.inv.planned hchain
  have hfails := @extendLoop_fails cfg env currentTick _ _ slot.key htick chain hmod le_rfl
  rcases @extendLoop_continues cfg env currentTick _ _ slot.key htick chain le_rfl with
    ⟨signed, heffects, hcontinues, hend⟩
  unfold extendChain
  rw [if_pos hplanning, hmissed, hhorizon, hchain]
  dsimp only
  generalize extendLoop cfg env currentTick (currentTick + sendLeadTicks) slot.key
    (currentTick + sendLeadTicks - chain.lastTarget) chain = loop at *
  rcases loop with ⟨chain', effects, error⟩
  dsimp only at *
  have hlast := hcontinues.last
  -- the k-th call is the k-th continuation
  have hnth : ∀ k, k < signed.length → ∃ call ∈ signed, call.targetTick = chain.continuation k := by
    intro k hk
    have hin : chain.continuation k ∈ signed.map SignedCall.targetTick := by
      rw [hcontinues.targets]
      exact List.mem_map_of_mem (List.mem_range.2 hk)
    exact List.mem_map.1 hin
  refine ⟨chain', signed, rfl, heffects, hcontinues, ?_, ?_, ?_, hfails, ?_⟩
  · by_contra hmany
    rcases hnth 2 (by omega) with ⟨call, hcall, htarget⟩
    have hle := hcontinues.target_le call hcall
    rw [htarget] at hle
    simp only [Chain.continuation, streamCount, sendLeadTicks] at hle hnext
    omega
  · intro call hcall
    have hin := List.mem_map_of_mem (f := SignedCall.targetTick) hcall
    rw [hcontinues.targets] at hin
    rcases List.mem_map.1 hin with ⟨k, -, htarget⟩
    rw [← htarget]
    simp only [Chain.continuation, streamCount] at hnext ⊢
    omega
  · rcases h.inv.planned with ⟨p, hrepresents, hinv⟩
    rcases hrepresents.of_planning hplanning with ⟨chain'', hchain'', -, rfl⟩
    cases hchain.symm.trans hchain''
    rcases hinv.shape.1.tail with ⟨prev, hprev, htarget, hpreimage, -⟩
    exact ⟨prev, hprev, htarget, hcontinues.follows prev htarget hpreimage⟩
  · intro hnone
    have hpast := hend hnone
    refine ⟨?_, hpast⟩
    intro k
    constructor
    · intro hle
      simp only [Chain.continuation, streamCount] at hle hpast hlast
      omega
    · intro hk
      rcases hnth k hk with ⟨call, hcall, htarget⟩
      rw [← htarget]
      exact hcontinues.target_le call hcall

theorem extendChain_givenUp (h : ExtensionInv cfg slot t)
    (hplanning : slot.state.isPlanning = true) {chain : Chain} (hchain : slot.chain = some chain)
    (env : SigningEnv) {currentTick : Nat} (htick : currentTick < u32Max)
    (hgap : chain.lastTarget + streamCount ≤ currentTick) :
    ChainGivenUp currentTick slot chain (extendChain cfg env currentTick slot) := by
  rcases @extendChain_gap cfg slot chain hplanning hchain env currentTick htick hgap with
    ⟨herror, hslot, hnotes, hfailures⟩
  have hpast : ∀ call ∈ chain.calls, call.targetTick ≤ currentTick := by
    intro call hmem
    have hle := h.inv.target_le_last hplanning hchain call hmem
    omega
  have hexpired := mem_expiredCalls_iff hpast (h.undecided hplanning chain hchain)
  have hincreasing := h.inv.queue.increasing
  rw [queue_of_chain hchain] at hincreasing
  have hleast := fun target => @firstExpiredNormal_isLeast currentTick chain hincreasing hexpired
    target
  refine ⟨herror, hslot, ?_, ?_, ?_⟩
  · intro call hmem
    cases hnotes _ hmem
  · rw [hfailures]
    split
    · exact le_rfl
    · cases firstExpiredNormal (expiredCalls currentTick chain.firstTarget chain.calls) <;> simp
  · rw [hfailures]
    split
    · rename_i hnone
      apply GapFailures.unplanned
      intro call howes
      rw [← hexpired call, hnone] at howes
      cases howes
    · rename_i hsome
      cases hfirst : firstExpiredNormal
          (expiredCalls currentTick chain.firstTarget chain.calls) with
      | some target => exact .reveal (hleast target hfirst)
      | none =>
        -- no reveal is unaccepted, so only the first commit is
        rcases List.exists_mem_of_ne_nil _ hsome with ⟨call, hcall⟩
        have hcommit : ∀ other, chain.Owes other →
            other.kind = .firstCommit ∧ other.targetTick = chain.firstTarget := by
          intro other howes
          rcases h.inv.current_kind hplanning hchain howes.mem howes.current with hkind | hkind
          · have hnot := List.find?_eq_none.1 (Option.map_eq_none_iff.1 hfirst) other
              ((hexpired other).2 howes)
            simp [hkind] at hnot
          · exact hkind
        have howes := (hexpired call).1 hcall
        apply GapFailures.firstCommit howes (hcommit call howes).1
        intro other hother
        have hqueue := queue_of_chain hchain
        apply h.inv.queue.eq_of_target
        · rw [hqueue]
          exact hother.mem
        · rw [hqueue]
          exact howes.mem
        · rw [(hcommit other hother).2, (hcommit call howes).2]

end Movement

/-- Whatever the tick did since the last cycle, a planned chain is continued up
to six ticks ahead, or given up at a gap that has come. -/
theorem extension_after_tick_movement {slot : ManagedSlot} {t : List Effect}
    (h : ExtensionInv cfg slot t) (hplanning : slot.state.isPlanning = true) (env : SigningEnv)
    {currentTick : Nat} (htick : currentTick + sendLeadTicks ≤ u32Max) :
    ∃ chain, slot.chain = some chain ∧
      (currentTick < chain.lastTarget + streamCount → ∃ chain' signed,
        Extended cfg env currentTick slot t chain chain' signed
          (extendChain cfg env currentTick slot)) ∧
      (chain.lastTarget + streamCount ≤ currentTick →
        ChainGivenUp currentTick slot chain (extendChain cfg env currentTick slot)) := by
  rcases h.inv.planned with ⟨p, hrepresents, -⟩
  rcases hrepresents.of_planning hplanning with ⟨chain, hchain, -, -⟩
  refine ⟨chain, hchain, extendChain_extended h hplanning hchain env htick, ?_⟩
  apply extendChain_givenUp h hplanning hchain env
  simp only [sendLeadTicks] at htick
  omega

/-- A slot of a run at tick 4 whose second call was never sent: tick 5 is inside
the horizon, and at tick 13 the unaccepted reveal at 10 is the one loss. -/
theorem extension_after_tick_movement_jump :
    let ops := history sampleConfig sampleEngine (steadyRun [0, 1, 2, 3, 4]) 1
    let slot := (slotMachine sampleConfig).state (slot₀ sampleConfig 1) ops
    let t := (slotMachine sampleConfig).trace (slot₀ sampleConfig 1) ops
    (∃ chain chain' signed, Extended sampleConfig sampleEnv 5 slot t chain chain' signed
      (extendChain sampleConfig sampleEnv 5 slot)) ∧
    (∃ chain, ChainGivenUp 13 slot chain (extendChain sampleConfig sampleEnv 13 slot)) ∧
    failures (extendChain sampleConfig sampleEnv 13 slot).effects = [10] := by
  intro ops slot t
  have hinv : ExtensionInv sampleConfig slot t := extensionInv 1 ops
  have hplanning : slot.state.isPlanning = true := by decide +kernel
  have hlast : slot.chain.map Chain.lastTarget = some 10 := by decide +kernel
  rcases extension_after_tick_movement hinv hplanning sampleEnv
    (show 5 + sendLeadTicks ≤ u32Max by decide) with ⟨chain, hchain, hextended, -⟩
  rcases extension_after_tick_movement hinv hplanning sampleEnv
    (show 13 + sendLeadTicks ≤ u32Max by decide) with ⟨chain', hchain', -, hgivenUp⟩
  rw [hchain, Option.map_some, Option.some.injEq] at hlast
  cases hchain.symm.trans hchain'
  refine ⟨⟨chain, hextended ?_⟩, ⟨chain, hgivenUp ?_⟩, ?_⟩
  · rw [hlast]
    decide
  · rw [hlast]
    decide
  · decide +kernel

end RandomClient
