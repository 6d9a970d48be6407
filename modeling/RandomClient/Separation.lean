import RandomClient.Shutdown

/-!
# What one stream does to another

A cycle plans all three slots before it delivers on any of them, and the first
slot whose planning fails ends the cycle: the streams after it are not planned
and no stream before it is delivered. `Isolated` says that a step does to a
stream what it would do with that stream alone; `stream_isolation` says exactly
when it does. A stream alone is `performedOps`: the operations of the step on
its slot, up to its own failure.
-/

namespace RandomClient

variable {cfg : Config}

/-! ## One slot alone -/

/-- The operations of a list that are performed on a slot: all of them, or those
up to the first one that fails. -/
def performedOps (cfg : Config) : ManagedSlot → List SlotOp → List SlotOp
  | _, [] => []
  | slot, op :: ops =>
    op :: if (op.run cfg slot).error.isSome then []
      else performedOps cfg (op.run cfg slot).slot ops

/-- Some operation of a list fails on a slot. -/
def failsOn (cfg : Config) : ManagedSlot → List SlotOp → Bool
  | _, [] => false
  | slot, op :: ops =>
    (op.run cfg slot).error.isSome || failsOn cfg (op.run cfg slot).slot ops

@[simp] theorem performedOps_nil (slot : ManagedSlot) : performedOps cfg slot [] = [] := rfl

@[simp] theorem failsOn_nil (slot : ManagedSlot) : failsOn cfg slot [] = false := rfl

theorem performedOps_append (slot : ManagedSlot) (xs ys : List SlotOp) :
    performedOps cfg slot (xs ++ ys) = performedOps cfg slot xs ++
      if failsOn cfg slot xs then [] else performedOps cfg ((slotMachine cfg).state slot xs) ys := by
  induction xs generalizing slot with
  | nil => rfl
  | cons op xs ih =>
    have hstate : (slotMachine cfg).state slot (op :: xs) =
        (slotMachine cfg).state (op.run cfg slot).slot xs := rfl
    simp only [List.cons_append, performedOps, failsOn, hstate]
    by_cases hfails : (op.run cfg slot).error.isSome = true
    · simp [hfails]
    · simp only [hfails, Bool.false_or, Bool.false_eq_true, if_false]
      rw [ih]

/-- Operations other than planning are all performed. -/
theorem performedOps_quiet {ops : List SlotOp} (h : ∀ op ∈ ops, op.isQuiet = true)
    (slot : ManagedSlot) : performedOps cfg slot ops = ops ∧ failsOn cfg slot ops = false := by
  induction ops generalizing slot with
  | nil => exact ⟨rfl, rfl⟩
  | cons op ops ih =>
    have hop : (op.run cfg slot).error.isSome = false := by
      rw [op.run_error cfg (h op (by simp))]
      rfl
    have hrest := ih (fun op' hmem => h op' (by simp [hmem])) (op.run cfg slot).slot
    simp only [performedOps, failsOn, hop, hrest, Bool.false_eq_true, if_false, Bool.or_false,
      and_self]

/-- Something is performed where something is to be done. -/
theorem performedOps_ne_nil {ops : List SlotOp} (h : ops ≠ []) (slot : ManagedSlot) :
    performedOps cfg slot ops ≠ [] := by
  cases ops with
  | nil => exact absurd rfl h
  | cons op ops =>
    intro hnil
    cases hnil

/-! ## The loops over the slots -/

theorem Exec.performAll_of_error {x : Exec} (h : x.error.isSome = true) (i : Fin 3)
    (ops : List SlotOp) : x.performAll cfg i ops = x := by
  induction ops with
  | nil => rfl
  | cons op ops ih =>
    have hskip : x.perform cfg i op = x := by
      unfold Exec.perform
      rw [if_pos h]
    show (x.perform cfg i op).performAll cfg i ops = x
    rw [hskip]
    exact ih

/-- The operations on one slot are performed there as on the slot alone. -/
theorem Exec.performAll_alone {x : Exec} (h : x.error = none) (i : Fin 3) (ops : List SlotOp) :
    (∀ j, slotLog j (x.performAll cfg i ops).log = slotLog j x.log ++
      if i = j then performedOps cfg (x.engine.slots i) ops else []) ∧
    ((x.performAll cfg i ops).error.isSome = failsOn cfg (x.engine.slots i) ops) ∧
    ∀ j, i ≠ j → (x.performAll cfg i ops).engine.slots j = x.engine.slots j := by
  induction ops generalizing x with
  | nil =>
    refine ⟨?_, ?_, fun _ _ => rfl⟩
    · intro j
      show slotLog j x.log = _
      split
      · simp
      · simp
    · show x.error.isSome = false
      rw [h]
      rfl
  | cons op ops ih =>
    show (∀ j, slotLog j ((x.perform cfg i op).performAll cfg i ops).log = _) ∧
      ((x.perform cfg i op).performAll cfg i ops).error.isSome = _ ∧
      ∀ j, i ≠ j → ((x.perform cfg i op).performAll cfg i ops).engine.slots j = _
    have hlog : ∀ j, slotLog j (x.perform cfg i op).log =
        slotLog j x.log ++ if i = j then [op] else [] := by
      intro j
      simp only [Exec.perform, h, Option.isSome_none, Bool.false_eq_true, if_false]
      split
      · rename_i hj
        subst hj
        simp
      · rename_i hj
        rw [slotLog_append, slotLog_other hj]
    have hslot : (x.perform cfg i op).engine.slots i = (op.run cfg (x.engine.slots i)).slot := by
      simp [Exec.perform, h]
    have hothers : ∀ j, i ≠ j → (x.perform cfg i op).engine.slots j = x.engine.slots j := by
      intro j hj
      simp [Exec.perform, h, Function.update_of_ne (Ne.symm hj)]
    have herror : (x.perform cfg i op).error = (op.run cfg (x.engine.slots i)).error := by
      simp [Exec.perform, h]
    by_cases hfails : (op.run cfg (x.engine.slots i)).error.isSome = true
    · -- nothing follows the failure
      rw [Exec.performAll_of_error (by rw [herror]; exact hfails)]
      refine ⟨?_, ?_, hothers⟩
      · intro j
        rw [hlog]
        simp only [performedOps, hfails, if_true]
      · rw [herror, hfails]
        simp only [failsOn, hfails, Bool.true_or]
    · have hnone : (x.perform cfg i op).error = none := by
        rw [herror]
        simpa using hfails
      rcases ih hnone with ⟨hrest, hend, hkept⟩
      refine ⟨?_, ?_, fun j hj => (hkept j hj).trans (hothers j hj)⟩
      · intro j
        rw [hrest, hlog, hslot, List.append_assoc]
        simp only [performedOps, hfails]
        by_cases hj : i = j
        · simp [hj]
        · simp [hj]
      · rw [hend, hslot]
        simp only [failsOn, hfails, Bool.false_or]

/-- A loop over the slots ends at the first stream on which it fails: the streams
before it and this one get their operations, those after it get none. -/
theorem Exec.forSlots_alone {x : Exec} (h : x.error = none) (ops : Fin 3 → List SlotOp) :
    (∀ j, slotLog j (x.forSlots cfg ops).log = slotLog j x.log ++
      if ∃ i < j, failsOn cfg (x.engine.slots i) (ops i) = true then []
      else performedOps cfg (x.engine.slots j) (ops j)) ∧
    ((x.forSlots cfg ops).error = none ↔
      ∀ i, failsOn cfg (x.engine.slots i) (ops i) = false) := by
  have hok : ∀ {y : Exec}, y.error.isSome = false → y.error = none := fun h => by simpa using h
  rcases Exec.performAll_alone h 0 (ops 0) with ⟨hlog₀, hend₀, hkept₀⟩
  show (∀ j, slotLog j (((x.performAll cfg 0 (ops 0)).performAll cfg 1 (ops 1)).performAll cfg 2
    (ops 2)).log = _) ∧ ((((x.performAll cfg 0 (ops 0)).performAll cfg 1 (ops 1)).performAll cfg 2
      (ops 2)).error = none ↔ _)
  generalize x.performAll cfg 0 (ops 0) = x₀ at *
  by_cases hfails₀ : failsOn cfg (x.engine.slots 0) (ops 0) = true
  · rw [hfails₀] at hend₀
    rw [Exec.performAll_of_error hend₀, Exec.performAll_of_error hend₀]
    constructor
    · intro j
      rw [hlog₀]
      by_cases hj : j = 0
      · subst hj
        simp
      · rw [if_neg (Ne.symm hj), if_pos ⟨0, by omega, hfails₀⟩]
    · constructor
      · intro hnone
        rw [hnone] at hend₀
        cases hend₀
      · intro hall
        rw [hall 0] at hfails₀
        cases hfails₀
  · rw [Bool.not_eq_true] at hfails₀
    rw [hfails₀] at hend₀
    have hfirst : ¬ ∃ i < (1 : Fin 3), failsOn cfg (x.engine.slots i) (ops i) = true := by
      rintro ⟨i, hi, hfail⟩
      obtain rfl : i = 0 := by omega
      rw [hfails₀] at hfail
      cases hfail
    rcases Exec.performAll_alone (hok hend₀) 1 (ops 1) with ⟨hlog₁, hend₁, hkept₁⟩
    rw [hkept₀ 1 (by decide)] at hlog₁ hend₁
    generalize x₀.performAll cfg 1 (ops 1) = x₁ at *
    by_cases hfails₁ : failsOn cfg (x.engine.slots 1) (ops 1) = true
    · rw [hfails₁] at hend₁
      rw [Exec.performAll_of_error hend₁]
      constructor
      · intro j
        rw [hlog₁, hlog₀]
        match j with
        | 0 => simp
        | 1 =>
          rw [if_neg hfirst]
          simp
        | 2 => simp [Fin.exists_fin_succ, hfails₁]
      · constructor
        · intro hnone
          rw [hnone] at hend₁
          cases hend₁
        · intro hall
          rw [hall 1] at hfails₁
          cases hfails₁
    · rw [Bool.not_eq_true] at hfails₁
      rw [hfails₁] at hend₁
      rcases Exec.performAll_alone (hok hend₁) 2 (ops 2) with ⟨hlog₂, hend₂, -⟩
      rw [hkept₁ 2 (by decide), hkept₀ 2 (by decide)] at hlog₂ hend₂
      constructor
      · intro j
        rw [hlog₂, hlog₁, hlog₀]
        match j with
        | 0 => simp
        | 1 =>
          rw [if_neg hfirst]
          simp
        | 2 => simp [Fin.exists_fin_succ, hfails₀, hfails₁]
      · rw [← Option.not_isSome_iff_eq_none, hend₂, Bool.not_eq_true]
        constructor
        · intro hfails₂ i
          match i with
          | 0 => exact hfails₀
          | 1 => exact hfails₁
          | 2 => exact hfails₂
        · intro hall
          exact hall 2

/-! ## When planning fails -/

/-- The wallet refuses to sign a call of the engine. -/
def Refused (cfg : Config) (env : SigningEnv) (input : RevealAndCommitInput) (target : Nat) :
    Prop :=
  ∃ err, env.sign
    { contractIndex := randomContractIndex
      amount := cfg.collateral
      tick := target
      inputType := revealAndCommitProcedure
      input := input.encode } = .error err

/-- The target of the continuation after `k` further ones. -/
def Chain.continuation (chain : Chain) (k : Nat) : Nat := chain.lastTarget + streamCount * (k + 1)

/-- The input of the continuation after `k` further ones. -/
def Chain.continuationInput (cfg : Config) (env : SigningEnv) (chain : Chain) (k : Nat) :
    RevealAndCommitInput where
  reveal := if k = 0 then chain.outstandingPreimage
    else env.draw (chain.lastTarget + streamCount * k)
  commit := cfg.commitDigest (env.draw (chain.continuation k))

/-- Entering the drain fails: the terminal target overflows, or the wallet
refuses the terminal reveal. -/
inductive DrainEntryFails (cfg : Config) (env : SigningEnv) (slot : ManagedSlot) : Prop where
  | overflow {chain : Chain} (hstate : slot.state.isPlanning = true)
      (hchain : slot.chain = some chain) (h : u32Max < chain.lastTarget + streamCount)
  | refused {chain : Chain} (hstate : slot.state.isPlanning = true)
      (hchain : slot.chain = some chain)
      (h : Refused cfg env { reveal := chain.outstandingPreimage, commit := Digest.zero }
        (chain.lastTarget + streamCount))

/-- Normal planning fails: the first target of a fresh chain overflows, the
planning horizon overflows, or the wallet refuses a call. -/
inductive PlanningFails (cfg : Config) (env : SigningEnv) (tick : Nat) (slot : ManagedSlot) :
    Prop where
  | initialTick (hstate : slot.state.readyToStart = true) (h : u32Max < tick + sendLeadTicks)
  | initialTarget (hstate : slot.state.readyToStart = true)
      (h : nextStreamTick (max (tick + sendLeadTicks) slot.restartAt) slot.key.stream = none)
  | commitRefused {target : Nat} (hstate : slot.state.readyToStart = true)
      (htarget : nextStreamTick (max (tick + sendLeadTicks) slot.restartAt) slot.key.stream =
        some target)
      (h : Refused cfg env
        { reveal := Preimage.zero, commit := cfg.commitDigest (env.draw target) } target)
  | horizon {chain : Chain} (hstate : slot.state.isPlanning = true)
      (hchain : slot.chain = some chain) (hplanned : missedTarget tick chain = none)
      (h : u32Max < tick + sendLeadTicks)
  | continuationRefused {chain : Chain} {k : Nat} (hstate : slot.state.isPlanning = true)
      (hchain : slot.chain = some chain) (hplanned : missedTarget tick chain = none)
      (hhorizon : chain.continuation k ≤ tick + sendLeadTicks)
      (htick : tick + sendLeadTicks ≤ u32Max)
      (h : Refused cfg env (chain.continuationInput cfg env k) (chain.continuation k))

/-- What planning relies on in a slot of a run. -/
structure Plannable (slot : ManagedSlot) : Prop where
  stream : slot.key.stream < streamCount
  chain : slot.state.isPlanning = true → ∃ chain, slot.chain = some chain
  target_mod : ∀ chain, slot.chain = some chain →
    chain.lastTarget % streamCount = slot.key.stream

theorem plannable (i : Fin 3) (ops : List SlotOp) :
    Plannable ((slotMachine cfg).state (slot₀ cfg i) ops) where
  stream := by
    rw [slotMachine_key]
    exact i.isLt
  chain h := Option.isSome_iff_exists.1 ((slotShape i ops).present.2 (.inl h))
  target_mod chain hchain :=
    Planned.last_mod (@slotMachine_run cfg i ops : SlotRun cfg (slot₀ cfg i) _ _).planned hchain

/-- For a target of the stream only the wallet decides. -/
theorem buildTransaction_fails {env : SigningEnv} {input : RevealAndCommitInput} {target : Nat}
    {key : SlotKey} (hmod : target % streamCount = key.stream) :
    (∃ err, buildTransaction cfg env input target key = .error err) ↔
      Refused cfg env input target := by
  unfold buildTransaction Refused
  rw [if_neg (not_not.2 hmod)]

theorem enterDrain_fails {slot : ManagedSlot} (h : Plannable slot) (env : SigningEnv)
    (reason : DrainReason) :
    (enterDrain cfg env reason slot).error.isSome = true ↔ DrainEntryFails cfg env slot := by
  have hmod : ∀ chain, slot.chain = some chain →
      (chain.lastTarget + streamCount) % streamCount = slot.key.stream := by
    intro chain hchain
    rw [Nat.add_mod_right, h.target_mod chain hchain]
  constructor
  · intro herror
    unfold enterDrain at herror
    split at herror
    · cases herror
    · cases herror
    · cases herror
    · cases herror
    all_goals
      rename_i hslot
      have hstate : slot.state.isPlanning = true := by
        rw [hslot]
        rfl
      rcases h.chain hstate with ⟨chain, hchain⟩
      rw [hchain] at herror
      dsimp only at herror
      split at herror
      · rename_i hover
        exact .overflow hstate hchain (Bounded.checkedAdd_eq_none.1 hover)
      · rename_i target htarget
        rcases Bounded.checkedAdd_eq_some.1 htarget with ⟨rfl, -⟩
        split at herror
        · rename_i hbuild
          exact .refused hstate hchain ((buildTransaction_fails (hmod chain hchain)).1 ⟨_, hbuild⟩)
        · cases herror
  · intro hfails
    have hplanning : slot.state.isPlanning = true := by
      cases hfails with
      | overflow hstate => exact hstate
      | refused hstate => exact hstate
    rcases h.chain hplanning with ⟨chain, hchain⟩
    unfold enterDrain
    rw [hchain]
    split
    · rename_i hslot
      rw [hslot] at hplanning
      cases hplanning
    · rename_i hslot
      rw [hslot] at hplanning
      cases hplanning
    · rename_i hslot
      rw [hslot] at hplanning
      cases hplanning
    · rename_i hslot
      rw [hslot] at hplanning
      cases hplanning
    all_goals
      dsimp only
      split
      · rfl
      · rename_i target htarget
        rcases Bounded.checkedAdd_eq_some.1 htarget with ⟨rfl, hle⟩
        split
        · rfl
        · -- the target fits and the reveal was signed
          rename_i txBytes hbuild
          exfalso
          cases hfails with
          | overflow _ hchain' hover =>
            cases hchain.symm.trans hchain'
            omega
          | refused _ hchain' hrefused =>
            cases hchain.symm.trans hchain'
            rcases (buildTransaction_fails (hmod chain hchain)).2 hrefused with ⟨err, herr⟩
            rw [hbuild] at herr
            cases herr

/-- The continuations after the next one are those of the chain it extends. -/
theorem Chain.continuation_extendBy {chain : Chain} {call : SignedCall} {next : Preimage}
    (h : call.targetTick = chain.lastTarget + streamCount) (k : Nat) :
    (chain.extendBy call next).continuation k = chain.continuation (k + 1) := by
  simp only [Chain.continuation, Chain.extendBy, h, streamCount]
  omega

theorem Chain.continuationInput_extendBy {env : SigningEnv} {chain : Chain} {call : SignedCall}
    (h : call.targetTick = chain.lastTarget + streamCount) (k : Nat) :
    (chain.extendBy call (env.draw (chain.lastTarget + streamCount))).continuationInput cfg env k =
      chain.continuationInput cfg env (k + 1) := by
  have hreveal : (if k = 0 then env.draw (chain.lastTarget + streamCount)
      else env.draw (chain.lastTarget + streamCount + streamCount * k)) =
        env.draw (chain.lastTarget + streamCount * (k + 1)) := by
    split
    · rename_i hk
      rw [hk]
      rfl
    · congr 1
      simp only [streamCount]
      omega
  simp only [Chain.continuationInput, Chain.continuation_extendBy h, Nat.add_eq_zero_iff,
    Nat.one_ne_zero, and_false, if_false, ← hreveal]
  simp only [Chain.extendBy, h]

/-- The loop of `extend_chain` fails where the wallet refuses one of the
continuations up to the horizon. -/
theorem extendLoop_fails {env : SigningEnv} {currentTick horizon fuel : Nat} {key : SlotKey}
    (hhorizon : horizon ≤ u32Max) {chain : Chain}
    (hmod : chain.lastTarget % streamCount = key.stream)
    (hfuel : horizon - chain.lastTarget ≤ fuel) :
    (extendLoop cfg env currentTick horizon key fuel chain).2.2.isSome = true ↔
      ∃ k, chain.continuation k ≤ horizon ∧
        Refused cfg env (chain.continuationInput cfg env k) (chain.continuation k) := by
  induction fuel generalizing chain with
  | zero =>
    simp only [extendLoop, Option.isSome_none, Bool.false_eq_true, false_iff, not_exists, not_and]
    intro k hk
    simp only [Chain.continuation, streamCount] at hk
    omega
  | succ fuel ih =>
    -- a continuation past the horizon leaves nothing to sign
    have hpast : horizon < chain.lastTarget + streamCount →
        ¬ ∃ k, chain.continuation k ≤ horizon ∧
          Refused cfg env (chain.continuationInput cfg env k) (chain.continuation k) := by
      rintro hpast ⟨k, hk, -⟩
      simp only [Chain.continuation, streamCount] at hk hpast
      omega
    have hnext : (chain.lastTarget + streamCount) % streamCount = key.stream := by
      rw [Nat.add_mod_right, hmod]
    simp only [extendLoop, extendOnce]
    cases htarget : checkedAdd chain.lastTarget streamCount with
    | none =>
      have hover := Bounded.checkedAdd_eq_none.1 htarget
      simp [hpast (by omega)]
    | some target =>
      rcases Bounded.checkedAdd_eq_some.1 htarget with ⟨rfl, hle⟩
      dsimp only
      by_cases hpasses : horizon < chain.lastTarget + streamCount
      · simp [hpasses, hpast hpasses]
      · rw [if_neg hpasses]
        cases hbuild : buildTransaction cfg env
            { reveal := chain.outstandingPreimage
              commit := cfg.commitDigest (env.draw (chain.lastTarget + streamCount)) }
            (chain.lastTarget + streamCount) key with
        | error err =>
          have hrefused := (buildTransaction_fails hnext).1 ⟨err, hbuild⟩
          simp only [Option.isSome_some, true_iff]
          exact ⟨0, Nat.not_lt.1 hpasses, hrefused⟩
        | ok txBytes =>
          -- the rest of the loop runs on the longer chain
          let call : SignedCall :=
            { targetTick := chain.lastTarget + streamCount
              kind := .revealAndCommit
              input :=
                { reveal := chain.outstandingPreimage
                  commit := cfg.commitDigest (env.draw (chain.lastTarget + streamCount)) }
              txBytes := txBytes
              preimage := some (env.draw (chain.lastTarget + streamCount))
              plannedAt := some currentTick
              drain := none }
          have hrest := @ih (chain.extendBy call (env.draw (chain.lastTarget + streamCount))) hnext
            (show horizon - (chain.lastTarget + streamCount) ≤ fuel by
              simp only [streamCount]
              omega)
          refine hrest.trans ⟨?_, ?_⟩
          · rintro ⟨k, hk, hrefused⟩
            rw [Chain.continuation_extendBy rfl] at hk hrefused
            rw [Chain.continuationInput_extendBy rfl] at hrefused
            exact ⟨k + 1, hk, hrefused⟩
          · rintro ⟨k, hk, hrefused⟩
            cases k with
            | zero =>
              rcases (buildTransaction_fails hnext).2 hrefused with ⟨err, herr⟩
              exact absurd (hbuild.symm.trans herr) (by simp)
            | succ k =>
              refine ⟨k, ?_, ?_⟩
              · rw [Chain.continuation_extendBy rfl]
                exact hk
              · rw [Chain.continuation_extendBy rfl, Chain.continuationInput_extendBy rfl]
                exact hrefused

theorem not_planning_of_ready {state : SlotState} (h : state.readyToStart = true) :
    state.isPlanning = false := by
  cases state <;> first | rfl | cases h

/-- A slot that may start either fails to, for one of the reasons of
`PlanningFails`, or has a chain that begins past the horizon. -/
theorem startIfReady_spec {slot : ManagedSlot} (h : Plannable slot) (env : SigningEnv) (tick : Nat)
    (hready : slot.state.readyToStart = true) :
    ((startIfReady cfg env tick slot).error.isSome = true ∧ PlanningFails cfg env tick slot) ∨
    ((startIfReady cfg env tick slot).error = none ∧ ¬ PlanningFails cfg env tick slot ∧
      tick + sendLeadTicks ≤ u32Max ∧ Plannable (startIfReady cfg env tick slot).slot ∧
      ∃ chain, (startIfReady cfg env tick slot).slot.chain = some chain ∧
        tick + sendLeadTicks ≤ chain.lastTarget) := by
  have hplanning := not_planning_of_ready hready
  unfold startIfReady
  rw [if_pos hready]
  split
  · rename_i hlead
    exact .inl ⟨rfl, .initialTick hready (Bounded.checkedAdd_eq_none.1 hlead)⟩
  · rename_i lead hlead
    rcases Bounded.checkedAdd_eq_some.1 hlead with ⟨rfl, hle⟩
    split
    · rename_i htarget
      exact .inl ⟨rfl, .initialTarget hready htarget⟩
    · rename_i target htarget
      rcases nextStreamTick_isLeast h.stream htarget with ⟨-, ⟨hmod, hat⟩, -⟩
      dsimp only
      split
      · rename_i err hbuild
        exact .inl ⟨rfl, .commitRefused hready htarget
          ((buildTransaction_fails hmod).1 ⟨err, hbuild⟩)⟩
      · rename_i txBytes hbuild
        right
        refine ⟨rfl, ?_, hle, ⟨h.stream, fun _ => ⟨_, rfl⟩, ?_⟩, _, rfl, ?_⟩
        · intro hfails
          cases hfails with
          | initialTick _ hover => omega
          | initialTarget _ hnone => cases htarget.symm.trans hnone
          | commitRefused _ htarget' hrefused =>
            cases htarget.symm.trans htarget'
            rcases (buildTransaction_fails hmod).2 hrefused with ⟨err, herr⟩
            cases hbuild.symm.trans herr
          | horizon hstate => exact absurd (hplanning.symm.trans hstate) nofun
          | continuationRefused hstate => exact absurd (hplanning.symm.trans hstate) nofun
        · intro chain hchain
          cases hchain
          exact hmod
        · show tick + sendLeadTicks ≤ target
          omega

/-- Extending fails by the horizon, or by a refused continuation up to it. -/
theorem extendChain_fails {slot : ManagedSlot} (h : Plannable slot) (env : SigningEnv)
    (tick : Nat) : (extendChain cfg env tick slot).error.isSome = true ↔
      slot.state.isPlanning = true ∧ ∃ chain, slot.chain = some chain ∧
        missedTarget tick chain = none ∧ (u32Max < tick + sendLeadTicks ∨
          tick + sendLeadTicks ≤ u32Max ∧ ∃ k, chain.continuation k ≤ tick + sendLeadTicks ∧
            Refused cfg env (chain.continuationInput cfg env k) (chain.continuation k)) := by
  unfold extendChain
  by_cases hstate : slot.state.isPlanning = true
  · rcases h.chain hstate with ⟨chain, hchain⟩
    simp only [hstate, if_true, true_and, hchain, Option.bind_some, Option.some.injEq,
      exists_eq_left']
    cases hmissed : missedTarget tick chain with
    | some missed =>
      -- the loss of a chain is no error
      simp only [SlotResult.followedBy, reduceCtorEq, false_and, iff_false, Bool.not_eq_true]
      split <;> simp [loseChain]
      split <;> rfl
    | none =>
      simp only [true_and]
      cases hhorizon : checkedAdd tick sendLeadTicks with
      | none =>
        have hover := Bounded.checkedAdd_eq_none.1 hhorizon
        simp only [Option.isSome_some, true_iff]
        exact .inl hover
      | some horizon =>
        rcases Bounded.checkedAdd_eq_some.1 hhorizon with ⟨rfl, hle⟩
        have hloop := @extendLoop_fails cfg env tick (tick + sendLeadTicks)
          (tick + sendLeadTicks - chain.lastTarget) slot.key hle chain (h.target_mod chain hchain)
          le_rfl
        refine hloop.trans ⟨fun hrefused => .inr ⟨hle, hrefused⟩, ?_⟩
        rintro (hover | ⟨-, hrefused⟩)
        · omega
        · exact hrefused
  · simp [hstate]

/-- Starting and extending fail where `PlanningFails` says: a chain that was just
started is not extended in the same cycle. -/
theorem planning_fails {slot : ManagedSlot} (h : Plannable slot) (env : SigningEnv) (tick : Nat) :
    failsOn cfg slot [.startIfReady env tick, .extendChain env tick] = true ↔
      PlanningFails cfg env tick slot := by
  show ((startIfReady cfg env tick slot).error.isSome ||
    ((extendChain cfg env tick (startIfReady cfg env tick slot).slot).error.isSome || false)) =
      true ↔ _
  rw [Bool.or_false]
  by_cases hready : slot.state.readyToStart = true
  · rcases @startIfReady_spec cfg slot h env tick hready with ⟨herror, hfails⟩ |
      ⟨hok, hplans, hle, hnext, chain, hchain, hpast⟩
    · simp [herror, hfails]
    · have hquiet : (extendChain cfg env tick (startIfReady cfg env tick slot).slot).error.isSome =
          false := by
        rw [← Bool.not_eq_true, extendChain_fails hnext]
        rintro ⟨-, chain', hchain', -, hover | ⟨-, k, hk, -⟩⟩
        · omega
        · cases hchain.symm.trans hchain'
          simp only [Chain.continuation, streamCount] at hk
          omega
      simp [hok, hquiet, hplans]
  · have hstart : startIfReady cfg env tick slot = { slot := slot } := by
      unfold startIfReady
      rw [if_neg hready]
    rw [hstart]
    dsimp only
    rw [Option.isSome_none, Bool.false_or, extendChain_fails h]
    constructor
    · rintro ⟨hstate, chain, hchain, hplanned, hover | ⟨hle, k, hk, hrefused⟩⟩
      · exact .horizon hstate hchain hplanned hover
      · exact .continuationRefused hstate hchain hplanned hk hle hrefused
    · intro hfails
      cases hfails with
      | initialTick hstate => exact absurd hstate hready
      | initialTarget hstate => exact absurd hstate hready
      | commitRefused hstate => exact absurd hstate hready
      | horizon hstate hchain hplanned hover => exact ⟨hstate, _, hchain, hplanned, .inl hover⟩
      | continuationRefused hstate hchain hplanned hk hle hrefused =>
        exact ⟨hstate, _, hchain, hplanned, .inr ⟨hle, _, hk, hrefused⟩⟩

/-! ## One step -/

/-- The operations with which a step plans a stream. -/
def planningOps (cfg : Config) (e : Engine) (input : EngineInput) (i : Fin 3) : List SlotOp :=
  match input with
  | .shutdown env => [.enterDrain (env i) .shutdown]
  | .cycle input =>
    match input.tick with
    | .error _ => []
    | .ok tick =>
      planOps (planOf (phaseAfter cfg tick input e) tick.epoch input.cancelled) tick (input.env i)

/-- The operations with which a step delivers the calls of a stream. -/
def deliveringOps (input : EngineInput) : List SlotOp :=
  match input with
  | .shutdown _ => []
  | .cycle input =>
    match input.tick with
    | .error _ => []
    | .ok tick => deliveryOps tick

/-- What a step performs on a stream when it is the only one. -/
def aloneOps (cfg : Config) (e : Engine) (input : EngineInput) (j : Fin 3) : List SlotOp :=
  performedOps cfg (e.slots j)
    (entryOps e input j ++ planningOps cfg e input j ++ deliveringOps input)

/-- Some planning operation of a step fails on the slot of a stream. -/
def planFails (cfg : Config) (e : Engine) (input : EngineInput) (i : Fin 3) : Bool :=
  failsOn cfg (entrySlot cfg e input i) (planningOps cfg e input i)

/-- A step fails to plan a stream or to enter its drain. -/
def StreamFails (cfg : Config) (e : Engine) (input : EngineInput) (i : Fin 3) : Prop :=
  match input with
  | .shutdown env => DrainEntryFails cfg (env i) (e.slots i)
  | .cycle cycleInput =>
    match cycleInput.tick with
    | .error _ => False
    | .ok tick =>
      match planOf (phaseAfter cfg tick cycleInput e) tick.epoch cycleInput.cancelled with
      | .drain _ => DrainEntryFails cfg (cycleInput.env i) (entrySlot cfg e input i)
      | .normal => PlanningFails cfg (cycleInput.env i) tick.tick (entrySlot cfg e input i)
      | .none => False

/-- A cycle delivers what it has planned; the drain entry of `run` delivers nothing. -/
def EngineInput.delivers : EngineInput → Bool
  | .cycle _ => true
  | .shutdown _ => false

/-- No other stream ends the step before stream `j` is through with it: a failing
stream comes after `j`, and in a cycle `j` has failed itself by then. -/
def Undisturbed (cfg : Config) (e : Engine) (input : EngineInput) (j : Fin 3) : Prop :=
  ∀ i, i ≠ j → StreamFails cfg e input i →
    j < i ∧ (input.delivers = true → StreamFails cfg e input j)

/-- A step does to a stream what it does to the stream alone. -/
structure Isolated (cfg : Config) (e : Engine) (input : EngineInput) (j : Fin 3) : Prop where
  ops : slotLog j (engineStep cfg input e).log = aloneOps cfg e input j
  slot : (engineStep cfg input e).engine.slots j =
    (slotMachine cfg).state (e.slots j) (aloneOps cfg e input j)
  effects : (slotMachine cfg).trace (e.slots j) (slotLog j (engineStep cfg input e).log) =
    (slotMachine cfg).trace (e.slots j) (aloneOps cfg e input j)

theorem entrySlot_plannable (a b c : Nat) (inputs : List EngineInput) (input : EngineInput)
    (i : Fin 3) :
    Plannable (entrySlot cfg ((engineMachine cfg).state (Engine.new cfg a b c) inputs) input i) := by
  unfold entrySlot
  rw [slots_of_log, ← Machine.state_append]
  exact plannable i _

theorem streamFails_iff {e : Engine} {input : EngineInput} {i : Fin 3}
    (h : Plannable (entrySlot cfg e input i)) :
    planFails cfg e input i = true ↔ StreamFails cfg e input i := by
  unfold planFails
  have hdrain : ∀ env reason,
      failsOn cfg (entrySlot cfg e input i) [.enterDrain env reason] = true ↔
        DrainEntryFails cfg env (entrySlot cfg e input i) := by
    intro env reason
    show ((enterDrain cfg env reason (entrySlot cfg e input i)).error.isSome || false) = true ↔ _
    rw [Bool.or_false]
    exact enterDrain_fails h env reason
  cases input with
  | shutdown env => exact hdrain (env i) .shutdown
  | cycle input =>
    cases htick : input.tick with
    | error err => simp [planningOps, StreamFails, htick]
    | ok tick =>
      simp only [planningOps, StreamFails, htick]
      cases planOf (phaseAfter cfg tick input e) tick.epoch input.cancelled with
      | drain reason => exact hdrain (input.env i) reason
      | normal => exact planning_fails h (input.env i) tick.tick
      | none => simp [planOps]

/-- Where one stream can fail, every stream has something to plan. -/
theorem planningOps_ne_nil {e : Engine} {input : EngineInput} {i : Fin 3}
    (h : StreamFails cfg e input i) (j : Fin 3) : planningOps cfg e input j ≠ [] := by
  cases input with
  | shutdown env => exact List.cons_ne_nil _ _
  | cycle input =>
    cases htick : input.tick with
    | error err => simp [StreamFails, htick] at h
    | ok tick =>
      simp only [planningOps, StreamFails, htick] at h ⊢
      split at h
      · rename_i reason hplan
        rw [hplan]
        exact List.cons_ne_nil _ _
      · rename_i hplan
        rw [hplan]
        exact List.cons_ne_nil _ _
      · cases h

theorem deliveryOps_quiet {tick : TickInfo} {op : SlotOp} (h : op ∈ deliveryOps tick) :
    op.isQuiet = true := by
  simp only [deliveryOps, List.mem_cons, List.not_mem_nil, or_false] at h
  rcases h with rfl | rfl | rfl | rfl | rfl <;> rfl

theorem deliveringOps_quiet {input : EngineInput} {op : SlotOp} (h : op ∈ deliveringOps input) :
    op.isQuiet = true := by
  unfold deliveringOps at h
  split at h
  · cases h
  · split at h
    · cases h
    · exact deliveryOps_quiet h

theorem entryOps_quiet {e : Engine} {input : EngineInput} {i : Fin 3} {op : SlotOp}
    (h : op ∈ entryOps e input i) : op.isQuiet = true := by
  unfold entryOps at h
  split at h
  · cases h
  · split at h
    · cases h
    · rename_i tick _
      simp only [readingOps, statusOps, List.mem_append, List.mem_singleton] at h
      rcases h with (h | rfl) | h
      · split at h
        · rw [List.mem_singleton.1 h]
          rfl
        · cases h
      · rfl
      · split at h
        · split at h
          · rw [List.mem_singleton.1 h]
            rfl
          · cases h
        · cases h

/-- What a step performs on a stream: nothing after what it reads if a stream
before fails to plan, and no delivery if any stream does. -/
theorem engineStep_slotLog (e : Engine) (input : EngineInput) (j : Fin 3) :
    slotLog j (engineStep cfg input e).log = entryOps e input j ++
      (if ∃ i < j, planFails cfg e input i = true then []
        else performedOps cfg (entrySlot cfg e input j) (planningOps cfg e input j)) ++
      if ∃ i, planFails cfg e input i = true then [] else deliveringOps input := by
  unfold planFails
  cases input with
  | shutdown env =>
    have hloop := (@Exec.forSlots_alone cfg (Exec.start e) rfl
      fun i => [.enterDrain (env i) .shutdown]).1 j
    show slotLog j ((Exec.start e).forSlots cfg fun i => [.enterDrain (env i) .shutdown]).log = _
    rw [hloop]
    simp only [entryOps, deliveringOps, slotLog_nil, List.nil_append, ite_self, List.append_nil]
    rfl
  | cycle input =>
    cases htick : input.tick with
    | error err =>
      simp [engineStep, cycle, htick, entryOps, planningOps, deliveringOps]
    | ok tick =>
      rcases @cycleAt_split cfg tick input e with ⟨y, hok, hread, hslots, hcycle⟩
      have hentry : ∀ i, y.engine.slots i = entrySlot cfg e (.cycle input) i := by
        intro i
        rw [hslots i]
        simp only [entrySlot, entryOps, htick]
      have hplan : ∀ i, planOps (planOf (phaseAfter cfg tick input e) tick.epoch input.cancelled)
          tick (input.env i) = planningOps cfg e (.cycle input) i := by
        intro i
        simp only [planningOps, htick]
      rcases Exec.forSlots_alone hok fun i => planOps
        (planOf (phaseAfter cfg tick input e) tick.epoch input.cancelled) tick (input.env i) with
        ⟨hplanned, hend⟩
      simp only [hplan, hentry] at hplanned hend hcycle
      generalize y.forSlots cfg (fun i => planningOps cfg e (.cycle input) i) = z at *
      have hstep : slotLog j (engineStep cfg (.cycle input) e).log =
          slotLog j (z.forSlots cfg fun _ => deliveryOps tick).log := by
        simp only [engineStep, cycle, htick]
        rw [hcycle]
        unfold Exec.modify
        split <;> rfl
      have hdelivered : slotLog j (z.forSlots cfg fun _ => deliveryOps tick).log =
          slotLog j z.log ++ if ∃ i, failsOn cfg (entrySlot cfg e (.cycle input) i)
            (planningOps cfg e (.cycle input) i) = true then [] else deliveryOps tick := by
        by_cases hfails : ∃ i, failsOn cfg (entrySlot cfg e (.cycle input) i)
            (planningOps cfg e (.cycle input) i) = true
        · -- an error of planning ends the cycle
          have herror : z.error.isSome = true := by
            rw [Option.isSome_iff_ne_none, ne_eq, hend]
            rcases hfails with ⟨i, hi⟩
            intro hall
            exact absurd ((hall i).symm.trans hi) (by simp)
          rw [if_pos hfails, List.append_nil]
          unfold Exec.forSlots
          rw [Exec.performAll_of_error herror, Exec.performAll_of_error herror,
            Exec.performAll_of_error herror]
        · have hnone : z.error = none := by
            rw [hend]
            intro i
            by_contra hi
            exact hfails ⟨i, by simpa using hi⟩
          have hquiet := fun slot : ManagedSlot =>
            @performedOps_quiet cfg (deliveryOps tick) (fun _ hop => deliveryOps_quiet hop) slot
          rw [if_neg hfails, (@Exec.forSlots_alone cfg z hnone fun _ => deliveryOps tick).1 j]
          simp [hquiet]
      rw [hstep, hdelivered, hplanned, hread]
      simp only [entryOps, deliveringOps, htick]

theorem aloneOps_eq (e : Engine) (input : EngineInput) (j : Fin 3) :
    aloneOps cfg e input j = entryOps e input j ++
      performedOps cfg (entrySlot cfg e input j) (planningOps cfg e input j) ++
        if planFails cfg e input j then [] else deliveringOps input := by
  have hentry := @performedOps_quiet cfg (entryOps e input j) (fun _ hop => entryOps_quiet hop)
    (e.slots j)
  unfold aloneOps
  rw [List.append_assoc, performedOps_append, hentry.1, hentry.2]
  simp only [Bool.false_eq_true, if_false]
  rw [performedOps_append]
  have hdelivery := @performedOps_quiet cfg (deliveringOps input)
    (fun _ hop => deliveringOps_quiet hop)
  rw [(hdelivery _).1, List.append_assoc]
  rfl

/-- A step does to a stream what it does to the stream alone exactly when no other
stream ends it too early. -/
theorem isolated_iff {e : Engine} {input : EngineInput}
    (h : ∀ i, Plannable (entrySlot cfg e input i)) (j : Fin 3) :
    Isolated cfg e input j ↔ Undisturbed cfg e input j := by
  have hops : Isolated cfg e input j ↔
      slotLog j (engineStep cfg input e).log = aloneOps cfg e input j := by
    constructor
    · exact Isolated.ops
    · intro hops
      exact ⟨hops, by rw [engineStep_slots, hops], by rw [hops]⟩
  have hfails := fun i => streamFails_iff (h i)
  rw [hops, engineStep_slotLog, aloneOps_eq, List.append_assoc, List.append_assoc,
    List.append_cancel_left_eq]
  constructor
  · intro heq i hi hfail
    have hplans := @performedOps_ne_nil cfg _ (planningOps_ne_nil hfail j)
      (entrySlot cfg e input j)
    have hsome : ∃ i, planFails cfg e input i = true := ⟨i, (hfails i).2 hfail⟩
    rw [if_pos hsome, List.append_nil] at heq
    constructor
    · -- a stream before `j` would have kept it from being planned
      by_contra hafter
      have hbefore : i < j := by omega
      rw [if_pos ⟨i, hbefore, (hfails i).2 hfail⟩] at heq
      exact hplans (List.append_eq_nil_iff.1 heq.symm).1
    · intro hdelivers
      by_contra hok
      rw [← hfails j] at hok
      have hlength := congrArg List.length heq
      rw [if_neg hok, List.length_append] at hlength
      have hdelivery : 0 < (deliveringOps input).length := by
        cases input with
        | shutdown env => cases hdelivers
        | cycle input =>
          cases htick : input.tick with
          | error err => simp [StreamFails, htick] at hfail
          | ok tick => simp [deliveringOps, deliveryOps, htick]
      split at hlength
      · simp only [List.length_nil] at hlength
        omega
      · omega
  · intro hundisturbed
    have hbefore : ¬ ∃ i < j, planFails cfg e input i = true := by
      rintro ⟨i, hi, hfail⟩
      have hafter := (hundisturbed i (by omega) ((hfails i).1 hfail)).1
      omega
    rw [if_neg hbefore, List.append_cancel_left_eq]
    by_cases hj : planFails cfg e input j = true
    · rw [if_pos ⟨j, hj⟩, if_pos hj]
    · rw [if_neg hj]
      split
      · rename_i hsome
        rcases hsome with ⟨i, hfail⟩
        have hother : i ≠ j := fun heq => hj (heq ▸ hfail)
        cases input with
        | shutdown env => rfl
        | cycle input =>
          have hown := (hundisturbed i hother ((hfails i).1 hfail)).2 rfl
          exact absurd ((hfails j).2 hown) hj
      · rfl

/-- What a stream alone gets depends on its own slot, the epoch phase and the
status query. -/
theorem aloneOps_congr {e e' : Engine} {input : EngineInput} {j : Fin 3}
    (hslot : e'.slots j = e.slots j) (hphase : e'.epochPhase = e.epochPhase)
    (hquery : e'.statusQuery = e.statusQuery) :
    aloneOps cfg e' input j = aloneOps cfg e input j := by
  have hchanges : ∀ tick, epochChanges e' tick = epochChanges e tick := by
    intro tick
    simp only [epochChanges, hphase]
  have hafter : ∀ tick cycleInput, phaseAfter cfg tick cycleInput e' =
      phaseAfter cfg tick cycleInput e := by
    intro tick cycleInput
    simp only [phaseAfter, hchanges, hphase]
  have hobservation : ∀ tick cycleInput, observationOf tick cycleInput e' =
      observationOf tick cycleInput e := by
    intro tick cycleInput
    simp only [observationOf, hchanges, harvestedObservation, hquery]
  unfold aloneOps
  rw [hslot]
  cases input with
  | shutdown env => rfl
  | cycle input => simp only [entryOps, planningOps, readingOps, hchanges, hafter, hobservation]

/-- Stream isolation, in every engine state a run reaches: a step does to stream
`j` what it does to the stream alone exactly when no other stream that fails to
plan, or to enter its drain, ends the step before `j` is through with it. Between
two states that agree on the slot of `j` and on what all streams share, such a
step makes no difference: `j` gets the same slot and hands over the same bytes. -/
theorem stream_isolation (cfg : Config) (a b c a' b' c' : Nat) (inputs inputs' : List EngineInput)
    (input : EngineInput) (j : Fin 3) :
    let e := (engineMachine cfg).state (Engine.new cfg a b c) inputs
    let e' := (engineMachine cfg).state (Engine.new cfg a' b' c') inputs'
    (Isolated cfg e input j ↔ Undisturbed cfg e input j) ∧
    (e'.slots j = e.slots j → e'.epochPhase = e.epochPhase → e'.statusQuery = e.statusQuery →
      Undisturbed cfg e input j → Undisturbed cfg e' input j →
        (engineStep cfg input e').engine.slots j = (engineStep cfg input e).engine.slots j ∧
        runTrace cfg e' [input] j = runTrace cfg e [input] j) := by
  intro e e'
  have hiff := @isolated_iff cfg e input (entrySlot_plannable a b c inputs input) j
  have hiff' := @isolated_iff cfg e' input (entrySlot_plannable a' b' c' inputs' input) j
  refine ⟨hiff, ?_⟩
  intro hslot hphase hquery hundisturbed hundisturbed'
  have hisolated := hiff.2 hundisturbed
  have hisolated' := hiff'.2 hundisturbed'
  have halone := @aloneOps_congr cfg e e' input j hslot hphase hquery
  constructor
  · rw [hisolated'.slot, hisolated.slot, hslot, halone]
  · have htrace : ∀ e₀ : Engine, runTrace cfg e₀ [input] j =
        (slotMachine cfg).trace (e₀.slots j) (slotLog j (engineStep cfg input e₀).log) := by
      intro e₀
      simp [runTrace, history, Machine.trace, engineMachine]
    rw [htrace, htrace, hisolated'.effects, hisolated.effects, hslot, halone]

/-- A report of epoch 1 at a tick close to the largest one. -/
def lateTick (before : Nat) : TickInfo where
  epoch := 1
  tick := u32Max - before
  initialTick := 0
  tickDurationMs := 1000
  tick_le := Nat.sub_le _ _

/-- A cycle close to the largest tick, with the same result of every broadcast. -/
def lateCycle (before : Nat) (status : Option Bytes) (result : Option Delivery)
    (cancelled : Bool) : EngineInput :=
  .cycle
    { tick := .ok (lateTick before)
      now := { timestamp := 0 }
      statusResult := status.map .ok
      broadcastResults := fun _ _ => result
      cancelled := cancelled
      env := fun _ => sampleEnv
      tickCheckResult := none
      clock :=
        { resetTickCheckAt := 0, resetStatusAt := 0, resetMonitorAt := 0, statusAt := 0
          statusStartedAt := 0, expireAt := 0, harvestAt := 0, ensureExpireAt := 0, ensureAt := 0 } }

/-- Three chains start close to the largest tick, with their first commits on
the way. The cycle 8 ticks before it extends the chain of stream 1 only. -/
def lateRun (further : List Nat) : List EngineInput :=
  [lateCycle 12 none none false, lateCycle 11 (some emptyStatus) none false] ++
    further.map fun before => lateCycle before none none false

/-- The targets of the calls a trace hands to the backend. -/
def handedTargets (t : List Effect) : List Nat :=
  t.filterMap fun
    | .handed _ target _ _ _ => some target
    | _ => none

theorem undisturbed_of_plans {e : Engine} {input : EngineInput} {j : Fin 3}
    (h : ∀ i, Plannable (entrySlot cfg e input i))
    (hplans : ∀ i, i ≠ j → planFails cfg e input i = false) : Undisturbed cfg e input j := by
  intro i hi hfail
  rw [← streamFails_iff (h i), hplans i hi] at hfail
  cases hfail

/-- The slot with an empty queue. -/
def ManagedSlot.emptied (slot : ManagedSlot) : ManagedSlot :=
  { slot with chain := slot.chain.map fun chain => { chain with calls := [] } }

/-- Two slots are equal when their queues and the rest are. -/
theorem ManagedSlot.eq_of_queue {slot slot' : ManagedSlot} (hqueue : slot.queue = slot'.queue)
    (hrest : slot.emptied = slot'.emptied) : slot = slot' := by
  rcases slot with ⟨key, state, chain, restartAt⟩
  rcases slot' with ⟨key', state', chain', restartAt'⟩
  simp only [ManagedSlot.emptied, ManagedSlot.mk.injEq] at hrest
  rcases hrest with ⟨rfl, rfl, hchain, rfl⟩
  cases chain with
  | none =>
    cases chain' with
    | none => rfl
    | some chain' => cases hchain
  | some chain =>
    cases chain' with
    | none => cases hchain
    | some chain' =>
      have hcalls : chain.calls = chain'.calls := hqueue
      rcases chain with ⟨first, last, confirmed, suspicion, preimage, calls⟩
      rcases chain' with ⟨first', last', confirmed', suspicion', preimage', calls'⟩
      simp only [Option.map_some, Option.some.injEq, Chain.mk.injEq] at hchain hcalls
      rcases hchain with ⟨rfl, rfl, rfl, rfl, rfl, -⟩
      rw [hcalls]

/-- The engines after `lateRun [9, 8]` and `lateRun [9]` agree on stream 2. -/
theorem lateRun_agree :
    ((engineMachine sampleConfig).state (Engine.new sampleConfig 0 0 0) (lateRun [9])).slots 2 =
      ((engineMachine sampleConfig).state (Engine.new sampleConfig 0 0 0)
        (lateRun [9, 8])).slots 2 :=
  ManagedSlot.eq_of_queue (by decide +kernel) (by decide +kernel)

/-- Two engines that agree on stream 2 and not on stream 1: a cycle in which no
other stream fails does the same to stream 2. It extends its chain and hands the
additional broadcast of its first commit to the backend. -/
theorem stream_isolation_late :
    let e := (engineMachine sampleConfig).state (Engine.new sampleConfig 0 0 0) (lateRun [9, 8])
    let e' := (engineMachine sampleConfig).state (Engine.new sampleConfig 0 0 0) (lateRun [9])
    let input := lateCycle 7 none (some .ok) false
    ((e'.slots 1).chain.map Chain.lastTarget ≠ (e.slots 1).chain.map Chain.lastTarget ∧
      ((engineStep sampleConfig input e).engine.slots 2).chain.map Chain.lastTarget =
        some (u32Max - 1) ∧
      handedTargets (runTrace sampleConfig e [input] 2) = [u32Max - 4]) ∧
    (engineStep sampleConfig input e').engine.slots 2 =
      (engineStep sampleConfig input e).engine.slots 2 ∧
    runTrace sampleConfig e' [input] 2 = runTrace sampleConfig e [input] 2 := by
  refine ⟨by decide +kernel, ?_⟩
  have hundisturbed : ∀ further, (∀ i, i ≠ 2 → planFails sampleConfig
      ((engineMachine sampleConfig).state (Engine.new sampleConfig 0 0 0) (lateRun further))
        (lateCycle 7 none (some .ok) false) i = false) → Undisturbed sampleConfig
      ((engineMachine sampleConfig).state (Engine.new sampleConfig 0 0 0) (lateRun further))
        (lateCycle 7 none (some .ok) false) 2 :=
    fun further hplans => undisturbed_of_plans (entrySlot_plannable 0 0 0 _ _) hplans
  exact (stream_isolation sampleConfig 0 0 0 0 0 0 (lateRun [9, 8]) (lateRun [9])
    (lateCycle 7 none (some .ok) false) 2).2 lateRun_agree (by decide +kernel)
      (by decide +kernel) (hundisturbed [9, 8] (by decide +kernel))
      (hundisturbed [9] (by decide +kernel))

/-- The terminal target of stream 1 overflows in one engine and not in the other,
which agree on stream 2: a cancelled cycle with every first commit accepted drains
stream 2 and sends its terminal reveal in one only. In the same cycle stream 0
enters its drain, but its terminal reveal is not sent, as it is when stream 0 is
alone. -/
theorem stream_one_stops_the_others :
    let e := (engineMachine sampleConfig).state (Engine.new sampleConfig 0 0 0) (lateRun [9, 8])
    let e' := (engineMachine sampleConfig).state (Engine.new sampleConfig 0 0 0) (lateRun [9])
    let input := lateCycle 4 none (some .ok) true
    (e'.slots 2 = e.slots 2 ∧ e'.epochPhase = e.epochPhase ∧ e'.statusQuery = e.statusQuery) ∧
    (((engineStep sampleConfig input e').engine.slots 2).state =
        .draining .shutdown (u32Max - 1) ∧
      handedTargets (runTrace sampleConfig e' [input] 2) = [u32Max - 1]) ∧
    (((engineStep sampleConfig input e).engine.slots 2).state = .starting (u32Max - 4) ∧
      handedTargets (runTrace sampleConfig e [input] 2) = []) ∧
    (handedTargets ((slotMachine sampleConfig).trace (e.slots 0)
        (aloneOps sampleConfig e input 0)) = [u32Max] ∧
      handedTargets (runTrace sampleConfig e [input] 0) = []) :=
  ⟨⟨lateRun_agree, by decide +kernel⟩, by decide +kernel, by decide +kernel, by decide +kernel⟩

end RandomClient
