import RandomClient.NewestCheck
import RandomClient.TickData

/-!
# Inclusion verdicts

A finished check compares the stored digest of its target with the digests of
the tick. The stored digest is that of the first bytes stored in the epoch
(`digests_of_ops`): expiry and success take it away only with the target. Bytes
are stored when they are handed out (`Paired`), and a target has one byte string
in an epoch (`handed_bytes`). So the verdict is about the very bytes that were
handed out (`inclusion_sound`).
-/

namespace RandomClient

variable {cfg : Config}

/-! ## The stored digests -/

/-- The bytes whose digest an effect stores for the target. -/
def Effect.digestOf (target : Nat) : Effect → Option Bytes
  | .digest targetTick txBytes => if targetTick = target then some txBytes else none
  | _ => none

/-- The first bytes stored for the target. -/
def firstDigest (target : Nat) (effects : List Effect) : Option Bytes :=
  effects.findSome? (Effect.digestOf target)

theorem firstDigest_append (target : Nat) (xs ys : List Effect) :
    firstDigest target (xs ++ ys) = (firstDigest target xs).or (firstDigest target ys) :=
  List.findSome?_append

theorem firstDigest_mem {target : Nat} {effects : List Effect} {txBytes : Bytes}
    (h : firstDigest target effects = some txBytes) : .digest target txBytes ∈ effects := by
  rcases List.exists_of_findSome?_eq_some h with ⟨e, hmem, he⟩
  unfold Effect.digestOf at he
  split at he
  · split at he
    · rename_i htarget
      cases he
      rw [← htarget]
      exact hmem
    · cases he
  · cases he

theorem firstDigest_isSome {target : Nat} {effects : List Effect} {txBytes : Bytes}
    (h : .digest target txBytes ∈ effects) : (firstDigest target effects).isSome := by
  unfold firstDigest
  rw [List.findSome?_isSome_iff]
  exact ⟨_, h, by simp [Effect.digestOf]⟩

section Store

variable {m : Monitor}

theorem recordSendOutcome_digests (target : Nat) (next : SendOutcome) (m : Monitor) :
    (m.recordSendOutcome target next).targetDigests = m.targetDigests := by
  rcases recordSendOutcome_cases target next m with ⟨hsame, -⟩ | ⟨-, hnew⟩ | ⟨_, -, -, hmoved⟩
  · rw [hsame]
  · rw [hnew]
  · rw [hmoved]

theorem queueTickCheck_digests (target : Nat) (m : Monitor) :
    (m.queueTickCheck target).targetDigests = m.targetDigests := by
  unfold Monitor.queueTickCheck
  split <;> rfl

theorem expireTickChecks_digests {currentTick now target : Nat}
    (hlive : (m.expireTickChecks cfg currentTick now).oldestTickCheck ≤ target) :
    (m.expireTickChecks cfg currentTick now).targetDigests target = m.targetDigests target :=
  if_pos hlive

theorem harvestTickCheck_digests {result : Option (Except String TickTransactions)}
    {now target : Nat} (hlive : target ∉ (m.harvestTickCheck result now).checkedTargetTicks) :
    (m.harvestTickCheck result now).targetDigests target = m.targetDigests target := by
  cases hcheck : m.tickCheck with
  | none => rw [harvestTickCheck_none result now hcheck]
  | some check =>
    rcases result with _ | (err | observation)
    · unfold Monitor.harvestTickCheck
      rw [hcheck]
    · rw [harvestTickCheck_error hcheck]
      rfl
    · rw [harvestTickCheck_ok hcheck] at hlive ⊢
      -- success takes the digest of the checked target only
      have hother : target ∉ (m.verified check).checkedTargetTicks →
          (m.verified check).targetDigests target = m.targetDigests target := by
        intro hunchecked
        apply Function.update_of_ne
        rintro rfl
        exact hunchecked (Finset.mem_insert_self _ _)
      split at hlive
      · rename_i hfull
        rw [if_pos hfull]
        exact hother hlive
      · rename_i hempty
        rw [if_neg hempty, recordSendOutcome_digests]
        rw [(recordSendOutcome_checks _ _ _).checked] at hlive
        exact hother hlive

theorem ensureTickCheck_digests {currentTick expireAt now target : Nat}
    (hlive : (m.ensureTickCheck cfg currentTick expireAt now).oldestTickCheck ≤ target) :
    (m.ensureTickCheck cfg currentTick expireAt now).targetDigests target =
      m.targetDigests target := by
  rw [ensureTickCheck_eq] at hlive ⊢
  dsimp only at hlive ⊢
  split at hlive
  · rename_i hskip
    rw [if_pos hskip]
    exact expireTickChecks_digests hlive
  · rename_i hturn
    rw [if_neg hturn]
    have hexpired := @expireTickChecks_digests cfg m currentTick expireAt target
    split at hlive
    · exact hexpired hlive
    · exact hexpired hlive

/-- Within an epoch the digest of a target that is not done with is stored once
and kept. -/
theorem MonitorOp.digests {op : MonitorOp} (hreset : op.isReset = false) {target : Nat}
    (hlive : ¬ (op.run cfg m).Settled target) :
    (op.run cfg m).targetDigests target =
      (m.targetDigests target).or
        ((firstDigest target (bookedEffects [op])).map cfg.transactionDigest) := by
  unfold Monitor.Settled at hlive
  rw [not_or, Nat.not_lt] at hlive
  cases op with
  | reset => cases hreset
  | expireTickChecks currentTick now =>
    exact (expireTickChecks_digests hlive.2).trans (Option.or_none).symm
  | harvestTickCheck result now =>
    exact (harvestTickCheck_digests hlive.1).trans (Option.or_none).symm
  | ensureTickCheck currentTick expireAt now =>
    exact (ensureTickCheck_digests hlive.2).trans (Option.or_none).symm
  | effect e =>
    cases e with
    | recordedOk recorded =>
      show ((m.recordSendOutcome recorded .ok).queueTickCheck recorded).targetDigests target = _
      rw [queueTickCheck_digests, recordSendOutcome_digests]
      exact Option.or_none.symm
    | financialFailure recorded =>
      show ((m.recordSendOutcome recorded .failed).queueTickCheck recorded).targetDigests target = _
      rw [queueTickCheck_digests, recordSendOutcome_digests]
      exact Option.or_none.symm
    | digest stored txBytes =>
      show (m.applyEffect cfg (.digest stored txBytes)).targetDigests target = _
      unfold Monitor.applyEffect
      by_cases htarget : stored = target
      · rw [htarget]
        cases hold : m.targetDigests target with
        | some digest => simp [hold]
        | none => simp [hold, firstDigest, bookedEffects, Effect.digestOf]
      · have hnone : firstDigest target (bookedEffects [.effect (.digest stored txBytes)]) = none := by
          simp [firstDigest, bookedEffects, Effect.digestOf, htarget]
        rw [hnone, Option.map_none, Option.or_none]
        dsimp only
        split
        · rfl
        · exact Function.update_of_ne (Ne.symm htarget) _ _
    | _ => exact Option.or_none.symm

/-- The digest of a target that is not done with is that of the first bytes the
epoch stored for it. -/
theorem digests_of_ops (ops : List MonitorOp) (tickCheckAt monitorLogAt : Nat) {target : Nat}
    (hlive : ¬ ((monitorMachine cfg).state (Monitor.new tickCheckAt monitorLogAt) ops).Settled
      target) :
    ((monitorMachine cfg).state (Monitor.new tickCheckAt monitorLogAt) ops).targetDigests target =
      (firstDigest target (epochEffects ops)).map cfg.transactionDigest := by
  induction ops using List.reverseRecOn with
  | nil => rfl
  | append_singleton ops op ih =>
    have hbookkept := @bookkept_of_ops cfg ops tickCheckAt monitorLogAt
    rw [Machine.state_snoc] at hlive ⊢
    generalize (monitorMachine cfg).state _ _ = m at *
    cases hreset : op.isReset with
    | true =>
      cases op with
      | reset =>
        rw [epochEffects_reset _ _ _ (by simp)]
        rfl
      | _ => cases hreset
    | false =>
      have hbefore : ¬ m.Settled target := by
        intro hsettled
        exact hlive ((MonitorOp.advances hreset hbookkept).settled target hsettled)
      have hone : ∀ op' ∈ [op], op'.isReset = false := by
        intro op' hmem
        rw [List.mem_singleton.1 hmem]
        exact hreset
      show (op.run cfg m).targetDigests target = _
      rw [MonitorOp.digests hreset hlive, ih hbefore, epochEffects_append hone,
        firstDigest_append]
      cases firstDigest target (epochEffects ops) <;> rfl

end Store

/-! ## Bytes are stored when they are handed out -/

/-- A digest comes with a hand-out of a reveal, and every such hand-out with the
digest of its bytes. -/
structure Paired (effects : List Effect) : Prop where
  handed : ∀ target txBytes, .digest target txBytes ∈ effects →
    ∃ currentTick kind redundant task, kind ≠ .firstCommit ∧ task.txBytes = txBytes ∧
      .handed currentTick target kind redundant task ∈ effects
  digest : ∀ currentTick target kind redundant task,
    .handed currentTick target kind redundant task ∈ effects → kind ≠ .firstCommit →
      .digest target task.txBytes ∈ effects

theorem Paired.append {xs ys : List Effect} (hx : Paired xs) (hy : Paired ys) : Paired (xs ++ ys) := by
  constructor
  · intro target txBytes hmem
    rcases List.mem_append.1 hmem with hmem | hmem
    · rcases hx.handed _ _ hmem with ⟨currentTick, kind, redundant, task, hkind, hbytes, hmem⟩
      exact ⟨_, _, _, _, hkind, hbytes, List.mem_append_left _ hmem⟩
    · rcases hy.handed _ _ hmem with ⟨currentTick, kind, redundant, task, hkind, hbytes, hmem⟩
      exact ⟨_, _, _, _, hkind, hbytes, List.mem_append_right _ hmem⟩
  · intro currentTick target kind redundant task hmem hkind
    rcases List.mem_append.1 hmem with hmem | hmem
    · exact List.mem_append_left _ (hx.digest _ _ _ _ _ hmem hkind)
    · exact List.mem_append_right _ (hy.digest _ _ _ _ _ hmem hkind)

theorem Paired.of_quiet {effects : List Effect}
    (hdigest : ∀ target txBytes, .digest target txBytes ∉ effects)
    (hhanded : ∀ currentTick target kind redundant task,
      .handed currentTick target kind redundant task ∉ effects) : Paired effects where
  handed target txBytes hmem := absurd hmem (hdigest target txBytes)
  digest currentTick target kind redundant task hmem :=
    absurd hmem (hhanded currentTick target kind redundant task)

theorem Paired.nil : Paired [] := .of_quiet (fun _ _ => List.not_mem_nil) fun _ _ _ _ _ => List.not_mem_nil

/-- Sending one call. -/
theorem dispatchEffects_paired (ctx : DispatchContext) (tickDurationMs : Nat) (call : PlannedCall) :
    Paired (dispatchEffects ctx tickDurationMs call) := by
  unfold dispatchEffects
  split
  · exact .nil
  · exact .nil
  · split
    · -- a first commit reveals nothing and is not stored
      rename_i hkind
      constructor
      · intro target txBytes hmem
        cases List.mem_singleton.1 hmem
      · intro currentTick target kind redundant task hmem hreveal
        cases List.mem_singleton.1 hmem
        exact absurd hkind hreveal
    · rename_i hkind
      constructor
      · intro target txBytes hmem
        simp only [List.cons_append, List.nil_append, List.mem_cons, List.not_mem_nil, or_false,
          reduceCtorEq, Effect.digest.injEq] at hmem
        rcases hmem with ⟨rfl, rfl⟩
        exact ⟨_, _, _, _, hkind, rfl, List.mem_cons_of_mem _ (List.mem_singleton_self _)⟩
      · intro currentTick target kind redundant task hmem _
        simp only [List.cons_append, List.nil_append, List.mem_cons, List.not_mem_nil, or_false,
          reduceCtorEq, false_or, Effect.handed.injEq] at hmem
        rcases hmem with ⟨-, rfl, -, -, rfl⟩
        exact List.mem_cons_self

section Pairing

variable {slot : ManagedSlot}

/-- Only a dispatch stores digests. -/
theorem SlotOp.digest_of_mem {op : SlotOp} {target : Nat} {txBytes : Bytes}
    (h : Effect.digest target txBytes ∈ (op.run cfg slot).effects) :
    ∃ currentTick tickDurationMs, op = .dispatchCalls currentTick tickDurationMs := by
  cases op with
  | dispatchCalls currentTick tickDurationMs => exact ⟨currentTick, tickDurationMs, rfl⟩
  | harvestBroadcasts results =>
    exfalso
    change _ ∈ (RandomClient.harvestBroadcasts results slot).effects at h
    unfold RandomClient.harvestBroadcasts at h
    split at h
    · cases h
    · simp only [List.mem_append, List.mem_map, reduceCtorEq, and_false, exists_false,
        or_false] at h
      rcases mem_harvestEffects h with ⟨_, -, _, _, heq⟩
      cases heq
  | _ => cases SlotOp.losses (by rintro _ ⟨⟩) (by rintro _ _ ⟨⟩) h rfl

/-- An operation stores what it hands out. -/
theorem SlotOp.paired (op : SlotOp) (slot : ManagedSlot) : Paired (op.run cfg slot).effects := by
  by_cases hdispatch : ∃ currentTick tickDurationMs, op = .dispatchCalls currentTick tickDurationMs
  · rcases hdispatch with ⟨currentTick, tickDurationMs, rfl⟩
    simp only [SlotOp.run, RandomClient.dispatchCalls]
    split
    · exact .nil
    · rename_i chain hchain
      apply Paired.append
      · generalize chain.calls = calls
        induction calls with
        | nil => exact .nil
        | cons call calls ih => exact (dispatchEffects_paired _ _ call).append ih
      · split
        · exact .of_quiet (by simp) (by simp)
        · exact .nil
  · refine .of_quiet ?_ ?_
    · intro target txBytes hmem
      exact hdispatch (SlotOp.digest_of_mem hmem)
    · intro currentTick target kind redundant task hmem
      rcases SlotOp.handed hmem with ⟨tickDurationMs, _, _, hop, -⟩
      exact hdispatch ⟨currentTick, tickDurationMs, hop⟩

end Pairing

/-- The effects of an epoch so far are paired after every step of a run. -/
theorem epochEffects_paired (e : Engine) (inputs : List EngineInput) :
    Paired (epochEffects (ledger cfg e inputs)) := by
  have hstep : ∀ input e', Paired (bookedEffects (stepLedger cfg input e')) := by
    intro input e'
    rw [stepLedger_effects]
    refine (slotsMachine cfg).trace_invariant _ (fun _ t => Paired t) .nil ?_ _
    intro slots t entry ht
    exact ht.append (entry.2.paired (slots entry.1))
  induction inputs using List.reverseRecOn with
  | nil => exact .nil
  | append_singleton inputs input ih =>
    rcases @epochEffects_step cfg e inputs input with ⟨hopens, -⟩ | ⟨hcontinues, -⟩
    · rw [hopens]
      exact hstep input _
    · rw [hcontinues]
      exact ih.append (hstep input _)

/-! ## One byte string for a target -/

/-- What an epoch handed out was signed by the stream of the target. -/
theorem signed_of_handed (a b c : Nat) (inputs : List EngineInput) {currentTick target : Nat}
    {kind : CallKind} {redundant : Bool} {task : BroadcastTask}
    (h : .handed currentTick target kind redundant task ∈
      epochEffects (ledger cfg (Engine.new cfg a b c) inputs)) :
    ∃ j : Fin 3, target % streamCount = j ∧
      ∃ signed ∈ periodCalls (runTrace cfg (Engine.new cfg a b c) inputs j),
        signed.targetTick = target ∧ signed.txBytes = task.txBytes := by
  rcases epochEffects_in_period a b c inputs rfl h with ⟨j, hj⟩
  have hrun : SlotRun cfg (slot₀ cfg j) _ _ :=
    slotMachine_run j (history cfg (Engine.new cfg a b c) inputs j)
  rcases hrun.planned with ⟨p, -, hplan⟩
  rw [slotMachine_key] at hplan
  rcases hrun.sendInv.handed _ _ _ _ _ hj with ⟨signed, hsigned, rfl, -, hbytes⟩
  exact ⟨j, hplan.target_mod hsigned, signed, hsigned, rfl, hbytes⟩

/-- In an epoch one byte string is handed out for a target. -/
theorem handed_bytes (a b c : Nat) (inputs : List EngineInput) {currentTick currentTick' target : Nat}
    {kind kind' : CallKind} {redundant redundant' : Bool} {task task' : BroadcastTask}
    (h : .handed currentTick target kind redundant task ∈
      epochEffects (ledger cfg (Engine.new cfg a b c) inputs))
    (h' : .handed currentTick' target kind' redundant' task' ∈
      epochEffects (ledger cfg (Engine.new cfg a b c) inputs)) : task.txBytes = task'.txBytes := by
  rcases signed_of_handed a b c inputs h with ⟨j, hj, signed, hsigned, htarget, hbytes⟩
  rcases signed_of_handed a b c inputs h' with ⟨j', hj', signed', hsigned', htarget', hbytes'⟩
  have hsame : j = j' := Fin.ext (hj.symm.trans hj')
  subst hsame
  have hrun : SlotRun cfg (slot₀ cfg j) _ _ :=
    slotMachine_run j (history cfg (Engine.new cfg a b c) inputs j)
  rcases hrun.planned with ⟨p, -, hplan⟩
  have heq := hplan.spaced.eq_of_target hsigned hsigned' (htarget.trans htarget'.symm)
  rw [← hbytes, heq, hbytes']

/-! ## When a check is harvested -/

/-- A step harvests its check after all its effects. -/
theorem stepLedger_split (input : EngineInput) (e : Engine) : ∃ front back,
    stepLedger cfg input e = front ++ back ∧
      (∀ result now, .harvestTickCheck result now ∉ front) ∧
      ∀ op ∈ back, ∀ current, epochStep current op = current := by
  cases input with
  | shutdown env =>
    refine ⟨stepLedger cfg (.shutdown env) e, [], (List.append_nil _).symm, ?_, nofun⟩
    intro result now hmem
    rcases List.mem_map.1 hmem with ⟨_, -, heq⟩
    cases heq
  | cycle input =>
    cases htick : input.tick with
    | error err => exact ⟨[], [], by simp [stepLedger, htick], by simp, nofun⟩
    | ok tick =>
      simp only [stepLedger, htick]
      refine ⟨_, _, rfl, ?_, ?_⟩
      · intro result now hmem
        rcases List.mem_append.1 hmem with hmem | hmem
        · split at hmem
          · cases List.mem_singleton.1 hmem
          · cases hmem
        · rcases List.mem_map.1 hmem with ⟨_, -, heq⟩
          cases heq
      · intro op hmem current
        split at hmem
        · cases hmem
        · generalize planOf _ _ _ = plan at hmem
          cases plan <;>
            simp only [finishLedger, List.cons_append, List.nil_append, List.mem_cons,
              List.not_mem_nil, or_false] at hmem <;>
            rcases hmem with rfl | rfl | rfl <;> rfl

theorem epochEffects_still {rest : List MonitorOp}
    (h : ∀ op ∈ rest, ∀ current, epochStep current op = current) (ops : List MonitorOp) :
    epochEffects (ops ++ rest) = epochEffects ops := by
  induction rest using List.reverseRecOn with
  | nil => rw [List.append_nil]
  | append_singleton rest op ih =>
    rw [← List.append_assoc, epochEffects_snoc, h op (by simp)]
    exact ih fun op' hmem => h op' (List.mem_append_left _ hmem)

/-- When a check is harvested the epoch has the effects of whole steps. -/
theorem epochEffects_harvest {e : Engine} {inputs : List EngineInput} {ops : List MonitorOp}
    {result : Option (Except String TickTransactions)} {now : Nat}
    (h : ops ++ [.harvestTickCheck result now] <+: ledger cfg e inputs) :
    ∃ before, before <+: inputs ∧ epochEffects ops = epochEffects (ledger cfg e before) := by
  induction inputs using List.reverseRecOn with
  | nil => simp [ledger, Machine.track] at h
  | append_singleton inputs input ih =>
    have hearlier : ops ++ [.harvestTickCheck result now] <+: ledger cfg e inputs →
        ∃ before, before <+: inputs ++ [input] ∧
          epochEffects ops = epochEffects (ledger cfg e before) := by
      intro hbegins
      rcases ih hbegins with ⟨before, hbefore, heq⟩
      exact ⟨before, hbefore.trans (List.prefix_append _ _), heq⟩
    have hledger := @ledger_snoc cfg e inputs input
    rw [hledger] at h
    rcases List.prefix_or_prefix_of_prefix h (List.prefix_append _ _) with hbegins | hlonger
    · exact hearlier hbegins
    · rcases List.prefix_concat_iff.1 hlonger with heq | ⟨more, rfl⟩
      · exact hearlier (by rw [heq])
      · -- the harvest is in the last step
        refine ⟨inputs ++ [input], List.prefix_rfl, ?_⟩
        rw [List.append_assoc, List.prefix_append_right_inj] at h
        rcases h with ⟨rest, hrest⟩
        rcases @stepLedger_split cfg input ((engineMachine cfg).state e inputs) with
          ⟨front, back, hsplit, hfront, hback⟩
        rw [hledger, hsplit]
        rw [hsplit, List.append_assoc] at hrest
        rcases List.append_eq_append_iff.1 hrest with ⟨middle, hmiddle, hcons⟩ | ⟨middle, rfl, hcons⟩
        · cases middle with
          | nil =>
            rw [List.append_nil] at hmiddle
            rw [← List.append_assoc, epochEffects_still hback, hmiddle]
          | cons op middle =>
            exfalso
            cases (List.cons.inj hcons).1
            apply hfront result now
            rw [hmiddle]
            simp
        · rw [← List.append_assoc, ← List.append_assoc, epochEffects_still hback,
            epochEffects_still fun op hmem => hback op (hcons ▸ List.mem_append_left _ hmem)]

/-! ## The verdict -/

/-- The verdict of a successful check. -/
theorem inclusion_of_harvest (a b c : Nat) {inputs : List EngineInput} {ops : List MonitorOp}
    {observation : TickTransactions} {now : Nat} {check : PendingTickCheck}
    (h : ops ++ [.harvestTickCheck (some (.ok observation)) now] <+:
      ledger cfg (Engine.new cfg a b c) inputs)
    (hcheck : ((monitorMachine cfg).state (Monitor.new b c) ops).tickCheck = some check) :
    (∀ currentTick kind redundant task,
      .handed currentTick check.targetTick kind redundant task ∈ epochEffects ops →
        kind ≠ .firstCommit →
          ((monitorMachine cfg).state (Monitor.new b c) ops).inclusion observation
            check.targetTick = observation.contains (cfg.transactionDigest task.txBytes)) ∧
    ((∀ currentTick kind redundant task,
      .handed currentTick check.targetTick kind redundant task ∈ epochEffects ops →
        kind = .firstCommit) →
          ((monitorMachine cfg).state (Monitor.new b c) ops).inclusion observation
            check.targetTick = none) := by
  have hbookkept := @bookkept_of_ops cfg ops b c
  -- the target of the check is not done with
  have hlive : ¬ ((monitorMachine cfg).state (Monitor.new b c) ops).Settled check.targetTick := by
    intro hsettled
    apply hsettled.not_watched hbookkept
    rw [watched_of_active hcheck]
    simp
  have hstored := digests_of_ops ops b c hlive
  rcases epochEffects_harvest h with ⟨before, -, heffects⟩
  have hpaired : Paired (epochEffects ops) := by
    rw [heffects]
    exact epochEffects_paired _ before
  unfold Monitor.inclusion
  rw [hstored]
  constructor
  · intro currentTick kind redundant task hhanded hkind
    have hsome := firstDigest_isSome (hpaired.digest _ _ _ _ _ hhanded hkind)
    rcases Option.isSome_iff_exists.1 hsome with ⟨txBytes, hfirst⟩
    -- the first bytes stored were handed out as well
    rcases hpaired.handed _ _ (firstDigest_mem hfirst) with
      ⟨currentTick', kind', redundant', task', -, hbytes, hhanded'⟩
    rw [heffects] at hhanded hhanded'
    rw [hfirst, ← hbytes, handed_bytes a b c before hhanded' hhanded]
    rfl
  · intro hnone
    cases hfirst : firstDigest check.targetTick (epochEffects ops) with
    | none => rfl
    | some txBytes =>
      exfalso
      rcases hpaired.handed _ _ (firstDigest_mem hfirst) with
        ⟨currentTick, kind, redundant, task, hkind, -, hhanded⟩
      exact hkind (hnone _ _ _ _ hhanded)

/-- The gRPC adapter yields the digests of complete answers, in order, and of no
others; mere presence for the answers that have that only; and an error
otherwise. When a check of a run succeeds, the verdict says whether the digest of
the bytes handed out for the target in the epoch is in the complete list, and it is
unknown without such a list or without a reveal that was handed out. -/
theorem inclusion_sound (cfg : Config) (a b c : Nat) (inputs : List EngineInput) :
    (∀ (response : GetTickTransactionsResponse) (requestedTick : Nat),
      ((∃ observation digests, qlnTickHasTransactions response requestedTick = .ok observation ∧
        observation.transactionDigests = some digests) ↔ response.Complete requestedTick) ∧
      (∀ observation digests, qlnTickHasTransactions response requestedTick = .ok observation →
        observation.transactionDigests = some digests →
          observation.hasTransactions = response.hasTransactions ∧
            digests.map List.Vector.toList = response.transactionDigests) ∧
      (∀ observation, (qlnTickHasTransactions response requestedTick = .ok observation ∧
        observation.transactionDigests = none) ↔ (response.PresenceOnly requestedTick ∧
          observation = TickTransactions.ofPresence response.hasTransactions)) ∧
      (¬ response.Complete requestedTick → ¬ response.PresenceOnly requestedTick →
        ∃ err, qlnTickHasTransactions response requestedTick = .error err)) ∧
    ∀ ops observation now check,
      ops ++ [.harvestTickCheck (some (.ok observation)) now] <+:
        ledger cfg (Engine.new cfg a b c) inputs →
      let m := (monitorMachine cfg).state (Monitor.new b c) ops
      m.tickCheck = some check →
      (∀ currentTick kind redundant task,
        .handed currentTick check.targetTick kind redundant task ∈ epochEffects ops →
          kind ≠ .firstCommit →
            m.inclusion observation check.targetTick = (observation.transactionDigests.map
              fun digests => decide (cfg.transactionDigest task.txBytes ∈ digests)) ∧
            ∀ response, qlnTickHasTransactions response check.targetTick = .ok observation →
              m.inclusion observation check.targetTick = if response.digestsComplete then
                some (decide ((cfg.transactionDigest task.txBytes).toList ∈
                  response.transactionDigests)) else none) ∧
      ((∀ currentTick kind redundant task,
        .handed currentTick check.targetTick kind redundant task ∈ epochEffects ops →
          kind = .firstCommit) → m.inclusion observation check.targetTick = none) := by
  constructor
  · intro response requestedTick
    refine ⟨⟨?_, ?_⟩, ?_, ?_, qlnTickHasTransactions_error⟩
    · rintro ⟨observation, digests, hok, hdigests⟩
      rcases qlnTickHasTransactions_eq_ok.1 hok with ⟨-, rfl⟩ | ⟨hcomplete, -⟩
      · cases hdigests
      · exact hcomplete
    · intro hcomplete
      rcases hcomplete.digests with ⟨digests, hdigests⟩
      exact ⟨_, digests, qlnTickHasTransactions_eq_ok.2 (.inr ⟨hcomplete, digests, hdigests, rfl⟩),
        rfl⟩
    · intro observation digests hok hdigests
      rcases qlnTickHasTransactions_eq_ok.1 hok with ⟨-, rfl⟩ | ⟨-, kept, hkept, rfl⟩
      · cases hdigests
      · cases hdigests
        exact ⟨rfl, hkept⟩
    · intro observation
      constructor
      · rintro ⟨hok, hnone⟩
        rcases qlnTickHasTransactions_eq_ok.1 hok with hpresence | ⟨-, _, -, rfl⟩
        · exact hpresence
        · cases hnone
      · rintro ⟨hpresence, rfl⟩
        exact ⟨qlnTickHasTransactions_eq_ok.2 (.inl ⟨hpresence, rfl⟩), rfl⟩
  · intro ops observation now check hbegins m hcheck
    rcases inclusion_of_harvest a b c hbegins hcheck with ⟨hhanded, hnone⟩
    refine ⟨?_, hnone⟩
    intro currentTick kind redundant task hmem hkind
    have hverdict := hhanded currentTick kind redundant task hmem hkind
    refine ⟨?_, ?_⟩
    · rw [hverdict]
      unfold TickTransactions.contains
      simp only [List.contains_eq_mem]
    · intro response hok
      rw [hverdict, contains_of_response hok]

/-- A digest by its value, big-endian. -/
def digestOfNat (n : Nat) : Digest := List.Vector.ofFn fun i => UInt8.ofNat (n / 256 ^ (31 - i.val))

/-- The KangarooTwelve digests of the reveals the sample run hands out for the
targets 10 and 11. -/
def sampleRevealDigests : List Nat :=
  [0x4a9be2e59b594cd61c64c7edcb64b7015e06fc8a4e23f61b65db95f32c8b49b1,
   0x5ae2bbfcd5b1ab590eddf2a4bd4b0321f909beee1a3ec81a92edb50f85d55188]

/-- The sample configuration with these digests, by the first byte of a transaction. -/
def digestedConfig : Config :=
  { sampleConfig with
    transactionDigest bytes :=
      digestOfNat (sampleRevealDigests.getD ((bytes.headD 0).toNat - 10) 0) }

/-- An answer for target 10 that has its reveal behind another transaction. -/
def includedAnswer : GetTickTransactionsResponse where
  ok := true
  tick := 10
  hasTransactions := true
  transactionDigests := [List.replicate 32 7, (digestOfNat (sampleRevealDigests.getD 0 0)).toList]
  digestsComplete := true

/-- The observation that the adapter makes of the answer. -/
def includedObservation : TickTransactions where
  hasTransactions := true
  transactionDigests :=
    some [List.Vector.replicate 32 7, digestOfNat (sampleRevealDigests.getD 0 0)]

/-- The cycle at tick 21 that harvests the check of target 10. -/
def answeredCycle : CycleInput where
  tick := .ok (sampleTick 1 21)
  now := { timestamp := 0 }
  statusResult := some (.ok emptyStatus)
  broadcastResults := fun _ _ => some .ok
  cancelled := false
  env := fun _ => sampleEnv
  tickCheckResult := some (qlnTickHasTransactions includedAnswer 10)
  clock :=
    { resetTickCheckAt := 21000, resetStatusAt := 21000, resetMonitorAt := 21000
      statusAt := 21000, statusStartedAt := 21000, expireAt := 21000
      harvestAt := 21000, ensureExpireAt := 21000, ensureAt := 21000 }

/-- The reveal of stream 1 for target 10. -/
def includedReveal : BroadcastTask where
  txBytes := 10 :: RevealAndCommitInput.encode
    { reveal := samplePreimage 7, commit := digestedConfig.commitDigest (samplePreimage 10) }
  attemptTimeoutMs := 1450

/-- The reveal for target 10 was handed out at tick 7 and is found in the answer. -/
theorem inclusion_sound_included :
    let inputs := checkedRun 1 0 [0, 1, 3, 7, 20] ++ [.cycle answeredCycle]
    let ops := (ledger digestedConfig (Engine.new digestedConfig 0 0 0) inputs).dropLast.dropLast
    let m := (monitorMachine digestedConfig).state (Monitor.new 0 0) ops
    qlnTickHasTransactions includedAnswer 10 = .ok includedObservation ∧
      m.inclusion includedObservation 10 = some true := by
  intro inputs ops m
  have hok : qlnTickHasTransactions includedAnswer 10 = .ok includedObservation := by decide +kernel
  refine ⟨hok, ?_⟩
  have hbegins : ops ++ [.harvestTickCheck (some (.ok includedObservation)) 21000] <+:
      ledger digestedConfig (Engine.new digestedConfig 0 0 0) inputs := by
    have hresult : answeredCycle.tickCheckResult = some (.ok includedObservation) := by
      rw [← hok]
      rfl
    have hplan : planOf (phaseAfter digestedConfig (sampleTick 1 21) answeredCycle
        ((engineMachine digestedConfig).state (Engine.new digestedConfig 0 0 0)
          (checkedRun 1 0 [0, 1, 3, 7, 20]))) 1 false = .normal := by decide +kernel
    rcases @stepLedger_finishes digestedConfig answeredCycle
      ((engineMachine digestedConfig).state (Engine.new digestedConfig 0 0 0)
        (checkedRun 1 0 [0, 1, 3, 7, 20])) (sampleTick 1 21) rfl (by decide +kernel) with
      ⟨rest, hrest⟩
    have hstep : stepLedger digestedConfig (.cycle answeredCycle)
        ((engineMachine digestedConfig).state (Engine.new digestedConfig 0 0 0)
          (checkedRun 1 0 [0, 1, 3, 7, 20])) =
        rest ++ [.expireTickChecks 21 21000,
          .harvestTickCheck (some (.ok includedObservation)) 21000,
          .ensureTickCheck 21 21000 21000] := by
      rw [hrest, ← hresult]
      change planOf _ (sampleTick 1 21).epoch answeredCycle.cancelled = .normal at hplan
      rw [hplan]
      rfl
    have hall := @ledger_snoc digestedConfig (Engine.new digestedConfig 0 0 0)
      (checkedRun 1 0 [0, 1, 3, 7, 20]) (.cycle answeredCycle)
    rw [hstep] at hall
    show (ledger _ _ (checkedRun 1 0 [0, 1, 3, 7, 20] ++ [.cycle answeredCycle])).dropLast.dropLast ++
      _ <+: ledger _ _ (checkedRun 1 0 [0, 1, 3, 7, 20] ++ [.cycle answeredCycle])
    rw [hall]
    refine ⟨[.ensureTickCheck 21 21000 21000], ?_⟩
    simp
  have hcheck : m.tickCheck = some { targetTick := 10, failures := 0 } := by decide +kernel
  have hhanded : Effect.handed 7 10 .revealAndCommit false includedReveal ∈ epochEffects ops := by
    decide +kernel
  have hin : (digestedConfig.transactionDigest includedReveal.txBytes).toList ∈
      includedAnswer.transactionDigests := by decide +kernel
  have hverdict := (((inclusion_sound digestedConfig 0 0 0 inputs).2 ops includedObservation 21000 _
    hbegins hcheck).1 7 .revealAndCommit false includedReveal hhanded nofun).2 includedAnswer hok
  rw [hverdict, decide_eq_true hin]
  rfl

end RandomClient
