import RandomClient.Attribution

/-!
# Outcomes along a run

The ledger interleaves the three streams with the tick checks. Read for the
targets of one stream it is the trace of that stream (`ledger_filter`), so that
the failures between two first commits are counted on the ledger as well
(`failedAlong`). Within an epoch an outcome has its source in the trace of a
stream (`outcome_recorded`). Together they attribute the outcomes of a run
(`financial_attribution`).
-/

namespace RandomClient

variable {cfg : Config}

/-! ## Targets of a stream -/

/-- The target an effect signs or gives an outcome. -/
def Effect.booked : Effect → Option Nat
  | .signed call => some call.targetTick
  | .recordedOk target | .financialFailure target => some target
  | .handed _ _ _ _ _ | .harvested _ _ _ _ | .aborted _ _ | .digest _ _ | .froze _ _ | .reset => none

theorem Chain.Regular.owned_mod {chain : Chain} (h : chain.Regular) {target : Nat}
    (howns : chain.ownsTarget target = true) :
    target % streamCount = chain.lastTarget % streamCount := by
  rcases Chain.ownsTarget_iff.1 howns with ⟨hfirst, hlast, hmod⟩
  have hspaced := h.spaced
  simp only [streamCount] at *
  omega

/-- The last target of a planned chain belongs to the stream. -/
theorem lastTarget_mod (i : Fin 3) (ops : List SlotOp) {chain : Chain}
    (hplanning : ((slotMachine cfg).state (slot₀ cfg i) ops).state.isPlanning = true)
    (hchain : ((slotMachine cfg).state (slot₀ cfg i) ops).chain = some chain) :
    chain.lastTarget % streamCount = i := by
  have hrun : SlotRun cfg (slot₀ cfg i) _ _ := slotMachine_run i ops
  rcases hrun.planned with ⟨p, hrepresents, hinv⟩
  rw [slotMachine_key] at hinv
  rcases hrepresents.of_planning hplanning with ⟨chain', hchain', -, rfl⟩
  cases hchain.symm.trans hchain'
  rcases PlanInv.last_of_chainAt hinv.shape.1 hinv.shape.2 with ⟨last, hlast, htarget, -⟩
  rw [← htarget]
  exact hinv.target_mod (List.mem_of_getLast? hlast)

/-- A stream books targets of its own only. -/
theorem booked_mod (i : Fin 3) (ops : List SlotOp) {e : Effect} {target : Nat}
    (hmem : e ∈ (slotMachine cfg).trace (slot₀ cfg i) ops) (he : e.booked = some target) :
    target % streamCount = i := by
  rcases Machine.mem_trace _ hmem with ⟨before, op, after, -, heffect⟩
  change e ∈ (op.run cfg ((slotMachine cfg).state (slot₀ cfg i) before)).effects at heffect
  have hrun : SlotRun cfg (slot₀ cfg i) _ _ := slotMachine_run i before
  have hinv := hrun.slotInv
  rcases hinv.planned with ⟨p, -, hplan⟩
  rw [slotMachine_key] at hplan
  have hqueued : ∀ call ∈ ((slotMachine cfg).state (slot₀ cfg i) before).queue,
      call.targetTick % streamCount = i := by
    intro call hcall
    rcases hinv.queue.recorded call hcall with ⟨signed, hsigned, hrecords⟩
    rw [← hrecords.target]
    exact hplan.target_mod hsigned
  cases e with
  | signed call =>
    cases he
    rcases List.append_of_mem hmem with ⟨pre, post, htrace⟩
    rcases signed_planInv (slotMachine_run i ops) htrace with ⟨_, q, -, hq⟩
    apply hq.target_mod
    rw [periodCalls_signed]
    simp
  | recordedOk target' =>
    cases he
    rcases (SlotOp.harvested_call (SlotOp.recordedOk_of_mem heffect)).2 with ⟨call, hcall, rfl, -⟩
    exact hqueued call hcall
  | financialFailure target' =>
    cases he
    have hfailed := mem_failures.2 heffect
    cases loses_of_ops i before op with
    | nothing hnone =>
      rw [hnone] at hfailed
      cases hfailed
    | target hone _ _ hcause =>
      rw [hone] at hfailed
      cases List.mem_singleton.1 hfailed
      cases hcause with
      | evidence hplanning hchain _ howns =>
        rw [(slotMachine_regular i before hchain).owned_mod howns]
        exact lastTarget_mod i before hplanning hchain
      | missed hplanning hchain htarget =>
        have hlast := lastTarget_mod i before hplanning hchain
        rw [htarget]
        simp only [streamCount] at hlast ⊢
        omega
      | expired hchain hcall _ htarget | terminal _ hchain hcall _ htarget =>
        rw [← htarget]
        apply hqueued
        rw [queue_of_chain hchain]
        exact hcall
  | _ => cases he

/-- The effect books a target of the stream. -/
def Effect.concerns (i : Fin 3) (e : Effect) : Bool := e.booked.any fun target => target % streamCount = i

theorem Effect.concerns_iff {i : Fin 3} {e : Effect} :
    e.concerns i = true ↔ ∃ target, e.booked = some target ∧ target % streamCount = i := by
  unfold Effect.concerns
  rw [Option.any_eq_true]
  simp

/-! ## From the ledger to the streams -/

section Projection

variable {slots : Fin 3 → ManagedSlot}

/-- The effects of a log are those of its streams. -/
theorem slotsMachine_mem {log : List (Fin 3 × SlotOp)} {e : Effect}
    (h : e ∈ (slotsMachine cfg).trace slots log) :
    ∃ j, e ∈ (slotMachine cfg).trace (slots j) (slotLog j log) := by
  induction log generalizing slots with
  | nil => cases h
  | cons entry log ih =>
    rcases entry with ⟨j, op⟩
    have hself : slotLog j ((j, op) :: log) = op :: slotLog j log := by simp [slotLog]
    rcases List.mem_append.1 h with h | h
    · refine ⟨j, ?_⟩
      rw [hself]
      exact List.mem_append_left _ h
    · rcases ih h with ⟨k, hk⟩
      refine ⟨k, ?_⟩
      change e ∈ (slotMachine cfg).trace
        (Function.update slots j (op.run cfg (slots j)).slot k) (slotLog k log) at hk
      by_cases hkj : k = j
      · cases hkj
        rw [Function.update_self] at hk
        rw [hself]
        exact List.mem_append_right _ hk
      · have hother : slotLog k ((j, op) :: log) = slotLog k log := by
          simp [slotLog, Ne.symm hkj]
        rw [Function.update_of_ne hkj] at hk
        rw [hother]
        exact hk

/-- Read for one stream, the effects of a log are the trace of that stream. -/
theorem slotsMachine_filter {log : List (Fin 3 × SlotOp)} (i : Fin 3)
    (hown : ∀ j, j ≠ i → ∀ e ∈ (slotMachine cfg).trace (slots j) (slotLog j log),
      e.concerns i = false) :
    ((slotsMachine cfg).trace slots log).filter (Effect.concerns i) =
      ((slotMachine cfg).trace (slots i) (slotLog i log)).filter (Effect.concerns i) := by
  induction log generalizing slots with
  | nil => rfl
  | cons entry log ih =>
    rcases entry with ⟨j, op⟩
    have hself : slotLog j ((j, op) :: log) = op :: slotLog j log := by simp [slotLog]
    have hrest : ∀ k, k ≠ i → ∀ e ∈ (slotMachine cfg).trace
        (Function.update slots j (op.run cfg (slots j)).slot k) (slotLog k log),
          e.concerns i = false := by
      intro k hk e he
      apply hown k hk e
      by_cases hkj : k = j
      · cases hkj
        rw [Function.update_self] at he
        rw [hself]
        exact List.mem_append_right _ he
      · have hother : slotLog k ((j, op) :: log) = slotLog k log := by
          simp [slotLog, Ne.symm hkj]
        rw [Function.update_of_ne hkj] at he
        rw [hother]
        exact he
    have htrace : (slotsMachine cfg).trace slots ((j, op) :: log) =
        (op.run cfg (slots j)).effects ++ (slotsMachine cfg).trace
          (Function.update slots j (op.run cfg (slots j)).slot) log := rfl
    rw [htrace, List.filter_append, ih hrest]
    by_cases hij : i = j
    · cases hij
      rw [Function.update_self, hself, ← List.filter_append]
      rfl
    · -- another stream books nothing of this one
      have hother : slotLog i ((j, op) :: log) = slotLog i log := by
        simp [slotLog, Ne.symm hij]
      have hnone : (op.run cfg (slots j)).effects.filter (Effect.concerns i) = [] := by
        rw [List.filter_eq_nil_iff]
        intro e he
        rw [hown j (Ne.symm hij) e (by
          rw [hself]
          exact List.mem_append_left _ he)]
        exact Bool.false_ne_true
      rw [Function.update_of_ne hij, hother, hnone, List.nil_append]

end Projection

/-- The effects among the operations on the monitoring fields. -/
def bookedEffects (ops : List MonitorOp) : List Effect :=
  ops.filterMap fun
    | .effect e => some e
    | _ => none

theorem bookedEffects_append (xs ys : List MonitorOp) :
    bookedEffects (xs ++ ys) = bookedEffects xs ++ bookedEffects ys := List.filterMap_append

theorem mem_bookedEffects {ops : List MonitorOp} {e : Effect} :
    e ∈ bookedEffects ops ↔ MonitorOp.effect e ∈ ops := by
  unfold bookedEffects
  rw [List.mem_filterMap]
  constructor
  · rintro ⟨op, hmem, hop⟩
    cases op <;> simp only [Option.some.injEq, reduceCtorEq] at hop
    rw [← hop]
    exact hmem
  · intro hmem
    exact ⟨_, hmem, rfl⟩

theorem bookedEffects_effects (t : List Effect) : bookedEffects (t.map MonitorOp.effect) = t := by
  unfold bookedEffects
  rw [List.filterMap_map]
  exact List.filterMap_some

/-- The effects of a step's ledger are those of its log. -/
theorem stepLedger_effects (input : EngineInput) (e : Engine) :
    bookedEffects (stepLedger cfg input e) =
      (slotsMachine cfg).trace e.slots (engineStep cfg input e).log := by
  have hfinish : ∀ tick input plan, bookedEffects (finishLedger tick input plan) = [] := by
    intro tick input plan
    cases plan <;> rfl
  cases input with
  | shutdown env => exact bookedEffects_effects _
  | cycle input =>
    cases htick : input.tick with
    | error err =>
      simp only [stepLedger, engineStep, cycle, htick]
      rfl
    | ok tick =>
      simp only [stepLedger, htick, bookedEffects_append, bookedEffects_effects]
      have hreset : bookedEffects (if epochChanges e tick then
          [.reset input.clock.resetTickCheckAt input.clock.resetMonitorAt] else []) = [] := by
        split <;> rfl
      rw [hreset, List.nil_append]
      split
      · exact List.append_nil _
      · rw [hfinish]
        exact List.append_nil _

theorem runTrace_snoc (e : Engine) (inputs : List EngineInput) (input : EngineInput) (i : Fin 3) :
    runTrace cfg e (inputs ++ [input]) i = runTrace cfg e inputs i ++
      (slotMachine cfg).trace (((engineMachine cfg).state e inputs).slots i)
        (slotLog i (engineStep cfg input ((engineMachine cfg).state e inputs)).log) := by
  unfold runTrace
  rw [history_snoc, Machine.trace_append, slots_of_log]

/-- Read for one stream, the ledger of a run is the trace of that stream. -/
theorem ledger_filter (a b c : Nat) (inputs : List EngineInput) (i : Fin 3) :
    (bookedEffects (ledger cfg (Engine.new cfg a b c) inputs)).filter (Effect.concerns i) =
      (runTrace cfg (Engine.new cfg a b c) inputs i).filter (Effect.concerns i) := by
  induction inputs using List.reverseRecOn with
  | nil => rfl
  | append_singleton inputs input ih =>
    rw [ledger_snoc, bookedEffects_append, stepLedger_effects, List.filter_append, ih,
      runTrace_snoc, List.filter_append]
    congr 1
    apply slotsMachine_filter
    intro j hj e he
    rw [Bool.eq_false_iff]
    intro hconcerns
    rcases Effect.concerns_iff.1 hconcerns with ⟨target, hbooked, hmod⟩
    have hmem : e ∈ runTrace cfg (Engine.new cfg a b c) (inputs ++ [input]) j := by
      rw [runTrace_snoc]
      exact List.mem_append_right _ he
    have hown := booked_mod j _ hmem hbooked
    rw [hmod] at hown
    exact hj (Fin.ext hown.symm)

/-! ## Newly failed targets -/

/-- The targets of a stream whose outcome an operation changes to `Failed`. -/
def newlyFailed (cfg : Config) (i : Fin 3) (op : MonitorOp) (m : Monitor) : Finset Nat :=
  (Tally.classed (op.run cfg m).sendOutcomes .failed \ Tally.classed m.sendOutcomes .failed).filter
    fun target => target % streamCount = i

/-- How many targets of a stream newly become `Failed` along operations. -/
def failedAlong (cfg : Config) (i : Fin 3) (m : Monitor) (ops : List MonitorOp) : Nat :=
  (monitorMachine cfg).track (fun m op n => n + (newlyFailed cfg i op m).card) m 0 ops

/-- The operation records the first commit of a chain of the stream. -/
def MonitorOp.startsOn (i : Fin 3) : MonitorOp → Bool
  | .effect (.signed call) => call.kind = .firstCommit ∧ call.targetTick % streamCount = i
  | _ => false

/-- The recordings of an operation are those of its effect, or a finished check's. -/
theorem MonitorOp.records_cases {op : MonitorOp} {m : Monitor} {target : Nat} {o : SendOutcome}
    (h : op.records m = some (target, o)) :
    (op = .effect (.recordedOk target) ∧ o = .ok) ∨
    (op = .effect (.financialFailure target) ∧ o = .failed) ∨
    (o = .empty ∧ ∃ check, m.tickCheck = some check ∧ check.targetTick = target) := by
  unfold MonitorOp.records at h
  split at h
  · cases h
    exact .inl ⟨rfl, rfl⟩
  · cases h
    exact .inr (.inl ⟨rfl, rfl⟩)
  · split at h
    · cases h
    · rcases Option.map_eq_some_iff.1 h with ⟨check, hcheck, heq⟩
      cases heq
      exact .inr (.inr ⟨rfl, check, hcheck, rfl⟩)
  · cases h

theorem recordSendOutcome_lookup {target other : Nat} {next o : SendOutcome} {m : Monitor}
    (h : (m.recordSendOutcome target next).sendOutcomes.lookup other = some o) :
    m.sendOutcomes.lookup other = some o ∨ (other = target ∧ o = next ∧
      ∀ previous, m.sendOutcomes.lookup other = some previous → previous.Lowers next) := by
  rcases recordSendOutcome_cases target next m with ⟨hsame, -⟩ | ⟨hnone, hnew⟩ |
    ⟨previous, hprevious, hlowers, hmoved⟩
  · rw [hsame] at h
    exact .inl h
  · rw [hnew] at h
    by_cases hother : other = target
    · rw [hother, AList.lookup_insert] at h
      rw [hother, hnone]
      exact .inr ⟨rfl, (Option.some.inj h).symm, nofun⟩
    · rw [AList.lookup_insert_ne hother] at h
      exact .inl h
  · rw [hmoved] at h
    by_cases hother : other = target
    · rw [hother, AList.lookup_insert] at h
      rw [hother, hprevious]
      refine .inr ⟨rfl, (Option.some.inj h).symm, ?_⟩
      rintro _ ⟨⟩
      exact hlowers
    · rw [AList.lookup_insert_ne hother] at h
      exact .inl h

/-- An outcome is new only by the recording of the operation. -/
theorem MonitorOp.lookup_run {op : MonitorOp} (hreset : op.isReset = false) {m : Monitor}
    {target : Nat} {o : SendOutcome} (h : (op.run cfg m).sendOutcomes.lookup target = some o) :
    m.sendOutcomes.lookup target = some o ∨ (op.records m = some (target, o) ∧
      ∀ previous, m.sendOutcomes.lookup target = some previous → previous.Lowers o) := by
  rw [(@MonitorOp.run_books cfg op hreset m).outcomes] at h
  cases hrecords : op.records m with
  | none =>
    rw [hrecords] at h
    exact .inl h
  | some entry =>
    rcases entry with ⟨recorded, next⟩
    rw [hrecords] at h
    rcases recordSendOutcome_lookup h with hold | ⟨rfl, rfl, hlowers⟩
    · exact .inl hold
    · exact .inr ⟨rfl, hlowers⟩

/-- An operation makes one target fail at most, that of its effect. -/
theorem newlyFailed_card (i : Fin 3) (op : MonitorOp) (m : Monitor) :
    (newlyFailed cfg i op m).card ≤
      (failures ((bookedEffects [op]).filter (Effect.concerns i))).length := by
  have hnew : ∀ target ∈ newlyFailed cfg i op m,
      op = .effect (.financialFailure target) ∧ target % streamCount = i := by
    intro target hmem
    rcases Finset.mem_filter.1 hmem with ⟨hmem, hmod⟩
    rcases Finset.mem_sdiff.1 hmem with ⟨hafter, hbefore⟩
    rw [Tally.mem_classed] at hafter hbefore
    refine ⟨?_, hmod⟩
    cases hreset : op.isReset with
    | true =>
      cases op with
      | reset => cases hafter
      | _ => cases hreset
    | false =>
      rcases MonitorOp.lookup_run hreset hafter with hold | ⟨hrecords, -⟩
      · exact absurd hold hbefore
      · rcases MonitorOp.records_cases hrecords with ⟨-, hout⟩ | ⟨hop, -⟩ | ⟨hout, -⟩
        · cases hout
        · exact hop
        · cases hout
  rcases Finset.eq_empty_or_nonempty (newlyFailed cfg i op m) with hnone | ⟨target, hmem⟩
  · rw [hnone]
    exact Nat.zero_le _
  · rcases hnew target hmem with ⟨hop, hmod⟩
    have hconcerns : (Effect.financialFailure target).concerns i = true :=
      Effect.concerns_iff.2 ⟨target, rfl, hmod⟩
    have hlength : (failures ((bookedEffects [op]).filter (Effect.concerns i))).length = 1 := by
      rw [hop]
      simp [bookedEffects, hconcerns, failures, Effect.failure]
    rw [hlength, Finset.card_le_one]
    intro target₁ hmem₁ target₂ hmem₂
    have h₁ := (hnew target₁ hmem₁).1
    rw [(hnew target₂ hmem₂).1] at h₁
    cases h₁
    rfl

/-- The targets of a stream that newly fail are at most its failures. -/
theorem failedAlong_le (i : Fin 3) (m : Monitor) (ops : List MonitorOp) :
    failedAlong cfg i m ops ≤
      (failures ((bookedEffects ops).filter (Effect.concerns i))).length := by
  induction ops using List.reverseRecOn with
  | nil => exact Nat.zero_le _
  | append_singleton ops op ih =>
    have hone := @newlyFailed_card cfg i op ((monitorMachine cfg).state m ops)
    unfold failedAlong at ih ⊢
    rw [Machine.track_snoc, bookedEffects_append, List.filter_append, failures_append,
      List.length_append]
    omega

/-- Over the life of a chain one target of its stream newly fails at most. -/
theorem one_newly_failed (a b c : Nat) (inputs : List EngineInput) (i : Fin 3) (m : Monitor)
    {before life after : List MonitorOp}
    (hsplit : ledger cfg (Engine.new cfg a b c) inputs = before ++ life ++ after)
    (hlife : ∀ op ∈ life, op.startsOn i = false) : failedAlong cfg i m life ≤ 1 := by
  apply (failedAlong_le i m life).trans
  have hfilter := @ledger_filter cfg a b c inputs i
  rw [hsplit, bookedEffects_append, bookedEffects_append, List.filter_append, List.filter_append,
    eq_comm, List.filter_eq_append_iff] at hfilter
  rcases hfilter with ⟨front, rest, htrace, hfront, -⟩
  rw [List.filter_eq_append_iff] at hfront
  rcases hfront with ⟨front, middle, rfl, -, hmiddle⟩
  rw [← hmiddle]
  refine ((List.filter_sublist.filterMap _).length_le).trans (oneLoss i _ htrace ?_)
  -- a first commit of the stream would be on the ledger
  intro e he
  rw [Bool.eq_false_iff]
  intro hstarts
  cases e with
  | signed call =>
    have hkind : call.kind = .firstCommit := of_decide_eq_true hstarts
    have hmem : Effect.signed call ∈ runTrace cfg (Engine.new cfg a b c) inputs i := by
      rw [htrace]
      simp [he]
    have hmod : call.targetTick % streamCount = i := booked_mod i _ hmem rfl
    have hconcerns : (Effect.signed call).concerns i = true :=
      Effect.concerns_iff.2 ⟨call.targetTick, rfl, hmod⟩
    have hledger : Effect.signed call ∈ (bookedEffects life).filter (Effect.concerns i) := by
      rw [← hmiddle]
      exact List.mem_filter.2 ⟨he, hconcerns⟩
    have hlife := hlife _ (mem_bookedEffects.1 (List.mem_filter.1 hledger).1)
    simp [MonitorOp.startsOn, hkind, hmod] at hlife
  | _ => cases hstarts

/-! ## The operations of a step -/

/-- The operations a step performs on a stream: those of a new epoch, whose
first one is the reset, or further ones of the running epoch. -/
inductive StepOps (e : Engine) (input : EngineInput) (ops : List SlotOp) : Prop where
  | opens {tick : TickInfo} {rest : List SlotOp} (hreport : input.report = some tick)
      (hchange : epochChanges e tick = true) (hops : ops = .reset :: rest)
      (hrest : .reset ∉ rest) (htick : ∀ op ∈ rest, ∀ t ∈ op.tick, t = tick.tick)
  | continues (hsame : ∀ tick ∈ input.report, epochChanges e tick = false)
      (hreset : .reset ∉ ops)
      (htick : ∀ op ∈ ops, ∀ t ∈ op.tick, ∃ tick ∈ input.report, t = tick.tick)

theorem engineStep_stepOps (input : EngineInput) (e : Engine) (i : Fin 3) :
    StepOps e input (slotLog i (engineStep cfg input e).log) := by
  rcases engineStep_ops cfg input e i with
    ⟨tick, cycleInput, hreport, rfl, more, hmore⟩ | ⟨hreport, hidle⟩
  · have htick : ∀ op ∈ slotLog i (engineStep cfg (.cycle cycleInput) e).log,
        ∀ t ∈ op.tick, t = tick.tick := by
      intro op hop t ht
      apply @cycleOps_tick cfg tick cycleInput e i op _ t ht
      rw [← hmore]
      exact List.mem_append_left _ hop
    cases hchange : epochChanges e tick with
    | true =>
      have hok : cycleInput.tick = .ok tick := by
        simp only [EngineInput.report] at hreport
        split at hreport
        · rename_i tick' hok
          rw [hok, Option.some.inj hreport]
        · cases hreport
      rcases @readingOps_isPrefix cfg tick cycleInput e i with ⟨rest, hrest⟩
      have hlog : slotLog i (engineStep cfg (.cycle cycleInput) e).log =
          .reset :: ([.harvestBroadcasts (cycleInput.broadcastResults i)] ++
            statusOps (observationOf tick cycleInput e) tick.epoch ++ rest) := by
        simp only [engineStep, cycle, hok]
        rw [← hrest]
        simp [readingOps, hchange]
      rw [hlog] at hmore htick
      refine .opens hreport hchange hlog ?_ fun op hop => htick op (List.mem_cons_of_mem _ hop)
      intro hmem
      rcases List.append_of_mem hmem with ⟨front, back, hsplit⟩
      rw [hsplit, List.cons_append, List.append_assoc, ← List.cons_append] at hmore
      cases (cycleOps_reset hmore.symm).1
    | false =>
      refine .continues ?_ ?_ fun op hop t ht => ⟨tick, hreport, htick op hop t ht⟩
      · intro other hother
        cases hreport.symm.trans hother
        exact hchange
      · intro hmem
        rcases List.append_of_mem hmem with ⟨front, back, hsplit⟩
        rw [hsplit, List.append_assoc] at hmore
        have hreset := (cycleOps_reset hmore.symm).2
        rw [hchange] at hreset
        cases hreset
  · have hnone : ∀ tick ∈ input.report, epochChanges e tick = false := by
      intro tick htick
      rw [hreport] at htick
      cases htick
    rcases hidle with hnil | ⟨env, hdrain⟩
    · rw [hnil]
      exact .continues hnone List.not_mem_nil (by simp)
    · rw [hdrain]
      refine .continues hnone (by simp) ?_
      intro op hop t ht
      cases List.mem_singleton.1 hop
      cases ht

/-! ## Ticks of a run -/

/-- Within an epoch the reported ticks never decrease. -/
def RisingReports (inputs : List EngineInput) : Prop :=
  (reports inputs).IsChain fun previous next => previous.epoch = next.epoch → previous.tick ≤ next.tick

instance (inputs : List EngineInput) : Decidable (RisingReports inputs) :=
  inferInstanceAs (Decidable (List.IsChain _ _))

/-- Operations at one tick after earlier ones. -/
theorem TicksRise.at_tick {ops more : List SlotOp} {tick : Nat} (h : TicksRise ops)
    (hlast : lastTick ops ≤ tick) (hreset : .reset ∉ more)
    (htick : ∀ op ∈ more, ∀ t ∈ op.tick, t = tick) :
    TicksRise (ops ++ more) ∧ lastTick (ops ++ more) ≤ tick := by
  induction more using List.reverseRecOn with
  | nil =>
    rw [List.append_nil]
    exact ⟨h, hlast⟩
  | append_singleton more op ih =>
    have ⟨hrise, hle⟩ := ih (fun hmem => hreset (List.mem_append_left _ hmem))
      fun op hop => htick op (List.mem_append_left _ hop)
    have hop := htick op (by simp)
    rw [← List.append_assoc]
    constructor
    · intro before op' hbegins t ht
      rcases List.prefix_concat_iff.1 hbegins with heq | hold
      · have ⟨hbefore, hlast⟩ := List.append_inj' heq rfl
        cases List.singleton_inj.1 hlast
        rw [hbefore, hop t ht]
        exact hle
      · exact hrise before op' hold t ht
    · rw [lastTick_snoc]
      cases op with
      | reset => simp at hreset
      | startIfReady _ t | extendChain _ t | expireCalls t | dispatchCalls t _
      | finishStatusRestart t | pruneCalls t => exact (hop t rfl).le
      | harvestBroadcasts _ | applyStatus _ | enterDrain _ _ | finishDrain => exact hle

/-- The reset starts the ticks anew. -/
theorem TicksRise.reset {ops : List SlotOp} (h : TicksRise ops) :
    TicksRise (ops ++ [.reset]) ∧ lastTick (ops ++ [.reset]) = 0 := by
  constructor
  · intro before op hbegins t ht
    rcases List.prefix_concat_iff.1 hbegins with heq | hold
    · cases List.singleton_inj.1 (List.append_inj' heq rfl).2
      cases ht
    · exact h before op hold t ht
  · rw [lastTick_snoc]
    rfl

/-- With ordered reports the ticks of every history rise. -/
theorem ticksRise_of_reports (a b c : Nat) {inputs : List EngineInput} (h : RisingReports inputs)
    (i : Fin 3) : TicksRise (history cfg (Engine.new cfg a b c) inputs i) ∧
      lastTick (history cfg (Engine.new cfg a b c) inputs i) ≤
        ((reports inputs).getLast?.map TickInfo.tick).getD 0 := by
  induction inputs using List.reverseRecOn with
  | nil =>
    refine ⟨?_, le_rfl⟩
    intro before op hbegins
    have hnil := List.prefix_nil.1 hbegins
    simp at hnil
  | append_singleton inputs input ih =>
    have hepoch := epoch_of_reports cfg a b c inputs
    rw [RisingReports, reports_snoc, List.isChain_append] at h
    rcases h with ⟨hinit, -, hnext⟩
    have ⟨hrise, hle⟩ := ih hinit
    rw [history_snoc, reports_snoc]
    have hstep := @engineStep_stepOps cfg input
      ((engineMachine cfg).state (Engine.new cfg a b c) inputs) i
    generalize (engineMachine cfg).state (Engine.new cfg a b c) inputs = e at *
    cases hstep with
    | @opens tick rest hreport hchange hops hrest htick =>
      rw [hops, hreport]
      have ⟨hreset, hzero⟩ := hrise.reset
      have hmore := hreset.at_tick (hzero.le.trans (Nat.zero_le tick.tick)) hrest htick
      simpa using hmore
    | continues hsame hreset htick =>
      cases hreport : input.report with
      | none =>
        rw [Option.toList_none, List.append_nil]
        apply hrise.at_tick hle hreset
        intro op hop t ht
        rcases htick op hop t ht with ⟨tick, hmem, -⟩
        rw [hreport] at hmem
        cases hmem
      | some tick =>
        rw [hreport] at hnext hsame
        -- the last report was of the same epoch
        have hlast : ((reports inputs).getLast?.map TickInfo.tick).getD 0 ≤ tick.tick := by
          cases hprevious : (reports inputs).getLast? with
          | none => exact Nat.zero_le _
          | some previous =>
            have hrecorded := hsame tick rfl
            rw [hprevious] at hepoch
            simp only [epochChanges, hepoch, Option.map_some, ne_eq, Option.some.injEq,
              decide_not, Bool.not_eq_false', decide_eq_true_eq] at hrecorded
            exact hnext previous hprevious tick (by simp) hrecorded
        have hmore := hrise.at_tick (hle.trans hlast) hreset (by
          intro op hop t ht
          rcases htick op hop t ht with ⟨tick', hmem, heq⟩
          cases hreport.symm.trans hmem
          exact heq)
        simpa using hmore

/-! ## Where outcomes come from -/

def epochStep (current : List Effect) : MonitorOp → List Effect
  | .effect e => current ++ [e]
  | .reset _ _ => []
  | .expireTickChecks _ _ | .harvestTickCheck _ _ | .ensureTickCheck _ _ _ => current

/-- The effects among the operations since the last reset. -/
def epochEffects (ops : List MonitorOp) : List Effect := ops.foldl epochStep []

theorem epochEffects_snoc (ops : List MonitorOp) (op : MonitorOp) :
    epochEffects (ops ++ [op]) = epochStep (epochEffects ops) op := by
  simp [epochEffects, List.foldl_append]

theorem epochEffects_append {more : List MonitorOp} (h : ∀ op ∈ more, op.isReset = false)
    (ops : List MonitorOp) : epochEffects (ops ++ more) = epochEffects ops ++ bookedEffects more := by
  induction more using List.reverseRecOn with
  | nil => simp [bookedEffects]
  | append_singleton more op ih =>
    rw [← List.append_assoc, epochEffects_snoc, bookedEffects_append, ← List.append_assoc,
      ← ih fun op' hmem => h op' (List.mem_append_left _ hmem)]
    have hreset := h op (by simp)
    cases op with
    | effect e => rfl
    | reset => cases hreset
    | _ => exact (List.append_nil _).symm

theorem epochEffects_reset (ops : List MonitorOp) (tickCheckAt monitorLogAt : Nat)
    {more : List MonitorOp} (h : ∀ op ∈ more, op.isReset = false) :
    epochEffects (ops ++ .reset tickCheckAt monitorLogAt :: more) = bookedEffects more := by
  rw [List.append_cons, epochEffects_append h, epochEffects_snoc]
  rfl

/-- An outcome comes from an effect of the epoch that records the target, and no
outcome becomes `Ok` again. -/
theorem outcome_source (ops : List MonitorOp) (tickCheckAt monitorLogAt : Nat) {target : Nat}
    {o : SendOutcome}
    (h : ((monitorMachine cfg).state (Monitor.new tickCheckAt monitorLogAt) ops).sendOutcomes.lookup
      target = some o) :
    .recordedOk target ∈ epochEffects ops ∨
      (o ≠ .ok ∧ .financialFailure target ∈ epochEffects ops) := by
  induction ops using List.reverseRecOn generalizing o with
  | nil => cases h
  | append_singleton ops op ih =>
    have hcovered := @covered_of_ops cfg ops tickCheckAt monitorLogAt
    rw [Machine.state_snoc] at h
    generalize (monitorMachine cfg).state _ _ = m at *
    rw [epochEffects_snoc]
    cases hreset : op.isReset with
    | true =>
      cases op with
      | reset => cases h
      | _ => cases hreset
    | false =>
      have hgrows : epochEffects ops ⊆ epochStep (epochEffects ops) op := by
        cases op with
        | effect e => exact List.subset_append_left _ _
        | reset => cases hreset
        | _ => exact List.Subset.refl _
      have hold : ∀ o', m.sendOutcomes.lookup target = some o' → (o = .ok → o' = .ok) →
          .recordedOk target ∈ epochStep (epochEffects ops) op ∨
            (o ≠ .ok ∧ .financialFailure target ∈ epochStep (epochEffects ops) op) := by
        intro o' ho' hok
        rcases ih ho' with hmem | ⟨hne, hmem⟩
        · exact .inl (hgrows hmem)
        · exact .inr ⟨fun heq => hne (hok heq), hgrows hmem⟩
      rcases MonitorOp.lookup_run hreset h with hsame | ⟨hrecords, -⟩
      · exact hold o hsame id
      · rcases MonitorOp.records_cases hrecords with
          ⟨rfl, -⟩ | ⟨rfl, rfl⟩ | ⟨rfl, check, hcheck, rfl⟩
        · exact .inl (by simp [epochStep])
        · exact .inr ⟨nofun, by simp [epochStep]⟩
        · -- a check concerns a target that has an outcome
          rcases Option.isSome_iff_exists.1
            (hcovered check.targetTick (.inr (.inr ⟨check, hcheck, rfl⟩))) with ⟨o', ho'⟩
          exact hold o' ho' nofun

/-- A step resets the monitoring fields first, and with a new epoch only. -/
theorem stepLedger_cases (input : EngineInput) (e : Engine) :
    (∃ tick tickCheckAt monitorLogAt rest, input.report = some tick ∧ epochChanges e tick = true ∧
      stepLedger cfg input e = .reset tickCheckAt monitorLogAt :: rest ∧
        ∀ op ∈ rest, op.isReset = false) ∨
    ((∀ tick ∈ input.report, epochChanges e tick = false) ∧
      ∀ op ∈ stepLedger cfg input e, op.isReset = false) := by
  have heffects : ∀ t : List Effect, ∀ op ∈ t.map MonitorOp.effect, op.isReset = false := by
    intro t op hop
    rcases List.mem_map.1 hop with ⟨e, -, rfl⟩
    rfl
  have hfinish : ∀ tick input plan, ∀ op ∈ finishLedger tick input plan, op.isReset = false := by
    intro tick input plan op hop
    cases plan <;>
      simp only [finishLedger, List.cons_append, List.nil_append, List.mem_cons, List.not_mem_nil,
        or_false] at hop <;>
      rcases hop with rfl | rfl | rfl <;> rfl
  cases input with
  | shutdown env =>
    right
    refine ⟨?_, heffects _⟩
    rintro tick ⟨⟩
  | cycle input =>
    cases htick : input.tick with
    | error err =>
      right
      simp [EngineInput.report, stepLedger, htick]
    | ok tick =>
      have hrest : ∀ op ∈ ((slotsMachine cfg).trace e.slots
          (engineStep cfg (.cycle input) e).log).map MonitorOp.effect ++
            (if (engineStep cfg (.cycle input) e).error.isSome then [] else
              finishLedger tick input
                (planOf (phaseAfter cfg tick input e) tick.epoch input.cancelled)),
          op.isReset = false := by
        intro op hop
        rcases List.mem_append.1 hop with hop | hop
        · exact heffects _ op hop
        · split at hop
          · cases hop
          · exact hfinish _ _ _ op hop
      simp only [EngineInput.report, stepLedger, htick]
      cases hchange : epochChanges e tick with
      | true =>
        left
        exact ⟨tick, _, _, _, rfl, hchange, rfl, hrest⟩
      | false =>
        right
        refine ⟨?_, hrest⟩
        rintro _ ⟨⟩
        exact hchange

/-- Operations without a reset have no reset in their trace. -/
theorem trace_quiet {slot : ManagedSlot} {ops : List SlotOp} (h : .reset ∉ ops) :
    Effect.reset ∉ (slotMachine cfg).trace slot ops := by
  intro hmem
  rcases Machine.mem_trace _ hmem with ⟨before, op, after, rfl, hop⟩
  apply h
  rw [← SlotOp.reset_of_mem hop]
  simp

/-- The effect is not one a reset has on a slot. -/
def Effect.survives : Effect → Bool
  | .aborted _ _ | .reset => false
  | _ => true

/-- What a step does belongs to the period that runs after it. -/
theorem StepOps.in_period {e : Engine} {input : EngineInput} {ops : List SlotOp}
    (h : StepOps e input ops) {slot : ManagedSlot} {t : List Effect} {effect : Effect}
    (hsurvives : effect.survives = true) (hmem : effect ∈ (slotMachine cfg).trace slot ops) :
    effect ∈ period (t ++ (slotMachine cfg).trace slot ops) := by
  cases h with
  | @opens tick rest _ _ hops hrest =>
    subst hops
    have htrace : (slotMachine cfg).trace slot (.reset :: rest) = (abortChain slot.chain ++ [.reset]) ++
        (slotMachine cfg).trace (SlotOp.run cfg .reset slot).slot rest := rfl
    rw [htrace] at hmem ⊢
    rw [← List.append_assoc, period_append (trace_quiet hrest), ← List.append_assoc, period_reset,
      List.nil_append]
    rcases List.mem_append.1 hmem with hold | hnew
    · exfalso
      rcases List.mem_append.1 hold with habort | hlast
      · rcases mem_abortChain habort with ⟨target, task, rfl⟩
        cases hsurvives
      · cases List.mem_singleton.1 hlast
        cases hsurvives
    · exact hnew
  | continues _ hreset =>
    rw [period_append (trace_quiet hreset)]
    exact List.mem_append_right _ hmem

/-- A step starts the effects of a new epoch or adds to those of the running one. -/
theorem epochEffects_step (e : Engine) (inputs : List EngineInput) (input : EngineInput) :
    let e' := (engineMachine cfg).state e inputs
    (epochEffects (ledger cfg e (inputs ++ [input])) = bookedEffects (stepLedger cfg input e') ∧
      ∃ tick, input.report = some tick ∧ epochChanges e' tick = true) ∨
    (epochEffects (ledger cfg e (inputs ++ [input])) =
        epochEffects (ledger cfg e inputs) ++ bookedEffects (stepLedger cfg input e') ∧
      ∀ tick ∈ input.report, epochChanges e' tick = false) := by
  intro e'
  rw [ledger_snoc]
  rcases @stepLedger_cases cfg input e' with
    ⟨tick, tickCheckAt, monitorLogAt, rest, hreport, hchange, hreset, hrest⟩ | ⟨hsame, hrest⟩
  · left
    refine ⟨?_, tick, hreport, hchange⟩
    rw [hreset, epochEffects_reset _ _ _ hrest]
    rfl
  · right
    exact ⟨epochEffects_append hrest _, hsame⟩

/-- The effects of the running epoch belong to the periods of the streams. -/
theorem epochEffects_in_period (a b c : Nat) (inputs : List EngineInput) {effect : Effect}
    (hsurvives : effect.survives = true)
    (hmem : effect ∈ epochEffects (ledger cfg (Engine.new cfg a b c) inputs)) :
    ∃ j, effect ∈ period (runTrace cfg (Engine.new cfg a b c) inputs j) := by
  induction inputs using List.reverseRecOn with
  | nil => cases hmem
  | append_singleton inputs input ih =>
    have hstep := @engineStep_stepOps cfg input
      ((engineMachine cfg).state (Engine.new cfg a b c) inputs)
    have hnew : effect ∈ bookedEffects (stepLedger cfg input
        ((engineMachine cfg).state (Engine.new cfg a b c) inputs)) →
          ∃ j, effect ∈ period (runTrace cfg (Engine.new cfg a b c) (inputs ++ [input]) j) := by
      intro hbooked
      rw [stepLedger_effects] at hbooked
      rcases slotsMachine_mem hbooked with ⟨j, hj⟩
      refine ⟨j, ?_⟩
      rw [runTrace_snoc]
      exact (hstep j).in_period hsurvives hj
    rcases @epochEffects_step cfg (Engine.new cfg a b c) inputs input with
      ⟨hopens, -⟩ | ⟨hcontinues, hsame⟩
    · rw [hopens] at hmem
      exact hnew hmem
    · rw [hcontinues] at hmem
      rcases List.mem_append.1 hmem with hold | hbooked
      · -- the period of an earlier step still runs
        rcases ih hold with ⟨j, hj⟩
        refine ⟨j, ?_⟩
        rw [runTrace_snoc]
        cases hstep j with
        | opens hreport hchange =>
          rw [hsame _ hreport] at hchange
          cases hchange
        | continues _ hreset =>
          rw [period_append (trace_quiet hreset)]
          exact List.mem_append_left _ hj
      · exact hnew hbooked

/-- Every outcome of the running epoch has its source in the period of a stream. -/
theorem outcome_recorded (a b c : Nat) (inputs : List EngineInput) {target : Nat} {o : SendOutcome}
    (h : ((engineMachine cfg).state (Engine.new cfg a b c) inputs).monitor.sendOutcomes.lookup target =
      some o) :
    ∃ j, Effect.recordedOk target ∈ period (runTrace cfg (Engine.new cfg a b c) inputs j) ∨
      (o ≠ .ok ∧ Effect.financialFailure target ∈
        period (runTrace cfg (Engine.new cfg a b c) inputs j)) := by
  rw [monitor_of_ledger] at h
  rcases outcome_source (ledger cfg (Engine.new cfg a b c) inputs) b c h with hmem | ⟨hne, hmem⟩
  · rcases epochEffects_in_period a b c inputs rfl hmem with ⟨j, hj⟩
    exact ⟨j, .inl hj⟩
  · rcases epochEffects_in_period a b c inputs rfl hmem with ⟨j, hj⟩
    exact ⟨j, .inr ⟨hne, hj⟩⟩

/-! ## The result -/

/-- The outcome of a target of the stream has its source in the stream. -/
theorem recorded_of_lookup (a b c : Nat) (inputs : List EngineInput) (i : Fin 3) {target : Nat}
    {o : SendOutcome} (hmod : target % streamCount = i)
    (h : ((engineMachine cfg).state (Engine.new cfg a b c) inputs).monitor.sendOutcomes.lookup target =
      some o) :
    Effect.recordedOk target ∈ period (runTrace cfg (Engine.new cfg a b c) inputs i) ∨
      (o ≠ .ok ∧ Effect.financialFailure target ∈
        period (runTrace cfg (Engine.new cfg a b c) inputs i)) := by
  rcases outcome_recorded a b c inputs h with ⟨j, hj⟩
  have hsame : j = i := by
    have hown : target % streamCount = j := by
      rcases hj with hmem | ⟨-, hmem⟩
      · exact booked_mod j _ (mem_of_period hmem) rfl
      · exact booked_mod j _ (mem_of_period hmem) rfl
    exact Fin.ext (hown.symm.trans hmod)
  rw [← hsame]
  exact hj

/-- Financial attribution. Over the life of a chain, from its first commit up
to the next one of its stream, at most one target newly becomes `Failed`. While
reported ticks do not decrease within an epoch, the target of a first commit and
that of an accepted terminal reveal have no outcome. A target recorded `Ok` is
that of a reveal+commit call the backend accepted. A freeze on foreign evidence
marks no target, and an expiry marks that of an expired call of the current
chain, never one of an older chain. -/
theorem financial_attribution (cfg : Config) (a b c : Nat) (inputs : List EngineInput) (i : Fin 3) :
    (∀ before call life after, ledger cfg (Engine.new cfg a b c) inputs =
      before ++ [.effect (.signed call)] ++ life ++ after →
        call.kind = .firstCommit → call.targetTick % streamCount = i →
          (∀ op ∈ life, op.startsOn i = false) →
            failedAlong cfg i ((monitorMachine cfg).state (Monitor.new b c)
              (before ++ [.effect (.signed call)])) life ≤ 1) ∧
    (RisingReports inputs →
      ∀ signed ∈ periodCalls (runTrace cfg (Engine.new cfg a b c) inputs i),
        (signed.kind = .firstCommit ∨ (signed.kind = .terminalReveal ∧
          AcceptedIn (runTrace cfg (Engine.new cfg a b c) inputs i) signed.targetTick)) →
            ((engineMachine cfg).state (Engine.new cfg a b c) inputs).monitor.sendOutcomes.lookup
              signed.targetTick = none) ∧
    (∀ target, target % streamCount = i →
      ((engineMachine cfg).state (Engine.new cfg a b c) inputs).monitor.sendOutcomes.lookup target =
        some .ok → Effect.harvested target .revealAndCommit false .ok ∈
          period (runTrace cfg (Engine.new cfg a b c) inputs i)) ∧
    (∀ slot lastUpdateTick requestedTick target, Effect.financialFailure target ∉
      (observeStatusEvidence (.foreign lastUpdateTick) requestedTick slot).effects) ∧
    (∀ slot currentTick target, Effect.financialFailure target ∈
      (expireCalls currentTick slot).effects → ∃ chain call, slot.chain = some chain ∧
        call ∈ chain.calls ∧ call.targetTick = target ∧
          expiryOf currentTick chain.firstTarget call = .expired ∧ chain.firstTarget ≤ target) := by
  have hrun : SlotRun cfg (slot₀ cfg i) _ _ :=
    slotMachine_run i (history cfg (Engine.new cfg a b c) inputs i)
  rcases hrun.planned with ⟨p, -, hplan⟩
  rw [slotMachine_key] at hplan
  refine ⟨?_, ?_, ?_, ?_, fun _ _ _ => expireCalls_failure⟩
  · intro before call life after hsplit _ _ hlife
    exact one_newly_failed a b c inputs i _ hsplit hlife
  · intro hrising signed hmem hkind
    have hinv := @outcomeInv cfg i _ (@ticksRise_of_reports cfg a b c inputs hrising i).1
    have hunrecorded : ¬ Records (runTrace cfg (Engine.new cfg a b c) inputs i) signed.targetTick := by
      rcases hkind with hfirst | ⟨hterminal, haccepted⟩
      · exact hinv.unrecorded_of_first hplan.spaced hmem hfirst
      · exact hinv.unrecorded_of_accepted hplan.spaced hmem hterminal haccepted
    rw [Option.eq_none_iff_forall_not_mem]
    intro o ho
    apply hunrecorded
    rcases recorded_of_lookup a b c inputs i (hplan.target_mod hmem) ho with hok | ⟨-, hfailed⟩
    · exact .inl hok
    · exact .inr hfailed
  · intro target hmod hlookup
    rcases recorded_of_lookup a b c inputs i hmod hlookup with hok | ⟨hne, -⟩
    · exact accepted_of_recordedOk i _ hok
    · exact absurd rfl hne
  · intro slot lastUpdateTick requestedTick target hmem
    have hfailed := mem_failures.2 hmem
    rw [observeStatusEvidence_foreign] at hfailed
    cases hfailed

deriving instance DecidableEq for MonitorOp

/-- The ledger of stream 1's chain in a run whose terminal reveal fails. -/
def lostLife : List MonitorOp :=
  (ledger sampleConfig (Engine.new sampleConfig 0 0 0) failedTerminalRun).drop 9

theorem financial_attribution_lost :
    (∃ before, failedAlong sampleConfig 1 ((monitorMachine sampleConfig).state (Monitor.new 0 0)
      (before ++ [.effect (.signed retriedCommit)])) lostLife = 1 ∧
        failedAlong sampleConfig 1 ((monitorMachine sampleConfig).state (Monitor.new 0 0)
          (before ++ [.effect (.signed retriedCommit)])) lostLife ≤ 1) ∧
    ((engineMachine sampleConfig).state (Engine.new sampleConfig 0 0 0)
      failedTerminalRun).monitor.sendOutcomes.lookup 7 = none ∧
    Effect.harvested 10 .revealAndCommit false .ok ∈
      period (runTrace sampleConfig (Engine.new sampleConfig 0 0 0) failedTerminalRun 1) := by
  have hall := financial_attribution sampleConfig 0 0 0 failedTerminalRun 1
  refine ⟨⟨(ledger sampleConfig (Engine.new sampleConfig 0 0 0) failedTerminalRun).take 8,
    by decide +kernel, ?_⟩, ?_, ?_⟩
  · exact hall.1 _ retriedCommit lostLife [] (by decide +kernel) rfl rfl (by decide +kernel)
  · exact hall.2.1 (by decide +kernel) retriedCommit (by decide +kernel) (.inl rfl)
  · exact hall.2.2.1 10 rfl (by decide +kernel)

end RandomClient
