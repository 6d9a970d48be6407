import RandomClient.Acknowledged
import RandomClient.EpochWindow

/-!
# The warm-up on a lightnode

A lightnode may not know the initial tick of the epoch, and the adapter then
takes the first tick it saw. The statuses the client saw and the reports of its
engine run in step (`InStep`), so the warm-up of the engine is one counted from
the first status of the epoch, whatever the later ones say of the initial tick.
-/

namespace RandomClient

open Lightnode

variable {cfg : Config} {decoders : Decoders}

/-! ## The statuses the client saw -/

/-- The status the reply to the tick request carries. -/
def WireCycle.seen (wire : WireCycle (qlnBackend decoders)) : Option TickStatus :=
  wire.tick.bind statusOf

/-- Without a status the tick request fails and leaves the fallback alone. -/
theorem WireCycle.tickInfo_seen (wire : WireCycle (qlnBackend decoders)) (node : QlnTickFallback) :
    (∃ status, wire.seen = some status ∧
      wire.tickInfo node = (.ok (normalizeQlnTickInfo status node).1, node.update status)) ∨
    (wire.seen = none ∧ ∃ err, wire.tickInfo node = (.error err, node)) := by
  unfold WireCycle.seen WireCycle.tickInfo
  cases wire.tick with
  | none => exact .inr ⟨rfl, _, rfl⟩
  | some reply => exact tickInfo_cases reply node

/-- The status of an iteration. The node is only asked if the iteration runs its cycle. -/
def seenStatus (cfg : Config) (s : ClientState (qlnBackend decoders))
    (input : ClientInput (qlnBackend decoders)) : Option TickStatus :=
  if (s.run.iterate cfg (input.read s).1).2.isEmpty then none
  else input.wire.seen

/-- The statuses a client saw, in order. -/
def seenStatuses (cfg : Config) (s : ClientState (qlnBackend decoders))
    (inputs : List (ClientInput (qlnBackend decoders))) : List TickStatus :=
  (clientMachine (qlnBackend decoders) cfg).track
    (fun s input seen => seen ++ (seenStatus cfg s input).toList) s [] inputs

theorem seenStatuses_snoc (s : ClientState (qlnBackend decoders))
    (inputs : List (ClientInput (qlnBackend decoders))) (input : ClientInput (qlnBackend decoders)) :
    seenStatuses cfg s (inputs ++ [input]) = seenStatuses cfg s inputs ++
      (seenStatus cfg ((clientMachine (qlnBackend decoders) cfg).state s inputs) input).toList :=
  Machine.track_snoc _ _ _ _ _ _

/-- The initial tick a status stands for when it opens an epoch. -/
def openingTick (status : TickStatus) : Nat :=
  if status.initialTick = 0 then status.tick else status.initialTick

theorem initialTickOf_opening (status : TickStatus) :
    initialTickOf [status] = openingTick status := by
  unfold initialTickOf openingTick
  by_cases hnamed : status.initialTick = 0
  · simp [hnamed]
  · simp [hnamed]

/-! ## Statuses and reports in step -/

/-- The report has the epoch and the tick of the status. -/
def EpochReport.Of (r : EpochReport) (status : TickStatus) : Prop :=
  r.tick.epoch = status.epoch ∧ r.tick.tick = status.tick

/-- The adapter and the engine after the statuses of a run. -/
structure InStep (node : QlnTickFallback) (steps : List EngineInput) (seen : List TickStatus) :
    Prop where
  node_eq : node = fallbackAfter seen
  last : (epochReports steps).getLast?.map (fun r => r.tick.epoch) =
    seen.getLast?.map TickStatus.epoch
  running : List.Forall₂ EpochReport.Of (runningEpoch steps) (runningStatuses seen)
  opening : (runningEpoch steps).head?.map (fun r => r.tick.initialTick) =
    (runningStatuses seen).head?.map openingTick

theorem InStep.start : InStep QlnTickFallback.default [] [] where
  node_eq := rfl
  last := rfl
  running := .nil
  opening := rfl

/-- A step that reports nothing. -/
theorem InStep.idle {node : QlnTickFallback} {steps : List EngineInput} {seen : List TickStatus}
    {step : EngineInput} (h : InStep node steps seen) (hstep : step.epochReport = none) :
    InStep node (steps ++ [step]) seen where
  node_eq := h.node_eq
  last := by
    rw [epochReports_snoc, hstep, Option.toList_none, List.append_nil]
    exact h.last
  running := by
    rw [runningEpoch_none hstep]
    exact h.running
  opening := by
    rw [runningEpoch_none hstep]
    exact h.opening

/-- A step that reports a status. -/
theorem InStep.report {node : QlnTickFallback} {steps : List EngineInput} {seen : List TickStatus}
    {step : EngineInput} {r : EpochReport} {status : TickStatus} (h : InStep node steps seen)
    (hstep : step.epochReport = some r) (htick : r.tick = (normalizeQlnTickInfo status node).1) :
    InStep (node.update status) (steps ++ [step]) (seen ++ [status]) := by
  have hof : r.Of status := by
    rw [EpochReport.Of, htick]
    exact ⟨rfl, rfl⟩
  have hnode : node.update status = fallbackAfter (seen ++ [status]) := by
    rw [fallbackAfter_snoc, h.node_eq]
  have hlast : (epochReports (steps ++ [step])).getLast?.map (fun r => r.tick.epoch) =
      (seen ++ [status]).getLast?.map TickStatus.epoch := by
    rw [epochReports_snoc, hstep, Option.toList_some, List.getLast?_concat, List.getLast?_concat]
    exact congrArg some hof.1
  have hblock : runningStatuses (seen ++ [status]) =
      if seen.getLast?.map TickStatus.epoch = some status.epoch then
        runningStatuses seen ++ [status] else [status] := Block.lastBlock_snoc _ _
  by_cases hsame : seen.getLast?.map TickStatus.epoch = some status.epoch
  · -- the epoch goes on, and its first report stays
    rw [if_pos hsame] at hblock
    have hreported := h.last.trans hsame
    rcases Option.map_eq_some_iff.1 hreported with ⟨last, hbefore, hepoch⟩
    have hrunning := runningEpoch_same hstep hbefore (hepoch.trans hof.1.symm)
    refine ⟨hnode, hlast, ?_, ?_⟩
    · rw [hrunning, hblock]
      exact List.rel_append h.running (.cons hof .nil)
    · rcases runningEpoch_head hbefore with ⟨first, others, hcycles, -⟩
      have hfirst := h.opening
      have hpaired := h.running
      rw [hcycles] at hfirst hpaired
      rw [hrunning, hblock, hcycles]
      cases hstatuses : runningStatuses seen with
      | nil =>
        rw [hstatuses] at hpaired
        cases hpaired
      | cons opening rest =>
        rw [hstatuses] at hfirst
        exact hfirst
  · -- the status opens an epoch, for the adapter and for the engine
    rw [if_neg hsame] at hblock
    have hrunning : runningEpoch (steps ++ [step]) = [r] := by
      apply runningEpoch_other hstep
      intro last hbefore hepoch
      apply hsame
      rw [← h.last, Option.mem_def.1 hbefore]
      exact congrArg some (hepoch.trans hof.1)
    refine ⟨hnode, hlast, ?_, ?_⟩
    · rw [hrunning, hblock]
      exact .cons hof .nil
    · rw [hrunning, hblock]
      change some r.tick.initialTick = some (openingTick status)
      rw [htick, h.node_eq, initialTick_eq, hblock, initialTickOf_opening]

/-- An iteration either asks nothing and steps nothing, or starts with a cycle
that reports what the adapter made of the reply. -/
theorem iterate_cases (s : ClientState (qlnBackend decoders)) (input : ClientInput (qlnBackend decoders)) :
    ((s.run.iterate cfg (input.read s).1).2 = [] ∧ (s.step cfg input).1.node = s.node ∧
      seenStatus cfg s input = none) ∨
    ∃ cycle later, (s.run.iterate cfg (input.read s).1).2 = .cycle cycle :: later ∧
      (∀ step ∈ later, step.epochReport = none) ∧ cycle.tick = (input.wire.tickInfo s.node).1 ∧
      (s.step cfg input).1.node = (input.wire.tickInfo s.node).2 ∧
      seenStatus cfg s input = input.wire.seen := by
  unfold seenStatus ClientState.step
  dsimp only
  cases hsteps : (s.run.iterate cfg (input.read s).1).2 with
  | nil => exact .inl ⟨rfl, rfl, rfl⟩
  | cons first later =>
    right
    -- past a return or at the end of the loop the node is not asked
    unfold RunState.iterate at hsteps
    split at hsteps
    · cases hsteps
    · split at hsteps
      · cases hsteps
      · rw [List.cons.injEq] at hsteps
        rcases hsteps with ⟨rfl, rfl⟩
        refine ⟨_, _, rfl, ?_, rfl, rfl, rfl⟩
        intro step hmem
        rcases observe_steps (input.read s).1 _ with hnil | hone
        · rw [hnil] at hmem
          cases hmem
        · rw [hone, List.mem_singleton] at hmem
          rw [hmem]
          rfl

/-- Steps that report nothing. -/
theorem InStep.idles {node : QlnTickFallback} {steps later : List EngineInput}
    {seen : List TickStatus} (h : InStep node steps seen)
    (hlater : ∀ step ∈ later, step.epochReport = none) : InStep node (steps ++ later) seen := by
  induction later generalizing steps with
  | nil => rwa [List.append_nil]
  | cons step later ih =>
    rw [← List.singleton_append, ← List.append_assoc]
    exact ih (h.idle (hlater step (by simp))) fun step hmem => hlater step (by simp [hmem])

/-- A cycle that reports what the adapter made of a reply. -/
theorem InStep.cycle {node : QlnTickFallback} {steps : List EngineInput} {seen : List TickStatus}
    {cycle : CycleInput} {wire : WireCycle (qlnBackend decoders)} (h : InStep node steps seen)
    (htick : cycle.tick = (wire.tickInfo node).1) :
    InStep (wire.tickInfo node).2 (steps ++ [.cycle cycle])
      (seen ++ (wire.seen).toList) := by
  rcases wire.tickInfo_seen node with ⟨status, hstatus, hinfo⟩ | ⟨hstatus, err, hinfo⟩
  · rw [hinfo] at htick ⊢
    rw [hstatus, Option.toList_some]
    refine h.report (r := { tick := (normalizeQlnTickInfo status node).1, now := cycle.now }) ?_ rfl
    simp only [EngineInput.epochReport, htick]
  · rw [hinfo] at htick ⊢
    rw [hstatus, Option.toList_none, List.append_nil]
    apply h.idle
    simp only [EngineInput.epochReport, htick]

/-- The statuses a client saw and the reports of its engine run in step. -/
theorem client_inStep (a b c : Nat) (inputs : List (ClientInput (qlnBackend decoders))) :
    InStep ((clientMachine (qlnBackend decoders) cfg).state (ClientState.new (qlnBackend decoders) cfg a b c) inputs).node
      (engineInputs cfg (ClientState.new (qlnBackend decoders) cfg a b c) inputs)
      (seenStatuses cfg (ClientState.new (qlnBackend decoders) cfg a b c) inputs) := by
  induction inputs using List.reverseRecOn with
  | nil => exact .start
  | append_singleton inputs input ih =>
    rw [Machine.state_snoc, engineInputs_snoc, seenStatuses_snoc]
    generalize (clientMachine (qlnBackend decoders) cfg).state (ClientState.new (qlnBackend decoders) cfg a b c) inputs =
      s at *
    rcases @iterate_cases cfg decoders s input with
      ⟨hsteps, hnode, hseen⟩ | ⟨cycle, later, hsteps, hlater, htick, hnode, hseen⟩
    · rw [hsteps, hseen, Option.toList_none, List.append_nil, List.append_nil]
      exact hnode ▸ ih
    · rw [hsteps, hseen, ← List.singleton_append, ← List.append_assoc]
      exact hnode ▸ (ih.cycle htick).idles hlater

/-! ## The warm-up -/

/-- A report of the running epoch has the tick of a status the client saw in it. -/
theorem exists_status {reports : List EpochReport} {statuses : List TickStatus} {r : EpochReport}
    (h : List.Forall₂ EpochReport.Of reports statuses) (hmem : r ∈ reports) :
    ∃ status ∈ statuses, r.Of status := by
  induction h with
  | nil => cases hmem
  | cons hof hrest ih =>
    rcases List.mem_cons.1 hmem with rfl | hmem
    · exact ⟨_, List.mem_cons_self, hof⟩
    · rcases ih hmem with ⟨status, hstatus, hof⟩
      exact ⟨status, List.mem_cons_of_mem _ hstatus, hof⟩

/-- The cycle that signs a first commit or a continuation ends in the phase Active. -/
theorem active_of_signed {e : Engine} {cycle : CycleInput} {i : Fin 3} {call : SignedCall}
    (hsigned : Effect.signed call ∈ stepTrace cfg e (.cycle cycle) i)
    (hkind : call.kind ≠ .terminalReveal) :
    ∃ epoch, ((engineMachine cfg).step (.cycle cycle) e).1.epochPhase = some (.active epoch) := by
  rcases Machine.mem_trace _ hsigned with ⟨pre, op, post, hlog, heffect⟩
  -- only the planning operations sign these kinds
  have hplans := plans_of_signed heffect hkind
  have hmem : op ∈ slotLog i (engineStep cfg (.cycle cycle) e).log := by
    rw [hlog]
    simp
  rcases engineStep_ops cfg (.cycle cycle) e i with
    ⟨tick, cycle', hreport, hcycle, hbegun⟩ | ⟨-, hnil | ⟨env, hdrain⟩⟩
  · -- the operations of a cycle that got its tick info
    rw [EngineInput.cycle.injEq] at hcycle
    subst hcycle
    have htick : cycle.tick = .ok tick := by
      unfold EngineInput.report at hreport
      dsimp only at hreport
      split at hreport
      · next tick' htick =>
        cases hreport
        exact htick
      · cases hreport
    refine ⟨tick.epoch, ?_⟩
    change (engineStep cfg (.cycle cycle) e).engine.epochPhase = _
    simp only [engineStep, RandomClient.cycle, htick, cycleAt_phase]
    exact (active_of_plans (hbegun.subset hmem) hplans).2
  · rw [hnil] at hmem
    cases hmem
  · rw [hdrain, List.mem_singleton] at hmem
    rw [hmem] at hplans
    cases hplans

/-- A client of a lightnode signs a first commit or a continuation only once a
status of the epoch that is running reached the delay, counted from the initial
tick that the first status of that epoch names, or from its tick if it names
none. What later statuses name as the initial tick does not matter. -/
theorem lightnode_warmup (decoders : Decoders) (cfg : Config) (a b c : Nat)
    (earlier : List (ClientInput (qlnBackend decoders))) (input : ClientInput (qlnBackend decoders))
    (cycle : CycleInput) (later : List EngineInput) (i : Fin 3) (call : SignedCall) :
    let start := ClientState.new (qlnBackend decoders) cfg a b c
    let s := (clientMachine (qlnBackend decoders) cfg).state start earlier
    (s.run.iterate cfg (input.read s).1).2 = .cycle cycle :: later →
      Effect.signed call ∈ stepTrace cfg s.run.engine (.cycle cycle) i →
      call.kind ≠ .terminalReveal →
        ∃ opening rest,
          runningStatuses (seenStatuses cfg start (earlier ++ [input])) = opening :: rest ∧
          ∃ status ∈ opening :: rest,
            saturatingAdd (openingTick opening) cfg.epochResumeDelayTicks ≤ status.tick := by
  intro start s hsteps hsigned hkind
  -- the reports up to this cycle and the statuses up to this reply run in step
  have hinStep : InStep (input.wire.tickInfo s.node).2
      (engineInputs cfg start earlier ++ [.cycle cycle])
      (seenStatuses cfg start (earlier ++ [input])) := by
    rcases @iterate_cases cfg decoders s input with ⟨hnil, -⟩ | ⟨cycle', later', hsteps', -, htick, -, hseen⟩
    · rw [hnil] at hsteps
      cases hsteps
    · rw [hsteps', List.cons.injEq, EngineInput.cycle.injEq] at hsteps
      rcases hsteps with ⟨rfl, rfl⟩
      rw [seenStatuses_snoc, hseen]
      exact (client_inStep a b c earlier).cycle htick
  -- the phase after this cycle is the one the reports lead to
  rw [client_engine] at hsigned
  rcases active_of_signed hsigned hkind with ⟨epoch, hactive⟩
  rw [← Machine.state_snoc] at hactive
  rw [show start.run.engine = Engine.new cfg a b c from rfl, phase_of_cycles] at hactive
  rcases active_phaseOf hactive with ⟨early, ready, late, hsplit, -, hready, -⟩
  have hmem : ready ∈ runningEpoch (engineInputs cfg start earlier ++ [.cycle cycle]) := by
    rw [hsplit]
    simp
  rcases exists_status hinStep.running hmem with ⟨status, hstatus, -, htick⟩
  have hopening := hinStep.opening
  generalize runningEpoch (engineInputs cfg start earlier ++ [.cycle cycle]) = cycles at *
  cases cycles with
  | nil => cases hmem
  | cons first others =>
    generalize runningStatuses (seenStatuses cfg start (earlier ++ [input])) = statuses at *
    cases statuses with
    | nil => cases hstatus
    | cons opening rest =>
      refine ⟨opening, rest, rfl, status, hstatus, ?_⟩
      rw [← Option.some.inj hopening, ← htick]
      exact hready

/-- The sample client with a warm-up of four ticks. -/
def warmConfig : Config := { sampleConfig with epochResumeDelayTicks := 4 }

/-- That client when it saw ticks 1 to 4 of an epoch whose initial tick the node does not name. -/
def warmState : ClientState (qlnBackend sampleDecoders) :=
  (clientMachine (qlnBackend sampleDecoders) warmConfig).state
    (ClientState.new (qlnBackend sampleDecoders) warmConfig 0 0 0) (nodeRun.take 4)

/-- Its cycle at tick 5. -/
def warmCycle : CycleInput :=
  warmState.run.cycleInput
    (@ClientInput.read (qlnBackend sampleDecoders) (nodeInput 5 12) warmState).1

/-- The first commit stream 1 signs in that cycle. -/
def warmCommit : SignedCall where
  targetTick := 13
  kind := .firstCommit
  input := { reveal := Preimage.zero, commit := warmConfig.commitDigest (samplePreimage 13) }
  txBytes := 13 :: RevealAndCommitInput.encode
    { reveal := Preimage.zero, commit := warmConfig.commitDigest (samplePreimage 13) }
  preimage := some (samplePreimage 13)
  plannedAt := some 5
  drain := none

theorem lightnode_warmup_unnamed_tick :
    ∃ opening rest,
      runningStatuses (seenStatuses warmConfig
        (ClientState.new (qlnBackend sampleDecoders) warmConfig 0 0 0)
        (nodeRun.take 4 ++ [nodeInput 5 12])) = opening :: rest ∧
      ∃ status ∈ opening :: rest, saturatingAdd (openingTick opening) 4 ≤ status.tick :=
  lightnode_warmup sampleDecoders warmConfig 0 0 0 (nodeRun.take 4) (nodeInput 5 12) warmCycle [] 1 warmCommit
    (by rfl) (by decide +kernel) (by decide)

end RandomClient
