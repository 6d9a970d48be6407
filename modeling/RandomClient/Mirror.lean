import RandomClient.Run

/-!
# Inputs the engine cannot tell apart

The engine acts on what a request gave and on whether it failed, not on the text
of a failure, and its slots never look at the tick checks. Runs over inputs that
differ in nothing else perform the same operations (`engine_mirrors`) and return
the same (`run_mirrors`).
-/

namespace RandomClient

variable {cfg : Config}

/-- The engines are equal but for their monitors. -/
structure Engine.Mirrors (e e' : Engine) : Prop where
  slots : e'.slots = e.slots
  phase : e'.epochPhase = e.epochPhase
  query : e'.statusQuery = e.statusQuery
  nextQuery : e'.nextStatusQueryAt = e.nextStatusQueryAt

/-- The inputs are equal but for the texts of failures and the tick checks. -/
structure CycleInput.Mirrors (input input' : CycleInput) : Prop where
  tick : input'.tick.toOption = input.tick.toOption
  now : input'.now = input.now
  status : input'.statusResult.map Except.toOption = input.statusResult.map Except.toOption
  broadcasts : input'.broadcastResults = input.broadcastResults
  cancelled : input'.cancelled = input.cancelled
  env : input'.env = input.env
  clock : input'.clock = input.clock

/-- The same step of `run`, on inputs that mirror each other. -/
inductive EngineInput.Mirrors : EngineInput → EngineInput → Prop where
  | cycle {input input' : CycleInput} (h : input.Mirrors input') : Mirrors (.cycle input) (.cycle input')
  | shutdown (env : Fin 3 → SigningEnv) : Mirrors (.shutdown env) (.shutdown env)

/-- Two cycles in progress that performed the same operations. -/
structure Exec.Mirrors (x x' : Exec) : Prop where
  engine : x.engine.Mirrors x'.engine
  log : x'.log = x.log
  error : x'.error = x.error

/-! ## One step of both engines -/

section Exec

variable {x x' : Exec}

theorem Exec.Mirrors.perform (h : x.Mirrors x') (stream : Fin 3) (op : SlotOp) :
    (x.perform cfg stream op).Mirrors (x'.perform cfg stream op) := by
  unfold Exec.perform
  rw [h.error]
  by_cases herror : x.error.isSome = true
  · rw [if_pos herror, if_pos herror]
    exact h
  · rw [if_neg herror, if_neg herror]
    dsimp only
    rw [h.engine.slots, h.log]
    exact ⟨⟨rfl, h.engine.phase, h.engine.query, h.engine.nextQuery⟩, rfl, rfl⟩

theorem Exec.Mirrors.performAll (h : x.Mirrors x') (stream : Fin 3) (ops : List SlotOp) :
    (x.performAll cfg stream ops).Mirrors (x'.performAll cfg stream ops) := by
  induction ops generalizing x x' with
  | nil => exact h
  | cons op ops ih => exact ih (h.perform stream op)

theorem Exec.Mirrors.forSlots (h : x.Mirrors x') (ops : Fin 3 → List SlotOp) :
    (x.forSlots cfg ops).Mirrors (x'.forSlots cfg ops) :=
  ((h.performAll 0 _).performAll 1 _).performAll 2 _

theorem Exec.Mirrors.modify (h : x.Mirrors x') {f f' : Engine → Engine}
    (hf : x.engine.Mirrors x'.engine → (f x.engine).Mirrors (f' x'.engine)) :
    (x.modify f).Mirrors (x'.modify f') := by
  unfold Exec.modify
  rw [h.error]
  by_cases herror : x.error.isSome = true
  · rw [if_pos herror, if_pos herror]
    exact h
  · rw [if_neg herror, if_neg herror]
    exact ⟨hf h.engine, h.log, rfl⟩

theorem Exec.Mirrors.start {e e' : Engine} (h : e.Mirrors e') : (Exec.start e).Mirrors (Exec.start e') :=
  ⟨h, rfl, rfl⟩

end Exec

section Cycle

variable {x x' : Exec} {input input' : CycleInput}

theorem updateEpochPhase_mirrors (h : x.Mirrors x') (hinput : input.Mirrors input') (tick : TickInfo) :
    (updateEpochPhase cfg tick input x).Mirrors (updateEpochPhase cfg tick input' x') := by
  unfold updateEpochPhase
  rw [h.engine.phase, hinput.now, hinput.clock]
  split
  · apply h.modify
    intro he
    exact ⟨he.slots, congrArg (Option.map _) he.phase, he.query, he.nextQuery⟩
  · -- the reset forgets the query of both engines
    have hreset : (x.modify (resetEngine input.clock)).Mirrors (x'.modify (resetEngine input.clock)) :=
      h.modify fun he => ⟨he.slots, he.phase, rfl, rfl⟩
    apply (hreset.forSlots fun _ => [.reset]).modify
    intro he
    exact ⟨he.slots, rfl, he.query, he.nextQuery⟩

/-- A failed query is consumed whatever its text, and gives no observation. -/
theorem harvest_mirrors {e e' : Engine} (h : e.Mirrors e') (hinput : input.Mirrors input') :
    harvestedObservation e' input' = harvestedObservation e input ∧
      (harvestStatusQuery input e).Mirrors (harvestStatusQuery input' e') := by
  have hsome : input'.statusResult.isSome = input.statusResult.isSome := by
    have hmap := congrArg Option.isSome hinput.status
    rwa [Option.isSome_map, Option.isSome_map] at hmap
  constructor
  · unfold harvestedObservation
    rw [h.query]
    have hstatus := hinput.status
    cases e.statusQuery with
    | none => rfl
    | some query =>
      rcases hresult : input.statusResult with - | outcome <;>
        rcases hresult' : input'.statusResult with - | outcome'
      · rfl
      · simp [hresult, hresult'] at hstatus
      · simp [hresult, hresult'] at hstatus
      · rw [hresult, hresult'] at hstatus
        replace hstatus := Option.some.inj hstatus
        cases outcome <;> cases outcome' <;> simp_all [Except.toOption]
  · unfold harvestStatusQuery
    rw [h.query, hsome]
    split
    · exact ⟨h.slots, h.phase, rfl, h.nextQuery⟩
    · exact h

theorem harvestAndApply_mirrors (h : x.Mirrors x') (hinput : input.Mirrors input') (tick : TickInfo) :
    (harvestAndApply cfg tick input x).Mirrors (harvestAndApply cfg tick input' x') := by
  unfold harvestAndApply
  rw [(harvest_mirrors h.engine hinput).1, hinput.broadcasts]
  apply Exec.Mirrors.forSlots
  apply Exec.Mirrors.forSlots
  exact h.modify fun he => (harvest_mirrors he hinput).2

/-- The end of a cycle works on the status query and on the monitor. -/
theorem finishCycle_mirrors {e e' : Engine} (h : e.Mirrors e') (hinput : input.Mirrors input')
    (tick : TickInfo) (plan : Plan) :
    (finishCycle cfg tick input plan e).Mirrors (finishCycle cfg tick input' plan e') := by
  have hensure : (ensureStatusQuery tick input.clock e).Mirrors
      (ensureStatusQuery tick input.clock e') := by
    unfold ensureStatusQuery
    rw [h.query, h.nextQuery]
    split
    · exact h
    · exact ⟨h.slots, h.phase, rfl, rfl⟩
  unfold finishCycle
  rw [hinput.clock]
  exact ⟨hensure.slots, hensure.phase, hensure.query, hensure.nextQuery⟩

theorem cycleAt_mirrors {e e' : Engine} (h : e.Mirrors e') (hinput : input.Mirrors input')
    (tick : TickInfo) : (cycleAt cfg tick input e).Mirrors (cycleAt cfg tick input' e') := by
  have happlied : (harvestAndApply cfg tick input (updateEpochPhase cfg tick input
      (Exec.start e))).Mirrors (harvestAndApply cfg tick input' (updateEpochPhase cfg tick input'
        (Exec.start e'))) :=
    harvestAndApply_mirrors (updateEpochPhase_mirrors (.start h) hinput tick) hinput tick
  unfold cycleAt
  dsimp only
  rw [happlied.engine.phase, hinput.cancelled, hinput.env]
  apply Exec.Mirrors.modify
  · exact (happlied.forSlots _).forSlots _
  · intro he
    exact finishCycle_mirrors he hinput tick _

theorem cycle_mirrors {e e' : Engine} (h : e.Mirrors e') (hinput : input.Mirrors input') :
    (cycle cfg input e).engine.Mirrors (cycle cfg input' e').engine ∧
      (cycle cfg input' e').log = (cycle cfg input e).log := by
  have htick := hinput.tick
  unfold cycle
  cases hreport : input.tick with
  | error err =>
    cases hreport' : input'.tick with
    | error err' => exact ⟨h, rfl⟩
    | ok tick => simp [hreport, hreport', Except.toOption] at htick
  | ok tick =>
    cases hreport' : input'.tick with
    | error err => simp [hreport, hreport', Except.toOption] at htick
    | ok tick' =>
      rw [hreport, hreport'] at htick
      cases htick
      have hcycle := @cycleAt_mirrors cfg _ _ _ _ h hinput tick
      exact ⟨hcycle.engine, hcycle.log⟩

end Cycle

theorem shutdown_mirrors {e e' : Engine} (h : e.Mirrors e') (env : Fin 3 → SigningEnv) :
    (engineStep cfg (.shutdown env) e).Mirrors (engineStep cfg (.shutdown env) e') :=
  Exec.Mirrors.forSlots (.start h) fun stream => [.enterDrain (env stream) .shutdown]

/-! ## Whole runs -/

/-- Engines that mirror each other perform the same operations on inputs that mirror each other. -/
theorem engine_mirrors {e e' : Engine} (h : e.Mirrors e') {inputs inputs' : List EngineInput}
    (hinputs : List.Forall₂ EngineInput.Mirrors inputs inputs') :
    ((engineMachine cfg).state e inputs).Mirrors ((engineMachine cfg).state e' inputs') ∧
      (engineMachine cfg).trace e' inputs' = (engineMachine cfg).trace e inputs := by
  have hrun := (engineMachine cfg).simulate (engineMachine cfg) Engine.Mirrors EngineInput.Mirrors Eq
    ?_ h hinputs
  · rw [List.forall₂_eq_eq_eq] at hrun
    exact ⟨hrun.1, hrun.2.symm⟩
  · intro op op' s s' hop hs
    rw [List.forall₂_eq_eq_eq]
    cases hop with
    | cycle hinput =>
      have hcycle := @cycle_mirrors cfg _ _ _ _ hs hinput
      exact ⟨hcycle.1, hcycle.2.symm⟩
    | shutdown env =>
      have hdrain := @shutdown_mirrors cfg _ _ hs env
      exact ⟨hdrain.engine, hdrain.log.symm⟩

/-- The loops are equal but for the monitors of their engines. -/
structure RunState.Mirrors (s s' : RunState) : Prop where
  engine : s.engine.Mirrors s'.engine
  cancelled : s'.cancelled = s.cancelled
  shuttingDown : s'.shuttingDown = s.shuttingDown
  deadline : s'.shutdownDeadline = s.shutdownDeadline
  returned : s'.returned = s.returned

/-- The iterations are equal but for what their cycles may differ in. -/
structure RunInput.Mirrors (input input' : RunInput) : Prop where
  now : input'.now = input.now
  cycle : input.cycle.Mirrors input'.cycle
  observer : input'.observer = input.observer
  env : input'.env = input.env

theorem result_mirrors {s s' : RunState} (h : s.Mirrors s') (now : Nat) : s'.result now = s.result now := by
  unfold RunState.result Engine.shutdownComplete Engine.shutdownFailed
  rw [h.engine.slots, h.shuttingDown, h.deadline]

theorem observe_mirrors {s s' : RunState} (h : s.Mirrors s') {input input' : RunInput}
    (hinput : input.Mirrors input') :
    (s.observe cfg input).1.Mirrors (s'.observe cfg input').1 ∧
      List.Forall₂ EngineInput.Mirrors (s.observe cfg input).2 (s'.observe cfg input').2 := by
  unfold RunState.observe
  rw [h.shuttingDown, hinput.observer, hinput.env]
  split
  · exact ⟨h, .nil⟩
  · exact ⟨⟨h.engine, h.cancelled, rfl, h.deadline, rfl⟩, .nil⟩
  · have hdrain := @shutdown_mirrors cfg _ _ h.engine input.env
    refine ⟨⟨hdrain.engine, rfl, rfl, rfl, ?_⟩, .cons (.shutdown _) .nil⟩
    exact congrArg (Option.map Except.error) hdrain.error

theorem iterate_mirrors {s s' : RunState} (h : s.Mirrors s') {input input' : RunInput}
    (hinput : input.Mirrors input') :
    (s.iterate cfg input).1.Mirrors (s'.iterate cfg input').1 ∧
      List.Forall₂ EngineInput.Mirrors (s.iterate cfg input).2 (s'.iterate cfg input').2 := by
  unfold RunState.iterate
  rw [h.returned, result_mirrors h, hinput.now]
  split
  · exact ⟨h, .nil⟩
  · split
    · exact ⟨⟨h.engine, h.cancelled, h.shuttingDown, h.deadline, rfl⟩, .nil⟩
    · -- the cycles mirror each other, and so does the end of the iteration after them
      have hcancelled : (s'.cycleInput input').cancelled = (s.cycleInput input).cancelled := by
        change (s'.cancelled || input'.cycle.cancelled) = (s.cancelled || input.cycle.cancelled)
        rw [h.cancelled, hinput.cycle.cancelled]
      have hcycle : (s.cycleInput input).Mirrors (s'.cycleInput input') :=
        ⟨hinput.cycle.tick, hinput.cycle.now, hinput.cycle.status, hinput.cycle.broadcasts,
          hcancelled, hinput.cycle.env, hinput.cycle.clock⟩
      have hmid := @observe_mirrors cfg
        { s with
          engine := (engineStep cfg (.cycle (s.cycleInput input)) s.engine).engine
          cancelled := (s.cycleInput input).cancelled }
        { s' with
          engine := (engineStep cfg (.cycle (s'.cycleInput input')) s'.engine).engine
          cancelled := (s'.cycleInput input').cancelled
          returned := s.returned }
        ⟨(cycle_mirrors h.engine hcycle).1, hcancelled, h.shuttingDown, h.deadline, rfl⟩
        _ _ hinput
      exact ⟨hmid.1, .cons (.cycle hcycle) hmid.2⟩

/-- Runs over iterations that mirror each other do so for ever. -/
theorem run_mirrors {s s' : RunState} (h : s.Mirrors s') {inputs inputs' : List RunInput}
    (hinputs : List.Forall₂ RunInput.Mirrors inputs inputs') :
    ((runMachine cfg).state s inputs).Mirrors ((runMachine cfg).state s' inputs') ∧
      List.Forall₂ EngineInput.Mirrors ((runMachine cfg).trace s inputs)
        ((runMachine cfg).trace s' inputs') :=
  (runMachine cfg).simulate (runMachine cfg) RunState.Mirrors RunInput.Mirrors EngineInput.Mirrors
    (fun _ _ _ _ hinput hs => iterate_mirrors hs hinput) h hinputs

end RandomClient
