import RandomClient.History

/-!
# The loop of `run`

`ProviderEngine::run` drives the engine: an iteration returns if the shutdown
is complete or late, and otherwise runs one cycle and enters the drain once the
shutdown observer has finished. The loop is a machine whose effects are the
steps of the engine it takes, so facts about the engine carry over to it
(`run_engine`).
-/

namespace RandomClient

/-- `SHUTDOWN_TIMEOUT`, in milliseconds. -/
def shutdownTimeoutMs : Nat := 90000

/-- `matches!(state, Drained(_))`. -/
def SlotState.isDrained : SlotState → Bool
  | .drained _ => true
  | _ => false

/-- `shutdown_complete`. -/
def Engine.shutdownComplete (e : Engine) : Bool := ∀ i, (e.slots i).state.isDrained

/-- `shutdown_failed`. -/
def Engine.shutdownFailed (e : Engine) : Bool := ∃ i, (e.slots i).state = .drained .failed

/-- The variables of `run`. A cancelled token stays cancelled. -/
structure RunState where
  engine : Engine
  cancelled : Bool
  shuttingDown : Bool
  shutdownDeadline : Option Nat
  returned : Option (Except String Unit)

/-- The outside world during one iteration. `now` is the instant compared with
the deadline; `observer` is what the shutdown observer returned, once it has
finished: an error, or the instant of the request. -/
structure RunInput where
  now : Nat
  cycle : CycleInput
  observer : Option (Except String Nat)
  env : Fin 3 → SigningEnv

/-- `run` before its first iteration. -/
def RunState.new (cfg : Config) (statusQueryAt tickCheckAt monitorLogAt : Nat) : RunState where
  engine := Engine.new cfg statusQueryAt tickCheckAt monitorLogAt
  cancelled := false
  shuttingDown := false
  shutdownDeadline := none
  returned := none

/-- The checks at the top of the loop. -/
def RunState.result (s : RunState) (now : Nat) : Option (Except String Unit) :=
  if s.shuttingDown ∧ s.engine.shutdownComplete then
    if s.engine.shutdownFailed then
      some (.error "one or more final reveal chains could not be submitted")
    else some (.ok ())
  else if s.shutdownDeadline.any fun deadline => deadline ≤ now then
    some (.error "shutdown timed out before final reveals could be submitted")
  else none

/-- The cycle of an iteration, which sees the token. An error of the cycle is logged only. -/
def RunState.cycleInput (s : RunState) (input : RunInput) : CycleInput :=
  { input.cycle with cancelled := s.cancelled || input.cycle.cancelled }

/-- The end of an iteration, after its cycle. -/
def RunState.observe (cfg : Config) (input : RunInput) (s : RunState) :
    RunState × List EngineInput :=
  match (if s.shuttingDown then none else input.observer) with
  | none => (s, [])
  | some (.error err) => ({ s with returned := some (.error err) }, [])
  | some (.ok requestedAt) =>
    let x := engineStep cfg (.shutdown input.env) s.engine
    ({ engine := x.engine
       cancelled := true
       shuttingDown := true
       shutdownDeadline := some (requestedAt + shutdownTimeoutMs)
       returned := x.error.map .error }, [.shutdown input.env])

/-- One iteration of the loop. After a return nothing more happens. -/
def RunState.iterate (cfg : Config) (input : RunInput) (s : RunState) :
    RunState × List EngineInput :=
  if s.returned.isSome then (s, [])
  else
    match s.result input.now with
    | some result => ({ s with returned := some result }, [])
    | none =>
      let cycleInput := s.cycleInput input
      let next := RunState.observe cfg input
        { s with
          engine := (engineStep cfg (.cycle cycleInput) s.engine).engine
          cancelled := cycleInput.cancelled }
      (next.1, .cycle cycleInput :: next.2)

/-- `run` as a machine whose effects are the steps of the engine. -/
def runMachine (cfg : Config) : Machine RunState RunInput EngineInput where
  step := RunState.iterate cfg

variable {cfg : Config}

/-! ## The engine of a run -/

theorem observe_engine (input : RunInput) (s : RunState) :
    (s.observe cfg input).1.engine =
      (engineMachine cfg).state s.engine (s.observe cfg input).2 := by
  unfold RunState.observe
  split
  · rfl
  · rfl
  · rfl

theorem iterate_engine (input : RunInput) (s : RunState) :
    (s.iterate cfg input).1.engine =
      (engineMachine cfg).state s.engine (s.iterate cfg input).2 := by
  unfold RunState.iterate
  split
  · rfl
  · split
    · rfl
    · exact observe_engine input _

/-- The engine of a run is the one its steps reach. -/
theorem run_engine (s : RunState) (inputs : List RunInput) :
    ((runMachine cfg).state s inputs).engine =
      (engineMachine cfg).state s.engine ((runMachine cfg).trace s inputs) := by
  induction inputs using List.reverseRecOn with
  | nil => rfl
  | append_singleton inputs input ih =>
    rw [Machine.state_snoc, Machine.trace_snoc, Machine.state_append, ← ih]
    exact iterate_engine input _

/-! ## The token -/

/-- The step sees the shutdown: a cycle with a cancelled token, or the drain entry. -/
def EngineInput.seesShutdown : EngineInput → Bool
  | .cycle input => input.cancelled
  | .shutdown _ => true

/-- Once a step saw the shutdown, all later ones do. -/
def Latched (steps : List EngineInput) : Prop :=
  ∀ before x later, steps = before ++ x :: later → x.seesShutdown = true →
    ∀ y ∈ later, y.seesShutdown = true

theorem Latched.append {xs ys : List EngineInput} (hx : Latched xs)
    (hy : ys.Pairwise fun x y => x.seesShutdown = true → y.seesShutdown = true)
    (hxy : ∀ x ∈ xs, x.seesShutdown = true → ∀ y ∈ ys, y.seesShutdown = true) :
    Latched (xs ++ ys) := by
  intro before x later hsplit hsees y hmem
  rcases List.append_eq_append_iff.1 hsplit with ⟨mid, hbefore, hys⟩ | ⟨mid, hxs, hlater⟩
  · -- both steps are among the new ones
    rw [hys, List.pairwise_append] at hy
    exact (List.pairwise_cons.1 hy.2.1).1 y hmem hsees
  · cases mid with
    | nil =>
      rw [List.nil_append] at hlater
      rw [← hlater, List.pairwise_cons] at hy
      exact hy.1 y hmem hsees
    | cons first mid =>
      rw [List.cons_append, List.cons.injEq] at hlater
      rcases hlater with ⟨rfl, rfl⟩
      rcases List.mem_append.1 hmem with hold | hnew
      · exact hx before _ mid hxs hsees y hold
      · exact hxy _ (by rw [hxs]; simp) hsees y hnew

theorem observe_seesShutdown (input : RunInput) (s : RunState) :
    (∀ y ∈ (s.observe cfg input).2, y.seesShutdown = true) ∧
      (s.cancelled = true → (s.observe cfg input).1.cancelled = true) ∧
      ((s.observe cfg input).2 ≠ [] → (s.observe cfg input).1.cancelled = true) := by
  unfold RunState.observe
  split
  · exact ⟨by simp, id, by simp⟩
  · exact ⟨by simp, id, by simp⟩
  · refine ⟨?_, fun _ => rfl, fun _ => rfl⟩
    intro y hy
    rw [List.mem_singleton.1 hy]
    rfl

theorem observe_steps (input : RunInput) (s : RunState) :
    (s.observe cfg input).2 = [] ∨ (s.observe cfg input).2 = [.shutdown input.env] := by
  unfold RunState.observe
  split
  · exact .inl rfl
  · exact .inl rfl
  · exact .inr rfl

/-- The token stays cancelled along a run. -/
theorem run_latched (a b c : Nat) (inputs : List RunInput) :
    Latched ((runMachine cfg).trace (RunState.new cfg a b c) inputs) := by
  have hinv := (runMachine cfg).trace_invariant (RunState.new cfg a b c)
    (fun s t => Latched t ∧ ((∃ x ∈ t, x.seesShutdown = true) → s.cancelled = true)) ?_ ?_ inputs
  · exact hinv.1
  · refine ⟨?_, ?_⟩
    · intro before x later hsplit
      simp at hsplit
    · rintro ⟨x, hmem, -⟩
      cases hmem
  · rintro s t input ⟨hlatched, hseen⟩
    show Latched (t ++ (s.iterate cfg input).2) ∧
      ((∃ x ∈ t ++ (s.iterate cfg input).2, x.seesShutdown = true) →
        (s.iterate cfg input).1.cancelled = true)
    unfold RunState.iterate
    split
    · rw [List.append_nil]
      exact ⟨hlatched, hseen⟩
    · split
      · rw [List.append_nil]
        exact ⟨hlatched, hseen⟩
      · dsimp only
        generalize hmid : ({ s with
          engine := (engineStep cfg (.cycle (s.cycleInput input)) s.engine).engine
          cancelled := (s.cycleInput input).cancelled } : RunState) = mid
        have hcancelled : mid.cancelled = (s.cycleInput input).cancelled := by rw [← hmid]
        have hobserve := @observe_seesShutdown cfg input mid
        constructor
        · apply hlatched.append
          · rw [List.pairwise_cons]
            refine ⟨fun y hy _ => hobserve.1 y hy, ?_⟩
            rcases @observe_steps cfg input mid with hnil | hone
            · rw [hnil]
              exact .nil
            · rw [hone]
              exact List.pairwise_singleton _ _
          · intro x hx hsees y hy
            rcases List.mem_cons.1 hy with rfl | hy
            · show (s.cancelled || input.cycle.cancelled) = true
              rw [hseen ⟨x, hx, hsees⟩]
              rfl
            · exact hobserve.1 y hy
        · rintro ⟨x, hx, hsees⟩
          rcases List.mem_append.1 hx with hx | hx
          · apply hobserve.2.1
            rw [hcancelled]
            show (s.cancelled || input.cycle.cancelled) = true
            rw [hseen ⟨x, hx, hsees⟩]
            rfl
          · rcases List.mem_cons.1 hx with rfl | hx
            · exact hobserve.2.1 (hcancelled.trans hsees)
            · exact hobserve.2.2 (List.ne_nil_of_mem hx)

/-! ## What a return means -/

/-- A run that returned `Ok` left every slot drained and none failed. -/
theorem run_ok (a b c : Nat) (inputs : List RunInput)
    (h : ((runMachine cfg).state (RunState.new cfg a b c) inputs).returned = some (.ok ())) :
    let e := ((runMachine cfg).state (RunState.new cfg a b c) inputs).engine
    e.shutdownComplete = true ∧ e.shutdownFailed = false := by
  revert h
  apply (runMachine cfg).state_invariant (RunState.new cfg a b c)
    (fun s => s.returned = some (.ok ()) →
      s.engine.shutdownComplete = true ∧ s.engine.shutdownFailed = false)
  · intro h
    cases h
  · intro s input hinv
    show (s.iterate cfg input).1.returned = _ → (s.iterate cfg input).1.engine.shutdownComplete = _ ∧
      (s.iterate cfg input).1.engine.shutdownFailed = _
    unfold RunState.iterate
    split
    · exact hinv
    · rename_i hrunning
      split
      · rename_i result hresult
        intro h
        obtain rfl := Option.some.inj h
        unfold RunState.result at hresult
        split at hresult
        · rename_i hcomplete
          split at hresult
          · cases hresult
          · rename_i hfailed
            exact ⟨hcomplete.2, by simpa using hfailed⟩
        · split at hresult <;> cases hresult
      · -- an iteration with a cycle does not return `Ok`
        intro h
        exfalso
        dsimp only at h
        unfold RunState.observe at h
        split at h
        · simp only [Option.not_isSome_iff_eq_none] at hrunning
          simp [hrunning] at h
        · cases h
        · simp only [Option.map_eq_some_iff] at h
          rcases h with ⟨_, -, h⟩
          cases h

/-! ## What an error cuts off -/

/-- The slots are what the log made of the given ones, and only the last
operation of the log may have failed: then `x` has its error. -/
structure Exec.Clean (cfg : Config) (before : Fin 3 → ManagedSlot) (x : Exec) : Prop where
  slots : ∀ i, x.engine.slots i = (slotMachine cfg).state (before i) (slotLog i x.log)
  ok : x.error = none → ∀ i front op back, slotLog i x.log = front ++ op :: back →
    (op.run cfg ((slotMachine cfg).state (before i) front)).error = none
  cut : ∀ i front op back, slotLog i x.log = front ++ op :: back → back ≠ [] →
    (op.run cfg ((slotMachine cfg).state (before i) front)).error = none

section Clean

variable {before : Fin 3 → ManagedSlot} {x : Exec}

theorem Exec.Clean.start (e : Engine) : (Exec.start e).Clean cfg e.slots where
  slots _ := rfl
  ok _ i front op back h := by simp at h
  cut i front op back h := by simp at h

theorem Exec.Clean.perform (h : x.Clean cfg before) (j : Fin 3) (op : SlotOp) :
    (x.perform cfg j op).Clean cfg before := by
  have hcontinues := Exec.perform_continues cfg j op x
  unfold Exec.perform at hcontinues ⊢
  by_cases herror : x.error.isSome = true
  · rw [if_pos herror]
    exact h
  · rw [if_neg herror] at hcontinues ⊢
    have hnone : x.error = none := by simpa using herror
    have hlog : ∀ i, slotLog i (x.log ++ [(j, op)]) =
        slotLog i x.log ++ if j = i then [op] else [] := by
      intro i
      by_cases hi : j = i
      · subst hi
        simp
      · rw [if_neg hi, slotLog_append, slotLog_other hi]
    -- an operation that is not the last was performed before
    have hcut : ∀ i front o back, slotLog i (x.log ++ [(j, op)]) = front ++ o :: back →
        (back = [] ∧ j = i ∧ o = op ∧ front = slotLog i x.log) ∨
          (o.run cfg ((slotMachine cfg).state (before i) front)).error = none := by
      intro i front o back hsplit
      rw [hlog] at hsplit
      by_cases hi : j = i
      · rw [if_pos hi] at hsplit
        rcases List.eq_nil_or_concat back with rfl | ⟨back', last, rfl⟩
        · rw [List.append_inj_left' hsplit rfl]
          have hop := List.append_inj_right' hsplit rfl
          exact .inl ⟨rfl, hi, (List.cons.inj hop).1.symm, rfl⟩
        · right
          rw [List.concat_eq_append, ← List.cons_append, ← List.append_assoc] at hsplit
          exact h.ok hnone i front o back' (List.append_inj_left' hsplit rfl)
      · rw [if_neg hi, List.append_nil] at hsplit
        exact .inr (h.ok hnone i front o back hsplit)
    refine ⟨?_, ?_, ?_⟩
    · intro i
      show Function.update x.engine.slots j _ i = (slotMachine cfg).state (before i)
        (slotLog i (x.log ++ [(j, op)]))
      rw [hlog]
      by_cases hi : j = i
      · subst hi
        rw [Function.update_self, if_pos rfl, Machine.state_snoc, ← h.slots]
        rfl
      · rw [Function.update_of_ne (Ne.symm hi), if_neg hi, List.append_nil]
        exact h.slots i
    · intro hafter i front o back hsplit
      rcases hcut i front o back hsplit with ⟨-, rfl, rfl, rfl⟩ | hok
      · rw [← h.slots]
        exact hafter
      · exact hok
    · intro i front o back hsplit hback
      rcases hcut i front o back hsplit with ⟨hnil, -⟩ | hok
      · exact absurd hnil hback
      · exact hok

theorem Exec.Clean.performAll (h : x.Clean cfg before) (i : Fin 3) (ops : List SlotOp) :
    (x.performAll cfg i ops).Clean cfg before := by
  induction ops generalizing x with
  | nil => exact h
  | cons op ops ih => exact ih (h.perform i op)

theorem Exec.Clean.forSlots (h : x.Clean cfg before) (ops : Fin 3 → List SlotOp) :
    (x.forSlots cfg ops).Clean cfg before :=
  ((h.performAll 0 _).performAll 1 _).performAll 2 _

theorem Exec.Clean.modify (h : x.Clean cfg before) {f : Engine → Engine}
    (hf : ∀ e, (f e).slots = e.slots) : (x.modify f).Clean cfg before := by
  unfold Exec.modify
  split
  · exact h
  · rename_i herror
    have hnone : x.error = none := by simpa using herror
    refine ⟨?_, ?_, h.cut⟩
    · intro i
      rw [← h.slots i]
      exact congrFun (hf _) i
    · intro _
      exact h.ok hnone

end Clean

theorem cycleAt_clean (tick : TickInfo) (input : CycleInput) (e : Engine) :
    (cycleAt cfg tick input e).Clean cfg e.slots := by
  have hstart : (Exec.start e).Clean cfg e.slots := .start e
  have hphase : (updateEpochPhase cfg tick input (Exec.start e)).Clean cfg e.slots := by
    unfold updateEpochPhase
    split
    · exact hstart.modify fun _ => rfl
    · have hreset : ((Exec.start e).modify (resetEngine input.clock)).Clean cfg e.slots :=
        hstart.modify fun _ => rfl
      apply Exec.Clean.modify (hreset.forSlots fun _ => [.reset])
      intro e
      rfl
  have happlied : (harvestAndApply cfg tick input
      (updateEpochPhase cfg tick input (Exec.start e))).Clean cfg e.slots := by
    unfold harvestAndApply
    exact Exec.Clean.forSlots
      (Exec.Clean.forSlots (hphase.modify (harvestStatusQuery_slots input)) _) _
  exact Exec.Clean.modify (Exec.Clean.forSlots (happlied.forSlots _) _)
    (finishCycle_slots cfg tick input _)

/-- In a step of the engine nothing is performed on any slot after an operation failed. -/
theorem engineStep_clean (input : EngineInput) (e : Engine) :
    (engineStep cfg input e).Clean cfg e.slots := by
  cases input with
  | shutdown env =>
    have hstart : (Exec.start e).Clean cfg e.slots := .start e
    exact hstart.forSlots fun stream => [.enterDrain (env stream) .shutdown]
  | cycle input =>
    cases htick : input.tick with
    | error err =>
      simp only [engineStep, cycle, htick]
      refine ⟨fun _ => rfl, ?_, ?_⟩
      · intro _ i front op back h
        simp at h
      · intro i front op back h
        simp at h
    | ok tick =>
      simp only [engineStep, cycle, htick]
      exact cycleAt_clean tick input e

/-! ## The point where a cycle plans -/

/-- The operations of a cycle on a slot before it plans. -/
def readingOps (tick : TickInfo) (input : CycleInput) (e : Engine) (i : Fin 3) : List SlotOp :=
  (if epochChanges e tick then [.reset] else []) ++
    [.harvestBroadcasts (input.broadcastResults i)] ++
    statusOps (observationOf tick input e) tick.epoch

/-- A cycle up to the point where it plans: what comes before is done on every
slot, without an error. -/
theorem cycleAt_split (tick : TickInfo) (input : CycleInput) (e : Engine) :
    let plan := planOf (phaseAfter cfg tick input e) tick.epoch input.cancelled
    ∃ y : Exec, y.error = none ∧ (∀ i, slotLog i y.log = readingOps tick input e i) ∧
      (∀ i, y.engine.slots i = (slotMachine cfg).state (e.slots i) (readingOps tick input e i)) ∧
      cycleAt cfg tick input e = ((y.forSlots cfg fun i => planOps plan tick
        (input.env i)).forSlots cfg fun _ => deliveryOps tick).modify
          (finishCycle cfg tick input plan) := by
  intro plan
  obtain ⟨hok, hphase, hquery, hperformed⟩ := updateEpochPhase_spec cfg tick input e
  have hcontinues := updateEpochPhase_continues cfg tick input (Exec.start e)
  have hcycle : cycleAt cfg tick input e = ((((harvestAndApply cfg tick input
      (updateEpochPhase cfg tick input (Exec.start e))).forSlots cfg fun stream => planOps (planOf
        (harvestAndApply cfg tick input
          (updateEpochPhase cfg tick input (Exec.start e))).engine.epochPhase tick.epoch
            input.cancelled) tick (input.env stream)).forSlots cfg
      fun _ => deliveryOps tick).modify (finishCycle cfg tick input (planOf
        (harvestAndApply cfg tick input
          (updateEpochPhase cfg tick input (Exec.start e))).engine.epochPhase tick.epoch
            input.cancelled))) := rfl
  rw [hcycle, harvestAndApply_phase]
  generalize hx : updateEpochPhase cfg tick input (Exec.start e) = x at *
  have hobservation : harvestedObservation x.engine input = observationOf tick input e := by
    simp only [harvestedObservation, hquery, observationOf]
    cases epochChanges e tick <;> rfl
  have hmodified : (x.modify (harvestStatusQuery input)).error = none := by
    rw [Exec.modify_of_ok hok]
    exact hok
  have hharvest : ∀ i, ∀ op ∈ [SlotOp.harvestBroadcasts (input.broadcastResults i)],
      op.isQuiet = true := by
    intro i op hop
    rw [List.mem_singleton.1 hop]
    rfl
  have hstatus : ∀ i : Fin 3, ∀ op ∈ statusOps (harvestedObservation x.engine input) tick.epoch,
      op.isQuiet = true := by
    intro i op hop
    unfold statusOps at hop
    split at hop
    · split at hop
      · rw [List.mem_singleton.1 hop]
        rfl
      · cases hop
    · cases hop
  have hread : (harvestAndApply cfg tick input x).error = none :=
    (Exec.forSlots_frame cfg hstatus _).error
      ((Exec.forSlots_frame cfg hharvest _).error hmodified)
  have hlog : (harvestAndApply cfg tick input x).Performed fun i => readingOps tick input e i := by
    unfold readingOps
    rw [← hobservation]
    exact ((hperformed.modify _).forSlots cfg _).forSlots cfg _
  refine ⟨harvestAndApply cfg tick input x, hread, hlog.2 hread, ?_, ?_⟩
  · intro i
    obtain ⟨ops, hops, hslots⟩ :=
      hcontinues.trans cfg (harvestAndApply_continues cfg tick input x)
    have hsame : slotLog i ops = readingOps tick input e i := by
      have hall := hlog.2 hread i
      rw [hops] at hall
      exact hall
    rw [hslots i, hsame]
  · rw [hphase]

/-- What a cycle does before it plans it does on every slot, without an error. -/
theorem cycleAt_reads (tick : TickInfo) (input : CycleInput) (e : Engine) :
    ∃ y : Exec, y.error = none ∧ (∀ i, slotLog i y.log = readingOps tick input e i) ∧
      y.Continues cfg (cycleAt cfg tick input e) := by
  rcases @cycleAt_split cfg tick input e with ⟨y, hok, hlog, -, hcycle⟩
  refine ⟨y, hok, hlog, ?_⟩
  rw [hcycle]
  exact ((Exec.forSlots_continues cfg _ _).trans cfg (Exec.forSlots_continues cfg _ _)).trans cfg
    (Exec.modify_continues cfg (finishCycle_slots cfg tick input _) _)

/-- Every cycle gets as far as planning on every slot. -/
theorem readingOps_isPrefix (tick : TickInfo) (input : CycleInput) (e : Engine) (i : Fin 3) :
    readingOps tick input e i <+: slotLog i (cycleAt cfg tick input e).log := by
  obtain ⟨y, -, hlog, ops, hcontinues, -⟩ := @cycleAt_reads cfg tick input e
  rw [hcontinues, slotLog_append, hlog]
  exact List.prefix_append _ _

end RandomClient
