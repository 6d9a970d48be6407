import Mathlib.Data.List.DropRight
import Mathlib.Logic.Relation
import RandomClient.Steps

/-!
# Signing inside the epoch window

Within one reported epoch the phase is a latch: it is Warmup until a cycle
reports the ready tick, then Active until a cycle falls into the stop window,
then Draining. `phaseOf` computes the phase from the cycles of the running epoch
alone, and the engine holds that phase after every run (`phase_of_cycles`).
First commits and continuations are signed in the phase Active only.
-/

namespace RandomClient

variable {cfg : Config}

/-! ## The stop window -/

/-- The instant lies in the second Wednesday 12:00:00. -/
def DateTime.IsWednesdayNoon (t : DateTime) : Prop :=
  t.weekday = 2 ∧ t.hour = 12 ∧ t.minute = 0 ∧ t.second = 0

/-- The time the given number of seconds later. -/
def DateTime.later (t : DateTime) (seconds : Nat) : DateTime where
  timestamp := t.timestamp + seconds

/-- The calendar fields count the seconds since Monday 00:00:00. -/
theorem DateTime.seconds_of_week (t : DateTime) :
    ((t.weekday * 86400 + t.hour * 3600 + t.minute * 60 + t.second : Nat) : Int) =
      (t.timestamp + 259200) % 604800 := by
  unfold DateTime.weekday DateTime.hour DateTime.minute DateTime.second
  omega

theorem DateTime.isWednesdayNoon_iff (t : DateTime) :
    t.IsWednesdayNoon ↔ (t.timestamp + 259200) % 604800 = 216000 := by
  unfold DateTime.IsWednesdayNoon DateTime.weekday DateTime.hour DateTime.minute DateTime.second
  omega

/-- The distance in whole seconds to the next Wednesday 12:00:00. -/
def DateTime.untilWednesdayNoon (t : DateTime) : Nat :=
  ((216000 - (t.timestamp + 259200)) % 604800).toNat

theorem DateTime.untilWednesdayNoon_isLeast (t : DateTime) :
    IsLeast {seconds | (t.later seconds).IsWednesdayNoon} t.untilWednesdayNoon := by
  constructor
  · show (t.later t.untilWednesdayNoon).IsWednesdayNoon
    rw [DateTime.isWednesdayNoon_iff]
    unfold DateTime.later DateTime.untilWednesdayNoon
    dsimp only
    omega
  · intro seconds hnoon
    have hnoon := (DateTime.isWednesdayNoon_iff _).1 hnoon
    unfold DateTime.later at hnoon
    unfold DateTime.untilWednesdayNoon
    dsimp only at hnoon
    omega

/-- The window is open exactly when the next boundary is no further than the
lead, which counts for a week at most. -/
theorem isEpochStopWindow_iff (now : DateTime) (stopLeadTimeSecs : Nat) :
    isEpochStopWindow now stopLeadTimeSecs = true ↔
      now.untilWednesdayNoon ≤ min stopLeadTimeSecs 604800 := by
  have hweek := now.seconds_of_week
  -- the source adds up the same seconds with the products written out
  have hseconds : now.weekday * (24 * 60 * 60) + now.hour * 60 * 60 + now.minute * 60 + now.second =
      now.weekday * 86400 + now.hour * 3600 + now.minute * 60 + now.second := by omega
  have hwindow : ∀ seconds : Nat, (seconds : Int) = (now.timestamp + 259200) % 604800 →
      (if seconds ≤ 216000 then 216000 - seconds else 604800 - (seconds - 216000)) =
        now.untilWednesdayNoon := by
    intro seconds hseconds
    unfold DateTime.untilWednesdayNoon
    split <;> omega
  unfold isEpochStopWindow
  dsimp only
  rw [hseconds, decide_eq_true_eq, ← hwindow _ hweek]

/-! ## The cycles of the running epoch -/

/-- What the phase of a cycle depends on: its tick report and its UTC time. -/
structure EpochReport where
  tick : TickInfo
  now : DateTime

def EngineInput.epochReport : EngineInput → Option EpochReport
  | .cycle input =>
    match input.tick with
    | .ok tick => some { tick := tick, now := input.now }
    | .error _ => none
  | .shutdown _ => none

/-- The reporting cycles of a run, in order. -/
def epochReports (inputs : List EngineInput) : List EpochReport :=
  inputs.filterMap EngineInput.epochReport

/-- The cycles since the reported epoch last changed. -/
def runningEpoch (inputs : List EngineInput) : List EpochReport :=
  match (epochReports inputs).getLast? with
  | some last => (epochReports inputs).rtakeWhile fun r => r.tick.epoch = last.tick.epoch
  | none => []

/-- The tick that ends the warmup, from the first report of the epoch. -/
def readyTick (cfg : Config) (cycles : List EpochReport) : Nat :=
  match cycles.head? with
  | some first => saturatingAdd first.tick.initialTick cfg.epochResumeDelayTicks
  | none => 0

/-- The cycles from the first one on that reported the ready tick. -/
def sinceReady (readyTick : Nat) (cycles : List EpochReport) : List EpochReport :=
  cycles.dropWhile fun r => r.tick.tick < readyTick

/-- The cycle falls into the stop window. -/
def EpochReport.stops (cfg : Config) (r : EpochReport) : Bool :=
  isEpochStopWindow r.now cfg.epochStopLeadTimeSecs

/-- The phase of an epoch after its cycles, once the first report fixed the ready tick. -/
def phaseFrom (cfg : Config) (epoch readyTick : Nat) (cycles : List EpochReport) : EpochPhase :=
  if sinceReady readyTick cycles = [] then .warmup epoch readyTick
  else if (sinceReady readyTick cycles).any (EpochReport.stops cfg) then .draining epoch
  else .active epoch

/-- The phase the cycles of the running epoch lead to. -/
def phaseOf (cfg : Config) (cycles : List EpochReport) : Option EpochPhase :=
  cycles.head?.map fun first => phaseFrom cfg first.tick.epoch (readyTick cfg cycles) cycles

/-! ### One more cycle -/

theorem sinceReady_snoc (readyTick : Nat) (cycles : List EpochReport) (r : EpochReport) :
    sinceReady readyTick (cycles ++ [r]) =
      if sinceReady readyTick cycles = [] ∧ r.tick.tick < readyTick then []
      else sinceReady readyTick cycles ++ [r] := by
  unfold sinceReady
  rw [List.dropWhile_append]
  by_cases hbefore : cycles.dropWhile (fun r => r.tick.tick < readyTick) = []
  · rw [hbefore, if_pos List.isEmpty_nil]
    by_cases htick : r.tick.tick < readyTick <;> simp [htick]
  · rw [if_neg (by simpa using hbefore), if_neg (fun h => hbefore h.1)]

/-- One more cycle of the epoch advances the phase as `update_epoch_phase` does. -/
theorem phaseFrom_snoc {epoch readyTick : Nat} {r : EpochReport} (hepoch : r.tick.epoch = epoch)
    (cycles : List EpochReport) :
    phaseFrom cfg epoch readyTick (cycles ++ [r]) =
      advancePhase cfg r.tick r.now (phaseFrom cfg epoch readyTick cycles) := by
  subst hepoch
  unfold phaseFrom advancePhase
  by_cases hwarm : sinceReady readyTick cycles = [] ∧ r.tick.tick < readyTick
  · -- the warmup goes on
    have hready : ¬ readyTick ≤ r.tick.tick := Nat.not_le.2 hwarm.2
    rw [sinceReady_snoc, if_pos hwarm, hwarm.1]
    simp [finishWarmup, enterStopWindow, hready]
  · have hafter : sinceReady readyTick cycles ++ [r] ≠ [] := by simp
    rw [sinceReady_snoc, if_neg hwarm, if_neg hafter, List.any_append, List.any_cons, List.any_nil,
      Bool.or_false]
    by_cases hbefore : sinceReady readyTick cycles = []
    · -- this cycle ends the warmup
      have hready : readyTick ≤ r.tick.tick := by
        by_contra hlt
        exact hwarm ⟨hbefore, Nat.not_le.1 hlt⟩
      rw [hbefore, if_pos rfl]
      cases hstop : r.stops cfg <;>
        simp_all [finishWarmup, enterStopWindow, EpochReport.stops]
    · rw [if_neg hbefore]
      cases hstopped : (sinceReady readyTick cycles).any (EpochReport.stops cfg) with
      | true => rfl
      | false =>
        cases hstop : r.stops cfg <;>
          simp_all [finishWarmup, enterStopWindow, EpochReport.stops]

theorem epochReports_snoc (inputs : List EngineInput) (input : EngineInput) :
    epochReports (inputs ++ [input]) = epochReports inputs ++ input.epochReport.toList := by
  simp only [epochReports, List.filterMap_append, List.filterMap_cons, List.filterMap_nil]
  cases input.epochReport <;> rfl

theorem runningEpoch_none {inputs : List EngineInput} {input : EngineInput}
    (h : input.epochReport = none) : runningEpoch (inputs ++ [input]) = runningEpoch inputs := by
  unfold runningEpoch
  rw [epochReports_snoc, h, Option.toList_none, List.append_nil]

/-- A report of the same epoch extends the running epoch. -/
theorem runningEpoch_same {inputs : List EngineInput} {input : EngineInput} {last r : EpochReport}
    (h : input.epochReport = some r) (hlast : (epochReports inputs).getLast? = some last)
    (hsame : last.tick.epoch = r.tick.epoch) :
    runningEpoch (inputs ++ [input]) = runningEpoch inputs ++ [r] := by
  unfold runningEpoch
  rw [epochReports_snoc, h, Option.toList_some, List.getLast?_concat, hlast]
  dsimp only
  rw [List.rtakeWhile_concat_pos _ _ _ (by simp), hsame]

/-- A report of another epoch opens a new one. -/
theorem runningEpoch_other {inputs : List EngineInput} {input : EngineInput} {r : EpochReport}
    (h : input.epochReport = some r)
    (hother : ∀ last ∈ (epochReports inputs).getLast?, last.tick.epoch ≠ r.tick.epoch) :
    runningEpoch (inputs ++ [input]) = [r] := by
  unfold runningEpoch
  rw [epochReports_snoc, h, Option.toList_some, List.getLast?_concat]
  dsimp only
  rw [List.rtakeWhile_concat_pos _ _ _ (by simp)]
  have hnone : (epochReports inputs).rtakeWhile (fun x => x.tick.epoch = r.tick.epoch) = [] := by
    rw [List.rtakeWhile_eq_nil_iff]
    intro hne
    have hlast := hother _ (List.getLast?_eq_some_getLast hne)
    simpa using hlast
  rw [hnone]
  rfl

/-! ## The engine holds the phase of its cycles -/

theorem reports_eq_epochReports (inputs : List EngineInput) :
    reports inputs = (epochReports inputs).map EpochReport.tick := by
  induction inputs with
  | nil => rfl
  | cons input inputs ih =>
    unfold reports epochReports at ih ⊢
    rw [List.filterMap_cons, List.filterMap_cons, ih]
    cases input with
    | shutdown env => rfl
    | cycle input =>
      simp only [EngineInput.report, EngineInput.epochReport]
      cases input.tick <;> rfl

/-- The running epoch starts with a report of its epoch. -/
theorem runningEpoch_head {inputs : List EngineInput} {last : EpochReport}
    (hlast : (epochReports inputs).getLast? = some last) :
    ∃ first rest, runningEpoch inputs = first :: rest ∧ first.tick.epoch = last.tick.epoch := by
  have hrunning : runningEpoch inputs =
      (epochReports inputs).rtakeWhile fun r => r.tick.epoch = last.tick.epoch := by
    unfold runningEpoch
    rw [hlast]
  cases hcycles : runningEpoch inputs with
  | nil =>
    rw [hcycles, eq_comm, List.rtakeWhile_eq_nil_iff] at hrunning
    have hne : epochReports inputs ≠ [] := by
      intro hnil
      rw [hnil] at hlast
      cases hlast
    have heq : (epochReports inputs).getLast hne = last := by
      rw [List.getLast?_eq_some_getLast hne] at hlast
      exact Option.some.inj hlast
    have hnot := hrunning hne
    rw [heq] at hnot
    simp at hnot
  | cons first rest =>
    refine ⟨first, rest, rfl, ?_⟩
    have hmem : first ∈ (epochReports inputs).rtakeWhile
        fun r => r.tick.epoch = last.tick.epoch := by
      rw [← hrunning, hcycles]
      exact List.mem_cons_self
    simpa using List.mem_rtakeWhile_imp hmem

/-- An engine holds the phase its running epoch leads to. -/
theorem phase_of_cycles (a b c : Nat) (inputs : List EngineInput) :
    ((engineMachine cfg).state (Engine.new cfg a b c) inputs).epochPhase =
      phaseOf cfg (runningEpoch inputs) := by
  induction inputs using List.reverseRecOn with
  | nil => rfl
  | append_singleton inputs input ih =>
    have hrecorded := epoch_of_reports cfg a b c inputs
    rw [Machine.state_snoc]
    generalize (engineMachine cfg).state (Engine.new cfg a b c) inputs = e at *
    change (engineStep cfg input e).engine.epochPhase = _
    cases input with
    | shutdown env =>
      rw [runningEpoch_none rfl, ← ih]
      exact Exec.forSlots_phase cfg _ _
    | cycle input =>
      cases htick : input.tick with
      | error err =>
        rw [runningEpoch_none (by simp [EngineInput.epochReport, htick]), ← ih]
        simp only [engineStep, cycle, htick]
      | ok tick =>
        have hreport : (EngineInput.cycle input).epochReport =
            some { tick := tick, now := input.now } := by
          simp only [EngineInput.epochReport, htick]
        simp only [engineStep, cycle, htick, cycleAt_phase]
        rw [reports_eq_epochReports, List.getLast?_map, Option.map_map] at hrecorded
        unfold phaseAfter epochChanges
        rw [hrecorded]
        by_cases hsame : (epochReports inputs).getLast?.map (TickInfo.epoch ∘ EpochReport.tick) =
            some tick.epoch
        · -- the epoch goes on
          rcases Option.map_eq_some_iff.1 hsame with ⟨last, hlast, hepoch⟩
          rcases runningEpoch_head hlast with ⟨first, rest, hcycles, hfirst⟩
          rw [if_neg (by simpa using hsame), ih, runningEpoch_same hreport hlast hepoch, hcycles]
          have hnext := @phaseFrom_snoc cfg first.tick.epoch (readyTick cfg (first :: rest))
            { tick := tick, now := input.now } (hepoch.symm.trans hfirst.symm) (first :: rest)
          exact congrArg some hnext.symm
        · rw [if_pos (by simpa using hsame), runningEpoch_other hreport]
          · exact congrArg some (@phaseFrom_snoc cfg _ _ { tick := tick, now := input.now } rfl []).symm
          · intro last hlast hepoch
            apply hsame
            rw [Option.mem_def.1 hlast]
            exact congrArg some hepoch

/-! ## The latch -/

/-- The moves of the phase within an epoch. -/
inductive EpochPhase.Moves : EpochPhase → EpochPhase → Prop where
  | finishWarmup {epoch readyTick : Nat} : Moves (.warmup epoch readyTick) (.active epoch)
  | enterStopWindow {epoch : Nat} : Moves (.active epoch) (.draining epoch)

theorem advancePhase_moves (tick : TickInfo) (now : DateTime) (phase : EpochPhase) :
    Relation.ReflTransGen EpochPhase.Moves phase (advancePhase cfg tick now phase) := by
  have hwarm : Relation.ReflTransGen EpochPhase.Moves phase (finishWarmup tick phase) := by
    unfold finishWarmup
    split
    · split
      · rename_i hready
        rw [← hready.1]
        exact .single .finishWarmup
      · exact .refl
    · exact .refl
  have hstop : ∀ phase : EpochPhase,
      Relation.ReflTransGen EpochPhase.Moves phase (enterStopWindow cfg tick now phase) := by
    intro phase
    unfold enterStopWindow
    split
    · split
      · rename_i hwindow
        rw [← hwindow.1]
        exact .single .enterStopWindow
      · exact .refl
    · exact .refl
  exact hwarm.trans (hstop _)

/-- Reports of one epoch move the phase forwards only. -/
theorem phase_moves (a b c : Nat) {before later : List EngineInput} {epoch : Nat}
    (hbefore : (reports before).getLast?.map TickInfo.epoch = some epoch)
    (hlater : ∀ tick ∈ reports later, tick.epoch = epoch) :
    ∃ phase phase', ((engineMachine cfg).state (Engine.new cfg a b c) before).epochPhase =
        some phase ∧
      ((engineMachine cfg).state (Engine.new cfg a b c) (before ++ later)).epochPhase =
        some phase' ∧
      phase.epoch = epoch ∧ phase'.epoch = epoch ∧
      Relation.ReflTransGen EpochPhase.Moves phase phase' := by
  induction later using List.reverseRecOn with
  | nil =>
    have hrecorded := epoch_of_reports cfg a b c before
    rw [hbefore] at hrecorded
    rcases Option.map_eq_some_iff.1 hrecorded with ⟨phase, hphase, hepoch⟩
    exact ⟨phase, phase, hphase, by rw [List.append_nil, hphase], hepoch, hepoch, .refl⟩
  | append_singleton later input ih =>
    rw [reports_snoc] at hlater
    rcases ih fun tick hmem => hlater tick (List.mem_append_left _ hmem) with
      ⟨phase, phase', hphase, hphase', hepoch, hepoch', hmoves⟩
    rw [← List.append_assoc, Machine.state_snoc]
    generalize (engineMachine cfg).state (Engine.new cfg a b c) (before ++ later) = e at *
    change ∃ _ phase'', _ ∧ (engineStep cfg input e).engine.epochPhase = some phase'' ∧ _
    have hidle : (engineStep cfg input e).engine.epochPhase = e.epochPhase →
        ∃ phase phase'', ((engineMachine cfg).state (Engine.new cfg a b c) before).epochPhase =
            some phase ∧ (engineStep cfg input e).engine.epochPhase = some phase'' ∧
          phase.epoch = epoch ∧ phase''.epoch = epoch ∧
          Relation.ReflTransGen EpochPhase.Moves phase phase'' := by
      intro hsame
      exact ⟨phase, phase', hphase, hsame.trans hphase', hepoch, hepoch', hmoves⟩
    cases input with
    | shutdown env => exact hidle (Exec.forSlots_phase cfg _ _)
    | cycle input =>
      cases htick : input.tick with
      | error err => exact hidle (by simp only [engineStep, cycle, htick])
      | ok tick =>
        have hreported : tick.epoch = epoch :=
          hlater tick (List.mem_append_right _ (by simp [EngineInput.report, htick]))
        refine ⟨phase, advancePhase cfg tick input.now phase', hphase, ?_, hepoch, ?_,
          hmoves.trans (advancePhase_moves tick input.now phase')⟩
        · simp only [engineStep, cycle, htick, cycleAt_phase]
          have hsame : epochChanges e tick = false := by
            simp [epochChanges, hphase', hepoch', hreported]
          rw [phaseAfter, hsame, hphase']
          rfl
        · rw [advancePhase_epoch]
          exact hepoch'

/-! ## Signing -/

/-- The effects of one step of a run on one stream. -/
def stepTrace (cfg : Config) (e : Engine) (input : EngineInput) (i : Fin 3) : List Effect :=
  (slotMachine cfg).trace (e.slots i) (slotLog i (engineStep cfg input e).log)

/-- The operations that sign a first commit or a continuation. -/
def SlotOp.plans : SlotOp → Bool
  | .startIfReady _ _ | .extendChain _ _ => true
  | _ => false

theorem plans_of_signed {slot : ManagedSlot} {op : SlotOp} {call : SignedCall}
    (hsigned : Effect.signed call ∈ (op.run cfg slot).effects)
    (hkind : call.kind ≠ .terminalReveal) : op.plans = true := by
  rcases SlotOp.emits hsigned with hnote | hemits
  · cases hnote
  · cases hemits with
    | closes hterminal => exact absurd hterminal hkind
    | starts => rfl
    | continues => rfl

/-- A cycle plans only in the phase Active and without a shutdown request. -/
theorem active_of_plans {tick : TickInfo} {input : CycleInput} {e : Engine} {i : Fin 3}
    {op : SlotOp} (hmem : op ∈ cycleOps cfg tick input e i) (hplans : op.plans = true) :
    input.cancelled = false ∧ phaseAfter cfg tick input e = some (.active tick.epoch) := by
  simp only [cycleOps, List.mem_append, List.mem_singleton] at hmem
  rcases hmem with (((hmem | rfl) | hmem) | hmem) | hmem
  · split at hmem
    · rw [List.mem_singleton.1 hmem] at hplans
      cases hplans
    · cases hmem
  · cases hplans
  · unfold statusOps at hmem
    repeat' split at hmem
    · rw [List.mem_singleton.1 hmem] at hplans
      cases hplans
    · cases hmem
    · cases hmem
  · -- the planning operations: normal planning is the branch that signs
    unfold planOf at hmem
    split at hmem
    · rw [planOps, List.mem_singleton] at hmem
      rw [hmem] at hplans
      cases hplans
    · rename_i hcancelled
      split at hmem
      · rw [planOps, List.mem_singleton] at hmem
        rw [hmem] at hplans
        cases hplans
      · split at hmem
        · rename_i hactive
          exact ⟨by simpa using hcancelled, hactive⟩
        · cases hmem
  · simp only [deliveryOps, List.mem_cons, List.not_mem_nil, or_false] at hmem
    rcases hmem with rfl | rfl | rfl | rfl | rfl <;> cases hplans

/-- In the phase Active the warmup ended in this epoch, and no cycle since then
fell into the stop window. -/
theorem active_phaseOf {cycles : List EpochReport} {epoch : Nat}
    (h : phaseOf cfg cycles = some (.active epoch)) :
    ∃ early first late, cycles = early ++ first :: late ∧
      (∀ r ∈ early, r.tick.tick < readyTick cfg cycles) ∧
      readyTick cfg cycles ≤ first.tick.tick ∧ ∀ r ∈ first :: late, r.stops cfg = false := by
  unfold phaseOf at h
  rcases Option.map_eq_some_iff.1 h with ⟨opening, -, hphase⟩
  unfold phaseFrom at hphase
  split at hphase
  · cases hphase
  · rename_i hsince
    split at hphase
    · cases hphase
    · rename_i hstops
      unfold sinceReady at hsince hstops
      let early := cycles.takeWhile fun r => decide (r.tick.tick < readyTick cfg cycles)
      have hsplit : early ++ cycles.dropWhile (fun r => decide (r.tick.tick <
          readyTick cfg cycles)) = cycles := List.takeWhile_append_dropWhile
      have hearly : ∀ r ∈ early, r.tick.tick < readyTick cfg cycles := by
        intro r hmem
        simpa using List.mem_takeWhile_imp hmem
      have hfirst := List.head_dropWhile_not
        (fun r : EpochReport => decide (r.tick.tick < readyTick cfg cycles)) hsince
      cases hdrop : cycles.dropWhile fun r => decide (r.tick.tick < readyTick cfg cycles) with
      | nil => exact absurd hdrop hsince
      | cons first late =>
        simp only [hdrop, List.head_cons, decide_eq_false_iff_not, not_lt] at hfirst
        rw [hdrop] at hsplit hstops
        refine ⟨early, first, late, hsplit.symm, hearly, hfirst, ?_⟩
        intro r hmem
        by_contra hstop
        exact hstops (List.any_eq_true.2 ⟨r, hmem, by simpa using hstop⟩)

/-- Within a reported epoch the phase only moves from Warmup to Active and from
Active to Draining; a first commit or a continuation is signed in a cycle only
if some cycle of the epoch up to it reported the ready tick, none from that
cycle on fell into the stop window, and no shutdown was requested; and the stop
window is open exactly when the next Wednesday 12:00:00 is at most the lead
away, which counts for a week at most. -/
theorem signing_inside_epoch_window (cfg : Config) (a b c : Nat) :
    (∀ before later epoch, (reports before).getLast?.map TickInfo.epoch = some epoch →
      (∀ tick ∈ reports later, tick.epoch = epoch) →
      ∃ phase phase', ((engineMachine cfg).state (Engine.new cfg a b c) before).epochPhase =
          some phase ∧
        ((engineMachine cfg).state (Engine.new cfg a b c) (before ++ later)).epochPhase =
          some phase' ∧
        phase.epoch = epoch ∧ phase'.epoch = epoch ∧
        Relation.ReflTransGen EpochPhase.Moves phase phase') ∧
    (∀ before input i call,
      Effect.signed call ∈
        stepTrace cfg ((engineMachine cfg).state (Engine.new cfg a b c) before) input i →
      (call.kind = .firstCommit ∨ call.kind = .revealAndCommit) →
      ∃ cycleInput tick, input = .cycle cycleInput ∧ cycleInput.tick = .ok tick ∧
        cycleInput.cancelled = false ∧
        ∃ opening rest early first late,
          runningEpoch (before ++ [input]) = opening :: rest ∧
          opening :: rest = early ++ first :: late ∧
          (∀ r ∈ early, r.tick.tick <
            saturatingAdd opening.tick.initialTick cfg.epochResumeDelayTicks) ∧
          saturatingAdd opening.tick.initialTick cfg.epochResumeDelayTicks ≤ first.tick.tick ∧
          ∀ r ∈ first :: late, isEpochStopWindow r.now cfg.epochStopLeadTimeSecs = false) ∧
    (∀ now stopLeadTimeSecs, isEpochStopWindow now stopLeadTimeSecs = true ↔
      ∃ distance, IsLeast {seconds | (now.later seconds).IsWednesdayNoon} distance ∧
        distance ≤ min stopLeadTimeSecs 604800) := by
  refine ⟨?_, ?_, ?_⟩
  · intro before later epoch hbefore hlater
    exact phase_moves a b c hbefore hlater
  · intro before input i call hsigned hkind
    have hnormal : call.kind ≠ .terminalReveal := by
      rcases hkind with hkind | hkind <;> simp [hkind]
    rcases Machine.mem_trace _ hsigned with ⟨pre, op, post, hlog, heffect⟩
    have hplans := plans_of_signed heffect hnormal
    have hmem : op ∈ slotLog i (engineStep cfg input
        ((engineMachine cfg).state (Engine.new cfg a b c) before)).log := by
      rw [hlog]
      simp
    have hphase := @phase_of_cycles cfg a b c (before ++ [input])
    rw [Machine.state_snoc] at hphase
    generalize (engineMachine cfg).state (Engine.new cfg a b c) before = e at *
    rcases engineStep_ops cfg input e i with
      ⟨tick, cycleInput, hreport, rfl, hbegun⟩ | ⟨-, hnil | ⟨env, hdrain⟩⟩
    · rcases active_of_plans (hbegun.subset hmem) hplans with ⟨hcancelled, hactive⟩
      have htick : cycleInput.tick = .ok tick := by
        unfold EngineInput.report at hreport
        dsimp only at hreport
        split at hreport
        · rename_i tick' htick
          cases hreport
          exact htick
        · cases hreport
      have hphase : (engineStep cfg (.cycle cycleInput) e).engine.epochPhase = _ := hphase
      simp only [engineStep, cycle, htick, cycleAt_phase] at hphase
      rw [hactive] at hphase
      rcases active_phaseOf hphase.symm with ⟨early, first, late, hsplit, hearly, hfirst, hlate⟩
      refine ⟨cycleInput, tick, rfl, htick, hcancelled, ?_⟩
      rcases hcycles : runningEpoch (before ++ [.cycle cycleInput]) with _ | ⟨opening, rest⟩
      · rw [hcycles] at hsplit
        simp at hsplit
      · rw [hcycles] at hsplit hearly hfirst
        exact ⟨opening, rest, early, first, late, hcycles, hsplit, hearly, hfirst, hlate⟩
    · rw [hnil] at hmem
      cases hmem
    · rw [hdrain, List.mem_singleton] at hmem
      rw [hmem] at hplans
      cases hplans
  · intro now stopLeadTimeSecs
    rw [isEpochStopWindow_iff]
    constructor
    · intro hle
      exact ⟨_, now.untilWednesdayNoon_isLeast, hle⟩
    · rintro ⟨distance, hleast, hle⟩
      rw [hleast.unique now.untilWednesdayNoon_isLeast] at hle
      exact hle

end RandomClient
