import RandomClient.Ledger
import RandomClient.Lib.Tally
import RandomClient.Steps

/-!
# Conservation of the delivery counters

`send_stats` mirrors `send_outcomes` by pairs of a decrement and an increment,
and is kept when the map is cleared for a new epoch. After any operations on the
monitoring fields each counter is the number of targets with its outcome, those
of earlier epochs included (`counted`), and the checks only ever concern
targets that have an outcome (`Monitor.Covered`).
-/

namespace RandomClient

variable {cfg : Config}

instance : Fintype SendOutcome where
  elems := {.ok, .failed, .empty}
  complete := by
    intro outcome
    cases outcome <;> decide

/-! ## Single counters -/

/-- The counter of an outcome. -/
def SendStats.count (stats : SendStats) : SendOutcome → Nat
  | .ok => stats.ok
  | .failed => stats.failed
  | .empty => stats.empty

/-- `ok + failed + empty`. -/
def SendStats.total (stats : SendStats) : Nat := stats.ok + stats.failed + stats.empty

theorem SendStats.total_eq_sum (stats : SendStats) : stats.total = ∑ o, stats.count o := by
  have hsum : ∑ o, stats.count o = stats.count .ok + (stats.count .failed + stats.count .empty) := by
    rfl
  rw [hsum, ← Nat.add_assoc]
  rfl

theorem SendStats.count_increment {stats : SendStats} {o : SendOutcome}
    (h : stats.count o < u64Max) (o' : SendOutcome) :
    (stats.increment o).count o' = stats.count o' + if o' = o then 1 else 0 := by
  have hsat : ∀ n : Nat, n < u64Max → Bounded.saturatingAdd u64Max n 1 = n + 1 := by
    intro n hn
    unfold Bounded.saturatingAdd
    omega
  cases o <;> cases o' <;>
    simp_all [SendStats.increment, SendStats.count]

theorem SendStats.count_decrement (stats : SendStats) (o o' : SendOutcome) :
    (stats.decrement o).count o' = stats.count o' - if o' = o then 1 else 0 := by
  cases o <;> cases o' <;> rfl

/-! ## What an operation records -/

/-- The one call of `record_send_outcome` an operation makes, if it makes one. -/
def MonitorOp.records (m : Monitor) : MonitorOp → Option (Nat × SendOutcome)
  | .effect (.recordedOk target) => some (target, .ok)
  | .effect (.financialFailure target) => some (target, .failed)
  | .harvestTickCheck (some (.ok observation)) _ =>
    if observation.hasTransactions then none
    else m.tickCheck.map fun check => (check.targetTick, .empty)
  | _ => none

/-- The operation ends an epoch. -/
def MonitorOp.isReset : MonitorOp → Bool
  | .reset _ _ => true
  | _ => false

/-- Two monitors with the same counters and outcomes. -/
structure Monitor.SameBooks (m m' : Monitor) : Prop where
  stats : m'.sendStats = m.sendStats
  outcomes : m'.sendOutcomes = m.sendOutcomes

theorem queueTickCheck_books (target : Nat) (m : Monitor) :
    m.SameBooks (m.queueTickCheck target) := by
  unfold Monitor.queueTickCheck
  split <;> exact ⟨rfl, rfl⟩

theorem ensureTickCheck_books (currentTick expireAt now : Nat) (m : Monitor) :
    m.SameBooks (m.ensureTickCheck cfg currentTick expireAt now) := by
  unfold Monitor.ensureTickCheck
  dsimp only
  repeat' split
  all_goals exact ⟨rfl, rfl⟩

/-- Within an epoch counters and outcomes change by `record_send_outcome` only. -/
theorem MonitorOp.run_books {op : MonitorOp} (h : op.isReset = false) (m : Monitor) :
    (match op.records m with
      | some (target, outcome) => m.recordSendOutcome target outcome
      | none => m).SameBooks (op.run cfg m) := by
  cases op with
  | reset => cases h
  | effect e =>
    cases e with
    | recordedOk target => exact queueTickCheck_books target _
    | financialFailure target => exact queueTickCheck_books target _
    | digest target txBytes =>
      simp only [MonitorOp.records, MonitorOp.run, Monitor.applyEffect]
      cases m.targetDigests target <;> exact ⟨rfl, rfl⟩
    | _ => exact ⟨rfl, rfl⟩
  | expireTickChecks => exact ⟨rfl, rfl⟩
  | ensureTickCheck currentTick expireAt now => exact ensureTickCheck_books currentTick expireAt now m
  | harvestTickCheck result now =>
    simp only [MonitorOp.run, Monitor.harvestTickCheck]
    cases hcheck : m.tickCheck with
    | none =>
      rcases result with _ | (err | observation)
      · exact ⟨rfl, rfl⟩
      · exact ⟨rfl, rfl⟩
      · simp only [MonitorOp.records, hcheck]
        cases observation.hasTransactions <;> exact ⟨rfl, rfl⟩
    | some check =>
      rcases result with _ | (err | observation)
      · exact ⟨rfl, rfl⟩
      · exact ⟨rfl, rfl⟩
      · simp only [MonitorOp.records, hcheck]
        cases observation.hasTransactions with
        | true => exact ⟨rfl, rfl⟩
        | false =>
          -- the recording reads and writes other fields than the rest of the harvest
          simp only [Bool.false_eq_true, if_false, Option.map_some, Monitor.recordSendOutcome]
          split <;> exact ⟨rfl, rfl⟩

/-! ## Outcomes of an epoch -/

/-- The moves of a target's outcome. -/
inductive SendOutcome.Lowers : SendOutcome → SendOutcome → Prop where
  | okFailed : Lowers .ok .failed
  | okEmpty : Lowers .ok .empty
  | failedEmpty : Lowers .failed .empty

theorem transitionAllowed_some {previous next : SendOutcome} :
    transitionAllowed (some previous) next = true ↔ previous.Lowers next := by
  constructor
  · intro h
    cases previous <;> cases next <;>
      first
      | exact .okFailed
      | exact .okEmpty
      | exact .failedEmpty
      | cases h
  · intro h
    cases h <;> rfl

theorem SendOutcome.Lowers.ne {previous next : SendOutcome} (h : previous.Lowers next) :
    previous ≠ next := by
  cases h <;> exact SendOutcome.noConfusion

/-- What `record_send_outcome` does: nothing to a target whose outcome may not
move, one more target, or one target moved. -/
theorem recordSendOutcome_cases (target : Nat) (next : SendOutcome) (m : Monitor) :
    (m.recordSendOutcome target next = m ∧ (m.sendOutcomes.lookup target).isSome) ∨
    (m.sendOutcomes.lookup target = none ∧ m.recordSendOutcome target next =
      { m with
        sendStats := m.sendStats.increment next
        sendOutcomes := m.sendOutcomes.insert target next }) ∨
    ∃ previous, m.sendOutcomes.lookup target = some previous ∧ previous.Lowers next ∧
      m.recordSendOutcome target next =
        { m with
          sendStats := (m.sendStats.decrement previous).increment next
          sendOutcomes := m.sendOutcomes.insert target next } := by
  unfold Monitor.recordSendOutcome
  cases hprevious : m.sendOutcomes.lookup target with
  | none => exact .inr (.inl ⟨rfl, rfl⟩)
  | some previous =>
    dsimp only
    by_cases hallowed : transitionAllowed (some previous) next = true
    · rw [if_pos hallowed]
      exact .inr (.inr ⟨previous, rfl, transitionAllowed_some.1 hallowed, rfl⟩)
    · rw [if_neg hallowed]
      exact .inl ⟨rfl, rfl⟩

/-- How an operation within an epoch treats the outcome of a target. -/
inductive OutcomeStep : Option SendOutcome → Option SendOutcome → Prop where
  | same {outcome : Option SendOutcome} : OutcomeStep outcome outcome
  | first {outcome : SendOutcome} : OutcomeStep none (some outcome)
  | lower {previous next : SendOutcome} (h : previous.Lowers next) :
      OutcomeStep (some previous) (some next)

theorem recordSendOutcome_step (target : Nat) (next : SendOutcome) (m : Monitor) (other : Nat) :
    OutcomeStep (m.sendOutcomes.lookup other)
      ((m.recordSendOutcome target next).sendOutcomes.lookup other) := by
  rcases recordSendOutcome_cases target next m with ⟨hsame, -⟩ | ⟨hnone, hnew⟩ |
    ⟨previous, hprevious, hlowers, hmoved⟩
  · rw [hsame]
    exact .same
  · rw [hnew]
    by_cases hother : other = target
    · subst hother
      rw [AList.lookup_insert, hnone]
      exact .first
    · rw [AList.lookup_insert_ne hother]
      exact .same
  · rw [hmoved]
    by_cases hother : other = target
    · subst hother
      rw [AList.lookup_insert, hprevious]
      exact .lower hlowers
    · rw [AList.lookup_insert_ne hother]
      exact .same

/-- Within an epoch no outcome moves back. -/
theorem MonitorOp.outcome_step {op : MonitorOp} (h : op.isReset = false) (m : Monitor)
    (target : Nat) : OutcomeStep (m.sendOutcomes.lookup target)
      ((op.run cfg m).sendOutcomes.lookup target) := by
  rw [(@MonitorOp.run_books cfg op h m).outcomes]
  split
  · exact recordSendOutcome_step _ _ m target
  · exact .same

/-! ## Checks concern recorded targets -/

/-- A check of the target is waiting, ready or active. -/
def Monitor.Watches (m : Monitor) (target : Nat) : Prop :=
  target ∈ m.pendingTickChecks ∨ (∃ check ∈ m.readyTickChecks, check.targetTick = target) ∨
    ∃ check, m.tickCheck = some check ∧ check.targetTick = target

/-- Every target that is watched has an outcome. -/
def Monitor.Covered (m : Monitor) : Prop :=
  ∀ target, m.Watches target → (m.sendOutcomes.lookup target).isSome

theorem mem_insertSorted {target tick : Nat} {ticks : List Nat}
    (h : tick ∈ insertSorted target ticks) : tick = target ∨ tick ∈ ticks := by
  unfold insertSorted at h
  split at h
  · exact .inr h
  · exact (List.mem_orderedInsert (· ≤ ·)).1 h

theorem queueTickCheck_watches {target tick : Nat} {m : Monitor}
    (h : (m.queueTickCheck target).Watches tick) : tick = target ∨ m.Watches tick := by
  unfold Monitor.queueTickCheck at h
  split at h
  · rcases h with hpending | hrest
    · rcases mem_insertSorted hpending with hnew | hold
      · exact .inl hnew
      · exact .inr (.inl hold)
    · exact .inr (.inr hrest)
  · exact .inr h

theorem recordSendOutcome_watches {target tick : Nat} {next : SendOutcome} {m : Monitor} :
    (m.recordSendOutcome target next).Watches tick ↔ m.Watches tick := by
  unfold Monitor.recordSendOutcome
  dsimp only
  split <;> rfl

theorem expireTickChecks_watches {currentTick now tick : Nat} {m : Monitor}
    (h : (m.expireTickChecks cfg currentTick now).Watches tick) : m.Watches tick := by
  rcases h with hpending | ⟨check, hready, htarget⟩ | ⟨check, hactive, htarget⟩
  · exact .inl (List.mem_filter.1 hpending).1
  · exact .inr (.inl ⟨check, (List.mem_filter.1 hready).1, htarget⟩)
  · exact .inr (.inr ⟨check, (Option.filter_eq_some_iff.1 hactive).1, htarget⟩)

theorem mem_insertReady {check other : ReadyTickCheck} {ready : List ReadyTickCheck}
    (h : other ∈ insertReady check ready) : other = check ∨ other ∈ ready := by
  rcases List.mem_append.1 h with hold | hnew
  · exact .inr (List.mem_filter.1 hold).1
  · exact .inl (List.mem_singleton.1 hnew)

theorem harvestTickCheck_watches {result : Option (Except String TickTransactions)}
    {now tick : Nat} {m : Monitor} (h : (m.harvestTickCheck result now).Watches tick) :
    m.Watches tick := by
  unfold Monitor.harvestTickCheck at h
  split at h
  · rename_i check observation hcheck
    -- a finished check is gone
    have hgone : ∀ m' : Monitor, m'.pendingTickChecks = m.pendingTickChecks →
        m'.readyTickChecks = m.readyTickChecks → m'.tickCheck = none →
          m'.Watches tick → m.Watches tick := by
      intro m' hpending hready hactive hwatches
      rcases hwatches with hmem | hmem | ⟨check', hmem, -⟩
      · exact .inl (hpending ▸ hmem)
      · exact .inr (.inl (hready ▸ hmem))
      · rw [hactive] at hmem
        cases hmem
    dsimp only at h
    split at h
    · refine hgone _ ?_ ?_ ?_ h <;> rfl
    · have hwatches := recordSendOutcome_watches.1 h
      refine hgone _ ?_ ?_ ?_ hwatches <;> rfl
  · rename_i check err hcheck
    rcases h with hpending | ⟨ready, hready, htarget⟩ | ⟨check', hactive, -⟩
    · exact .inl hpending
    · rcases mem_insertReady hready with rfl | hold
      · exact .inr (.inr ⟨check, hcheck, htarget⟩)
      · exact .inr (.inl ⟨ready, hold, htarget⟩)
    · cases hactive
  · exact h

theorem mem_promoted {now : Nat} {eligible : List Nat} {ready : List ReadyTickCheck}
    {check : ReadyTickCheck}
    (h : check ∈ eligible.foldl (fun ready target =>
      insertReady { retryAt := now, targetTick := target, failures := 0 } ready) ready) :
    check ∈ ready ∨ check.targetTick ∈ eligible := by
  induction eligible generalizing ready with
  | nil => exact .inl h
  | cons target eligible ih =>
    rcases ih h with hready | heligible
    · rcases mem_insertReady hready with rfl | hold
      · exact .inr List.mem_cons_self
      · exact .inl hold
    · exact .inr (List.mem_cons_of_mem _ heligible)

theorem newestReady_mem {ready : List ReadyTickCheck} {check : ReadyTickCheck}
    (h : newestReady ready = some check) : check ∈ ready := by
  induction ready generalizing check with
  | nil => cases h
  | cons first ready ih =>
    unfold newestReady at h
    split at h
    · cases h
      exact List.mem_cons_self
    · rename_i best hbest
      split at h
      · cases h
        exact List.mem_cons_self
      · cases h
        exact List.mem_cons_of_mem _ (ih hbest)

theorem ensureTickCheck_watches {currentTick expireAt now tick : Nat} {m : Monitor}
    (h : (m.ensureTickCheck cfg currentTick expireAt now).Watches tick) : m.Watches tick := by
  apply @expireTickChecks_watches cfg currentTick expireAt
  unfold Monitor.ensureTickCheck at h
  generalize m.expireTickChecks cfg currentTick expireAt = m at *
  dsimp only at h
  split at h
  · exact h
  · -- the waiting checks that became eligible are ready now
    rename_i hidle
    have hnone : m.tickCheck = none := by
      by_contra hsome
      exact hidle (.inl (Option.isSome_iff_ne_none.2 hsome))
    have hpromoted : ∀ check ∈ (m.pendingTickChecks.takeWhile fun target =>
        saturatingAdd target cfg.revealCheckDelayTicks ≤ currentTick).foldl (fun ready target =>
          insertReady { retryAt := now, targetTick := target, failures := 0 } ready)
            m.readyTickChecks, m.Watches check.targetTick := by
      intro check hmem
      rcases mem_promoted hmem with hready | heligible
      · exact .inr (.inl ⟨check, hready, rfl⟩)
      · exact .inl ((List.takeWhile_sublist _).subset heligible)
    split at h
    · rcases h with hpending | ⟨check, hready, rfl⟩ | ⟨check, hactive, -⟩
      · exact .inl (List.mem_of_mem_drop hpending)
      · exact hpromoted check hready
      · rw [hnone] at hactive
        cases hactive
    · rename_i newest hnewest
      rcases h with hpending | ⟨check, hready, rfl⟩ | ⟨check, hactive, rfl⟩
      · exact .inl (List.mem_of_mem_drop hpending)
      · exact hpromoted check (List.mem_filter.1 hready).1
      · cases hactive
        exact hpromoted newest (List.mem_filter.1 (newestReady_mem hnewest)).1

/-- Within an epoch a target with an outcome keeps having one. -/
theorem OutcomeStep.isSome {before after : Option SendOutcome} (h : OutcomeStep before after)
    (hsome : before.isSome) : after.isSome := by
  cases h with
  | same => exact hsome
  | first => rfl
  | lower => rfl

theorem recordSendOutcome_recorded (target : Nat) (next : SendOutcome) (m : Monitor) :
    ((m.recordSendOutcome target next).sendOutcomes.lookup target).isSome := by
  rcases recordSendOutcome_cases target next m with ⟨hsame, hsome⟩ | ⟨-, hnew⟩ | ⟨_, -, -, hmoved⟩
  · rw [hsame]
    exact hsome
  · rw [hnew, AList.lookup_insert]
    rfl
  · rw [hmoved, AList.lookup_insert]
    rfl

/-- A target is recorded before its check is queued. -/
theorem Monitor.Covered.record {m : Monitor} (h : m.Covered) (target : Nat) (next : SendOutcome) :
    ((m.recordSendOutcome target next).queueTickCheck target).Covered := by
  intro tick hwatches
  rw [(queueTickCheck_books target _).outcomes]
  rcases queueTickCheck_watches hwatches with rfl | hwatches
  · exact recordSendOutcome_recorded tick next m
  · exact (recordSendOutcome_step target next m tick).isSome
      (h tick (recordSendOutcome_watches.1 hwatches))

theorem MonitorOp.covered (op : MonitorOp) {m : Monitor} (h : m.Covered) :
    (op.run cfg m).Covered := by
  -- an operation that watches nothing new
  have hold : op.isReset = false →
      (∀ tick, (op.run cfg m).Watches tick → m.Watches tick) → (op.run cfg m).Covered := by
    intro hreset hwatches tick hafter
    exact (op.outcome_step hreset m tick).isSome (h tick (hwatches tick hafter))
  cases op with
  | reset tickCheckAt monitorLogAt =>
    rintro tick (hpending | ⟨check, hready, -⟩ | ⟨check, hactive, -⟩)
    · cases hpending
    · cases hready
    · cases hactive
  | expireTickChecks currentTick now => exact hold rfl fun _ => expireTickChecks_watches
  | harvestTickCheck result now => exact hold rfl fun _ => harvestTickCheck_watches
  | ensureTickCheck currentTick expireAt now => exact hold rfl fun _ => ensureTickCheck_watches
  | effect e =>
    cases e with
    | recordedOk target => exact h.record target .ok
    | financialFailure target => exact h.record target .failed
    | digest target txBytes =>
      apply hold rfl
      intro tick hwatches
      simp only [MonitorOp.run, Monitor.applyEffect] at hwatches
      cases hdigest : m.targetDigests target with
      | none =>
        rw [hdigest] at hwatches
        exact hwatches
      | some _ =>
        rw [hdigest] at hwatches
        exact hwatches
    | _ => exact h

theorem covered_of_ops (ops : List MonitorOp) (tickCheckAt monitorLogAt : Nat) :
    ((monitorMachine cfg).state (Monitor.new tickCheckAt monitorLogAt) ops).Covered := by
  refine (monitorMachine cfg).state_invariant _ Monitor.Covered ?_ ?_ ops
  · rintro tick (hpending | ⟨check, hready, -⟩ | ⟨check, hactive, -⟩)
    · cases hpending
    · cases hready
    · cases hactive
  · intro m op h
    exact op.covered h

/-! ## The counters count targets -/

/-- The outcomes of one epoch. -/
abbrev Outcomes := AList fun _ : Nat => SendOutcome

/-- The outcomes of the epochs that ended, as each reset found them. -/
def earlierOutcomes (cfg : Config) (m : Monitor) (ops : List MonitorOp) : List Outcomes :=
  (monitorMachine cfg).track
    (fun m op earlier => if op.isReset then earlier ++ [m.sendOutcomes] else earlier) m [] ops

/-- How many targets of the epochs have the outcome. -/
def counted (epochs : List Outcomes) (o : SendOutcome) : Nat :=
  (epochs.map fun outcomes => (Tally.classed outcomes o).card).sum

/-- How many targets of the epochs have an outcome. -/
def recorded (epochs : List Outcomes) : Nat :=
  (epochs.map fun outcomes => (Tally.keySet outcomes).card).sum

/-- The counters mirror the outcomes of the earlier epochs and of the running one. -/
def CounterInv (earlier : List Outcomes) (m : Monitor) : Prop :=
  ∀ o, m.sendStats.count o = counted earlier o + (Tally.classed m.sendOutcomes o).card

theorem counted_snoc (epochs : List Outcomes) (outcomes : Outcomes) (o : SendOutcome) :
    counted (epochs ++ [outcomes]) o = counted epochs o + (Tally.classed outcomes o).card := by
  simp [counted]

theorem recorded_snoc (epochs : List Outcomes) (outcomes : Outcomes) :
    recorded (epochs ++ [outcomes]) = recorded epochs + (Tally.keySet outcomes).card := by
  simp [recorded]

theorem counted_le (epochs : List Outcomes) (o : SendOutcome) :
    counted epochs o ≤ recorded epochs := by
  induction epochs using List.reverseRecOn with
  | nil => exact le_rfl
  | append_singleton epochs outcomes ih =>
    rw [counted_snoc, recorded_snoc]
    exact Nat.add_le_add ih (Finset.card_le_card (Tally.classed_subset outcomes o))

theorem sum_counted (epochs : List Outcomes) : ∑ o, counted epochs o = recorded epochs := by
  induction epochs using List.reverseRecOn with
  | nil => rfl
  | append_singleton epochs outcomes ih =>
    simp only [counted_snoc, recorded_snoc]
    rw [Finset.sum_add_distrib, ih, Tally.sum_card_classed]

/-- `ok + failed + empty` is the number of recorded targets. -/
theorem CounterInv.total {earlier : List Outcomes} {m : Monitor} (h : CounterInv earlier m) :
    m.sendStats.total = recorded earlier + (Tally.keySet m.sendOutcomes).card := by
  rw [SendStats.total_eq_sum, Finset.sum_congr rfl fun o _ => h o, Finset.sum_add_distrib,
    sum_counted, Tally.sum_card_classed]

/-- A target with an outcome is counted there, so a decrement never clamps. -/
theorem CounterInv.count_pos {earlier : List Outcomes} {m : Monitor} (h : CounterInv earlier m)
    {target : Nat} {o : SendOutcome} (ho : m.sendOutcomes.lookup target = some o) :
    0 < m.sendStats.count o := by
  have hpos := Tally.card_classed_pos ho
  rw [h o]
  omega

theorem recordSendOutcome_keys (target : Nat) (next : SendOutcome) (m : Monitor) :
    Tally.keySet (m.recordSendOutcome target next).sendOutcomes =
      insert target (Tally.keySet m.sendOutcomes) := by
  rcases recordSendOutcome_cases target next m with ⟨hsame, hsome⟩ | ⟨-, hnew⟩ | ⟨_, -, -, hmoved⟩
  · rw [hsame, Finset.insert_eq_of_mem (Tally.mem_keySet.2 hsome)]
  · rw [hnew, Tally.keySet_insert]
  · rw [hmoved, Tally.keySet_insert]

/-- Recording keeps the counters in step as long as they can count the targets. -/
theorem CounterInv.recordSendOutcome {earlier : List Outcomes} {m : Monitor}
    (h : CounterInv earlier m) {target : Nat} {next : SendOutcome}
    (hbound : recorded earlier +
      (Tally.keySet (m.recordSendOutcome target next).sendOutcomes).card ≤ u64Max) :
    CounterInv earlier (m.recordSendOutcome target next) := by
  have hearlier := counted_le earlier next
  rcases recordSendOutcome_cases target next m with ⟨hsame, -⟩ | ⟨hnone, hnew⟩ |
    ⟨previous, hprevious, hlowers, hmoved⟩
  · rw [hsame]
    exact h
  · -- a new target
    rw [hnew, Tally.card_keySet_new hnone] at hbound
    have hcurrent := Finset.card_le_card (Tally.classed_subset m.sendOutcomes next)
    have hroom : m.sendStats.count next < u64Max := by
      rw [h next]
      omega
    rw [hnew]
    intro o
    dsimp only
    rw [SendStats.count_increment hroom, h o, Tally.card_classed_new hnone, Nat.add_assoc]
  · -- a target that moves: the class it leaves is not empty
    rw [hmoved, Tally.keySet_insert_old (by rw [hprevious]; rfl)] at hbound
    have hpos := h.count_pos hprevious
    have hne := hlowers.ne
    have hmove := Tally.card_classed_move hprevious hne
    have hcurrent := Finset.card_le_card
      (Tally.classed_subset (m.sendOutcomes.insert target next) next)
    rw [Tally.keySet_insert_old (by rw [hprevious]; rfl)] at hcurrent
    have hnext := hmove next
    rw [if_neg hne.symm, if_pos rfl] at hnext
    have hroom : (m.sendStats.decrement previous).count next < u64Max := by
      rw [SendStats.count_decrement, if_neg hne.symm, h next]
      omega
    rw [hmoved]
    intro o
    have ho := hmove o
    dsimp only
    rw [SendStats.count_increment hroom, SendStats.count_decrement]
    by_cases hold : o = previous
    · subst hold
      rw [if_pos rfl, if_neg hne] at ho
      rw [if_pos rfl, if_neg hne]
      have hcount := h o
      omega
    · rw [if_neg hold] at ho ⊢
      have hcount := h o
      omega

/-- The epochs that ended, after one more operation. -/
def MonitorOp.endEpoch (op : MonitorOp) (m : Monitor) (earlier : List Outcomes) : List Outcomes :=
  if op.isReset then earlier ++ [m.sendOutcomes] else earlier

theorem MonitorOp.keys_subset {op : MonitorOp} (h : op.isReset = false) (m : Monitor) :
    Tally.keySet m.sendOutcomes ⊆ Tally.keySet (op.run cfg m).sendOutcomes := by
  intro target hmem
  rw [Tally.mem_keySet] at hmem ⊢
  exact (op.outcome_step h m target).isSome hmem

/-- No operation forgets a recorded target. -/
theorem MonitorOp.recorded_mono (op : MonitorOp) (m : Monitor) (earlier : List Outcomes) :
    recorded earlier + (Tally.keySet m.sendOutcomes).card ≤
      recorded (op.endEpoch m earlier) + (Tally.keySet (op.run cfg m).sendOutcomes).card := by
  unfold MonitorOp.endEpoch
  cases hreset : op.isReset with
  | false =>
    rw [if_neg Bool.false_ne_true]
    exact Nat.add_le_add_left (Finset.card_le_card (op.keys_subset hreset m)) _
  | true =>
    rw [if_pos rfl, recorded_snoc]
    exact Nat.le_add_right _ _

theorem CounterInv.step {earlier : List Outcomes} {m : Monitor} (h : CounterInv earlier m)
    (op : MonitorOp) (hbound : recorded (op.endEpoch m earlier) +
      (Tally.keySet (op.run cfg m).sendOutcomes).card ≤ u64Max) :
    CounterInv (op.endEpoch m earlier) (op.run cfg m) := by
  unfold MonitorOp.endEpoch at hbound ⊢
  cases hreset : op.isReset with
  | true =>
    -- the map is cleared into the earlier epochs, the counters stay
    rw [if_pos rfl]
    cases op with
    | reset tickCheckAt monitorLogAt =>
      intro o
      have hcleared : (Tally.classed (∅ : Outcomes) o).card = 0 := rfl
      have hcount : m.sendStats.count o = counted (earlier ++ [m.sendOutcomes]) o +
          (Tally.classed (∅ : Outcomes) o).card := by
        rw [counted_snoc, hcleared, Nat.add_zero]
        exact h o
      exact hcount
    | _ => cases hreset
  | false =>
    rw [hreset, if_neg Bool.false_ne_true] at hbound
    rw [if_neg Bool.false_ne_true]
    have hbooks := @MonitorOp.run_books cfg op hreset m
    have hafter : ∀ m' : Monitor, m'.SameBooks (op.run cfg m) → CounterInv earlier m' →
        CounterInv earlier (op.run cfg m) := by
      intro m' hsame hinv o
      rw [hsame.stats, hsame.outcomes]
      exact hinv o
    cases hrecords : op.records m with
    | none =>
      rw [hrecords] at hbooks
      exact hafter m hbooks h
    | some entry =>
      rw [hrecords] at hbooks
      rw [hbooks.outcomes] at hbound
      exact hafter _ hbooks (h.recordSendOutcome hbound)

/-- The targets an operation records for the first time. -/
def newlyRecorded (cfg : Config) (op : MonitorOp) (m : Monitor) : Finset Nat :=
  Tally.keySet (op.run cfg m).sendOutcomes \ Tally.keySet m.sendOutcomes

theorem MonitorOp.keys_records {op : MonitorOp} (h : op.isReset = false) (m : Monitor) :
    Tally.keySet (op.run cfg m).sendOutcomes =
      match op.records m with
      | some (target, _) => insert target (Tally.keySet m.sendOutcomes)
      | none => Tally.keySet m.sendOutcomes := by
  rw [(@MonitorOp.run_books cfg op h m).outcomes]
  cases op.records m with
  | none => rfl
  | some entry => exact recordSendOutcome_keys entry.1 entry.2 m

theorem newlyRecorded_reset {op : MonitorOp} (h : op.isReset = true) (m : Monitor) :
    newlyRecorded cfg op m = ∅ := by
  cases op with
  | reset tickCheckAt monitorLogAt =>
    have hcleared : Tally.keySet (∅ : Outcomes) \ Tally.keySet m.sendOutcomes = ∅ := by
      rw [Tally.keySet_empty, Finset.empty_sdiff]
    exact hcleared
  | _ => cases h

theorem newlyRecorded_card (op : MonitorOp) (m : Monitor) :
    (newlyRecorded cfg op m).card ≤ 1 := by
  cases hreset : op.isReset with
  | true =>
    rw [newlyRecorded_reset hreset]
    exact Nat.zero_le 1
  | false =>
    unfold newlyRecorded
    rw [op.keys_records hreset]
    cases op.records m with
    | none =>
      rw [Finset.sdiff_self]
      exact Nat.zero_le 1
    | some entry =>
      have hsub : insert entry.1 (Tally.keySet m.sendOutcomes) \ Tally.keySet m.sendOutcomes ⊆
          {entry.1} := by
        intro target hmem
        rcases Finset.mem_insert.1 (Finset.mem_sdiff.1 hmem).1 with heq | hold
        · exact Finset.mem_singleton.2 heq
        · exact absurd hold (Finset.mem_sdiff.1 hmem).2
      exact Finset.card_le_card hsub

theorem MonitorOp.reset_stats {op : MonitorOp} (h : op.isReset = true) (m : Monitor) :
    (op.run cfg m).sendStats = m.sendStats := by
  cases op with
  | reset tickCheckAt monitorLogAt => rfl
  | _ => cases h

/-- `ok + failed + empty` grows by the newly recorded targets. -/
theorem CounterInv.total_step {earlier : List Outcomes} {m : Monitor} (h : CounterInv earlier m)
    (op : MonitorOp) (hafter : CounterInv (op.endEpoch m earlier) (op.run cfg m)) :
    (op.run cfg m).sendStats.total = m.sendStats.total + (newlyRecorded cfg op m).card := by
  cases hreset : op.isReset with
  | true => rw [op.reset_stats hreset, newlyRecorded_reset hreset, Finset.card_empty, Nat.add_zero]
  | false =>
    have hcard := Finset.card_sdiff_add_card_eq_card (@MonitorOp.keys_subset cfg op hreset m)
    unfold MonitorOp.endEpoch at hafter
    rw [hreset, if_neg Bool.false_ne_true] at hafter
    rw [hafter.total, h.total, newlyRecorded]
    omega

/-- A finished tick check records no new target. -/
theorem harvestTickCheck_keys {m : Monitor} (h : m.Covered)
    (result : Option (Except String TickTransactions)) (now : Nat) :
    newlyRecorded cfg (.harvestTickCheck result now) m = ∅ := by
  have hkeys := @MonitorOp.keys_records cfg (.harvestTickCheck result now) rfl m
  unfold newlyRecorded
  rw [hkeys]
  cases hrecords : MonitorOp.records m (.harvestTickCheck result now) with
  | none => exact Finset.sdiff_self _
  | some entry =>
    have htarget : (m.sendOutcomes.lookup entry.1).isSome := by
      unfold MonitorOp.records at hrecords
      split at hrecords
      · rename_i heq
        cases heq
      · rename_i heq
        cases heq
      · split at hrecords
        · cases hrecords
        · rcases Option.map_eq_some_iff.1 hrecords with ⟨check, hcheck, rfl⟩
          exact h _ (.inr (.inr ⟨check, hcheck, rfl⟩))
      · cases hrecords
    dsimp only
    rw [Finset.insert_eq_of_mem (Tally.mem_keySet.2 htarget), Finset.sdiff_self]

/-! ## Along a run -/

theorem earlierOutcomes_snoc (m : Monitor) (ops : List MonitorOp) (op : MonitorOp) :
    earlierOutcomes cfg m (ops ++ [op]) =
      op.endEpoch ((monitorMachine cfg).state m ops) (earlierOutcomes cfg m ops) :=
  Machine.track_snoc ..

/-- How many targets the operations recorded, those of every epoch counted. -/
def recordedTargets (cfg : Config) (m : Monitor) (ops : List MonitorOp) : Nat :=
  recorded (earlierOutcomes cfg m ops) +
    (Tally.keySet ((monitorMachine cfg).state m ops).sendOutcomes).card

theorem recordedTargets_mono (m : Monitor) {ops ops' : List MonitorOp} (h : ops <+: ops') :
    recordedTargets cfg m ops ≤ recordedTargets cfg m ops' := by
  rcases h with ⟨more, rfl⟩
  induction more using List.reverseRecOn with
  | nil => rw [List.append_nil]
  | append_singleton more op ih =>
    apply ih.trans
    rw [← List.append_assoc]
    unfold recordedTargets
    rw [earlierOutcomes_snoc, Machine.state_snoc]
    exact @MonitorOp.recorded_mono cfg op _ _

theorem counterInv (tickCheckAt monitorLogAt : Nat) {ops : List MonitorOp}
    (h : recordedTargets cfg (Monitor.new tickCheckAt monitorLogAt) ops ≤ u64Max) :
    CounterInv (earlierOutcomes cfg (Monitor.new tickCheckAt monitorLogAt) ops)
      ((monitorMachine cfg).state (Monitor.new tickCheckAt monitorLogAt) ops) := by
  induction ops using List.reverseRecOn with
  | nil =>
    intro o
    cases o <;> rfl
  | append_singleton ops op ih =>
    have hbefore := ih ((recordedTargets_mono _ (List.prefix_append ops [op])).trans h)
    unfold recordedTargets at h
    rw [earlierOutcomes_snoc, Machine.state_snoc] at h ⊢
    exact hbefore.step op h

/-! ## Which events count -/

/-- The operations that change no counter: broadcast tasks and their results,
the end of an epoch, the expiry and the start of checks, and a failed check. -/
inductive MonitorOp.Uncounted : MonitorOp → Prop where
  | handed {currentTick target : Nat} {kind : CallKind} {redundant : Bool} {task : BroadcastTask} :
      Uncounted (.effect (.handed currentTick target kind redundant task))
  | harvested {target : Nat} {kind : CallKind} {redundant : Bool} {result : Delivery} :
      Uncounted (.effect (.harvested target kind redundant result))
  | aborted {target : Nat} {task : BroadcastTask} : Uncounted (.effect (.aborted target task))
  | reset {tickCheckAt monitorLogAt : Nat} : Uncounted (.reset tickCheckAt monitorLogAt)
  | expire {currentTick now : Nat} : Uncounted (.expireTickChecks currentTick now)
  | ensure {currentTick expireAt now : Nat} : Uncounted (.ensureTickCheck currentTick expireAt now)
  | checkError {err : String} {now : Nat} : Uncounted (.harvestTickCheck (some (.error err)) now)

theorem MonitorOp.Uncounted.stats {op : MonitorOp} (h : op.Uncounted) (m : Monitor) :
    (op.run cfg m).sendStats = m.sendStats := by
  cases hreset : op.isReset with
  | true => exact op.reset_stats hreset m
  | false =>
    have hbooks := (@MonitorOp.run_books cfg op hreset m).stats
    have hrecords : op.records m = none := by
      cases h <;> rfl
    rw [hrecords] at hbooks
    exact hbooks

/-- A harvest counts the backend's acceptance of a reveal+commit call. -/
theorem harvest_recordedOk {results : Nat → Option Delivery} {slot : ManagedSlot} {target : Nat}
    (h : Effect.recordedOk target ∈ (harvestBroadcasts results slot).effects) :
    Effect.harvested target .revealAndCommit false .ok ∈
      (harvestBroadcasts results slot).effects := by
  unfold harvestBroadcasts at h ⊢
  split at h
  · cases h
  · rename_i chain hchain
    dsimp only at h ⊢
    simp only [List.mem_append] at h ⊢
    rcases h with (h | h) | h
    · rcases List.mem_flatMap.1 h with ⟨call, -, he⟩
      unfold harvestEffects at he
      split at he <;> simp at he
    · -- the recorded targets are those of accepted reveal+commit calls
      rcases List.mem_map.1 h with ⟨target', hmem, heq⟩
      cases heq
      rcases List.mem_map.1 hmem with ⟨call, hcall, rfl⟩
      simp only [List.mem_filter, decide_eq_true_eq] at hcall
      refine .inl (.inl (List.mem_flatMap.2 ⟨call, hcall.1, ?_⟩))
      rw [harvestEffects, hcall.2.1, ← hcall.2.2]
      exact List.mem_singleton_self _
    · rcases List.mem_map.1 h with ⟨_, -, heq⟩
      cases heq

/-- Of the broadcasts a harvest joins only the failed terminal reveal of a
shutdown counts as a failure. -/
theorem harvest_financialFailure {results : Nat → Option Delivery} {slot : ManagedSlot}
    {target : Nat} (h : Effect.financialFailure target ∈ (harvestBroadcasts results slot).effects) :
    slot.state.isShutdownDrain = true ∧ Effect.harvested target .terminalReveal false .err ∈
      (harvestBroadcasts results slot).effects := by
  unfold harvestBroadcasts at h ⊢
  split at h
  · cases h
  · rename_i chain hchain
    dsimp only at h ⊢
    simp only [List.mem_append] at h ⊢
    rcases h with (h | h) | h
    · rcases List.mem_flatMap.1 h with ⟨call, -, he⟩
      unfold harvestEffects at he
      split at he <;> simp at he
    · rcases List.mem_map.1 h with ⟨_, -, heq⟩
      cases heq
    · rcases List.mem_map.1 h with ⟨target', hmem, heq⟩
      cases heq
      rcases List.mem_map.1 hmem with ⟨call, hcall, rfl⟩
      simp only [List.mem_filter, decide_eq_true_eq] at hcall
      have hfailed := hcall.2
      have hterminal := harvestOf_failedTerminal hfailed
      refine ⟨hterminal.1, .inl (.inl (List.mem_flatMap.2 ⟨call, hcall.1, ?_⟩))⟩
      rw [harvestEffects, hfailed, ← hterminal.2]
      exact List.mem_singleton_self _

/-- At every point of a run the counters are the targets of the earlier epochs
and of the running one by outcome; a new target adds one to their sum, which
nothing else changes; outcomes only move from `ok` to `failed` to `empty`; a
finished check moves the outcome of a recorded target at most; and the only
broadcast whose failure counts is the terminal reveal of a shutdown. -/
theorem counter_conservation (cfg : Config) (a b c : Nat) (inputs : List EngineInput)
    (hrecorded : recordedTargets cfg (Monitor.new b c)
      (ledger cfg (Engine.new cfg a b c) inputs) < 2 ^ 64) :
    ((engineMachine cfg).state (Engine.new cfg a b c) inputs).monitor =
      (monitorMachine cfg).state (Monitor.new b c) (ledger cfg (Engine.new cfg a b c) inputs) ∧
    (∀ ops, ops <+: ledger cfg (Engine.new cfg a b c) inputs →
      let m := (monitorMachine cfg).state (Monitor.new b c) ops
      (∀ o, m.sendStats.count o = counted (earlierOutcomes cfg (Monitor.new b c) ops) o +
        (Tally.classed m.sendOutcomes o).card) ∧
      (∀ target o, m.sendOutcomes.lookup target = some o → 0 < m.sendStats.count o) ∧
      ∀ op, ops ++ [op] <+: ledger cfg (Engine.new cfg a b c) inputs →
        let m' := op.run cfg m
        m'.sendStats.total = m.sendStats.total + (newlyRecorded cfg op m).card ∧
        (newlyRecorded cfg op m).card ≤ 1 ∧
        (op.isReset = false → ∀ target,
          OutcomeStep (m.sendOutcomes.lookup target) (m'.sendOutcomes.lookup target)) ∧
        (∀ result now, op = .harvestTickCheck result now → newlyRecorded cfg op m = ∅) ∧
        (op.Uncounted → m'.sendStats = m.sendStats)) ∧
    (∀ results slot target,
      (Effect.recordedOk target ∈ (harvestBroadcasts results slot).effects →
        Effect.harvested target .revealAndCommit false .ok ∈
          (harvestBroadcasts results slot).effects) ∧
      (Effect.financialFailure target ∈ (harvestBroadcasts results slot).effects →
        slot.state.isShutdownDrain = true ∧ Effect.harvested target .terminalReveal false .err ∈
          (harvestBroadcasts results slot).effects)) := by
  have hledger := @monitor_of_ledger cfg (Engine.new cfg a b c) inputs
  refine ⟨hledger, ?_, ?_⟩
  · intro ops hops m
    have hbound : ∀ ops', ops' <+: ledger cfg (Engine.new cfg a b c) inputs →
        recordedTargets cfg (Monitor.new b c) ops' ≤ u64Max := by
      intro ops' hops'
      have hmono := @recordedTargets_mono cfg (Monitor.new b c) _ _ hops'
      have hmax : 2 ^ 64 = u64Max + 1 := rfl
      omega
    have hinv := counterInv b c (hbound ops hops)
    refine ⟨hinv, fun target o ho => hinv.count_pos ho, ?_⟩
    intro op hnext m'
    have hafter := counterInv b c (hbound _ hnext)
    rw [earlierOutcomes_snoc, Machine.state_snoc] at hafter
    refine ⟨hinv.total_step op hafter, newlyRecorded_card op m, ?_, ?_, ?_⟩
    · intro hreset target
      exact op.outcome_step hreset m target
    · rintro result now rfl
      exact harvestTickCheck_keys (covered_of_ops ops b c) result now
    · intro huncounted
      exact huncounted.stats m
  · intro results slot target
    exact ⟨harvest_recordedOk, harvest_financialFailure⟩

/-- Five cycles, a shutdown and five more cycles, then a cycle in which every
task that finished has failed. -/
def failedTerminalRun : List EngineInput :=
  steadyRun [0, 1, 2, 3, 4] ++ [.shutdown fun _ => sampleEnv] ++ steadyRun [5, 6, 7, 8, 9] ++
    [sampleCycle 10000 (sampleTick 1 10) (some emptyStatus) fun _ => some .err]

/-- Stream 1 has one reveal accepted, and its terminal reveal fails. -/
theorem counter_conservation_terminal :
    let m := (monitorMachine sampleConfig).state (Monitor.new 0 0)
      (ledger sampleConfig (Engine.new sampleConfig 0 0 0) failedTerminalRun)
    m.sendStats.total = 2 ∧ ∀ o, m.sendStats.count o =
      counted (earlierOutcomes sampleConfig (Monitor.new 0 0)
        (ledger sampleConfig (Engine.new sampleConfig 0 0 0) failedTerminalRun)) o +
          (Tally.classed m.sendOutcomes o).card := by
  have hrecorded : recordedTargets sampleConfig (Monitor.new 0 0)
      (ledger sampleConfig (Engine.new sampleConfig 0 0 0) failedTerminalRun) < 2 ^ 64 := by
    decide +kernel
  intro m
  have htotal : m.sendStats.total = 2 := by decide +kernel
  exact ⟨htotal, ((counter_conservation sampleConfig 0 0 0 failedTerminalRun hrecorded).2.1 _
    List.prefix_rfl).1⟩

/-- The failure of a shutdown's terminal reveal is a broadcast error that does
change a counter: the harvest joins it and records its target as failed. -/
theorem terminal_error_counts :
    let before := (engineMachine sampleConfig).state sampleEngine failedTerminalRun.dropLast
    let after := (engineMachine sampleConfig).state sampleEngine failedTerminalRun
    (harvestBroadcasts (fun _ => some .err) (before.slots 1)).effects =
        [.harvested 13 .terminalReveal false .err, .financialFailure 13] ∧
      before.monitor.sendStats = { ok := 1, failed := 0, empty := 0 } ∧
      after.monitor.sendStats = { ok := 1, failed := 1, empty := 0 } := by
  decide +kernel

end RandomClient
