import Mathlib.Data.List.Sort
import Mathlib.Data.Multiset.AddSub
import RandomClient.Counters

/-!
# The books of the tick checks

A target that has an outcome is checked once the tick is far enough past it. Its
check waits, is ready, or is active; afterwards the target is checked, unless the
watermark overtook it. `Monitor.Bookkept` says that the collections of the
monitoring fields agree on that, `Monitor.Settled` that a target is done with:
it is watched no more, whatever is recorded of it later.
-/

namespace RandomClient

variable {cfg : Config}

/-- The targets whose check waits, is ready or is active, in this order. -/
def Monitor.watched (m : Monitor) : List Nat :=
  m.pendingTickChecks ++ m.readyTickChecks.map ReadyTickCheck.targetTick ++
    m.tickCheck.toList.map PendingTickCheck.targetTick

/-- The collections of the tick checks agree. -/
structure Monitor.Bookkept (m : Monitor) : Prop where
  /-- No target waits, is ready or is active twice. -/
  nodup : m.watched.Nodup
  /-- The waiting targets are in the order of the source's set. -/
  ascending : m.pendingTickChecks.Pairwise (· ≤ ·)
  queued : ∀ target, target ∈ m.queuedTargetTicks ↔ target ∈ m.watched
  unchecked : ∀ target ∈ m.queuedTargetTicks, target ∉ m.checkedTargetTicks
  /-- Nothing below the watermark is kept. -/
  current : ∀ target, target ∈ m.queuedTargetTicks ∨ target ∈ m.checkedTargetTicks →
    m.oldestTickCheck ≤ target
  recorded : ∀ target, target ∈ m.queuedTargetTicks ∨ target ∈ m.checkedTargetTicks →
    (m.sendOutcomes.lookup target).isSome
  /-- No recorded target from the watermark on is lost. -/
  kept : ∀ target, (m.sendOutcomes.lookup target).isSome → m.oldestTickCheck ≤ target →
    target ∈ m.queuedTargetTicks ∨ target ∈ m.checkedTargetTicks

/-- The target was checked, or the watermark is past it. -/
def Monitor.Settled (m : Monitor) (target : Nat) : Prop :=
  target ∈ m.checkedTargetTicks ∨ target < m.oldestTickCheck

section Bookkept

variable {m m' : Monitor}

theorem Monitor.Bookkept.new (tickCheckAt monitorLogAt : Nat) :
    (Monitor.new tickCheckAt monitorLogAt).Bookkept where
  nodup := .nil
  ascending := .nil
  queued target := by
    constructor
    · intro h
      cases h
    · intro h
      cases h
  unchecked target h := by cases h
  current target h := by
    rcases h with h | h
    · cases h
    · cases h
  recorded target h := by
    rcases h with h | h
    · cases h
    · cases h
  kept target h := by cases h

/-- A settled target is not watched. -/
theorem Monitor.Settled.not_watched {target : Nat} (hsettled : m.Settled target)
    (h : m.Bookkept) : target ∉ m.watched := by
  intro hmem
  have hqueued := (h.queued target).2 hmem
  rcases hsettled with hchecked | hpast
  · exact h.unchecked target hqueued hchecked
  · exact absurd (h.current target (.inl hqueued)) (Nat.not_le.2 hpast)

/-- A change that moves checks around among waiting, ready and active. -/
theorem Monitor.Bookkept.of_perm (h : m.Bookkept) (hwatched : m'.watched.Perm m.watched)
    (hascending : m'.pendingTickChecks.Pairwise (· ≤ ·))
    (hqueued : m'.queuedTargetTicks = m.queuedTargetTicks)
    (hchecked : m'.checkedTargetTicks = m.checkedTargetTicks)
    (holdest : m'.oldestTickCheck = m.oldestTickCheck)
    (houtcomes : m'.sendOutcomes = m.sendOutcomes) : m'.Bookkept where
  nodup := hwatched.nodup_iff.2 h.nodup
  ascending := hascending
  queued target := by
    rw [hqueued, hwatched.mem_iff]
    exact h.queued target
  unchecked := by
    rw [hqueued, hchecked]
    exact h.unchecked
  current := by
    rw [hqueued, hchecked, holdest]
    exact h.current
  recorded := by
    rw [hqueued, hchecked, houtcomes]
    exact h.recorded
  kept := by
    rw [hqueued, hchecked, houtcomes, holdest]
    exact h.kept

/-! ## Recording and queueing -/

theorem insertSorted_perm {target : Nat} {ticks : List Nat} (h : target ∉ ticks) :
    (insertSorted target ticks).Perm (target :: ticks) := by
  unfold insertSorted
  rw [if_neg h]
  exact List.perm_orderedInsert _ target ticks

theorem insertSorted_ascending {ticks : List Nat} (h : ticks.Pairwise (· ≤ ·)) (target : Nat) :
    (insertSorted target ticks).Pairwise (· ≤ ·) := by
  unfold insertSorted
  split
  · exact h
  · exact h.orderedInsert target ticks

/-- Recording an outcome touches no collection of the checks. -/
structure Monitor.SameChecks (m m' : Monitor) : Prop where
  pending : m'.pendingTickChecks = m.pendingTickChecks
  ready : m'.readyTickChecks = m.readyTickChecks
  active : m'.tickCheck = m.tickCheck
  queued : m'.queuedTargetTicks = m.queuedTargetTicks
  checked : m'.checkedTargetTicks = m.checkedTargetTicks
  oldest : m'.oldestTickCheck = m.oldestTickCheck

theorem Monitor.SameChecks.watched (h : m.SameChecks m') : m'.watched = m.watched := by
  unfold Monitor.watched
  rw [h.pending, h.ready, h.active]

theorem recordSendOutcome_checks (target : Nat) (next : SendOutcome) (m : Monitor) :
    m.SameChecks (m.recordSendOutcome target next) := by
  rcases recordSendOutcome_cases target next m with ⟨hsame, -⟩ | ⟨-, hnew⟩ | ⟨_, -, -, hmoved⟩
  · rw [hsame]
    exact ⟨rfl, rfl, rfl, rfl, rfl, rfl⟩
  · rw [hnew]
    exact ⟨rfl, rfl, rfl, rfl, rfl, rfl⟩
  · rw [hmoved]
    exact ⟨rfl, rfl, rfl, rfl, rfl, rfl⟩

/-- An outcome that is recorded is that of the target. -/
theorem recordSendOutcome_other {target other : Nat} {next : SendOutcome}
    (h : ((m.recordSendOutcome target next).sendOutcomes.lookup other).isSome) :
    other = target ∨ (m.sendOutcomes.lookup other).isSome := by
  rw [← Tally.mem_keySet, recordSendOutcome_keys, Finset.mem_insert, Tally.mem_keySet] at h
  exact h

/-- Recording an outcome of a target and queueing its check. -/
theorem Monitor.Bookkept.record (h : m.Bookkept) (target : Nat) (next : SendOutcome) :
    ((m.recordSendOutcome target next).queueTickCheck target).Bookkept := by
  have hsame := recordSendOutcome_checks target next m
  have hstep := recordSendOutcome_step target next m
  have hrecorded := recordSendOutcome_recorded target next m
  have hother := fun {other} => @recordSendOutcome_other m target other next
  generalize m.recordSendOutcome target next = m₁ at *
  unfold Monitor.queueTickCheck
  split
  · -- a target that is neither queued nor checked yet
    rename_i hnew
    rcases hnew with ⟨hcurrent, hunchecked, hunqueued⟩
    have hunwatched : target ∉ m.watched := by
      rw [← h.queued target, ← hsame.queued]
      exact hunqueued
    have hfresh : target ∉ m₁.pendingTickChecks := by
      rw [hsame.pending]
      intro hmem
      apply hunwatched
      simp [Monitor.watched, hmem]
    have hwatched : (insertSorted target m₁.pendingTickChecks ++
        m₁.readyTickChecks.map ReadyTickCheck.targetTick ++
          m₁.tickCheck.toList.map PendingTickCheck.targetTick).Perm (target :: m.watched) := by
      rw [← hsame.watched]
      exact ((insertSorted_perm hfresh).append_right _).append_right _
    refine ⟨?_, ?_, ?_, ?_, ?_, ?_, ?_⟩
    · exact hwatched.nodup_iff.2 (List.nodup_cons.2 ⟨hunwatched, h.nodup⟩)
    · have hascending := h.ascending
      rw [← hsame.pending] at hascending
      exact insertSorted_ascending hascending target
    · intro other
      refine Iff.trans ?_ hwatched.mem_iff.symm
      rw [Finset.mem_insert, List.mem_cons, hsame.queued, h.queued other]
    · intro other hmem
      rcases Finset.mem_insert.1 hmem with rfl | hmem
      · exact hunchecked
      · rw [hsame.queued] at hmem
        show other ∉ m₁.checkedTargetTicks
        rw [hsame.checked]
        exact h.unchecked other hmem
    · intro other hmem
      show m₁.oldestTickCheck ≤ other
      rcases hmem with hmem | hmem
      · rcases Finset.mem_insert.1 hmem with rfl | hmem
        · exact hcurrent
        · rw [hsame.queued] at hmem
          rw [hsame.oldest]
          exact h.current other (.inl hmem)
      · rw [hsame.oldest]
        rw [show _ = m.checkedTargetTicks from hsame.checked] at hmem
        exact h.current other (.inr hmem)
    · intro other hmem
      rcases hmem with hmem | hmem
      · rcases Finset.mem_insert.1 hmem with rfl | hmem
        · exact hrecorded
        · rw [hsame.queued] at hmem
          exact (hstep other).isSome (h.recorded other (.inl hmem))
      · rw [show _ = m.checkedTargetTicks from hsame.checked] at hmem
        exact (hstep other).isSome (h.recorded other (.inr hmem))
    · intro other hsome hcurrent'
      show other ∈ insert target m₁.queuedTargetTicks ∨ other ∈ m₁.checkedTargetTicks
      rw [Finset.mem_insert, hsame.queued, hsame.checked]
      rcases hother hsome with rfl | hold
      · exact .inl (.inl rfl)
      · rcases h.kept other hold (by rw [← hsame.oldest]; exact hcurrent') with hmem | hmem
        · exact .inl (.inr hmem)
        · exact .inr hmem
  · -- the target is done with, or its check is on its way
    rename_i hold
    refine ⟨?_, ?_, ?_, ?_, ?_, ?_, ?_⟩
    · rw [hsame.watched]
      exact h.nodup
    · rw [hsame.pending]
      exact h.ascending
    · rw [hsame.queued, hsame.watched]
      exact h.queued
    · rw [hsame.queued, hsame.checked]
      exact h.unchecked
    · rw [hsame.queued, hsame.checked, hsame.oldest]
      exact h.current
    · rw [hsame.queued, hsame.checked]
      intro other hmem
      exact (hstep other).isSome (h.recorded other hmem)
    · rw [hsame.queued, hsame.checked, hsame.oldest] at *
      intro other hsome hcurrent
      rcases hother hsome with rfl | hrecorded
      · by_contra hnone
        rw [not_or] at hnone
        exact hold ⟨hcurrent, hnone.2, hnone.1⟩
      · exact h.kept other hrecorded hcurrent

/-! ## Expiry -/

theorem expireTickChecks_watched (currentTick now : Nat) (m : Monitor) :
    (m.expireTickChecks cfg currentTick now).watched = m.watched.filter fun target =>
      (m.expireTickChecks cfg currentTick now).oldestTickCheck ≤ target := by
  have hactive : ∀ oldest, (m.tickCheck.filter fun check =>
      decide (oldest ≤ check.targetTick)).toList.map PendingTickCheck.targetTick =
        (m.tickCheck.toList.map PendingTickCheck.targetTick).filter fun target =>
          oldest ≤ target := by
    intro oldest
    cases m.tickCheck with
    | none => rfl
    | some check =>
      by_cases hle : oldest ≤ check.targetTick
      · simp [Option.filter, hle]
      · simp [Option.filter, hle]
  unfold Monitor.watched
  rw [List.filter_append, List.filter_append, List.filter_map, ← hactive]
  rfl

/-- The watermark only rises. -/
theorem expireTickChecks_oldest (currentTick now : Nat) (m : Monitor) :
    m.oldestTickCheck ≤ (m.expireTickChecks cfg currentTick now).oldestTickCheck :=
  Nat.le_max_right _ _

theorem Monitor.Bookkept.expire (h : m.Bookkept) (currentTick now : Nat) :
    (m.expireTickChecks cfg currentTick now).Bookkept := by
  have hwatched := @expireTickChecks_watched cfg currentTick now m
  have holdest := @expireTickChecks_oldest cfg currentTick now m
  have hqueued : ∀ target, target ∈ (m.expireTickChecks cfg currentTick now).queuedTargetTicks ↔
      target ∈ m.queuedTargetTicks ∧
        (m.expireTickChecks cfg currentTick now).oldestTickCheck ≤ target :=
    fun target => Finset.mem_filter
  have hchecked : ∀ target, target ∈ (m.expireTickChecks cfg currentTick now).checkedTargetTicks ↔
      target ∈ m.checkedTargetTicks ∧
        (m.expireTickChecks cfg currentTick now).oldestTickCheck ≤ target :=
    fun target => Finset.mem_filter
  refine ⟨?_, ?_, ?_, ?_, ?_, ?_, ?_⟩
  · rw [hwatched]
    exact h.nodup.filter _
  · exact h.ascending.filter _
  · intro target
    rw [hqueued, hwatched, List.mem_filter, decide_eq_true_iff, h.queued]
  · intro target hmem hmem'
    exact h.unchecked target ((hqueued target).1 hmem).1 ((hchecked target).1 hmem').1
  · rintro target (hmem | hmem)
    · exact ((hqueued target).1 hmem).2
    · exact ((hchecked target).1 hmem).2
  · rintro target (hmem | hmem)
    · exact h.recorded target (.inl ((hqueued target).1 hmem).1)
    · exact h.recorded target (.inr ((hchecked target).1 hmem).1)
  · intro target hsome hcurrent
    rcases h.kept target hsome (holdest.trans hcurrent) with hmem | hmem
    · exact .inl ((hqueued target).2 ⟨hmem, hcurrent⟩)
    · exact .inr ((hchecked target).2 ⟨hmem, hcurrent⟩)

/-! ## A finished check -/

/-- The target an operation checks successfully. -/
def MonitorOp.verifies (m : Monitor) : MonitorOp → Option Nat
  | .harvestTickCheck (some (.ok _)) _ => m.tickCheck.map PendingTickCheck.targetTick
  | _ => none

/-- The monitoring fields once a successful check is taken off. -/
def Monitor.verified (check : PendingTickCheck) (m : Monitor) : Monitor :=
  { m with
    tickCheck := none
    queuedTargetTicks := m.queuedTargetTicks.erase check.targetTick
    checkedTargetTicks := insert check.targetTick m.checkedTargetTicks
    targetDigests := Function.update m.targetDigests check.targetTick none }

/-- The ready check a failed one becomes. -/
def PendingTickCheck.retry (check : PendingTickCheck) (now : Nat) : ReadyTickCheck where
  retryAt := now + retryDelayMs check.failures
  targetTick := check.targetTick
  failures := saturatingAdd check.failures 1

/-- The monitoring fields once a failed check is queued again. -/
def Monitor.retried (check : PendingTickCheck) (now : Nat) (m : Monitor) : Monitor :=
  { m with
    tickCheck := none
    readyTickChecks := insertReady (check.retry now) m.readyTickChecks }

theorem harvestTickCheck_none (result : Option (Except String TickTransactions)) (now : Nat)
    (h : m.tickCheck = none) : m.harvestTickCheck result now = m := by
  unfold Monitor.harvestTickCheck
  rw [h]

theorem harvestTickCheck_ok {check : PendingTickCheck} (h : m.tickCheck = some check)
    (observation : TickTransactions) (now : Nat) :
    m.harvestTickCheck (some (.ok observation)) now =
      if observation.hasTransactions then m.verified check
      else (m.verified check).recordSendOutcome check.targetTick .empty := by
  unfold Monitor.harvestTickCheck
  rw [h]
  rfl

theorem harvestTickCheck_error {check : PendingTickCheck} (h : m.tickCheck = some check)
    (err : String) (now : Nat) :
    m.harvestTickCheck (some (.error err)) now = m.retried check now := by
  unfold Monitor.harvestTickCheck
  rw [h]
  rfl

theorem watched_of_active {check : PendingTickCheck} (h : m.tickCheck = some check) :
    m.watched = m.pendingTickChecks ++ m.readyTickChecks.map ReadyTickCheck.targetTick ++
      [check.targetTick] := by
  unfold Monitor.watched
  rw [h]
  rfl

theorem watched_of_idle (h : m.tickCheck = none) :
    m.watched = m.pendingTickChecks ++ m.readyTickChecks.map ReadyTickCheck.targetTick := by
  unfold Monitor.watched
  rw [h]
  exact List.append_nil _

/-- The active target is watched once: it neither waits nor is ready. -/
theorem Monitor.Bookkept.active (h : m.Bookkept) {check : PendingTickCheck}
    (hcheck : m.tickCheck = some check) : check.targetTick ∈ m.queuedTargetTicks ∧
      check.targetTick ∉
        m.pendingTickChecks ++ m.readyTickChecks.map ReadyTickCheck.targetTick := by
  have hnodup := h.nodup
  rw [watched_of_active hcheck] at hnodup
  constructor
  · rw [h.queued, watched_of_active hcheck]
    simp
  · intro hmem
    exact (List.nodup_append.1 hnodup).2.2 _ hmem _ (List.mem_singleton_self _) rfl

theorem Monitor.Bookkept.verified (h : m.Bookkept) {check : PendingTickCheck}
    (hcheck : m.tickCheck = some check) : (m.verified check).Bookkept := by
  rcases h.active hcheck with ⟨hactive, hfresh⟩
  have hwatched : (m.verified check).watched =
      m.pendingTickChecks ++ m.readyTickChecks.map ReadyTickCheck.targetTick := watched_of_idle rfl
  have hnodup := h.nodup
  rw [watched_of_active hcheck] at hnodup
  refine ⟨?_, h.ascending, ?_, ?_, ?_, ?_, ?_⟩
  · rw [hwatched]
    exact (List.nodup_append.1 hnodup).1
  · intro target
    show target ∈ m.queuedTargetTicks.erase check.targetTick ↔ _
    rw [Finset.mem_erase, h.queued, watched_of_active hcheck, hwatched, List.mem_append,
      List.mem_singleton]
    constructor
    · rintro ⟨hne, hmem | heq⟩
      · exact hmem
      · exact absurd heq hne
    · intro hmem
      refine ⟨?_, .inl hmem⟩
      rintro rfl
      exact hfresh hmem
  · intro target hmem hmem'
    rcases Finset.mem_erase.1 hmem with ⟨hne, hqueued⟩
    rcases Finset.mem_insert.1 hmem' with heq | hchecked
    · exact hne heq
    · exact h.unchecked target hqueued hchecked
  · rintro target (hmem | hmem)
    · exact h.current target (.inl (Finset.mem_erase.1 hmem).2)
    · rcases Finset.mem_insert.1 hmem with rfl | hchecked
      · exact h.current _ (.inl hactive)
      · exact h.current target (.inr hchecked)
  · rintro target (hmem | hmem)
    · exact h.recorded target (.inl (Finset.mem_erase.1 hmem).2)
    · rcases Finset.mem_insert.1 hmem with rfl | hchecked
      · exact h.recorded _ (.inl hactive)
      · exact h.recorded target (.inr hchecked)
  · intro target hsome hcurrent
    show target ∈ m.queuedTargetTicks.erase check.targetTick ∨
      target ∈ insert check.targetTick m.checkedTargetTicks
    rw [Finset.mem_erase, Finset.mem_insert]
    by_cases heq : target = check.targetTick
    · exact .inr (.inl heq)
    · rcases h.kept target hsome hcurrent with hqueued | hchecked
      · exact .inl ⟨heq, hqueued⟩
      · exact .inr (.inr hchecked)

/-- Recording one more outcome of a target that has one. -/
theorem Monitor.Bookkept.recordAgain (h : m.Bookkept) {target : Nat}
    (hrecorded : (m.sendOutcomes.lookup target).isSome) (next : SendOutcome) :
    (m.recordSendOutcome target next).Bookkept := by
  have hsame := recordSendOutcome_checks target next m
  have hstep := recordSendOutcome_step target next m
  refine ⟨?_, ?_, ?_, ?_, ?_, ?_, ?_⟩
  · rw [hsame.watched]
    exact h.nodup
  · rw [hsame.pending]
    exact h.ascending
  · rw [hsame.queued, hsame.watched]
    exact h.queued
  · rw [hsame.queued, hsame.checked]
    exact h.unchecked
  · rw [hsame.queued, hsame.checked, hsame.oldest]
    exact h.current
  · rw [hsame.queued, hsame.checked]
    intro other hmem
    exact (hstep other).isSome (h.recorded other hmem)
  · rw [hsame.queued, hsame.checked, hsame.oldest]
    intro other hsome hcurrent
    rcases recordSendOutcome_other hsome with rfl | hold
    · exact h.kept other hrecorded hcurrent
    · exact h.kept other hold hcurrent

/-- A check that is not ready yet is appended. -/
theorem insertReady_new {check : ReadyTickCheck} {ready : List ReadyTickCheck}
    (h : check.targetTick ∉ ready.map ReadyTickCheck.targetTick) :
    insertReady check ready = ready ++ [check] := by
  unfold insertReady
  congr 1
  rw [List.filter_eq_self]
  intro other hmem
  rw [decide_eq_true_iff]
  rintro ⟨-, heq⟩
  exact h (heq ▸ List.mem_map_of_mem hmem)

theorem retried_watched (h : m.Bookkept) {check : PendingTickCheck}
    (hcheck : m.tickCheck = some check) (now : Nat) :
    (m.retried check now).watched = m.watched ∧
      (m.retried check now).readyTickChecks = m.readyTickChecks ++ [check.retry now] := by
  have hfresh := (h.active hcheck).2
  rw [List.mem_append, not_or] at hfresh
  have hready : insertReady (check.retry now) m.readyTickChecks =
      m.readyTickChecks ++ [check.retry now] := insertReady_new hfresh.2
  refine ⟨?_, hready⟩
  rw [watched_of_active hcheck, watched_of_idle rfl]
  show m.pendingTickChecks ++
    (insertReady (check.retry now) m.readyTickChecks).map ReadyTickCheck.targetTick = _
  rw [hready, List.map_append, List.append_assoc]
  rfl

theorem Monitor.Bookkept.harvest (h : m.Bookkept) (result : Option (Except String TickTransactions))
    (now : Nat) : (m.harvestTickCheck result now).Bookkept := by
  cases hcheck : m.tickCheck with
  | none =>
    rw [harvestTickCheck_none result now hcheck]
    exact h
  | some check =>
    rcases result with _ | (err | observation)
    · have hsame : m.harvestTickCheck none now = m := by
        unfold Monitor.harvestTickCheck
        rw [hcheck]
      rw [hsame]
      exact h
    · rw [harvestTickCheck_error hcheck]
      apply h.of_perm
      · rw [(retried_watched h hcheck now).1]
      · exact h.ascending
      all_goals rfl
    · have hverified := h.verified hcheck
      rw [harvestTickCheck_ok hcheck]
      split
      · exact hverified
      · apply hverified.recordAgain
        exact h.recorded _ (.inl (h.active hcheck).1)

/-! ## The start of a check -/

/-- The waiting targets that `ensure_tick_check` makes ready. -/
def Monitor.eligible (cfg : Config) (currentTick : Nat) (m : Monitor) : List Nat :=
  m.pendingTickChecks.takeWhile fun target =>
    saturatingAdd target cfg.revealCheckDelayTicks ≤ currentTick

/-- The loop of `ensure_tick_check`. -/
def Monitor.promoted (cfg : Config) (currentTick now : Nat) (m : Monitor) : Monitor :=
  { m with
    pendingTickChecks := m.pendingTickChecks.drop (m.eligible cfg currentTick).length
    queuedTargetTicks := (m.eligible cfg currentTick).foldl
      (fun queued target => insert target queued) m.queuedTargetTicks
    readyTickChecks := (m.eligible cfg currentTick).foldl (fun ready target =>
      insertReady { retryAt := now, targetTick := target, failures := 0 } ready)
      m.readyTickChecks }

/-- The ready checks without one of them. -/
def otherChecks (check : ReadyTickCheck) (ready : List ReadyTickCheck) : List ReadyTickCheck :=
  ready.filter fun other =>
    ¬ (other.retryAt = check.retryAt ∧ other.targetTick = check.targetTick)

/-- The monitoring fields once a ready check is started. -/
def Monitor.started (cfg : Config) (now : Nat) (check : ReadyTickCheck) (m : Monitor) : Monitor :=
  { m with
    readyTickChecks := otherChecks check m.readyTickChecks
    tickCheck := some { targetTick := check.targetTick, failures := check.failures }
    nextTickCheckAt := now + cfg.emptyTickCheckIntervalMs }

/-- The ready check that may start now, if there is one. -/
def Monitor.next (now : Nat) (m : Monitor) : Option ReadyTickCheck :=
  newestReady (m.readyTickChecks.filter fun check => check.retryAt ≤ now)

theorem ensureTickCheck_eq (currentTick expireAt now : Nat) (m : Monitor) :
    m.ensureTickCheck cfg currentTick expireAt now =
      let m := m.expireTickChecks cfg currentTick expireAt
      if m.tickCheck.isSome ∨ now < m.nextTickCheckAt then m
      else
        let m := m.promoted cfg currentTick now
        match m.next now with
        | none => m
        | some check => m.started cfg now check := rfl

theorem eligible_isPrefix (currentTick : Nat) (m : Monitor) :
    m.pendingTickChecks = m.eligible cfg currentTick ++
      m.pendingTickChecks.drop (m.eligible cfg currentTick).length := by
  rcases List.takeWhile_prefix (l := m.pendingTickChecks) fun target =>
    decide (saturatingAdd target cfg.revealCheckDelayTicks ≤ currentTick) with ⟨rest, hrest⟩
  change m.eligible cfg currentTick ++ rest = m.pendingTickChecks at hrest
  rw [← hrest, List.drop_left' rfl]

/-- Checks that are not ready yet are appended in order. -/
theorem foldl_insertReady {now : Nat} {targets : List Nat} {ready : List ReadyTickCheck}
    (h : (ready.map ReadyTickCheck.targetTick ++ targets).Nodup) :
    targets.foldl (fun ready target =>
      insertReady { retryAt := now, targetTick := target, failures := 0 } ready) ready =
        ready ++ targets.map fun target =>
          { retryAt := now, targetTick := target, failures := 0 } := by
  induction targets generalizing ready with
  | nil => exact (List.append_nil ready).symm
  | cons target targets ih =>
    have hnew : target ∉ ready.map ReadyTickCheck.targetTick := by
      intro hmem
      exact (List.nodup_append.1 h).2.2 _ hmem _ List.mem_cons_self rfl
    rw [List.foldl_cons, insertReady_new hnew, ih]
    · simp
    · rw [List.map_append, List.append_assoc]
      exact h

theorem foldl_insert_of_subset {targets : List Nat} {queued : Finset Nat}
    (h : ∀ target ∈ targets, target ∈ queued) :
    targets.foldl (fun queued target => insert target queued) queued = queued := by
  induction targets with
  | nil => rfl
  | cons target targets ih =>
    rw [List.foldl_cons, Finset.insert_eq_of_mem (h target List.mem_cons_self)]
    exact ih fun other hmem => h other (List.mem_cons_of_mem _ hmem)

/-- What the loop makes of the ready checks and of the queued targets. -/
theorem Monitor.Bookkept.promoted_fields (h : m.Bookkept) (currentTick now : Nat) :
    (m.promoted cfg currentTick now).readyTickChecks = m.readyTickChecks ++
        (m.eligible cfg currentTick).map
          (fun target => { retryAt := now, targetTick := target, failures := 0 }) ∧
      (m.promoted cfg currentTick now).queuedTargetTicks = m.queuedTargetTicks := by
  have hpending := @eligible_isPrefix cfg currentTick m
  have hnodup := h.nodup
  unfold Monitor.watched at hnodup
  have hmoved := (List.nodup_append.1 hnodup).1
  constructor
  · apply foldl_insertReady
    rw [hpending] at hmoved
    rcases List.nodup_append.1 hmoved with ⟨hwaiting, hready, hapart⟩
    refine List.nodup_append.2 ⟨hready, (List.nodup_append.1 hwaiting).1, ?_⟩
    intro target hmem target' hmem'
    exact (hapart target' (List.mem_append_left _ hmem') target hmem).symm
  · apply foldl_insert_of_subset
    intro target hmem
    rw [h.queued, Monitor.watched, hpending]
    simp [hmem]

/-- The loop moves targets from the waiting to the ready ones. -/
theorem promoted_watched (h : m.Bookkept) (currentTick now : Nat) :
    (m.promoted cfg currentTick now).watched.Perm m.watched := by
  have hready := (@Monitor.Bookkept.promoted_fields cfg m h currentTick now).1
  have hpending := @eligible_isPrefix cfg currentTick m
  have hafter : (m.promoted cfg currentTick now).watched =
      m.pendingTickChecks.drop (m.eligible cfg currentTick).length ++
        (m.readyTickChecks.map ReadyTickCheck.targetTick ++ m.eligible cfg currentTick) ++
          m.tickCheck.toList.map PendingTickCheck.targetTick := by
    unfold Monitor.watched
    rw [hready, List.map_append, List.map_map]
    simp [Monitor.promoted, Function.comp_def]
  have hbefore : m.watched = m.eligible cfg currentTick ++
      m.pendingTickChecks.drop (m.eligible cfg currentTick).length ++
        m.readyTickChecks.map ReadyTickCheck.targetTick ++
          m.tickCheck.toList.map PendingTickCheck.targetTick := by
    rw [← hpending]
    rfl
  rw [hafter, hbefore, ← Multiset.coe_eq_coe]
  simp only [← Multiset.coe_add]
  ac_rfl

theorem Monitor.Bookkept.promoted (h : m.Bookkept) (currentTick now : Nat) :
    (m.promoted cfg currentTick now).Bookkept := by
  apply h.of_perm (promoted_watched h currentTick now)
  · exact h.ascending.sublist (List.drop_sublist _ _)
  · exact (h.promoted_fields currentTick now).2
  all_goals rfl

/-- Of checks with different targets just one is taken out. -/
theorem otherChecks_perm {check : ReadyTickCheck} {ready : List ReadyTickCheck}
    (hnodup : (ready.map ReadyTickCheck.targetTick).Nodup) (hmem : check ∈ ready) :
    (check :: otherChecks check ready).Perm ready := by
  induction ready with
  | nil => cases hmem
  | cons first ready ih =>
    rw [List.map_cons, List.nodup_cons] at hnodup
    unfold otherChecks at ih ⊢
    rcases List.mem_cons.1 hmem with rfl | hmem
    · -- no other check has its target
      have hrest : (ready.filter fun other =>
          ¬ (other.retryAt = check.retryAt ∧ other.targetTick = check.targetTick)) = ready := by
        rw [List.filter_eq_self]
        intro other hother
        rw [decide_eq_true_iff]
        rintro ⟨-, heq⟩
        exact hnodup.1 (heq ▸ List.mem_map_of_mem hother)
      rw [List.filter_cons_of_neg (by simp), hrest]
    · have hne : first.targetTick ≠ check.targetTick := by
        intro heq
        exact hnodup.1 (heq ▸ List.mem_map_of_mem hmem)
      rw [List.filter_cons_of_pos (by simp [hne])]
      exact (List.Perm.swap first check _).trans ((ih hnodup.2 hmem).cons first)

theorem next_mem {now : Nat} {check : ReadyTickCheck} (h : m.next now = some check) :
    check ∈ m.readyTickChecks ∧ check.retryAt ≤ now := by
  have hmem := List.mem_filter.1 (newestReady_mem h)
  exact ⟨hmem.1, of_decide_eq_true hmem.2⟩

/-- The start moves one target from the ready ones to the active one. -/
theorem started_watched (h : m.Bookkept) (hidle : m.tickCheck = none) {check : ReadyTickCheck}
    (hmem : check ∈ m.readyTickChecks) (now : Nat) :
    (m.started cfg now check).watched.Perm m.watched := by
  have hnodup := h.nodup
  rw [watched_of_idle hidle] at hnodup
  have hperm := otherChecks_perm (List.nodup_append.1 hnodup).2.1 hmem
  rw [watched_of_idle hidle, watched_of_active rfl, List.append_assoc]
  apply List.Perm.append_left
  exact List.perm_append_comm.trans (hperm.map ReadyTickCheck.targetTick)

theorem Monitor.Bookkept.started (h : m.Bookkept) (hidle : m.tickCheck = none)
    {check : ReadyTickCheck} (hmem : check ∈ m.readyTickChecks) (now : Nat) :
    (m.started cfg now check).Bookkept := by
  apply h.of_perm (started_watched h hidle hmem now)
  · exact h.ascending
  all_goals rfl

theorem Monitor.Bookkept.ensure (h : m.Bookkept) (currentTick expireAt now : Nat) :
    (m.ensureTickCheck cfg currentTick expireAt now).Bookkept := by
  have hexpired := @Monitor.Bookkept.expire cfg m h currentTick expireAt
  rw [ensureTickCheck_eq]
  dsimp only
  split
  · exact hexpired
  · rename_i hidle
    rw [not_or, Option.not_isSome_iff_eq_none] at hidle
    have hpromoted := @Monitor.Bookkept.promoted cfg _ hexpired currentTick now
    split
    · exact hpromoted
    · rename_i check hnext
      exact hpromoted.started hidle.1 (next_mem hnext).1 now

/-- Every operation keeps the books of the tick checks. -/
theorem MonitorOp.bookkept (op : MonitorOp) (h : m.Bookkept) : (op.run cfg m).Bookkept := by
  cases op with
  | reset tickCheckAt monitorLogAt =>
    have hnew := Monitor.Bookkept.new tickCheckAt monitorLogAt
    exact ⟨hnew.nodup, hnew.ascending, hnew.queued, hnew.unchecked, hnew.current, hnew.recorded,
      hnew.kept⟩
  | expireTickChecks currentTick now => exact h.expire currentTick now
  | harvestTickCheck result now => exact h.harvest result now
  | ensureTickCheck currentTick expireAt now => exact h.ensure currentTick expireAt now
  | effect e =>
    cases e with
    | recordedOk target => exact h.record target .ok
    | financialFailure target => exact h.record target .failed
    | digest target txBytes =>
      show (m.applyEffect cfg (.digest target txBytes)).Bookkept
      unfold Monitor.applyEffect
      dsimp only
      split
      · exact h
      · exact ⟨h.nodup, h.ascending, h.queued, h.unchecked, h.current, h.recorded, h.kept⟩
    | _ => exact h

end Bookkept

theorem bookkept_of_ops (ops : List MonitorOp) (tickCheckAt monitorLogAt : Nat) :
    ((monitorMachine cfg).state (Monitor.new tickCheckAt monitorLogAt) ops).Bookkept := by
  apply (monitorMachine cfg).state_invariant _ Monitor.Bookkept
  · exact .new tickCheckAt monitorLogAt
  · intro m op h
    exact op.bookkept h

/-! ## What an operation does to the checks -/

/-- The checks after some operations of one epoch. A check is dropped by expiry
or by its success (`done`) only. -/
structure Monitor.Advances (m m' : Monitor) (done : Option Nat) : Prop where
  watermark : m.oldestTickCheck ≤ m'.oldestTickCheck
  settled : ∀ target, m.Settled target → m'.Settled target
  kept : ∀ target ∈ m.watched,
    target ∈ m'.watched ∨ target < m'.oldestTickCheck ∨ done = some target
  verified : ∀ target, done = some target → target ∈ m'.checkedTargetTicks
  checked : ∀ target ∈ m'.checkedTargetTicks, target ∈ m.checkedTargetTicks ∨ done = some target

section Advances

variable {m m' m'' : Monitor}

/-- Nothing of the checks but their order changes. -/
theorem Monitor.Advances.of_subset (hwatched : m.watched ⊆ m'.watched)
    (hchecked : m'.checkedTargetTicks = m.checkedTargetTicks)
    (holdest : m'.oldestTickCheck = m.oldestTickCheck) : m.Advances m' none where
  watermark := holdest.ge
  settled target h := by
    unfold Monitor.Settled
    rw [hchecked, holdest]
    exact h
  kept target hmem := .inl (hwatched hmem)
  verified target h := by cases h
  checked target hmem := by
    rw [hchecked] at hmem
    exact .inl hmem

theorem Monitor.Advances.refl (m : Monitor) : m.Advances m none :=
  .of_subset (List.Subset.refl _) rfl rfl

theorem Monitor.Advances.trans (h : m.Advances m' none) {done : Option Nat}
    (h' : m'.Advances m'' done) : m.Advances m'' done where
  watermark := h.watermark.trans h'.watermark
  settled target hsettled := h'.settled target (h.settled target hsettled)
  kept target hmem := by
    rcases h.kept target hmem with hmem | hpast | hdone
    · exact h'.kept target hmem
    · exact .inr (.inl (hpast.trans_le h'.watermark))
    · cases hdone
  verified := h'.verified
  checked target hmem := by
    rcases h'.checked target hmem with hmem | hdone
    · rcases h.checked target hmem with hmem | hnone
      · exact .inl hmem
      · cases hnone
    · exact .inr hdone

theorem queueTickCheck_advances (target : Nat) (m : Monitor) :
    m.Advances (m.queueTickCheck target) none := by
  unfold Monitor.queueTickCheck
  split
  · apply Monitor.Advances.of_subset
    · intro other hmem
      simp only [Monitor.watched, List.mem_append] at hmem ⊢
      rcases hmem with (hmem | hmem) | hmem
      · refine .inl (.inl ?_)
        unfold insertSorted
        split
        · exact hmem
        · exact (List.mem_orderedInsert _).2 (.inr hmem)
      · exact .inl (.inr hmem)
      · exact .inr hmem
    · rfl
    · rfl
  · exact .refl m

theorem recordSendOutcome_advances (target : Nat) (next : SendOutcome) (m : Monitor) :
    m.Advances (m.recordSendOutcome target next) none := by
  have hsame := recordSendOutcome_checks target next m
  apply Monitor.Advances.of_subset
  · rw [hsame.watched]
    exact List.Subset.refl _
  · exact hsame.checked
  · exact hsame.oldest

theorem expireTickChecks_advances (currentTick now : Nat) (m : Monitor) :
    m.Advances (m.expireTickChecks cfg currentTick now) none where
  watermark := expireTickChecks_oldest currentTick now m
  settled target h := by
    by_cases hpast : target < (m.expireTickChecks cfg currentTick now).oldestTickCheck
    · exact .inr hpast
    · rcases h with hchecked | hbefore
      · exact .inl (Finset.mem_filter.2 ⟨hchecked, Nat.not_lt.1 hpast⟩)
      · exact .inr (hbefore.trans_le (expireTickChecks_oldest currentTick now m))
  kept target hmem := by
    rw [expireTickChecks_watched, List.mem_filter, decide_eq_true_iff]
    by_cases hpast : target < (m.expireTickChecks cfg currentTick now).oldestTickCheck
    · exact .inr (.inl hpast)
    · exact .inl ⟨hmem, Nat.not_lt.1 hpast⟩
  verified target h := by cases h
  checked target hmem := .inl (Finset.mem_filter.1 hmem).1

theorem harvestTickCheck_advances (h : m.Bookkept)
    (result : Option (Except String TickTransactions)) (now : Nat) :
    m.Advances (m.harvestTickCheck result now)
      (MonitorOp.verifies m (.harvestTickCheck result now)) := by
  cases hcheck : m.tickCheck with
  | none =>
    have hnone : MonitorOp.verifies m (.harvestTickCheck result now) = none := by
      unfold MonitorOp.verifies
      split
      · rw [hcheck]
        rfl
      · rfl
    rw [hnone, harvestTickCheck_none result now hcheck]
    exact .refl m
  | some check =>
    rcases result with _ | (err | observation)
    · have hsame : m.harvestTickCheck none now = m := by
        unfold Monitor.harvestTickCheck
        rw [hcheck]
      rw [hsame]
      exact .refl m
    · rw [harvestTickCheck_error hcheck]
      apply Monitor.Advances.of_subset
      · rw [(retried_watched h hcheck now).1]
        exact List.Subset.refl _
      · rfl
      · rfl
    · have hdone : MonitorOp.verifies m (.harvestTickCheck (some (.ok observation)) now) =
          some check.targetTick := by
        unfold MonitorOp.verifies
        rw [hcheck]
        rfl
      have hverified : m.Advances (m.verified check) (some check.targetTick) := by
        refine ⟨le_rfl, ?_, ?_, ?_, ?_⟩
        · rintro target (hchecked | hpast)
          · exact .inl (Finset.mem_insert_of_mem hchecked)
          · exact .inr hpast
        · intro target hmem
          rw [watched_of_active hcheck] at hmem
          rcases List.mem_append.1 hmem with hmem | hmem
          · exact .inl (by rw [watched_of_idle rfl]; exact hmem)
          · rw [List.mem_singleton.1 hmem]
            exact .inr (.inr rfl)
        · intro target heq
          cases heq
          exact Finset.mem_insert_self _ _
        · intro target hmem
          rcases Finset.mem_insert.1 hmem with rfl | hchecked
          · exact .inr rfl
          · exact .inl hchecked
      rw [hdone, harvestTickCheck_ok hcheck]
      split
      · exact hverified
      · -- the outcome is recorded after the check is taken off
        have hsame := recordSendOutcome_checks check.targetTick .empty (m.verified check)
        refine ⟨?_, ?_, ?_, ?_, ?_⟩
        · rw [hsame.oldest]
          exact hverified.watermark
        · unfold Monitor.Settled
          rw [hsame.oldest, hsame.checked]
          exact hverified.settled
        · rw [hsame.watched, hsame.oldest]
          exact hverified.kept
        · rw [hsame.checked]
          exact hverified.verified
        · rw [hsame.checked]
          exact hverified.checked

theorem ensureTickCheck_advances (h : m.Bookkept) (currentTick expireAt now : Nat) :
    m.Advances (m.ensureTickCheck cfg currentTick expireAt now) none := by
  have hexpires := @expireTickChecks_advances cfg currentTick expireAt m
  have hexpired := @Monitor.Bookkept.expire cfg m h currentTick expireAt
  rw [ensureTickCheck_eq]
  dsimp only
  split
  · exact hexpires
  · rename_i hidle
    rw [not_or, Option.not_isSome_iff_eq_none] at hidle
    have hpromotes := hexpires.trans
      (.of_subset (@promoted_watched cfg _ hexpired currentTick now).symm.subset rfl rfl)
    have hpromoted := @Monitor.Bookkept.promoted cfg _ hexpired currentTick now
    split
    · exact hpromotes
    · rename_i check hnext
      have hstarts := @started_watched cfg _ hpromoted hidle.1 check (next_mem hnext).1 now
      exact hpromotes.trans (.of_subset hstarts.symm.subset rfl rfl)

/-- Every operation of an epoch moves the checks forward. -/
theorem MonitorOp.advances {op : MonitorOp} (hreset : op.isReset = false) (h : m.Bookkept) :
    m.Advances (op.run cfg m) (op.verifies m) := by
  cases op with
  | reset => cases hreset
  | expireTickChecks currentTick now => exact expireTickChecks_advances currentTick now m
  | harvestTickCheck result now => exact harvestTickCheck_advances h result now
  | ensureTickCheck currentTick expireAt now =>
    exact ensureTickCheck_advances h currentTick expireAt now
  | effect e =>
    cases e with
    | recordedOk target =>
      exact (recordSendOutcome_advances target .ok m).trans (queueTickCheck_advances target _)
    | financialFailure target =>
      exact (recordSendOutcome_advances target .failed m).trans (queueTickCheck_advances target _)
    | digest target txBytes =>
      show m.Advances (m.applyEffect cfg (.digest target txBytes)) none
      unfold Monitor.applyEffect
      dsimp only
      split
      · exact .refl m
      · exact .of_subset (List.Subset.refl _) rfl rfl
    | _ => exact .refl m

end Advances

/-! ## Within an epoch -/

/-- The operations belong to one epoch. -/
def OneEpoch (ops : List MonitorOp) : Prop := ∀ op ∈ ops, op.isReset = false

/-- The targets checked successfully in the running epoch, in order. -/
def verifiedTargets (cfg : Config) (m : Monitor) (ops : List MonitorOp) : List Nat :=
  (monitorMachine cfg).track
    (fun m op done => if op.isReset then [] else done ++ (op.verifies m).toList) m [] ops

/-- A target that is done with stays so for the rest of the epoch. -/
theorem settled_of_ops {m : Monitor} (h : m.Bookkept) {ops : List MonitorOp} (hops : OneEpoch ops) :
    m.oldestTickCheck ≤ ((monitorMachine cfg).state m ops).oldestTickCheck ∧
      ∀ target, m.Settled target → ((monitorMachine cfg).state m ops).Settled target := by
  induction ops using List.reverseRecOn with
  | nil => exact ⟨le_rfl, fun _ hsettled => hsettled⟩
  | append_singleton ops op ih =>
    rcases ih (fun op' hmem => hops op' (List.mem_append_left _ hmem)) with ⟨hmono, hsettled⟩
    have hbookkept : ((monitorMachine cfg).state m ops).Bookkept :=
      (monitorMachine cfg).state_invariant m Monitor.Bookkept h (fun _ op => op.bookkept) ops
    have hstep := @MonitorOp.advances cfg _ _ (hops op (by simp)) hbookkept
    rw [Machine.state_snoc]
    exact ⟨hmono.trans hstep.watermark,
      fun target htarget => hstep.settled target (hsettled target htarget)⟩

/-- No target is checked successfully twice in an epoch. -/
theorem verifiedTargets_nodup (ops : List MonitorOp) (tickCheckAt monitorLogAt : Nat) :
    (verifiedTargets cfg (Monitor.new tickCheckAt monitorLogAt) ops).Nodup ∧
      ∀ target ∈ verifiedTargets cfg (Monitor.new tickCheckAt monitorLogAt) ops,
        ((monitorMachine cfg).state (Monitor.new tickCheckAt monitorLogAt) ops).Settled target := by
  induction ops using List.reverseRecOn with
  | nil => exact ⟨.nil, fun _ h => by cases h⟩
  | append_singleton ops op ih =>
    have hbookkept := @bookkept_of_ops cfg ops tickCheckAt monitorLogAt
    unfold verifiedTargets at ih ⊢
    rw [Machine.track_snoc, Machine.state_snoc]
    generalize (monitorMachine cfg).track _ _ _ _ = done at *
    generalize (monitorMachine cfg).state _ _ = m at *
    cases hreset : op.isReset with
    | true => exact ⟨.nil, fun _ h => by cases h⟩
    | false =>
      have hstep := @MonitorOp.advances cfg _ _ hreset hbookkept
      rw [if_neg Bool.false_ne_true]
      cases hverifies : op.verifies m with
      | none =>
        rw [Option.toList_none, List.append_nil]
        exact ⟨ih.1, fun target hmem => hstep.settled target (ih.2 target hmem)⟩
      | some target =>
        have hactive : target ∈ m.watched := by
          unfold MonitorOp.verifies at hverifies
          split at hverifies
          · rcases Option.map_eq_some_iff.1 hverifies with ⟨check, hcheck, rfl⟩
            rw [watched_of_active hcheck]
            simp
          · cases hverifies
        rw [Option.toList_some]
        constructor
        · refine List.nodup_append.2 ⟨ih.1, List.nodup_singleton target, ?_⟩
          rintro target' hmem _ hsingle rfl
          rw [List.mem_singleton.1 hsingle] at hmem
          exact (ih.2 target hmem).not_watched hbookkept hactive
        · intro target' hmem
          rcases List.mem_append.1 hmem with hmem | hmem
          · exact hstep.settled target' (ih.2 target' hmem)
          · rw [List.mem_singleton.1 hmem]
            exact .inl (hstep.verified target hverifies)

/-- The targets that count as checked were checked successfully. -/
theorem checked_verified (ops : List MonitorOp) (tickCheckAt monitorLogAt : Nat) :
    ∀ target ∈
      ((monitorMachine cfg).state (Monitor.new tickCheckAt monitorLogAt) ops).checkedTargetTicks,
      target ∈ verifiedTargets cfg (Monitor.new tickCheckAt monitorLogAt) ops := by
  induction ops using List.reverseRecOn with
  | nil => exact fun _ h => by cases h
  | append_singleton ops op ih =>
    have hbookkept := @bookkept_of_ops cfg ops tickCheckAt monitorLogAt
    unfold verifiedTargets at ih ⊢
    rw [Machine.track_snoc, Machine.state_snoc]
    generalize (monitorMachine cfg).track _ _ _ _ = done at *
    generalize (monitorMachine cfg).state _ _ = m at *
    intro target hmem
    cases hreset : op.isReset with
    | true =>
      cases op with
      | reset tickCheckAt monitorLogAt => cases hmem
      | _ => cases hreset
    | false =>
      have hstep := @MonitorOp.advances cfg _ _ hreset hbookkept
      rw [if_neg Bool.false_ne_true]
      rcases hstep.checked target hmem with hold | hdone
      · exact List.mem_append_left _ (ih target hold)
      · rw [hdone]
        exact List.mem_append_right _ (List.mem_singleton_self _)

/-! ## The result -/

/-- At every point of a run the collections of the tick checks agree; within an
epoch the watermark only rises, a check is dropped by expiry or its success
only, a failed one is queued again, and a target that was checked or expired is
never watched again. -/
theorem tick_check_bookkeeping (cfg : Config) (a b c : Nat) (inputs : List EngineInput) :
    ((engineMachine cfg).state (Engine.new cfg a b c) inputs).monitor =
      (monitorMachine cfg).state (Monitor.new b c) (ledger cfg (Engine.new cfg a b c) inputs) ∧
    ∀ ops, ops <+: ledger cfg (Engine.new cfg a b c) inputs →
      let m := (monitorMachine cfg).state (Monitor.new b c) ops
      m.Bookkept ∧
      (∀ op, ops ++ [op] <+: ledger cfg (Engine.new cfg a b c) inputs → op.isReset = false →
        m.Advances (op.run cfg m) (op.verifies m) ∧
        ∀ err now check, op = .harvestTickCheck (some (.error err)) now →
          m.tickCheck = some check → check.retry now ∈ (op.run cfg m).readyTickChecks) ∧
      (verifiedTargets cfg (Monitor.new b c) ops).Nodup ∧
      (∀ target ∈ verifiedTargets cfg (Monitor.new b c) ops, m.Settled target) ∧
      ∀ later, ops ++ later <+: ledger cfg (Engine.new cfg a b c) inputs → OneEpoch later →
        let m' := (monitorMachine cfg).state (Monitor.new b c) (ops ++ later)
        m.oldestTickCheck ≤ m'.oldestTickCheck ∧
          ∀ target, m.Settled target → m'.Settled target ∧ target ∉ m'.watched := by
  refine ⟨monitor_of_ledger _ inputs, ?_⟩
  intro ops _ m
  have hbookkept : m.Bookkept := bookkept_of_ops ops b c
  rcases @verifiedTargets_nodup cfg ops b c with ⟨hnodup, hsettled⟩
  refine ⟨hbookkept, ?_, hnodup, hsettled, ?_⟩
  · intro op _ hreset
    refine ⟨MonitorOp.advances hreset hbookkept, ?_⟩
    rintro err now check rfl hcheck
    show _ ∈ (m.harvestTickCheck _ now).readyTickChecks
    rw [harvestTickCheck_error hcheck, (retried_watched hbookkept hcheck now).2]
    simp
  · intro later _ hlater m'
    have hafter : m' = (monitorMachine cfg).state m later := Machine.state_append ..
    rcases @settled_of_ops cfg m hbookkept later hlater with ⟨hmono, hstays⟩
    rw [← hafter] at hmono hstays
    refine ⟨hmono, ?_⟩
    intro target htarget
    exact ⟨hstays target htarget,
      (hstays target htarget).not_watched (bookkept_of_ops (ops ++ later) b c)⟩

end RandomClient
