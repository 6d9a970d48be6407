import Mathlib.Order.Bounds.Basic
import RandomClient.Outcomes
import RandomClient.TickChecks

/-!
# Which check is started

`ensure_tick_check` picks a check from an ordered set, a map keyed by time and
target and a watermark. `Eligible` says which targets may be checked, from the
history of the epoch alone: recorded targets inside the monitoring window that
were not checked yet and are not waiting for a retry. `Scheduled` ties the
collections to that history, and `newest_check_first` says that the check that is
started is that of the largest eligible target.
-/

namespace RandomClient

variable {cfg : Config}

/-! ## What happened to the checks -/

/-- The target of a failed check that an operation harvests, with the instant. -/
def MonitorOp.fails (m : Monitor) : MonitorOp → Option (Nat × Nat)
  | .harvestTickCheck (some (.error _)) now => m.tickCheck.map fun check => (check.targetTick, now)
  | _ => none

/-- The target of a check that an operation starts, with the instant. -/
def MonitorOp.starts (cfg : Config) (m : Monitor) : MonitorOp → Option (Nat × Nat)
  | .ensureTickCheck currentTick expireAt now =>
    if (m.expireTickChecks cfg currentTick expireAt).tickCheck.isSome then none
    else (m.ensureTickCheck cfg currentTick expireAt now).tickCheck.map fun check =>
      (check.targetTick, now)
  | _ => none

/-- The failed and the started checks of an epoch, in order. -/
structure CheckHistory where
  failed : List (Nat × Nat)
  started : List (Nat × Nat)

/-- An epoch without checks. -/
def CheckHistory.new : CheckHistory where
  failed := []
  started := []

/-- The history after one more operation. -/
def MonitorOp.note (cfg : Config) (m : Monitor) (op : MonitorOp) (h : CheckHistory) : CheckHistory :=
  if op.isReset then .new
  else
    { failed := h.failed ++ (op.fails m).toList
      started := h.started ++ (op.starts cfg m).toList }

/-- The failed and the started checks of the running epoch. -/
def checkHistory (cfg : Config) (m : Monitor) (ops : List MonitorOp) : CheckHistory :=
  (monitorMachine cfg).track (MonitorOp.note cfg) m .new ops

/-- The instants at which failed checks of the target were harvested, in order. -/
def CheckHistory.failedAt (h : CheckHistory) (target : Nat) : List Nat :=
  h.failed.filterMap fun entry => if entry.1 = target then some entry.2 else none

/-- The wait after the `n`-th failure in a row: 1, 2, 4, 8, 16, then 30 seconds. -/
def backoffMs (n : Nat) : Nat := min (2 ^ (n - 1)) 30 * 1000

/-- The target waits for its next retry. -/
def CheckHistory.Waiting (h : CheckHistory) (target now : Nat) : Prop :=
  ∃ harvestedAt, (h.failedAt target).getLast? = some harvestedAt ∧
    now < harvestedAt + backoffMs (h.failedAt target).length

/-- The target may be checked at a tick and an instant. -/
structure Eligible (cfg : Config) (outcomes : Outcomes) (h : CheckHistory) (verified : List Nat)
    (currentTick now target : Nat) : Prop where
  recorded : (outcomes.lookup target).isSome
  unexpired : currentTick - saturatingAdd cfg.revealCheckDelayTicks tickCheckWindow ≤ target
  delayed : saturatingAdd target cfg.revealCheckDelayTicks ≤ currentTick
  unchecked : target ∉ verified
  due : ¬ h.Waiting target now

/-! ## The newest ready check -/

theorem newestReady_eq_none {ready : List ReadyTickCheck} : newestReady ready = none ↔ ready = [] := by
  constructor
  · intro h
    cases ready with
    | nil => rfl
    | cons check rest =>
      unfold newestReady at h
      split at h
      · cases h
      · split at h
        · cases h
        · cases h
  · rintro rfl
    rfl

/-- No ready check has a newer target. -/
theorem newestReady_max {ready : List ReadyTickCheck} {check : ReadyTickCheck}
    (h : newestReady ready = some check) :
    ∀ other ∈ ready, other.targetTick ≤ check.targetTick := by
  induction ready generalizing check with
  | nil => cases h
  | cons first rest ih =>
    unfold newestReady at h
    cases hrest : newestReady rest with
    | none =>
      rw [hrest] at h
      cases h
      rw [newestReady_eq_none.1 hrest]
      simp
    | some best =>
      rw [hrest] at h
      dsimp only at h
      have hbest := ih hrest
      intro other hmem
      split at h
      · -- the first check is as new as the best one of the rest
        rename_i hnewer
        cases h
        rcases List.mem_cons.1 hmem with rfl | hmem
        · exact le_rfl
        · have hle := hbest other hmem
          omega
      · rename_i hnot
        cases h
        rcases List.mem_cons.1 hmem with rfl | hmem
        · omega
        · exact hbest other hmem

/-! ## The delays -/

/-- The delay of the next retry by the number of failures so far. -/
theorem retryDelayMs_eq (n : Nat) : retryDelayMs (min n u32Max) = backoffMs (n + 1) := by
  unfold retryDelayMs backoffMs
  rw [Nat.add_sub_cancel]
  by_cases hfew : n ≤ 5
  · have hmin : min (min n u32Max) 5 = n := by
      simp only [u32Max]
      omega
    rw [hmin]
  · have hmin : min (min n u32Max) 5 = 5 := by
      simp only [u32Max]
      omega
    have hpow : 2 ^ 5 ≤ 2 ^ n := Nat.pow_le_pow_right (by decide) (by omega)
    rw [hmin, Nat.min_eq_right (by decide : 30 ≤ 2 ^ 5), Nat.min_eq_right (by omega)]

theorem failedAt_snoc (h : CheckHistory) (entry : Nat × Nat) (target : Nat) :
    CheckHistory.failedAt { h with failed := h.failed ++ [entry] } target =
      h.failedAt target ++ if entry.1 = target then [entry.2] else [] := by
  unfold CheckHistory.failedAt
  rw [List.filterMap_append]
  congr 1
  simp only [List.filterMap_cons, List.filterMap_nil]
  split
  · rename_i heq
    split at heq
    · cases heq
    · rename_i hne
      rw [if_neg hne]
  · rename_i heq
    split at heq
    · rename_i htarget
      cases heq
      rw [if_pos htarget]
    · cases heq

/-! ## The collections follow the history -/

/-- A ready check is as old as the last failure of its target, or was never
started. -/
structure ReadyTickCheck.Follows (check : ReadyTickCheck) (clock : Nat) (failedAt : List Nat) :
    Prop where
  failures : check.failures = min failedAt.length u32Max
  fresh : failedAt = [] → check.retryAt ≤ clock
  retry : ∀ harvestedAt ∈ failedAt.getLast?,
    check.retryAt = harvestedAt + backoffMs failedAt.length

/-- The collections at a tick and an instant agree with the history of the epoch. -/
structure Scheduled (cfg : Config) (tick clock : Nat) (h : CheckHistory) (m : Monitor) : Prop where
  bookkept : m.Bookkept
  oldest_le : m.oldestTickCheck ≤ tick - saturatingAdd cfg.revealCheckDelayTicks tickCheckWindow
  ready : ∀ check ∈ m.readyTickChecks,
    saturatingAdd check.targetTick cfg.revealCheckDelayTicks ≤ tick ∧
      check.Follows clock (h.failedAt check.targetTick)
  active : ∀ check, m.tickCheck = some check →
    saturatingAdd check.targetTick cfg.revealCheckDelayTicks ≤ tick ∧
      check.failures = min (h.failedAt check.targetTick).length u32Max
  pending : ∀ target ∈ m.pendingTickChecks, h.failedAt target = []
  failed : ∀ target, h.failedAt target ≠ [] → target ∈ m.watched ∨ m.Settled target
  idle : h.started = [] → m.nextTickCheckAt ≤ clock
  interval : ∀ entry ∈ h.started.getLast?,
    m.nextTickCheckAt = entry.2 + cfg.emptyTickCheckIntervalMs

section Scheduled

variable {tick clock : Nat} {h : CheckHistory} {m m' : Monitor}

/-- The start of an epoch. -/
theorem Scheduled.new {tickCheckAt : Nat} (hclock : tickCheckAt ≤ clock) (monitorLogAt : Nat)
    (stats : SendStats) :
    Scheduled cfg tick clock .new
      { Monitor.new tickCheckAt monitorLogAt with sendStats := stats } where
  bookkept :=
    have hnew := Monitor.Bookkept.new tickCheckAt monitorLogAt
    ⟨hnew.nodup, hnew.ascending, hnew.queued, hnew.unchecked, hnew.current, hnew.recorded,
      hnew.kept⟩
  oldest_le := Nat.zero_le _
  ready check hmem := by cases hmem
  active check hcheck := by cases hcheck
  pending target hmem := by cases hmem
  failed target hfailed := absurd rfl hfailed
  idle _ := hclock
  interval entry hentry := by cases hentry

/-- Time passes. -/
theorem Scheduled.mono (hs : Scheduled cfg tick clock h m) {tick' clock' : Nat}
    (htick : tick ≤ tick') (hclock : clock ≤ clock') : Scheduled cfg tick' clock' h m where
  bookkept := hs.bookkept
  oldest_le := hs.oldest_le.trans (Nat.sub_le_sub_right htick _)
  ready check hmem := by
    rcases hs.ready check hmem with ⟨hle, hfollows⟩
    exact ⟨hle.trans htick, hfollows.failures,
      fun hnil => (hfollows.fresh hnil).trans hclock, hfollows.retry⟩
  active check hcheck := by
    rcases hs.active check hcheck with ⟨hle, hfailures⟩
    exact ⟨hle.trans htick, hfailures⟩
  pending := hs.pending
  failed := hs.failed
  idle hnone := (hs.idle hnone).trans hclock
  interval := hs.interval

/-- A target that is new to the checks never failed. -/
theorem Scheduled.failedAt_new (hs : Scheduled cfg tick clock h m) {target : Nat}
    (hunwatched : target ∉ m.watched) (hunsettled : ¬ m.Settled target) :
    h.failedAt target = [] := by
  by_contra hfailed
  rcases hs.failed target hfailed with hwatched | hsettled
  · exact hunwatched hwatched
  · exact hunsettled hsettled

/-- Recording an outcome and queueing its target. -/
theorem Scheduled.record (hs : Scheduled cfg tick clock h m) (target : Nat) (next : SendOutcome) :
    Scheduled cfg tick clock h ((m.recordSendOutcome target next).queueTickCheck target) := by
  have hbookkept := hs.bookkept.record target next
  have hadvances := (recordSendOutcome_advances target next m).trans
    (queueTickCheck_advances target (m.recordSendOutcome target next))
  have hsame := recordSendOutcome_checks target next m
  have hinterval : (m.recordSendOutcome target next).nextTickCheckAt = m.nextTickCheckAt := by
    unfold Monitor.recordSendOutcome
    dsimp only
    split <;> rfl
  have hfailed : ∀ other, h.failedAt other ≠ [] →
      other ∈ ((m.recordSendOutcome target next).queueTickCheck target).watched ∨
        ((m.recordSendOutcome target next).queueTickCheck target).Settled other := by
    intro other hother
    rcases hs.failed other hother with hwatched | hsettled
    · rcases hadvances.kept other hwatched with hkept | hpast | hdone
      · exact .inl hkept
      · exact .inr (.inr hpast)
      · cases hdone
    · exact .inr (hadvances.settled other hsettled)
  generalize m.recordSendOutcome target next = m₁ at *
  unfold Monitor.queueTickCheck at hbookkept hfailed ⊢
  split at hbookkept
  · rename_i hnew
    rw [if_pos hnew] at hfailed ⊢
    refine ⟨hbookkept, ?_, ?_, ?_, ?_, hfailed, ?_, ?_⟩
    · show m₁.oldestTickCheck ≤ _
      rw [hsame.oldest]
      exact hs.oldest_le
    · show ∀ check ∈ m₁.readyTickChecks, _
      rw [hsame.ready]
      exact hs.ready
    · show ∀ check, m₁.tickCheck = some check → _
      rw [hsame.active]
      exact hs.active
    · intro other hmem
      rcases mem_insertSorted hmem with rfl | hold
      · -- the target is neither watched nor settled
        rcases hnew with ⟨hcurrent, hunchecked, hunqueued⟩
        rw [hsame.oldest] at hcurrent
        rw [hsame.checked] at hunchecked
        rw [hsame.queued, hs.bookkept.queued] at hunqueued
        apply hs.failedAt_new hunqueued
        rintro (hchecked | hpast)
        · exact hunchecked hchecked
        · omega
      · rw [hsame.pending] at hold
        exact hs.pending other hold
    · show _ → m₁.nextTickCheckAt ≤ clock
      rw [hinterval]
      exact hs.idle
    · show ∀ entry ∈ h.started.getLast?, m₁.nextTickCheckAt = _
      rw [hinterval]
      exact hs.interval
  · rename_i hold
    rw [if_neg hold] at hfailed ⊢
    refine ⟨hbookkept, ?_, ?_, ?_, ?_, hfailed, ?_, ?_⟩
    · rw [hsame.oldest]
      exact hs.oldest_le
    · rw [hsame.ready]
      exact hs.ready
    · rw [hsame.active]
      exact hs.active
    · rw [hsame.pending]
      exact hs.pending
    · rw [hinterval]
      exact hs.idle
    · rw [hinterval]
      exact hs.interval

theorem Scheduled.expire (hs : Scheduled cfg tick clock h m) {currentTick : Nat}
    (htick : tick ≤ currentTick) (now : Nat) :
    Scheduled cfg currentTick clock h (m.expireTickChecks cfg currentTick now) ∧
      (m.expireTickChecks cfg currentTick now).oldestTickCheck =
        currentTick - saturatingAdd cfg.revealCheckDelayTicks tickCheckWindow := by
  have hmono := hs.mono htick le_rfl
  have holdest : (m.expireTickChecks cfg currentTick now).oldestTickCheck =
      currentTick - saturatingAdd cfg.revealCheckDelayTicks tickCheckWindow :=
    Nat.max_eq_left hmono.oldest_le
  refine ⟨⟨hs.bookkept.expire currentTick now, holdest.le, ?_, ?_, ?_, ?_, hmono.idle,
    hmono.interval⟩, holdest⟩
  · intro check hmem
    exact hmono.ready check (List.mem_filter.1 hmem).1
  · intro check hcheck
    exact hmono.active check (Option.filter_eq_some_iff.1 hcheck).1
  · intro target hmem
    exact hmono.pending target (List.mem_filter.1 hmem).1
  · intro target hfailed
    have hadvances := @expireTickChecks_advances cfg currentTick now m
    rcases hs.failed target hfailed with hwatched | hsettled
    · rcases hadvances.kept target hwatched with hkept | hpast | hdone
      · exact .inl hkept
      · exact .inr (.inr hpast)
      · cases hdone
    · exact .inr (hadvances.settled target hsettled)

/-- A check that failed is ready again after its delay. -/
theorem Scheduled.retried (hs : Scheduled cfg tick clock h m) {check : PendingTickCheck}
    (hcheck : m.tickCheck = some check) (now : Nat) :
    Scheduled cfg tick clock { h with failed := h.failed ++ [(check.targetTick, now)] }
      (m.retried check now) := by
  rcases retried_watched hs.bookkept hcheck now with ⟨hwatched, hready⟩
  have hfresh := (hs.bookkept.active hcheck).2
  rw [List.mem_append, not_or] at hfresh
  have hother : ∀ target, target ≠ check.targetTick → CheckHistory.failedAt
      { h with failed := h.failed ++ [(check.targetTick, now)] } target = h.failedAt target := by
    intro target hne
    rw [failedAt_snoc, if_neg (Ne.symm hne), List.append_nil]
  have hbookkept : (m.retried check now).Bookkept := by
    rw [← harvestTickCheck_error hcheck "" now]
    exact hs.bookkept.harvest _ now
  refine ⟨hbookkept, hs.oldest_le, ?_, nofun, ?_, ?_, hs.idle, hs.interval⟩
  · intro other hmem
    rw [hready] at hmem
    rcases List.mem_append.1 hmem with hold | hnew
    · have hne : other.targetTick ≠ check.targetTick := by
        intro heq
        exact hfresh.2 (heq ▸ List.mem_map_of_mem hold)
      rw [hother _ hne]
      exact hs.ready other hold
    · -- the new entry carries one more failure than the check had
      rw [List.mem_singleton.1 hnew]
      rcases hs.active check hcheck with ⟨hle, hfailures⟩
      have hlast : CheckHistory.failedAt
          { h with failed := h.failed ++ [(check.targetTick, now)] } check.targetTick =
            h.failedAt check.targetTick ++ [now] := by
        rw [failedAt_snoc, if_pos rfl]
      refine ⟨hle, ?_, ?_, ?_⟩
      · show saturatingAdd check.failures 1 = _
        show min (check.failures + 1) u32Max = _
        rw [show (check.retry now).targetTick = check.targetTick from rfl, hlast, hfailures,
          List.length_append, List.length_singleton]
        omega
      · intro hnil
        rw [show (check.retry now).targetTick = check.targetTick from rfl, hlast] at hnil
        simp at hnil
      · intro harvestedAt hmem
        rw [show (check.retry now).targetTick = check.targetTick from rfl, hlast,
          List.getLast?_concat, Option.mem_some_iff] at hmem
        rw [show (check.retry now).targetTick = check.targetTick from rfl, hlast, ← hmem,
          List.length_append, List.length_singleton, ← retryDelayMs_eq, ← hfailures]
        rfl
  · intro target hmem
    rw [hother target (fun heq => hfresh.1 (heq ▸ hmem))]
    exact hs.pending target hmem
  · intro target hfailed
    rw [hwatched]
    by_cases heq : target = check.targetTick
    · left
      rw [heq, watched_of_active hcheck]
      simp
    · rw [hother target heq] at hfailed
      exact hs.failed target hfailed

/-- A successful check settles its target. -/
theorem Scheduled.verified (hs : Scheduled cfg tick clock h m) {check : PendingTickCheck}
    (hcheck : m.tickCheck = some check) : Scheduled cfg tick clock h (m.verified check) where
  bookkept := hs.bookkept.verified hcheck
  oldest_le := hs.oldest_le
  ready := hs.ready
  active _ hnone := by cases hnone
  pending := hs.pending
  failed target hfailed := by
    rcases hs.failed target hfailed with hwatched | hsettled
    · rw [watched_of_active hcheck] at hwatched
      rcases List.mem_append.1 hwatched with hmem | hmem
      · left
        rw [watched_of_idle rfl]
        exact hmem
      · rw [List.mem_singleton.1 hmem]
        exact .inr (.inl (Finset.mem_insert_self _ _))
    · rcases hsettled with hchecked | hpast
      · exact .inr (.inl (Finset.mem_insert_of_mem hchecked))
      · exact .inr (.inr hpast)
  idle := hs.idle
  interval := hs.interval

/-- An outcome of a recorded target is replaced. -/
theorem Scheduled.recordAgain (hs : Scheduled cfg tick clock h m) {target : Nat}
    (hrecorded : (m.sendOutcomes.lookup target).isSome) (next : SendOutcome) :
    Scheduled cfg tick clock h (m.recordSendOutcome target next) := by
  have hbookkept := hs.bookkept.recordAgain hrecorded next
  unfold Monitor.recordSendOutcome at hbookkept ⊢
  dsimp only at hbookkept ⊢
  split at hbookkept
  · rename_i hallowed
    rw [if_pos hallowed]
    exact ⟨hbookkept, hs.oldest_le, hs.ready, hs.active, hs.pending, hs.failed, hs.idle, hs.interval⟩
  · rename_i hallowed
    rw [if_neg hallowed]
    exact hs

theorem Scheduled.harvest (hs : Scheduled cfg tick clock h m)
    (result : Option (Except String TickTransactions)) (now : Nat) :
    Scheduled cfg tick clock
      { h with failed := h.failed ++ (MonitorOp.fails m (.harvestTickCheck result now)).toList }
      (m.harvestTickCheck result now) := by
  have hkeeps : MonitorOp.fails m (.harvestTickCheck result now) = none →
      ({ h with failed := h.failed ++
        (MonitorOp.fails m (.harvestTickCheck result now)).toList } : CheckHistory) = h := by
    intro hnone
    rw [hnone, Option.toList_none, List.append_nil]
  cases hcheck : m.tickCheck with
  | none =>
    have hnone : MonitorOp.fails m (.harvestTickCheck result now) = none := by
      unfold MonitorOp.fails
      split
      · rw [hcheck]
        rfl
      · rfl
    rw [hkeeps hnone, harvestTickCheck_none result now hcheck]
    exact hs
  | some check =>
    rcases result with _ | (err | observation)
    · have hsame : m.harvestTickCheck none now = m := by
        unfold Monitor.harvestTickCheck
        rw [hcheck]
      rw [hkeeps rfl, hsame]
      exact hs
    · have hfails : MonitorOp.fails m (.harvestTickCheck (some (.error err)) now) =
          some (check.targetTick, now) := by
        unfold MonitorOp.fails
        rw [hcheck]
        rfl
      rw [hfails, harvestTickCheck_error hcheck]
      exact hs.retried hcheck now
    · rw [hkeeps rfl, harvestTickCheck_ok hcheck]
      split
      · exact hs.verified hcheck
      · apply (hs.verified hcheck).recordAgain
        exact hs.bookkept.recorded _ (.inl (hs.bookkept.active hcheck).1)

/-! ## The promotion and the start -/

/-- Of ascending targets those that are old enough come first. -/
theorem mem_eligible_iff (hbookkept : m.Bookkept) (currentTick target : Nat) :
    target ∈ m.eligible cfg currentTick ↔ target ∈ m.pendingTickChecks ∧
      saturatingAdd target cfg.revealCheckDelayTicks ≤ currentTick := by
  have hmono : ∀ {k l : Nat}, k ≤ l → saturatingAdd k cfg.revealCheckDelayTicks ≤
      saturatingAdd l cfg.revealCheckDelayTicks := fun hle =>
    min_le_min_right _ (Nat.add_le_add_right hle _)
  have hascending := hbookkept.ascending
  unfold Monitor.eligible
  generalize m.pendingTickChecks = pending at hascending ⊢
  induction pending with
  | nil => simp
  | cons first pending ih =>
    rcases List.pairwise_cons.1 hascending with ⟨hfirst, hrest⟩
    rw [List.takeWhile_cons]
    split
    · rename_i hold
      rw [List.mem_cons, List.mem_cons]
      constructor
      · rintro (rfl | hmem)
        · exact ⟨.inl rfl, of_decide_eq_true hold⟩
        · rcases (ih hrest).1 hmem with ⟨hmem, hle⟩
          exact ⟨.inr hmem, hle⟩
      · rintro ⟨rfl | hmem, hle⟩
        · exact .inl rfl
        · exact .inr ((ih hrest).2 ⟨hmem, hle⟩)
    · -- with the first target too young all are
      rename_i hyoung
      rw [decide_eq_true_iff] at hyoung
      constructor
      · intro hmem
        cases hmem
      · rintro ⟨hmem, hle⟩
        exfalso
        rcases List.mem_cons.1 hmem with rfl | hmem
        · exact hyoung hle
        · exact hyoung ((hmono (hfirst target hmem)).trans hle)

theorem Scheduled.promoted (hs : Scheduled cfg tick clock h m) {now : Nat} (hclock : clock ≤ now) :
    Scheduled cfg tick now h (m.promoted cfg tick now) := by
  have hmono := hs.mono le_rfl hclock
  have hpromoted := @Monitor.Bookkept.promoted cfg m hs.bookkept tick now
  have hready := (@Monitor.Bookkept.promoted_fields cfg m hs.bookkept tick now).1
  refine ⟨hpromoted, hs.oldest_le, ?_, hmono.active, ?_, ?_, hmono.idle, hmono.interval⟩
  · intro check hmem
    rw [hready] at hmem
    rcases List.mem_append.1 hmem with hold | hnew
    · exact hmono.ready check hold
    · -- a promoted target has never failed
      rcases List.mem_map.1 hnew with ⟨target, heligible, rfl⟩
      rcases (mem_eligible_iff hs.bookkept tick target).1 heligible with ⟨hpending, hle⟩
      have hnone := hs.pending target hpending
      refine ⟨hle, ?_, fun _ => le_rfl, ?_⟩
      · rw [hnone]
        rfl
      · rw [hnone]
        intro harvestedAt hmem
        cases hmem
  · intro target hmem
    exact hs.pending target (List.mem_of_mem_drop hmem)
  · intro target hfailed
    rw [(promoted_watched hs.bookkept tick now).mem_iff]
    exact hs.failed target hfailed

theorem Scheduled.started (hs : Scheduled cfg tick clock h m) (hidle : m.tickCheck = none)
    {check : ReadyTickCheck} (hmem : check ∈ m.readyTickChecks) (now : Nat) :
    Scheduled cfg tick clock { h with started := h.started ++ [(check.targetTick, now)] }
      (m.started cfg now check) where
  bookkept := hs.bookkept.started hidle hmem now
  oldest_le := hs.oldest_le
  ready other hother := hs.ready other (List.mem_filter.1 hother).1
  active other hother := by
    cases hother
    rcases hs.ready check hmem with ⟨hle, hfollows⟩
    exact ⟨hle, hfollows.failures⟩
  pending := hs.pending
  failed target hfailed := by
    rw [(started_watched hs.bookkept hidle hmem now).mem_iff]
    exact hs.failed target hfailed
  idle hnone := by simp at hnone
  interval entry hentry := by
    rw [List.getLast?_concat, Option.mem_some_iff] at hentry
    rw [← hentry]
    rfl

/-- `ensure_tick_check` after its expiry pass. -/
inductive Ensured (cfg : Config) (currentTick now : Nat) (m : Monitor) :
    Option Nat → Monitor → Prop where
  /-- A check is active, or the interval has not passed. -/
  | busy (h : m.tickCheck.isSome ∨ now < m.nextTickCheckAt) : Ensured cfg currentTick now m none m
  /-- No ready check is due. -/
  | nothing (hidle : m.tickCheck = none) (hinterval : m.nextTickCheckAt ≤ now)
      (hnext : (m.promoted cfg currentTick now).next now = none) :
      Ensured cfg currentTick now m none (m.promoted cfg currentTick now)
  | start {check : ReadyTickCheck} (hidle : m.tickCheck = none)
      (hinterval : m.nextTickCheckAt ≤ now)
      (hnext : (m.promoted cfg currentTick now).next now = some check) :
      Ensured cfg currentTick now m (some check.targetTick)
        ((m.promoted cfg currentTick now).started cfg now check)

/-- The cases of `ensure_tick_check`, with the target it starts a check of. -/
theorem ensureTickCheck_cases (currentTick expireAt now : Nat) (m : Monitor) :
    ∃ started, Ensured cfg currentTick now (m.expireTickChecks cfg currentTick expireAt) started
        (m.ensureTickCheck cfg currentTick expireAt now) ∧
      MonitorOp.starts cfg m (.ensureTickCheck currentTick expireAt now) =
        started.map fun target => (target, now) := by
  have hstarts : MonitorOp.starts cfg m (.ensureTickCheck currentTick expireAt now) =
      if (m.expireTickChecks cfg currentTick expireAt).tickCheck.isSome then none
      else (m.ensureTickCheck cfg currentTick expireAt now).tickCheck.map fun check =>
        (check.targetTick, now) := rfl
  have hensure := @ensureTickCheck_eq cfg currentTick expireAt now m
  rw [hstarts]
  generalize m.ensureTickCheck cfg currentTick expireAt now = m₂ at *
  generalize m.expireTickChecks cfg currentTick expireAt = m₁ at *
  subst hensure
  dsimp only
  by_cases hbusy : m₁.tickCheck.isSome ∨ now < m₁.nextTickCheckAt
  · refine ⟨none, ?_, ?_⟩
    · rw [if_pos hbusy]
      exact .busy hbusy
    · rw [if_pos hbusy]
      split
      · rfl
      · rename_i hidle
        rw [Option.not_isSome_iff_eq_none] at hidle
        rw [hidle]
        rfl
  · have hidle : m₁.tickCheck = none := by
      by_contra hsome
      exact hbusy (.inl (Option.isSome_iff_ne_none.2 hsome))
    have hinterval : m₁.nextTickCheckAt ≤ now := Nat.not_lt.1 fun hlt => hbusy (.inr hlt)
    rw [if_neg hbusy, hidle]
    cases hnext : (m₁.promoted cfg currentTick now).next now with
    | none =>
      refine ⟨none, .nothing hidle hinterval hnext, ?_⟩
      show Option.map _ m₁.tickCheck = none
      rw [hidle]
      rfl
    | some check => exact ⟨some check.targetTick, .start hidle hinterval hnext, rfl⟩

theorem Scheduled.ensured (hs : Scheduled cfg tick clock h m) {now : Nat} (hclock : clock ≤ now)
    {started : Option Nat} (hensured : Ensured cfg tick now m started m') :
    Scheduled cfg tick now
      { h with started := h.started ++ (started.map fun target => (target, now)).toList } m' := by
  have hsame : ({ h with started := h.started ++ [] } : CheckHistory) = h := by
    rw [List.append_nil]
  cases hensured with
  | busy =>
    rw [Option.map_none, Option.toList_none, hsame]
    exact hs.mono le_rfl hclock
  | nothing =>
    rw [Option.map_none, Option.toList_none, hsame]
    exact hs.promoted hclock
  | start hidle _ hnext =>
    rw [Option.map_some, Option.toList_some]
    exact (hs.promoted hclock).started hidle (next_mem hnext).1 now

/-- A ready check is due where its target does not wait for a retry. -/
theorem ReadyTickCheck.Follows.due_iff {check : ReadyTickCheck} {now : Nat}
    (hfollows : check.Follows now (h.failedAt check.targetTick)) :
    check.retryAt ≤ now ↔ ¬ h.Waiting check.targetTick now := by
  constructor
  · rintro hdue ⟨harvestedAt, hlast, hwait⟩
    have hretry := hfollows.retry harvestedAt hlast
    omega
  · intro hnot
    cases hlast : (h.failedAt check.targetTick).getLast? with
    | none => exact hfollows.fresh (List.getLast?_eq_none_iff.1 hlast)
    | some harvestedAt =>
      have hretry := hfollows.retry harvestedAt hlast
      by_contra hearly
      exact hnot ⟨harvestedAt, hlast, by omega⟩

/-- With no check active the checks that are due are those of the eligible targets. -/
theorem Scheduled.due_iff_eligible (hs : Scheduled cfg tick clock h m) {now : Nat}
    (hclock : clock ≤ now) (hidle : m.tickCheck = none)
    (holdest : m.oldestTickCheck =
      tick - saturatingAdd cfg.revealCheckDelayTicks tickCheckWindow) {verified : List Nat}
    (hsettled : ∀ target ∈ verified, m.Settled target)
    (hchecked : ∀ target ∈ m.checkedTargetTicks, target ∈ verified) (target : Nat) :
    (∃ check ∈ (m.promoted cfg tick now).readyTickChecks,
      check.retryAt ≤ now ∧ check.targetTick = target) ↔
      Eligible cfg m.sendOutcomes h verified tick now target := by
  have hpromoted := hs.promoted hclock
  have hwatched := @promoted_watched cfg m hs.bookkept tick now
  have hafter : (m.promoted cfg tick now).watched = (m.promoted cfg tick now).pendingTickChecks ++
      (m.promoted cfg tick now).readyTickChecks.map ReadyTickCheck.targetTick :=
    watched_of_idle hidle
  constructor
  · rintro ⟨check, hmem, hdue, rfl⟩
    rcases hpromoted.ready check hmem with ⟨hle, hfollows⟩
    have hin : check.targetTick ∈ m.watched := by
      rw [← hwatched.mem_iff, hafter]
      exact List.mem_append_right _ (List.mem_map_of_mem hmem)
    have hqueued := (hs.bookkept.queued _).2 hin
    refine ⟨hs.bookkept.recorded _ (.inl hqueued), ?_, hle, ?_, hfollows.due_iff.1 hdue⟩
    · rw [← holdest]
      exact hs.bookkept.current _ (.inl hqueued)
    · intro hverified
      exact (hsettled _ hverified).not_watched hs.bookkept hin
  · intro heligible
    have hin : target ∈ m.watched := by
      rcases hs.bookkept.kept target heligible.recorded
        (by rw [holdest]; exact heligible.unexpired) with hqueued | hmem
      · exact (hs.bookkept.queued target).1 hqueued
      · exact absurd (hchecked target hmem) heligible.unchecked
    rw [watched_of_idle hidle] at hin
    have hready : target ∈ (m.promoted cfg tick now).readyTickChecks.map
        ReadyTickCheck.targetTick := by
      rw [(@Monitor.Bookkept.promoted_fields cfg m hs.bookkept tick now).1, List.map_append,
        List.mem_append, List.map_map]
      rcases List.mem_append.1 hin with hpending | hmem
      · right
        exact List.mem_map.2
          ⟨target, (mem_eligible_iff hs.bookkept tick target).2 ⟨hpending, heligible.delayed⟩, rfl⟩
      · exact .inl hmem
    rcases List.mem_map.1 hready with ⟨check, hmem, rfl⟩
    exact ⟨check, hmem, (hpromoted.ready check hmem).2.due_iff.2 heligible.due, rfl⟩

/-- The check that is started is the newest eligible one, and one is started
when there is one. -/
theorem Scheduled.newest (hs : Scheduled cfg tick clock h m) {now : Nat} (hclock : clock ≤ now)
    (holdest : m.oldestTickCheck =
      tick - saturatingAdd cfg.revealCheckDelayTicks tickCheckWindow) {verified : List Nat}
    (hsettled : ∀ target ∈ verified, m.Settled target)
    (hchecked : ∀ target ∈ m.checkedTargetTicks, target ∈ verified) {started : Option Nat}
    (hensured : Ensured cfg tick now m started m') :
    (∀ target ∈ started, m.tickCheck = none ∧ m.nextTickCheckAt ≤ now ∧
      IsGreatest {t | Eligible cfg m.sendOutcomes h verified tick now t} target) ∧
    (m.tickCheck = none → m.nextTickCheckAt ≤ now →
      (∃ t, Eligible cfg m.sendOutcomes h verified tick now t) → started.isSome) := by
  cases hensured with
  | busy hbusy =>
    constructor
    · intro target hnone
      cases hnone
    · intro hidle hinterval _
      rcases hbusy with hactive | hearly
      · rw [hidle] at hactive
        cases hactive
      · omega
  | nothing hidle hinterval hnext =>
    constructor
    · intro target hnone
      cases hnone
    · rintro _ _ ⟨target, heligible⟩
      rcases (hs.due_iff_eligible hclock hidle holdest hsettled hchecked target).2 heligible with
        ⟨check, hmem, hdue, -⟩
      have hempty := newestReady_eq_none.1 hnext
      have hin : check ∈ (m.promoted cfg tick now).readyTickChecks.filter fun check =>
          check.retryAt ≤ now := List.mem_filter.2 ⟨hmem, decide_eq_true hdue⟩
      rw [hempty] at hin
      cases hin
  | @start check hidle hinterval hnext =>
    constructor
    · intro target hstarted
      cases hstarted
      refine ⟨hidle, hinterval, ?_, ?_⟩
      · rcases next_mem hnext with ⟨hmem, hdue⟩
        exact (hs.due_iff_eligible hclock hidle holdest hsettled hchecked _).1
          ⟨check, hmem, hdue, rfl⟩
      · intro target heligible
        rcases (hs.due_iff_eligible hclock hidle holdest hsettled hchecked target).2 heligible with
          ⟨other, hmem, hdue, rfl⟩
        exact newestReady_max hnext other (List.mem_filter.2 ⟨hmem, decide_eq_true hdue⟩)
    · intro _ _ _
      rfl

end Scheduled

/-! ## Along a run -/

/-- The tick an operation runs at. -/
def MonitorOp.tick : MonitorOp → Option Nat
  | .expireTickChecks currentTick _ | .ensureTickCheck currentTick _ _ => some currentTick
  | .effect _ | .reset _ _ | .harvestTickCheck _ _ => none

/-- The instant an operation reads for the schedule of the checks. -/
def MonitorOp.instant : MonitorOp → Option Nat
  | .reset tickCheckAt _ => some tickCheckAt
  | .harvestTickCheck _ now | .ensureTickCheck _ _ now => some now
  | .effect _ | .expireTickChecks _ _ => none

/-- The last tick of the operations since the last reset, or 0. -/
def lastCheckTick (ops : List MonitorOp) : Nat :=
  ops.foldl (fun last op => if op.isReset then 0 else op.tick.getD last) 0

/-- The last instant the operations read, or that of the start. -/
def lastInstant (start : Nat) (ops : List MonitorOp) : Nat :=
  ops.foldl (fun last op => op.instant.getD last) start

/-- Neither the clock nor, within an epoch, the tick runs backwards. -/
structure Orderly (start : Nat) (ops : List MonitorOp) : Prop where
  ticks : ∀ before op, before ++ [op] <+: ops → ∀ tick ∈ op.tick, lastCheckTick before ≤ tick
  clock : ∀ before op, before ++ [op] <+: ops → ∀ now ∈ op.instant, lastInstant start before ≤ now

theorem Orderly.init {start : Nat} {ops more : List MonitorOp} (h : Orderly start (ops ++ more)) :
    Orderly start ops where
  ticks before op hbegins := h.ticks before op (hbegins.trans (List.prefix_append ops more))
  clock before op hbegins := h.clock before op (hbegins.trans (List.prefix_append ops more))

theorem lastCheckTick_snoc (ops : List MonitorOp) (op : MonitorOp) :
    lastCheckTick (ops ++ [op]) = if op.isReset then 0 else op.tick.getD (lastCheckTick ops) := by
  rw [lastCheckTick, List.foldl_append]
  rfl

theorem lastInstant_snoc (start : Nat) (ops : List MonitorOp) (op : MonitorOp) :
    lastInstant start (ops ++ [op]) = op.instant.getD (lastInstant start ops) := by
  rw [lastInstant, List.foldl_append]
  rfl

theorem checkHistory_snoc (m : Monitor) (ops : List MonitorOp) (op : MonitorOp) :
    checkHistory cfg m (ops ++ [op]) =
      op.note cfg ((monitorMachine cfg).state m ops) (checkHistory cfg m ops) :=
  Machine.track_snoc ..

/-- The collections follow the history along orderly operations. -/
theorem scheduled_of_ops (b c : Nat) {ops : List MonitorOp} (horderly : Orderly b ops) :
    Scheduled cfg (lastCheckTick ops) (lastInstant b ops) (checkHistory cfg (Monitor.new b c) ops)
      ((monitorMachine cfg).state (Monitor.new b c) ops) := by
  induction ops using List.reverseRecOn with
  | nil => exact .new le_rfl c _
  | append_singleton ops op ih =>
    have hs := ih horderly.init
    have htick := horderly.ticks ops op List.prefix_rfl
    have hclock := horderly.clock ops op List.prefix_rfl
    rw [checkHistory_snoc, Machine.state_snoc, lastCheckTick_snoc, lastInstant_snoc]
    change Scheduled cfg _ _ _ (op.run cfg ((monitorMachine cfg).state (Monitor.new b c) ops))
    generalize (monitorMachine cfg).state (Monitor.new b c) ops = m at *
    generalize checkHistory cfg (Monitor.new b c) ops = h at *
    generalize lastCheckTick ops = tick at *
    generalize lastInstant b ops = clock at *
    have hsame : ({ failed := h.failed ++ [], started := h.started ++ [] } : CheckHistory) = h := by
      rw [List.append_nil, List.append_nil]
    cases op with
    | reset tickCheckAt monitorLogAt => exact .new le_rfl monitorLogAt m.sendStats
    | expireTickChecks currentTick now =>
      have hnote : MonitorOp.note cfg m (.expireTickChecks currentTick now) h = h := hsame
      rw [hnote]
      exact (hs.expire (htick currentTick rfl) now).1
    | harvestTickCheck result now =>
      have hnote : MonitorOp.note cfg m (.harvestTickCheck result now) h =
          { h with failed := h.failed ++
            (MonitorOp.fails m (.harvestTickCheck result now)).toList } := by
        show ({ failed := _, started := h.started ++ [] } : CheckHistory) = _
        rw [List.append_nil]
      rw [hnote]
      exact (hs.harvest result now).mono le_rfl (hclock now rfl)
    | ensureTickCheck currentTick expireAt now =>
      rcases @ensureTickCheck_cases cfg currentTick expireAt now m with ⟨started, hensured, hstarts⟩
      have hnote : MonitorOp.note cfg m (.ensureTickCheck currentTick expireAt now) h =
          { h with started := h.started ++ (started.map fun target => (target, now)).toList } := by
        rw [← hstarts]
        show ({ failed := h.failed ++ [], started := _ } : CheckHistory) = _
        rw [List.append_nil]
      rw [hnote]
      exact (hs.expire (htick currentTick rfl) expireAt).1.ensured (hclock now rfl) hensured
    | effect e =>
      have hnote : MonitorOp.note cfg m (.effect e) h = h := hsame
      rw [hnote]
      cases e with
      | recordedOk target => exact hs.record target .ok
      | financialFailure target => exact hs.record target .failed
      | digest target txBytes =>
        show Scheduled cfg tick clock h (m.applyEffect cfg (.digest target txBytes))
        have hbookkept := @MonitorOp.bookkept cfg m (.effect (.digest target txBytes)) hs.bookkept
        change (m.applyEffect cfg (.digest target txBytes)).Bookkept at hbookkept
        unfold Monitor.applyEffect at hbookkept ⊢
        dsimp only at hbookkept ⊢
        cases hdigest : m.targetDigests target with
        | some _ => exact hs
        | none =>
          rw [hdigest] at hbookkept
          exact ⟨hbookkept, hs.oldest_le, hs.ready, hs.active, hs.pending, hs.failed, hs.idle,
            hs.interval⟩
      | _ => exact hs

/-! ## Ticks and clock of a run -/

/-- The instants a step reads for the schedule of the checks, in order. -/
def EngineInput.instants : EngineInput → List Nat
  | .cycle input =>
    match input.tick with
    | .ok _ => [input.clock.resetTickCheckAt, input.clock.harvestAt, input.clock.ensureAt]
    | .error _ => []
  | .shutdown _ => []

/-- The clock does not run backwards along a run. -/
def SteadyClock (start : Nat) (inputs : List EngineInput) : Prop :=
  (start :: inputs.flatMap EngineInput.instants).Pairwise (· ≤ ·)

instance (start : Nat) (inputs : List EngineInput) : Decidable (SteadyClock start inputs) :=
  inferInstanceAs (Decidable (List.Pairwise _ _))

theorem stepLedger_tick (input : EngineInput) (e : Engine) :
    ∀ op ∈ stepLedger cfg input e, ∀ t ∈ op.tick, ∃ tick ∈ input.report, t = tick.tick := by
  have heffects : ∀ l : List Effect, ∀ op ∈ l.map MonitorOp.effect, ∀ t, t ∉ op.tick := by
    intro l op hop t ht
    rcases List.mem_map.1 hop with ⟨_, -, rfl⟩
    cases ht
  intro op hop t ht
  cases input with
  | shutdown env => exact absurd ht (heffects _ op hop t)
  | cycle input =>
    cases htick : input.tick with
    | error err =>
      simp only [stepLedger, htick] at hop
      cases hop
    | ok tick =>
      refine ⟨tick, by simp [EngineInput.report, htick], ?_⟩
      simp only [stepLedger, htick] at hop
      rcases List.mem_append.1 hop with hop | hop
      · rcases List.mem_append.1 hop with hop | hop
        · split at hop
          · rw [List.mem_singleton.1 hop] at ht
            cases ht
          · cases hop
        · exact absurd ht (heffects _ op hop t)
      · split at hop
        · cases hop
        · unfold finishLedger at hop
          have hcases : op = .expireTickChecks tick.tick input.clock.expireAt ∨
              op = .harvestTickCheck input.tickCheckResult input.clock.harvestAt ∨
              op = .ensureTickCheck tick.tick input.clock.ensureExpireAt input.clock.ensureAt := by
            revert hop
            split
            · simp only [List.append_nil, List.mem_cons, List.not_mem_nil, or_false]
              rintro (hop | hop)
              · exact .inl hop
              · exact .inr (.inl hop)
            all_goals simp
          rcases hcases with rfl | rfl | rfl
          · exact (Option.mem_some_iff.1 ht).symm
          · cases ht
          · exact (Option.mem_some_iff.1 ht).symm

theorem stepLedger_instants (input : EngineInput) (e : Engine) :
    ((stepLedger cfg input e).filterMap MonitorOp.instant).Sublist input.instants := by
  have heffects : ∀ l : List Effect,
      (l.map MonitorOp.effect).filterMap MonitorOp.instant = [] := by
    intro l
    rw [List.filterMap_map, List.filterMap_eq_nil_iff]
    intro effect _
    rfl
  cases input with
  | shutdown env =>
    simp only [stepLedger, heffects]
    exact List.nil_sublist _
  | cycle input =>
    cases htick : input.tick with
    | error err =>
      simp only [stepLedger, htick]
      exact List.nil_sublist _
    | ok tick =>
      simp only [stepLedger, htick, EngineInput.instants, List.filterMap_append, heffects,
        List.append_nil]
      apply @List.Sublist.append _ _ [input.clock.resetTickCheckAt] _
        [input.clock.harvestAt, input.clock.ensureAt]
      · split
        · exact List.Sublist.refl _
        · exact List.nil_sublist _
      · split
        · exact List.nil_sublist _
        · unfold finishLedger
          split
          · exact (List.nil_sublist [input.clock.ensureAt]).cons_cons _
          · exact List.Sublist.refl _
          · exact List.Sublist.refl _

theorem ledger_instants (e : Engine) (inputs : List EngineInput) :
    ((ledger cfg e inputs).filterMap MonitorOp.instant).Sublist
      (inputs.flatMap EngineInput.instants) := by
  induction inputs using List.reverseRecOn with
  | nil => exact List.Sublist.refl _
  | append_singleton inputs input ih =>
    rw [ledger_snoc, List.filterMap_append, List.flatMap_append, List.flatMap_singleton]
    exact ih.append (stepLedger_instants input _)

theorem lastInstant_mem (start : Nat) (ops : List MonitorOp) :
    lastInstant start ops ∈ start :: ops.filterMap MonitorOp.instant := by
  induction ops using List.reverseRecOn with
  | nil => exact List.mem_cons_self
  | append_singleton ops op ih =>
    rw [lastInstant_snoc, List.filterMap_append, List.filterMap_cons]
    cases op.instant with
    | none =>
      rw [List.filterMap_nil, List.append_nil]
      exact ih
    | some now => simp

theorem clock_of_pairwise {start : Nat} {ops : List MonitorOp}
    (h : (start :: ops.filterMap MonitorOp.instant).Pairwise (· ≤ ·)) :
    ∀ before op, before ++ [op] <+: ops → ∀ now ∈ op.instant, lastInstant start before ≤ now := by
  rintro before op ⟨after, rfl⟩ now hnow
  rw [Option.mem_def] at hnow
  rw [List.append_assoc, List.filterMap_append, List.filterMap_append, List.filterMap_cons, hnow,
    List.filterMap_nil, ← List.cons_append, List.pairwise_append] at h
  exact h.2.2 _ (lastInstant_mem start before) now (by simp)

/-- More operations at one tick. -/
theorem ticks_snoc {ops more : List MonitorOp} {tick : Nat}
    (h : ∀ before op, before ++ [op] <+: ops → ∀ t ∈ op.tick, lastCheckTick before ≤ t)
    (hlast : lastCheckTick ops ≤ tick) (hreset : OneEpoch more)
    (htick : ∀ op ∈ more, ∀ t ∈ op.tick, t = tick) :
    (∀ before op, before ++ [op] <+: ops ++ more → ∀ t ∈ op.tick, lastCheckTick before ≤ t) ∧
      lastCheckTick (ops ++ more) ≤ tick := by
  induction more using List.reverseRecOn with
  | nil =>
    rw [List.append_nil]
    exact ⟨h, hlast⟩
  | append_singleton more op ih =>
    rcases ih (fun op' hmem => hreset op' (List.mem_append_left _ hmem))
      (fun op' hmem => htick op' (List.mem_append_left _ hmem)) with ⟨hrise, hle⟩
    have hop := htick op (by simp)
    rw [← List.append_assoc]
    constructor
    · intro before op' hbegins t ht
      rcases List.prefix_concat_iff.1 hbegins with heq | hold
      · rcases List.append_inj' heq rfl with ⟨hbefore, hlast'⟩
        cases List.singleton_inj.1 hlast'
        rw [hbefore, hop t ht]
        exact hle
      · exact hrise before op' hold t ht
    · rw [lastCheckTick_snoc, hreset op (by simp), if_neg Bool.false_ne_true]
      cases hop' : op.tick with
      | none => exact hle
      | some t => exact (hop t hop').le

/-- With ordered reports the checks of an epoch run at rising ticks. -/
theorem ticks_of_reports (a b c : Nat) {inputs : List EngineInput} (h : RisingReports inputs) :
    (∀ before op, before ++ [op] <+: ledger cfg (Engine.new cfg a b c) inputs →
      ∀ t ∈ op.tick, lastCheckTick before ≤ t) ∧
    lastCheckTick (ledger cfg (Engine.new cfg a b c) inputs) ≤
      ((reports inputs).getLast?.map TickInfo.tick).getD 0 := by
  induction inputs using List.reverseRecOn with
  | nil =>
    refine ⟨?_, le_rfl⟩
    intro before op hbegins
    have hnil : before ++ [op] = [] := List.prefix_nil.1 hbegins
    simp at hnil
  | append_singleton inputs input ih =>
    have hepoch := epoch_of_reports cfg a b c inputs
    rw [RisingReports, reports_snoc, List.isChain_append] at h
    rcases h with ⟨hinit, -, hnext⟩
    rcases ih hinit with ⟨hrise, hle⟩
    rw [ledger_snoc, reports_snoc]
    have hcases := @stepLedger_cases cfg input
      ((engineMachine cfg).state (Engine.new cfg a b c) inputs)
    have hticks := @stepLedger_tick cfg input
      ((engineMachine cfg).state (Engine.new cfg a b c) inputs)
    generalize (engineMachine cfg).state (Engine.new cfg a b c) inputs = e at *
    rcases hcases with ⟨tick, tickCheckAt, monitorLogAt, rest, hreport, -, hops, hrest⟩ |
      ⟨hsame, hreset⟩
    · -- the reset starts the ticks anew
      rw [hops] at hticks ⊢
      rw [hreport] at hticks ⊢
      rw [List.append_cons]
      have hzero : lastCheckTick (ledger cfg (Engine.new cfg a b c) inputs ++
          [.reset tickCheckAt monitorLogAt]) = 0 := by
        rw [lastCheckTick_snoc]
        rfl
      have hresets : ∀ before op, before ++ [op] <+: ledger cfg (Engine.new cfg a b c) inputs ++
          [.reset tickCheckAt monitorLogAt] → ∀ t ∈ op.tick, lastCheckTick before ≤ t := by
        intro before op hbegins t ht
        rcases List.prefix_concat_iff.1 hbegins with heq | hold
        · cases List.singleton_inj.1 (List.append_inj' heq rfl).2
          cases ht
        · exact hrise before op hold t ht
      have hmore := ticks_snoc hresets (hzero.le.trans (Nat.zero_le tick.tick)) hrest (by
        intro op hop t ht
        rcases hticks op (List.mem_cons_of_mem _ hop) t ht with ⟨tick', hmem, heq⟩
        cases hmem
        exact heq)
      simpa using hmore
    · cases hreport : input.report with
      | none =>
        rw [hreport] at hticks
        rw [Option.toList_none, List.append_nil]
        apply ticks_snoc hrise hle hreset
        intro op hop t ht
        rcases hticks op hop t ht with ⟨tick, hmem, -⟩
        cases hmem
      | some tick =>
        rw [hreport] at hnext hsame hticks
        -- the last report was of the same epoch
        have hlast : ((reports inputs).getLast?.map TickInfo.tick).getD 0 ≤ tick.tick := by
          cases hprevious : (reports inputs).getLast? with
          | none => exact Nat.zero_le _
          | some previous =>
            have hrecorded := hsame tick rfl
            rw [hprevious] at hepoch
            simp only [epochChanges, hepoch, Option.map_some, ne_eq, Option.some.injEq,
              decide_not, Bool.not_eq_false', decide_eq_true_eq] at hrecorded
            exact hnext previous hprevious tick (by simp) hrecorded
        have hmore := ticks_snoc hrise (hle.trans hlast) hreset (by
          intro op hop t ht
          rcases hticks op hop t ht with ⟨tick', hmem, heq⟩
          cases hmem
          exact heq)
        simpa using hmore

/-- With ordered reports and a steady clock the ledger is orderly. -/
theorem orderly_of_run (a b c : Nat) {inputs : List EngineInput} (hreports : RisingReports inputs)
    (hclock : SteadyClock b inputs) : Orderly b (ledger cfg (Engine.new cfg a b c) inputs) where
  ticks := (ticks_of_reports a b c hreports).1
  clock := clock_of_pairwise (hclock.sublist ((ledger_instants _ inputs).cons_cons b))

/-! ## The result -/

/-- In a run with ordered reports and a steady clock, `ensure_tick_check` starts a
check only with no other one active, an interval after the previous start of
the epoch, for the largest target that may be checked, and not before the
backoff of its failures has passed; and it does start one whenever it may. -/
theorem newest_check_first (cfg : Config) (a b c : Nat) (inputs : List EngineInput)
    (hreports : RisingReports inputs) (hclock : SteadyClock b inputs) {ops : List MonitorOp}
    {currentTick expireAt now : Nat}
    (hop : ops ++ [.ensureTickCheck currentTick expireAt now] <+:
      ledger cfg (Engine.new cfg a b c) inputs) :
    let m := (monitorMachine cfg).state (Monitor.new b c) ops
    let h := checkHistory cfg (Monitor.new b c) ops
    let verified := verifiedTargets cfg (Monitor.new b c) ops
    let started := MonitorOp.starts cfg m (.ensureTickCheck currentTick expireAt now)
    (∀ target startedAt, started = some (target, startedAt) → startedAt = now ∧
      (m.expireTickChecks cfg currentTick expireAt).tickCheck = none ∧
      (∀ previous ∈ h.started.getLast?, previous.2 + cfg.emptyTickCheckIntervalMs ≤ now) ∧
      IsGreatest {t | Eligible cfg m.sendOutcomes h verified currentTick now t} target ∧
      ∀ harvestedAt ∈ (h.failedAt target).getLast?,
        harvestedAt + backoffMs (h.failedAt target).length ≤ now) ∧
    ((m.expireTickChecks cfg currentTick expireAt).tickCheck = none →
      (∀ previous ∈ h.started.getLast?, previous.2 + cfg.emptyTickCheckIntervalMs ≤ now) →
      (∃ t, Eligible cfg m.sendOutcomes h verified currentTick now t) → started.isSome) := by
  intro m h verified started
  rcases hop with ⟨after, hafter⟩
  have hall := @orderly_of_run cfg a b c inputs hreports hclock
  rw [← hafter] at hall
  have horderly := hall.init
  have hscheduled : Scheduled cfg (lastCheckTick ops) (lastInstant b ops) h m :=
    scheduled_of_ops b c horderly.init
  have htick := horderly.ticks ops _ List.prefix_rfl currentTick rfl
  have hnow := horderly.clock ops _ List.prefix_rfl now rfl
  rcases @Scheduled.expire cfg _ _ h m hscheduled currentTick htick expireAt with
    ⟨hexpired, holdest⟩
  rcases @ensureTickCheck_cases cfg currentTick expireAt now m with ⟨start, hensured, hstarts⟩
  have hsettled : ∀ target ∈ verified,
      (m.expireTickChecks cfg currentTick expireAt).Settled target := by
    intro target hmem
    exact (expireTickChecks_advances currentTick expireAt m).settled target
      ((verifiedTargets_nodup ops b c).2 target hmem)
  have hchecked : ∀ target ∈ (m.expireTickChecks cfg currentTick expireAt).checkedTargetTicks,
      target ∈ verified := fun target hmem =>
    checked_verified ops b c target (Finset.mem_filter.1 hmem).1
  have hnewest := hexpired.newest hnow holdest hsettled hchecked hensured
  -- the instant of the next check is the interval after the previous start
  have hinterval : (m.expireTickChecks cfg currentTick expireAt).nextTickCheckAt ≤ now ↔
      ∀ previous ∈ h.started.getLast?, previous.2 + cfg.emptyTickCheckIntervalMs ≤ now := by
    cases hlast : h.started.getLast? with
    | none =>
      have hidle := hexpired.idle (List.getLast?_eq_none_iff.1 hlast)
      simp only [Option.mem_def, reduceCtorEq, false_implies, implies_true, iff_true]
      omega
    | some previous =>
      rw [hexpired.interval previous hlast]
      simp
  constructor
  · intro target startedAt hstarted
    have hstart : start = some target ∧ startedAt = now := by
      change MonitorOp.starts cfg m _ = _ at hstarted
      rw [hstarts] at hstarted
      rcases Option.map_eq_some_iff.1 hstarted with ⟨target', hstart, heq⟩
      cases heq
      exact ⟨hstart, rfl⟩
    rcases hnewest.1 target hstart.1 with ⟨hidle, hnext, hgreatest⟩
    refine ⟨hstart.2, hidle, hinterval.1 hnext, hgreatest, ?_⟩
    intro harvestedAt hlast
    by_contra hearly
    exact hgreatest.1.due ⟨harvestedAt, hlast, Nat.not_le.1 hearly⟩
  · intro hidle hprevious heligible
    have hsome := hnewest.2 hidle (hinterval.2 hprevious) heligible
    change (MonitorOp.starts cfg m _).isSome
    rw [hstarts, Option.isSome_map]
    exact hsome

/-- A cycle that does not fail ends with its tick checks. -/
theorem stepLedger_finishes {input : CycleInput} {e : Engine} {tick : TickInfo}
    (htick : input.tick = .ok tick) (herror : (cycle cfg input e).error = none) :
    ∃ rest, stepLedger cfg (.cycle input) e = rest ++ finishLedger tick input
      (planOf (phaseAfter cfg tick input e) tick.epoch input.cancelled) := by
  have hnot : ¬ (engineStep cfg (.cycle input) e).error.isSome = true := by
    show ¬ (cycle cfg input e).error.isSome = true
    rw [herror]
    exact Bool.false_ne_true
  simp only [stepLedger, htick, if_neg hnot]
  exact ⟨_, rfl⟩

/-- A cycle that neither fails nor drains ends with `ensure_tick_check`. -/
theorem stepLedger_ensures {input : CycleInput} {e : Engine} {tick : TickInfo}
    (htick : input.tick = .ok tick) (herror : (cycle cfg input e).error = none)
    (hplan : planOf (phaseAfter cfg tick input e) tick.epoch input.cancelled = .normal) :
    ∃ rest, stepLedger cfg (.cycle input) e =
      rest ++ [.ensureTickCheck tick.tick input.clock.ensureExpireAt input.clock.ensureAt] := by
  rcases stepLedger_finishes htick herror with ⟨rest, hrest⟩
  rw [hrest, hplan, finishLedger, ← List.append_assoc]
  exact ⟨_, rfl⟩

/-- Cycles of an epoch at the given ticks, with the clock at one second a tick
and every broadcast accepted. -/
def checkedRun (epoch opened : Nat) (ticks : List (Fin 256)) : List EngineInput :=
  ticks.map fun tick =>
    sampleCycle (1000 * (opened + tick.val)) (sampleTick epoch tick) (some emptyStatus)
      fun _ => some .ok

/-- The first reveals of the streams 0 and 1 are old enough at tick 20, and the
newer one is checked first. -/
theorem newest_check_first_two_targets :
    let inputs := checkedRun 1 0 [0, 1, 3, 7, 20]
    let ops := (ledger sampleConfig sampleEngine inputs).dropLast
    let m := (monitorMachine sampleConfig).state (Monitor.new 0 0) ops
    IsGreatest {t | Eligible sampleConfig m.sendOutcomes
      (checkHistory sampleConfig (Monitor.new 0 0) ops)
      (verifiedTargets sampleConfig (Monitor.new 0 0) ops) 20 20000 t} 10 := by
  intro inputs ops m
  have hledger : ops ++ [.ensureTickCheck 20 20000 20000] <+:
      ledger sampleConfig sampleEngine inputs := by
    have hlast : inputs = checkedRun 1 0 [0, 1, 3, 7] ++ checkedRun 1 0 [20] := rfl
    have hstep : ∃ rest, stepLedger sampleConfig
        (sampleCycle 20000 (sampleTick 1 20) (some emptyStatus) fun _ => some .ok)
        ((engineMachine sampleConfig).state sampleEngine (checkedRun 1 0 [0, 1, 3, 7])) =
          rest ++ [.ensureTickCheck 20 20000 20000] :=
      @stepLedger_ensures sampleConfig _ _ (sampleTick 1 20) rfl (by decide +kernel)
        (by decide +kernel)
    rcases hstep with ⟨rest, hrest⟩
    have hall : ledger sampleConfig sampleEngine inputs =
        (ledger sampleConfig sampleEngine (checkedRun 1 0 [0, 1, 3, 7]) ++ rest) ++
          [.ensureTickCheck 20 20000 20000] := by
      rw [hlast, List.append_assoc, ← hrest]
      exact ledger_snoc _ _ _
    show (ledger sampleConfig sampleEngine inputs).dropLast ++ _ <+: _
    rw [hall, List.dropLast_concat]
  have hstarts : MonitorOp.starts sampleConfig m (.ensureTickCheck 20 20000 20000) =
      some (10, 20000) := by decide +kernel
  exact ((newest_check_first sampleConfig 0 0 0 inputs (by decide +kernel) (by decide +kernel)
    hledger).1 10 20000 hstarts).2.2.2.1

/-- The checks that operations start, those of every epoch, in order. -/
def startedChecks (cfg : Config) (m : Monitor) (ops : List MonitorOp) : List (Nat × Nat) :=
  (monitorMachine cfg).track (fun m op started => started ++ (op.starts cfg m).toList) m [] ops

/-- A sample configuration with 1000 seconds between two checks. -/
def patientConfig : Config := { sampleConfig with emptyTickCheckIntervalMs := 1000000 }

/-- The interval is not kept across an epoch change: `reset_slots` lets the next
check start at once. Two checks start within 22 of 1000 seconds. -/
theorem interval_starts_anew_with_epoch :
    let inputs := checkedRun 1 0 [0, 1, 3, 7, 20] ++ checkedRun 2 22 [0, 1, 3, 7, 20]
    let started := startedChecks patientConfig (Monitor.new 0 0)
      (ledger patientConfig (Engine.new patientConfig 0 0 0) inputs)
    RisingReports inputs ∧ SteadyClock 0 inputs ∧ started = [(10, 20000), (10, 42000)] ∧
      ¬ started.IsChain fun previous next =>
        previous.2 + patientConfig.emptyTickCheckIntervalMs ≤ next.2 := by
  decide +kernel

end RandomClient
