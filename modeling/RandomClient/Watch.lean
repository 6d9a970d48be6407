import Mathlib.Order.Bounds.Basic
import RandomClient.Lib.Confirmation
import RandomClient.Steps

/-!
# Watching a chain

What a status observation says about the chain it is applied to (`readingOf`),
in terms of the chain's targets, its acknowledgement watermark and the first
target a starting slot waits for. The suspicion the engine keeps is the
confirmation series of these readings (`Suspects`), and an observation freezes
the chain exactly when the series gets its third item
(`applyStatus_watched`).
-/

namespace RandomClient

variable {cfg : Config}

/-! ## Regular chains -/

/-- The targets of the chain run in steps of three from its first to its last. -/
structure Chain.Regular (chain : Chain) : Prop where
  first_le : chain.firstTarget ≤ chain.lastTarget
  spaced : (chain.lastTarget - chain.firstTarget) % streamCount = 0
  last_le : chain.lastTarget ≤ u32Max

theorem Chain.ownsTarget_iff {chain : Chain} {target : Nat} : chain.ownsTarget target = true ↔
    chain.firstTarget ≤ target ∧ target ≤ chain.lastTarget ∧
      (target - chain.firstTarget) % streamCount = 0 := by
  simp [Chain.ownsTarget]

/-- `latest_target_before` finds the greatest signed target below the tick. -/
theorem Chain.Regular.latestTargetBefore_isGreatest {chain : Chain} (h : chain.Regular)
    {tick target : Nat} (hlatest : chain.latestTargetBefore tick = some target) :
    IsGreatest {t | chain.ownsTarget t = true ∧ t < tick} target := by
  obtain ⟨hfirst, hspaced, hlast⟩ := h
  unfold Chain.latestTargetBefore at hlatest
  simp only [Option.bind_eq_bind, Option.bind_eq_some_iff] at hlatest
  obtain ⟨previous, hprevious, distance, hdistance, hsum⟩ := hlatest
  obtain ⟨hone, rfl⟩ := Bounded.checkedSub_eq_some.1 hprevious
  obtain ⟨hle, rfl⟩ := Bounded.checkedSub_eq_some.1 hdistance
  obtain ⟨rfl, -⟩ := Bounded.checkedAdd_eq_some.1 hsum
  simp only [streamCount] at *
  refine ⟨⟨Chain.ownsTarget_iff.2 ⟨?_, ?_, ?_⟩, ?_⟩, ?_⟩
  · omega
  · omega
  · simp only [streamCount]
    omega
  · omega
  · rintro t ⟨howns, hlt⟩
    obtain ⟨hfirst', hlast', hmod⟩ := Chain.ownsTarget_iff.1 howns
    simp only [streamCount] at hmod
    omega

/-- `latest_target_before` finds a target when there is one. -/
theorem Chain.Regular.latestTargetBefore_eq_none {chain : Chain} (h : chain.Regular) {tick : Nat}
    (hlatest : chain.latestTargetBefore tick = none) {target : Nat}
    (howns : chain.ownsTarget target = true) : tick ≤ target := by
  obtain ⟨hfirst, hspaced, hlast⟩ := h
  obtain ⟨hfirst', -, -⟩ := Chain.ownsTarget_iff.1 howns
  by_contra hlt
  have hprevious : Bounded.checkedSub tick 1 = some (tick - 1) :=
    Bounded.checkedSub_eq_some.2 ⟨by omega, rfl⟩
  have hdistance : Bounded.checkedSub (min (tick - 1) chain.lastTarget) chain.firstTarget =
      some (min (tick - 1) chain.lastTarget - chain.firstTarget) :=
    Bounded.checkedSub_eq_some.2 ⟨by omega, rfl⟩
  simp only [Chain.latestTargetBefore, hprevious, hdistance, Option.bind_eq_bind,
    Option.bind_some, checkedAdd, Bounded.checkedAdd_eq_none, streamCount] at hlatest
  omega

/-! ## Readings -/

/-- What one observation says about a chain. -/
inductive Reading where
  /-- Nothing: it is too early, or the owned tick lies below the watermark. -/
  | silent
  /-- The chain is acknowledged as far as is due. `advances`: the watermark moves. -/
  | inSync (advances : Bool)
  /-- The evidence contradicts the chain. `advances`: the watermark moves. -/
  | contradicts (advances : Bool) (evidence : StatusEvidence)
deriving DecidableEq, Repr

def Reading.advances : Reading → Bool
  | .silent => false
  | .inSync advances | .contradicts advances _ => advances

def Reading.evidence : Reading → Option StatusEvidence
  | .contradicts _ evidence => some evidence
  | .silent | .inSync _ => none

def Reading.verdict : Reading → Confirmation.Verdict
  | .silent => .silent
  | .inSync _ => .cleared
  | .contradicts _ _ => .evidence

/-- A starting slot ignores what was requested up to its first target. -/
def SlotState.tooEarly (state : SlotState) (requestedTick : Nat) : Bool :=
  match state with
  | .starting firstTarget => requestedTick ≤ firstTarget
  | _ => false

/-- The reading of an update tick, or of absence, requested at a tick. An owned
update tick misses the target after it once that target is signed and lies
below the request tick. -/
def readingOf (state : SlotState) (chain : Chain) (observed : Option Nat) (requestedTick : Nat) :
    Reading :=
  match observed with
  | some target =>
    if chain.ownsTarget target then
      if chain.confirmedThrough.any (fun previous => target < previous) then .silent
      else if chain.ownsTarget (target + streamCount) ∧ target + streamCount < requestedTick then
        .contradicts (chain.confirmedThrough ≠ some target) (.lag (target + streamCount))
      else .inSync (chain.confirmedThrough ≠ some target)
    else if state.tooEarly requestedTick then .silent
    else .contradicts false (.foreign target)
  | none => if state.tooEarly requestedTick then .silent else .contradicts false .absent

/-- An observation with the chain it was applied to, as both were then. -/
structure Sighting where
  state : SlotState
  chain : Chain
  requestedTick : Nat
  observed : Option Nat
deriving DecidableEq

def Sighting.reading (x : Sighting) : Reading :=
  readingOf x.state x.chain x.observed x.requestedTick

/-- The observation as the chain sees it. -/
def sightingOf (key : SlotKey) (state : SlotState) (chain : Chain)
    (observation : StatusObservation) : Sighting where
  state := state
  chain := chain
  requestedTick := observation.requestedTick
  observed := observation.observedTarget key

/-- Sightings count by their request ticks. -/
def watchRules : Confirmation.Rules Sighting where
  key x := x.requestedTick
  advances x := x.reading.advances
  verdict x := x.reading.verdict
  agrees x y :=
    match x.reading.evidence, y.reading.evidence with
    | some evidence, some next => evidence.agreesWith next
    | _, _ => false

/-- The watermark after a sighting. -/
def confirmedAfter (chain : Chain) (x : Sighting) : Option Nat :=
  if x.reading.advances then x.observed else chain.confirmedThrough

/-! ## The suspicion is the series -/

/-- The suspicion of a chain stands for the series of its sightings. -/
def Suspects : Option StatusSuspicion → List Sighting → Prop
  | none, series => series = []
  | some suspicion, series => ∃ last, series.getLast? = some last ∧
      suspicion.confirmations = series.length ∧
      suspicion.lastRequestedTick = last.requestedTick ∧
      last.reading.evidence = some suspicion.evidence ∧
      series.head?.map Sighting.requestedTick = some suspicion.firstRequestedTick

/-- A series has one suspicion. -/
theorem Suspects.unique {suspicion other : Option StatusSuspicion} {series : List Sighting}
    (h : Suspects suspicion series) (h' : Suspects other series) : suspicion = other := by
  cases suspicion with
  | none =>
    obtain rfl : series = [] := h
    cases other with
    | none => rfl
    | some other => simp [Suspects] at h'
  | some suspicion =>
    obtain ⟨last, hlast, hcount, htick, hevidence, hfirst⟩ := h
    cases other with
    | none =>
      obtain rfl : series = [] := h'
      cases hlast
    | some other =>
      obtain ⟨last', hlast', hcount', htick', hevidence', hfirst'⟩ := h'
      obtain rfl := Option.some.inj (hlast.symm.trans hlast')
      have hsame := Option.some.inj (hevidence.symm.trans hevidence')
      have hsame' := Option.some.inj (hfirst.symm.trans hfirst')
      obtain ⟨e, c, f, l⟩ := suspicion
      obtain ⟨e', c', f', l'⟩ := other
      simp_all

/-- The outcome of a freeze: the tail is kept, or there is no restart tick. -/
def Froze (tail : Nat) (state : SlotState) : Prop :=
  (checkedAdd tail streamCount = none ∧ state = .drained .failed) ∨
    (tail + streamCount ≤ u32Max ∧ ∃ after observed, state = .restarting tail after observed none)

/-- What an observation does to a slot that is planning `chain`, given the
series after it: the third item freezes the chain, and fewer only change what
is known of it. -/
def Watched (slot : ManagedSlot) (chain : Chain) (confirmed : Option Nat) (r : SlotResult)
    (series : List Sighting) : Prop :=
  (series.length = 3 ∧ Froze chain.lastTarget r.slot.state) ∨
    (series.length < 3 ∧ ∃ suspicion, Suspects suspicion series ∧
      r = { slot := { slot with chain := some { chain with
        confirmedThrough := confirmed, statusSuspicion := suspicion } } })

theorem Suspects.isStale_iff {suspicion : Option StatusSuspicion} {series : List Sighting}
    (h : Suspects suspicion series) {requestedTick : Nat} :
    isStale suspicion requestedTick = true ↔
      ∃ last, series.getLast? = some last ∧ requestedTick ≤ last.requestedTick := by
  cases suspicion with
  | none =>
    rw [h]
    simp [isStale]
  | some suspicion =>
    obtain ⟨last, hlast, -, htick, -, -⟩ := h
    simp [isStale, hlast, htick]

/-- Evidence that is not stale makes the next suspicion. -/
theorem Suspects.after {suspicion : Option StatusSuspicion} {series : List Sighting}
    (h : Suspects suspicion series) (hlength : series.length < 3) {x : Sighting}
    {evidence : StatusEvidence} (hevidence : x.reading.evidence = some evidence)
    (hadvances : x.reading.advances = false ∨ series = [])
    (hstale : isStale suspicion x.requestedTick = false) :
    Suspects (some (suspicionAfter suspicion evidence x.requestedTick))
      (watchRules.step series x) := by
  have hverdict : watchRules.verdict x = .evidence := by
    cases hreading : x.reading <;> simp_all [watchRules, Reading.verdict, Reading.evidence]
  cases suspicion with
  | none =>
    -- the first evidence begins a series
    obtain rfl : series = [] := h
    have hbegins : watchRules.Begins [] x := ⟨hverdict, .inr (by simp)⟩
    rw [Confirmation.Rules.step_of_begins hbegins]
    exact ⟨x, rfl, rfl, rfl, hevidence, rfl⟩
  | some suspicion =>
    obtain ⟨last, hlast, hcount, htick, hold, hfirst⟩ := h
    have hne : series ≠ [] := by
      rintro rfl
      cases hlast
    have hnot : watchRules.advances x = false := hadvances.resolve_right hne
    have hlater : last.requestedTick < x.requestedTick := by
      simpa [isStale, htick] using hstale
    have hobserve : ¬ x.requestedTick ≤ suspicion.lastRequestedTick := by omega
    have hagrees : watchRules.agrees last x = suspicion.evidence.agreesWith evidence := by
      simp [watchRules, hold, hevidence]
    simp only [suspicionAfter, StatusSuspicion.observe, if_neg hobserve]
    by_cases hagree : suspicion.evidence.agreesWith evidence = true
    · have hfollows : watchRules.Follows last x :=
        ⟨hverdict, hnot, hlater, hagrees.trans hagree⟩
      rw [if_pos hagree, Confirmation.Rules.step_of_follows hlast hfollows]
      refine ⟨x, by simp, ?_, rfl, hevidence, ?_⟩
      · simp only [List.length_append, List.length_singleton, hcount, statusConfirmationsRequired]
        omega
      · rw [List.head?_append_of_ne_nil _ hne]
        exact hfirst
    · have hbegins : watchRules.Begins series x := by
        refine ⟨hverdict, .inr ?_⟩
        intro y hy
        obtain rfl := Option.some.inj (hlast.symm.trans hy)
        exact ⟨hlater, by rw [hagrees]; simpa using hagree⟩
      rw [if_neg hagree, Confirmation.Rules.step_of_begins hbegins]
      exact ⟨x, rfl, rfl, rfl, hevidence, rfl⟩

theorem Suspects.isConfirmed_iff {suspicion : StatusSuspicion} {series : List Sighting}
    (h : Suspects (some suspicion) series) : suspicion.isConfirmed = true ↔ 3 ≤ series.length := by
  obtain ⟨_, -, hcount, -⟩ := h
  simp [StatusSuspicion.isConfirmed, hcount]

/-- The series never grows past three. -/
theorem watchRules_step_length {series : List Sighting} (h : series.length < 3) (x : Sighting) :
    (watchRules.step series x).length ≤ 3 := by
  rcases Confirmation.Rules.step_cases (R := watchRules) series x with ⟨_, _, _, heq⟩ | heq |
    ⟨_, heq⟩ | ⟨_, _, _, heq⟩
  all_goals
    simp only [heq, List.length_append, List.length_singleton, List.length_nil]
    omega

theorem beginStatusRestart_froze {after tail : Nat} {observed : Bool} {slot : ManagedSlot}
    {chain : Chain} (hchain : slot.chain = some chain) (htail : chain.lastTarget = tail) :
    Froze tail (beginStatusRestart after observed slot).slot.state := by
  simp only [beginStatusRestart, hchain, htail]
  split
  · rename_i hnone
    exact .inl ⟨hnone, rfl⟩
  · rename_i restartAt hsome
    obtain ⟨hsum, hle⟩ := Bounded.checkedAdd_eq_some.1 hsome
    exact .inr ⟨by omega, after, observed, rfl⟩

/-- Evidence is counted as the series counts it. -/
theorem observeStatusEvidence_watched {slot : ManagedSlot} {chain : Chain} {series : List Sighting}
    (hchain : slot.chain = some chain) (h : Suspects chain.statusSuspicion series)
    (hlength : series.length < 3) {x : Sighting} {evidence : StatusEvidence}
    (hevidence : x.reading.evidence = some evidence)
    (hadvances : x.reading.advances = false ∨ series = []) :
    Watched slot chain chain.confirmedThrough
      (observeStatusEvidence evidence x.requestedTick slot) (watchRules.step series x) := by
  simp only [observeStatusEvidence, hchain]
  split
  · -- stale evidence is ignored
    rename_i hstale
    obtain ⟨last, hlast, hle⟩ := h.isStale_iff.1 hstale
    have hne : series ≠ [] := by
      rintro rfl
      cases hlast
    have hquiet : watchRules.Quiet (watchRules.key last) x :=
      ⟨hadvances.resolve_right hne, .inl hle⟩
    rw [Confirmation.Rules.step_of_quiet hlast hquiet]
    exact .inr ⟨hlength, chain.statusSuspicion, h, by rw [← hchain]⟩
  · rename_i hstale
    have hafter := h.after hlength hevidence hadvances (by simpa using hstale)
    split
    · rename_i hconfirmed
      have hthree := hafter.isConfirmed_iff.1 hconfirmed
      have hle := watchRules_step_length hlength x
      refine .inl ⟨by omega, ?_⟩
      exact beginStatusRestart_froze rfl rfl
    · rename_i hconfirmed
      have hthree : ¬ 3 ≤ (watchRules.step series x).length :=
        fun hle => hconfirmed (hafter.isConfirmed_iff.2 hle)
      exact .inr ⟨by omega, _, hafter, rfl⟩

theorem ownsTarget_next_iff {chain : Chain} (hregular : chain.Regular) {target : Nat} (tick : Nat)
    (howns : chain.ownsTarget target = true) :
    (chain.ownsTarget (target + streamCount) = true ∧ target + streamCount < tick) ↔
      ∃ latest, chain.latestTargetBefore tick = some latest ∧ target < latest := by
  have hown := Chain.ownsTarget_iff.1 howns
  constructor
  · rintro ⟨hnext, hlt⟩
    cases hlatest : chain.latestTargetBefore tick with
    | none =>
      have hle := hregular.latestTargetBefore_eq_none hlatest hnext
      omega
    | some latest =>
      refine ⟨latest, rfl, ?_⟩
      have hle := (hregular.latestTargetBefore_isGreatest hlatest).2 ⟨hnext, hlt⟩
      simp only [streamCount] at hle
      omega
  · rintro ⟨latest, hlatest, hlt⟩
    obtain ⟨⟨howns', htick⟩, -⟩ := hregular.latestTargetBefore_isGreatest hlatest
    have hown' := Chain.ownsTarget_iff.1 howns'
    rw [Chain.ownsTarget_iff]
    simp only [streamCount] at *
    omega

/-- Once the watermark is at the update tick, the observation counts as its reading says. -/
theorem acknowledgeDue_watched (slot : ManagedSlot) {chain : Chain} {series : List Sighting}
    (hregular : chain.Regular) (h : Suspects chain.statusSuspicion series)
    (hlength : series.length < 3) {x : Sighting} {advances : Bool} {target : Nat}
    (howns : chain.ownsTarget target = true)
    (hreading : x.reading =
      if chain.ownsTarget (target + streamCount) ∧ target + streamCount < x.requestedTick then
        .contradicts advances (.lag (target + streamCount))
      else .inSync advances)
    (hadvances : x.reading.advances = false ∨ series = [])
    (hlater : ∀ last ∈ series.getLast?, last.requestedTick < x.requestedTick) :
    Watched slot chain chain.confirmedThrough
      (applyAcknowledgement x.requestedTick slot (chain.acknowledgeDue target x.requestedTick))
      (watchRules.step series x) := by
  have hnext := ownsTarget_next_iff hregular x.requestedTick howns
  -- in sync: the suspicion is dropped
  have hsync : ¬ (chain.ownsTarget (target + streamCount) = true ∧
      target + streamCount < x.requestedTick) →
      Watched slot chain chain.confirmedThrough
        { slot := { slot with chain := some { chain with statusSuspicion := none } } }
        (watchRules.step series x) := by
    intro hnot
    rw [if_neg hnot] at hreading
    have hcleared : watchRules.verdict x = .cleared := by
      simp [watchRules, hreading, Reading.verdict]
    rw [Confirmation.Rules.step_of_cleared hcleared (.inr hlater)]
    exact .inr ⟨by simp, none, rfl, rfl⟩
  unfold Chain.acknowledgeDue
  cases hlatest : chain.latestTargetBefore x.requestedTick with
  | none =>
    refine hsync fun hmissing => ?_
    obtain ⟨latest, hsome, -⟩ := hnext.1 hmissing
    rw [hlatest] at hsome
    cases hsome
  | some latest =>
    by_cases hle : latest ≤ target
    · simp only [if_pos hle]
      refine hsync fun hmissing => ?_
      obtain ⟨latest', hsome, hlt⟩ := hnext.1 hmissing
      rw [hlatest, Option.some.injEq] at hsome
      omega
    · -- the target after the watermark is due
      have hmissing := hnext.2 ⟨latest, hlatest, not_le.1 hle⟩
      have hsum : checkedAdd target streamCount = some (target + streamCount) :=
        Bounded.checkedAdd_eq_some.2 ⟨rfl,
          (Chain.ownsTarget_iff.1 hmissing.1).2.1.trans hregular.last_le⟩
      rw [if_pos hmissing] at hreading
      simp only [if_neg hle, hsum]
      have hevidence : x.reading.evidence = some (.lag (target + streamCount)) := by
        rw [hreading]
        rfl
      exact observeStatusEvidence_watched rfl h hlength hevidence hadvances

/-- An owned update tick is counted as its reading says. -/
theorem applyConfirmationWatermark_watched {slot : ManagedSlot} {chain : Chain}
    {series : List Sighting} (hchain : slot.chain = some chain) (hregular : chain.Regular)
    (h : Suspects chain.statusSuspicion series) (hlength : series.length < 3) {x : Sighting}
    {state : SlotState} {target : Nat} (howns : chain.ownsTarget target = true)
    (hobserved : x.observed = some target)
    (hreading : x.reading = readingOf state chain (some target) x.requestedTick) :
    Watched slot chain (confirmedAfter chain x)
      (applyConfirmationWatermark target x.requestedTick slot) (watchRules.step series x) := by
  simp only [readingOf, howns, if_true] at hreading
  simp only [applyConfirmationWatermark, hchain, Chain.acknowledge]
  by_cases hbelow : chain.confirmedThrough.any (fun previous => target < previous) = true
  · -- below the watermark
    rw [if_pos hbelow] at hreading
    rw [if_pos hbelow]
    have hstep : watchRules.step series x = series :=
      Confirmation.Rules.step_of_silent (by simp [watchRules, hreading, Reading.advances])
        (by simp [watchRules, hreading, Reading.verdict])
    have hconfirmed : confirmedAfter chain x = chain.confirmedThrough := by
      simp [confirmedAfter, hreading, Reading.advances]
    rw [hstep, hconfirmed]
    exact .inr ⟨hlength, chain.statusSuspicion, h, by rw [← hchain]; rfl⟩
  · rw [if_neg hbelow] at hreading
    rw [if_neg hbelow]
    by_cases hsame : chain.confirmedThrough = some target
    · -- the watermark stays
      have hadvances : x.reading.advances = false := by
        rw [hreading]
        split <;> simp [Reading.advances, hsame]
      have hconfirmed : confirmedAfter chain x = chain.confirmedThrough := by
        simp [confirmedAfter, hadvances]
      rw [hconfirmed]
      by_cases hstale : isStale chain.statusSuspicion x.requestedTick = true
      · obtain ⟨last, hlast, hle⟩ := h.isStale_iff.1 hstale
        have hquiet : watchRules.Quiet (watchRules.key last) x := ⟨hadvances, .inl hle⟩
        rw [Confirmation.Rules.step_of_quiet hlast hquiet]
        simp only [hsame, hstale]
        exact .inr ⟨hlength, chain.statusSuspicion, h, by rw [← hsame, ← hchain]; simp [applyAcknowledgement]⟩
      · have hlater : ∀ last ∈ series.getLast?, last.requestedTick < x.requestedTick := by
          intro last hlast
          by_contra hle
          exact hstale (h.isStale_iff.2 ⟨last, hlast, not_lt.1 hle⟩)
        have hdue := acknowledgeDue_watched slot hregular h hlength howns hreading (.inl hadvances)
          hlater
        simpa [hsame, hstale] using hdue
    · -- the watermark advances, and the series starts again
      have hadvances : x.reading.advances = true := by
        rw [hreading]
        split <;> simp [Reading.advances, hsame]
      have hconfirmed : confirmedAfter chain x = some target := by
        simp [confirmedAfter, hadvances, hobserved]
      rw [hconfirmed, Confirmation.Rules.step_of_advances (by simpa [watchRules] using hadvances)]
      have hregular' : Chain.Regular { chain with
          confirmedThrough := some target, statusSuspicion := none } :=
        ⟨hregular.first_le, hregular.spaced, hregular.last_le⟩
      have hdue : Watched slot chain (some target) (applyAcknowledgement x.requestedTick slot
          (Chain.acknowledgeDue target x.requestedTick { chain with
            confirmedThrough := some target, statusSuspicion := none }))
          (watchRules.step [] x) :=
        acknowledgeDue_watched slot hregular' rfl (by simp) howns hreading (.inr rfl) (by simp)
      simpa [hsame] using hdue

/-- Evidence of an unowned report counts unless it is too early. -/
theorem guardedEvidence_watched {slot : ManagedSlot} {chain : Chain} {series : List Sighting}
    (hchain : slot.chain = some chain) (h : Suspects chain.statusSuspicion series)
    (hlength : series.length < 3) {x : Sighting} {evidence : StatusEvidence} {early : Bool}
    (hreading : x.reading = if early then .silent else .contradicts false evidence) :
    Watched slot chain (confirmedAfter chain x)
      (if early then { slot := slot }
        else observeStatusEvidence evidence x.requestedTick slot)
      (watchRules.step series x) := by
  have hadvances : x.reading.advances = false := by
    rw [hreading]
    split <;> rfl
  have hconfirmed : confirmedAfter chain x = chain.confirmedThrough := by
    simp [confirmedAfter, hadvances]
  rw [hconfirmed]
  cases early with
  | true =>
    have hstep : watchRules.step series x = series :=
      Confirmation.Rules.step_of_silent hadvances (by simp [watchRules, hreading, Reading.verdict])
    rw [hstep]
    exact .inr ⟨hlength, chain.statusSuspicion, h, by rw [← hchain]; rfl⟩
  | false =>
    exact observeStatusEvidence_watched hchain h hlength (by rw [hreading]; rfl) (.inl hadvances)

theorem guarded_eq {α : Type*} (first requestedTick : Nat) (x y : α) :
    (if first < requestedTick then x else y) =
      if (SlotState.starting first).tooEarly requestedTick then y else x := by
  simp only [SlotState.tooEarly, decide_eq_true_eq]
  by_cases hlt : first < requestedTick
  · rw [if_pos hlt, if_neg (not_le.2 hlt)]
  · rw [if_neg hlt, if_pos (not_lt.1 hlt)]

/-- The state of a planning slot after a sighting that does not freeze its chain. -/
def stateAfter (state : SlotState) (chain : Chain) (observed : Option Nat) : SlotState :=
  if observed.any chain.ownsTarget then .active else state

theorem stateAfter_planning {state : SlotState} (h : state.isPlanning = true) (chain : Chain)
    (observed : Option Nat) : (stateAfter state chain observed).isPlanning = true := by
  unfold stateAfter
  split
  · rfl
  · exact h

/-- An observation is counted as its reading says: it freezes the chain exactly
when it makes the series three long. -/
theorem applyStatus_watched {slot : ManagedSlot} {chain : Chain} {series : List Sighting}
    (hplanning : slot.state.isPlanning = true) (hchain : slot.chain = some chain)
    (hregular : chain.Regular) (h : Suspects chain.statusSuspicion series)
    (hlength : series.length < 3) (observation : StatusObservation) :
    let x := sightingOf slot.key slot.state chain observation
    Watched { slot with state := stateAfter slot.state chain x.observed } chain
      (confirmedAfter chain x) (applyStatus observation slot) (watchRules.step series x) := by
  intro x
  have hx : x.observed = observation.observedTarget slot.key := rfl
  have hread : x.reading =
    readingOf slot.state chain (observation.observedTarget slot.key) x.requestedTick := rfl
  have hsame : ∀ {observed : Option Nat}, observed.any chain.ownsTarget = false →
      { slot with state := stateAfter slot.state chain observed } = slot := by
    intro observed hnot
    simp [stateAfter, hnot]
  cases hobserved : observation.observedTarget slot.key with
  | none =>
    rw [hobserved] at hx hread
    rw [hx, hsame rfl]
    have hwatched := guardedEvidence_watched hchain h hlength hread
    cases hstate : slot.state with
    | starting first =>
      rw [hstate, ← guarded_eq] at hwatched
      simp only [applyStatus, hstate, hobserved]
      exact hwatched
    | active =>
      simp only [hstate, SlotState.tooEarly, Bool.false_eq_true, if_false] at hwatched
      simp only [applyStatus, hstate, hobserved]
      exact hwatched
    | _ => simp [hstate, SlotState.isPlanning] at hplanning
  | some target =>
    rw [hobserved] at hx hread
    by_cases howns : chain.ownsTarget target = true
    · -- owned: the slot is active
      have howns' : chainOwnsTarget slot target = true := by simp [chainOwnsTarget, hchain, howns]
      have hactive : stateAfter slot.state chain x.observed = .active := by
        simp [stateAfter, hx, howns]
      have hwatched := @applyConfirmationWatermark_watched { slot with state := .active } chain
        series hchain hregular h hlength x slot.state target howns hx hread
      rw [hactive]
      cases hstate : slot.state with
      | starting first =>
        simp only [applyStatus, hstate, hobserved, howns', if_true]
        exact hwatched
      | active =>
        simp only [applyStatus, hstate, hobserved, howns', if_true]
        rw [← hstate] at hwatched ⊢
        exact hwatched
      | _ => simp [hstate, SlotState.isPlanning] at hplanning
    · have howns' : chainOwnsTarget slot target = false := by
        simp [chainOwnsTarget, hchain, howns]
      rw [hx, hsame (by simpa using howns)]
      simp only [readingOf, if_neg howns] at hread
      have hwatched := guardedEvidence_watched hchain h hlength hread
      cases hstate : slot.state with
      | starting first =>
        rw [hstate, ← guarded_eq] at hwatched
        simp only [applyStatus, hstate, hobserved, howns', Bool.false_eq_true, if_false]
        exact hwatched
      | active =>
        simp only [hstate, SlotState.tooEarly, Bool.false_eq_true, if_false] at hwatched
        simp only [applyStatus, hstate, hobserved, howns', Bool.false_eq_true, if_false]
        exact hwatched
      | _ => simp [hstate, SlotState.isPlanning] at hplanning

end RandomClient
