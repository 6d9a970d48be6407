import RandomClient.Freeze

/-!
# Regressing status requests

An observation requested before one that was already applied to the chain
should leave the suspicion of the chain alone; at most it advances the
watermark, which drops the suspicion. The engine remembers request ticks in the
live suspicion only, and an observation that clears the suspicion clears that
memory with it. What remains true is that the regressing observations leave
the suspicion alone exactly when each of them is dismissed (`Sighting.Dismissed`).
-/

namespace RandomClient

variable {cfg : Config}

/-! ## One observation -/

/-- An observation applied earlier was requested later. -/
def Regressing (earlier : List Sighting) (x : Sighting) : Prop :=
  ∃ y ∈ earlier, x.requestedTick < y.requestedTick

/-- The slot still plans the chain; the suspicion stands, or the watermark has
moved and the suspicion is dropped. -/
def Harmless (chain : Chain) (slot' : ManagedSlot) : Prop :=
  slot'.state.isPlanning = true ∧ ∃ chain', slot'.chain = some chain' ∧
    ((chain'.confirmedThrough = chain.confirmedThrough ∧
        chain'.statusSuspicion = chain.statusSuspicion) ∨
      (chain'.confirmedThrough ≠ chain.confirmedThrough ∧ chain'.statusSuspicion = none))

/-- What the suspicion of the chain dismisses: silence, an advance with nothing
missing, evidence no newer than the suspicion, and, once there is no suspicion
to drop, a repeated watermark. -/
def Sighting.Dismissed (x : Sighting) : Prop :=
  match x.reading with
  | .silent | .inSync true => True
  | .inSync false => x.chain.statusSuspicion = none ∨
      isStale x.chain.statusSuspicion x.requestedTick = true
  | .contradicts true _ => False
  | .contradicts false _ => isStale x.chain.statusSuspicion x.requestedTick = true

/-- The series does not count the item. -/
def Uncounted (series : List Sighting) (x : Sighting) : Prop :=
  (x.reading.advances = false ∧ watchRules.step series x = series) ∨
    (x.reading.advances = true ∧ watchRules.step series x = [])

theorem Suspects.eq_none_iff {suspicion : Option StatusSuspicion} {series : List Sighting}
    (h : Suspects suspicion series) : suspicion = none ↔ series = [] := by
  constructor
  · rintro rfl
    exact h
  · rintro rfl
    exact h.unique rfl

/-- A suspicion that stands has kept its series. -/
theorem Suspects.series_eq {suspicion : Option StatusSuspicion} {series : List Sighting}
    {x : Sighting} (h : Suspects suspicion series)
    (h' : Suspects suspicion (watchRules.step series x)) (hadvances : x.reading.advances = false) :
    watchRules.step series x = series := by
  rcases watchRules.step_cases series x with ⟨_, -, -, heq⟩ | hempty | ⟨hbegins, heq⟩ |
    ⟨last, hlast, hfollows, heq⟩
  · exact heq
  · rw [hempty] at h' ⊢
    rw [h.eq_none_iff.1 (h'.eq_none_iff.2 rfl)]
  · rw [heq] at h'
    cases suspicion with
    | none => cases h'
    | some suspicion =>
      obtain ⟨last, hlast, -, htick, -⟩ := h
      obtain ⟨x', hx', -, htick', -⟩ := h'
      obtain rfl : x = x' := by simpa using hx'
      have hlater : last.requestedTick < x.requestedTick := by
        refine (hbegins.2.resolve_left ?_ last hlast).1
        change ¬ x.reading.advances = true
        simp [hadvances]
      omega
  · rw [heq] at h'
    cases suspicion with
    | none => simp [Suspects] at h'
    | some suspicion =>
      obtain ⟨last', hlast', -, htick, -⟩ := h
      obtain ⟨x', hx', -, htick', -⟩ := h'
      obtain rfl := Option.some.inj (hlast.symm.trans hlast')
      obtain rfl : x = x' := by simpa using hx'
      have hlater : last.requestedTick < x.requestedTick := hfollows.later
      omega

/-- Evidence that begins a series, or follows its last item, is counted. -/
theorem not_uncounted {series : List Sighting} {x : Sighting}
    (hevidence : watchRules.verdict x = .evidence)
    (hlater : x.reading.advances = true ∨
      ∀ last ∈ series.getLast?, last.requestedTick < x.requestedTick) :
    ¬ Uncounted series x := by
  rcases watchRules.step_cases series x with ⟨last, hlast, hquiet, -⟩ | hempty | ⟨hbegins, heq⟩ |
    ⟨last, hlast, hfollows, heq⟩
  · -- nothing quiet is later evidence
    obtain ⟨hadvances, hle | hsilent⟩ := hquiet
    · have hnot : ¬ x.reading.advances = true := by
        change ¬ watchRules.advances x = true
        simp [hadvances]
      exact absurd (hlater.resolve_left hnot last hlast) (not_lt.2 hle)
    · rw [hevidence] at hsilent
      cases hsilent
  · exact absurd hempty (Confirmation.Rules.step_ne_nil hevidence)
  · rintro (⟨hadvances, hsame⟩ | ⟨-, hempty⟩)
    · rw [heq] at hsame
      have hlt := hlater.resolve_left (by rw [hadvances]; simp) x (by rw [← hsame]; simp)
      exact absurd hlt (lt_irrefl _)
    · rw [heq] at hempty
      cases hempty
  · rintro (⟨-, hsame⟩ | ⟨-, hempty⟩)
    · rw [heq] at hsame
      simp at hsame
    · rw [heq] at hempty
      simp at hempty

/-- The series does not count what the suspicion dismisses. -/
theorem dismissed_iff {series : List Sighting} {x : Sighting}
    (h : Suspects x.chain.statusSuspicion series) : x.Dismissed ↔ Uncounted series x := by
  have hstaleQuiet : x.reading.advances = false →
      isStale x.chain.statusSuspicion x.requestedTick = true →
      watchRules.step series x = series := by
    intro hadvances hstale
    obtain ⟨last, hlast, hle⟩ := h.isStale_iff.1 hstale
    exact Confirmation.Rules.step_of_quiet hlast ⟨hadvances, .inl hle⟩
  have hlater : ¬ isStale x.chain.statusSuspicion x.requestedTick = true →
      ∀ last ∈ series.getLast?, last.requestedTick < x.requestedTick := by
    intro hstale last hlast
    by_contra hle
    exact hstale (h.isStale_iff.2 ⟨last, hlast, not_lt.1 hle⟩)
  unfold Sighting.Dismissed
  cases hreading : x.reading with
  | silent =>
    have hadvances : x.reading.advances = false := by rw [hreading]; rfl
    have hstep : watchRules.step series x = series :=
      Confirmation.Rules.step_of_silent hadvances (by simp [watchRules, hreading, Reading.verdict])
    exact ⟨fun _ => .inl ⟨hadvances, hstep⟩, fun _ => trivial⟩
  | inSync advances =>
    have hcleared : watchRules.verdict x = .cleared := by
      simp [watchRules, hreading, Reading.verdict]
    cases advances with
    | true =>
      have hadvances : x.reading.advances = true := by rw [hreading]; rfl
      exact ⟨fun _ => .inr ⟨hadvances, Confirmation.Rules.step_of_cleared hcleared (.inl hadvances)⟩,
        fun _ => trivial⟩
    | false =>
      have hadvances : x.reading.advances = false := by rw [hreading]; rfl
      by_cases hstale : isStale x.chain.statusSuspicion x.requestedTick = true
      · exact ⟨fun _ => .inl ⟨hadvances, hstaleQuiet hadvances hstale⟩, fun _ => .inr hstale⟩
      · have hstep := Confirmation.Rules.step_of_cleared (R := watchRules) hcleared
          (.inr (hlater hstale))
        simp only [hstale, Uncounted, hadvances, hstep, h.eq_none_iff, Bool.false_eq_true, or_false,
          true_and, false_and]
        exact eq_comm
  | contradicts advances evidence =>
    have hevidence : watchRules.verdict x = .evidence := by
      simp [watchRules, hreading, Reading.verdict]
    cases advances with
    | true =>
      have hadvances : x.reading.advances = true := by rw [hreading]; rfl
      exact ⟨False.elim, fun hnot => not_uncounted hevidence (.inl hadvances) hnot⟩
    | false =>
      have hadvances : x.reading.advances = false := by rw [hreading]; rfl
      by_cases hstale : isStale x.chain.statusSuspicion x.requestedTick = true
      · exact ⟨fun _ => .inl ⟨hadvances, hstaleQuiet hadvances hstale⟩, fun _ => hstale⟩
      · exact ⟨fun hyes => absurd hyes hstale,
          fun hnot => absurd hnot (not_uncounted hevidence (.inr (hlater hstale)))⟩

theorem confirmedAfter_eq_iff (key : SlotKey) (state : SlotState) (chain : Chain)
    (observation : StatusObservation) :
    confirmedAfter chain (sightingOf key state chain observation) = chain.confirmedThrough ↔
      (sightingOf key state chain observation).reading.advances = false := by
  cases hadvances : (sightingOf key state chain observation).reading.advances with
  | false => simp [confirmedAfter, hadvances]
  | true =>
    obtain ⟨target, hobserved, -, hne, -⟩ := readingOf_advances hadvances
    simp only [confirmedAfter, hadvances, if_true, Bool.true_eq_false, iff_false]
    rw [hobserved]
    exact fun heq => hne heq.symm

/-- An observation leaves the suspicion alone exactly when the series does not count it. -/
theorem harmless_iff_uncounted {slot : ManagedSlot} {chain : Chain} {series : List Sighting}
    (hplanning : slot.state.isPlanning = true) (hchain : slot.chain = some chain)
    (hregular : chain.Regular) (h : Suspects chain.statusSuspicion series)
    (hlength : series.length < 3) (observation : StatusObservation) :
    Harmless chain (applyStatus observation slot).slot ↔
      Uncounted series (sightingOf slot.key slot.state chain observation) := by
  rcases applyStatus_watched hplanning hchain hregular h hlength observation with
    ⟨hthree, hfroze⟩ | ⟨-, suspicion, hsuspects, heq⟩
  · constructor
    · rintro ⟨hstill, -⟩
      rw [hfroze.not_planning] at hstill
      cases hstill
    · rintro (⟨-, hsame⟩ | ⟨-, hempty⟩)
      · rw [hsame] at hthree
        omega
      · rw [hempty] at hthree
        cases hthree
  · have hstill := stateAfter_planning hplanning chain (observation.observedTarget slot.key)
    unfold Harmless
    rw [heq]
    have hadvances : (sightingOf slot.key slot.state chain observation).reading.advances = false ∨
        (sightingOf slot.key slot.state chain observation).reading.advances = true := by
      cases (sightingOf slot.key slot.state chain observation).reading.advances <;> simp
    have hconfirmed := confirmedAfter_eq_iff slot.key slot.state chain observation
    constructor
    · rintro ⟨-, chain', hchain', ⟨hsame, hsuspicion⟩ | ⟨hmoved, hnone⟩⟩
      · obtain rfl := Option.some.inj hchain'
        have hfalse := hconfirmed.1 hsame
        refine .inl ⟨hfalse, ?_⟩
        rw [show suspicion = chain.statusSuspicion from hsuspicion] at hsuspects
        exact h.series_eq hsuspects hfalse
      · obtain rfl := Option.some.inj hchain'
        refine .inr ⟨hadvances.resolve_left fun hfalse => hmoved (hconfirmed.2 hfalse), ?_⟩
        exact hsuspects.eq_none_iff.1 hnone
    · rintro (⟨hfalse, hsame⟩ | ⟨htrue, hempty⟩)
      · rw [hsame] at hsuspects
        exact ⟨hstill, _, rfl, .inl ⟨hconfirmed.2 hfalse, hsuspects.unique h⟩⟩
      · refine ⟨hstill, _, rfl, .inr ⟨fun hsame => ?_, hsuspects.eq_none_iff.2 hempty⟩⟩
        rw [hconfirmed.1 hsame] at htrue
        cases htrue

/-! ## Runs -/

/-- A sighting was made by an operation of the run. -/
theorem sightings_split {i : Fin 3} {ops : List SlotOp} {before after : List Sighting}
    {x : Sighting} (h : sightings cfg i ops = before ++ x :: after) :
    ∃ pre observation chain, pre ++ [.applyStatus observation] <+: ops ∧
      ((slotMachine cfg).state (slot₀ cfg i) pre).state.isPlanning = true ∧
      ((slotMachine cfg).state (slot₀ cfg i) pre).chain = some chain ∧
      sightings cfg i pre = before ∧
      x = sightingOf ((slotMachine cfg).state (slot₀ cfg i) pre).key
        ((slotMachine cfg).state (slot₀ cfg i) pre).state chain observation := by
  induction ops using List.reverseRecOn generalizing after with
  | nil => simp [sightings, Machine.track] at h
  | append_singleton ops op ih =>
    rw [sightings, Machine.track_snoc] at h
    change recordSighting _ op (sightings cfg i ops) = _ at h
    unfold recordSighting at h
    split at h
    · rename_i hplanning
      split at h
      · rename_i observation chain hchain
        rcases List.eq_nil_or_concat after with rfl | ⟨rest, y, rfl⟩
        · obtain ⟨hbefore, hx⟩ := List.append_inj' h rfl
          exact ⟨ops, observation, chain, List.prefix_rfl, hplanning, hchain, hbefore,
            (List.singleton_inj.1 hx).symm⟩
        · rw [List.concat_eq_append, ← List.cons_append, ← List.append_assoc] at h
          obtain ⟨pre, observation, chain, hbegun, hrest⟩ := ih (List.append_inj' h rfl).1
          exact ⟨pre, observation, chain, hbegun.trans (List.prefix_append ops _), hrest⟩
      · obtain ⟨pre, observation, chain, hbegun, hrest⟩ := ih h
        exact ⟨pre, observation, chain, hbegun.trans (List.prefix_append ops _), hrest⟩
    · simp at h

/-- The regressing observations of a run satisfy `P`. -/
def OnRegressions (cfg : Config) (i : Fin 3) (ops : List SlotOp)
    (P : ManagedSlot → Chain → StatusObservation → Prop) : Prop :=
  ∀ pre observation, pre ++ [.applyStatus observation] <+: ops →
    let slot := (slotMachine cfg).state (slot₀ cfg i) pre
    ∀ chain, slot.state.isPlanning = true → slot.chain = some chain →
      Regressing (sightings cfg i pre) (sightingOf slot.key slot.state chain observation) →
        P slot chain observation

/-- No regressing observation creates, advances or replaces a suspicion, or freezes the chain. -/
def RegressionsHarmless (cfg : Config) (i : Fin 3) (ops : List SlotOp) : Prop :=
  OnRegressions cfg i ops fun slot chain observation =>
    Harmless chain (applyStatus observation slot).slot

/-- Every regressing observation is dismissed. -/
def RegressionsDismissed (cfg : Config) (i : Fin 3) (ops : List SlotOp) : Prop :=
  OnRegressions cfg i ops fun slot chain observation =>
    (sightingOf slot.key slot.state chain observation).Dismissed

theorem harmless_iff_dismissed (i : Fin 3) (ops : List SlotOp) {chain : Chain}
    (hplanning : ((slotMachine cfg).state (slot₀ cfg i) ops).state.isPlanning = true)
    (hchain : ((slotMachine cfg).state (slot₀ cfg i) ops).chain = some chain)
    (observation : StatusObservation) :
    Harmless chain (applyStatus observation ((slotMachine cfg).state (slot₀ cfg i) ops)).slot ↔
      (sightingOf ((slotMachine cfg).state (slot₀ cfg i) ops).key
        ((slotMachine cfg).state (slot₀ cfg i) ops).state chain observation).Dismissed := by
  have hwatch := watchInv i ops hplanning chain hchain
  rw [harmless_iff_uncounted hplanning hchain (slotMachine_regular i ops hchain) hwatch.suspicion
    hwatch.short observation, dismissed_iff]
  exact hwatch.suspicion

/-- A counted sighting does not regress when regressing ones are dismissed. -/
theorem RegressionsDismissed.not_regressing {i : Fin 3} {ops pre : List SlotOp}
    (h : RegressionsDismissed cfg i ops) {observation : StatusObservation} {chain : Chain}
    (hbegun : pre ++ [.applyStatus observation] <+: ops)
    (hplanning : ((slotMachine cfg).state (slot₀ cfg i) pre).state.isPlanning = true)
    (hchain : ((slotMachine cfg).state (slot₀ cfg i) pre).chain = some chain) {x : Sighting}
    (hx : x = sightingOf ((slotMachine cfg).state (slot₀ cfg i) pre).key
      ((slotMachine cfg).state (slot₀ cfg i) pre).state chain observation)
    (hevidence : watchRules.verdict x = .evidence)
    (hlater : x.reading.advances = true ∨
      ∀ last ∈ (watchRules.series (sightings cfg i pre)).getLast?,
        last.requestedTick < x.requestedTick) :
    ¬ Regressing (sightings cfg i pre) x := by
  subst hx
  intro hregressing
  have hdismissed := h pre observation hbegun chain hplanning hchain hregressing
  have hwatch := watchInv i pre hplanning chain hchain
  exact not_uncounted hevidence hlater ((dismissed_iff hwatch.suspicion).1 hdismissed)

/-- The regressing observations of a run leave the suspicion of their chain
alone exactly when each of them is dismissed; and then none is among the three
that freeze a chain. -/
theorem regressions_harmless_iff_dismissed (i : Fin 3) (ops : List SlotOp) :
    (RegressionsHarmless cfg i ops ↔ RegressionsDismissed cfg i ops) ∧
    (RegressionsDismissed cfg i ops →
      ∀ pre observation, pre ++ [.applyStatus observation] <+: ops →
        let slot := (slotMachine cfg).state (slot₀ cfg i) pre
        ∀ chain, slot.state.isPlanning = true → slot.chain = some chain →
          (applyStatus observation slot).slot.state.isPlanning = false →
            let z := sightingOf slot.key slot.state chain observation
            ∃ before x between y rest,
              sightings cfg i pre = before ++ x :: (between ++ y :: rest) ∧
              watchRules.series (sightings cfg i pre ++ [z]) = [x, y, z] ∧
              ¬ Regressing before x ∧ ¬ Regressing (before ++ x :: between) y ∧
              ¬ Regressing (sightings cfg i pre) z) := by
  refine ⟨?_, ?_⟩
  · constructor
    · intro h pre observation hbegun slot chain hplanning hchain hregressing
      exact (harmless_iff_dismissed i pre hplanning hchain observation).1
        (h pre observation hbegun chain hplanning hchain hregressing)
    · intro h pre observation hbegun slot chain hplanning hchain hregressing
      exact (harmless_iff_dismissed i pre hplanning hchain observation).2
        (h pre observation hbegun chain hplanning hchain hregressing)
  · intro h pre observation hbegun slot chain hplanning hchain hfrozen z
    have hwatch := watchInv i pre hplanning chain hchain
    have hthree : (watchRules.series (sightings cfg i pre ++ [z])).length = 3 := by
      rw [Confirmation.Rules.series_snoc]
      rcases applyStatus_watched hplanning hchain (slotMachine_regular i pre hchain)
        hwatch.suspicion hwatch.short observation with ⟨hthree, -⟩ | ⟨-, _, -, heq⟩
      · exact hthree
      · change (applyStatus observation slot).slot.state.isPlanning = false at hfrozen
        rw [heq] at hfrozen
        change (stateAfter slot.state chain _).isPlanning = false at hfrozen
        rw [stateAfter_planning hplanning] at hfrozen
        cases hfrozen
    obtain ⟨before, x, between, y, rest, hxs, hbegins, hbetween, hxy, hrest, hyz⟩ :=
      (Confirmation.Rules.thirdInRow_iff hwatch.short z).1 hthree
    have hfirst := Confirmation.Rules.series_first hbegins hbetween
    have hsecond := Confirmation.Rules.series_second hbegins hbetween hxy hrest
    refine ⟨before, x, between, y, rest, hxs, ?_, ?_, ?_, ?_⟩
    · rw [Confirmation.Rules.series_snoc, hxs, hsecond]
      exact Confirmation.Rules.step_of_follows rfl hyz
    · obtain ⟨pre', observation', chain', hbegun', hplanning', hchain', rfl, hx⟩ :=
        sightings_split hxs
      refine h.not_regressing (hbegun'.trans ((List.prefix_append pre _).trans hbegun))
        hplanning' hchain' hx hbegins.1 ?_
      exact hbegins.2.imp id fun hlater last hlast => (hlater last hlast).1
    · rw [← List.cons_append, ← List.append_assoc] at hxs
      obtain ⟨pre', observation', chain', hbegun', hplanning', hchain', heq, hy⟩ :=
        sightings_split hxs
      rw [← heq] at hfirst ⊢
      refine h.not_regressing (hbegun'.trans ((List.prefix_append pre _).trans hbegun))
        hplanning' hchain' hy hxy.evidence (.inr ?_)
      rw [hfirst]
      simpa [watchRules] using hxy.later
    · refine h.not_regressing hbegun hplanning hchain rfl hyz.evidence (.inr ?_)
      rw [hxs, hsecond]
      simpa [watchRules] using hyz.later

/-- A status response that reports the sample provider in stream 1. -/
def ownedStatus (lastUpdateTick : UInt8) : Bytes :=
  (((((emptyStatus.set 0 1).set streamsOffset 1).set tiersOffset 1).set collateralOffset 10).set
    contributedOffset 1).set lastUpdateOffset lastUpdateTick

/-- Reports of ticks 0 to 9, the last two in sync with the first target of
stream 1, and then a backend that is back at ticks 2, 3 and 4, where the
provider is still absent. -/
def regressedRun : List EngineInput :=
  List.mapIdx (fun n (report : Fin 256 × Bytes) =>
      sampleCycle (1000 * n) (sampleTick 1 report.1) (some report.2) fun _ => some .ok)
    [(0, emptyStatus), (1, emptyStatus), (2, emptyStatus), (3, emptyStatus), (4, emptyStatus),
      (5, emptyStatus), (6, emptyStatus), (7, emptyStatus), (8, emptyStatus), (9, ownedStatus 7),
      (2, ownedStatus 7), (3, emptyStatus), (4, emptyStatus), (5, emptyStatus)]

/-- The tick at which the status an operation applies was requested. -/
def SlotOp.requestedTick : SlotOp → Option Nat
  | .applyStatus observation => some observation.requestedTick
  | _ => none

theorem SlotOp.requestedTick_eq_some {op : SlotOp} {tick : Nat}
    (h : op.requestedTick = some tick) :
    ∃ observation, op = .applyStatus observation ∧ observation.requestedTick = tick := by
  unfold SlotOp.requestedTick at h
  split at h
  · rename_i observation
    exact ⟨observation, rfl, Option.some.inj h⟩
  · cases h

/-- The absence requested at tick 4 freezes the chain, although an owned status
of tick 9 was applied before. -/
theorem regressing_absence_freezes :
    ¬ RegressionsHarmless sampleConfig 1 (history sampleConfig sampleEngine regressedRun 1) := by
  intro h
  obtain ⟨op, hop, htick, hplanning, hsome, hlater, hfrozen⟩ :
      let ops := history sampleConfig sampleEngine regressedRun 1
      let slot := (slotMachine sampleConfig).state (slot₀ sampleConfig 1) (ops.take 118)
      ∃ op ∈ ops[118]?, op.requestedTick = some 4 ∧ slot.state.isPlanning = true ∧
        slot.chain.isSome = true ∧
        (∃ y ∈ sightings sampleConfig 1 (ops.take 118), 4 < y.requestedTick) ∧
        (op.run sampleConfig slot).slot.state.isPlanning = false := by
    decide +kernel
  obtain ⟨chain, hchain⟩ := Option.isSome_iff_exists.1 hsome
  obtain ⟨observation, rfl, hrequested⟩ := SlotOp.requestedTick_eq_some htick
  obtain ⟨y, hy, hlt⟩ := hlater
  have hharmless := h _ observation (takeSnoc_isPrefix hop) chain hplanning hchain
    ⟨y, hy, hrequested.trans_lt hlt⟩
  obtain ⟨hstill, -⟩ := hharmless
  simp only [SlotOp.run] at hfrozen
  rw [hfrozen] at hstill
  cases hstill

end RandomClient
