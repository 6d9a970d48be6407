import RandomClient.Freeze

/-!
# Honest, slightly stale status

A healthy chain is not frozen by reports that lag behind. If every report shows
what the chain had executed up to some tick at most three before the request,
and these ticks do not decrease, then a target can be missed at no more than
two request ticks, and absence can be seen at no more than two.
-/

namespace RandomClient

variable {cfg : Config}

/-! ## When a sighting was made -/

/-- The report shows an update tick the chain owns. -/
def Sighting.Owned (x : Sighting) : Prop :=
  ∃ target, x.observed = some target ∧ x.chain.ownsTarget target = true

/-- The circumstances of a sighting, after the earlier ones of its chain. -/
structure Circumstances (earlier : List Sighting) (x : Sighting) : Prop where
  regular : x.chain.Regular
  planning : x.state.isPlanning = true
  starting : ∀ first, x.state = .starting first → first = x.chain.firstTarget
  /-- The slot becomes active by an owned report. -/
  active : x.state = .active → ∃ y ∈ earlier, y.Owned

/-- Every sighting was made in its circumstances, and an active slot had an owned report. -/
structure SeenInv (slot : ManagedSlot) (xs : List Sighting) : Prop where
  seen : ∀ pre x post, xs = pre ++ x :: post → Circumstances pre x
  active : slot.state = .active → ∃ y ∈ xs, y.Owned

theorem seen_snoc {xs : List Sighting} (h : ∀ pre x post, xs = pre ++ x :: post → Circumstances pre x)
    {z : Sighting} (hz : Circumstances xs z) :
    ∀ pre x post, xs ++ [z] = pre ++ x :: post → Circumstances pre x := by
  intro pre x post hsplit
  rcases List.eq_nil_or_concat post with rfl | ⟨rest, y, rfl⟩
  · obtain ⟨rfl, hx⟩ := List.append_inj' hsplit rfl
    cases hx
    exact hz
  · rw [List.concat_eq_append, ← List.cons_append, ← List.append_assoc] at hsplit
    exact h pre x rest (List.append_inj' hsplit rfl).1

theorem applyStatus_state {slot : ManagedSlot} {chain : Chain} {xs : List Sighting}
    (hplanning : slot.state.isPlanning = true) (hchain : slot.chain = some chain)
    (hregular : chain.Regular) (h : ChainWatch chain xs) (observation : StatusObservation) :
    (applyStatus observation slot).slot.state.isPlanning = false ∨
      (applyStatus observation slot).slot.state =
        stateAfter slot.state chain (observation.observedTarget slot.key) := by
  rcases applyStatus_watched hplanning hchain hregular h.suspicion h.short observation with
    ⟨-, hfroze⟩ | ⟨-, suspicion, -, heq⟩
  · exact .inl hfroze.not_planning
  · right
    rw [heq]
    rfl

theorem SeenInv.step {slot : ManagedSlot} {xs : List Sighting} (h : SeenInv slot xs)
    (hwatch : WatchInv slot xs)
    (hchain : slot.state.isPlanning = true → ∃ chain, slot.chain = some chain ∧
      ∀ first, slot.state = .starting first → first = chain.firstTarget)
    (hregular : ∀ chain, slot.chain = some chain → chain.Regular) {op : SlotOp}
    (hchain' : (op.run cfg slot).slot.state.isPlanning = true →
      ∃ chain, (op.run cfg slot).slot.chain = some chain) :
    SeenInv (op.run cfg slot).slot (recordSighting slot op xs) := by
  by_cases hplanning : slot.state.isPlanning = true
  · obtain ⟨chain, hsome, hfirst⟩ := hchain hplanning
    by_cases hstatus : ∃ observation, op = .applyStatus observation
    · obtain ⟨observation, rfl⟩ := hstatus
      have hrecord : recordSighting slot (.applyStatus observation) xs =
          xs ++ [sightingOf slot.key slot.state chain observation] := by
        simp [recordSighting, hplanning, hsome]
      rw [hrecord]
      refine ⟨seen_snoc h.seen ⟨hregular chain hsome, hplanning, hfirst, h.active⟩, ?_⟩
      intro hactive
      rcases applyStatus_state hplanning hsome (hregular chain hsome) (hwatch hplanning chain hsome)
        observation with hnot | hstate
      · rw [show (applyStatus observation slot).slot.state = .active from hactive] at hnot
        cases hnot
      · rw [show (applyStatus observation slot).slot.state = .active from hactive] at hstate
        unfold stateAfter at hstate
        split at hstate
        · -- the report itself was owned
          rename_i howned
          obtain ⟨target, hobserved, howns⟩ := (Option.any_eq_true _ _).1 howned
          exact ⟨sightingOf slot.key slot.state chain observation, by simp, target, hobserved, howns⟩
        · obtain ⟨y, hy, howned⟩ := h.active hstate.symm
          exact ⟨y, List.mem_append_left _ hy, howned⟩
    · push Not at hstatus
      have hrecord : recordSighting slot op xs = xs := by
        unfold recordSighting
        rw [if_pos hplanning]
        cases op <;> first | rfl | exact absurd rfl (hstatus _)
      rw [hrecord]
      refine ⟨h.seen, fun hactive => ?_⟩
      have hplanning' : (op.run cfg slot).slot.state.isPlanning = true := by
        rw [hactive]
        rfl
      obtain ⟨chain', hsome'⟩ := hchain' hplanning'
      rcases op.keeps hstatus slot hplanning' chain' hsome' with ⟨hstate, -⟩ | ⟨hnot, -⟩
      · exact h.active (hstate.symm.trans hactive)
      · rw [hplanning] at hnot
        cases hnot
  · have hfalse : slot.state.isPlanning = false := by simpa using hplanning
    have hrecord : recordSighting slot op xs = [] := by
      unfold recordSighting
      rw [if_neg hplanning]
    rw [hrecord]
    refine ⟨by simp, fun hactive => ?_⟩
    have hplanning' : (op.run cfg slot).slot.state.isPlanning = true := by
      rw [hactive]
      rfl
    by_cases hstatus : ∃ observation, op = .applyStatus observation
    · obtain ⟨observation, rfl⟩ := hstatus
      rw [SlotOp.run, applyStatus_not_planning observation hfalse] at hplanning'
      cases hplanning'
    · push Not at hstatus
      obtain ⟨chain', hsome'⟩ := hchain' hplanning'
      rcases op.keeps hstatus slot hplanning' chain' hsome' with ⟨hstate, -⟩ | ⟨-, -, hstate⟩
      · rw [hstate, hfalse] at hplanning'
        cases hplanning'
      · rw [hstate] at hactive
        cases hactive

theorem seenInv (i : Fin 3) (ops : List SlotOp) :
    SeenInv ((slotMachine cfg).state (slot₀ cfg i) ops) (sightings cfg i ops) := by
  induction ops using List.reverseRecOn with
  | nil =>
    refine ⟨?_, ?_⟩
    · intro pre x post hsplit
      simp [sightings, Machine.track] at hsplit
    · intro hactive
      cases hactive
  | append_singleton ops op ih =>
    have hnext := @slotMachine_chain cfg i (ops ++ [op])
    rw [slotMachine_state_snoc] at hnext ⊢
    rw [sightings, Machine.track_snoc]
    refine ih.step (watchInv i ops) (slotMachine_chain i ops)
      (fun chain hchain => slotMachine_regular i ops hchain) fun hplanning => ?_
    obtain ⟨chain, hchain, -⟩ := hnext hplanning
    exact ⟨chain, hchain⟩

/-! ## Honest reports -/

/-- An honest report of what the chain had executed up to `through`: its
greatest signed target there, or, when there is none, absence or an update tick
of some other chain. -/
structure Honest (x : Sighting) (through : Nat) : Prop where
  recent : x.requestedTick ≤ through + 3
  reports : (∃ target, x.observed = some target ∧
      IsGreatest {t | x.chain.ownsTarget t = true ∧ t ≤ through} target) ∨
    ((∀ t, x.chain.ownsTarget t = true → through < t) ∧ ¬ x.Owned)

/-- Honest reports, each of a tick no earlier than the one before. -/
def HonestReports (xs : List Sighting) : Prop :=
  ∃ reports : List (Sighting × Nat), reports.map Prod.fst = xs ∧
    (∀ report ∈ reports, Honest report.1 report.2) ∧
    reports.Pairwise fun report later => report.2 ≤ later.2

theorem Honest.le_of_owned {x : Sighting} {through target : Nat} (h : Honest x through)
    (hobserved : x.observed = some target) (howns : x.chain.ownsTarget target = true) :
    target ≤ through := by
  rcases h.reports with ⟨greatest, hgreatest, hisGreatest⟩ | ⟨-, hnot⟩
  · obtain rfl := Option.some.inj (hobserved.symm.trans hgreatest)
    exact hisGreatest.1.2
  · exact absurd ⟨target, hobserved, howns⟩ hnot

/-- A missed target is seen at most two ticks past it. -/
theorem Honest.lag {x : Sighting} {through missing : Nat} (h : Honest x through)
    (hevidence : x.reading.evidence = some (.lag missing)) :
    missing < x.requestedTick ∧ x.requestedTick ≤ missing + 2 := by
  have hseen : SeenBy x.chain x := ⟨rfl, le_rfl⟩
  obtain ⟨target, rfl, hobserved, howns, hmissing, hdue⟩ := hseen.evidence hevidence
  refine ⟨hdue, ?_⟩
  rcases h.reports with ⟨greatest, hgreatest, hisGreatest⟩ | ⟨-, hnot⟩
  · obtain rfl := Option.some.inj (hobserved.symm.trans hgreatest)
    -- the missing target is not among those the report covers
    have hlate : through < target + streamCount := by
      by_contra hle
      have hmax := hisGreatest.2 ⟨hmissing, not_lt.1 hle⟩
      simp only [streamCount] at hmax
      omega
    have hrecent := h.recent
    omega
  · exact absurd ⟨target, hobserved, howns⟩ hnot

/-- Absence and foreign evidence come from reports that are not owned and not too early. -/
theorem unowned_of_evidence {x : Sighting} (hevidence : x.reading.evidence = some .absent ∨
      ∃ target, x.reading.evidence = some (.foreign target)) :
    ¬ x.Owned ∧ x.state.tooEarly x.requestedTick = false := by
  unfold Sighting.reading readingOf at hevidence
  split at hevidence
  · rename_i target hobserved
    split at hevidence
    · repeat' split at hevidence
      all_goals simp [Reading.evidence] at hevidence
    · rename_i howns
      refine ⟨?_, ?_⟩
      · rintro ⟨target', hobserved', howns'⟩
        obtain rfl := Option.some.inj (hobserved.symm.trans hobserved')
        exact howns howns'
      · split at hevidence
        · simp [Reading.evidence] at hevidence
        · rename_i hearly
          simpa using hearly
  · rename_i hobserved
    refine ⟨?_, ?_⟩
    · rintro ⟨target', hobserved', -⟩
      rw [hobserved] at hobserved'
      cases hobserved'
    · split at hevidence
      · simp [Reading.evidence] at hevidence
      · rename_i hearly
        simpa using hearly

/-- Absence, or an update tick of some other chain, is seen at most two ticks past
the first target. -/
theorem HonestReports.unowned {xs : List Sighting} {chain : Chain} (h : HonestReports xs)
    (hcirc : ∀ pre x post, xs = pre ++ x :: post → Circumstances pre x)
    (hseen : ∀ x ∈ xs, SeenBy chain x) {x : Sighting} (hmem : x ∈ xs)
    (hevidence : x.reading.evidence = some .absent ∨
      ∃ target, x.reading.evidence = some (.foreign target)) :
    chain.firstTarget < x.requestedTick ∧ x.requestedTick ≤ chain.firstTarget + 2 := by
  obtain ⟨pre, post, rfl⟩ := List.append_of_mem hmem
  obtain ⟨reports, hreports, hhonest, hsorted⟩ := h
  obtain ⟨before, after, rfl, rfl, hafter⟩ := List.map_eq_append_iff.1 hreports
  obtain ⟨⟨x', through⟩, after, rfl, rfl, rfl⟩ := List.map_eq_cons_iff.1 hafter
  have hx : Honest x' through := hhonest (x', through) (by simp)
  have hcx := hcirc _ x' _ rfl
  obtain ⟨hnotOwned, hnotEarly⟩ := unowned_of_evidence hevidence
  -- the report covers no target of the chain, not even the first
  have hbefore : through < chain.firstTarget := by
    rcases hx.reports with ⟨target, hobserved, hgreatest⟩ | ⟨hnone, -⟩
    · exact absurd ⟨target, hobserved, hgreatest.1.1⟩ hnotOwned
    · rw [← (hseen x' hmem).first]
      exact hnone _ (Chain.ownsTarget_iff.2 ⟨le_rfl, hcx.regular.first_le, by simp⟩)
  have hrecent := hx.recent
  change chain.firstTarget < x'.requestedTick ∧ x'.requestedTick ≤ chain.firstTarget + 2
  refine ⟨?_, by omega⟩
  have hplanning := hcx.planning
  cases hstate : x'.state with
  | starting first =>
    have hfirst := hcx.starting first hstate
    rw [(hseen x' hmem).first] at hfirst
    have hlate : ¬ x'.requestedTick ≤ first := by
      simpa [hstate, SlotState.tooEarly] using hnotEarly
    omega
  | active =>
    -- an earlier report covered a target of the chain
    obtain ⟨y, hy, target, hobserved, howns⟩ := hcx.active hstate
    obtain ⟨⟨y', through'⟩, hy', rfl⟩ := List.mem_map.1 hy
    have hle : through' ≤ through :=
      (List.pairwise_append.1 hsorted).2.2 _ hy' (x', through) (by simp)
    have hcovered := (hhonest (y', through') (by simp [hy'])).le_of_owned hobserved howns
    have hfirst := (Chain.ownsTarget_iff.1 howns).1
    rw [(hseen y' (List.mem_append_left _ hy)).first] at hfirst
    simp only at hcovered
    omega
  | _ => simp [hstate, SlotState.isPlanning] at hplanning

/-- Three honest reports never agree on evidence against the chain. -/
theorem HonestReports.not_third {xs : List Sighting} {z : Sighting} {chain : Chain}
    (h : HonestReports (xs ++ [z]))
    (hcirc : ∀ pre x post, xs ++ [z] = pre ++ x :: post → Circumstances pre x)
    (hseen : ∀ x ∈ xs ++ [z], SeenBy chain x) : ¬ ThirdOfThree chain xs z := by
  rintro ⟨pre, x, between, y, rest, rfl, -, hxy, hyz, hagree, -⟩
  have hx : x ∈ pre ++ x :: (between ++ y :: rest) ++ [z] := by simp
  have hz : z ∈ pre ++ x :: (between ++ y :: rest) ++ [z] := by simp
  cases hagree with
  | absent hex hey hez =>
    have hfirst := h.unowned hcirc hseen hx (.inl hex.2)
    have hlast := h.unowned hcirc hseen hz (.inl hez.2)
    omega
  | foreign a b c hex hey hez =>
    have hfirst := h.unowned hcirc hseen hx (.inr ⟨a, hex.2⟩)
    have hlast := h.unowned hcirc hseen hz (.inr ⟨c, hez.2⟩)
    omega
  | lag target hex hey hez =>
    obtain ⟨reports, hreports, hhonest, -⟩ := h
    have hhonest' : ∀ s ∈ pre ++ x :: (between ++ y :: rest) ++ [z], ∃ through,
        Honest s through := by
      intro s hs
      rw [← hreports] at hs
      obtain ⟨report, hreport, rfl⟩ := List.mem_map.1 hs
      exact ⟨report.2, hhonest report hreport⟩
    obtain ⟨_, hhx⟩ := hhonest' x hx
    obtain ⟨_, hhz⟩ := hhonest' z hz
    have hfirst := hhx.lag hex.2
    have hlast := hhz.lag hez.2
    omega

/-- However many honest reports are applied to a chain, and however the chain
grows between them, none freezes it and none records a financial failure. -/
theorem no_freeze_on_honest_status (i : Fin 3) (ops : List SlotOp)
    (observation : StatusObservation) (chain : Chain)
    (hplanning : ((slotMachine cfg).state (slot₀ cfg i) ops).state.isPlanning = true)
    (hchain : ((slotMachine cfg).state (slot₀ cfg i) ops).chain = some chain)
    (hhonest : HonestReports (sightings cfg i ops ++
      [sightingOf ((slotMachine cfg).state (slot₀ cfg i) ops).key
        ((slotMachine cfg).state (slot₀ cfg i) ops).state chain observation])) :
    let r := applyStatus observation ((slotMachine cfg).state (slot₀ cfg i) ops)
    r.slot.state.isPlanning = true ∧ r.slot.state.isRestarting = false ∧
      ∀ target, .financialFailure target ∉ r.effects := by
  intro r
  have hwatch := watchInv i ops hplanning chain hchain
  have hseenInv := @seenInv cfg i ops
  obtain ⟨chain', hchain', hfirst⟩ := slotMachine_chain i ops hplanning
  obtain rfl := Option.some.inj (hchain.symm.trans hchain')
  have hregular := slotMachine_regular i ops hchain
  have hseen : ∀ x ∈ sightings cfg i ops ++
      [sightingOf ((slotMachine cfg).state (slot₀ cfg i) ops).key
        ((slotMachine cfg).state (slot₀ cfg i) ops).state chain observation], SeenBy chain x := by
    intro x hx
    rcases List.mem_append.1 hx with hx | hx
    · exact hwatch.seen x hx
    · rw [List.mem_singleton.1 hx]
      exact ⟨rfl, le_rfl⟩
  have hnot := hhonest.not_third
    (seen_snoc hseenInv.seen ⟨hregular, hplanning, hfirst, hseenInv.active⟩) hseen
  rw [thirdOfThree_iff hwatch.seen ⟨rfl, le_rfl⟩,
    ← Confirmation.Rules.thirdInRow_iff hwatch.short, Confirmation.Rules.series_snoc] at hnot
  rcases applyStatus_watched hplanning hchain hregular hwatch.suspicion hwatch.short observation
    with ⟨hthree, -⟩ | ⟨-, suspicion, -, heq⟩
  · exact absurd hthree hnot
  · have hstate : r.slot.state = stateAfter
        ((slotMachine cfg).state (slot₀ cfg i) ops).state chain
        (observation.observedTarget ((slotMachine cfg).state (slot₀ cfg i) ops).key) := by
      change (applyStatus observation _).slot.state = _
      rw [heq]
      rfl
    have hnext : r.slot.state.isPlanning = true := by
      rw [hstate]
      exact stateAfter_planning hplanning chain _
    refine ⟨hnext, ?_, ?_⟩
    · generalize r.slot.state = state at hnext
      cases state <;> first | rfl | cases hnext
    · intro target
      change Effect.financialFailure target ∉ (applyStatus observation _).effects
      rw [heq]
      simp

theorem Honest.of_absent {x : Sighting} {through : Nat} (hrecent : x.requestedTick ≤ through + 3)
    (hfirst : through < x.chain.firstTarget) (hobserved : x.observed = none) : Honest x through := by
  refine ⟨hrecent, .inr ⟨fun t howns => ?_, ?_⟩⟩
  · exact hfirst.trans_le (Chain.ownsTarget_iff.1 howns).1
  · rintro ⟨target, hsome, -⟩
    rw [hobserved] at hsome
    cases hsome

theorem Honest.of_owned {x : Sighting} {through target : Nat}
    (hrecent : x.requestedTick ≤ through + 3) (hobserved : x.observed = some target)
    (howns : x.chain.ownsTarget target = true) (hle : target ≤ through)
    (hlate : through < target + streamCount) : Honest x through := by
  refine ⟨hrecent, .inl ⟨target, hobserved, ⟨howns, hle⟩, ?_⟩⟩
  rintro t ⟨ht, hthrough⟩
  have hspaced := (Chain.ownsTarget_iff.1 ht).2.2
  have hspaced' := (Chain.ownsTarget_iff.1 howns).2.2
  have hfirst := (Chain.ownsTarget_iff.1 ht).1
  have hfirst' := (Chain.ownsTarget_iff.1 howns).1
  simp only [streamCount] at *
  omega

/-- A report requested at a tick for the sample provider, which last updated stream 1 at a tick. -/
def sampleObservation (requestedTick : Fin 256) (lastUpdateTick : Option Nat) :
    StatusObservation where
  epoch := 1
  requestedTick := requestedTick
  status :=
    { slots := lastUpdateTick.toList.map fun tick =>
        { key := { stream := 1, collateralTier := 1 }
          lockedCollateral := 10
          contributedToEntropy := true
          lastUpdateTick := tick } }
  requestedTick_le := sampleTick_le requestedTick

/-- Two absences past the first target, from reports of tick 6, do not freeze
the chain, and neither does the report of tick 9 that follows them. -/
theorem no_freeze_on_honest_status_lagging :
    let ops : List SlotOp := [.applyStatus (sampleObservation 0 none), .startIfReady sampleEnv 1,
      .applyStatus (sampleObservation 8 none), .applyStatus (sampleObservation 9 none),
      .extendChain sampleEnv 4]
    let r := applyStatus (sampleObservation 10 (some 7))
      ((slotMachine sampleConfig).state (slot₀ sampleConfig 1) ops)
    r.slot.state.isPlanning = true ∧ r.slot.state.isRestarting = false ∧
      ∀ target, .financialFailure target ∉ r.effects := by
  intro ops
  have hplanning :
      ((slotMachine sampleConfig).state (slot₀ sampleConfig 1) ops).state.isPlanning = true := by
    decide +kernel
  have hchain : ((slotMachine sampleConfig).state (slot₀ sampleConfig 1) ops).chain.isSome := by
    decide +kernel
  refine no_freeze_on_honest_status 1 ops _ _ hplanning (Option.some_get hchain).symm
    ⟨List.zip _ [6, 6, 9], List.map_fst_zip (by decide +kernel +revert), ?_, ?_⟩
  · intro report hreport
    have hcases := (by decide +kernel +revert : ∀ report ∈ List.zip (sightings sampleConfig 1 ops ++
        [sightingOf ((slotMachine sampleConfig).state (slot₀ sampleConfig 1) ops).key
          ((slotMachine sampleConfig).state (slot₀ sampleConfig 1) ops).state
          (((slotMachine sampleConfig).state (slot₀ sampleConfig 1) ops).chain.get hchain)
          (sampleObservation 10 (some 7))]) [6, 6, 9],
      report.1.requestedTick ≤ report.2 + 3 ∧
        (report.2 < report.1.chain.firstTarget ∧ report.1.observed = none ∨
          report.1.observed = some 7 ∧ report.1.chain.ownsTarget 7 = true ∧
            7 ≤ report.2 ∧ report.2 < 7 + streamCount)) report hreport
    rcases hcases with ⟨hrecent, ⟨hfirst, hobserved⟩ | ⟨hobserved, howns, hle, hlate⟩⟩
    · exact .of_absent hrecent hfirst hobserved
    · exact .of_owned hrecent hobserved howns hle hlate
  · decide +kernel +revert

end RandomClient
