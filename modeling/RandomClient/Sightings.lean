import RandomClient.Queue
import RandomClient.Watch

/-!
# The sightings of a chain

Over a whole history: the observations applied to a chain since it was created
(`sightings`), and the invariant that its suspicion is their confirmation
series (`WatchInv`). `ThirdOfThree` says of a sighting that it is the third of
three that count in a row.
-/

namespace RandomClient

variable {cfg : Config}

/-! ## What the other operations keep -/

/-- What is known of the chain stays; its tail may grow. -/
structure Chain.KeepsWatch (chain chain' : Chain) : Prop where
  first : chain'.firstTarget = chain.firstTarget
  confirmed : chain'.confirmedThrough = chain.confirmedThrough
  suspicion : chain'.statusSuspicion = chain.statusSuspicion
  last_le : chain.lastTarget ≤ chain'.lastTarget

theorem Chain.KeepsWatch.refl (chain : Chain) : chain.KeepsWatch chain :=
  ⟨rfl, rfl, rfl, le_rfl⟩

theorem Chain.KeepsWatch.trans {a b c : Chain} (hab : a.KeepsWatch b) (hbc : b.KeepsWatch c) :
    a.KeepsWatch c :=
  ⟨hbc.first.trans hab.first, hbc.confirmed.trans hab.confirmed,
    hbc.suspicion.trans hab.suspicion, hab.last_le.trans hbc.last_le⟩

/-- A chain nothing is known of yet. -/
def Chain.Fresh (chain : Chain) : Prop :=
  chain.lastTarget = chain.firstTarget ∧ chain.confirmedThrough = none ∧
    chain.statusSuspicion = none

/-- If the slot is planning after the change, it kept its chain or created one. -/
def KeepsSlot (slot slot' : ManagedSlot) : Prop :=
  slot'.state.isPlanning = true → ∀ chain', slot'.chain = some chain' →
    (slot'.state = slot.state ∧ ∃ chain, slot.chain = some chain ∧ chain.KeepsWatch chain') ∨
      (slot.state.isPlanning = false ∧ chain'.Fresh ∧ slot'.state = .starting chain'.firstTarget)

/-- Whatever chain a change leaves is the one before it, or one it created. -/
def KeepsChain (slot slot' : ManagedSlot) : Prop :=
  ∀ chain', slot'.chain = some chain' →
    (∃ chain, slot.chain = some chain ∧ chain.KeepsWatch chain' ∧
      (slot'.state.isPlanning = true → slot'.state = slot.state)) ∨
    (slot.state.isPlanning = false ∧ chain'.Fresh ∧ slot'.state = .starting chain'.firstTarget)

theorem KeepsChain.refl (slot : ManagedSlot) : KeepsChain slot slot :=
  fun chain hchain => .inl ⟨chain, hchain, .refl chain, fun _ => rfl⟩

theorem KeepsChain.of_none {slot slot' : ManagedSlot} (h : slot'.chain = none) :
    KeepsChain slot slot' := by
  intro chain' hchain'
  rw [h] at hchain'
  cases hchain'

theorem KeepsChain.of_chain {slot slot' : ManagedSlot} {chain chain' : Chain}
    (hstate : slot'.state.isPlanning = true → slot'.state = slot.state)
    (hchain : slot.chain = some chain) (hchain' : slot'.chain = some chain')
    (h : chain.KeepsWatch chain') : KeepsChain slot slot' := by
  intro chain'' hchain''
  obtain rfl := Option.some.inj (hchain'.symm.trans hchain'')
  exact .inl ⟨chain, hchain, h, hstate⟩

/-- The state moves, but not into planning. -/
theorem KeepsChain.of_state {slot slot' : ManagedSlot} (hchain : slot'.chain = slot.chain)
    (hstate : slot'.state.isPlanning = false) : KeepsChain slot slot' := by
  intro chain' hchain'
  refine .inl ⟨chain', hchain.symm.trans hchain', .refl chain', ?_⟩
  intro hplanning
  rw [hstate] at hplanning
  cases hplanning

theorem KeepsChain.keepsSlot {slot slot' : ManagedSlot} (h : KeepsChain slot slot') :
    KeepsSlot slot slot' := by
  intro hplanning chain' hchain'
  rcases h chain' hchain' with ⟨chain, hchain, hkeeps, hstate⟩ | hnew
  · exact .inl ⟨hstate hplanning, chain, hchain, hkeeps⟩
  · exact .inr hnew

theorem extendLoop_keepsWatch (env : SigningEnv) (currentTick horizon fuel : Nat) (key : SlotKey)
    (chain : Chain) :
    chain.KeepsWatch (extendLoop cfg env currentTick horizon key fuel chain).1 := by
  induction fuel generalizing chain with
  | zero => exact .refl chain
  | succ fuel ih =>
    simp only [extendLoop]
    split
    · exact .refl chain
    · exact .refl chain
    · rename_i chain' call honce
      obtain ⟨next, hextends, rfl⟩ := extendOnce_extends honce
      have hgrown : chain.KeepsWatch (chain.extendBy call next) :=
        ⟨rfl, rfl, rfl, by simp [Chain.extendBy, hextends.target]⟩
      exact hgrown.trans (ih _)

theorem expireCalls_keeps (currentTick : Nat) (slot : ManagedSlot) :
    KeepsChain slot (expireCalls currentTick slot).slot := by
  unfold expireCalls
  split
  · exact .refl slot
  · rename_i chain hchain
    have hswept : KeepsChain slot { slot with chain := some { chain with
        calls := chain.calls.map (expireCall currentTick chain.firstTarget) } } :=
      .of_chain (fun _ => rfl) hchain rfl ⟨rfl, rfl, rfl, le_rfl⟩
    dsimp only
    split
    · exact hswept
    · split
      · exact .of_none (loseChain_chain _ _ _)
      · exact .of_none (loseChain_chain _ _ _)
      · exact .of_none rfl
      · exact hswept
      · exact hswept
      · exact hswept

theorem extendChain_keeps (env : SigningEnv) (currentTick : Nat) (slot : ManagedSlot) :
    KeepsChain slot (extendChain cfg env currentTick slot).slot := by
  unfold extendChain
  split
  · split
    · simp only [SlotResult.followedBy]
      split
      · exact .of_none (loseChain_chain _ _ _)
      · exact expireCalls_keeps currentTick slot
    · split
      · exact .refl slot
      · split
        · exact .refl slot
        · rename_i chain hchain
          exact .of_chain (fun _ => rfl) hchain rfl (extendLoop_keepsWatch _ _ _ _ _ chain)
  · exact .refl slot

theorem startIfReady_keeps (env : SigningEnv) (currentTick : Nat) (slot : ManagedSlot) :
    KeepsChain slot (startIfReady cfg env currentTick slot).slot := by
  unfold startIfReady
  split
  · rename_i hready
    have hwaiting : slot.state.isPlanning = false := by
      unfold SlotState.readyToStart at hready
      split at hready
      · simp [*, SlotState.isPlanning]
      · simp [*, SlotState.isPlanning]
      · cases hready
    split
    · exact .refl slot
    · split
      · exact .refl slot
      · dsimp only
        split
        · exact .refl slot
        · intro chain' hchain'
          cases hchain'
          exact .inr ⟨hwaiting, ⟨rfl, rfl, rfl⟩, rfl⟩
  · exact .refl slot

theorem enterDrain_keeps (env : SigningEnv) (reason : DrainReason) (slot : ManagedSlot) :
    KeepsChain slot (enterDrain cfg env reason slot).slot := by
  unfold enterDrain
  split
  · exact .refl slot
  · exact .refl slot
  · exact .of_state rfl rfl
  · exact .of_state rfl rfl
  all_goals
    split
    · exact .refl slot
    · rename_i hchain
      split
      · exact .refl slot
      · dsimp only
        split
        · exact .refl slot
        · exact .of_chain (fun hplanning => by cases hplanning) hchain rfl
            ⟨rfl, rfl, rfl, le_rfl⟩

theorem harvestBroadcasts_keeps (results : Nat → Option Delivery) (slot : ManagedSlot) :
    KeepsChain slot (harvestBroadcasts results slot).slot := by
  unfold harvestBroadcasts
  split
  · exact .refl slot
  · rename_i chain hchain
    exact .of_chain (fun _ => rfl) hchain rfl ⟨rfl, rfl, rfl, le_rfl⟩

theorem dispatchCalls_keeps (currentTick tickDurationMs : Nat) (slot : ManagedSlot) :
    KeepsChain slot (dispatchCalls currentTick tickDurationMs slot).slot := by
  unfold dispatchCalls
  split
  · exact .refl slot
  · rename_i chain hchain
    exact .of_chain (fun _ => rfl) hchain rfl ⟨rfl, rfl, rfl, le_rfl⟩

theorem pruneCalls_keeps (currentTick : Nat) (slot : ManagedSlot) :
    KeepsChain slot (pruneCalls currentTick slot).slot := by
  unfold pruneCalls
  split
  · exact .refl slot
  · split
    · exact .refl slot
    · rename_i chain hchain
      exact .of_chain (fun _ => rfl) hchain rfl ⟨rfl, rfl, rfl, le_rfl⟩

theorem finishDrain_keeps (slot : ManagedSlot) : KeepsChain slot (finishDrain slot).slot := by
  unfold finishDrain
  dsimp only
  split
  · split
    · exact .of_none rfl
    · exact .of_none rfl
    · exact .refl slot
  · exact .refl slot

theorem finishStatusRestart_keeps (currentTick : Nat) (slot : ManagedSlot) :
    KeepsChain slot (finishStatusRestart currentTick slot).slot := by
  unfold finishStatusRestart
  split
  · split
    · exact .refl slot
    · exact .of_none rfl
  · exact .refl slot

/-- The operations other than status observations keep what is known of a chain. -/
theorem SlotOp.keepsChain {op : SlotOp} (h : ∀ observation, op ≠ .applyStatus observation)
    (slot : ManagedSlot) : KeepsChain slot (op.run cfg slot).slot := by
  cases op with
  | reset => exact .of_none rfl
  | applyStatus observation => exact absurd rfl (h observation)
  | enterDrain env reason => exact enterDrain_keeps env reason slot
  | startIfReady env currentTick => exact startIfReady_keeps env currentTick slot
  | extendChain env currentTick => exact extendChain_keeps env currentTick slot
  | expireCalls currentTick => exact expireCalls_keeps currentTick slot
  | harvestBroadcasts results => exact harvestBroadcasts_keeps results slot
  | dispatchCalls currentTick tickDurationMs => exact dispatchCalls_keeps currentTick _ slot
  | pruneCalls currentTick => exact pruneCalls_keeps currentTick slot
  | finishDrain => exact finishDrain_keeps slot
  | finishStatusRestart currentTick => exact finishStatusRestart_keeps currentTick slot

theorem SlotOp.keeps {op : SlotOp} (h : ∀ observation, op ≠ .applyStatus observation)
    (slot : ManagedSlot) : KeepsSlot slot (op.run cfg slot).slot := (op.keepsChain h slot).keepsSlot

theorem applyStatus_not_planning {slot : ManagedSlot} (observation : StatusObservation)
    (h : slot.state.isPlanning = false) :
    (applyStatus observation slot).slot.state.isPlanning = false := by
  cases hstate : slot.state with
  | starting _ | active => simp [hstate, SlotState.isPlanning] at h
  | waiting _ _ | restarting _ _ _ _ | draining _ _ | drained _ =>
    simp only [applyStatus, hstate]
    rfl

/-! ## Regular chains over a history -/

theorem SlotStep.regular {slot slot' : ManagedSlot} {u : List Effect}
    (hstep : SlotStep cfg slot u slot') (h : ∀ chain, slot.chain = some chain → chain.Regular) :
    ∀ chain, slot'.chain = some chain → chain.Regular := by
  intro chain' hchain'
  cases hstep with
  | note => exact h chain' hchain'
  | reset => cases hchain'
  | start hready hcall =>
    cases hchain'
    exact ⟨le_rfl, by simp [freshChain], hcall.target_le⟩
  | extend hstate hchain hcall =>
    cases hchain'
    obtain ⟨hfirst, hspaced, hlast⟩ := h _ hchain
    have htarget := hcall.target
    refine ⟨?_, ?_, hcall.target_le⟩
    · simp only [Chain.extendBy, streamCount] at htarget ⊢
      omega
    · simp only [Chain.extendBy, streamCount] at htarget hspaced ⊢
      omega
  | exhaust | lose | settle | abandon => cases hchain'
  | freeze | wait | hold | rest => exact h chain' hchain'
  | close _ hchain | watch _ hchain | harvest _ hchain | expire _ hchain | dispatch _ _ hchain
  | prune _ _ hchain =>
    cases hchain'
    obtain ⟨hfirst, hspaced, hlast⟩ := h _ hchain
    exact ⟨hfirst, hspaced, hlast⟩

theorem slotMachine_regular (i : Fin 3) (ops : List SlotOp) {chain : Chain}
    (hchain : ((slotMachine cfg).state (slot₀ cfg i) ops).chain = some chain) : chain.Regular := by
  have hrun : SlotRun cfg (slot₀ cfg i) _ _ := slotMachine_run i ops
  have hinv := hrun.invariant (fun slot _ => ∀ chain, slot.chain = some chain → chain.Regular)
    (fun _ _ _ _ h hstep => hstep.regular h) (t := []) (fun _ hnone => by cases hnone)
  exact hinv chain hchain

/-! ## The sightings of the running chain -/

/-- One more operation: an observation of a planning slot is a sighting of its
chain, and a slot that is not planning has no chain to watch. -/
def recordSighting (slot : ManagedSlot) (op : SlotOp) (xs : List Sighting) : List Sighting :=
  if slot.state.isPlanning then
    match op, slot.chain with
    | .applyStatus observation, some chain =>
      xs ++ [sightingOf slot.key slot.state chain observation]
    | _, _ => xs
  else []

/-- The observations applied to the running chain since its creation, in order. -/
def sightings (cfg : Config) (i : Fin 3) (ops : List SlotOp) : List Sighting :=
  (slotMachine cfg).track recordSighting (slot₀ cfg i) [] ops

/-- The sighting is of the chain, which may have grown since. -/
structure SeenBy (chain : Chain) (x : Sighting) : Prop where
  first : x.chain.firstTarget = chain.firstTarget
  last_le : x.chain.lastTarget ≤ chain.lastTarget

/-- What a planning slot knows of its chain is what the sightings say. -/
structure ChainWatch (chain : Chain) (xs : List Sighting) : Prop where
  seen : ∀ x ∈ xs, SeenBy chain x
  suspicion : Suspects chain.statusSuspicion (watchRules.series xs)
  short : (watchRules.series xs).length < 3
  owned : ∀ confirmed, chain.confirmedThrough = some confirmed → chain.ownsTarget confirmed = true

def WatchInv (slot : ManagedSlot) (xs : List Sighting) : Prop :=
  slot.state.isPlanning = true → ∀ chain, slot.chain = some chain → ChainWatch chain xs

theorem Chain.KeepsWatch.ownsTarget {chain chain' : Chain} (h : chain.KeepsWatch chain')
    {target : Nat} (howns : chain.ownsTarget target = true) : chain'.ownsTarget target = true := by
  obtain ⟨hfirst, hlast, hmod⟩ := Chain.ownsTarget_iff.1 howns
  rw [Chain.ownsTarget_iff, h.first]
  exact ⟨hfirst, hlast.trans h.last_le, hmod⟩

theorem SeenBy.grow {chain chain' : Chain} {x : Sighting} (h : SeenBy chain x)
    (hfirst : chain'.firstTarget = chain.firstTarget) (hlast : chain.lastTarget ≤ chain'.lastTarget) :
    SeenBy chain' x :=
  ⟨h.first.trans hfirst.symm, h.last_le.trans hlast⟩

theorem SeenBy.ownsTarget {chain : Chain} {x : Sighting} (h : SeenBy chain x) {target : Nat}
    (howns : x.chain.ownsTarget target = true) : chain.ownsTarget target = true := by
  obtain ⟨hle, hle', hmod⟩ := Chain.ownsTarget_iff.1 howns
  rw [Chain.ownsTarget_iff, ← h.first]
  exact ⟨hle, hle'.trans h.last_le, hmod⟩

theorem ChainWatch.keeps {chain chain' : Chain} {xs : List Sighting} (h : ChainWatch chain xs)
    (hkeeps : chain.KeepsWatch chain') : ChainWatch chain' xs where
  seen x hmem := (h.seen x hmem).grow hkeeps.first hkeeps.last_le
  suspicion := by
    rw [hkeeps.suspicion]
    exact h.suspicion
  short := h.short
  owned confirmed hconfirmed :=
    hkeeps.ownsTarget (h.owned confirmed (hkeeps.confirmed ▸ hconfirmed))

/-- Only an owned update tick moves the watermark. -/
theorem readingOf_advances {state : SlotState} {chain : Chain} {observed : Option Nat}
    {requestedTick : Nat} (h : (readingOf state chain observed requestedTick).advances = true) :
    ∃ target, observed = some target ∧ chain.ownsTarget target = true ∧
      chain.confirmedThrough ≠ some target ∧
      ∀ previous, chain.confirmedThrough = some previous → previous ≤ target := by
  unfold readingOf at h
  split at h
  · rename_i target
    split at h
    · rename_i howns
      split at h
      · cases h
      · rename_i hbelow
        refine ⟨target, rfl, howns, ?_, ?_⟩
        · split at h <;> simpa [Reading.advances] using h
        · intro previous hprevious
          simpa [hprevious] using hbelow
    · split at h <;> cases h
  · split at h <;> cases h

theorem confirmedAfter_owned {chain : Chain} {xs : List Sighting} (h : ChainWatch chain xs)
    {key : SlotKey} {state : SlotState} {observation : StatusObservation} {confirmed : Nat}
    (hconfirmed : confirmedAfter chain (sightingOf key state chain observation) = some confirmed) :
    chain.ownsTarget confirmed = true := by
  unfold confirmedAfter at hconfirmed
  split at hconfirmed
  · rename_i hadvances
    obtain ⟨target, hobserved, howns, -⟩ := readingOf_advances hadvances
    rw [hobserved, Option.some.injEq] at hconfirmed
    rw [← hconfirmed]
    exact howns
  · exact h.owned _ hconfirmed

theorem Froze.not_planning {tail : Nat} {state : SlotState} (h : Froze tail state) :
    state.isPlanning = false := by
  rcases h with ⟨-, rfl⟩ | ⟨-, _, _, rfl⟩ <;> rfl

theorem WatchInv.step {slot : ManagedSlot} {xs : List Sighting} (h : WatchInv slot xs)
    (hsome : slot.state.isPlanning = true → ∃ chain, slot.chain = some chain)
    (hregular : ∀ chain, slot.chain = some chain → chain.Regular) (op : SlotOp) :
    WatchInv (op.run cfg slot).slot (recordSighting slot op xs) := by
  intro hplanning' chain' hchain'
  by_cases hstatus : ∃ observation, op = .applyStatus observation
  · obtain ⟨observation, rfl⟩ := hstatus
    by_cases hplanning : slot.state.isPlanning = true
    · -- an observation of the running chain
      obtain ⟨chain, hchain⟩ := hsome hplanning
      have hwatch := h hplanning chain hchain
      have hrecord : recordSighting slot (.applyStatus observation) xs =
          xs ++ [sightingOf slot.key slot.state chain observation] := by
        simp [recordSighting, hplanning, hchain]
      rw [hrecord]
      rcases applyStatus_watched hplanning hchain (hregular chain hchain) hwatch.suspicion
        hwatch.short observation with ⟨-, hfroze⟩ | ⟨hshort, suspicion, hsuspects, heq⟩
      · rw [SlotOp.run, hfroze.not_planning] at hplanning'
        cases hplanning'
      · rw [← Confirmation.Rules.series_snoc] at hshort hsuspects
        rw [SlotOp.run, heq] at hchain'
        cases hchain'
        refine ⟨?_, hsuspects, hshort, fun _ hconfirmed => confirmedAfter_owned hwatch hconfirmed⟩
        intro x hx
        rcases List.mem_append.1 hx with hx | hx
        · exact (hwatch.seen x hx).grow rfl le_rfl
        · rw [List.mem_singleton.1 hx]
          exact ⟨rfl, le_rfl⟩
    · rw [SlotOp.run, applyStatus_not_planning observation (by simpa using hplanning)] at hplanning'
      cases hplanning'
  · push Not at hstatus
    have hrecord : recordSighting slot op xs = if slot.state.isPlanning then xs else [] := by
      unfold recordSighting
      split
      · cases op <;> first | rfl | exact absurd rfl (hstatus _)
      · rfl
    rw [hrecord]
    rcases op.keeps hstatus slot hplanning' chain' hchain' with
      ⟨hstate, chain, hchain, hkeeps⟩ | ⟨hplanning, ⟨-, hconfirmed, hsuspicion⟩, -⟩
    · rw [hstate] at hplanning'
      rw [if_pos hplanning']
      exact (h hplanning' chain hchain).keeps hkeeps
    · -- a chain just created
      rw [hplanning]
      refine ⟨by simp, by rw [hsuspicion]; rfl, by simp, ?_⟩
      intro confirmed hsome
      rw [hconfirmed] at hsome
      cases hsome

/-! ## The freeze -/

/-- Three sightings with agreeing evidence: all report the slot absent; all
report update ticks the chain did not own, in non-decreasing order; or all
report the same owned tick while the target after it is signed and due. -/
inductive AgreeingEvidence (chain : Chain) (x y z : Sighting) : Prop where
  | absent (hx : x.observed = none ∧ x.reading.evidence = some .absent)
      (hy : y.observed = none ∧ y.reading.evidence = some .absent)
      (hz : z.observed = none ∧ z.reading.evidence = some .absent)
  | foreign (a b c : Nat) (hx : x.observed = some a ∧ x.reading.evidence = some (.foreign a))
      (hy : y.observed = some b ∧ y.reading.evidence = some (.foreign b))
      (hz : z.observed = some c ∧ z.reading.evidence = some (.foreign c))
      (hab : a ≤ b) (hbc : b ≤ c)
  | lag (target : Nat)
      (hx : x.observed = some target ∧ x.reading.evidence = some (.lag (target + streamCount)))
      (hy : y.observed = some target ∧ y.reading.evidence = some (.lag (target + streamCount)))
      (hz : z.observed = some target ∧ z.reading.evidence = some (.lag (target + streamCount)))
      (howns : chain.ownsTarget target = true)
      (hmissing : chain.ownsTarget (target + streamCount) = true)
      (hdue : target + streamCount < x.requestedTick ∧ target + streamCount < y.requestedTick ∧
        target + streamCount < z.requestedTick)

/-- The sighting is the third of three that count in a row: the first begins a
series; the request ticks increase strictly; the evidence agrees; the second and
third advance no watermark; and nothing between them advances the watermark, or
has a later request tick than the last counted one and says anything. -/
def ThirdOfThree (chain : Chain) (xs : List Sighting) (z : Sighting) : Prop :=
  ∃ pre x between y rest, xs = pre ++ x :: (between ++ y :: rest) ∧
    watchRules.Begins (watchRules.series pre) x ∧
    x.requestedTick < y.requestedTick ∧ y.requestedTick < z.requestedTick ∧
    AgreeingEvidence chain x y z ∧ y.reading.advances = false ∧ z.reading.advances = false ∧
    (∀ m ∈ between, m.reading.advances = false ∧
      (m.requestedTick ≤ x.requestedTick ∨ m.reading = .silent)) ∧
    ∀ m ∈ rest, m.reading.advances = false ∧
      (m.requestedTick ≤ y.requestedTick ∨ m.reading = .silent)

/-- What a sighting's evidence says of the report. -/
theorem SeenBy.evidence {chain : Chain} {x : Sighting} (h : SeenBy chain x)
    {evidence : StatusEvidence} (hevidence : x.reading.evidence = some evidence) :
    match evidence with
    | .absent => x.observed = none
    | .foreign target => x.observed = some target
    | .lag missingTarget => ∃ target, missingTarget = target + streamCount ∧
        x.observed = some target ∧ chain.ownsTarget target = true ∧
        chain.ownsTarget missingTarget = true ∧ missingTarget < x.requestedTick := by
  unfold Sighting.reading readingOf at hevidence
  split at hevidence
  · rename_i target hobserved
    split at hevidence
    · rename_i howns
      split at hevidence
      · cases hevidence
      · split at hevidence
        · rename_i hmissing
          cases hevidence
          exact ⟨target, rfl, hobserved, h.ownsTarget howns, h.ownsTarget hmissing.1, hmissing.2⟩
        · cases hevidence
    · split at hevidence
      · cases hevidence
      · cases hevidence
        exact hobserved
  · rename_i hobserved
    split at hevidence
    · cases hevidence
    · cases hevidence
      exact hobserved

theorem verdict_eq_silent {reading : Reading} : reading.verdict = .silent ↔ reading = .silent := by
  cases reading <;> simp [Reading.verdict]

theorem verdict_eq_evidence {reading : Reading} :
    reading.verdict = .evidence ↔ ∃ evidence, reading.evidence = some evidence := by
  cases reading <;> simp [Reading.verdict, Reading.evidence]

/-- Two agreeing steps are agreeing evidence of one kind. -/
theorem agreeingEvidence {chain : Chain} {x y z : Sighting} (hx : SeenBy chain x)
    (hy : SeenBy chain y) (hz : SeenBy chain z) (hbegin : watchRules.verdict x = .evidence)
    (hxy : watchRules.Follows x y) (hyz : watchRules.Follows y z) :
    AgreeingEvidence chain x y z := by
  obtain ⟨ex, hex⟩ := verdict_eq_evidence.1 hbegin
  obtain ⟨ey, hey⟩ := verdict_eq_evidence.1 hxy.evidence
  obtain ⟨ez, hez⟩ := verdict_eq_evidence.1 hyz.evidence
  have hxy' : ex.agreesWith ey = true := by simpa [watchRules, hex, hey] using hxy.agrees
  have hyz' : ey.agreesWith ez = true := by simpa [watchRules, hey, hez] using hyz.agrees
  have hsx := hx.evidence hex
  have hsy := hy.evidence hey
  have hsz := hz.evidence hez
  cases ex with
  | absent =>
    cases ey <;> simp only [StatusEvidence.agreesWith, Bool.false_eq_true] at hxy'
    cases ez <;> simp only [StatusEvidence.agreesWith, Bool.false_eq_true] at hyz'
    exact .absent ⟨hsx, hex⟩ ⟨hsy, hey⟩ ⟨hsz, hez⟩
  | foreign a =>
    cases ey <;> simp only [StatusEvidence.agreesWith, Bool.false_eq_true] at hxy'
    cases ez <;> simp only [StatusEvidence.agreesWith, Bool.false_eq_true] at hyz'
    exact .foreign _ _ _ ⟨hsx, hex⟩ ⟨hsy, hey⟩ ⟨hsz, hez⟩ (by simpa using hxy') (by simpa using hyz')
  | lag a =>
    cases ey <;> simp only [StatusEvidence.agreesWith, Bool.false_eq_true] at hxy'
    cases ez <;> simp only [StatusEvidence.agreesWith, Bool.false_eq_true] at hyz'
    obtain ⟨target, rfl, hox, howns, hmissing, hdx⟩ := hsx
    obtain ⟨target', rfl, hoy, -, -, hdy⟩ := hsy
    obtain ⟨target'', rfl, hoz, -, -, hdz⟩ := hsz
    obtain rfl : target' = target := by simpa using hxy'
    obtain rfl : target'' = target' := by simpa using hyz'
    exact .lag _ ⟨hox, hex⟩ ⟨hoy, hey⟩ ⟨hoz, hez⟩ howns hmissing ⟨hdx, hdy, hdz⟩

theorem AgreeingEvidence.follows {chain : Chain} {x y z : Sighting}
    (h : AgreeingEvidence chain x y z) (hxy : x.requestedTick < y.requestedTick)
    (hyz : y.requestedTick < z.requestedTick) (hy : y.reading.advances = false)
    (hz : z.reading.advances = false) : watchRules.Follows x y ∧ watchRules.Follows y z := by
  cases h with
  | absent hex hey hez =>
    exact ⟨⟨verdict_eq_evidence.2 ⟨_, hey.2⟩, hy, hxy, by simp [watchRules, hex.2, hey.2,
        StatusEvidence.agreesWith]⟩,
      ⟨verdict_eq_evidence.2 ⟨_, hez.2⟩, hz, hyz, by simp [watchRules, hey.2, hez.2,
        StatusEvidence.agreesWith]⟩⟩
  | foreign a b c hex hey hez hab hbc =>
    exact ⟨⟨verdict_eq_evidence.2 ⟨_, hey.2⟩, hy, hxy, by simp [watchRules, hex.2, hey.2,
        StatusEvidence.agreesWith, hab]⟩,
      ⟨verdict_eq_evidence.2 ⟨_, hez.2⟩, hz, hyz, by simp [watchRules, hey.2, hez.2,
        StatusEvidence.agreesWith, hbc]⟩⟩
  | lag target hex hey hez =>
    exact ⟨⟨verdict_eq_evidence.2 ⟨_, hey.2⟩, hy, hxy, by simp [watchRules, hex.2, hey.2,
        StatusEvidence.agreesWith]⟩,
      ⟨verdict_eq_evidence.2 ⟨_, hez.2⟩, hz, hyz, by simp [watchRules, hey.2, hez.2,
        StatusEvidence.agreesWith]⟩⟩

/-- The series of three is three agreeing sightings. -/
theorem thirdOfThree_iff {chain : Chain} {xs : List Sighting} {z : Sighting}
    (hseen : ∀ x ∈ xs, SeenBy chain x) (hz : SeenBy chain z) :
    ThirdOfThree chain xs z ↔ watchRules.ThirdInRow xs z := by
  have hquiet : ∀ (k : Nat) (m : Sighting), watchRules.Quiet k m ↔
      m.reading.advances = false ∧ (m.requestedTick ≤ k ∨ m.reading = .silent) := by
    intro k m
    simp only [Confirmation.Rules.Quiet, watchRules, verdict_eq_silent]
  constructor
  · rintro ⟨pre, x, between, y, rest, rfl, hbegins, hxy, hyz, hagree, hya, hza, hbetween, hrest⟩
    obtain ⟨hfxy, hfyz⟩ := hagree.follows hxy hyz hya hza
    exact ⟨pre, x, between, y, rest, rfl, hbegins, fun m hm => (hquiet _ m).2 (hbetween m hm), hfxy,
      fun m hm => (hquiet _ m).2 (hrest m hm), hfyz⟩
  · rintro ⟨pre, x, between, y, rest, rfl, hbegins, hbetween, hxy, hrest, hyz⟩
    refine ⟨pre, x, between, y, rest, rfl, hbegins, hxy.later, hyz.later, ?_, hxy.advances,
      hyz.advances, fun m hm => (hquiet _ m).1 (hbetween m hm),
      fun m hm => (hquiet _ m).1 (hrest m hm)⟩
    exact agreeingEvidence (hseen x (by simp)) (hseen y (by simp)) hz hbegins.1 hxy hyz

/-- A planning slot has a chain, and a starting one waits for its first target. -/
theorem slotMachine_chain (i : Fin 3) (ops : List SlotOp)
    (hplanning : ((slotMachine cfg).state (slot₀ cfg i) ops).state.isPlanning = true) :
    ∃ chain, ((slotMachine cfg).state (slot₀ cfg i) ops).chain = some chain ∧
      ∀ first, ((slotMachine cfg).state (slot₀ cfg i) ops).state = .starting first →
        first = chain.firstTarget := by
  have hrun : SlotRun cfg (slot₀ cfg i) _ _ := slotMachine_run i ops
  obtain ⟨p, hrepresents, -⟩ := hrun.planned
  obtain ⟨chain, hchain, hfirst, -⟩ := hrepresents.of_planning hplanning
  exact ⟨chain, hchain, hfirst⟩

/-- The targets a planning slot's chain owns are those it signed. -/
theorem ownsTarget_iff_signed (i : Fin 3) (ops : List SlotOp) {chain : Chain}
    (hplanning : ((slotMachine cfg).state (slot₀ cfg i) ops).state.isPlanning = true)
    (hchain : ((slotMachine cfg).state (slot₀ cfg i) ops).chain = some chain) (target : Nat) :
    chain.ownsTarget target = true ↔
      ∃ signed ∈ currentChain ((slotMachine cfg).trace (slot₀ cfg i) ops),
        signed.targetTick = target := by
  have hrun : SlotRun cfg (slot₀ cfg i) _ _ := slotMachine_run i ops
  obtain ⟨p, hrepresents, hinv⟩ := hrun.planned
  obtain ⟨chain', hchain', -, rfl⟩ := hrepresents.of_planning hplanning
  obtain rfl := Option.some.inj (hchain.symm.trans hchain')
  obtain ⟨first, hfirst, hfirstTarget, -⟩ := hinv.shape.1.head
  obtain ⟨last, hlast, hlastTarget, -⟩ := hinv.shape.1.tail
  have htargets := CommitReveal.IsRevealChain.exists_target_iff hinv.linked (by decide)
    ⟨first.link, by simp [hfirst], hfirstTarget⟩ ⟨last.link, by simp [hlast], hlastTarget⟩ target
  have hlink : (∃ l ∈ (currentChain ((slotMachine cfg).trace (slot₀ cfg i) ops)).map
      SignedCall.link, l.target = target) ↔
        ∃ signed ∈ currentChain ((slotMachine cfg).trace (slot₀ cfg i) ops),
          signed.targetTick = target := by
    simp [SignedCall.link]
  rw [← hlink, htargets, Chain.ownsTarget_iff, Nat.dvd_iff_mod_eq_zero]

theorem watchInv (i : Fin 3) (ops : List SlotOp) :
    WatchInv ((slotMachine cfg).state (slot₀ cfg i) ops) (sightings cfg i ops) := by
  induction ops using List.reverseRecOn with
  | nil =>
    intro hplanning
    cases hplanning
  | append_singleton ops op ih =>
    rw [slotMachine_state_snoc, sightings, Machine.track_snoc]
    refine ih.step ?_ (fun chain hchain => slotMachine_regular i ops hchain) op
    intro hplanning
    obtain ⟨chain, hchain, -⟩ := slotMachine_chain i ops hplanning
    exact ⟨chain, hchain⟩

end RandomClient
