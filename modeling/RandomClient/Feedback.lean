import RandomClient.Collateral
import RandomClient.Reporting
import RandomClient.Staleness

/-!
# A client and a contract that watch each other

The client judges its chain by the status it reads, and the contract reports
what it has executed of the chain. In a paced run these two agree: whatever the
contract has executed up to a tick was accepted by the backend by then, and the
status of that tick shows the last call the client expects there. So nothing
ever freezes the chain (`served_client_not_frozen`), which is what the results
on a punctual client had to assume.
-/

namespace RandomClient

open Contract

variable {cfg : Config}

/-! ## Honest reports, one after the other -/

/-- Honest reports of ticks up to `bound`, each of a tick no earlier than the one before. -/
def HonestUpTo (xs : List Sighting) (bound : Nat) : Prop :=
  ∃ reports : List (Sighting × Nat), reports.map Prod.fst = xs ∧
    (∀ report ∈ reports, Honest report.1 report.2 ∧ report.2 ≤ bound) ∧
    reports.Pairwise fun report later => report.2 ≤ later.2

theorem HonestUpTo.nil (bound : Nat) : HonestUpTo [] bound := ⟨[], rfl, by simp, .nil⟩

theorem HonestUpTo.mono {xs : List Sighting} {bound bound' : Nat} (h : HonestUpTo xs bound)
    (hle : bound ≤ bound') : HonestUpTo xs bound' := by
  rcases h with ⟨reports, hreports, hhonest, hsorted⟩
  exact ⟨reports, hreports, fun report hmem =>
    ⟨(hhonest report hmem).1, (hhonest report hmem).2.trans hle⟩, hsorted⟩

theorem HonestUpTo.snoc {xs : List Sighting} {x : Sighting} {through : Nat}
    (h : HonestUpTo xs through) (hx : Honest x through) : HonestUpTo (xs ++ [x]) through := by
  rcases h with ⟨reports, hreports, hhonest, hsorted⟩
  refine ⟨reports ++ [(x, through)], by rw [List.map_append, hreports]; rfl, ?_, ?_⟩
  · intro report hmem
    rcases List.mem_append.1 hmem with hold | hnew
    · exact hhonest report hold
    · rw [List.mem_singleton.1 hnew]
      exact ⟨hx, le_rfl⟩
  · refine List.pairwise_append.2 ⟨hsorted, List.pairwise_singleton _ _, ?_⟩
    intro report hmem later hlater
    rw [List.mem_singleton.1 hlater]
    exact (hhonest report hmem).2

theorem HonestUpTo.reports {xs : List Sighting} {bound : Nat} (h : HonestUpTo xs bound) :
    HonestReports xs := by
  rcases h with ⟨reports, hreports, hhonest, hsorted⟩
  exact ⟨reports, hreports, fun report hmem => (hhonest report hmem).1, hsorted⟩

section

variable {i : Fin 3} {ops more : List SlotOp}

/-- Only observations are sighted. -/
theorem HonestUpTo.quiet {bound : Nat} (h : HonestUpTo (sightings cfg i ops) bound)
    (hquiet : ∀ op ∈ more, ∀ observation, op ≠ .applyStatus observation) :
    HonestUpTo (sightings cfg i (ops ++ more)) bound := by
  induction more using List.reverseRecOn with
  | nil =>
    rw [List.append_nil]
    exact h
  | append_singleton more op ih =>
    have hbefore := ih fun op hop => hquiet op (List.mem_append_left _ hop)
    rw [← List.append_assoc, sightings, Machine.track_snoc]
    unfold recordSighting
    split
    · split
      · exact absurd rfl (hquiet _ (List.mem_append_right _ (List.mem_singleton_self _)) _)
      · exact hbefore
    · exact .nil bound

/-- Only observations freeze a chain. -/
theorem unfrozen_of_quiet (hquiet : ∀ op ∈ more, ∀ observation, op ≠ .applyStatus observation)
    (slot : ManagedSlot) (tail : Nat) (restarting : Bool) :
    Effect.froze tail restarting ∉ (slotMachine cfg).trace slot more := by
  intro hmem
  rcases Machine.mem_trace _ hmem with ⟨front, op, back, rfl, hop⟩
  rcases SlotOp.emits hop with hnote | hemits
  · cases hnote
  · cases hemits
    exact hquiet _ (List.mem_append_right _ List.mem_cons_self) _ rfl

/-- An observation that is honest like those before it freezes nothing. -/
theorem applyStatus_unfrozen (observation : StatusObservation)
    (hhonest : ∀ chain, ((slotMachine cfg).state (slot₀ cfg i) ops).chain = some chain →
      ((slotMachine cfg).state (slot₀ cfg i) ops).state.isPlanning = true →
        HonestReports (sightings cfg i ops ++
          [sightingOf ((slotMachine cfg).state (slot₀ cfg i) ops).key
            ((slotMachine cfg).state (slot₀ cfg i) ops).state chain observation]))
    (tail : Nat) (restarting : Bool) : Effect.froze tail restarting ∉
      (applyStatus observation ((slotMachine cfg).state (slot₀ cfg i) ops)).effects := by
  by_cases hplanning : ((slotMachine cfg).state (slot₀ cfg i) ops).state.isPlanning = true
  · rcases slotMachine_chain i ops hplanning with ⟨chain, hchain, hfirst⟩
    have hwatch := watchInv i ops hplanning chain hchain
    have hseenInv := @seenInv cfg i ops
    have hregular := slotMachine_regular i ops hchain
    have hseen : ∀ x ∈ sightings cfg i ops ++
        [sightingOf ((slotMachine cfg).state (slot₀ cfg i) ops).key
          ((slotMachine cfg).state (slot₀ cfg i) ops).state chain observation], SeenBy chain x := by
      intro x hx
      rcases List.mem_append.1 hx with hold | hnew
      · exact hwatch.seen x hold
      · rw [List.mem_singleton.1 hnew]
        exact ⟨rfl, le_rfl⟩
    -- three sightings that agree against the chain would have to span three ticks
    have hnot := (hhonest chain hchain hplanning).not_third
      (seen_snoc hseenInv.seen ⟨hregular, hplanning, hfirst, hseenInv.active⟩) hseen
    rw [thirdOfThree_iff hwatch.seen ⟨rfl, le_rfl⟩,
      ← Confirmation.Rules.thirdInRow_iff hwatch.short, Confirmation.Rules.series_snoc] at hnot
    rcases applyStatus_watched hplanning hchain hregular hwatch.suspicion hwatch.short observation
      with ⟨hthree, -⟩ | ⟨-, suspicion, -, heq⟩
    · exact absurd hthree hnot
    · rw [heq]
      simp
  · -- a slot that is not planning has nothing to freeze
    cases hstate : ((slotMachine cfg).state (slot₀ cfg i) ops).state with
    | starting | active =>
      rw [hstate] at hplanning
      exact absurd rfl hplanning
    | _ => simp [applyStatus, hstate]

end

theorem planningOps_unobserved {e : Engine} {input : EngineInput} {i : Fin 3}
    {observation : StatusObservation} :
    SlotOp.applyStatus observation ∉ planningOps cfg e input i := by
  unfold planningOps planOps
  repeat' split
  all_goals simp

theorem deliveringOps_unobserved {input : EngineInput} {observation : StatusObservation} :
    SlotOp.applyStatus observation ∉ deliveringOps input := by
  unfold deliveringOps deliveryOps
  repeat' split
  all_goals simp

/-! ## A run in which nothing is reset -/

theorem InEpoch.unreset {e : Engine} {epoch : Nat} (h : InEpoch e epoch) {inputs : List EngineInput}
    (hepoch : ∀ tick ∈ reports inputs, tick.epoch = epoch) (i : Fin 3) :
    .reset ∉ history cfg e inputs i := by
  induction inputs using List.reverseRecOn with
  | nil => exact List.not_mem_nil
  | append_singleton inputs input ih =>
    rw [reports_snoc] at hepoch
    have hbefore : ∀ tick ∈ reports inputs, tick.epoch = epoch := fun tick hmem =>
      hepoch tick (List.mem_append_left _ hmem)
    intro hmem
    rw [history_snoc] at hmem
    rcases List.mem_append.1 hmem with hold | hnew
    · exact ih hbefore hold
    · rcases engineStep_ops cfg input ((engineMachine cfg).state e inputs) i with
        ⟨tick, cycleInput, hreport, -, hbegun⟩ | ⟨-, hnone | ⟨env, hone⟩⟩
      · rcases List.append_of_mem (hbegun.subset hnew) with ⟨front, back, hsplit⟩
        have hsame := (@InEpoch.run cfg e epoch h inputs hbefore).unchanged
          (hepoch tick (List.mem_append_right _ (by rw [hreport]; exact List.mem_singleton_self tick)))
        rw [(cycleOps_reset hsplit).2] at hsame
        cases hsame
      · rw [hnone] at hnew
        cases hnew
      · rw [hone] at hnew
        simp at hnew

/-- The first commit is the head of its chain. -/
theorem head_of_firstCommit {t : List Effect} {call : SignedCall} (hmem : call ∈ currentChain t)
    (hkind : call.kind = .firstCommit) : (currentChain t).head? = some call := by
  induction t using List.reverseRecOn with
  | nil => cases hmem
  | append_singleton t e ih =>
    cases e with
    | signed other =>
      by_cases hother : other.kind = .firstCommit
      · rw [currentChain_first hother] at hmem ⊢
        rw [List.mem_singleton.1 hmem]
        rfl
      · rw [currentChain_later hother] at hmem ⊢
        rcases List.mem_append.1 hmem with hold | hnew
        · rw [List.head?_append, ih hold]
          rfl
        · rw [List.mem_singleton.1 hnew] at hkind
          exact absurd hkind hother
    | reset =>
      rw [currentChain_reset] at hmem
      cases hmem
    | _ =>
      rw [currentChain_append] at hmem ⊢
      exact ih hmem

/-! ## What an answer covers -/

section

variable {i : Fin 3} {ops more : List SlotOp} {chain : Chain}

theorem periodCalls_append_later {u : List Effect} (h : Effect.reset ∉ u) (t : List Effect) :
    periodCalls (t ++ u) = periodCalls t ++ signedCalls u := by
  induction u using List.reverseRecOn with
  | nil => simp [signedCalls]
  | append_singleton u e ih =>
    have hold := ih fun hmem => h (List.mem_append_left _ hmem)
    rw [← List.append_assoc, periodCalls_append, hold, signedCalls_append, ← List.append_assoc]
    cases e with
    | reset => simp at h
    | _ => simp [callsStep, signedCalls]

/-- What is signed later in the epoch lies beyond the tail of a chain that is planned. -/
theorem last_lt_of_signed_later
    (hplanning : ((slotMachine cfg).state (slot₀ cfg i) ops).state.isPlanning = true)
    (hchain : ((slotMachine cfg).state (slot₀ cfg i) ops).chain = some chain)
    (hreset : .reset ∉ more) {call : SignedCall} (hsigned : Effect.signed call ∈
      (slotMachine cfg).trace ((slotMachine cfg).state (slot₀ cfg i) ops) more) :
    chain.lastTarget < call.targetTick := by
  have hinv := (slotMachine_run i ops : SlotRun cfg (slot₀ cfg i) _ _).slotInv
  rcases hinv.planned with ⟨p, hrepresents, hplan⟩
  rcases hrepresents.of_planning hplanning with ⟨chain', hchain', -, rfl⟩
  cases hchain.symm.trans hchain'
  rcases PlanInv.last_of_chainAt hplan.shape.1 hplan.shape.2 with ⟨y, hy, htarget, -⟩
  have hinv' := (slotMachine_run i (ops ++ more) : SlotRun cfg (slot₀ cfg i) _ _).slotInv
  rcases hinv'.planned with ⟨q, -, hplan'⟩
  have hspaced := hplan'.spaced
  rw [Machine.trace_append, periodCalls_append_later (trace_quiet hreset)] at hspaced
  have hle := (List.pairwise_append.1 hspaced).2.2 y (List.mem_of_getLast? hy) call
    (mem_signedCalls.2 hsigned)
  simp only [streamCount] at hle
  omega

variable {qpi : Qpi} {provider : Digest} {tier : Fin 10} {birth : Nat}
  {invocations : Nat → List Invocation} {through : Nat}

/-- The status of a tick that the chain reaches beyond is honest, when the
contract has executed the chain up to that tick. -/
theorem honest_of_executed
    (hplanning : ((slotMachine cfg).state (slot₀ cfg i) ops).state.isPlanning = true)
    (hchain : ((slotMachine cfg).state (slot₀ cfg i) ops).chain = some chain)
    (hsound : SoundChain cfg i (currentChain ((slotMachine cfg).trace (slot₀ cfg i) ops)))
    (hexecuted : ExecutedThrough cfg qpi i provider tier
      (currentChain ((slotMachine cfg).trace (slot₀ cfg i) ops)) birth invocations through)
    (hlast : through < chain.lastTarget) (hbound : through ≤ u32Max)
    {observation : StatusObservation} (hrecent : observation.requestedTick ≤ through + 3)
    (hstatus : ProviderStatus.decode (getProviderStatus provider
      (stateBefore qpi birth invocations emptyContract (through + 1 - birth))).encode =
        .ok observation.status) :
    Honest (sightingOf ((slotMachine cfg).state (slot₀ cfg i) ops).key
      ((slotMachine cfg).state (slot₀ cfg i) ops).state chain observation) through := by
  -- the observation shows the last update of the entry, if there is one
  have hwell : (stateBefore qpi birth invocations emptyContract (through + 1 - birth)).WellFormed :=
    stateBefore_wellFormed fun k hk => by omega
  rw [decode_ok (hwell.keys_nodup provider) fun entry hmem =>
    hwell.fits entry.1 entry.2 (mem_heldBy.1 hmem).1, Except.ok.injEq] at hstatus
  have hkey : ((slotMachine cfg).state (slot₀ cfg i) ops).key =
      { stream := i, collateralTier := tier } := by
    rw [slotMachine_key]
    show SlotKey.mk i (collateralTier cfg.collateral) = _
    rw [hexecuted.collateral, collateralTier, Nat.log_pow (by omega)]
  have hobserved : ∀ enrolled : Option Provider, (stateBefore qpi birth invocations emptyContract
      (through + 1 - birth)).enrolment i provider tier = enrolled.toList →
        observation.observedTarget ((slotMachine cfg).state (slot₀ cfg i) ops).key =
          enrolled.map Provider.lastUpdateTick := by
    intro enrolled henrolled
    unfold StatusObservation.observedTarget
    rw [hkey, ← hstatus]
    exact lastUpdateTick_of_enrolment hwell henrolled
  -- the targets of the chain
  have hinv := (slotMachine_run i ops : SlotRun cfg (slot₀ cfg i) _ _).slotInv
  rcases hinv.planned with ⟨p, hrepresents, hplan⟩
  rcases hrepresents.of_planning hplanning with ⟨chain', hchain', -, rfl⟩
  cases hchain.symm.trans hchain'
  rcases hplan.shape.1.head with ⟨x, hx, hxtarget, -⟩
  rcases hplan.shape.1.tail with ⟨y, hy, hytarget, -, -⟩
  have hregular := slotMachine_regular i ops hchain
  by_cases hfirst : through < chain.firstTarget
  · -- the first call has not come due
    have habsent := hexecuted.absent fun call hmem =>
      hfirst.trans_le (hplan.first_le .live hmem)
    refine .of_absent hrecent hfirst ?_
    exact (hobserved none habsent).trans rfl
  · -- the last target that came due, and its call
    have hspaced := hregular.spaced
    have hexists : ∃ call ∈ currentChain ((slotMachine cfg).trace (slot₀ cfg i) ops),
        call.targetTick = chain.firstTarget +
          streamCount * ((through - chain.firstTarget) / streamCount) := by
      have hiff := CommitReveal.IsRevealChain.exists_target_iff hplan.linked (by decide)
        ⟨x.link, by rw [List.head?_map, hx]; rfl, hxtarget⟩
        ⟨y.link, by rw [List.getLast?_map, hy]; rfl, hytarget⟩ (chain.firstTarget +
          streamCount * ((through - chain.firstTarget) / streamCount))
      have hle : chain.firstTarget + streamCount * ((through - chain.firstTarget) / streamCount) ≤
          chain.lastTarget := by
        simp only [streamCount]
        omega
      have hdvd : streamCount ∣ chain.firstTarget +
          streamCount * ((through - chain.firstTarget) / streamCount) - chain.firstTarget := by
        rw [Nat.add_sub_cancel_left]
        exact Nat.dvd_mul_right _ _
      rcases hiff.2 ⟨Nat.le_add_right _ _, hle, hdvd⟩ with ⟨l, hl, htarget⟩
      rcases List.mem_map.1 hl with ⟨call, hcall, rfl⟩
      exact ⟨call, hcall, htarget⟩
    rcases hexists with ⟨call, hmem, htarget⟩
    simp only [streamCount] at htarget
    have hle : call.targetTick ≤ through := by omega
    have hlt : through < call.targetTick + streamCount := by
      simp only [streamCount]
      omega
    have hafter := hexecuted.enrolled hsound hmem hle hlt
    -- it is not the last call of the chain, so it commits to something
    have hcommit : call.input.commit ≠ Digest.zero := by
      rcases List.append_of_mem hmem with ⟨front, back, hsplit⟩
      cases back with
      | nil =>
        rw [hsplit, List.getLast?_concat] at hy
        rw [Option.some.inj hy, hytarget] at hle
        omega
      | cons next back =>
        rw [Ne, hsound.commit_eq_zero_iff hmem, (hplan.linked.linked hsplit).1]
        exact Option.some_ne_none _
    unfold After at hafter
    rw [List.getLast?_singleton] at hafter
    dsimp only at hafter
    rw [if_neg hcommit] at hafter
    rcases hafter with ⟨entry, hone, hsettled⟩
    refine .of_owned hrecent ?_ ?_ hle hlt
    · rw [← hsettled.update]
      exact hobserved (some entry) hone
    · change chain.ownsTarget call.targetTick = true
      refine Chain.ownsTarget_iff.2 ⟨?_, ?_, ?_⟩
      · omega
      · omega
      · simp only [streamCount]
        omega

end

/-! ## The run -/

/-- A paced run whose step `start` signs the first commit of a chain of stream `i`,
and a contract that serves it: it executes the calls that the backend accepted in
their target ticks, nobody else calls for the provider at the tier, and it has
room for the first commit. It answers the status queries too. The answer taken
after the steps `done` shows the state after the tick `through done`: no later
than the tick reported then, at most three ticks before the tick of the query,
and never before that of an earlier answer. -/
structure ServedRun (cfg : Config) (a b c : Nat) (pre : List EngineInput) (epoch : Nat)
    (before : List EngineInput) (start : EngineInput) (later : List EngineInput) (i : Fin 3)
    (first : SignedCall) (qpi : Qpi) (provider : Digest) (tier : Fin 10) (birth : Nat)
    (invocations : Nat → List Invocation) (through : List EngineInput → Nat) : Prop where
  paced : PacedRun cfg ((engineMachine cfg).state (Engine.new cfg a b c) pre) epoch
    (before ++ start :: later)
  signs : ∀ input ∈ before ++ start :: later, input.Signs
  starts : Effect.signed first ∈
    runTrace cfg ((engineMachine cfg).state (Engine.new cfg a b c) (pre ++ before)) [start] i
  kind : first.kind = .firstCommit
  collateral : cfg.collateral = 10 ^ tier.val
  k12 : ∀ preimage, qpi.k12 preimage = cfg.commitDigest preimage
  user : qpi.isContractId provider = false
  nonzero : ∀ call, Effect.signed call ∈
      runTrace cfg ((engineMachine cfg).state (Engine.new cfg a b c) (pre ++ before))
        (start :: later) i →
    ∀ preimage, call.preimage = some preimage →
      preimage ≠ Preimage.zero ∧ cfg.commitDigest preimage ≠ Digest.zero
  executed : ∀ call, Effect.signed call ∈
      runTrace cfg ((engineMachine cfg).state (Engine.new cfg a b c) (pre ++ before))
        (start :: later) i →
    AcceptedIn (runTrace cfg (Engine.new cfg a b c) (pre ++ before ++ start :: later) i)
      call.targetTick → call.invocation cfg provider ∈ invocations call.targetTick
  only : ∀ tick, ∀ inv ∈ invocations tick, IsCallOf i provider tier tick inv →
    ∃ call, Effect.signed call ∈
        runTrace cfg ((engineMachine cfg).state (Engine.new cfg a b c) (pre ++ before))
          (start :: later) i ∧
      call.targetTick = tick ∧ inv = call.invocation cfg provider
  birth_le : birth ≤ first.targetTick
  room : ∀ earlier, earlier ++ [first.invocation cfg provider] <+: invocations first.targetTick →
    first.invocation cfg provider ∉ earlier →
      ((invokeAll qpi first.targetTick earlier (stateBefore qpi birth invocations emptyContract
        (first.targetTick - birth))).streams i).length < streamCapacity
  answers : ∀ done input rest tick output, later = done ++ .cycle input :: rest →
    input.tick = .ok tick → input.statusResult = some (.ok output) →
      output = (getProviderStatus provider (stateBefore qpi birth invocations emptyContract
        (through done + 1 - birth))).encode ∧ through done ≤ tick.tick ∧
      ∀ query ∈ ((engineMachine cfg).state (Engine.new cfg a b c)
        (pre ++ before ++ start :: done)).statusQuery, query.requestedTick ≤ through done + 3
  advances : ∀ done step rest, later = done ++ step :: rest → through done ≤ through (done ++ [step])

section

variable {a b c : Nat} {pre : List EngineInput} {epoch : Nat} {before : List EngineInput}
  {start : EngineInput} {later mid rest : List EngineInput} {i : Fin 3} {first : SignedCall}
  {qpi : Qpi} {provider : Digest} {tier : Fin 10} {birth : Nat}
  {invocations : Nat → List Invocation} {through : List EngineInput → Nat} {input : CycleInput}
  {tick : TickInfo}

variable (h : ServedRun cfg a b c pre epoch before start later i first qpi provider tier birth
  invocations through)
include h

/-- As long as nothing has frozen the chain, it stays on course. -/
theorem ServedRun.chainRun (hlater : later = mid ++ rest)
    (hfree : ∀ tail restarting, Effect.froze tail restarting ∉ runTrace cfg
      ((engineMachine cfg).state (Engine.new cfg a b c) (pre ++ before ++ [start])) mid i) :
    ChainRun cfg a b c pre epoch before start mid i first where
  paced := by
    have hpaced := h.paced
    rw [hlater, ← List.cons_append, ← List.append_assoc] at hpaced
    exact hpaced.init
  signs input hmem := by
    apply h.signs
    rw [hlater, ← List.cons_append, ← List.append_assoc]
    exact List.mem_append_left _ hmem
  starts := h.starts
  kind := h.kind
  free := hfree

/-- The whole trace, from the harvest of a cycle on: nothing resets the stream. -/
theorem ServedRun.trace_split (hlater : later = mid ++ .cycle input :: rest)
    (htick : input.tick = .ok tick) :
    let ops := opsBefore cfg a b c pre before i ++ (opsSince cfg a b c pre before (start :: mid) i ++
      [.harvestBroadcasts (input.broadcastResults i)])
    ∃ more, SlotOp.reset ∉ more ∧
      opsBefore cfg a b c pre before i ++ opsSince cfg a b c pre before (start :: later) i =
        ops ++ more := by
  intro ops
  have hsteps : before ++ start :: later = before ++ start :: mid ++ .cycle input :: rest := by
    simp [hlater]
  have hpaced := h.paced
  rw [hsteps, List.append_cons] at hpaced
  have hinEpoch := hpaced.init.init.inEpoch
  rw [← List.append_assoc] at hinEpoch
  have hepochs : ∀ t ∈ reports (.cycle input :: rest), t.epoch = epoch := by
    intro t hmem
    apply h.paced.epochs t
    rw [hsteps, reports_append]
    exact List.mem_append_right _ hmem
  have hepoch := hepochs tick (by simp [reports, EngineInput.report, htick])
  -- the cycle harvests first
  have hlog := (hpaced.init.whole (h.signs (.cycle input) (by rw [hlater]; simp)) i).2
  rw [← List.append_assoc, entryOps_inEpoch hinEpoch htick hepoch] at hlog
  have hunreset := @InEpoch.unreset cfg _ epoch hinEpoch _ hepochs i
  have hsplit : opsSince cfg a b c pre before (start :: later) i =
      opsSince cfg a b c pre before (start :: mid) i ++
        history cfg ((engineMachine cfg).state (Engine.new cfg a b c)
          (pre ++ before ++ start :: mid)) (.cycle input :: rest) i := by
    unfold opsSince
    rw [hlater, ← List.cons_append, history_append, ← Machine.state_append]
  have hfirst := @history_append cfg ((engineMachine cfg).state (Engine.new cfg a b c)
    (pre ++ before ++ start :: mid)) [.cycle input] rest i
  rw [List.singleton_append, history_one, hlog] at hfirst
  rw [hfirst] at hsplit hunreset
  simp only [List.append_assoc] at hsplit hunreset
  exact ⟨_, fun hmem => hunreset (List.mem_append_right _ hmem), by
    rw [hsplit]
    simp [ops]⟩

/-- The chain when a cycle has harvested, and the contract that has executed it
up to the tick the answer shows. -/
theorem ServedRun.harvested (hlater : later = mid ++ .cycle input :: rest)
    (htick : input.tick = .ok tick)
    (hchain : ChainRun cfg a b c pre epoch before start mid i first) :
    let base := opsBefore cfg a b c pre before i
    let ops := opsSince cfg a b c pre before (start :: mid) i ++
      [.harvestBroadcasts (input.broadcastResults i)]
    let slot := (slotMachine cfg).state (slot₀ cfg i) (base ++ ops)
    let calls := currentChain ((slotMachine cfg).trace (slot₀ cfg i) (base ++ ops))
    SoundChain cfg i calls ∧
      ∀ chain, slot.chain = some chain → slot.state.isPlanning = true → ∀ upto ≤ tick.tick,
        upto < chain.lastTarget ∧
          ExecutedThrough cfg qpi i provider tier calls birth invocations upto := by
  intro base ops slot calls
  rcases hchain.punctual with ⟨last, hlast, hpunctual⟩
  rcases h.trace_split hlater htick with ⟨more, hreset, hwhole⟩
  have hsteps : before ++ start :: later = before ++ start :: mid ++ .cycle input :: rest := by
    simp [hlater]
  have hpaced := h.paced
  rw [hsteps, List.append_cons] at hpaced
  have hreport : (EngineInput.cycle input).report = some tick := by
    simp [EngineInput.report, htick]
  have hpace := ((hpaced.init.report hreport).2.2 last hlast).2
  -- the chain at the instant of the harvest, with this cycle's results in
  have hcourse := hpunctual.course.harvest hpace
    (hpaced.init.delivered (before ++ start :: mid) input [] tick rfl htick i)
  have hlook : runTrace cfg (Engine.new cfg a b c) (pre ++ before ++ start :: later) i =
      (slotMachine cfg).trace (slot₀ cfg i) (base ++ ops) ++
        (slotMachine cfg).trace slot more := by
    rw [trace_of_ops, hwhole]
    exact Machine.trace_append ..
  have hsince : runTrace cfg ((engineMachine cfg).state (Engine.new cfg a b c) (pre ++ before))
      (start :: later) i = (slotMachine cfg).trace ((slotMachine cfg).state (slot₀ cfg i) base) ops ++
        (slotMachine cfg).trace slot more := by
    have hops := hwhole
    simp only [List.append_assoc, List.append_cancel_left_eq] at hops
    rw [trace_since, hops, ← List.append_assoc, Machine.trace_append, ← Machine.state_append]
  have hsigned : ∀ call, call ∈ calls ↔ Effect.signed call ∈
      (slotMachine cfg).trace ((slotMachine cfg).state (slot₀ cfg i) base) ops := by
    intro call
    show call ∈ currentChain _ ↔ _
    rw [hcourse.signed, mem_signedCalls]
  have hearlier : ∀ call ∈ calls, Effect.signed call ∈ runTrace cfg
      ((engineMachine cfg).state (Engine.new cfg a b c) (pre ++ before)) (start :: later) i := by
    intro call hmem
    rw [hsince]
    exact List.mem_append_left _ ((hsigned call).1 hmem)
  have hsound : SoundChain cfg i calls :=
    soundChain i _ fun call hmem => h.nonzero call (hearlier call hmem)
  refine ⟨hsound, ?_⟩
  intro chain hsome hplanning upto hupto
  -- a chain that is still planned reaches past the reported tick
  have hlastTarget : upto < chain.lastTarget := by
    have hstage := hcourse.stage
    generalize (!drainEntered cfg ((engineMachine cfg).state (Engine.new cfg a b c) (pre ++ before))
      (start :: mid)) = planned at hstage
    cases hstage with
    | planning _ hahead =>
      have hlt := hahead chain hsome
      omega
    | draining hstate =>
      rw [not_draining_of_planning hplanning] at hstate
      cases hstate
    | drained hstate =>
      rw [hstate] at hplanning
      cases hplanning
  have hfirstMem : first ∈ calls := by
    have hstarted := hchain.starts
    rw [hsigned, Machine.trace_append, ← trace_since, ← List.singleton_append, runTrace_append]
    exact List.mem_append_left _ (List.mem_append_left _ hstarted)
  have hhead : calls.head? = some first := head_of_firstCommit hfirstMem h.kind
  refine ⟨hlastTarget, h.collateral, h.k12, h.user, ?_, ?_, ?_, ?_⟩
  · -- what came due was accepted, and so was executed
    intro call hmem hdue
    apply h.executed call (hearlier call hmem)
    rw [hlook, acceptedIn_append (trace_quiet hreset)]
    exact .inl (hcourse.accepted_by hmem (hdue.trans hupto))
  · -- what is signed later lies beyond the tail
    intro t ht inv hinv hcallOf
    rcases h.only t inv hinv hcallOf with ⟨call, hcall, htarget, rfl⟩
    refine ⟨call, ?_, htarget, rfl⟩
    rw [hsince] at hcall
    rcases List.mem_append.1 hcall with hnow | hnext
    · exact (hsigned call).2 hnow
    · have hlt := last_lt_of_signed_later hplanning hsome hreset hnext
      omega
  · intro call hmem
    rcases List.head?_eq_some_iff.1 hhead with ⟨others, hothers⟩
    have hbirth := h.birth_le
    rw [hothers] at hmem
    rcases List.mem_cons.1 hmem with rfl | hother
    · exact hbirth
    · have hsplit : calls = [] ++ first :: others := hothers
      have hspaced := hsound.target_le hsplit hother
      omega
  · intro first' hfirst'
    cases hhead.symm.trans hfirst'
    exact h.room

/-- An observation that a cycle of the run takes is honest. -/
theorem ServedRun.honest (hlater : later = mid ++ .cycle input :: rest)
    (htick : input.tick = .ok tick)
    (hchain : ChainRun cfg a b c pre epoch before start mid i first)
    {observation : StatusObservation}
    (hobserved : observationOf tick input ((engineMachine cfg).state (Engine.new cfg a b c)
      (pre ++ before ++ start :: mid)) = some observation) :
    let slot := (slotMachine cfg).state (slot₀ cfg i) (opsBefore cfg a b c pre before i ++
      (opsSince cfg a b c pre before (start :: mid) i ++
        [.harvestBroadcasts (input.broadcastResults i)]))
    ∀ chain, slot.chain = some chain → slot.state.isPlanning = true →
      Honest (sightingOf slot.key slot.state chain observation) (through mid) := by
  intro slot chain hsome hplanning
  -- the answer that the observation was decoded from
  unfold observationOf at hobserved
  split at hobserved
  · cases hobserved
  · unfold harvestedObservation at hobserved
    split at hobserved
    · rename_i query output hquery hresult
      split at hobserved
      · rename_i status hdecode
        cases hobserved
        rcases h.answers mid input rest tick output hlater htick hresult with
          ⟨houtput, hupto, hrecent⟩
        rcases h.harvested hlater htick hchain with ⟨hsound, hexecuted⟩
        rcases hexecuted chain hsome hplanning _ hupto with ⟨hlast, hthrough⟩
        rw [houtput] at hdecode
        exact honest_of_executed hplanning hsome hsound hthrough hlast
          (hupto.trans tick.tick_le) (hrecent query hquery) hdecode
      · cases hobserved
    · cases hobserved

/-- What a step reads freezes nothing, and keeps the reports honest. -/
theorem ServedRun.entry {step : EngineInput} (hlater : later = mid ++ step :: rest)
    (hchain : ChainRun cfg a b c pre epoch before start mid i first)
    (hhonest : HonestUpTo (sightings cfg i (opsBefore cfg a b c pre before i ++
      opsSince cfg a b c pre before (start :: mid) i)) (through mid)) :
    let e := (engineMachine cfg).state (Engine.new cfg a b c) (pre ++ before ++ start :: mid)
    (∀ tail restarting, Effect.froze tail restarting ∉
      (slotMachine cfg).trace (e.slots i) (entryOps e step i)) ∧
    HonestUpTo (sightings cfg i (opsBefore cfg a b c pre before i ++
      (opsSince cfg a b c pre before (start :: mid) i ++ entryOps e step i))) (through mid) := by
  intro e
  by_cases hobserves : ∃ op ∈ entryOps e step i, ∃ observation, op = .applyStatus observation
  · -- the step is a cycle that takes an answer
    rcases hobserves with ⟨op, hop, observation, rfl⟩
    cases hstep : step with
    | shutdown env =>
      rw [hstep] at hop
      cases hop
    | cycle input =>
      rw [hstep] at hop hlater
      cases htick : input.tick with
      | error err =>
        simp [entryOps, htick] at hop
      | ok tick =>
        have hinEpoch := hchain.paced.inEpoch
        rw [← List.append_assoc] at hinEpoch
        have hsteps : before ++ start :: later =
            before ++ start :: mid ++ .cycle input :: rest := by
          simp [hlater]
        have hepoch : tick.epoch = epoch := by
          apply h.paced.epochs tick
          rw [hsteps, reports_append]
          exact List.mem_append_right _ (by simp [reports, EngineInput.report, htick])
        rw [entryOps_inEpoch hinEpoch htick hepoch] at hop ⊢
        -- which observation it is
        rcases List.mem_append.1 hop with hharvest | hstatus
        · cases List.mem_singleton.1 hharvest
        · unfold statusOps at hstatus
          split at hstatus
          · rename_i taken hobserved
            split at hstatus
            · rename_i hsame
              cases List.mem_singleton.1 hstatus
              have hstatusOps : statusOps (observationOf tick input e) tick.epoch =
                  [.applyStatus observation] := by
                rw [hobserved]
                exact if_pos hsame
              have hbefore := @HonestUpTo.quiet cfg i _ [.harvestBroadcasts (input.broadcastResults i)]
                _ hhonest (fun op hop observation heq => by
                  rw [List.mem_singleton.1 hop] at heq
                  cases heq)
              rw [List.append_assoc] at hbefore
              have hnew := h.honest hlater htick hchain hobserved
              have hslot : e.slots i = (slotMachine cfg).state (slot₀ cfg i)
                  (opsBefore cfg a b c pre before i ++
                    opsSince cfg a b c pre before (start :: mid) i) :=
                state_of_ops cfg a b c pre before (start :: mid) i
              rw [hstatusOps]
              constructor
              · intro tail restarting hmem
                rw [Machine.trace_snoc, hslot, ← Machine.state_append, List.append_assoc] at hmem
                rcases List.mem_append.1 hmem with hfirst | hlast
                · refine unfrozen_of_quiet (fun op hop observation heq => ?_) _ tail restarting hfirst
                  rw [List.mem_singleton.1 hop] at heq
                  cases heq
                · exact applyStatus_unfrozen observation (fun chain hsome hplanning =>
                    (hbefore.snoc (hnew chain hsome hplanning)).reports) tail restarting hlast
              · rw [← List.append_assoc (opsSince cfg a b c pre before (start :: mid) i),
                  ← List.append_assoc, sightings, Machine.track_snoc]
                unfold recordSighting
                split
                · rename_i hplanning
                  split
                  · rename_i hop hsome
                    cases hop
                    exact hbefore.snoc (hnew _ hsome hplanning)
                  · exact hbefore
                · exact .nil _
            · cases hstatus
          · cases hstatus
  · -- nothing is observed
    have hquiet : ∀ op ∈ entryOps e step i, ∀ observation, op ≠ .applyStatus observation :=
      fun op hop observation heq => hobserves ⟨op, hop, observation, heq⟩
    refine ⟨unfrozen_of_quiet hquiet _, ?_⟩
    rw [← List.append_assoc]
    exact hhonest.quiet hquiet

/-- Along the run nothing freezes the chain, and every answer is honest. -/
theorem ServedRun.kept (hlater : later = mid ++ rest) :
    ChainRun cfg a b c pre epoch before start mid i first ∧
      HonestUpTo (sightings cfg i (opsBefore cfg a b c pre before i ++
        opsSince cfg a b c pre before (start :: mid) i)) (through mid) := by
  induction mid using List.reverseRecOn generalizing rest with
  | nil =>
    have hchain := h.chainRun hlater fun tail restarting hmem => by
      cases hmem
    refine ⟨hchain, ?_⟩
    -- the slot was not planning before its first commit
    rcases hchain.started with ⟨cycleInput, tick, rfl, htick, hplan, hsigned⟩
    have hlog := (hchain.paced.whole (h.signs _ (by simp)) i).2
    have hops : opsSince cfg a b c pre before [.cycle cycleInput] i =
        entryOps ((engineMachine cfg).state (Engine.new cfg a b c) (pre ++ before))
          (.cycle cycleInput) i ++ [.startIfReady (cycleInput.env i) tick.tick] ++
          (.extendChain (cycleInput.env i) tick.tick :: deliveryOps tick) := by
      unfold opsSince
      rw [history_one, hlog]
      simp [planningOps, deliveringOps, htick, hplan, planOps]
    rw [hops, ← List.append_assoc]
    apply HonestUpTo.quiet
    · rw [← List.append_assoc, sightings, Machine.track_snoc]
      unfold recordSighting
      rw [if_neg]
      · exact .nil _
      · have hslot := slots_of_log cfg (Engine.new cfg a b c) (pre ++ before) i
        unfold entrySlot at hsigned
        rw [hslot] at hsigned
        change Effect.signed first ∈ (startIfReady cfg (cycleInput.env i) tick.tick
          ((slotMachine cfg).state ((slotMachine cfg).state (slot₀ cfg i)
            (opsBefore cfg a b c pre before i)) _)).effects at hsigned
        rw [← Machine.state_append] at hsigned
        rcases startIfReady_ready hsigned with ⟨after, hstate⟩ | ⟨tail, after, hstate⟩ <;>
        · rw [hstate]
          exact Bool.false_ne_true
    · intro op hop observation heq
      rw [heq] at hop
      simp [deliveryOps] at hop
  | append_singleton mid step ih =>
    rw [List.append_assoc, List.singleton_append] at hlater
    rcases ih hlater with ⟨hchain, hhonest⟩
    rcases h.entry hlater hchain hhonest with ⟨hfree, hread⟩
    -- the rest of the step observes nothing
    have hpaced := h.paced
    rw [hlater, show before ++ start :: (mid ++ step :: rest) =
      before ++ start :: mid ++ [step] ++ rest by simp] at hpaced
    have hlog := (hpaced.init.whole (h.signs step (by rw [hlater]; simp)) i).2
    rw [← List.append_assoc] at hlog
    have hquiet : ∀ op ∈ planningOps cfg ((engineMachine cfg).state (Engine.new cfg a b c)
        (pre ++ before ++ start :: mid)) step i ++ deliveringOps step,
        ∀ observation, op ≠ .applyStatus observation := by
      intro op hop observation heq
      rw [heq] at hop
      rcases List.mem_append.1 hop with hplan | hdeliver
      · exact planningOps_unobserved hplan
      · exact deliveringOps_unobserved hdeliver
    have hops : opsSince cfg a b c pre before (start :: (mid ++ [step])) i =
        opsSince cfg a b c pre before (start :: mid) i ++
          (entryOps ((engineMachine cfg).state (Engine.new cfg a b c)
            (pre ++ before ++ start :: mid)) step i ++
          (planningOps cfg ((engineMachine cfg).state (Engine.new cfg a b c)
            (pre ++ before ++ start :: mid)) step i ++ deliveringOps step)) := by
      unfold opsSince
      rw [← List.cons_append, history_snoc, ← Machine.state_append, hlog, List.append_assoc]
    constructor
    · refine h.chainRun (show later = mid ++ [step] ++ rest by rw [hlater]; simp) ?_
      intro tail restarting hmem
      rw [runTrace_snoc] at hmem
      rcases List.mem_append.1 hmem with hold | hnew
      · exact hchain.free tail restarting hold
      · have hstate : (engineMachine cfg).state (Engine.new cfg a b c)
            (pre ++ before ++ [start] ++ mid) =
              (engineMachine cfg).state (Engine.new cfg a b c) (pre ++ before ++ start :: mid) := by
          rw [List.append_assoc (pre ++ before), List.singleton_append]
        rw [← Machine.state_append, hstate, hlog, List.append_assoc (entryOps _ _ _),
          Machine.trace_append] at hnew
        rcases List.mem_append.1 hnew with hentry | hrest
        · exact hfree tail restarting hentry
        · exact unfrozen_of_quiet hquiet _ tail restarting hrest
    · rw [hops, ← List.append_assoc (opsSince cfg a b c pre before (start :: mid) i),
        ← List.append_assoc]
      exact (hread.quiet hquiet).mono (h.advances mid step rest hlater)

end

/-- A client in a paced run never loses its chain to what a contract reports that
executes what the backend accepted: nothing freezes the chain, and from its first
commit to the last reported tick no commitment of the provider is missed in the
stream. -/
theorem served_client_not_frozen (cfg : Config) (a b c : Nat) (pre : List EngineInput) (epoch : Nat)
    (before : List EngineInput) (start : EngineInput) (later : List EngineInput) (i : Fin 3)
    (first : SignedCall) (qpi : Qpi) (provider : Digest) (tier : Fin 10) (birth : Nat)
    (invocations : Nat → List Invocation) (through : List EngineInput → Nat)
    (h : ServedRun cfg a b c pre epoch before start later i first qpi provider tier birth
      invocations through) :
    (∀ tail restarting, Effect.froze tail restarting ∉ runTrace cfg
      ((engineMachine cfg).state (Engine.new cfg a b c) (pre ++ before ++ [start])) later i) ∧
    ∀ n, streamOf (birth + n) = i → first.targetTick < birth + n →
      (∃ tick ∈ reports (before ++ start :: later), birth + n ≤ tick.tick) →
        ¬ Misses qpi birth invocations n provider tier := by
  have hchain := (h.kept (List.append_nil later).symm).1
  refine ⟨hchain.free, ?_⟩
  intro n hstream hfirst hseen
  apply hchain.not_misses _ hstream hfirst hseen
  refine ⟨h.collateral, h.k12, h.user, ?_, ?_, ?_⟩
  · intro call hmem preimage hpreimage
    exact (h.nonzero call (hchain.signed_iff.1 hmem) preimage hpreimage).1
  · intro call hmem haccepted
    exact h.executed call (hchain.signed_iff.1 hmem) haccepted
  · intro tick _ inv hinv hcallOf
    rcases h.only tick inv hinv hcallOf with ⟨call, hsigned, htarget, hinvEq⟩
    exact ⟨call, hchain.signed_iff.2 hsigned, htarget, hinvEq⟩

/-! ## A closed run -/

/-- A cycle that finds every broadcast task finished with success, and the
answer to its status query if there is one. Each comes late enough to query again. -/
def servedCycle (status : Option Bytes) (tick : Fin 256) : EngineInput :=
  .cycle
    { tick := .ok (sampleTick 1 tick)
      now := { timestamp := 0 }
      statusResult := status.map .ok
      broadcastResults := fun _ _ => some .ok
      cancelled := false
      env := fun _ => sampleEnv
      tickCheckResult := none
      clock :=
        { resetTickCheckAt := 0, resetStatusAt := 0, resetMonitorAt := 0
          statusAt := 1000 * tick.val, statusStartedAt := 1000 * tick.val
          expireAt := 0, harvestAt := 0, ensureExpireAt := 0, ensureAt := 0 } }

theorem servedCycle_accepts {status : Option Bytes} {tick : Fin 256} {input : CycleInput}
    (h : servedCycle status tick = .cycle input) (i : Fin 3) (target : Nat) :
    input.broadcastResults i target = some .ok := by
  cases h
  rfl

/-- The cycle at tick 1, in which the query of tick 0 finds no slot reported. -/
def servedStart : EngineInput := servedCycle (some emptyStatus) 1

/-- Cycles that are answered the state after the tick reported before. -/
def servedSteps (answer : Nat → Option Bytes) : List EngineInput :=
  [servedCycle (answer 1) 4, servedCycle (answer 4) 5, servedCycle (answer 5) 8,
    servedCycle (answer 8) 10, servedCycle (answer 10) 13, servedCycle (answer 13) 14]

/-- The chain of stream 1. It does not depend on the answers. -/
def servedChain : List SignedCall :=
  currentChain (runTrace sampleConfig (Engine.new sampleConfig 0 0 0)
    (steadyRun [0] ++ servedStart :: servedSteps fun _ => none) 1)

/-- What the contract answers after a tick in which the calls of the chain are executed. -/
def servedAnswer (tick : Nat) : Option Bytes :=
  some (getProviderStatus sampleProvider
    (stateBefore sampleQpi 0 (doubledCalls servedChain) emptyContract (tick + 1))).encode

/-- The last tick reported by then. -/
def servedThrough (done : List EngineInput) : Nat := ((reports done).map TickInfo.tick).getLast?.getD 1

/-- The answer of a step, against the state of the contract and the query. -/
def answersAt (steps : List EngineInput) (k : Nat) : Bool :=
  match steps[k]? with
  | some (.cycle input) =>
    match input.tick, input.statusResult with
    | .ok tick, some (.ok output) =>
      output = (getProviderStatus sampleProvider (stateBefore sampleQpi 0 (doubledCalls servedChain)
        emptyContract (servedThrough (steps.take k) + 1 - 0))).encode ∧
      servedThrough (steps.take k) ≤ tick.tick ∧
      ((engineMachine sampleConfig).state (Engine.new sampleConfig 0 0 0) (steadyRun [0] ++ [] ++
        servedStart :: steps.take k)).statusQuery.all fun query =>
          query.requestedTick ≤ servedThrough (steps.take k) + 3
    | _, _ => true
  | _ => true

theorem servedSteps_run : ServedRun sampleConfig 0 0 0 (steadyRun [0]) 1 [] servedStart
    (servedSteps servedAnswer) 1 retriedCommit sampleQpi sampleProvider 1 0
    (doubledCalls servedChain) servedThrough := by
  have hsigned : signedCalls (runTrace sampleConfig ((engineMachine sampleConfig).state
      (Engine.new sampleConfig 0 0 0) (steadyRun [0] ++ [])) (servedStart :: servedSteps servedAnswer)
        1) = servedChain := by
    decide +kernel
  have hmem : ∀ call, Effect.signed call ∈ runTrace sampleConfig ((engineMachine sampleConfig).state
      (Engine.new sampleConfig 0 0 0) (steadyRun [0] ++ [])) (servedStart :: servedSteps servedAnswer)
        1 ↔ call ∈ servedChain := by
    intro call
    rw [← hsigned, mem_signedCalls]
  constructor
  · -- the run is paced
    constructor
    · decide +kernel
    · exact List.all_iff_forall_prop.1 (by decide +kernel)
    · decide +kernel
    · have hfresh : ∀ i, (((engineMachine sampleConfig).state (Engine.new sampleConfig 0 0 0)
          (steadyRun [0])).slots i).restartAt = 0 ∧ (((engineMachine sampleConfig).state
            (Engine.new sampleConfig 0 0 0) (steadyRun [0])).slots i).chain = none := by
        decide +kernel
      intro i
      constructor
      · rw [(hfresh i).1]
        decide
      · intro chain hchain
        rw [(hfresh i).2] at hchain
        cases hchain
    · constructor
      · exact List.all_iff_forall_prop.1 (by decide +kernel)
      · have hnone : ∀ i, ((runTrace sampleConfig ((engineMachine sampleConfig).state
            (Engine.new sampleConfig 0 0 0) (steadyRun [0]))
            ([] ++ servedStart :: servedSteps servedAnswer) i).all
              Effect.unfrozen) = true := by
          decide +kernel
        intro i tail restarting hfroze
        exact absurd hfroze (froze_notMem (hnone i) tail restarting)
    · intro done input rest tick hsplit _ i target _
      have hone : EngineInput.cycle input ∈ servedStart :: servedSteps servedAnswer := by
        rw [← List.nil_append (_ :: servedSteps servedAnswer), hsplit]
        simp
      simp only [servedStart, servedSteps, List.mem_cons, List.not_mem_nil, or_false] at hone
      rcases hone with h | h | h | h | h | h | h
      all_goals exact servedCycle_accepts h.symm i target
  · intro input hone
    simp only [servedStart, servedSteps, List.nil_append, List.mem_cons, List.not_mem_nil,
      or_false] at hone
    rcases hone with rfl | rfl | rfl | rfl | rfl | rfl | rfl <;>
      exact fun _ _ => ⟨_, rfl⟩
  · decide +kernel
  · rfl
  · rfl
  · intro preimage
    rfl
  · rfl
  · have hall : servedChain.all (fun call => call.preimage.all fun preimage =>
        preimage ≠ Preimage.zero ∧ sampleConfig.commitDigest preimage ≠ Digest.zero) = true := by
      decide +kernel
    intro call hcall preimage hpreimage
    have hone := List.all_eq_true.1 hall call ((hmem call).1 hcall)
    rw [hpreimage, Option.all_some, decide_eq_true_iff] at hone
    exact hone
  · intro call hcall _
    exact (executes_doubledCalls servedChain).executed call ((hmem call).1 hcall)
  · intro tick inv hinv hcallOf
    rcases (executes_doubledCalls servedChain).only tick inv hinv hcallOf with
      ⟨call, hcall, htarget, hinvEq⟩
    exact ⟨call, (hmem call).2 hcall, htarget, hinvEq⟩
  · exact Nat.zero_le _
  · have hroom : ∀ l ∈ (doubledCalls servedChain retriedCommit.targetTick).inits,
        ((invokeAll sampleQpi retriedCommit.targetTick l.dropLast (stateBefore sampleQpi 0
          (doubledCalls servedChain) emptyContract (retriedCommit.targetTick - 0))).streams 1).length <
            streamCapacity := by
      decide +kernel
    intro earlier hearlier _
    have hlength := hroom _ ((List.mem_inits _ _).2 hearlier)
    rwa [List.dropLast_concat] at hlength
  · have hall : ∀ k < 6, answersAt (servedSteps servedAnswer) k = true := by
      decide +kernel
    intro done input rest tick output hsplit htick hresult
    have hlength : done.length < 6 := by
      have hsum := congrArg List.length hsplit
      simp only [servedSteps, List.length_cons, List.length_nil, List.length_append] at hsum
      omega
    have hone := hall done.length hlength
    unfold answersAt at hone
    rw [hsplit, List.take_left, List.getElem?_append_right le_rfl, Nat.sub_self] at hone
    simp only [List.getElem?_cons_zero, htick, hresult, decide_eq_true_eq] at hone
    rcases hone with ⟨houtput, hupto, hqueries⟩
    refine ⟨houtput, hupto, ?_⟩
    intro query hquery
    rw [Option.mem_def.1 hquery] at hqueries
    simpa using hqueries
  · have hall : ∀ k < 6, servedThrough ((servedSteps servedAnswer).take k) ≤
        servedThrough ((servedSteps servedAnswer).take (k + 1)) := by
      decide +kernel
    intro done step rest hsplit
    have hlength : done.length < 6 := by
      have hsum := congrArg List.length hsplit
      simp only [servedSteps, List.length_cons, List.length_nil, List.length_append] at hsum
      omega
    have hone := hall done.length hlength
    rw [hsplit, List.take_left, List.append_cons, List.take_left' (by simp)] at hone
    exact hone

/-- The contract's answers confirm the chain up to tick 13, and the provider is
found at that tick. -/
theorem served_client_not_frozen_answered :
    (∀ tail restarting, Effect.froze tail restarting ∉ runTrace sampleConfig
      ((engineMachine sampleConfig).state (Engine.new sampleConfig 0 0 0)
        (steadyRun [0] ++ [] ++ [servedStart])) (servedSteps servedAnswer) 1) ∧
    ¬ Misses sampleQpi 0 (doubledCalls servedChain) 13 sampleProvider 1 ∧
    ((((engineMachine sampleConfig).state (Engine.new sampleConfig 0 0 0)
      (steadyRun [0] ++ servedStart :: servedSteps servedAnswer)).slots 1).chain.bind
        Chain.confirmedThrough) = some 13 := by
  have hserved := served_client_not_frozen sampleConfig 0 0 0 (steadyRun [0]) 1 [] servedStart
    (servedSteps servedAnswer) 1 retriedCommit sampleQpi sampleProvider 1 0
    (doubledCalls servedChain) servedThrough servedSteps_run
  refine ⟨hserved.1, ?_, by decide +kernel⟩
  exact hserved.2 13 rfl (by decide +kernel) (by decide +kernel)

end RandomClient
