import RandomClient.Commitments
import RandomClient.Punctual

/-!
# A punctual client keeps its collateral

The run of a client and the run of the contract, put together. As long as the
reported ticks rise by three at most and the broadcasts succeed, the client has
signed and delivered the answer to each of its commitments when the commitment
is due. A contract that executes what was delivered never finds the provider
missing (`punctual_client_keeps_collateral`).
-/

namespace RandomClient

open Contract

variable {cfg : Config}

/-! ## The client -/

/-- A terminal reveal commits to nothing. -/
theorem SlotStep.commit_of_terminal {slot slot' : ManagedSlot} {call : SignedCall}
    (h : SlotStep cfg slot [.signed call] slot') (hkind : call.kind = .terminalReveal) :
    call.input.commit = Digest.zero := by
  have hmem : Effect.signed call ∈ [Effect.signed call] := List.mem_singleton_self _
  generalize hu : [Effect.signed call] = u at h hmem
  cases h with
  | note hnote => cases hnote _ hmem
  | start _ hcall =>
    cases hu
    rw [hcall.kind] at hkind
    cases hkind
  | extend _ _ hcall =>
    cases hu
    rw [hcall.kind] at hkind
    cases hkind
  | close _ _ hcall =>
    cases hu
    exact hcall.commit
  | harvest =>
    rcases mem_harvestEffects hmem with ⟨_, -, _, _, he⟩
    cases he
  | dispatch =>
    rcases mem_dispatchEffects hmem with ⟨_, -, _, -, he | he⟩ <;> cases he
  | _ => simp at hmem

/-- The call that answers the commitment of `call` is in the chain as well, and was accepted. -/
def IsAnswered (cfg : Config) (t : List Effect) (call : SignedCall) : Prop :=
  ∃ next ∈ currentChain t, next.targetTick = call.targetTick + streamCount ∧
    call.preimage = some next.input.reveal ∧
    call.input.commit = cfg.commitDigest next.input.reveal ∧ AcceptedIn t next.targetTick

section

variable {i : Fin 3} {base ops : List SlotOp} {ahead : Nat} {planned : Bool} {tick : Nat}
  {sent : List Nat}

theorem commit_of_terminal {signed : SignedCall}
    (hmem : signed ∈ periodCalls ((slotMachine cfg).trace (slot₀ cfg i) ops))
    (hkind : signed.kind = .terminalReveal) : signed.input.commit = Digest.zero := by
  rcases List.append_of_mem (signed_mem_of_periodCalls hmem) with ⟨pre, post, hsplit⟩
  rcases (slotMachine_run i ops : SlotRun cfg (slot₀ cfg i) _ _).split hsplit with
    ⟨t₁, m, u₁, u₂, m', -, hstep, -⟩
  rcases hstep.eq_of_signed with ⟨rfl, rfl, -⟩
  exact SlotStep.commit_of_terminal hstep hkind

/-- A call on time that came due was accepted. -/
theorem OnCourse.accepted_due
    (h : OnCourse cfg i base (PlannedCall.OnTime tick sent) ahead planned ops) {signed : SignedCall}
    (hmem : signed ∈ currentChain ((slotMachine cfg).trace (slot₀ cfg i) (base ++ ops)))
    (hdue : signed.targetTick ≤ tick) :
    AcceptedIn ((slotMachine cfg).trace (slot₀ cfg i) (base ++ ops)) signed.targetTick := by
  cases hchain : ((slotMachine cfg).state (slot₀ cfg i) (base ++ ops)).chain with
  | none => exact h.closed hchain signed hmem
  | some chain =>
    rcases accepted_or_queued i (base ++ ops) hchain hmem with
      haccepted | ⟨call, hqueued, hfirst, htarget, haccepted⟩
    · exact haccepted
    · cases h.own chain hchain call hqueued hfirst with
      | accepted hstate => exact haccepted hstate
      | sent _ _ _ hahead => omega
      | waiting _ _ hahead => omega

/-- A chain on course ends with its terminal reveal, or past the ticks it has to cover. -/
theorem OnCourse.last_of_chain
    (h : OnCourse cfg i base (PlannedCall.OnTime tick sent) ahead planned ops) {signed : SignedCall}
    (hlast : (currentChain ((slotMachine cfg).trace (slot₀ cfg i) (base ++ ops))).getLast? =
      some signed) :
    signed.input.commit = Digest.zero ∨ planned = true ∧ ahead < signed.targetTick := by
  have hinv := (slotMachine_run i (base ++ ops) : SlotRun cfg (slot₀ cfg i) _ _).slotInv
  rcases hinv.planned with ⟨p, hrepresents, hplan⟩
  cases planned with
  | true =>
    right
    cases h.stage with
    | planning hplanning hahead =>
      rcases hrepresents.of_planning hplanning with ⟨chain, hchain, -, rfl⟩
      rcases PlanInv.last_of_chainAt hplan.shape.1 hplan.shape.2 with ⟨y, hy, htarget, -⟩
      rw [hplan.shape.2, hlast] at hy
      rw [Option.some.inj hy, htarget]
      exact ⟨rfl, hahead chain hchain⟩
  | false =>
    left
    rcases h.terminal rfl with ⟨terminal, hmem, hkind, -⟩
    have hperiod := hplan.suffix.subset hmem
    -- the terminal reveal is the last call of its epoch
    rcases hplan.suffix with ⟨earlier, hearlier⟩
    rcases List.getLast?_eq_some_iff.1 hlast with ⟨front, hfront⟩
    have hlast' := hplan.terminal_last hperiod hkind
    rw [← hearlier, hfront, ← List.append_assoc, List.getLast?_concat, Option.some.injEq] at hlast'
    rw [hlast']
    exact commit_of_terminal hperiod hkind

/-- A call of the chain that commits to something, and is not beyond the ticks the
chain has to cover, is followed by the call that answers it. -/
theorem OnCourse.next (h : OnCourse cfg i base (PlannedCall.OnTime tick sent) ahead planned ops)
    {call : SignedCall}
    (hmem : call ∈ currentChain ((slotMachine cfg).trace (slot₀ cfg i) (base ++ ops)))
    (hcommit : call.input.commit ≠ Digest.zero)
    (hcovered : planned = true → call.targetTick ≤ ahead) :
    ∃ next ∈ currentChain ((slotMachine cfg).trace (slot₀ cfg i) (base ++ ops)),
      next.targetTick = call.targetTick + streamCount ∧ call.preimage = some next.input.reveal ∧
        call.input.commit = cfg.commitDigest next.input.reveal := by
  rcases List.append_of_mem hmem with ⟨front, back, hsplit⟩
  cases back with
  | nil =>
    -- the last call closes the chain, or is not covered yet
    rcases h.last_of_chain (by rw [hsplit, List.getLast?_concat]) with hzero | ⟨hplanned, hlater⟩
    · exact absurd hzero hcommit
    · have hle := hcovered hplanned
      omega
  | cons next back =>
    have hinv := (slotMachine_run i (base ++ ops) : SlotRun cfg (slot₀ cfg i) _ _).slotInv
    rcases hinv.planned with ⟨p, -, hplan⟩
    have hlinked := hplan.linked
    have hnext : next ∈ currentChain ((slotMachine cfg).trace (slot₀ cfg i) (base ++ ops)) := by
      rw [hsplit]
      simp
    have htarget : next.targetTick = call.targetTick + streamCount := by
      rw [IsChainOf, hsplit, List.map_append, List.map_cons, List.map_cons] at hlinked
      exact hlinked.next.target
    rcases hplan.linked.linked hsplit with ⟨hpreimage, hdigest⟩
    exact ⟨next, hnext, htarget, hpreimage, hdigest⟩

/-- Each commitment that came due was answered by the next call of the chain. -/
theorem OnCourse.answer (h : OnCourse cfg i base (PlannedCall.OnTime tick sent) ahead planned ops)
    (hahead : tick ≤ ahead) {call : SignedCall}
    (hmem : call ∈ currentChain ((slotMachine cfg).trace (slot₀ cfg i) (base ++ ops)))
    (hcommit : call.input.commit ≠ Digest.zero) (hdue : call.targetTick + streamCount ≤ tick) :
    IsAnswered cfg ((slotMachine cfg).trace (slot₀ cfg i) (base ++ ops)) call := by
  rcases h.next hmem hcommit (fun _ => by omega) with ⟨next, hnext, htarget, hpreimage, hdigest⟩
  exact ⟨next, hnext, htarget, hpreimage, hdigest, h.accepted_due hnext (by omega)⟩

theorem streamOf_of_chain {signed : SignedCall}
    (hmem : signed ∈ currentChain ((slotMachine cfg).trace (slot₀ cfg i) ops)) :
    streamOf signed.targetTick = i := by
  have hrun := (slotMachine_run i ops : SlotRun cfg (slot₀ cfg i) _ _)
  rcases hrun.slotInv.planned with ⟨p, -, hplan⟩
  have hmod := hplan.target_mod (hplan.suffix.subset hmem)
  rw [SlotRun.key hrun] at hmod
  exact Fin.ext hmod

end

/-! ## The contract -/

section

variable {qpi : Qpi} {tick : Nat} {s s' : StateData} {calls : List AcceptedCall}

theorem acceptedCalls_append (front back : List Invocation) :
    acceptedCalls qpi tick (front ++ back) s =
      acceptedCalls qpi tick front s ++ acceptedCalls qpi tick back (invokeAll qpi tick front s) := by
  induction front generalizing s with
  | nil => rfl
  | cons inv rest ih =>
    rw [List.cons_append, acceptedCalls, acceptedCalls, ih, List.append_assoc]
    rfl

variable {provider : Digest} {tier : Fin 10} {call : SignedCall} {p : Provider}
  (hcollateral : cfg.collateral = 10 ^ tier.val) (huser : qpi.isContractId provider = false)
include hcollateral huser

/-- When a call that answers a due entry has been executed, a call of its provider
at the tier has been accepted. -/
theorem Contract.Round.answered (h : Round qpi call.targetTick s calls s') (hrest : s.AtRest)
    (hp : p ∈ s.streams (streamOf call.targetTick)) (hprovider : p.provider = provider)
    (htier : p.collateralTier = tier) (hreveal : call.input.reveal ≠ Preimage.zero)
    (hk12 : qpi.k12 call.input.reveal = p.commit) :
    ∃ c ∈ calls ++ (acceptedCall qpi call.targetTick (call.invocation cfg provider) s').toList,
      c.Of p := by
  subst hprovider htier
  have hidle := hrest.idle _ p hp
  rcases h.kept p hp with hkept | ⟨c, hc, hof⟩
  · have hmem : p ∈ s'.enrolment (streamOf call.targetTick) p.provider p.collateralTier :=
      List.mem_filter.2 ⟨hkept, isOwn_iff.2 ⟨rfl, rfl⟩⟩
    have hone : s'.enrolment (streamOf call.targetTick) p.provider p.collateralTier = [p] := by
      have hlength := h.unique p.provider p.collateralTier
      rcases List.length_eq_one_iff.1 (le_antisymm hlength (List.length_pos_of_mem hmem)) with ⟨q, hq⟩
      rw [hq, List.mem_singleton] at hmem
      rw [hq, hmem]
    have hverifies : p.verifies qpi call.input.reveal = true := by
      unfold Provider.verifies
      exact decide_eq_true ⟨hidle.reveal, hk12, hidle.flag⟩
    rcases invoke_ready hcollateral huser (.inr ⟨hreveal, p, hone, hverifies⟩)
      (fun hzero => absurd hzero hreveal) with ⟨p', hone', haccepted⟩
    -- the entry has called now, so the entries have changed
    have hchanged : (Contract.invoke qpi call.targetTick (call.invocation cfg p.provider) s').1.streams
        (streamOf call.targetTick) ≠ s'.streams (streamOf call.targetTick) := by
      intro hsame
      unfold StateData.enrolment at hone hone'
      rw [hsame, hone] at hone'
      have hflag := haccepted.called.flag
      rw [← List.singleton_inj.1 hone', hidle.flag] at hflag
      cases hflag
    refine ⟨{ provider := p.provider, collateralTier := p.collateralTier, input := call.input },
      List.mem_append_right _ (Option.mem_toList.2 ?_), rfl, rfl⟩
    have htier' : collateralTierOf (call.invocation cfg p.provider).invocationReward =
        some p.collateralTier := by
      show collateralTierOf cfg.collateral = _
      rw [hcollateral, collateralTierOf_pow]
    unfold acceptedCall
    rw [htier']
    show (if _ then none else some _) = some _
    rw [if_neg hchanged]
    rfl
  · exact ⟨c, List.mem_append_left _ hc, hof⟩

/-- The same for the whole tick: a due entry whose answer is executed is no no-show. -/
theorem answered_of_executed (hrest : s.AtRest)
    (hp : p ∈ s.streams (streamOf call.targetTick)) (hprovider : p.provider = provider)
    (htier : p.collateralTier = tier) (hreveal : call.input.reveal ≠ Preimage.zero)
    (hk12 : qpi.k12 call.input.reveal = p.commit) {invocations : List Invocation}
    (hexecuted : call.invocation cfg provider ∈ invocations) :
    ∃ c ∈ acceptedCalls qpi call.targetTick invocations s, c.Of p := by
  rcases List.append_of_mem hexecuted with ⟨front, back, rfl⟩
  have hround := hrest.round qpi call.targetTick front
  rcases hround.answered hcollateral huser hrest hp hprovider htier hreveal hk12 with ⟨c, hc, hof⟩
  refine ⟨c, ?_, hof⟩
  rw [acceptedCalls_append, acceptedCalls, ← List.append_assoc]
  exact List.mem_append_left _ hc

/-- The same for the whole run: a provider whose due commitments are all answered
by calls that are executed misses none. -/
theorem not_misses_of_answered {birth : Nat} {invocations : Nat → List Invocation} {n : Nat}
    (hanswer : ∀ commit, ⟨provider, tier, commit⟩ ∈ dueAt qpi birth invocations n →
      ∃ next : SignedCall, next.targetTick = birth + n ∧ next.input.reveal ≠ Preimage.zero ∧
        qpi.k12 next.input.reveal = commit ∧ next.invocation cfg provider ∈ invocations (birth + n)) :
    ¬ Misses qpi birth invocations n provider tier := by
  rintro ⟨⟨commit, hdue⟩, hnone⟩
  rcases hanswer commit hdue with ⟨next, htarget, hreveal, hk12, hexecuted⟩
  rcases mem_due.1 hdue with ⟨entry, hentry, hcommitment⟩
  have hprovider : entry.provider = provider := congrArg Commitment.provider hcommitment
  have htier : entry.collateralTier = tier := congrArg Commitment.collateralTier hcommitment
  have hcommit : entry.commit = commit := congrArg Commitment.commit hcommitment
  unfold callsAt at hnone
  rw [← htarget] at hentry hexecuted hnone
  rcases answered_of_executed hcollateral huser
    (stateBefore_atRest emptyContract_atRest qpi birth invocations n) hentry hprovider htier hreveal
    (hk12.trans hcommit.symm) hexecuted with ⟨c, hc, hof⟩
  exact hnone c hc ⟨hof.1.trans hprovider, hof.2.trans htier⟩

end

/-! ## Both together -/

/-- A contract run that executes what the client delivers: the calls that the
backend accepted are executed in their target ticks, from the first target on
nobody else calls for the provider at the tier, and client and contract hash alike. -/
structure Executes (cfg : Config) (qpi : Qpi) (i : Fin 3) (provider : Digest) (tier : Fin 10)
    (first : SignedCall) (t : List Effect) (invocations : Nat → List Invocation) : Prop where
  collateral : cfg.collateral = 10 ^ tier.val
  k12 : ∀ preimage, qpi.k12 preimage = cfg.commitDigest preimage
  user : qpi.isContractId provider = false
  nonzero : ∀ call ∈ currentChain t, ∀ preimage, call.preimage = some preimage →
    preimage ≠ Preimage.zero
  executed : ∀ call ∈ currentChain t, AcceptedIn t call.targetTick →
    call.invocation cfg provider ∈ invocations call.targetTick
  only : ∀ tick, first.targetTick ≤ tick → ∀ inv ∈ invocations tick,
    IsCallOf i provider tier tick inv →
      ∃ call ∈ currentChain t, call.targetTick = tick ∧ inv = call.invocation cfg provider

theorem ChainRun.not_misses {a b c : Nat} {pre : List EngineInput} {epoch : Nat}
    {before : List EngineInput} {start : EngineInput} {later : List EngineInput} {i : Fin 3}
    {first : SignedCall} (h : ChainRun cfg a b c pre epoch before start later i first)
    {qpi : Qpi} {provider : Digest} {tier : Fin 10} {birth : Nat}
    {invocations : Nat → List Invocation}
    (hexecutes : Executes cfg qpi i provider tier first
      (runTrace cfg (Engine.new cfg a b c) (pre ++ before ++ start :: later) i) invocations)
    {n : Nat} (hstream : streamOf (birth + n) = i) (hfirst : first.targetTick < birth + n)
    (hseen : ∃ tick ∈ reports (before ++ start :: later), birth + n ≤ tick.tick) :
    ¬ Misses qpi birth invocations n provider tier := by
  rcases h.punctual with ⟨last, hlast, hpunctual⟩
  have hstarted : first ∈ currentChain
      (runTrace cfg (Engine.new cfg a b c) (pre ++ before ++ start :: later) i) := by
    rw [h.signed_iff, ← List.singleton_append, runTrace_append]
    exact List.mem_append_left _ h.starts
  rw [trace_of_ops] at hexecutes hstarted
  have hcourse := hpunctual.course
  generalize opsBefore cfg a b c pre before i = base at hexecutes hcourse hstarted
  generalize opsSince cfg a b c pre before (start :: later) i = ops at hexecutes hcourse hstarted
  have hfirstStream := streamOf_of_chain hstarted
  have hseen' : birth + n ≤ last.tick := by
    rcases hseen with ⟨tick, htick, hle⟩
    exact hle.trans (h.paced.le_last hlast tick htick)
  apply not_misses_of_answered hexecutes.collateral hexecutes.user
  intro commit hdue
  -- the commitment was made by a call of the chain, three ticks before
  rcases due_made hdue with
    ⟨hle, inv, hinv, input, hinvocator, htier, hprocedure, hcommit, hnonzero⟩
  have hdueTick : birth + (n - streamCount) + streamCount = birth + n := by omega
  have hsame : streamOf (birth + (n - streamCount)) = i := by
    rw [← streamOf_add_streamCount, hdueTick, hstream]
  have hfirst' : first.targetTick ≤ birth + (n - streamCount) := by
    by_contra hlt
    refine streamOf_ne (Nat.lt_of_not_le hlt) ?_ (hsame.trans hfirstStream.symm)
    omega
  rcases hexecutes.only _ hfirst' inv hinv ⟨hsame, hinvocator, htier, input, hprocedure⟩ with
    ⟨call, hcall, htarget, rfl⟩
  have hinput : call.input = input := by
    injection hprocedure
  rw [← hinput] at hcommit
  rw [← hcommit] at hnonzero
  rcases hcourse.answer (Nat.le_add_right _ _) hcall hnonzero (by omega) with
    ⟨next, hnext, hnextTarget, hpreimage, hdigest, haccepted⟩
  -- the answer is executed, so the provider is no no-show
  have hexecuted := hexecutes.executed next hnext haccepted
  rw [htarget, hdueTick] at hnextTarget
  rw [hnextTarget] at hexecuted
  exact ⟨next, hnextTarget, hexecutes.nonzero call hcall _ hpreimage,
    (hexecutes.k12 _).trans (hdigest.symm.trans hcommit), hexecuted⟩

/-- As long as the reports of the client are paced and its broadcasts succeed, a
contract that executes what the backend accepted always finds the provider: from
the first commit of the chain to the last reported tick no commitment of the
provider is missed in the stream, so no collateral of it is burned or sent back. -/
theorem punctual_client_keeps_collateral (cfg : Config) (a b c : Nat) (pre : List EngineInput)
    (epoch : Nat) (before : List EngineInput) (start : EngineInput) (later : List EngineInput)
    (i : Fin 3) (first : SignedCall) (h : ChainRun cfg a b c pre epoch before start later i first)
    (qpi : Qpi) (provider : Digest) (tier : Fin 10) (birth : Nat)
    (invocations : Nat → List Invocation)
    (hexecutes : Executes cfg qpi i provider tier first
      (runTrace cfg (Engine.new cfg a b c) (pre ++ before ++ start :: later) i) invocations)
    (n : Nat) (hstream : streamOf (birth + n) = i) (hfirst : first.targetTick < birth + n)
    (hseen : ∃ tick ∈ reports (before ++ start :: later), birth + n ≤ tick.tick) :
    ¬ Misses qpi birth invocations n provider tier ∧
      ∀ amount, .burn provider tier amount ∉ paymentsAt qpi birth invocations n := by
  have hmisses : ¬ Misses qpi birth invocations n provider tier :=
    h.not_misses hexecutes hstream hfirst hseen
  refine ⟨hmisses, ?_⟩
  intro amount hburn
  exact hmisses (burn_iff.1 hburn).2.2

/-- The effect froze no chain. -/
def Effect.unfrozen : Effect → Bool
  | .froze _ _ => false
  | _ => true

theorem froze_notMem {t : List Effect} (h : t.all Effect.unfrozen = true) (tail : Nat)
    (restarting : Bool) : Effect.froze tail restarting ∉ t := by
  intro hmem
  cases List.all_eq_true.1 h _ hmem

/-- The chain of stream 1 in the paced run. -/
def pacedChain : List SignedCall :=
  currentChain (runTrace sampleConfig (Engine.new sampleConfig 0 0 0)
    (steadyRun [0] ++ [] ++ pacedStart :: pacedSteps) 1)

/-- At tick 10 the provider is found. The other one, which committed at tick 7 and
reveals nothing, loses its collateral. -/
theorem punctual_client_keeps_collateral_paced :
    (¬ Misses sampleQpi 0 (doubledCalls pacedChain) 10 sampleProvider 1 ∧
      ∀ amount, .burn sampleProvider 1 amount ∉ paymentsAt sampleQpi 0 (doubledCalls pacedChain) 10) ∧
    .burn otherCommit.invocator 1 10 ∈ paymentsAt sampleQpi 0 (doubledCalls pacedChain) 10 := by
  constructor
  · have hexecutes : Executes sampleConfig sampleQpi 1 sampleProvider 1 retriedCommit
        (runTrace sampleConfig (Engine.new sampleConfig 0 0 0)
          (steadyRun [0] ++ [] ++ pacedStart :: pacedSteps) 1) (doubledCalls pacedChain) := by
      constructor
      · rfl
      · intro preimage
        rfl
      · rfl
      · have hall : pacedChain.all (fun call => call.preimage.all fun preimage =>
            preimage ≠ Preimage.zero) = true := by
          decide +kernel
        intro call hcall preimage hpreimage
        have hone := List.all_eq_true.1 hall call hcall
        rw [hpreimage, Option.all_some, decide_eq_true_iff] at hone
        exact hone
      · intro call hcall _
        exact (executes_doubledCalls pacedChain).executed call hcall
      · intro tick _
        exact (executes_doubledCalls pacedChain).only tick
    have hseen : ∃ tick ∈ reports ([] ++ pacedStart :: pacedSteps), 0 + 10 ≤ tick.tick := by
      decide +kernel
    exact punctual_client_keeps_collateral sampleConfig 0 0 0 (steadyRun [0]) 1 [] pacedStart
      pacedSteps 1 retriedCommit pacedSteps_chainRun sampleQpi sampleProvider 1 0
      (doubledCalls pacedChain) hexecutes 10 rfl (by decide +kernel) hseen
  · decide +kernel

end RandomClient
