import RandomClient.Collateral
import RandomClient.Solvency

/-!
# What a client that shut down gets back

A client closes each of its chains with a terminal reveal. When the backend has
accepted all of them, and the contract executes what was delivered, everything
the account of the client ever attached to its calls is sent back to it
(`shutdown_returns_collateral`).
-/

namespace RandomClient

open Contract

variable {cfg : Config} {a b c : Nat} {pre : List EngineInput} {epoch : Nat}
  {inputs : List EngineInput} {i : Fin 3}

/-! ## A client that has left -/

/-- A slot that has left: in the run `pre ++ inputs` it has no chain in this epoch,
or one that it signed in a paced run and closed with an accepted terminal reveal. -/
inductive HasLeft (cfg : Config) (a b c : Nat) (pre : List EngineInput) (epoch : Nat)
    (inputs : List EngineInput) (i : Fin 3) : Prop where
  | idle (h : currentChain (runTrace cfg (Engine.new cfg a b c) (pre ++ inputs) i) = [])
  | drained (before : List EngineInput) (start : EngineInput) (later : List EngineInput)
      (first : SignedCall) (hinputs : inputs = before ++ start :: later)
      (hrun : ChainRun cfg a b c pre epoch before start later i first)
      (hstate : (((engineMachine cfg).state (Engine.new cfg a b c) (pre ++ inputs)).slots i).state =
        .drained .accepted)

/-- Every commitment of a slot that has left was answered, and the answer accepted. -/
theorem HasLeft.answered (h : HasLeft cfg a b c pre epoch inputs i) {call : SignedCall}
    (hmem : call ∈ currentChain (runTrace cfg (Engine.new cfg a b c) (pre ++ inputs) i))
    (hcommit : call.input.commit ≠ Digest.zero) :
    IsAnswered cfg (runTrace cfg (Engine.new cfg a b c) (pre ++ inputs) i) call := by
  cases h with
  | idle hnone =>
    rw [hnone] at hmem
    cases hmem
  | drained before start later first hinputs hrun hstate =>
    subst hinputs
    rcases hrun.punctual with ⟨last, -, hpunctual⟩
    have hcourse := hpunctual.course
    rw [← List.append_assoc] at hmem hstate ⊢
    rw [trace_of_ops] at hmem ⊢
    rw [state_of_ops] at hstate
    -- a drained slot holds no chain any more, and plans nothing
    have hchain : ((slotMachine cfg).state (slot₀ cfg i) (opsBefore cfg a b c pre before i ++
        opsSince cfg a b c pre before (start :: later) i)).chain = none := by
      have hpresent := (@slotShape cfg i (opsBefore cfg a b c pre before i ++
        opsSince cfg a b c pre before (start :: later) i)).present
      rw [hstate] at hpresent
      simpa [SlotState.isPlanning, SlotState.isRestarting, SlotState.isDraining] using hpresent
    rcases hcourse.next hmem hcommit (fun hplanned => by
      have hstage := hcourse.stage
      rw [hplanned] at hstage
      cases hstage with
      | planning hplanning =>
        rw [hstate] at hplanning
        cases hplanning) with ⟨next, hnext, htarget, hpreimage, hdigest⟩
    exact ⟨next, hnext, htarget, hpreimage, hdigest, hcourse.closed hchain next hnext⟩

/-! ## Its account -/

/-- A contract run in which the account calls what the client delivers, and
nothing else: the calls that the backend accepted are executed in their target
ticks, and client and contract hash alike. -/
structure AccountOf (cfg : Config) (qpi : Qpi) (provider : Digest) (tier : Fin 10)
    (traces : Fin 3 → List Effect) (invocations : Nat → List Invocation) : Prop where
  collateral : cfg.collateral = 10 ^ tier.val
  k12 : ∀ preimage, qpi.k12 preimage = cfg.commitDigest preimage
  user : qpi.isContractId provider = false
  nonzero : ∀ i, ∀ call ∈ currentChain (traces i), ∀ preimage, call.preimage = some preimage →
    preimage ≠ Preimage.zero
  executed : ∀ i, ∀ call ∈ currentChain (traces i), AcceptedIn (traces i) call.targetTick →
    call.invocation cfg provider ∈ invocations call.targetTick
  only : ∀ tick, ∀ inv ∈ invocations tick, inv.invocator = provider →
    ∃ call ∈ currentChain (traces (streamOf tick)), call.targetTick = tick ∧
      inv = call.invocation cfg provider

section

variable {qpi : Qpi} {provider : Digest} {tier : Fin 10} {traces : Fin 3 → List Effect}
  {birth : Nat} {invocations : Nat → List Invocation} {n : Nat}

/-- A commitment of the account that is due comes from a call of the chain. -/
theorem AccountOf.due (h : AccountOf cfg qpi provider tier traces invocations) {d : Commitment}
    (hdue : d ∈ dueAt qpi birth invocations n) (hprovider : d.provider = provider) :
    d.collateralTier = tier ∧ ∃ call ∈ currentChain (traces (streamOf (birth + n))),
      call.targetTick + streamCount = birth + n ∧ call.input.commit = d.commit ∧
        d.commit ≠ Digest.zero := by
  rcases due_made hdue with ⟨hle, inv, hinv, input, hinvocator, htier, hprocedure, hcommit, hnonzero⟩
  have hdueTick : birth + (n - streamCount) + streamCount = birth + n := by omega
  rcases h.only _ inv hinv (hinvocator.trans hprovider) with ⟨call, hcall, htarget, rfl⟩
  rw [← streamOf_add_streamCount, hdueTick] at hcall
  have hinput : call.input = input := by
    injection hprocedure
  refine ⟨?_, call, hcall, by omega, ?_, hnonzero⟩
  · change collateralTierOf cfg.collateral = _ at htier
    rw [h.collateral, collateralTierOf_pow] at htier
    exact (Option.some.inj htier).symm
  · rw [hinput, hcommit]

/-- No commitment of the account is ever missed. -/
theorem AccountOf.not_misses (h : AccountOf cfg qpi provider tier traces invocations)
    (hanswered : ∀ i, ∀ call ∈ currentChain (traces i), call.input.commit ≠ Digest.zero →
      IsAnswered cfg (traces i) call) (tier' : Fin 10) :
    ¬ Misses qpi birth invocations n provider tier' := by
  intro hmisses
  have htier : tier' = tier := by
    rcases hmisses.1 with ⟨commit, hdue⟩
    exact (h.due hdue rfl).1
  subst htier
  refine not_misses_of_answered h.collateral h.user ?_ hmisses
  intro commit hdue
  rcases h.due hdue rfl with ⟨-, call, hcall, htarget, hcommit, hnonzero⟩
  change call.input.commit = commit at hcommit
  rcases hanswered _ call hcall (hcommit ▸ hnonzero) with
    ⟨next, hnext, hnextTarget, hpreimage, hdigest, haccepted⟩
  have hexecuted := h.executed _ next hnext haccepted
  rw [htarget] at hnextTarget
  rw [hnextTarget] at hexecuted
  exact ⟨next, hnextTarget, h.nonzero _ call hcall _ hpreimage,
    (h.k12 _).trans (hdigest.symm.trans hcommit), hexecuted⟩

/-- After the last target no entry of the account is left. -/
theorem AccountOf.absent (h : AccountOf cfg qpi provider tier traces invocations)
    (hanswered : ∀ i, ∀ call ∈ currentChain (traces i), call.input.commit ≠ Digest.zero →
      IsAnswered cfg (traces i) call)
    (hpast : ∀ i, ∀ call ∈ currentChain (traces i), call.targetTick < birth + n) (stream : Fin 3) :
    ∀ p ∈ (stateBefore qpi birth invocations emptyContract n).streams stream,
      p.provider ≠ provider := by
  -- the entry waits for the next tick of its stream, `k` ticks later
  rcases exists_next_tick (birth + n) stream with ⟨k, -, hstream, hbefore⟩
  simp only [Nat.add_assoc] at hstream hbefore
  intro p hp hprovider
  rw [← @stateBefore_hold qpi birth invocations _ _ k hbefore, ← hstream] at hp
  have hdue : p.commitment ∈ dueAt qpi birth invocations (n + k) := mem_due.2 ⟨p, hp, rfl⟩
  rcases h.due hdue hprovider with ⟨-, call, hcall, htarget, hcommit, hnonzero⟩
  rcases hanswered _ call hcall (hcommit ▸ hnonzero) with ⟨next, hnext, hnextTarget, -⟩
  have hlt := hpast _ next hnext
  omega

end

/-! ## Its money -/

section

variable {accounts : Digest → Bool} {qpi : Qpi} {birth : Nat} {invocations : Nat → List Invocation}

/-- Only missed commitments are burned. -/
theorem burnedBefore_eq_zero (h : ∀ n provider tier, accounts provider = true →
      ¬ Misses qpi birth invocations n provider tier) (n : Nat) :
    burned accounts (paymentsBefore qpi birth invocations emptyContract n) = 0 := by
  induction n with
  | zero => rfl
  | succ n ih =>
    rw [paymentsBefore, burned_append, burned_append, ih, invokePayments_burned]
    have hend : burned accounts (paymentsAt qpi birth invocations n) = 0 := by
      apply List.sum_eq_zero
      intro amount hamount
      rcases List.mem_map.1 hamount with ⟨payment, hpayment, rfl⟩
      cases payment with
      | transfer destination amount => rfl
      | burn provider tier amount =>
        have hmisses := (burn_iff.1 hpayment).2.2
        have hother : ¬ accounts provider = true := fun hown => h n provider tier hown hmisses
        show (if _ then _ else _) = 0
        rw [if_neg hother]
    unfold paymentsAt at hend
    rw [hend]

theorem locked_eq_zero {s : StateData}
    (h : ∀ stream, ∀ p ∈ s.streams stream, accounts p.provider = false) :
    s.locked accounts = 0 := by
  apply Finset.sum_eq_zero
  intro stream _
  apply List.sum_eq_zero
  intro amount hamount
  rcases List.mem_map.1 hamount with ⟨p, hp, rfl⟩
  unfold Provider.lockedFor
  rw [h stream p hp]
  rfl

/-- Accounts that buy nothing pay no price. -/
theorem invokePrices_eq_zero {tick : Nat} {calls : List Invocation}
    (h : ∀ inv ∈ calls, accounts inv.invocator = true → ∃ input, inv.procedure = .revealAndCommit input)
    (s : StateData) : invokePrices accounts qpi tick calls s = 0 := by
  induction calls generalizing s with
  | nil => rfl
  | cons inv rest ih =>
    rw [invokePrices, ih fun inv' hmem => h inv' (List.mem_cons_of_mem _ hmem)]
    unfold Invocation.price
    split
    · rfl
    · rename_i hprocedure
      rw [if_neg]
      rintro ⟨hown, -⟩
      rcases h inv (by simp) hown with ⟨input, hreveal⟩
      rw [hreveal] at hprocedure
      cases hprocedure

theorem pricesBefore_eq_zero (h : ∀ tick, ∀ inv ∈ invocations tick, accounts inv.invocator = true →
      ∃ input, inv.procedure = .revealAndCommit input) (n : Nat) :
    pricesBefore qpi birth invocations emptyContract accounts n = 0 := by
  induction n with
  | zero => rfl
  | succ n ih => rw [pricesBefore, ih, invokePrices_eq_zero (h _)]

end

/-- A client whose slots have all left loses nothing: no collateral of its account
is ever burned, and after the last target of its calls the contract has sent
back exactly what the account attached to them, and lists it nowhere. -/
theorem shutdown_returns_collateral (cfg : Config) (a b c : Nat) (pre : List EngineInput)
    (epoch : Nat) (inputs : List EngineInput) (hleft : ∀ i, HasLeft cfg a b c pre epoch inputs i)
    (qpi : Qpi) (provider : Digest) (tier : Fin 10) (birth : Nat)
    (invocations : Nat → List Invocation)
    (haccount : AccountOf cfg qpi provider tier
      (runTrace cfg (Engine.new cfg a b c) (pre ++ inputs)) invocations) (n : Nat) :
    let own account := decide (account = provider)
    let payments := paymentsBefore qpi birth invocations emptyContract n
    burned own payments = 0 ∧
    ((∀ i, ∀ call ∈ currentChain (runTrace cfg (Engine.new cfg a b c) (pre ++ inputs) i),
        call.targetTick < birth + n) →
      transferred own payments = attachedBefore own birth invocations n ∧
        ∀ stream, ∀ p ∈ (stateBefore qpi birth invocations emptyContract n).streams stream,
          p.provider ≠ provider) := by
  intro own payments
  have hanswered : ∀ i, ∀ call ∈ currentChain (runTrace cfg (Engine.new cfg a b c) (pre ++ inputs) i),
      call.input.commit ≠ Digest.zero →
        IsAnswered cfg (runTrace cfg (Engine.new cfg a b c) (pre ++ inputs) i) call :=
    fun i call hmem hcommit => (hleft i).answered hmem hcommit
  have hburned : burned own payments = 0 := by
    apply burnedBefore_eq_zero
    intro n account tier' hown
    rw [of_decide_eq_true hown]
    exact haccount.not_misses hanswered tier'
  refine ⟨hburned, ?_⟩
  intro hpast
  have habsent : ∀ stream, ∀ p ∈ (stateBefore qpi birth invocations emptyContract n).streams stream,
      p.provider ≠ provider := fun stream => haccount.absent hanswered hpast stream
  refine ⟨?_, habsent⟩
  have hlocked : (stateBefore qpi birth invocations emptyContract n).locked own = 0 :=
    locked_eq_zero fun stream p hp => decide_eq_false (habsent stream p hp)
  have hprices : pricesBefore qpi birth invocations emptyContract own n = 0 := by
    apply pricesBefore_eq_zero
    intro tick inv hinv hown
    rcases haccount.only tick inv hinv (of_decide_eq_true hown) with ⟨call, -, -, rfl⟩
    exact ⟨_, rfl⟩
  have hmoney := attachedBefore_eq own qpi birth invocations n
  rw [hlocked, hprices] at hmoney
  change _ = transferred own payments + burned own payments + 0 + 0 at hmoney
  omega

/-! ## A closed run -/

/-- The chains of all three streams in the paced run. -/
def pacedChains (i : Fin 3) : List SignedCall :=
  currentChain (runTrace sampleConfig (Engine.new sampleConfig 0 0 0)
    (steadyRun [0] ++ pacedStart :: pacedSteps) i)

/-- Every call of the three chains twice, each time after a commit of somebody else. -/
def pacedCalls (tick : Nat) : List Invocation :=
  (List.finRange 3).flatMap fun i => doubledCalls (pacedChains i) tick

theorem pacedSteps_hasLeft (i : Fin 3) :
    HasLeft sampleConfig 0 0 0 (steadyRun [0]) 1 (pacedStart :: pacedSteps) i := by
  have hdrained : ∀ i, (((engineMachine sampleConfig).state (Engine.new sampleConfig 0 0 0)
      (steadyRun [0] ++ pacedStart :: pacedSteps)).slots i).state = .drained .accepted := by
    decide +kernel
  have hstarts : ∀ i, ∃ first ∈ signedCalls (runTrace sampleConfig ((engineMachine sampleConfig).state
      (Engine.new sampleConfig 0 0 0) (steadyRun [0])) [pacedStart] i), first.kind = .firstCommit := by
    decide +kernel
  have hfree : ∀ i, ((runTrace sampleConfig ((engineMachine sampleConfig).state
      (Engine.new sampleConfig 0 0 0) (steadyRun [0] ++ [] ++ [pacedStart])) pacedSteps i).all
        Effect.unfrozen) = true := by
    decide +kernel
  rcases hstarts i with ⟨first, hfirst, hkind⟩
  refine .drained [] pacedStart pacedSteps first rfl ?_ (hdrained i)
  constructor
  · exact pacedSteps_chainRun.paced
  · exact pacedSteps_chainRun.signs
  · exact mem_signedCalls.1 hfirst
  · exact hkind
  · exact froze_notMem (hfree i)

theorem mem_pacedCalls {tick : Nat} {inv : Invocation} (h : inv ∈ pacedCalls tick) :
    inv = otherCommit ∨ ∃ i, ∃ call ∈ pacedChains i, call.targetTick = tick ∧
      inv = call.invocation sampleConfig sampleProvider := by
  rcases List.mem_flatMap.1 h with ⟨i, -, hone⟩
  rcases List.mem_flatMap.1 hone with ⟨call, hcall, hinv⟩
  rcases List.mem_filter.1 hcall with ⟨hmem, htarget⟩
  simp only [List.mem_cons, List.not_mem_nil, or_false] at hinv
  rcases hinv with rfl | rfl | rfl | rfl
  · exact .inl rfl
  · exact .inr ⟨i, call, hmem, of_decide_eq_true htarget, rfl⟩
  · exact .inl rfl
  · exact .inr ⟨i, call, hmem, of_decide_eq_true htarget, rfl⟩

theorem pacedCalls_account : AccountOf sampleConfig sampleQpi sampleProvider 1
    (runTrace sampleConfig (Engine.new sampleConfig 0 0 0)
      (steadyRun [0] ++ pacedStart :: pacedSteps)) pacedCalls where
  collateral := rfl
  k12 _ := rfl
  user := rfl
  nonzero := by
    have hall : ∀ i, (pacedChains i).all (fun call => call.preimage.all fun preimage =>
        preimage ≠ Preimage.zero) = true := by
      decide +kernel
    intro i call hcall preimage hpreimage
    have hone := List.all_eq_true.1 (hall i) call hcall
    rw [hpreimage, Option.all_some, decide_eq_true_iff] at hone
    exact hone
  executed := by
    intro i call hcall _
    refine List.mem_flatMap.2 ⟨i, List.mem_finRange i, List.mem_flatMap.2 ⟨call, ?_, by simp⟩⟩
    exact List.mem_filter.2 ⟨hcall, decide_eq_true rfl⟩
  only := by
    have hstream : ∀ i, ∀ call ∈ pacedChains i, streamOf call.targetTick = i := by
      decide +kernel
    intro tick inv hinv hown
    rcases mem_pacedCalls hinv with rfl | ⟨i, call, hcall, htarget, rfl⟩
    · exact absurd hown (by decide)
    · rw [← htarget, hstream i call hcall]
      exact ⟨call, hcall, rfl, rfl⟩

/-- At tick 20 the account of the paced run has its 220 units back: 110 for the
eleven calls that were accepted, 110 for their copies. -/
theorem shutdown_returns_collateral_paced :
    let own account := decide (account = sampleProvider)
    attachedBefore own 0 pacedCalls 20 = 220 ∧
      transferred own (paymentsBefore sampleQpi 0 pacedCalls emptyContract 20) = 220 := by
  intro own
  have hattached : attachedBefore own 0 pacedCalls 20 = 220 := by
    decide +kernel
  have hpast : ∀ i, ∀ call ∈ pacedChains i, call.targetTick < 0 + 20 := by
    decide +kernel
  have hreturns := shutdown_returns_collateral sampleConfig 0 0 0 (steadyRun [0]) 1
    (pacedStart :: pacedSteps) pacedSteps_hasLeft sampleQpi sampleProvider 1 0 pacedCalls
    pacedCalls_account 20
  exact ⟨hattached, (hreturns.2 hpast).1.trans hattached⟩

end RandomClient
