import RandomClient.Enrollment
import RandomClient.Linkage

/-!
# The contract accepts the signed chain

The client's planner and the contract meet in the calls of a chain. The
contract runs tick by tick among arbitrary other calls, and executes each call
of the chain at least once, in its target tick. Then the enrolment of the
provider follows the chain: before a tick it is what the last call below that
tick left (`After`), which is what the next call needs to be accepted.
-/

namespace RandomClient

open Contract

variable {cfg : Config}

/-- The transaction of a signed call as the contract receives it. -/
def SignedCall.invocation (cfg : Config) (provider : Digest) (call : SignedCall) : Invocation where
  invocator := provider
  invocationReward := cfg.collateral
  procedure := .revealAndCommit call.input

/-! ## Signed chains -/

/-- A chain for a stream, none of whose secrets or commitments is zero. -/
structure SoundChain (cfg : Config) (stream : Fin 3) (chain : List SignedCall) : Prop where
  linked : IsChainOf cfg chain
  stream : ∀ call ∈ chain, streamOf call.targetTick = stream
  nonzero : ∀ call ∈ chain, ∀ preimage, call.preimage = some preimage →
    preimage ≠ Preimage.zero ∧ cfg.commitDigest preimage ≠ Digest.zero

/-- The newest chain of a slot is a sound chain for its stream. -/
theorem soundChain (i : Fin 3) (ops : List SlotOp)
    (hnonzero : ∀ call ∈ currentChain ((slotMachine cfg).trace (slot₀ cfg i) ops),
      ∀ preimage, call.preimage = some preimage →
        preimage ≠ Preimage.zero ∧ cfg.commitDigest preimage ≠ Digest.zero) :
    SoundChain cfg i (currentChain ((slotMachine cfg).trace (slot₀ cfg i) ops)) := by
  have hrun : SlotRun cfg (slot₀ cfg i) _ _ := slotMachine_run i ops
  obtain ⟨p, -, hinv⟩ := hrun.planned
  refine ⟨hinv.linked, fun call hmem => ?_, hnonzero⟩
  have hmod := hinv.target_mod (hinv.suffix.subset hmem)
  rw [slotMachine_key] at hmod
  exact Fin.ext hmod

section
variable {stream : Fin 3} {chain front back : List SignedCall} {k call later : SignedCall}

theorem SoundChain.target_le (h : SoundChain cfg stream chain) (hsplit : chain = front ++ call :: back)
    (hlater : later ∈ back) : call.targetTick + streamCount ≤ later.targetTick := by
  have hpairwise := CommitReveal.IsRevealChain.targets_increase h.linked
  rw [List.pairwise_map, hsplit, List.pairwise_append] at hpairwise
  exact (List.pairwise_cons.1 hpairwise.2.1).1 later hlater

theorem SoundChain.le_target (h : SoundChain cfg stream chain) (hsplit : chain = front ++ call :: back)
    (hearlier : k ∈ front) : k.targetTick + streamCount ≤ call.targetTick := by
  have hpairwise := CommitReveal.IsRevealChain.targets_increase h.linked
  rw [List.pairwise_map, hsplit, List.pairwise_append] at hpairwise
  exact hpairwise.2.2 k hearlier call (by simp)

theorem SoundChain.next_target (h : SoundChain cfg stream chain)
    (hsplit : chain = front ++ k :: call :: back) :
    call.targetTick = k.targetTick + streamCount := by
  have hlinks : CommitReveal.IsRevealChain cfg.commitDigest Preimage.zero Digest.zero streamCount
      (front.map SignedCall.link ++ k.link :: call.link :: back.map SignedCall.link) := by
    simpa [IsChainOf, hsplit] using h.linked
  exact hlinks.next.target

/-- No tick of the stream lies between a target and the next, or within a period of the last. -/
theorem SoundChain.off_stream (h : SoundChain cfg stream chain)
    (hsplit : chain = front ++ k :: back) {tick : Nat} (hbelow : k.targetTick < tick)
    (habove : ∀ call ∈ back, tick < call.targetTick)
    (hbound : ∃ call ∈ chain, tick < call.targetTick + streamCount) : streamOf tick ≠ stream := by
  intro hstream
  have hkstream := h.stream k (by simp [hsplit])
  rw [← hstream, streamOf, streamOf, Fin.mk.injEq] at hkstream
  cases back with
  | nil =>
    obtain ⟨call, hmem, hcall⟩ := hbound
    have hle : call.targetTick ≤ k.targetTick := by
      rw [hsplit, List.mem_append, List.mem_singleton] at hmem
      rcases hmem with hmem | rfl
      · have hle := h.le_target hsplit hmem
        omega
      · exact le_rfl
    simp only [streamCount] at *
    omega
  | cons l back =>
    have hl := habove l (by simp)
    have hnext := h.next_target hsplit
    simp only [streamCount] at *
    omega

/-- Only the first call reveals nothing. -/
theorem SoundChain.front_eq_nil (h : SoundChain cfg stream chain)
    (hsplit : chain = front ++ call :: back) (hreveal : call.input.reveal = Preimage.zero) :
    front = [] := by
  rcases List.eq_nil_or_concat front with rfl | ⟨front, k, rfl⟩
  · rfl
  · have hneighbours : chain = front ++ k :: call :: back := by simp [hsplit]
    obtain ⟨hpreimage, -⟩ := h.linked.linked hneighbours
    exact absurd hreveal (h.nonzero k (by simp [hneighbours]) _ hpreimage).1

/-- The call commits to nothing exactly when it closes the chain. -/
theorem SoundChain.commit_eq_zero_iff (h : SoundChain cfg stream chain) (hmem : call ∈ chain) :
    call.input.commit = Digest.zero ↔ call.preimage = none := by
  have hcommits := CommitReveal.IsRevealChain.commits h.linked (List.mem_map_of_mem hmem)
  cases hpreimage : call.preimage with
  | none => simpa [CommitReveal.Link.Commits, SignedCall.link, hpreimage] using hcommits
  | some preimage =>
    have hnonzero := (h.nonzero call hmem preimage hpreimage).2
    simp only [CommitReveal.Link.Commits, SignedCall.link, hpreimage] at hcommits
    simp [hcommits, hnonzero]

end

/-! ## What a call leaves, and what the next one needs -/

/-- The entry of a provider after the end of the tick in which its call was accepted. -/
structure SettledFor (cfg : Config) (call : SignedCall) (p : Provider) : Prop where
  commit : p.commit = call.input.commit
  reveal : p.reveal = Preimage.zero
  flag : p.revealOrCommitFlag = false
  locked : p.lockedCollateralAmount = cfg.collateral
  update : p.lastUpdateTick = call.targetTick

/-- The enrolment after the calls of a chain executed so far. -/
def After (cfg : Config) (executed : List SignedCall) (enrolment : List Provider) : Prop :=
  match executed.getLast? with
  | none => enrolment = []
  | some call =>
    if call.input.commit = Digest.zero then enrolment = []
    else ∃ p, enrolment = [p] ∧ SettledFor cfg call p

/-- The enrolment in which a call is accepted. -/
def Ready (qpi : Qpi) (call : SignedCall) (enrolment : List Provider) : Prop :=
  (call.input.reveal = Preimage.zero ∧ call.input.commit ≠ Digest.zero ∧ enrolment = []) ∨
    (call.input.reveal ≠ Preimage.zero ∧
      ∃ p, enrolment = [p] ∧ p.verifies qpi call.input.reveal = true)

/-- The entry of a provider in a tick in which its call was accepted. -/
structure AcceptedFor (cfg : Config) (call : SignedCall) (p : Provider) : Prop where
  commit : p.commit = call.input.commit
  locked : p.lockedCollateralAmount =
    if call.input.commit = Digest.zero then 0 else cfg.collateral
  update : p.lastUpdateTick = call.targetTick
  called : p.Called

/-- What the calls before a call leave is what it needs. -/
theorem SoundChain.ready {stream : Fin 3} {chain front back : List SignedCall} {call : SignedCall}
    (h : SoundChain cfg stream chain) (hsplit : chain = front ++ call :: back) {qpi : Qpi}
    (hk12 : ∀ preimage, qpi.k12 preimage = cfg.commitDigest preimage) {enrolment : List Provider}
    (hafter : After cfg front enrolment) : Ready qpi call enrolment := by
  have hmem : call ∈ chain := by simp [hsplit]
  rcases List.eq_nil_or_concat front with rfl | ⟨front, k, rfl⟩
  · -- the first call
    have hopens := h.linked.opens call.link (by simp [hsplit])
    left
    refine ⟨hopens.reveal, ?_, hafter⟩
    rw [Ne, h.commit_eq_zero_iff hmem]
    intro hnone
    have hsome := hopens.secret
    simp [SignedCall.link, hnone] at hsome
  · have hneighbours : chain = front ++ k :: call :: back := by simp [hsplit]
    have hk : k ∈ chain := by simp [hneighbours]
    obtain ⟨hpreimage, hcommit⟩ := h.linked.linked hneighbours
    have hnotZero : k.input.commit ≠ Digest.zero := by
      rw [Ne, h.commit_eq_zero_iff hk, hpreimage]
      simp
    unfold After at hafter
    rw [List.concat_eq_append, List.getLast?_concat] at hafter
    dsimp only at hafter
    rw [if_neg hnotZero] at hafter
    obtain ⟨p, rfl, hp⟩ := hafter
    right
    refine ⟨(h.nonzero k hk _ hpreimage).1, p, rfl, ?_⟩
    simp [Provider.verifies, hp.reveal, hp.flag, hp.commit, hcommit, hk12]

/-! ## One tick -/

theorem invokeAll_snoc (qpi : Qpi) (tick : Nat) (invocations : List Invocation) (inv : Invocation)
    (s : StateData) :
    invokeAll qpi tick (invocations ++ [inv]) s =
      (invoke qpi tick inv (invokeAll qpi tick invocations s)).1 := by
  simp [invokeAll, List.foldl_append]

section
variable {qpi : Qpi} {tick : Nat} {stream : Fin 3} {provider : Digest} {tier : Fin 10}
  {s : StateData} {call : SignedCall}

theorem invokeAll_enrolment_of_other {invocations : List Invocation}
    (h : ∀ inv ∈ invocations, ¬ IsCallOf stream provider tier tick inv) :
    (invokeAll qpi tick invocations s).enrolment stream provider tier =
      s.enrolment stream provider tier := by
  induction invocations using List.reverseRecOn with
  | nil => rfl
  | append_singleton invocations inv ih =>
    rw [invokeAll_snoc, invoke_enrolment_of_other (h inv (by simp))]
    exact ih fun other hmem => h other (List.mem_append_left _ hmem)

theorem collateralTierOf_pow (tier : Fin 10) : collateralTierOf (10 ^ tier.val) = some tier := by
  revert tier
  decide

variable (hcollateral : cfg.collateral = 10 ^ tier.val)
  (huser : qpi.isContractId provider = false)
include hcollateral huser

/-- The first copy of a call is accepted. -/
theorem invoke_ready (hready : Ready qpi call (s.enrolment (streamOf call.targetTick) provider tier))
    (hroom : call.input.reveal = Preimage.zero →
      (s.streams (streamOf call.targetTick)).length < streamCapacity) :
    ∃ p, (invoke qpi call.targetTick (call.invocation cfg provider) s).1.enrolment
        (streamOf call.targetTick) provider tier = [p] ∧ AcceptedFor cfg call p := by
  have htier : collateralTierOf cfg.collateral = some tier := by
    rw [hcollateral]
    exact collateralTierOf_pow tier
  change ∃ p, (revealAndCommit qpi call.targetTick provider cfg.collateral call.input s).1.enrolment
    (streamOf call.targetTick) provider tier = [p] ∧ _
  rcases hready with ⟨hreveal, hcommit, hnone⟩ | ⟨hreveal, p, hone, hverifies⟩
  · refine ⟨_, revealAndCommit_first huser htier hcommit hreveal hnone (hroom hreveal), rfl, ?_, rfl,
      rfl, fun _ => ⟨rfl, hcommit⟩⟩
    rw [if_neg hcommit]
    rfl
  · refine ⟨_, revealAndCommit_reveal huser htier hreveal hone hverifies, rfl, rfl, rfl, rfl, ?_⟩
    intro hflag
    cases hflag

/-- A further copy is refused. -/
theorem invoke_accepted {p : Provider}
    (hone : s.enrolment (streamOf call.targetTick) provider tier = [p]) (hp : p.Called) :
    invoke qpi call.targetTick (call.invocation cfg provider) s =
      (s, [.transfer provider cfg.collateral]) := by
  have htier : collateralTierOf cfg.collateral = some tier := by
    rw [hcollateral]
    exact collateralTierOf_pow tier
  apply revealAndCommit_refused huser htier hone
  right
  simp [Provider.verifies, hp.flag]

/-- In the target tick of a call the enrolment changes with its first copy only. -/
theorem invokeAll_call {invocations executed : List Invocation}
    (hothers : ∀ inv ∈ invocations, inv = call.invocation cfg provider ∨
      ¬ IsCallOf (streamOf call.targetTick) provider tier call.targetTick inv)
    (hready : Ready qpi call (s.enrolment (streamOf call.targetTick) provider tier))
    (hroom : call.input.reveal = Preimage.zero → ∀ earlier,
      earlier ++ [call.invocation cfg provider] <+: invocations →
        call.invocation cfg provider ∉ earlier →
          ((invokeAll qpi call.targetTick earlier s).streams
            (streamOf call.targetTick)).length < streamCapacity)
    (hexecuted : executed <+: invocations) :
    (call.invocation cfg provider ∉ executed →
      (invokeAll qpi call.targetTick executed s).enrolment (streamOf call.targetTick) provider tier =
        s.enrolment (streamOf call.targetTick) provider tier) ∧
    (call.invocation cfg provider ∈ executed →
      ∃ p, (invokeAll qpi call.targetTick executed s).enrolment (streamOf call.targetTick)
        provider tier = [p] ∧ AcceptedFor cfg call p) := by
  induction executed using List.reverseRecOn with
  | nil => exact ⟨fun _ => rfl, fun hmem => absurd hmem List.not_mem_nil⟩
  | append_singleton executed inv ih =>
    obtain ⟨hnot, hyes⟩ := ih ((List.prefix_append _ _).trans hexecuted)
    rw [invokeAll_snoc]
    rcases hothers inv (hexecuted.subset (by simp)) with rfl | hother
    · -- one more copy of the call
      refine ⟨fun hmem => absurd (by simp) hmem, fun _ => ?_⟩
      by_cases hmem : call.invocation cfg provider ∈ executed
      · obtain ⟨p, hone, hp⟩ := hyes hmem
        rw [invoke_accepted hcollateral huser hone hp.called]
        exact ⟨p, hone, hp⟩
      · apply invoke_ready hcollateral huser
        · rw [hnot hmem]
          exact hready
        · intro hreveal
          exact hroom hreveal executed hexecuted hmem
    · rw [invoke_enrolment_of_other hother]
      have hne : call.invocation cfg provider ≠ inv := by
        rintro rfl
        refine hother ⟨rfl, rfl, ?_, call.input, rfl⟩
        change collateralTierOf cfg.collateral = some tier
        rw [hcollateral]
        exact collateralTierOf_pow tier
      constructor
      · intro hmem
        exact hnot fun hmem' => hmem (List.mem_append_left _ hmem')
      · intro hmem
        rcases List.mem_append.1 hmem with hmem | hmem
        · exact hyes hmem
        · exact absurd (List.mem_singleton.1 hmem) hne

end

/-! ## Runs -/

/-- The invocations execute the chain: each call at least once, in its target
tick, and no other call of the provider at the tier in the ticks of the stream. -/
structure ExecutesChain (cfg : Config) (stream : Fin 3) (provider : Digest) (tier : Fin 10)
    (chain : List SignedCall) (invocations : Nat → List Invocation) : Prop where
  executed : ∀ call ∈ chain, call.invocation cfg provider ∈ invocations call.targetTick
  only : ∀ tick, ∀ inv ∈ invocations tick, IsCallOf stream provider tier tick inv →
    ∃ call ∈ chain, call.targetTick = tick ∧ inv = call.invocation cfg provider

section
variable {qpi : Qpi} {stream : Fin 3} {provider : Digest} {tier : Fin 10}
  {chain front back : List SignedCall} {invocations : Nat → List Invocation} {tick : Nat}
  {s : StateData}

/-- The chain is executed up to a tick: which calls lie below it, and what they left. -/
structure ExecutedUpTo (cfg : Config) (stream : Fin 3) (provider : Digest) (tier : Fin 10)
    (front back : List SignedCall) (tick : Nat) (s : StateData) : Prop where
  below : ∀ call ∈ front, call.targetTick < tick
  above : ∀ call ∈ back, tick ≤ call.targetTick
  after : After cfg front (s.enrolment stream provider tier)

variable (hsound : SoundChain cfg stream chain)
  (hexecutes : ExecutesChain cfg stream provider tier chain invocations)
  (hsplit : chain = front ++ back) (h : ExecutedUpTo cfg stream provider tier front back tick s)
include hsound hexecutes hsplit h

/-- Between its targets the provider is left alone. -/
theorem ExecutedUpTo.idle (qpi : Qpi) (habove : ∀ call ∈ back, tick < call.targetTick)
    (hbound : ∃ call ∈ chain, tick < call.targetTick + streamCount) :
    ExecutedUpTo cfg stream provider tier front back (tick + 1)
        (endTick tick (invokeAll qpi tick (invocations tick) s)).1 ∧
      (streamOf tick = stream →
        BurnsNothingOf provider tier (endTick tick (invokeAll qpi tick (invocations tick) s)).2) := by
  have hothers : ∀ inv ∈ invocations tick, ¬ IsCallOf stream provider tier tick inv := by
    intro inv hinv hcall
    obtain ⟨call, hmem, htarget, -⟩ := hexecutes.only tick inv hinv hcall
    rw [hsplit] at hmem
    rcases List.mem_append.1 hmem with hmem | hmem
    · have hlt := h.below call hmem
      omega
    · have hlt := habove call hmem
      omega
  have hsame := @invokeAll_enrolment_of_other qpi _ _ _ _ s _ hothers
  have hafter := h.after
  rw [← hsame] at hafter
  have hbelow : ∀ call ∈ front, call.targetTick < tick + 1 :=
    fun call hmem => (h.below call hmem).trans (Nat.lt_succ_self tick)
  by_cases hstream : streamOf tick = stream
  · -- a tick of the stream without a target: the provider is not enrolled
    have hnone : (invokeAll qpi tick (invocations tick) s).enrolment (streamOf tick) provider tier =
        [] := by
      rw [hstream]
      unfold After at hafter
      split at hafter
      · exact hafter
      · rename_i k hk
        split at hafter
        · exact hafter
        · exfalso
          obtain ⟨front, rfl⟩ := List.getLast?_eq_some_iff.1 hk
          rw [List.append_assoc, List.singleton_append] at hsplit
          exact hsound.off_stream hsplit (h.below k (by simp)) habove hbound hstream
    obtain ⟨hend, hburns⟩ := endTick_not_enrolled hnone
    refine ⟨⟨hbelow, habove, ?_⟩, fun _ => hburns⟩
    rw [← hstream, hend]
    rwa [← hstream, hnone] at hafter
  · refine ⟨⟨hbelow, habove, ?_⟩, fun hyes => absurd hyes hstream⟩
    rw [endTick_enrolment_of_other hstream]
    exact hafter

/-- In the target tick of a call nobody else calls for the provider. -/
theorem ExecutedUpTo.others {call : SignedCall} {rest : List SignedCall}
    (hback : back = call :: rest) (htarget : call.targetTick = tick) :
    ∀ inv ∈ invocations tick, inv = call.invocation cfg provider ∨
      ¬ IsCallOf (streamOf tick) provider tier tick inv := by
  intro inv hinv
  by_cases hcall : IsCallOf (streamOf tick) provider tier tick inv
  · left
    have hstream : streamOf tick = stream := by
      rw [← htarget]
      exact hsound.stream call (by rw [hsplit, hback]; simp)
    obtain ⟨other, hmem, hother, rfl⟩ := hexecutes.only tick inv hinv (hstream ▸ hcall)
    rw [hsplit, hback, List.mem_append, List.mem_cons] at hmem
    rcases hmem with hmem | rfl | hmem
    · have hlt := h.below other hmem
      omega
    · rfl
    · have hle := hsound.target_le (by rw [hsplit, hback]) hmem
      simp only [streamCount] at hle
      omega
  · exact .inr hcall

/-- In its target tick a call is executed, and the end of the tick takes nothing
from the provider. -/
theorem ExecutedUpTo.call {call : SignedCall} {rest : List SignedCall}
    (hback : back = call :: rest) (htarget : call.targetTick = tick)
    (hcollateral : cfg.collateral = 10 ^ tier.val) (huser : qpi.isContractId provider = false)
    (hk12 : ∀ preimage, qpi.k12 preimage = cfg.commitDigest preimage)
    (hroom : call.input.reveal = Preimage.zero → ∀ earlier,
      earlier ++ [call.invocation cfg provider] <+: invocations tick →
        call.invocation cfg provider ∉ earlier →
          ((invokeAll qpi tick earlier s).streams stream).length < streamCapacity) :
    ExecutedUpTo cfg stream provider tier (front ++ [call]) rest (tick + 1)
        (endTick tick (invokeAll qpi tick (invocations tick) s)).1 ∧
      BurnsNothingOf provider tier (endTick tick (invokeAll qpi tick (invocations tick) s)).2 := by
  have hothers := h.others hsound hexecutes hsplit hback htarget
  subst htarget hback
  have hmem : call ∈ chain := by simp [hsplit]
  have hstream := hsound.stream call hmem
  have hready := hsound.ready hsplit hk12 h.after
  subst hstream
  obtain ⟨p, hone, hp⟩ := (invokeAll_call hcollateral huser hothers hready hroom
    List.prefix_rfl).2 (hexecutes.executed call hmem)
  obtain ⟨hend, hburns⟩ := endTick_called hone hp.called
  refine ⟨⟨?_, ?_, ?_⟩, hburns⟩
  · intro k hk
    rcases List.mem_append.1 hk with hk | hk
    · exact (h.below k hk).trans (Nat.lt_succ_self _)
    · rw [List.mem_singleton.1 hk]
      exact Nat.lt_succ_self _
  · intro later hlater
    have hle := hsound.target_le hsplit hlater
    simp only [streamCount] at hle
    omega
  · unfold After
    rw [List.getLast?_concat]
    dsimp only
    rcases hend with ⟨hzero, hnone⟩ | ⟨hnonzero, p', hone', hsettled⟩
    · rw [hp.commit] at hzero
      rw [if_pos hzero]
      exact hnone
    · rw [hp.commit] at hnonzero
      rw [if_neg hnonzero]
      refine ⟨p', hone', ?_, hsettled.reveal, hsettled.flag, ?_, ?_⟩
      · rw [hsettled.commit, hp.commit]
      · rw [hsettled.locked, hp.locked, if_neg hnonzero]
      · rw [hsettled.update, hp.update]

end

/-- A run of the contract from the tick `start` that executes a chain of a
provider which was not enrolled, while its stream has room for the first commit. -/
structure ExecutingRun (cfg : Config) (qpi : Qpi) (stream : Fin 3) (provider : Digest)
    (tier : Fin 10) (chain : List SignedCall) (start : Nat) (invocations : Nat → List Invocation)
    (s₀ : StateData) : Prop where
  collateral : cfg.collateral = 10 ^ tier.val
  k12 : ∀ preimage, qpi.k12 preimage = cfg.commitDigest preimage
  user : qpi.isContractId provider = false
  executes : ExecutesChain cfg stream provider tier chain invocations
  start_le : ∀ call ∈ chain, start ≤ call.targetTick
  notEnrolled : s₀.enrolment stream provider tier = []
  room : ∀ first ∈ chain.head?, ∀ earlier,
    earlier ++ [first.invocation cfg provider] <+: invocations first.targetTick →
      first.invocation cfg provider ∉ earlier →
        ((invokeAll qpi first.targetTick earlier
          (stateBefore qpi start invocations s₀ (first.targetTick - start))).streams
            stream).length < streamCapacity

section
variable {qpi : Qpi} {stream : Fin 3} {provider : Digest} {tier : Fin 10}
  {chain front back : List SignedCall} {invocations : Nat → List Invocation} {start n : Nat}
  {s₀ : StateData} (hsound : SoundChain cfg stream chain)
  (hrun : ExecutingRun cfg qpi stream provider tier chain start invocations s₀)
include hsound hrun

theorem ExecutingRun.room_at {call : SignedCall} {rest : List SignedCall}
    (hsplit : chain = front ++ call :: rest) (htarget : call.targetTick = start + n)
    (hreveal : call.input.reveal = Preimage.zero) :
    ∀ earlier, earlier ++ [call.invocation cfg provider] <+: invocations (start + n) →
      call.invocation cfg provider ∉ earlier →
        ((invokeAll qpi (start + n) earlier (stateBefore qpi start invocations s₀ n)).streams
          stream).length < streamCapacity := by
  have hfront := hsound.front_eq_nil hsplit hreveal
  have hroom := hrun.room call (by rw [hsplit, hfront]; rfl)
  rwa [htarget, Nat.add_sub_cancel_left] at hroom

/-- One more tick of the run. -/
theorem ExecutingRun.step (hsplit : chain = front ++ back)
    (h : ExecutedUpTo cfg stream provider tier front back (start + n)
      (stateBefore qpi start invocations s₀ n))
    (hbound : ∃ call ∈ chain, start + n < call.targetTick + streamCount) :
    (∃ front back, chain = front ++ back ∧
      ExecutedUpTo cfg stream provider tier front back (start + (n + 1))
        (stateBefore qpi start invocations s₀ (n + 1))) ∧
    (streamOf (start + n) = stream → BurnsNothingOf provider tier
      (endTick (start + n) (invokeAll qpi (start + n) (invocations (start + n))
        (stateBefore qpi start invocations s₀ n))).2) := by
  by_cases hdue : ∃ call rest, back = call :: rest ∧ call.targetTick = start + n
  · obtain ⟨call, rest, hback, htarget⟩ := hdue
    have hroom := hrun.room_at hsound (hback ▸ hsplit) htarget
    obtain ⟨hnext, hburns⟩ := h.call hsound hrun.executes hsplit hback htarget hrun.collateral
      hrun.user hrun.k12 hroom
    exact ⟨⟨front ++ [call], rest, by rw [hsplit, hback]; simp, hnext⟩, fun _ => hburns⟩
  · have habove : ∀ call ∈ back, start + n < call.targetTick := by
      intro call hmem
      cases back with
      | nil => cases hmem
      | cons first rest =>
        have hne : first.targetTick ≠ start + n := fun heq => hdue ⟨first, rest, rfl, heq⟩
        have hle := h.above first (by simp)
        rcases List.mem_cons.1 hmem with rfl | hmem
        · omega
        · have hlater := hsound.target_le hsplit hmem
          omega
    obtain ⟨hnext, hburns⟩ := h.idle hsound hrun.executes hsplit qpi habove hbound
    exact ⟨⟨front, back, hsplit, hnext⟩, hburns⟩

/-- Up to the period after the last target, the chain is executed as the ticks pass. -/
theorem ExecutingRun.executedUpTo (n : Nat)
    (hbound : ∃ call ∈ chain, start + n ≤ call.targetTick + streamCount) :
    ∃ front back, chain = front ++ back ∧
      ExecutedUpTo cfg stream provider tier front back (start + n)
        (stateBefore qpi start invocations s₀ n) := by
  induction n with
  | zero => exact ⟨[], chain, rfl, by simp, hrun.start_le, hrun.notEnrolled⟩
  | succ n ih =>
    obtain ⟨call, hmem, hle⟩ := hbound
    obtain ⟨front, back, hsplit, h⟩ := ih ⟨call, hmem, by omega⟩
    exact (hrun.step hsound hsplit h ⟨call, hmem, by omega⟩).1

end

section
variable {stream : Fin 3} {provider : Digest} {tier : Fin 10}
  {chain front back : List SignedCall} {s : StateData} {call : SignedCall}
  (hsound : SoundChain cfg stream chain) (hsplit : chain = front ++ back) (hmem : call ∈ chain)
include hsound hsplit hmem

/-- At its target a call is the next one. -/
theorem ExecutedUpTo.next
    (h : ExecutedUpTo cfg stream provider tier front back call.targetTick s) :
    ∃ rest, back = call :: rest := by
  rw [hsplit, List.mem_append] at hmem
  rcases hmem with hmem | hmem
  · exact absurd (h.below call hmem) (lt_irrefl _)
  · obtain ⟨between, rest, rfl⟩ := List.append_of_mem hmem
    cases between with
    | nil => exact ⟨rest, rfl⟩
    | cons first between =>
      have hle := h.above first (by simp)
      have hlater : call ∈ between ++ call :: rest := by simp
      have hle' := hsound.target_le hsplit hlater
      simp only [streamCount] at hle'
      omega

/-- In the period after its target a call is the last one executed. -/
theorem ExecutedUpTo.last {tick : Nat}
    (h : ExecutedUpTo cfg stream provider tier front back tick s)
    (hlt : call.targetTick < tick) (hle : tick ≤ call.targetTick + streamCount) :
    front.getLast? = some call := by
  have hchain := hsplit
  rw [hsplit, List.mem_append] at hmem
  rcases hmem with hmem | hmem
  · obtain ⟨before, after, rfl⟩ := List.append_of_mem hmem
    cases after with
    | nil => simp
    | cons later after =>
      have hbelow := h.below later (by simp)
      rw [List.append_assoc] at hchain
      have hlater : later ∈ later :: after ++ back := by simp
      have hle' := hsound.target_le hchain hlater
      omega
  · have habove := h.above call hmem
    omega

end

section
variable {qpi : Qpi} {stream : Fin 3} {provider : Digest} {tier : Fin 10}
  {chain : List SignedCall} {invocations : Nat → List Invocation} {start : Nat} {s₀ : StateData}
  {call : SignedCall} {tick : Nat} (hsound : SoundChain cfg stream chain)
  (hrun : ExecutingRun cfg qpi stream provider tier chain start invocations s₀)
include hsound hrun

/-- The first copy of a call is accepted, the further ones are refused. -/
theorem ExecutingRun.copies (hmem : call ∈ chain) {earlier : List Invocation}
    (hearlier : earlier ++ [call.invocation cfg provider] <+: invocations call.targetTick) :
    let s := invokeAll qpi call.targetTick earlier
      (stateBefore qpi start invocations s₀ (call.targetTick - start))
    let r := invoke qpi call.targetTick (call.invocation cfg provider) s
    (call.invocation cfg provider ∉ earlier →
      ∃ p, r.1.enrolment stream provider tier = [p] ∧ AcceptedFor cfg call p) ∧
    (call.invocation cfg provider ∈ earlier → r = (s, [.transfer provider cfg.collateral])) := by
  intro s r
  obtain rfl := hsound.stream call hmem
  have hstart : start + (call.targetTick - start) = call.targetTick :=
    Nat.add_sub_cancel' (hrun.start_le call hmem)
  obtain ⟨front, back, hsplit, h⟩ := hrun.executedUpTo hsound (call.targetTick - start)
    ⟨call, hmem, by omega⟩
  rw [hstart] at h
  obtain ⟨rest, rfl⟩ := h.next hsound hsplit hmem
  have hroom := hrun.room_at hsound hsplit hstart.symm
  rw [hstart] at hroom
  have hready := hsound.ready hsplit hrun.k12 h.after
  obtain ⟨hnot, hyes⟩ := invokeAll_call hrun.collateral hrun.user
    (h.others hsound hrun.executes hsplit rfl rfl) hready hroom
    ((List.prefix_append earlier _).trans hearlier)
  constructor
  · intro hfirst
    apply invoke_ready hrun.collateral hrun.user
    · rw [hnot hfirst]
      exact hready
    · intro hreveal
      exact hroom hreveal earlier hearlier hfirst
  · intro hfurther
    obtain ⟨p, hone, hp⟩ := hyes hfurther
    exact invoke_accepted hrun.collateral hrun.user hone hp.called

/-- No end of a tick of the stream takes anything from the provider. -/
theorem ExecutingRun.burns (hle : start ≤ tick) (hstream : streamOf tick = stream)
    (hbound : ∃ call ∈ chain, tick < call.targetTick + streamCount) :
    BurnsNothingOf provider tier (endTick tick (invokeAll qpi tick (invocations tick)
      (stateBefore qpi start invocations s₀ (tick - start)))).2 := by
  have hstart : start + (tick - start) = tick := Nat.add_sub_cancel' hle
  obtain ⟨call, hmem, hlt⟩ := hbound
  obtain ⟨front, back, hsplit, h⟩ := hrun.executedUpTo hsound (tick - start)
    ⟨call, hmem, by omega⟩
  have hburns := (hrun.step hsound hsplit h ⟨call, hmem, by omega⟩).2
  rw [hstart] at hburns
  exact hburns hstream

/-- Until the next target the enrolment is what the call left. -/
theorem ExecutingRun.enrolled (hmem : call ∈ chain) (hle : call.targetTick ≤ tick)
    (hlt : tick < call.targetTick + streamCount) :
    After cfg [call] ((stateBefore qpi start invocations s₀ (tick + 1 - start)).enrolment stream
      provider tier) := by
  have hstart := hrun.start_le call hmem
  have hnext : start + (tick + 1 - start) = tick + 1 := by omega
  obtain ⟨front, back, hsplit, h⟩ := hrun.executedUpTo hsound (tick + 1 - start)
    ⟨call, hmem, by omega⟩
  rw [hnext] at h
  have hlast := h.last hsound hsplit hmem (by omega) (by omega)
  have hafter := h.after
  unfold After at hafter ⊢
  rwa [hlast] at hafter

end

/-- The contract accepts a signed chain: it accepts the first copy of every call
and refuses the further ones without a change, takes nothing from the provider,
and keeps it enrolled until it executed the call that closes the chain. -/
theorem chain_accepted_by_contract (i : Fin 3) (ops : List SlotOp) (qpi : Qpi) (provider : Digest)
    (tier : Fin 10) (start : Nat) (invocations : Nat → List Invocation) (s₀ : StateData)
    (hnonzero : ∀ call ∈ currentChain ((slotMachine cfg).trace (slot₀ cfg i) ops), ∀ preimage,
      call.preimage = some preimage →
        preimage ≠ Preimage.zero ∧ cfg.commitDigest preimage ≠ Digest.zero)
    (hrun : ExecutingRun cfg qpi i provider tier
      (currentChain ((slotMachine cfg).trace (slot₀ cfg i) ops)) start invocations s₀) :
    let chain := currentChain ((slotMachine cfg).trace (slot₀ cfg i) ops)
    let before tick := stateBefore qpi start invocations s₀ (tick - start)
    (∀ call ∈ chain, ∀ earlier,
      earlier ++ [call.invocation cfg provider] <+: invocations call.targetTick →
        let s := invokeAll qpi call.targetTick earlier (before call.targetTick)
        let r := invoke qpi call.targetTick (call.invocation cfg provider) s
        (call.invocation cfg provider ∉ earlier →
          ∃ p, r.1.enrolment i provider tier = [p] ∧ AcceptedFor cfg call p) ∧
        (call.invocation cfg provider ∈ earlier →
          r = (s, [.transfer provider cfg.collateral]))) ∧
    (∀ tick, start ≤ tick → streamOf tick = i →
      (∃ call ∈ chain, tick < call.targetTick + streamCount) →
        BurnsNothingOf provider tier
          (endTick tick (invokeAll qpi tick (invocations tick) (before tick))).2) ∧
    ∀ call ∈ chain, ∀ tick, call.targetTick ≤ tick → tick < call.targetTick + streamCount →
      if call.input.commit = Digest.zero then (before (tick + 1)).enrolment i provider tier = []
      else ∃ p, (before (tick + 1)).enrolment i provider tier = [p] ∧ SettledFor cfg call p := by
  intro chain before
  have hsound : SoundChain cfg i chain := soundChain i ops hnonzero
  refine ⟨?_, ?_, ?_⟩
  · intro call hmem earlier hearlier
    exact hrun.copies hsound hmem hearlier
  · intro tick hle hstream hbound
    exact hrun.burns hsound hle hstream hbound
  · intro call hmem tick hle hlt
    exact hrun.enrolled hsound hmem hle hlt

/-! ## A closed run -/

def sampleProvider : Digest := List.Vector.replicate 32 1

def sampleQpi : Qpi where
  isContractId _ := false
  k12 := sampleConfig.commitDigest

/-- The contract before anybody enrolled. -/
def emptyContract : StateData where
  earnedAmount := 0
  burnedAmount := 0
  bitFee := 100
  streams _ := []
  entropy _ := Preimage.zero

/-- A first commit of somebody else. -/
def otherCommit : Invocation where
  invocator := List.Vector.replicate 32 2
  invocationReward := 10
  procedure := .revealAndCommit
    { reveal := Preimage.zero, commit := List.Vector.replicate 32 7 }

/-- Two copies of each call, and before each copy the first commit of somebody else. -/
def doubledCalls (chain : List SignedCall) (tick : Nat) : List Invocation :=
  (chain.filter fun call => call.targetTick = tick).flatMap fun call =>
    [otherCommit, call.invocation sampleConfig sampleProvider,
      otherCommit, call.invocation sampleConfig sampleProvider]

theorem executes_doubledCalls (chain : List SignedCall) :
    ExecutesChain sampleConfig 1 sampleProvider 1 chain (doubledCalls chain) := by
  constructor
  · intro call hmem
    exact List.mem_flatMap.2 ⟨call, List.mem_filter.2 ⟨hmem, by simp⟩, by simp⟩
  · intro tick inv hinv hcall
    obtain ⟨call, hmem, hinv⟩ := List.mem_flatMap.1 hinv
    obtain ⟨hmem, htarget⟩ := List.mem_filter.1 hmem
    have hother : inv ≠ otherCommit := by
      rintro rfl
      exact absurd hcall.2.1 (by decide)
    refine ⟨call, hmem, by simpa using htarget, ?_⟩
    simpa [hother] using hinv

/-- The chain of five cycles and a shutdown. -/
def drainedChain : List SignedCall :=
  currentChain ((slotMachine sampleConfig).trace (slot₀ sampleConfig 1)
    (history sampleConfig sampleEngine
      (steadyRun [0, 1, 2, 3, 4] ++ [.shutdown fun _ => sampleEnv]) 1))

/-- The provider is enrolled by its reveal at tick 10, loses nothing while the
other one is evicted, and leaves at tick 13. -/
theorem chain_accepted_by_contract_drained :
    let before := stateBefore sampleQpi 0 (doubledCalls drainedChain) emptyContract
    (∃ p, (before 11).enrolment 1 sampleProvider 1 = [p] ∧ p.lastUpdateTick = 10) ∧
      BurnsNothingOf sampleProvider 1
        (endTick 10 (invokeAll sampleQpi 10 (doubledCalls drainedChain 10) (before 10))).2 ∧
      (before 14).enrolment 1 sampleProvider 1 = [] := by
  have hnonzero : ∀ call ∈ drainedChain, ∀ preimage ∈ call.preimage,
      preimage ≠ Preimage.zero ∧ sampleConfig.commitDigest preimage ≠ Digest.zero := by
    have hall : drainedChain.all (fun call => call.preimage.all fun preimage =>
        preimage ≠ Preimage.zero ∧ sampleConfig.commitDigest preimage ≠ Digest.zero) = true := by
      decide +kernel
    intro call hcall preimage hpreimage
    have hone := List.all_eq_true.1 hall call hcall
    rw [Option.mem_def.1 hpreimage, Option.all_some, decide_eq_true_iff] at hone
    exact hone
  have hroom : ∀ first ∈ drainedChain.head?, ∀ l ∈ (doubledCalls drainedChain first.targetTick).inits,
      ((invokeAll sampleQpi first.targetTick l.dropLast (stateBefore sampleQpi 0
        (doubledCalls drainedChain) emptyContract (first.targetTick - 0))).streams 1).length <
          streamCapacity := by
    decide +kernel
  have hrun : ExecutingRun sampleConfig sampleQpi 1 sampleProvider 1 drainedChain 0
      (doubledCalls drainedChain) emptyContract := by
    refine ⟨rfl, fun _ => rfl, rfl, executes_doubledCalls _, fun _ _ => Nat.zero_le _, rfl, ?_⟩
    intro first hfirst earlier hearlier _
    have hlength := hroom first hfirst _ ((List.mem_inits _ _).2 hearlier)
    rwa [List.dropLast_concat] at hlength
  obtain ⟨-, hburns, henrolled⟩ := chain_accepted_by_contract 1 _ sampleQpi sampleProvider 1 0
    (doubledCalls drainedChain) emptyContract hnonzero hrun
  obtain ⟨call, hcall, htarget, hcommit⟩ : ∃ call ∈ drainedChain, call.targetTick = 10 ∧
      call.input.commit ≠ Digest.zero := by
    decide +kernel
  obtain ⟨terminal, hterminal, htarget', hcommit'⟩ : ∃ call ∈ drainedChain, call.targetTick = 13 ∧
      call.input.commit = Digest.zero := by
    decide +kernel
  refine ⟨?_, ?_, ?_⟩
  · have hsettled := henrolled call hcall 10 (by omega) (by simp only [streamCount]; omega)
    rw [if_neg hcommit] at hsettled
    obtain ⟨p, hone, hp⟩ := hsettled
    exact ⟨p, hone, hp.update.trans htarget⟩
  · exact hburns 10 (by omega) rfl ⟨call, hcall, by simp only [streamCount]; omega⟩
  · have hleft := henrolled terminal hterminal 13 (by omega) (by simp only [streamCount]; omega)
    rwa [if_pos hcommit'] at hleft

end RandomClient
