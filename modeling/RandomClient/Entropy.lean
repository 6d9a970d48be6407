import RandomClient.Commitments

/-!
# The entropy the contract sells

The entropy of a tier is the exclusive or of the preimages that the accepted
calls of the last tick of its stream revealed, unless a provider of the tier was
a no-show. `BuyEntropy` sells what the tick before left (`sold_entropy`).
-/

namespace RandomClient.Contract

/-! ## Exclusive or -/

theorem mixIn_right_comm (entropy reveal reveal' : Preimage) :
    mixIn (mixIn entropy reveal) reveal' = mixIn (mixIn entropy reveal') reveal := by
  unfold mixIn
  apply List.Vector.ext
  intro i
  rw [List.Vector.get_map₂, List.Vector.get_map₂, List.Vector.get_map₂, List.Vector.get_map₂,
    UInt8.xor_assoc, UInt8.xor_assoc, UInt8.xor_comm (reveal.get i)]

instance : RightCommutative mixIn := ⟨mixIn_right_comm⟩

/-- The exclusive or of preimages. -/
def mixAll (reveals : List Preimage) : Preimage := reveals.foldl mixIn Preimage.zero

/-- The preimages revealed at a tier. -/
def revealsAt (calls : List AcceptedCall) (tier : Nat) : List Preimage :=
  (calls.filter fun c => c.collateralTier.val = tier ∧ c.input.reveal ≠ Preimage.zero).map
    fun c => c.input.reveal

theorem mixAll_perm {reveals reveals' : List Preimage} (h : reveals.Perm reveals') :
    mixAll reveals = mixAll reveals' := h.foldl_eq _

variable {qpi : Qpi} {tick : Nat} {s s' : StateData} {calls : List AcceptedCall}

/-! ## The walk of a tick with a reveal -/

section

variable {stream : Fin 3} {tier : Nat} {p : Provider} {w : EndTick}

@[simp] theorem EndTick.mix_collateralTierFlags (stream : Fin 3) (p : Provider) (w : EndTick) :
    (w.mix stream p).collateralTierFlags = w.collateralTierFlags := by
  unfold EndTick.mix
  dsimp only
  split <;> rfl

/-- A no-show spoils its tier, and a spoiled tier stays spoiled. -/
theorem visitRevealing_testBit (stream : Fin 3) (p : Provider) (w : EndTick) (tier : Nat) :
    (visitRevealing stream p w).1.collateralTierFlags.testBit tier =
      (w.collateralTierFlags.testBit tier ||
        (!p.revealOrCommitFlag && decide (p.collateralTier.val = tier))) := by
  unfold visitRevealing
  cases hflag : p.revealOrCommitFlag with
  | true =>
    rw [if_pos rfl, EndTick.mix_collateralTierFlags, Bool.not_true, Bool.false_and, Bool.or_false]
  | false =>
    simp only [Bool.false_eq_true, if_false, Nat.testBit_or, Nat.one_shiftLeft,
      Nat.testBit_two_pow, Bool.not_false, Bool.true_and]

/-- A visit at an unspoiled tier mixes in what the entry revealed. -/
theorem visitRevealing_entropy (hflag : p.collateralTier.val = tier → p.revealOrCommitFlag = true)
    (hclean : w.collateralTierFlags.testBit tier = false) :
    (visitRevealing stream p w).1.entropy (stream.val * 10 + tier) =
      if p.collateralTier.val = tier ∧ p.revealedThisTickFlag = true then
        mixIn (w.entropy (stream.val * 10 + tier)) p.reveal
      else w.entropy (stream.val * 10 + tier) := by
  unfold visitRevealing
  by_cases htier : p.collateralTier.val = tier
  · subst htier
    rw [if_pos (hflag rfl)]
    unfold EndTick.mix
    cases hrevealed : p.revealedThisTickFlag with
    | true => simp [hclean]
    | false => simp
  · have hindex : stream.val * 10 + tier ≠ stream.val * 10 + p.collateralTier.val := by omega
    have hnot : ¬ (p.collateralTier.val = tier ∧ p.revealedThisTickFlag = true) :=
      fun h => htier h.1
    rw [if_neg hnot]
    split
    · unfold EndTick.mix
      dsimp only
      split
      · exact Function.update_of_ne hindex _ _
      · rfl
    · rfl

theorem sweep_testBit (stream : Fin 3) (tier : Nat) (providers : List Provider) (w : EndTick) :
    (SwapDelete.sweep (visitRevealing stream) providers w).1.collateralTierFlags.testBit tier =
      (w.collateralTierFlags.testBit tier || providers.any fun p =>
        !p.revealOrCommitFlag && decide (p.collateralTier.val = tier)) := by
  induction providers generalizing w with
  | nil => exact (Bool.or_false _).symm
  | cons p rest ih =>
    show (SwapDelete.sweep _ rest (visitRevealing stream p w).1).1.collateralTierFlags.testBit _ = _
    rw [ih, visitRevealing_testBit, List.any_cons, Bool.or_assoc]

/-- Without a no-show at the tier the walk mixes in all that was revealed at it. -/
theorem sweep_entropy {providers : List Provider}
    (hflag : ∀ p ∈ providers, p.collateralTier.val = tier → p.revealOrCommitFlag = true)
    (hclean : w.collateralTierFlags.testBit tier = false) :
    (SwapDelete.sweep (visitRevealing stream) providers w).1.entropy (stream.val * 10 + tier) =
      ((providers.filter fun p => p.collateralTier.val = tier ∧ p.revealedThisTickFlag = true).map
        Provider.reveal).foldl mixIn (w.entropy (stream.val * 10 + tier)) := by
  induction providers generalizing w with
  | nil => rfl
  | cons p rest ih =>
    have hstep := @visitRevealing_entropy stream tier p w (hflag p (by simp)) hclean
    have hclean' : (visitRevealing stream p w).1.collateralTierFlags.testBit tier = false := by
      rw [visitRevealing_testBit, hclean, Bool.false_or]
      by_cases htier : p.collateralTier.val = tier
      · rw [hflag p (by simp) htier, Bool.not_true, Bool.false_and]
      · rw [decide_eq_false htier, Bool.and_false]
    show (SwapDelete.sweep _ rest (visitRevealing stream p w).1).1.entropy _ = _
    rw [ih (fun q hq => hflag q (List.mem_cons_of_mem _ hq)) hclean', hstep, List.filter_cons]
    by_cases hmixes : p.collateralTier.val = tier ∧ p.revealedThisTickFlag = true
    · rw [if_pos hmixes, if_pos (decide_eq_true hmixes)]
      rfl
    · rw [if_neg hmixes, if_neg (by simpa using hmixes)]

/-- An entry that called is kept with its contribution noted, unless it leaves. -/
theorem visitRevealing_kept {p' : Provider} (hclean : w.collateralTierFlags.testBit tier = false)
    (htier : p.collateralTier.val = tier) :
    (visitRevealing stream p w).2 = some p' ↔ p.revealOrCommitFlag = true ∧
      p.commit ≠ Digest.zero ∧ p' = p.settled false := by
  subst htier
  unfold visitRevealing
  rw [hclean]
  split
  · rename_i hflag
    dsimp only
    split
    · rename_i hcommit
      simp [hcommit]
    · rename_i hcommit
      simp [hflag, hcommit, eq_comm]
  · rename_i hflag
    simp [hflag]

end

/-! ## The end of the tick -/

/-- The state of the walk of a tick with a reveal before its first visit. -/
def EndTick.start (stream : Fin 3) (s : StateData) : EndTick where
  payments := []
  burnedAmount := s.burnedAmount
  entropy := resetEntropy stream (fun _ => true) s.entropy
  collateralTierFlags := 0

/-- What the end of a tick with a reveal leaves, read off its walk. -/
theorem endTick_revealing (h : (s.cleared (streamOf tick)).any (·.revealedThisTickFlag) = true) :
    let r := SwapDelete.walk (visitRevealing (streamOf tick)) (s.cleared (streamOf tick)).length
      (EndTick.start (streamOf tick) s) (s.cleared (streamOf tick))
    (endTick tick s).1.streams (streamOf tick) = r.2 ∧
      (endTick tick s).1.entropy =
        resetEntropy (streamOf tick) (r.1.collateralTierFlags.testBit ·) r.1.entropy := by
  unfold StateData.cleared at h ⊢
  simp only [endTick, if_pos h, Function.update_self]
  exact ⟨rfl, rfl⟩

/-- A tick without a reveal resets the entropy of its stream. -/
theorem endTick_silent (h : (s.cleared (streamOf tick)).any (·.revealedThisTickFlag) = false) :
    (endTick tick s).1.streams (streamOf tick) = (SwapDelete.walk visitSilent
        (s.cleared (streamOf tick)).length [] (s.cleared (streamOf tick))).2 ∧
      (endTick tick s).1.entropy = resetEntropy (streamOf tick) (fun _ => true) s.entropy := by
  have hnot : ¬ (s.cleared (streamOf tick)).any (·.revealedThisTickFlag) = true := by simp [h]
  unfold StateData.cleared at hnot ⊢
  simp only [endTick, if_neg hnot, Function.update_self]
  exact ⟨trivial, trivial⟩

theorem resetEntropy_apply {stream : Fin 3} {tier : Nat} (htier : tier < 10) (reset : Nat → Bool)
    (entropy : Nat → Preimage) :
    resetEntropy stream reset entropy (stream.val * 10 + tier) =
      if reset tier then Preimage.zero else entropy (stream.val * 10 + tier) := by
  unfold resetEntropy
  have hrange : stream.val * 10 ≤ stream.val * 10 + tier ∧
      stream.val * 10 + tier < stream.val * 10 + 10 := by omega
  rw [Nat.add_sub_cancel_left]
  simp only [hrange.1, hrange.2, true_and]

/-- No provider of the tier is a no-show. -/
def Undisturbed (calls : List AcceptedCall) (providers : List Provider) (tier : Nat) : Prop :=
  ∀ p ∈ noShows calls providers, p.collateralTier.val ≠ tier

theorem Round.undisturbed_iff (h : Round qpi tick s calls s') (hrest : s.AtRest) {tier : Nat} :
    Undisturbed calls (s.streams (streamOf tick)) tier ↔
      ∀ p ∈ s'.cleared (streamOf tick), p.collateralTier.val = tier → p.revealOrCommitFlag = true := by
  constructor
  · intro hnone p hp htier
    rcases List.mem_map.1 hp with ⟨q, hq, rfl⟩
    by_contra hflag
    have hsilent : q ∈ (s'.streams (streamOf tick)).filter (!·.revealOrCommitFlag) :=
      List.mem_filter.2 ⟨hq, by simpa using hflag⟩
    exact hnone q ((h.silent hrest).subset hsilent) htier
  · intro hcalled p hp htier
    rcases List.mem_filter.1 ((h.silent hrest).symm.subset hp) with ⟨hp, hflag⟩
    have hflag' := hcalled { p with contributedToEntropyFlag := false } (List.mem_map_of_mem hp) htier
    rw [Bool.not_eq_true'] at hflag
    rw [show p.revealOrCommitFlag = true from hflag'] at hflag
    cases hflag

/-- What the entries of a round reveal at a tier is what its calls reveal. -/
theorem Round.reveals_perm (h : Round qpi tick s calls s') (hrest : s.AtRest) (tier : Nat) :
    (((s'.cleared (streamOf tick)).filter fun p => p.collateralTier.val = tier ∧
      p.revealedThisTickFlag = true).map Provider.reveal).Perm (revealsAt calls tier) := by
  have hcallers := h.callers hrest
  have hflags : ∀ p ∈ s'.streams (streamOf tick), p.revealedThisTickFlag =
      (p.revealOrCommitFlag && decide (p.reveal ≠ Preimage.zero)) := by
    intro p hp
    rcases h.entries p hp with ⟨hold, -⟩ | ⟨c, -, hleft⟩
    · have hidle := hrest.idle _ p hold
      rw [hidle.revealedFlag, hidle.flag]
      rfl
    · rw [hleft.revealedFlag, hleft.flag, hleft.reveal]
      rfl
  refine List.Perm.trans ?_ ((hcallers.filter fun c => c.collateralTier.val = tier ∧
    c.input.reveal ≠ Preimage.zero).map fun c => c.input.reveal)
  apply List.Perm.of_eq
  unfold StateData.cleared
  rw [List.filter_map, List.map_map, List.filter_map, List.map_map, List.filter_filter]
  change List.map Provider.reveal _ = List.map Provider.reveal _
  refine congrArg _ (List.filter_congr ?_)
  intro p hp
  show decide (p.collateralTier.val = tier ∧ p.revealedThisTickFlag = true) =
    (decide (p.collateralTier.val = tier ∧ p.reveal ≠ Preimage.zero) && p.revealOrCommitFlag)
  rw [hflags p hp, Bool.decide_and, Bool.decide_and, Bool.decide_eq_true, Bool.and_assoc,
    Bool.and_comm p.revealOrCommitFlag]

/-- The entropy that a tick leaves at a tier of its stream. -/
theorem Round.entropy_settles (h : Round qpi tick s calls s') (hrest : s.AtRest) {tier : Nat}
    (htier : tier < 10) :
    (Undisturbed calls (s.streams (streamOf tick)) tier →
      (endTick tick s').1.entropy ((streamOf tick).val * 10 + tier) =
        mixAll (revealsAt calls tier)) ∧
    (¬ Undisturbed calls (s.streams (streamOf tick)) tier →
      (endTick tick s').1.entropy ((streamOf tick).val * 10 + tier) = Preimage.zero) := by
  rw [h.undisturbed_iff hrest]
  have hreveals := h.reveals_perm hrest tier
  cases hany : (s'.cleared (streamOf tick)).any (·.revealedThisTickFlag) with
  | true =>
    rw [(endTick_revealing hany).2, resetEntropy_apply htier,
      (SwapDelete.walk_sweep _ _ _).1, sweep_testBit]
    have hstart : (EndTick.start (streamOf tick) s').collateralTierFlags.testBit tier = false :=
      Nat.zero_testBit tier
    rw [hstart, Bool.false_or]
    constructor
    · intro hcalled
      have hcalled' : ∀ p ∈ (s'.cleared (streamOf tick)).reverse, p.collateralTier.val = tier →
          p.revealOrCommitFlag = true := fun p hp => hcalled p (List.mem_reverse.1 hp)
      have hnone : ((s'.cleared (streamOf tick)).reverse.any fun p =>
          !p.revealOrCommitFlag && decide (p.collateralTier.val = tier)) = false := by
        rw [List.any_eq_false]
        intro p hp hspoils
        rw [Bool.and_eq_true, decide_eq_true_eq, Bool.not_eq_true'] at hspoils
        rw [hcalled' p hp hspoils.2] at hspoils
        cases hspoils.1
      rw [hnone, if_neg Bool.false_ne_true, sweep_entropy hcalled' hstart]
      have hzero : (EndTick.start (streamOf tick) s').entropy ((streamOf tick).val * 10 + tier) =
          Preimage.zero := by
        show resetEntropy _ (fun _ => true) s'.entropy _ = _
        rw [resetEntropy_apply htier, if_pos rfl]
      rw [hzero]
      refine mixAll_perm (List.Perm.trans ?_ hreveals)
      exact ((List.reverse_perm _).filter _).map _
    · intro hnot
      rw [if_pos]
      push Not at hnot
      rcases hnot with ⟨p, hp, htierp, hflag⟩
      rw [List.any_eq_true]
      exact ⟨p, List.mem_reverse.2 hp, by simp [htierp, hflag]⟩
  | false =>
    rw [(endTick_silent hany).2, resetEntropy_apply htier, if_pos rfl]
    refine ⟨fun _ => ?_, fun _ => rfl⟩
    -- nobody revealed, so there is nothing to mix
    have hnothing : (s'.cleared (streamOf tick)).filter (fun p => p.collateralTier.val = tier ∧
        p.revealedThisTickFlag = true) = [] := by
      rw [List.filter_eq_nil_iff]
      intro p hp hmixes
      exact List.any_eq_false.1 hany p hp (of_decide_eq_true hmixes).2
    rw [hnothing, List.map_nil] at hreveals
    rw [hreveals.nil_eq.symm]
    rfl

/-- At an undisturbed tier the contributors kept are the providers that revealed and stay. -/
theorem Round.contributed_iff (h : Round qpi tick s calls s') (hrest : s.AtRest) {tier : Nat}
    (hundisturbed : Undisturbed calls (s.streams (streamOf tick)) tier) (trustee : Digest) :
    (∃ p ∈ (endTick tick s').1.streams (streamOf tick), p.provider = trustee ∧
        p.collateralTier.val = tier ∧ p.contributedToEntropyFlag = true) ↔
      ∃ c ∈ calls, c.provider = trustee ∧ c.collateralTier.val = tier ∧
        c.input.reveal ≠ Preimage.zero ∧ c.input.commit ≠ Digest.zero := by
  have hcalled := (h.undisturbed_iff hrest).1 hundisturbed
  have hforgotten : ∀ p ∈ s'.cleared (streamOf tick), p.contributedToEntropyFlag = false := by
    intro p hp
    rcases List.mem_map.1 hp with ⟨q, -, rfl⟩
    rfl
  cases hany : (s'.cleared (streamOf tick)).any (·.revealedThisTickFlag) with
  | true =>
    -- nobody spoils the tier, so its flag stays clear along the walk
    have hkeeps : ∀ p ∈ s'.cleared (streamOf tick), ∀ w : EndTick,
        w.collateralTierFlags.testBit tier = false →
          (visitRevealing (streamOf tick) p w).1.collateralTierFlags.testBit tier = false := by
      intro p hp w hw
      rw [visitRevealing_testBit, hw, Bool.false_or]
      by_cases htier : p.collateralTier.val = tier
      · rw [hcalled p hp htier, Bool.not_true, Bool.false_and]
      · rw [decide_eq_false htier, Bool.and_false]
    have hstart : (EndTick.start (streamOf tick) s').collateralTierFlags.testBit tier = false :=
      Nat.zero_testBit tier
    rw [(endTick_revealing hany).1]
    constructor
    · rintro ⟨p', hp', hprovider, htier, hcontributed⟩
      rcases SwapDelete.walk_kept_of _ hkeeps hstart hp' with ⟨p, hp, w, hw, hvisit⟩
      have hown := @visitRevealing_isOwn p'.provider p'.collateralTier (streamOf tick) p w p' hvisit
      rw [isOwn_iff.2 ⟨rfl, rfl⟩, eq_comm, isOwn_iff] at hown
      have htierp : p.collateralTier.val = tier := by rw [hown.2, htier]
      rcases (visitRevealing_kept hw htierp).1 hvisit with ⟨hflag, hcommit, rfl⟩
      rcases h.cleared hrest p hp with hidle | ⟨c, hc, hleft⟩
      · rw [hidle.flag] at hflag
        cases hflag
      · refine ⟨c, hc, hleft.of.1.trans hprovider, by rw [hleft.of.2, htierp], ?_, ?_⟩
        · have hrevealed : (p.contributedToEntropyFlag || (p.revealedThisTickFlag && !false)) =
            true := hcontributed
          rw [hforgotten p hp, Bool.false_or, Bool.not_false, Bool.and_true,
            hleft.revealedFlag] at hrevealed
          exact of_decide_eq_true hrevealed
        · rw [← hleft.commit]
          exact hcommit
    · rintro ⟨c, hc, rfl, rfl, hreveal, hcommit⟩
      rcases h.called c hc with ⟨q, hq, hleft⟩
      -- the entry of the call is visited with a clear flag, and settles as a contributor
      have hmem : { q with contributedToEntropyFlag := false } ∈ s'.cleared (streamOf tick) :=
        List.mem_map_of_mem hq
      have hleft' : c.Left { q with contributedToEntropyFlag := false } :=
        ⟨hleft.of, hleft.flag, hleft.commit, hleft.reveal, hleft.revealedFlag, hleft.locked,
          hleft.commits⟩
      generalize { q with contributedToEntropyFlag := false } = p at hmem hleft'
      rcases SwapDelete.walk_visit _ hkeeps hstart hmem with ⟨w, hw, hkept⟩
      have htier : p.collateralTier.val = c.collateralTier.val := by rw [hleft'.of.2]
      rw [← hleft'.commit] at hcommit
      have hsettled := hkept _ ((visitRevealing_kept hw htier).2 ⟨hleft'.flag, hcommit, rfl⟩)
      refine ⟨_, hsettled, hleft'.of.1.symm, htier, ?_⟩
      show (p.contributedToEntropyFlag || (p.revealedThisTickFlag && !false)) = true
      rw [hleft'.revealedFlag, decide_eq_true hreveal]
      exact Bool.or_true _
  | false =>
    -- nobody revealed, so nobody contributes
    rw [(endTick_silent hany).1]
    constructor
    · rintro ⟨p', hp', -, -, hcontributed⟩
      rcases SwapDelete.walk_kept hp' with ⟨p, hp, payments, hvisit⟩
      unfold visitSilent at hvisit
      split at hvisit
      · cases hvisit
        exact absurd (hforgotten p hp) (by simpa using hcontributed)
      · cases hvisit
    · rintro ⟨c, hc, -, -, hreveal, -⟩
      rw [h.someRevealed hrest] at hany
      exact absurd (decide_eq_true hreveal) (List.any_eq_false.1 hany c hc)

/-! ## Sales -/

section

variable {start : Nat} {invocations : Nat → List Invocation} {n : Nat}

theorem undisturbed_iff_misses {tier : Fin 10} :
    Undisturbed (callsAt qpi start invocations n)
        ((stateBefore qpi start invocations emptyContract n).streams (streamOf (start + n)))
        tier.val ↔
      ∀ provider, ¬ Misses qpi start invocations n provider tier := by
  unfold Undisturbed
  constructor
  · intro hnone provider hmisses
    rcases misses_iff.1 hmisses with ⟨p, hp, -, rfl⟩
    exact hnone p hp rfl
  · intro hnone p hp htier
    exact hnone p.provider (misses_iff.2 ⟨p, hp, rfl, Fin.ext htier⟩)

end

/-- The tick `start + n` leaves entropy at the tier: no provider of the tier missed
its commitment, the preimages revealed at it do not cancel out, and the trustee,
if one is named, revealed one of them and committed again. -/
structure Available (qpi : Qpi) (start : Nat) (invocations : Nat → List Invocation) (n : Nat)
    (tier : Fin 10) (trustee : Digest) : Prop where
  undisturbed : ∀ provider, ¬ Misses qpi start invocations n provider tier
  nonzero : mixAll (revealsAt (callsAt qpi start invocations n) tier.val) ≠ Preimage.zero
  trustee : trustee = Digest.zero ∨ ∃ c ∈ callsAt qpi start invocations n, c.provider = trustee ∧
    c.collateralTier.val = tier.val ∧ c.input.reveal ≠ Preimage.zero ∧ c.input.commit ≠ Digest.zero

/-- `BuyEntropy` in the tick after `start + n`, whatever was executed before it in
its tick: when the price is attached and the tick `start + n` left entropy, it
sells the first bits of the exclusive or of the preimages revealed there. In
every other case it refunds and reveals nothing. -/
theorem sold_entropy (qpi : Qpi) (start : Nat) (invocations : Nat → List Invocation) (n : Nat)
    (hrange : start + n + streamCount < 2 ^ 32) (earlier : List Invocation) (invocator : Digest)
    (invocationReward : Nat) (tier : Fin 10) (numberOfBits : Nat) (trustee : Digest) :
    let s := invokeAll qpi (start + (n + 1)) earlier
      (stateBefore qpi start invocations emptyContract (n + 1))
    let entropy := mixAll (revealsAt (callsAt qpi start invocations n) tier.val)
    let r := buyEntropy (start + (n + 1)) invocator invocationReward tier.val numberOfBits trustee s
    ((1 ≤ numberOfBits ∧ numberOfBits ≤ 4096 ∧ numberOfBits * s.bitFee ≤ invocationReward) ∧
        Available qpi start invocations n tier trustee →
      r.2 = (transferLocked invocator (invocationReward - numberOfBits * s.bitFee),
        fun i => decide (i.val < numberOfBits ∧ bitOf entropy i.val = true))) ∧
    (¬ ((1 ≤ numberOfBits ∧ numberOfBits ≤ 4096 ∧ numberOfBits * s.bitFee ≤ invocationReward) ∧
        Available qpi start invocations n tier trustee) →
      r = (s, [.transfer invocator invocationReward], fun _ => false)) := by
  intro s entropy r
  have hrest := stateBefore_atRest emptyContract_atRest qpi start invocations n
  have hround := hrest.round qpi (start + n) (invocations (start + n))
  have hrest' := stateBefore_atRest emptyContract_atRest qpi start invocations (n + 1)
  have hnext : Round qpi (start + (n + 1)) _ _ s := hrest'.round qpi (start + (n + 1)) earlier
  -- the tick sells from the stream of the tick before
  have hstream : streamOf ((start + (n + 1) + 2) % 2 ^ 32) = streamOf (start + n) := by
    rw [Nat.mod_eq_of_lt (by unfold streamCount at hrange; omega)]
    exact streamOf_add_streamCount (start + n)
  have hentropy : s.entropy ((streamOf (start + n)).val * 10 + tier.val) =
      (stateBefore qpi start invocations emptyContract (n + 1)).entropy
        ((streamOf (start + n)).val * 10 + tier.val) := by rw [hnext.entropy]
  have hentries : s.streams (streamOf (start + n)) =
      (stateBefore qpi start invocations emptyContract (n + 1)).streams (streamOf (start + n)) :=
    hnext.others _ (streamOf_ne (by omega) (by unfold streamCount; omega))
  rcases hround.entropy_settles hrest tier.isLt with ⟨hclean, hspoiled⟩
  have hsells : Sells (start + (n + 1)) invocationReward tier.val numberOfBits trustee s ↔
      (1 ≤ numberOfBits ∧ numberOfBits ≤ 4096 ∧ numberOfBits * s.bitFee ≤ invocationReward) ∧
        Available qpi start invocations n tier trustee := by
    unfold Sells
    rw [hstream, hentropy, hentries]
    by_cases hmisses : ∀ provider, ¬ Misses qpi start invocations n provider tier
    · have hundisturbed := undisturbed_iff_misses.2 hmisses
      have hcontributed := hround.contributed_iff hrest hundisturbed trustee
      change _ ∧ (endTick _ _).1.entropy _ ≠ _ ∧ (_ ∨ ∃ p ∈ (endTick _ _).1.streams _, _) ↔ _
      rw [hclean hundisturbed, hcontributed]
      constructor
      · rintro ⟨⟨-, hargs⟩, hnonzero, htrustee⟩
        exact ⟨hargs, hmisses, hnonzero, htrustee⟩
      · rintro ⟨hargs, -, hnonzero, htrustee⟩
        exact ⟨⟨Nat.le_of_lt_succ tier.isLt, hargs⟩, hnonzero, htrustee⟩
    · have hzero := hspoiled fun hundisturbed => hmisses (undisturbed_iff_misses.1 hundisturbed)
      constructor
      · rintro ⟨-, hnonzero, -⟩
        exact absurd hzero hnonzero
      · rintro ⟨-, havailable⟩
        exact absurd havailable.undisturbed hmisses
  constructor
  · intro hcondition
    have hr := @buyEntropy_of_sells _ _ _ _ invocator _ _ (hsells.2 hcondition)
    have havailable := hcondition.2
    show (buyEntropy _ _ _ _ _ _ _).2 = _
    rw [hr, hstream, hentropy]
    change (_, fun i : Fin 4096 => decide (_ ∧ bitOf ((endTick _ _).1.entropy _) _ = true)) = _
    rw [hclean (undisturbed_iff_misses.2 havailable.undisturbed)]
    rfl
  · intro hcondition
    exact buyEntropy_of_not_sells fun h => hcondition (hsells.1 h)

/-- At tick 14 the preimage that the provider revealed at tick 13 is sold. -/
theorem sold_entropy_drained :
    let s := invokeAll sampleQpi (0 + (13 + 1)) []
      (stateBefore sampleQpi 0 (doubledCalls drainedChain) emptyContract (13 + 1))
    let entropy := mixAll (revealsAt (callsAt sampleQpi 0 (doubledCalls drainedChain) 13) 1)
    entropy ≠ Preimage.zero ∧
      (buyEntropy (0 + (13 + 1)) sampleProvider 1000 1 8 Digest.zero s).2 =
        (transferLocked sampleProvider 200, fun i => decide (i.val < 8 ∧ bitOf entropy i.val = true)) := by
  intro s entropy
  have hundisturbed : Undisturbed (callsAt sampleQpi 0 (doubledCalls drainedChain) 13)
      ((stateBefore sampleQpi 0 (doubledCalls drainedChain) emptyContract 13).streams
        (streamOf (0 + 13))) (1 : Fin 10).val := by
    unfold Undisturbed
    decide +kernel
  have hnonzero : entropy ≠ Preimage.zero := by decide +kernel
  have hfee : s.bitFee = 100 := by decide +kernel
  have hsold := (sold_entropy sampleQpi 0 (doubledCalls drainedChain) 13 (by decide) []
    sampleProvider 1000 1 8 Digest.zero).1
  change (_ ∧ _ ∧ 8 * s.bitFee ≤ 1000) ∧ _ →
    _ = (transferLocked sampleProvider (1000 - 8 * s.bitFee), _) at hsold
  rw [hfee] at hsold
  exact ⟨hnonzero, hsold ⟨by decide, undisturbed_iff_misses.1 hundisturbed, hnonzero, .inl rfl⟩⟩

end RandomClient.Contract
