import RandomClient.Enrollment

/-!
# Rounds of the contract

A tick of the contract executes its invocations and then ends. `CallOutcome`
says what a call can do, and `AtRest` what the entries are between two ticks.
Within a tick an entry of the stream is the one from before the tick, or the
one an accepted call left (`Round`): the later results speak of the accepted
calls and not of the flags.
-/

namespace RandomClient.Contract

/-! ## What an invocation can do -/

/-- What a call leaves and pays: it is refused, answers the commit of an entry
(and leaves when it commits to nothing), or enrols its provider. -/
inductive CallOutcome (qpi : Qpi) (tick : Nat) (invocator : Digest) (invocationReward : Nat)
    (input : RevealAndCommitInput) (s : StateData) : StateData × List Payment → Prop where
  | refused : CallOutcome qpi tick invocator invocationReward input s
      (s, [.transfer invocator invocationReward])
  | answered {tier : Fin 10} {i : Nat} {p : Provider}
      (htier : collateralTierOf invocationReward = some tier)
      (hreveal : input.reveal ≠ Preimage.zero)
      (hverified : verifiedProvider qpi invocator tier input.reveal (s.streams (streamOf tick)) =
        some (i, p)) :
      CallOutcome qpi tick invocator invocationReward input s
        (s.setStream (streamOf tick) ((s.streams (streamOf tick)).set i
            (p.revealed input (if input.commit = Digest.zero then 0 else invocationReward) tick)),
          transferLocked invocator p.lockedCollateralAmount ++
            if input.commit = Digest.zero then [.transfer invocator invocationReward] else [])
  | enrolled {tier : Fin 10} (htier : collateralTierOf invocationReward = some tier)
      (hreveal : input.reveal = Preimage.zero) (hcommit : input.commit ≠ Digest.zero)
      (hnone : findProvider invocator tier (s.streams (streamOf tick)) = none) :
      CallOutcome qpi tick invocator invocationReward input s
        (s.setStream (streamOf tick) (s.streams (streamOf tick) ++
          [.enrolled invocator tier input.commit invocationReward tick]), [])

theorem revealAndCommit_outcome (qpi : Qpi) (tick : Nat) (invocator : Digest)
    (invocationReward : Nat) (input : RevealAndCommitInput) (s : StateData) :
    CallOutcome qpi tick invocator invocationReward input s
      (revealAndCommit qpi tick invocator invocationReward input s) := by
  unfold revealAndCommit
  dsimp only
  split
  · exact .refused
  · split
    · exact .refused
    · rename_i tier htier
      split
      · rename_i hcommit
        split
        · exact .refused
        · rename_i hreveal
          split
          · exact .refused
          · rename_i i p hverified
            have houtcome := CallOutcome.answered htier hreveal hverified
            rwa [if_pos hcommit, if_pos hcommit] at houtcome
      · rename_i hcommit
        split
        · rename_i hreveal
          split
          · exact .refused
          · rename_i i p hverified
            have houtcome := CallOutcome.answered htier hreveal hverified
            rwa [if_neg hcommit, if_neg hcommit, List.append_nil] at houtcome
        · rename_i hreveal
          split
          · exact .refused
          · rename_i hnone
            split
            · exact .refused
            · exact .enrolled htier (not_not.1 hreveal) hcommit hnone

/-- `BuyEntropy` sells: the arguments are in range, the price is attached, there
is entropy and the trustee contributed to it. -/
def Sells (tick invocationReward collateralTier numberOfBits : Nat) (trustee : Digest)
    (s : StateData) : Prop :=
  (collateralTier ≤ 9 ∧ 1 ≤ numberOfBits ∧ numberOfBits ≤ 4096 ∧
      numberOfBits * s.bitFee ≤ invocationReward) ∧
    s.entropy ((streamOf ((tick + 2) % 2 ^ 32)).val * 10 + collateralTier) ≠ Preimage.zero ∧
    (trustee = Digest.zero ∨
      ∃ p ∈ s.streams (streamOf ((tick + 2) % 2 ^ 32)), p.provider = trustee ∧
        p.collateralTier.val = collateralTier ∧ p.contributedToEntropyFlag = true)

instance (tick invocationReward collateralTier numberOfBits : Nat) (trustee : Digest)
    (s : StateData) : Decidable (Sells tick invocationReward collateralTier numberOfBits trustee s) :=
  inferInstanceAs (Decidable (_ ∧ _ ∧ _))

/-- A bit of a preimage, the lowest bit of a byte first. -/
def bitOf (preimage : Preimage) (i : Nat) : Bool :=
  (preimage.toList.getD (i / 8) 0).toNat.testBit (i % 8)

section

variable {tick invocationReward collateralTier numberOfBits : Nat} {invocator trustee : Digest}
  {s : StateData}

theorem buyEntropy_of_sells
    (h : Sells tick invocationReward collateralTier numberOfBits trustee s) :
    buyEntropy tick invocator invocationReward collateralTier numberOfBits trustee s =
      ({ s with earnedAmount := (s.earnedAmount + numberOfBits * s.bitFee) % 2 ^ 64 },
        transferLocked invocator (invocationReward - numberOfBits * s.bitFee),
        fun i => decide (i.val < numberOfBits ∧ bitOf
          (s.entropy ((streamOf ((tick + 2) % 2 ^ 32)).val * 10 + collateralTier)) i.val = true)) := by
  rcases h with ⟨hrange, hentropy, htrustee⟩
  unfold buyEntropy
  dsimp only
  rw [if_pos hrange, if_neg]
  · rfl
  · rintro (hzero | hnot)
    · exact hentropy hzero
    · apply of_decide_eq_false hnot
      rcases htrustee with hzero | ⟨p, hp, hprovider, htier, hcontributed⟩
      · exact .inl hzero
      · exact .inr (List.any_eq_true.2 ⟨p, hp, by simp [hprovider, htier, hcontributed]⟩)

theorem buyEntropy_of_not_sells
    (h : ¬ Sells tick invocationReward collateralTier numberOfBits trustee s) :
    buyEntropy tick invocator invocationReward collateralTier numberOfBits trustee s =
      (s, [.transfer invocator invocationReward], fun _ => false) := by
  unfold buyEntropy
  dsimp only
  split
  · rename_i hrange
    split
    · rfl
    · rename_i hsold
      refine absurd ⟨hrange, fun hzero => hsold (.inl hzero), ?_⟩ h
      have hok := of_decide_eq_true (Bool.eq_true_of_not_eq_false fun hnot => hsold (.inr hnot))
      rcases hok with hzero | hany
      · exact .inl hzero
      · rcases List.any_eq_true.1 hany with ⟨p, hp, hcontributed⟩
        exact .inr ⟨p, hp, of_decide_eq_true hcontributed⟩
  · rfl

end

/-! ## Accepted calls -/

/-- A call that the contract accepted. -/
structure AcceptedCall where
  provider : Digest
  collateralTier : Fin 10
  input : RevealAndCommitInput
deriving DecidableEq

/-- The call an invocation makes, if the contract accepts it: a refused call
leaves the entries as they are. -/
def acceptedCall (qpi : Qpi) (tick : Nat) (inv : Invocation) (s : StateData) :
    Option AcceptedCall :=
  match inv.procedure, collateralTierOf inv.invocationReward with
  | .revealAndCommit input, some tier =>
    if (invoke qpi tick inv s).1.streams (streamOf tick) = s.streams (streamOf tick) then none
    else some { provider := inv.invocator, collateralTier := tier, input := input }
  | _, _ => none

/-- The calls accepted among the invocations of a tick. -/
def acceptedCalls (qpi : Qpi) (tick : Nat) : List Invocation → StateData → List AcceptedCall
  | [], _ => []
  | inv :: rest, s =>
    (acceptedCall qpi tick inv s).toList ++ acceptedCalls qpi tick rest (invoke qpi tick inv s).1

/-- The call concerns the entry. -/
def AcceptedCall.Of (c : AcceptedCall) (p : Provider) : Prop :=
  c.provider = p.provider ∧ c.collateralTier = p.collateralTier

instance (c : AcceptedCall) (p : Provider) : Decidable (c.Of p) := inferInstanceAs (Decidable (_ ∧ _))

/-- The entry is what the accepted call left, until the tick ends. -/
structure AcceptedCall.Left (c : AcceptedCall) (p : Provider) : Prop where
  of : c.Of p
  flag : p.revealOrCommitFlag = true
  commit : p.commit = c.input.commit
  reveal : p.reveal = c.input.reveal
  revealedFlag : p.revealedThisTickFlag = decide (c.input.reveal ≠ Preimage.zero)
  locked : p.lockedCollateralAmount =
    if c.input.commit = Digest.zero then 0 else 10 ^ p.collateralTier.val
  commits : c.input.reveal = Preimage.zero → c.input.commit ≠ Digest.zero

/-- An entry between two ticks: it has committed, waits for its reveal and locks
the collateral of its tier. -/
structure Provider.Idle (p : Provider) : Prop where
  flag : p.revealOrCommitFlag = false
  revealedFlag : p.revealedThisTickFlag = false
  reveal : p.reveal = Preimage.zero
  commit : p.commit ≠ Digest.zero
  locked : p.lockedCollateralAmount = 10 ^ p.collateralTier.val

/-- The state between two ticks. -/
structure StateData.AtRest (s : StateData) : Prop where
  unique : ∀ stream provider tier, (s.enrolment stream provider tier).length ≤ 1
  idle : ∀ stream, ∀ p ∈ s.streams stream, p.Idle

/-- The state `s'` within a tick that began in `s` and has accepted `calls`. -/
structure Round (qpi : Qpi) (tick : Nat) (s : StateData) (calls : List AcceptedCall)
    (s' : StateData) : Prop where
  others : ∀ stream, stream ≠ streamOf tick → s'.streams stream = s.streams stream
  entropy : s'.entropy = s.entropy
  bitFee : s'.bitFee = s.bitFee
  unique : ∀ provider tier, (s'.enrolment (streamOf tick) provider tier).length ≤ 1
  entries : ∀ p ∈ s'.streams (streamOf tick),
    p ∈ s.streams (streamOf tick) ∧ (∀ c ∈ calls, ¬ c.Of p) ∨ ∃ c ∈ calls, c.Left p
  called : ∀ c ∈ calls, ∃ p ∈ s'.streams (streamOf tick), c.Left p
  kept : ∀ p ∈ s.streams (streamOf tick),
    p ∈ s'.streams (streamOf tick) ∨ ∃ c ∈ calls, c.Of p
  once : calls.Pairwise fun c d => ¬ (c.provider = d.provider ∧ c.collateralTier = d.collateralTier)
  reveals : ∀ c ∈ calls, c.input.reveal ≠ Preimage.zero →
    ∃ p ∈ s.streams (streamOf tick), c.Of p ∧ qpi.k12 c.input.reveal = p.commit
  opens : ∀ c ∈ calls, c.input.reveal = Preimage.zero →
    ∀ p ∈ s.streams (streamOf tick), ¬ c.Of p

section

variable {qpi : Qpi} {tick : Nat} {s s' : StateData} {calls : List AcceptedCall}

theorem collateralTierOf_eq {invocationReward : Nat} {tier : Fin 10}
    (h : collateralTierOf invocationReward = some tier) : invocationReward = 10 ^ tier.val := by
  simpa using List.find?_some h

theorem Round.start (h : s.AtRest) (qpi : Qpi) (tick : Nat) : Round qpi tick s [] s where
  others _ _ := rfl
  entropy := rfl
  bitFee := rfl
  unique := h.unique _
  entries _ hp := .inl ⟨hp, by simp⟩
  called _ hc := by cases hc
  kept _ hp := .inl hp
  once := .nil
  reveals _ hc := by cases hc
  opens _ hc := by cases hc

/-- A call that changes no entry keeps the round. -/
theorem Round.of_same (h : Round qpi tick s calls s') {s'' : StateData}
    (hstreams : s''.streams = s'.streams) (hentropy : s''.entropy = s'.entropy)
    (hfee : s''.bitFee = s'.bitFee) : Round qpi tick s calls s'' where
  others stream hne := by rw [hstreams, h.others stream hne]
  entropy := by rw [hentropy, h.entropy]
  bitFee := by rw [hfee, h.bitFee]
  unique := by
    have hunique := h.unique
    unfold StateData.enrolment at hunique ⊢
    rwa [hstreams]
  entries := by rw [hstreams]; exact h.entries
  called := by rw [hstreams]; exact h.called
  kept := by rw [hstreams]; exact h.kept
  once := h.once
  reveals := h.reveals
  opens := h.opens

/-- The other entries of a provider with one entry are none. -/
theorem not_own_of_unique {front back : List Provider} {p : Provider} {provider : Digest}
    {tier : Fin 10} (hown : isOwn provider tier p = true)
    (hunique : ((front ++ p :: back).filter (isOwn provider tier)).length ≤ 1) :
    ∀ q, q ∈ front ∨ q ∈ back → isOwn provider tier q = false := by
  rw [List.filter_append, List.filter_cons_of_pos hown, List.length_append,
    List.length_cons] at hunique
  have hfront : front.filter (isOwn provider tier) = [] := List.eq_nil_of_length_eq_zero (by omega)
  have hback : back.filter (isOwn provider tier) = [] := List.eq_nil_of_length_eq_zero (by omega)
  rintro q (hq | hq)
  · simpa using List.filter_eq_nil_iff.1 hfront q hq
  · simpa using List.filter_eq_nil_iff.1 hback q hq

theorem AcceptedCall.of_iff {c : AcceptedCall} {p : Provider} :
    c.Of p ↔ isOwn c.provider c.collateralTier p = true := by
  rw [isOwn_iff, AcceptedCall.Of, eq_comm, eq_comm (a := c.collateralTier)]

/-- An accepted reveal answers the one entry of its provider. -/
theorem Round.answer (h : Round qpi tick s calls s') {c : AcceptedCall} {p p' : Provider}
    {front back : List Provider} (hsplit : s'.streams (streamOf tick) = front ++ p :: back)
    (hof : c.Of p) (hflag : p.revealOrCommitFlag = false) (hleft : c.Left p')
    (hreveal : c.input.reveal ≠ Preimage.zero) (hcommit : qpi.k12 c.input.reveal = p.commit) :
    Round qpi tick s (calls ++ [c]) (s'.setStream (streamOf tick) (front ++ p' :: back)) := by
  have hself : (s'.setStream (streamOf tick) (front ++ p' :: back)).streams (streamOf tick) =
      front ++ p' :: back := Function.update_self _ _ _
  have hothers : ∀ q, q ∈ front ∨ q ∈ back → ¬ c.Of q := by
    intro q hq hofq
    have hunique := h.unique c.provider c.collateralTier
    rw [StateData.enrolment, hsplit] at hunique
    have hnot := not_own_of_unique (AcceptedCall.of_iff.1 hof) hunique q hq
    rw [AcceptedCall.of_iff.1 hofq] at hnot
    cases hnot
  have hmem : ∀ {q : Provider}, q ∈ front ++ p' :: back → q = p' ∨ q ∈ front ∨ q ∈ back := by
    intro q hq
    simp only [List.mem_append, List.mem_cons] at hq
    tauto
  have hback : ∀ {q : Provider}, q ∈ front ++ p :: back → q = p ∨ q ∈ front ++ p' :: back := by
    intro q hq
    simp only [List.mem_append, List.mem_cons] at hq ⊢
    tauto
  constructor
  · intro stream hne
    exact (Function.update_of_ne hne _ _).trans (h.others stream hne)
  · exact h.entropy
  · exact h.bitFee
  · intro provider tier
    have hunique := h.unique provider tier
    have hown : isOwn provider tier p' = isOwn provider tier p := by
      unfold isOwn
      rw [← hof.1, ← hof.2, ← hleft.of.1, ← hleft.of.2]
    rw [StateData.enrolment, hsplit, List.filter_append, List.filter_cons] at hunique
    rw [StateData.enrolment, hself, List.filter_append, List.filter_cons, hown]
    split at hunique
    · rw [if_pos ‹_›]
      simpa using hunique
    · rw [if_neg ‹_›]
      exact hunique
  · intro q hq
    rw [hself] at hq
    rcases hmem hq with rfl | hq
    · exact .inr ⟨c, by simp, hleft⟩
    · have hold : q ∈ s'.streams (streamOf tick) := by
        rw [hsplit]
        simp only [List.mem_append, List.mem_cons]
        tauto
      rcases h.entries q hold with ⟨hq', hnone⟩ | ⟨d, hd, hleftd⟩
      · left
        refine ⟨hq', ?_⟩
        intro d hd
        rcases List.mem_append.1 hd with hd | hd
        · exact hnone d hd
        · rw [List.mem_singleton.1 hd]
          exact hothers q hq
      · exact .inr ⟨d, List.mem_append_left _ hd, hleftd⟩
  · intro d hd
    rw [hself]
    rcases List.mem_append.1 hd with hd | hd
    · rcases h.called d hd with ⟨q, hq, hleftq⟩
      rw [hsplit] at hq
      rcases hback hq with rfl | hq
      · -- an entry answers once in a tick
        rw [hleftq.flag] at hflag
        cases hflag
      · exact ⟨q, hq, hleftq⟩
    · rw [List.mem_singleton.1 hd]
      exact ⟨p', by simp, hleft⟩
  · intro q hq
    rw [hself]
    rcases h.kept q hq with hq | ⟨d, hd, hof'⟩
    · rw [hsplit] at hq
      rcases hback hq with rfl | hq
      · exact .inr ⟨c, by simp, hof⟩
      · exact .inl hq
    · exact .inr ⟨d, List.mem_append_left _ hd, hof'⟩
  · refine List.pairwise_append.2 ⟨h.once, List.pairwise_singleton _ _, ?_⟩
    intro d hd c' hc' hsame
    rw [List.mem_singleton.1 hc'] at hsame
    rcases h.called d hd with ⟨q, hq, hleftq⟩
    have hofq : c.Of q := ⟨hsame.1.symm.trans hleftq.of.1, hsame.2.symm.trans hleftq.of.2⟩
    rw [hsplit] at hq
    simp only [List.mem_append, List.mem_cons] at hq
    rcases hq with hq | rfl | hq
    · exact hothers q (.inl hq) hofq
    · rw [hleftq.flag] at hflag
      cases hflag
    · exact hothers q (.inr hq) hofq
  · intro d hd hreveald
    rcases List.mem_append.1 hd with hd | hd
    · exact h.reveals d hd hreveald
    · rw [List.mem_singleton.1 hd]
      have hp : p ∈ s'.streams (streamOf tick) := by rw [hsplit]; simp
      -- an entry that has not called is the one from before the tick
      rcases h.entries p hp with ⟨hold, -⟩ | ⟨e, -, hlefte⟩
      · exact ⟨p, hold, hof, hcommit⟩
      · rw [hlefte.flag] at hflag
        cases hflag
  · intro d hd hzero
    rcases List.mem_append.1 hd with hd | hd
    · exact h.opens d hd hzero
    · rw [List.mem_singleton.1 hd] at hzero
      exact absurd hzero hreveal

/-- An accepted first commit enrols a provider without an entry. -/
theorem Round.enrol (h : Round qpi tick s calls s') {c : AcceptedCall} {p : Provider}
    (hnone : (s'.enrolment (streamOf tick) c.provider c.collateralTier) = []) (hleft : c.Left p)
    (hreveal : c.input.reveal = Preimage.zero) :
    Round qpi tick s (calls ++ [c])
      (s'.setStream (streamOf tick) (s'.streams (streamOf tick) ++ [p])) := by
  have hself : (s'.setStream (streamOf tick) (s'.streams (streamOf tick) ++ [p])).streams
      (streamOf tick) = s'.streams (streamOf tick) ++ [p] := Function.update_self _ _ _
  -- the call enrols only where its provider has no entry of the tier
  have hothers : ∀ q ∈ s'.streams (streamOf tick), ¬ c.Of q := by
    intro q hq hof
    have hmem : q ∈ s'.enrolment (streamOf tick) c.provider c.collateralTier :=
      List.mem_filter.2 ⟨hq, AcceptedCall.of_iff.1 hof⟩
    rw [hnone] at hmem
    cases hmem
  constructor
  · -- the other streams
    intro stream hne
    exact (Function.update_of_ne hne _ _).trans (h.others stream hne)
  · exact h.entropy
  · exact h.bitFee
  · -- one entry for a provider and a tier
    intro provider tier
    have hunique := h.unique provider tier
    rw [StateData.enrolment, hself, List.filter_append, List.length_append]
    cases hown : isOwn provider tier p with
    | false =>
      rw [List.filter_cons_of_neg (by simp [hown]), List.filter_nil, List.length_nil, Nat.add_zero]
      exact hunique
    | true =>
      rcases isOwn_iff.1 hown with ⟨rfl, rfl⟩
      rw [StateData.enrolment, hleft.of.1, hleft.of.2] at hnone
      rw [hnone, List.length_nil, Nat.zero_add]
      exact List.length_filter_le _ _
  · -- every entry is untouched or left by a call
    intro q hq
    rw [hself] at hq
    rcases List.mem_append.1 hq with hq | hq
    · rcases h.entries q hq with ⟨hq', hfree⟩ | ⟨d, hd, hleftd⟩
      · left
        refine ⟨hq', ?_⟩
        intro d hd
        rcases List.mem_append.1 hd with hd | hd
        · exact hfree d hd
        · rw [List.mem_singleton.1 hd]
          exact hothers q hq
      · exact .inr ⟨d, List.mem_append_left _ hd, hleftd⟩
    · rw [List.mem_singleton.1 hq]
      exact .inr ⟨c, by simp, hleft⟩
  · -- every call left an entry
    intro d hd
    rw [hself]
    rcases List.mem_append.1 hd with hd | hd
    · rcases h.called d hd with ⟨q, hq, hleftq⟩
      exact ⟨q, List.mem_append_left _ hq, hleftq⟩
    · rw [List.mem_singleton.1 hd]
      exact ⟨p, by simp, hleft⟩
  · -- nothing of the start is lost unless it called
    intro q hq
    rw [hself]
    rcases h.kept q hq with hq | ⟨d, hd, hof⟩
    · exact .inl (List.mem_append_left _ hq)
    · exact .inr ⟨d, List.mem_append_left _ hd, hof⟩
  · -- no provider called before at this tier
    refine List.pairwise_append.2 ⟨h.once, List.pairwise_singleton _ _, ?_⟩
    intro d hd c' hc' hsame
    rw [List.mem_singleton.1 hc'] at hsame
    rcases h.called d hd with ⟨q, hq, hleftq⟩
    exact hothers q hq ⟨hsame.1.symm.trans hleftq.of.1, hsame.2.symm.trans hleftq.of.2⟩
  · -- the new call reveals nothing
    intro d hd hreveald
    rcases List.mem_append.1 hd with hd | hd
    · exact h.reveals d hd hreveald
    · rw [List.mem_singleton.1 hd] at hreveald
      exact absurd hreveal hreveald
  · -- it had nothing due: its provider was absent from the start on
    intro d hd hzero q hq
    rcases List.mem_append.1 hd with hd | hd
    · exact h.opens d hd hzero q hq
    · rw [List.mem_singleton.1 hd]
      intro hof
      rcases h.kept q hq with hq | ⟨e, he, hofe⟩
      · exact hothers q hq hof
      · rcases h.called e he with ⟨r, hr, hleftr⟩
        refine hothers r hr ⟨?_, ?_⟩
        · rw [hof.1, ← hofe.1, hleftr.of.1]
        · rw [hof.2, ← hofe.2, hleftr.of.2]

/-- One more invocation of the round. -/
theorem Round.invoke (h : Round qpi tick s calls s') (inv : Invocation) :
    Round qpi tick s (calls ++ (acceptedCall qpi tick inv s').toList) (invoke qpi tick inv s').1 := by
  cases hprocedure : inv.procedure with
  | buyEntropy collateralTier numberOfBits trustee =>
    -- a purchase changes no stream
    have hnone : acceptedCall qpi tick inv s' = none := by
      unfold acceptedCall
      rw [hprocedure]
    rw [hnone, Option.toList_none, List.append_nil]
    unfold Contract.invoke
    simp only [hprocedure]
    by_cases hsells : Sells tick inv.invocationReward collateralTier numberOfBits trustee s'
    · rw [buyEntropy_of_sells hsells]
      exact h.of_same rfl rfl rfl
    · rw [buyEntropy_of_not_sells hsells]
      exact h
  | revealAndCommit input =>
    have houtcome := revealAndCommit_outcome qpi tick inv.invocator inv.invocationReward input s'
    have hinvoke : Contract.invoke qpi tick inv s' =
        revealAndCommit qpi tick inv.invocator inv.invocationReward input s' := by
      unfold Contract.invoke
      rw [hprocedure]
    -- a call counts as accepted when its stream changed
    have haccepted : ∀ {tier : Fin 10}, collateralTierOf inv.invocationReward = some tier →
        acceptedCall qpi tick inv s' =
          if (Contract.invoke qpi tick inv s').1.streams (streamOf tick) =
              s'.streams (streamOf tick) then none
          else some { provider := inv.invocator, collateralTier := tier, input := input } := by
      intro tier htier
      unfold acceptedCall
      rw [hprocedure, htier]
    rw [hinvoke] at haccepted ⊢
    generalize revealAndCommit qpi tick inv.invocator inv.invocationReward input s' = r at *
    cases houtcome with
    | refused =>
      have hnone : acceptedCall qpi tick inv s' = none := by
        cases htier : collateralTierOf inv.invocationReward with
        | none =>
          unfold acceptedCall
          rw [hprocedure, htier]
        | some tier => rw [haccepted htier, if_pos rfl]
      rw [hnone, Option.toList_none, List.append_nil]
      exact h
    | @answered tier i p htier hreveal hverified =>
      rcases verifiedProvider_eq_some hverified with ⟨hget, hown, hverifies⟩
      rcases split_of_getElem? hget with ⟨front, back, hsplit, hset⟩
      rcases isOwn_iff.1 hown with ⟨hprovider, htier'⟩
      have hflag : p.revealOrCommitFlag = false := by
        unfold Provider.verifies at hverifies
        exact (of_decide_eq_true hverifies).2.2
      have hself : (s'.setStream (streamOf tick) ((s'.streams (streamOf tick)).set i
          (p.revealed input (if input.commit = Digest.zero then 0 else inv.invocationReward)
            tick))).streams (streamOf tick) = (s'.streams (streamOf tick)).set i
          (p.revealed input (if input.commit = Digest.zero then 0 else inv.invocationReward)
            tick) := Function.update_self _ _ _
      -- the entry found had not called, the entry left has
      have hchanged : (s'.streams (streamOf tick)).set i
          (p.revealed input (if input.commit = Digest.zero then 0 else inv.invocationReward)
            tick) ≠ s'.streams (streamOf tick) := by
        rw [hset, hsplit]
        intro heq
        have hsame := (List.cons.inj (List.append_cancel_left heq)).1
        rw [← hsame] at hflag
        cases hflag
      rw [haccepted htier, hself, if_neg hchanged, Option.toList_some, hset]
      refine h.answer hsplit ⟨hprovider.symm, htier'.symm⟩ hflag ?_ hreveal ?_
      rotate_left
      · unfold Provider.verifies at hverifies
        exact (of_decide_eq_true hverifies).2.1
      constructor
      · exact ⟨hprovider.symm, htier'.symm⟩
      · rfl
      · rfl
      · rfl
      · exact (decide_eq_true hreveal).symm
      · show (if input.commit = Digest.zero then 0 else inv.invocationReward) = _
        rw [collateralTierOf_eq htier, ← htier']
        rfl
      · intro hzero
        exact absurd hzero hreveal
    | @enrolled tier htier hreveal hcommit hnone =>
      have hself : (s'.setStream (streamOf tick) (s'.streams (streamOf tick) ++
          [.enrolled inv.invocator tier input.commit inv.invocationReward tick])).streams
            (streamOf tick) = s'.streams (streamOf tick) ++
          [.enrolled inv.invocator tier input.commit inv.invocationReward tick] :=
        Function.update_self _ _ _
      rw [haccepted htier, hself, if_neg (by simp), Option.toList_some]
      refine h.enrol (findProvider_eq_none.1 hnone) ?_ hreveal
      constructor
      · exact ⟨rfl, rfl⟩
      · rfl
      · rfl
      · exact hreveal.symm
      · simp [Provider.enrolled, hreveal]
      · show inv.invocationReward = _
        rw [if_neg hcommit, collateralTierOf_eq htier]
        rfl
      · intro _
        exact hcommit

theorem Round.invokeAll (h : Round qpi tick s calls s') (invocations : List Invocation) :
    Round qpi tick s (calls ++ acceptedCalls qpi tick invocations s')
      (invokeAll qpi tick invocations s') := by
  induction invocations generalizing calls s' with
  | nil =>
    rw [acceptedCalls, List.append_nil]
    exact h
  | cons inv rest ih =>
    have hrest := ih (h.invoke inv)
    rwa [List.append_assoc] at hrest

/-- The invocations of a tick that begins at rest. -/
theorem StateData.AtRest.round (h : s.AtRest) (qpi : Qpi) (tick : Nat)
    (invocations : List Invocation) :
    Round qpi tick s (acceptedCalls qpi tick invocations s) (Contract.invokeAll qpi tick invocations s) := by
  have hround := (Round.start h qpi tick).invokeAll invocations
  rwa [List.nil_append] at hround

/-! ## The end of the tick -/

/-- The entries of a round, before the tick ends: those that called and those that did not. -/
theorem Round.cleared (h : Round qpi tick s calls s') (hrest : s.AtRest) :
    ∀ p ∈ s'.cleared (streamOf tick), p.Idle ∨ ∃ c ∈ calls, c.Left p := by
  intro p hp
  rcases List.mem_map.1 hp with ⟨q, hq, rfl⟩
  rcases h.entries q hq with ⟨hq, -⟩ | ⟨c, hc, hleft⟩
  · have hidle := hrest.idle _ q hq
    exact .inl ⟨hidle.flag, hidle.revealedFlag, hidle.reveal, hidle.commit, hidle.locked⟩
  · exact .inr ⟨c, hc, hleft.of, hleft.flag, hleft.commit, hleft.reveal, hleft.revealedFlag,
      hleft.locked, hleft.commits⟩

theorem AcceptedCall.Left.idle {c : AcceptedCall} {p p' : Provider} (h : c.Left p)
    (hcommit : p.commit ≠ Digest.zero) (hflag : p'.revealOrCommitFlag = false)
    (hrevealed : p'.revealedThisTickFlag = false)
    (hreveal : p'.reveal = if p.revealedThisTickFlag then Preimage.zero else p.reveal)
    (hsame : p'.commit = p.commit ∧ p'.lockedCollateralAmount = p.lockedCollateralAmount ∧
      p'.collateralTier = p.collateralTier) : p'.Idle where
  flag := hflag
  revealedFlag := hrevealed
  reveal := by
    rw [hreveal, h.revealedFlag]
    split
    · rfl
    · rename_i hnot
      rw [h.reveal]
      simpa using hnot
  commit := by rw [hsame.1]; exact hcommit
  locked := by
    rw [hsame.2.1, hsame.2.2, h.locked, if_neg]
    rw [← h.commit]
    exact hcommit

theorem endTick_streams (tick : Nat) (s : StateData) :
    (endTick tick s).1.streams =
      Function.update s.streams (streamOf tick) ((endTick tick s).1.streams (streamOf tick)) := by
  unfold endTick
  dsimp only
  split <;> simp only [Function.update_self]

/-- A tick that began at rest ends at rest. -/
theorem Round.atRest (h : Round qpi tick s calls s') (hrest : s.AtRest) :
    (endTick tick s').1.AtRest := by
  -- the tick settles only its own stream
  have hother : ∀ other, other ≠ streamOf tick →
      (endTick tick s').1.streams other = s.streams other := by
    intro other hne
    rw [← h.others other hne, endTick_streams, Function.update_of_ne hne]
  have hunique : ∀ provider tier,
      ((s'.cleared (streamOf tick)).filter (isOwn provider tier)).length ≤ 1 := by
    intro provider tier
    rw [filter_cleared, List.length_map]
    exact h.unique provider tier
  constructor
  · intro stream provider tier
    by_cases hstream : stream = streamOf tick
    · subst hstream
      unfold StateData.enrolment
      rcases endTick_cases tick s' with ⟨-, w, -, hwalk, -⟩ | ⟨-, hwalk, -⟩
      · rw [hwalk]
        exact (SwapDelete.walk_filter_length_le (visitRevealing_isOwn _) _ _).trans
          (hunique provider tier)
      · rw [hwalk]
        exact (SwapDelete.walk_filter_length_le visitSilent_isOwn _ _).trans (hunique provider tier)
    · rw [StateData.enrolment, hother stream hstream]
      exact hrest.unique stream provider tier
  · intro stream p hp
    by_cases hstream : stream = streamOf tick
    · subst hstream
      rcases endTick_cases tick s' with ⟨-, w, -, hwalk, -⟩ | ⟨hsilent, hwalk, -⟩
      · rw [hwalk] at hp
        rcases SwapDelete.walk_kept hp with ⟨q, hq, w', hvisit⟩
        -- somebody revealed: an entry stays if it called and commits to something
        unfold visitRevealing at hvisit
        split at hvisit
        · rename_i hflag
          dsimp only at hvisit
          split at hvisit
          · cases hvisit
          · rename_i hcommit
            cases hvisit
            rcases h.cleared hrest q hq with hidle | ⟨c, -, hleft⟩
            · rw [hidle.flag] at hflag
              cases hflag
            · exact hleft.idle hcommit rfl rfl rfl ⟨rfl, rfl, rfl⟩
        · cases hvisit
      · rw [hwalk] at hp
        rcases SwapDelete.walk_kept hp with ⟨q, hq, payments, hvisit⟩
        unfold visitSilent at hvisit
        split at hvisit
        · rename_i hflag
          cases hvisit
          have hrevealed : q.revealedThisTickFlag = false := by
            simpa using List.any_eq_false.1 hsilent q hq
          rcases h.cleared hrest q hq with hidle | ⟨c, -, hleft⟩
          · rw [hidle.flag] at hflag
            cases hflag
          · -- nobody revealed: the entry has just enrolled
            have hcommits : q.commit ≠ Digest.zero := by
              rw [hleft.commit]
              apply hleft.commits
              have hreveal := hleft.revealedFlag
              rw [hrevealed] at hreveal
              simpa using hreveal.symm
            refine hleft.idle hcommits rfl hrevealed ?_ ⟨rfl, rfl, rfl⟩
            rw [hrevealed]
            rfl
        · cases hvisit
    · rw [hother stream hstream] at hp
      exact hrest.idle stream p hp

end

/-- Every tick of a run begins at rest. -/
theorem stateBefore_atRest {s₀ : StateData} (h : s₀.AtRest) (qpi : Qpi) (start : Nat)
    (invocations : Nat → List Invocation) (n : Nat) :
    (stateBefore qpi start invocations s₀ n).AtRest := by
  induction n with
  | zero => exact h
  | succ n ih => exact (ih.round qpi (start + n) (invocations (start + n))).atRest ih

end RandomClient.Contract
