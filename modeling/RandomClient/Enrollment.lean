import RandomClient.Contract

/-!
# The enrolment of one provider

The entries of one provider at one tier of one stream (`StateData.enrolment`).
Calls of others leave them alone, whatever they do to the rest of the stream,
and an end of the tick treats them by their own flags and commit only. This is
all that the later results use of the contract.
-/

namespace RandomClient.Contract

/-! ## Lists that change at one index -/

theorem split_of_getElem? {α : Type*} {l : List α} {i : Nat} {x : α} (h : l[i]? = some x) :
    ∃ front back, l = front ++ x :: back ∧ ∀ y, l.set i y = front ++ y :: back := by
  obtain ⟨hlt, rfl⟩ := List.getElem?_eq_some_iff.1 h
  refine ⟨l.take i, l.drop (i + 1), ?_, ?_⟩
  · rw [List.getElem_cons_drop hlt, List.take_append_drop]
  · intro y
    exact List.set_eq_take_append_cons_drop ▸ if_pos hlt

/-- Replacing an entry outside the filter by another one changes nothing. -/
theorem filter_set_of_not {α : Type*} {p : α → Bool} {l : List α} {i : Nat} {x y : α}
    (h : l[i]? = some x) (hx : p x = false) (hy : p y = false) :
    (l.set i y).filter p = l.filter p := by
  obtain ⟨front, back, rfl, hset⟩ := split_of_getElem? h
  simp [hset, List.filter_append, hx, hy]

/-- Replacing the only entry of the filter replaces what the filter finds. -/
theorem filter_set_singleton {α : Type*} {p : α → Bool} {l : List α} {i : Nat} {x y z : α}
    (h : l[i]? = some x) (hx : p x = true) (hy : p y = true) (hsingle : l.filter p = [z]) :
    (l.set i y).filter p = [y] := by
  obtain ⟨front, back, rfl, hset⟩ := split_of_getElem? h
  simp only [List.filter_append, List.filter_cons, hx, if_true] at hsingle
  rcases List.append_eq_singleton_iff.1 hsingle with ⟨hfront, hback⟩ | ⟨-, hnil⟩
  · obtain ⟨-, hback⟩ := List.cons_eq_cons.1 hback
    simp [hset, List.filter_append, hy, hfront, hback]
  · cases hnil

/-! ## Entries of one provider -/

/-- The entry belongs to the provider at the tier. -/
def isOwn (provider : Digest) (tier : Fin 10) (p : Provider) : Bool :=
  p.provider = provider ∧ p.collateralTier = tier

/-- The entries of a provider at a tier of a stream. -/
def StateData.enrolment (s : StateData) (stream : Fin 3) (provider : Digest) (tier : Fin 10) :
    List Provider :=
  (s.streams stream).filter (isOwn provider tier)

variable {qpi : Qpi} {tick : Nat} {stream : Fin 3} {invocator provider : Digest}
  {invocationReward : Nat} {tier : Fin 10} {input : RevealAndCommitInput} {s : StateData}

theorem isOwn_iff {p : Provider} :
    isOwn provider tier p = true ↔ p.provider = provider ∧ p.collateralTier = tier := by
  simp [isOwn]

@[simp] theorem isOwn_revealed (p : Provider) (lockedAmount : Nat) :
    isOwn provider tier (p.revealed input lockedAmount tick) = isOwn provider tier p := rfl

theorem enrolment_setStream (stream' : Fin 3) (providers : List Provider) :
    (s.setStream stream' providers).enrolment stream provider tier =
      if stream = stream' then providers.filter (isOwn provider tier)
      else s.enrolment stream provider tier := by
  unfold StateData.enrolment StateData.setStream
  by_cases heq : stream = stream'
  · subst heq
    simp
  · simp [heq]

theorem findProvider_eq_none {providers : List Provider} :
    findProvider invocator tier providers = none ↔
      providers.filter (isOwn invocator tier) = [] := by
  unfold findProvider
  rw [List.findIdx?_eq_none_iff, List.filter_eq_nil_iff]
  constructor
  · intro h p hp
    simpa [isOwn] using h p hp
  · intro h p hp
    simpa [isOwn] using h p hp

theorem findProvider_eq_some {providers : List Provider} {i : Nat}
    (h : findProvider invocator tier providers = some i) :
    ∃ p, providers[i]? = some p ∧ isOwn invocator tier p = true := by
  unfold findProvider at h
  obtain ⟨hlt, hp, -⟩ := List.findIdx?_eq_some_iff_getElem.1 h
  exact ⟨providers.get ⟨i, hlt⟩, List.getElem?_eq_getElem hlt, by simpa [isOwn] using hp⟩

theorem verifiedProvider_eq_some {providers : List Provider} {reveal : Preimage} {i : Nat}
    {p : Provider} (h : verifiedProvider qpi invocator tier reveal providers = some (i, p)) :
    providers[i]? = some p ∧ isOwn invocator tier p = true ∧ p.verifies qpi reveal = true := by
  unfold verifiedProvider at h
  split at h
  · cases h
  · rename_i j hfind
    obtain ⟨p', hget, hown⟩ := findProvider_eq_some hfind
    rw [hget] at h
    dsimp only at h
    split at h
    · rename_i hverifies
      cases h
      exact ⟨hget, hown, hverifies⟩
    · cases h

/-- The one entry of a provider is the one its reveal is checked against. -/
theorem verifiedProvider_of_singleton (qpi : Qpi) {providers : List Provider} {p : Provider}
    (h : providers.filter (isOwn invocator tier) = [p]) (reveal : Preimage) :
    ∃ i, providers[i]? = some p ∧ findProvider invocator tier providers = some i ∧
      verifiedProvider qpi invocator tier reveal providers =
        if p.verifies qpi reveal then some (i, p) else none := by
  cases hfind : findProvider invocator tier providers with
  | none =>
    rw [findProvider_eq_none.1 hfind] at h
    cases h
  | some i =>
    obtain ⟨p', hget, hown⟩ := findProvider_eq_some hfind
    have hmem : p' ∈ providers.filter (isOwn invocator tier) :=
      List.mem_filter.2 ⟨List.mem_of_getElem? hget, hown⟩
    rw [h, List.mem_singleton] at hmem
    subst hmem
    exact ⟨i, hget, rfl, by simp only [verifiedProvider, hfind, hget]⟩

/-! ## Calls -/

/-- A call is refused, answers the commit of an entry, or enrols its provider. -/
theorem revealAndCommit_cases (qpi : Qpi) (tick : Nat) (invocator : Digest)
    (invocationReward : Nat) (input : RevealAndCommitInput) (s : StateData) :
    (revealAndCommit qpi tick invocator invocationReward input s).1 = s ∨
    (∃ tier i p lockedAmount, collateralTierOf invocationReward = some tier ∧
      lockedAmount ≤ invocationReward ∧
      verifiedProvider qpi invocator tier input.reveal (s.streams (streamOf tick)) = some (i, p) ∧
      (revealAndCommit qpi tick invocator invocationReward input s).1 =
        s.setStream (streamOf tick)
          ((s.streams (streamOf tick)).set i (p.revealed input lockedAmount tick))) ∨
    ∃ tier, collateralTierOf invocationReward = some tier ∧
      findProvider invocator tier (s.streams (streamOf tick)) = none ∧
      (revealAndCommit qpi tick invocator invocationReward input s).1 =
        s.setStream (streamOf tick) (s.streams (streamOf tick) ++
          [.enrolled invocator tier input.commit invocationReward tick]) := by
  unfold revealAndCommit
  dsimp only
  split
  · exact .inl rfl
  · split
    · exact .inl rfl
    · rename_i tier htier
      split
      · split
        · exact .inl rfl
        · split
          · exact .inl rfl
          · rename_i i p hverified
            exact .inr (.inl ⟨tier, i, p, 0, htier, Nat.zero_le _, hverified, rfl⟩)
      · split
        · split
          · exact .inl rfl
          · rename_i i p hverified
            exact .inr (.inl ⟨tier, i, p, invocationReward, htier, le_rfl, hverified, rfl⟩)
        · split
          · exact .inl rfl
          · split
            · exact .inl rfl
            · exact .inr (.inr ⟨tier, htier, ‹_›, rfl⟩)

/-- The call is one of the provider at the tier, in a tick of the stream. -/
def IsCallOf (stream : Fin 3) (provider : Digest) (tier : Fin 10) (tick : Nat)
    (inv : Invocation) : Prop :=
  streamOf tick = stream ∧ inv.invocator = provider ∧
    collateralTierOf inv.invocationReward = some tier ∧
    ∃ input, inv.procedure = .revealAndCommit input

theorem revealAndCommit_enrolment_of_other (h : ¬ (streamOf tick = stream ∧ invocator = provider ∧
      collateralTierOf invocationReward = some tier)) :
    (revealAndCommit qpi tick invocator invocationReward input s).1.enrolment stream provider tier =
      s.enrolment stream provider tier := by
  rcases revealAndCommit_cases qpi tick invocator invocationReward input s with heq |
    ⟨tier', i, p, lockedAmount, htier, -, hverified, heq⟩ | ⟨tier', htier, -, heq⟩
  · rw [heq]
  · rw [heq, enrolment_setStream]
    split
    · rename_i hstream
      subst hstream
      obtain ⟨hget, hown, -⟩ := verifiedProvider_eq_some hverified
      obtain ⟨hprovider, htier'⟩ := isOwn_iff.1 hown
      -- the entry belongs to the caller, at another key
      have hnot : isOwn provider tier p = false := by
        rw [← Bool.not_eq_true, isOwn_iff]
        rintro ⟨hsame, hsame'⟩
        exact h ⟨rfl, hprovider.symm.trans hsame, by rw [htier, ← htier', hsame']⟩
      exact filter_set_of_not hget hnot hnot
    · rfl
  · rw [heq, enrolment_setStream]
    split
    · rename_i hstream
      subst hstream
      have hnot : isOwn provider tier
          (.enrolled invocator tier' input.commit invocationReward tick) = false := by
        rw [← Bool.not_eq_true, isOwn_iff]
        rintro ⟨hsame, hsame'⟩
        exact h ⟨rfl, hsame, by rw [htier, ← hsame']; rfl⟩
      simp [List.filter_append, hnot, StateData.enrolment]
    · rfl

theorem buyEntropy_streams (collateralTier numberOfBits : Nat) (trustee : Digest) :
    (buyEntropy tick invocator invocationReward collateralTier numberOfBits trustee s).1.streams =
      s.streams := by
  unfold buyEntropy
  dsimp only
  split
  · split <;> rfl
  · rfl

/-- Calls of others leave the enrolment alone. -/
theorem invoke_enrolment_of_other {inv : Invocation}
    (h : ¬ IsCallOf stream provider tier tick inv) :
    (invoke qpi tick inv s).1.enrolment stream provider tier =
      s.enrolment stream provider tier := by
  unfold invoke
  split
  · rename_i input hprocedure
    apply revealAndCommit_enrolment_of_other
    rintro ⟨hstream, hinvocator, htier⟩
    exact h ⟨hstream, hinvocator, htier, input, hprocedure⟩
  · unfold StateData.enrolment
    dsimp only
    rw [buyEntropy_streams]

section
variable (huser : qpi.isContractId invocator = false)
  (htier : collateralTierOf invocationReward = some tier)
include huser htier

/-- A first commit enrols a provider that is not enrolled, while there is room. -/
theorem revealAndCommit_first (hcommit : input.commit ≠ Digest.zero)
    (hreveal : input.reveal = Preimage.zero)
    (hnone : s.enrolment (streamOf tick) invocator tier = [])
    (hroom : (s.streams (streamOf tick)).length < streamCapacity) :
    (revealAndCommit qpi tick invocator invocationReward input s).1.enrolment
        (streamOf tick) invocator tier =
      [.enrolled invocator tier input.commit invocationReward tick] := by
  have hfind := findProvider_eq_none.2 hnone
  have hown : isOwn invocator tier
      (.enrolled invocator tier input.commit invocationReward tick) = true :=
    isOwn_iff.2 ⟨rfl, rfl⟩
  have hresult : (revealAndCommit qpi tick invocator invocationReward input s).1 =
      s.setStream (streamOf tick) (s.streams (streamOf tick) ++
        [.enrolled invocator tier input.commit invocationReward tick]) := by
    simp [revealAndCommit, huser, htier, hcommit, hreveal, hfind, hroom.ne]
  rw [hresult, enrolment_setStream, if_pos rfl, List.filter_append, List.filter_cons, if_pos hown]
  unfold StateData.enrolment at hnone
  simp [hnone]

/-- A reveal that the entry verifies is recorded in it. -/
theorem revealAndCommit_reveal {p : Provider} (hreveal : input.reveal ≠ Preimage.zero)
    (hone : s.enrolment (streamOf tick) invocator tier = [p])
    (hverifies : p.verifies qpi input.reveal = true) :
    (revealAndCommit qpi tick invocator invocationReward input s).1.enrolment
        (streamOf tick) invocator tier =
      [p.revealed input (if input.commit = Digest.zero then 0 else invocationReward) tick] := by
  obtain ⟨i, hget, -, hverified⟩ := verifiedProvider_of_singleton qpi hone input.reveal
  rw [if_pos hverifies] at hverified
  have hown : isOwn invocator tier p = true := by
    have hmem : p ∈ s.enrolment (streamOf tick) invocator tier := by simp [hone]
    exact (List.mem_filter.1 hmem).2
  have hresult : (revealAndCommit qpi tick invocator invocationReward input s).1 =
      s.setStream (streamOf tick) ((s.streams (streamOf tick)).set i
        (p.revealed input (if input.commit = Digest.zero then 0 else invocationReward) tick)) := by
    by_cases hcommit : input.commit = Digest.zero
    · simp [revealAndCommit, huser, htier, hcommit, hreveal, hverified]
    · simp [revealAndCommit, huser, htier, hcommit, hreveal, hverified]
  rw [hresult, enrolment_setStream, if_pos rfl]
  exact filter_set_singleton hget hown hown hone

/-- An enrolled provider is refused a first commit, and a reveal that its entry
does not verify. -/
theorem revealAndCommit_refused {p : Provider}
    (hone : s.enrolment (streamOf tick) invocator tier = [p])
    (hrefused : input.reveal = Preimage.zero ∨ p.verifies qpi input.reveal = false) :
    revealAndCommit qpi tick invocator invocationReward input s =
      (s, [.transfer invocator invocationReward]) := by
  obtain ⟨i, -, hfind, hverified⟩ := verifiedProvider_of_singleton qpi hone input.reveal
  by_cases hreveal : input.reveal = Preimage.zero
  · simp [revealAndCommit, huser, htier, hreveal, hfind]
  · rw [hrefused.resolve_left hreveal] at hverified
    simp [revealAndCommit, huser, htier, hreveal, hverified]

end

/-! ## The end of a tick -/

theorem endTick_enrolment_of_other (h : streamOf tick ≠ stream) :
    (endTick tick s).1.enrolment stream provider tier = s.enrolment stream provider tier := by
  unfold endTick StateData.enrolment
  dsimp only
  split
  · simp only [Function.update_of_ne h.symm]
  · simp only [Function.update_of_ne h.symm]

theorem visitSilent_isOwn (p : Provider) (payments : List Payment) :
    ∀ p' ∈ (visitSilent p payments).2, isOwn provider tier p' = isOwn provider tier p := by
  unfold visitSilent
  split
  · rintro p' ⟨⟩
    rfl
  · rintro p' ⟨⟩

theorem visitRevealing_isOwn (stream : Fin 3) (p : Provider) (w : EndTick) :
    ∀ p' ∈ (visitRevealing stream p w).2, isOwn provider tier p' = isOwn provider tier p := by
  unfold visitRevealing
  split
  · split
    · rintro p' ⟨⟩
    · rintro p' ⟨⟩
      rfl
  · rintro p' ⟨⟩

@[simp] theorem EndTick.mix_payments (p : Provider) (w : EndTick) :
    (w.mix stream p).payments = w.payments := by
  unfold EndTick.mix
  dsimp only
  split <;> rfl

/-- The payments burn nothing of the provider at the tier. -/
def BurnsNothingOf (provider : Digest) (tier : Fin 10) (payments : List Payment) : Prop :=
  ∀ amount, Payment.burn provider tier amount ∉ payments

theorem visitSilent_burns (p : Provider) {payments : List Payment}
    (h : BurnsNothingOf provider tier payments) :
    BurnsNothingOf provider tier (visitSilent p payments).1 := by
  unfold visitSilent
  split
  · exact h
  · intro amount hmem
    rcases List.mem_append.1 hmem with hmem | hmem
    · exact h amount hmem
    · unfold transferLocked at hmem
      split at hmem <;> simp at hmem

/-- Only an entry of the provider that did not call costs it its collateral. -/
theorem visitRevealing_burns {p : Provider} {w : EndTick}
    (hcalled : isOwn provider tier p = true → p.revealOrCommitFlag = true)
    (h : BurnsNothingOf provider tier w.payments) :
    BurnsNothingOf provider tier (visitRevealing stream p w).1.payments := by
  unfold visitRevealing
  split
  · rwa [EndTick.mix_payments]
  · rename_i hflag
    intro amount hmem
    rcases List.mem_append.1 hmem with hmem | hmem
    · exact h amount hmem
    · split at hmem
      · simp only [List.mem_singleton, Payment.burn.injEq] at hmem
        exact hflag (hcalled (isOwn_iff.2 ⟨hmem.1.symm, hmem.2.1.symm⟩))
      · simp at hmem

/-- The entry has called in this tick, as the contract records a call: only a
reveal may leave a zero commit. -/
structure Provider.Called (p : Provider) : Prop where
  flag : p.revealOrCommitFlag = true
  reveal : p.revealedThisTickFlag = false → p.reveal = Preimage.zero ∧ p.commit ≠ Digest.zero

/-- The entry after the end of a tick in which it called. -/
structure Provider.SettledFrom (p p' : Provider) : Prop where
  commit : p'.commit = p.commit
  reveal : p'.reveal = Preimage.zero
  flag : p'.revealOrCommitFlag = false
  revealedFlag : p'.revealedThisTickFlag = false
  locked : p'.lockedCollateralAmount = p.lockedCollateralAmount
  update : p'.lastUpdateTick = p.lastUpdateTick

/-- The entries of a stream with their contributions forgotten. -/
def StateData.cleared (s : StateData) (stream : Fin 3) : List Provider :=
  (s.streams stream).map fun p => { p with contributedToEntropyFlag := false }

theorem filter_cleared (s : StateData) (stream : Fin 3) (provider : Digest) (tier : Fin 10) :
    (s.cleared stream).filter (isOwn provider tier) =
      (s.enrolment stream provider tier).map
        fun p => { p with contributedToEntropyFlag := false } := by
  unfold StateData.cleared StateData.enrolment
  rw [List.filter_map]
  rfl

/-- The end of a tick walks over the entries of its stream, with or without a reveal. -/
theorem endTick_cases (tick : Nat) (s : StateData) :
    ((s.cleared (streamOf tick)).any (·.revealedThisTickFlag) = true ∧ ∃ w : EndTick,
      w.payments = [] ∧
      (endTick tick s).1.streams (streamOf tick) =
        (SwapDelete.walk (visitRevealing (streamOf tick)) (s.cleared (streamOf tick)).length w
          (s.cleared (streamOf tick))).2 ∧
      (endTick tick s).2 =
        (SwapDelete.walk (visitRevealing (streamOf tick)) (s.cleared (streamOf tick)).length w
          (s.cleared (streamOf tick))).1.payments) ∨
    ((s.cleared (streamOf tick)).any (·.revealedThisTickFlag) = false ∧
      (endTick tick s).1.streams (streamOf tick) =
        (SwapDelete.walk visitSilent (s.cleared (streamOf tick)).length []
          (s.cleared (streamOf tick))).2 ∧
      (endTick tick s).2 =
        (SwapDelete.walk visitSilent (s.cleared (streamOf tick)).length []
          (s.cleared (streamOf tick))).1) := by
  by_cases hany : (s.cleared (streamOf tick)).any (·.revealedThisTickFlag) = true
  · refine .inl ⟨hany, { payments := [], burnedAmount := s.burnedAmount
                         entropy := resetEntropy (streamOf tick) (fun _ => true) s.entropy
                         collateralTierFlags := 0 }, rfl, ?_⟩
    unfold StateData.cleared at hany ⊢
    simp only [endTick, if_pos hany, Function.update_self, and_self]
  · refine .inr ⟨by simpa using hany, ?_⟩
    unfold StateData.cleared at hany ⊢
    simp only [endTick, if_neg hany, Function.update_self, and_self]

/-- The end of a tick enrols nobody, and takes nothing from a provider that is not enrolled. -/
theorem endTick_not_enrolled (h : s.enrolment (streamOf tick) provider tier = []) :
    (endTick tick s).1.enrolment (streamOf tick) provider tier = [] ∧
      BurnsNothingOf provider tier (endTick tick s).2 := by
  have hcleared := filter_cleared s (streamOf tick) provider tier
  rw [h, List.map_nil] at hcleared
  have hnone := List.filter_eq_nil_iff.1 hcleared
  unfold StateData.enrolment
  rcases endTick_cases tick s with ⟨-, w, hempty, hstream, hpayments⟩ | ⟨-, hstream, hpayments⟩
  · rw [hstream, hpayments]
    constructor
    · exact SwapDelete.walk_filter_nil (visitRevealing_isOwn (streamOf tick)) hcleared w
    · apply SwapDelete.walk_invariant fun w : EndTick => BurnsNothingOf provider tier w.payments
      · intro p hp w hw
        exact visitRevealing_burns (fun hown => absurd hown (hnone p hp)) hw
      · intro amount
        simp [hempty]
  · rw [hstream, hpayments]
    constructor
    · exact SwapDelete.walk_filter_nil visitSilent_isOwn hcleared []
    · apply SwapDelete.walk_invariant (BurnsNothingOf provider tier)
      · intro p _ payments hpayments
        exact visitSilent_burns p hpayments
      · intro amount
        exact List.not_mem_nil

/-- The end of a tick in which the provider called takes nothing from it: it
leaves if its commit is zero, and is ready for its next reveal otherwise. -/
theorem endTick_called {p : Provider} (h : s.enrolment (streamOf tick) provider tier = [p])
    (hp : p.Called) :
    ((p.commit = Digest.zero ∧ (endTick tick s).1.enrolment (streamOf tick) provider tier = []) ∨
      (p.commit ≠ Digest.zero ∧
        ∃ p', (endTick tick s).1.enrolment (streamOf tick) provider tier = [p'] ∧
          p.SettledFrom p')) ∧
      BurnsNothingOf provider tier (endTick tick s).2 := by
  have hcleared := filter_cleared s (streamOf tick) provider tier
  rw [h, List.map_singleton] at hcleared
  have hown : ∀ x ∈ s.cleared (streamOf tick), isOwn provider tier x = true →
      x = { p with contributedToEntropyFlag := false } := by
    intro x hx hown
    have hmem := List.mem_filter.2 ⟨hx, hown⟩
    rwa [hcleared, List.mem_singleton] at hmem
  unfold StateData.enrolment
  rcases endTick_cases tick s with ⟨-, w, hempty, hstream, hpayments⟩ |
    ⟨hsilent, hstream, hpayments⟩
  · rw [hstream, hpayments]
    constructor
    · obtain ⟨w', hw'⟩ := SwapDelete.walk_filter_singleton
        (visitRevealing_isOwn (streamOf tick)) hcleared w
      rw [hw', visitRevealing, if_pos hp.flag]
      by_cases hcommit : p.commit = Digest.zero
      · left
        exact ⟨hcommit, by rw [if_pos hcommit]; rfl⟩
      · right
        rw [if_neg hcommit]
        refine ⟨hcommit, _, rfl, rfl, ?_, rfl, rfl, rfl, rfl⟩
        cases hrevealed : p.revealedThisTickFlag with
        | true => simp [Provider.settled]
        | false => simp [Provider.settled, (hp.reveal hrevealed).1]
    · apply SwapDelete.walk_invariant fun w : EndTick => BurnsNothingOf provider tier w.payments
      · intro x hx w hw
        refine visitRevealing_burns (fun hx' => ?_) hw
        rw [hown x hx hx']
        exact hp.flag
      · intro amount
        simp [hempty]
  · -- nobody revealed in this tick, so the provider has made its first commit
    have hmem : { p with contributedToEntropyFlag := false } ∈ s.cleared (streamOf tick) :=
      List.mem_of_mem_filter (by rw [hcleared]; simp)
    have hrevealed : p.revealedThisTickFlag = false := by
      simpa using List.any_eq_false.1 hsilent _ hmem
    obtain ⟨hreveal, hcommit⟩ := hp.reveal hrevealed
    rw [hstream, hpayments]
    constructor
    · obtain ⟨payments, hw⟩ := SwapDelete.walk_filter_singleton visitSilent_isOwn hcleared []
      rw [hw, visitSilent, if_pos hp.flag]
      exact .inr ⟨hcommit, _, rfl, rfl, hreveal, rfl, hrevealed, rfl, rfl⟩
    · apply SwapDelete.walk_invariant (BurnsNothingOf provider tier)
      · intro x _ payments hpayments
        exact visitSilent_burns x hpayments
      · intro amount
        exact List.not_mem_nil

end RandomClient.Contract
