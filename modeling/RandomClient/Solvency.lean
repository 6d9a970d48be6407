import Mathlib.Algebra.BigOperators.Fin
import RandomClient.Settlement

/-!
# The money of the contract

Every unit attached to a call is paid back, burned, locked as collateral or the
price of entropy. The accounts are kept apart: what is locked for a provider
goes back to this provider or is burned as its own, whatever the others call
(`money_conserved`). The counters of the state follow the payments modulo
`2 ^ 64`.
-/

namespace RandomClient.Contract

/-! ## Amounts -/

section

variable (accounts : Digest → Bool)

/-- What a payment sends to some accounts. -/
def Payment.transferred : Payment → Nat
  | .transfer destination amount => if accounts destination then amount else 0
  | .burn _ _ _ => 0

/-- What a payment destroys of the collateral of some accounts. -/
def Payment.burned : Payment → Nat
  | .transfer _ _ => 0
  | .burn provider _ amount => if accounts provider then amount else 0

def transferred (payments : List Payment) : Nat := (payments.map (Payment.transferred accounts)).sum

def burned (payments : List Payment) : Nat := (payments.map (Payment.burned accounts)).sum

/-- What the entry locks for some accounts. -/
def Provider.lockedFor (p : Provider) : Nat :=
  if accounts p.provider then p.lockedCollateralAmount else 0

def lockedIn (providers : List Provider) : Nat := (providers.map (Provider.lockedFor accounts)).sum

/-- What the contract locks for some accounts in all streams. -/
def StateData.locked (s : StateData) : Nat := ∑ stream, lockedIn accounts (s.streams stream)

/-- What an invocation attaches for one of the accounts. -/
def Invocation.attached (inv : Invocation) : Nat :=
  if accounts inv.invocator then inv.invocationReward else 0

end

/-- What an invocation pays for entropy on behalf of some accounts. -/
def Invocation.price (accounts : Digest → Bool) (tick : Nat) (inv : Invocation) (s : StateData) :
    Nat :=
  match inv.procedure with
  | .revealAndCommit _ => 0
  | .buyEntropy collateralTier numberOfBits trustee =>
    if accounts inv.invocator ∧
        Sells tick inv.invocationReward collateralTier numberOfBits trustee s then
      numberOfBits * s.bitFee
    else 0

variable {qpi : Qpi} {tick : Nat} {accounts : Digest → Bool} {s : StateData}

@[simp] theorem transferred_nil : transferred accounts [] = 0 := rfl

@[simp] theorem burned_nil : burned accounts [] = 0 := rfl

@[simp] theorem transferred_append (payments payments' : List Payment) :
    transferred accounts (payments ++ payments') =
      transferred accounts payments + transferred accounts payments' := by
  simp [transferred]

@[simp] theorem burned_append (payments payments' : List Payment) :
    burned accounts (payments ++ payments') =
      burned accounts payments + burned accounts payments' := by
  simp [burned]

@[simp] theorem transferred_transfer (destination : Digest) (amount : Nat) :
    transferred accounts [.transfer destination amount] =
      if accounts destination then amount else 0 := by
  simp [transferred, Payment.transferred]

@[simp] theorem burned_transfer (destination : Digest) (amount : Nat) :
    burned accounts [.transfer destination amount] = 0 := by
  simp [burned, Payment.burned]

@[simp] theorem transferred_burn (provider : Digest) (tier : Fin 10) (amount : Nat) :
    transferred accounts [.burn provider tier amount] = 0 := by
  simp [transferred, Payment.transferred]

@[simp] theorem burned_burn (provider : Digest) (tier : Fin 10) (amount : Nat) :
    burned accounts [.burn provider tier amount] = if accounts provider then amount else 0 := by
  simp [burned, Payment.burned]

/-- A transfer of nothing is left out, which changes no amount. -/
@[simp] theorem transferred_transferLocked (destination : Digest) (amount : Nat) :
    transferred accounts (transferLocked destination amount) =
      if accounts destination then amount else 0 := by
  unfold transferLocked
  split
  · rw [transferred_transfer]
  · rename_i hzero
    rw [Nat.eq_zero_of_not_pos hzero, ite_self, transferred_nil]

@[simp] theorem burned_transferLocked (destination : Digest) (amount : Nat) :
    burned accounts (transferLocked destination amount) = 0 := by
  unfold transferLocked
  split
  · rw [burned_transfer]
  · rfl

@[simp] theorem lockedIn_append (providers providers' : List Provider) :
    lockedIn accounts (providers ++ providers') =
      lockedIn accounts providers + lockedIn accounts providers' := by
  simp [lockedIn]

@[simp] theorem lockedIn_singleton (p : Provider) :
    lockedIn accounts [p] = p.lockedFor accounts := by
  simp [lockedIn]

@[simp] theorem lockedFor_revealed (input : RevealAndCommitInput) (lockedAmount tick : Nat)
    (p : Provider) : (p.revealed input lockedAmount tick).lockedFor accounts =
      if accounts p.provider then lockedAmount else 0 := rfl

@[simp] theorem lockedFor_enrolled (invocator : Digest) (tier : Fin 10) (commit : Digest)
    (lockedAmount tick : Nat) :
    (Provider.enrolled invocator tier commit lockedAmount tick).lockedFor accounts =
      if accounts invocator then lockedAmount else 0 := rfl

/-- An entry in the place of another one moves the difference of their collaterals. -/
theorem lockedIn_set {providers : List Provider} {i : Nat} {p : Provider}
    (h : providers[i]? = some p) (p' : Provider) :
    lockedIn accounts (providers.set i p') + p.lockedFor accounts =
      lockedIn accounts providers + p'.lockedFor accounts := by
  rcases split_of_getElem? h with ⟨front, back, rfl, hset⟩
  rw [hset, lockedIn_append, lockedIn_append, ← List.singleton_append, lockedIn_append,
    ← List.singleton_append (l := back), lockedIn_append, lockedIn_singleton, lockedIn_singleton]
  omega

/-- Other entries in one stream move the difference between the two lists. -/
theorem locked_update {s' : StateData} {stream : Fin 3} {providers : List Provider}
    (h : s'.streams = Function.update s.streams stream providers) :
    s'.locked accounts + lockedIn accounts (s.streams stream) =
      s.locked accounts + lockedIn accounts providers := by
  have hsplit : ∀ s : StateData, s.locked accounts = lockedIn accounts (s.streams stream) +
      ∑ other ∈ Finset.univ.erase stream, lockedIn accounts (s.streams other) := by
    intro s
    exact (Finset.add_sum_erase _ _ (Finset.mem_univ stream)).symm
  have hothers : ∑ other ∈ Finset.univ.erase stream, lockedIn accounts (s'.streams other) =
      ∑ other ∈ Finset.univ.erase stream, lockedIn accounts (s.streams other) := by
    apply Finset.sum_congr rfl
    intro other hmem
    rw [h, Function.update_of_ne (Finset.ne_of_mem_erase hmem)]
  have hself : s'.streams stream = providers := by rw [h, Function.update_self]
  rw [hsplit s', hsplit s, hothers, hself]
  omega

theorem locked_setStream (stream : Fin 3) (providers : List Provider) :
    (s.setStream stream providers).locked accounts + lockedIn accounts (s.streams stream) =
      s.locked accounts + lockedIn accounts providers :=
  locked_update rfl

/-! ## One invocation -/

/-- What a call attaches is sent back or locked, and what the entry locked before
is sent back. -/
theorem CallOutcome.money {invocator : Digest} {invocationReward : Nat}
    {input : RevealAndCommitInput} {r : StateData × List Payment}
    (h : CallOutcome qpi tick invocator invocationReward input s r) :
    (if accounts invocator then invocationReward else 0) + s.locked accounts =
      transferred accounts r.2 + burned accounts r.2 + r.1.locked accounts := by
  cases h with
  | refused =>
    dsimp only
    rw [transferred_transfer, burned_transfer]
    omega
  | @answered tier i p htier hreveal hverified =>
    rcases verifiedProvider_eq_some hverified with ⟨hget, hown, -⟩
    dsimp only
    generalize hamount : (if input.commit = Digest.zero then 0 else invocationReward) = lockedAmount
    have hset := @lockedIn_set accounts _ i p hget (p.revealed input lockedAmount tick)
    have hstream := @locked_setStream accounts s (streamOf tick)
      ((s.streams (streamOf tick)).set i (p.revealed input lockedAmount tick))
    rw [lockedFor_revealed, Provider.lockedFor, (isOwn_iff.1 hown).1] at hset
    rw [transferred_append, burned_append, transferred_transferLocked, burned_transferLocked]
    split at hamount <;> rename_i hcommit
    · rw [if_pos hcommit, transferred_transfer, burned_transfer]
      rw [← hamount, ite_self] at hset
      subst hamount
      omega
    · rw [if_neg hcommit, transferred_nil, burned_nil]
      subst hamount
      omega
  | @enrolled tier htier hreveal hcommit hnone =>
    dsimp only
    have hstream := @locked_setStream accounts s (streamOf tick) (s.streams (streamOf tick) ++
      [.enrolled invocator tier input.commit invocationReward tick])
    rw [lockedIn_append, lockedIn_singleton, lockedFor_enrolled] at hstream
    rw [transferred_nil, burned_nil]
    omega

theorem Sells.price_le {invocationReward collateralTier numberOfBits : Nat} {trustee : Digest}
    (h : Sells tick invocationReward collateralTier numberOfBits trustee s) :
    numberOfBits * s.bitFee ≤ invocationReward := h.1.2.2.2

/-- What an invocation attaches is sent back, locked or the price of entropy. -/
theorem invoke_money (qpi : Qpi) (tick : Nat) (inv : Invocation) (s : StateData) :
    inv.attached accounts + s.locked accounts =
      transferred accounts (invoke qpi tick inv s).2 + burned accounts (invoke qpi tick inv s).2 +
        (invoke qpi tick inv s).1.locked accounts + inv.price accounts tick s := by
  unfold Invocation.attached Invocation.price invoke
  cases inv.procedure with
  | revealAndCommit input => exact (revealAndCommit_outcome qpi tick _ _ input s).money
  | buyEntropy collateralTier numberOfBits trustee =>
    dsimp only
    by_cases hsells : Sells tick inv.invocationReward collateralTier numberOfBits trustee s
    · have hprice := hsells.price_le
      rw [buyEntropy_of_sells hsells]
      dsimp only
      rw [transferred_transferLocked, burned_transferLocked]
      change _ = _ + _ + s.locked accounts + _
      by_cases haccount : accounts inv.invocator = true
      · simp only [haccount, hsells, and_self, if_true]
        omega
      · simp only [haccount, false_and, if_false, Bool.false_eq_true]
        omega
    · rw [buyEntropy_of_not_sells hsells]
      simp only [hsells, and_false, if_false]
      rw [transferred_transfer, burned_transfer]
      omega

/-! ## The end of a tick -/

theorem visitSilent_money (p : Provider) (payments : List Payment) :
    transferred accounts (visitSilent p payments).1 +
      ((visitSilent p payments).2.toList.map (Provider.lockedFor accounts)).sum =
        transferred accounts payments + p.lockedFor accounts := by
  unfold visitSilent
  split
  · rw [Option.toList_some, List.map_singleton, List.sum_singleton]
    rfl
  · rw [transferred_append, transferred_transferLocked]
    rfl

theorem visitSilent_burned (p : Provider) {payments : List Payment}
    (h : burned accounts payments = 0) : burned accounts (visitSilent p payments).1 = 0 := by
  unfold visitSilent
  split
  · exact h
  · rw [burned_append, burned_transferLocked, h]

/-- A visit moves the collateral of an entry that leaves: nothing is left in it
when it leaves by a zero commit. -/
theorem visitRevealing_money {stream : Fin 3} {p : Provider}
    (hleaves : p.revealOrCommitFlag = true → p.commit = Digest.zero →
      p.lockedCollateralAmount = 0) (w : EndTick) :
    burned accounts (visitRevealing stream p w).1.payments +
      ((visitRevealing stream p w).2.toList.map (Provider.lockedFor accounts)).sum =
        burned accounts w.payments + p.lockedFor accounts := by
  unfold visitRevealing
  split
  · rename_i hflag
    rw [EndTick.mix_payments]
    split
    · rename_i hcommit
      rw [Provider.lockedFor, hleaves hflag hcommit, ite_self]
      rfl
    · rw [Option.toList_some, List.map_singleton, List.sum_singleton]
      rfl
  · dsimp only
    rw [burned_append]
    split
    · rw [burned_burn]
      rfl
    · rename_i hzero
      rw [Provider.lockedFor, Nat.eq_zero_of_not_pos hzero, ite_self]
      rfl

theorem visitRevealing_transferred {stream : Fin 3} (p : Provider) {w : EndTick}
    (h : transferred accounts w.payments = 0) :
    transferred accounts (visitRevealing stream p w).1.payments = 0 := by
  unfold visitRevealing
  split
  · rwa [EndTick.mix_payments]
  · dsimp only
    rw [transferred_append, h]
    split
    · rw [transferred_burn]
    · rfl

theorem lockedIn_cleared (s : StateData) (stream : Fin 3) :
    lockedIn accounts (s.cleared stream) = lockedIn accounts (s.streams stream) := by
  unfold lockedIn StateData.cleared
  rw [List.map_map]
  rfl

/-- The end of a tick sends back or burns what the entries it removes lock. -/
theorem endTick_money
    (hleaves : ∀ p ∈ s.streams (streamOf tick), p.revealOrCommitFlag = true →
      p.commit = Digest.zero → p.lockedCollateralAmount = 0) :
    s.locked accounts = transferred accounts (endTick tick s).2 +
      burned accounts (endTick tick s).2 + (endTick tick s).1.locked accounts := by
  have hstream := @locked_update accounts s _ _ _ (endTick_streams tick s)
  have hleaves' : ∀ p ∈ s.cleared (streamOf tick), p.revealOrCommitFlag = true →
      p.commit = Digest.zero → p.lockedCollateralAmount = 0 := by
    intro p hp
    rcases List.mem_map.1 hp with ⟨q, hq, rfl⟩
    exact hleaves q hq
  rw [← lockedIn_cleared] at hstream
  rcases endTick_cases tick s with ⟨-, w, hempty, hwalk, hpayments⟩ | ⟨-, hwalk, hpayments⟩
  · have hweight := SwapDelete.walk_weight (Provider.lockedFor accounts)
      (fun w : EndTick => burned accounts w.payments)
      (fun p hp w => @visitRevealing_money accounts (streamOf tick) p (hleaves' p hp) w) w
    have hsent := SwapDelete.walk_invariant (l := s.cleared (streamOf tick))
      (fun w : EndTick => transferred accounts w.payments = 0)
      (fun p _ w hw => @visitRevealing_transferred accounts (streamOf tick) p w hw)
      (s := w) (by rw [hempty]; rfl)
    rw [hempty, burned_nil, ← hpayments, ← hwalk] at hweight
    rw [← hpayments] at hsent
    unfold lockedIn at hstream
    omega
  · have hweight := SwapDelete.walk_weight (Provider.lockedFor accounts)
      (transferred accounts) (l := s.cleared (streamOf tick))
      (fun p _ payments => visitSilent_money p payments) []
    have hburned := SwapDelete.walk_invariant (l := s.cleared (streamOf tick))
      (fun payments => burned accounts payments = 0)
      (fun p _ payments hpayments => visitSilent_burned p hpayments) (s := []) rfl
    rw [transferred_nil, ← hpayments, ← hwalk] at hweight
    rw [← hpayments] at hburned
    unfold lockedIn at hstream
    omega

/-! ## The counters -/

theorem CallOutcome.burned {invocator : Digest} {invocationReward : Nat}
    {input : RevealAndCommitInput} {r : StateData × List Payment}
    (h : CallOutcome qpi tick invocator invocationReward input s r) :
    Contract.burned accounts r.2 = 0 := by
  cases h with
  | refused => exact burned_transfer _ _
  | @answered tier i p htier hreveal hverified =>
    dsimp only
    rw [burned_append, burned_transferLocked]
    split
    · rw [burned_transfer]
    · rfl
  | enrolled => rfl

theorem CallOutcome.counters {invocator : Digest} {invocationReward : Nat}
    {input : RevealAndCommitInput} {r : StateData × List Payment}
    (h : CallOutcome qpi tick invocator invocationReward input s r) :
    r.1.burnedAmount = s.burnedAmount ∧ r.1.earnedAmount = s.earnedAmount := by
  cases h <;> exact ⟨rfl, rfl⟩

/-- No invocation burns. -/
theorem invoke_burned (qpi : Qpi) (tick : Nat) (inv : Invocation) (s : StateData) :
    burned accounts (invoke qpi tick inv s).2 = 0 := by
  unfold invoke
  cases inv.procedure with
  | revealAndCommit input => exact (revealAndCommit_outcome qpi tick _ _ input s).burned
  | buyEntropy collateralTier numberOfBits trustee =>
    dsimp only
    by_cases hsells : Sells tick inv.invocationReward collateralTier numberOfBits trustee s
    · rw [buyEntropy_of_sells hsells]
      exact burned_transferLocked _ _
    · rw [buyEntropy_of_not_sells hsells]
      exact burned_transfer _ _

/-- The price of what is sold goes to the earned amount. -/
theorem invoke_counters {earned : Nat} (h : s.earnedAmount = earned % 2 ^ 64) (qpi : Qpi)
    (tick : Nat) (inv : Invocation) :
    (invoke qpi tick inv s).1.burnedAmount = s.burnedAmount ∧
      (invoke qpi tick inv s).1.earnedAmount =
        (earned + inv.price (fun _ => true) tick s) % 2 ^ 64 := by
  unfold invoke Invocation.price
  cases inv.procedure with
  | revealAndCommit input =>
    have hcounters := (revealAndCommit_outcome qpi tick inv.invocator inv.invocationReward input
      s).counters
    exact ⟨hcounters.1, hcounters.2.trans h⟩
  | buyEntropy collateralTier numberOfBits trustee =>
    dsimp only
    by_cases hsells : Sells tick inv.invocationReward collateralTier numberOfBits trustee s
    · rw [buyEntropy_of_sells hsells, if_pos ⟨rfl, hsells⟩]
      refine ⟨rfl, ?_⟩
      dsimp only
      rw [h, Nat.mod_add_mod]
    · simp only [buyEntropy_of_not_sells hsells, hsells, and_false, if_false]
      exact ⟨trivial, h⟩

theorem endTick_earnedAmount (tick : Nat) (s : StateData) :
    (endTick tick s).1.earnedAmount = s.earnedAmount := by
  unfold endTick
  dsimp only
  split <;> rfl

@[simp] theorem EndTick.mix_burnedAmount (stream : Fin 3) (p : Provider) (w : EndTick) :
    (w.mix stream p).burnedAmount = w.burnedAmount := by
  unfold EndTick.mix
  dsimp only
  split <;> rfl

/-- A visit counts what it burns. -/
theorem visitRevealing_burnedAmount {stream : Fin 3} {p : Provider} {w : EndTick} {before : Nat}
    (h : w.burnedAmount = (before + burned (fun _ => true) w.payments) % 2 ^ 64) :
    (visitRevealing stream p w).1.burnedAmount =
      (before + burned (fun _ => true) (visitRevealing stream p w).1.payments) % 2 ^ 64 := by
  unfold visitRevealing
  split
  · rwa [EndTick.mix_burnedAmount, EndTick.mix_payments]
  · dsimp only
    rw [h, Nat.mod_add_mod, burned_append]
    split
    · rw [burned_burn, if_pos rfl, Nat.add_assoc]
    · rename_i hzero
      rw [Nat.eq_zero_of_not_pos hzero, burned_nil, Nat.add_assoc]

/-- The end of a tick counts what it burns. -/
theorem endTick_burnedAmount {before : Nat} (h : s.burnedAmount = before % 2 ^ 64) (tick : Nat) :
    (endTick tick s).1.burnedAmount =
      (before + burned (fun _ => true) (endTick tick s).2) % 2 ^ 64 := by
  unfold endTick
  dsimp only
  split
  · dsimp only
    apply SwapDelete.walk_invariant fun w : EndTick =>
      w.burnedAmount = (before + burned (fun _ => true) w.payments) % 2 ^ 64
    · intro p _ w hw
      exact visitRevealing_burnedAmount hw
    · exact h
  · dsimp only
    have hburned := SwapDelete.walk_invariant
      (l := (s.streams (streamOf tick)).map fun p => { p with contributedToEntropyFlag := false })
      (fun payments => burned (fun _ => true) payments = 0)
      (fun p _ payments hpayments => visitSilent_burned p hpayments) (s := []) rfl
    rw [hburned]
    exact h

/-! ## Runs -/

/-- What the invocations of a tick are paid, one after the other. -/
def invokePayments (qpi : Qpi) (tick : Nat) : List Invocation → StateData → List Payment
  | [], _ => []
  | inv :: rest, s =>
    (invoke qpi tick inv s).2 ++ invokePayments qpi tick rest (invoke qpi tick inv s).1

/-- What the invocations of a tick pay for entropy on behalf of some accounts. -/
def invokePrices (accounts : Digest → Bool) (qpi : Qpi) (tick : Nat) :
    List Invocation → StateData → Nat
  | [], _ => 0
  | inv :: rest, s =>
    inv.price accounts tick s + invokePrices accounts qpi tick rest (invoke qpi tick inv s).1

section

variable (qpi : Qpi) (start : Nat) (invocations : Nat → List Invocation) (s₀ : StateData)

/-- What the ticks before `start + n` pay. -/
def paymentsBefore : Nat → List Payment
  | 0 => []
  | n + 1 =>
    let s := stateBefore qpi start invocations s₀ n
    paymentsBefore n ++ invokePayments qpi (start + n) (invocations (start + n)) s ++
      (endTick (start + n) (invokeAll qpi (start + n) (invocations (start + n)) s)).2

/-- What is paid for entropy before the tick `start + n`. -/
def pricesBefore (accounts : Digest → Bool) : Nat → Nat
  | 0 => 0
  | n + 1 => pricesBefore accounts n +
      invokePrices accounts qpi (start + n) (invocations (start + n))
        (stateBefore qpi start invocations s₀ n)

end

/-- What is attached to the calls before the tick `start + n`. -/
def attachedBefore (accounts : Digest → Bool) (start : Nat) (invocations : Nat → List Invocation) :
    Nat → Nat
  | 0 => 0
  | n + 1 => attachedBefore accounts start invocations n +
      ((invocations (start + n)).map (Invocation.attached accounts)).sum

theorem invokeAll_money (qpi : Qpi) (tick : Nat) (invocations : List Invocation) (s : StateData) :
    (invocations.map (Invocation.attached accounts)).sum + s.locked accounts =
      transferred accounts (invokePayments qpi tick invocations s) +
        (invokeAll qpi tick invocations s).locked accounts +
        invokePrices accounts qpi tick invocations s := by
  induction invocations generalizing s with
  | nil =>
    show 0 + s.locked accounts = 0 + s.locked accounts + 0
    omega
  | cons inv rest ih =>
    have hrest := ih (invoke qpi tick inv s).1
    have hfirst := @invoke_money accounts qpi tick inv s
    rw [invoke_burned] at hfirst
    rw [List.map_cons, List.sum_cons, invokePayments, transferred_append, invokePrices]
    change _ = _ + (invokeAll qpi tick rest (invoke qpi tick inv s).1).locked accounts + _
    omega

theorem invokePayments_burned (qpi : Qpi) (tick : Nat) (invocations : List Invocation)
    (s : StateData) : burned accounts (invokePayments qpi tick invocations s) = 0 := by
  induction invocations generalizing s with
  | nil => rfl
  | cons inv rest ih => rw [invokePayments, burned_append, invoke_burned, ih]

theorem invokeAll_counters {earned : Nat} (h : s.earnedAmount = earned % 2 ^ 64) (qpi : Qpi)
    (tick : Nat) (invocations : List Invocation) :
    (invokeAll qpi tick invocations s).burnedAmount = s.burnedAmount ∧
      (invokeAll qpi tick invocations s).earnedAmount =
        (earned + invokePrices (fun _ => true) qpi tick invocations s) % 2 ^ 64 := by
  induction invocations generalizing s earned with
  | nil => exact ⟨rfl, h⟩
  | cons inv rest ih =>
    rcases invoke_counters h qpi tick inv with ⟨hburned, hearned⟩
    rcases ih hearned with ⟨hburned', hearned'⟩
    refine ⟨hburned'.trans hburned, ?_⟩
    rw [invokePrices, ← Nat.add_assoc]
    exact hearned'

/-- In a round only an entry that leaves has called with a zero commit, and it
locks nothing any more. -/
theorem Round.leaves {qpi : Qpi} {calls : List AcceptedCall} {s' : StateData} (h : Round qpi tick s calls s')
    (hrest : s.AtRest) : ∀ p ∈ s'.streams (streamOf tick), p.revealOrCommitFlag = true →
      p.commit = Digest.zero → p.lockedCollateralAmount = 0 := by
  intro p hp hflag hcommit
  rcases h.entries p hp with ⟨hold, -⟩ | ⟨c, -, hleft⟩
  · rw [(hrest.idle _ p hold).flag] at hflag
    cases hflag
  · rw [hleft.locked, if_pos]
    rw [← hleft.commit]
    exact hcommit

theorem attachedBefore_eq (accounts : Digest → Bool) (qpi : Qpi) (start : Nat)
    (invocations : Nat → List Invocation) (n : Nat) :
    attachedBefore accounts start invocations n =
      transferred accounts (paymentsBefore qpi start invocations emptyContract n) +
        burned accounts (paymentsBefore qpi start invocations emptyContract n) +
        (stateBefore qpi start invocations emptyContract n).locked accounts +
        pricesBefore qpi start invocations emptyContract accounts n := by
  induction n with
  | zero =>
    show 0 = 0 + 0 + emptyContract.locked accounts + 0
    simp [StateData.locked, emptyContract, lockedIn]
  | succ n ih =>
    have hrest := stateBefore_atRest emptyContract_atRest qpi start invocations n
    have hround := hrest.round qpi (start + n) (invocations (start + n))
    have hcalls := @invokeAll_money accounts qpi (start + n) (invocations (start + n))
      (stateBefore qpi start invocations emptyContract n)
    have hend := @endTick_money (start + n) accounts _ (hround.leaves hrest)
    simp only [attachedBefore, paymentsBefore, pricesBefore, stateBefore, transferred_append,
      burned_append, invokePayments_burned]
    omega

theorem counters_eq (qpi : Qpi) (start : Nat) (invocations : Nat → List Invocation) (n : Nat) :
    (stateBefore qpi start invocations emptyContract n).burnedAmount =
      burned (fun _ => true) (paymentsBefore qpi start invocations emptyContract n) % 2 ^ 64 ∧
    (stateBefore qpi start invocations emptyContract n).earnedAmount =
      pricesBefore qpi start invocations emptyContract (fun _ => true) n % 2 ^ 64 := by
  induction n with
  | zero => exact ⟨rfl, rfl⟩
  | succ n ih =>
    rcases ih with ⟨hburned, hearned⟩
    rcases invokeAll_counters hearned qpi (start + n) (invocations (start + n)) with
      ⟨hburned', hearned'⟩
    rw [hburned] at hburned'
    constructor
    · have hend := endTick_burnedAmount hburned' (start + n)
      simp only [paymentsBefore, burned_append, invokePayments_burned, Nat.add_zero]
      exact hend
    · exact (endTick_earnedAmount _ _).trans hearned'

/-- Whatever is called, from the first tick on: what some accounts attached to
their calls was sent back to them, was burned as their collateral, is locked for
them, or paid for entropy. The counters of the state are the burned amounts and
the prices of all accounts, modulo `2 ^ 64`. -/
theorem money_conserved (qpi : Qpi) (start : Nat) (invocations : Nat → List Invocation) (n : Nat) :
    let s := stateBefore qpi start invocations emptyContract n
    let payments := paymentsBefore qpi start invocations emptyContract n
    (∀ accounts, attachedBefore accounts start invocations n =
      transferred accounts payments + burned accounts payments + s.locked accounts +
        pricesBefore qpi start invocations emptyContract accounts n) ∧
    s.burnedAmount = burned (fun _ => true) payments % 2 ^ 64 ∧
    s.earnedAmount =
      pricesBefore qpi start invocations emptyContract (fun _ => true) n % 2 ^ 64 := by
  constructor
  · intro accounts
    exact attachedBefore_eq accounts qpi start invocations n
  · exact counters_eq qpi start invocations n

end RandomClient.Contract
