import Mathlib.Data.Nat.Bitwise
import RandomClient.Basic
import RandomClient.Lib.SwapDelete

/-!
# The Random contract

The state of the contract, its two procedures and the end of a tick. The arrays
of one stream are a list of its occupied entries, so a population is a length:
an entry past the population is zero in every array. What a procedure transfers
and burns is kept beside the state.
-/

namespace RandomClient.Contract

abbrev streamCapacity : Nat := 1365

/-- One enrolled provider: what the arrays hold at one index. -/
structure Provider where
  provider : Digest
  collateralTier : Fin 10
  commit : Digest
  reveal : Preimage
  lockedCollateralAmount : Nat
  /-- The provider called in this tick. -/
  revealOrCommitFlag : Bool
  revealedThisTickFlag : Bool
  contributedToEntropyFlag : Bool
  lastUpdateTick : Nat
deriving DecidableEq

/-- `StateData`. The amounts are 64-bit, and `entropy` is indexed by
`stream * 10 + tier`. -/
structure StateData where
  earnedAmount : Nat
  burnedAmount : Nat
  bitFee : Nat
  streams : Fin 3 → List Provider
  entropy : Nat → Preimage

/-- What the contract uses of its host. -/
structure Qpi where
  isContractId : Digest → Bool
  k12 : Preimage → Digest

/-- Money the contract sends away or destroys. A burn names the provider that
loses its collateral. -/
inductive Payment where
  | transfer (destination : Digest) (amount : Nat)
  | burn (provider : Digest) (collateralTier : Fin 10) (amount : Nat)
deriving DecidableEq

/-- A transfer that is skipped when there is nothing to send. -/
def transferLocked (destination : Digest) (amount : Nat) : List Payment :=
  if amount > 0 then [.transfer destination amount] else []

/-- `mod<uint32>(tick, 3)`. -/
def streamOf (tick : Nat) : Fin 3 := ⟨tick % streamCount, Nat.mod_lt _ (by decide)⟩

/-- The `switch` over the attached amount: the powers of ten up to the ninth. -/
def collateralTierOf (invocationReward : Nat) : Option (Fin 10) :=
  (List.finRange 10).find? fun tier => invocationReward = 10 ^ tier.val

/-! ## RevealAndCommit -/

/-- The loop that looks for the entry of a provider at a tier. -/
def findProvider (invocator : Digest) (tier : Fin 10) (providers : List Provider) : Option Nat :=
  providers.findIdx? fun p => p.provider = invocator ∧ p.collateralTier = tier

/-- The entry accepts the reveal: nothing is revealed yet, the preimage is that
of the commit, and the provider has not called in this tick. -/
def Provider.verifies (qpi : Qpi) (reveal : Preimage) (p : Provider) : Bool :=
  p.reveal = Preimage.zero ∧ qpi.k12 reveal = p.commit ∧ p.revealOrCommitFlag = false

/-- The entry that a reveal answers, with its index. -/
def verifiedProvider (qpi : Qpi) (invocator : Digest) (tier : Fin 10) (reveal : Preimage)
    (providers : List Provider) : Option (Nat × Provider) :=
  match findProvider invocator tier providers with
  | none => none
  | some i =>
    match providers[i]? with
    | none => none
    | some p => if p.verifies qpi reveal then some (i, p) else none

/-- The entry after an accepted reveal. -/
def Provider.revealed (input : RevealAndCommitInput) (lockedAmount tick : Nat) (p : Provider) :
    Provider :=
  { p with
    reveal := input.reveal
    commit := input.commit
    lockedCollateralAmount := lockedAmount
    revealOrCommitFlag := true
    revealedThisTickFlag := true
    lastUpdateTick := tick }

/-- The entry of a first commit. -/
def Provider.enrolled (invocator : Digest) (tier : Fin 10) (commit : Digest)
    (lockedAmount tick : Nat) : Provider where
  provider := invocator
  collateralTier := tier
  commit := commit
  reveal := Preimage.zero
  lockedCollateralAmount := lockedAmount
  revealOrCommitFlag := true
  revealedThisTickFlag := false
  contributedToEntropyFlag := false
  lastUpdateTick := tick

/-- The state with other entries in one stream. -/
def StateData.setStream (stream : Fin 3) (providers : List Provider) (s : StateData) : StateData :=
  { s with streams := Function.update s.streams stream providers }

/-- `RevealAndCommit`. -/
def revealAndCommit (qpi : Qpi) (tick : Nat) (invocator : Digest) (invocationReward : Nat)
    (input : RevealAndCommitInput) (s : StateData) : StateData × List Payment :=
  let refund := (s, [Payment.transfer invocator invocationReward])
  if qpi.isContractId invocator then refund
  else
    match collateralTierOf invocationReward with
    | none => refund
    | some tier =>
      let stream := streamOf tick
      let providers := s.streams stream
      if input.commit = Digest.zero then
        -- reveal and leave: the end of the tick evicts the entry by its zero commit
        if input.reveal = Preimage.zero then refund
        else
          match verifiedProvider qpi invocator tier input.reveal providers with
          | none => refund
          | some (i, p) =>
            (s.setStream stream (providers.set i (p.revealed input 0 tick)),
              transferLocked invocator p.lockedCollateralAmount ++
                [.transfer invocator invocationReward])
      else if input.reveal ≠ Preimage.zero then
        match verifiedProvider qpi invocator tier input.reveal providers with
        | none => refund
        | some (i, p) =>
          (s.setStream stream (providers.set i (p.revealed input invocationReward tick)),
            transferLocked invocator p.lockedCollateralAmount)
      else
        match findProvider invocator tier providers with
        | some _ => refund
        | none =>
          if providers.length = streamCapacity then refund
          else
            (s.setStream stream (providers ++
              [.enrolled invocator tier input.commit invocationReward tick]), [])

/-! ## BuyEntropy -/

/-- `BuyEntropy`. The third part is the output: the bits sold, the rest zero. -/
def buyEntropy (tick : Nat) (invocator : Digest) (invocationReward : Nat)
    (collateralTier numberOfBits : Nat) (trustee : Digest) (s : StateData) :
    StateData × List Payment × (Fin 4096 → Bool) :=
  let entropyCost := numberOfBits * s.bitFee
  let refund := (s, [Payment.transfer invocator invocationReward], fun _ => false)
  if collateralTier ≤ 9 ∧ 1 ≤ numberOfBits ∧ numberOfBits ≤ 4096 ∧
      entropyCost ≤ invocationReward then
    let stream := streamOf ((tick + 2) % 2 ^ 32)
    let entropy := s.entropy (stream.val * 10 + collateralTier)
    let trusteeOk : Bool := trustee = Digest.zero ∨ (s.streams stream).any fun p =>
      p.provider = trustee ∧ p.collateralTier.val = collateralTier ∧ p.contributedToEntropyFlag
    if entropy = Preimage.zero ∨ trusteeOk = false then refund
    else
      ({ s with earnedAmount := (s.earnedAmount + entropyCost) % 2 ^ 64 },
        transferLocked invocator (invocationReward - entropyCost),
        fun i => i.val < numberOfBits ∧
          ((entropy.toList.getD (i.val / 8) 0).toNat.testBit (i.val % 8)) = true)
  else refund

/-! ## The end of a tick -/

/-- The locals of `END_TICK` that its loop changes, and the state beside the entries. -/
structure EndTick where
  payments : List Payment
  burnedAmount : Nat
  entropy : Nat → Preimage
  collateralTierFlags : Nat

/-- A round of the loop of an empty tick: refund and remove the provider unless
it committed in this tick. -/
def visitSilent (p : Provider) (payments : List Payment) : List Payment × Option Provider :=
  if p.revealOrCommitFlag then (payments, some { p with revealOrCommitFlag := false })
  else (payments ++ transferLocked p.provider p.lockedCollateralAmount, none)

/-- Bytewise exclusive or. -/
def mixIn (entropy reveal : Preimage) : Preimage := List.Vector.map₂ (· ^^^ ·) entropy reveal

/-- The reveal of the provider is mixed into the entropy of its tier, unless a
no-show spoiled it. -/
def EndTick.mix (stream : Fin 3) (p : Provider) (w : EndTick) : EndTick :=
  let index := stream.val * 10 + p.collateralTier.val
  if p.revealedThisTickFlag && !w.collateralTierFlags.testBit p.collateralTier.val then
    { w with entropy := Function.update w.entropy index (mixIn (w.entropy index) p.reveal) }
  else w

/-- The entry of a provider that called in this tick, made ready for the next round. -/
def Provider.settled (spoiled : Bool) (p : Provider) : Provider :=
  { p with
    reveal := if p.revealedThisTickFlag then Preimage.zero else p.reveal
    contributedToEntropyFlag := p.contributedToEntropyFlag || (p.revealedThisTickFlag && !spoiled)
    revealOrCommitFlag := false
    revealedThisTickFlag := false }

/-- A round of the loop of a tick with a reveal: a provider that called stays,
or leaves if its commit is zero; a no-show loses its collateral and spoils its tier. -/
def visitRevealing (stream : Fin 3) (p : Provider) (w : EndTick) : EndTick × Option Provider :=
  if p.revealOrCommitFlag then
    (w.mix stream p, if p.commit = Digest.zero then none
      else some (p.settled (w.collateralTierFlags.testBit p.collateralTier.val)))
  else
    ({ w with
        payments := w.payments ++
          if p.lockedCollateralAmount > 0 then
            [.burn p.provider p.collateralTier p.lockedCollateralAmount]
          else []
        burnedAmount := (w.burnedAmount + p.lockedCollateralAmount) % 2 ^ 64
        collateralTierFlags := w.collateralTierFlags ||| 1 <<< p.collateralTier.val }, none)

/-- Reset the entropy of those of the ten tiers of a stream that satisfy a condition. -/
def resetEntropy (stream : Fin 3) (reset : Nat → Bool) (entropy : Nat → Preimage) :
    Nat → Preimage := fun index =>
  if stream.val * 10 ≤ index ∧ index < stream.val * 10 + 10 ∧ reset (index - stream.val * 10) then
    Preimage.zero
  else entropy index

/-- `END_TICK`. -/
def endTick (tick : Nat) (s : StateData) : StateData × List Payment :=
  let stream := streamOf tick
  let entropy := resetEntropy stream (fun _ => true) s.entropy
  let providers := (s.streams stream).map fun p => { p with contributedToEntropyFlag := false }
  if providers.any (·.revealedThisTickFlag) then
    let r := SwapDelete.walk (visitRevealing stream) providers.length
      { payments := [], burnedAmount := s.burnedAmount, entropy := entropy
        collateralTierFlags := 0 } providers
    ({ s with
        burnedAmount := r.1.burnedAmount
        streams := Function.update s.streams stream r.2
        entropy := resetEntropy stream (r.1.collateralTierFlags.testBit ·) r.1.entropy },
      r.1.payments)
  else
    let r := SwapDelete.walk visitSilent providers.length [] providers
    ({ s with streams := Function.update s.streams stream r.2, entropy := entropy }, r.1)

/-! ## Invocations -/

/-- A procedure with its input. -/
inductive Procedure where
  | revealAndCommit (input : RevealAndCommitInput)
  | buyEntropy (collateralTier numberOfBits : Nat) (trustee : Digest)
deriving DecidableEq

/-- A transaction that calls the contract. -/
structure Invocation where
  invocator : Digest
  invocationReward : Nat
  procedure : Procedure
deriving DecidableEq

/-- Execute an invocation in a tick. -/
def invoke (qpi : Qpi) (tick : Nat) (inv : Invocation) (s : StateData) :
    StateData × List Payment :=
  match inv.procedure with
  | .revealAndCommit input =>
    revealAndCommit qpi tick inv.invocator inv.invocationReward input s
  | .buyEntropy collateralTier numberOfBits trustee =>
    let r := buyEntropy tick inv.invocator inv.invocationReward collateralTier numberOfBits trustee s
    (r.1, r.2.1)

/-- The state after the invocations of a tick. -/
def invokeAll (qpi : Qpi) (tick : Nat) (invocations : List Invocation) (s : StateData) :
    StateData :=
  invocations.foldl (fun s inv => (invoke qpi tick inv s).1) s

/-- The state before the tick `start + n`, when each tick executes its
invocations and then ends. -/
def stateBefore (qpi : Qpi) (start : Nat) (invocations : Nat → List Invocation) (s : StateData) :
    Nat → StateData
  | 0 => s
  | n + 1 =>
    (endTick (start + n) (invokeAll qpi (start + n) (invocations (start + n))
      (stateBefore qpi start invocations s n))).1

end RandomClient.Contract
