import RandomClient.Commitments
import RandomClient.StatusOutput

/-!
# What the contract reports about a chain

A contract that has executed a chain up to a tick reports the last call it
executed: `GetProviderStatus`, encoded and decoded again, shows the target of
that call, or no slot when no call has come due.
-/

namespace RandomClient.Contract

/-! ## Well-formed states -/

section

variable {qpi : Qpi} {start : Nat} {invocations invocations' : Nat → List Invocation}

/-- The state before a tick depends on the invocations of the earlier ticks only. -/
theorem stateBefore_congr {n : Nat}
    (h : ∀ k < n, invocations (start + k) = invocations' (start + k)) (s : StateData) :
    stateBefore qpi start invocations s n = stateBefore qpi start invocations' s n := by
  induction n with
  | zero => rfl
  | succ n ih =>
    rw [stateBefore, stateBefore, ih fun k hk => h k (Nat.lt_succ_of_lt hk), h n (Nat.lt_succ_self n)]

theorem invoke_wellFormed {tick : Nat} {s : StateData} (h : s.WellFormed) (htick : tick ≤ u32Max)
    (inv : Invocation) : (invoke qpi tick inv s).1.WellFormed := by
  unfold invoke
  split
  · exact revealAndCommit_wellFormed h htick _ _ _
  · -- a sale leaves the entries as they are
    rename_i collateralTier numberOfBits trustee _
    have hstreams := @buyEntropy_streams tick inv.invocator inv.invocationReward s collateralTier
      numberOfBits trustee
    constructor
    · intro stream provider tier
      unfold StateData.enrolment
      rw [hstreams]
      exact h.unique stream provider tier
    · intro stream p hp
      rw [hstreams] at hp
      exact h.fits stream p hp

theorem invokeAll_wellFormed {tick : Nat} {s : StateData} (h : s.WellFormed) (htick : tick ≤ u32Max)
    (calls : List Invocation) : (invokeAll qpi tick calls s).WellFormed := by
  induction calls generalizing s with
  | nil => exact h
  | cons inv rest ih => exact ih (invoke_wellFormed h htick inv)

theorem stateBefore_wellFormed {n : Nat} (h : ∀ k < n, start + k ≤ u32Max) :
    (stateBefore qpi start invocations emptyContract n).WellFormed := by
  induction n with
  | zero => exact emptyContract_wellFormed
  | succ n ih =>
    have hbefore := ih fun k hk => h k (Nat.lt_succ_of_lt hk)
    exact endTick_wellFormed (invokeAll_wellFormed hbefore (h n (Nat.lt_succ_self n)) _) _

end

/-! ## The decoded status -/

/-- The decoded status shows the entry of a key, if there is one. -/
theorem slot_of_enrolment {s : StateData} (h : s.WellFormed) {stream : Fin 3}
    {provider : Digest} {tier : Fin 10} {enrolled : Option Provider}
    (henrolled : s.enrolment stream provider tier = enrolled.toList) :
    ProviderStatus.slot { slots := (heldBy provider s).map slotOf }
      { stream := stream, collateralTier := tier } = enrolled.map fun p => slotOf (stream, p) := by
  cases enrolled with
  | none =>
    rw [Option.map_none, ← Option.not_isSome_iff_eq_none]
    intro hsome
    rcases Option.isSome_iff_exists.1 hsome with ⟨slot, hfound⟩
    rcases List.mem_map.1 (List.mem_of_find?_eq_some hfound) with ⟨⟨stream', p⟩, hmem, rfl⟩
    have hkey : (slotOf (stream', p)).key = { stream := stream, collateralTier := tier } := by
      have hsame := List.find?_some hfound
      simpa using hsame
    have hstream : stream' = stream := Fin.ext (congrArg SlotKey.stream hkey)
    have htier : p.collateralTier = tier := Fin.ext (congrArg SlotKey.collateralTier hkey)
    rcases mem_heldBy.1 hmem with ⟨hp, hprovider⟩
    have hown : p ∈ s.enrolment stream provider tier := by
      rw [← hstream]
      exact List.mem_filter.2 ⟨hp, isOwn_iff.2 ⟨hprovider, htier⟩⟩
    rw [henrolled] at hown
    cases hown
  | some p =>
    have hown : p ∈ s.enrolment stream provider tier := by
      rw [henrolled]
      exact List.mem_singleton_self p
    rcases List.mem_filter.1 hown with ⟨hp, hsame⟩
    rcases isOwn_iff.1 hsame with ⟨hprovider, rfl⟩
    exact @StateData.WellFormed.slot_eq provider s h (stream, p) (mem_heldBy.2 ⟨hp, hprovider⟩)

/-- It shows the tick of its last update. -/
theorem lastUpdateTick_of_enrolment {s : StateData} (h : s.WellFormed) {stream : Fin 3}
    {provider : Digest} {tier : Fin 10} {enrolled : Option Provider}
    (henrolled : s.enrolment stream provider tier = enrolled.toList) :
    (ProviderStatus.slot { slots := (heldBy provider s).map slotOf }
      { stream := stream, collateralTier := tier }).map ProviderSlot.lastUpdateTick =
        enrolled.map Provider.lastUpdateTick := by
  rw [slot_of_enrolment h henrolled, Option.map_map]
  rfl

/-! ## A chain executed up to a tick -/

/-- The calls of a chain with targets up to a tick have been executed, and until
then nobody else called for the provider at the tier. The contract had room for
the first one. -/
structure ExecutedThrough (cfg : Config) (qpi : Qpi) (i : Fin 3) (provider : Digest) (tier : Fin 10)
    (chain : List SignedCall) (birth : Nat) (invocations : Nat → List Invocation) (through : Nat) :
    Prop where
  collateral : cfg.collateral = 10 ^ tier.val
  k12 : ∀ preimage, qpi.k12 preimage = cfg.commitDigest preimage
  user : qpi.isContractId provider = false
  executed : ∀ call ∈ chain, call.targetTick ≤ through →
    call.invocation cfg provider ∈ invocations call.targetTick
  only : ∀ tick ≤ through, ∀ inv ∈ invocations tick, IsCallOf i provider tier tick inv →
    ∃ call ∈ chain, call.targetTick = tick ∧ inv = call.invocation cfg provider
  birth_le : ∀ call ∈ chain, birth ≤ call.targetTick
  room : ∀ first ∈ chain.head?, ∀ earlier,
    earlier ++ [first.invocation cfg provider] <+: invocations first.targetTick →
      first.invocation cfg provider ∉ earlier →
        ((invokeAll qpi first.targetTick earlier (stateBefore qpi birth invocations emptyContract
          (first.targetTick - birth))).streams i).length < streamCapacity

section

variable {cfg : Config} {qpi : Qpi} {i : Fin 3} {provider : Digest} {tier : Fin 10}
  {chain : List SignedCall} {birth : Nat} {invocations : Nat → List Invocation} {through : Nat}

/-- Before the first target the provider is not enrolled. -/
theorem ExecutedThrough.absent
    (h : ExecutedThrough cfg qpi i provider tier chain birth invocations through)
    (hlater : ∀ call ∈ chain, through < call.targetTick) :
    (stateBefore qpi birth invocations emptyContract (through + 1 - birth)).enrolment i provider
      tier = [] := by
  rw [List.eq_nil_iff_forall_not_mem]
  intro p hown
  rcases List.mem_filter.1 hown with ⟨hp, hsame⟩
  rcases isOwn_iff.1 hsame with ⟨hprovider, htier⟩
  -- an entry comes from a call made by then
  rcases exists_next_tick (birth + (through + 1 - birth)) i with ⟨k, hk, hstream, hbefore⟩
  simp only [Nat.add_assoc] at hstream hbefore
  rw [← @stateBefore_hold qpi birth invocations _ _ k hbefore, ← hstream] at hp
  rcases due_made (mem_due.2 ⟨p, hp, rfl⟩) with
    ⟨hle, inv, hinv, input, hinvocator, hreward, hprocedure, -⟩
  simp only [streamCount] at hle hk
  have hdue : birth + (through + 1 - birth + k - streamCount) + streamCount =
      birth + (through + 1 - birth + k) := by
    simp only [streamCount]
    omega
  have hsame' : streamOf (birth + (through + 1 - birth + k - streamCount)) = i := by
    rw [← streamOf_add_streamCount, hdue, hstream]
  have hthrough : birth + (through + 1 - birth + k - streamCount) ≤ through := by
    simp only [streamCount]
    omega
  rcases h.only _ hthrough inv hinv
    ⟨hsame', hinvocator.trans hprovider, by rw [hreward]; exact congrArg some htier, input, hprocedure⟩
    with ⟨call, hcall, htarget, -⟩
  have hlt := hlater call hcall
  omega

/-- From a target to the next the provider is enrolled as its call left it. -/
theorem ExecutedThrough.enrolled
    (h : ExecutedThrough cfg qpi i provider tier chain birth invocations through)
    (hsound : SoundChain cfg i chain) {call : SignedCall} (hmem : call ∈ chain)
    (hle : call.targetTick ≤ through) (hlt : through < call.targetTick + streamCount) :
    After cfg [call] ((stateBefore qpi birth invocations emptyContract
      (through + 1 - birth)).enrolment i provider tier) := by
  rcases List.append_of_mem hmem with ⟨front, back, hsplit⟩
  -- the part of the chain that has been executed, and the invocations by then
  let begun := front ++ [call]
  let made tick := if tick ≤ through then invocations tick else []
  have hbegun : ∀ k ∈ begun, k ∈ chain ∧ k.targetTick ≤ through := by
    intro k hk
    rcases List.mem_append.1 hk with hfront | hcall
    · have hspaced := hsound.le_target hsplit hfront
      rw [hsplit]
      exact ⟨List.mem_append_left _ hfront, by omega⟩
    · rw [List.mem_singleton.1 hcall]
      exact ⟨hmem, hle⟩
  have hsound' : SoundChain cfg i begun := by
    constructor
    · have hlinked := hsound.linked
      rw [IsChainOf, hsplit, ← List.singleton_append, ← List.append_assoc, List.map_append] at hlinked
      exact hlinked.init
    · intro k hk
      exact hsound.stream k (hbegun k hk).1
    · intro k hk
      exact hsound.nonzero k (hbegun k hk).1
  have hsame : ∀ {n}, birth + n ≤ through + 1 →
      stateBefore qpi birth made emptyContract n =
        stateBefore qpi birth invocations emptyContract n := by
    intro n hn
    apply stateBefore_congr
    intro k hk
    exact if_pos (by omega)
  have hrun : ExecutingRun cfg qpi i provider tier begun birth made emptyContract := by
    refine ⟨h.collateral, h.k12, h.user, ⟨?_, ?_⟩, ?_, rfl, ?_⟩
    · intro k hk
      rcases hbegun k hk with ⟨hkmem, hkle⟩
      show _ ∈ if _ then _ else _
      rw [if_pos hkle]
      exact h.executed k hkmem hkle
    · intro tick inv hinv hcallOf
      change inv ∈ if tick ≤ through then invocations tick else [] at hinv
      split at hinv
      · rename_i htick
        rcases h.only tick htick inv hinv hcallOf with ⟨k, hk, htarget, hinvEq⟩
        refine ⟨k, ?_, htarget, hinvEq⟩
        rw [hsplit] at hk
        rcases List.mem_append.1 hk with hfront | hrest
        · exact List.mem_append_left _ hfront
        · rcases List.mem_cons.1 hrest with rfl | hback
          · simp [begun]
          · -- a later call has not come due
            have hspaced := hsound.target_le hsplit hback
            omega
      · cases hinv
    · intro k hk
      exact h.birth_le k (hbegun k hk).1
    · intro first hfirst earlier hearlier hnew
      have hfirst' : first ∈ chain.head? := by
        rw [hsplit]
        cases front with
        | nil => exact hfirst
        | cons k front => exact hfirst
      have hfirstLe := (hbegun first (List.mem_of_mem_head? hfirst)).2
      have hfirstBirth := h.birth_le first (List.mem_of_mem_head? hfirst')
      rw [hsame (by omega)]
      refine h.room first hfirst' earlier ?_ hnew
      change _ <+: if first.targetTick ≤ through then invocations first.targetTick else [] at hearlier
      rwa [if_pos hfirstLe] at hearlier
  have hcall : call ∈ begun := by simp [begun]
  have hafter := hrun.enrolled hsound' hcall hle hlt
  have hbirth := h.birth_le call hmem
  rwa [hsame (by omega)] at hafter

end

end RandomClient.Contract
