import RandomClient.Settlement

/-!
# The commit and reveal protocol of the contract

A run of the contract seen through its accepted calls alone. A commitment made
in a tick is due three ticks later, when the same stream has its next tick: the
calls accepted there reveal what is due or open anew (`reveals_committed`), and
who lets a due commitment pass is removed (`removed_iff`).
-/

namespace RandomClient.Contract

section

variable (qpi : Qpi) (start : Nat) (invocations : Nat → List Invocation)

/-- The calls accepted in the tick `start + n` of a run from the empty contract. -/
def callsAt (n : Nat) : List AcceptedCall :=
  acceptedCalls qpi (start + n) (invocations (start + n))
    (stateBefore qpi start invocations emptyContract n)

/-- What the end of the tick `start + n` pays. -/
def paymentsAt (n : Nat) : List Payment :=
  (endTick (start + n) (invokeAll qpi (start + n) (invocations (start + n))
    (stateBefore qpi start invocations emptyContract n))).2

/-- The commitments due in the tick `start + n`: those made three ticks before. -/
def dueAt (n : Nat) : List Commitment :=
  if n < streamCount then []
  else (callsAt qpi start invocations (n - streamCount)).filterMap AcceptedCall.commitment

end

variable {qpi : Qpi} {start : Nat} {invocations : Nat → List Invocation}

theorem streamOf_ne {tick tick' : Nat} (hlt : tick < tick') (hclose : tick' < tick + streamCount) :
    streamOf tick ≠ streamOf tick' := by
  intro heq
  have hval := congrArg Fin.val heq
  change tick % 3 = tick' % 3 at hval
  unfold streamCount at hclose
  omega

theorem streamOf_add_streamCount (tick : Nat) : streamOf (tick + streamCount) = streamOf tick :=
  Fin.ext (Nat.add_mod_right tick 3)

/-- The next tick of a stream is at most two ticks ahead. -/
theorem exists_next_tick (tick : Nat) (stream : Fin 3) :
    ∃ k < streamCount, streamOf (tick + k) = stream ∧ ∀ j < k, streamOf (tick + j) ≠ stream := by
  have hlt := stream.isLt
  refine ⟨(stream.val + 3 - tick % 3) % 3, Nat.mod_lt _ (by decide), ?_, ?_⟩
  · apply Fin.ext
    simp only [streamOf, streamCount]
    omega
  · intro j hj heq
    have hval := congrArg Fin.val heq
    simp only [streamOf, streamCount] at hval
    omega

/-- A tick leaves the other streams as they are. -/
theorem stateBefore_succ_of_ne {n : Nat} {stream : Fin 3} (h : streamOf (start + n) ≠ stream) :
    (stateBefore qpi start invocations emptyContract (n + 1)).streams stream =
      (stateBefore qpi start invocations emptyContract n).streams stream := by
  have hrest := stateBefore_atRest emptyContract_atRest qpi start invocations n
  show (endTick (start + n) _).1.streams stream = _
  rw [endTick_streams, Function.update_of_ne h.symm]
  exact (hrest.round qpi (start + n) (invocations (start + n))).others stream h.symm

/-- Between two of its ticks a stream does not change. -/
theorem stateBefore_hold {n : Nat} {stream : Fin 3} (k : Nat)
    (h : ∀ j < k, streamOf (start + (n + j)) ≠ stream) :
    (stateBefore qpi start invocations emptyContract (n + k)).streams stream =
      (stateBefore qpi start invocations emptyContract n).streams stream := by
  induction k with
  | zero => rfl
  | succ k ih =>
    rw [← Nat.add_assoc, stateBefore_succ_of_ne (h k (Nat.lt_succ_self k))]
    exact ih fun j hj => h j (Nat.lt_succ_of_lt hj)

/-- What the stream of a tick holds when the tick begins is what is due. -/
theorem due_perm (n : Nat) :
    (((stateBefore qpi start invocations emptyContract n).streams (streamOf (start + n))).map
      Provider.commitment).Perm (dueAt qpi start invocations n) := by
  unfold dueAt
  split
  · rename_i hfirst
    -- the stream has had no tick yet
    have hhold := @stateBefore_hold qpi start invocations 0 (streamOf (start + n)) n
      (fun j hj => streamOf_ne (by omega) (by omega))
    rw [Nat.zero_add] at hhold
    rw [hhold]
    exact .refl _
  · rename_i hlater
    have hn : n - streamCount + 1 + 2 = n := by unfold streamCount at *; omega
    have htick : start + n = start + (n - streamCount) + streamCount := by omega
    have hhold := @stateBefore_hold qpi start invocations (n - streamCount + 1)
      (streamOf (start + n)) 2 (fun j hj => streamOf_ne (by omega) (by omega))
    have hrest := stateBefore_atRest emptyContract_atRest qpi start invocations (n - streamCount)
    have hround := hrest.round qpi (start + (n - streamCount))
      (invocations (start + (n - streamCount)))
    rw [hn] at hhold
    rw [hhold, htick, streamOf_add_streamCount]
    exact (hround.settles hrest).2

/-- An entry before the tick is a due commitment. -/
theorem mem_due {n : Nat} {d : Commitment} :
    d ∈ dueAt qpi start invocations n ↔
      ∃ p ∈ (stateBefore qpi start invocations emptyContract n).streams (streamOf (start + n)),
        p.commitment = d := by
  rw [← (due_perm n).mem_iff, List.mem_map]

/-- An accepted call was made by an invocation. -/
theorem mem_acceptedCalls {tick : Nat} {s : StateData} {invocations : List Invocation}
    {c : AcceptedCall}
    (h : c ∈ acceptedCalls qpi tick invocations s) : ∃ inv ∈ invocations,
      inv.invocator = c.provider ∧ collateralTierOf inv.invocationReward = some c.collateralTier ∧
        inv.procedure = .revealAndCommit c.input := by
  induction invocations generalizing s with
  | nil => cases h
  | cons inv rest ih =>
    rw [acceptedCalls] at h
    rcases List.mem_append.1 h with h | h
    · refine ⟨inv, by simp, ?_⟩
      have hcall := Option.mem_toList.1 h
      unfold acceptedCall at hcall
      split at hcall
      · rename_i input tier hprocedure htier
        split at hcall
        · cases hcall
        · cases hcall
          exact ⟨rfl, htier, hprocedure⟩
      · cases hcall
    · rcases ih h with ⟨inv', hmem, hcall⟩
      exact ⟨inv', List.mem_cons_of_mem _ hmem, hcall⟩

/-- A commitment that is due was made by an invocation in the same stream, three
ticks before. -/
theorem due_made {n : Nat} {d : Commitment}
    (hdue : d ∈ dueAt qpi start invocations n) :
    streamCount ≤ n ∧ ∃ inv ∈ invocations (start + (n - streamCount)), ∃ input,
      inv.invocator = d.provider ∧ collateralTierOf inv.invocationReward = some d.collateralTier ∧
        inv.procedure = .revealAndCommit input ∧ input.commit = d.commit ∧ d.commit ≠ Digest.zero := by
  unfold dueAt at hdue
  split at hdue
  · cases hdue
  · rename_i hlater
    rcases List.mem_filterMap.1 hdue with ⟨c, hc, hmade⟩
    rcases mem_acceptedCalls hc with ⟨inv, hinv, hinvocator, htier, hprocedure⟩
    unfold AcceptedCall.commitment at hmade
    split at hmade
    · cases hmade
    · rename_i hcommit
      cases hmade
      exact ⟨Nat.le_of_not_lt hlater, inv, hinv, _, hinvocator, htier, hprocedure, rfl, hcommit⟩

/-- In every tick of every run each provider has at most one call accepted at a
tier. The call reveals the preimage of what the same provider committed at the
tier exactly three ticks before; or it reveals nothing, commits to something and
its provider has nothing due. -/
theorem reveals_committed (qpi : Qpi) (start : Nat) (invocations : Nat → List Invocation) (n : Nat) :
    ((callsAt qpi start invocations n).Pairwise fun c d =>
      ¬ (c.provider = d.provider ∧ c.collateralTier = d.collateralTier)) ∧
    ∀ c ∈ callsAt qpi start invocations n,
      (c.input.reveal ≠ Preimage.zero →
        ⟨c.provider, c.collateralTier, qpi.k12 c.input.reveal⟩ ∈ dueAt qpi start invocations n) ∧
      (c.input.reveal = Preimage.zero →
        c.input.commit ≠ Digest.zero ∧
          ∀ commit, ⟨c.provider, c.collateralTier, commit⟩ ∉ dueAt qpi start invocations n) := by
  have hrest := stateBefore_atRest emptyContract_atRest qpi start invocations n
  have hround := hrest.round qpi (start + n) (invocations (start + n))
  refine ⟨hround.once, ?_⟩
  intro c hc
  constructor
  · intro hreveal
    rcases hround.reveals c hc hreveal with ⟨p, hp, hof, hcommit⟩
    refine mem_due.2 ⟨p, hp, ?_⟩
    rw [hof.1, hof.2, hcommit]
    rfl
  · intro hreveal
    constructor
    · rcases hround.called c hc with ⟨p, -, hleft⟩
      exact hleft.commits hreveal
    · intro commit hdue
      rcases mem_due.1 hdue with ⟨p, hp, hcommitment⟩
      refine hround.opens c hc hreveal p hp ⟨?_, ?_⟩
      · exact (congrArg Commitment.provider hcommitment).symm
      · exact (congrArg Commitment.collateralTier hcommitment).symm

/-- The provider has a commitment due in the tick and no call accepted in it. -/
def Misses (qpi : Qpi) (start : Nat) (invocations : Nat → List Invocation) (n : Nat)
    (provider : Digest) (tier : Fin 10) : Prop :=
  (∃ commit, ⟨provider, tier, commit⟩ ∈ dueAt qpi start invocations n) ∧
    ∀ c ∈ callsAt qpi start invocations n, ¬ (c.provider = provider ∧ c.collateralTier = tier)

theorem misses_iff {n : Nat} {provider : Digest} {tier : Fin 10} :
    Misses qpi start invocations n provider tier ↔
      ∃ p ∈ noShows (callsAt qpi start invocations n)
          ((stateBefore qpi start invocations emptyContract n).streams (streamOf (start + n))),
        p.provider = provider ∧ p.collateralTier = tier := by
  unfold Misses noShows
  constructor
  · rintro ⟨⟨commit, hdue⟩, hnone⟩
    rcases mem_due.1 hdue with ⟨p, hp, hcommitment⟩
    have hprovider : p.provider = provider := congrArg Commitment.provider hcommitment
    have htier : p.collateralTier = tier := congrArg Commitment.collateralTier hcommitment
    refine ⟨p, List.mem_filter.2 ⟨hp, ?_⟩, hprovider, htier⟩
    rw [Bool.not_eq_true', List.any_eq_false]
    intro c hc hof
    have hof := of_decide_eq_true hof
    exact hnone c hc ⟨hof.1.trans hprovider, hof.2.trans htier⟩
  · rintro ⟨p, hp, hprovider, htier⟩
    rcases List.mem_filter.1 hp with ⟨hp, hnone⟩
    refine ⟨⟨p.commit, mem_due.2 ⟨p, hp, ?_⟩⟩, ?_⟩
    · rw [← hprovider, ← htier]
      rfl
    · intro c hc hsame
      rw [Bool.not_eq_true', List.any_eq_false] at hnone
      refine hnone c hc (decide_eq_true ⟨hsame.1.trans hprovider.symm, hsame.2.trans htier.symm⟩)

theorem removed_inj {revealed : Bool} {p q : Provider}
    (h : p.removed revealed = q.removed revealed) :
    p.provider = q.provider ∧ p.collateralTier = q.collateralTier := by
  unfold Provider.removed at h
  cases revealed with
  | true =>
    injection h with hprovider htier
    exact ⟨hprovider, htier⟩
  | false =>
    injection h with hprovider hamount
    exact ⟨hprovider, Fin.ext (Nat.pow_right_injective (by decide : 2 ≤ 10) hamount)⟩

theorem paymentsAt_perm (qpi : Qpi) (start : Nat) (invocations : Nat → List Invocation) (n : Nat) :
    (paymentsAt qpi start invocations n).Perm
      (settlement (callsAt qpi start invocations n)
        ((stateBefore qpi start invocations emptyContract n).streams (streamOf (start + n)))) := by
  have hrest := stateBefore_atRest emptyContract_atRest qpi start invocations n
  have hround := hrest.round qpi (start + n) (invocations (start + n))
  exact (hround.settles hrest).1

/-- A burn is the collateral of a provider that misses its commitment. -/
theorem burn_iff {n : Nat} {provider : Digest} {tier : Fin 10} {amount : Nat} :
    .burn provider tier amount ∈ paymentsAt qpi start invocations n ↔
      someRevealed (callsAt qpi start invocations n) = true ∧ amount = 10 ^ tier.val ∧
        Misses qpi start invocations n provider tier := by
  rw [(paymentsAt_perm qpi start invocations n).mem_iff, misses_iff]
  unfold settlement
  rw [List.mem_map]
  cases someRevealed (callsAt qpi start invocations n) with
  | true =>
    constructor
    · rintro ⟨p, hp, hremoved⟩
      injection hremoved with hprovider htier hamount
      exact ⟨rfl, by rw [← hamount, htier], p, hp, hprovider, htier⟩
    · rintro ⟨-, rfl, p, hp, rfl, rfl⟩
      exact ⟨p, hp, rfl⟩
  | false =>
    constructor
    · rintro ⟨p, hp, hremoved⟩
      cases hremoved
    · rintro ⟨hfalse, -⟩
      cases hfalse

/-- A transfer sends the collateral back to a provider that misses its
commitment in a tick without a reveal. -/
theorem transfer_iff {n : Nat} {destination : Digest} {amount : Nat} :
    .transfer destination amount ∈ paymentsAt qpi start invocations n ↔
      someRevealed (callsAt qpi start invocations n) = false ∧ ∃ tier : Fin 10,
        amount = 10 ^ tier.val ∧ Misses qpi start invocations n destination tier := by
  rw [(paymentsAt_perm qpi start invocations n).mem_iff]
  simp only [misses_iff]
  unfold settlement
  rw [List.mem_map]
  cases someRevealed (callsAt qpi start invocations n) with
  | true =>
    constructor
    · rintro ⟨p, hp, hremoved⟩
      cases hremoved
    · rintro ⟨hfalse, -⟩
      cases hfalse
  | false =>
    constructor
    · rintro ⟨p, hp, hremoved⟩
      injection hremoved with hprovider hamount
      exact ⟨rfl, p.collateralTier, hamount.symm, p, hp, hprovider, rfl⟩
    · rintro ⟨-, tier, rfl, p, hp, rfl, rfl⟩
      exact ⟨p, hp, rfl⟩

/-- In every tick of every run, and for every provider, tier and amount: the end
of the tick burns the collateral of the tier exactly when the provider misses its
commitment in a tick in which some accepted call revealed; in a tick without a
reveal it sends it back. Nothing is burned or sent back twice. -/
theorem removed_iff (qpi : Qpi) (start : Nat) (invocations : Nat → List Invocation) (n : Nat) :
    (paymentsAt qpi start invocations n).Nodup ∧
    ∀ (provider : Digest) (amount : Nat),
      (∀ tier, .burn provider tier amount ∈ paymentsAt qpi start invocations n ↔
        someRevealed (callsAt qpi start invocations n) = true ∧ amount = 10 ^ tier.val ∧
          Misses qpi start invocations n provider tier) ∧
      (.transfer provider amount ∈ paymentsAt qpi start invocations n ↔
        someRevealed (callsAt qpi start invocations n) = false ∧
          ∃ tier : Fin 10, amount = 10 ^ tier.val ∧
            Misses qpi start invocations n provider tier) := by
  have hrest := stateBefore_atRest emptyContract_atRest qpi start invocations n
  have hkeys := pairwise_differentKeys (hrest.unique (streamOf (start + n)))
  constructor
  · rw [(paymentsAt_perm qpi start invocations n).nodup_iff]
    exact nodup_of_differentKeys _ (fun p q => removed_inj) (hkeys.filter _)
  · intro provider amount
    exact ⟨fun tier => burn_iff, transfer_iff⟩

end RandomClient.Contract
