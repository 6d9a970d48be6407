import RandomClient.Acceptance
import RandomClient.Rounds

/-!
# How a tick settles

The end of a tick pays and keeps what the accepted calls of the tick say. A
provider that was enrolled before the tick and had no call accepted is a
no-show: its collateral is burned when some other call revealed, and goes back
to it otherwise. What the stream keeps is one commitment for each accepted call
that made one (`tick_settles`).
-/

namespace RandomClient.Contract

/-! ## What the accepted calls settle -/

/-- What a stream keeps of a provider between two of its ticks. -/
structure Commitment where
  provider : Digest
  collateralTier : Fin 10
  commit : Digest
deriving DecidableEq

def Provider.commitment (p : Provider) : Commitment where
  provider := p.provider
  collateralTier := p.collateralTier
  commit := p.commit

/-- The call that left the entry, for an entry that called. -/
def Provider.call (p : Provider) : AcceptedCall where
  provider := p.provider
  collateralTier := p.collateralTier
  input := { reveal := p.reveal, commit := p.commit }

/-- What a call commits to: nothing, when it reveals and leaves. -/
def AcceptedCall.commitment (c : AcceptedCall) : Option Commitment :=
  if c.input.commit = Digest.zero then none
  else some { provider := c.provider, collateralTier := c.collateralTier, commit := c.input.commit }

/-- The entries whose providers had no call accepted. -/
def noShows (calls : List AcceptedCall) (providers : List Provider) : List Provider :=
  providers.filter fun p => !calls.any fun c => c.Of p

def someRevealed (calls : List AcceptedCall) : Bool :=
  calls.any fun c => c.input.reveal ≠ Preimage.zero

/-- The collateral of an entry that is removed: burned in a tick with a reveal,
sent back in one without. -/
def Provider.removed (revealed : Bool) (p : Provider) : Payment :=
  if revealed then .burn p.provider p.collateralTier (10 ^ p.collateralTier.val)
  else .transfer p.provider (10 ^ p.collateralTier.val)

/-- What the end of a tick pays for its accepted calls. -/
def settlement (calls : List AcceptedCall) (providers : List Provider) : List Payment :=
  (noShows calls providers).map (Provider.removed (someRevealed calls))

variable {qpi : Qpi} {tick : Nat} {s s' : StateData} {calls : List AcceptedCall}

/-! ## The entries of a round -/

/-- Entries at different keys. -/
def DifferentKeys (p q : Provider) : Prop :=
  ¬ (p.provider = q.provider ∧ p.collateralTier = q.collateralTier)

theorem pairwise_differentKeys {providers : List Provider}
    (h : ∀ provider tier, (providers.filter (isOwn provider tier)).length ≤ 1) :
    providers.Pairwise DifferentKeys := by
  induction providers with
  | nil => exact .nil
  | cons p rest ih =>
    constructor
    · intro q hq hsame
      have hown : isOwn p.provider p.collateralTier p = true := isOwn_iff.2 ⟨rfl, rfl⟩
      have hone := h p.provider p.collateralTier
      rw [List.filter_cons_of_pos hown, List.length_cons] at hone
      have hnone := List.eq_nil_of_length_eq_zero (Nat.le_zero.1 (Nat.le_of_succ_le_succ hone))
      exact List.filter_eq_nil_iff.1 hnone q hq (isOwn_iff.2 ⟨hsame.1.symm, hsame.2.symm⟩)
    · apply ih
      intro provider tier
      refine le_trans ?_ (h provider tier)
      exact ((List.sublist_cons_self p rest).filter _).length_le

theorem nodup_of_differentKeys {α : Type*} {l : List Provider} (f : Provider → α)
    (hf : ∀ p q, f p = f q → p.provider = q.provider ∧ p.collateralTier = q.collateralTier)
    (h : l.Pairwise DifferentKeys) : (l.map f).Nodup :=
  List.pairwise_map.2 (h.imp fun hne heq => hne (hf _ _ heq))

theorem Round.different (h : Round qpi tick s calls s') :
    (s'.streams (streamOf tick)).Pairwise DifferentKeys := pairwise_differentKeys h.unique

/-- The call left the entry exactly when the entry says so. -/
theorem AcceptedCall.Left.call_eq {c : AcceptedCall} {p : Provider} (h : c.Left p) :
    p.call = c := by
  unfold Provider.call
  rw [← h.of.1, ← h.of.2, h.commit, h.reveal]

/-- The entries that called are those of the accepted calls. -/
theorem Round.callers (h : Round qpi tick s calls s') (hrest : s.AtRest) :
    (((s'.streams (streamOf tick)).filter (·.revealOrCommitFlag)).map Provider.call).Perm calls := by
  have hentries := nodup_of_differentKeys Provider.call
    (fun p q hsame => ⟨congrArg AcceptedCall.provider hsame,
      congrArg AcceptedCall.collateralTier hsame⟩)
    (h.different.filter (·.revealOrCommitFlag))
  have hcalls : calls.Nodup := by
    refine h.once.imp ?_
    rintro c d hne rfl
    exact hne ⟨rfl, rfl⟩
  rw [List.perm_ext_iff_of_nodup hentries hcalls]
  intro c
  constructor
  · intro hc
    rcases List.mem_map.1 hc with ⟨p, hp, rfl⟩
    rcases List.mem_filter.1 hp with ⟨hp, hflag⟩
    rcases h.entries p hp with ⟨hold, -⟩ | ⟨c, hc, hleft⟩
    · rw [(hrest.idle _ p hold).flag] at hflag
      cases hflag
    · rwa [hleft.call_eq]
  · intro hc
    rcases h.called c hc with ⟨p, hp, hleft⟩
    exact List.mem_map.2 ⟨p, List.mem_filter.2 ⟨hp, hleft.flag⟩, hleft.call_eq⟩

/-- The entries that did not call are the no-shows. -/
theorem Round.silent (h : Round qpi tick s calls s') (hrest : s.AtRest) :
    ((s'.streams (streamOf tick)).filter (!·.revealOrCommitFlag)).Perm
      (noShows calls (s.streams (streamOf tick))) := by
  have hnodup : ∀ {l : List Provider}, l.Pairwise DifferentKeys → l.Nodup := by
    intro l hl
    refine hl.imp ?_
    rintro p q hne rfl
    exact hne ⟨rfl, rfl⟩
  unfold noShows
  rw [List.perm_ext_iff_of_nodup (hnodup (h.different.filter _))
    (hnodup ((pairwise_differentKeys (hrest.unique _)).filter _))]
  intro p
  rw [List.mem_filter, List.mem_filter, Bool.not_eq_true', Bool.not_eq_true',
    List.any_eq_false]
  constructor
  · rintro ⟨hp, hflag⟩
    rcases h.entries p hp with ⟨hold, hnone⟩ | ⟨c, -, hleft⟩
    · exact ⟨hold, fun c hc => by simpa using hnone c hc⟩
    · rw [hleft.flag] at hflag
      cases hflag
  · rintro ⟨hp, hnone⟩
    refine ⟨?_, (hrest.idle _ p hp).flag⟩
    rcases h.kept p hp with hkept | ⟨c, hc, hof⟩
    · exact hkept
    · exact absurd (decide_eq_true hof) (hnone c hc)

/-- A reveal was accepted exactly when an entry says so. -/
theorem Round.someRevealed (h : Round qpi tick s calls s') (hrest : s.AtRest) :
    (s'.cleared (streamOf tick)).any (·.revealedThisTickFlag) = someRevealed calls := by
  rw [Bool.eq_iff_iff, List.any_eq_true, Contract.someRevealed, List.any_eq_true]
  constructor
  · rintro ⟨p, hp, hrevealed⟩
    rcases List.mem_map.1 hp with ⟨q, hq, rfl⟩
    rcases h.entries q hq with ⟨hold, -⟩ | ⟨c, hc, hleft⟩
    · rw [(hrest.idle _ q hold).revealedFlag] at hrevealed
      cases hrevealed
    · exact ⟨c, hc, hleft.revealedFlag.symm.trans hrevealed⟩
  · rintro ⟨c, hc, hreveal⟩
    rcases h.called c hc with ⟨p, hp, hleft⟩
    refine ⟨{ p with contributedToEntropyFlag := false }, List.mem_map_of_mem hp, ?_⟩
    exact hleft.revealedFlag.trans hreveal

/-! ## The walks -/

/-- What a walk over the entries pays and keeps, entry by entry. -/
theorem walk_settles {σ : Type*} {visit : Provider → σ → σ × Option Provider}
    (payments : σ → List Payment) {revealed : Bool} {w : σ} (h : Round qpi tick s calls s')
    (hrest : s.AtRest) (hempty : payments w = [])
    (hcalled : ∀ p ∈ s'.cleared (streamOf tick), p.revealOrCommitFlag = true → ∀ w,
      payments (visit p w).1 = payments w ∧
        (visit p w).2.map Provider.commitment = p.call.commitment)
    (hsilent : ∀ p ∈ s'.cleared (streamOf tick), p.Idle → ∀ w,
      payments (visit p w).1 = payments w ++ [p.removed revealed] ∧ (visit p w).2 = none) :
    let r := SwapDelete.walk visit (s'.cleared (streamOf tick)).length w (s'.cleared (streamOf tick))
    (payments r.1).Perm ((noShows calls (s.streams (streamOf tick))).map (Provider.removed revealed)) ∧
      (r.2.map Provider.commitment).Perm (calls.filterMap AcceptedCall.commitment) := by
  -- before the walk an entry has called or is idle
  have hsplit : ∀ p ∈ s'.cleared (streamOf tick), p.revealOrCommitFlag = true ∨ p.Idle := by
    intro p hp
    rcases h.cleared hrest p hp with hidle | ⟨c, -, hleft⟩
    · exact .inr hidle
    · exact .inl hleft.flag
  constructor
  · have hvisit : ∀ p ∈ s'.cleared (streamOf tick), ∀ w, payments (visit p w).1 =
        payments w ++ if p.revealOrCommitFlag then [] else [p.removed revealed] := by
      intro p hp w
      rcases hsplit p hp with hflag | hidle
      · rw [(hcalled p hp hflag w).1, if_pos hflag, List.append_nil]
      · rw [(hsilent p hp hidle w).1, hidle.flag]
        rfl
    have houtput := SwapDelete.walk_output payments _ hvisit w
    rw [hempty, List.nil_append] at houtput
    refine houtput.trans ?_
    -- whoever did not call is paid for, once
    have hremoved : (s'.cleared (streamOf tick)).flatMap
        (fun p => if p.revealOrCommitFlag then [] else [p.removed revealed]) =
          ((s'.streams (streamOf tick)).filter (!·.revealOrCommitFlag)).map
            (Provider.removed revealed) := by
      unfold StateData.cleared
      induction s'.streams (streamOf tick) with
      | nil => rfl
      | cons p rest ih =>
        rw [List.map_cons, List.flatMap_cons, ih, List.filter_cons]
        cases p.revealOrCommitFlag <;> rfl
    rw [hremoved]
    exact (h.silent hrest).map _
  · have hvisit : ∀ p ∈ s'.cleared (streamOf tick), ∀ w, (visit p w).2.map Provider.commitment =
        if p.revealOrCommitFlag then p.call.commitment else none := by
      intro p hp w
      rcases hsplit p hp with hflag | hidle
      · rw [(hcalled p hp hflag w).2, if_pos hflag]
      · rw [(hsilent p hp hidle w).2, hidle.flag]
        rfl
    refine (SwapDelete.walk_filterMap Provider.commitment _ hvisit w).trans ?_
    -- what stays is what the callers committed to
    have hcommitted : (s'.cleared (streamOf tick)).filterMap
        (fun p => if p.revealOrCommitFlag then p.call.commitment else none) =
          (((s'.streams (streamOf tick)).filter (·.revealOrCommitFlag)).map Provider.call).filterMap
            AcceptedCall.commitment := by
      unfold StateData.cleared
      induction s'.streams (streamOf tick) with
      | nil => rfl
      | cons p rest ih =>
        rw [List.map_cons, List.filterMap_cons, ih, List.filter_cons]
        cases p.revealOrCommitFlag <;> rfl
    rw [hcommitted]
    exact (h.callers hrest).filterMap _

theorem Provider.Idle.locked_pos {p : Provider} (h : p.Idle) : p.lockedCollateralAmount > 0 := by
  rw [h.locked]
  exact Nat.pow_pos (by decide)

theorem visitSilent_idle {p : Provider} (h : p.Idle) (payments : List Payment) :
    (visitSilent p payments).1 = payments ++ [p.removed false] ∧ (visitSilent p payments).2 = none := by
  unfold visitSilent transferLocked
  rw [h.flag, if_pos h.locked_pos, h.locked]
  exact ⟨rfl, rfl⟩

theorem visitRevealing_idle {stream : Fin 3} {p : Provider} (h : p.Idle) (w : EndTick) :
    (visitRevealing stream p w).1.payments = w.payments ++ [p.removed true] ∧
      (visitRevealing stream p w).2 = none := by
  unfold visitRevealing
  simp only [h.flag, Bool.false_eq_true, if_false]
  rw [if_pos h.locked_pos, h.locked]
  exact ⟨rfl, trivial⟩

/-- The payments and the commitments that a tick leaves. -/
theorem Round.settles (h : Round qpi tick s calls s') (hrest : s.AtRest) :
    (endTick tick s').2.Perm (settlement calls (s.streams (streamOf tick))) ∧
      (((endTick tick s').1.streams (streamOf tick)).map Provider.commitment).Perm
        (calls.filterMap AcceptedCall.commitment) := by
  unfold settlement
  rw [← h.someRevealed hrest]
  rcases endTick_cases tick s' with ⟨hrevealed, w, hempty, hwalk, hpayments⟩ |
    ⟨hrevealed, hwalk, hpayments⟩
  · rw [hrevealed, hwalk, hpayments]
    refine walk_settles EndTick.payments h hrest hempty ?_ ?_
    · intro p _ hflag w
      unfold visitRevealing
      rw [if_pos hflag]
      refine ⟨EndTick.mix_payments p w, ?_⟩
      show Option.map _ (if p.commit = Digest.zero then none else _) =
        if p.commit = Digest.zero then none else _
      split <;> rfl
    · intro p _ hidle w
      exact visitRevealing_idle hidle w
  · rw [hrevealed, hwalk, hpayments]
    refine walk_settles id h hrest rfl ?_ ?_
    · intro p hp hflag payments
      unfold visitSilent
      rw [if_pos hflag]
      refine ⟨rfl, ?_⟩
      -- nobody revealed: the entry that called has made its first commit
      rcases h.cleared hrest p hp with hidle | ⟨c, hc, hleft⟩
      · rw [hidle.flag] at hflag
        cases hflag
      · have hnot := List.any_eq_false.1 hrevealed p hp
        rw [hleft.revealedFlag, decide_eq_true_eq, not_not] at hnot
        unfold AcceptedCall.commitment
        rw [if_neg]
        · rfl
        · show p.commit ≠ Digest.zero
          rw [hleft.commit]
          exact hleft.commits hnot
    · intro p _ hidle payments
      exact visitSilent_idle hidle payments

theorem emptyContract_atRest : emptyContract.AtRest where
  unique _ _ _ := Nat.zero_le 1
  idle _ p hp := by cases hp

/-- In every tick of every run: the end of the tick removes the no-shows, once
each, with the collateral of their tier burned when an accepted call revealed
and sent back otherwise. The stream keeps one commitment for each accepted call
that made one, with the collateral of its tier locked, and the other streams
are as before. -/
theorem tick_settles (qpi : Qpi) (start : Nat) (invocations : Nat → List Invocation) (n : Nat) :
    let s := stateBefore qpi start invocations emptyContract n
    let after := stateBefore qpi start invocations emptyContract (n + 1)
    let calls := acceptedCalls qpi (start + n) (invocations (start + n)) s
    let stream := streamOf (start + n)
    (endTick (start + n) (invokeAll qpi (start + n) (invocations (start + n)) s)).2.Perm
      (settlement calls (s.streams stream)) ∧
    ((after.streams stream).map Provider.commitment).Perm
      (calls.filterMap AcceptedCall.commitment) ∧
    (∀ p ∈ after.streams stream, p.lockedCollateralAmount = 10 ^ p.collateralTier.val) ∧
    ∀ other, other ≠ stream → after.streams other = s.streams other := by
  intro s after calls stream
  have hrest := stateBefore_atRest emptyContract_atRest qpi start invocations n
  have hround := hrest.round qpi (start + n) (invocations (start + n))
  rcases hround.settles hrest with ⟨hpayments, hkept⟩
  refine ⟨hpayments, hkept, ?_, ?_⟩
  · intro p hp
    exact ((stateBefore_atRest emptyContract_atRest qpi start invocations (n + 1)).idle _ p hp).locked
  · intro other hne
    show (endTick (start + n) _).1.streams other = _
    rw [endTick_streams, Function.update_of_ne hne]
    exact hround.others other hne

end RandomClient.Contract
