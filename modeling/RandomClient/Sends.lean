import RandomClient.Queue

/-!
# What is handed to the backend

Counting sends over a trace (`SendInv`): whatever is handed out was signed in
the running epoch, a call gets at most one additional broadcast, and the
terminal reveal of a shutdown is handed out at most once.
-/

namespace RandomClient

variable {cfg : Config}

/-- The effect hands a call of the target to the backend. -/
def Effect.sends (target : Nat) : Effect → Bool
  | .handed _ targetTick _ _ _ => targetTick = target
  | _ => false

/-- The effect starts the additional broadcast of a call of the target. -/
def Effect.resends (target : Nat) : Effect → Bool
  | .handed _ targetTick _ redundant _ => targetTick = target ∧ redundant = true
  | _ => false

/-- A shutdown's terminal reveal was signed for the target in the running epoch. -/
def ShutdownTerminal (t : List Effect) (target : Nat) : Prop :=
  ∃ signed ∈ periodCalls t, signed.targetTick = target ∧ signed.kind = .terminalReveal ∧
    signed.drain = some .shutdown

structure SendInv (slot : ManagedSlot) (t : List Effect) : Prop where
  /-- What is handed out was signed. -/
  handed : ∀ currentTick target kind redundant task,
    Effect.handed currentTick target kind redundant task ∈ period t →
      ∃ signed ∈ periodCalls t, signed.targetTick = target ∧ signed.kind = kind ∧
        signed.txBytes = task.txBytes
  /-- A call not marked as attempted had no additional broadcast. -/
  fresh : ∀ call ∈ slot.queue, call.redundantAttempted = false →
    (period t).countP (Effect.resends call.targetTick) = 0
  /-- No call has two additional broadcasts. -/
  once : ∀ target, (period t).countP (Effect.resends target) ≤ 1
  /-- A shutdown's terminal reveal is sent at most once, and never waits for a retry. -/
  shutdown : ∀ target, ShutdownTerminal t target →
    (period t).countP (Effect.sends target) ≤ 1 ∧
      ∀ call ∈ slot.queue, call.targetTick = target → call.state ≠ .retry ∧
        (call.state = .ready → (period t).countP (Effect.sends target) = 0)

theorem SendInv.new (i : Fin 3) : SendInv (slot₀ cfg i) [] where
  handed _ _ _ _ _ h := by cases h
  fresh _ h := by cases h
  once _ := by simp [period]
  shutdown _ h := by
    obtain ⟨_, h, -⟩ := h
    cases h

section Step

variable {slot slot' : ManagedSlot} {t u : List Effect}

/-- A change that hands out and signs nothing and wakes no call. -/
theorem SendInv.quiet (h : SendInv slot t) (hreset : Effect.reset ∉ u)
    (hsend : ∀ e ∈ u, ∀ target, e.sends target = false)
    (hcalls : periodCalls (t ++ u) = periodCalls t)
    (hqueue : ∀ call' ∈ slot'.queue, ∃ call ∈ slot.queue, call'.targetTick = call.targetTick ∧
      call'.redundantAttempted = call.redundantAttempted ∧
      (call'.state = .ready → call.state = .ready) ∧
      (call'.state = .retry → call.state = .retry ∨ ¬ ShutdownTerminal t call.targetTick)) :
    SendInv slot' (t ++ u) := by
  have hperiod := period_append hreset t
  have hsends : ∀ target, (period (t ++ u)).countP (Effect.sends target) =
      (period t).countP (Effect.sends target) := by
    intro target
    have hnone : u.countP (Effect.sends target) = 0 :=
      List.countP_eq_zero.2 fun e he => by simp [hsend e he target]
    rw [hperiod, List.countP_append, hnone, Nat.add_zero]
  have hresends : ∀ target, (period (t ++ u)).countP (Effect.resends target) =
      (period t).countP (Effect.resends target) := by
    intro target
    have hnone : u.countP (Effect.resends target) = 0 := by
      refine List.countP_eq_zero.2 fun e he => ?_
      have hnot := hsend e he target
      cases e <;> simp_all [Effect.sends, Effect.resends]
    rw [hperiod, List.countP_append, hnone, Nat.add_zero]
  have hterminal : ∀ target, ShutdownTerminal (t ++ u) target ↔ ShutdownTerminal t target := by
    intro target
    unfold ShutdownTerminal
    rw [hcalls]
  refine ⟨?_, ?_, fun target => (hresends target).trans_le (h.once target), ?_⟩
  · intro currentTick target kind redundant task hmem
    rw [hperiod] at hmem
    rw [hcalls]
    rcases List.mem_append.1 hmem with hmem | hmem
    · exact h.handed _ _ _ _ _ hmem
    · have hnot := hsend _ hmem target
      simp [Effect.sends] at hnot
  · intro call' hmem hattempted
    obtain ⟨call, hcall, htarget, hsame, -⟩ := hqueue call' hmem
    rw [hresends, htarget]
    exact h.fresh call hcall (hsame ▸ hattempted)
  · intro target hsigned
    rw [hterminal] at hsigned
    obtain ⟨hcount, hstates⟩ := h.shutdown target hsigned
    rw [hsends]
    refine ⟨hcount, ?_⟩
    intro call' hmem htarget'
    obtain ⟨call, hcall, htarget, -, hready, hretry⟩ := hqueue call' hmem
    obtain ⟨hnot, hzero⟩ := hstates call hcall (htarget.symm.trans htarget')
    refine ⟨fun hst => ?_, fun hst => hzero (hready hst)⟩
    rcases hretry hst with hst | hno
    · exact hnot hst
    · rw [← htarget, htarget'] at hno
      exact hno hsigned

/-- Nothing was handed out for a target that was not signed. -/
theorem SendInv.count_eq_zero (h : SendInv slot t) {target : Nat}
    (hnew : ∀ signed ∈ periodCalls t, signed.targetTick ≠ target) :
    (period t).countP (Effect.sends target) = 0 := by
  rw [List.countP_eq_zero]
  intro e he hsend
  cases e with
  | handed currentTick targetTick kind redundant task =>
    obtain ⟨signed, hsigned, htarget, -⟩ := h.handed _ _ _ _ _ he
    simp only [Effect.sends, decide_eq_true_eq] at hsend
    exact hnew signed hsigned (htarget.trans hsend)
  | _ => simp [Effect.sends] at hsend

theorem countP_resends_le (target : Nat) (l : List Effect) :
    l.countP (Effect.resends target) ≤ l.countP (Effect.sends target) := by
  refine List.countP_mono_left (fun e _ h => ?_)
  cases e <;> simp_all [Effect.resends, Effect.sends]

/-- Signing one more call and queueing it. -/
theorem SendInv.sign (h : SendInv slot t) (hq : QueueInv slot t) {call : SignedCall}
    (hspaced : Spaced (periodCalls t ++ [call]))
    (hqueue : slot'.queue = slot.queue ++ [call.planned]) :
    SendInv slot' (t ++ [.signed call]) := by
  have hbefore : ∀ signed ∈ periodCalls t, signed.targetTick ≠ call.targetTick := by
    intro signed hmem
    have hle := (List.pairwise_append.1 hspaced).2.2 signed hmem call (by simp)
    simp only [streamCount] at hle
    omega
  have hperiod : period (t ++ [.signed call]) = period t ++ [.signed call] :=
    period_append (by simp) t
  have hnone := h.count_eq_zero hbefore
  have hsends : ∀ target, (period (t ++ [.signed call])).countP (Effect.sends target) =
      (period t).countP (Effect.sends target) := by
    intro target
    rw [hperiod, List.countP_append]
    simp [Effect.sends]
  have hresends : ∀ target, (period (t ++ [.signed call])).countP (Effect.resends target) =
      (period t).countP (Effect.resends target) := by
    intro target
    rw [hperiod, List.countP_append]
    simp [Effect.resends]
  refine ⟨?_, ?_, fun target => (hresends target).trans_le (h.once target), ?_⟩
  · intro currentTick target kind redundant task hmem
    rw [hperiod] at hmem
    rw [periodCalls_signed]
    obtain ⟨signed, hsigned, hrest⟩ := h.handed currentTick target kind redundant task
      (by simpa using hmem)
    exact ⟨signed, List.mem_append_left _ hsigned, hrest⟩
  · intro queued hmem hattempted
    rw [hresends]
    rw [hqueue] at hmem
    rcases List.mem_append.1 hmem with hmem | hmem
    · exact h.fresh queued hmem hattempted
    · rw [List.mem_singleton.1 hmem]
      have hle := countP_resends_le call.targetTick (period t)
      rw [hnone] at hle
      exact Nat.le_zero.1 hle
  · rintro target ⟨signed, hsigned, htarget, hkind, hdrain⟩
    rw [hsends]
    rw [periodCalls_signed] at hsigned
    rcases List.mem_append.1 hsigned with hsigned | hsigned
    · obtain ⟨hcount, hstates⟩ := h.shutdown target ⟨signed, hsigned, htarget, hkind, hdrain⟩
      refine ⟨hcount, ?_⟩
      intro queued hmem hqueued
      rw [hqueue] at hmem
      rcases List.mem_append.1 hmem with hmem | hmem
      · exact hstates queued hmem hqueued
      · rw [List.mem_singleton.1 hmem] at hqueued
        exact absurd (htarget.trans hqueued.symm) (hbefore signed hsigned)
    · rw [List.mem_singleton.1 hsigned] at htarget
      subst htarget
      rw [hnone]
      refine ⟨Nat.zero_le 1, fun queued hmem hqueued => ⟨?_, fun _ => rfl⟩⟩
      -- only the new call has the new target, and it is ready
      rw [hqueue] at hmem
      rcases List.mem_append.1 hmem with hmem | hmem
      · obtain ⟨old, hold, hrec⟩ := hq.recorded queued hmem
        exact absurd (hrec.target.trans hqueued) (hbefore old hold)
      · rw [List.mem_singleton.1 hmem]
        exact BroadcastState.noConfusion

/-- A list in which a key occurs once yields at most one hit for it. -/
theorem countP_flatMap_le_one {α β : Type*} {f : α → List β} {p : β → Bool} {key : α → Nat}
    (target : Nat) {l : List α} (hkeys : (l.map key).Pairwise (· < ·))
    (hother : ∀ a ∈ l, key a ≠ target → (f a).countP p = 0)
    (hone : ∀ a ∈ l, (f a).countP p ≤ 1) : (l.flatMap f).countP p ≤ 1 := by
  induction l with
  | nil => simp
  | cons a l ih =>
    rw [List.map_cons, List.pairwise_cons] at hkeys
    rw [List.flatMap_cons, List.countP_append]
    by_cases ha : key a = target
    · -- every later key is larger
      have hrest : (l.flatMap f).countP p = 0 := by
        rw [List.countP_eq_zero]
        intro b hb hp
        obtain ⟨x, hx, hbx⟩ := List.mem_flatMap.1 hb
        have hlt := hkeys.1 (key x) (List.mem_map_of_mem hx)
        have hzero := hother x (by simp [hx]) (by omega)
        exact List.countP_eq_zero.1 hzero b hbx hp
      have hle := hone a (by simp)
      omega
    · have hzero := hother a (by simp) ha
      have hle := ih hkeys.2 (fun x hx => hother x (by simp [hx])) (fun x hx => hone x (by simp [hx]))
      omega

/-- The sends a dispatch makes for a target. -/
theorem countP_dispatch_le_one {ctx : DispatchContext} {tickDurationMs : Nat}
    {calls : List PlannedCall} (hcalls : (calls.map PlannedCall.targetTick).Pairwise (· < ·))
    (target : Nat) :
    (calls.flatMap (dispatchEffects ctx tickDurationMs)).countP (Effect.sends target) ≤ 1 := by
  refine countP_flatMap_le_one target hcalls ?_ ?_
  · intro call _ hne
    unfold dispatchEffects
    split
    · rfl
    · rfl
    · split <;> simp [Effect.sends, hne]
  · intro call _
    unfold dispatchEffects
    split
    · simp
    · simp
    · split <;> simp [Effect.sends, List.countP_cons] <;> split <;> simp

theorem dispatch_sends {ctx : DispatchContext} {tickDurationMs : Nat} {calls : List PlannedCall}
    {target : Nat}
    (h : (calls.flatMap (dispatchEffects ctx tickDurationMs)).countP (Effect.sends target) ≠ 0) :
    ∃ call ∈ calls, call.targetTick = target ∧ ∃ redundant, dispatchOf ctx call = .send redundant := by
  obtain ⟨e, he, hsend⟩ := List.countP_pos_iff.1 (Nat.pos_of_ne_zero h)
  obtain ⟨call, hcall, redundant, hdispatch, rfl | rfl⟩ := mem_dispatchEffects he
  · simp [Effect.sends] at hsend
  · exact ⟨call, hcall, by simpa [Effect.sends] using hsend, redundant, hdispatch⟩

theorem dispatch_resends {ctx : DispatchContext} {tickDurationMs : Nat} {calls : List PlannedCall}
    {target : Nat}
    (h : (calls.flatMap (dispatchEffects ctx tickDurationMs)).countP (Effect.resends target) ≠ 0) :
    ∃ call ∈ calls, call.targetTick = target ∧ dispatchOf ctx call = .send true := by
  obtain ⟨e, he, hsend⟩ := List.countP_pos_iff.1 (Nat.pos_of_ne_zero h)
  obtain ⟨call, hcall, redundant, hdispatch, rfl | rfl⟩ := mem_dispatchEffects he
  · simp [Effect.resends] at hsend
  · simp only [Effect.resends, decide_eq_true_eq] at hsend
    obtain ⟨htarget, rfl⟩ := hsend
    exact ⟨call, hcall, htarget, hdispatch⟩

/-- One round of `dispatch_calls`. -/
theorem SendInv.dispatch (h : SendInv slot t) (hq : QueueInv slot t)
    (hspaced : Spaced (periodCalls t)) {chain : Chain} (hchain : slot.chain = some chain) (currentTick tickDurationMs : Nat) :
    let ctx := dispatchContext currentTick slot.state chain
    SendInv { slot with chain := some { chain with
        calls := chain.calls.map (dispatchCall ctx tickDurationMs) } }
      (t ++ chain.calls.flatMap (dispatchEffects ctx tickDurationMs)) := by
  intro ctx
  have hqueue := queue_of_chain hchain
  have hcalls : (chain.calls.map PlannedCall.targetTick).Pairwise (· < ·) := by
    rw [← hqueue]
    exact hq.increasing
  have hperiod : period (t ++ chain.calls.flatMap (dispatchEffects ctx tickDurationMs)) =
      period t ++ chain.calls.flatMap (dispatchEffects ctx tickDurationMs) := by
    refine period_append ?_ t
    intro hmem
    obtain ⟨_, -, _, -, he | he⟩ := mem_dispatchEffects hmem <;> cases he
  have hperiodCalls : periodCalls (t ++ chain.calls.flatMap (dispatchEffects ctx tickDurationMs)) =
      periodCalls t := periodCalls_append_of_not_plan (planEffects_dispatch ctx _ _) t
  have hterminal : ∀ target, ShutdownTerminal
      (t ++ chain.calls.flatMap (dispatchEffects ctx tickDurationMs)) target ↔
        ShutdownTerminal t target := by
    intro target
    unfold ShutdownTerminal
    rw [hperiodCalls]
  have hsame : ∀ k ∈ chain.calls, ∀ l ∈ chain.calls, k.targetTick = l.targetTick → k = l := by
    intro k hk l hl
    rw [← hqueue] at hk hl
    exact hq.eq_of_target hk hl
  refine ⟨?_, ?_, ?_, ?_⟩
  · intro tick target kind redundant task hmem
    rw [hperiodCalls]
    rw [hperiod] at hmem
    rcases List.mem_append.1 hmem with hmem | hmem
    · exact h.handed _ _ _ _ _ hmem
    · obtain ⟨call, hcall, _, -, he | he⟩ := mem_dispatchEffects hmem
      · cases he
      · cases he
        rw [← hqueue] at hcall
        obtain ⟨signed, hsigned, hrec⟩ := hq.recorded call hcall
        exact ⟨signed, hsigned, hrec.target, hrec.kind, hrec.bytes⟩
  · intro call' hmem hattempted
    obtain ⟨call, hcall, rfl⟩ := List.mem_map.1 hmem
    rw [(dispatchCall_keeps ctx tickDurationMs call).target, hperiod, List.countP_append]
    have hnew : (chain.calls.flatMap (dispatchEffects ctx tickDurationMs)).countP
        (Effect.resends call.targetTick) = 0 := by
      by_contra hne
      obtain ⟨other, hother, htarget, hsend⟩ := dispatch_resends hne
      obtain rfl := hsame other hother call hcall htarget
      simp [dispatchCall, hsend] at hattempted
    have hold : call.redundantAttempted = false := by
      unfold dispatchCall at hattempted
      split at hattempted <;> first | exact hattempted | cases hattempted
    rw [hnew, h.fresh call (by rw [hqueue]; exact hcall) hold]
  · intro target
    rw [hperiod, List.countP_append]
    by_cases hzero : (chain.calls.flatMap (dispatchEffects ctx tickDurationMs)).countP
        (Effect.resends target) = 0
    · rw [hzero]
      exact h.once target
    · -- the call had no additional broadcast before
      obtain ⟨call, hcall, rfl, hsend⟩ := dispatch_resends hzero
      obtain ⟨-, -, -, hred, -⟩ := dispatchOf_send hsend
      have hattempted := (isRedundant_eq_true.1 hred.symm).2.2.2.2.1
      rw [← hqueue] at hcall
      rw [h.fresh call hcall hattempted, Nat.zero_add]
      exact (countP_resends_le _ _).trans (countP_dispatch_le_one hcalls _)
  · intro target hsigned
    rw [hterminal] at hsigned
    obtain ⟨hcount, hstates⟩ := h.shutdown target hsigned
    rw [hperiod, List.countP_append]
    by_cases hzero : (chain.calls.flatMap (dispatchEffects ctx tickDurationMs)).countP
        (Effect.sends target) = 0
    · rw [hzero]
      refine ⟨hcount, ?_⟩
      intro call' hmem htarget
      obtain ⟨call, hcall, rfl⟩ := List.mem_map.1 hmem
      rw [(dispatchCall_keeps ctx tickDurationMs call).target] at htarget
      rw [← hqueue] at hcall
      obtain ⟨hretry, hready⟩ := hstates call hcall htarget
      unfold dispatchCall
      split
      · exact ⟨hretry, hready⟩
      · exact ⟨BroadcastState.noConfusion, fun hst => by cases hst⟩
      · exact ⟨hretry, hready⟩
      · exact ⟨BroadcastState.noConfusion, fun hst => by cases hst⟩
    · -- the terminal reveal was ready, so this is its first send
      obtain ⟨call, hcall, rfl, redundant, hsend⟩ := dispatch_sends hzero
      have hcall' : call ∈ slot.queue := by
        rw [hqueue]
        exact hcall
      obtain ⟨hretry, hready⟩ := hstates call hcall' rfl
      obtain ⟨signed, hmem, htarget, hkind, -⟩ := hsigned
      obtain ⟨recorded, hrecorded, hrec⟩ := hq.recorded call hcall'
      obtain rfl := hspaced.eq_of_target hmem hrecorded (htarget.trans hrec.target.symm)
      obtain ⟨-, -, -, hred, hstate, -⟩ := dispatchOf_send hsend
      have hprimary : redundant = false := by
        rw [hred, Bool.eq_false_iff]
        intro htrue
        exact (isRedundant_eq_true.1 htrue).2.2.2.1 (hrec.kind.symm.trans hkind)
      have hnone := hready ((hstate hprimary).resolve_right hretry)
      rw [hnone, Nat.zero_add]
      refine ⟨countP_dispatch_le_one hcalls _, ?_⟩
      intro call' hmem' htarget'
      obtain ⟨other, hother, rfl⟩ := List.mem_map.1 hmem'
      rw [(dispatchCall_keeps ctx tickDurationMs other).target] at htarget'
      obtain rfl := hsame other hother call hcall htarget'
      rw [dispatchCall, hsend, hprimary]
      exact ⟨BroadcastState.noConfusion, fun hst => by cases hst⟩

/-- A failed attempt is repeated unless it was the terminal reveal of a shutdown. -/
theorem harvestCall_retry {shutdownDrain : Bool} {results : Nat → Option Delivery}
    {call : PlannedCall} (h : (harvestCall shutdownDrain results call).state = .retry) :
    call.state = .retry ∨ ¬ (shutdownDrain = true ∧ call.kind = .terminalReveal) := by
  unfold harvestCall at h
  split at h
  · exact .inl h
  · exact .inl h
  · cases h
  · cases h
  · rename_i hretry
    right
    rintro hterminal
    unfold harvestOf at hretry
    repeat' split at hretry
    all_goals cases hretry

/-- While the terminal reveal of a shutdown is queued, the slot is in the shutdown drain. -/
theorem shutdownDrain_of_terminal {cfg : Config} (h : SlotInv cfg slot t) {target : Nat}
    (hsigned : ShutdownTerminal t target) (hchain : slot.chain.isSome) :
    slot.state.isShutdownDrain = true := by
  obtain ⟨chain, hchain⟩ := Option.isSome_iff_exists.1 hchain
  obtain ⟨p, hr, hinv⟩ := h.planned
  obtain ⟨signed, hmem, -, hkind, hdrain⟩ := hsigned
  obtain ⟨_, _, reason, hp, -, -, hcloses⟩ :=
    hinv.closing_of_terminal (hr.hasChain hchain) hmem hkind
  obtain rfl := Option.some.inj (hcloses.drain.symm.trans hdrain)
  obtain ⟨target, hstate⟩ := hr.of_closing hp
  rw [hstate]
  rfl

end Step

/-! ## The invariant along a history -/

theorem SendInv.step {slot slot' : ManagedSlot} {t u : List Effect} (hinv : SlotInv cfg slot t)
    (h : SendInv slot t) (hstep : SlotStep cfg slot u slot') : SendInv slot' (t ++ u) := by
  have hspaced := (hinv.planned.step hstep).spaced
  -- a change that keeps the queue and hands out nothing
  have hkeep : ∀ {slot'' : ManagedSlot} {u : List Effect}, slot''.queue = slot.queue →
      Effect.reset ∉ u → (∀ e ∈ u, ∀ target, e.sends target = false) →
      periodCalls (t ++ u) = periodCalls t → SendInv slot'' (t ++ u) := by
    intro slot'' u hqueue hreset hsend hcalls
    refine h.quiet hreset hsend hcalls fun call hmem => ?_
    rw [hqueue] at hmem
    exact ⟨call, hmem, rfl, rfl, id, .inl⟩
  -- a change that drops the chain
  have hdrop : ∀ {slot'' : ManagedSlot} {u : List Effect}, slot''.chain = none →
      Effect.reset ∉ u → (∀ e ∈ u, ∀ target, e.sends target = false) →
      periodCalls (t ++ u) = periodCalls t → SendInv slot'' (t ++ u) := by
    intro slot'' u hnone hreset hsend hcalls
    refine h.quiet hreset hsend hcalls fun call hmem => ?_
    simp [ManagedSlot.queue, hnone] at hmem
  cases hstep with
  | note hnote =>
    refine hkeep rfl (fun hmem => by cases hnote _ hmem) ?_
      (periodCalls_append_of_not_plan (planEffects_notes hnote) t)
    intro e he target
    have hn := hnote e he
    cases e with
    | handed => cases hn
    | _ => rfl
  | reset =>
    have hnil : period (t ++ [.reset]) = [] := period_reset t
    refine ⟨?_, ?_, ?_, ?_⟩
    · intro _ _ _ _ _ hmem
      rw [hnil] at hmem
      cases hmem
    · intro call hmem
      simp [ManagedSlot.queue, resetSlot] at hmem
    · intro target
      simp [hnil]
    · rintro target ⟨_, hmem, -⟩
      rw [periodCalls_reset] at hmem
      cases hmem
  | start hready hcall =>
    rw [periodCalls_signed] at hspaced
    exact h.sign hinv.queue hspaced rfl
  | extend hstate hchain hcall =>
    rw [periodCalls_signed] at hspaced
    exact h.sign hinv.queue hspaced (by rw [queue_of_chain hchain]; rfl)
  | close hstate hchain hcall =>
    rw [periodCalls_signed] at hspaced
    exact h.sign hinv.queue hspaced (by rw [queue_of_chain hchain]; rfl)
  | watch hstate hchain hnext =>
    exact hkeep (by rw [queue_of_chain hchain]; rfl) (by simp) (by simp) (by simp)
  | freeze hstate hchain =>
    exact hkeep rfl (by simp) (by simp [Effect.sends]) (by simp)
  | exhaust hstate hchain =>
    exact hdrop rfl (by simp) (by simp [Effect.sends]) (by simp)
  | wait hstate => exact hkeep rfl (by simp) (by simp) (by simp)
  | hold hstate => exact hkeep rfl (by simp) (by simp) (by simp)
  | harvest results hchain =>
    rename_i chain
    refine h.quiet ?_ ?_ (periodCalls_append_of_not_plan (planEffects_harvest _ _ _) t) ?_
    · intro hmem
      obtain ⟨_, -, _, _, he⟩ := mem_harvestEffects hmem
      cases he
    · intro e he target
      obtain ⟨_, -, _, _, rfl⟩ := mem_harvestEffects he
      rfl
    · intro call' hmem
      obtain ⟨call, hcall, rfl⟩ := List.mem_map.1 hmem
      refine ⟨call, by rw [queue_of_chain hchain]; exact hcall,
        (harvestCall_keeps slot.state.isShutdownDrain results call).target, ?_, ?_, ?_⟩
      · unfold harvestCall
        split <;> rfl
      · unfold harvestCall
        split <;> simp
      · -- only a call that is not the terminal reveal of a shutdown waits for a retry
        intro hretry
        by_cases hshutdown : ShutdownTerminal t call.targetTick
        · left
          have hdrain := shutdownDrain_of_terminal hinv hshutdown (by simp [hchain])
          obtain ⟨signed, hsigned, htarget, hkind, -⟩ := hshutdown
          rw [← queue_of_chain hchain] at hcall
          obtain ⟨recorded, hrecorded, hrec⟩ := hinv.queue.recorded call hcall
          obtain rfl := hinv.planned.spaced.eq_of_target hsigned hrecorded
            (htarget.trans hrec.target.symm)
          rcases harvestCall_retry hretry with hst | hnot
          · exact hst
          · exact absurd ⟨hdrain, hrec.kind.symm.trans hkind⟩ hnot
        · exact .inr hshutdown
  | expire currentTick hchain =>
    rename_i chain
    refine h.quiet (u := []) (by simp) (by simp) (by simp) fun call' hmem => ?_
    obtain ⟨call, hcall, rfl⟩ := List.mem_map.1 hmem
    refine ⟨call, by rw [queue_of_chain hchain]; exact hcall,
      (expireCall_keeps currentTick chain.firstTarget call).target, ?_, ?_, ?_⟩
    · unfold expireCall
      split <;> rfl
    · unfold expireCall
      split <;> simp
    · unfold expireCall
      split <;> simp +contextual
  | dispatch currentTick tickDurationMs hchain =>
    exact h.dispatch hinv.queue hinv.planned.spaced hchain currentTick tickDurationMs
  | prune currentTick hstate hchain =>
    refine h.quiet (u := []) (by simp) (by simp) (by simp) fun call hmem => ?_
    have hmem' := (List.mem_filter.1 hmem).1
    rw [← queue_of_chain hchain] at hmem'
    exact ⟨call, hmem', rfl, rfl, id, .inl⟩
  | lose hstate hchain => exact hdrop rfl (by simp) (by simp) (by simp)
  | settle hstate => exact hdrop rfl (by simp) (by simp) (by simp)
  | rest hstate => exact hkeep rfl (by simp) (by simp) (by simp)
  | abandon => exact hdrop rfl (by simp) (by simp) (by simp)

/-- The invariant holds of every slot that a run from a new one reaches. -/
theorem SlotRun.sendInv {i : Fin 3} {slot : ManagedSlot} {t : List Effect}
    (h : SlotRun cfg (slot₀ cfg i) t slot) : SendInv slot t := by
  have hinv := h.invariant (fun slot t => SlotInv cfg slot t ∧ SendInv slot t)
    (fun _ _ _ _ h hstep => ⟨h.1.step hstep, h.2.step h.1 hstep⟩)
    ⟨⟨Planned.new i, .new i⟩, .new i⟩
  simpa using hinv.2

/-! ## Where sends come from -/

/-- Whatever an operation hands out is a queued call that a dispatch decided to send. -/
theorem SlotOp.handed {op : SlotOp} {slot : ManagedSlot} {currentTick target : Nat}
    {kind : CallKind} {redundant : Bool} {task : BroadcastTask}
    (h : Effect.handed currentTick target kind redundant task ∈ (op.run cfg slot).effects) :
    ∃ tickDurationMs chain call, op = .dispatchCalls currentTick tickDurationMs ∧
      slot.chain = some chain ∧ call ∈ chain.calls ∧ call.targetTick = target ∧ call.kind = kind ∧
      dispatchOf (dispatchContext currentTick slot.state chain) call = .send redundant ∧
      task = broadcastTask currentTick tickDurationMs call := by
  rcases SlotOp.emits h with hnote | hemits
  · cases hnote
  · cases hemits with
    | handed =>
      rename_i tickDurationMs
      simp only [SlotOp.run, RandomClient.dispatchCalls] at h
      split at h
      · cases h
      · rename_i chain hchain
        rcases List.mem_append.1 h with h | h
        · obtain ⟨call, hcall, _, hsend, he | he⟩ := mem_dispatchEffects h
          · cases he
          · cases he
            exact ⟨tickDurationMs, chain, call, rfl, hchain, hcall, rfl, rfl, hsend, rfl⟩
        · cases failure_notes _ h

/-- The windows of every send of a history. -/
theorem handed_window {slot : ManagedSlot} {ops : List SlotOp} {currentTick target : Nat}
    {kind : CallKind} {redundant : Bool} {task : BroadcastTask}
    (h : Effect.handed currentTick target kind redundant task ∈ (slotMachine cfg).trace slot ops) :
    currentTick < target ∧ target ≤ currentTick + sendLead kind := by
  obtain ⟨pre, op, post, -, hmem⟩ := (slotMachine cfg).mem_trace h
  obtain ⟨_, _, call, -, -, -, rfl, rfl, hsend, -⟩ := SlotOp.handed hmem
  obtain ⟨hafter, hhorizon, -⟩ := dispatchOf_send hsend
  exact ⟨hafter, hhorizon.trans (Bounded.saturatingAdd_le_add _ _ _)⟩

end RandomClient
