import RandomClient.Refinement

/-!
# The queue of planned calls

What the queue of a slot says about its trace (`QueueInv`): every planned call
was signed in the running epoch, targets increase along the queue, a call is in
state Accepted exactly when the backend accepted it, and a call of the newest
chain that left the queue had been accepted.
-/

namespace RandomClient

variable {cfg : Config}

/-- The planned call is what became of the signed call. -/
structure SignedCall.Records (signed : SignedCall) (call : PlannedCall) : Prop where
  target : signed.targetTick = call.targetTick
  kind : signed.kind = call.kind
  bytes : signed.txBytes = call.txBytes

theorem SignedCall.records_planned (signed : SignedCall) : signed.Records signed.planned :=
  ⟨rfl, rfl, rfl⟩

/-- A change of a planned call that keeps what was signed. -/
structure PlannedCall.Keeps (call call' : PlannedCall) : Prop where
  target : call'.targetTick = call.targetTick
  kind : call'.kind = call.kind
  bytes : call'.txBytes = call.txBytes

theorem SignedCall.Records.keeps {signed : SignedCall} {call call' : PlannedCall}
    (h : signed.Records call) (hkeeps : call.Keeps call') : signed.Records call' :=
  ⟨h.target.trans hkeeps.target.symm, h.kind.trans hkeeps.kind.symm,
    h.bytes.trans hkeeps.bytes.symm⟩

theorem expireCall_keeps (currentTick firstTarget : Nat) (call : PlannedCall) :
    call.Keeps (expireCall currentTick firstTarget call) := by
  unfold expireCall
  split <;> exact ⟨rfl, rfl, rfl⟩

theorem dispatchCall_keeps (ctx : DispatchContext) (tickDurationMs : Nat) (call : PlannedCall) :
    call.Keeps (dispatchCall ctx tickDurationMs call) := by
  unfold dispatchCall
  split <;> exact ⟨rfl, rfl, rfl⟩

theorem harvestCall_keeps (shutdownDrain : Bool) (results : Nat → Option Delivery)
    (call : PlannedCall) : call.Keeps (harvestCall shutdownDrain results call) := by
  unfold harvestCall
  split <;> exact ⟨rfl, rfl, rfl⟩

/-! ## What a sweep does to the state of a call -/

theorem expireCall_accepted {currentTick firstTarget : Nat} {call : PlannedCall} :
    (expireCall currentTick firstTarget call).state = .accepted ↔ call.state = .accepted := by
  unfold expireCall expiryOf
  split
  · rfl
  · rfl
  · rename_i h
    split at h <;> simp_all
    split at h <;> simp_all
  · rename_i h
    split at h <;> simp_all
    split at h <;> simp_all

/-- Everything a send of `dispatch_calls` was checked for. -/
theorem dispatchOf_send {ctx : DispatchContext} {call : PlannedCall} {redundant : Bool}
    (h : dispatchOf ctx call = .send redundant) :
    ctx.currentTick < call.targetTick ∧
      call.targetTick ≤ saturatingAdd ctx.currentTick (sendLead call.kind) ∧
      (call.kind = .terminalReveal → ctx.terminalReady = true) ∧
      redundant = isRedundant ctx call ∧
      (redundant = false → call.state = .ready ∨ call.state = .retry) ∧
      (call.kind = .terminalReveal → ctx.drain.map Prod.fst = some .shutdown →
        call.state ≠ .retry) := by
  unfold dispatchOf at h
  dsimp only at h
  split at h
  · cases h
  · rename_i hwindow
    split at h
    · cases h
    · rename_i hready
      split at h
      · cases h
      · rename_i hstate
        split at h
        · cases h
        · rename_i hretry
          cases h
          refine ⟨by omega, by omega, ?_, rfl, ?_, ?_⟩
          · intro hkind
            by_contra hterm
            exact hready ⟨hkind, by simpa using hterm⟩
          · intro hred
            by_contra hnot
            push Not at hnot
            exact hstate ⟨hred, hnot⟩
          · intro hkind hdrain hst
            exact hretry ⟨hkind, hdrain, hst⟩

/-- Everything `is_redundant` checks. -/
theorem isRedundant_eq_true {ctx : DispatchContext} {call : PlannedCall} :
    isRedundant ctx call = true ↔ ctx.redundantAllowed = true ∧ ctx.firstTarget ≤ call.targetTick ∧
      call.state = .accepted ∧ call.kind ≠ .terminalReveal ∧ call.redundantAttempted = false ∧
      tickDataPublicationLeadTicks < call.targetTick - ctx.currentTick ∧
      call.targetTick - ctx.currentTick ≤ redundantLead call.kind := by
  simp [isRedundant]

/-- Only the retry of a shutdown's terminal reveal is given up. -/
theorem dispatchOf_failTerminal {ctx : DispatchContext} {call : PlannedCall}
    (h : dispatchOf ctx call = .failTerminal) : call.kind = .terminalReveal ∧
      ctx.drain.map Prod.fst = some .shutdown ∧ call.state = .retry := by
  unfold dispatchOf at h
  dsimp only at h
  split at h
  · cases h
  · split at h
    · cases h
    · split at h
      · cases h
      · split at h
        · assumption
        · cases h

theorem dispatchCall_accepted {ctx : DispatchContext} {tickDurationMs : Nat} {call : PlannedCall} :
    (dispatchCall ctx tickDurationMs call).state = .accepted ↔ call.state = .accepted := by
  unfold dispatchCall
  split
  · rfl
  · rename_i h
    simp [(dispatchOf_failTerminal h).2.2]
  · rfl
  · rename_i h
    obtain ⟨-, -, -, -, hstate, -⟩ := dispatchOf_send h
    rcases hstate rfl with hstate | hstate <;> simp [hstate]

/-- An accepted call is joined only as an additional broadcast. -/
theorem harvestOf_of_accepted {shutdownDrain : Bool} {results : Nat → Option Delivery}
    {call : PlannedCall} (h : call.state = .accepted) :
    harvestOf shutdownDrain results call = .pending ∨
      ∃ result, harvestOf shutdownDrain results call = .redundant result := by
  unfold harvestOf
  split
  · exact .inr ⟨_, if_pos h⟩
  · exact .inl rfl

theorem harvestCall_accepted {shutdownDrain : Bool} {results : Nat → Option Delivery}
    {call : PlannedCall} : (harvestCall shutdownDrain results call).state = .accepted ↔
      call.state = .accepted ∨ harvestOf shutdownDrain results call = .accepted := by
  have hacc := @harvestOf_of_accepted shutdownDrain results call
  unfold harvestCall
  split
  all_goals rename_i h
  all_goals simp [h] at hacc ⊢
  all_goals assumption

/-! ## The invariant -/

/-- What the queue of a slot says about the trace. -/
structure QueueInv (slot : ManagedSlot) (t : List Effect) : Prop where
  /-- Targets increase along the queue. -/
  increasing : (slot.queue.map PlannedCall.targetTick).Pairwise (· < ·)
  /-- Every planned call was signed in the running epoch. -/
  recorded : ∀ call ∈ slot.queue, ∃ signed ∈ periodCalls t, signed.Records call
  /-- State Accepted is backend acceptance. -/
  accepted : ∀ call ∈ slot.queue, call.state = .accepted ↔ AcceptedIn t call.targetTick
  /-- Only signed targets are accepted. -/
  signed : ∀ target, AcceptedIn t target → ∃ signed ∈ periodCalls t, signed.targetTick = target
  /-- A call of the newest chain leaves the queue only accepted. -/
  own : slot.chain.isSome → ∀ signed ∈ currentChain t,
    AcceptedIn t signed.targetTick ∨ ∃ call ∈ slot.queue, signed.Records call

theorem QueueInv.new (i : Fin 3) : QueueInv (slot₀ cfg i) [] where
  increasing := .nil
  recorded _ h := by cases h
  accepted _ h := by cases h
  signed _ h := by
    obtain ⟨_, h⟩ := h
    cases h
  own h := by cases h

section Step

variable {slot slot' : ManagedSlot} {t u : List Effect}

/-- A change that signs nothing and maps the queue call by call. -/
theorem QueueInv.sweep (h : QueueInv slot t) {f : PlannedCall → PlannedCall}
    (hkeeps : ∀ call : PlannedCall, call.Keeps (f call)) (hqueue : slot'.queue = slot.queue.map f)
    (hchain : slot'.chain.isSome → slot.chain.isSome)
    (hcalls : periodCalls (t ++ u) = periodCalls t)
    (hcurrent : currentChain (t ++ u) = currentChain t)
    (hstate : ∀ call ∈ slot.queue, (f call).state = .accepted ↔ AcceptedIn (t ++ u) call.targetTick)
    (hmono : ∀ target, AcceptedIn t target → AcceptedIn (t ++ u) target)
    (hnew : ∀ target, AcceptedIn (t ++ u) target →
      AcceptedIn t target ∨ ∃ call ∈ slot.queue, call.targetTick = target) :
    QueueInv slot' (t ++ u) where
  increasing := by
    have htargets : (PlannedCall.targetTick ∘ f) = PlannedCall.targetTick :=
      funext fun call => (hkeeps call).target
    rw [hqueue, List.map_map, htargets]
    exact h.increasing
  recorded call hmem := by
    rw [hqueue] at hmem
    obtain ⟨old, hold, rfl⟩ := List.mem_map.1 hmem
    obtain ⟨signed, hsigned, hrec⟩ := h.recorded old hold
    exact ⟨signed, by rw [hcalls]; exact hsigned, hrec.keeps (hkeeps old)⟩
  accepted call hmem := by
    rw [hqueue] at hmem
    obtain ⟨old, hold, rfl⟩ := List.mem_map.1 hmem
    rw [(hkeeps old).target]
    exact hstate old hold
  signed target hacc := by
    rw [hcalls]
    rcases hnew target hacc with hacc | ⟨call, hmem, rfl⟩
    · exact h.signed target hacc
    · obtain ⟨signed, hsigned, hrec⟩ := h.recorded call hmem
      exact ⟨signed, hsigned, hrec.target⟩
  own hsome signed hmem := by
    rw [hcurrent] at hmem
    rcases h.own (hchain hsome) signed hmem with hacc | ⟨call, hcall, hrec⟩
    · exact .inl (hmono _ hacc)
    · refine .inr ⟨f call, ?_, hrec.keeps (hkeeps call)⟩
      rw [hqueue]
      exact List.mem_map_of_mem hcall

/-- A change that signs and accepts nothing and keeps the queue. -/
theorem QueueInv.quiet (h : QueueInv slot t) (hqueue : slot'.queue = slot.queue)
    (hchain : slot'.chain.isSome → slot.chain.isSome)
    (hcalls : periodCalls (t ++ u) = periodCalls t)
    (hcurrent : currentChain (t ++ u) = currentChain t)
    (haccepted : ∀ target, AcceptedIn (t ++ u) target ↔ AcceptedIn t target) :
    QueueInv slot' (t ++ u) := by
  refine h.sweep (f := id) (fun _ => ⟨rfl, rfl, rfl⟩) (by simpa using hqueue) hchain hcalls hcurrent
    ?_ (fun target hacc => (haccepted target).2 hacc)
    (fun target hacc => .inl ((haccepted target).1 hacc))
  intro call hmem
  rw [haccepted]
  exact h.accepted call hmem

/-- A change that drops the chain. -/
theorem QueueInv.drop (h : QueueInv slot t) (hnone : slot'.chain = none)
    (hcalls : periodCalls (t ++ u) = periodCalls t)
    (haccepted : ∀ target, AcceptedIn (t ++ u) target ↔ AcceptedIn t target) :
    QueueInv slot' (t ++ u) where
  increasing := by simp [ManagedSlot.queue, hnone]
  recorded := by simp [ManagedSlot.queue, hnone]
  accepted := by simp [ManagedSlot.queue, hnone]
  signed target hacc := by
    rw [hcalls]
    exact h.signed target ((haccepted target).1 hacc)
  own hsome := by simp [hnone] at hsome

/-- Signing one more call and queueing it. `chain'` is the newest chain after it. -/
theorem QueueInv.sign (h : QueueInv slot t) {call : SignedCall}
    (hspaced : Spaced (periodCalls t ++ [call])) (hqueue : slot'.queue = slot.queue ++ [call.planned])
    (hcurrent : ∀ signed ∈ currentChain (t ++ [.signed call]), signed = call ∨
      (slot.chain.isSome ∧ signed ∈ currentChain t)) :
    QueueInv slot' (t ++ [.signed call]) := by
  have hbefore : ∀ signed ∈ periodCalls t, signed.targetTick < call.targetTick := by
    intro signed hmem
    have hle := (List.pairwise_append.1 hspaced).2.2 signed hmem call (by simp)
    simp only [streamCount] at hle
    omega
  have haccepted : ∀ target, AcceptedIn (t ++ [.signed call]) target ↔ AcceptedIn t target := by
    intro target
    unfold AcceptedIn
    rw [period_append (by simp)]
    simp
  refine ⟨?_, ?_, ?_, ?_, ?_⟩
  · rw [hqueue, List.map_append, List.pairwise_append]
    refine ⟨h.increasing, List.pairwise_singleton _ _, ?_⟩
    intro target hmem target' hmem'
    obtain ⟨queued, hqueued, rfl⟩ := List.mem_map.1 hmem
    obtain ⟨signed, hsigned, hrec⟩ := h.recorded queued hqueued
    have hlt := hbefore signed hsigned
    rw [hrec.target] at hlt
    simp at hmem'
    rw [hmem']
    exact hlt
  · intro queued hmem
    rw [hqueue] at hmem
    rw [periodCalls_signed]
    rcases List.mem_append.1 hmem with hmem | hmem
    · obtain ⟨signed, hsigned, hrec⟩ := h.recorded queued hmem
      exact ⟨signed, List.mem_append_left _ hsigned, hrec⟩
    · rw [List.mem_singleton.1 hmem]
      exact ⟨call, by simp, call.records_planned⟩
  · intro queued hmem
    rw [hqueue] at hmem
    rw [haccepted]
    rcases List.mem_append.1 hmem with hmem | hmem
    · exact h.accepted queued hmem
    · -- the new call is ready, and its target was never signed before
      rw [List.mem_singleton.1 hmem]
      constructor
      · intro hstate
        cases hstate
      · intro hacc
        obtain ⟨signed, hsigned, htarget⟩ := h.signed _ hacc
        have hlt := hbefore signed hsigned
        rw [htarget] at hlt
        exact absurd hlt (lt_irrefl _)
  · intro target hacc
    obtain ⟨signed, hsigned, htarget⟩ := h.signed target ((haccepted target).1 hacc)
    exact ⟨signed, by rw [periodCalls_signed]; exact List.mem_append_left _ hsigned, htarget⟩
  · intro _ signed hmem
    rw [hqueue]
    rcases hcurrent signed hmem with rfl | ⟨hsome, hmem⟩
    · exact .inr ⟨_, by simp, signed.records_planned⟩
    · rcases h.own hsome signed hmem with hacc | ⟨queued, hqueued, hrec⟩
      · exact .inl ((haccepted _).2 hacc)
      · exact .inr ⟨queued, List.mem_append_left _ hqueued, hrec⟩

end Step

/-! ## The effects of a sweep -/

theorem mem_harvestEffects {shutdownDrain : Bool} {results : Nat → Option Delivery}
    {calls : List PlannedCall} {e : Effect}
    (h : e ∈ calls.flatMap (harvestEffects shutdownDrain results)) : ∃ call ∈ calls,
      ∃ redundant result, e = .harvested call.targetTick call.kind redundant result := by
  obtain ⟨call, hmem, he⟩ := List.mem_flatMap.1 h
  refine ⟨call, hmem, ?_⟩
  unfold harvestEffects at he
  split at he
  · cases he
  all_goals
    rw [List.mem_singleton.1 he]
    exact ⟨_, _, rfl⟩

theorem harvested_mem_harvestEffects {shutdownDrain : Bool} {results : Nat → Option Delivery}
    {calls : List PlannedCall} {target : Nat} {kind : CallKind} :
    Effect.harvested target kind false .ok ∈ calls.flatMap (harvestEffects shutdownDrain results) ↔
      ∃ call ∈ calls, call.targetTick = target ∧ call.kind = kind ∧
        harvestOf shutdownDrain results call = .accepted := by
  rw [List.mem_flatMap]
  refine exists_congr fun call => and_congr_right fun _ => ?_
  unfold harvestEffects
  split
  all_goals rename_i h
  all_goals simp [h, eq_comm]

/-- A dispatch hands out tasks and may record a digest; each for a call it sends. -/
theorem mem_dispatchEffects {ctx : DispatchContext} {tickDurationMs : Nat}
    {calls : List PlannedCall} {e : Effect}
    (h : e ∈ calls.flatMap (dispatchEffects ctx tickDurationMs)) : ∃ call ∈ calls,
      ∃ redundant, dispatchOf ctx call = .send redundant ∧
        (e = .digest call.targetTick call.txBytes ∨
          e = .handed ctx.currentTick call.targetTick call.kind redundant
            (broadcastTask ctx.currentTick tickDurationMs call)) := by
  obtain ⟨call, hmem, he⟩ := List.mem_flatMap.1 h
  refine ⟨call, hmem, ?_⟩
  unfold dispatchEffects at he
  split at he
  · cases he
  · cases he
  · rename_i redundant hsend
    refine ⟨redundant, hsend, ?_⟩
    rcases List.mem_append.1 he with he | he
    · split at he
      · cases he
      · exact .inl (List.mem_singleton.1 he)
    · exact .inr (List.mem_singleton.1 he)

/-! ## The invariant along a history -/

/-- The invariant of a slot and its trace: planning and queue. -/
structure SlotInv (cfg : Config) (slot : ManagedSlot) (t : List Effect) : Prop where
  planned : Planned cfg slot t
  queue : QueueInv slot t

theorem Planned.spaced {slot : ManagedSlot} {t : List Effect} (h : Planned cfg slot t) :
    Spaced (periodCalls t) := by
  obtain ⟨p, -, hinv⟩ := h
  exact hinv.spaced

/-- Two entries of an increasing queue with one target are the same. -/
theorem QueueInv.eq_of_target {slot : ManagedSlot} {t : List Effect} (h : QueueInv slot t)
    {k l : PlannedCall} (hk : k ∈ slot.queue) (hl : l ∈ slot.queue)
    (htarget : k.targetTick = l.targetTick) : k = l := by
  have hinj := List.inj_on_of_nodup_map (h.increasing.imp fun hlt => Nat.ne_of_lt hlt)
  exact hinj hk hl htarget

theorem queue_of_chain {slot : ManagedSlot} {chain : Chain} (h : slot.chain = some chain) :
    slot.queue = chain.calls := by
  simp [ManagedSlot.queue, h]

/-- Notes accept nothing and reset nothing. -/
theorem acceptedIn_notes {u : List Effect} (h : ∀ e ∈ u, e.isNote = true) (t : List Effect)
    (target : Nat) : AcceptedIn (t ++ u) target ↔ AcceptedIn t target := by
  refine acceptedIn_append_of_quiet ?_ ?_ t target
  · intro hmem
    cases h _ hmem
  · intro target kind hmem
    cases h _ hmem

theorem acceptedIn_froze (t : List Effect) (tail : Nat) (restarting : Bool) (target : Nat) :
    AcceptedIn (t ++ [.froze tail restarting]) target ↔ AcceptedIn t target :=
  acceptedIn_append_of_quiet (by simp) (by simp) t target

/-- Pruning drops accepted calls of the chain and past calls of older chains. -/
theorem QueueInv.prune {slot : ManagedSlot} {t : List Effect} {chain : Chain}
    (h : QueueInv slot t) (hplanned : Planned cfg slot t) (hchain : slot.chain = some chain)
    (currentTick : Nat) :
    QueueInv { slot with chain := some { chain with
      calls := chain.calls.filter (keepsCall currentTick chain.firstTarget) } } t := by
  have hqueue := queue_of_chain hchain
  have hsub : ∀ call ∈ chain.calls.filter (keepsCall currentTick chain.firstTarget),
      call ∈ slot.queue := by
    intro call hmem
    rw [hqueue]
    exact (List.mem_filter.1 hmem).1
  refine ⟨?_, fun call hmem => h.recorded call (hsub call hmem),
    fun call hmem => h.accepted call (hsub call hmem), h.signed, ?_⟩
  · have hincreasing := h.increasing
    rw [hqueue] at hincreasing
    exact hincreasing.sublist (List.filter_sublist.map _)
  · intro _ signed hmem
    rcases h.own (by simp [hchain]) signed hmem with hacc | ⟨call, hcall, hrec⟩
    · exact .inl hacc
    · -- a call of the newest chain is dropped only when accepted
      by_cases hkeep : keepsCall currentTick chain.firstTarget call = true
      · refine .inr ⟨call, List.mem_filter.2 ⟨?_, hkeep⟩, hrec⟩
        rw [← hqueue]
        exact hcall
      · left
        obtain ⟨p, hr, hinv⟩ := hplanned
        have hle := hinv.first_le (hr.hasChain hchain) hmem
        rw [hrec.target] at hle ⊢
        rw [← h.accepted call hcall]
        simp only [keepsCall, if_neg (Nat.not_lt.2 hle)] at hkeep
        by_contra hstate
        exact hkeep (by simp [hstate])

theorem SlotInv.step {slot slot' : ManagedSlot} {t u : List Effect} (h : SlotInv cfg slot t)
    (hstep : SlotStep cfg slot u slot') : SlotInv cfg slot' (t ++ u) := by
  have hplanned := h.planned.step hstep
  refine ⟨hplanned, ?_⟩
  have hq := h.queue
  cases hstep with
  | note hnote =>
    have hplan := planEffects_notes hnote
    exact hq.quiet rfl id (periodCalls_append_of_not_plan hplan t)
      (currentChain_append_of_not_plan hplan t) (acceptedIn_notes hnote t)
  | reset =>
    have hnot : ∀ target, ¬ AcceptedIn (t ++ [.reset]) target := by
      rintro target ⟨kind, hmem⟩
      rw [period_reset] at hmem
      cases hmem
    exact ⟨.nil, by simp [ManagedSlot.queue, resetSlot], by simp [ManagedSlot.queue, resetSlot],
      fun target hacc => absurd hacc (hnot target), by simp [resetSlot]⟩
  | start hready hcall =>
    have hspaced := hplanned.spaced
    rw [periodCalls_signed] at hspaced
    refine hq.sign hspaced rfl ?_
    intro signed hmem
    rw [currentChain_first hcall.kind] at hmem
    exact .inl (List.mem_singleton.1 hmem)
  | extend hstate hchain hcall =>
    have hspaced := hplanned.spaced
    rw [periodCalls_signed] at hspaced
    refine hq.sign hspaced (by rw [queue_of_chain hchain]; rfl) ?_
    intro signed hmem
    rw [currentChain_later (by simp [hcall.kind])] at hmem
    rcases List.mem_append.1 hmem with hmem | hmem
    · exact .inr ⟨by simp [hchain], hmem⟩
    · exact .inl (List.mem_singleton.1 hmem)
  | close hstate hchain hcall =>
    have hspaced := hplanned.spaced
    rw [periodCalls_signed] at hspaced
    refine hq.sign hspaced (by rw [queue_of_chain hchain]; rfl) ?_
    intro signed hmem
    rw [currentChain_later (by simp [hcall.kind])] at hmem
    rcases List.mem_append.1 hmem with hmem | hmem
    · exact .inr ⟨by simp [hchain], hmem⟩
    · exact .inl (List.mem_singleton.1 hmem)
  | watch hstate hchain hnext =>
    exact hq.quiet (by rw [queue_of_chain hchain]; rfl) (by simp [hchain]) (by simp) (by simp)
      (by simp)
  | freeze hstate hchain =>
    exact hq.quiet rfl id (by simp) (by simp) (acceptedIn_froze t _ _)
  | exhaust hstate hchain => exact hq.drop rfl (by simp) (acceptedIn_froze t _ _)
  | wait hstate => exact hq.quiet rfl id (by simp) (by simp) (by simp)
  | hold hstate => exact hq.quiet rfl id (by simp) (by simp) (by simp)
  | harvest results hchain =>
    rename_i chain
    have hqueue := queue_of_chain hchain
    have hplan := planEffects_harvest slot.state.isShutdownDrain results chain.calls
    have hreset : Effect.reset ∉
        chain.calls.flatMap (harvestEffects slot.state.isShutdownDrain results) := by
      intro hmem
      obtain ⟨_, -, _, _, he⟩ := mem_harvestEffects hmem
      cases he
    refine hq.sweep (harvestCall_keeps slot.state.isShutdownDrain results) (by rw [hqueue]; rfl)
      (by simp [hchain]) (periodCalls_append_of_not_plan hplan t)
      (currentChain_append_of_not_plan hplan t) ?_ ?_ ?_
    · intro call hmem
      rw [harvestCall_accepted, acceptedIn_append hreset, hq.accepted call hmem]
      refine or_congr_right ?_
      simp only [harvested_mem_harvestEffects]
      constructor
      · intro hharvest
        exact ⟨call.kind, call, by rw [← hqueue]; exact hmem, rfl, rfl, hharvest⟩
      · rintro ⟨kind, other, hother, htarget, -, hharvest⟩
        rw [← hqueue] at hother
        rw [← hq.eq_of_target hother hmem htarget]
        exact hharvest
    · intro target hacc
      exact (acceptedIn_append hreset t target).2 (.inl hacc)
    · intro target hacc
      rcases (acceptedIn_append hreset t target).1 hacc with hacc | ⟨kind, hmem⟩
      · exact .inl hacc
      · obtain ⟨call, hcall, htarget, -⟩ := harvested_mem_harvestEffects.1 hmem
        exact .inr ⟨call, by rw [hqueue]; exact hcall, htarget⟩
  | expire currentTick hchain =>
    rename_i chain
    refine hq.sweep (expireCall_keeps currentTick chain.firstTarget)
      (by rw [queue_of_chain hchain]; rfl) (by simp [hchain]) (by simp) (by simp) ?_ (by simp)
      (fun _ hacc => .inl (by simpa using hacc))
    intro call hmem
    rw [expireCall_accepted, List.append_nil]
    exact hq.accepted call hmem
  | dispatch currentTick tickDurationMs hchain =>
    rename_i chain
    have hplan := planEffects_dispatch (dispatchContext currentTick slot.state chain)
      tickDurationMs chain.calls
    have haccepted := acceptedIn_append_of_quiet (u := chain.calls.flatMap
      (dispatchEffects (dispatchContext currentTick slot.state chain) tickDurationMs))
      (by
        intro hmem
        obtain ⟨_, -, _, -, he | he⟩ := mem_dispatchEffects hmem <;> cases he)
      (by
        intro target kind hmem
        obtain ⟨_, -, _, -, he | he⟩ := mem_dispatchEffects hmem <;> cases he) t
    refine hq.sweep (dispatchCall_keeps (dispatchContext currentTick slot.state chain)
      tickDurationMs) (by rw [queue_of_chain hchain]; rfl) (by simp [hchain])
      (periodCalls_append_of_not_plan hplan t) (currentChain_append_of_not_plan hplan t) ?_
      (fun target hacc => (haccepted target).2 hacc)
      (fun target hacc => .inl ((haccepted target).1 hacc))
    intro call hmem
    rw [dispatchCall_accepted, haccepted]
    exact hq.accepted call hmem
  | prune currentTick hstate hchain =>
    rw [List.append_nil]
    exact hq.prune h.planned hchain currentTick
  | lose hstate hchain => exact hq.drop rfl (by simp) (by simp)
  | settle hstate => exact hq.drop rfl (by simp) (by simp)
  | rest hstate => exact hq.quiet rfl id (by simp) (by simp) (by simp)
  | abandon => exact hq.drop rfl (by simp) (by simp)

/-- The invariant holds of every slot that a run from a new one reaches. -/
theorem SlotRun.slotInv {i : Fin 3} {slot : ManagedSlot} {t : List Effect}
    (h : SlotRun cfg (slot₀ cfg i) t slot) : SlotInv cfg slot t := by
  have hinv := h.invariant (fun slot t => SlotInv cfg slot t)
    (fun _ _ _ _ h hstep => h.step hstep) ⟨Planned.new i, .new i⟩
  simpa using hinv

end RandomClient
