import RandomClient.Sends

/-!
# No equivocation

Two byte strings for one target of one stream would let the network choose.
Within an epoch the targets a stream signs increase (`PlanInv.spaced`). Across
epochs nothing is stored; there the send windows separate them: what is handed
out lies at most six ticks ahead, and what a later epoch signs lies at least
six ticks ahead of a later tick.
-/

namespace RandomClient

variable {cfg : Config}

/-! ## Signed calls -/

/-- A change that signs a call does nothing else, and only a first commit is
signed for a slot that is not planning. -/
theorem SlotStep.eq_of_signed {slot slot' : ManagedSlot} {u₁ u₂ : List Effect} {call : SignedCall}
    (h : SlotStep cfg slot (u₁ ++ .signed call :: u₂) slot') :
    u₁ = [] ∧ u₂ = [] ∧ (call.kind = .firstCommit ∨ slot.state.isPlanning = true) := by
  have hsingle : ∀ {call' : SignedCall}, [Effect.signed call'] = u₁ ++ .signed call :: u₂ →
      u₁ = [] ∧ u₂ = [] ∧ call' = call := by
    intro call' heq
    cases u₁ with
    | nil =>
      simp only [List.nil_append, List.cons.injEq, Effect.signed.injEq] at heq
      exact ⟨rfl, heq.2.symm, heq.1⟩
    | cons x u₁ => simp at heq
  have hmem : Effect.signed call ∈ u₁ ++ .signed call :: u₂ := by simp
  generalize hu : u₁ ++ .signed call :: u₂ = u at *
  cases h with
  | note hnote => cases hnote _ hmem
  | start _ hcall =>
    obtain ⟨h₁, h₂, rfl⟩ := hsingle rfl
    exact ⟨h₁, h₂, .inl hcall.kind⟩
  | extend hstate =>
    obtain ⟨h₁, h₂, -⟩ := hsingle rfl
    exact ⟨h₁, h₂, .inr hstate⟩
  | close hstate =>
    obtain ⟨h₁, h₂, -⟩ := hsingle rfl
    exact ⟨h₁, h₂, .inr hstate⟩
  | harvest =>
    obtain ⟨_, -, _, _, he⟩ := mem_harvestEffects hmem
    cases he
  | dispatch =>
    obtain ⟨_, -, _, -, he | he⟩ := mem_dispatchEffects hmem <;> cases he
  | _ => simp at hmem

/-- The planner's invariant just before and just after a call is signed. -/
theorem signed_planInv {i : Fin 3} {slot : ManagedSlot} {t pre post : List Effect}
    {call : SignedCall} (hrun : SlotRun cfg (slot₀ cfg i) t slot)
    (ht : t = pre ++ .signed call :: post) :
    ∃ p q, PlanInv cfg i pre p ∧ PlanInv cfg i (pre ++ [.signed call]) q := by
  obtain ⟨t₁, m, u₁, u₂, m', hbefore, hstep, rfl⟩ := hrun.split ht
  obtain ⟨rfl, rfl, -⟩ := hstep.eq_of_signed
  have hafter : SlotRun cfg (slot₀ cfg i) (t₁ ++ [.signed call]) m' := hbefore.trans (.single hstep)
  obtain ⟨p, -, hp⟩ := SlotRun.planned hbefore
  obtain ⟨q, -, hq⟩ := SlotRun.planned hafter
  rw [SlotRun.key hbefore] at hp
  rw [SlotRun.key hafter] at hq
  rw [List.append_nil]
  exact ⟨p, q, hp, hq⟩

/-- What the signing of a call says about its target and the calls before it. -/
structure SignedAfter (stream : Nat) (before : List Effect) (call : SignedCall) : Prop where
  target_mod : call.targetTick % streamCount = stream
  increasing : ∀ earlier ∈ periodCalls before, earlier.targetTick < call.targetTick
  /-- A continuation or terminal reveal is three ticks after the call before it in its chain. -/
  later : call.kind ≠ .firstCommit → ∃ previous, (currentChain before).getLast? = some previous ∧
    call.targetTick = previous.targetTick + streamCount
  /-- A first commit has the least target that is six ticks ahead and three after
  the last call of the chain it replaces. -/
  first : call.kind = .firstCommit → ∃ currentTick, call.plannedAt = some currentTick ∧
    IsLeast {target | target % streamCount = stream ∧ currentTick + sendLeadTicks ≤ target ∧
      ∀ replaced ∈ (periodCalls before).getLast?, replaced.targetTick + streamCount ≤ target}
      call.targetTick

/-- The last call of the newest chain is the last call of the epoch. -/
theorem PlanInv.getLast_eq {stream : Nat} {t : List Effect} {p : PlanState}
    (hinv : PlanInv cfg stream t p) : (currentChain t).getLast? = (periodCalls t).getLast? := by
  obtain ⟨pre, hpre⟩ := hinv.suffix
  rw [← hpre, List.getLast?_append]
  cases hlast : (currentChain t).getLast? with
  | some call => rfl
  | none =>
    have hnil := currentChain_eq_nil.1 (List.getLast?_eq_none_iff.1 hlast)
    rw [hnil] at hpre
    rw [(List.append_eq_nil_iff.1 hpre).1]
    rfl

theorem PlanInv.signedAfter {stream : Nat} {t : List Effect} {p q : PlanState} {call : SignedCall}
    (hbefore : PlanInv cfg stream t q) (hinv : PlanInv cfg stream (t ++ [.signed call]) p) :
    SignedAfter stream t call := by
  have hspaced := hinv.spaced
  have hfirst := hinv.first
  have hsucc := hinv.succeeds
  rw [periodCalls_signed] at hspaced hfirst hsucc
  have hincreasing : ∀ earlier ∈ periodCalls t, earlier.targetTick < call.targetTick := by
    intro earlier hmem
    have hle := (List.pairwise_append.1 hspaced).2.2 earlier hmem call (by simp)
    simp only [streamCount] at hle
    omega
  cases hlast : (periodCalls t).getLast? with
  | none =>
    -- the first call of the epoch
    have hnil := List.getLast?_eq_none_iff.1 hlast
    rw [hnil] at hfirst
    obtain ⟨next, hstarts⟩ := hfirst call (by simp)
    obtain ⟨currentTick, hplanned, hleast⟩ := hstarts.least
    refine ⟨hstarts.target_mod, hincreasing, fun hkind => absurd hstarts.kind hkind, fun _ => ?_⟩
    exact ⟨currentTick, hplanned, by simpa [hlast] using hleast⟩
  | some previous =>
    have hprev : previous ∈ (periodCalls t).getLast? := hlast
    have hstep := (List.isChain_append.1 hsucc).2.2 previous hprev call (by simp)
    obtain ⟨-, -, ⟨hkind, hmod, hfollows⟩ | ⟨next, hstarts⟩⟩ := hstep
    · refine ⟨hmod, hincreasing, fun _ => ⟨previous, ?_, hfollows.target⟩,
        fun h => absurd h hkind⟩
      rw [hbefore.getLast_eq, hlast]
    · obtain ⟨currentTick, hplanned, hleast⟩ := hstarts.least
      refine ⟨hstarts.target_mod, hincreasing, fun hkind => absurd hstarts.kind hkind, fun _ => ?_⟩
      exact ⟨currentTick, hplanned, by simpa [hlast] using hleast⟩

/-! ## The ticks of operations -/

/-- The reported tick an operation acts at. -/
def SlotOp.tick : SlotOp → Option Nat
  | .startIfReady _ currentTick | .extendChain _ currentTick | .expireCalls currentTick
  | .dispatchCalls currentTick _ | .finishStatusRestart currentTick
  | .pruneCalls currentTick => some currentTick
  | .reset | .harvestBroadcasts _ | .applyStatus _ | .enterDrain _ _ | .finishDrain => none

/-- Ticks increase over every epoch change. -/
def EpochsOrdered (ops : List SlotOp) : Prop :=
  ∀ pre post, ops = pre ++ .reset :: post → ∀ op ∈ pre, ∀ op' ∈ post,
    ∀ tick ∈ op.tick, ∀ tick' ∈ op'.tick, tick < tick'

theorem EpochsOrdered.init {ops more : List SlotOp} (h : EpochsOrdered (ops ++ more)) :
    EpochsOrdered ops := by
  intro pre post hsplit op hop op' hop'
  exact h pre (post ++ more) (by simp [hsplit]) op hop op' (List.mem_append_left _ hop')

/-- Where the effects of a history come from: what was handed out before the
running epoch at an operation before its reset, what was planned in it at an
operation after. -/
structure Stamped (ops : List SlotOp) (t : List Effect) (old new : List SlotOp) : Prop where
  split : ops = old ++ .reset :: new ∨ (old = [] ∧ ops = new)
  handed : ∀ currentTick target kind redundant task,
    Effect.handed currentTick target kind redundant task ∈ t →
      (∃ op ∈ ops, op.tick = some currentTick) ∧
      (Effect.handed currentTick target kind redundant task ∈ period t ∨
        ∃ op ∈ old, op.tick = some currentTick)
  planned : ∀ signed ∈ periodCalls t, ∀ currentTick, signed.plannedAt = some currentTick →
    ∃ op ∈ new, op.tick = some currentTick

theorem SlotOp.reset_notMem {op : SlotOp} (h : op ≠ .reset) (slot : ManagedSlot) :
    Effect.reset ∉ (op.run cfg slot).effects := by
  intro hmem
  rcases SlotOp.emits hmem with hnote | hemits
  · cases hnote
  · cases hemits
    exact h rfl

theorem SlotOp.handed_tick {op : SlotOp} {slot : ManagedSlot} {currentTick target : Nat}
    {kind : CallKind} {redundant : Bool} {task : BroadcastTask}
    (h : Effect.handed currentTick target kind redundant task ∈ (op.run cfg slot).effects) :
    op.tick = some currentTick := by
  obtain ⟨_, _, _, rfl, -⟩ := SlotOp.handed h
  rfl

theorem SlotOp.planned_tick {op : SlotOp} {slot : ManagedSlot} {call : SignedCall}
    {currentTick : Nat} (h : Effect.signed call ∈ (op.run cfg slot).effects)
    (hplanned : call.plannedAt = some currentTick) : op.tick = some currentTick := by
  rcases SlotOp.emits h with hnote | hemits
  · cases hnote
  · cases hemits with
    | closes _ hnone => simp [hnone] at hplanned
    | starts _ hsome =>
      rw [hsome] at hplanned
      exact hplanned
    | continues _ hsome =>
      rw [hsome] at hplanned
      exact hplanned

variable (cfg) in
theorem stamped (slot : ManagedSlot) (ops : List SlotOp) :
    ∃ old new, Stamped ops ((slotMachine cfg).trace slot ops) old new := by
  induction ops using List.reverseRecOn with
  | nil => exact ⟨[], [], .inr ⟨rfl, rfl⟩, by simp, by simp⟩
  | append_singleton ops op ih =>
    obtain ⟨old, new, hsplit, hhanded, hplanned⟩ := ih
    rw [slotMachine_trace_snoc]
    generalize (slotMachine cfg).state slot ops = s
    generalize (slotMachine cfg).trace slot ops = t at *
    by_cases hop : op = .reset
    · -- everything so far becomes old
      subst hop
      have hperiodCalls : periodCalls (t ++ (resetSlot s).effects) = [] := by
        simp [resetSlot, ← List.append_assoc]
      refine ⟨ops, [], .inl rfl, ?_, ?_⟩
      · intro currentTick target kind redundant task hmem
        have hold : Effect.handed currentTick target kind redundant task ∈ t := by
          rcases List.mem_append.1 hmem with hmem | hmem
          · exact hmem
          · exact absurd (SlotOp.handed_tick hmem) (by simp [SlotOp.tick])
        obtain ⟨⟨op, hop, htick⟩, -⟩ := hhanded _ _ _ _ _ hold
        exact ⟨⟨op, List.mem_append_left _ hop, htick⟩, .inr ⟨op, hop, htick⟩⟩
      · intro signed hmem
        change signed ∈ periodCalls (t ++ (resetSlot s).effects) at hmem
        rw [hperiodCalls] at hmem
        cases hmem
    · have hreset : Effect.reset ∉ (op.run cfg s).effects := op.reset_notMem hop s
      have hperiod := period_append hreset t
      refine ⟨old, new ++ [op], ?_, ?_, ?_⟩
      · rcases hsplit with rfl | ⟨rfl, rfl⟩
        · exact .inl (by simp)
        · exact .inr ⟨rfl, rfl⟩
      · intro currentTick target kind redundant task hmem
        rw [hperiod]
        rcases List.mem_append.1 hmem with hmem | hmem
        · obtain ⟨⟨op', hop', htick⟩, hwhere⟩ := hhanded _ _ _ _ _ hmem
          refine ⟨⟨op', List.mem_append_left _ hop', htick⟩, ?_⟩
          rcases hwhere with hin | hold
          · exact .inl (List.mem_append_left _ hin)
          · exact .inr hold
        · exact ⟨⟨op, by simp, SlotOp.handed_tick hmem⟩, .inl (List.mem_append_right _ hmem)⟩
      · intro signed hmem currentTick htick
        rcases mem_periodCalls_append hmem hreset with hmem | hmem
        · obtain ⟨op', hop', htick'⟩ := hplanned signed hmem currentTick htick
          exact ⟨op', List.mem_append_left _ hop', htick'⟩
        · exact ⟨op, by simp, SlotOp.planned_tick hmem htick⟩

/-- The calls of an epoch lie six ticks after the tick its first one was planned at. -/
theorem PlanInv.planned_le {stream : Nat} {t : List Effect} {p : PlanState}
    (hinv : PlanInv cfg stream t p) {signed : SignedCall} (hmem : signed ∈ periodCalls t) :
    ∃ first ∈ periodCalls t, ∃ currentTick, first.plannedAt = some currentTick ∧
      currentTick + sendLeadTicks ≤ signed.targetTick := by
  have hspaced := hinv.spaced
  have hfirst := hinv.first
  cases hcalls : periodCalls t with
  | nil =>
    rw [hcalls] at hmem
    cases hmem
  | cons first rest =>
    rw [hcalls] at hmem hspaced hfirst
    obtain ⟨next, hstarts⟩ := hfirst first (by simp)
    obtain ⟨currentTick, hplanned, hleast⟩ := hstarts.least
    refine ⟨first, by simp, currentTick, hplanned, ?_⟩
    have hle := hleast.1.2.1
    rcases List.mem_cons.1 hmem with rfl | hmem
    · exact hle
    · have hlt := (List.pairwise_cons.1 hspaced).1 signed hmem
      omega

/-- A dispatch hands out the bytes every earlier send of the target had. -/
theorem bytes_eq_of_last (i : Fin 3) {ops : List SlotOp} {op : SlotOp}
    (hordered : EpochsOrdered (ops ++ [op])) {c c' target : Nat} {kind kind' : CallKind}
    {redundant redundant' : Bool} {task task' : BroadcastTask}
    (h : Effect.handed c target kind redundant task ∈
      (slotMachine cfg).trace (slot₀ cfg i) (ops ++ [op]))
    (h' : Effect.handed c' target kind' redundant' task' ∈
      (op.run cfg ((slotMachine cfg).state (slot₀ cfg i) ops)).effects) :
    task.txBytes = task'.txBytes := by
  have hop : op ≠ .reset := by
    rintro rfl
    exact absurd (SlotOp.handed_tick h') (by simp [SlotOp.tick])
  have hrun : SlotRun cfg (slot₀ cfg i) _ _ := slotMachine_run i (ops ++ [op])
  have hsends := hrun.sendInv
  obtain ⟨p, -, hinv⟩ := hrun.planned
  obtain ⟨old, new, hstamped⟩ := stamped cfg (slot₀ cfg i) (ops ++ [op])
  have hperiod : Effect.handed c' target kind' redundant' task' ∈
      period ((slotMachine cfg).trace (slot₀ cfg i) (ops ++ [op])) := by
    rw [slotMachine_trace_snoc, period_append (op.reset_notMem hop _)]
    exact List.mem_append_right _ h'
  obtain ⟨signed', hsigned', htarget', -, hbytes'⟩ := hsends.handed _ _ _ _ _ hperiod
  rcases (hstamped.handed _ _ _ _ _ h).2 with hin | ⟨op₁, hop₁, htick₁⟩
  · -- the same epoch: one call for the target
    obtain ⟨signed, hsigned, htarget, -, hbytes⟩ := hsends.handed _ _ _ _ _ hin
    obtain rfl := hinv.spaced.eq_of_target hsigned hsigned' (htarget.trans htarget'.symm)
    exact hbytes.symm.trans hbytes'
  · -- an earlier epoch: its window ends before the targets of this one
    exfalso
    obtain ⟨first, hfirst, currentTick, htick, hle⟩ := hinv.planned_le hsigned'
    obtain ⟨op₂, hop₂, htick₂⟩ := hstamped.planned first hfirst currentTick htick
    have hwindow := handed_window h
    have hlead : sendLead kind ≤ sendLeadTicks := by cases kind <;> decide
    rcases hstamped.split with hsplit | ⟨rfl, -⟩
    · have hlt := hordered old new hsplit op₁ hop₁ op₂ hop₂ c htick₁ currentTick htick₂
      rw [htarget'] at hle
      omega
    · cases hop₁

/-- Over ordered epochs one target of a stream is handed out with one byte string. -/
theorem bytes_eq_of_ordered (i : Fin 3) {ops : List SlotOp} (hordered : EpochsOrdered ops)
    {c c' target : Nat} {kind kind' : CallKind} {redundant redundant' : Bool}
    {task task' : BroadcastTask}
    (h : Effect.handed c target kind redundant task ∈ (slotMachine cfg).trace (slot₀ cfg i) ops)
    (h' : Effect.handed c' target kind' redundant' task' ∈
      (slotMachine cfg).trace (slot₀ cfg i) ops) : task.txBytes = task'.txBytes := by
  induction ops using List.reverseRecOn with
  | nil => cases h
  | append_singleton ops op ih =>
    have hsplit := h
    have hsplit' := h'
    rw [slotMachine_trace_snoc] at hsplit hsplit'
    rcases List.mem_append.1 hsplit with hold | hnew
    · rcases List.mem_append.1 hsplit' with hold' | hnew'
      · exact ih hordered.init hold hold'
      · exact bytes_eq_of_last i hordered h hnew'
    · exact (bytes_eq_of_last i hordered h' hnew).symm

/-! ## Ordered reports -/

/-- Reported ticks never decrease, and increase whenever the reported epoch changes. -/
def OrderedReports (inputs : List EngineInput) : Prop :=
  (reports inputs).IsChain fun previous next =>
    previous.tick ≤ next.tick ∧ (previous.epoch ≠ next.epoch → previous.tick < next.tick)

instance (inputs : List EngineInput) : Decidable (OrderedReports inputs) :=
  inferInstanceAs (Decidable (List.IsChain _ _))

/-- The operations of a cycle act at its tick. -/
theorem cycleOps_tick {tick : TickInfo} {input : CycleInput} {e : Engine} {i : Fin 3} {op : SlotOp}
    (h : op ∈ cycleOps cfg tick input e i) {t : Nat} (ht : op.tick = some t) : t = tick.tick := by
  simp only [cycleOps, List.mem_append, List.mem_singleton] at h
  rcases h with (((h | rfl) | h) | h) | h
  · split at h
    · rw [List.mem_singleton.1 h] at ht
      cases ht
    · cases h
  · cases ht
  · unfold statusOps at h
    repeat' split at h
    · rw [List.mem_singleton.1 h] at ht
      cases ht
    · cases h
    · cases h
  · unfold planOps at h
    split at h
    · rw [List.mem_singleton.1 h] at ht
      cases ht
    · simp only [List.mem_cons, List.not_mem_nil, or_false] at h
      rcases h with rfl | rfl <;> simpa [SlotOp.tick, eq_comm] using ht
    · cases h
  · simp only [deliveryOps, List.mem_cons, List.not_mem_nil, or_false] at h
    rcases h with rfl | rfl | rfl | rfl | rfl <;> simp_all [SlotOp.tick]

/-- A cycle resets its slots first, and only when the recorded epoch changes. -/
theorem cycleOps_reset {tick : TickInfo} {input : CycleInput} {e : Engine} {i : Fin 3}
    {pre post : List SlotOp} (h : cycleOps cfg tick input e i = pre ++ .reset :: post) :
    pre = [] ∧ epochChanges e tick = true := by
  simp only [cycleOps, List.append_assoc] at h
  generalize hrest : [SlotOp.harvestBroadcasts (input.broadcastResults i)] ++
    (statusOps (observationOf tick input e) tick.epoch ++
      (planOps (planOf (phaseAfter cfg tick input e) tick.epoch input.cancelled) tick
        (input.env i) ++ deliveryOps tick)) = rest at h
  have hnot : SlotOp.reset ∉ rest := by
    rw [← hrest]
    unfold statusOps planOps deliveryOps
    intro hmem
    simp only [List.mem_append] at hmem
    rcases hmem with hmem | hmem | hmem | hmem
    · simp at hmem
    · repeat' split at hmem
      all_goals simp at hmem
    · split at hmem <;> simp at hmem
    · simp at hmem
  split at h
  · rename_i hchange
    cases pre with
    | nil => exact ⟨rfl, hchange⟩
    | cons op pre =>
      simp only [List.cons_append, List.nil_append, List.cons.injEq] at h
      rw [h.2] at hnot
      simp at hnot
  · rw [List.nil_append] at h
    rw [h] at hnot
    simp at hnot

/-- The ticks of a history against the last report of its run. -/
structure TickInv (last : Option TickInfo) (ops : List SlotOp) : Prop where
  bounded : ∀ op ∈ ops, ∀ t ∈ op.tick, ∃ r, last = some r ∧ t ≤ r.tick
  before : ∀ pre post, ops = pre ++ .reset :: post → ∀ op ∈ pre, ∀ t ∈ op.tick,
    ∀ r ∈ last, t < r.tick
  ordered : EpochsOrdered ops

/-- One more cycle at a later tick, with its reset first if the epoch changed. -/
theorem TickInv.cycle {last : Option TickInfo} {ops more : List SlotOp} {tick : TickInfo}
    (h : TickInv last ops) (htick : ∀ op ∈ more, ∀ t ∈ op.tick, t = tick.tick)
    (hle : ∀ r ∈ last, r.tick ≤ tick.tick)
    (hreset : ∀ pre post, more = pre ++ .reset :: post →
      pre = [] ∧ ∀ r ∈ last, r.tick < tick.tick) : TickInv (some tick) (ops ++ more) := by
  -- every tick so far is at most the new one, and below it after a reset
  have hold : ∀ op ∈ ops, ∀ t ∈ op.tick, t ≤ tick.tick := by
    intro op hop t ht
    obtain ⟨r, hr, hbound⟩ := h.bounded op hop t ht
    exact hbound.trans (hle r hr)
  have hbefore : ∀ pre post, ops ++ more = pre ++ .reset :: post → ∀ op ∈ pre, ∀ t ∈ op.tick,
      t < tick.tick := by
    intro pre post hsplit op hop t ht
    rcases List.append_eq_append_iff.1 hsplit with ⟨rest, rfl, hmore⟩ | ⟨rest, hops, hrest⟩
    · -- the reset is in the new operations
      obtain ⟨rfl, hlt⟩ := hreset rest post hmore
      rw [List.append_nil] at hop
      obtain ⟨r, hr, hbound⟩ := h.bounded op hop t ht
      exact hbound.trans_lt (hlt r hr)
    · cases rest with
      | nil =>
        rw [List.nil_append] at hrest
        obtain ⟨-, hlt⟩ := hreset [] post hrest.symm
        rw [List.append_nil] at hops
        obtain ⟨r, hr, hbound⟩ := h.bounded op (by rw [hops]; exact hop) t ht
        exact hbound.trans_lt (hlt r hr)
      | cons x rest =>
        rw [List.cons_append, List.cons.injEq] at hrest
        obtain ⟨rfl, -⟩ := hrest
        obtain ⟨r, hr, hbound⟩ := h.bounded op (by rw [hops]; exact List.mem_append_left _ hop) t ht
        exact (h.before pre rest hops op hop t ht r hr).trans_le (hle r hr)
  refine ⟨?_, fun pre post hsplit op hop t ht r hr => ?_, ?_⟩
  · intro op hop t ht
    rcases List.mem_append.1 hop with hop | hop
    · exact ⟨tick, rfl, hold op hop t ht⟩
    · exact ⟨tick, rfl, (htick op hop t ht).le⟩
  · obtain rfl := Option.some.inj hr
    exact hbefore pre post hsplit op hop t ht
  · intro pre post hsplit op hop op' hop' t ht t' ht'
    have hlt := hbefore pre post hsplit op hop t ht
    rcases List.append_eq_append_iff.1 hsplit with ⟨rest, rfl, hmore⟩ | ⟨rest, hops, hrest⟩
    · rw [htick op' (by rw [hmore]; simp [hop']) t' ht']
      exact hlt
    · cases rest with
      | nil =>
        rw [List.nil_append] at hrest
        rw [htick op' (by rw [← hrest]; simp [hop']) t' ht']
        exact hlt
      | cons x rest =>
        rw [List.cons_append, List.cons.injEq] at hrest
        obtain ⟨rfl, rfl⟩ := hrest
        rcases List.mem_append.1 hop' with hop' | hop'
        · exact h.ordered pre rest hops op hop op' hop' t ht t' ht'
        · rw [htick op' hop' t' ht']
          exact hlt

/-- One more operation that acts at no tick. -/
theorem TickInv.idle {last : Option TickInfo} {ops : List SlotOp} {op : SlotOp}
    (h : TickInv last ops) (htick : op.tick = none) (hreset : op ≠ .reset) :
    TickInv last (ops ++ [op]) := by
  -- a reset of the longer history is one of the shorter
  have hsplit : ∀ pre post, ops ++ [op] = pre ++ .reset :: post →
      ∃ rest, post = rest ++ [op] ∧ ops = pre ++ .reset :: rest := by
    intro pre post heq
    rcases post.eq_nil_or_concat with rfl | ⟨rest, last, rfl⟩
    · obtain ⟨-, hlast⟩ := List.append_inj' heq rfl
      exact absurd (List.cons.inj hlast).1 hreset
    · rw [List.concat_eq_append, ← List.cons_append, ← List.append_assoc] at heq
      obtain ⟨hops, hlast⟩ := List.append_inj' heq rfl
      rw [(List.cons.inj hlast).1]
      exact ⟨rest, by simp, hops⟩
  refine ⟨?_, ?_, ?_⟩
  · intro op' hop' t ht
    rcases List.mem_append.1 hop' with hop' | hop'
    · exact h.bounded op' hop' t ht
    · rw [List.mem_singleton.1 hop', htick] at ht
      cases ht
  · intro pre post heq op' hop'
    obtain ⟨rest, -, hops⟩ := hsplit pre post heq
    exact h.before pre rest hops op' hop'
  · intro pre post heq op₁ hop₁ op₂ hop₂
    obtain ⟨rest, rfl, hops⟩ := hsplit pre post heq
    rcases List.mem_append.1 hop₂ with hop₂ | hop₂
    · exact h.ordered pre rest hops op₁ hop₁ op₂ hop₂
    · intro t _ t' ht'
      rw [List.mem_singleton.1 hop₂, htick] at ht'
      cases ht'

/-- The histories of a run with ordered reports have ordered epochs. -/
theorem tickInv_of_reports (a b c : Nat) {inputs : List EngineInput}
    (h : OrderedReports inputs) (i : Fin 3) :
    TickInv (reports inputs).getLast? (history cfg (Engine.new cfg a b c) inputs i) := by
  induction inputs using List.reverseRecOn with
  | nil =>
    refine ⟨?_, ?_, ?_⟩
    · intro op hop
      cases hop
    · intro pre post hsplit
      exact absurd hsplit (by simp [history])
    · intro pre post hsplit
      exact absurd hsplit (by simp [history])
  | append_singleton inputs input ih =>
    have hepoch := epoch_of_reports cfg a b c inputs
    rw [OrderedReports, reports_snoc, List.isChain_append] at h
    obtain ⟨hinit, -, hlast⟩ := h
    have ih := ih hinit
    rw [history_snoc, reports_snoc]
    generalize (engineMachine cfg).state (Engine.new cfg a b c) inputs = e at *
    rcases engineStep_ops cfg input e i with ⟨tick, cycleInput, hreport, -, hbegun⟩ |
      ⟨hreport, hops⟩
    · rw [hreport] at hlast ⊢
      simp only [Option.toList_some, List.getLast?_append, List.getLast?_singleton,
        Option.some_or]
      obtain ⟨rest, hrest⟩ := hbegun
      refine ih.cycle ?_ ?_ ?_
      · intro op hop t ht
        exact cycleOps_tick (by rw [← hrest]; exact List.mem_append_left _ hop) ht
      · intro r hr
        exact (hlast r hr tick (by simp)).1
      · intro pre post hsplit
        rw [hsplit] at hrest
        have hops : cycleOps cfg tick cycleInput e i = pre ++ .reset :: (post ++ rest) := by
          rw [← hrest]
          simp
        obtain ⟨hpre, hchange⟩ := cycleOps_reset hops
        refine ⟨hpre, fun r hr => (hlast r hr tick (by simp)).2 ?_⟩
        -- the recorded epoch is that of the last report
        rw [Option.mem_def.1 hr, Option.map_some] at hepoch
        simp only [epochChanges, hepoch, ne_eq, Option.some.injEq, decide_not] at hchange
        simpa using hchange
    · rw [hreport, Option.toList_none, List.append_nil]
      rcases hops with hnil | ⟨env, hdrain⟩
      · rw [hnil, List.append_nil]
        exact ih
      · rw [hdrain]
        exact ih.idle rfl SlotOp.noConfusion

/-! ## The result -/

/-- No equivocation. Every call signed in an epoch has a target of its stream
above all targets signed before in the epoch, three ticks after its
predecessor in the chain, or the least one that clears the send lead and the
chain it replaces. If reported ticks never decrease and increase at every epoch
change, no two byte strings are ever handed out for one target of one stream. -/
theorem no_equivocation (a b c : Nat) (inputs : List EngineInput) (i : Fin 3) :
    (∀ before call after,
      runTrace cfg (Engine.new cfg a b c) inputs i = before ++ .signed call :: after →
        SignedAfter i before call) ∧
    (OrderedReports inputs → ∀ tick tick' target kind kind' redundant redundant' task task',
      Effect.handed tick target kind redundant task ∈
        runTrace cfg (Engine.new cfg a b c) inputs i →
      Effect.handed tick' target kind' redundant' task' ∈
        runTrace cfg (Engine.new cfg a b c) inputs i → task.txBytes = task'.txBytes) := by
  constructor
  · intro before call after htrace
    obtain ⟨p, q, hp, hq⟩ :=
      signed_planInv (slotMachine_run i (history cfg (Engine.new cfg a b c) inputs i)) htrace
    exact hp.signedAfter hq
  · intro hordered tick tick' target kind kind' redundant redundant' task task' h h'
    exact bytes_eq_of_ordered i (tickInv_of_reports a b c hordered i).ordered h h'

/-- Three cycles in which the chains start and the first broadcast of stream 1 fails. -/
def retriedStart : List EngineInput :=
  [sampleCycle 0 (sampleTick 1 0) none (fun _ => none),
    sampleCycle 1000 (sampleTick 1 1) (some emptyStatus) (fun _ => none),
    sampleCycle 2000 (sampleTick 1 2) (some emptyStatus) (fun _ => some .err)]

/-- The first commit stream 1 signs in `retriedStart`. -/
def retriedCommit : SignedCall where
  targetTick := 7
  kind := .firstCommit
  input := { reveal := Preimage.zero, commit := sampleConfig.commitDigest (samplePreimage 7) }
  txBytes := 7 :: RevealAndCommitInput.encode
    { reveal := Preimage.zero, commit := sampleConfig.commitDigest (samplePreimage 7) }
  preimage := some (samplePreimage 7)
  plannedAt := some 1
  drain := none

theorem no_equivocation_retried :
    (∃ before after, runTrace sampleConfig sampleEngine retriedStart 1 =
      before ++ .signed retriedCommit :: after ∧ SignedAfter 1 before retriedCommit) ∧
    ∃ task task',
      Effect.handed 1 7 .firstCommit false task ∈
        runTrace sampleConfig sampleEngine retriedStart 1 ∧
      Effect.handed 2 7 .firstCommit false task' ∈
        runTrace sampleConfig sampleEngine retriedStart 1 ∧ task.txBytes = task'.txBytes := by
  have hordered : OrderedReports retriedStart := by decide +kernel
  have hsigned : runTrace sampleConfig sampleEngine retriedStart 1 =
      (runTrace sampleConfig sampleEngine retriedStart 1).take 1 ++ .signed retriedCommit ::
        (runTrace sampleConfig sampleEngine retriedStart 1).drop 2 := by decide +kernel
  have hfirst : Effect.handed 1 7 .firstCommit false
      (broadcastTask 1 1000 retriedCommit.planned) ∈
        runTrace sampleConfig sampleEngine retriedStart 1 := by decide +kernel
  have hretry : Effect.handed 2 7 .firstCommit false
      (broadcastTask 2 1000 retriedCommit.planned) ∈
        runTrace sampleConfig sampleEngine retriedStart 1 := by decide +kernel
  obtain ⟨hafter, hbytes⟩ := @no_equivocation sampleConfig 0 0 0 retriedStart 1
  exact ⟨⟨_, _, hsigned, hafter _ _ _ hsigned⟩, _, _, hfirst, hretry,
    hbytes hordered _ _ _ _ _ _ _ _ _ hfirst hretry⟩

end RandomClient
