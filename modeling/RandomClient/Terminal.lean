import RandomClient.Equivocation

/-!
# The terminal reveal

A terminal reveal exposes the last preimage of a chain. It is handed out only
after the backend accepted every other call of the chain, whatever became of
the calls of older chains, and nothing is signed after it in its epoch. A chain
that status froze never gets one.
-/

namespace RandomClient

variable {cfg : Config}

/-! ## Readiness -/

/-- In a slot that hands out a terminal reveal every other call of the chain was accepted. -/
theorem accepted_of_terminal {slot : ManagedSlot} {t : List Effect} (h : SlotInv cfg slot t)
    {op : SlotOp} {tick target : Nat} {redundant : Bool} {task : BroadcastTask}
    (hsend : Effect.handed tick target .terminalReveal redundant task ∈
      (op.run cfg slot).effects) :
    (∃ terminal ∈ currentChain t, terminal.kind = .terminalReveal ∧
      terminal.targetTick = target) ∧
    ∀ call ∈ currentChain t, call.kind ≠ .terminalReveal → AcceptedIn t call.targetTick := by
  obtain ⟨_, chain, queued, -, hchain, hqueued, htarget, hkind, hdispatch, -⟩ :=
    SlotOp.handed hsend
  obtain ⟨-, -, hready, -⟩ := dispatchOf_send hdispatch
  have hqueue := queue_of_chain hchain
  obtain ⟨p, hr, hinv⟩ := h.planned
  have hhas := hr.hasChain hchain
  -- the terminal reveal was signed, so the slot is draining
  obtain ⟨signed, hsigned, hrec⟩ := h.queue.recorded queued (by rw [hqueue]; exact hqueued)
  have hterminal := hrec.kind.trans hkind
  obtain ⟨normal, outstanding, reason, hp, hcalls, hat, hcloses⟩ :=
    hinv.closing_of_terminal hhas hsigned hterminal
  refine ⟨⟨signed, by simp [hcalls], hterminal, hrec.target.trans htarget⟩, ?_⟩
  intro call hmem hnormal
  rcases h.queue.own (by simp [hchain]) call hmem with hacc | ⟨planned, hplanned, hrec'⟩
  · exact hacc
  · -- still queued: the readiness check found it accepted
    have hstate : ∃ reason', slot.state = .draining reason' (chain.lastTarget + streamCount) := by
      rcases hr.of_chain hchain with ⟨-, rfl | rfl⟩ | ⟨reason', hstate, -⟩
      · cases hp
      · cases hp
      · exact ⟨reason', hstate⟩
    obtain ⟨reason', hstate⟩ := hstate
    have hall := hready hkind
    simp only [dispatchContext, hstate, terminalReady, List.all_eq_true, decide_eq_true_eq] at hall
    have hle := hinv.first_le hhas hmem
    have hbefore : call.targetTick < signed.targetTick := by
      have hspaced := hinv.chain_spaced
      rw [hcalls] at hmem hspaced
      rcases List.mem_append.1 hmem with hmem | hmem
      · have hlt := (List.pairwise_append.1 hspaced).2.2 call hmem signed (by simp)
        simp only [streamCount] at hlt
        omega
      · rw [List.mem_singleton.1 hmem] at hnormal
        exact absurd hterminal hnormal
    have htail := hcloses.target
    rcases hall planned (by rw [← hqueue]; exact hplanned) with hlt | hterm | hlt | hacc
    · rw [← hrec'.target] at hlt
      omega
    · exact absurd (hrec'.kind.trans hterm) hnormal
    · rw [← hrec'.target] at hlt
      omega
    · rw [hrec'.target]
      exact (h.queue.accepted planned hplanned).1 hacc

/-- Calls of older chains play no part in the decision of a dispatch. -/
theorem dispatchContext_ignores_retained (currentTick : Nat) (state : SlotState) (chain : Chain) :
    dispatchContext currentTick state { chain with
      calls := chain.calls.filter fun call => chain.firstTarget ≤ call.targetTick } =
    dispatchContext currentTick state chain := by
  have hready : terminalReady state { chain with
      calls := chain.calls.filter fun call => chain.firstTarget ≤ call.targetTick } =
      terminalReady state chain := by
    cases state with
    | draining reason terminalTarget =>
      rw [Bool.eq_iff_iff]
      simp only [terminalReady, List.all_eq_true, List.mem_filter, decide_eq_true_eq]
      constructor
      · intro hall call hmem
        by_cases hle : chain.firstTarget ≤ call.targetTick
        · exact hall call ⟨hmem, hle⟩
        · exact .inl (Nat.lt_of_not_le hle)
      · intro hall call hmem
        exact hall call hmem.1
    | _ => rfl
  simp only [dispatchContext, hready]

/-! ## Nothing after a terminal reveal -/

/-- After a terminal reveal the next signing is in another epoch. -/
theorem reset_after_terminal {i : Fin 3} {slot : ManagedSlot}
    {t before between after : List Effect} {terminal call : SignedCall}
    (hrun : SlotRun cfg (slot₀ cfg i) t slot)
    (ht : t = before ++ .signed terminal :: (between ++ .signed call :: after))
    (hkind : terminal.kind = .terminalReveal) : Effect.reset ∈ between := by
  by_contra hreset
  have ht' : t = (before ++ .signed terminal :: between) ++ .signed call :: after := by
    rw [ht]
    simp
  obtain ⟨-, q, -, hq⟩ := signed_planInv hrun ht'
  have hbefore : terminal ∈ periodCalls (before ++ .signed terminal :: between) := by
    have hbegun := periodCalls_isPrefix hreset (before ++ [.signed terminal])
    rw [List.append_assoc, List.singleton_append] at hbegun
    exact hbegun.subset (by simp)
  have hspaced := hq.spaced
  have hlast : (periodCalls _).getLast? = some terminal := hq.terminal_last
    (by rw [periodCalls_signed]; exact List.mem_append_left _ hbefore) hkind
  rw [periodCalls_signed] at hspaced hlast
  have hlt := (List.pairwise_append.1 hspaced).2.2 terminal hbefore call (by simp)
  rw [List.getLast?_append, List.getLast?_singleton, Option.some_or, Option.some.injEq] at hlast
  rw [hlast] at hlt
  simp only [streamCount] at hlt
  omega

/-- A chain has at most one terminal reveal. -/
theorem terminal_unique {stream : Nat} {t : List Effect} {p : PlanState}
    (hinv : PlanInv cfg stream t p) :
    (currentChain t).countP (fun call => call.kind = .terminalReveal) ≤ 1 := by
  cases hcalls : currentChain t using List.reverseRecOn with
  | nil => simp
  | append_singleton calls last =>
    -- a terminal reveal among the others would be the last call of its epoch
    have hnone : calls.countP (fun call => call.kind = .terminalReveal) = 0 := by
      rw [List.countP_eq_zero]
      intro call hmem hkind
      have hchain : call ∈ currentChain t := by simp [hcalls, hmem]
      have hlast := hinv.terminal_last (hinv.suffix.subset hchain) (by simpa using hkind)
      rw [← hinv.getLast_eq, hcalls, List.getLast?_append, List.getLast?_singleton,
        Option.some_or, Option.some.injEq] at hlast
      have hspaced := hinv.chain_spaced
      rw [hcalls] at hspaced
      have hlt := (List.pairwise_append.1 hspaced).2.2 call hmem last (by simp)
      rw [hlast] at hlt
      simp only [streamCount] at hlt
      omega
    rw [List.countP_append, hnone, Nat.zero_add]
    exact (List.countP_le_length).trans (by simp)

/-! ## Frozen chains -/

def frozenStep (frozen : Bool) : Effect → Bool
  | .froze _ _ => true
  | .signed call => frozen && call.kind ≠ .firstCommit
  | .reset => false
  | _ => frozen

/-- The newest chain was frozen. -/
def chainFrozen (t : List Effect) : Bool := t.foldl frozenStep false

theorem chainFrozen_append (t u : List Effect) :
    chainFrozen (t ++ u) = u.foldl frozenStep (chainFrozen t) := by
  simp [chainFrozen, List.foldl_append]

/-- Nothing but a new epoch or a new chain thaws. -/
theorem chainFrozen_of_froze (before : List Effect) {between : List Effect} (tail : Nat)
    (restarting : Bool) (hreset : Effect.reset ∉ between)
    (hfirst : ∀ call, Effect.signed call ∈ between → call.kind ≠ .firstCommit) :
    chainFrozen (before ++ .froze tail restarting :: between) = true := by
  induction between using List.reverseRecOn with
  | nil =>
    rw [chainFrozen_append]
    rfl
  | append_singleton between e ih =>
    have ih := ih (fun hmem => hreset (by simp [hmem]))
      (fun call hmem => hfirst call (by simp [hmem]))
    rw [← List.cons_append, ← List.append_assoc, chainFrozen_append, ih]
    cases e with
    | signed call =>
      have hkind := hfirst call (by simp)
      simp [frozenStep, hkind]
    | reset => simp at hreset
    | _ => rfl

/-- Effects without freeze, signing and reset keep the flag. -/
theorem chainFrozen_append_of_not_plan {u : List Effect} (h : planEffects u = [])
    (t : List Effect) : chainFrozen (t ++ u) = chainFrozen t := by
  have hfold : ∀ e : Effect, e.isPlan = false → ∀ s, frozenStep s e = s := by
    intro e he s
    cases e <;> first | rfl | cases he
  rw [chainFrozen_append, ← foldl_planEffects hfold, h]
  rfl

/-- A slot with a frozen chain is not planning. -/
theorem not_planning_of_frozen {slot slot' : ManagedSlot} {t u : List Effect}
    (h : chainFrozen t = true → slot.state.isPlanning = false)
    (hstep : SlotStep cfg slot u slot') :
    chainFrozen (t ++ u) = true → slot'.state.isPlanning = false := by
  intro hfrozen
  cases hstep with
  | note hnote =>
    rw [chainFrozen_append_of_not_plan (planEffects_notes hnote)] at hfrozen
    exact h hfrozen
  | reset => rfl
  | start hready hcall =>
    rw [chainFrozen_append] at hfrozen
    simp [frozenStep, hcall.kind] at hfrozen
  | extend hstate hchain hcall =>
    rw [chainFrozen_append] at hfrozen
    simp only [List.foldl_cons, List.foldl_nil, frozenStep, Bool.and_eq_true] at hfrozen
    rw [h hfrozen.1] at hstate
    cases hstate
  | close => rfl
  | watch hstate hchain hnext =>
    rw [List.append_nil] at hfrozen
    rw [h hfrozen] at hstate
    cases hstate
  | freeze => rfl
  | exhaust => rfl
  | wait => rfl
  | hold => rfl
  | harvest results hchain =>
    rw [chainFrozen_append_of_not_plan (planEffects_harvest _ _ _)] at hfrozen
    exact h hfrozen
  | expire =>
    rw [List.append_nil] at hfrozen
    exact h hfrozen
  | dispatch =>
    rw [chainFrozen_append_of_not_plan (planEffects_dispatch _ _ _)] at hfrozen
    exact h hfrozen
  | prune =>
    rw [List.append_nil] at hfrozen
    exact h hfrozen
  | lose => rfl
  | settle => rfl
  | rest => rfl
  | abandon => rfl

theorem SlotRun.not_planning {i : Fin 3} {slot : ManagedSlot} {t : List Effect}
    (h : SlotRun cfg (slot₀ cfg i) t slot) (hfrozen : chainFrozen t = true) :
    slot.state.isPlanning = false := by
  have hinv := h.invariant
    (fun slot t => chainFrozen t = true → slot.state.isPlanning = false)
    (fun _ _ _ _ h hstep => not_planning_of_frozen h hstep) (t := []) (fun h => by cases h)
  rw [List.nil_append] at hinv
  exact hinv hfrozen

/-- The call signed next for a slot with a frozen chain is a first commit. -/
theorem first_of_frozen {i : Fin 3} {slot : ManagedSlot} {t before after : List Effect}
    {call : SignedCall} (hrun : SlotRun cfg (slot₀ cfg i) t slot)
    (ht : t = before ++ .signed call :: after) (hfrozen : chainFrozen before = true) :
    call.kind = .firstCommit := by
  obtain ⟨t₁, m, u₁, u₂, m', hbefore, hstep, rfl⟩ := hrun.split ht
  obtain ⟨rfl, rfl, hkind⟩ := hstep.eq_of_signed
  rw [List.append_nil] at hfrozen
  rw [SlotRun.not_planning hbefore hfrozen] at hkind
  exact hkind.resolve_right Bool.noConfusion

/-! ## The result -/

/-- Terminal reveal ordering, after all operations on a slot, those of every run
among them. A terminal reveal is handed out only for a chain whose other calls
the backend has all accepted, and calls of older chains have no say in it. After
it nothing is signed in the epoch; a chain has at most one, a frozen chain none,
and the one of a shutdown is handed out at most once. -/
theorem terminal_ordering (i : Fin 3) (ops : List SlotOp) :
    let slot := (slotMachine cfg).state (slot₀ cfg i) ops
    let t := (slotMachine cfg).trace (slot₀ cfg i) ops
    (∀ (op : SlotOp) (tick target : Nat) (redundant : Bool) (task : BroadcastTask),
      Effect.handed tick target .terminalReveal redundant task ∈ (op.run cfg slot).effects →
        (∃ terminal ∈ currentChain t, terminal.kind = .terminalReveal ∧
          terminal.targetTick = target) ∧
        ∀ call ∈ currentChain t, call.kind ≠ .terminalReveal → AcceptedIn t call.targetTick) ∧
    (∀ (chain : Chain) (tick : Nat), slot.chain = some chain →
      dispatchContext tick slot.state { chain with
        calls := chain.calls.filter fun call => chain.firstTarget ≤ call.targetTick } =
      dispatchContext tick slot.state chain) ∧
    (∀ before terminal between call after,
      t = before ++ .signed terminal :: (between ++ .signed call :: after) →
        terminal.kind = .terminalReveal → Effect.reset ∈ between) ∧
    (currentChain t).countP (fun call => call.kind = .terminalReveal) ≤ 1 ∧
    (∀ before tail restarting between call after,
      t = before ++ .froze tail restarting :: (between ++ .signed call :: after) →
        call.kind = .terminalReveal → Effect.reset ∈ between ∨
          ∃ first, Effect.signed first ∈ between ∧ first.kind = .firstCommit) ∧
    (∀ terminal ∈ periodCalls t, terminal.kind = .terminalReveal →
      terminal.drain = some .shutdown →
        (period t).countP (Effect.sends terminal.targetTick) ≤ 1) := by
  intro slot t
  have hrun : SlotRun cfg (slot₀ cfg i) t slot := slotMachine_run i ops
  refine ⟨?_, ?_, ?_, ?_, ?_, ?_⟩
  · intro op tick target redundant task hsend
    exact accepted_of_terminal hrun.slotInv hsend
  · intro chain tick _
    exact dispatchContext_ignores_retained tick slot.state chain
  · intro before terminal between call after ht hkind
    exact reset_after_terminal hrun ht hkind
  · obtain ⟨p, -, hinv⟩ := hrun.planned
    exact terminal_unique hinv
  · intro before tail restarting between call after ht hkind
    by_contra hnot
    push Not at hnot
    -- without a reset and a first commit the chain is still the frozen one
    have hfrozen := chainFrozen_of_froze before tail restarting hnot.1 hnot.2
    rw [← List.cons_append, ← List.append_assoc] at ht
    have hfirst := first_of_frozen hrun ht hfrozen
    rw [hkind] at hfirst
    cases hfirst
  · intro terminal hmem hkind hdrain
    exact (hrun.sendInv.shutdown terminal.targetTick ⟨terminal, hmem, rfl, hkind, hdrain⟩).1

/-- Five cycles, a shutdown and four more cycles. -/
def shutdownRun : List EngineInput :=
  steadyRun [0, 1, 2, 3, 4] ++ [.shutdown fun _ => sampleEnv] ++ steadyRun [5, 6, 7, 8]

/-- The signed bytes of the terminal reveal of stream 1 in `shutdownRun`. -/
def shutdownTerminalBytes : Bytes :=
  13 :: RevealAndCommitInput.encode { reveal := samplePreimage 10, commit := Digest.zero }

/-- At tick 9 the terminal reveal goes out, after both calls of its chain were accepted. -/
theorem terminal_ordering_shutdown :
    let ops := history sampleConfig sampleEngine shutdownRun 1
    let slot := (slotMachine sampleConfig).state (slot₀ sampleConfig 1) ops
    let t := (slotMachine sampleConfig).trace (slot₀ sampleConfig 1) ops
    Effect.handed 9 13 .terminalReveal false
        { txBytes := shutdownTerminalBytes, attemptTimeoutMs := 1950 } ∈
      ((SlotOp.dispatchCalls 9 1000).run sampleConfig slot).effects ∧
    (currentChain t).map SignedCall.targetTick = [7, 10, 13] ∧
    ∀ call ∈ currentChain t, call.kind ≠ .terminalReveal → AcceptedIn t call.targetTick := by
  intro ops slot t
  have hsend : Effect.handed 9 13 .terminalReveal false
        { txBytes := shutdownTerminalBytes, attemptTimeoutMs := 1950 } ∈
      ((SlotOp.dispatchCalls 9 1000).run sampleConfig slot).effects := by decide +kernel
  have htargets : (currentChain t).map SignedCall.targetTick = [7, 10, 13] := by decide +kernel
  have hresult := @terminal_ordering sampleConfig 1 ops
  exact ⟨hsend, htargets, (hresult.1 _ _ _ _ _ hsend).2⟩

end RandomClient
