import RandomClient.Sends

/-!
# Commit–reveal linkage

The inputs a slot signs for one chain form a commit–reveal chain
(`LinkedChain`): the first reveals nothing, each later one reveals the preimage
the one before committed to, and the slot holds the preimage behind the last
commitment until a terminal reveal uses it. A signing attempt that fails leaves
no trace (`SlotOp.failed`).
-/

namespace RandomClient

variable {cfg : Config}

/-- The signed inputs of a chain, in target order, against what the slot stores. -/
structure LinkedChain (cfg : Config) (chain : Chain) (state : SlotState)
    (calls : List SignedCall) : Prop where
  /-- The first input, at the chain's first target, reveals nothing. -/
  first : ∃ first, calls.head? = some first ∧ first.targetTick = chain.firstTarget ∧
    first.input.reveal = Preimage.zero
  ordered : calls.Pairwise fun k l => k.targetTick < l.targetTick
  /-- Every planned call from the first target on was signed with one of the inputs. -/
  queued : ∀ call ∈ chain.calls, chain.firstTarget ≤ call.targetTick →
    ∃ signed ∈ calls, signed.Records call
  /-- Each input reveals the preimage behind the commitment before it. -/
  linked : ∀ pre k l post, calls = pre ++ k :: l :: post →
    k.preimage = some l.input.reveal ∧ k.input.commit = cfg.commitDigest l.input.reveal
  /-- The stored preimage is behind the last commitment. -/
  outstanding : state.isDraining = false → ∃ last, calls.getLast? = some last ∧
    last.targetTick = chain.lastTarget ∧
    last.input.commit = cfg.commitDigest chain.outstandingPreimage
  /-- A terminal reveal comes last, reveals the stored preimage and commits to nothing. -/
  terminal : ∀ call ∈ calls, call.kind = .terminalReveal → calls.getLast? = some call ∧
    call.input.reveal = chain.outstandingPreimage ∧ call.input.commit = Digest.zero

/-- An input carries the digest of the preimage that an operation drew for its
target, and its bytes are that operation's signature. -/
def DrawnFor (cfg : Config) (ops : List SlotOp) (call : SignedCall) : Prop :=
  ∃ op ∈ ops, ∃ env currentTick,
    (op = .startIfReady env currentTick ∨ op = .extendChain env currentTick) ∧
      call.preimage = some (env.draw call.targetTick) ∧
      call.input.commit = cfg.commitDigest (env.draw call.targetTick) ∧ SignedWith cfg env call

/-- The bytes of a call are an operation's signature over the 544 bytes of its
input, which are those of no other input. -/
def SignedInput (cfg : Config) (ops : List SlotOp) (call : SignedCall) : Prop :=
  ∃ op ∈ ops, ∃ env, op.signingEnv = some env ∧ SignedWith cfg env call ∧
    call.input.encode.length = 544 ∧
    ∀ input : RevealAndCommitInput, input.encode = call.input.encode → input = call.input

/-! ## The chain of a slot -/

/-- A chain of signed calls links each call to the next. -/
theorem IsChainOf.linked {calls pre post : List SignedCall} {k l : SignedCall}
    (h : IsChainOf cfg calls) (hsplit : calls = pre ++ k :: l :: post) :
    k.preimage = some l.input.reveal ∧ k.input.commit = cfg.commitDigest l.input.reveal := by
  subst hsplit
  have hlinks : CommitReveal.IsRevealChain cfg.commitDigest Preimage.zero Digest.zero streamCount
      (pre.map SignedCall.link ++ k.link :: l.link :: post.map SignedCall.link) := by
    simpa [IsChainOf] using h
  exact ⟨hlinks.next.reveal, hlinks.commit_eq_hash_reveal⟩

theorem IsChainOf.commit {calls : List SignedCall} {call : SignedCall} (h : IsChainOf cfg calls)
    (hmem : call ∈ calls) {preimage : Preimage} (hpre : call.preimage = some preimage) :
    call.input.commit = cfg.commitDigest preimage := by
  have hcommits := CommitReveal.IsRevealChain.commits h (List.mem_map_of_mem hmem)
  simpa [CommitReveal.Link.Commits, SignedCall.link, hpre] using hcommits

theorem linkedChain {slot : ManagedSlot} {t : List Effect} (h : SlotInv cfg slot t) {chain : Chain}
    (hchain : slot.chain = some chain) : LinkedChain cfg chain slot.state (currentChain t) := by
  obtain ⟨p, hr, hinv⟩ := h.planned
  have hhas := hr.hasChain hchain
  refine ⟨?_, ?_, ?_, ?_, ?_, ?_⟩
  · obtain ⟨first, hfirst, htarget, hkind⟩ := hinv.head_of_hasChain hhas
    refine ⟨first, hfirst, htarget, ?_⟩
    have hopens := hinv.linked.opens first.link (by simp [hfirst])
    exact hopens.reveal
  · refine hinv.chain_spaced.imp fun {k l} hle => ?_
    simp only [streamCount] at hle
    omega
  · intro call hcall hle
    rw [← queue_of_chain hchain] at hcall
    obtain ⟨signed, hsigned, hrec⟩ := h.queue.recorded call hcall
    rw [← hrec.target] at hle
    exact ⟨signed, hinv.mem_chain_of_first_le hhas hsigned hle, hrec⟩
  · intro pre k l post hsplit
    exact IsChainOf.linked hinv.linked hsplit
  · intro hdraining
    -- the last call of a chain that is not closing is its last normal one
    have htail : ∃ y, (currentChain t).getLast? = some y ∧ y.targetTick = chain.lastTarget ∧
        y.preimage = some chain.outstandingPreimage ∧ y.kind ≠ .terminalReveal := by
      rcases hr.of_chain hchain with ⟨-, rfl | rfl⟩ | ⟨reason, hstate, -⟩
      · exact hinv.shape.1.tail
      · exact hinv.shape.1.tail
      · simp [hstate, SlotState.isDraining] at hdraining
    obtain ⟨y, hy, htarget, hpre, -⟩ := htail
    exact ⟨y, hy, htarget, IsChainOf.commit hinv.linked (List.mem_of_getLast? hy) hpre⟩
  · intro call hmem hkind
    obtain ⟨normal, outstanding, reason, hp, hcalls, -, hcloses⟩ :=
      hinv.closing_of_terminal hhas (hinv.suffix.subset hmem) hkind
    rcases hr.of_chain hchain with ⟨-, rfl | rfl⟩ | ⟨_, -, rfl⟩
    · cases hp
    · cases hp
    · cases hp
      exact ⟨by simp [hcalls], hcloses.reveal, hcloses.commit⟩

/-- The preimage of every commitment was drawn by the operation that signed it. -/
theorem drawnFor (i : Fin 3) (ops : List SlotOp) {call : SignedCall}
    (hmem : call ∈ currentChain ((slotMachine cfg).trace (slot₀ cfg i) ops))
    (hkind : call.kind ≠ .terminalReveal) : DrawnFor cfg ops call := by
  have hrun : SlotRun cfg (slot₀ cfg i) _ _ := slotMachine_run i ops
  obtain ⟨p, -, hinv⟩ := hrun.planned
  obtain ⟨pre, op, post, rfl, heffect⟩ :=
    (slotMachine cfg).mem_trace (signed_mem_of_periodCalls (hinv.suffix.subset hmem))
  have hop : op ∈ pre ++ op :: post := by simp
  rcases SlotOp.emits heffect with hnote | hemits
  · cases hnote
  · cases hemits with
    | closes h => exact absurd h hkind
    | starts _ _ hpre hsigned =>
      exact ⟨_, hop, _, _, .inl rfl, hpre, IsChainOf.commit hinv.linked hmem hpre, hsigned⟩
    | continues _ _ hpre hsigned =>
      exact ⟨_, hop, _, _, .inr rfl, hpre, IsChainOf.commit hinv.linked hmem hpre, hsigned⟩

/-- Every call of a chain carries the signature over its own input. -/
theorem signedInput (i : Fin 3) (ops : List SlotOp) {call : SignedCall}
    (hmem : call ∈ currentChain ((slotMachine cfg).trace (slot₀ cfg i) ops)) :
    SignedInput cfg ops call := by
  have hrun : SlotRun cfg (slot₀ cfg i) _ _ := slotMachine_run i ops
  obtain ⟨p, -, hinv⟩ := hrun.planned
  obtain ⟨pre, op, post, rfl, heffect⟩ :=
    (slotMachine cfg).mem_trace (signed_mem_of_periodCalls (hinv.suffix.subset hmem))
  have hbytes : ∃ env, op.signingEnv = some env ∧ SignedWith cfg env call := by
    rcases SlotOp.emits heffect with hnote | hemits
    · cases hnote
    · cases hemits with
      | closes _ _ hsigned => exact ⟨_, rfl, hsigned⟩
      | starts _ _ _ hsigned => exact ⟨_, rfl, hsigned⟩
      | continues _ _ _ hsigned => exact ⟨_, rfl, hsigned⟩
  obtain ⟨env, henv, hsigned⟩ := hbytes
  refine ⟨op, by simp, env, henv, hsigned, call.input.encode_length, ?_⟩
  intro input hinput
  exact RevealAndCommitInput.encode_injective hinput

/-! ## Failed signing -/

/-- The chain after further continuations. -/
def Chain.extendAll (chain : Chain) (signed : List SignedCall) : Chain :=
  signed.foldl
    (fun chain call => chain.extendBy call (call.preimage.getD chain.outstandingPreimage)) chain

/-- The loop of `extend_chain` appends exactly what it signed, and a failed
round leaves the chain to the rounds before it. -/
theorem extendLoop_extendAll (cfg : Config) (env : SigningEnv) (currentTick horizon fuel : Nat) (key : SlotKey)
    (chain : Chain) : ∃ signed : List SignedCall,
      (extendLoop cfg env currentTick horizon key fuel chain).2.1 = signed.map .signed ∧
      (extendLoop cfg env currentTick horizon key fuel chain).1 = chain.extendAll signed := by
  induction fuel generalizing chain with
  | zero => exact ⟨[], rfl, rfl⟩
  | succ fuel ih =>
    simp only [extendLoop]
    split
    · exact ⟨[], rfl, rfl⟩
    · exact ⟨[], rfl, rfl⟩
    · rename_i chain' call honce
      obtain ⟨next, hcall, rfl⟩ := extendOnce_extends honce
      obtain ⟨signed, heffects, hchain⟩ := ih (chain.extendBy call next)
      refine ⟨call :: signed, by rw [heffects]; rfl, ?_⟩
      rw [hchain, Chain.extendAll, Chain.extendAll, List.foldl_cons, hcall.preimage]
      rfl

theorem startIfReady_failed {env : SigningEnv} {currentTick : Nat} {slot : ManagedSlot}
    {err : String} : (startIfReady cfg env currentTick slot).error = some err →
      startIfReady cfg env currentTick slot = { slot := slot, error := some err } := by
  unfold startIfReady
  split
  · split
    · intro h
      cases h
      rfl
    · split
      · intro h
        cases h
        rfl
      · dsimp only
        split
        · intro h
          cases h
          rfl
        · intro h
          cases h
  · intro h
    cases h

theorem enterDrain_failed {env : SigningEnv} {reason : DrainReason} {slot : ManagedSlot}
    {err : String} : (enterDrain cfg env reason slot).error = some err →
      enterDrain cfg env reason slot = { slot := slot, error := some err } := by
  unfold enterDrain
  dsimp only
  split
  · intro h
    cases h
  · intro h
    cases h
  · intro h
    cases h
  · intro h
    cases h
  all_goals
    split
    · intro h
      cases h
      rfl
    · split
      · intro h
        cases h
        rfl
      · split
        · intro h
          cases h
          rfl
        · intro h
          cases h

theorem extendChain_failed {env : SigningEnv} {currentTick : Nat} {slot : ManagedSlot}
    {err : String} : (extendChain cfg env currentTick slot).error = some err →
      ∃ signed : List SignedCall,
        (extendChain cfg env currentTick slot).effects = signed.map .signed ∧
        (extendChain cfg env currentTick slot).slot =
          { slot with chain := slot.chain.map fun chain => chain.extendAll signed } := by
  unfold extendChain
  split
  · split
    · -- losing a chain cannot fail
      dsimp only [SlotResult.followedBy, loseChain]
      repeat' split
      all_goals
        intro h
        cases h
    · split
      · intro _
        exact ⟨[], rfl, by simp [Chain.extendAll]⟩
      · rename_i horizon hhorizon
        split
        · intro h
          cases h
        · rename_i chain hchain
          intro _
          obtain ⟨signed, heffects, hloop⟩ := extendLoop_extendAll cfg env currentTick horizon
            (horizon - chain.lastTarget) slot.key chain
          refine ⟨signed, heffects, ?_⟩
          dsimp only
          rw [hloop, hchain, Option.map_some]
  · intro h
    cases h

/-- An operation that returns an error changes its slot by the calls it signed
before the failure and by nothing else; a start or a drain entry signs none. -/
theorem SlotOp.failed {op : SlotOp} {slot : ManagedSlot} {err : String}
    (h : (op.run cfg slot).error = some err) : ∃ signed : List SignedCall,
      (op.run cfg slot).effects = signed.map .signed ∧
      (op.run cfg slot).slot =
        { slot with chain := slot.chain.map fun chain => chain.extendAll signed } ∧
      ((∀ env currentTick, op ≠ .extendChain env currentTick) → signed = []) := by
  have hnothing : ({ slot with chain := slot.chain.map fun chain => chain.extendAll [] } :
      ManagedSlot) = slot := by
    simp [Chain.extendAll]
  cases op with
  | startIfReady env currentTick =>
    refine ⟨[], ?_, ?_, fun _ => rfl⟩
    · simp only [SlotOp.run] at h ⊢
      rw [startIfReady_failed h]
      rfl
    · simp only [SlotOp.run] at h ⊢
      rw [startIfReady_failed h, hnothing]
  | enterDrain env reason =>
    refine ⟨[], ?_, ?_, fun _ => rfl⟩
    · simp only [SlotOp.run] at h ⊢
      rw [enterDrain_failed h]
      rfl
    · simp only [SlotOp.run] at h ⊢
      rw [enterDrain_failed h, hnothing]
  | extendChain env currentTick =>
    obtain ⟨signed, heffects, hslot⟩ := extendChain_failed h
    exact ⟨signed, heffects, hslot, fun hne => absurd rfl (hne env currentTick)⟩
  | _ =>
    rw [SlotOp.run_error cfg rfl] at h
    cases h

/-! ## The result -/

/-- Commit–reveal linkage. After all operations on a slot, those of every run among
them, the inputs signed for its chain link up and match what the slot stores, the
bytes of each call are the signature over its own input, and every commitment is
to a preimage drawn for it; an operation that fails to sign leaves the slot as the
calls it did sign made it. -/
theorem reveals_match_commitments (i : Fin 3) (ops : List SlotOp) :
    let slot := (slotMachine cfg).state (slot₀ cfg i) ops
    let calls := currentChain ((slotMachine cfg).trace (slot₀ cfg i) ops)
    (∀ chain, slot.chain = some chain → LinkedChain cfg chain slot.state calls ∧
      ∀ call ∈ calls, SignedInput cfg ops call ∧
        (call.kind ≠ .terminalReveal → DrawnFor cfg ops call)) ∧
    ∀ (op : SlotOp) (err : String), (op.run cfg slot).error = some err → ∃ signed : List SignedCall,
      (op.run cfg slot).effects = signed.map .signed ∧
      (op.run cfg slot).slot =
        { slot with chain := slot.chain.map fun chain => chain.extendAll signed } ∧
      ((∀ env currentTick, op ≠ .extendChain env currentTick) → signed = []) := by
  intro slot calls
  have hrun : SlotRun cfg (slot₀ cfg i) _ slot := slotMachine_run i ops
  refine ⟨fun chain hchain => ⟨linkedChain hrun.slotInv hchain, ?_⟩, fun op err h => SlotOp.failed h⟩
  intro call hmem
  exact ⟨signedInput i ops hmem, drawnFor i ops hmem⟩

/-- Five cycles and a shutdown: a first commit, a continuation and a terminal reveal. -/
theorem reveals_match_commitments_drained :
    let inputs := steadyRun [0, 1, 2, 3, 4] ++ [.shutdown fun _ => sampleEnv]
    let ops := history sampleConfig sampleEngine inputs 1
    let slot := (slotMachine sampleConfig).state (slot₀ sampleConfig 1) ops
    let calls := currentChain ((slotMachine sampleConfig).trace (slot₀ sampleConfig 1) ops)
    calls.map SignedCall.kind = [.firstCommit, .revealAndCommit, .terminalReveal] ∧
      ∃ chain, slot.chain = some chain ∧ LinkedChain sampleConfig chain slot.state calls := by
  intro inputs ops slot calls
  have hkinds : calls.map SignedCall.kind = [.firstCommit, .revealAndCommit, .terminalReveal] := by
    decide +kernel
  have hsome : slot.chain.isSome := by decide +kernel
  obtain ⟨chain, hchain⟩ := Option.isSome_iff_exists.1 hsome
  have hresult := @reveals_match_commitments sampleConfig 1 ops
  exact ⟨hkinds, chain, hchain, (hresult.1 chain hchain).1⟩

end RandomClient
