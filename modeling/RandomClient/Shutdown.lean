import RandomClient.Drain

/-!
# Truthful shutdown

The steps of a run from the entry of the shutdown drain on. `run` tells the
truth unless a new epoch erases a stream whose terminal reveal was not accepted,
a stream is frozen while an error kept its own entry from happening
(`SparesDrain`), or the terminal reveal of an epoch drain is accepted after a
failed attempt (`KeepsLoss`).
-/

namespace RandomClient

variable {cfg : Config}

/-! ## The steps of a run -/

/-- The step enters the shutdown drain: a cycle that sees the cancelled token, or
the entry of `run`. -/
def EngineInput.entersDrain : EngineInput → Bool
  | .cycle input => input.cancelled && input.tick.isOk
  | .shutdown _ => true

/-- The operations of a step on a slot before the step enters the drain. -/
def entryOps (e : Engine) (input : EngineInput) (i : Fin 3) : List SlotOp :=
  match input with
  | .shutdown _ => []
  | .cycle input =>
    match input.tick with
    | .error _ => []
    | .ok tick => readingOps tick input e i

/-- The slot of a stream when a step enters the drain. -/
def entrySlot (cfg : Config) (e : Engine) (input : EngineInput) (i : Fin 3) : ManagedSlot :=
  (slotMachine cfg).state (e.slots i) (entryOps e input i)

/-- The operations on a stream from the entry in a step on. -/
def sinceEntry (cfg : Config) (e : Engine) (input : EngineInput) (later : List EngineInput)
    (i : Fin 3) : List SlotOp :=
  (slotLog i (engineStep cfg input e).log).drop (entryOps e input i).length ++
    history cfg (engineStep cfg input e).engine later i

/-- The condition on a step after the entry, for a stream that has the given
effects since: the step reports no new epoch before the stream's terminal reveal
was accepted, and its observation does not freeze the stream. -/
def EngineInput.SparesDrain (e : Engine) (t : List Effect) (i : Fin 3) :
    EngineInput → Prop
  | .shutdown _ => True
  | .cycle input => ∀ tick, input.tick = .ok tick →
    (epochChanges e tick = true → TerminalAccepted t) ∧
    ∀ observation, observationOf tick input e = some observation → observation.epoch = tick.epoch →
      let slot := (harvestBroadcasts (input.broadcastResults i) (e.slots i)).slot
      slot.state.isPlanning = true → (applyStatus observation slot).slot.state.isPlanning = true

theorem enterDrain_leaves {env : SigningEnv} {reason : DrainReason} {slot : ManagedSlot}
    (h : (enterDrain cfg env reason slot).error = none) :
    (enterDrain cfg env reason slot).slot.state.isPlanning = false := by
  cases hstate : slot.state.isPlanning with
  | true =>
    cases hchain : slot.chain with
    | none =>
      exfalso
      unfold enterDrain at h
      cases hslot : slot.state <;> simp_all [SlotState.isPlanning]
    | some chain =>
      rcases @enterDrain_planning cfg slot env reason chain hstate hchain with
        ⟨-, -, herror⟩ | ⟨signed, -, -, hslot, -⟩
      · exact absurd h herror
      · rw [hslot]
        rfl
  | false =>
    unfold enterDrain
    cases hslot : slot.state <;> simp_all [SlotState.isPlanning]

/-- Delivery does not bring a slot back to planning. -/
theorem delivery_leaves {tick : TickInfo} {op : SlotOp} (hop : op ∈ deliveryOps tick)
    {slot : ManagedSlot} (hstate : slot.state.isPlanning = false) :
    (op.run cfg slot).slot.state.isPlanning = false := by
  apply SlotOp.leaves _ hstate
  rintro env currentTick rfl
  simp [deliveryOps] at hop

/-- From its drain entry on a step leaves the drain its course: what is
delivered comes after an entry without an error. -/
theorem safe_of_entry {slot : ManagedSlot} {env : SigningEnv} {delivery ops : List SlotOp}
    (hdelivery : ∀ op ∈ delivery, ∃ tick, op ∈ deliveryOps tick)
    (hops : ops <+: .enterDrain env .shutdown :: delivery)
    (hclean : ∀ front op back, ops = front ++ op :: back → back ≠ [] →
      (op.run cfg ((slotMachine cfg).state slot front)).error = none)
    (t : List Effect) {front : List SlotOp} {op : SlotOp} {back : List SlotOp}
    (hsplit : ops = front ++ op :: back) :
    DrainSafe ((slotMachine cfg).state slot front) t op := by
  rcases hops with ⟨rest, hrest⟩
  rw [hsplit] at hrest
  cases front with
  | nil =>
    -- the entry itself
    rw [List.nil_append, List.cons_append, List.cons.injEq] at hrest
    rw [hrest.1]
    rfl
  | cons first front =>
    simp only [List.cons_append, List.append_assoc, List.cons.injEq] at hrest
    rcases hrest with ⟨rfl, hlist⟩
    have hentered : (enterDrain cfg env .shutdown slot).error = none :=
      hclean [] (.enterDrain env .shutdown) (front ++ op :: back) (by rw [hsplit]; rfl) (by simp)
    have hleft : ∀ front' : List SlotOp, (∀ op ∈ front', ∃ tick, op ∈ deliveryOps tick) →
        ((slotMachine cfg).state slot (.enterDrain env .shutdown :: front')).state.isPlanning =
          false := by
      intro front' hall
      induction front' using List.reverseRecOn with
      | nil => exact enterDrain_leaves hentered
      | append_singleton front' op ih =>
        rcases hall op (by simp) with ⟨tick, hop⟩
        rw [← List.cons_append, slotMachine_state_snoc]
        exact delivery_leaves hop (ih fun op hop => hall op (by simp [hop]))
    have hmem : ∀ o ∈ front ++ [op], ∃ tick, o ∈ deliveryOps tick := by
      intro o ho
      apply hdelivery
      rw [← hlist]
      rcases List.mem_append.1 ho with ho | ho
      · exact List.mem_append_left _ ho
      · rw [List.mem_singleton.1 ho]
        simp
    have hstate := hleft front fun o ho => hmem o (List.mem_append_left _ ho)
    rcases hmem op (by simp) with ⟨tick, hop⟩
    simp only [deliveryOps, List.mem_cons, List.not_mem_nil, or_false] at hop
    rcases hop with rfl | rfl | rfl | rfl | rfl <;> exact hstate

/-- What holds at every place of two lists holds at every place of both in a row. -/
theorem split_append {xs ys : List SlotOp} {p : List SlotOp → SlotOp → Prop}
    (hxs : ∀ front op back, xs = front ++ op :: back → p front op)
    (hys : ∀ front op back, ys = front ++ op :: back → p (xs ++ front) op)
    {front : List SlotOp} {op : SlotOp} {back : List SlotOp}
    (hsplit : xs ++ ys = front ++ op :: back) : p front op := by
  rcases List.append_eq_append_iff.1 hsplit with ⟨mid, rfl, hmid⟩ | ⟨mid, hmid, hrest⟩
  · exact hys mid op back hmid
  · cases mid with
    | nil =>
      rw [List.append_nil] at hmid
      have hfirst := hys [] op back hrest.symm
      rw [List.append_nil, hmid] at hfirst
      exact hfirst
    | cons first mid =>
      rw [List.cons_append, List.cons.injEq] at hrest
      rw [← hrest.1] at hmid
      exact hxs front op mid hmid

/-- The operations of a step that enters the drain, or comes after the entry:
those before its own entry, then a part of the entry and the delivery. -/
theorem entersDrain_ops {e : Engine} {input : EngineInput} (h : input.entersDrain = true)
    (i : Fin 3) : ∃ env delivery rest, slotLog i (engineStep cfg input e).log =
      entryOps e input i ++ rest ∧ rest <+: .enterDrain env .shutdown :: delivery ∧
        ∀ op ∈ delivery, ∃ tick, op ∈ deliveryOps tick := by
  cases input with
  | shutdown env =>
    have hperformed := ((Exec.start_performed e).forSlots cfg
      fun i => [SlotOp.enterDrain (env i) .shutdown]).1 i
    exact ⟨env i, [], _, (List.nil_append _).symm, hperformed, fun op hop => by cases hop⟩
  | cycle input =>
    cases htick : input.tick with
    | error err => simp [EngineInput.entersDrain, htick, Except.isOk, Except.toBool] at h
    | ok tick =>
      have hcancelled : input.cancelled = true := by
        simp only [EngineInput.entersDrain, Bool.and_eq_true] at h
        exact h.1
      have hops : cycleOps cfg tick input e i =
          readingOps tick input e i ++ (.enterDrain (input.env i) .shutdown :: deliveryOps tick) := by
        unfold cycleOps readingOps planOf
        rw [if_pos hcancelled]
        simp [planOps]
      have hperformed := (cycleAt_performed cfg tick input e).1 i
      rcases @readingOps_isPrefix cfg tick input e i with ⟨rest, hrest⟩
      rw [hops, ← hrest, List.prefix_append_right_inj] at hperformed
      refine ⟨input.env i, deliveryOps tick, rest, ?_, hperformed, fun op hop => ⟨tick, hop⟩⟩
      simp only [engineStep, cycle, entryOps, htick]
      exact hrest.symm

/-- What follows the entry of a step on a slot leaves the drain its course. -/
theorem safe_of_entersDrain {e : Engine} {input : EngineInput} (h : input.entersDrain = true)
    {i : Fin 3} {rest : List SlotOp}
    (hrest : slotLog i (engineStep cfg input e).log = entryOps e input i ++ rest)
    (t : List Effect) {front : List SlotOp} {op : SlotOp} {back : List SlotOp}
    (hsplit : rest = front ++ op :: back) :
    DrainSafe ((slotMachine cfg).state (entrySlot cfg e input i) front) t op := by
  rcases @entersDrain_ops cfg e input h i with ⟨env, delivery, rest', hlog, hops, hdelivery⟩
  rw [hrest, List.append_cancel_left_eq] at hlog
  subst hlog
  apply safe_of_entry hdelivery hops _ t hsplit
  intro front op back hsplit hback
  have hcut := (@engineStep_clean cfg input e).cut i (entryOps e input i ++ front) op back
  rw [Machine.state_append] at hcut
  apply hcut _ hback
  rw [hrest, hsplit, List.append_assoc]

/-- What a cycle does to a slot before it plans: a reset, a harvest, the status. -/
theorem readingOps_cases {tick : TickInfo} {input : CycleInput} {e : Engine} {i : Fin 3}
    {front : List SlotOp} {op : SlotOp} {back : List SlotOp}
    (hsplit : readingOps tick input e i = front ++ op :: back) :
    (op = .reset ∧ front = [] ∧ epochChanges e tick = true) ∨
    (op = .harvestBroadcasts (input.broadcastResults i) ∧
      (front = [.reset] ∨ front = [])) ∨
    ∃ observation, op = .applyStatus observation ∧ observationOf tick input e = some observation ∧
      observation.epoch = tick.epoch ∧ front = [.harvestBroadcasts (input.broadcastResults i)] := by
  unfold readingOps at hsplit
  cases hchanges : epochChanges e tick with
  | true =>
    have hnone : observationOf tick input e = none := by simp [observationOf, hchanges]
    simp only [hchanges, if_true, hnone, statusOps, List.append_nil] at hsplit
    rcases front with _ | ⟨first, _ | ⟨second, front⟩⟩
    · simp only [List.nil_append, List.cons_append, List.cons.injEq] at hsplit
      exact .inl ⟨hsplit.1.symm, rfl, rfl⟩
    · simp only [List.nil_append, List.cons_append, List.cons.injEq] at hsplit
      exact .inr (.inl ⟨hsplit.2.1.symm, .inl (by rw [hsplit.1])⟩)
    · simp at hsplit
  | false =>
    simp only [hchanges, Bool.false_eq_true, if_false, List.nil_append] at hsplit
    rcases front with _ | ⟨first, front⟩
    · simp only [List.nil_append, List.cons_append, List.cons.injEq] at hsplit
      exact .inr (.inl ⟨hsplit.1.symm, .inr rfl⟩)
    · simp only [List.cons_append, List.cons.injEq, List.nil_append] at hsplit
      rcases hsplit with ⟨rfl, hstatus⟩
      cases hobservation : observationOf tick input e with
      | none => simp [hobservation, statusOps] at hstatus
      | some observation =>
        by_cases hsame : observation.epoch = tick.epoch
        · simp only [hobservation, statusOps, if_pos hsame] at hstatus
          rcases front with _ | ⟨second, front⟩
          · simp only [List.nil_append, List.cons.injEq] at hstatus
            exact .inr (.inr ⟨observation, hstatus.1.symm, rfl, hsame, rfl⟩)
          · simp at hstatus
        · simp [hobservation, statusOps, hsame] at hstatus

/-- A step in which something is done to a slot and that sees the shutdown enters the drain. -/
theorem EngineInput.entersDrain_of_sees {e : Engine} {input : EngineInput}
    (h : input.seesShutdown = true) {i : Fin 3} {op : SlotOp}
    (hmem : op ∈ slotLog i (engineStep cfg input e).log) : input.entersDrain = true := by
  cases input with
  | shutdown env => rfl
  | cycle input =>
    cases htick : input.tick with
    | ok tick =>
      have hcancelled : input.cancelled = true := h
      simp [EngineInput.entersDrain, htick, hcancelled, Except.isOk, Except.toBool]
    | error err => simp [engineStep, RandomClient.cycle, htick] at hmem

/-- An operation of a step that enters the drain comes before the entry of the
step, or from it on. -/
theorem entersDrain_split {e : Engine} {input : EngineInput} (h : input.entersDrain = true)
    {i : Fin 3} {front : List SlotOp} {op : SlotOp} {back : List SlotOp}
    (hsplit : slotLog i (engineStep cfg input e).log = front ++ op :: back) :
    (∃ mid, entryOps e input i = front ++ op :: mid) ∨
      ∃ mid rest, front = entryOps e input i ++ mid ∧ rest = mid ++ op :: back ∧
        slotLog i (engineStep cfg input e).log = entryOps e input i ++ rest := by
  rcases @entersDrain_ops cfg e input h i with ⟨_, _, rest, hlog, -, -⟩
  have hboth := hlog
  rw [hsplit] at hboth
  rcases List.append_eq_append_iff.1 hboth with ⟨mid, hentered, hrest⟩ | ⟨mid, hfront, hrest⟩
  · cases mid with
    | nil =>
      -- the operation is the first one from the entry on
      rw [List.append_nil] at hentered
      exact .inr ⟨[], rest, by rw [List.append_nil, hentered], hrest.symm, hlog⟩
    | cons first mid =>
      rw [List.cons_append, List.cons.injEq] at hrest
      exact .inl ⟨mid, by rw [hrest.1]; exact hentered⟩
  · exact .inr ⟨mid, rest, hfront, hrest, hlog⟩

/-- A step after the entry leaves the drain of a stream its course, on the condition. -/
theorem safe_of_spares {e : Engine} {input : EngineInput} (h : input.seesShutdown = true)
    {i : Fin 3} {t : List Effect} (hspares : input.SparesDrain e t i)
    {front : List SlotOp} {op : SlotOp} {back : List SlotOp}
    (hsplit : slotLog i (engineStep cfg input e).log = front ++ op :: back) :
    DrainSafe ((slotMachine cfg).state (e.slots i) front)
      (t ++ (slotMachine cfg).trace (e.slots i) front) op := by
  have hentry : input.entersDrain = true :=
    @EngineInput.entersDrain_of_sees cfg e input h i op (by rw [hsplit]; simp)
  rcases entersDrain_split hentry hsplit with ⟨mid, hentered⟩ | ⟨mid, rest, rfl, hrest, hlog⟩
  · cases input with
    | shutdown env => simp [entryOps] at hentered
    | cycle input =>
      cases htick : input.tick with
      | error err => simp [entryOps, htick] at hentered
      | ok tick =>
        obtain ⟨hepoch, hstatus⟩ := hspares tick htick
        simp only [entryOps, htick] at hentered
        rcases readingOps_cases hentered with ⟨rfl, rfl, hchanges⟩ | ⟨rfl, -⟩ |
          ⟨observation, rfl, hobservation, hsame, rfl⟩
        · show TerminalAccepted (t ++ [])
          rw [List.append_nil]
          exact hepoch hchanges
        · trivial
        · exact hstatus observation hobservation hsame
  · rw [Machine.state_append]
    exact safe_of_entersDrain hentry hlog _ hrest

/-- The condition on a step after the entry, for a stream that was not planned
at the entry and has the given operations since: the step reports no new epoch
after a loss, and finds no accepted attempt of a terminal reveal of which an
attempt failed. -/
def EngineInput.KeepsLoss (cfg : Config) (e : Engine) (slot : ManagedSlot) (ops : List SlotOp)
    (i : Fin 3) : EngineInput → Prop
  | .shutdown _ => True
  | .cycle input => ∀ tick, input.tick = .ok tick →
    (epochChanges e tick = true → ¬ DrainLost cfg slot ops) ∧
    (TerminalFailed ((slotMachine cfg).trace slot ops) → ∀ call ∈ (e.slots i).queue,
      call.kind = .terminalReveal → call.broadcast.isSome = true →
        input.broadcastResults i call.targetTick ≠ some .ok)

/-- What follows the entry of a step keeps a loss on record. -/
theorem lossSafe_of_entersDrain {e : Engine} {input : EngineInput} (h : input.entersDrain = true)
    {i : Fin 3} {rest : List SlotOp}
    (hlog : slotLog i (engineStep cfg input e).log = entryOps e input i ++ rest)
    {op : SlotOp} (hmem : op ∈ rest) (slot : ManagedSlot) (t : List Effect) (lost : Prop) :
    LossSafe slot t lost op := by
  rcases @entersDrain_ops cfg e input h i with ⟨env, delivery, rest', hlog', hops, hdelivery⟩
  rw [hlog, List.append_cancel_left_eq] at hlog'
  subst hlog'
  rcases List.mem_cons.1 (hops.subset hmem) with rfl | hop
  · trivial
  · rcases hdelivery op hop with ⟨tick, hop⟩
    simp only [deliveryOps, List.mem_cons, List.not_mem_nil, or_false] at hop
    rcases hop with rfl | rfl | rfl | rfl | rfl <;> trivial

/-- A step after the entry keeps a loss on record, on the condition. -/
theorem lossSafe_of_keeps {e : Engine} {input : EngineInput} (h : input.seesShutdown = true)
    {i : Fin 3} {slot : ManagedSlot} {ops : List SlotOp}
    (hslot : e.slots i = (slotMachine cfg).state slot ops)
    (hkeeps : input.KeepsLoss cfg e slot ops i) {front : List SlotOp} {op : SlotOp}
    {back : List SlotOp} (hsplit : slotLog i (engineStep cfg input e).log = front ++ op :: back) :
    LossSafe ((slotMachine cfg).state slot (ops ++ front))
      ((slotMachine cfg).trace slot (ops ++ front)) (DrainLost cfg slot (ops ++ front)) op := by
  have hentry : input.entersDrain = true :=
    @EngineInput.entersDrain_of_sees cfg e input h i op (by rw [hsplit]; simp)
  rcases entersDrain_split hentry hsplit with ⟨mid, hentered⟩ | ⟨mid, rest, rfl, hrest, hlog⟩
  · cases input with
    | shutdown env => simp [entryOps] at hentered
    | cycle input =>
      cases htick : input.tick with
      | error err => simp [entryOps, htick] at hentered
      | ok tick =>
        obtain ⟨hepoch, haccepts⟩ := hkeeps tick htick
        simp only [entryOps, htick] at hentered
        rcases readingOps_cases hentered with ⟨rfl, rfl, hchanges⟩ | ⟨rfl, rfl | rfl⟩ |
          ⟨observation, rfl, -⟩
        · rw [List.append_nil]
          exact hepoch hchanges
        · -- a reset leaves no call to join
          intro _ call hcall
          rw [slotMachine_state_snoc] at hcall
          cases hcall
        · rw [List.append_nil, ← hslot]
          exact haccepts
        · trivial
  · exact lossSafe_of_entersDrain hentry hlog (by rw [hrest]; simp) _ _ _

/-! ## Whole runs -/

section Run

variable {e : Engine} {input : EngineInput} {i : Fin 3}

theorem sinceEntry_snoc (later : List EngineInput) (y : EngineInput) :
    sinceEntry cfg e input (later ++ [y]) i = sinceEntry cfg e input later i ++
      slotLog i (engineStep cfg y ((engineMachine cfg).state e (input :: later))).log := by
  unfold sinceEntry
  rw [history_snoc, List.append_assoc]
  rfl

/-- The slot of a stream is what the operations since the entry made of it. -/
theorem sinceEntry_state (h : input.entersDrain = true) (later : List EngineInput) :
    ((engineMachine cfg).state e (input :: later)).slots i =
      (slotMachine cfg).state (entrySlot cfg e input i) (sinceEntry cfg e input later i) := by
  rcases @entersDrain_ops cfg e input h i with ⟨_, _, rest, hlog, -, -⟩
  have hslots := slots_of_log cfg (engineStep cfg input e).engine later i
  rw [engineStep_slots] at hslots
  unfold sinceEntry entrySlot
  rw [← Machine.state_append, ← List.append_assoc, Machine.state_append]
  have hwhole : entryOps e input i ++ (slotLog i (engineStep cfg input e).log).drop
      (entryOps e input i).length = slotLog i (engineStep cfg input e).log := by
    rw [hlog, List.drop_left]
  rw [hwhole]
  exact hslots

/-- A property of the operations since the entry holds at each of them when it
holds from the entry on in the step itself, and in each later step. -/
theorem sinceEntry_forall (hentry : input.entersDrain = true) {later : List EngineInput}
    {p : List SlotOp → SlotOp → Prop}
    (hfirst : ∀ rest, slotLog i (engineStep cfg input e).log = entryOps e input i ++ rest →
      ∀ front op back, rest = front ++ op :: back → p front op)
    (hstep : ∀ mid y rest, later = mid ++ y :: rest → ∀ front op back,
      slotLog i (engineStep cfg y ((engineMachine cfg).state e (input :: mid))).log =
        front ++ op :: back → p (sinceEntry cfg e input mid i ++ front) op) :
    ∀ front op back, sinceEntry cfg e input later i = front ++ op :: back → p front op := by
  induction later using List.reverseRecOn with
  | nil =>
    rcases @entersDrain_ops cfg e input hentry i with ⟨_, _, rest, hlog, -, -⟩
    have hnil : history cfg (engineStep cfg input e).engine [] i = [] := rfl
    intro front op back hsplit
    unfold sinceEntry at hsplit
    rw [hlog, List.drop_left, hnil, List.append_nil] at hsplit
    exact hfirst rest hlog front op back hsplit
  | append_singleton later y ih =>
    have hbefore := ih fun mid z rest hsplit =>
      hstep mid z (rest ++ [y]) (by rw [hsplit]; simp)
    intro front op back hsplit
    rw [sinceEntry_snoc] at hsplit
    exact split_append hbefore (hstep later y [] rfl) hsplit

/-- From the entry on everything leaves the drain of a managed stream its
course, when every later step meets the condition. -/
theorem safeFrom_entry (hentry : input.entersDrain = true) {later : List EngineInput}
    (hsees : ∀ y ∈ later, y.seesShutdown = true)
    (hspares : ∀ mid y rest, later = mid ++ y :: rest →
      y.SparesDrain ((engineMachine cfg).state e (input :: mid))
        ((slotMachine cfg).trace (entrySlot cfg e input i) (sinceEntry cfg e input mid i)) i) :
    SafeFrom cfg (entrySlot cfg e input i) (sinceEntry cfg e input later i) := by
  refine sinceEntry_forall hentry ?_ ?_
  · intro rest hlog front op back hsplit
    exact safe_of_entersDrain hentry hlog _ hsplit
  · intro mid y rest hlater front op back hsplit
    have hslot := @sinceEntry_state cfg e input i hentry mid
    have hsafe := safe_of_spares (hsees y (by rw [hlater]; simp)) (hspares mid y rest hlater) hsplit
    rw [hslot] at hsafe
    rw [Machine.state_append, Machine.trace_append]
    exact hsafe

/-- From the entry on everything keeps a loss of a stream on record, when every
later step meets the condition. -/
theorem lossSafeFrom_entry (hentry : input.entersDrain = true) {later : List EngineInput}
    (hsees : ∀ y ∈ later, y.seesShutdown = true)
    (hkeeps : ∀ mid y rest, later = mid ++ y :: rest →
      y.KeepsLoss cfg ((engineMachine cfg).state e (input :: mid)) (entrySlot cfg e input i)
        (sinceEntry cfg e input mid i) i) :
    LossSafeFrom cfg (entrySlot cfg e input i) (sinceEntry cfg e input later i) := by
  refine sinceEntry_forall hentry ?_ ?_
  · intro rest hlog front op back hsplit
    exact lossSafe_of_entersDrain hentry hlog (by rw [hsplit]; simp) _ _ _
  · intro mid y rest hlater front op back hsplit
    exact lossSafe_of_keeps (hsees y (by rw [hlater]; simp)) (sinceEntry_state hentry mid)
      (hkeeps mid y rest hlater) hsplit

end Run

/-- Every step after the entry meets the condition, for one stream. -/
def SparesDrain (cfg : Config) (e : Engine) (x : EngineInput) (later : List EngineInput)
    (i : Fin 3) : Prop :=
  ∀ mid y rest, later = mid ++ y :: rest →
    y.SparesDrain ((engineMachine cfg).state e (x :: mid))
      ((slotMachine cfg).trace (entrySlot cfg e x i) (sinceEntry cfg e x mid i)) i

theorem EngineInput.seesShutdown_of_entersDrain {x : EngineInput} (h : x.entersDrain = true) :
    x.seesShutdown = true := by
  cases x with
  | shutdown env => rfl
  | cycle input =>
    simp only [entersDrain, Bool.and_eq_true] at h
    exact h.1

/-- Every step after the entry keeps a loss of one stream on record. -/
def KeepsLoss (cfg : Config) (e : Engine) (x : EngineInput) (later : List EngineInput)
    (i : Fin 3) : Prop :=
  ∀ mid y rest, later = mid ++ y :: rest →
    y.KeepsLoss cfg ((engineMachine cfg).state e (x :: mid)) (entrySlot cfg e x i)
      (sinceEntry cfg e x mid i) i

/-- What `run` returns about a stream when a step entered the drain. Of a stream
that was planned: `Ok` only if its terminal reveal was accepted since. Of any
stream: not `Ok` if a prerequisite expired or its terminal reveal failed since.
The conditions are those on the later steps, for a stream that was planned and
for one that drained already or had no chain to close. -/
theorem shutdown_truthful (cfg : Config) (a b c : Nat) (inputs : List RunInput)
    (before : List EngineInput) (x : EngineInput) (later : List EngineInput)
    (hrun : (runMachine cfg).trace (RunState.new cfg a b c) inputs = before ++ x :: later)
    (hentry : x.entersDrain = true) (i : Fin 3) :
    let e := (engineMachine cfg).state (Engine.new cfg a b c) before
    let slot := entrySlot cfg e x i
    let ops := sinceEntry cfg e x later i
    let returned := ((runMachine cfg).state (RunState.new cfg a b c) inputs).returned
    (slot.state.isPlanning = true → SparesDrain cfg e x later i →
      (returned = some (.ok ()) → TerminalAccepted ((slotMachine cfg).trace slot ops)) ∧
      (DrainLost cfg slot ops → returned ≠ some (.ok ()))) ∧
    (slot.state.isPlanning = false → KeepsLoss cfg e x later i →
      DrainLost cfg slot ops → returned ≠ some (.ok ())) := by
  intro e slot ops returned
  have hsees : ∀ y ∈ later, y.seesShutdown = true :=
    run_latched a b c inputs before x later hrun (EngineInput.seesShutdown_of_entersDrain hentry)
  -- the slot at the entry is what the history before made of a new one
  have hslot : slot = (slotMachine cfg).state (slot₀ cfg i)
      (history cfg (Engine.new cfg a b c) before i ++ entryOps e x i) := by
    rw [Machine.state_append]
    show (slotMachine cfg).state (e.slots i) _ = _
    rw [slots_of_log, Engine.new_slots]
  -- `Ok` is returned over drained slots only
  have hok : returned = some (.ok ()) →
      ((slotMachine cfg).state slot ops).state.isDrained = true ∧
        ((slotMachine cfg).state slot ops).state ≠ .drained .failed := by
    intro hreturned
    obtain ⟨hcomplete, hfailed⟩ := run_ok a b c inputs hreturned
    have hend : ((runMachine cfg).state (RunState.new cfg a b c) inputs).engine.slots i =
        (slotMachine cfg).state slot ops := by
      rw [run_engine, hrun, Machine.state_append]
      exact sinceEntry_state hentry later
    rw [← hend]
    refine ⟨of_decide_eq_true hcomplete i, ?_⟩
    intro hstate
    exact of_decide_eq_false hfailed ⟨i, hstate⟩
  refine ⟨?_, ?_⟩
  · intro hmanaged hspares
    have hsafe : SafeFrom cfg slot ops := safeFrom_entry hentry hsees hspares
    have houtcome : returned = some (.ok ()) →
        TerminalAccepted ((slotMachine cfg).trace slot ops) ∧ ¬ DrainLost cfg slot ops := by
      intro hreturned
      obtain ⟨hdrained, hnot⟩ := hok hreturned
      rw [hslot] at hmanaged hsafe hdrained hnot ⊢
      exact drain_outcome hmanaged hsafe hdrained hnot
    exact ⟨fun hreturned => (houtcome hreturned).1,
      fun hlost hreturned => (houtcome hreturned).2 hlost⟩
  · intro hplanning hkeeps hlost hreturned
    have hsafe : LossSafeFrom cfg slot ops := lossSafeFrom_entry hentry hsees hkeeps
    obtain ⟨hdrained, hnot⟩ := hok hreturned
    rw [hslot] at hplanning hsafe hdrained hnot hlost
    exact loss_outcome hplanning hsafe hdrained hnot hlost

/-- A property of the engine and its next step holds at every step of the list. -/
def holdsAlong (cfg : Config) (p : Engine → EngineInput → Bool) (e : Engine) :
    List EngineInput → Bool
  | [] => true
  | y :: rest => p e y && holdsAlong cfg p (engineStep cfg y e).engine rest

theorem holdsAlong_mem {p : Engine → EngineInput → Bool} {e : Engine} {mid : List EngineInput}
    {y : EngineInput} {rest : List EngineInput}
    (h : holdsAlong cfg p e (mid ++ y :: rest) = true) :
    p ((engineMachine cfg).state e mid) y = true := by
  induction mid generalizing e with
  | nil =>
    simp only [List.nil_append, holdsAlong, Bool.and_eq_true] at h
    exact h.1
  | cons first mid ih =>
    simp only [List.cons_append, holdsAlong, Bool.and_eq_true] at h
    exact ih h.2

/-- The step reports the epoch of the engine, and the stream is not planned any more. -/
def EngineInput.keepsDrain (i : Fin 3) (e : Engine) : EngineInput → Bool
  | .shutdown _ => true
  | .cycle input =>
    match input.tick with
    | .error _ => true
    | .ok tick => !epochChanges e tick && !(e.slots i).state.isPlanning

theorem keepsDrain_spares {e : Engine} {x : EngineInput} {i : Fin 3} {later : List EngineInput}
    (h : holdsAlong cfg (EngineInput.keepsDrain i) (engineStep cfg x e).engine later = true) :
    SparesDrain cfg e x later i := by
  rintro mid y rest rfl
  have hkeeps := holdsAlong_mem h
  cases y with
  | shutdown env => trivial
  | cycle input =>
    intro tick htick
    simp only [EngineInput.keepsDrain, htick, Bool.and_eq_true, Bool.not_eq_true'] at hkeeps
    constructor
    · intro hchanges
      exact absurd hchanges (by rw [Bool.not_eq_true]; exact hkeeps.1)
    · intro observation _ _ slot hstate
      have hsame : slot.state = _ := harvestBroadcasts_state _ _
      rw [hsame] at hstate
      exact absurd hstate (by rw [Bool.not_eq_true]; exact hkeeps.2)

/-- The step reports the epoch of the engine, and no acceptance of a terminal
reveal in the queue of the stream. -/
def EngineInput.keepsRefusal (i : Fin 3) (e : Engine) : EngineInput → Bool
  | .shutdown _ => true
  | .cycle input =>
    match input.tick with
    | .error _ => true
    | .ok tick => !epochChanges e tick && (e.slots i).queue.all fun call =>
        call.kind ≠ .terminalReveal ∨ input.broadcastResults i call.targetTick ≠ some .ok

theorem keepsRefusal_keepsLoss {e : Engine} {x : EngineInput} {i : Fin 3}
    {later : List EngineInput}
    (h : holdsAlong cfg (EngineInput.keepsRefusal i) (engineStep cfg x e).engine later = true) :
    KeepsLoss cfg e x later i := by
  rintro mid y rest rfl
  have hkeeps := holdsAlong_mem h
  cases y with
  | shutdown env => trivial
  | cycle input =>
    intro tick htick
    simp only [EngineInput.keepsRefusal, htick, Bool.and_eq_true, Bool.not_eq_true',
      List.all_eq_true, decide_eq_true_eq] at hkeeps
    constructor
    · intro hchanges
      exact absurd hchanges (by rw [Bool.not_eq_true]; exact hkeeps.1)
    · intro _ call hcall hkind _
      rcases hkeeps.2 call hcall with hother | hrefused
      · exact absurd hkind hother
      · exact hrefused

/-! ### Two runs -/

/-- An iteration at an instant before every deadline, with every broadcast
accepted and no slot reported. -/
def sampleRunInput (epoch : Nat) (tick : Fin 256) (observer : Option (Except String Nat)) :
    RunInput where
  now := 0
  cycle :=
    { tick := .ok (sampleTick epoch tick)
      now := { timestamp := 0 }
      statusResult := some (.ok emptyStatus)
      broadcastResults := fun _ _ => some .ok
      cancelled := false
      env := fun _ => sampleEnv
      tickCheckResult := none
      clock :=
        { resetTickCheckAt := 0, resetStatusAt := 0, resetMonitorAt := 0
          statusAt := 1000 * tick.val, statusStartedAt := 1000 * tick.val, expireAt := 0
          harvestAt := 0, ensureExpireAt := 0, ensureAt := 0 } }
  observer := observer
  env := fun _ => sampleEnv

/-- Six cycles of epoch 1. The shutdown observer finishes during the last one. -/
def requestedRun : List RunInput :=
  [0, 1, 2, 3, 4].map (fun tick => sampleRunInput 1 tick none) ++ [sampleRunInput 1 5 (some (.ok 0))]

/-- The run until its return, with cycles of the given epoch after the request. -/
def finishedRun (epoch : Nat) : List RunInput :=
  requestedRun ++ [6, 7, 8, 9, 10, 11, 12].map fun tick => sampleRunInput epoch tick none

/-- The steps of the engine in the run: `run` enters the drain in the seventh. -/
def finishedSteps (epoch : Nat) : List EngineInput :=
  (runMachine sampleConfig).trace (RunState.new sampleConfig 0 0 0) (finishedRun epoch)

/-- The engine when `run` enters the drain. -/
def finishedEntry (epoch : Nat) : Engine :=
  (engineMachine sampleConfig).state (Engine.new sampleConfig 0 0 0) ((finishedSteps epoch).take 6)

/-- An iteration in the epoch stop window. The broadcast of the terminal reveal
of stream 1, with target 13, has the given result. -/
def drainingRunInput (tick : Fin 256) (observer : Option (Except String Nat))
    (terminal : Delivery) : RunInput :=
  let input := sampleRunInput 1 tick observer
  { input with
    cycle := { input.cycle with
      now := { timestamp := 561600 }
      broadcastResults := fun _ target => some (if target = 13 then terminal else .ok) } }

/-- Three streams drain for the epoch from tick 5 on. The shutdown observer
finishes during the cycle of tick 8. The terminal reveal of stream 1 fails at
ticks 10 and 11, and then has the given result. -/
def drainingRun (last : Delivery) : List RunInput :=
  [0, 1, 2, 3, 4].map (fun tick => sampleRunInput 1 tick none) ++
    [5, 6, 7].map (fun tick => drainingRunInput tick none .err) ++
    [drainingRunInput 8 (some (.ok 0)) .err] ++
    [9, 10, 11].map (fun tick => drainingRunInput tick none .err) ++
    [12, 13, 14].map fun tick => drainingRunInput tick none last

/-- The steps of the engine in the run: `run` enters the drain in the tenth. -/
def drainingSteps (last : Delivery) : List EngineInput :=
  (runMachine sampleConfig).trace (RunState.new sampleConfig 0 0 0) (drainingRun last)

/-- The engine when `run` enters the drain. -/
def drainingEntry (last : Delivery) : Engine :=
  (engineMachine sampleConfig).state (Engine.new sampleConfig 0 0 0) ((drainingSteps last).take 9)

/-- In one epoch the run returns `Ok`, and the terminal reveal of stream 1 was
accepted. With an epoch drain whose terminal reveal fails to the end it does not. -/
theorem shutdown_truthful_finished :
    let x : EngineInput := .shutdown fun _ => sampleEnv
    let slot := entrySlot sampleConfig (finishedEntry 1) x 1
    let ops := sinceEntry sampleConfig (finishedEntry 1) x ((finishedSteps 1).drop 7) 1
    let drained := entrySlot sampleConfig (drainingEntry .err) x 1
    let drains := sinceEntry sampleConfig (drainingEntry .err) x ((drainingSteps .err).drop 10) 1
    (slot.state = .starting 7 ∧
      ((runMachine sampleConfig).state (RunState.new sampleConfig 0 0 0) (finishedRun 1)).returned =
        some (.ok ()) ∧
      TerminalAccepted ((slotMachine sampleConfig).trace slot ops)) ∧
    (drained.state = .draining .epoch 13 ∧ DrainLost sampleConfig drained drains ∧
      ((runMachine sampleConfig).state (RunState.new sampleConfig 0 0 0)
        (drainingRun .err)).returned ≠ some (.ok ())) := by
  intro x slot ops drained drains
  constructor
  · have hsteps : finishedSteps 1 = (finishedSteps 1).take 6 ++ x :: (finishedSteps 1).drop 7 := rfl
    have hspares : SparesDrain sampleConfig (finishedEntry 1) x ((finishedSteps 1).drop 7) 1 :=
      keepsDrain_spares (by decide +kernel)
    have hstate : slot.state = .starting 7 := by decide +kernel
    have hreturned : ((runMachine sampleConfig).state (RunState.new sampleConfig 0 0 0)
        (finishedRun 1)).returned = some (.ok ()) := by
      decide +kernel
    have hmanaged : slot.state.isPlanning = true := by
      rw [hstate]
      rfl
    have htruthful := shutdown_truthful sampleConfig 0 0 0 (finishedRun 1)
      ((finishedSteps 1).take 6) x ((finishedSteps 1).drop 7) hsteps rfl 1
    exact ⟨hstate, hreturned, (htruthful.1 hmanaged hspares).1 hreturned⟩
  · have hsteps : drainingSteps .err =
        (drainingSteps .err).take 9 ++ x :: (drainingSteps .err).drop 10 := rfl
    have hkeeps : KeepsLoss sampleConfig (drainingEntry .err) x ((drainingSteps .err).drop 10) 1 :=
      keepsRefusal_keepsLoss (by decide +kernel)
    have hstate : drained.state = .draining .epoch 13 := by decide +kernel
    have hlost : DrainLost sampleConfig drained drains := .inl (by decide +kernel)
    have hplanning : drained.state.isPlanning = false := by
      rw [hstate]
      rfl
    have htruthful := shutdown_truthful sampleConfig 0 0 0 (drainingRun .err)
      ((drainingSteps .err).take 9) x ((drainingSteps .err).drop 10) hsteps rfl 1
    exact ⟨hstate, hlost, htruthful.2 hplanning hkeeps hlost⟩

/-- `run` returns `Ok` although a new epoch erased the drain of three streams,
and although an attempt of a terminal reveal failed after the entry: of an epoch
drain it is repeated. -/
theorem ok_despite_losses :
    let x : EngineInput := .shutdown fun _ => sampleEnv
    let drained := entrySlot sampleConfig (drainingEntry .ok) x 1
    let drains := sinceEntry sampleConfig (drainingEntry .ok) x ((drainingSteps .ok).drop 10) 1
    (finishedSteps 2 = (finishedSteps 2).take 6 ++ x :: (finishedSteps 2).drop 7 ∧
      ((runMachine sampleConfig).state (RunState.new sampleConfig 0 0 0) (finishedRun 2)).returned =
        some (.ok ()) ∧
      ∀ i, (entrySlot sampleConfig (finishedEntry 2) x i).state.isPlanning = true ∧
        ¬ TerminalAccepted ((slotMachine sampleConfig).trace
          (entrySlot sampleConfig (finishedEntry 2) x i)
          (sinceEntry sampleConfig (finishedEntry 2) x ((finishedSteps 2).drop 7) i))) ∧
    (drainingSteps .ok = (drainingSteps .ok).take 9 ++ x :: (drainingSteps .ok).drop 10 ∧
      ((runMachine sampleConfig).state (RunState.new sampleConfig 0 0 0)
        (drainingRun .ok)).returned = some (.ok ()) ∧
      drained.state = .draining .epoch 13 ∧ DrainLost sampleConfig drained drains) := by
  refine ⟨⟨rfl, ?_, ?_⟩, rfl, ?_, ?_, .inl ?_⟩
  · decide +kernel
  · decide +kernel
  · decide +kernel
  · decide +kernel
  · decide +kernel

end RandomClient
