import RandomClient.Backends
import RandomClient.Ledger
import RandomClient.Run

/-!
# The whole client

The loop of `run` with a backend under it: what an iteration is given is what
the node answered, and the backend turns it into what the engine sees. The
client is a machine whose effects are the inputs of the loop, so facts about
runs of the loop and of the engine hold of it as they stand (`client_run`,
`client_engine`).
-/

namespace RandomClient

/-- How a network task ended: with the reply of the node, or without one. -/
inductive TaskEnd (α : Type) where
  | answered (reply : α)
  | timedOut
  | notJoined (err : String)

/-- `join_network_task`, of a task that reads the reply of the node. -/
def TaskEnd.result {α β : Type} (operation limit : String) (read : α → Except String β) :
    TaskEnd α → Except String β
  | .answered reply => read reply
  | .timedOut => .error (operation ++ " timed out after " ++ limit)
  | .notJoined err => .error ("network task failed to join: " ++ err)

theorem TaskEnd.result_eq_ok {α β : Type} {operation limit : String}
    {read : α → Except String β} {ended : TaskEnd α} {value : β}
    (h : ended.result operation limit read = .ok value) :
    ∃ reply, ended = .answered reply ∧ read reply = .ok value := by
  cases ended with
  | answered reply => exact ⟨reply, rfl, h⟩
  | timedOut => cases h
  | notJoined err => cases h

/-- What `harvest_broadcasts` sees of the result of a broadcast. -/
def deliveryOf {α : Type} : Except String α → Delivery
  | .ok _ => .ok
  | .error _ => .err

theorem deliveryOf_eq_ok {α : Type} {result : Except String α} :
    deliveryOf result = .ok ↔ ∃ value, result = .ok value := by
  cases result with
  | ok value => simp [deliveryOf]
  | error err => simp [deliveryOf]

section

variable (backend : NetworkBackend)

/-- What the network gives one cycle: the reply to the tick request, if it came
in time, and how the tasks that are finished ended. -/
structure WireCycle where
  tick : Option backend.TickReply
  now : DateTime
  status : Option (TaskEnd backend.QueryReply)
  broadcasts : Fin 3 → Nat → Option (TaskEnd backend.BroadcastReply)
  tickCheck : Option (TaskEnd backend.TransactionsReply)
  cancelled : Bool
  env : Fin 3 → SigningEnv
  clock : Clock

/-- One iteration of the loop, as the outside world gives it. -/
structure ClientInput where
  now : Nat
  wire : WireCycle backend
  observer : Option (Except String Nat)
  env : Fin 3 → SigningEnv

/-- The loop and what its backend keeps. -/
structure ClientState where
  run : RunState
  node : backend.State

end

variable {backend : NetworkBackend}

/-- `backend_call("get tick info", self.backend.tick_info())` -/
def WireCycle.tickInfo (wire : WireCycle backend) (node : backend.State) :
    Except String TickInfo × backend.State :=
  match wire.tick with
  | some reply => backend.tickInfo reply node
  | none => (.error "get tick info timed out after 2s", node)

/-- The task of `ensure_status_query`, before it decodes the output. -/
def WireCycle.statusResult (wire : WireCycle backend) : Option (Except String Bytes) :=
  match wire.status with
  | some (.answered reply) =>
    (backend.queryContractFunction reply).map fun outcome =>
      outcome.mapError fun err => "provider-status query failed: " ++ err
  | some .timedOut => some (.error "query provider status timed out after 10s")
  | some (.notJoined err) => some (.error ("network task failed to join: " ++ err))
  | none => none

/-- The task of a broadcast. The text of a failure is only logged. -/
def WireCycle.broadcastResults (wire : WireCycle backend) (stream : Fin 3) (target : Nat) :
    Option Delivery :=
  (wire.broadcasts stream target).map fun ended =>
    deliveryOf (ended.result "broadcast transaction" "its attempt" backend.broadcastTransaction)

/-- The task of `ensure_tick_check`, which asks for the target of the active check. -/
def WireCycle.tickCheckResult (wire : WireCycle backend) (active : Option PendingTickCheck) :
    Option (Except String TickTransactions) :=
  match active, wire.tickCheck with
  | some check, some ended =>
    some (ended.result "query target tick data" "2000ms"
      (backend.tickHasTransactions check.targetTick))
  | _, _ => none

/-- What the engine sees of a cycle, and what the backend keeps of it. -/
def WireCycle.read (wire : WireCycle backend) (e : Engine) (node : backend.State) :
    CycleInput × backend.State :=
  let tick := wire.tickInfo node
  ({ tick := tick.1
     now := wire.now
     statusResult := wire.statusResult
     broadcastResults := wire.broadcastResults
     cancelled := wire.cancelled
     env := wire.env
     tickCheckResult := wire.tickCheckResult e.monitor.tickCheck
     clock := wire.clock }, tick.2)

/-- What the loop sees of an iteration. -/
def ClientInput.read (input : ClientInput backend) (s : ClientState backend) :
    RunInput × backend.State :=
  let cycle := input.wire.read s.run.engine s.node
  ({ now := input.now
     cycle := cycle.1
     observer := input.observer
     env := input.env }, cycle.2)

/-- One iteration. The node is only asked if the iteration runs its cycle. -/
def ClientState.step (cfg : Config) (input : ClientInput backend) (s : ClientState backend) :
    ClientState backend × List RunInput :=
  let read := input.read s
  let next := s.run.iterate cfg read.1
  ({ run := next.1
     node := if next.2.isEmpty then s.node else read.2 }, [read.1])

/-- The client as a machine whose effects are the inputs of the loop. -/
def clientMachine (backend : NetworkBackend) (cfg : Config) :
    Machine (ClientState backend) (ClientInput backend) RunInput where
  step := ClientState.step cfg

/-- The client before its first iteration. -/
def ClientState.new (backend : NetworkBackend) (cfg : Config)
    (statusQueryAt tickCheckAt monitorLogAt : Nat) : ClientState backend where
  run := RunState.new cfg statusQueryAt tickCheckAt monitorLogAt
  node := backend.start

variable {cfg : Config}

/-- The inputs the engine was given along a run of the client. -/
def engineInputs (cfg : Config) (s : ClientState backend) (inputs : List (ClientInput backend)) :
    List EngineInput :=
  (runMachine cfg).trace s.run ((clientMachine backend cfg).trace s inputs)

/-! ## The client is a run of the loop -/

theorem client_run (s : ClientState backend) (inputs : List (ClientInput backend)) :
    ((clientMachine backend cfg).state s inputs).run =
      (runMachine cfg).state s.run ((clientMachine backend cfg).trace s inputs) := by
  induction inputs using List.reverseRecOn with
  | nil => rfl
  | append_singleton inputs input ih =>
    rw [Machine.state_snoc, Machine.trace_snoc, Machine.state_append, ← ih]
    rfl

theorem client_engine (s : ClientState backend) (inputs : List (ClientInput backend)) :
    ((clientMachine backend cfg).state s inputs).run.engine =
      (engineMachine cfg).state s.run.engine (engineInputs cfg s inputs) := by
  rw [client_run, run_engine]
  rfl

theorem engineInputs_snoc (s : ClientState backend) (inputs : List (ClientInput backend))
    (input : ClientInput backend) :
    engineInputs cfg s (inputs ++ [input]) = engineInputs cfg s inputs ++
      (((clientMachine backend cfg).state s inputs).run.iterate cfg
        (input.read ((clientMachine backend cfg).state s inputs)).1).2 := by
  unfold engineInputs
  rw [Machine.trace_snoc, Machine.trace_append, ← client_run]
  change _ ++ (_ ++ []) = _
  rw [List.append_nil]
  rfl

/-- An iteration starts with its cycle, and has no other. -/
theorem cycle_of_iterate {s : RunState} {input : RunInput} {mid later : List EngineInput}
    {cycle : CycleInput} (h : (s.iterate cfg input).2 = mid ++ .cycle cycle :: later) :
    mid = [] ∧ cycle = s.cycleInput input := by
  unfold RunState.iterate at h
  split at h
  · simp at h
  · split at h
    · simp at h
    · cases mid with
      | nil =>
        rw [List.nil_append, List.cons.injEq, EngineInput.cycle.injEq] at h
        exact ⟨rfl, h.1.symm⟩
      | cons first mid =>
        -- what follows the cycle is at most the drain entry
        exfalso
        rw [List.cons_append, List.cons.injEq] at h
        have hmem : EngineInput.cycle cycle ∈ mid ++ .cycle cycle :: later := by simp
        rw [← h.2] at hmem
        rcases observe_steps input _ with hnil | hone
        · rw [hnil] at hmem
          cases hmem
        · rw [hone] at hmem
          simp at hmem

/-- A cycle of the engine, after the steps `before`, reads what the network gave
one of the iterations. -/
structure ReadAt (cfg : Config) (s : ClientState backend) (inputs : List (ClientInput backend))
    (before : List EngineInput) (cycle : CycleInput) (wire : WireCycle backend) : Prop where
  given : ∃ earlier input rest, inputs = earlier ++ input :: rest ∧ input.wire = wire ∧
    engineInputs cfg s earlier = before
  broadcasts : cycle.broadcastResults = wire.broadcastResults
  check : cycle.tickCheckResult = wire.tickCheckResult
    ((engineMachine cfg).state s.run.engine before).monitor.tickCheck

theorem readAt_last {s : ClientState backend} {inputs : List (ClientInput backend)}
    {input : ClientInput backend} {mid later : List EngineInput} {cycle : CycleInput}
    (h : (((clientMachine backend cfg).state s inputs).run.iterate cfg
      (input.read ((clientMachine backend cfg).state s inputs)).1).2 = mid ++ .cycle cycle :: later) :
    mid = [] ∧ ReadAt cfg s (inputs ++ [input]) (engineInputs cfg s inputs) cycle input.wire := by
  rcases cycle_of_iterate h with ⟨hmid, rfl⟩
  refine ⟨hmid, ⟨inputs, input, [], rfl, rfl, rfl⟩, rfl, ?_⟩
  rw [← client_engine]
  rfl

/-- Every cycle of the engine is read from what the network gave some iteration. -/
theorem exists_wire (s : ClientState backend) (inputs : List (ClientInput backend))
    {before later : List EngineInput} {cycle : CycleInput}
    (h : engineInputs cfg s inputs = before ++ .cycle cycle :: later) :
    ∃ wire, ReadAt cfg s inputs before cycle wire := by
  induction inputs using List.reverseRecOn generalizing later with
  | nil => simp [engineInputs] at h
  | append_singleton inputs input ih =>
    rw [engineInputs_snoc] at h
    rcases List.append_eq_append_iff.1 h with ⟨mid, hbefore, hnew⟩ | ⟨mid, hold, hnew⟩
    · -- the cycle is a step of the last iteration
      rcases readAt_last hnew with ⟨rfl, hread⟩
      rw [List.append_nil] at hbefore
      rw [hbefore]
      exact ⟨input.wire, hread⟩
    · cases mid with
      | nil =>
        rw [List.nil_append] at hnew
        rw [List.append_nil] at hold
        rw [← hold]
        exact ⟨input.wire, (@readAt_last _ _ s inputs input [] later cycle hnew.symm).2⟩
      | cons first mid =>
        -- the cycle is a step of an earlier iteration
        rw [List.cons_append, List.cons.injEq] at hnew
        rcases hnew with ⟨rfl, -⟩
        rcases ih hold with ⟨wire, ⟨earlier, given, rest, hsplit, hwire, hbefore⟩, hbroadcasts, hcheck⟩
        refine ⟨wire, ⟨earlier, given, rest ++ [input], ?_, hwire, hbefore⟩, hbroadcasts, hcheck⟩
        rw [hsplit, List.append_assoc]
        rfl

end RandomClient
