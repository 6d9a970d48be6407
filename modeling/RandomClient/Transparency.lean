import RandomClient.Acknowledged
import RandomClient.Mirror

/-!
# Backends are transparent

What a node says in one iteration is a `NodeReport`; `Says` is how it says it in
the protocol of a backend. Whatever the backend, the client acts as the engine
would that is given the reports themselves (`backend_transparent`), so it does
not matter which of the three protocols carries them.
-/

namespace RandomClient

open Json (Value)

/-! ## What a node says -/

/-- The tick a node is at. It knows the initial tick and the tick duration. -/
structure NodeTick where
  epoch : Nat
  tick : Nat
  initialTick : Nat
  tickDurationMs : Nat
  epoch_le : epoch ≤ u32Max
  tick_le : tick ≤ u32Max
  initialTick_le : initialTick ≤ u32Max
  tickDurationMs_le : tickDurationMs ≤ u32Max
  named : initialTick ≠ 0
  timed : tickDurationMs ≠ 0

/-- The tick as the engine sees it. -/
def NodeTick.info (t : NodeTick) : TickInfo where
  epoch := t.epoch
  tick := t.tick
  initialTick := t.initialTick
  tickDurationMs := t.tickDurationMs
  tick_le := t.tick_le

/-- What a node says in one iteration, and what the client draws and reads by
itself. A status query may be unfinished, fail or give its output; a broadcast
may be unfinished or end with or without an acknowledgement. -/
structure NodeReport where
  now : Nat
  tick : Option NodeTick
  utc : DateTime
  status : Option (Option Bytes)
  acknowledged : Fin 3 → Nat → Option Bool
  cancelled : Bool
  env : Fin 3 → SigningEnv
  clock : Clock
  observer : Option (Except String Nat)
  drainEnv : Fin 3 → SigningEnv

/-- The report as the loop sees it, if no protocol is between them. -/
def NodeReport.input (report : NodeReport) : RunInput where
  now := report.now
  cycle :=
    { tick := report.tick.elim (.error "no tick info") fun t => .ok t.info
      now := report.utc
      statusResult := report.status.map fun output => output.elim (.error "no status") .ok
      broadcastResults := fun stream target =>
        (report.acknowledged stream target).map fun acknowledged =>
          if acknowledged then .ok else .err
      cancelled := report.cancelled
      env := report.env
      tickCheckResult := none
      clock := report.clock }
  observer := report.observer
  env := report.drainEnv

/-! ## How it says it -/

/-- The fields of a status of Bob. -/
structure Bob.Status (t : NodeTick) (result : Value) : Prop where
  epoch : result.get "currentProcessingEpoch" = some (.ofNat t.epoch)
  tick : result.get "currentVerifyLoggingTick" = some (.ofNat t.tick)
  initialTick : result.get "initialTick" = some (.ofNat t.initialTick)
  tickDurationMs : result.get "tickDurationMs" = some (.ofNat t.tickDurationMs)

/-- The response to a request of Bob gives the result. -/
def Bob.Gives (json : Bytes → Option Value) (reply : BobReply) (result : Value) : Prop :=
  ∃ response, sendJson json reply.sent = .ok response ∧ Answers reply.id response ∧
    result = (response.get "result").getD response

/-- Bob answers a poll of a contract query before it has the output. -/
def Bob.Pending (json : Bytes → Option Value) (deadline : Nat) (poll : BobReply × Nat) : Prop :=
  ∃ result, Gives json poll.1 result ∧ result.get "data" = none ∧ result.get "error" = none ∧
    poll.2 < deadline

section

variable (decoders : Decoders)

/-- The reply tells the tick. -/
def TellsTick : (kind : BackendKind) → (createBackend decoders kind).TickReply → NodeTick → Prop
  | .rpc, sent, t => sendJson decoders.tickInfo sent = .ok
      { epoch := t.epoch
        tick := t.tick
        initialTick := t.initialTick
        duration := t.tickDurationMs
        tick_le := t.tick_le }
  | .bob, reply, t => ∃ result, Bob.Gives decoders.json reply result ∧ Bob.Status t result
  | .grpc, answer, t => answer = .ok
      { ok := true
        status := some
          { epoch := t.epoch
            tick := t.tick
            initialTick := t.initialTick
            tickDurationMs := t.tickDurationMs
            tick_le := t.tick_le } }

/-- The reply tells the output of the contract query. Bob may be polled before
it has the output. -/
def TellsOutput : (kind : BackendKind) → (createBackend decoders kind).QueryReply → Bytes → Prop
  | .rpc, sent, output => ∃ value encoded, sendJson decoders.json sent = .ok value ∧
      value.get "responseData" = some (.string encoded) ∧ decoders.base64 encoded = .ok output
  | .bob, query, output => ∃ pending last later result,
      query.polls = pending ++ last :: later ∧
      (∀ poll ∈ pending, Bob.Pending decoders.json query.deadline poll) ∧
      Bob.Gives decoders.json last.1 result ∧
      result.get "data" = some (.string (hexParameter output))
  | .grpc, answer, output => answer = .ok { ok := true, output := output }

/-- A tick request that gives no tick timed out or was answered with something
the backend rejects. -/
def SaysTick (kind : BackendKind) (said : Option NodeTick)
    (reply : Option (createBackend decoders kind).TickReply) : Prop :=
  match said with
  | some t => ∃ told, reply = some told ∧ TellsTick decoders kind told t
  | none => ∀ told, reply = some told →
      ∀ node, ((createBackend decoders kind).tickInfo told node).1.toOption = none

/-- A status query that failed timed out, was not joined or was answered with
something the backend rejects. -/
def SaysStatus (kind : BackendKind) (said : Option (Option Bytes))
    (ended : Option (TaskEnd (createBackend decoders kind).QueryReply)) : Prop :=
  match said with
  | none => ended = none
  | some (some output) => ∃ reply, ended = some (.answered reply) ∧
      TellsOutput decoders kind reply output
  | some none => ∃ failed, ended = some failed ∧ ∀ reply, failed = .answered reply →
      ∃ err, (createBackend decoders kind).queryContractFunction reply = some (.error err)

/-- A broadcast is acknowledged or not. -/
def SaysBroadcast (kind : BackendKind) (said : Option Bool)
    (ended : Option (TaskEnd (createBackend decoders kind).BroadcastReply)) : Prop :=
  match said with
  | none => ended = none
  | some acknowledged => ∃ task, ended = some task ∧
      (acknowledged = true ↔ ∃ reply, task = .answered reply ∧ Acknowledges decoders kind reply)

/-- The input carries the report in the protocol of the backend. The tick checks
are left open. -/
structure Says (kind : BackendKind) (report : NodeReport)
    (input : ClientInput (createBackend decoders kind)) : Prop where
  now : input.now = report.now
  tick : SaysTick decoders kind report.tick input.wire.tick
  utc : input.wire.now = report.utc
  status : SaysStatus decoders kind report.status input.wire.status
  broadcasts : ∀ stream target, SaysBroadcast decoders kind (report.acknowledged stream target)
    (input.wire.broadcasts stream target)
  cancelled : input.wire.cancelled = report.cancelled
  env : input.wire.env = report.env
  clock : input.wire.clock = report.clock
  observer : input.observer = report.observer
  drainEnv : input.env = report.drainEnv

end

/-! ## What the adapters make of it -/

section Adapters

variable {decoders : Decoders} {kind : BackendKind}

theorem Bob.Gives.call {json : Bytes → Option Value} {reply : BobReply} {result : Value}
    (h : Bob.Gives json reply result) :
    ∃ response, Bob.call json reply.id reply.sent = .ok response ∧
      Bob.extractResult response = .ok result := by
  rcases h with ⟨response, hsent, hanswers, rfl⟩
  refine ⟨response, ?_, extractResult_eq_ok.2 ⟨hanswers.succeeded, rfl⟩⟩
  simp only [Bob.call, hsent]
  exact checkId_eq_ok.2 ⟨rfl, hanswers.own⟩

theorem Bob.extractU64Field_of_get {value : Value} {key : String} {n : Nat}
    (h : value.get key = some (.ofNat n)) (hn : n ≤ u32Max) :
    Bob.extractU64Field value [key] = some n := by
  rcases Value.exists_object_of_get h with ⟨fields, rfl⟩
  change fields.lookup key = _ at h
  have hread : Bob.valueToU64 (.ofNat n) = some n :=
    Value.asU64_ofNat (le_trans hn (by decide))
  simp [Bob.extractU64Field, h, hread]

theorem Bob.checkedU32Field_of_get {value : Value} {key : String} {n : Nat}
    (h : value.get key = some (.ofNat n)) (hn : n ≤ u32Max) :
    Bob.checkedU32Field value key = .ok ⟨n, hn⟩ := by
  simp only [Bob.checkedU32Field, Bob.extractU64Field_of_get h hn, dif_pos hn]

theorem Bob.extractStringField_of_get {value : Value} {key : String} (found : Option Value)
    (h : value.get key = found) : Bob.extractStringField value [key] = found.bind Value.asStr := by
  subst h
  cases value with
  | object fields => simp [Bob.extractStringField, Value.get]
  | _ => rfl

theorem tickInfo_of_tells {reply : (createBackend decoders kind).TickReply} {t : NodeTick}
    (h : TellsTick decoders kind reply t) (node : (createBackend decoders kind).State) :
    ((createBackend decoders kind).tickInfo reply node).1 = .ok t.info := by
  cases kind with
  | rpc =>
    change Rpc.tickInfo (sendJson decoders.tickInfo reply) = _
    change sendJson decoders.tickInfo reply = _ at h
    rw [h]
    simp [Rpc.tickInfo, Rpc.normalizeRpcTickDurationMs, t.timed, NodeTick.info]
  | bob =>
    rcases h with ⟨result, hgives, hstatus⟩
    rcases hgives.call with ⟨response, hcall, hresult⟩
    change Bob.tickInfo (Bob.call decoders.json reply.id reply.sent) = _
    rw [hcall]
    have hduration : Bob.optionalU32Field result "tickDurationMs" = some t.tickDurationMs := by
      simp [Bob.optionalU32Field, hstatus.tickDurationMs,
        Value.asU64_ofNat (le_trans t.tickDurationMs_le (by decide)), t.tickDurationMs_le]
    have hpos : max t.tickDurationMs 1 = t.tickDurationMs := by
      have := t.timed
      omega
    simp [Bob.tickInfo, hresult, Bob.checkedU32Field_of_get hstatus.epoch t.epoch_le,
      Bob.checkedU32Field_of_get hstatus.tick t.tick_le,
      Bob.checkedU32Field_of_get hstatus.initialTick t.initialTick_le, hduration, hpos, bind,
      Except.bind, pure, Except.pure, NodeTick.info]
  | grpc =>
    change reply = _ at h
    subst h
    -- a named initial tick is taken whatever the adapter remembers
    change Except.ok (Lightnode.normalizeQlnTickInfo _ _).1 = _
    simp [Lightnode.normalizeQlnTickInfo, Lightnode.QlnTickFallback.update, t.named, t.timed,
      NodeTick.info]

theorem queryRound_pending {deadline : Nat} {poll : BobReply × Nat}
    (h : Bob.Pending decoders.json deadline poll) :
    queryRound decoders.hexDetail networkTimeoutMs deadline
      (Bob.pollRound (Bob.call decoders.json poll.1.id poll.1.sent) poll.2) = none := by
  rcases h with ⟨result, hgives, hdata, herror, htime⟩
  rcases hgives.call with ⟨response, hcall, hresult⟩
  simp only [hcall, Bob.pollRound, hresult, Bob.extractStringField_of_get none hdata,
    Bob.extractStringField_of_get none herror, queryRound, Option.bind_none, Option.isSome_none,
    Bool.false_eq_true, if_false, if_neg (Nat.not_le.2 htime)]

theorem query_of_tells {reply : (createBackend decoders kind).QueryReply} {output : Bytes}
    (h : TellsOutput decoders kind reply output) :
    (createBackend decoders kind).queryContractFunction reply = some (.ok output) := by
  cases kind with
  | rpc =>
    rcases h with ⟨value, encoded, hvalue, hdata, hdecode⟩
    change some (Rpc.queryContractFunction decoders.texts decoders.base64
      (sendJson decoders.json reply)) = _
    rw [hvalue]
    simp [Rpc.queryContractFunction, Rpc.decodeRpcContractResponse, hdata, Value.asStr, hdecode,
      Except.mapError]
  | bob =>
    rcases h with ⟨pending, last, later, result, hpolls, hpending, hgives, hdata⟩
    rcases hgives.call with ⟨response, hcall, hresult⟩
    change RandomClient.queryContractFunction decoders.hexDetail networkTimeoutMs reply.deadline
      (reply.polls.map _) = _
    have hskip : ∀ polls : List (BobReply × Nat),
        (∀ poll ∈ polls, Bob.Pending decoders.json reply.deadline poll) →
          (polls.map fun poll => Bob.pollRound (Bob.call decoders.json poll.1.id poll.1.sent)
            poll.2).findSome? (queryRound decoders.hexDetail networkTimeoutMs reply.deadline) =
              none := by
      intro polls hall
      rw [List.findSome?_eq_none_iff]
      intro round hmem
      rcases List.mem_map.1 hmem with ⟨poll, hpoll, rfl⟩
      exact queryRound_pending (hall poll hpoll)
    have hhex : decodeHexData (hexParameter output) = .ok output := by
      have hpairs := decodeHexData_replicate (bytesToHex_hexPairs output) 1
      rwa [hexBytes_bytesToHex] at hpairs
    unfold RandomClient.queryContractFunction
    rw [hpolls, List.map_append, List.findSome?_append, hskip pending hpending, List.map_cons,
      List.findSome?_cons]
    simp [hcall, Bob.pollRound, hresult, Bob.extractStringField_of_get _ hdata, Value.asStr,
      queryRound, hhex, Except.mapError]
  | grpc =>
    change reply = _ at h
    subst h
    rfl

/-- A backend accepts exactly the acknowledgements. -/
theorem broadcast_ok_iff {reply : (createBackend decoders kind).BroadcastReply} :
    (∃ transactionId, (createBackend decoders kind).broadcastTransaction reply = .ok transactionId) ↔
      Acknowledges decoders kind reply := by
  constructor
  · rintro ⟨transactionId, h⟩
    exact acknowledges_of_ok h
  · intro h
    cases kind with
    | rpc =>
      rcases h with ⟨model, hmodel, hpeers, hne⟩
      exact ⟨_, Rpc.broadcastTransaction_eq_ok.2 ⟨model, hmodel, hpeers, rfl, hne⟩⟩
    | bob =>
      rcases h with ⟨response, transactionId, hsent, hanswers, hid, hne⟩
      have hgives : Bob.Gives decoders.json reply ((response.get "result").getD response) :=
        ⟨response, hsent, hanswers, rfl⟩
      rcases hgives.call with ⟨response', hcall, hresult⟩
      refine ⟨transactionId, Bob.broadcastTransaction_eq_ok.2
        ⟨response', _, hcall, hresult, hid, hne⟩⟩
    | grpc =>
      rcases h with ⟨response, hanswer, hok, hne⟩
      exact ⟨_, Lightnode.broadcastTransaction_eq_ok.2 ⟨response, hanswer, hok, rfl, hne⟩⟩

/-! ## What the loop makes of it -/

theorem tick_of_said {said : Option NodeTick} {wire : WireCycle (createBackend decoders kind)}
    (h : SaysTick decoders kind said wire.tick) (node : (createBackend decoders kind).State) :
    (wire.tickInfo node).1.toOption = said.map NodeTick.info := by
  unfold WireCycle.tickInfo
  cases said with
  | none =>
    cases hreply : wire.tick with
    | none => rfl
    | some reply => exact h reply hreply node
  | some t =>
    rcases h with ⟨reply, hreply, htells⟩
    rw [hreply]
    change ((createBackend decoders kind).tickInfo reply node).1.toOption = _
    rw [tickInfo_of_tells htells]
    rfl

theorem status_of_said {said : Option (Option Bytes)}
    {wire : WireCycle (createBackend decoders kind)}
    (h : SaysStatus decoders kind said wire.status) :
    wire.statusResult.map Except.toOption = said := by
  unfold WireCycle.statusResult
  rcases said with - | - | output
  · change wire.status = none at h
    rw [h]
    rfl
  · rcases h with ⟨failed, hended, hrejected⟩
    rw [hended]
    cases failed with
    | answered reply =>
      rcases hrejected reply rfl with ⟨err, herr⟩
      simp only [herr, Option.map_some, Except.mapError, Except.toOption]
    | timedOut => rfl
    | notJoined err => rfl
  · rcases h with ⟨reply, hended, htells⟩
    rw [hended]
    simp only [query_of_tells htells, Option.map_some, Except.mapError, Except.toOption]

theorem delivery_of_said {said : Option Bool} {wire : WireCycle (createBackend decoders kind)}
    {stream : Fin 3} {target : Nat}
    (h : SaysBroadcast decoders kind said (wire.broadcasts stream target)) :
    wire.broadcastResults stream target =
      said.map fun acknowledged => if acknowledged then .ok else .err := by
  unfold WireCycle.broadcastResults
  cases said with
  | none =>
    change wire.broadcasts stream target = none at h
    rw [h]
    rfl
  | some acknowledged =>
    rcases h with ⟨task, hended, hiff⟩
    rw [hended, Option.map_some, Option.map_some, Option.some.injEq]
    have hok : deliveryOf (task.result "broadcast transaction" "its attempt"
        (createBackend decoders kind).broadcastTransaction) = .ok ↔ acknowledged = true := by
      rw [hiff, deliveryOf_eq_ok]
      constructor
      · rintro ⟨transactionId, hvalue⟩
        rcases TaskEnd.result_eq_ok hvalue with ⟨reply, rfl, hread⟩
        exact ⟨reply, rfl, broadcast_ok_iff.1 ⟨_, hread⟩⟩
      · rintro ⟨reply, rfl, hacknowledges⟩
        exact broadcast_ok_iff.2 hacknowledges
    cases acknowledged with
    | true => exact hok.2 rfl
    | false =>
      have hnot := mt hok.1 (by decide)
      cases hdelivery : deliveryOf (task.result "broadcast transaction" "its attempt"
          (createBackend decoders kind).broadcastTransaction) with
      | ok => exact absurd hdelivery hnot
      | err => rfl

/-- What the loop reads mirrors the report, whatever the backend remembers. -/
theorem read_mirrors {report : NodeReport} {input : ClientInput (createBackend decoders kind)}
    (h : Says decoders kind report input) (s : ClientState (createBackend decoders kind)) :
    report.input.Mirrors (input.read s).1 where
  now := h.now
  cycle :=
    { tick := by
        change (input.wire.tickInfo s.node).1.toOption = _
        rw [tick_of_said h.tick]
        unfold NodeReport.input
        cases report.tick <;> rfl
      now := h.utc
      status := by
        change input.wire.statusResult.map Except.toOption = _
        rw [status_of_said h.status]
        unfold NodeReport.input
        rcases report.status with - | - | output <;> rfl
      broadcasts := by
        funext stream target
        change input.wire.broadcastResults stream target = _
        rw [delivery_of_said (h.broadcasts stream target)]
        rfl
      cancelled := h.cancelled
      env := h.env
      clock := h.clock }
  observer := h.observer
  env := h.drainEnv

end Adapters

/-! ## Whole runs -/

/-- Whatever the backend: a client whose node says the reports in its protocol
signs the calls, hands over the broadcasts and returns what the loop does that is
given the reports themselves. -/
theorem backend_transparent (decoders : Decoders) (kind : BackendKind) (cfg : Config) (a b c : Nat)
    (reports : List NodeReport) (inputs : List (ClientInput (createBackend decoders kind)))
    (h : List.Forall₂ (Says decoders kind) reports inputs) :
    let start := ClientState.new (createBackend decoders kind) cfg a b c
    let told := reports.map NodeReport.input
    (∀ i, runTrace cfg (Engine.new cfg a b c) (engineInputs cfg start inputs) i =
      runTrace cfg (Engine.new cfg a b c) ((runMachine cfg).trace (RunState.new cfg a b c) told) i) ∧
    ((clientMachine (createBackend decoders kind) cfg).state start inputs).run.returned =
      ((runMachine cfg).state (RunState.new cfg a b c) told).returned := by
  intro start told
  -- the loop under the client gets inputs that mirror the reports
  have htold : List.Forall₂ RunInput.Mirrors told
      ((clientMachine (createBackend decoders kind) cfg).trace start inputs) := by
    clear_value start
    induction h generalizing start with
    | nil => exact .nil
    | cons hsaid hrest ih => exact .cons (read_mirrors hsaid start) (ih _)
  have hloop := @run_mirrors cfg (RunState.new cfg a b c) (RunState.new cfg a b c)
    ⟨⟨rfl, rfl, rfl, rfl⟩, rfl, rfl, rfl, rfl⟩ _ _ htold
  have hengine := @engine_mirrors cfg (Engine.new cfg a b c) (Engine.new cfg a b c)
    ⟨rfl, rfl, rfl, rfl⟩ _ _ hloop.2
  constructor
  · intro i
    unfold runTrace history engineInputs
    exact congrArg _ (congrArg (slotLog i) hengine.2)
  · rw [client_run]
    exact hloop.1.returned

/-! ## A node that is polled -/

/-- A tick Bob is at. -/
def bobTick : NodeTick where
  epoch := 1
  tick := 5
  initialTick := 1
  tickDurationMs := 1000
  epoch_le := by decide
  tick_le := by decide
  initialTick_le := by decide
  tickDurationMs_le := by decide
  named := by decide
  timed := by decide

/-- Three bodies of Bob, and what they parse to: a status, a contract query
without its output yet, and the output. -/
def bobBodies : List (Bytes × Value) :=
  [(Text.utf8 ("\x7b\"currentProcessingEpoch\":1,\"currentVerifyLoggingTick\":5," ++
        "\"initialTick\":1,\"tickDurationMs\":1000\x7d").toList,
      .object
        [("currentProcessingEpoch", .ofNat 1), ("currentVerifyLoggingTick", .ofNat 5),
          ("initialTick", .ofNat 1), ("tickDurationMs", .ofNat 1000)]),
    (Text.utf8 "\x7b\"id\":2,\"result\":\x7b\x7d\x7d".toList,
      .object [("id", .ofNat 2), ("result", .object [])]),
    (Text.utf8 "\x7b\"id\":3,\"result\":\x7b\"data\":\"0x07\"\x7d\x7d".toList,
      .object [("id", .ofNat 3), ("result", .object [("data", .string "0x07".toList)])])]

def bobDecoders : Decoders :=
  { sampleDecoders with json := fun body => bobBodies.lookup body }

/-- The response to the request `id`, with one of the bodies. -/
def bobReply (id n : Nat) : BobReply where
  id := id
  sent := some
    { status := 200
      contentLength := none
      chunks := [(bobBodies.map Prod.fst).getD n []]
      ending := .complete }

/-- A query that is polled twice. -/
def bobQuery : BobQuery where
  deadline := 8000
  polls := [(bobReply 2 1, 50), (bobReply 3 2, 100)]

/-- An iteration at that tick, in which the status query gave what it gave. -/
def bobReport (status : Option (Option Bytes)) : NodeReport where
  now := 0
  tick := some bobTick
  utc := { timestamp := 0 }
  status := status
  acknowledged := fun _ _ => none
  cancelled := false
  env := fun _ => sampleEnv
  clock :=
    { resetTickCheckAt := 0, resetStatusAt := 0, resetMonitorAt := 0, statusAt := 0
      statusStartedAt := 0, expireAt := 0, harvestAt := 0, ensureExpireAt := 0, ensureAt := 0 }
  observer := none
  drainEnv := fun _ => sampleEnv

/-- How Bob says it. -/
def bobInput (query : Option BobQuery) : ClientInput (createBackend bobDecoders .bob) where
  now := 0
  wire :=
    { tick := some (bobReply 1 0)
      now := { timestamp := 0 }
      status := query.map .answered
      broadcasts := fun _ _ => none
      tickCheck := none
      cancelled := false
      env := fun _ => sampleEnv
      clock := (bobReport none).clock }
  observer := none
  env := fun _ => sampleEnv

theorem bobStatus_gives : ∃ result, Bob.Gives bobDecoders.json (bobReply 1 0) result ∧
    Bob.Status bobTick result := by
  refine ⟨_, ⟨.object _, rfl, ⟨?_, ?_⟩, rfl⟩, ⟨rfl, rfl, rfl, rfl⟩⟩
  · intro henvelope
    exact absurd henvelope (by decide)
  · intro error herror
    simp [Value.get, List.lookup_cons] at herror

theorem bobQuery_tells : TellsOutput bobDecoders .bob bobQuery [7] := by
  refine ⟨[(bobReply 2 1, 50)], (bobReply 3 2, 100), [], _, rfl, ?_,
    ⟨.object [("id", .ofNat 3), ("result", _)], rfl, ⟨fun _ => rfl, ?_⟩, rfl⟩, rfl⟩
  · intro poll hmem
    rw [List.mem_singleton.1 hmem]
    refine ⟨.object [], ⟨.object [("id", .ofNat 2), ("result", _)], rfl, ⟨fun _ => rfl, ?_⟩, rfl⟩,
      rfl, rfl, by decide⟩
    intro error herror
    simp [Value.get, List.lookup_cons] at herror
  · intro error herror
    simp [Value.get, List.lookup_cons] at herror

theorem bobInput_said {status : Option (Option Bytes)} {query : Option BobQuery}
    (h : SaysStatus bobDecoders .bob status (query.map .answered)) :
    Says bobDecoders .bob (bobReport status) (bobInput query) where
  now := rfl
  tick := ⟨_, rfl, bobStatus_gives⟩
  utc := rfl
  status := h
  broadcasts _ _ := rfl
  cancelled := rfl
  env := rfl
  clock := rfl
  observer := rfl
  drainEnv := rfl

theorem backend_transparent_polled_query :
    (∀ i, runTrace sampleConfig sampleEngine
        (engineInputs sampleConfig (ClientState.new (createBackend bobDecoders .bob) sampleConfig
          0 0 0) [bobInput none, bobInput (some bobQuery)]) i =
      runTrace sampleConfig sampleEngine
        ((runMachine sampleConfig).trace (RunState.new sampleConfig 0 0 0)
          [(bobReport none).input, (bobReport (some (some [7]))).input]) i) ∧
    ((clientMachine (createBackend bobDecoders .bob) sampleConfig).state
        (ClientState.new (createBackend bobDecoders .bob) sampleConfig 0 0 0)
        [bobInput none, bobInput (some bobQuery)]).run.returned =
      ((runMachine sampleConfig).state (RunState.new sampleConfig 0 0 0)
        [(bobReport none).input, (bobReport (some (some [7]))).input]).returned :=
  backend_transparent bobDecoders .bob sampleConfig 0 0 0
    [bobReport none, bobReport (some (some [7]))] [bobInput none, bobInput (some bobQuery)]
    (.cons (bobInput_said rfl) (.cons (bobInput_said ⟨_, rfl, bobQuery_tells⟩) .nil))

end RandomClient
