import RandomClient.Backend
import RandomClient.Hex
import RandomClient.Lib.Json
import RandomClient.Lib.Machine
import RandomClient.TickData

/-!
# The Bob backend

Bob speaks JSON-RPC over HTTP. `call` checks the id of an enveloped response,
`extract_result` takes the envelope off, and the adapter reads the fields of the
result. The parser of the response body is a parameter.
-/

namespace RandomClient.Bob

open Json (Value)

/-! ## Responses -/

/-- `envelope` of `call`: the response claims to be a JSON-RPC response. -/
def isEnvelope (response : Value) : Bool :=
  (response.get "jsonrpc").isSome ||
    ((response.get "id").isSome &&
      ((response.get "result").isSome || (response.get "error").isSome))

/-- The id a response carries. -/
def responseId (response : Value) : Option Nat := (response.get "id").bind Value.asU64

/-- The end of `call`: an envelope has to carry the id of the request. -/
def checkId (id : Nat) (response : Value) : Except String Value :=
  if isEnvelope response ∧ responseId response ≠ some id then
    .error "Bob response ID does not match request"
  else .ok response

/-- `BoundedBobClient::call`, with the response to the request `id`. -/
def call (parse : Bytes → Option Value) (id : Nat) (sent : Option HttpResponse) :
    Except String Value :=
  match sendJson parse sent with
  | .error err => .error err.message
  | .ok response => checkId id response

/-- `extract_result` -/
def extractResult (value : Value) : Except String Value :=
  match (value.get "error").filter fun error => !error.isNull with
  | some error =>
    match (error.get "code").bind Value.asI64 with
    | some code => .error ("bob rpc error (code " ++ toString code ++ ")")
    | none => .error "bob rpc error"
  | none =>
    match value.get "result" with
    | some result => .ok result
    | none => .ok value

/-! ## Fields -/

/-- `value_to_u64` -/
def valueToU64 : Value → Option Nat
  | .number number => number.asU64
  | .string text => Value.parseText Json.u64Limit text
  | _ => none

/-- `extract_u64_field`: the first key that is present decides. -/
def extractU64Field (value : Value) (keys : List String) : Option Nat :=
  match value with
  | .object fields => (keys.findSome? fun key => fields.lookup key).bind valueToU64
  | _ => none

/-- `extract_string_field`: the first key that holds a string decides. -/
def extractStringField (value : Value) (keys : List String) : Option (List Char) :=
  match value with
  | .object fields => keys.findSome? fun key => (fields.lookup key).bind Value.asStr
  | _ => none

/-- `checked_u32_field` -/
def checkedU32Field (value : Value) (key : String) : Except String U32 :=
  match extractU64Field value [key] with
  | none => .error ("Bob response missing " ++ key)
  | some n =>
    if hfits : n ≤ u32Max then .ok ⟨n, hfits⟩
    else .error ("Bob response " ++ key ++ " is out of range: " ++ toString n)

/-- `optional_u32_field` -/
def optionalU32Field (value : Value) (key : String) : Option Nat :=
  (value.get key).bind fun value =>
    (value.asU64.filter fun n => n ≤ u32Max).or
      (value.asStr.bind (Value.parseText u32Max))

/-! ## The adapter -/

/-- `BobBackend::tick_info` -/
def tickInfo (answer : Except String Value) : Except String TickInfo :=
  match answer with
  | .error _ => .error "Bob status failed"
  | .ok response => do
    let result ← extractResult response
    let epoch ← checkedU32Field result "currentProcessingEpoch"
    let tick ← checkedU32Field result "currentVerifyLoggingTick"
    let initialTick ← checkedU32Field result "initialTick"
    let duration := (["tickDurationMs", "tickDuration", "duration"].findSome?
      (optionalU32Field result)).getD defaultTickDurationMs
    return {
      epoch := epoch
      tick := tick
      initialTick := initialTick
      tickDurationMs := max duration 1
      tick_le := tick.property }

/-- `bob_tick_has_transactions` -/
def bobTickHasTransactions (result : Value) : Except String Bool :=
  match result with
  | .array transfers => .ok (!transfers.isEmpty)
  | .object fields =>
    match (fields.lookup "transfers").bind Value.asArray with
    | some transfers => .ok (!transfers.isEmpty)
    | none => .error "Bob transfers response is missing transfers array"
  | _ => .error "Bob transfers response has an unexpected shape"

/-- `BobBackend::tick_has_transactions` -/
def tickHasTransactions (answer : Except String Value) : Except String TickTransactions :=
  match answer with
  | .error _ => .error "Bob tick-data query failed"
  | .ok response => do
    let result ← extractResult response
    let hasTransactions ← bobTickHasTransactions result
    return TickTransactions.ofPresence hasTransactions

/-- The parameters of `qubic_querySmartContract`. -/
def queryParams (nonce contractIndex inputType : UInt64) (input : Bytes) : Value :=
  .array [.object
    [("nonce", .number (.posInt nonce)), ("scIndex", .number (.posInt contractIndex)),
      ("funcNumber", .number (.posInt inputType)), ("data", .string (hexParameter input))]]

/-- One poll of `query_contract_function`, answered at the instant `now`. -/
def pollRound (answer : Except String Value) (now : Nat) : QueryRound :=
  match answer with
  | .error _ => .callFailed
  | .ok response =>
    match extractResult response with
    | .error message => .envelopeError message
    | .ok result =>
      .result
        { data := extractStringField result ["data"]
          error := extractStringField result ["error"] } now

/-- `BobBackend::broadcast_transaction` -/
def broadcastTransaction (answer : Except String Value) : Except String (List Char) :=
  match answer with
  | .error _ => .error "Bob broadcast request failed"
  | .ok response =>
    match extractResult response with
    | .error _ => .error "Bob broadcast response was invalid"
    | .ok result =>
      match result.asStr.or
        (extractStringField result ["transactionId", "txId", "hash", "id"]) with
      | none => .error "Bob broadcast returned no transaction id"
      | some transactionId => validateTransactionId transactionId

/-! ## What the adapter accepts -/

/-- A response that answers the request `id`: it reports no error, and if it is
enveloped it carries the id of the request. -/
structure Answers (id : Nat) (response : Value) : Prop where
  own : isEnvelope response = true → responseId response = some id
  succeeded : ∀ error, response.get "error" = some error → error = .null

theorem checkId_eq_ok {id : Nat} {response value : Value} :
    checkId id response = .ok value ↔
      value = response ∧ (isEnvelope response = true → responseId response = some id) := by
  unfold checkId
  split
  · next hother =>
    constructor
    · intro h
      cases h
    · rintro ⟨-, hown⟩
      exact absurd (hown hother.1) hother.2
  · next hown =>
    rw [not_and, not_not] at hown
    constructor
    · intro h
      cases h
      exact ⟨rfl, hown⟩
    · rintro ⟨rfl, -⟩
      rfl

theorem filter_error_eq_none {response : Value} :
    (response.get "error").filter (fun error => !error.isNull) = none ↔
      ∀ error, response.get "error" = some error → error = .null := by
  rw [Option.filter_eq_none_iff]
  refine forall₂_congr fun error _ => ?_
  rw [Bool.not_eq_true, Bool.not_eq_false', Value.isNull_iff]

theorem extractResult_eq_ok {value result : Value} :
    extractResult value = .ok result ↔
      (∀ error, value.get "error" = some error → error = .null) ∧
        result = (value.get "result").getD value := by
  unfold extractResult
  split
  · next error herror =>
    constructor
    · intro h
      split at h <;> cases h
    · rintro ⟨hnull, -⟩
      rw [filter_error_eq_none.2 hnull] at herror
      cases herror
  · next hnone =>
    have hnull := filter_error_eq_none.1 hnone
    constructor
    · intro h
      split at h
      · next found hfound =>
        cases h
        rw [hfound]
        exact ⟨hnull, rfl⟩
      · next hfound =>
        cases h
        rw [hfound]
        exact ⟨hnull, rfl⟩
    · rintro ⟨-, rfl⟩
      cases value.get "result" with
      | none => rfl
      | some found => rfl

/-- The parsed response behind an answer of `call`. -/
theorem call_eq_ok {parse : Bytes → Option Value} {id : Nat} {sent : Option HttpResponse}
    {response : Value} (h : call parse id sent = .ok response) :
    sendJson parse sent = .ok response ∧
      (isEnvelope response = true → responseId response = some id) := by
  unfold call at h
  split at h
  · cases h
  · next value hsent =>
    rcases checkId_eq_ok.1 h with ⟨rfl, hown⟩
    exact ⟨hsent, hown⟩

/-- A result that was read comes out of a response that answers the request. -/
theorem call_answers {parse : Bytes → Option Value} {id : Nat} {sent : Option HttpResponse}
    {response result : Value} (h : call parse id sent = .ok response)
    (hresult : extractResult response = .ok result) :
    Answers id response ∧ result = (response.get "result").getD response := by
  rcases extractResult_eq_ok.1 hresult with ⟨hnull, heq⟩
  exact ⟨⟨(call_eq_ok h).2, hnull⟩, heq⟩

/-- The transaction id a response gives, in either of its two shapes. -/
def transactionIdOf (response : Value) : Option (List Char) :=
  let result := (response.get "result").getD response
  result.asStr.or (extractStringField result ["transactionId", "txId", "hash", "id"])

theorem broadcastTransaction_eq_ok {answer : Except String Value} {transactionId : List Char} :
    broadcastTransaction answer = .ok transactionId ↔
      ∃ response result, answer = .ok response ∧ extractResult response = .ok result ∧
        result.asStr.or (extractStringField result ["transactionId", "txId", "hash", "id"]) =
          some transactionId ∧ trim transactionId ≠ [] := by
  constructor
  · intro h
    unfold broadcastTransaction at h
    split at h
    · cases h
    · next response =>
      split at h
      · cases h
      · next result hresult =>
        split at h
        · cases h
        · next found hfound =>
          rcases validateTransactionId_eq_ok.1 h with ⟨rfl, hne⟩
          exact ⟨response, result, rfl, hresult, hfound, hne⟩
  · rintro ⟨response, result, rfl, hresult, hfound, hne⟩
    simp only [broadcastTransaction, hresult, hfound]
    exact validateTransactionId_eq_ok.2 ⟨rfl, hne⟩

/-- The transfers of a result, in either of its two shapes. -/
def transfersOf : Value → Option (List Value)
  | .array transfers => some transfers
  | .object fields => (fields.lookup "transfers").bind Value.asArray
  | _ => none

theorem bobTickHasTransactions_eq_ok {result : Value} {present : Bool} :
    bobTickHasTransactions result = .ok present ↔
      ∃ transfers, transfersOf result = some transfers ∧ present = !transfers.isEmpty := by
  cases result with
  | array transfers => simp [bobTickHasTransactions, transfersOf, eq_comm]
  | object fields =>
    simp only [bobTickHasTransactions, transfersOf]
    split
    · next transfers htransfers => simp [htransfers, eq_comm]
    · next hnone => simp [hnone]
  | _ => simp [bobTickHasTransactions, transfersOf]

theorem tickHasTransactions_eq_ok {answer : Except String Value} {observation : TickTransactions} :
    tickHasTransactions answer = .ok observation ↔
      ∃ response result transfers, answer = .ok response ∧ extractResult response = .ok result ∧
        transfersOf result = some transfers ∧
        observation = TickTransactions.ofPresence (!transfers.isEmpty) := by
  cases answer with
  | error err => simp [tickHasTransactions]
  | ok response =>
    unfold tickHasTransactions
    cases hresult : extractResult response with
    | error err => simp [hresult, bind, Except.bind]
    | ok result =>
      constructor
      · intro h
        cases hpresent : bobTickHasTransactions result with
        | error err => simp [hresult, hpresent, bind, Except.bind] at h
        | ok present =>
          simp only [hresult, hpresent, bind, Except.bind, pure, Except.pure, Except.ok.injEq] at h
          rcases bobTickHasTransactions_eq_ok.1 hpresent with ⟨transfers, htransfers, rfl⟩
          exact ⟨response, result, transfers, rfl, hresult, htransfers, h.symm⟩
      · rintro ⟨response', result', transfers, hanswer, hresult', htransfers, rfl⟩
        cases hanswer
        rw [hresult] at hresult'
        cases hresult'
        have hpresent := bobTickHasTransactions_eq_ok.2 ⟨transfers, htransfers, rfl⟩
        simp [hresult, hpresent, bind, Except.bind, pure, Except.pure]

/-! ## What its failures say -/

variable {texts : PackageTexts}

theorem extractResult_discreet (value : Value) : Discreet texts (extractResult value) := by
  unfold extractResult
  split
  · split
    · next code _ =>
      -- of the error only a numeric code is printed
      exact .error (@Announced.numbered texts "bob rpc error (code " ")" (by decide) code)
    · exact .fixed (by decide)
  · split
    · exact .ok _
    · exact .ok _

/-- The fields of a status that `tick_info` insists on. -/
def statusFields : List String :=
  ["currentProcessingEpoch", "currentVerifyLoggingTick", "initialTick"]

theorem statusFields_announced : ∀ key ∈ statusFields,
    "Bob response missing " ++ key ∈ fixedTexts ∧
      ("Bob response " ++ key ++ " is out of range: ", "") ∈ numberedTexts :=
  List.all_iff_forall_prop.1 (by decide)

theorem checkedU32Field_discreet (value : Value) {key : String} (hkey : key ∈ statusFields) :
    Discreet texts (checkedU32Field value key) := by
  unfold checkedU32Field
  split
  · exact .fixed (statusFields_announced key hkey).1
  · next n _ =>
    split
    · exact .ok _
    · have h := @Announced.numbered texts _ _ (statusFields_announced key hkey).2 n
      rw [String.append_empty] at h
      exact .error h

theorem tickInfo_discreet (answer : Except String Value) : Discreet texts (tickInfo answer) := by
  cases answer with
  | error err => exact .fixed (by decide)
  | ok response =>
    refine (extractResult_discreet response).bind fun result _ => ?_
    refine (checkedU32Field_discreet result (by decide)).bind fun epoch _ => ?_
    refine (checkedU32Field_discreet result (by decide)).bind fun tick _ => ?_
    refine (checkedU32Field_discreet result (by decide)).bind fun initialTick _ => ?_
    exact .ok _

theorem bobTickHasTransactions_discreet (result : Value) :
    Discreet texts (bobTickHasTransactions result) := by
  unfold bobTickHasTransactions
  split
  · exact .ok _
  · split
    · exact .ok _
    · exact .fixed (by decide)
  · exact .fixed (by decide)

theorem tickHasTransactions_discreet (answer : Except String Value) :
    Discreet texts (tickHasTransactions answer) := by
  cases answer with
  | error err => exact .fixed (by decide)
  | ok response =>
    refine (extractResult_discreet response).bind fun result _ => ?_
    refine (bobTickHasTransactions_discreet result).bind fun present _ => ?_
    exact .ok _

theorem broadcastTransaction_discreet (answer : Except String Value) :
    Discreet texts (broadcastTransaction answer) := by
  unfold broadcastTransaction
  split
  · exact .fixed (by decide)
  · split
    · exact .fixed (by decide)
    · split
      · exact .fixed (by decide)
      · exact validateTransactionId_discreet _

/-- The two failures of `decode_hex`, the only ones it has, name no digit. -/
theorem decodeHexData_discreet (detail : HexError → String) (data : List Char) :
    Discreet texts ((decodeHexData data).mapError (HexError.message detail)) := by
  unfold decodeHexData
  rcases decodeHex_cases (Text.trimStartMatches ['0', 'x'] data) with ⟨-, h⟩ | ⟨-, h | h⟩
  · rw [h]
    exact .ok _
  · rw [h]
    exact .fixed (show "hex output has an odd length" ∈ fixedTexts by decide)
  · rw [h]
    exact .fixed (show "hex output contains a non-hex digit" ∈ fixedTexts by decide)

theorem pollRound_discreet (detail : HexError → String) (deadline : Nat)
    (answer : Except String Value) (now : Nat) {outcome : Except String Bytes}
    (h : queryRound detail networkTimeoutMs deadline (pollRound answer now) = some outcome) :
    Discreet texts outcome := by
  cases answer with
  | error err =>
    cases h
    exact .fixed (by decide)
  | ok response =>
    simp only [pollRound] at h
    split at h
    · next message hmessage =>
      cases h
      exact .error (extractResult_discreet response _ hmessage)
    · simp only [queryRound] at h
      split at h
      · cases h
        exact decodeHexData_discreet detail _
      · split at h
        · cases h
          exact .fixed (by decide)
        · split at h
          · cases h
            exact .error (@Announced.numbered texts "Bob contract query timed out after " " ms"
              (by decide) networkTimeoutMs)
          · cases h

/-! ## Calls in flight

The calls of the tasks share one counter, and the responses arrive in any order. -/

/-- The counter and the ids taken so far, in the order in which they were taken. -/
structure Calls where
  nextId : Nat
  issued : List Nat

/-- The counter starts at one. -/
def Calls.new : Calls where
  nextId := 1
  issued := []

inductive CallEvent where
  /-- A task takes the next id and sends its request. -/
  | request
  /-- The request that was the `call`-th to take an id is answered. -/
  | response (call : Nat) (body : Value)

/-- The effect is the response a call accepted. `fetch_add` wraps at `2^64`. -/
def Calls.step (event : CallEvent) (calls : Calls) : Calls × List (Nat × Value) :=
  match event with
  | .request =>
    ({ nextId := (calls.nextId + 1) % 2 ^ 64
       issued := calls.issued ++ [calls.nextId] }, [])
  | .response call body =>
    match calls.issued[call]? with
    | none => (calls, [])
    | some id =>
      match checkId id body with
      | .ok response => (calls, [(call, response)])
      | .error _ => (calls, [])

def callMachine : Machine Calls CallEvent (Nat × Value) where
  step := Calls.step

def CallEvent.isRequest : CallEvent → Bool
  | .request => true
  | .response _ _ => false

/-- The id of the call that is the `call`-th to take one. -/
def idOf (call : Nat) : Nat := (call + 1) % 2 ^ 64

/-- What holds of the calls after any events. -/
structure CallsInv (events : List CallEvent) (calls : Calls) (accepted : List (Nat × Value)) :
    Prop where
  next : calls.nextId = idOf (events.countP CallEvent.isRequest)
  issued : calls.issued = (List.range (events.countP CallEvent.isRequest)).map idOf
  own : ∀ call response, (call, response) ∈ accepted →
    call < events.countP CallEvent.isRequest ∧
      (isEnvelope response = true → responseId response = some (idOf call))

theorem idOf_succ (call : Nat) : (idOf call + 1) % 2 ^ 64 = idOf (call + 1) := by
  unfold idOf
  omega

theorem CallsInv.step {events : List CallEvent} {calls : Calls} {accepted : List (Nat × Value)}
    (h : CallsInv events calls accepted) (event : CallEvent) :
    CallsInv (events ++ [event]) (callMachine.step event calls).1
      (accepted ++ (callMachine.step event calls).2) := by
  cases event with
  | request =>
    have hcount : (events ++ [CallEvent.request]).countP CallEvent.isRequest =
        events.countP CallEvent.isRequest + 1 := by
      rw [List.countP_append]
      rfl
    constructor
    · rw [hcount, ← idOf_succ, ← h.next]
      rfl
    · rw [hcount, List.range_succ, List.map_append, ← h.issued, List.map_singleton, ← h.next]
      rfl
    · intro call response hmem
      rw [hcount]
      rcases h.own call response (by simpa [callMachine, Calls.step] using hmem) with ⟨hlt, hid⟩
      exact ⟨Nat.lt_succ_of_lt hlt, hid⟩
  | response call body =>
    have hcount : (events ++ [CallEvent.response call body]).countP CallEvent.isRequest =
        events.countP CallEvent.isRequest := by
      rw [List.countP_append]
      rfl
    -- a response takes no id
    have hcalls : (callMachine.step (.response call body) calls).1 = calls := by
      simp only [callMachine, Calls.step]
      split
      · rfl
      · split <;> rfl
    rw [hcalls]
    constructor
    · rw [hcount, h.next]
    · rw [hcount, h.issued]
    · intro call' response hmem
      rw [hcount]
      rcases List.mem_append.1 hmem with hmem | hmem
      · exact h.own call' response hmem
      · -- the response that arrives now is checked against the id of its own call
        simp only [callMachine, Calls.step] at hmem
        split at hmem
        · cases hmem
        · next id hissued =>
          split at hmem
          · next value hcheck =>
            cases List.mem_singleton.1 hmem
            rcases checkId_eq_ok.1 hcheck with ⟨-, hown⟩
            rw [h.issued, List.getElem?_map] at hissued
            rcases Option.map_eq_some_iff.1 hissued with ⟨k, hk, rfl⟩
            rcases List.getElem?_eq_some_iff.1 hk with ⟨hlt, hget⟩
            rw [List.length_range] at hlt
            rw [List.getElem_range] at hget
            subst hget
            have hresponse : response = body := (checkId_eq_ok.1 hcheck).1
            subst hresponse
            exact ⟨hlt, hown⟩
          · cases hmem

theorem callsInv (events : List CallEvent) :
    CallsInv events (callMachine.state Calls.new events) (callMachine.trace Calls.new events) := by
  refine callMachine.run_invariant Calls.new CallsInv ?_ (fun events calls accepted event h =>
    h.step event) events
  constructor
  · rfl
  · rfl
  · intro call response hmem
    cases hmem

/-- Below `2^64` calls no id is taken twice. -/
theorem idOf_injOn {n k l : Nat} (hn : n ≤ 2 ^ 64) (hk : k < n) (hl : l < n)
    (h : idOf k = idOf l) : k = l := by
  unfold idOf at h
  omega

/-- Whatever the order of requests and responses, and whichever call a response
is delivered to, a call accepts an enveloped response only with its own id. In a
run of at most `2^64` calls no two of them accept responses with one id. -/
theorem responses_not_crossed (events : List CallEvent) :
    (∀ call response, (call, response) ∈ callMachine.trace Calls.new events →
      isEnvelope response = true → responseId response = some (idOf call)) ∧
    (events.countP CallEvent.isRequest ≤ 2 ^ 64 → ∀ call response other response',
      (call, response) ∈ callMachine.trace Calls.new events → isEnvelope response = true →
      (other, response') ∈ callMachine.trace Calls.new events → isEnvelope response' = true →
      responseId response = responseId response' → call = other) := by
  have hinv := callsInv events
  constructor
  · intro call response hmem henvelope
    exact (hinv.own call response hmem).2 henvelope
  · intro hcount call response other response' hmem henvelope hmem' henvelope' heq
    rcases hinv.own call response hmem with ⟨hlt, hid⟩
    rcases hinv.own other response' hmem' with ⟨hlt', hid'⟩
    rw [hid henvelope, hid' henvelope', Option.some.injEq] at heq
    exact idOf_injOn hcount hlt hlt' heq

/-- Two calls whose responses arrive the other way round: both are refused. -/
example :
    let body (id : UInt64) : Value :=
      .object [("id", .number (.posInt id)), ("result", .array [])]
    (callMachine.trace Calls.new
      [.request, .request, .response 0 (body 2), .response 1 (body 1)]).length = 0 ∧
    (callMachine.trace Calls.new
      [.request, .request, .response 1 (body 2), .response 0 (body 1)]).length = 2 := by
  decide

end RandomClient.Bob
