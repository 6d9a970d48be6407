import RandomClient.Backend
import RandomClient.Lib.Block
import RandomClient.TickData

/-!
# The gRPC backend

A lightnode answers with protobuf messages. It may not know the initial tick of
the epoch; `normalize_qln_tick_info` then takes the first tick it saw in the
epoch, which it remembers between requests. `initialTick_eq` gives what it
reports by the statuses alone.
-/

namespace RandomClient.Lightnode

/-- The fields of `TickStatus` that are read. -/
structure TickStatus where
  epoch : Nat
  tick : Nat
  initialTick : Nat
  tickDurationMs : Nat
  tick_le : tick ≤ u32Max

/-- `GetStatusResponse` -/
structure GetStatusResponse where
  ok : Bool
  status : Option TickStatus

/-- `QueryContractFunctionResponse` -/
structure QueryContractFunctionResponse where
  ok : Bool
  output : Bytes

/-- `BroadcastTransactionResponse` -/
structure BroadcastTransactionResponse where
  ok : Bool
  txId : List Char

/-- `QlnTickFallback` -/
structure QlnTickFallback where
  epoch : Option Nat
  initialTick : Nat

/-- `QlnTickFallback::default` -/
def QlnTickFallback.default : QlnTickFallback where
  epoch := none
  initialTick := 0

/-- The fallback after a status. -/
def QlnTickFallback.update (status : TickStatus) (fallback : QlnTickFallback) : QlnTickFallback :=
  if status.initialTick ≠ 0 then
    { epoch := some status.epoch, initialTick := status.initialTick }
  else if fallback.epoch ≠ some status.epoch then
    { epoch := some status.epoch, initialTick := status.tick }
  else fallback

/-- `normalize_qln_tick_info` -/
def normalizeQlnTickInfo (status : TickStatus) (fallback : QlnTickFallback) :
    TickInfo × QlnTickFallback :=
  let fallback := fallback.update status
  ({ epoch := status.epoch
     tick := status.tick
     initialTick := fallback.initialTick
     tickDurationMs :=
       if status.tickDurationMs = 0 then defaultTickDurationMs else status.tickDurationMs
     tick_le := status.tick_le }, fallback)

/-- `QlnBackend::tick_info` -/
def tickInfo (texts : PackageTexts) (answer : Except GrpcCode GetStatusResponse)
    (fallback : QlnTickFallback) : Except String TickInfo × QlnTickFallback :=
  match answer with
  | .error code => (.error ("QLN status failed: " ++ texts.grpcDescription code), fallback)
  | .ok response =>
    if response.ok = false then (.error "QLN status failed", fallback)
    else
      match response.status with
      | none => (.error "QLN status response is missing status", fallback)
      | some status =>
        let normalized := normalizeQlnTickInfo status fallback
        (.ok normalized.1, normalized.2)

/-- `QlnBackend::tick_has_transactions` -/
def tickHasTransactions (texts : PackageTexts) (tick : Nat)
    (answer : Except GrpcCode GetTickTransactionsResponse) : Except String TickTransactions :=
  match answer with
  | .error code => .error ("QLN tick-data query failed: " ++ texts.grpcDescription code)
  | .ok response => qlnTickHasTransactions response tick

/-- `QlnBackend::query_contract_function` -/
def queryContractFunction (texts : PackageTexts)
    (answer : Except GrpcCode QueryContractFunctionResponse) : Except String Bytes :=
  match answer with
  | .error code => .error ("QLN contract query failed: " ++ texts.grpcDescription code)
  | .ok response =>
    if response.ok then .ok response.output else .error "QLN contract query failed"

/-- `QlnBackend::broadcast_transaction` -/
def broadcastTransaction (answer : Except GrpcCode BroadcastTransactionResponse) :
    Except String (List Char) :=
  match answer with
  | .error _ => .error "QLN broadcast request failed"
  | .ok response =>
    if response.ok then validateTransactionId response.txId
    else .error "QLN rejected broadcast request"

variable {texts : PackageTexts}

/-! ## What the adapter accepts -/

/-- The status a reply carries, if it carries one. -/
def statusOf : Except GrpcCode GetStatusResponse → Option TickStatus
  | .error _ => none
  | .ok response => if response.ok then response.status else none

/-- A reply without a status is an error and leaves the fallback alone. -/
theorem tickInfo_cases (answer : Except GrpcCode GetStatusResponse) (fallback : QlnTickFallback) :
    (∃ status, statusOf answer = some status ∧
      tickInfo texts answer fallback = (.ok (normalizeQlnTickInfo status fallback).1,
        fallback.update status)) ∨
    (statusOf answer = none ∧ ∃ err, tickInfo texts answer fallback = (.error err, fallback)) := by
  cases answer with
  | error code => exact .inr ⟨rfl, _, rfl⟩
  | ok response =>
    simp only [statusOf, tickInfo]
    cases response.ok with
    | false => exact .inr ⟨rfl, _, rfl⟩
    | true =>
      cases response.status with
      | none => exact .inr ⟨rfl, _, rfl⟩
      | some status => exact .inl ⟨status, rfl, rfl⟩

theorem broadcastTransaction_eq_ok {answer : Except GrpcCode BroadcastTransactionResponse}
    {id : List Char} :
    broadcastTransaction answer = .ok id ↔
      ∃ response, answer = .ok response ∧ response.ok = true ∧ id = response.txId ∧
        trim id ≠ [] := by
  constructor
  · intro h
    unfold broadcastTransaction at h
    split at h
    · cases h
    · next response =>
      split at h
      · next hok =>
        rcases validateTransactionId_eq_ok.1 h with ⟨hid, hne⟩
        exact ⟨response, rfl, hok, hid, hne⟩
      · cases h
  · rintro ⟨response, rfl, hok, hid, hne⟩
    exact (if_pos hok).trans (validateTransactionId_eq_ok.2 ⟨hid, hne⟩)

/-! ## What its failures say -/

theorem tickInfo_discreet (answer : Except GrpcCode GetStatusResponse)
    (fallback : QlnTickFallback) : Discreet texts (tickInfo texts answer fallback).1 := by
  cases answer with
  | error code => exact .error (.coded (by decide) code)
  | ok response =>
    simp only [tickInfo]
    split
    · exact .fixed (by decide)
    · split
      · exact .fixed (by decide)
      · exact .ok _

theorem readDigests_discreet {list : List Bytes} :
    ∀ {seen : Finset Digest} {digests : List Digest}, Discreet texts (readDigests seen digests list) := by
  induction list with
  | nil => exact .ok _
  | cons bytes rest ih =>
    intro seen digests
    unfold readDigests
    split
    · exact .fixed (by decide)
    · split
      · exact .fixed (by decide)
      · exact ih

theorem tickHasTransactions_discreet (tick : Nat)
    (answer : Except GrpcCode GetTickTransactionsResponse) :
    Discreet texts (tickHasTransactions texts tick answer) := by
  cases answer with
  | error code => exact .error (.coded (by decide) code)
  | ok response =>
    change Discreet texts (qlnTickHasTransactions response tick)
    unfold qlnTickHasTransactions
    split
    · exact .fixed (by decide)
    · split
      · exact .fixed (by decide)
      · split
        · split
          · exact .fixed (by decide)
          · exact .ok _
        · split
          · exact .fixed (by decide)
          · exact readDigests_discreet.bind fun digests _ => .ok _

theorem queryContractFunction_discreet
    (answer : Except GrpcCode QueryContractFunctionResponse) :
    Discreet texts (queryContractFunction texts answer) := by
  cases answer with
  | error code => exact .error (.coded (by decide) code)
  | ok response =>
    simp only [queryContractFunction]
    split
    · exact .ok _
    · exact .fixed (by decide)

theorem broadcastTransaction_discreet
    (answer : Except GrpcCode BroadcastTransactionResponse) :
    Discreet texts (broadcastTransaction answer) := by
  cases answer with
  | error code => exact .fixed (by decide)
  | ok response =>
    simp only [broadcastTransaction]
    split
    · exact validateTransactionId_discreet _
    · exact .fixed (by decide)

/-! ## The remembered initial tick -/

/-- The fallback after the statuses. -/
def fallbackAfter (statuses : List TickStatus) : QlnTickFallback :=
  statuses.foldl (fun fallback status => fallback.update status) .default

theorem fallbackAfter_snoc (statuses : List TickStatus) (status : TickStatus) :
    fallbackAfter (statuses ++ [status]) = (fallbackAfter statuses).update status := by
  unfold fallbackAfter
  rw [List.foldl_append]
  rfl

/-- The statuses since the epoch last changed. -/
def runningStatuses (statuses : List TickStatus) : List TickStatus :=
  Block.lastBlock TickStatus.epoch statuses

/-- The newest initial tick that statuses of one epoch name, and the tick of the
first of them if none names one. -/
def initialTickOf (running : List TickStatus) : Nat :=
  match (running.filter fun status => status.initialTick ≠ 0).getLast? with
  | some status => status.initialTick
  | none => (running.head?.map TickStatus.tick).getD 0

theorem initialTickOf_named {running : List TickStatus} {status : TickStatus}
    (h : status.initialTick ≠ 0) : initialTickOf (running ++ [status]) = status.initialTick := by
  unfold initialTickOf
  rw [List.filter_append, List.filter_singleton, decide_eq_true h, cond_true,
    List.getLast?_concat]

theorem initialTickOf_unnamed {running : List TickStatus} {status : TickStatus}
    (h : status.initialTick = 0) (hne : running ≠ []) :
    initialTickOf (running ++ [status]) = initialTickOf running := by
  unfold initialTickOf
  rw [List.filter_append, List.filter_singleton, decide_eq_false (not_not.2 h),
    cond_false, List.append_nil]
  rcases List.exists_cons_of_ne_nil hne with ⟨first, rest, rfl⟩
  rfl

/-- The fallback remembers the epoch of the last status and its initial tick. -/
theorem fallbackAfter_eq (statuses : List TickStatus) :
    fallbackAfter statuses =
      { epoch := statuses.getLast?.map TickStatus.epoch
        initialTick := initialTickOf (runningStatuses statuses) } := by
  induction statuses using List.reverseRecOn with
  | nil => rfl
  | append_singleton statuses status ih =>
    rw [fallbackAfter_snoc, List.getLast?_concat, Option.map_some]
    unfold runningStatuses at ih ⊢
    rw [Block.lastBlock_snoc]
    unfold QlnTickFallback.update
    by_cases hnamed : status.initialTick ≠ 0
    · -- the node knows the initial tick
      rw [if_pos hnamed]
      split
      · rw [initialTickOf_named hnamed]
      · rw [← List.nil_append [status], initialTickOf_named hnamed]
    · rw [if_neg hnamed]
      rw [not_not] at hnamed
      rw [ih]
      by_cases hsame : statuses.getLast?.map TickStatus.epoch = some status.epoch
      · -- the epoch goes on, and the remembered tick stays
        have hne : Block.lastBlock TickStatus.epoch statuses ≠ [] := by
          rw [Ne, Block.lastBlock_eq_nil]
          rintro rfl
          cases hsame
        rw [if_neg (not_not.2 hsame), if_pos hsame, hsame, initialTickOf_unnamed hnamed hne]
      · rw [if_pos hsame, if_neg hsame]
        simp [initialTickOf, hnamed]

/-- What is reported as the initial tick after earlier statuses. -/
theorem initialTick_eq (statuses : List TickStatus) (status : TickStatus) :
    (normalizeQlnTickInfo status (fallbackAfter statuses)).1.initialTick =
      initialTickOf (runningStatuses (statuses ++ [status])) := by
  change ((fallbackAfter statuses).update status).initialTick = _
  rw [← fallbackAfter_snoc, fallbackAfter_eq]

end RandomClient.Lightnode
