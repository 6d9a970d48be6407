import RandomClient.Backend
import RandomClient.Lib.Json
import RandomClient.TickData

/-!
# The RPC backend

The public RPC answers with typed JSON models. Their parsers and the base64
decoder are parameters; the adapter checks what the models carry.
-/

namespace RandomClient.Rpc

open Json (Value)

/-- `TickInfoResponse::tick_info`: four `u32` values. -/
structure TickInfoModel where
  epoch : Nat
  tick : Nat
  initialTick : Nat
  duration : Nat
  tick_le : tick ≤ u32Max

/-- `GetTickDataResponse::tick_data`. -/
structure TickDataModel where
  tickNumber : Nat
  transactionHashes : List (List Char)

/-- `BroadcastTransactionResponse` -/
structure BroadcastModel where
  peersBroadcasted : Int
  transactionId : List Char

/-- `normalize_rpc_tick_duration_ms` -/
def normalizeRpcTickDurationMs (durationMs : Nat) : Nat :=
  if durationMs = 0 then defaultTickDurationMs else durationMs

/-- `RpcBackend::tick_info` -/
def tickInfo (answer : Except HttpError TickInfoModel) : Except String TickInfo :=
  match answer with
  | .error _ => .error "RPC tick-info failed"
  | .ok model => .ok
      { epoch := model.epoch
        tick := model.tick
        initialTick := model.initialTick
        tickDurationMs := normalizeRpcTickDurationMs model.duration
        tick_le := model.tick_le }

/-- `RpcBackend::tick_has_transactions` -/
def tickHasTransactions (tick : Nat) (answer : Except HttpError (Option TickDataModel)) :
    Except String TickTransactions :=
  match answer with
  | .error _ => .error "RPC tick-data query failed"
  | .ok (some data) =>
    if data.tickNumber ≠ tick then .error "RPC returned a different tick"
    else .ok (TickTransactions.ofPresence (!data.transactionHashes.isEmpty))
  | .ok none => .ok (TickTransactions.ofPresence false)

/-- `decode_rpc_contract_response` -/
def decodeRpcContractResponse (texts : PackageTexts)
    (base64Decode : List Char → Except Base64Error Bytes) (value : Value) :
    Except String Bytes :=
  match ["responseData", "data", "result"].findSome? fun key => (value.get key).bind Value.asStr with
  | none => .error "RPC contract response contains no base64 output"
  | some encoded =>
    (base64Decode encoded).mapError fun err =>
      "RPC returned invalid base64 output: " ++ texts.base64Message err

/-- `RpcBackend::query_contract_function` -/
def queryContractFunction (texts : PackageTexts)
    (base64Decode : List Char → Except Base64Error Bytes) (answer : Except HttpError Value) :
    Except String Bytes :=
  match answer with
  | .error _ => .error "RPC contract query failed"
  | .ok value => decodeRpcContractResponse texts base64Decode value

/-- `RpcBackend::broadcast_transaction` -/
def broadcastTransaction (answer : Except HttpError BroadcastModel) : Except String (List Char) :=
  match answer with
  | .error _ => .error "RPC broadcast request failed"
  | .ok model =>
    if 0 < model.peersBroadcasted then validateTransactionId model.transactionId
    else if model.peersBroadcasted = 0 then .error "RPC broadcast reached no peers"
    else .error ("RPC broadcast returned invalid peersBroadcasted value: " ++
      toString model.peersBroadcasted)

/-! ## What the adapter accepts -/

theorem tickHasTransactions_eq_ok {tick : Nat} {answer : Except HttpError (Option TickDataModel)}
    {observation : TickTransactions} :
    tickHasTransactions tick answer = .ok observation ↔
      ∃ data, answer = .ok data ∧ (∀ model, data = some model → model.tickNumber = tick) ∧
        observation = TickTransactions.ofPresence
          (data.any fun model => !model.transactionHashes.isEmpty) := by
  constructor
  · intro h
    unfold tickHasTransactions at h
    split at h
    · cases h
    · next data =>
      split at h
      · cases h
      · next htick =>
        cases h
        refine ⟨some data, rfl, ?_, rfl⟩
        rintro model ⟨⟩
        exact not_not.1 htick
    · cases h
      refine ⟨none, rfl, ?_, rfl⟩
      rintro model ⟨⟩
  · rintro ⟨data, rfl, htick, rfl⟩
    cases data with
    | none => rfl
    | some model =>
      exact if_neg (not_not.2 (htick model rfl))

theorem broadcastTransaction_eq_ok {answer : Except HttpError BroadcastModel} {id : List Char} :
    broadcastTransaction answer = .ok id ↔
      ∃ model, answer = .ok model ∧ 0 < model.peersBroadcasted ∧ id = model.transactionId ∧
        trim id ≠ [] := by
  constructor
  · intro h
    unfold broadcastTransaction at h
    split at h
    · cases h
    · next model =>
      split at h
      · next hpeers =>
        rcases validateTransactionId_eq_ok.1 h with ⟨hid, hne⟩
        exact ⟨model, rfl, hpeers, hid, hne⟩
      · split at h <;> cases h
  · rintro ⟨model, rfl, hpeers, hid, hne⟩
    exact (if_pos hpeers).trans (validateTransactionId_eq_ok.2 ⟨hid, hne⟩)

/-! ## What its failures say -/

variable {texts : PackageTexts}

theorem tickInfo_discreet (answer : Except HttpError TickInfoModel) : Discreet texts (tickInfo answer) := by
  cases answer with
  | error err => exact .fixed (by decide)
  | ok model => exact .ok _

theorem tickHasTransactions_discreet (tick : Nat)
    (answer : Except HttpError (Option TickDataModel)) :
    Discreet texts (tickHasTransactions tick answer) := by
  unfold tickHasTransactions
  split
  · exact .fixed (by decide)
  · split
    · exact .fixed (by decide)
    · exact .ok _
  · exact .ok _

theorem queryContractFunction_discreet (base64Decode : List Char → Except Base64Error Bytes)
    (answer : Except HttpError Value) : Discreet texts (queryContractFunction texts base64Decode answer) := by
  cases answer with
  | error err => exact .fixed (by decide)
  | ok value =>
    change Discreet texts (decodeRpcContractResponse texts base64Decode value)
    unfold decodeRpcContractResponse
    split
    · exact .fixed (by decide)
    · next encoded _ =>
      cases base64Decode encoded with
      | error err => exact .error (.base64 err)
      | ok bytes => exact .ok _

theorem broadcastTransaction_discreet (answer : Except HttpError BroadcastModel) :
    Discreet texts (broadcastTransaction answer) := by
  unfold broadcastTransaction
  split
  · exact .fixed (by decide)
  · next model =>
    split
    · exact validateTransactionId_discreet _
    · split
      · exact .fixed (by decide)
      · have h := @Announced.numbered texts "RPC broadcast returned invalid peersBroadcasted value: " ""
          (by decide) model.peersBroadcasted
        rw [String.append_empty] at h
        exact .error h

end RandomClient.Rpc
