import RandomClient.Endpoint
import RandomClient.Http

/-!
# Network backends

`NetworkBackend` is what the engine asks of a node. Each of the three backends
reads the answers of its own protocol; what the engine sees of an answer is a
value without any of the protocol in it, or a text. `Announced` lists the texts:
besides numbers they hold nothing a node chose.
-/

namespace RandomClient

/-- `NETWORK_TIMEOUT`, in milliseconds. -/
def networkTimeoutMs : Nat := 8000

/-- `DEFAULT_TICK_DURATION_MS` -/
def defaultTickDurationMs : Nat := 1000

/-- A `u32`. -/
abbrev U32 := { n : Nat // n ≤ u32Max }

/-- `NetworkBackend`. A reply is what one request of the protocol gave, failures
of the transport included. `State` is what the backend keeps between requests.
A contract query may still be waiting for the node, and then has no outcome. -/
structure NetworkBackend where
  State : Type
  start : State
  TickReply : Type
  TransactionsReply : Type
  QueryReply : Type
  BroadcastReply : Type
  tickInfo : TickReply → State → Except String TickInfo × State
  tickHasTransactions : Nat → TransactionsReply → Except String TickTransactions
  queryContractFunction : QueryReply → Option (Except String Bytes)
  broadcastTransaction : BroadcastReply → Except String (List Char)

/-- `validate_transaction_id` -/
def validateTransactionId (transactionId : List Char) : Except String (List Char) :=
  if trim transactionId = [] then .error "broadcast returned an empty transaction id"
  else .ok transactionId

theorem validateTransactionId_eq_ok {transactionId id : List Char} :
    validateTransactionId transactionId = .ok id ↔ id = transactionId ∧ trim id ≠ [] := by
  unfold validateTransactionId
  split
  · next hblank =>
    constructor
    · intro h
      cases h
    · rintro ⟨rfl, hne⟩
      exact absurd hblank hne
  · next hne =>
    constructor
    · intro h
      cases h
      exact ⟨rfl, hne⟩
    · rintro ⟨rfl, -⟩
      rfl

/-! ## What a failure says -/

/-- The status codes of gRPC. -/
inductive GrpcCode where
  | ok | cancelled | unknown | invalidArgument | deadlineExceeded | notFound | alreadyExists
  | permissionDenied | resourceExhausted | failedPrecondition | aborted | outOfRange
  | unimplemented | internal | unavailable | dataLoss | unauthenticated
deriving DecidableEq

/-- `base64::DecodeError`. Symbols and offsets are numbers. -/
inductive Base64Error where
  | invalidByte (offset : Nat) (symbol : UInt8)
  | invalidLength (length : Nat)
  | invalidLastSymbol (offset : Nat) (symbol : UInt8)
  | invalidPadding
deriving DecidableEq

/-- The texts of the packages below the backends: how the transport describes a
status code, and how the decoder prints an error. -/
structure PackageTexts where
  grpcDescription : GrpcCode → String
  base64Message : Base64Error → String

/-- The texts without a number. -/
def fixedTexts : List String :=
  ["RPC tick-info failed", "RPC tick-data query failed", "RPC returned a different tick",
    "RPC contract query failed", "RPC contract response contains no base64 output",
    "RPC broadcast request failed", "RPC broadcast reached no peers",
    "Bob status failed", "Bob tick-data query failed", "Bob contract query failed",
    "Bob broadcast request failed", "Bob broadcast response was invalid",
    "Bob broadcast returned no transaction id",
    "Bob transfers response is missing transfers array",
    "Bob transfers response has an unexpected shape",
    "Bob response missing currentProcessingEpoch",
    "Bob response missing currentVerifyLoggingTick", "Bob response missing initialTick",
    "bob rpc error", "hex output has an odd length", "hex output contains a non-hex digit",
    "QLN status failed", "QLN status response is missing status", "QLN tick-data query failed",
    "QLN returned a different tick", "QLN returned an incomplete digest list",
    "QLN returned inconsistent tick digests", "QLN returned an invalid digest size",
    "QLN returned a zero or duplicate digest", "QLN contract query failed",
    "QLN broadcast request failed", "QLN rejected broadcast request",
    "broadcast returned an empty transaction id"]

/-- The texts around one number. -/
def numberedTexts : List (String × String) :=
  [("bob rpc error (code ", ")"), ("Bob contract query timed out after ", " ms"),
    ("Bob response currentProcessingEpoch is out of range: ", ""),
    ("Bob response currentVerifyLoggingTick is out of range: ", ""),
    ("Bob response initialTick is out of range: ", ""),
    ("RPC broadcast returned invalid peersBroadcasted value: ", "")]

/-- The texts in front of a gRPC status code. -/
def coded : List String :=
  ["QLN status failed: ", "QLN tick-data query failed: ", "QLN contract query failed: "]

/-- What a backend may say when a request fails: a fixed text, or one of a few
texts around a number, the description of a status code or an error of the
base64 decoder. -/
inductive Announced (texts : PackageTexts) : String → Prop where
  | fixed {text : String} (h : text ∈ fixedTexts) : Announced texts text
  | numbered {front back : String} (h : (front, back) ∈ numberedTexts) (n : Int) :
      Announced texts (front ++ toString n ++ back)
  | coded {front : String} (h : front ∈ coded) (code : GrpcCode) :
      Announced texts (front ++ texts.grpcDescription code)
  | base64 (err : Base64Error) :
      Announced texts ("RPC returned invalid base64 output: " ++ texts.base64Message err)

/-- The outcome, if it is a failure, says only what is announced. -/
def Discreet (texts : PackageTexts) {α : Type} (outcome : Except String α) : Prop :=
  ∀ err, outcome = .error err → Announced texts err

variable {texts : PackageTexts}

theorem Discreet.ok {α : Type} (value : α) : Discreet texts (.ok value : Except String α) := by
  intro err h
  cases h

theorem Discreet.error {α : Type} {text : String} (h : Announced texts text) :
    Discreet texts (.error text : Except String α) := by
  intro err herr
  cases herr
  exact h

theorem Discreet.fixed {α : Type} {text : String} (h : text ∈ fixedTexts) :
    Discreet texts (.error text : Except String α) := .error (.fixed h)

theorem Discreet.bind {α β : Type} {outcome : Except String α} {next : α → Except String β}
    (h : Discreet texts outcome)
    (hnext : ∀ value, outcome = .ok value → Discreet texts (next value)) :
    Discreet texts (outcome >>= next) := by
  cases outcome with
  | error err => exact .error (h err rfl)
  | ok value => exact hnext value rfl

theorem validateTransactionId_discreet (transactionId : List Char) :
    Discreet texts (validateTransactionId transactionId) := by
  unfold validateTransactionId
  split
  · exact .fixed (by decide)
  · exact .ok _

end RandomClient
