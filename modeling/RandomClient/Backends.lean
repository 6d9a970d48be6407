import RandomClient.Bob
import RandomClient.Lightnode
import RandomClient.Rpc

/-!
# The three backends

`create_backend` picks one of the three implementations of `NetworkBackend`.
Whatever a node answers, a failure says nothing of the answer but numbers
(`backend_failures_announced`).
-/

namespace RandomClient

/-- The parsers of response bodies, the base64 decoder, the printing of the
errors `decode_hex` wraps and the texts of the other packages. -/
structure Decoders where
  json : Bytes → Option Json.Value
  tickInfo : Bytes → Option Rpc.TickInfoModel
  tickData : Bytes → Option (Option Rpc.TickDataModel)
  broadcast : Bytes → Option Rpc.BroadcastModel
  base64 : List Char → Except Base64Error Bytes
  hexDetail : HexError → String
  texts : PackageTexts

/-- `RpcBackend`. A reply is the response to the request, or none if it could not be sent. -/
def rpcBackend (decoders : Decoders) : NetworkBackend where
  State := Unit
  start := ()
  TickReply := Option HttpResponse
  TransactionsReply := Option HttpResponse
  QueryReply := Option HttpResponse
  BroadcastReply := Option HttpResponse
  tickInfo sent state := (Rpc.tickInfo (sendJson decoders.tickInfo sent), state)
  tickHasTransactions tick sent := Rpc.tickHasTransactions tick (sendJson decoders.tickData sent)
  queryContractFunction sent :=
    some (Rpc.queryContractFunction decoders.texts decoders.base64 (sendJson decoders.json sent))
  broadcastTransaction sent := Rpc.broadcastTransaction (sendJson decoders.broadcast sent)

/-- The response to a JSON-RPC request, with the id the request took. -/
structure BobReply where
  id : Nat
  sent : Option HttpResponse

/-- The responses to the polls of one contract query, each with the instant after it. -/
structure BobQuery where
  deadline : Nat
  polls : List (BobReply × Nat)

/-- `BobBackend` -/
def bobBackend (decoders : Decoders) : NetworkBackend where
  State := Unit
  start := ()
  TickReply := BobReply
  TransactionsReply := BobReply
  QueryReply := BobQuery
  BroadcastReply := BobReply
  tickInfo reply state := (Bob.tickInfo (Bob.call decoders.json reply.id reply.sent), state)
  tickHasTransactions _ reply :=
    Bob.tickHasTransactions (Bob.call decoders.json reply.id reply.sent)
  queryContractFunction query :=
    RandomClient.queryContractFunction decoders.hexDetail networkTimeoutMs query.deadline
      (query.polls.map fun poll =>
        Bob.pollRound (Bob.call decoders.json poll.1.id poll.1.sent) poll.2)
  broadcastTransaction reply :=
    Bob.broadcastTransaction (Bob.call decoders.json reply.id reply.sent)

/-- `QlnBackend` -/
def qlnBackend (decoders : Decoders) : NetworkBackend where
  State := Lightnode.QlnTickFallback
  start := .default
  TickReply := Except GrpcCode Lightnode.GetStatusResponse
  TransactionsReply := Except GrpcCode GetTickTransactionsResponse
  QueryReply := Except GrpcCode Lightnode.QueryContractFunctionResponse
  BroadcastReply := Except GrpcCode Lightnode.BroadcastTransactionResponse
  tickInfo := Lightnode.tickInfo decoders.texts
  tickHasTransactions := Lightnode.tickHasTransactions decoders.texts
  queryContractFunction answer := some (Lightnode.queryContractFunction decoders.texts answer)
  broadcastTransaction := Lightnode.broadcastTransaction

/-- `create_backend` -/
def createBackend (decoders : Decoders) : BackendKind → NetworkBackend
  | .rpc => rpcBackend decoders
  | .bob => bobBackend decoders
  | .grpc => qlnBackend decoders

/-! ## What failures say -/

/-- A failure of any of the four requests says only what is announced. -/
structure NetworkBackend.Discreet (texts : PackageTexts) (backend : NetworkBackend) : Prop where
  tickInfo : ∀ reply state, RandomClient.Discreet texts (backend.tickInfo reply state).1
  tickHasTransactions : ∀ tick reply,
    RandomClient.Discreet texts (backend.tickHasTransactions tick reply)
  queryContractFunction : ∀ reply outcome, backend.queryContractFunction reply = some outcome →
    RandomClient.Discreet texts outcome
  broadcastTransaction : ∀ reply, RandomClient.Discreet texts (backend.broadcastTransaction reply)

theorem rpcBackend_discreet (decoders : Decoders) :
    (rpcBackend decoders).Discreet decoders.texts where
  tickInfo sent _ := Rpc.tickInfo_discreet (sendJson decoders.tickInfo sent)
  tickHasTransactions tick sent :=
    Rpc.tickHasTransactions_discreet tick (sendJson decoders.tickData sent)
  queryContractFunction sent outcome h := by
    cases h
    exact Rpc.queryContractFunction_discreet decoders.base64 (sendJson decoders.json sent)
  broadcastTransaction sent :=
    Rpc.broadcastTransaction_discreet (sendJson decoders.broadcast sent)

theorem bobBackend_discreet (decoders : Decoders) :
    (bobBackend decoders).Discreet decoders.texts where
  tickInfo reply _ := Bob.tickInfo_discreet (Bob.call decoders.json reply.id reply.sent)
  tickHasTransactions _ reply :=
    Bob.tickHasTransactions_discreet (Bob.call decoders.json reply.id reply.sent)
  queryContractFunction query outcome h := by
    -- the outcome is that of the poll which ended the query
    rcases List.exists_of_findSome?_eq_some h with ⟨round, hmem, hround⟩
    rcases List.mem_map.1 hmem with ⟨poll, -, rfl⟩
    exact Bob.pollRound_discreet decoders.hexDetail query.deadline _ poll.2 hround
  broadcastTransaction reply :=
    Bob.broadcastTransaction_discreet (Bob.call decoders.json reply.id reply.sent)

theorem qlnBackend_discreet (decoders : Decoders) :
    (qlnBackend decoders).Discreet decoders.texts where
  tickInfo := Lightnode.tickInfo_discreet
  tickHasTransactions := Lightnode.tickHasTransactions_discreet
  queryContractFunction answer outcome h := by
    cases h
    exact Lightnode.queryContractFunction_discreet answer
  broadcastTransaction := Lightnode.broadcastTransaction_discreet

/-- Whatever the node answers to whatever request, and whichever backend is
chosen: a failure says only what is announced. -/
theorem backend_failures_announced (decoders : Decoders) (kind : BackendKind) :
    (createBackend decoders kind).Discreet decoders.texts := by
  cases kind with
  | rpc => exact rpcBackend_discreet decoders
  | bob => exact bobBackend_discreet decoders
  | grpc => exact qlnBackend_discreet decoders

end RandomClient
