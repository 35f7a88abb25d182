import AerospikeClient.Error.Basic

/-!
# Errors from the proxy

`newGrpcError` classifies an error the gRPC library returned, and `newGrpcStatusError` the
status of a failed proxy response. The gRPC library is not among the sources: what it makes of
an error (one of the three sentinels `newGrpcError` compares against, or the code
`status.Code` reports) is an argument of the model.

Every error `newGrpcStatusError` builds carries the response's in-doubt flag
(`newGrpcStatusError_isInDoubt`), and its code is the status itself when that is not negative,
`SERVER_ERROR` for `-9`, and otherwise what the `switch` assigns, which is `types.OK`, the value
`resultCode` starts at, for every negative status the `switch` does not name
(`newGrpcStatusError_resultCode`).
-/

namespace AerospikeClient

/-- The gRPC status codes, `codes.Code`. -/
inductive Codes where
  | OK | Canceled | Unknown | InvalidArgument | DeadlineExceeded | NotFound | AlreadyExists
  | PermissionDenied | ResourceExhausted | FailedPrecondition | Aborted | OutOfRange
  | Unimplemented | Internal | Unavailable | DataLoss | Unauthenticated
deriving DecidableEq, Repr

/-- What the gRPC library makes of an error: `context.DeadlineExceeded`,
`grpc.ErrClientConnTimeout`, `grpc.ErrServerStopped`, or another error, with the code
`status.Code` reports for it (replaced by `status.Convert(e).Code()` when that is `Unknown`). -/
inductive GrpcClass where
  | deadlineExceeded
  | clientConnTimeout
  | serverStopped
  | status (code : Codes)
deriving DecidableEq, Repr

/-- The fields of the proxy's `kvs.AerospikeResponsePayload` that `newGrpcStatusError` reads:
`GetStatus()`, an `int32`, and `GetInDoubt()`. -/
structure AerospikeResponsePayload where
  Status : Int
  InDoubt : Bool
deriving DecidableEq, Repr

section Grpc

variable (types : Types)

/-- What `newGrpcError` returns once past its type assertion: `nil`, the `err()` copy of
`ErrNetTimeout`, `ErrServerNotAvailable` or `ErrNetwork`, a `newError` of a code, or, for the
codes the `switch` leaves, the final `GRPC_ERROR` wrapping the argument. -/
inductive GrpcCase where
  | nil
  | errNetTimeout
  | errServerNotAvailable
  | errNetwork
  | newError (code : ResultCode) (messages : List String)
  | grpcError
deriving DecidableEq, Repr

/-- The comparisons with the three sentinels and the `switch` on `code` in `newGrpcError`. -/
def grpcCase (messages : List String) : GrpcClass → GrpcCase
  | .deadlineExceeded => .errNetTimeout
  | .clientConnTimeout => .errNetTimeout
  | .serverStopped => .errServerNotAvailable
  | .status .OK => .nil
  | .status .Canceled => .errNetTimeout
  | .status .InvalidArgument => .newError types.PARAMETER_ERROR messages
  | .status .DeadlineExceeded => .errNetTimeout
  | .status .NotFound => .newError types.SERVER_NOT_AVAILABLE messages
  | .status .PermissionDenied => .newError types.FAIL_FORBIDDEN messages
  | .status .ResourceExhausted => .newError types.QUOTA_EXCEEDED messages
  | .status .FailedPrecondition => .newError types.PARAMETER_ERROR messages
  | .status .Aborted => .newError types.SERVER_ERROR []
  | .status .OutOfRange => .newError types.PARAMETER_ERROR messages
  | .status .Unimplemented => .newError types.SERVER_NOT_AVAILABLE messages
  | .status .Internal => .newError types.SERVER_ERROR messages
  | .status .Unavailable => .newError types.SERVER_NOT_AVAILABLE messages
  | .status .DataLoss => .errNetwork
  | .status .Unauthenticated => .newError types.NOT_AUTHENTICATED messages
  | .status .AlreadyExists => .grpcError
  | .status .Unknown => .grpcError

/-- The error a case returns, for the argument `e` and `messages`. -/
def GrpcCase.toError (e : List Link) (messages : List String) : GrpcCase → Option Error
  | .nil => none
  | .errNetTimeout => some (ErrNetTimeout types).err
  | .errServerNotAvailable => some (ErrServerNotAvailable types).err
  | .errNetwork => some (ErrNetwork types).err
  | .newError code messages => some (AerospikeClient.newError types code messages)
  | .grpcError => some ((AerospikeClient.newError types types.GRPC_ERROR messages).wrap e)

/-- `newGrpcError(e, messages...)`, with `grpc` what the gRPC library makes of `e`: an `Error`
with code `GRPC_ERROR` is returned as it is; the three sentinels and the status codes are
mapped to Aerospike errors; anything else is wrapped in a new `GRPC_ERROR`. -/
def newGrpcError (e : List Link) (grpc : GrpcClass) (messages : List String) : Option Error :=
  match Error.ofChain? e with
  | some ae =>
    if ae.resultCode = types.GRPC_ERROR then some ae
    else (grpcCase types messages grpc).toError types e messages
  | none => (grpcCase types messages grpc).toError types e messages

/-- The `switch` on a negative status in `newGrpcStatusError`: the code each case assigns, and
`types.OK`, the value `resultCode` starts at, for a status no case names. -/
def statusResultCode (status : Int) : ResultCode :=
  if status = -16 then types.BATCH_FAILED
  else if status = -15 then types.NO_RESPONSE
  else if status = -12 then types.MAX_ERROR_RATE
  else if status = -11 then types.MAX_RETRIES_EXCEEDED
  else if status = -10 then types.SERIALIZE_ERROR
  else if status = -8 then types.SERVER_NOT_AVAILABLE
  else if status = -7 then types.NO_AVAILABLE_CONNECTIONS_TO_NODE
  else if status = -5 then types.QUERY_TERMINATED
  else if status = -4 then types.SCAN_TERMINATED
  else if status = -3 then types.INVALID_NODE_ERROR
  else if status = -2 then types.PARSE_ERROR
  else if status = -1 then types.COMMON_ERROR
  else types.OK

/-- `newGrpcStatusError(res)`: a status that is not negative is the code itself; `-9`
(`ASYNC_QUEUE_FULL`) returns a `SERVER_ERROR` early; other statuses go through the `switch`.
Every path marks the error with the response's in-doubt flag. -/
def newGrpcStatusError (res : AerospikeResponsePayload) : Error :=
  if res.Status ≥ 0 then (newError types res.Status []).markInDoubt res.InDoubt
  else if res.Status = -9 then
    (newError types types.SERVER_ERROR ["Server ASYNC_QUEUE_FULL"]).markInDoubt res.InDoubt
  else (newError types (statusResultCode types res.Status) []).markInDoubt res.InDoubt

/-- The in-doubt flag of a proxy error is the response's. -/
theorem newGrpcStatusError_isInDoubt (res : AerospikeResponsePayload) :
  (newGrpcStatusError types res).isInDoubt = res.InDoubt
  := by
  unfold newGrpcStatusError
  split_ifs <;> rfl

/-- The code of a proxy error: the status when it is not negative, `SERVER_ERROR` for `-9`, and
the `switch`'s code otherwise. -/
theorem newGrpcStatusError_resultCode (res : AerospikeResponsePayload) :
  (newGrpcStatusError types res).resultCode =
    if res.Status ≥ 0 then res.Status
    else if res.Status = -9 then types.SERVER_ERROR
    else statusResultCode types res.Status
  := by
  unfold newGrpcStatusError
  split_ifs <;> rfl

/-- A negative status the `switch` does not name is classified `types.OK`. -/
theorem statusResultCode_unnamed (status : Int)
    (h : status ∉ [-16, -15, -12, -11, -10, -8, -7, -5, -4, -3, -2, -1]) :
  statusResultCode types status = types.OK
  := by
  simp only [List.mem_cons, List.mem_singleton, not_or] at h
  obtain ⟨h16, h15, h12, h11, h10, h8, h7, h5, h4, h3, h2, h1, -⟩ := h
  simp [statusResultCode, h16, h15, h12, h11, h10, h8, h7, h5, h4, h3, h2, h1]

/-- A proxy response with status `-6` fails with an error whose code is `types.OK`. -/
theorem newGrpcStatusError_minus_six (inDoubt : Bool) :
  (newGrpcStatusError types ⟨-6, inDoubt⟩).resultCode = types.OK ∧
    (newGrpcStatusError types ⟨-6, inDoubt⟩).isInDoubt = inDoubt
  := by
  refine ⟨?_, newGrpcStatusError_isInDoubt types _⟩
  rw [newGrpcStatusError_resultCode, if_neg (show ¬(-6 : Int) ≥ 0 by decide),
    if_neg (show (-6 : Int) ≠ -9 by decide)]
  exact statusResultCode_unnamed types (-6) (by decide)

end Grpc

end AerospikeClient
