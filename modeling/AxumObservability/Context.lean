import AxumObservability.TraceState

/-!
# The request context

The correlation metadata of one request: its identifier, the accepted trace
context if there is one, and the correlation identifier derived from the two.
-/

namespace AxumObservability

/-- The correlation identifier: the trace identifier when a trace context was
accepted, the request identifier otherwise. -/
def correlationOf (requestId : RequestId) (traceContext : Option TraceContext) : String :=
  match traceContext with
  | none => requestId.asStr
  | some trace => trace.traceId

structure RequestContext where
  requestId : RequestId
  correlationId : String
  traceContext : Option TraceContext
  correlated : correlationId = correlationOf requestId traceContext
  deriving DecidableEq

def RequestContext.new (requestId : RequestId) (traceContext : Option TraceContext) :
    RequestContext :=
  ⟨requestId, correlationOf requestId traceContext, traceContext, rfl⟩

/-- The operation name an application attaches to a request or a response. -/
structure OperationId where
  value : String
  nonempty : value ≠ ""
  deriving DecidableEq

def OperationId.asStr (operation : OperationId) : String := operation.value

end AxumObservability
