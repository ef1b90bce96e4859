import LoraBridge.Duration

/-! Why a request to the broker fails. -/
namespace LoraBridge.Transport

inductive Error where
  | request (reason : String)
  | ackTimeout (operation : String) (timeout : Duration)
  | rejected (what : String)
  | connectionLost (operation : String)
  | shutdown
  | failed (reason : String)
deriving DecidableEq

def Error.message : Error → String
  | .request reason => s!"Request could not be queued: {reason}"
  | .ackTimeout operation timeout =>
    s!"No acknowledgement for {operation} within {timeout.text}"
  | .rejected what => s!"Broker rejected {what}"
  | .connectionLost operation => s!"Connection lost before {operation} was acknowledged"
  | .shutdown => "Transport is shut down"
  | .failed reason => s!"Broker request failed: {reason}"

def networkUnreachable : String := "I/O: Network is unreachable (os error 101)"

end LoraBridge.Transport
