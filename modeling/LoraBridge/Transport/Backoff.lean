/-! The delays between attempts to connect. -/
namespace LoraBridge.Transport

/-- The delays of the first attempts in milliseconds, and the delay of all others. -/
structure Backoff where
  pattern : List UInt64
  sustained : UInt64
deriving DecidableEq

namespace Backoff

def default : Backoff := ⟨[100, 250, 500, 1000], 2000⟩

def delay (b : Backoff) (attempt : Nat) : UInt64 :=
  b.pattern[attempt - 1]?.getD b.sustained

end Backoff

end LoraBridge.Transport
