/-!
The ordinary ways in which a call is refused. None of them leaves an instance
unusable.
-/

namespace BlockLink

/-- Why a call was not carried out. -/
inductive Refusal where
  /-- An argument is out of range. -/
  | invalidArgument
  /-- The FIFO is full or empty, or no message is open. -/
  | unavailable
  /-- The next block ends a message and waits to be confirmed. -/
  | blocked
  /-- A status flag did not reach the expected value in time. -/
  | timeout
deriving DecidableEq

namespace Refusal

def message : Refusal → String
  | invalidArgument => "invalid argument"
  | unavailable => "FIFO not ready"
  | blocked => "final block of message awaits confirmation"
  | timeout => "timed out waiting for status flag"

/-- Whether the same call can succeed later without any other action of the caller. -/
def isRetryable : Refusal → Bool
  | unavailable | timeout => true
  | invalidArgument | blocked => false

end Refusal

end BlockLink
