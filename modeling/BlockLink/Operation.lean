import BlockLink.Bus.Link
import BlockLink.Command
import BlockLink.Savestate

/-!
Everything that can be done to a link, as values, and whole runs of it.
-/

namespace BlockLink

/-- How a call reaches an instance. -/
inductive Route where
  /-- To the model itself. -/
  | direct
  /-- Through the register driver. -/
  | registers
deriving DecidableEq

/-- Something that is done to a link. -/
inductive Operation where
  | call (route : Route) (side : Side) (command : Command)
  | readRegister (side : Side) (address : UInt32)
  | writeRegister (side : Side) (address word : UInt32)
  | advance (cycles : Time)
  | reset
  | reportStatus (side : Side)
  | restore (bytes : List UInt8)
deriving DecidableEq

/-- What an operation answers. -/
inductive Answer where
  | done
  | reply (reply : Reply)
  | word (word : UInt32)
  | fault (fault : Fault)
  | malformed (malformed : Savestate.Malformed)
deriving DecidableEq

namespace Answer

def ofReply : Except Fault Reply → Answer
  | .ok given => reply given
  | .error raised => fault raised

def ofWord : Except Fault UInt32 → Answer
  | .ok value => word value
  | .error raised => fault raised

end Answer

namespace Link

/-- Carry out a call on one side. -/
def call (route : Route) (side : Side) (command : Command) :
    Step Event Link (Except Fault Reply) :=
  match route with
  | .direct => Endpoint.perform side command
  | .registers => Driver.perform (bus side) command

def perform : Operation → Step Event Link Answer
  | .call route side command => Answer.ofReply <$> call route side command
  | .readRegister side address => Answer.ofWord <$> readRegister side address
  | .writeRegister side address word => do writeRegister side address word; return .done
  | .advance cycles => do advance cycles; return .done
  | .reset => do reset; return .done
  | .reportStatus side => do reportStatus side; return .done
  | .restore bytes => do
    match ← restore bytes with
    | .ok () => return .done
    | .error malformed => return .malformed malformed

/-- Carry out operations in order and collect their answers. -/
def performAll : List Operation → Step Event Link (List Answer)
  | [] => return []
  | operation :: rest => do
    let answer ← perform operation
    let answers ← performAll rest
    return answer :: answers

end Link

end BlockLink
