import BlockLink.Driver
import BlockLink.Link.Endpoint

/-!
The calls on an instance as values. Every call can go to the model directly or
through the register driver, and both give replies of the same form.
-/

namespace BlockLink

/-- A call on one instance. -/
inductive Command where
  | setWatermark (queue : Queue) (level : UInt64)
  | openMessage
  | closeMessage
  | confirm
  | load (block : Block)
  | read
  | status
  | now
  | waitFor (aim : Watch.Aim)
deriving DecidableEq

/-- The answer to a call. -/
inductive Reply where
  | done
  | block (block : Block)
  | status (status : Status)
  | time (time : Time)
  | refused (refusal : Refusal)
deriving DecidableEq

namespace Reply

def ofUnit : Except Refusal Unit → Reply
  | .ok () => .done
  | .error refusal => .refused refusal

def ofBlock : Except Refusal Block → Reply
  | .ok words => .block words
  | .error refusal => .refused refusal

end Reply

namespace Endpoint

/-- Waiting on the status of one side. -/
def watch (side : Side) : Watch Link where
  status := .ok <$> status side
  now

/-- Carry out a call on the model. -/
def perform (side : Side) : Command → Step Event Link (Except Fault Reply)
  | .setWatermark queue level => do return .ok (.ofUnit (← setWatermark side queue level))
  | .openMessage => do openMessage side; return .ok .done
  | .closeMessage => do closeMessage side; return .ok .done
  | .confirm => do confirm side; return .ok .done
  | .load block => do return .ok (.ofUnit (← load side block))
  | .read => do return .ok (.ofBlock (← read side))
  | .status => do return .ok (.status (← status side))
  | .now => do return .ok (.time (← now))
  | .waitFor aim => do return Reply.ofUnit <$> (← (watch side).waitFor aim)

end Endpoint

namespace Driver

variable {State : Type}

/-- Carry out a call through the registers on a bus. -/
def perform (bus : Bus State) : Command → Step Event State (Except Fault Reply)
  | .setWatermark queue level => do
    return Reply.ofUnit <$> (← (setWatermark queue level).run bus)
  | .openMessage => do return (fun _ => Reply.done) <$> (← openMessage.run bus)
  | .closeMessage => do return (fun _ => Reply.done) <$> (← closeMessage.run bus)
  | .confirm => do return (fun _ => Reply.done) <$> (← confirm.run bus)
  | .load block => do return Reply.ofUnit <$> (← (load block).run bus)
  | .read => do return Reply.ofBlock <$> (← read.run bus)
  | .status => do return Reply.status <$> (← status.run bus)
  | .now => do return .ok (.time (← bus.now))
  | .waitFor aim => do return Reply.ofUnit <$> (← (watch bus).waitFor aim)

end Driver

end BlockLink
