import KernelDispatch.Error

/-!
# Dispatch phases

A queue is always in one of five phases. One task after another takes it around
the cycle

  idle → dispatching → in flight → completing → idle,

a fault closes it from anywhere, and a request to close is granted only between
two tasks. `Phase.on` is the whole table; a move that is not in it is refused
and changes nothing.
-/

namespace KernelDispatch

/-- Where a queue is in the cycle of dispatch. -/
inductive Phase where
  /-- Nothing is dispatched; waiting for work. -/
  | idle
  /-- A task is taken, its kernel is being made and submitted. -/
  | dispatching
  /-- Submitted, waiting for the device. -/
  | inFlight
  /-- The device is done, the completion callback is running. -/
  | completing
  /-- No further dispatch. -/
  | closed
deriving DecidableEq, Inhabited

/-- What moves a queue from one phase to another. -/
inductive Signal where
  | taskAvailable
  | submitted
  | deviceCompleted
  | callbackReturned
  | close
  | fault
deriving DecidableEq, Inhabited

/-- The name of a signal in reports. -/
def Signal.name : Signal → String
  | taskAvailable => "TaskAvailable"
  | submitted => "Submitted"
  | deviceCompleted => "DeviceCompleted"
  | callbackReturned => "CallbackReturned"
  | close => "Close"
  | fault => "Fault"

namespace Phase

/-- The name of a phase in sentences. -/
def text : Phase → String
  | idle => "idle"
  | dispatching => "dispatching"
  | inFlight => "in-flight"
  | completing => "completing"
  | closed => "closed"

/-- The name of a phase in descriptions. -/
def name : Phase → String
  | idle => "Idle"
  | dispatching => "Dispatching"
  | inFlight => "InFlight"
  | completing => "Completing"
  | closed => "Closed"

/-- The phase after a signal, or the refusal of a signal that does not fit. -/
def on (p : Phase) (s : Signal) : Result Phase :=
  match p, s with
  | idle, .taskAvailable => .ok dispatching
  | dispatching, .submitted => .ok inFlight
  | inFlight, .deviceCompleted => .ok completing
  | completing, .callbackReturned => .ok idle
  | idle, .close => .ok closed
  | closed, .close => .ok closed
  | _, .fault => .ok closed
  | p, s => .error (.invalidTransition p.text s.name)

/-- Whether a task is in the hands of the worker. -/
def isBusy : Phase → Bool
  | dispatching | inFlight | completing => true
  | idle | closed => false

/-- How many moves of the worker are still ahead of the task in its hands. -/
def movesLeft : Phase → Nat
  | dispatching => 3
  | inFlight => 2
  | completing => 1
  | idle | closed => 0

/-- The phase after a row of signals, a refused one changing nothing. -/
def run (p : Phase) : List Signal → Phase
  | [] => p
  | s :: rest =>
      match p.on s with
      | .ok next => run next rest
      | .error _ => run p rest

end Phase

end KernelDispatch
