/-!
# Where log lines go

A process has one place that takes its log lines, and it can be set up only
once.

## Main definitions

* `Sink`: Whether the place is set up.
* `Sink.trySetUp`: Sets it up and says whether that was still possible.
* `Sink.setUp`: Sets it up or gives up.
-/

namespace SceneIndex

/-- Whether a place that takes log lines is set up. -/
inductive Sink where
  | absent
  | present
  deriving DecidableEq, Repr

namespace Sink

/-- Sets the place up, unless there is one. -/
def trySetUp : Sink → Bool × Sink
  | absent => (true, present)
  | present => (false, present)

/-- The message when there is a place already. -/
def alreadyPresent : String :=
  "env_logger::init should not be called after logger initialized: SetLoggerError(())"

/-- Sets the place up; it is an error if there is one. -/
def setUp (sink : Sink) : Except String Sink :=
  match sink.trySetUp with
  | (true, sink) => .ok sink
  | (false, _) => .error alreadyPresent

end Sink

end SceneIndex
