/-!
# Log records

What a program does is told by records of four levels.  The time that a step took is not known
to the logic of the program; the surroundings supply its text.
-/

namespace ContractInterface

/-- How important a record is. -/
inductive Level where
  | debug
  | info
  | warning
  | error
  deriving DecidableEq, Repr

namespace Level

/-- The name of a level. -/
def name : Level → String
  | .debug => "DEBUG"
  | .info => "INFO"
  | .warning => "WARNING"
  | .error => "ERROR"

/-- The rank of a level. -/
def rank : Level → Nat
  | .debug => 0
  | .info => 1
  | .warning => 2
  | .error => 3

end Level

/-- A record of a log. -/
structure LogRecord where
  level : Level
  message : String
  deriving DecidableEq, Repr

namespace LogRecord

/-- A record as it is shown. -/
def line (r : LogRecord) : String :=
  r.level.name ++ ": " ++ r.message

/-- Whether a record is at least as important as a level. -/
def isAtLeast (level : Level) (r : LogRecord) : Bool :=
  level.rank ≤ r.level.rank

end LogRecord

/-- What a program tells its user on the console: records of its log, and lines that are shown
as they are. -/
inductive Event where
  | record (r : LogRecord)
  | line (text : String)
  deriving DecidableEq, Repr

/-- What the console shows of an event, if it shows records from a level on. -/
def Event.shown? (level : Level) : Event → Option String
  | .record r => if r.isAtLeast level then some r.line else none
  | .line text => some text

/-- The texts that depend on the time at which a program runs. -/
structure Clock where
  /-- The present time, as it stands in documents. -/
  timestamp : String
  /-- The present time, as it stands in the names of log files. -/
  fileStamp : String
  /-- The time that a step takes, in seconds. -/
  elapsed : String
  /-- The memory in use, in megabytes. -/
  memory : String
  deriving DecidableEq, Repr

/-- The record that a step has started. -/
def LogRecord.started (step : String) : LogRecord :=
  ⟨.debug, "Starting " ++ step⟩

/-- The record that a step has ended well. -/
def LogRecord.completed (clock : Clock) (step : String) : LogRecord :=
  ⟨.debug, "Completed " ++ step ++ " in " ++ clock.elapsed ++ "s"⟩

/-- The record that a step has failed. -/
def LogRecord.failed (clock : Clock) (step message : String) : LogRecord :=
  ⟨.error, "Failed " ++ step ++ " after " ++ clock.elapsed ++ "s: " ++ message⟩

/-- The records of a step, given how it ended. -/
def LogRecord.ofStep (clock : Clock) (step : String) (failure : Option String) :
    List LogRecord :=
  [started step,
    match failure with
    | none => completed clock step
    | some message => failed clock step message]

end ContractInterface
