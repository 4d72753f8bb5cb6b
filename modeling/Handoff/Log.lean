/-!
# Log records

A record has a level, the part of the program that it comes from, and a message. A filter lets
through the records that are at least as severe as its level, or none at all.
-/

namespace Handoff

/-- The severity of a record, the most severe first. -/
inductive Level
  | error
  | warn
  | info
  | debug
  | trace
deriving Repr, DecidableEq

namespace Level

/-- The place of a level, counted from the most severe. -/
def rank : Level → Nat
  | .error => 0
  | .warn => 1
  | .info => 2
  | .debug => 3
  | .trace => 4

/-- The name of a level as it is written. -/
def name : Level → String
  | .error => "ERROR"
  | .warn => "WARN"
  | .info => "INFO"
  | .debug => "DEBUG"
  | .trace => "TRACE"

/-- All levels. -/
def all : List Level := [.error, .warn, .info, .debug, .trace]

end Level

/-- The least severe level that is let through, if any is. -/
abbrev LogFilter := Option Level

namespace LogFilter

/-- Whether a filter lets records of a level through. -/
def allows (filter : LogFilter) (level : Level) : Bool :=
  match filter with
  | none => false
  | some least => level.rank ≤ least.rank

/-- The filter of a given name: that of a level, in any case, or `off`. No name at all stands for
errors only. -/
def ofName? (s : String) : Option LogFilter :=
  if s = "" then some (some .error)
  else if s.toUpper = "OFF" then some none
  else (Level.all.find? fun level => level.name = s.toUpper).map some

end LogFilter

/-- A log record. -/
structure LogRecord where
  level : Level
  target : String
  message : String
deriving Repr, DecidableEq

namespace LogRecord

/-- The line of a record: the level padded to five characters, where the record comes from, and the
message. -/
def line (r : LogRecord) : String :=
  let level := r.level.name
  let padding := String.ofList (List.replicate (5 - level.length) ' ')
  "[" ++ level ++ padding ++ " " ++ r.target ++ "] " ++ r.message

/-- The lines of the records that a filter lets through. -/
def lines (filter : LogFilter) (records : List LogRecord) : List String :=
  (records.filter fun r => filter.allows r.level).map line

end LogRecord

end Handoff
