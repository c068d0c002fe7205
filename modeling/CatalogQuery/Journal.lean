/-!
# Log records

Operations report what they do as log records: a level and a message. A `Journal` is the list of
records an operation produced, oldest first. Nothing is printed; a caller may show the journal.
-/

namespace CatalogQuery

/-- The severity of a log record. -/
inductive LogLevel where
  | error
  | warn
  | info
  | debug
  | trace
  deriving DecidableEq, Repr

/-- The upper-case name of a level. -/
def LogLevel.label : LogLevel → String
  | .error => "ERROR"
  | .warn => "WARN"
  | .info => "INFO"
  | .debug => "DEBUG"
  | .trace => "TRACE"

/-- One log record. -/
structure LogRecord where
  level : LogLevel
  message : String

/-- A record as one line: the level's label, a space and the message. -/
def LogRecord.render (r : LogRecord) : String := r.level.label ++ " " ++ r.message

/-- The records of an operation, oldest first. -/
abbrev Journal := Array LogRecord

end CatalogQuery
