/-!
# Log records

A record has a level and a text. A log shows the records up to a level that can be chosen.
-/

namespace StyleModule.Log

/-- How much is shown, and how important a record is. -/
inductive Level where
  | off
  | error
  | warn
  | info
  | debug
  | trace
deriving DecidableEq, Repr, Inhabited

namespace Level

/-- The number of a level: more is shown at a higher one. -/
def rank : Level → Nat
  | off => 0
  | error => 1
  | warn => 2
  | info => 3
  | debug => 4
  | trace => 5

/-- The level of a number. -/
def ofRank : Nat → Level
  | 0 => off
  | 1 => error
  | 2 => warn
  | 3 => info
  | 4 => debug
  | _ => trace

/-- The word for a level. -/
def name : Level → String
  | off => "OFF"
  | error => "ERROR"
  | warn => "WARN"
  | info => "INFO"
  | debug => "DEBUG"
  | trace => "TRACE"

/-- The level of a word, in capital letters or small ones. -/
def ofName? (word : String) : Option Level :=
  [off, error, warn, info, debug, trace].find? fun l => l.name == word.toUpper

end Level

/-- Something that is logged. -/
structure Record where
  /-- How important it is. -/
  level : Level
  /-- What happened. -/
  text : String
deriving DecidableEq, Repr, Inhabited

namespace Record

/-- Whether a record is shown at a level. -/
def isShown (limit : Level) (r : Record) : Bool := r.level.rank ≤ limit.rank

/-- A record as a line of the log. -/
def line (r : Record) : String := r.level.name ++ ": " ++ r.text

end Record

end StyleModule.Log
