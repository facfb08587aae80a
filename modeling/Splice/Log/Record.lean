import Splice.Log.Quoted
/-!
# Log records

A record has a level, a message and named fields. It is written on one line:
the level, the message, and each field as `name=value`, with single blanks.
-/

namespace Splice.Log

inductive Level where
  | trace
  | debug
  | info
  | warn
  | error
deriving DecidableEq, Inhabited, Repr

namespace Level

/-- How grave a level is, `error` being the gravest. -/
def rank : Level → Nat
  | .error => 1
  | .warn => 2
  | .info => 3
  | .debug => 4
  | .trace => 5

/-- The level as a record names it. -/
def tag : Level → String
  | .trace => "TRACE"
  | .debug => "DEBUG"
  | .info => "INFO"
  | .warn => "WARN"
  | .error => "ERROR"

/-- The level as a configuration names it. -/
def word : Level → String
  | .trace => "trace"
  | .debug => "debug"
  | .info => "info"
  | .warn => "warn"
  | .error => "error"

/-- All levels, the least grave first. -/
def all : List Level := [.trace, .debug, .info, .warn, .error]

/-- The level a configuration names. -/
def ofWord? (s : String) : Option Level := all.find? (·.word == s)

end Level

structure Record where
  level : Level
  message : String
  /-- Names and values, in the order they are written. -/
  fields : List (String × String)
deriving DecidableEq, Inhabited, Repr

namespace Record

/-- Message and fields. -/
def body (r : Record) : String :=
  r.fields.foldl (fun s (name, value) => s ++ " " ++ name ++ "=" ++ value) r.message

/-- The record on one line. -/
def line (r : Record) : String := r.level.tag ++ " " ++ r.body

end Record

/-- The parts of the program that write log records outside the data path. -/
inductive Origin where
  /-- The commands of the agent. -/
  | agent
  /-- The preparation of the host. -/
  | host
  /-- The installation of the kernel programs. -/
  | installer
deriving DecidableEq, Inhabited, Repr

/-- The origin as a record and a filter name it. -/
def Origin.name : Origin → String
  | .agent => "sockbypass_agent"
  | .host => "sockbypass_ebpf::sys"
  | .installer => "sockbypass_ebpf::program"

/-- A record and the part of the program it comes from. -/
structure Report where
  origin : Origin
  record : Record
deriving DecidableEq, Inhabited, Repr

/-- The report on one line, with or without the name of its origin. -/
def Report.line (r : Report) (showOrigin : Bool) : String :=
  r.record.level.tag ++ " " ++ (if showOrigin then r.origin.name ++ ": " else "") ++ r.record.body

/-- A truth value as a field shows it. -/
def truth (b : Bool) : String := if b then "true" else "false"

end Splice.Log
