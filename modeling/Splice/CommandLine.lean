import Splice.Plan
/-!
# The command line

The agent takes one of three commands. Arguments are read from left to right and
the first one that does not fit ends the reading; a request for help ends it
too. The value of an option is looked at when the next option begins, or at the
end, so a fault in it comes after the faults and the help requests of a command
inside.
-/

namespace Splice

inductive DebugAction where
  | on
  | off
  | stats
deriving DecidableEq, Inhabited, Repr

/-- The action a word of the command line names. -/
def DebugAction.ofWord? : String → Option DebugAction
  | "on" => some .on
  | "off" => some .off
  | "stats" => some .stats
  | _ => none

/-- What the agent is to do. -/
inductive Command where
  /-- Install, wait, take away again. -/
  | run (config : String)
  /-- Turn redirect tracing on or off, or print its counter. -/
  | debug (action : DebugAction) (pinPath : String)
  /-- List the rows of the maps. -/
  | entries (pinPath : String)
deriving DecidableEq, Inhabited, Repr

/-- What a command line asks for. -/
inductive Request where
  | command (c : Command)
  | help
  | version
deriving DecidableEq, Inhabited, Repr

namespace CommandLine

/-- The configuration read when none is named. -/
def defaultConfig : String := "/etc/sockbypass/agent.toml"

def versionText : String := "sockbypass-agent 0.1.0"

/-! ## One option with a value -/

/-- What is known of an option: the value it was given, and a further mention of
it that has not been looked at, with or without its value. -/
structure OptionState where
  value : Option String
  pending : Option (Option String)

namespace OptionState

def start : OptionState := ⟨none, none⟩

/-- Gives the option a value. It takes one value, which is not empty. -/
def give (o : OptionState) (v : String) : Option OptionState :=
  if v = "" ∨ o.value.isSome then none else some ⟨some v, none⟩

/-- Looks at the pending mention. -/
def settle (o : OptionState) : Option OptionState :=
  match o.pending with
  | none => some o
  | some none => none
  | some (some v) => o.give v

end OptionState

/-- How the arguments of a command end. -/
inductive Ending where
  /-- There are no more. -/
  | finished (o : OptionState)
  /-- A command inside begins. -/
  | inside (o : OptionState) (name : String) (rest : List String)
  | help
  | misuse
deriving Inhabited

/-- The value of `--name=value`. -/
def attachedTo (name arg : String) : Option String :=
  if arg.startsWith (name ++ "=") then some (arg.drop (name.length + 1)).toString else none

/-- A value written right after its letter, with or without a sign between. -/
def attachedValue (rest : List Char) : String :=
  match rest with
  | '=' :: rest => String.ofList rest
  | rest => String.ofList rest

/-- Reads the arguments of a command that has one option, under a long name and
maybe a letter, and commands inside it. -/
def scan (long : String) (letter : Option Char) (inner : List String) :
    OptionState → List String → Ending
  | o, [] => .finished o
  | o, arg :: rest =>
    let settled (k : OptionState → Ending) : Ending := o.settle.elim .misuse k
    let given (v : String) : Ending :=
      match o.settle.bind (·.give v) with
      | none => .misuse
      | some o => scan long letter inner o rest
    let awaited : Ending :=
      match o.settle with
      | none => .misuse
      | some o => scan long letter inner { o with pending := some none } rest
    if inner.contains arg ∧ o.pending ≠ some none then .inside o arg rest
    else if arg = "--" then if rest = [] then .finished o else .misuse
    else if arg = "--help" then settled fun _ => .help
    else if arg = long then awaited
    else
      match attachedTo long arg with
      | some v => given v
      | none =>
        if arg.startsWith "--" then .misuse
        else
          match arg.toList with
          | '-' :: 'h' :: _ => settled fun _ => .help
          | ['-', c] => if some c = letter then awaited else .misuse
          | '-' :: c :: more => if some c = letter then given (attachedValue more) else .misuse
          | _ =>
            if o.pending = some none then scan long letter inner { o with pending := some (some arg) } rest
            else .misuse

/-- The value of the option, or `d` when it was not given. -/
def valueD (o : OptionState) (d : String) : Option String := o.settle.map fun o => o.value.getD d

/-! ## Commands -/

/-- Reads the arguments of a command without options. -/
def bare (c : Command) : List String → Option Request
  | [] | ["--"] => some (.command c)
  | arg :: _ =>
    if arg = "--help" ∨ (arg.startsWith "-h" : Bool) then some .help else none

def debugActions : List String := ["on", "off", "stats"]

/-- A request for help on the command that some names lead to. -/
def helpOn (known : List (List String)) (names : List String) : Option Request :=
  if names ∈ known then some .help else none

/-- Reads what follows `run`. -/
def readRun (args : List String) : Option Request :=
  match scan "--config" (some 'c') [] .start args with
  | .finished o => (valueD o defaultConfig).map fun config => .command (.run config)
  | .help => some .help
  | _ => none

/-- Reads what follows `entries`. -/
def readEntries (args : List String) : Option Request :=
  match scan "--pin-path" none [] .start args with
  | .finished o => (valueD o defaultPinPath).map fun dir => .command (.entries dir)
  | .help => some .help
  | _ => none

/-- Reads what follows `debug`. -/
def readDebug (args : List String) : Option Request :=
  match scan "--pin-path" none ("help" :: debugActions) .start args with
  | .inside _ "help" rest => helpOn ([] :: ["help"] :: debugActions.map ([·])) rest
  | .inside o name rest => do
    let action ← DebugAction.ofWord? name
    match ← bare (.debug action defaultPinPath) rest with
    | .command _ => return .command (.debug action (← valueD o defaultPinPath))
    | request => return request
  | .help => some .help
  | _ => none

/-- The names that lead to a command on which there is help. -/
def helpTopics : List (List String) :=
  [[], ["help"], ["run"], ["entries"], ["debug"], ["debug", "help"]] ++ debugActions.map (["debug", ·])

/-- What the arguments ask for; nothing if they are not understood. -/
def parse? : List String → Option Request
  | [] => none
  | "run" :: rest => readRun rest
  | "debug" :: rest => readDebug rest
  | "entries" :: rest => readEntries rest
  | "help" :: rest => helpOn helpTopics rest
  | arg :: _ =>
    if arg = "--help" ∨ (arg.startsWith "-h" : Bool) then some .help
    else if arg = "--version" ∨ (arg.startsWith "-V" : Bool) then some .version
    else none

end CommandLine

end Splice
