import Splice.CommandLine
import Splice.Config
import Splice.Install
import Splice.Log.Filter
/-!
# The agent

What a command line does on a machine: the machine afterwards, the lines on
standard output, and the exit code. Log records go to standard output too, as
far as the filter of the environment, or else the configured level, lets them
through.
-/

namespace Splice

/-- Why a command did not succeed. -/
inductive AgentError where
  | io (fault : Host.Fault)
  | configuration (e : ConfigError)
  | bpf (e : BpfError)
deriving DecidableEq, Inhabited, Repr

/-- How a fault of the configuration is told, by its own text. -/
def configurationMessage (text : String) : String := "Configuration error: " ++ text

def AgentError.message : AgentError → String
  | .io fault => "IO error: " ++ fault.message
  | .configuration e => configurationMessage e.message
  | .bpf e => "BPF error: " ++ e.message

namespace Agent

open Host

/-- What a command line came to. -/
structure Outcome where
  machine : Machine
  /-- The lines on standard output. -/
  output : List String
  /-- 0 for success, 1 for a command that failed, 2 for a command line that was
  not understood. -/
  exit : Nat

/-! ## Logging -/

/-- Which records are written, and how. -/
structure Logger where
  filter : Log.Filter
  showOrigin : Bool

/-- The logger of a configuration. The filter of the environment wins if there
is one that can be read. -/
def Logger.of (logging : Logging) (environment : Option String) : Logger :=
  match environment.bind Log.Filter.read? with
  | some filter => ⟨filter, logging.showOrigin⟩
  | none => ⟨(Log.Level.ofWord? logging.level).elim [] Log.Filter.ofLevel, logging.showOrigin⟩

/-- The lines of the reports that are written. -/
def Logger.lines (l : Logger) (reports : List Log.Report) : List String :=
  (reports.filter l.filter.passes).flatMap fun r => (r.line l.showOrigin).splitOn "\n"

/-- A report of the agent itself. -/
def note (level : Log.Level) (message : String) (fields : List (String × String)) : Log.Report :=
  ⟨.agent, level, message, fields⟩

/-! ## Configuration -/

/-- The text of a configuration file. -/
def readText (m : Machine) (path : String) : Except Fault String :=
  match m.files.read path with
  | .error fault => .error fault
  | .ok none => .ok ""
  | .ok (some (.pin _)) => .error .inputOutput
  | .ok (some (.object _)) => .error .notUtf8
  | .ok (some (.bytes data)) =>
    match String.fromUTF8? data with
    | some s => .ok s
    | none => .error .notUtf8

/-- The valid configuration in a file. -/
def configure (m : Machine) (path : String) : Except ConfigError Config :=
  match readText m path with
  | .error fault => .error (.unreadable fault)
  | .ok text => Config.ofText m.files.isFile m.files.isDirectory text

/-! ## Commands -/

/-- The end of a command that failed. -/
def failed (l : Logger) (m : Machine) (reports : List Log.Report) (e : AgentError) : Outcome :=
  ⟨m, l.lines (reports ++ [note .error "sockbypass-agent exited with error" [("err", e.message)]]), 1⟩

/-- Installs what a configuration asks for, waits for a signal, and takes it
away again. -/
def runPlan (l : Logger) (m : Machine) (plan : Plan) (reports : List Log.Report) : Outcome :=
  let installed := Install.install Machine.system plan m
  let reports := reports ++ installed.reports
  match installed.answer with
  | .error e => failed l installed.host reports (.bpf e)
  | .ok installation =>
    let closed := Install.close Machine.system installation installed.host
    let reports := reports ++ [note .info "bypass active" [("pin_path", installation.pinPath)],
      note .info "shutting down" []] ++ closed.reports
    match closed.answer with
    | .error e => failed l closed.host reports (.bpf e)
    | .ok () => ⟨closed.host, l.lines reports, 0⟩

/-- Runs the configuration in a file. -/
def run (m : Machine) (path : String) (environment : Option String) : Outcome :=
  match configure m path with
  | .error e =>
    let l := Logger.of .default environment
    ⟨m, l.lines [note .error "failed to load configuration" [("err", (AgentError.configuration e).message)]], 1⟩
  | .ok c =>
    runPlan (.of c.logging environment) m c.plan
      [note .info "configuration loaded"
        [("object", c.object), ("interfaces", Decimal.text c.interfaces.length)]]

/-- Turns tracing on or off. -/
def setTracing (l : Logger) (m : Machine) (dir : String) (on : Bool) : Outcome :=
  match Pins.setDebug m dir on with
  | .error e => failed l m [] (.bpf e)
  | .ok m => ⟨m, l.lines [note .info "redirect tracing updated" [("enabled", Log.truth on)]], 0⟩

/-- Prints the state of tracing. -/
def printStats (l : Logger) (m : Machine) (dir : String) : Outcome :=
  match Pins.debugState m dir with
  | .error e => failed l m [] (.bpf e)
  | .ok (on, packets) =>
    ⟨m, ["debug: " ++ (if on then "on" else "off"), "redirected: " ++ Decimal.text packets.toNat], 0⟩

/-- A line for each proxy row. -/
def proxyLine (row : Tuple × ProxyEntry) : String :=
  "proxy   " ++ row.1.text ++ "  =>  " ++ row.2.redirect.text ++ "  [" ++ row.2.state.name ++ "]"

/-- A line for each pending destination. -/
def pendingLine (row : Endpoint × Endpoint) : String :=
  "pending " ++ row.1.text ++ "  =>  " ++ row.2.text

/-- Lists the rows of the maps. -/
def printEntries (l : Logger) (m : Machine) (dir : String) : Outcome :=
  match Pins.openTables m dir with
  | .error e => failed l m [] (.bpf e)
  | .ok (proxy, pending) =>
    ⟨m, (proxyListing proxy).map proxyLine ++ (pendingListing pending).map pendingLine, 0⟩

/-- Does what a command says. -/
def perform (m : Machine) (environment : Option String) : Command → Outcome
  | .run config => run m config environment
  | .debug action dir =>
    let l := Logger.of .default environment
    match action with
    | .on => setTracing l m dir true
    | .off => setTracing l m dir false
    | .stats => printStats l m dir
  | .entries dir => printEntries (.of .default environment) m dir

/-- Does what a command line says. -/
def execute (m : Machine) (args : List String) (environment : Option String) : Outcome :=
  match CommandLine.parse? args with
  | none => ⟨m, [], 2⟩
  | some .help => ⟨m, [], 0⟩
  | some .version => ⟨m, [CommandLine.versionText], 0⟩
  | some (.command c) => perform m environment c

end Agent

end Splice
