import Splice.Host.Fault
import Splice.Host.Path
import Splice.Log.Record
import Splice.Plan
import Splice.Text.Blank
import Splice.Toml.Document
/-!
# Configuration

A configuration is a TOML document with a fixed set of names. `Config.ofToml?`
takes the values out of the document's root table, `Config.validate` checks them
against each other and against the file system and reports the first fault, in a
fixed order.
-/

namespace Splice

structure Logging where
  level : String
  /-- Log records name the part of the program they come from. -/
  showOrigin : Bool
deriving DecidableEq, Inhabited, Repr

structure Config where
  /-- The object file with the kernel programs. -/
  object : String
  /-- The directory the maps are pinned in. -/
  pinPath : String
  /-- The cgroup to track, if it is not to be detected. -/
  cgroupPath : Option String
  /-- The interfaces that get the egress classifier. -/
  interfaces : List String
  logging : Logging
deriving DecidableEq, Inhabited, Repr

def Logging.default : Logging := ⟨"info", false⟩

/-- Why a configuration was not accepted. -/
inductive ConfigError where
  | unreadable (f : Host.Fault)
  /-- Not TOML, or not the expected names with values of their kinds. -/
  | unparsable
  | objectEmpty
  | objectNotFound (path : String)
  | pinPathRelative (path : String)
  | cgroupNotFound (path : String)
  | interfaceBlank
  | interfaceRepeated (name : String)
  | levelUnknown (level : String)
deriving DecidableEq, Inhabited, Repr

def ConfigError.message : ConfigError → String
  | .unreadable f => "Failed to read config file: " ++ f.message
  | .unparsable => "Failed to parse config"
  | .objectEmpty => "object path cannot be empty"
  | .objectNotFound path => "BPF object not found: " ++ path
  | .pinPathRelative path => "pin_path must be absolute: " ++ path
  | .cgroupNotFound path => "cgroup directory not found: " ++ path
  | .interfaceBlank => "egress interface name cannot be empty"
  | .interfaceRepeated name => "Duplicate egress interface: " ++ name
  | .levelUnknown level => "Unknown log level: " ++ level

/-! ## Taking values out of a document -/

namespace Toml

def Value.text? : Value → Option String
  | .text s => some s
  | _ => none

def Value.boolean? : Value → Option Bool
  | .boolean b => some b
  | _ => none

/-- The strings of an array of strings. -/
def Value.texts? : Value → Option (List String)
  | .array items => items.mapM text?
  | _ => none

/-- The value of `k` as `f` reads it, or `d` when there is none. -/
def Entries.getD? {α : Type} (es : Entries) (k : String) (f : Value → Option α) (d : α) : Option α :=
  match es.get? k with
  | none => some d
  | some v => f v

/-- Every name is one of `names`. -/
def Entries.within? (es : Entries) (names : List String) : Bool := es.all fun e => names.contains e.1

end Toml

open Toml (Value Entries)

/-- The item at the front of a list as `f` reads it, or `d` when there is none. -/
def firstD? {α : Type} (items : List Value) (f : Value → Option α) (d : α) : Option α :=
  match items with
  | [] => some d
  | v :: _ => f v

/-- The logging section: a table by names, or an array by position, of which
items past the second are not looked at. -/
def Logging.ofToml? : Value → Option Logging
  | .table _ (es : Entries) =>
    if es.within? ["level", "show_target"] then do
      let level ← es.getD? "level" Value.text? Logging.default.level
      let showOrigin ← es.getD? "show_target" Value.boolean? Logging.default.showOrigin
      return ⟨level, showOrigin⟩
    else none
  | .array items => do
    let level ← firstD? items Value.text? Logging.default.level
    let showOrigin ← firstD? items.tail Value.boolean? Logging.default.showOrigin
    return ⟨level, showOrigin⟩
  | _ => none

namespace Config

/-- The configuration of a document's root table. -/
def ofToml? (es : Entries) : Option Config :=
  if es.within? ["object", "pin_path", "cgroup_path", "egress_interfaces", "logging"] then do
    let object ← (es.get? "object").bind Value.text?
    let pinPath ← es.getD? "pin_path" Value.text? defaultPinPath
    let cgroupPath ← es.getD? "cgroup_path" (fun v => v.text?.map some) none
    let interfaces ← es.getD? "egress_interfaces" Value.texts? []
    let logging ← es.getD? "logging" Logging.ofToml? Logging.default
    return { object, pinPath, cgroupPath, interfaces, logging }
  else none

/-! ## Validation -/

/-- The first fault of the interface names that follow `seen`: one that is
blank, or one that was seen before. -/
def checkInterfaces (seen : List String) : List String → Except ConfigError Unit
  | [] => .ok ()
  | name :: names =>
    if Text.isBlank name then .error .interfaceBlank
    else if name ∈ seen then .error (.interfaceRepeated name)
    else checkInterfaces (name :: seen) names

/-- Checks a configuration; `isFile` and `isDirectory` answer for the file
system. -/
def validate (isFile isDirectory : String → Bool) (c : Config) : Except ConfigError Unit := do
  if c.object = "" then .error .objectEmpty
  else if !isFile c.object then .error (.objectNotFound c.object)
  else if !Host.Path.isAbsolute c.pinPath then .error (.pinPathRelative c.pinPath)
  else if !c.cgroupPath.all isDirectory then .error (.cgroupNotFound (c.cgroupPath.getD ""))
  else do
    checkInterfaces [] c.interfaces
    if (Log.Level.ofWord? c.logging.level).isNone then .error (.levelUnknown c.logging.level) else .ok ()

/-- The valid configuration a document spells. -/
def ofText (isFile isDirectory : String → Bool) (document : String) : Except ConfigError Config :=
  match (Toml.read document).bind ofToml? with
  | none => .error .unparsable
  | some c => (c.validate isFile isDirectory).map fun _ => c

/-- What the configuration asks to install. -/
def plan (c : Config) : Plan := ⟨c.object, c.pinPath, c.cgroupPath, c.interfaces⟩

end Config

end Splice
