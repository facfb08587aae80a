import Splice.Host.FileSystem
import Splice.Host.Image
/-!
# What the installer asks of a system

A system with states `σ` answers the requests by which programs are loaded,
attached and taken away again. Any request may fail. Nothing is said here about
when it does: an installation has to cope with every system.
-/

namespace Splice.Host

/-- Where a program can be attached. -/
inductive Hook where
  /-- A map of sockets, by its number. -/
  | map (number : Nat)
  /-- An opened directory of the cgroup hierarchy. -/
  | cgroup (place : Location)
  /-- The egress side of a network interface. -/
  | interface (name : String)
deriving DecidableEq, Inhabited, Repr

/-- A loaded program, by its number, attached to a hook. -/
structure Link where
  program : Nat
  hook : Hook
deriving DecidableEq, Inhabited, Repr

structure System (σ : Type) where
  /-- Lifts the limit on locked memory. -/
  raiseMemlock : StateM σ (Except Fault Unit)
  /-- Something stands at a path. -/
  present : String → StateM σ Bool
  /-- Makes a directory and those above it. -/
  makePath : String → StateM σ (Except Fault Unit)
  /-- The magic number of the file system of a path. -/
  magic : String → StateM σ (Except Fault Nat)
  /-- Mounts a file system for BPF objects on a directory. -/
  mountBpf : String → StateM σ (Except Fault Unit)
  /-- Loads an object file, makes its maps and pins them below a directory. -/
  loadObject : (object pins : String) → StateM σ (Option Loaded)
  /-- Gives the installer a handle of its own on a map it made. -/
  shareMap : Nat → StateM σ (Except Fault Unit)
  /-- Gives a program to the kernel, which may refuse it or give it a number. -/
  loadProgram : ProgramDef → StateM σ (Option Nat)
  /-- Opens a file or directory. -/
  openFile : String → StateM σ (Except Fault Location)
  /-- Adds the queueing discipline that egress classifiers need. -/
  addQdisc : String → StateM σ Bool
  /-- Attaches a program; false if the system did not. -/
  attach : Link → StateM σ Bool
  /-- Detaches a program. -/
  detach : Link → StateM σ Unit
  /-- Removes a file. -/
  remove : String → StateM σ (Except Fault Unit)

end Splice.Host
