/-!
# Plans

What an installation is to use: an object file, a directory for the maps, a
cgroup and network interfaces, with the paths that stand in where nothing is
said.
-/

namespace Splice

/-- Where the kernel programs come from and where they are hooked in. -/
structure Plan where
  /-- The object file. -/
  object : String
  /-- The directory for the maps. -/
  pinPath : String
  /-- The cgroup to track; detected if not given. -/
  cgroupPath : Option String
  /-- The interfaces that get the egress classifier. -/
  interfaces : List String
deriving DecidableEq, Inhabited, Repr

/-- Where maps are pinned unless said otherwise. -/
def defaultPinPath : String := "/sys/fs/bpf/tc/globals"

/-- The root of the file system for BPF objects. -/
def bpfRoot : String := "/sys/fs/bpf"

/-- Where the cgroup hierarchy is mounted. -/
def cgroupRoot : String := "/sys/fs/cgroup"

/-- An object file with everything else left to the defaults. -/
def Plan.ofObject (object : String) : Plan := ⟨object, defaultPinPath, none, []⟩

end Splice
