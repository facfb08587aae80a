import Splice.Net.Word
import Splice.Table
/-!
# The proxy table

A row of the proxy table gives, for one socket's tuple, the tuple of its
partner: the socket that data sent on the first may be handed to directly. Rows
are written in pairs, each pointing at the other. A row starts in state `init`,
becomes `enabled` at the first data unit and `disabled` at the first frame that
leaves by the wire; a disabled row stays disabled.
-/

namespace Splice

/-- How far a proxy row has come. -/
inductive ProxyState where
  /-- Paired, no data seen yet. -/
  | init
  /-- Later data units go to the partner. -/
  | enabled
  /-- Back on the proxy path until the socket closes. -/
  | disabled
deriving DecidableEq, Inhabited, Repr

namespace ProxyState

def name : ProxyState → String
  | .init => "Init"
  | .enabled => "Enabled"
  | .disabled => "Disabled"

/-- The number the kernel maps hold for a state. -/
def flag : ProxyState → UInt32
  | .disabled => 0
  | .init => 1
  | .enabled => 2

/-- The state a number stands for; an unknown number is the safe `disabled`. -/
def ofFlag (n : UInt32) : ProxyState :=
  if n = 1 then .init else if n = 2 then .enabled else .disabled

@[simp] theorem ofFlag_flag (s : ProxyState) : ofFlag s.flag = s := by cases s <;> rfl

end ProxyState

/-- A proxy row: the partner's tuple and the state. -/
structure ProxyEntry where
  redirect : Tuple
  state : ProxyState
deriving DecidableEq, Inhabited, Repr

/-- A row as it is first written. -/
def ProxyEntry.fresh (redirect : Tuple) : ProxyEntry := ⟨redirect, .init⟩

/-- A proxy row as a kernel map holds it. -/
structure RawEntry where
  redirect : RawTuple
  flag : UInt32
deriving DecidableEq, Inhabited, Repr

def ProxyEntry.raw (e : ProxyEntry) : RawEntry := ⟨e.redirect.raw, e.state.flag⟩

namespace RawEntry

/-- The row a stored form stands for. -/
def entry (r : RawEntry) : ProxyEntry := ⟨r.redirect.tuple, .ofFlag r.flag⟩

/-- Number of octets of a stored row. -/
def size : Nat := 20

def octets (r : RawEntry) : List UInt8 := r.redirect.octets ++ wordOctets r.flag

end RawEntry

abbrev ProxyTable := Table Tuple ProxyEntry

namespace Table

/-- Writes the rows of `a` and `b`, each pointing at the other, over any rows
they had. When the second write is refused the row of `a` is removed, so no
half pair is left. -/
def insertPair (t : ProxyTable) (a b : Tuple) : ProxyTable × Except TableError Unit :=
  match t.upsert a (.fresh b) with
  | .error e => (t, .error e)
  | .ok t =>
    match t.upsert b (.fresh a) with
    | .error e => ((t.remove a).1, .error e)
    | .ok t => (t, .ok ())

/-- Moves the row of `k` to the state `s` if its state passes `p`. Returns the
state it was in. -/
def move (t : ProxyTable) (k : Tuple) (p : ProxyState → Bool) (s : ProxyState) :
    ProxyTable × Option ProxyState :=
  let (t, before) := t.update k fun e => if p e.state then some { e with state := s } else none
  (t, before.map (·.state))

/-- From `init` to `enabled`; any other state is kept. -/
def enable (t : ProxyTable) (k : Tuple) : ProxyTable × Option ProxyState :=
  t.move k (· == .init) .enabled

/-- From any state to `disabled`. -/
def disable (t : ProxyTable) (k : Tuple) : ProxyTable × Option ProxyState :=
  t.move k (· != .disabled) .disabled

end Table

end Splice
