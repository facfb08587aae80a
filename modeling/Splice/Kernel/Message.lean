import Splice.Kernel.Maps
import Splice.Log.Quoted
/-!
# The message program

Runs on every data unit a socket sends and decides as `Splice.Verdict` does, on
map words. It always lets the unit pass; a redirect that finds its target takes
the unit there on the way.
-/

namespace Splice.Kernel

/-- The return value that lets a message go on. -/
def passMessage : UInt32 := 1

/-- What the kernel tells a message program about the sending socket. -/
structure MessageContext where
  localIp4 : UInt32
  remoteIp4 : UInt32
  /-- In host order. -/
  localPort : UInt32
  /-- In network order. -/
  remotePort : UInt32
deriving DecidableEq, Inhabited, Repr

/-- The sender's tuple as a map key. -/
def MessageContext.key (c : MessageContext) : RawTuple :=
  ⟨⟨c.localIp4, c.localPort⟩, ⟨c.remoteIp4, swapOctets c.remotePort⟩⟩

/-- The line printed for a redirect, with both addresses as words. -/
def redirectLine (key : RawTuple) : String :=
  "data redirection succeed: [" ++ String.ofList (Log.hexChars key.own.ip4.toNat) ++ "]->[" ++
    String.ofList (Log.hexChars key.peer.ip4.toNat) ++ "]"

namespace Maps

variable {S : Type}

/-- Hands the message to the socket of `target` if there is one, and counts and
prints it while tracing is on. -/
def forward (m : Maps S) (key target : RawTuple) : Outcome S :=
  match m.redirect[target]? with
  | none => { maps := m, value := passMessage }
  | some socket =>
    if m.tracing = 1 then
      { maps := { m with packets := m.packets + 1 }, value := passMessage, redirectedTo := some socket,
        printed := some (redirectLine key) }
    else { maps := m, value := passMessage, redirectedTo := some socket }

/-- The message program on the sender's key. -/
def message (m : Maps S) (key : RawTuple) : Outcome S :=
  if key.own.ip4 = sidecarWord ∨ key.peer.ip4 = sidecarWord then m.forward key key.reversed
  else
    match m.proxy[key]? with
    | none => { maps := m, value := passMessage }
    | some entry =>
      if entry.flag = ProxyState.enabled.flag then m.forward key entry.redirect
      else if entry.flag = ProxyState.init.flag then
        { maps := { m with proxy := m.proxy.insert key { entry with flag := ProxyState.enabled.flag } },
          value := passMessage }
      else { maps := m, value := passMessage }

end Maps

/-- The message program. -/
def redirectMessage {S : Type} (m : Maps S) (c : MessageContext) : Outcome S := m.message c.key

end Splice.Kernel
