import Splice.Frame
import Splice.Proxy
import Splice.Log.Record
/-!
# Notes of the data path

What the handlers of the bypass have to report, and the log record of each.
-/

namespace Splice

/-- Something a handler reports. -/
inductive Note where
  /-- Both ends of a new connection have one address. -/
  | selfConnect (t : Tuple)
  /-- A connection was opened; `recorded` if its destination is now pending. -/
  | outbound (t : Tuple) (recorded : Bool)
  | originRefused (t : Tuple) (e : TableError)
  | notRegistered (t : Tuple) (e : TableError)
  | pairRefused (initiator acceptor : Tuple) (e : TableError)
  | paired (initiator acceptor : Tuple)
  /-- A socket closed; whether it had a proxy row and a pending destination. -/
  | closed (t : Tuple) (hadProxy hadPending : Bool)
  /-- A data unit went straight to its target. -/
  | redirected (t : Tuple)
  | frameSkipped (e : DecodeError)
  | disabled (t : Tuple) (before : ProxyState)
deriving DecidableEq, Inhabited, Repr

/-- The log record of a note. -/
def Note.record : Note → Log.Record
  | .selfConnect t => ⟨.trace, "self-connect, not tracked", [("tuple", t.text)]⟩
  | .outbound t recorded =>
    ⟨.trace, "outbound leg established", [("tuple", t.text), ("recorded", Log.truth recorded)]⟩
  | .originRefused t e =>
    ⟨.warn, "pending origin not recorded; flow stays on proxy path", [("tuple", t.text), ("err", e.message)]⟩
  | .notRegistered t e =>
    ⟨.warn, "socket not registered for redirection", [("tuple", t.text), ("err", e.message)]⟩
  | .pairRefused initiator acceptor e =>
    ⟨.warn, "proxy pair not created; flow stays on proxy path",
      [("initiator", initiator.text), ("acceptor", acceptor.text), ("err", e.message)]⟩
  | .paired initiator acceptor =>
    ⟨.debug, "proxy pair correlated", [("initiator", initiator.text), ("acceptor", acceptor.text)]⟩
  | .closed t hadProxy hadPending =>
    ⟨.trace, "socket closed",
      [("tuple", t.text), ("had_proxy", Log.truth hadProxy), ("had_pending", Log.truth hadPending)]⟩
  | .redirected t =>
    ⟨.debug, "data redirection succeeded", [("local", t.own.text), ("remote", t.peer.text)]⟩
  | .frameSkipped e => ⟨.trace, "egress frame skipped", [("err", e.message)]⟩
  | .disabled t before =>
    ⟨.debug, "proxy redirection disabled", [("tuple", t.text), ("from", before.name)]⟩

end Splice
