import Splice.Tables
/-!
# Connection lifecycle

A socket is heard of three times: when it has connected, when it has been
accepted, and when its state changes. The proxy's outbound leg records where it
was going under its own endpoint; the accepting side finds that record under its
peer's endpoint, claims it, and pairs the two sockets.

Handlers never retry. A refused insert costs the flow its bypass and nothing
else.
-/

namespace Splice

/-- Address family of a socket. -/
inductive Family where
  | inet
  /-- Dual stack; carries IPv4 fields only when its peer is a mapped address. -/
  | inet6
deriving DecidableEq, Inhabited, Repr

/-- The TCP states a socket can change to. -/
inductive TcpState where
  | established
  | synSent
  | synRecv
  | finWait1
  | finWait2
  | timeWait
  | close
  | closeWait
  | lastAck
  | listen
  | closing
deriving DecidableEq, Inhabited, Repr

namespace TcpState

def name : TcpState → String
  | .established => "Established"
  | .synSent => "SynSent"
  | .synRecv => "SynRecv"
  | .finWait1 => "FinWait1"
  | .finWait2 => "FinWait2"
  | .timeWait => "TimeWait"
  | .close => "Close"
  | .closeWait => "CloseWait"
  | .lastAck => "LastAck"
  | .listen => "Listen"
  | .closing => "Closing"

def all : List TcpState :=
  [.established, .synSent, .synRecv, .finWait1, .finWait2, .timeWait, .close, .closeWait, .lastAck, .listen,
   .closing]

/-- The state of that name. -/
def ofName? (s : String) : Option TcpState := all.find? (·.name == s)

end TcpState

/-- A socket as a lifecycle event presents it. -/
structure Socket (S : Type) where
  family : Family
  tuple : Tuple
  handle : S

/-- The socket speaks IPv4: by its family, or because it has an IPv4 peer. -/
def Socket.isIpv4 {S : Type} (s : Socket S) : Bool :=
  s.family == .inet || s.tuple.peer.addr != .unspecified

/-- What a lifecycle event did to the tables. -/
inductive Tracked where
  /-- Not IPv4, both ends at one address, or a state other than closed. -/
  | ignored
  /-- Registered for redirection; no pair. -/
  | registered
  /-- Accepted with no pending origin, and left alone. -/
  | uncorrelated
  | correlated (initiator acceptor : Tuple)
  /-- All rows of the socket are gone. -/
  | closed
  /-- A table refused an insert; the event was otherwise handled. -/
  | degraded (e : TableError)
deriving DecidableEq, Inhabited, Repr

namespace Tables

variable {S : Type}

/-- Makes the socket a target of redirection. -/
def register (T : Tables S) (s : Socket S) : Reaction S Tracked :=
  match T.registerSocket s.tuple s.handle with
  | .ok T => ⟨T, .registered, []⟩
  | .error e => ⟨T, .degraded e, [.notRegistered s.tuple e]⟩

/-- The socket has connected. -/
def connected (T : Tables S) (sidecar : Ipv4) (s : Socket S) : Reaction S Tracked :=
  if !s.isIpv4 then ⟨T, .ignored, []⟩
  else if s.tuple.own.addr = sidecar then T.register s
  else if s.tuple.own.addr = s.tuple.peer.addr then ⟨T, .ignored, [.selfConnect s.tuple]⟩
  else
    match T.recordOrigin s.tuple.own s.tuple.peer with
    | .ok (T, recorded) =>
      let r := T.register s
      ⟨r.tables, r.reply, r.notes ++ [.outbound s.tuple recorded]⟩
    | .error e =>
      let r := T.register s
      ⟨r.tables, .degraded e, r.notes ++ [.originRefused s.tuple e]⟩

/-- Pairs the accepted socket with the one that connected from its peer's
endpoint to `origin`. -/
def correlate (T : Tables S) (s : Socket S) (origin : Endpoint) : Reaction S Tracked :=
  let initiator : Tuple := ⟨s.tuple.peer, origin⟩
  let (proxy, paired) := T.proxy.insertPair initiator s.tuple
  let r := { T with proxy }.register s
  match paired, r.reply with
  | .error e, _ => ⟨r.tables, .degraded e, r.notes ++ [.pairRefused initiator s.tuple e]⟩
  | .ok (), .degraded e => ⟨r.tables, .degraded e, r.notes⟩
  | .ok (), _ => ⟨r.tables, .correlated initiator s.tuple, r.notes ++ [.paired initiator s.tuple]⟩

/-- The socket has been accepted. Its peer's pending origin, if there is one, is
claimed before anything is written, so no other accept can claim it too. -/
def accepted (T : Tables S) (sidecar : Ipv4) (s : Socket S) : Reaction S Tracked :=
  if !s.isIpv4 then ⟨T, .ignored, []⟩
  else
    let first := if s.tuple.peer.addr = sidecar then T.register s else ⟨T, .uncorrelated, []⟩
    match first.tables.pending.remove s.tuple.peer with
    | (_, none) => first
    | (pending, some origin) =>
      let r := { first.tables with pending }.correlate s origin
      ⟨r.tables, r.reply, first.notes ++ r.notes⟩

/-- The socket's state has changed; only closing matters. -/
def stateChanged (T : Tables S) (s : Socket S) (state : TcpState) : Reaction S Tracked :=
  if !s.isIpv4 || state != .close then ⟨T, .ignored, []⟩
  else
    let (proxy, hadProxy) := T.proxy.remove s.tuple
    let (pending, hadPending) := T.pending.remove s.tuple.own
    let (redirect, _) := T.redirect.remove s.tuple
    ⟨{ T with proxy, pending, redirect }, .closed, [.closed s.tuple hadProxy.isSome hadPending.isSome]⟩

end Tables

end Splice
