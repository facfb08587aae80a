import Splice.Tables
/-!
# The disable path

A tracked connection that still puts a frame on the wire is taken back to the
proxy path: the proxy row of the frame's own tuple becomes disabled. The frame
itself always goes on unchanged.
-/

namespace Splice

/-- What a frame did to the proxy table. -/
inductive Egress where
  /-- Not a complete Ethernet, IPv4 and TCP stack. -/
  | skipped (e : DecodeError)
  /-- No proxy row. -/
  | untracked
  | alreadyDisabled
  | disabled (t : Tuple) (before : ProxyState)
deriving DecidableEq, Inhabited, Repr

/-- A frame leaves by the wire. -/
def Tables.onEgress {S : Type} (T : Tables S) (frame : Octets) : Reaction S Egress :=
  match Frame.tuple? frame with
  | .error e => ⟨T, .skipped e, [.frameSkipped e]⟩
  | .ok t =>
    let (proxy, before) := T.proxy.disable t
    match before with
    | none => ⟨{ T with proxy }, .untracked, []⟩
    | some .disabled => ⟨{ T with proxy }, .alreadyDisabled, []⟩
    | some before => ⟨{ T with proxy }, .disabled t before, [.disabled t before]⟩

end Splice
