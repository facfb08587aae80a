import Splice.Tables
/-!
# Verdicts on data units

For each data unit a socket sends, the choice between letting it go its normal
way and handing it to another socket at once. Data that touches the sidecar goes
to the socket at the other end of the same connection; other data goes to the
partner in the sender's proxy row, once that row is enabled. The first data unit
after pairing only enables the row. Nothing is ever dropped.
-/

namespace Splice

inductive Verdict (S : Type) where
  /-- Go on as before. -/
  | pass
  /-- Hand the unit to `socket`, which owns `target`. -/
  | redirect (target : Tuple) (socket : S)
deriving DecidableEq, Inhabited, Repr

def Verdict.isRedirect {S : Type} : Verdict S → Bool
  | .pass => false
  | .redirect _ _ => true

namespace Tables

variable {S : Type}

/-- Hands the unit to the socket owning `target`, if one is registered; counts
and reports it while tracing is on. -/
def forward (T : Tables S) (own target : Tuple) : Reaction S (Verdict S) :=
  match T.redirect.get? target with
  | none => ⟨T, .pass, []⟩
  | some socket =>
    if T.debug.isEnabled then
      ⟨{ T with debug := T.debug.count }, .redirect target socket, [.redirected own]⟩
    else ⟨T, .redirect target socket, []⟩

/-- The socket owning `own` sends a data unit. -/
def onMessage (T : Tables S) (sidecar : Ipv4) (own : Tuple) : Reaction S (Verdict S) :=
  if own.touches sidecar then T.forward own own.reversed
  else
    match T.proxy.get? own with
    | none => ⟨T, .pass, []⟩
    | some ⟨_, .disabled⟩ => ⟨T, .pass, []⟩
    | some ⟨_, .init⟩ => ⟨{ T with proxy := (T.proxy.enable own).1 }, .pass, []⟩
    | some ⟨partner, .enabled⟩ => T.forward own partner

end Tables

end Splice
