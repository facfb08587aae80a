import Splice.Kernel.Message
import Splice.Kernel.SockOps
/-!
# What the kernel programs leave in the maps

One equation for each hook of the lifecycle program and one for the message
program, in terms of `putRow`, `addRow`, `pair`, `register` and `arm`. Lifecycle
events leave the debug slots alone and hand no message on; a message changes at
most the flag of its own proxy row and the counter.
-/

namespace Splice.Kernel

variable {S : Type}

/-! ## Rows of a map -/

section Rows
variable {κ α : Type} [Ord κ] [Std.TransOrd κ] {P : κ → α → Prop} {m : Std.ExtTreeMap κ α} {k : κ} {v : α}

/-- Every row of the map satisfies `P`. -/
def Every (P : κ → α → Prop) (m : Std.ExtTreeMap κ α) : Prop := ∀ k v, m[k]? = some v → P k v

theorem every_empty : Every P (∅ : Std.ExtTreeMap κ α) := by
  intro k v hv
  simp at hv

theorem Every.mono {Q : κ → α → Prop} (h : Every P m) (hi : ∀ k v, P k v → Q k v) : Every Q m := by
  intro k v hv
  exact hi k v (h k v hv)

theorem Every.erase (h : Every P m) : Every P (m.erase k) := by
  intro j w hw
  rw [Std.ExtTreeMap.getElem?_erase] at hw
  split at hw
  · cases hw
  · exact h j w hw

variable [Std.LawfulEqOrd κ]

/-- A property of the rows of other keys is all that is left to show once a key is gone. -/
theorem Every.erase_of_ne {Q : κ → α → Prop} (h : Every P m) (hi : ∀ j v, j ≠ k → P j v → Q j v) :
    Every Q (m.erase k) := by
  intro j w hw
  rw [Std.ExtTreeMap.getElem?_erase] at hw
  split at hw
  · cases hw
  · rename_i hne
    refine hi j w (fun hj => hne ?_) (h j w hw)
    rw [hj]
    exact Std.ReflOrd.compare_self

theorem Every.insert (h : Every P m) (hk : P k v) : Every P (m.insert k v) := by
  intro j w hw
  rw [Std.ExtTreeMap.getElem?_insert] at hw
  split at hw
  · rename_i hj
    rw [← Std.LawfulEqOrd.eq_of_compare hj]
    cases hw
    exact hk
  · exact h j w hw

theorem Every.putRow (h : Every P m) (limit : Nat) (hk : P k v) : Every P (putRow limit m k v) := by
  unfold Kernel.putRow
  split
  · exact h.insert hk
  · exact h

theorem Every.addRow (h : Every P m) (limit : Nat) (hk : P k v) : Every P (addRow limit m k v) := by
  unfold Kernel.addRow
  split
  · exact h
  · exact h.putRow limit hk

/-- Trying the same write again changes nothing. -/
theorem putRow_putRow (limit : Nat) (m : Std.ExtTreeMap κ α) (k : κ) (v : α) :
    putRow limit (putRow limit m k v) k v = putRow limit m k v := by
  unfold putRow
  by_cases hr : k ∈ m ∨ m.size < limit
  · rw [if_pos hr, if_pos (.inl Std.ExtTreeMap.mem_insert_self)]
    apply Std.ExtTreeMap.ext_getElem?
    intro j
    simp only [Std.ExtTreeMap.getElem?_insert]
    split <;> rfl
  · rw [if_neg hr, if_neg hr]

end Rows

namespace Maps

/-! ## Lifecycle events -/

/-- The maps with the destination of the socket of `key` recorded, if it can be. -/
def record (m : Maps S) (key : RawTuple) : Maps S :=
  { m with pending := addRow m.limit m.pending key.own key.peer }

theorem connected_eq (m : Maps S) (key : RawTuple) (socket : S) :
    m.connected key socket =
      if key.own.ip4 = sidecarWord then m.register key socket
      else if key.own.ip4 = key.peer.ip4 then m
      else (m.record key).register key socket := rfl

theorem accepted_eq (m : Maps S) (key : RawTuple) (socket : S) :
    m.accepted key socket =
      match m.pending[key.peer]? with
      | none => if key.peer.ip4 = sidecarWord then m.register key socket else m
      | some origin =>
        { ((m.pair ⟨key.peer, origin⟩ key).register key socket) with pending := m.pending.erase key.peer } := by
  unfold Maps.accepted
  by_cases hs : key.peer.ip4 = sidecarWord
  · simp only [if_pos hs]
    have hp : (m.register key socket).pending[key.peer]? = m.pending[key.peer]? := rfl
    rw [hp]
    cases m.pending[key.peer]? with
    | none => rfl
    | some origin => simp only [Maps.register, Maps.pair, putRow_putRow]
  · simp only [if_neg hs]
    rfl

/-- A lifecycle event leaves the debug slots as they are. -/
theorem slots_track (m : Maps S) (c : SocketContext S) :
    (m.track c).tracing = m.tracing ∧ (m.track c).packets = m.packets := by
  unfold track
  split
  · rw [connected_eq]
    split
    · exact ⟨rfl, rfl⟩
    · split <;> exact ⟨rfl, rfl⟩
  split
  · rw [accepted_eq]
    cases m.pending[c.key.peer]? with
    | none => dsimp only; split <;> exact ⟨rfl, rfl⟩
    | some origin => exact ⟨rfl, rfl⟩
  · split <;> exact ⟨rfl, rfl⟩

/-! ## Messages -/

/-- The proxy map after a data unit of the socket of `key` found it. -/
def arm (proxy : Std.ExtTreeMap RawTuple RawEntry) (key : RawTuple) : Std.ExtTreeMap RawTuple RawEntry :=
  match proxy[key]? with
  | none => proxy
  | some entry =>
    if entry.flag = ProxyState.init.flag then proxy.insert key { entry with flag := ProxyState.enabled.flag }
    else proxy

theorem redirectedTo_forward (m : Maps S) (key target : RawTuple) :
    (m.forward key target).redirectedTo = m.redirect[target]? := by
  unfold forward
  cases m.redirect[target]? with
  | none => rfl
  | some socket => dsimp only; split <;> rfl

theorem maps_forward (m : Maps S) (key target : RawTuple) :
    (m.forward key target).maps =
      { m with packets :=
          if (m.forward key target).redirectedTo.isSome = true ∧ m.tracing = 1 then m.packets + 1
          else m.packets } := by
  unfold forward
  cases m.redirect[target]? with
  | none => rfl
  | some socket => dsimp only; split <;> simp_all

theorem redirectedTo_message (m : Maps S) (key : RawTuple) :
    (m.message key).redirectedTo =
      if key.own.ip4 = sidecarWord ∨ key.peer.ip4 = sidecarWord then m.redirect[key.reversed]?
      else (m.proxy[key]?).bind fun entry =>
        if entry.flag = ProxyState.enabled.flag then m.redirect[entry.redirect]? else none := by
  unfold message
  split
  · exact redirectedTo_forward m key _
  · cases m.proxy[key]? with
    | none => rfl
    | some entry =>
      dsimp only [Option.bind_some]
      split
      · exact redirectedTo_forward m key _
      · split <;> rfl

theorem maps_message (m : Maps S) (key : RawTuple) :
    (m.message key).maps =
      { m with
        proxy := if key.own.ip4 = sidecarWord ∨ key.peer.ip4 = sidecarWord then m.proxy else arm m.proxy key
        packets :=
          if (m.message key).redirectedTo.isSome = true ∧ m.tracing = 1 then m.packets + 1 else m.packets } := by
  unfold message
  split
  · exact maps_forward m key _
  · unfold arm
    cases he : m.proxy[key]? with
    | none => rfl
    | some entry =>
      dsimp only
      split
      · rename_i hf
        rw [if_neg (by rw [hf]; decide)]
        exact maps_forward m key _
      · split <;> rfl

end Maps

/-! ## The lifecycle program -/

theorem maps_sockOps (m : Maps S) (c : SocketContext S) :
    (sockOps m c).maps = if c.isIpv4 = true then m.track c else m := by
  unfold sockOps
  split <;> rfl

theorem redirectedTo_sockOps (m : Maps S) (c : SocketContext S) : (sockOps m c).redirectedTo = none := by
  unfold sockOps
  split <;> rfl

theorem slots_sockOps (m : Maps S) (c : SocketContext S) :
    (sockOps m c).maps.tracing = m.tracing ∧ (sockOps m c).maps.packets = m.packets := by
  rw [maps_sockOps]
  split
  · exact m.slots_track c
  · exact ⟨rfl, rfl⟩

end Splice.Kernel
