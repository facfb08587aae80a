import Splice.Proofs.Coding
import Splice.Proofs.Handlers
/-!
# The kernel's maps read as tables

Read row by row, what a kernel program leaves in the maps is what the handler
leaves in the tables, hook by hook. A pair is the exception: a program tries its
two rows one by one and a handler takes the first back when the second is
refused, so there two places have to be free.
-/

namespace Splice

variable {S : Type}

/-- The socket a data unit is handed to. -/
def Verdict.socket? : Verdict S → Option S
  | .pass => none
  | .redirect _ socket => some socket

theorem Verdict.isSome_socket? (v : Verdict S) : v.socket?.isSome = v.isRedirect := by cases v <;> rfl

/-- The socket a data unit is handed to, if the answer is to a data unit. -/
def Reply.socket? : Reply S → Option S
  | .verdict v => v.socket?
  | _ => none

end Splice

namespace Splice.Kernel

variable {S : Type}

/-! ## Maps read as tables -/

/-- Every key and every stored endpoint or tuple has its ports in range. -/
structure Maps.Fits (m : Maps S) : Prop where
  pending : Every (fun k v => k.Fits ∧ v.Fits) m.pending
  proxy : Every (fun k v => k.Fits ∧ v.redirect.Fits) m.proxy
  redirect : Every (fun k _ => k.Fits) m.redirect

namespace Maps

/-- The tables the maps stand for, with the debug slots `debug`. -/
def tablesWith (m : Maps S) (debug : Debug) : Tables S where
  pending := endpointCoding.table .pendingOrigin m.limit RawEndpoint.endpoint m.pending
  proxy := tupleCoding.table .proxy m.limit RawEntry.entry m.proxy
  redirect := tupleCoding.table .redirect m.limit id m.redirect
  debug := debug

/-- The debug slots the maps stand for: tracing is on where slot 0 is 1. -/
def debug (m : Maps S) : Debug := ⟨if m.tracing = 1 then 1 else 0, m.packets.toUInt64⟩

/-- The tables the maps stand for. -/
def tables (m : Maps S) : Tables S := m.tablesWith m.debug

/-- Debug slots that agree with the maps': the kernel's counter is 32 bits wide
and wraps sooner. -/
structure Counts (m : Maps S) (debug : Debug) : Prop where
  tracing : debug.isEnabled = true ↔ m.tracing = 1
  packets : m.packets = debug.packets.toUInt32

theorem counts_debug (m : Maps S) : m.Counts m.debug := by
  refine ⟨?_, by simp [debug]⟩
  unfold debug Debug.isEnabled
  split <;> simp_all

end Maps

/-! ## The lifecycle program -/

namespace Maps

variable {m : Maps S}

theorem Fits.keys_pending (h : m.Fits) : Every (fun k _ => endpointCoding.Fits k) m.pending :=
  h.pending.mono fun _ _ h => h.1

theorem Fits.keys_proxy (h : m.Fits) : Every (fun k _ => tupleCoding.Fits k) m.proxy :=
  h.proxy.mono fun _ _ h => h.1

theorem get?_pending (h : m.Fits) (d : Debug) (l : Endpoint) :
    (m.tablesWith d).pending.get? l = m.pending[l.raw]?.map RawEndpoint.endpoint :=
  endpointCoding.get?_table .pendingOrigin m.limit RawEndpoint.endpoint h.keys_pending l

theorem get?_proxy (h : m.Fits) (d : Debug) (t : Tuple) :
    (m.tablesWith d).proxy.get? t = m.proxy[t.raw]?.map RawEntry.entry :=
  tupleCoding.get?_table .proxy m.limit RawEntry.entry h.keys_proxy t

theorem get?_redirect (h : m.Fits) (d : Debug) (t : Tuple) :
    (m.tablesWith d).redirect.get? t = m.redirect[t.raw]? := by
  have hget := tupleCoding.get?_table .redirect m.limit id h.redirect t
  rw [Option.map_id] at hget
  exact hget

theorem Fits.register (h : m.Fits) (t : Tuple) (socket : S) : (m.register t.raw socket).Fits :=
  { h with redirect := h.redirect.putRow m.limit t.fits_raw }

theorem tablesWith_register (h : m.Fits) (d : Debug) (t : Tuple) (socket : S) :
    (m.register t.raw socket).tablesWith d =
      { m.tablesWith d with redirect := (m.tablesWith d).redirect.tryPut t socket } := by
  have hr := tupleCoding.table_putRow .redirect m.limit id h.redirect t socket
  rw [write_tupleCoding] at hr
  simp only [register, tablesWith, hr, id]

/-! ### A socket has connected -/

theorem Fits.record (h : m.Fits) (t : Tuple) : (m.record t.raw).Fits :=
  { h with pending := h.pending.addRow m.limit ⟨t.own.fits_raw, t.peer.fits_raw⟩ }

theorem tablesWith_record (h : m.Fits) (d : Debug) (t : Tuple) :
    (m.record t.raw).tablesWith d =
      { m.tablesWith d with pending := (m.tablesWith d).pending.tryAdd t.own t.peer } := by
  have hp := endpointCoding.table_addRow .pendingOrigin m.limit RawEndpoint.endpoint h.keys_pending t.own t.peer.raw
  rw [write_endpointCoding, Endpoint.endpoint_raw] at hp
  simp only [Maps.record, tablesWith, Tuple.own_raw, Tuple.peer_raw, hp]

theorem Fits.connected (h : m.Fits) (t : Tuple) (socket : S) : (m.connected t.raw socket).Fits := by
  rw [connected_eq]
  split
  · exact h.register t socket
  split
  · exact h
  · exact (h.record t).register t socket

theorem tablesWith_connected (h : m.Fits) (d : Debug) (s : Socket S) (hi : s.isIpv4 = true) :
    (m.connected s.tuple.raw s.handle).tablesWith d = ((m.tablesWith d).connected defaultSidecar s).tables := by
  rw [Tables.tables_connected, if_neg (by simp [hi]), connected_eq]
  have hsame : s.tuple.own.raw.ip4 = s.tuple.peer.raw.ip4 ↔ s.tuple.own.addr = s.tuple.peer.addr := Ipv4.word_inj
  simp only [Tuple.own_raw, Tuple.peer_raw, Endpoint.raw_sidecar, hsame]
  split
  · exact tablesWith_register h d s.tuple s.handle
  split
  · rfl
  · rw [tablesWith_register (h.record s.tuple), tablesWith_record h]

/-! ### A socket has been accepted -/

theorem Fits.pair (h : m.Fits) (a b : Tuple) : (m.pair a.raw b.raw).Fits :=
  { h with
    proxy := (h.proxy.putRow m.limit ⟨a.fits_raw, b.fits_raw⟩).putRow m.limit ⟨b.fits_raw, a.fits_raw⟩ }

theorem entry_init (t : Tuple) : (⟨t.raw, ProxyState.init.flag⟩ : RawEntry).entry = .fresh t := by
  simp only [RawEntry.entry, Tuple.tuple_raw, ProxyState.ofFlag_flag]
  rfl

/-- With two places free the two tries write a pair. -/
theorem tablesWith_pair (h : m.Fits) (hroom : m.proxy.size + 2 ≤ m.limit) (d : Debug) (a b : Tuple) :
    (m.pair a.raw b.raw).tablesWith d =
      { m.tablesWith d with proxy := ((m.tablesWith d).proxy.insertPair a b).1 } := by
  have htwo : (m.tablesWith d).proxy.size + 2 ≤ (m.tablesWith d).proxy.capacity := by
    simp only [tablesWith, tupleCoding.size_table .proxy m.limit RawEntry.entry h.keys_proxy]
    exact hroom
  have hfirst : Every (fun k _ => tupleCoding.Fits k) (putRow m.limit m.proxy a.raw ⟨b.raw, ProxyState.init.flag⟩) :=
    h.keys_proxy.putRow m.limit a.fits_raw
  have ha := tupleCoding.table_putRow .proxy m.limit RawEntry.entry h.keys_proxy a ⟨b.raw, ProxyState.init.flag⟩
  have hb := tupleCoding.table_putRow .proxy m.limit RawEntry.entry hfirst b ⟨a.raw, ProxyState.init.flag⟩
  rw [write_tupleCoding, entry_init] at ha
  rw [write_tupleCoding, entry_init, ha] at hb
  rw [Table.insertPair_of_two htwo]
  simp only [Maps.pair, tablesWith, hb]

theorem Fits.release (h : m.Fits) (l : Endpoint) : ({ m with pending := m.pending.erase l.raw } : Maps S).Fits :=
  { h with pending := h.pending.erase }

theorem tablesWith_release (h : m.Fits) (d : Debug) (l : Endpoint) :
    ({ m with pending := m.pending.erase l.raw } : Maps S).tablesWith d =
      { m.tablesWith d with pending := ((m.tablesWith d).pending.remove l).1 } := by
  have hp := endpointCoding.table_erase .pendingOrigin m.limit RawEndpoint.endpoint h.keys_pending l
  rw [write_endpointCoding] at hp
  simp only [tablesWith, hp]

/-- The initiator's key, put together from words, is that of its tuple. -/
theorem raw_initiatorOf (t : Tuple) {origin : RawEndpoint} (h : origin.Fits) :
    (⟨t.peer.raw, origin⟩ : RawTuple) = (Tables.initiatorOf t origin.endpoint).raw := by
  simp only [Tables.initiatorOf, Tuple.raw, RawEndpoint.raw_endpoint h]

theorem Fits.accepted (h : m.Fits) (t : Tuple) (socket : S) : (m.accepted t.raw socket).Fits := by
  rw [accepted_eq, Tuple.peer_raw]
  cases ho : m.pending[t.peer.raw]? with
  | none =>
    dsimp only
    split
    · exact h.register t socket
    · exact h
  | some origin =>
    dsimp only
    rw [raw_initiatorOf t (h.pending _ _ ho).2]
    exact ((h.pair (Tables.initiatorOf t origin.endpoint) t).register t socket).release t.peer

theorem tablesWith_accepted (h : m.Fits) (hroom : m.proxy.size + 2 ≤ m.limit) (d : Debug) (s : Socket S)
    (hi : s.isIpv4 = true) :
    (m.accepted s.tuple.raw s.handle).tablesWith d = ((m.tablesWith d).accepted defaultSidecar s).tables := by
  rw [Tables.tables_accepted, if_neg (by simp [hi]), accepted_eq, get?_pending h, Tuple.peer_raw]
  cases ho : m.pending[s.tuple.peer.raw]? with
  | none =>
    simp only [Option.map_none, Endpoint.raw_sidecar]
    split
    · exact tablesWith_register h d s.tuple s.handle
    · rfl
  | some origin =>
    have hpair := h.pair (Tables.initiatorOf s.tuple origin.endpoint) s.tuple
    dsimp only [Option.map_some]
    rw [raw_initiatorOf s.tuple (h.pending _ _ ho).2]
    -- The origin is erased last, from a map the pair and the socket have left alone.
    refine (tablesWith_release (hpair.register s.tuple s.handle) d s.tuple.peer).trans ?_
    rw [tablesWith_register hpair, tablesWith_pair h hroom]

/-! ### A socket has closed -/

theorem Fits.closed (h : m.Fits) (t : Tuple) : ((m.closed t.raw).socketDied t.raw).Fits :=
  ⟨h.pending.erase, h.proxy.erase, h.redirect.erase⟩

theorem tablesWith_closed (h : m.Fits) (d : Debug) (s : Socket S) (hi : s.isIpv4 = true) :
    ((m.closed s.tuple.raw).socketDied s.tuple.raw).tablesWith d =
      ((m.tablesWith d).stateChanged s .close).tables := by
  have hp := endpointCoding.table_erase .pendingOrigin m.limit RawEndpoint.endpoint h.keys_pending s.tuple.own
  have hx := tupleCoding.table_erase .proxy m.limit RawEntry.entry h.keys_proxy s.tuple
  have hr := tupleCoding.table_erase .redirect m.limit id h.redirect s.tuple
  rw [Tables.tables_stateChanged, if_pos ⟨hi, rfl⟩]
  simp only [Maps.closed, socketDied, tablesWith, ← hp, ← hx, ← hr]
  rfl

/-! ## The message program -/

theorem Fits.message (h : m.Fits) (key : RawTuple) : (m.message key).maps.Fits := by
  rw [maps_message]
  refine { h with proxy := ?_ }
  dsimp only
  split
  · exact h.proxy
  · unfold arm
    cases he : m.proxy[key]? with
    | none => exact h.proxy
    | some entry =>
      dsimp only
      split
      · exact h.proxy.insert (h.proxy key entry he)
      · exact h.proxy

theorem touches_raw {t : Tuple} :
    (t.raw.own.ip4 = sidecarWord ∨ t.raw.peer.ip4 = sidecarWord) ↔ t.touches defaultSidecar = true := by
  simp only [Tuple.own_raw, Tuple.peer_raw, Endpoint.raw_sidecar]
  simp [Tuple.touches]

theorem table_arm (h : m.Fits) (t : Tuple) :
    tupleCoding.table .proxy m.limit RawEntry.entry (arm m.proxy t.raw) =
      ((tupleCoding.table .proxy m.limit RawEntry.entry m.proxy).enable t).1 := by
  have hget := tupleCoding.get?_table .proxy m.limit RawEntry.entry h.keys_proxy t
  rw [Table.enable_eq, hget, write_tupleCoding]
  unfold arm
  cases he : m.proxy[t.raw]? with
  | none => rfl
  | some entry =>
    obtain ⟨target, n⟩ := entry
    by_cases hn : n = ProxyState.init.flag
    · subst hn
      have hput := tupleCoding.table_insert .proxy m.limit RawEntry.entry h.keys_proxy t
        ⟨target, ProxyState.enabled.flag⟩
      simpa [RawEntry.entry] using hput
    · have hs : ProxyState.ofFlag n ≠ .init := mt (ofFlag_eq_iff (by decide)).1 hn
      simp only [Option.map_some, RawEntry.entry, if_neg hn]
      split
      · rename_i heq
        simp_all
      · rfl

/-! ### Message and verdict -/

theorem tablesWith_message (h : m.Fits) (d d' : Debug) (t : Tuple) :
    (m.message t.raw).maps.tablesWith d' =
      { ((m.tablesWith d).onMessage defaultSidecar t).tables with debug := d' } := by
  simp only [maps_message, Tables.pending_onMessage, Tables.proxy_onMessage, Tables.redirect_onMessage, touches_raw]
  by_cases hs : t.touches defaultSidecar = true
  · simp only [if_pos hs]
    rfl
  · simp only [if_neg hs, tablesWith, table_arm h]

theorem redirectedTo_raw (h : m.Fits) (d : Debug) (t : Tuple) :
    (m.message t.raw).redirectedTo = ((m.tablesWith d).onMessage defaultSidecar t).reply.socket? := by
  have hforward (target : Tuple) :
      ((m.tablesWith d).forward t target).reply.socket? = m.redirect[target.raw]? := by
    rw [Tables.reply_forward, get?_redirect h]
    cases m.redirect[target.raw]? <;> rfl
  rw [redirectedTo_message, Tables.reply_onMessage, get?_proxy h]
  simp only [touches_raw]
  by_cases hs : t.touches defaultSidecar = true
  · rw [if_pos hs, if_pos hs, hforward]
    rfl
  rw [if_neg hs, if_neg hs]
  cases he : m.proxy[t.raw]? with
  | none => rfl
  | some entry =>
    obtain ⟨target, n⟩ := entry
    have htarget : target.Fits := (h.proxy _ _ he).2
    simp only [Option.bind_some, Option.map_some, RawEntry.entry]
    by_cases hn : n = ProxyState.enabled.flag
    · rw [if_pos hn, (ofFlag_eq_iff (by decide)).2 hn]
      simp only [hforward, RawTuple.raw_tuple htarget]
    · have hs : ProxyState.ofFlag n ≠ .enabled := mt (ofFlag_eq_iff (by decide)).1 hn
      rw [if_neg hn]
      split
      · rename_i heq
        simp_all
      · rfl

theorem counts_message (h : m.Fits) {d : Debug} (hc : m.Counts d) (t : Tuple) :
    (m.message t.raw).maps.Counts ((m.tablesWith d).onMessage defaultSidecar t).tables.debug := by
  have hto := redirectedTo_raw h d t
  have hd : (m.tablesWith d).debug = d := rfl
  rw [maps_message, Tables.debug_onMessage, ← Verdict.isSome_socket?, ← hto, hd]
  simp only [hc.tracing]
  by_cases hcount : (m.message t.raw).redirectedTo.isSome = true ∧ m.tracing = 1
  · simp only [if_pos hcount]
    exact ⟨hc.tracing, by simp [Debug.count, hc.packets]⟩
  · simp only [if_neg hcount]
    exact ⟨hc.tracing, hc.packets⟩

end Maps

end Splice.Kernel
