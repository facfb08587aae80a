import Splice.Proofs.Reading
/-!
# The kernel programs keep to the handlers

A socket and what it meets give a context for the kernel program and an event
for the handler. Whatever it is, program and handler do the same: the maps read
as the tables, and a message is handed to the socket the verdict names. So a run
of the programs reads as a run of the bypass for as long as there is room.
-/

namespace Splice.Kernel

variable {S : Type}

/-! ## What a socket can meet -/

/-- What can happen to the socket of a tuple: an event of the lifecycle program,
under any family and any second argument of its context, or a data unit. -/
inductive Occasion (S : Type) where
  | connected (family argument : UInt32) (socket : S)
  | accepted (family argument : UInt32) (socket : S)
  /-- The state is closed where the argument says so. -/
  | changed (family argument : UInt32) (socket : S) (state : TcpState) (agree : argument = tcpClose ↔ state = .close)
  | message

/-- The context of a socket: octets of addresses as they stand in memory, the
own port in host order and the remote one in network order. -/
def contextOf (t : Tuple) (op family argument : UInt32) (socket : S) : SocketContext S where
  op := op
  family := family
  localIp4 := t.own.addr.word
  remoteIp4 := t.peer.addr.word
  localPort := .ofNat t.own.port.toNat
  remotePort := swapOctets (.ofNat t.peer.port.toNat)
  argument := argument
  socket := socket

/-- The context of a data unit. -/
def messageContextOf (t : Tuple) : MessageContext where
  localIp4 := t.own.addr.word
  remoteIp4 := t.peer.addr.word
  localPort := .ofNat t.own.port.toNat
  remotePort := swapOctets (.ofNat t.peer.port.toNat)

def familyOf (w : UInt32) : Family := if w = familyInet then .inet else .inet6

namespace Occasion

/-- The kernel's part: its program runs, and a socket that has closed leaves the
redirect map. -/
def meet (m : Maps S) (t : Tuple) : Occasion S → Outcome S
  | .connected family argument socket => sockOps m (contextOf t opConnected family argument socket)
  | .accepted family argument socket => sockOps m (contextOf t opAccepted family argument socket)
  | .changed family argument socket _ _ =>
    let c := contextOf t opState family argument socket
    let o := sockOps m c
    if c.isIpv4 = true ∧ argument = tcpClose then { o with maps := o.maps.socketDied c.key } else o
  | .message => redirectMessage m (messageContextOf t)

/-- The handler's part. -/
def event (t : Tuple) : Occasion S → Event S
  | .connected family _ socket => .connected ⟨familyOf family, t, socket⟩
  | .accepted family _ socket => .accepted ⟨familyOf family, t, socket⟩
  | .changed family _ socket state _ => .stateChanged ⟨familyOf family, t, socket⟩ state
  | .message => .message t

end Occasion

section Contexts
variable (t : Tuple) (op family argument : UInt32) (socket : S)

theorem key_contextOf : (contextOf t op family argument socket).key = t.raw := by
  simp only [SocketContext.key, contextOf, swapOctets_swapOctets]
  rfl

theorem key_messageContextOf : (messageContextOf t).key = t.raw := by
  simp only [MessageContext.key, messageContextOf, swapOctets_swapOctets]
  rfl

theorem isIpv4_contextOf :
    (contextOf t op family argument socket).isIpv4 = (⟨familyOf family, t, socket⟩ : Socket S).isIpv4 := by
  have hw : (t.peer.addr.word != 0) = (t.peer.addr != .unspecified) := by
    rw [← Ipv4.word_unspecified, Bool.eq_iff_iff, bne_iff_ne, bne_iff_ne, Ne, Ipv4.word_inj]
  have hf : (family == familyInet) = (familyOf family == .inet) := by
    unfold familyOf
    split <;> simp_all
  simp only [SocketContext.isIpv4, Socket.isIpv4, contextOf, hw, hf]

end Contexts

/-- What the lifecycle program leaves for the socket of `t`. -/
theorem maps_sockOps_contextOf (m : Maps S) (t : Tuple) (op family argument : UInt32) (socket : S) :
    (sockOps m (contextOf t op family argument socket)).maps =
      if (⟨familyOf family, t, socket⟩ : Socket S).isIpv4 = true then
        if op = opConnected then m.connected t.raw socket
        else if op = opAccepted then m.accepted t.raw socket
        else if op = opState ∧ argument = tcpClose then m.closed t.raw
        else m
      else m := by
  rw [maps_sockOps, isIpv4_contextOf, Maps.track, key_contextOf]
  rfl

/-- The kernel's part and the handler's part of an occasion come to the same. -/
structure Agrees (k : Outcome S) (r : Reaction S (Reply S)) : Prop where
  fits : k.maps.Fits
  tables : k.maps.tablesWith r.tables.debug = r.tables
  counts : k.maps.Counts r.tables.debug
  socket : k.redirectedTo = r.reply.socket?

/-- For a lifecycle event it is enough that the maps read as the handler's
tables: nothing is handed on and the debug slots stay. -/
theorem Agrees.of_lifecycle {m k : Maps S} {o : Outcome S} {r : Reaction S (Reply S)} {d : Debug} (hc : m.Counts d)
    (hk : o.maps = k) (hf : k.Fits) (ht : k.tablesWith d = r.tables)
    (hslots : o.maps.tracing = m.tracing ∧ o.maps.packets = m.packets) (hs : o.redirectedTo = r.reply.socket?) :
    Agrees o r := by
  subst hk
  have hd : r.tables.debug = d := by
    rw [← ht]
    rfl
  refine ⟨hf, ?_, ⟨?_, ?_⟩, hs⟩ <;> rw [hd]
  · exact ht
  · rw [hslots.1]
    exact hc.tracing
  · rw [hslots.2]
    exact hc.packets

section Step
variable {m : Maps S} (h : m.Fits) {d : Debug} (hc : m.Counts d) (t : Tuple) (family argument : UInt32) (socket : S)
include h hc

theorem agrees_connected :
    Agrees (sockOps m (contextOf t opConnected family argument socket))
      ((⟨defaultSidecar, m.tablesWith d⟩ : Bypass S).handle (.connected ⟨familyOf family, t, socket⟩)) := by
  have hk := maps_sockOps_contextOf m t opConnected family argument socket
  rw [if_pos rfl] at hk
  refine Agrees.of_lifecycle hc hk ?_ ?_ (slots_sockOps _ _) (redirectedTo_sockOps _ _)
  · split
    · exact h.connected t socket
    · exact h
  · split
    · rename_i hi
      exact Maps.tablesWith_connected h d ⟨familyOf family, t, socket⟩ hi
    · rename_i hi
      simp only [Bypass.handle, Tables.tables_connected, if_pos (Bool.eq_false_iff.2 hi)]

theorem agrees_accepted (hroom : m.proxy.size + 2 ≤ m.limit) :
    Agrees (sockOps m (contextOf t opAccepted family argument socket))
      ((⟨defaultSidecar, m.tablesWith d⟩ : Bypass S).handle (.accepted ⟨familyOf family, t, socket⟩)) := by
  have hk := maps_sockOps_contextOf m t opAccepted family argument socket
  rw [if_neg (show opAccepted ≠ opConnected by decide), if_pos rfl] at hk
  refine Agrees.of_lifecycle hc hk ?_ ?_ (slots_sockOps _ _) (redirectedTo_sockOps _ _)
  · split
    · exact h.accepted t socket
    · exact h
  · split
    · rename_i hi
      exact Maps.tablesWith_accepted h hroom d ⟨familyOf family, t, socket⟩ hi
    · rename_i hi
      simp only [Bypass.handle, Tables.tables_accepted, if_pos (Bool.eq_false_iff.2 hi)]

theorem agrees_changed {state : TcpState} (agree : argument = tcpClose ↔ state = .close) :
    Agrees ((Occasion.changed family argument socket state agree).meet m t)
      ((⟨defaultSidecar, m.tablesWith d⟩ : Bypass S).handle (.stateChanged ⟨familyOf family, t, socket⟩ state)) := by
  have hk := maps_sockOps_contextOf m t opState family argument socket
  rw [if_neg (show opState ≠ opConnected by decide), if_neg (show opState ≠ opAccepted by decide)] at hk
  have hslots := slots_sockOps m (contextOf t opState family argument socket)
  have hto := redirectedTo_sockOps m (contextOf t opState family argument socket)
  simp only [Occasion.meet, isIpv4_contextOf, key_contextOf]
  by_cases hclose : (⟨familyOf family, t, socket⟩ : Socket S).isIpv4 = true ∧ argument = tcpClose
  · obtain ⟨hi, ha⟩ := hclose
    rw [if_pos hi, if_pos ⟨rfl, ha⟩] at hk
    rw [if_pos ⟨hi, ha⟩, agree.1 ha]
    refine Agrees.of_lifecycle (k := (m.closed t.raw).socketDied t.raw) hc ?_ ?_ ?_ hslots hto
    · exact congrArg (·.socketDied t.raw) hk
    · exact h.closed t
    · exact Maps.tablesWith_closed h d ⟨familyOf family, t, socket⟩ hi
  · rw [if_neg hclose]
    refine Agrees.of_lifecycle (k := m) hc ?_ h ?_ hslots hto
    · rw [hk]
      split
      · rename_i hi
        rw [if_neg fun h => hclose ⟨hi, h.2⟩]
      · rfl
    · simp only [Bypass.handle, Tables.tables_stateChanged]
      rw [if_neg fun h => hclose ⟨h.1, agree.2 h.2⟩]

theorem agrees_message :
    Agrees (redirectMessage m (messageContextOf t))
      ((⟨defaultSidecar, m.tablesWith d⟩ : Bypass S).handle (.message t)) := by
  unfold redirectMessage
  rw [key_messageContextOf]
  exact ⟨h.message t.raw, Maps.tablesWith_message h d _ t, Maps.counts_message h hc t, Maps.redirectedTo_raw h d t⟩

end Step

/-- Whatever a socket meets, the programs and the handlers do the same. -/
theorem agrees_meet {m : Maps S} (h : m.Fits) (hroom : m.proxy.size + 2 ≤ m.limit) {d : Debug} (hc : m.Counts d)
    (t : Tuple) (o : Occasion S) :
    Agrees (o.meet m t) ((⟨defaultSidecar, m.tablesWith d⟩ : Bypass S).handle (o.event t)) := by
  cases o with
  | connected family argument socket => exact agrees_connected h hc t family argument socket
  | accepted family argument socket => exact agrees_accepted h hc t family argument socket hroom
  | changed family argument socket state agree => exact agrees_changed h hc t family argument socket agree
  | message => exact agrees_message h hc t

/-- Read row by row, the maps after a program has run are the tables after its
handler has. A message goes to the socket of the verdict, and the units counted
are the same up to the width of the kernel's counter. -/
theorem programs_agree_with_handlers (m : Maps S) (h : m.Fits) (hroom : m.proxy.size + 2 ≤ m.limit) (t : Tuple)
    (o : Occasion S) :
    let k := o.meet m t
    let r := (⟨defaultSidecar, m.tables⟩ : Bypass S).handle (o.event t)
    (k.maps.tables.pending = r.tables.pending ∧ k.maps.tables.proxy = r.tables.proxy ∧
        k.maps.tables.redirect = r.tables.redirect) ∧
      k.redirectedTo = r.reply.socket? ∧
      k.maps.tables.debug.isEnabled = r.tables.debug.isEnabled ∧
      k.maps.packets = r.tables.debug.packets.toUInt32 ∧
      k.maps.Fits := by
  intro k r
  have ha : Agrees k r := agrees_meet h hroom m.counts_debug t o
  have hp := congrArg Tables.pending ha.tables
  have hx := congrArg Tables.proxy ha.tables
  have hr := congrArg Tables.redirect ha.tables
  refine ⟨⟨hp, hx, hr⟩, ha.socket, ?_, ha.counts.packets, ha.fits⟩
  rw [Bool.eq_iff_iff, ha.counts.tracing]
  exact k.maps.counts_debug.tracing

/-- An accept that finds its origin, on maps with just room for its pair. -/
theorem programs_agree_with_handlers_on_accept :
    let t : Tuple := ⟨⟨⟨10, 0, 0, 2⟩, 8080⟩, ⟨⟨10, 0, 0, 1⟩, 40000⟩⟩
    let m : Maps Nat := { Maps.empty with
      limit := 2
      pending := (∅ : Std.ExtTreeMap RawEndpoint RawEndpoint).insert t.peer.raw (Endpoint.raw ⟨⟨10, 0, 0, 9⟩, 80⟩) }
    let k := (Occasion.accepted familyInet 0 7).meet m t
    let r := (⟨defaultSidecar, m.tables⟩ : Bypass Nat).handle ((Occasion.accepted familyInet 0 7).event t)
    m.Fits ∧ m.proxy.size + 2 ≤ m.limit ∧ k.maps.tables.pending = r.tables.pending ∧
      k.maps.tables.proxy = r.tables.proxy ∧ k.maps.tables.redirect = r.tables.redirect := by
  intro t m k r
  have hfits : m.Fits :=
    ⟨every_empty.insert ⟨t.peer.fits_raw, Endpoint.fits_raw _⟩, every_empty, every_empty⟩
  have hroom : m.proxy.size + 2 ≤ m.limit := by simp [m, Maps.empty]
  exact ⟨hfits, hroom, (programs_agree_with_handlers m hfits hroom t (.accepted familyInet 0 7)).1⟩

/-! ## Runs -/

/-- The maps after each of the sockets has met its occasion, the earliest first. -/
def Maps.run (m : Maps S) (os : List (Tuple × Occasion S)) : Maps S :=
  os.foldl (fun m o => (o.2.meet m o.1).maps) m

/-- As long as there is room for a pair before each step, maps and tables keep
together. -/
theorem run_agrees {m : Maps S} (h : m.Fits) {d : Debug} (hc : m.Counts d) (os : List (Tuple × Occasion S))
    (hroom : ∀ pre post, os = pre ++ post → (m.run pre).proxy.size + 2 ≤ (m.run pre).limit) :
    let T := ((⟨defaultSidecar, m.tablesWith d⟩ : Bypass S).run (os.map fun o => o.2.event o.1)).tables
    (m.run os).Fits ∧ (m.run os).tablesWith T.debug = T ∧ (m.run os).Counts T.debug := by
  induction os generalizing m d with
  | nil => exact ⟨h, rfl, hc⟩
  | cons o os ih =>
    have ha := agrees_meet h (hroom [] _ rfl) hc o.1 o.2
    have ih := ih ha.fits ha.counts fun pre post he => hroom (o :: pre) post (by rw [he]; rfl)
    rw [ha.tables] at ih
    exact ih

end Splice.Kernel
