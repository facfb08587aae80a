import Splice.Proofs.Calls
/-!
# Pairs that find no room

The lifecycle program tries the two rows of a pair one by one and looks at
neither result. What a pair needs and what the map has room for decide between
the whole pair, half of it, and nothing: where exactly one place is short, one row
is written and its partner is not.
-/

namespace Splice.Kernel

variable {S : Type}

namespace Maps

variable {m : Maps S} {a b j k p : RawTuple} {entry : RawEntry}

/-! ## Room and need -/

/-- The proxy map takes this many new keys. -/
def room (m : Maps S) : Nat := m.limit - m.proxy.size

/-- How many new keys a row of `k` needs. -/
def need (m : Maps S) (k : RawTuple) : Nat := if k ∈ m.proxy then 0 else 1

/-- How many new keys the rows of a pair need. -/
def missing (m : Maps S) (a b : RawTuple) : Nat := m.need a + if a = b then 0 else m.need b

theorem need_le_one (m : Maps S) (k : RawTuple) : m.need k ≤ 1 := by
  unfold need
  split <;> decide

theorem need_eq_one : m.need k = 1 ↔ m.proxy[k]? = none := by
  unfold need
  split <;> simp_all

/-! ## One try -/

/-- Tries a row. -/
def put (m : Maps S) (k : RawTuple) (entry : RawEntry) : Maps S :=
  { m with proxy := putRow m.limit m.proxy k entry }

theorem pair_eq (m : Maps S) (a b : RawTuple) :
    m.pair a b = (m.put a ⟨b, ProxyState.init.flag⟩).put b ⟨a, ProxyState.init.flag⟩ := rfl

theorem fits_iff : m.need k ≤ m.room ↔ k ∈ m.proxy ∨ m.proxy.size < m.limit := by
  unfold need room
  split
  · simp_all
  · simp_all
    omega

theorem put_eq_insert (h : m.need k ≤ m.room) (entry : RawEntry) :
    m.put k entry = { m with proxy := m.proxy.insert k entry } := by
  unfold put putRow
  rw [if_pos (fits_iff.1 h)]

theorem put_eq_self (h : m.room < m.need k) (entry : RawEntry) : m.put k entry = m := by
  unfold put putRow
  rw [if_neg fun hf => absurd (fits_iff.2 hf) (Nat.not_le.2 h)]

theorem need_put (h : m.need k ≤ m.room) (entry : RawEntry) (j : RawTuple) :
    (m.put k entry).need j = if k = j then 0 else m.need j := by
  rw [put_eq_insert h]
  unfold need
  simp only [Std.ExtTreeMap.mem_insert, Std.LawfulEqOrd.compare_eq_iff_eq]
  split <;> split <;> simp_all

theorem room_put (h : m.need k ≤ m.room) (entry : RawEntry) : (m.put k entry).room = m.room - m.need k := by
  rw [put_eq_insert h]
  unfold room need
  simp only [Std.ExtTreeMap.size_insert, Std.ExtTreeMap.contains_iff_mem]
  by_cases hk : k ∈ m.proxy
  · rw [if_pos hk, if_pos hk, Nat.sub_zero]
  · rw [if_neg hk, if_neg hk, Nat.sub_add_eq]

theorem getElem?_put (h : m.need k ≤ m.room) (entry : RawEntry) (j : RawTuple) :
    (m.put k entry).proxy[j]? = if k = j then some entry else m.proxy[j]? := by
  rw [put_eq_insert h]
  simp only [Std.ExtTreeMap.getElem?_insert, Std.LawfulEqOrd.compare_eq_iff_eq]

/-! ## Two tries -/

/-- The row of `k` is that of a socket just paired with the socket of `p`. -/
def Fresh (m : Maps S) (k p : RawTuple) : Prop := m.proxy[k]? = some ⟨p, ProxyState.init.flag⟩

/-- Both rows of a pair are there. -/
def HoldsPair (m : Maps S) (a b : RawTuple) : Prop := m.Fresh a b ∧ m.Fresh b a

/-- One row of a pair is there, and the partner has none. -/
def HoldsHalf (m : Maps S) (a b : RawTuple) : Prop :=
  (m.Fresh a b ∧ m.proxy[b]? = none) ∨ (m.Fresh b a ∧ m.proxy[a]? = none)

instance (m : Maps S) (k p : RawTuple) : Decidable (m.Fresh k p) := inferInstanceAs (Decidable (_ = _))

instance (m : Maps S) (a b : RawTuple) : Decidable (m.HoldsPair a b) := inferInstanceAs (Decidable (_ ∧ _))

instance (m : Maps S) (a b : RawTuple) : Decidable (m.HoldsHalf a b) := inferInstanceAs (Decidable (_ ∨ _))

theorem Fresh.ne_none (h : m.Fresh k p) : m.proxy[k]? ≠ none := by
  rw [h]
  exact Option.some_ne_none _

theorem HoldsHalf.not_holdsPair (h : m.HoldsHalf a b) : ¬m.HoldsPair a b := by
  rintro ⟨ha, hb⟩
  rcases h with ⟨-, hn⟩ | ⟨-, hn⟩
  · exact hb.ne_none hn
  · exact ha.ne_none hn

/-- Neither the whole pair nor half of it is there while both sockets lack a row. -/
theorem not_holds_of_none (ha : m.proxy[a]? = none) (hb : m.proxy[b]? = none) :
    ¬m.HoldsPair a b ∧ ¬m.HoldsHalf a b := by
  refine ⟨fun h => h.1.ne_none ha, ?_⟩
  rintro (⟨h, -⟩ | ⟨h, -⟩)
  · exact h.ne_none ha
  · exact h.ne_none hb

/-- With room for all it needs the whole pair is written. -/
theorem holdsPair_of_missing_le (h : m.missing a b ≤ m.room) : (m.pair a b).HoldsPair a b := by
  have hfirst : m.need a ≤ m.room := Nat.le_trans (Nat.le_add_right _ _) h
  have hsecond : (m.put a ⟨b, ProxyState.init.flag⟩).need b ≤ (m.put a ⟨b, ProxyState.init.flag⟩).room := by
    rw [need_put hfirst, room_put hfirst]
    unfold missing at h
    omega
  unfold HoldsPair Fresh
  rw [pair_eq, getElem?_put hsecond, getElem?_put hsecond, getElem?_put hfirst, if_pos rfl, if_pos rfl]
  refine ⟨?_, rfl⟩
  split
  · rename_i hab
    rw [hab]
  · rfl

/-- One place short, one row is written: the first unless it finds no place, and
then the second, whose key is there. -/
theorem holdsHalf_of_missing_eq (hne : a ≠ b) (h : m.missing a b = m.room + 1) : (m.pair a b).HoldsHalf a b := by
  unfold missing at h
  rw [if_neg hne] at h
  by_cases hfirst : m.need a ≤ m.room
  · have hsecond : (m.put a ⟨b, ProxyState.init.flag⟩).room < (m.put a ⟨b, ProxyState.init.flag⟩).need b := by
      rw [need_put hfirst, room_put hfirst, if_neg hne]
      omega
    have hb : m.need b = 1 := by
      have := m.need_le_one b
      omega
    left
    unfold Fresh
    rw [pair_eq, put_eq_self hsecond, getElem?_put hfirst, getElem?_put hfirst, if_pos rfl, if_neg hne]
    exact ⟨rfl, need_eq_one.1 hb⟩
  · have ha : m.need a = 1 := by
      have := m.need_le_one a
      omega
    have hsecond : m.need b ≤ m.room := by omega
    right
    unfold Fresh
    rw [pair_eq, put_eq_self (Nat.lt_of_not_le hfirst), getElem?_put hsecond, getElem?_put hsecond, if_pos rfl,
      if_neg (Ne.symm hne)]
    exact ⟨rfl, need_eq_one.1 ha⟩

/-- Two places short, or one for a socket paired with itself, no row is written,
and there was none. -/
theorem pair_eq_self (h : m.room < m.missing a b) (hn : a ≠ b → m.missing a b ≠ m.room + 1) :
    m.pair a b = m ∧ m.proxy[a]? = none ∧ m.proxy[b]? = none := by
  have ha := m.need_le_one a
  have hb := m.need_le_one b
  have hneed : m.room < m.need a ∧ m.room < m.need b := by
    by_cases hab : a = b
    · subst hab
      rw [missing, if_pos rfl] at h
      exact ⟨h, h⟩
    · have hn := hn hab
      rw [missing, if_neg hab] at h hn
      omega
  refine ⟨?_, need_eq_one.1 (by omega), need_eq_one.1 (by omega)⟩
  rw [pair_eq, put_eq_self hneed.1, put_eq_self hneed.2]

/-- What is missing and what there is room for settle what a pair leaves. -/
theorem pair_outcome (m : Maps S) (a b : RawTuple) :
    ((m.pair a b).HoldsPair a b ↔ m.missing a b ≤ m.room) ∧
      ((m.pair a b).HoldsHalf a b ↔ a ≠ b ∧ m.missing a b = m.room + 1) ∧
      (¬(m.pair a b).HoldsPair a b → ¬(m.pair a b).HoldsHalf a b → m.pair a b = m) := by
  by_cases hle : m.missing a b ≤ m.room
  · have hwhole := holdsPair_of_missing_le hle
    refine ⟨iff_of_true hwhole hle, iff_of_false (fun h => h.not_holdsPair hwhole) ?_, fun h => absurd hwhole h⟩
    omega
  by_cases hone : a ≠ b ∧ m.missing a b = m.room + 1
  · have hhalf := holdsHalf_of_missing_eq hone.1 hone.2
    exact ⟨iff_of_false hhalf.not_holdsPair hle, iff_of_true hhalf hone, fun _ h => absurd hhalf h⟩
  · obtain ⟨hsame, ha, hb⟩ := pair_eq_self (Nat.lt_of_not_le hle) (not_and.1 hone)
    rw [hsame]
    obtain ⟨hwhole, hhalf⟩ := not_holds_of_none ha hb
    exact ⟨iff_of_false hwhole hle, iff_of_false hhalf hone, fun _ _ => rfl⟩

/-! ## Data of a socket with a new row -/

/-- The tuple names the sidecar at neither end. -/
def OffSidecar (k : RawTuple) : Prop := ¬(k.own.ip4 = sidecarWord ∨ k.peer.ip4 = sidecarWord)

instance (k : RawTuple) : Decidable (OffSidecar k) := inferInstanceAs (Decidable (¬_))

/-- The first data unit passes, and the second goes to the partner's socket. -/
theorem Fresh.redirectedTo (h : m.Fresh k p) (hk : OffSidecar k) :
    (m.message k).redirectedTo = none ∧ ((m.message k).maps.message k).redirectedTo = m.redirect[p]? := by
  have harm : arm m.proxy k = m.proxy.insert k ⟨p, ProxyState.enabled.flag⟩ := by
    unfold arm
    rw [h]
    rfl
  rw [redirectedTo_message, redirectedTo_message, if_neg hk, if_neg hk, maps_message, if_neg hk, harm, h]
  refine ⟨rfl, ?_⟩
  dsimp only
  rw [Std.ExtTreeMap.getElem?_insert_self, Option.bind_some, if_pos rfl]

/-- Without a row every data unit passes. -/
theorem redirectedTo_of_none (h : m.proxy[k]? = none) (hk : OffSidecar k) : (m.message k).redirectedTo = none := by
  rw [redirectedTo_message, if_neg hk, h]
  rfl

end Maps

/-! ## An accept that finds an origin -/

section Accept
variable {m : Maps S} {c : SocketContext S} {origin : RawEndpoint}

theorem proxy_sockOps_of_origin (hi : c.isIpv4 = true) (ho : c.op = opAccepted)
    (hp : m.pending[c.key.peer]? = some origin) :
    (sockOps m c).maps.proxy = (m.pair ⟨c.key.peer, origin⟩ c.key).proxy := by
  rw [maps_sockOps, if_pos hi, Maps.track, if_neg (by rw [ho]; decide), if_pos ho, Maps.accepted_eq, hp]
  rfl

/-- An accept that finds an origin writes the whole pair exactly if the proxy map
has room for the keys that are missing, half of it exactly if it is one place
short, and no row otherwise. Of half a pair, the socket that got a row leaves the
proxy path with its second data unit, and its partner's data keeps to it. -/
theorem accept_halves_pair_one_place_short (hi : c.isIpv4 = true) (ho : c.op = opAccepted)
    (hp : m.pending[c.key.peer]? = some origin) :
    let initiator : RawTuple := ⟨c.key.peer, origin⟩
    let after := (sockOps m c).maps
    (after.HoldsPair initiator c.key ↔ m.missing initiator c.key ≤ m.room) ∧
      (after.HoldsHalf initiator c.key ↔ initiator ≠ c.key ∧ m.missing initiator c.key = m.room + 1) ∧
      (¬after.HoldsPair initiator c.key → ¬after.HoldsHalf initiator c.key → after.proxy = m.proxy) ∧
      ∀ k p, after.Fresh k p → after.proxy[p]? = none → Maps.OffSidecar k → Maps.OffSidecar p →
        ((after.message k).maps.message k).redirectedTo = after.redirect[p]? ∧
          (after.message p).redirectedTo = none := by
  intro initiator after
  have hproxy : after.proxy = (m.pair initiator c.key).proxy := proxy_sockOps_of_origin hi ho hp
  have hpair : after.HoldsPair initiator c.key ↔ (m.pair initiator c.key).HoldsPair initiator c.key := by
    unfold Maps.HoldsPair Maps.Fresh
    rw [hproxy]
  have hhalf : after.HoldsHalf initiator c.key ↔ (m.pair initiator c.key).HoldsHalf initiator c.key := by
    unfold Maps.HoldsHalf Maps.Fresh
    rw [hproxy]
  obtain ⟨hwhole, hone, hnone⟩ := m.pair_outcome initiator c.key
  rw [hpair, hhalf, hproxy]
  refine ⟨hwhole, hone, fun hp hh => congrArg Maps.proxy (hnone hp hh), ?_⟩
  intro k p hrow hnorow hk hoff
  rw [← hproxy] at hnorow
  exact ⟨(hrow.redirectedTo hk).2, Maps.redirectedTo_of_none hnorow hoff⟩

end Accept

/-! ## One place left -/

namespace OnePlace

/-- A client's socket. -/
def dialer (n : UInt32) : RawTuple := ⟨⟨0x0500000a, n⟩, ⟨0x0900000a, 8080⟩⟩

/-- The proxy's socket that accepts from the own endpoint of `k`. -/
def acceptor (k : RawTuple) : RawTuple := ⟨⟨0x0500000a, 15001⟩, k.own⟩

/-- Of three clients one is paired, one has closed, and one waits. -/
def calls (limit : Nat) : List (Call Nat) :=
  [.setLimit limit,
    .lifecycle (.inet opConnected (dialer 40001) 0 1),
    .lifecycle (.inet opConnected (dialer 40002) 0 2),
    .lifecycle (.inet opConnected (dialer 40003) 0 3),
    .lifecycle (.inet opAccepted (acceptor (dialer 40001)) 0 4),
    .lifecycle (.inet opState (dialer 40002) tcpClose 2),
    .socketDied (dialer 40002)]

def late : SocketContext Nat := .inet opAccepted (acceptor (dialer 40003)) 0 5

end OnePlace

/-- With room for four rows the client that waits gets its pair. -/
theorem accept_completes_pair_with_two_places :
    let m := Maps.empty.callAll (OnePlace.calls 4)
    let after := (sockOps m OnePlace.late).maps
    m.room = 2 ∧ after.HoldsPair (OnePlace.dialer 40003) (OnePlace.acceptor (OnePlace.dialer 40003)) := by
  intro m after
  have hp : m.pending[OnePlace.late.key.peer]? = some (OnePlace.dialer 40003).peer := by decide +kernel
  obtain ⟨hwhole, -⟩ := accept_halves_pair_one_place_short (by decide) rfl hp
  exact ⟨by decide +kernel, hwhole.2 (by decide +kernel)⟩

/-- With room for three its own row takes the last place. The acceptor has none,
and the client's second data unit goes to the acceptor's socket all the same. -/
theorem last_place_takes_half_pair :
    let m := Maps.empty.callAll (OnePlace.calls 3)
    let after := (sockOps m OnePlace.late).maps
    let waiting := OnePlace.dialer 40003
    OnePlace.late.isIpv4 = true ∧ OnePlace.late.op = opAccepted ∧
      m.pending[OnePlace.late.key.peer]? = some waiting.peer ∧
      ¬(after.HoldsPair waiting OnePlace.late.key ∨ after.proxy = m.proxy) ∧
      ((after.message waiting).maps.message waiting).redirectedTo = some 5 ∧
      (after.message OnePlace.late.key).redirectedTo = none := by
  intro m after waiting
  have hbefore : m.proxy[waiting]? = none := by decide +kernel
  have hafter : after.proxy[waiting]? ≠ none := by decide +kernel
  have hhalf : ¬after.HoldsPair waiting OnePlace.late.key := by decide +kernel
  refine ⟨by decide, rfl, by decide +kernel, ?_, by decide +kernel, by decide +kernel⟩
  rintro (hwhole | hsame)
  · exact hhalf hwhole
  · rw [hsame] at hafter
    exact hafter hbefore

end Splice.Kernel
