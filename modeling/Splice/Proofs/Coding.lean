import Splice.Bypass
import Splice.Proofs.Programs
import Splice.Proofs.Proxy
/-!
# Map words and what they stand for

A kernel map keeps a port in a 32-bit word, so a key whose upper half is not
zero is read as another one. Reading and writing are inverse where ports fit
(`Coding`), and there a map read row by row is a table with its rows and as many
of them: putting, adding and erasing a row are the same before and after reading.
-/

namespace Splice

/-! ## Words -/

theorem Ipv4.word_inj {x y : Ipv4} : x.word = y.word ↔ x = y :=
  ⟨fun h => by rw [← ofWord_word x, h, ofWord_word], fun h => h ▸ rfl⟩

theorem Ipv4.word_defaultSidecar : defaultSidecar.word = Kernel.sidecarWord := by decide

theorem Ipv4.word_unspecified : unspecified.word = 0 := by decide

theorem Endpoint.raw_sidecar {e : Endpoint} : e.raw.ip4 = Kernel.sidecarWord ↔ e.addr = defaultSidecar := by
  rw [← Ipv4.word_defaultSidecar]
  exact Ipv4.word_inj

theorem swapOctets_word (x : Ipv4) : swapOctets x.word = (⟨x.d, x.c, x.b, x.a⟩ : Ipv4).word := by
  have h : swapOctets x.word =
      (⟨(Ipv4.ofWord x.word).d, (Ipv4.ofWord x.word).c, (Ipv4.ofWord x.word).b, (Ipv4.ofWord x.word).a⟩ : Ipv4).word :=
    rfl
  rw [h, Ipv4.ofWord_word]

theorem swapOctets_swapOctets (w : UInt32) : swapOctets (swapOctets w) = w := by
  rw [← Ipv4.word_ofWord w, swapOctets_word, swapOctets_word]

/-! ## Endpoints and tuples -/

/-- The port word holds a port. -/
def RawEndpoint.Fits (r : RawEndpoint) : Prop := r.port.toNat < 65536

/-- Both port words hold a port. -/
def RawTuple.Fits (r : RawTuple) : Prop := r.own.Fits ∧ r.peer.Fits

theorem Endpoint.endpoint_raw (e : Endpoint) : e.raw.endpoint = e := by
  have hp := e.port.toNat_lt
  obtain ⟨addr, port⟩ := e
  simp only [raw, RawEndpoint.endpoint, Ipv4.ofWord_word, mk.injEq, true_and] at *
  apply UInt16.toNat_inj.1
  rw [UInt16.toNat_ofNat', UInt32.toNat_ofNat']
  omega

theorem Endpoint.fits_raw (e : Endpoint) : e.raw.Fits := by
  have hp := e.port.toNat_lt
  simp only [raw, RawEndpoint.Fits, UInt32.toNat_ofNat']
  omega

theorem RawEndpoint.raw_endpoint {r : RawEndpoint} (h : r.Fits) : r.endpoint.raw = r := by
  obtain ⟨ip4, port⟩ := r
  simp only [Fits, endpoint, Endpoint.raw, Ipv4.word_ofWord, mk.injEq, true_and] at *
  apply UInt32.toNat_inj.1
  rw [UInt32.toNat_ofNat', UInt16.toNat_ofNat']
  omega

@[simp] theorem Tuple.own_raw (t : Tuple) : t.raw.own = t.own.raw := rfl

@[simp] theorem Tuple.peer_raw (t : Tuple) : t.raw.peer = t.peer.raw := rfl

theorem Tuple.tuple_raw (t : Tuple) : t.raw.tuple = t := by
  simp only [raw, RawTuple.tuple, Endpoint.endpoint_raw]

theorem Tuple.fits_raw (t : Tuple) : t.raw.Fits := ⟨t.own.fits_raw, t.peer.fits_raw⟩

theorem RawTuple.raw_tuple {r : RawTuple} (h : r.Fits) : r.tuple.raw = r := by
  simp only [tuple, Tuple.raw, RawEndpoint.raw_endpoint h.1, RawEndpoint.raw_endpoint h.2]

/-- A flag is read as a state other than disabled only if it is the state's
number. -/
theorem ofFlag_eq_iff {n : UInt32} {s : ProxyState} (hs : s ≠ .disabled) : ProxyState.ofFlag n = s ↔ n = s.flag := by
  constructor
  · rintro rfl
    unfold ProxyState.ofFlag at *
    split at hs <;> rename_i hi
    · rw [if_pos hi, hi]
      rfl
    split at hs <;> rename_i he
    · rw [if_neg hi, if_pos he, he]
      rfl
    · exact (hs rfl).elim
  · rintro rfl
    exact ProxyState.ofFlag_flag s

/-- Stored keys and the keys they stand for: whatever is written is read back,
and a stored key that fits is what its reading is written as. -/
structure Coding (κ κ' : Type) where
  read : κ → κ'
  write : κ' → κ
  Fits : κ → Prop
  fits_write : ∀ k, Fits (write k)
  read_write : ∀ k, read (write k) = k
  write_read : ∀ {r}, Fits r → write (read r) = r

def endpointCoding : Coding RawEndpoint Endpoint :=
  ⟨RawEndpoint.endpoint, Endpoint.raw, RawEndpoint.Fits, Endpoint.fits_raw, Endpoint.endpoint_raw,
    RawEndpoint.raw_endpoint⟩

def tupleCoding : Coding RawTuple Tuple :=
  ⟨RawTuple.tuple, Tuple.raw, RawTuple.Fits, Tuple.fits_raw, Tuple.tuple_raw, RawTuple.raw_tuple⟩

@[simp] theorem write_endpointCoding (e : Endpoint) : endpointCoding.write e = e.raw := rfl

@[simp] theorem write_tupleCoding (t : Tuple) : tupleCoding.write t = t.raw := rfl

theorem Coding.write_inj {κ κ' : Type} (c : Coding κ κ') {j k : κ'} : c.write j = c.write k ↔ j = k :=
  ⟨fun h => by rw [← c.read_write j, h, c.read_write], fun h => h ▸ rfl⟩

/-! ## A map read as a table -/

namespace Coding

open Kernel

variable {κ κ' α β : Type} [Ord κ] [Std.TransOrd κ] [Std.LawfulEqOrd κ]
variable [Ord κ'] [Std.TransOrd κ'] [Std.LawfulEqOrd κ'] [DecidableEq κ']
variable (c : Coding κ κ') (name : TableName) (limit : Nat) (g : α → β) {m : Std.ExtTreeMap κ α} {k : κ'} {v : α}

/-- The rows of a map, each read on its own. -/
def rows (m : Std.ExtTreeMap κ α) : Std.ExtTreeMap κ' β :=
  .ofList (m.toList.map fun row => (c.read row.1, g row.2))

/-- The table that a map of at most `limit` rows stands for. -/
def table (m : Std.ExtTreeMap κ α) : Table κ' β := ⟨name, limit, (c.rows g m).size, c.rows g m⟩

section Fitting
variable (h : Every (fun k _ => c.Fits k) m)
include h

omit [Std.TransOrd κ'] [DecidableEq κ'] in
/-- Keys that fit are read as different keys. -/
theorem distinct_rows :
    (m.toList.map fun row => (c.read row.1, g row.2)).Pairwise fun a b => ¬compare a.1 b.1 = .eq := by
  rw [List.pairwise_map]
  refine (Std.ExtTreeMap.distinct_keys_toList (t := m)).imp_of_mem fun {x y} hx hy hne heq => hne ?_
  have hx := h _ _ (Std.ExtTreeMap.mem_toList_iff_getElem?_eq_some.1 hx)
  have hy := h _ _ (Std.ExtTreeMap.mem_toList_iff_getElem?_eq_some.1 hy)
  have hr : c.read x.1 = c.read y.1 := Std.LawfulEqOrd.eq_of_compare heq
  rw [← c.write_read hx, ← c.write_read hy, hr]
  exact Std.ReflOrd.compare_self

omit [DecidableEq κ'] in
theorem size_table : (c.table name limit g m).size = m.size := by
  simp only [table, rows]
  rw [Std.ExtTreeMap.size_ofList (c.distinct_rows g h), List.length_map, Std.ExtTreeMap.length_toList]

theorem get?_table (k : κ') : (c.table name limit g m).get? k = m[c.write k]?.map g := by
  simp only [table, Table.get?, rows]
  cases hv : m[c.write k]? with
  | none =>
    refine Std.ExtTreeMap.getElem?_ofList_of_contains_eq_false ?_
    rw [List.contains_eq_mem, decide_eq_false_iff_not]
    intro hk
    simp only [List.map_map, List.mem_map, Function.comp_apply] at hk
    obtain ⟨⟨r, w⟩, hr, rfl⟩ := hk
    have hr := Std.ExtTreeMap.mem_toList_iff_getElem?_eq_some.1 hr
    rw [c.write_read (h _ _ hr), hr] at hv
    cases hv
  | some v =>
    have hm : (k, g v) ∈ m.toList.map fun row => (c.read row.1, g row.2) := by
      refine List.mem_map.2 ⟨(c.write k, v), Std.ExtTreeMap.mem_toList_iff_getElem?_eq_some.2 hv, ?_⟩
      rw [c.read_write]
    exact Std.ExtTreeMap.getElem?_ofList_of_mem Std.ReflOrd.compare_self (c.distinct_rows g h) hm

theorem isSome_get?_table (k : κ') : ((c.table name limit g m).get? k).isSome ↔ c.write k ∈ m := by
  rw [c.get?_table name limit g h, Option.isSome_map, Std.ExtTreeMap.isSome_getElem?_iff_mem]

theorem hasRoom_table (k : κ') : (c.table name limit g m).HasRoom k ↔ c.write k ∈ m ∨ m.size < limit := by
  unfold Table.HasRoom
  rw [c.isSome_get?_table name limit g h, c.size_table name limit g h]
  rfl

end Fitting

/-! ## What is written and what is read -/

section Operations
variable (h : Every (fun k _ => c.Fits k) m) (k : κ') (v : α)
include h

theorem table_insert : c.table name limit g (m.insert (c.write k) v) = (c.table name limit g m).put k (g v) := by
  have h' : Every (fun k _ => c.Fits k) (m.insert (c.write k) v) := h.insert (c.fits_write k)
  refine Table.ext_get? rfl rfl ?_ fun j => ?_
  · rw [c.size_table name limit g h', Std.ExtTreeMap.size_insert]
    simp only [Table.put, c.isSome_get?_table name limit g h, c.size_table name limit g h,
      ← Std.ExtTreeMap.mem_iff_contains]
  · rw [c.get?_table name limit g h', Table.get?_put, c.get?_table name limit g h, Std.ExtTreeMap.getElem?_insert]
    simp only [Std.compare_eq_iff_eq, c.write_inj]
    split <;> rfl

theorem table_erase : c.table name limit g (m.erase (c.write k)) = ((c.table name limit g m).remove k).1 := by
  have h' : Every (fun k _ => c.Fits k) (m.erase (c.write k)) := h.erase
  refine Table.ext_get? ?_ ?_ ?_ fun j => ?_
  · rw [Table.name_remove]
    rfl
  · rw [Table.capacity_remove]
    rfl
  · rw [c.size_table name limit g h', Std.ExtTreeMap.size_erase, Table.size_remove]
    simp only [c.isSome_get?_table name limit g h, c.size_table name limit g h, ← Std.ExtTreeMap.mem_iff_contains]
  · rw [c.get?_table name limit g h', Table.get?_remove, c.get?_table name limit g h, Std.ExtTreeMap.getElem?_erase]
    simp only [Std.compare_eq_iff_eq, c.write_inj]
    split <;> rfl

theorem table_putRow :
    c.table name limit g (putRow limit m (c.write k) v) = (c.table name limit g m).tryPut k (g v) := by
  unfold putRow Table.tryPut
  simp only [c.hasRoom_table name limit g h]
  split
  · exact c.table_insert name limit g h k v
  · rfl

theorem table_addRow :
    c.table name limit g (addRow limit m (c.write k) v) = (c.table name limit g m).tryAdd k (g v) := by
  unfold addRow Table.tryAdd
  simp only [c.isSome_get?_table name limit g h]
  split
  · rfl
  · exact c.table_putRow name limit g h k v

end Operations

end Coding

end Splice
