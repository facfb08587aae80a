import Mathlib.Data.Nat.Digits.Defs
import Splice.Proofs.Coding
/-!
# What is kept of a stored form

What is stored is read back as it was. The other way a stored form can hold more
than its reading keeps: of a port word the lower half counts, and a flag that is
no state's number reads as disabled. `narrow` is a stored form without what its
reading drops, and reading a form and storing that again gives exactly this.
-/

namespace Splice

/-! ## Stored forms and their readings -/

/-- Nothing is lost on the way through a store, and what a reader drops of a stored
form is what `narrow` takes off. -/
structure Faithful {α β : Type} (store : β → α) (read : α → β) (narrow : α → α) (Fits : α → Prop) : Prop where
  read_store : ∀ x, read (store x) = x
  injective : store.Injective
  store_read : ∀ r, store (read r) = narrow r
  store_read_iff : ∀ r, store (read r) = r ↔ Fits r

theorem Faithful.of {α β : Type} {store : β → α} {read : α → β} {narrow : α → α} {Fits : α → Prop}
    (hread : ∀ x, read (store x) = x) (hstore : ∀ r, store (read r) = narrow r) (hfits : ∀ r, narrow r = r ↔ Fits r) :
    Faithful store read narrow Fits where
  read_store := hread
  injective := Function.LeftInverse.injective hread
  store_read := hstore
  store_read_iff r := by rw [hstore, hfits]

/-! ## Endpoints -/

namespace RawEndpoint

/-- The stored endpoint with the upper half of its port word cleared. -/
def narrow (r : RawEndpoint) : RawEndpoint := { r with port := r.port &&& 0xffff }

theorem toNat_port_narrow (r : RawEndpoint) : r.narrow.port.toNat = r.port.toNat % 65536 := by
  rw [narrow, UInt32.toNat_and]
  exact Nat.and_two_pow_sub_one_eq_mod r.port.toNat 16

theorem raw_endpoint_eq_narrow (r : RawEndpoint) : r.endpoint.raw = r.narrow := by
  have hport : r.endpoint.raw.port = r.narrow.port := by
    apply UInt32.toNat_inj.1
    rw [toNat_port_narrow]
    simp only [endpoint, Endpoint.raw, UInt32.toNat_ofNat', UInt16.toNat_ofNat']
    omega
  calc r.endpoint.raw = ⟨(Ipv4.ofWord r.ip4).word, r.endpoint.raw.port⟩ := rfl
    _ = ⟨r.ip4, r.narrow.port⟩ := by rw [Ipv4.word_ofWord, hport]

theorem narrow_eq_iff (r : RawEndpoint) : r.narrow = r ↔ r.Fits := by
  have hport := r.toNat_port_narrow
  unfold Fits
  constructor
  · intro h
    rw [h] at hport
    omega
  · intro h
    have hsame : r.narrow.port = r.port := UInt32.toNat_inj.1 (by omega)
    calc r.narrow = ⟨r.ip4, r.narrow.port⟩ := rfl
      _ = r := by rw [hsame]

end RawEndpoint

theorem faithful_endpoint : Faithful Endpoint.raw RawEndpoint.endpoint RawEndpoint.narrow RawEndpoint.Fits :=
  .of Endpoint.endpoint_raw RawEndpoint.raw_endpoint_eq_narrow RawEndpoint.narrow_eq_iff

/-! ## Tuples -/

namespace RawTuple

/-- The stored tuple with the upper halves of its port words cleared. -/
def narrow (r : RawTuple) : RawTuple := ⟨r.own.narrow, r.peer.narrow⟩

theorem raw_tuple_eq_narrow (r : RawTuple) : r.tuple.raw = r.narrow := by
  unfold tuple Tuple.raw narrow
  rw [r.own.raw_endpoint_eq_narrow, r.peer.raw_endpoint_eq_narrow]

theorem narrow_eq_iff (r : RawTuple) : r.narrow = r ↔ r.Fits := by
  obtain ⟨own, peer⟩ := r
  simp only [narrow, Fits, mk.injEq, RawEndpoint.narrow_eq_iff]

theorem tuple_reversed (r : RawTuple) : r.reversed.tuple = r.tuple.reversed := rfl

end RawTuple

theorem Tuple.raw_reversed (t : Tuple) : t.reversed.raw = t.raw.reversed := rfl

theorem faithful_tuple : Faithful Tuple.raw RawTuple.tuple RawTuple.narrow RawTuple.Fits :=
  .of Tuple.tuple_raw RawTuple.raw_tuple_eq_narrow RawTuple.narrow_eq_iff

/-! ## Proxy rows -/

theorem ProxyState.flag_ofFlag (n : UInt32) : (ofFlag n).flag = if n = 1 ∨ n = 2 then n else 0 := by
  unfold ofFlag
  by_cases hinit : n = 1
  · rw [if_pos hinit, if_pos (.inl hinit), hinit]
    rfl
  · by_cases henabled : n = 2
    · rw [if_neg hinit, if_pos henabled, if_pos (.inr henabled), henabled]
      rfl
    · rw [if_neg hinit, if_neg henabled, if_neg (not_or.2 ⟨hinit, henabled⟩)]
      rfl

theorem ProxyEntry.entry_raw (row : ProxyEntry) : row.raw.entry = row := by
  unfold raw RawEntry.entry
  rw [Tuple.tuple_raw, ProxyState.ofFlag_flag]

namespace RawEntry

/-- The stored row with the upper halves of its port words cleared and a flag other
than those of the live states replaced by 0. -/
def narrow (r : RawEntry) : RawEntry := ⟨r.redirect.narrow, if r.flag = 1 ∨ r.flag = 2 then r.flag else 0⟩

/-- The ports fit and the flag is a state's number. -/
def Fits (r : RawEntry) : Prop := r.redirect.Fits ∧ r.flag ≤ 2

theorem raw_entry_eq_narrow (r : RawEntry) : r.entry.raw = r.narrow := by
  unfold entry ProxyEntry.raw narrow
  rw [r.redirect.raw_tuple_eq_narrow, ProxyState.flag_ofFlag]

theorem flag_narrow_eq_iff (n : UInt32) : (if n = 1 ∨ n = 2 then n else 0) = n ↔ n ≤ 2 := by
  have hle : n ≤ 2 ↔ n = 0 ∨ n = 1 ∨ n = 2 := by
    simp only [UInt32.le_iff_toNat_le, ← UInt32.toNat_inj]
    change n.toNat ≤ 2 ↔ n.toNat = 0 ∨ n.toNat = 1 ∨ n.toNat = 2
    omega
  rw [hle]
  split
  · rename_i h
    exact iff_of_true rfl (.inr h)
  · rename_i h
    exact ⟨fun hzero => .inl hzero.symm, fun hn => (hn.resolve_right h).symm⟩

theorem narrow_eq_iff (r : RawEntry) : r.narrow = r ↔ r.Fits := by
  obtain ⟨redirect, flag⟩ := r
  simp only [narrow, Fits, mk.injEq, RawTuple.narrow_eq_iff, flag_narrow_eq_iff]

end RawEntry

theorem faithful_entry : Faithful ProxyEntry.raw RawEntry.entry RawEntry.narrow RawEntry.Fits :=
  .of ProxyEntry.entry_raw RawEntry.raw_entry_eq_narrow RawEntry.narrow_eq_iff

/-! ## Addresses -/

theorem Ipv4.ofDigits_octets (x : Ipv4) : Nat.ofDigits 256 (x.octets.map UInt8.toNat) = x.word.toNat := by
  rw [x.toNat_word]
  simp only [octets, List.map_cons, List.map_nil, Nat.ofDigits_cons, Nat.ofDigits_nil]
  omega

theorem Ipv4.ofWord_eq_sidecar {w : UInt32} : ofWord w = defaultSidecar ↔ w = Kernel.sidecarWord := by
  rw [← word_inj, word_ofWord, word_defaultSidecar]

/-- Endpoints, tuples and proxy rows are stored faithfully, so a stored form is the
same after a reading exactly if its ports are below 2^16 and its flag is at most 2.
Reversal can be done before or after. The octets of an address are those of its
word, least significant first, and one word stands for the sidecar's address. -/
theorem stored_forms_faithful :
    Faithful Endpoint.raw RawEndpoint.endpoint RawEndpoint.narrow RawEndpoint.Fits ∧
      Faithful Tuple.raw RawTuple.tuple RawTuple.narrow RawTuple.Fits ∧
      Faithful ProxyEntry.raw RawEntry.entry RawEntry.narrow RawEntry.Fits ∧
      (∀ t : Tuple, t.reversed.raw = t.raw.reversed) ∧ (∀ r : RawTuple, r.reversed.tuple = r.tuple.reversed) ∧
      (∀ e : Endpoint, Nat.ofDigits 256 (e.addr.octets.map UInt8.toNat) = e.raw.ip4.toNat ∧
        (e.addr = defaultSidecar ↔ e.raw.ip4 = Kernel.sidecarWord)) ∧
      ∀ r : RawEndpoint, Nat.ofDigits 256 (r.endpoint.addr.octets.map UInt8.toNat) = r.ip4.toNat ∧
        (r.endpoint.addr = defaultSidecar ↔ r.ip4 = Kernel.sidecarWord) := by
  refine ⟨faithful_endpoint, faithful_tuple, faithful_entry, Tuple.raw_reversed, RawTuple.tuple_reversed, ?_, ?_⟩
  · intro e
    exact ⟨e.addr.ofDigits_octets, Endpoint.raw_sidecar.symm⟩
  · intro r
    refine ⟨?_, Ipv4.ofWord_eq_sidecar⟩
    calc Nat.ofDigits 256 (r.endpoint.addr.octets.map UInt8.toNat) = (Ipv4.ofWord r.ip4).word.toNat :=
          r.endpoint.addr.ofDigits_octets
      _ = r.ip4.toNat := by rw [Ipv4.word_ofWord]

end Splice
