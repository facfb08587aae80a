import Mathlib.Data.List.Nodup
import Splice.Proofs.Coding
import Splice.Proofs.DebugSlots
/-!
# Listings

A walk over a map of the kernel meets each row once, in no order that means
anything. A listing has these rows, read one by one and no other, in the order of
the endpoints on their own side; rows of one endpoint stay as the walk met them. So
two walks over one content give one listing where no two rows share an endpoint. Of
the pending destinations that is always so, as long as every port fits.
-/

namespace Splice

/-! ## The order of endpoints -/

/-- The octets of the address come first, one by one, then the port. -/
def Endpoint.Before (x y : Endpoint) : Prop :=
  x.addr.octets < y.addr.octets ∨ x.addr.octets = y.addr.octets ∧ x.port < y.port

instance : DecidableRel Endpoint.Before := fun _ _ => inferInstanceAs (Decidable (_ ∨ _))

theorem Ipv4.octets_lt_iff {x y : Ipv4} : x.octets < y.octets ↔ x.number < y.number := by
  have := x.b.toNat_lt; have := x.c.toNat_lt; have := x.d.toNat_lt
  have := y.b.toNat_lt; have := y.c.toNat_lt; have := y.d.toNat_lt
  simp only [octets, number, List.cons_lt_cons_iff, UInt8.lt_iff_toNat_lt, ← UInt8.toNat_inj, List.lt_irrefl, and_false,
    or_false]
  omega

theorem Ipv4.octets_inj {x y : Ipv4} : x.octets = y.octets ↔ x = y := by
  constructor
  · intro h
    obtain ⟨a, b, c, d⟩ := x
    cases h
    rfl
  · rintro rfl
    rfl

namespace Endpoint

theorem before_iff {x y : Endpoint} : x.Before y ↔ x.number < y.number := by
  have := x.port.toNat_lt; have := y.port.toNat_lt
  have haddr : x.addr.octets = y.addr.octets ↔ x.addr.number = y.addr.number :=
    Ipv4.octets_inj.trans ⟨congrArg Ipv4.number, Ipv4.number_injective⟩
  rw [Before, haddr, Ipv4.octets_lt_iff, UInt16.lt_iff_toNat_lt, number, number]
  omega

theorem Before.asymm {x y : Endpoint} (h : x.Before y) : ¬y.Before x := by
  rw [before_iff] at *
  exact Nat.lt_asymm h

theorem before_of_not_of_ne {x y : Endpoint} (h : ¬y.Before x) (hne : x ≠ y) : x.Before y := by
  rw [before_iff] at *
  exact Nat.lt_of_le_of_ne (Nat.le_of_not_lt h) fun heq => hne (number_injective heq)

end Endpoint

theorem listedFirst_iff {x y : Endpoint} : listedFirst x y = true ↔ ¬y.Before x := by
  have hcompare : compare x y = compareOn Endpoint.number x y := rfl
  rw [listedFirst, hcompare, compareOn, Endpoint.before_iff, Nat.not_lt, Nat.isLE_compare]

/-! ## Sorted rows -/

/-- The same rows, none before one whose endpoint stands before its own, and those
of any one endpoint as they came. -/
structure Listed {α : Type} (endpoint : α → Endpoint) (rows listing : List α) : Prop where
  perm : listing.Perm rows
  sorted : listing.Pairwise fun x y => ¬(endpoint y).Before (endpoint x)
  stable : ∀ e, listing.filter (endpoint · = e) = rows.filter (endpoint · = e)

section Sorted
variable {α : Type} {endpoint : α → Endpoint} {rows rows' listing listing' : List α}

theorem listed_mergeSort (endpoint : α → Endpoint) (rows : List α) :
    Listed endpoint rows (rows.mergeSort fun x y => listedFirst (endpoint x) (endpoint y)) := by
  have htrans (x y z : α) (hxy : listedFirst (endpoint x) (endpoint y) = true)
      (hyz : listedFirst (endpoint y) (endpoint z) = true) : listedFirst (endpoint x) (endpoint z) = true := by
    rw [listedFirst_iff, Endpoint.before_iff] at *
    omega
  have htotal (x y : α) : (listedFirst (endpoint x) (endpoint y) || listedFirst (endpoint y) (endpoint x)) = true := by
    rw [Bool.or_eq_true, listedFirst_iff, listedFirst_iff, Endpoint.before_iff, Endpoint.before_iff]
    omega
  have hperm := List.mergeSort_perm rows fun x y => listedFirst (endpoint x) (endpoint y)
  refine ⟨hperm, ?_, fun e => ?_⟩
  · exact (List.pairwise_mergeSort htrans htotal rows).imp listedFirst_iff.1
  · have hsame : (rows.filter (endpoint · = e)).Pairwise fun x y => listedFirst (endpoint x) (endpoint y) = true := by
      refine List.pairwise_of_forall_mem_list fun x hx y hy => ?_
      rw [of_decide_eq_true (List.mem_filter.1 hx).2, of_decide_eq_true (List.mem_filter.1 hy).2, listedFirst_iff]
      exact fun h => h.asymm h
    have hsub := (List.sublist_mergeSort htrans htotal hsame List.filter_sublist).filter (endpoint · = e)
    rw [List.filter_filter] at hsub
    simp only [Bool.and_self] at hsub
    exact (hsub.eq_of_length (hperm.filter _).length_eq.symm).symm

theorem Listed.strict (h : Listed endpoint rows listing) (hd : (rows.map endpoint).Nodup) :
    listing.Pairwise fun x y => (endpoint x).Before (endpoint y) := by
  have hne : listing.Pairwise fun x y => endpoint x ≠ endpoint y :=
    List.pairwise_map.1 ((h.perm.map endpoint).nodup_iff.2 hd)
  exact h.sorted.imp₂ (fun _ _ => Endpoint.before_of_not_of_ne) hne

/-- Where no two rows have one endpoint, the listing is the same whatever order they
come in. -/
theorem Listed.eq_of_perm (h : Listed endpoint rows listing) (h' : Listed endpoint rows' listing') (hp : rows'.Perm rows)
    (hd : (rows.map endpoint).Nodup) : listing' = listing := by
  have hd' : (rows'.map endpoint).Nodup := (hp.map endpoint).nodup_iff.2 hd
  refine List.Perm.eq_of_pairwise (fun x y _ _ hxy hyx => ?_) (h'.strict hd') (h.strict hd)
    (h'.perm.trans (hp.trans h.perm.symm))
  exact absurd hyx hxy.asymm

end Sorted

/-! ## Rows as octets -/

theorem wordsOfOctets_wordOctets_append (w : UInt32) (rest : List UInt8) :
    wordsOfOctets (wordOctets w ++ rest) = w :: wordsOfOctets rest :=
  congrArg (· :: wordsOfOctets rest) (Ipv4.word_ofWord w)

theorem RawEndpoint.wordsOfOctets_append (r : RawEndpoint) (rest : List UInt8) :
    wordsOfOctets (r.octets ++ rest) = r.ip4 :: r.port :: wordsOfOctets rest := by
  rw [octets, List.append_assoc, wordsOfOctets_wordOctets_append, wordsOfOctets_wordOctets_append]

theorem RawTuple.wordsOfOctets_append (r : RawTuple) (rest : List UInt8) :
    wordsOfOctets (r.octets ++ rest) = r.own.ip4 :: r.own.port :: r.peer.ip4 :: r.peer.port :: wordsOfOctets rest := by
  rw [octets, List.append_assoc, RawEndpoint.wordsOfOctets_append, RawEndpoint.wordsOfOctets_append]

namespace Pins

open Host

theorem pendingRow?_octets (row : RawEndpoint × RawEndpoint) : pendingRow? (row.1.octets, row.2.octets) = some row := by
  have hkey := row.1.wordsOfOctets_append []
  have hvalue := row.2.wordsOfOctets_append []
  rw [List.append_nil] at hkey hvalue
  simp only [pendingRow?, hkey, hvalue, wordsOfOctets]

theorem proxyRow?_octets (row : RawTuple × RawEntry) : proxyRow? (row.1.octets, row.2.octets) = some row := by
  have hkey := row.1.wordsOfOctets_append []
  have hvalue := row.2.redirect.wordsOfOctets_append (wordOctets row.2.flag ++ [])
  rw [wordsOfOctets_wordOctets_append] at hvalue
  rw [List.append_nil] at hkey hvalue
  simp only [proxyRow?, hkey, RawEntry.octets, hvalue, wordsOfOctets]

/-! ## Walks -/

/-- A walk over the map that is pinned under the name of `d` meets the rows of a
content, each once, in the order of `walk`. -/
structure Walk {κ α : Type} [Ord κ] [Std.TransOrd κ] (machine : Machine) (dir : String) (d : Kernel.MapDef)
    (octets : κ × α → List UInt8 × List UInt8) (content : Std.ExtTreeMap κ α) (walk : List (κ × α)) : Prop where
  once : walk.Perm content.toList
  met : ∃ number map, openMap machine dir d.name d.keySize d.valueSize = .ok (number, map) ∧ map.rows = walk.map octets

/-- Walks over the two maps of the listings. -/
structure Walks (machine : Machine) (dir : String) (proxy : Std.ExtTreeMap RawTuple RawEntry)
    (pending : Std.ExtTreeMap RawEndpoint RawEndpoint) (proxyWalk : List (RawTuple × RawEntry))
    (pendingWalk : List (RawEndpoint × RawEndpoint)) : Prop where
  proxy : Walk machine dir Kernel.proxyMap (fun row => (row.1.octets, row.2.octets)) proxy proxyWalk
  pending : Walk machine dir Kernel.pendingMap (fun row => (row.1.octets, row.2.octets)) pending pendingWalk

section Reading
variable {machine : Machine} {dir : String} {proxy : Std.ExtTreeMap RawTuple RawEntry}
variable {pending : Std.ExtTreeMap RawEndpoint RawEndpoint} {proxyWalk : List (RawTuple × RawEntry)}
variable {pendingWalk : List (RawEndpoint × RawEndpoint)}

/-- No row of a walk is dropped. -/
theorem Walks.openTables (h : Walks machine dir proxy pending proxyWalk pendingWalk) :
    openTables machine dir = .ok (proxyWalk, pendingWalk) := by
  obtain ⟨number, proxyMap, hproxy, hproxyRows⟩ := h.proxy.met
  obtain ⟨number', pendingMap, hpending, hpendingRows⟩ := h.pending.met
  have hp : proxyMap.rows.filterMap proxyRow? = proxyWalk := by
    rw [hproxyRows, List.filterMap_map, (funext proxyRow?_octets : proxyRow? ∘ _ = some), List.filterMap_some]
  have hq : pendingMap.rows.filterMap pendingRow? = pendingWalk := by
    rw [hpendingRows, List.filterMap_map, (funext pendingRow?_octets : pendingRow? ∘ _ = some), List.filterMap_some]
  unfold Pins.openTables
  rw [hproxy, hpending]
  simp only [bind, Except.bind, hp, hq]
  rfl

theorem Walks.entries_eq (h : Walks machine dir proxy pending proxyWalk pendingWalk) :
    entries machine dir = .ok (proxyListing proxyWalk) := by
  unfold entries
  rw [h.openTables]
  rfl

theorem Walks.pending_eq (h : Walks machine dir proxy pending proxyWalk pendingWalk) :
    Pins.pending machine dir = .ok (pendingListing pendingWalk) := by
  unfold Pins.pending
  rw [h.openTables]
  rfl

end Reading

end Pins

/-! ## Distinct rows -/

theorem Coding.read_inj {κ κ' : Type} (c : Coding κ κ') {j k : κ} (hj : c.Fits j) (hk : c.Fits k)
    (h : c.read j = c.read k) : j = k := by
  rw [← c.write_read hj, h, c.write_read hk]

/-- What tells the keys of a content apart tells the rows of a walk over it apart. -/
theorem nodup_walk {κ α β : Type} [Ord κ] [Std.TransOrd κ] [Std.LawfulEqOrd κ] {content : Std.ExtTreeMap κ α}
    {walk : List (κ × α)} {f : κ → β} (hw : walk.Perm content.toList)
    (hf : ∀ j k, j ∈ content → k ∈ content → f j = f k → j = k) : (walk.map fun row => f row.1).Nodup := by
  have hkeys : (walk.map (·.1)).Perm content.keys := by
    rw [← Std.ExtTreeMap.map_fst_toList_eq_keys]
    exact hw.map _
  have hmap : (walk.map fun row => f row.1) = (walk.map (·.1)).map f := by
    rw [List.map_map]
    rfl
  rw [hmap]
  refine List.Nodup.map_on (fun j hj k hk => ?_) (hkeys.nodup_iff.2 Std.ExtTreeMap.nodup_keys)
  exact hf j k (Std.ExtTreeMap.mem_keys.1 (hkeys.mem_iff.1 hj)) (Std.ExtTreeMap.mem_keys.1 (hkeys.mem_iff.1 hk))

section Listings
variable {machine : Host.Machine} {dir : String} {proxy : Std.ExtTreeMap RawTuple RawEntry}
variable {pending : Std.ExtTreeMap RawEndpoint RawEndpoint} {proxyWalk : List (RawTuple × RawEntry)}
variable {pendingWalk : List (RawEndpoint × RawEndpoint)}

/-- The listings of a pin directory have the rows of its maps, each read on its own
and sorted by the endpoint on its own side. Where the ports of all keys fit, no tuple
is listed twice and pending destinations stand in strictly rising order, which is the
same for all walks; that of the proxy rows is too if no two share an own endpoint. -/
theorem listings_keep_every_row (h : Pins.Walks machine dir proxy pending proxyWalk pendingWalk) :
    ∃ entries destinations, Pins.entries machine dir = .ok entries ∧ Pins.pending machine dir = .ok destinations ∧
      Listed (·.1.own) (proxyWalk.map fun row => (row.1.tuple, row.2.entry)) entries ∧
      Listed (·.1) (pendingWalk.map fun row => (row.1.endpoint, row.2.endpoint)) destinations ∧
      ((∀ k ∈ proxy, k.Fits) → (entries.map (·.1)).Nodup) ∧
      ((∀ k ∈ pending, k.Fits) → destinations.Pairwise fun x y => x.1.Before y.1) ∧
      ∀ machine' dir' proxyWalk' pendingWalk', Pins.Walks machine' dir' proxy pending proxyWalk' pendingWalk' →
        ((∀ k ∈ pending, k.Fits) → Pins.pending machine' dir' = .ok destinations) ∧
          ((∀ k ∈ proxy, k.Fits) → (∀ j k, j ∈ proxy → k ∈ proxy → j.own = k.own → j = k) →
            Pins.entries machine' dir' = .ok entries) := by
  have hentries (walk : List (RawTuple × RawEntry)) :
      Listed (·.1.own) (walk.map fun row => (row.1.tuple, row.2.entry)) (proxyListing walk) :=
    listed_mergeSort _ _
  have hpending (walk : List (RawEndpoint × RawEndpoint)) :
      Listed (·.1) (walk.map fun row => (row.1.endpoint, row.2.endpoint)) (pendingListing walk) :=
    listed_mergeSort _ _
  have hinitiators (hfits : ∀ k ∈ pending, k.Fits) :
      ((pendingWalk.map fun row => (row.1.endpoint, row.2.endpoint)).map (·.1)).Nodup := by
    rw [List.map_map]
    exact nodup_walk h.pending.once fun j k hj hk => endpointCoding.read_inj (hfits j hj) (hfits k hk)
  refine ⟨_, _, h.entries_eq, h.pending_eq, hentries _, hpending _, fun hfits => ?_, fun hfits => ?_, ?_⟩
  · rw [((hentries proxyWalk).perm.map (·.1)).nodup_iff, List.map_map]
    exact nodup_walk h.proxy.once fun j k hj hk => tupleCoding.read_inj (hfits j hj) (hfits k hk)
  · exact (hpending pendingWalk).strict (hinitiators hfits)
  · intro machine' dir' proxyWalk' pendingWalk' h'
    rw [h'.pending_eq, h'.entries_eq]
    refine ⟨fun hfits => ?_, fun hfits howns => ?_⟩
    · have hp := (h'.pending.once.trans h.pending.once.symm).map fun row => (row.1.endpoint, row.2.endpoint)
      exact congrArg Except.ok ((hpending pendingWalk).eq_of_perm (hpending pendingWalk') hp (hinitiators hfits))
    · have hp := (h'.proxy.once.trans h.proxy.once.symm).map fun row => (row.1.tuple, row.2.entry)
      have hd : ((proxyWalk.map fun row => (row.1.tuple, row.2.entry)).map (·.1.own)).Nodup := by
        rw [List.map_map]
        refine nodup_walk (f := fun k => k.own.endpoint) h.proxy.once fun j k hj hk hsame => ?_
        exact howns j k hj hk (endpointCoding.read_inj (hfits j hj).1 (hfits k hk).1 hsame)
      exact congrArg Except.ok ((hentries proxyWalk).eq_of_perm (hentries proxyWalk') hp hd)

end Listings

namespace TwoWalks

/-- By octets its own address is the smaller one, as a word the greater. -/
def dialer : Tuple := ⟨⟨⟨9, 0, 0, 200⟩, 40000⟩, ⟨⟨10, 0, 0, 9⟩, 8080⟩⟩

def acceptor : Tuple := ⟨⟨⟨10, 0, 0, 5⟩, 15001⟩, dialer.own⟩

/-- Of these rows one has a flag that no state has. -/
def proxyRows : List (RawTuple × RawEntry) := [(acceptor.raw, ⟨dialer.raw, 7⟩), (dialer.raw, ⟨acceptor.raw, 2⟩)]

/-- Another endpoint of the dialer's address. -/
def neighbour (port : UInt16) : Endpoint := ⟨dialer.own.addr, port⟩

def pendingRows : List (RawEndpoint × RawEndpoint) :=
  [((neighbour 40002).raw, acceptor.own.raw), ((neighbour 40001).raw, dialer.peer.raw)]

abbrev proxy : Std.ExtTreeMap RawTuple RawEntry := .ofList proxyRows

abbrev pending : Std.ExtTreeMap RawEndpoint RawEndpoint := .ofList pendingRows

def pins : Host.FileSystem Host.Content :=
  ⟨[], [([], .directory .bpf), (["MAP_PROXY"], .file .bpf (.pin 0)), (["MAP_ACTIVE_ESTAB"], .file .bpf (.pin 1))], []⟩

def mapOf (d : Kernel.MapDef) (rows : List (List UInt8 × List UInt8)) : Host.BpfMap :=
  ⟨d.kind, d.keySize, d.valueSize, d.maxEntries, rows⟩

/-- A machine on which the two maps are pinned, with their rows in these orders. -/
def machine (proxy : List (RawTuple × RawEntry)) (pending : List (RawEndpoint × RawEndpoint)) : Host.Machine :=
  { Host.Machine.fresh pins false with
    maps :=
      [mapOf Kernel.proxyMap (proxy.map fun row => (row.1.octets, row.2.octets)),
       mapOf Kernel.pendingMap (pending.map fun row => (row.1.octets, row.2.octets))] }

theorem walks {proxyWalk : List (RawTuple × RawEntry)} {pendingWalk : List (RawEndpoint × RawEndpoint)}
    (hproxy : proxyWalk.Perm proxyRows) (hpending : pendingWalk.Perm pendingRows) :
    Pins.Walks (machine proxyWalk pendingWalk) "/" proxy pending proxyWalk pendingWalk := by
  have hfirst : pins.present "/MAP_PROXY" = true ∧ (Host.Machine.fresh pins false).pinned? "/MAP_PROXY" = some 0 := by
    decide +kernel
  have hsecond : pins.present "/MAP_ACTIVE_ESTAB" = true ∧
      (Host.Machine.fresh pins false).pinned? "/MAP_ACTIVE_ESTAB" = some 1 := by
    decide +kernel
  refine ⟨⟨hproxy.trans (by decide +kernel), 0, _, Pins.openMap_eq_ok.2 ⟨hfirst.1, hfirst.2, rfl, rfl⟩, rfl⟩,
    ⟨hpending.trans (by decide +kernel), 1, _, Pins.openMap_eq_ok.2 ⟨hsecond.1, hsecond.2, rfl, rfl⟩, rfl⟩⟩

theorem mem_proxy {k : RawTuple} (h : k ∈ proxy) : k = acceptor.raw ∨ k = dialer.raw := by
  rw [Std.ExtTreeMap.mem_ofList] at h
  simpa [proxyRows] using h

theorem mem_pending {k : RawEndpoint} (h : k ∈ pending) : k = (neighbour 40002).raw ∨ k = (neighbour 40001).raw := by
  rw [Std.ExtTreeMap.mem_ofList] at h
  simpa [pendingRows] using h

end TwoWalks

open TwoWalks in
/-- Walked forwards or backwards, the rows are listed alike. -/
theorem listings_of_two_walks :
    let forwards := machine proxyRows pendingRows
    let backwards := machine proxyRows.reverse pendingRows.reverse
    let entries := [(dialer, ⟨acceptor, .enabled⟩), (acceptor, ⟨dialer, .disabled⟩)]
    let destinations := [(neighbour 40001, dialer.peer), (neighbour 40002, acceptor.own)]
    Pins.Walks forwards "/" proxy pending proxyRows pendingRows ∧
      Pins.Walks backwards "/" proxy pending proxyRows.reverse pendingRows.reverse ∧
      Pins.entries forwards "/" = .ok entries ∧ Pins.entries backwards "/" = .ok entries ∧
      Pins.pending forwards "/" = .ok destinations ∧ Pins.pending backwards "/" = .ok destinations := by
  intro forwards backwards entries destinations
  have hfits : ∀ k ∈ proxy, k.Fits := by
    intro k hk
    rcases mem_proxy hk with rfl | rfl <;> exact Tuple.fits_raw _
  have hfits' : ∀ k ∈ pending, k.Fits := by
    intro k hk
    rcases mem_pending hk with rfl | rfl <;> exact Endpoint.fits_raw _
  have howns : ∀ j k, j ∈ proxy → k ∈ proxy → j.own = k.own → j = k := by
    intro j k hj hk
    rcases mem_proxy hj with rfl | rfl <;> rcases mem_proxy hk with rfl | rfl <;> decide
  have hforwards := walks (.refl proxyRows) (.refl pendingRows)
  have hbackwards := walks proxyRows.reverse_perm pendingRows.reverse_perm
  obtain ⟨listed, listed', hentries, hpending, hsorted, hsorted', -, hrising, hsame⟩ := listings_keep_every_row hforwards
  obtain ⟨hpendingSame, hentriesSame⟩ := hsame _ _ _ _ hbackwards
  have he : listed = entries := by
    have honly : ∀ x ∈ entries, ∀ y ∈ entries, ¬y.1.own.Before x.1.own → ¬x.1.own.Before y.1.own → x = y := by decide
    have hperm : listed.Perm entries := hsorted.perm.trans (by decide)
    refine List.Perm.eq_of_pairwise (fun x y hx hy => ?_) hsorted.sorted (by decide) hperm
    exact honly x (hperm.mem_iff.1 hx) y hy
  have hd : listed' = destinations :=
    List.Perm.eq_of_pairwise (fun x y _ _ hxy hyx => absurd hyx hxy.asymm) (hrising hfits') (by decide)
      (hsorted'.perm.trans (by decide))
  subst he hd
  exact ⟨hforwards, hbackwards, hentries, hentriesSame hfits howns, hpending, hpendingSame hfits'⟩

end Splice
