import Splice.Pins
/-!
# The pinned debug slots

The two debug slots are words in an array that any process can open by its pin. A
pin directory `Shows` two words if that is what its array reads; then an operator
reads the first as whether tracing is on, and can set it, which leaves the second.
-/

namespace Splice

open Host

/-! ## Rows of octets -/

namespace Host.BpfMap

theorem written?_putRow (m : BpfMap) (key other value : List UInt8) :
    (m.putRow key value).written? other = if key = other then some value else m.written? other := by
  unfold putRow
  split
  · rename_i hw
    have hkeys : (fun row : List UInt8 × List UInt8 => (if row.1 = key then (key, value) else row).1 == other) =
        (·.1 == other) := by
      funext row
      split
      · simp_all
      · rfl
    unfold written? at hw ⊢
    dsimp only
    rw [List.find?_map, Function.comp_def, hkeys]
    split
    · subst other
      rw [Option.isSome_map] at hw
      obtain ⟨row, hrow⟩ := Option.isSome_iff_exists.1 hw
      have hkey : row.1 = key := by simpa using List.find?_some hrow
      rw [hrow, Option.map_some, Option.map_some, if_pos hkey]
    · rename_i hne
      cases hrow : m.rows.find? (·.1 == other) with
      | none => rfl
      | some row =>
        have hkey : row.1 = other := by simpa using List.find?_some hrow
        rw [Option.map_some, Option.map_some, if_neg (hkey ▸ Ne.symm hne)]
        rfl
  · rename_i hw
    have hnone : m.written? key = none := Option.not_isSome_iff_eq_none.1 hw
    unfold written? at hnone ⊢
    rw [List.find?_append]
    split
    · subst other
      rw [Option.map_eq_none_iff.1 hnone]
      simp
    · rename_i hne
      simp [hne]

/-- Only the rows change. -/
theorem shape_putRow (m : BpfMap) (key value : List UInt8) :
    (m.putRow key value).kind = m.kind ∧ (m.putRow key value).keySize = m.keySize ∧
      (m.putRow key value).valueSize = m.valueSize ∧ (m.putRow key value).capacity = m.capacity := by
  unfold putRow
  split <;> exact ⟨rfl, rfl, rfl, rfl⟩

end Host.BpfMap

namespace Pins

variable {map : BpfMap} {tracing packets : UInt32} {machine : Machine} {dir : String}

theorem wordsOfOctets_wordOctets (w : UInt32) : wordsOfOctets (wordOctets w) = [w] :=
  congrArg (· :: []) (Ipv4.word_ofWord w)

/-! ## Words in an array -/

section Array
variable {slot : Nat} (hk : map.kind = Kernel.arrayKind) (hs : slot < map.capacity) (hw : slot < UInt32.size)

include hs hw in
theorem slot?_slotKey : map.slot? (slotKey slot) = some slot := by
  unfold BpfMap.slot? slotKey
  rw [wordsOfOctets_wordOctets]
  dsimp only
  rw [UInt32.toNat_ofNat_of_lt' hw, if_pos hs]

include hk hs hw

theorem readSlot_eq_ok {w : UInt32} :
    readSlot map slot = .ok w ↔
      wordsOfOctets ((map.written? (slotKey slot)).getD (List.replicate map.valueSize 0)) = [w] := by
  unfold readSlot BpfMap.lookup?
  rw [if_pos hs, hk, if_neg (by decide), if_pos rfl, slot?_slotKey hs hw, Option.map_some, Option.map_some]
  split
  · rename_i v hv
    rw [Option.some.inj hv]
    simp
  · rename_i hv
    constructor
    · intro h
      cases h
    · intro h
      exact absurd (congrArg some h) (hv w)

theorem writeSlot_eq (w : UInt32) : writeSlot map slot w = .ok (map.putRow (slotKey slot) (wordOctets w)) := by
  unfold writeSlot BpfMap.update?
  rw [if_pos hs, hk, if_neg (by decide), if_pos rfl, slot?_slotKey hs hw]
  rfl

end Array

/-- An array of two words, as the debug slots are declared, with these words. -/
structure Slots (map : BpfMap) (tracing packets : UInt32) : Prop where
  kind : map.kind = Kernel.arrayKind
  capacity : map.capacity = Debug.slotCount
  tracing : readSlot map Debug.enabledSlot = .ok tracing
  packets : readSlot map Debug.packetsSlot = .ok packets

theorem Slots.slot_lt (h : Slots map tracing packets) :
    Debug.enabledSlot < map.capacity ∧ Debug.packetsSlot < map.capacity := by
  rw [h.capacity]
  decide

/-- Writing the first word leaves the second. -/
theorem Slots.write (h : Slots map tracing packets) (w : UInt32) :
    ∃ written, writeSlot map Debug.enabledSlot w = .ok written ∧ Slots written w packets ∧
      written.keySize = map.keySize ∧ written.valueSize = map.valueSize := by
  obtain ⟨hkind, hkey, hvalue, hcapacity⟩ := map.shape_putRow (slotKey Debug.enabledSlot) (wordOctets w)
  obtain ⟨henabled, hpackets⟩ := h.slot_lt
  have hk := hkind.trans h.kind
  have hp := (readSlot_eq_ok h.kind hpackets (by decide)).1 h.packets
  refine ⟨_, writeSlot_eq h.kind henabled (by decide) w, ⟨hk, hcapacity.trans h.capacity, ?_, ?_⟩, hkey, hvalue⟩
  · rw [readSlot_eq_ok hk (by rwa [hcapacity]) (by decide), BpfMap.written?_putRow, if_pos rfl,
      Option.getD_some, wordsOfOctets_wordOctets]
  · rw [readSlot_eq_ok hk (by rwa [hcapacity]) (by decide), BpfMap.written?_putRow,
      if_neg (by decide), hvalue]
    exact hp

/-! ## The slots of a pin directory -/

theorem openMap_eq_ok {name : String} {keySize valueSize number : Nat} :
    openMap machine dir name keySize valueSize = .ok (number, map) ↔
      machine.files.present (Path.join dir name) = true ∧ machine.pinned? (Path.join dir name) = some number ∧
        machine.maps[number]? = some map ∧ map.fits keySize valueSize = true := by
  constructor
  · intro h
    unfold openMap at h
    dsimp only at h
    split at h
    · rename_i hpresent
      split at h
      · rename_i n found hfound
        obtain ⟨pinned, hpinned, hfound⟩ := Option.bind_eq_some_iff.1 hfound
        obtain ⟨map', hmap, heq⟩ := Option.map_eq_some_iff.1 hfound
        split at h
        · rename_i hfits
          cases heq
          cases h
          exact ⟨hpresent, hpinned, hmap, hfits⟩
        · cases h
      · cases h
    · cases h
  · rintro ⟨hpresent, hpinned, hmap, hfits⟩
    unfold openMap
    simp only [hpresent, hpinned, hmap, hfits, if_true, Option.bind_some, Option.map_some]

/-- The debug slots of a pin directory can be opened and hold these words. -/
def Shows (machine : Machine) (dir : String) (tracing packets : UInt32) : Prop :=
  ∃ number map, openDebug machine dir = .ok (number, map) ∧ Slots map tracing packets

theorem Shows.debugState (h : Shows machine dir tracing packets) :
    debugState machine dir = .ok (Kernel.tracingOn tracing, packets) := by
  obtain ⟨number, map, hopen, hslots⟩ := h
  unfold Pins.debugState
  rw [hopen]
  simp only [bind, Except.bind, hslots.tracing, hslots.packets]
  rfl

/-- An operator sets tracing, and the slots then show it. -/
theorem Shows.setDebug (h : Shows machine dir tracing packets) (on : Bool) :
    ∃ after, setDebug machine dir on = .ok after ∧ Shows after dir (Kernel.tracingWord on) packets := by
  obtain ⟨number, map, hopen, hslots⟩ := h
  obtain ⟨written, hwrite, hshows, hkey, hvalue⟩ := hslots.write (Kernel.tracingWord on)
  refine ⟨{ machine with maps := machine.maps.set number written }, ?_, number, written, ?_, hshows⟩
  · unfold Pins.setDebug
    rw [hopen]
    simp only [bind, Except.bind, hwrite]
    rfl
  · obtain ⟨hpresent, hpinned, hmap, hfits⟩ := openMap_eq_ok.1 hopen
    refine openMap_eq_ok.2 ⟨hpresent, hpinned, ?_, ?_⟩
    · rw [List.getElem?_set_self]
      exact (List.getElem?_eq_some_iff.1 hmap).1
    · unfold BpfMap.fits at hfits ⊢
      rw [hkey, hvalue]
      exact hfits

end Pins

end Splice
