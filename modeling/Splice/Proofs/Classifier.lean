import Splice.Kernel.Classifier
import Splice.Proofs.Layout
import Splice.Proofs.Reading
/-!
# The classifier and the decoder read one key

The egress classifier loads words in the octet order of the host and compares
them with constants whose octets are exchanged; the decoder reads numbers. Both
find the same fields at the same offsets, and the classifier asks for less: it
looks at no version and stops at the ports. So what the decoder takes for a
tuple the classifier looks up under that tuple's key, and it looks up more only
in frames whose version, length or data offset is wrong.
-/

namespace Splice.Kernel

/-! ## Loaded words -/

theorem toNat_swap16 (w : UInt16) : (swap16 w).toNat = w.toNat / 256 + w.toNat % 256 * 256 := by
  have := w.toNat_lt
  rw [swap16, UInt16.toNat_ofNat']
  omega

@[simp] theorem swap16_swap16 (w : UInt16) : swap16 (swap16 w) = w := by
  have := w.toNat_lt
  apply UInt16.toNat_inj.1
  rw [toNat_swap16, toNat_swap16]
  omega

theorem swap16_inj {w v : UInt16} : swap16 w = swap16 v ↔ w = v :=
  ⟨fun h => by rw [← swap16_swap16 w, h, swap16_swap16], fun h => h ▸ rfl⟩

@[simp] theorem isVlanWord_swap16 (w : UInt16) : isVlanWord (swap16 w) = isVlan w := by
  rw [Bool.eq_iff_iff]
  simp only [isVlanWord, isVlan, Bool.or_eq_true, beq_iff_eq, swap16_inj]

/-- The mask of the fragment offset, octets exchanged, picks out its thirteen bits. -/
theorem swap16_and_eq_zero {w : UInt16} : swap16 w &&& swap16 0x1FFF = 0 ↔ w.toNat % 0x2000 = 0 := by
  have hmask : (swap16 0x1FFF).toNat = 0xFF1F := by decide
  have hlow : (swap16 w).toNat % 2 ^ 8 = w.toNat / 256 := by
    have := w.toNat_lt
    rw [toNat_swap16]
    omega
  have hhigh : (swap16 w).toNat / 2 ^ 8 = w.toNat % 256 := by
    have := w.toNat_lt
    rw [toNat_swap16]
    omega
  -- Octet by octet: the mask keeps five bits of the lower one and all of the upper.
  have hfive : ((swap16 w).toNat &&& 0xFF1F) % 2 ^ 8 = w.toNat / 256 % 2 ^ 5 := by
    rw [Nat.and_mod_two_pow, hlow, show 0xFF1F % 2 ^ 8 = 2 ^ 5 - 1 from rfl, Nat.and_two_pow_sub_one_eq_mod]
  have height : ((swap16 w).toNat &&& 0xFF1F) / 2 ^ 8 = w.toNat % 256 % 2 ^ 8 := by
    rw [Nat.and_div_two_pow, hhigh, show 0xFF1F / 2 ^ 8 = 2 ^ 8 - 1 from rfl, Nat.and_two_pow_sub_one_eq_mod]
  rw [← UInt16.toNat_inj, UInt16.toNat_and, hmask, UInt16.toNat_zero]
  omega

namespace Load

theorem le16_eq (b : Octets) (i : Nat) : le16 b i = swap16 (b.be16 i) := by
  have := (b.at8 (i + 1)).toNat_lt
  have hhigh : (b.be16 i).toNat / 256 = (b.at8 i).toNat := by
    rw [Octets.toNat_be16]
    omega
  have hlow : (b.be16 i).toNat % 256 = (b.at8 (i + 1)).toNat := by
    rw [Octets.toNat_be16]
    omega
  rw [swap16, hhigh, hlow, le16]

theorem le32_eq (b : Octets) (i : Nat) : le32 b i = (Ipv4Header.addressAt b i).word := rfl

variable {frame : Octets} {o n i : Nat}

theorem octets?_eq_some {b : Octets} :
    octets? frame o n = some b ↔ o + n ≤ frame.length ∧ (frame.drop o).take n = b := by
  unfold octets?
  split <;> simp [*]

theorem word16?_eq_some {w : UInt16} :
    word16? frame o = some w ↔ o + 2 ≤ frame.length ∧ swap16 (frame.be16 o) = w := by
  have hread : le16 ((frame.drop o).take 2) 0 = swap16 (frame.be16 o) := by
    rw [le16_eq, Octets.be16_take _ (by decide), Octets.be16_drop, Nat.add_zero]
  simp only [word16?, Option.map_eq_some_iff, octets?_eq_some, and_assoc, exists_and_left, exists_eq_left', hread]

end Load

variable {frame : Octets}

theorem skipTag_of_vlan {e : UInt16} {o : Nat} (he : isVlan e = true) {r : UInt16 × Nat} :
    skipTag frame (swap16 e) o = some r ↔
      o + vlanLength ≤ frame.length ∧ (swap16 (frame.be16 (o + 2)), o + vlanLength) = r := by
  simp [skipTag, he, Option.bind_eq_some_iff, Load.word16?_eq_some, and_assoc, vlanLength]

theorem skipTag_of_not {e : UInt16} {o : Nat} (he : isVlan e = false) :
    skipTag frame (swap16 e) o = some (swap16 e, o) := by
  simp [skipTag, he]

/-- The two steps over tags load what the network offset is made of. -/
theorem exists_skipTag_iff {P : UInt16 → Nat → Prop} :
    (∃ e, (12 + 2 ≤ frame.length ∧ swap16 (frame.be16 12) = e) ∧
      ∃ e' o', skipTag frame e ethernetLength = some (e', o') ∧
        ∃ e o, skipTag frame e' o' = some (e, o) ∧ P e o) ↔
      frame.networkOffset ≤ frame.length ∧
        P (swap16 (frame.be16 (frame.networkOffset - 2))) frame.networkOffset := by
  simp only [and_assoc, exists_and_left, exists_eq_left']
  rw [Octets.networkOffset, Octets.tagCount]
  cases h0 : isVlan (frame.be16 12) with
  | false => simp [skipTag_of_not h0, ethernetLength]
  | true =>
    simp only [skipTag_of_vlan h0, Prod.mk.injEq, and_assoc, exists_and_left, exists_eq_left']
    cases h1 : isVlan (frame.be16 16) with
    | false =>
      simp only [skipTag_of_not h1, Option.some.injEq, Prod.mk.injEq, and_assoc, exists_and_left, exists_eq_left',
        ethernetLength]
      exact ⟨fun h => h.2, fun h => ⟨Nat.le_of_add_right_le h.1, h⟩⟩
    | true =>
      simp only [skipTag_of_vlan h1, Prod.mk.injEq, and_assoc, exists_and_left, exists_eq_left', ethernetLength]
      exact ⟨fun h => h.2.2, fun h => ⟨Nat.le_of_add_right_le (k := 8) h.1, Nat.le_of_add_right_le (k := 4) h.1, h⟩⟩

/-- The key as the classifier puts it together: the address words as loaded, the
ports widened. -/
theorem raw_tuple (frame : Octets) : frame.tuple.raw =
    ⟨⟨(Ipv4Header.addressAt frame (frame.networkOffset + 12)).word, (frame.be16 frame.segmentOffset).toUInt32⟩,
      ⟨(Ipv4Header.addressAt frame (frame.networkOffset + 16)).word,
        (frame.be16 (frame.segmentOffset + 2)).toUInt32⟩⟩ := by
  simp only [Octets.tuple, Tuple.raw, Endpoint.raw, UInt32.ofNat_uInt16ToNat]

/-- The classifier looks a frame up when its headers announce a segment whose
ports are there, under the key of the tuple that its fields spell. -/
theorem classifierKey?_eq_some_iff {key : RawTuple} :
    classifierKey? frame = some key ↔
      frame.Announces ∧ frame.segmentOffset + 4 ≤ frame.length ∧ key = frame.tuple.raw := by
  simp only [classifierKey?, Option.bind_eq_bind, Option.bind_eq_some_iff, Load.word16?_eq_some, Prod.exists]
  rw [exists_skipTag_iff]
  simp only [Option.ite_none_left_eq_some, Option.bind_eq_some_iff, Load.octets?_eq_some, Load.le16_eq, Load.le32_eq,
    swap16_and_eq_zero, swap16_swap16, swap16_inj, ne_eq, not_or, Decidable.not_not, and_assoc, exists_and_left,
    exists_eq_left', Option.pure_def, Option.some.injEq]
  simp (disch := decide) only [Octets.at8_take, Octets.low4_take, Octets.be16_take, Octets.addressAt_take]
  simp only [Octets.be16_drop, Octets.low4_drop, Octets.at8_drop, Octets.addressAt_drop, Nat.add_zero]
  rw [raw_tuple, eq_comm (a := key)]
  constructor
  · rintro ⟨-, he, -, hp, hf, hw, hl, hk⟩
    exact ⟨⟨he, Nat.not_lt.1 hw, hf, hp⟩, hl, hk⟩
  · rintro ⟨⟨he, hw, hf, hp⟩, hl, hk⟩
    simp only [Octets.segmentOffset, Octets.internetLength] at hl hw
    exact ⟨by omega, he, by omega, hp, hf, Nat.not_lt.2 hw, hl, hk⟩

/-! ## Rows disabled -/

namespace Maps

variable {S : Type} {m : Maps S}

theorem tablesWith_disable (h : m.Fits) (d : Debug) (t : Tuple) :
    (m.disable t.raw).tablesWith d =
      { m.tablesWith d with proxy := ((m.tablesWith d).proxy.disable t).1 } := by
  have hget := get?_proxy h d t
  rw [Table.disable_eq, hget]
  unfold Maps.disable
  cases he : m.proxy[t.raw]? with
  | none => rfl
  | some entry =>
    dsimp only [Option.map_some]
    split
    · rename_i hf
      have hsame : entry.entry.disabled = entry.entry := by
        simp only [RawEntry.entry, ProxyEntry.disabled, hf, ProxyState.ofFlag_flag]
      rw [he] at hget
      rw [hsame, Table.put_of_get? hget]
    · have hput := tupleCoding.table_insert .proxy m.limit RawEntry.entry h.keys_proxy t
        { entry with flag := ProxyState.disabled.flag }
      simp only [tablesWith]
      exact congrArg (fun p => (⟨_, p, _, d⟩ : Tables S)) hput

/-- A row found is flagged as disabled afterwards. -/
theorem flag_disable {key : RawTuple} (h : (m.proxy[key]?).isSome = true) :
    ((m.disable key).proxy[key]?).map (·.flag) = some ProxyState.disabled.flag := by
  obtain ⟨entry, he⟩ := Option.isSome_iff_exists.1 h
  simp only [Maps.disable, he]
  split
  · rename_i hf
    rw [he, Option.map_some, hf]
  · rw [Std.ExtTreeMap.getElem?_insert_self, Option.map_some]

theorem tables_disable (h : m.Fits) (t : Tuple) :
    (m.disable t.raw).tables = { m.tables with proxy := (m.tables.proxy.disable t).1 } := by
  have hdebug : (m.disable t.raw).debug = m.debug := by
    unfold Maps.disable
    split
    · rfl
    · split <;> rfl
  rw [tables, hdebug, tablesWith_disable h]
  rfl

end Maps

/-! ## Agreement -/

/-- A frame has a tuple when the classifier looks it up and the checks hold that
the classifier leaves out. -/
theorem tuple?_eq_ok_iff_classifierKey? {t : Tuple} :
    Frame.tuple? frame = .ok t ↔ classifierKey? frame = some t.raw ∧ frame.Complete := by
  rw [Frame.tuple?_eq_ok_iff, classifierKey?_eq_some_iff]
  constructor
  · rintro ⟨ha, hc, rfl⟩
    exact ⟨⟨ha, Nat.le_trans (Nat.add_le_add_left (by decide) _) hc.length, rfl⟩, hc⟩
  · rintro ⟨⟨ha, -, ht⟩, hc⟩
    refine ⟨ha, hc, ?_⟩
    rw [← t.tuple_raw, ht, Tuple.tuple_raw]

/-- What the decoder takes for a tuple the classifier looks up under the key of
that tuple, and it looks up another frame only if its IP version is not 4, its
TCP header is cut short or its data offset is too small. On maps read row by row
a frame that disables a row in the tables disables the same row, and where more
is disabled the frame fails one of these checks. -/
theorem classifier_agrees_with_decoder (frame : Octets) :
    let o := frame.networkOffset
    let h := frame.internetLength
    let sound : Prop := frame.high4 o = 4 ∧ o + h + 20 ≤ frame.length ∧ 5 ≤ frame.high4 (o + h + 12)
    (∀ t, Frame.tuple? frame = .ok t ↔ classifierKey? frame = some t.raw ∧ sound) ∧
      ∀ {S : Type} (m : Maps S), m.Fits →
        let k := (classify m frame).maps
        let r := m.tables.onEgress frame
        (∀ t before, r.reply = .disabled t before →
          (k.proxy[t.raw]?).map (·.flag) = some ProxyState.disabled.flag ∧ k.tables = r.tables) ∧
        (k.tables = r.tables ∨
          ¬sound ∧ r.tables = m.tables ∧
            ∃ t : Tuple, classifierKey? frame = some t.raw ∧
              k.tables = { m.tables with proxy := (m.tables.proxy.disable t).1 }) := by
  intro o h sound
  have hsound : frame.Complete ↔ sound :=
    ⟨fun h => ⟨h.version, h.length, h.dataOffset⟩, fun h => ⟨h.1, h.2.1, h.2.2⟩⟩
  have hread (t : Tuple) : Frame.tuple? frame = .ok t ↔ classifierKey? frame = some t.raw ∧ sound :=
    tuple?_eq_ok_iff_classifierKey?.trans (and_congr_right' hsound)
  refine ⟨hread, fun {S} m hm => ?_⟩
  intro k r
  have hsame {t : Tuple} (ht : Frame.tuple? frame = .ok t) : k = m.disable t.raw ∧ k.tables = r.tables := by
    have hk : k = m.disable t.raw := by simp only [k, classify, ((hread t).1 ht).1]
    refine ⟨hk, ?_⟩
    rw [hk, Maps.tables_disable hm, Tables.tables_onEgress, ht]
  constructor
  · intro t before hreply
    obtain ⟨ht, p, he, -⟩ := (Tables.reply_onEgress_eq_disabled m.tables).1 hreply
    obtain ⟨hk, htables⟩ := hsame ht
    have hsome : (m.proxy[t.raw]?).isSome = true := by
      rw [← Option.isSome_map, ← Maps.get?_proxy hm m.debug t]
      exact Option.isSome_of_mem he
    exact ⟨by rw [hk, Maps.flag_disable hsome], htables⟩
  · by_cases ht : ∃ t, Frame.tuple? frame = .ok t
    · obtain ⟨t, ht⟩ := ht
      exact .inl (hsame ht).2
    have hr : r.tables = m.tables := Tables.tables_onEgress_of_not_ok m.tables fun t h => ht ⟨t, h⟩
    cases hkey : classifierKey? frame with
    | none =>
      have hk : k = m := by simp only [k, classify, hkey]
      exact .inl (by rw [hk, hr])
    | some key =>
      obtain ⟨-, -, rfl⟩ := classifierKey?_eq_some_iff.1 hkey
      have hk : k = m.disable frame.tuple.raw := by simp only [k, classify, hkey]
      refine .inr ⟨fun hs => ht ⟨frame.tuple, (hread _).2 ⟨hkey, hs⟩⟩, hr, frame.tuple, rfl, ?_⟩
      rw [hk, Maps.tables_disable hm]

/-- A frame of a tracked connection. -/
theorem classifier_agrees_with_decoder_on_frame :
    let a : Tuple := ⟨⟨⟨10, 0, 0, 5⟩, 40000⟩, ⟨⟨10, 0, 0, 9⟩, 8080⟩⟩
    let p : Tuple := ⟨⟨⟨10, 0, 0, 5⟩, 15001⟩, a.own⟩
    let frame : Octets := [2, 0, 0, 0, 0, 2, 2, 0, 0, 0, 0, 1, 0x81, 0x00, 0, 7, 0x08, 0x00,
      0x45, 0, 0, 40, 0x12, 0x34, 0x40, 0, 64, 6, 0, 0, 10, 0, 0, 5, 10, 0, 0, 9,
      0x9c, 0x40, 0x1f, 0x90, 0, 0, 0, 1, 0, 0, 0, 1, 0x50, 0x18, 0xff, 0xff, 0, 0, 0, 0]
    let m : Maps Nat := { Maps.empty with
      proxy := (∅ : Std.ExtTreeMap RawTuple RawEntry).insert a.raw ⟨p.raw, ProxyState.enabled.flag⟩ }
    let k := (classify m frame).maps
    let r := m.tables.onEgress frame
    m.Fits ∧ r.reply = .disabled a .enabled ∧ classifierKey? frame = some a.raw ∧
      (k.proxy[a.raw]?).map (·.flag) = some ProxyState.disabled.flag ∧ k.tables = r.tables := by
  intro a p frame m k r
  have hfits : m.Fits := ⟨every_empty, every_empty.insert ⟨a.fits_raw, p.fits_raw⟩, every_empty⟩
  have ht : Frame.tuple? frame = .ok a := by decide +kernel
  have hrow : m.tables.proxy.get? a = some ⟨p, .enabled⟩ := by
    rw [Maps.tables, Maps.get?_proxy hfits, Std.ExtTreeMap.getElem?_insert_self, Option.map_some, RawEntry.entry,
      p.tuple_raw, ProxyState.ofFlag_flag]
  have hreply : r.reply = .disabled a .enabled :=
    (Tables.reply_onEgress_eq_disabled m.tables).2 ⟨ht, p, hrow, by decide⟩
  obtain ⟨hread, hmaps⟩ := classifier_agrees_with_decoder frame
  exact ⟨hfits, hreply, ((hread a).1 ht).1, (hmaps m hfits).1 a .enabled hreply⟩

end Splice.Kernel
