import NetworkAnalyser.CaptureContents

/-! Which records a capture ends with: one for each key of a capture of beacons, and others
besides when frames arrive that are not analysed. -/
namespace NetworkAnalyser.Server
open NetworkAnalyser.Exec NetworkAnalyser.CString NetworkAnalyser.FirstOffers

def storedKeys (g : Globals) : List (Bytes × Bytes) :=
  (List.range g.capInfo.packetInfoCount).map fun i => (g.record i).key

theorem Represents.storedKeys {g : Globals} {l : CaptureLog} (h : Represents Describes g l) :
    storedKeys g = (l.kept.map Packet.key).map textKey := by
  apply List.ext_getElem
  · simp [Server.storedKeys, h.count]
  · intro i hi _
    have hlt : i < l.kept.length := by simpa [Server.storedKeys, h.count] using hi
    simp only [Server.storedKeys, List.getElem_map, List.getElem_range]
    exact (h.record i hlt).key

theorem Represents.storedKeys_nodup {g : Globals} {l : CaptureLog} (h : Represents Describes g l) :
    (Server.storedKeys g).Nodup := by
  rw [h.storedKeys, List.map_map]
  refine List.Nodup.map_on ?_ (List.Nodup.of_map _ l.distinct)
  intro p hp q hq hpq
  exact List.inj_on_of_nodup_map l.distinct hp hq (textKey_packet_inj hpq)

def storedAfter (fuel : Nat) (g₀ : Globals) (ds : List Delivery) (k : Nat) : Nat :=
  (capturePackets fuel g₀ (ds.take k)).elim 0 Globals.curPacketCount

section beacons
variable {fuel : Nat} {g₀ : Globals} {ds : List Delivery}
  (hbeacon : ∀ d ∈ ds, d.packet.frameType = beaconType ∧ d.packet.tagLen < maxSsidCharCount)

include hbeacon in
theorem allAnalysed_of_beacons : AllAnalysed fuel g₀ ds := by
  intro seen d g hp _ _
  exact (hbeacon d (hp.subset (by simp))).1

theorem storedAfter_eq (hall : AllAnalysed fuel g₀ ds) {g : Globals}
    (h : capturePackets fuel g₀ ds = some g) (k : Nat) :
    storedAfter fuel g₀ ds k = (logOf (ds.take k)).kept.length := by
  have hp : ds.take k <+: ds := List.take_prefix k ds
  obtain ⟨u, hu⟩ := runOver_prefix hp h
  change capturePackets fuel g₀ (ds.take k) = some u at hu
  rw [storedAfter, hu]
  exact (capture_represents (hall.earlier hp) hu).cur

end beacons

/-- The records of a capture of beacons: one for each key, in the order of first occurrence, cut
to fifty, and a count of the packets dropped while there was room. -/
theorem capture_keeps_first_of_each_key (fuel : Nat) (g₀ : Globals) (ds : List Delivery)
    (hbeacon : ∀ d ∈ ds, d.packet.frameType = beaconType ∧ d.packet.tagLen < maxSsidCharCount)
    (hradio : ∀ seen d g, seen ++ [d] <+: ds → capturePackets fuel g₀ seen = some g →
      RadioTapReturns fuel g d) :
    ∃ g, capturePackets fuel g₀ ds = some g ∧
      storedKeys g = ((ds.map (·.packet.key)).eraseDups.take maxPacketInfoCount).map textKey ∧
      (storedKeys g).Nodup ∧
      (∀ k, ∃ u, capturePackets fuel g₀ (ds.take k) = some u ∧
        u.curPacketCount = u.capInfo.packetInfoCount ∧
        u.curPacketCount ≤ maxPacketInfoCount) ∧
      g.dupPacketsDiscarded = ((Finset.range ds.length).filter fun k =>
        storedAfter fuel g₀ ds k < maxPacketInfoCount ∧
        storedAfter fuel g₀ ds (k + 1) = storedAfter fuel g₀ ds k).card := by
  have hall : AllAnalysed fuel g₀ ds := allAnalysed_of_beacons hbeacon
  obtain ⟨g, hg⟩ : ∃ g, capturePackets fuel g₀ ds = some g := by
    refine runOver_total fun seen d u hp hu => ?_
    obtain ⟨htype, hlen⟩ := hbeacon d (hp.subset (by simp))
    exact deliver_returns htype hlen (hradio seen d u hp hu)
  have hrep := capture_represents hall hg
  refine ⟨g, hg, ?_, hrep.storedKeys_nodup, fun k => ?_, ?_⟩
  · rw [hrep.storedKeys, logOf, Log.offerAll_keys, List.map_map]
    rfl
  · have hp : ds.take k <+: ds := List.take_prefix k ds
    obtain ⟨u, hu⟩ := runOver_prefix hp hg
    have hrep' := capture_represents (hall.earlier hp) hu
    exact ⟨u, hu, hrep'.cur.trans hrep'.count.symm, hrep'.cur ▸ (logOf (ds.take k)).bounded⟩
  · rw [hrep.dup, logOf, Log.offerAll_discarded, List.length_map]
    refine congrArg Finset.card (Finset.filter_congr fun k _ => ?_)
    rw [storedAfter_eq hall hg, storedAfter_eq hall hg, logOf, logOf, List.map_take, List.map_take]

def homeBeacon : Packet := typicalBeacon [0, 1, 2, 3, 4, 10] (Printf.ascii "home")

theorem capture_keeps_one_home : ∃ g,
    capturePackets 15 .initial [.of homeBeacon, .of homeBeacon] = some g ∧
    storedKeys g = [(Printf.ascii "home", Printf.ascii "0:1:2:3:4:a")] := by
  have hbeacon : ∀ d ∈ [Delivery.of homeBeacon, Delivery.of homeBeacon],
      d.packet.frameType = beaconType ∧ d.packet.tagLen < maxSsidCharCount := by
    decide
  have hradio : ∀ seen d g, seen ++ [d] <+: [Delivery.of homeBeacon, Delivery.of homeBeacon] →
      capturePackets 15 .initial seen = some g → RadioTapReturns 15 g d := by
    intro seen d g hp _
    obtain rfl : d = Delivery.of homeBeacon := by
      simpa using hp.subset (show d ∈ seen ++ [d] by simp)
    exact (typicalHeader_full homeBeacon (by decide)).returns g
  obtain ⟨g, hg, hkeys, _⟩ := capture_keeps_first_of_each_key 15 .initial _ hbeacon hradio
  refine ⟨g, hg, hkeys.trans ?_⟩
  decide

/-- The `subtype beacon` filter looks at the first byte of the frame only, behind the header of
the adapter. -/
structure Admitted (pkt : Packet) : Prop where
  header : itLen pkt = 18
  subtype : pkt.byte frameStart &&& 0xfc = 0x80
  ssid : pkt.tagLen < maxSsidCharCount

theorem Admitted.frameType_ne_zero {pkt : Packet} (h : Admitted pkt) : pkt.frameType ≠ 0 := by
  intro hzero
  have hbyte : (pkt.byte frameStart).toNat = 0 := by
    simp only [Packet.frameType, Packet.be16] at hzero
    omega
  have hsub := h.subtype
  rw [UInt8.toNat_inj.mp (show _ = (0 : UInt8).toNat from hbyte)] at hsub
  exact absurd hsub (by decide)

/-- Every stored record is a beacon's, carries the key of the packet whose delivery has taken it,
and no two share a key. -/
structure HoldsBeacons (fuel : Nat) (g₀ : Globals) (seen : List Delivery) (g : Globals) : Prop where
  type : ∀ i < g.capInfo.packetInfoCount, (g.record i).ethernetType = beaconType
  created : ∀ i < g.capInfo.packetInfoCount, ∃ d, CreatedBy fuel g₀ seen i d ∧
    (g.record i).key = textKey d.packet.key
  distinct : (storedKeys g).Nodup

/-- What the capture promises in each state it reaches, and of each frame not analysed. -/
structure ReportsBeaconsOnly (fuel : Nat) (g₀ : Globals) (ds : List Delivery) : Prop where
  holds : ∀ seen g, seen <+: ds → capturePackets fuel g₀ seen = some g →
    HoldsBeacons fuel g₀ seen g
  ignores : ∀ seen d g g', seen ++ [d] <+: ds → capturePackets fuel g₀ seen = some g →
    d.packet.frameType ≠ beaconType → deliver fuel g d = some g' →
    g'.capInfo.packetInfoCount = g.capInfo.packetInfoCount ∧
      ∀ p, Known g' p ↔ Known g p

section admitted
variable {fuel : Nat} {g₀ : Globals} {ds : List Delivery}

theorem AllAnalysed.created (hall : AllAnalysed fuel g₀ ds) {g : Globals}
    (h : capturePackets fuel g₀ ds = some g) : ∀ i < g.curPacketCount, ∃ d,
      CreatedBy fuel g₀ ds i d ∧ Describes (g.record i) d.packet := by
  refine capture_created (fun seen d u v hp hu hd hcount => ?_) h
  have hv := capture_represents (hall.earlier hp) (capture_snoc hu hd)
  rw [logOf_snoc] at hv
  exact (capture_represents (hall.earlier ((List.prefix_append seen [d]).trans hp)) hu).stored_last
    hv hcount

theorem AllAnalysed.holdsBeacons (hall : AllAnalysed fuel g₀ ds) {g : Globals}
    (h : capturePackets fuel g₀ ds = some g) : HoldsBeacons fuel g₀ ds g where
  type i hi := by
    obtain ⟨_, _, hdesc⟩ := hall.created h i (capture_counts h ▸ hi)
    exact hdesc.type
  created i hi := by
    obtain ⟨d, hd, hdesc⟩ := hall.created h i (capture_counts h ▸ hi)
    exact ⟨d, hd, hdesc.key⟩
  distinct := (capture_represents hall h).storedKeys_nodup

theorem AllAnalysed.reportsBeaconsOnly (hall : AllAnalysed fuel g₀ ds) :
    ReportsBeaconsOnly fuel g₀ ds where
  holds seen g hp hg := (hall.earlier hp).holdsBeacons hg
  ignores seen d g g' hp hg htype hd := by
    have hfull : ¬ g.curPacketCount < maxPacketInfoCount := fun hroom =>
      htype (hall seen d g hp hg hroom)
    rw [deliver_full hfull] at hd
    rw [← Option.some.inj hd]
    exact ⟨rfl, fun _ => Iff.rfl⟩

theorem ReportsBeaconsOnly.allAnalysed (hadm : ∀ d ∈ ds, Admitted d.packet)
    (h : ReportsBeaconsOnly fuel g₀ ds) : AllAnalysed fuel g₀ ds := by
  intro seen d g hp hg hroom
  by_contra htype
  have hzero := (hadm d (hp.subset (by simp))).frameType_ne_zero
  obtain ⟨hcount, _⟩ := h.ignores seen d g _ hp hg htype (deliver_other hroom htype hzero)
  exact Nat.succ_ne_self _ hcount

end admitted

theorem reports_beacons_only_iff (fuel : Nat) (g₀ : Globals) (ds : List Delivery)
    (hadm : ∀ d ∈ ds, Admitted d.packet) :
    ReportsBeaconsOnly fuel g₀ ds ↔ AllAnalysed fuel g₀ ds :=
  ⟨ReportsBeaconsOnly.allAnalysed hadm, AllAnalysed.reportsBeaconsOnly⟩

theorem home_reports_beacons_only : ReportsBeaconsOnly 6 .initial [.of homeBeacon] := by
  refine (reports_beacons_only_iff 6 .initial [.of homeBeacon] ?_).mpr ?_
  · intro d hd
    obtain rfl := List.mem_singleton.mp hd
    exact ⟨by decide, by decide, by decide⟩
  · exact allAnalysed_of_beacons (by decide)

def protectedFrame : Packet :=
  .ofBytes (typicalHeader ++ frameBytes [0x80, 0x40] broadcast [0, 1, 2, 3, 4, 10]
    [0, 1, 2, 3, 4, 10] (Printf.ascii "home"))

theorem protectedFrame_reported : Admitted protectedFrame ∧
    ¬ ReportsBeaconsOnly 6 .initial [.of protectedFrame] := by
  have hadm : Admitted protectedFrame := ⟨by decide, by decide, by decide⟩
  refine ⟨hadm, fun h => ?_⟩
  have hall := h.allAnalysed (by simpa [Delivery.of] using hadm)
  have htype := hall [] (.of protectedFrame) _ (List.prefix_refl _) rfl (by decide)
  exact absurd htype (by decide)

end NetworkAnalyser.Server
