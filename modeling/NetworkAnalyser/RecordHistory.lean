import NetworkAnalyser.BeaconSurvey
import NetworkAnalyser.ServerRun

/-! The records over the runs of the server: those stored stay as they are to the end of a
capture, and their texts are of bounded width, so that a text of few of them fits the buffer. -/
namespace NetworkAnalyser.Server
open NetworkAnalyser.Exec NetworkAnalyser.CString NetworkAnalyser.Printf NetworkAnalyser.FirstOffers

theorem Extends.records {g g' : Globals} (h : Extends g g')
    (hg : g.capInfo.packetInfoCount = g.curPacketCount) : storedRecords g <+: storedRecords g' := by
  obtain ⟨more, hmore⟩ := Nat.exists_eq_add_of_le h.cur
  have hkept : (List.range g.curPacketCount).map g'.record =
      (List.range g.curPacketCount).map g.record :=
    List.map_congr_left fun i hi => h.record i (List.mem_range.mp hi)
  rw [storedRecords, storedRecords, hg, h.count hg, hmore, List.range_add, List.map_append, hkept]
  exact List.prefix_append _ _

theorem deliver_repeated {fuel : Nat} {g g' : Globals} {d : Delivery}
    (hd : deliver fuel g d = some g') (h : d.packet.frameType = 0 ∨
      (d.packet.frameType = beaconType ∧ Known g d.packet)) :
    g'.curPacketCount = g.curPacketCount := by
  cases delivered hd with
  | full => rfl
  | skipped => exact (g.frame_storeType 0).cur
  | other hroom htype hzero =>
    cases h with
    | inl h => exact absurd h hzero
    | inr h => exact absurd h.1 htype
  | known => exact (g.frame_identify d.packet).cur
  | stored hroom htype hlen hnew hparse =>
    cases h with
    | inl h => exact absurd (htype.symm.trans h) (by decide)
    | inr h => exact absurd h.2 hnew

/-- What has been stored is neither changed nor dropped by later packets, and nothing is added by
packets of networks already stored. -/
theorem capture_append_only {fuel : Nat} {g₀ u g : Globals} {seen rest : List Delivery}
    (hu : capturePackets fuel g₀ seen = some u)
    (hg : capturePackets fuel g₀ (seen ++ rest) = some g) :
    storedRecords u <+: storedRecords g ∧
      ((∀ d ∈ rest, d.packet.frameType = 0 ∨
        (d.packet.frameType = beaconType ∧ Known u d.packet)) →
          storedRecords g = storedRecords u) := by
  have hrun := capture_rest hu hg
  have hstay := (extends_run hrun).records (capture_counts hu)
  refine ⟨hstay, fun hrest => (hstay.eq_of_length ?_).symm⟩
  have hcur : g.curPacketCount = u.curPacketCount := by
    refine (runOver_history (fun _ v => Extends u v ∧ v.curPacketCount = u.curPacketCount)
      ⟨.refl u, rfl⟩ ?_ hrun).2
    intro before d v w hp _ hv hd
    have hmem : d ∈ rest := hp.subset (by simp)
    have hrep : d.packet.frameType = 0 ∨ (d.packet.frameType = beaconType ∧ Known v d.packet) :=
      (hrest d hmem).imp_right fun h => ⟨h.1, hv.1.known h.2⟩
    exact ⟨hv.1.trans (extends_deliver hd), (deliver_repeated hd hrep).trans hv.2⟩
  rw [storedRecords, storedRecords, List.length_map, List.length_map, List.length_range,
    List.length_range, capture_counts hu, capture_counts hg, hcur]

theorem homeStation_again : ∃ u g,
    capturePackets 15 .initial ([.of homeStation].map Reception.delivery) = some u ∧
    capturePackets 15 .initial ([.of homeStation, .of homeStation].map Reception.delivery) =
      some g ∧ storedRecords u <+: storedRecords g := by
  obtain ⟨u, hu⟩ := capture_receptions [.of homeStation] .initial
  obtain ⟨g, hg⟩ := capture_receptions [.of homeStation, .of homeStation] .initial
  exact ⟨u, g, hu, hg, (capture_append_only hu hg).1⟩

/-- What holds of an untouched record and is kept by every delivery holds, in every state a
capture ends in, of every record, counted or not. -/
theorem Captured.record_invariant {Q : PacketInfo → Prop} (hzero : Q .zero)
    (hdeliver : ∀ {fuel : Nat} {g g' : Globals} {d : Delivery}, (∀ i, Q (g.record i)) →
      deliver fuel g d = some g' → ∀ i, Q (g'.record i))
    {g : Globals} (h : Captured g) (i : Nat) : Q (g.record i) := by
  have hcapture : ∀ {fuel g g' ds}, (∀ i, Q (Globals.record g i)) →
      capturePackets fuel g ds = some g' → ∀ i, Q (g'.record i) := by
    intro fuel g g' ds hg hrun
    have hreset : ∀ i, Q ((resetCounts g).record i) := hg
    exact runOver_history (fun _ g => ∀ i, Q (g.record i)) hreset
      (fun _ _ _ _ _ _ hu hd => hdeliver hu hd) hrun
  obtain ⟨fuel, ds, g₀, hserved, hrun⟩ := h
  refine hcapture ?_ hrun i
  clear hrun
  induction hserved with
  | start => exact fun _ => hzero
  | capture _ hcommand ih =>
    obtain ⟨u, w, hu, hw, rfl⟩ := captureCommand_eq_some hcommand
    obtain ⟨w', hw', hprinted⟩ := generateJson_apply _ (World.start u)
    obtain rfl : w = w' := (Prod.mk.inj (hw.symm.trans hw')).2
    have hrecord : w.globals.record = u.record :=
      funext fun i => congrArg (fun c => c.packetInfoArray i) hprinted.capInfo
    rw [hrecord]
    exact hcapture ih hu

structure Radio.Narrow (x : Radio) : Prop where
  rate : 0 ≤ x.dataRateKbps ∧ x.dataRateKbps ≤ 127500
  antenna : 0 ≤ x.antenna ∧ x.antenna ≤ 255

structure PacketInfo.Narrow (r : PacketInfo) : Prop where
  radio : r.radio.Narrow
  ssid : r.ssid.str.length ≤ 14
  src : r.ethernetSrcAddr.str.length ≤ 17
  dst : r.ethernetDstAddr.str.length ≤ 17
  bss : r.ethernetBssId.str.length ≤ 17

theorem narrow_zero : PacketInfo.zero.Narrow := by
  refine ⟨⟨by decide, by decide⟩, ?_, ?_, ?_, ?_⟩ <;> decide

def NarrowRadio (w w' : World) : Prop :=
  w.globals.current.radio.Narrow → w'.globals.current.radio.Narrow

theorem NarrowRadio.globals (w w' : World) (h : w'.globals = w.globals) : NarrowRadio w w' := by
  intro hw
  rw [h]
  exact hw

theorem NarrowRadio.trans (u v w : World) (h : NarrowRadio u v) (h' : NarrowRadio v w) :
    NarrowRadio u w := fun hu => h' (h hu)

theorem narrow_storeCurrent {f : PacketInfo → PacketInfo}
    (hf : ∀ r, r.radio.Narrow → (f r).radio.Narrow) : (storeCurrent f).Safe NarrowRadio := by
  refine fun w => ⟨by simp, fun hw => ?_⟩
  rw [storeCurrent_apply]
  exact (Globals.setCurrent_current _ _).symm ▸ hf _ hw

theorem byte_le (c : UInt8) : (c.toNat : Int) ≤ 255 := by
  have := c.toNat_lt
  omega

theorem narrow_rate {x : Radio} (hx : x.Narrow) (rate : UInt8) :
    Radio.Narrow { x with dataRateKbps := rate.toNat * 500 } where
  rate := by
    have := byte_le rate
    exact ⟨by simp, by simp; omega⟩
  antenna := hx.antenna

theorem narrow_antenna {x : Radio} (hx : x.Narrow) (antenna : UInt8) :
    Radio.Narrow { x with antenna := antenna.toNat } where
  rate := hx.rate
  antenna := ⟨Int.natCast_nonneg _, byte_le antenna⟩

theorem narrow_storeArgument (pkt : Packet) (it : RadiotapIterator) :
    (storeArgument pkt it).Safe NarrowRadio := by
  unfold storeArgument
  split
  · exact (safe_read8 NarrowRadio.globals pkt _).bind NarrowRadio.trans fun rate =>
      narrow_storeCurrent fun r hr => narrow_rate hr rate
  · split
    · exact (safe_read8 NarrowRadio.globals pkt _).bind NarrowRadio.trans fun antenna =>
        narrow_storeCurrent fun r hr => narrow_antenna hr antenna
    · split
      · exact (safe_read8 NarrowRadio.globals pkt _).bind NarrowRadio.trans fun _ =>
          narrow_storeCurrent fun r hr => ⟨hr.rate, hr.antenna⟩
      · split
        · exact (safe_readLe16 NarrowRadio.globals pkt _).bind NarrowRadio.trans fun _ =>
            narrow_storeCurrent fun r hr => ⟨hr.rate, hr.antenna⟩
        · exact safe_return NarrowRadio.globals _

theorem narrow_parse {fuel : Nat} {pkt : Packet} {stack : RadiotapIterator} {w w' : World}
    {o : Outcome Int} (h : parseRadioTap fuel pkt stack bufsiz w = (o, w'))
    (hw : w.globals.current.radio.Narrow) : w'.globals.current.radio.Narrow := by
  have hsafe := (safe_parse NarrowRadio.globals NarrowRadio.trans narrow_storeArgument fuel pkt
    stack bufsiz w).2
  rw [h] at hsafe
  exact hsafe hw

theorem ssid_length_le {pkt : Packet} (hlen : pkt.tagLen < maxSsidCharCount) :
    (cstr pkt.ssidBytes).length ≤ 14 := by
  have hcut : (cstr pkt.ssidBytes).length ≤ pkt.ssidBytes.length :=
    (List.takeWhile_prefix _).length_le
  have hsize : pkt.ssidBytes.length = pkt.tagLen := by simp [Packet.ssidBytes]
  have htag : pkt.tagLen < 15 := hlen
  omega

theorem Describes.narrow {r : PacketInfo} {pkt : Packet} (h : Describes r pkt)
    (hlen : pkt.tagLen < maxSsidCharCount) (hradio : r.radio.Narrow) : r.Narrow where
  radio := hradio
  ssid := by
    have hssid : r.ssid.str = cstr pkt.ssidBytes := congrArg Prod.fst h.key
    rw [hssid]
    exact ssid_length_le hlen
  src := h.src ▸ addr_text_length_le pkt _
  dst := h.dst ▸ addr_text_length_le pkt _
  bss := by
    have hbss : r.ethernetBssId.str = etherText (pkt.addr bssid) := congrArg Prod.snd h.key
    rw [hbss]
    exact addr_text_length_le pkt _

theorem PacketInfo.Narrow.identify {g : Globals} {pkt : Packet} (h : g.current.Narrow)
    (hlen : pkt.tagLen < maxSsidCharCount) : (g.identify pkt).current.Narrow where
  radio := by
    rw [identify_current]
    exact h.radio
  ssid := by
    have hssid : (g.identify pkt).current.ssid.str = cstr pkt.ssidBytes :=
      congrArg Prod.fst (identify_key g pkt hlen)
    rw [hssid]
    exact ssid_length_le hlen
  src := by
    rw [identify_current]
    exact h.src
  dst := by
    rw [identify_current]
    exact h.dst
  bss := by
    have hbss : (g.identify pkt).current.ethernetBssId.str = etherText (pkt.addr bssid) :=
      congrArg Prod.snd (identify_key g pkt hlen)
    rw [hbss]
    exact addr_text_length_le pkt _

theorem newBeacon_radio (g : Globals) (d : Delivery) :
    (newBeaconWorld g d).globals.current.radio = g.current.radio := by
  change (((g.identify d.packet).countSearch _ 0).address d.packet).current.radio = _
  rw [address_current, countSearch_current, identify_current]
  rfl

theorem narrow_frame {g g' : Globals} (h : ∀ i, (g.record i).Narrow) (hframe : g.Frame g')
    (hcur : g'.current.Narrow) (i : Nat) : (g'.record i).Narrow := by
  by_cases hi : i = g.curPacketCount
  · rw [hi, ← hframe.cur]
    exact hcur
  · rw [hframe.record i hi]
    exact h i

theorem narrow_storeType {g : Globals} (h : ∀ i, (g.record i).Narrow) (type : Nat) :
    ∀ i, ((g.storeType type).record i).Narrow := by
  refine narrow_frame h (g.frame_storeType type) ?_
  have hcur : g.current.Narrow := h g.curPacketCount
  rw [Globals.storeType, Globals.setCurrent_current]
  exact ⟨hcur.radio, hcur.ssid, hcur.src, hcur.dst, hcur.bss⟩

theorem narrow_deliver {fuel : Nat} {g g' : Globals} {d : Delivery}
    (h : ∀ i, (g.record i).Narrow) (hd : deliver fuel g d = some g') :
    ∀ i, (g'.record i).Narrow := by
  have hcur : g.current.Narrow := h g.curPacketCount
  cases delivered hd with
  | full => exact h
  | skipped => exact narrow_storeType h 0
  | other => exact narrow_storeType h _
  | known hroom htype hlen hknown =>
    have hident := narrow_frame h (g.frame_identify d.packet) (hcur.identify hlen)
    exact hident
  | stored hroom htype hlen hnew hparse =>
    obtain ⟨hframe, hdesc⟩ := newBeacon_parsed hlen hparse
    have hradio := narrow_parse hparse (newBeacon_radio g d ▸ hcur.radio)
    have hw := narrow_frame h hframe (hdesc.narrow hlen hradio)
    exact hw

theorem Captured.narrow {g : Globals} (h : Captured g) (i : Nat) : (g.record i).Narrow :=
  h.record_invariant narrow_zero narrow_deliver i

end NetworkAnalyser.Server
