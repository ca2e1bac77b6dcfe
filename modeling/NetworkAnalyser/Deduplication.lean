import NetworkAnalyser.Capture

/-! A capture of beacons keeps the first packet of each key: the globals represent the log of
the packets kept, and every delivery is an offer to that log. What a record says about its
packet is a parameter `D`, at least what the 802.11 parser stores. -/
namespace NetworkAnalyser.Server
open NetworkAnalyser.Exec NetworkAnalyser.CString NetworkAnalyser.FirstOffers

abbrev CaptureLog := Log Packet.key maxPacketInfoCount

structure Represents (D : PacketInfo → Packet → Prop) (g : Globals) (l : CaptureLog) : Prop where
  cur : g.curPacketCount = l.kept.length
  count : g.capInfo.packetInfoCount = l.kept.length
  dup : g.dupPacketsDiscarded = l.discarded
  record : ∀ i (h : i < l.kept.length), D (g.record i) l.kept[i]

variable {D : PacketInfo → Packet → Prop}

theorem represents_reset (g : Globals) : Represents D (resetCounts g) Log.empty where
  cur := rfl
  count := rfl
  dup := rfl
  record _ h := absurd h (Nat.not_lt_zero _)

section represents
variable {g g' : Globals} {l : CaptureLog}

theorem Represents.known_iff (hD : ∀ r p, D r p → Describes r p) (h : Represents D g l)
    (pkt : Packet) : Known g pkt ↔ l.Known pkt := by
  unfold Known Log.Known
  rw [List.mem_map, h.cur]
  constructor
  · rintro ⟨i, hi, hkey⟩
    exact ⟨l.kept[i], List.getElem_mem hi,
      textKey_packet_inj ((hD _ _ (h.record i hi)).key ▸ hkey)⟩
  · rintro ⟨p, hp, hkey⟩
    obtain ⟨i, hi, rfl⟩ := List.mem_iff_getElem.mp hp
    exact ⟨i, hi, by rw [(hD _ _ (h.record i hi)).key, hkey]⟩

theorem Represents.frame (h : Represents D g l) (hf : Globals.Frame g g') :
    Represents D g' l where
  cur := hf.cur.trans h.cur
  count := hf.count.trans h.count
  dup := hf.dup.trans h.dup
  record i hi := by
    have hne : i ≠ g.curPacketCount := fun he => Nat.lt_irrefl _ (h.cur ▸ he ▸ hi)
    rw [hf.record i hne]
    exact h.record i hi

theorem Represents.count_discard (h : Represents D g l) (others : Nat) :
    Represents D (g.countSearch others 1) l.discard where
  cur := h.cur
  count := h.count
  dup := congrArg (· + 1) h.dup
  record := h.record

theorem Represents.store (h : Represents D g l) (hf : Globals.Frame g g') {pkt : Packet}
    (hroom : l.kept.length < maxPacketInfoCount) (hnew : ¬ l.Known pkt)
    (hcur : D g'.current pkt) : Represents D g'.storeRecord (l.keep pkt hroom hnew) where
  cur := by
    change g'.curPacketCount + 1 = (l.kept ++ [pkt]).length
    rw [hf.cur, h.cur, List.length_append, List.length_singleton]
  count := by
    change g'.capInfo.packetInfoCount + 1 = (l.kept ++ [pkt]).length
    rw [hf.count, h.count, List.length_append, List.length_singleton]
  dup := hf.dup.trans h.dup
  record i hi := by
    have hi' : i < (l.kept ++ [pkt]).length := hi
    change D (g'.record i) (l.kept ++ [pkt])[i]
    by_cases hlt : i < l.kept.length
    · have hne : i ≠ g.curPacketCount := fun he => Nat.lt_irrefl _ (h.cur ▸ he ▸ hlt)
      rw [List.getElem_append_left hlt, hf.record i hne]
      exact h.record i hlt
    · have hlen : i < l.kept.length + 1 := by simpa [Log.keep] using hi
      obtain rfl : i = l.kept.length := by omega
      have hat : g'.record l.kept.length = g'.current := by rw [Globals.current, hf.cur, h.cur]
      rw [List.getElem_concat_length rfl, hat]
      exact hcur

end represents

section step
variable {fuel : Nat} {g g' : Globals} {d : Delivery}

theorem frame_newBeacon (g : Globals) (d : Delivery) :
    Globals.Frame g (newBeaconWorld g d).globals :=
  ((g.frame_identify d.packet).trans (Globals.frame_countSearch _ _)).trans
    (Globals.frame_address _ _)

theorem newBeacon_parsed {w : World} {o : Outcome Int} (hlen : d.packet.tagLen < maxSsidCharCount)
    (h : parseRadioTap fuel d.packet d.iterator bufsiz (newBeaconWorld g d) = (o, w)) :
    Globals.Frame g w.globals ∧ Describes w.globals.current d.packet := by
  have hsafe := (safe_parseRadioTap fuel d.packet d.iterator bufsiz (newBeaconWorld g d)).2
  rw [h] at hsafe
  obtain ⟨x, hx⟩ := hsafe
  have hnew := describes_new g d.packet hlen (othersPassed g d.packet d.ssidBuff)
  constructor
  · rw [hx]
    exact (frame_newBeacon g d).trans (Globals.frame_setCurrent _ _)
  · rw [hx, Globals.setCurrent_current]
    exact hnew.setRadio x

/-- A delivery that returns is an offer to the log, if the packet is a beacon or there is no
room for it, and a record that is stored says what `D` asks. -/
theorem Represents.deliver {l : CaptureLog} (hD : ∀ r p, D r p → Describes r p)
    (h : Represents D g l)
    (htype : g.curPacketCount < maxPacketInfoCount → d.packet.frameType = beaconType)
    (hstore : g.curPacketCount < maxPacketInfoCount → d.packet.tagLen < maxSsidCharCount →
      ¬ l.Known d.packet → ∀ ret w,
      parseRadioTap fuel d.packet d.iterator bufsiz (newBeaconWorld g d) = (.done ret, w) →
      D w.globals.current d.packet)
    (hd : deliver fuel g d = some g') : Represents D g' (l.offer d.packet) := by
  cases delivered hd with
  | full hfull =>
    rw [Log.offer_full (h.cur ▸ hfull)]
    exact h
  | skipped hroom hzero => exact absurd ((htype hroom).symm.trans hzero) (by decide)
  | other hroom hother => exact absurd (htype hroom) hother
  | known hroom _ _ hknown =>
    rw [Log.offer_known (h.cur ▸ hroom) ((h.known_iff hD _).mp hknown)]
    exact (h.frame (g.frame_identify d.packet)).count_discard _
  | stored hroom _ hlen hnew hparse =>
    have hnew' : ¬ l.Known d.packet := fun hl => hnew ((h.known_iff hD _).mpr hl)
    rw [Log.offer_new (h.cur ▸ hroom) hnew']
    exact h.store (newBeacon_parsed hlen hparse).1 (h.cur ▸ hroom) hnew'
      (hstore hroom hlen hnew' _ _ hparse)

end step

def logOf (ds : List Delivery) : CaptureLog := Log.empty.offerAll (ds.map (·.packet))

theorem logOf_snoc (seen : List Delivery) (d : Delivery) :
    logOf (seen ++ [d]) = (logOf seen).offer d.packet := by
  rw [logOf, List.map_append, List.map_singleton, Log.offerAll_snoc]
  rfl

/-- Every packet delivered while there is room for a record takes the beacon branch. -/
def AllAnalysed (fuel : Nat) (g₀ : Globals) (ds : List Delivery) : Prop :=
  ∀ seen d g, seen ++ [d] <+: ds → capturePackets fuel g₀ seen = some g →
    g.curPacketCount < maxPacketInfoCount → d.packet.frameType = beaconType

theorem AllAnalysed.earlier {fuel : Nat} {g₀ : Globals} {ds seen : List Delivery}
    (h : AllAnalysed fuel g₀ ds) (hp : seen <+: ds) : AllAnalysed fuel g₀ seen :=
  fun s d g hs => h s d g (hs.trans hp)

theorem capture_represents {fuel : Nat} {g₀ g : Globals} {ds : List Delivery}
    (hall : AllAnalysed fuel g₀ ds) (h : capturePackets fuel g₀ ds = some g) :
    Represents Describes g (logOf ds) := by
  refine runOver_history (fun seen g => Represents Describes g (logOf seen)) (represents_reset g₀)
    ?_ h
  intro seen d u v hp hu hrep hd
  rw [logOf_snoc]
  exact hrep.deliver (fun _ _ => id) (hall seen d u hp hu)
    (fun _ hlen _ _ _ hparse => (newBeacon_parsed hlen hparse).2) hd

end NetworkAnalyser.Server
