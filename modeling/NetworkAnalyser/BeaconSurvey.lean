import NetworkAnalyser.BeaconEncoding
import NetworkAnalyser.DistinctBeacons

/-! A capture of beacons against what it is for: one report for each network in range. -/
namespace NetworkAnalyser.Server
open NetworkAnalyser.Exec NetworkAnalyser.CString NetworkAnalyser.FirstOffers

/-- A call of the callback with a beacon, whatever its locals hold. -/
structure Reception where
  beacon : Beacon
  ssidBuff : CharArray maxSsidCharCount
  iterator : RadiotapIterator

def Reception.of (b : Beacon) : Reception := ⟨b, .zero _, ⟨0, 0, 0, 0, 0, 0, 0, 0⟩⟩

def Reception.delivery (r : Reception) : Delivery := ⟨r.beacon.packet, r.ssidBuff, r.iterator⟩

/-- The networks heard of, each with the first beacon of it, of as many as there are records. -/
def survey (bs : List Beacon) : List Beacon :=
  (firsts Beacon.network bs).take maxPacketInfoCount

theorem survey_sublist (bs : List Beacon) : (survey bs).Sublist bs :=
  (List.take_sublist _ _).trans (firsts_sublist Beacon.network bs)

section receptions
variable (rs : List Reception)

theorem deliveries_packets :
    (rs.map Reception.delivery).map (·.packet) = (rs.map (·.beacon)).map Beacon.packet := by
  rw [List.map_map, List.map_map]
  rfl

theorem mem_deliveries {rs : List Reception} {seen : List Delivery} {d : Delivery}
    (h : seen ++ [d] <+: rs.map Reception.delivery) : ∃ r ∈ rs, r.delivery = d :=
  List.mem_map.mp (h.subset (show d ∈ seen ++ [d] by simp))

theorem receptions_beacons : ∀ d ∈ rs.map Reception.delivery,
    d.packet.frameType = beaconType ∧ d.packet.tagLen < maxSsidCharCount := by
  intro d hd
  obtain ⟨r, _, rfl⟩ := List.mem_map.mp hd
  exact ⟨r.beacon.frameType_eq, r.beacon.tagLen_lt⟩

theorem receptions_harmless : AllHarmless ((rs.map Reception.delivery).map (·.packet)) := by
  rw [deliveries_packets]
  intro seen p hp _
  obtain ⟨b, _, rfl⟩ := List.mem_map.mp (hp.subset (show p ∈ seen ++ [p] by simp))
  exact Or.inr ⟨b.frameType_eq, Or.inr ⟨8, b.full⟩⟩

theorem deliver_reception (g : Globals) (r : Reception) : ∃ g', deliver 15 g r.delivery = some g' :=
  deliver_returns r.beacon.frameType_eq r.beacon.tagLen_lt
    (FullHeader.returns (d := r.delivery) r.beacon.full g)

theorem capture_receptions (g₀ : Globals) :
    ∃ g, capturePackets 15 g₀ (rs.map Reception.delivery) = some g := by
  refine runOver_total fun seen d u hp _ => ?_
  obtain ⟨r, _, rfl⟩ := mem_deliveries hp
  exact deliver_reception u r

end receptions

section log
variable (bs : List Beacon)

theorem filter_beacons : (bs.map Beacon.packet).filter (fun p => p.frameType = beaconType) =
    bs.map Beacon.packet := by
  refine List.filter_eq_self.mpr fun p hp => ?_
  obtain ⟨b, _, rfl⟩ := List.mem_map.mp hp
  exact decide_eq_true b.frameType_eq

theorem firsts_beacons : firsts Packet.key (bs.map Beacon.packet) =
    (firsts Beacon.network bs).map Beacon.packet := by
  have hkey : (fun b => Packet.key (Beacon.packet b)) = Beacon.network := funext Beacon.key_eq
  rw [firsts_map, hkey]

theorem beaconLog_survey :
    (beaconLog (bs.map Beacon.packet)).kept = (survey bs).map Beacon.packet := by
  rw [beaconLog, filter_beacons, Log.offerAll_kept, firsts_beacons, survey, List.map_take]

end log

theorem capture_texts (g₀ : Globals) (rs : List Reception) :
    ∃ g, capturePackets 15 g₀ (rs.map Reception.delivery) = some g ∧ ∀ signedChar,
      storedTexts signedChar g = (survey (rs.map (·.beacon))).map (Beacon.report signedChar) := by
  obtain ⟨g, hg⟩ := capture_receptions rs g₀
  have hrep := capture_fills (receptions_harmless rs) hg
  rw [deliveries_packets] at hrep
  refine ⟨g, hg, fun signedChar => ?_⟩
  have hfull : ∀ p ∈ (beaconLog ((rs.map (·.beacon)).map Beacon.packet)).kept,
      FullHeader p 8 := by
    intro p hp
    rw [beaconLog_survey] at hp
    obtain ⟨b, _, rfl⟩ := List.mem_map.mp hp
    exact b.full
  rw [hrep.storedTexts_packets signedChar 8 hfull, beaconLog_survey, List.map_map]
  exact List.map_congr_left fun b _ => b.texts_eq signedChar

theorem capture_duplicates {g₀ g : Globals} {rs : List Reception}
    (h : capturePackets 15 g₀ (rs.map Reception.delivery) = some g)
    (hroom : (survey (rs.map (·.beacon))).length < maxPacketInfoCount) :
    g.dupPacketsDiscarded + (survey (rs.map (·.beacon))).length = rs.length := by
  have hrep := capture_fills (receptions_harmless rs) h
  rw [deliveries_packets] at hrep
  have hlen : (survey (rs.map (·.beacon))).length =
      (firsts Packet.key ((rs.map (·.beacon)).map Beacon.packet)).length := by
    rw [firsts_beacons, List.length_map]
    rw [survey, List.length_take] at hroom ⊢
    omega
  have hcount : (Log.empty.offerAll ((rs.map (·.beacon)).map Beacon.packet) :
      CaptureLog).discarded + _ = _ := Log.offerAll_accounts (hlen ▸ hroom)
  rw [hrep.dup, beaconLog, filter_beacons, hlen, hcount, List.length_map, List.length_map]

/-- The records left by a capture of beacons, whichever state it starts from, are the reports on
the survey, and while there is room for more networks every other beacon is counted as a
duplicate. -/
theorem capture_reports_survey (g₀ : Globals) (rs : List Reception) :
    ∃ g, capturePackets 15 g₀ (rs.map Reception.delivery) = some g ∧
      (∀ signedChar, storedTexts signedChar g =
        (survey (rs.map (·.beacon))).map (Beacon.report signedChar)) ∧
      ((survey (rs.map (·.beacon))).length < maxPacketInfoCount →
        g.dupPacketsDiscarded + (survey (rs.map (·.beacon))).length = rs.length) := by
  obtain ⟨g, hg, htexts⟩ := capture_texts g₀ rs
  exact ⟨g, hg, htexts, fun hroom => capture_duplicates hg hroom⟩

/-- Captures of the same beacons in two orders store the same networks, and while there is room
for more count the same duplicates. -/
theorem capture_order {fuel fuel' : Nat} {g₀ g₀' g g' : Globals} {ds ds' : List Delivery}
    (hbeacon : ∀ d ∈ ds, d.packet.frameType = beaconType ∧ d.packet.tagLen < maxSsidCharCount)
    (hperm : (ds.map (·.packet)).Perm (ds'.map (·.packet)))
    (hroom : (firsts Packet.key (ds.map (·.packet))).length ≤ maxPacketInfoCount)
    (h : capturePackets fuel g₀ ds = some g) (h' : capturePackets fuel' g₀' ds' = some g') :
    (storedKeys g).Perm (storedKeys g') ∧
      ((firsts Packet.key (ds.map (·.packet))).length < maxPacketInfoCount →
        g.dupPacketsDiscarded = g'.dupPacketsDiscarded) := by
  have hbeacon' : ∀ d ∈ ds', d.packet.frameType = beaconType ∧
      d.packet.tagLen < maxSsidCharCount := by
    intro d hd
    obtain ⟨d₀, hd₀, heq⟩ := List.mem_map.mp (hperm.mem_iff.mpr (List.mem_map_of_mem hd))
    exact heq ▸ hbeacon d₀ hd₀
  have hrep := capture_represents (allAnalysed_of_beacons hbeacon) h
  have hrep' := capture_represents (allAnalysed_of_beacons hbeacon') h'
  have hkeys : ((firsts Packet.key (ds.map (·.packet))).map Packet.key).Perm
      ((firsts Packet.key (ds'.map (·.packet))).map Packet.key) := firsts_perm hperm
  have hlen : (firsts Packet.key (ds.map (·.packet))).length =
      (firsts Packet.key (ds'.map (·.packet))).length := by
    simpa using hkeys.length_eq
  constructor
  · rw [hrep.storedKeys, hrep'.storedKeys, logOf, logOf, Log.offerAll_kept, Log.offerAll_kept,
      List.take_of_length_le hroom, List.take_of_length_le (hlen ▸ hroom)]
    exact hkeys.map textKey
  · intro hless
    have hcount : (logOf ds).discarded + _ = _ := Log.offerAll_accounts hless
    have hcount' : (logOf ds').discarded + _ = _ := Log.offerAll_accounts (hlen ▸ hless)
    have hsame := hperm.length_eq
    rw [hrep.dup, hrep'.dup]
    omega

theorem bothStations_order : ∃ g g',
    capturePackets 15 .initial ([.of homeStation, .of guestStation].map Reception.delivery) =
      some g ∧
    capturePackets 15 .initial ([.of guestStation, .of homeStation].map Reception.delivery) =
      some g' ∧
    (storedKeys g).Perm (storedKeys g') ∧ g.dupPacketsDiscarded = g'.dupPacketsDiscarded := by
  obtain ⟨g, hg⟩ := capture_receptions [.of homeStation, .of guestStation] .initial
  obtain ⟨g', hg'⟩ := capture_receptions [.of guestStation, .of homeStation] .initial
  have hperm : (([.of homeStation, .of guestStation].map Reception.delivery).map (·.packet)).Perm
      (([.of guestStation, .of homeStation].map Reception.delivery).map (·.packet)) :=
    .swap _ _ []
  have hlen : (firsts Packet.key
      (([.of homeStation, .of guestStation].map Reception.delivery).map (·.packet))).length ≤ 2 :=
    (firsts_sublist Packet.key _).length_le
  have horder := capture_order (receptions_beacons _) hperm (hlen.trans (by decide)) hg hg'
  exact ⟨g, g', hg, hg', horder.1, horder.2 (hlen.trans_lt (by decide))⟩

theorem Beacon.inside (b : Beacon) (g : Globals) : BeaconInside g b.packet where
  type := b.frameType_eq
  ssid := b.tagLen_lt
  captured := by
    rw [b.tagLen_eq, b.caplen_eq]
    exact Nat.le_add_right _ _
  header := by
    have hlen : itLen b.packet = 18 := rfl
    have hlast : ¬ Extended b.packet 4 := by
      cases b.full.accepts.start with
      | inl h => exact h.1
      | inr h =>
        obtain ⟨_, k, _, hk⟩ := h
        omega
    have hwords : wordsEnd b.packet = 8 := if_neg hlast
    have hcap : 18 ≤ b.packet.caplen := by
      rw [b.caplen_eq]
      simp only [ssidStart, mgmtFrame, frameStart]
      omega
    refine Or.inr ⟨rfl, by rw [hlen]; decide, hlen ▸ hcap, by omega, fun f hf => ?_⟩
    rw [hwords] at hf
    have hmisfit : itLen b.packet < f.2 + rtLength f.1 := by simpa using List.find?_some hf
    exact absurd (b.full.fits f (List.mem_of_find?_eq_some hf)) (Nat.not_le_of_lt hmisfit)

/-- The callback keeps to the captured bytes at every packet of a capture of beacons. -/
theorem capture_confined (g₀ : Globals) (rs : List Reception) :
    ∀ seen d, seen ++ [d] <+: rs.map Reception.delivery → ∃ g,
      capturePackets 15 g₀ seen = some g ∧ Confined g d.packet := by
  intro seen d hp
  obtain ⟨r, _, rfl⟩ := mem_deliveries hp
  obtain ⟨u, hu⟩ := capture_receptions rs g₀
  obtain ⟨g, hg⟩ := runOver_prefix ((List.prefix_append seen _).trans hp) hu
  refine ⟨g, hg, ?_⟩
  by_cases hroom : g.curPacketCount < maxPacketInfoCount
  · exact (r.beacon.inside g).confined hroom
  · exact Confined.of_outside
      (fun fuel buff it => ⟨g, callback_full hroom, fun _ => rfl⟩)
      (fun a ha => absurd ha List.not_mem_nil)

theorem homeStation_confined : ∃ g, capturePackets 15 .initial [] = some g ∧
    Confined g homeStation.packet :=
  capture_confined .initial [.of homeStation] [] (Reception.of homeStation).delivery
    (List.prefix_refl _)

end NetworkAnalyser.Server
