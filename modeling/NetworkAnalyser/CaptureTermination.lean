import NetworkAnalyser.CaptureContents
import NetworkAnalyser.ParseTermination

/-! Which captures return: those in which each new beacon that is stored has a name that fits and
a radiotap header that keeps to its own length. -/
namespace NetworkAnalyser.Server
open NetworkAnalyser.Exec NetworkAnalyser.CString NetworkAnalyser.FirstOffers

theorem HeaderFits.returns {pkt : Packet} {maxLength : Int} (h : HeaderFits pkt maxLength)
    (stack : RadiotapIterator) (w : World) :
    ∃ ret w', parseRadioTap 15 pkt stack maxLength w = (.done ret, w') := by
  cases h.fields with
  | inl hnone =>
    obtain ⟨ret, arg, addrs, hret, _, hinit⟩ := init_own_header h.version h.length stack w
    have hone := (parseRadioTap_of_init hinit 1).trans (loop_no_fields hnone hret stack arg _)
    exact ⟨_, _, parseRadioTap_mono 14 hone⟩
  | inr hfit =>
    obtain ⟨start, hstart, hfit⟩ := hfit
    obtain ⟨addrs, _, hparse⟩ := parseRadioTap_fits ⟨h.version, h.length, hstart⟩ hfit stack w
    have hlen : (fieldsOf (itPresent pkt) start).length ≤ 14 := layout_length_le 14 0 _ _
    have hmore := parseRadioTap_mono (14 - (fieldsOf (itPresent pkt) start).length) hparse
    have hfuel : (fieldsOf (itPresent pkt) start).length + 1 +
        (14 - (fieldsOf (itPresent pkt) start).length) = 15 := by omega
    rw [hfuel] at hmore
    exact ⟨_, _, hmore⟩

theorem HeaderFits.of_returns {pkt : Packet} {maxLength ret : Int} {fuel : Nat} {w w' : World}
    (h : parseRadioTap fuel pkt staleIterator maxLength w = (.done ret, w')) :
    HeaderFits pkt maxLength := by
  have hhdr : pkt.byte 0 = 0 ∧ (itLen pkt : Int) ≤ maxLength := by
    by_contra hbad
    obtain ⟨w'', hrun⟩ := parseRadioTap_refused hbad w fuel
    simp [h] at hrun
  obtain ⟨ret', arg, addrs, hret, harg, hinit⟩ :=
    init_own_header hhdr.1 hhdr.2 staleIterator w
  have hfit : Fits (itLen pkt) (fieldsOf (itPresent pkt) arg) := by
    by_contra hfit
    obtain ⟨w'', hrun⟩ := loop_header_diverges hret hfit staleIterator (w.read addrs) fuel
    rw [parseRadioTap_of_init hinit, hrun] at h
    simp at h
  refine ⟨hhdr.1, hhdr.2, ?_⟩
  cases harg with
  | inl hstart => exact Or.inr ⟨arg, hstart, hfit⟩
  | inr hover => exact Or.inl (no_fields_past hover hfit)

/-- A frame the callback skips, or a beacon. -/
def Ordinary (pkt : Packet) : Prop := pkt.frameType = 0 ∨ pkt.frameType = beaconType

/-- While there is room, a beacon has a short name, and one of a network not stored yet a header
that keeps its arguments within its own length. -/
def Survives (seen : List Packet) (pkt : Packet) : Prop :=
  (beaconLog seen).kept.length < maxPacketInfoCount → pkt.frameType = beaconType →
    pkt.tagLen < maxSsidCharCount ∧ ((beaconLog seen).Known pkt ∨ HeaderFits pkt bufsiz)

section delivery
variable {g g' : Globals} {d : Delivery} {seen : List Packet}

theorem Represents.ordinary {fuel : Nat} (hrep : Represents Describes g (beaconLog seen))
    (h : Ordinary d.packet) (hd : Server.deliver fuel g d = some g') :
    Represents Describes g' (beaconLog (seen ++ [d.packet])) := by
  cases h with
  | inl hzero =>
    rw [beaconLog_snoc_other (by rw [hzero]; decide)]
    by_cases hroom : g.curPacketCount < maxPacketInfoCount
    · rw [deliver_zero hroom hzero] at hd
      obtain rfl := Option.some.inj hd
      exact hrep.frame (Globals.frame_storeType g 0)
    · rw [deliver_full hroom] at hd
      obtain rfl := Option.some.inj hd
      exact hrep
  | inr htype =>
    rw [beaconLog_snoc_beacon htype]
    exact hrep.deliver (fun _ _ h => h) (fun _ => htype)
      (fun _ hlen _ ret w hparse => (newBeacon_parsed hlen hparse).2) hd

theorem Survives.deliver (h : Survives seen d.packet) (hkind : Ordinary d.packet)
    (hrep : Represents Describes g (beaconLog seen)) : ∃ g', deliver 15 g d = some g' := by
  by_cases hroom : g.curPacketCount < maxPacketInfoCount
  · cases hkind with
    | inl hzero => exact ⟨_, deliver_zero hroom hzero⟩
    | inr htype =>
      obtain ⟨hlen, hknown⟩ := h (hrep.cur ▸ hroom) htype
      by_cases hstored : Known g d.packet
      · exact ⟨_, deliver_known hroom htype hlen hstored⟩
      · have hnew : ¬ (beaconLog seen).Known d.packet :=
          fun hl => hstored ((hrep.known_iff (fun _ _ h => h) _).mpr hl)
        exact deliver_returns htype hlen fun _ w _ =>
          (hknown.resolve_left hnew).returns d.iterator w
  · exact ⟨g, deliver_full hroom⟩

def Delivery.stale (pkt : Packet) : Delivery := ⟨pkt, .zero _, staleIterator⟩

theorem Survives.of_deliver {fuel : Nat} {pkt : Packet}
    (hrep : Represents Describes g (beaconLog seen))
    (hd : Server.deliver fuel g (.stale pkt) = some g') : Survives seen pkt := by
  intro hroom htype
  have hroom : g.curPacketCount < maxPacketInfoCount := hrep.cur ▸ hroom
  refine ⟨deliver_tagLen hroom htype hd, ?_⟩
  cases delivered hd with
  | full hfull => exact absurd hroom hfull
  | skipped _ hzero => exact absurd (htype.symm.trans hzero) (by decide)
  | other _ hother => exact absurd htype hother
  | known _ _ _ hknown => exact Or.inl ((hrep.known_iff (fun _ _ h => h) _).mp hknown)
  | stored _ _ _ _ hparse => exact Or.inr (HeaderFits.of_returns hparse)

end delivery

section capture
variable {ps : List Packet} (hkind : ∀ p ∈ ps, Ordinary p)
include hkind

theorem capture_describes {fuel : Nat} {g₀ g : Globals} {ds : List Delivery}
    (hds : ds.map (·.packet) = ps) (h : capturePackets fuel g₀ ds = some g) :
    Represents Describes g (beaconLog ps) := by
  subst hds
  refine runOver_history (fun seen g => Represents Describes g (beaconLog (seen.map (·.packet))))
    (represents_reset g₀) ?_ h
  intro seen d u v hp _ hrep hd
  have hmem : d.packet ∈ ds.map (·.packet) := List.mem_map_of_mem (hp.subset (by simp))
  rw [List.map_append, List.map_singleton]
  exact hrep.ordinary (hkind _ hmem) hd

/-- A capture of skipped frames and beacons goes through, whatever was captured before and whatever
the locals of the callback hold, exactly when every packet survives the packets before it. -/
theorem capture_returns_iff :
    (∀ g₀ ds, ds.map (·.packet) = ps → ∃ fuel g, capturePackets fuel g₀ ds = some g) ↔
      ∀ seen p, seen ++ [p] <+: ps → Survives seen p := by
  constructor
  · intro h seen p hp
    have hpackets : (ps.map Delivery.stale).map (·.packet) = ps := by
      rw [List.map_map]
      exact List.map_id ps
    obtain ⟨fuel, g, hg⟩ := h .initial (ps.map Delivery.stale) hpackets
    have hpart : (seen.map Delivery.stale) ++ [Delivery.stale p] <+: ps.map Delivery.stale := by
      simpa using hp.map Delivery.stale
    obtain ⟨v, hv⟩ := runOver_prefix hpart hg
    obtain ⟨u, hu, hd⟩ := runOver_snoc hv
    have hseen : (seen.map Delivery.stale).map (·.packet) = seen := by
      rw [List.map_map]
      exact List.map_id seen
    have hrep := capture_describes
      (fun q hq => hkind q (hp.subset (List.mem_append_left _ hq))) hseen hu
    exact Survives.of_deliver hrep hd
  · rintro h g₀ ds rfl
    refine ⟨15, runOver_total fun seen d u hp hu => ?_⟩
    have hpart : seen.map (·.packet) ++ [d.packet] <+: ds.map (·.packet) := by
      simpa using hp.map (·.packet)
    have hrep := capture_describes
      (fun q hq => hkind q (hpart.subset (List.mem_append_left _ hq))) rfl hu
    exact (h _ _ hpart).deliver (hkind _ (hpart.subset (by simp))) hrep

end capture

theorem FullHeader.headerFits {pkt : Packet} {start : Nat} (h : FullHeader pkt start) :
    HeaderFits pkt bufsiz :=
  ⟨h.accepts.version, h.accepts.length, .inr ⟨start, h.accepts.start, h.fits⟩⟩

theorem typicalBeacon_returns : ∃ fuel g, capturePackets fuel .initial
    [.of (typicalBeacon [0, 1, 2, 3, 4, 10] (Printf.ascii "home"))] = some g := by
  refine (@capture_returns_iff [typicalBeacon [0, 1, 2, 3, 4, 10] (Printf.ascii "home")]
    ?_).mpr ?_ .initial [.of _] rfl
  · exact List.forall_mem_singleton.mpr (.inr (by decide))
  · intro seen p hp _ _
    have hmem := hp.subset (List.mem_append_right seen (List.mem_singleton_self p))
    obtain rfl := List.mem_singleton.mp hmem
    exact ⟨by decide, .inr (typicalHeader_full _ (by decide)).headerFits⟩

end NetworkAnalyser.Server
