import NetworkAnalyser.Deduplication

/-! When the SSID of a beacon stays in the two arrays `parse_ethernet` copies it to, and what the
record holds of it afterwards. -/
namespace NetworkAnalyser.Server
open NetworkAnalyser.Exec NetworkAnalyser.CString NetworkAnalyser.Printf

def Packet.ssidPrefix (pkt : Packet) : Bytes :=
  (List.range (min pkt.tagLen (maxSsidCharCount - 1))).map fun i => pkt.byte (ssidStart + i)

/-- No store leaves `ssid_buff` or the `ssid` of the current record, the other records are not
written, and a record whose three addresses have been written as well holds the SSID, cut to the
field. -/
structure SsidKept (g : Globals) (pkt : Packet) : Prop where
  inside : ∀ buff, (parseEthernet pkt buff (World.start g)).1 ≠ .undefined
  others : ∀ buff t w, parseEthernet pkt buff (World.start g) = (.done t, w) →
    ∀ i, i ≠ g.curPacketCount → w.globals.record i = g.record i
  text : ∀ buff w, parseEthernet pkt buff (World.start g) = (.done beaconType, w) →
    0 ∈ w.globals.current.ssid.bytes ∧ w.globals.current.ssid.str = cstr pkt.ssidPrefix

theorem ssidPrefix_eq {pkt : Packet} (h : pkt.tagLen < maxSsidCharCount) :
    pkt.ssidPrefix = pkt.ssidBytes := by
  rw [Packet.ssidPrefix, Packet.ssidBytes, Nat.min_eq_left (Nat.le_sub_one_of_lt h)]

theorem newBeacon_ssid (g : Globals) (pkt : Packet) (others : Nat) :
    (((g.identify pkt).countSearch others 0).address pkt).current.ssid =
      ssidArray pkt g.current.ssid := by
  rw [address_current, countSearch_current, identify_current]

section beacon
variable {g : Globals} {pkt : Packet} (htype : pkt.frameType = beaconType)
include htype

theorem SsidKept.of_short (hlen : pkt.tagLen < maxSsidCharCount) : SsidKept g pkt := by
  by_cases hknown : Known g pkt
  · have hrun := fun buff => parseEthernet_known htype hlen buff (World.start g) hknown
    refine ⟨fun buff => ?_, fun buff t w h i hi => ?_, fun buff w h => ?_⟩
    · rw [hrun buff]
      simp
    · rw [← (Prod.mk.inj ((hrun buff).symm.trans h)).2]
      exact (g.frame_identify pkt).record i hi
    · have hzero := (Prod.mk.inj ((hrun buff).symm.trans h)).1
      exact absurd (Outcome.done.inj hzero) (by decide)
  · have hrun := fun buff => parseEthernet_new htype hlen buff (World.start g) hknown
    refine ⟨fun buff => ?_, fun buff t w h i hi => ?_, fun buff w h => ?_⟩
    · rw [hrun buff]
      simp
    · rw [← (Prod.mk.inj ((hrun buff).symm.trans h)).2]
      exact (frame_newBeacon g ⟨pkt, buff, ⟨0, 0, 0, 0, 0, 0, 0, 0⟩⟩).record i hi
    · rw [← (Prod.mk.inj ((hrun buff).symm.trans h)).2]
      simp only [newBeacon_ssid, ssidPrefix_eq hlen]
      refine ⟨?_, ssidArray_str pkt _ hlen⟩
      rw [ssidArray_bytes pkt _ hlen]
      exact List.mem_append_right _ List.mem_cons_self

theorem SsidKept.short (h : SsidKept g pkt) : pkt.tagLen < maxSsidCharCount := by
  by_contra hlen
  obtain ⟨w, hw⟩ := parseEthernet_overflow htype (Nat.not_lt.mp hlen) (.zero _) (World.start g)
  exact h.inside (.zero _) (congrArg Prod.fst hw)

/-- Whatever the slot holds, the SSID is kept exactly when the length byte is at most 14. -/
theorem ssid_kept_iff : SsidKept g pkt ↔ pkt.tagLen < maxSsidCharCount :=
  ⟨SsidKept.short htype, SsidKept.of_short htype⟩

end beacon

def fullNameBeacon : Packet := typicalBeacon [0, 1, 2, 3, 4, 10] (List.replicate 14 97)

theorem fullName_kept : SsidKept .initial fullNameBeacon :=
  (ssid_kept_iff (by decide)).mpr (by decide)

def longNameBeacon : Packet := typicalBeacon [0, 1, 2, 3, 4, 10] (List.replicate 15 97)

theorem longName_not_kept : longNameBeacon.frameType = beaconType ∧
    ¬ SsidKept .initial longNameBeacon := by
  have htype : longNameBeacon.frameType = beaconType := by decide
  refine ⟨htype, fun h => ?_⟩
  exact absurd (SsidKept.short htype h) (by decide)

end NetworkAnalyser.Server
