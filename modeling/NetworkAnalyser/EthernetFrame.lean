import NetworkAnalyser.EtherText

/-! `parse_ethernet` in closed form, by the frame type and by whether the beacon is known. -/
namespace NetworkAnalyser.Server
open NetworkAnalyser.Exec NetworkAnalyser.CString NetworkAnalyser.Printf

/-- What the search compares: the SSID and the BSSID as strings. -/
def PacketInfo.key (r : PacketInfo) : Bytes × Bytes := (r.ssid.str, r.ethernetBssId.str)

def Packet.frameType (pkt : Packet) : Nat := pkt.be16 frameStart

/-- The SSID up to the first NUL and the six octets of the BSSID. -/
def Packet.key (pkt : Packet) : Bytes × Bytes := (cstr pkt.ssidBytes, pkt.addr bssid)

def textKey (k : Bytes × Bytes) : Bytes × Bytes := (k.1, etherText k.2)

theorem textKey_packet_inj {p q : Packet} (h : textKey p.key = textKey q.key) :
    p.key = q.key := by
  have hssid : p.key.1 = q.key.1 := (Prod.mk.inj h).1
  have hbssid := etherText_inj (addr_ne_nil p bssid) (addr_ne_nil q bssid) (Prod.mk.inj h).2
  exact Prod.ext hssid hbssid

def Known (g : Globals) (pkt : Packet) : Prop :=
  ∃ i < g.curPacketCount, (g.record i).key = textKey pkt.key

instance (g : Globals) (pkt : Packet) : Decidable (Known g pkt) :=
  inferInstanceAs (Decidable (∃ i < _, _))

namespace Globals

def storeType (g : Globals) (type : Nat) : Globals :=
  g.setCurrent { g.current with ethernetType := type }

def storeSsid (g : Globals) (pkt : Packet) : Globals :=
  g.setCurrent { g.current with ssid := ssidArray pkt g.current.ssid }

def storeText (g : Globals) (text : Bytes) (m : AddrMember) : Globals :=
  { g with etherNtoaBuf := ntoaBuffer g.etherNtoaBuf text }.setCurrent
    (g.current.setAddr (fillAddr (ntoaBuffer g.etherNtoaBuf text) (g.current.addr m)) m)

/-- Everything stored before the search. -/
def identify (g : Globals) (pkt : Packet) : Globals :=
  ((g.storeType beaconType).storeSsid pkt).storeText (etherText (pkt.addr bssid)) .bssId

def address (g : Globals) (pkt : Packet) : Globals :=
  (g.storeText (etherText (pkt.addr etherDhost)) .dst).storeText
    (etherText (pkt.addr etherShost)) .src

def countSearch (g : Globals) (others duplicates : Nat) : Globals :=
  { g with packetsSameSsidDiffBssid := g.packetsSameSsidDiffBssid + others
           dupPacketsDiscarded := g.dupPacketsDiscarded + duplicates }

structure Frame (g g' : Globals) : Prop where
  cur : g'.curPacketCount = g.curPacketCount
  count : g'.capInfo.packetInfoCount = g.capInfo.packetInfoCount
  dup : g'.dupPacketsDiscarded = g.dupPacketsDiscarded
  record : ∀ i, i ≠ g.curPacketCount → g'.record i = g.record i

theorem Frame.trans {g g' g'' : Globals} (h : Frame g g') (h' : Frame g' g'') : Frame g g'' where
  cur := h'.cur.trans h.cur
  count := h'.count.trans h.count
  dup := h'.dup.trans h.dup
  record i hi := (h'.record i (h.cur.symm ▸ hi)).trans (h.record i hi)

theorem frame_setCurrent (g : Globals) (r : PacketInfo) : Frame g (g.setCurrent r) :=
  ⟨rfl, rfl, rfl, fun _ => g.setCurrent_record_of_ne r⟩

theorem frame_storeType (g : Globals) (type : Nat) : Frame g (g.storeType type) :=
  g.frame_setCurrent _

theorem frame_storeText (g : Globals) (text : Bytes) (m : AddrMember) :
    Frame g (g.storeText text m) :=
  have hntoa : Frame g { g with etherNtoaBuf := ntoaBuffer g.etherNtoaBuf text } :=
    ⟨rfl, rfl, rfl, fun _ _ => rfl⟩
  hntoa.trans (frame_setCurrent _ _)

theorem frame_identify (g : Globals) (pkt : Packet) : Frame g (g.identify pkt) :=
  ((g.frame_storeType _).trans (frame_setCurrent _ _)).trans (frame_storeText _ _ _)

theorem frame_address (g : Globals) (pkt : Packet) : Frame g (g.address pkt) :=
  (g.frame_storeText _ _).trans (frame_storeText _ _ _)

theorem frame_countSearch (g : Globals) (others : Nat) : Frame g (g.countSearch others 0) :=
  ⟨rfl, rfl, rfl, fun _ _ => rfl⟩

@[simp] theorem countSearch_record (g : Globals) (o d : Nat) :
    (g.countSearch o d).record = g.record := rfl

theorem countSearch_countSearch (g : Globals) (o d o' d' : Nat) :
    (g.countSearch o d).countSearch o' d' = g.countSearch (o + o') (d + d') := by
  simp [countSearch, Nat.add_assoc]

end Globals

theorem copySsid_apply (pkt : Packet) (buff : CharArray maxSsidCharCount) (w : World)
    {count : Nat} (h : count ≤ maxSsidCharCount) : copySsid pkt buff count w =
      (.done (buff.copyFrom (fun i => pkt.byte (ssidStart + i)) count),
        { w.read ((List.range count).map (ssidStart + ·)).reverse with
          globals := w.globals.setCurrent { w.globals.current with
            ssid := w.globals.current.ssid.copyFrom (fun i => pkt.byte (ssidStart + i)) count } }) := by
  induction count with
  | zero =>
    change _ = (Outcome.done buff, { w with globals := w.globals.setCurrent w.globals.current })
    rw [Globals.setCurrent_self]
    rfl
  | succ count ih =>
    rw [copySsid, bind_done (ih (by omega)), bind_done (read8_apply _ _ _), storeSsid,
      if_pos (by omega), bind_done (storeCurrent_apply _ _), List.range_succ]
    simp [CharArray.copyFrom, World.read]

theorem copySsid_overflow (pkt : Packet) (buff : CharArray maxSsidCharCount) (w : World)
    {count : Nat} (h : maxSsidCharCount < count) :
    ∃ w', copySsid pkt buff count w = (.undefined, w') := by
  induction count with
  | zero => exact absurd h (Nat.not_lt_zero _)
  | succ count ih =>
    by_cases hlt : maxSsidCharCount < count
    · obtain ⟨w', hw⟩ := ih hlt
      exact ⟨w', by rw [copySsid, bind_undefined hw]⟩
    · rw [copySsid, bind_done (copySsid_apply pkt buff w (Nat.not_lt.mp hlt)),
        bind_done (read8_apply _ _ _), storeSsid, if_neg (by omega)]
      exact ⟨_, rfl⟩

section
variable {pkt : Packet} (buff : CharArray maxSsidCharCount) (w : World)

def ssidReads (pkt : Packet) : List Nat :=
  ((List.range pkt.tagLen).map (ssidStart + ·)).reverse ++ [tagLength]

theorem takeSsid_apply (h : pkt.tagLen < maxSsidCharCount) : takeSsid pkt buff w =
    (.done (ssidArray pkt buff), { w.read (ssidReads pkt) with
      globals := w.globals.storeSsid pkt }) := by
  have hcopy := copySsid_apply pkt buff (w.read [tagLength]) (Nat.le_of_lt h)
  unfold Packet.tagLen at h hcopy
  rw [takeSsid, bind_done (read8_apply w pkt tagLength), bind_done hcopy, if_pos h, storeSsid,
    if_pos h, bind_done (storeCurrent_apply _ _)]
  simp [ssidArray, Globals.storeSsid, Packet.tagLen, ssidReads, World.read]

theorem takeSsid_overflow (h : maxSsidCharCount ≤ pkt.tagLen) :
    ∃ w', takeSsid pkt buff w = (.undefined, w') := by
  unfold Packet.tagLen at h
  rw [takeSsid, bind_done (read8_apply w pkt tagLength)]
  by_cases hlt : maxSsidCharCount < (pkt.byte tagLength).toNat
  · obtain ⟨w', hw⟩ := copySsid_overflow pkt buff (w.read [tagLength]) hlt
    exact ⟨w', bind_undefined hw⟩
  · rw [bind_done (copySsid_apply pkt buff _ (Nat.not_lt.mp hlt)), if_neg (Nat.not_lt.mpr h),
      storeSsid, if_neg (Nat.lt_irrefl _)]
    exact ⟨_, rfl⟩

end

def addrReads (off : Nat) : List Nat := (List.range 6).map (off + ·)

theorem storeAddr_apply (pkt : Packet) (off : Nat) (m : AddrMember) (w : World) :
    storeAddr pkt off m w = (.done (), { w.read (addrReads off) with
      globals := w.globals.storeText (etherText (pkt.addr off)) m }) := rfl

/-- The records passed over that have the SSID but another BSSID. -/
def passedOthers (record : Nat → PacketInfo) (newSsid newBssid : Bytes) : Nat → Nat → Nat
  | 0, _ => 0
  | n + 1, count =>
    if sameSsid (record count) newSsid then
      if sameBssid (record count) newBssid then 0
      else passedOthers record newSsid newBssid n (count + 1) + 1
    else passedOthers record newSsid newBssid n (count + 1)

section search
variable {newSsid newBssid : Bytes}

theorem searchFrom_found {n count : Nat} {w : World}
    (h : ∃ i, count ≤ i ∧ i < count + n ∧
      sameSsid (w.globals.record i) newSsid ∧ sameBssid (w.globals.record i) newBssid) :
    searchFrom newSsid newBssid n count w = (.done 1, { w with
      globals := w.globals.countSearch
        (passedOthers w.globals.record newSsid newBssid n count) 1 }) := by
  induction n generalizing count w with
  | zero =>
    obtain ⟨i, hle, hlt, _⟩ := h
    omega
  | succ n ih =>
    obtain ⟨i, hle, hlt, hi⟩ := h
    rw [searchFrom, bind_done (getGlobals_apply w)]
    by_cases hssid : sameSsid (w.globals.record count) newSsid
    · by_cases hbssid : sameBssid (w.globals.record count) newBssid
      · simp [hssid, hbssid, bind_apply, passedOthers, Globals.countSearch]
      · have hne : count ≠ i := fun he => hbssid (he ▸ hi.2)
        have hrest := @ih (count + 1) { w with globals := w.globals.countSearch 1 0 }
          ⟨i, by omega, by omega, hi⟩
        simp only [hssid, hbssid, not_false_eq_true, and_self, if_true, and_false, if_false,
          bind_apply, modifyGlobals_apply, passedOthers]
        exact hrest.trans (by rw [Globals.countSearch_countSearch, Globals.countSearch_record,
          Nat.add_comm 1, Nat.zero_add])
    · have hne : count ≠ i := fun he => hssid (he ▸ hi.1)
      simp only [hssid, false_and, if_false, passedOthers]
      exact ih ⟨i, by omega, by omega, hi⟩

theorem searchFrom_none {n count : Nat} {w : World}
    (h : ∀ i, count ≤ i → i < count + n →
      ¬ (sameSsid (w.globals.record i) newSsid ∧ sameBssid (w.globals.record i) newBssid)) :
    searchFrom newSsid newBssid n count w = (.done 0, { w with
      globals := w.globals.countSearch
        (passedOthers w.globals.record newSsid newBssid n count) 0 }) := by
  induction n generalizing count w with
  | zero => rfl
  | succ n ih =>
    have hhere := h count (Nat.le_refl count) (by omega)
    have hrest : ∀ i, count + 1 ≤ i → i < count + 1 + n →
        ¬ (sameSsid (w.globals.record i) newSsid ∧ sameBssid (w.globals.record i) newBssid) :=
      fun i hle hlt => h i (by omega) (by omega)
    rw [searchFrom, bind_done (getGlobals_apply w)]
    by_cases hssid : sameSsid (w.globals.record count) newSsid
    · have hbssid : ¬ sameBssid (w.globals.record count) newBssid := fun hb => hhere ⟨hssid, hb⟩
      have hcounted := @ih (count + 1) { w with globals := w.globals.countSearch 1 0 } hrest
      simp only [hssid, hbssid, not_false_eq_true, and_self, if_true, and_false, if_false,
        bind_apply, modifyGlobals_apply, passedOthers]
      exact hcounted.trans (by rw [Globals.countSearch_countSearch, Globals.countSearch_record,
        Nat.add_comm 1])
    · simp only [hssid, false_and, if_false, passedOthers]
      exact ih hrest

end search

def keyReads (pkt : Packet) : List Nat :=
  addrReads bssid ++ (ssidReads pkt ++ [frameStart, frameStart + 1])

theorem parseEthernet_other {pkt : Packet} (h : pkt.frameType ≠ beaconType)
    (buff : CharArray maxSsidCharCount) (w : World) : parseEthernet pkt buff w =
      (.done pkt.frameType, { w.read [frameStart, frameStart + 1] with
        globals := w.globals.storeType pkt.frameType }) := by
  unfold Packet.frameType at h
  rw [parseEthernet, bind_done (readBe16_apply w pkt frameStart),
    bind_done (storeCurrent_apply _ _), if_neg h]
  rfl

theorem parseEthernet_overflow {pkt : Packet} (h : pkt.frameType = beaconType)
    (hlen : maxSsidCharCount ≤ pkt.tagLen) (buff : CharArray maxSsidCharCount) (w : World) :
    ∃ w', parseEthernet pkt buff w = (.undefined, w') := by
  unfold Packet.frameType at h
  rw [parseEthernet, bind_done (readBe16_apply w pkt frameStart),
    bind_done (storeCurrent_apply _ _), if_pos h]
  obtain ⟨w', hw⟩ := takeSsid_overflow buff
    { w.read [frameStart, frameStart + 1] with
      globals := w.globals.storeType (pkt.be16 frameStart) } hlen
  exact ⟨w', bind_undefined hw⟩

theorem matches_iff {pkt : Packet} (hlen : pkt.tagLen < maxSsidCharCount)
    (buff : CharArray maxSsidCharCount) (old a : CharArray 18) (r : PacketInfo) :
    (sameSsid r (ssidArray pkt buff).bytes ∧
      sameBssid r (fillAddr (ntoaBuffer old (etherText (pkt.addr bssid))) a).bytes) ↔
    r.key = textKey pkt.key := by
  have hssid := ssidArray_str pkt buff hlen
  have hbssid := fillAddr_ntoaBuffer_str old a (addr_text_length_le pkt bssid)
    (nul_notMem_etherText _)
  unfold CharArray.str at hssid hbssid
  rw [sameSsid, sameBssid, strcmp_eq_zero, strcmp_eq_zero, hssid, hbssid]
  exact Prod.mk.injEq .. ▸ Iff.rfl

def othersPassed (g : Globals) (pkt : Packet) (buff : CharArray maxSsidCharCount) : Nat :=
  passedOthers (g.identify pkt).record (ssidArray pkt buff).bytes
    (g.identify pkt).current.ethernetBssId.bytes g.curPacketCount 0

section beacon
variable {pkt : Packet} (htype : pkt.frameType = beaconType)
  (hlen : pkt.tagLen < maxSsidCharCount) (buff : CharArray maxSsidCharCount) (w : World)
include htype hlen

theorem parseEthernet_search : parseEthernet pkt buff w =
    (pktWithSsidBssidExists (ssidArray pkt buff).bytes
        (w.globals.identify pkt).current.ethernetBssId.bytes >>= fun foundDupPkt =>
      if foundDupPkt = 1 then pure 0
      else do
        storeAddr pkt etherDhost .dst
        storeAddr pkt etherShost .src
        return beaconType)
      { w.read (keyReads pkt) with globals := w.globals.identify pkt } := by
  have hbe : pkt.be16 frameStart = beaconType := htype
  rw [parseEthernet, bind_done (readBe16_apply w pkt frameStart),
    bind_done (storeCurrent_apply _ _), if_pos hbe, bind_done (takeSsid_apply buff _ hlen),
    bind_done (storeAddr_apply pkt bssid .bssId _), bind_done (getGlobals_apply _), hbe]
  simp only [keyReads, Globals.identify, World.read, Globals.storeType, List.append_assoc]

omit htype in
theorem search_iff {i : Nat} (hi : i < w.globals.curPacketCount) :
    (sameSsid ((w.globals.identify pkt).record i) (ssidArray pkt buff).bytes ∧
      sameBssid ((w.globals.identify pkt).record i)
        (w.globals.identify pkt).current.ethernetBssId.bytes) ↔
    (w.globals.record i).key = textKey pkt.key := by
  rw [(w.globals.frame_identify pkt).record i (Nat.ne_of_lt hi)]
  rw [Globals.identify, Globals.storeText, Globals.setCurrent_current]
  exact matches_iff hlen buff _ _ _

theorem parseEthernet_known (hknown : Known w.globals pkt) :
    parseEthernet pkt buff w = (.done 0, { w.read (keyReads pkt) with
      globals := (w.globals.identify pkt).countSearch (othersPassed w.globals pkt buff) 1 }) := by
  obtain ⟨i, hi, hkey⟩ := hknown
  have hcur := (w.globals.frame_identify pkt).cur
  have hfound := searchFrom_found (n := w.globals.curPacketCount)
    (w := { w.read (keyReads pkt) with globals := w.globals.identify pkt })
    ⟨i, Nat.zero_le i, by omega, (search_iff hlen buff w hi).mpr hkey⟩
  rw [parseEthernet_search htype hlen buff w, pktWithSsidBssidExists]
  rw [bind_apply, bind_done (getGlobals_apply _), hcur, hfound]
  rfl

theorem parseEthernet_new (hnew : ¬ Known w.globals pkt) :
    parseEthernet pkt buff w = (.done beaconType,
      { w.read (addrReads etherShost ++ (addrReads etherDhost ++ keyReads pkt)) with
        globals := ((w.globals.identify pkt).countSearch
          (othersPassed w.globals pkt buff) 0).address pkt }) := by
  have hcur := (w.globals.frame_identify pkt).cur
  have hnone := @searchFrom_none _ _ w.globals.curPacketCount 0
    { w.read (keyReads pkt) with globals := w.globals.identify pkt }
    (fun i _ hi hmatch => hnew ⟨i, by omega, (search_iff hlen buff w (by omega)).mp hmatch⟩)
  rw [parseEthernet_search htype hlen buff w, pktWithSsidBssidExists]
  rw [bind_apply, bind_done (getGlobals_apply _), hcur, hnone]
  change (storeAddr pkt etherDhost .dst >>= fun _ => storeAddr pkt etherShost .src >>= fun _ =>
    pure beaconType) _ = _
  rw [bind_done (storeAddr_apply _ _ _ _), bind_done (storeAddr_apply _ _ _ _)]
  simp [World.read, othersPassed, Globals.address]

end beacon
end NetworkAnalyser.Server
