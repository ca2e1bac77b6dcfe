import NetworkAnalyser.FirstOffers
import NetworkAnalyser.StoredRecord

/-! `packet_capture_callback` and a capture: a run of deliveries after the resets of
`capture_packets`. -/
namespace NetworkAnalyser.Server
open NetworkAnalyser.Exec NetworkAnalyser.CString NetworkAnalyser.FirstOffers

/- One call of the callback: the packet, and what the locals of the two parsers hold before
they are written. -/
structure Delivery where
  packet : Packet
  ssidBuff : CharArray maxSsidCharCount
  iterator : RadiotapIterator

/-- The two increments at the end of the callback. -/
def Globals.storeRecord (g : Globals) : Globals :=
  { g with
    curPacketCount := g.curPacketCount + 1
    capInfo := { g.capInfo with packetInfoCount := g.capInfo.packetInfoCount + 1 } }

def packetCaptureCallback (fuel : Nat) (d : Delivery) : C Unit := do
  let g ← getGlobals
  if g.curPacketCount ≥ maxPacketInfoCount then
    return
  let ethernetType ← parseEthernet d.packet d.ssidBuff
  if ethernetType = 0 then
    return
  let g ← getGlobals
  if g.current.ethernetType = beaconType then
    let _ ← parseRadioTap fuel d.packet d.iterator bufsiz
  modifyGlobals Globals.storeRecord

/-- The globals after a call that returns. -/
def deliver (fuel : Nat) (g : Globals) (d : Delivery) : Option Globals :=
  match packetCaptureCallback fuel d (World.start g) with
  | (.done _, w) => some w.globals
  | (.undefined, _) => none
  | (.running, _) => none

def resetCounts (g : Globals) : Globals :=
  { g with
    curPacketCount := 0
    dupPacketsDiscarded := 0
    packetsSameSsidDiffBssid := 0
    capInfo := { g.capInfo with packetInfoCount := 0 } }

/- `pcap_loop` hands over the packets one by one. -/
def capturePackets (fuel : Nat) (g : Globals) (ds : List Delivery) : Option Globals :=
  runOver (deliver fuel) (resetCounts g) ds

section callback
variable {fuel : Nat} {g : Globals} {d : Delivery}

theorem callback_full (h : ¬ g.curPacketCount < maxPacketInfoCount) :
    packetCaptureCallback fuel d (World.start g) = (.done (), World.start g) := by
  rw [packetCaptureCallback, bind_done (getGlobals_apply _),
    if_pos (show (World.start g).globals.curPacketCount ≥ _ from Nat.not_lt.mp h)]
  rfl

variable (hroom : g.curPacketCount < maxPacketInfoCount)
include hroom

theorem callback_parsed {t : Nat} {w : World}
    (h : parseEthernet d.packet d.ssidBuff (World.start g) = (.done t, w)) :
    packetCaptureCallback fuel d (World.start g) =
      if t = 0 then (.done (), w)
      else if w.globals.current.ethernetType = beaconType then
        (parseRadioTap fuel d.packet d.iterator bufsiz >>= fun _ =>
          modifyGlobals Globals.storeRecord) w
      else (.done (), { w with globals := w.globals.storeRecord }) := by
  rw [packetCaptureCallback, bind_done (getGlobals_apply _),
    if_neg (show ¬ (World.start g).globals.curPacketCount ≥ _ from Nat.not_le.mpr hroom),
    bind_done h]
  by_cases ht : t = 0
  · rw [if_pos ht, if_pos ht]
    rfl
  · rw [if_neg ht, if_neg ht, bind_done (getGlobals_apply w)]
    by_cases htype : w.globals.current.ethernetType = beaconType
    · rw [if_pos htype, if_pos htype]
    · rw [if_neg htype, if_neg htype]
      rfl

theorem callback_overflow (htype : d.packet.frameType = beaconType)
    (hlen : maxSsidCharCount ≤ d.packet.tagLen) :
    ∃ w, packetCaptureCallback fuel d (World.start g) = (.undefined, w) := by
  obtain ⟨w, hw⟩ := parseEthernet_overflow htype hlen d.ssidBuff (World.start g)
  refine ⟨w, ?_⟩
  rw [packetCaptureCallback, bind_done (getGlobals_apply _),
    if_neg (show ¬ (World.start g).globals.curPacketCount ≥ _ from Nat.not_le.mpr hroom),
    bind_undefined hw]

theorem callback_other (htype : d.packet.frameType ≠ beaconType) (hzero : d.packet.frameType ≠ 0) :
    packetCaptureCallback fuel d (World.start g) =
      (.done (), { (World.start g).read [frameStart, frameStart + 1] with
        globals := (g.storeType d.packet.frameType).storeRecord }) := by
  rw [callback_parsed hroom (parseEthernet_other htype d.ssidBuff (World.start g)), if_neg hzero]
  have hcur : (g.storeType d.packet.frameType).current.ethernetType = d.packet.frameType := by
    simp [Globals.storeType]
  exact if_neg (by rwa [← hcur] at htype)

theorem callback_zero (hzero : d.packet.frameType = 0) :
    packetCaptureCallback fuel d (World.start g) =
      (.done (), { (World.start g).read [frameStart, frameStart + 1] with
        globals := g.storeType 0 }) := by
  have htype : d.packet.frameType ≠ beaconType := by rw [hzero]; decide
  rw [callback_parsed hroom (parseEthernet_other htype d.ssidBuff (World.start g)), if_pos hzero,
    hzero]
  rfl

variable (htype : d.packet.frameType = beaconType) (hlen : d.packet.tagLen < maxSsidCharCount)
include htype hlen

theorem callback_known (hknown : Known g d.packet) :
    packetCaptureCallback fuel d (World.start g) =
      (.done (), { (World.start g).read (keyReads d.packet) with
        globals := (g.identify d.packet).countSearch
          (othersPassed g d.packet d.ssidBuff) 1 }) := by
  rw [callback_parsed hroom (parseEthernet_known htype hlen d.ssidBuff (World.start g) hknown),
    if_pos rfl]
  rfl

def newBeaconWorld (g : Globals) (d : Delivery) : World :=
  { (World.start g).read
      (addrReads etherShost ++ (addrReads etherDhost ++ keyReads d.packet)) with
    globals := ((g.identify d.packet).countSearch
      (othersPassed g d.packet d.ssidBuff) 0).address d.packet }

theorem callback_new (hnew : ¬ Known g d.packet) :
    packetCaptureCallback fuel d (World.start g) =
      (parseRadioTap fuel d.packet d.iterator bufsiz >>= fun _ =>
        modifyGlobals Globals.storeRecord) (newBeaconWorld g d) := by
  have hdesc := (describes_new g d.packet hlen (othersPassed g d.packet d.ssidBuff)).type
  rw [callback_parsed hroom (parseEthernet_new htype hlen d.ssidBuff (World.start g) hnew),
    if_neg (by decide)]
  exact if_pos hdesc

end callback

section deliver
variable {fuel : Nat} {g : Globals} {d : Delivery}

theorem deliver_full (h : ¬ g.curPacketCount < maxPacketInfoCount) :
    deliver fuel g d = some g := by
  rw [deliver, callback_full h]
  rfl

variable (hroom : g.curPacketCount < maxPacketInfoCount)
include hroom

theorem deliver_other (htype : d.packet.frameType ≠ beaconType) (hzero : d.packet.frameType ≠ 0) :
    deliver fuel g d = some (g.storeType d.packet.frameType).storeRecord := by
  rw [deliver, callback_other hroom htype hzero]

theorem deliver_zero (hzero : d.packet.frameType = 0) :
    deliver fuel g d = some (g.storeType 0) := by
  rw [deliver, callback_zero hroom hzero]

variable (htype : d.packet.frameType = beaconType)
include htype

theorem deliver_overflow (hlen : maxSsidCharCount ≤ d.packet.tagLen) :
    deliver fuel g d = none := by
  obtain ⟨w, hw⟩ := @callback_overflow fuel g d hroom htype hlen
  rw [deliver, hw]

theorem deliver_tagLen {g' : Globals} (h : deliver fuel g d = some g') :
    d.packet.tagLen < maxSsidCharCount := by
  by_contra hlen
  rw [deliver_overflow hroom htype (Nat.not_lt.mp hlen)] at h
  exact Option.some_ne_none g' h.symm

variable (hlen : d.packet.tagLen < maxSsidCharCount)
include hlen

theorem deliver_known (hknown : Known g d.packet) :
    deliver fuel g d = some ((g.identify d.packet).countSearch
      (othersPassed g d.packet d.ssidBuff) 1) := by
  rw [deliver, callback_known hroom htype hlen hknown]

theorem deliver_new (hnew : ¬ Known g d.packet) : deliver fuel g d =
    match parseRadioTap fuel d.packet d.iterator bufsiz (newBeaconWorld g d) with
    | (.done _, w) => some w.globals.storeRecord
    | (.undefined, _) => none
    | (.running, _) => none := by
  rw [deliver, callback_new hroom htype hlen hnew, bind_apply]
  cases hp : parseRadioTap fuel d.packet d.iterator bufsiz (newBeaconWorld g d) with
  | mk o w => cases o <;> rfl

end deliver

/-- The ways a delivery can return. -/
inductive Delivered (fuel : Nat) (g : Globals) (d : Delivery) : Globals → Prop
  | full (hfull : ¬ g.curPacketCount < maxPacketInfoCount) : Delivered fuel g d g
  | skipped (hroom : g.curPacketCount < maxPacketInfoCount) (hzero : d.packet.frameType = 0) :
      Delivered fuel g d (g.storeType 0)
  | other (hroom : g.curPacketCount < maxPacketInfoCount)
      (htype : d.packet.frameType ≠ beaconType) (hzero : d.packet.frameType ≠ 0) :
      Delivered fuel g d (g.storeType d.packet.frameType).storeRecord
  | known (hroom : g.curPacketCount < maxPacketInfoCount)
      (htype : d.packet.frameType = beaconType) (hlen : d.packet.tagLen < maxSsidCharCount)
      (hknown : Known g d.packet) :
      Delivered fuel g d ((g.identify d.packet).countSearch
        (othersPassed g d.packet d.ssidBuff) 1)
  | stored {ret : Int} {w : World} (hroom : g.curPacketCount < maxPacketInfoCount)
      (htype : d.packet.frameType = beaconType) (hlen : d.packet.tagLen < maxSsidCharCount)
      (hnew : ¬ Known g d.packet)
      (hparse : parseRadioTap fuel d.packet d.iterator bufsiz (newBeaconWorld g d) =
        (.done ret, w)) : Delivered fuel g d w.globals.storeRecord

theorem delivered {fuel : Nat} {g g' : Globals} {d : Delivery}
    (hd : deliver fuel g d = some g') : Delivered fuel g d g' := by
  by_cases hroom : g.curPacketCount < maxPacketInfoCount
  · by_cases htype : d.packet.frameType = beaconType
    · have hlen := deliver_tagLen hroom htype hd
      by_cases hknown : Known g d.packet
      · rw [deliver_known hroom htype hlen hknown] at hd
        exact Option.some.inj hd ▸ .known hroom htype hlen hknown
      · rw [deliver_new hroom htype hlen hknown] at hd
        cases hparse : parseRadioTap fuel d.packet d.iterator bufsiz (newBeaconWorld g d) with
        | mk o w =>
          rw [hparse] at hd
          cases o with
          | done ret => exact Option.some.inj hd ▸ .stored hroom htype hlen hknown hparse
          | undefined => cases hd
          | running => cases hd
    · by_cases hzero : d.packet.frameType = 0
      · rw [deliver_zero hroom hzero] at hd
        exact Option.some.inj hd ▸ .skipped hroom hzero
      · rw [deliver_other hroom htype hzero] at hd
        exact Option.some.inj hd ▸ .other hroom htype hzero
  · rw [deliver_full hroom] at hd
    exact Option.some.inj hd ▸ .full hroom

/-- If the callback goes on to the radiotap header of a new beacon, the parser returns. -/
def RadioTapReturns (fuel : Nat) (g : Globals) (d : Delivery) : Prop :=
  g.curPacketCount < maxPacketInfoCount → ∀ w,
    parseEthernet d.packet d.ssidBuff (World.start g) = (.done beaconType, w) →
    ∃ ret w', parseRadioTap fuel d.packet d.iterator bufsiz w = (.done ret, w')

theorem deliver_returns {fuel : Nat} {g : Globals} {d : Delivery}
    (htype : d.packet.frameType = beaconType) (hlen : d.packet.tagLen < maxSsidCharCount)
    (h : RadioTapReturns fuel g d) : ∃ g', deliver fuel g d = some g' := by
  by_cases hroom : g.curPacketCount < maxPacketInfoCount
  · by_cases hknown : Known g d.packet
    · exact ⟨_, deliver_known hroom htype hlen hknown⟩
    · obtain ⟨ret, w, hparse⟩ := h hroom _ (parseEthernet_new htype hlen d.ssidBuff _ hknown)
      refine ⟨w.globals.storeRecord, ?_⟩
      rw [deliver_new hroom htype hlen hknown]
      change (match parseRadioTap fuel d.packet d.iterator bufsiz (newBeaconWorld g d) with
        | (.done _, w) => some w.globals.storeRecord
        | (.undefined, _) => none
        | (.running, _) => none) = _
      rw [show parseRadioTap fuel d.packet d.iterator bufsiz (newBeaconWorld g d) = (.done ret, w)
        from hparse]
  · exact ⟨g, deliver_full hroom⟩

/- 18 bytes: flags, a rate of 1 Mbps, channel 2412 MHz, -59 dBm, antenna 1 and RX flags. -/
def typicalHeader : Bytes :=
  [0, 0, 18, 0, 0x2e, 0x48, 0, 0, 0, 2, 0x6c, 9, 0xa0, 0, 0xc5, 1, 0, 0]

def frameBytes (frameControl dst src bss ssid : Bytes) : Bytes :=
  frameControl ++ [0, 0] ++ dst ++ src ++ bss ++ [0, 0] ++ List.replicate 12 0 ++
    [0, ssid.length.toUInt8] ++ ssid

def broadcast : Bytes := List.replicate 6 255

def typicalBeacon (bss ssid : Bytes) : Packet :=
  .ofBytes (typicalHeader ++ frameBytes [0x80, 0] broadcast bss bss ssid)

def Delivery.of (pkt : Packet) : Delivery :=
  ⟨pkt, .zero _, ⟨0, 0, 0, 0, 0, 0, 0, 0⟩⟩

theorem typicalHeader_fits (pkt : Packet)
    (h : (List.range 8).map pkt.byte = typicalHeader.take 8) :
    Accepts pkt bufsiz 8 ∧ itLen pkt = 18 ∧
      fieldsOf (itPresent pkt) 8 = [(1, 8), (2, 9), (3, 10), (5, 14), (11, 15)] := by
  have hbyte : ∀ i (hi : i < 8), pkt.byte i = (typicalHeader.take 8).get ⟨i, hi⟩ := by
    intro i hi
    have := congrArg (·[i]?) h
    simpa [hi, typicalHeader] using this
  have hle32 : pkt.le32 4 = 0x482e := by
    simp [Packet.le32, Packet.le16, hbyte, typicalHeader]
  have hlen : itLen pkt = 18 := by simp [itLen, Packet.le16, hbyte, typicalHeader]
  refine ⟨⟨hbyte 0 (by decide), by rw [hlen]; decide, .inl ⟨?_, rfl⟩⟩, hlen, ?_⟩
  · rw [Extended, hle32]
    decide
  · rw [itPresent, hle32]
    decide

end NetworkAnalyser.Server
