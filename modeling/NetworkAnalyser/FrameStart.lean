import NetworkAnalyser.Capture

/-! Where the 802.11 frame of a captured beacon starts, and the offsets `parse_ethernet` takes
its addresses and its SSID from instead. -/
namespace NetworkAnalyser.Server
open NetworkAnalyser.Exec NetworkAnalyser.CString

structure TaggedElement where
  tag : UInt8
  body : Bytes

def elementBody (pkt : Packet) (off : Nat) : Bytes :=
  (List.range (pkt.byte (off + 1)).toNat).map fun i => pkt.byte (off + 2 + i)

inductive Elements (pkt : Packet) : Nat → List TaggedElement → Prop
  | done : Elements pkt pkt.caplen []
  | cons {off : Nat} {es : List TaggedElement}
      (rest : Elements pkt (off + 2 + (pkt.byte (off + 1)).toNat) es) :
      Elements pkt off (⟨pkt.byte off, elementBody pkt off⟩ :: es)

theorem Elements.head {pkt : Packet} {off : Nat} {e : TaggedElement} {es : List TaggedElement}
    (h : Elements pkt off (e :: es)) : e = ⟨pkt.byte off, elementBody pkt off⟩ := by
  cases h with
  | cons rest => rfl

/- A radiotap header the iterator accepts, a management header with the frame control of a
beacon, the fixed parameters and elements one of which is a short SSID. -/
structure CapturedBeacon extends Delivery where
  start : Nat
  elements : List TaggedElement
  ssid : Bytes
  accepted : Accepts packet bufsiz start
  header : 8 ≤ itLen packet
  control : packet.be16 (itLen packet) = beaconType
  parsed : Elements packet (itLen packet + 36) elements
  carried : elements.find? (fun e => e.tag = 0) = some ⟨0, ssid⟩
  short : ssid.length < maxSsidCharCount

namespace CapturedBeacon
variable (b : CapturedBeacon)

def dst : Bytes := b.packet.addr (itLen b.packet + 4)
def src : Bytes := b.packet.addr (itLen b.packet + 10)
def bss : Bytes := b.packet.addr (itLen b.packet + 16)

end CapturedBeacon

/-- The record holds the addresses and the SSID of the beacon. -/
structure HoldsFrame (r : PacketInfo) (b : CapturedBeacon) : Prop where
  dst : r.ethernetDstAddr.str = etherText b.dst
  src : r.ethernetSrcAddr.str = etherText b.src
  bss : r.ethernetBssId.str = etherText b.bss
  ssid : b.ssid ++ [0] <+: r.ssid.bytes

/-- `parse_ethernet` returns with the beacon in the current record, by itself or because the slot
held it before. -/
def EndsWithFrame (g : Globals) (b : CapturedBeacon) : Prop :=
  ∃ t w, parseEthernet b.packet b.ssidBuff (World.start g) = (.done t, w) ∧
    HoldsFrame w.globals.current b

/- The bytes at the fixed offsets are those of the frame. A known beacon leaves source and
destination of the slot alone, a frame of another type leaves all of it. -/
def MeetsFrame (g : Globals) (b : CapturedBeacon) : Prop :=
  (b.packet.frameType = beaconType ∧ b.packet.tagLen < maxSsidCharCount ∧
    b.packet.addr bssid = b.bss ∧
    b.ssid ++ [0] <+:
      b.packet.ssidBytes ++ 0 :: g.current.ssid.bytes.drop (b.packet.tagLen + 1) ∧
    ((Known g b.packet ∧ g.current.ethernetDstAddr.str = etherText b.dst ∧
        g.current.ethernetSrcAddr.str = etherText b.src) ∨
      (¬ Known g b.packet ∧ b.packet.addr etherDhost = b.dst ∧
        b.packet.addr etherShost = b.src))) ∨
  (b.packet.frameType ≠ beaconType ∧ HoldsFrame g.current b)

/-- `parse_ethernet` stores the beacon in the current record, whatever the slot held before. -/
def DecodesFrame (g : Globals) (b : CapturedBeacon) : Prop :=
  ∀ slot, EndsWithFrame (g.setCurrent slot) b

/-- The fixed offsets meet the frame of a beacon that is not stored yet. -/
structure ReadsFrame (g : Globals) (b : CapturedBeacon) : Prop where
  type : b.packet.frameType = beaconType
  tagLen : b.packet.tagLen < maxSsidCharCount
  new : ¬ Known g b.packet
  dst : b.packet.addr etherDhost = b.dst
  src : b.packet.addr etherShost = b.src
  bss : b.packet.addr bssid = b.bss
  ssid : b.ssid ++ [0] <+: b.packet.ssidBytes ++ [0]

theorem addr_text_iff (p q : Packet) (i j : Nat) :
    etherText (p.addr i) = etherText (q.addr j) ↔ p.addr i = q.addr j :=
  ⟨etherText_inj (addr_ne_nil p i) (addr_ne_nil q j), fun h => by rw [h]⟩

section cases
variable {g : Globals} {b : CapturedBeacon}

theorem holdsFrame_other (t : Nat) :
    HoldsFrame (g.storeType t).current b ↔ HoldsFrame g.current b := by
  rw [Globals.storeType, Globals.setCurrent_current]
  exact ⟨fun h => ⟨h.dst, h.src, h.bss, h.ssid⟩, fun h => ⟨h.dst, h.src, h.bss, h.ssid⟩⟩

variable (hlen : b.packet.tagLen < maxSsidCharCount)
include hlen

theorem identify_ssid_bytes : (g.identify b.packet).current.ssid.bytes =
    b.packet.ssidBytes ++ 0 :: g.current.ssid.bytes.drop (b.packet.tagLen + 1) := by
  rw [identify_current]
  exact ssidArray_bytes b.packet g.current.ssid hlen

theorem identify_bss_iff :
    (g.identify b.packet).current.ethernetBssId.str = etherText b.bss ↔
      b.packet.addr bssid = b.bss := by
  rw [show (g.identify b.packet).current.ethernetBssId.str = etherText (b.packet.addr bssid) from
    (Prod.mk.inj (identify_key g b.packet hlen)).2]
  exact addr_text_iff _ _ _ _

theorem holdsFrame_known : HoldsFrame (g.identify b.packet).current b ↔
    b.packet.addr bssid = b.bss ∧
    b.ssid ++ [0] <+:
      b.packet.ssidBytes ++ 0 :: g.current.ssid.bytes.drop (b.packet.tagLen + 1) ∧
    g.current.ethernetDstAddr.str = etherText b.dst ∧
    g.current.ethernetSrcAddr.str = etherText b.src := by
  have hdst : (g.identify b.packet).current.ethernetDstAddr = g.current.ethernetDstAddr := by
    rw [identify_current]
  have hsrc : (g.identify b.packet).current.ethernetSrcAddr = g.current.ethernetSrcAddr := by
    rw [identify_current]
  rw [← identify_bss_iff hlen, ← identify_ssid_bytes hlen, ← hdst, ← hsrc]
  exact ⟨fun h => ⟨h.bss, h.ssid, h.dst, h.src⟩, fun h => ⟨h.2.2.1, h.2.2.2, h.1, h.2.1⟩⟩

theorem holdsFrame_new (others : Nat) :
    HoldsFrame (((g.identify b.packet).countSearch others 0).address b.packet).current b ↔
    b.packet.addr bssid = b.bss ∧
    b.ssid ++ [0] <+:
      b.packet.ssidBytes ++ 0 :: g.current.ssid.bytes.drop (b.packet.tagLen + 1) ∧
    b.packet.addr etherDhost = b.dst ∧ b.packet.addr etherShost = b.src := by
  have hdst := address_dst ((g.identify b.packet).countSearch others 0) b.packet
  have hsrc := address_src ((g.identify b.packet).countSearch others 0) b.packet
  have hrest := address_current ((g.identify b.packet).countSearch others 0) b.packet
  generalize (((g.identify b.packet).countSearch others 0).address b.packet).current = r at *
  have hbss : r.ethernetBssId = (g.identify b.packet).current.ethernetBssId := by rw [hrest]; rfl
  have hssid : r.ssid = (g.identify b.packet).current.ssid := by rw [hrest]; rfl
  have hdst' : r.ethernetDstAddr.str = etherText b.dst ↔ b.packet.addr etherDhost = b.dst := by
    rw [hdst]
    exact addr_text_iff _ _ _ _
  have hsrc' : r.ethernetSrcAddr.str = etherText b.src ↔ b.packet.addr etherShost = b.src := by
    rw [hsrc]
    exact addr_text_iff _ _ _ _
  rw [← identify_bss_iff hlen, ← identify_ssid_bytes hlen, ← hdst', ← hsrc', ← hbss, ← hssid]
  exact ⟨fun h => ⟨h.bss, h.ssid, h.dst, h.src⟩, fun h => ⟨h.2.2.1, h.2.2.2, h.1, h.2.1⟩⟩

end cases

theorem endsWithFrame_of_eq {g : Globals} {b : CapturedBeacon} {t : Nat} {w : World}
    (h : parseEthernet b.packet b.ssidBuff (World.start g) = (.done t, w)) :
    EndsWithFrame g b ↔ HoldsFrame w.globals.current b := by
  constructor
  · rintro ⟨t', w', h', hholds⟩
    rw [h] at h'
    exact (Prod.mk.inj h').2 ▸ hholds
  · intro hholds
    exact ⟨t, w, h, hholds⟩

theorem endsWithFrame_iff (g : Globals) (b : CapturedBeacon) :
    EndsWithFrame g b ↔ MeetsFrame g b := by
  unfold MeetsFrame
  by_cases htype : b.packet.frameType = beaconType
  · by_cases hlen : b.packet.tagLen < maxSsidCharCount
    · by_cases hknown : Known g b.packet
      · rw [endsWithFrame_of_eq (parseEthernet_known htype hlen b.ssidBuff _ hknown)]
        simp only [htype, hlen, hknown, true_and, not_true_eq_false, false_and, or_false, ne_eq]
        exact holdsFrame_known hlen
      · rw [endsWithFrame_of_eq (parseEthernet_new htype hlen b.ssidBuff _ hknown)]
        simp only [htype, hlen, hknown, true_and, not_true_eq_false, not_false_eq_true, false_and,
          false_or, or_false, ne_eq]
        exact holdsFrame_new hlen _
    · obtain ⟨w, hw⟩ := parseEthernet_overflow htype (Nat.not_lt.mp hlen) b.ssidBuff
        (World.start g)
      simp [EndsWithFrame, hw, htype, hlen]
  · rw [endsWithFrame_of_eq (parseEthernet_other htype b.ssidBuff _)]
    simp only [htype, false_and, false_or, ne_eq, not_false_eq_true, true_and]
    exact holdsFrame_other _

theorem known_setCurrent (g : Globals) (slot : PacketInfo) (pkt : Packet) :
    Known (g.setCurrent slot) pkt ↔ Known g pkt := by
  have hrecord : ∀ i < g.curPacketCount, (g.setCurrent slot).record i = g.record i :=
    fun i hi => g.setCurrent_record_of_ne slot (Nat.ne_of_lt hi)
  constructor
  · rintro ⟨i, hi, hkey⟩
    exact ⟨i, hi, hrecord i hi ▸ hkey⟩
  · rintro ⟨i, hi, hkey⟩
    exact ⟨i, hi, (hrecord i hi).symm ▸ hkey⟩

def filledSlot (c : UInt8) : PacketInfo :=
  { PacketInfo.zero with ssid := ⟨List.replicate maxSsidCharCount c, List.length_replicate⟩ }

theorem filledSlot_not_holds (g : Globals) (c : UInt8) (b : CapturedBeacon) :
    (g.setCurrent (filledSlot c)).current.ethernetDstAddr.str ≠ etherText b.dst := by
  have hempty : (filledSlot c).ethernetDstAddr.str = [] := CharArray.zero_str 18
  have htext : ∃ x y s, b.dst = x :: y :: s := ⟨_, _, _, rfl⟩
  obtain ⟨x, y, s, hdst⟩ := htext
  rw [Globals.setCurrent_current, hempty, hdst, etherText_cons_cons]
  exact fun h => by simp at h

/-- What is written over any array of this size is written without its rest. -/
theorem prefix_of_fillings {s t : Bytes} {n : Nat} (hlen : s.length ≤ t.length + n)
    (h : ∀ c : UInt8, s <+: t ++ List.replicate n c) : s <+: t := by
  by_cases hle : s.length ≤ t.length
  · exact List.prefix_of_prefix_length_le (h 0) (List.prefix_append _ _) hle
  · have hshort : t <+: s :=
      List.prefix_of_prefix_length_le (List.prefix_append t (List.replicate n 0)) (h 0)
        (Nat.le_of_lt (Nat.not_le.mp hle))
    obtain ⟨more, rfl⟩ := hshort
    have hall : ∀ c : UInt8, more <+: List.replicate n c := fun c =>
      (List.prefix_append_right_inj t).mp (h c)
    cases more with
    | nil => simp at hle
    | cons m ms =>
      have hfirst : ∀ c : UInt8, m = c := fun c =>
        List.eq_of_mem_replicate ((hall c).subset List.mem_cons_self)
      exact absurd ((hfirst 0).symm.trans (hfirst 1)) (by decide)

/-- The beacon is stored, whatever the slot held, exactly where the fixed offsets meet its frame and
no stored record has its key. -/
theorem decodes_frame_iff (g : Globals) (b : CapturedBeacon) :
    DecodesFrame g b ↔ ReadsFrame g b := by
  constructor
  · intro h
    have hfixed : ∀ c : UInt8, b.packet.frameType = beaconType ∧
        b.packet.tagLen < maxSsidCharCount ∧ b.packet.addr bssid = b.bss ∧
        b.ssid ++ [0] <+: b.packet.ssidBytes ++ 0 ::
          (List.replicate maxSsidCharCount c).drop (b.packet.tagLen + 1) ∧
        ¬ Known g b.packet ∧ b.packet.addr etherDhost = b.dst ∧
        b.packet.addr etherShost = b.src := by
      intro c
      have hslot : (g.setCurrent (filledSlot c)).current.ssid.bytes =
          List.replicate maxSsidCharCount c := by
        rw [Globals.setCurrent_current]
        rfl
      have hempty := filledSlot_not_holds g c b
      have hmeets := (endsWithFrame_iff _ b).mp (h (filledSlot c))
      rw [MeetsFrame, hslot, known_setCurrent] at hmeets
      rcases hmeets with ⟨htype, htag, hbss, hssid, hknown | hnew⟩ | hother
      · exact absurd hknown.2.1 hempty
      · exact ⟨htype, htag, hbss, hssid, hnew⟩
      · exact absurd hother.2.dst hempty
    obtain ⟨htype, htag, hbss, _, hnew, hdst, hsrc⟩ := hfixed 0
    refine ⟨htype, htag, hnew, hdst, hsrc, hbss, ?_⟩
    have hroom : (b.ssid ++ [0]).length ≤ (b.packet.ssidBytes ++ [0]).length +
        (maxSsidCharCount - (b.packet.tagLen + 1)) := by
      have hshort := b.short
      have hsize : b.packet.ssidBytes.length = b.packet.tagLen := by simp [Packet.ssidBytes]
      rw [List.length_append, List.length_append, hsize, List.length_singleton]
      omega
    refine prefix_of_fillings hroom fun c => ?_
    have hssid := (hfixed c).2.2.2.1
    rw [List.drop_replicate] at hssid
    rwa [List.append_assoc, List.singleton_append]
  · intro h slot
    have hnew : ¬ Known (g.setCurrent slot) b.packet := mt (known_setCurrent g slot _).mp h.new
    have hssid : b.packet.ssidBytes ++ [0] <+: b.packet.ssidBytes ++
        0 :: (g.setCurrent slot).current.ssid.bytes.drop (b.packet.tagLen + 1) :=
      (List.prefix_append_right_inj _).mpr (List.cons_prefix_cons.mpr ⟨rfl, List.nil_prefix⟩)
    exact (endsWithFrame_iff _ b).mpr (Or.inl ⟨h.type, h.tagLen, h.bss, h.ssid.trans hssid,
      Or.inr ⟨hnew, h.dst, h.src⟩⟩)

theorem readsFrame_of_adapter {g : Globals} {b : CapturedBeacon} (hlen : itLen b.packet = 18)
    (hfirst : b.elements.head? = some ⟨0, b.ssid⟩) (hnew : ¬ Known g b.packet) :
    ReadsFrame g b := by
  have hparsed := b.parsed
  rw [hlen] at hparsed
  have hbody : b.packet.ssidBytes = b.ssid := by
    cases hes : b.elements with
    | nil => simp [hes] at hfirst
    | cons e es =>
      rw [hes] at hparsed hfirst
      exact congrArg TaggedElement.body (hparsed.head.symm.trans (Option.some.inj hfirst))
  have htag : b.packet.tagLen < maxSsidCharCount := by
    have hshort := b.short
    rw [← hbody] at hshort
    simpa [Packet.ssidBytes] using hshort
  have htype : b.packet.frameType = beaconType := by
    have := b.control
    rwa [hlen] at this
  refine ⟨htype, htag, hnew, ?_, ?_, ?_, ?_⟩
  · rw [CapturedBeacon.dst, hlen]
    rfl
  · rw [CapturedBeacon.src, hlen]
    rfl
  · rw [CapturedBeacon.bss, hlen]
    rfl
  · rw [hbody]

def shortHeaderBeacon : CapturedBeacon where
  toDelivery := .of (.ofBytes ([0, 0, 8, 0, 0, 0, 0, 0] ++
    frameBytes [0x80, 0] broadcast [0, 1, 2, 3, 4, 10] [0, 1, 2, 3, 4, 10] (Printf.ascii "home")))
  start := 8
  elements := [⟨0, Printf.ascii "home"⟩]
  ssid := Printf.ascii "home"
  accepted := ⟨by decide, by decide, .inl ⟨by decide, rfl⟩⟩
  header := by decide
  control := by decide
  parsed := .cons .done
  carried := rfl
  short := by decide

theorem shortHeaderBeacon_misread : ¬ DecodesFrame .initial shortHeaderBeacon := by
  have htype : shortHeaderBeacon.packet.frameType ≠ beaconType := by decide
  intro h
  have hends := h .zero
  rw [endsWithFrame_of_eq (parseEthernet_other htype _ _)] at hends
  have hdst := ((holdsFrame_other _).mp hends).dst
  revert hdst
  decide

end NetworkAnalyser.Server
