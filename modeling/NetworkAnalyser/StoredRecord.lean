import NetworkAnalyser.EthernetFrame
import NetworkAnalyser.ParseTermination

/-! What a record says about the packet that created it, and which of its members each of the
two parsers writes. -/
namespace NetworkAnalyser.Server
open NetworkAnalyser.Exec NetworkAnalyser.CString NetworkAnalyser.Printf

/-- The members the 802.11 parser writes, for a beacon. -/
structure Describes (r : PacketInfo) (pkt : Packet) : Prop where
  type : r.ethernetType = beaconType
  key : r.key = textKey pkt.key
  src : r.ethernetSrcAddr.str = etherText (pkt.addr etherShost)
  dst : r.ethernetDstAddr.str = etherText (pkt.addr etherDhost)

/-- The members the radiotap parser writes. -/
@[ext] structure Radio where
  dataRateKbps : Int
  antenna : Int
  channel : UInt16
  signalPwrDbmAtAntenna : UInt8
  deriving DecidableEq

def PacketInfo.radio (r : PacketInfo) : Radio :=
  ⟨r.dataRateKbps, r.antenna, r.channel, r.signalPwrDbmAtAntenna⟩

def PacketInfo.setRadio (r : PacketInfo) (x : Radio) : PacketInfo :=
  { r with
    dataRateKbps := x.dataRateKbps, antenna := x.antenna, channel := x.channel,
    signalPwrDbmAtAntenna := x.signalPwrDbmAtAntenna }

@[simp] theorem setRadio_radio (r : PacketInfo) (x : Radio) : (r.setRadio x).radio = x := rfl

@[simp] theorem setRadio_self (r : PacketInfo) : r.setRadio r.radio = r := rfl

@[simp] theorem setRadio_setRadio (r : PacketInfo) (x y : Radio) :
    (r.setRadio x).setRadio y = r.setRadio y := rfl

theorem Describes.setRadio {r : PacketInfo} {pkt : Packet} (h : Describes r pkt) (x : Radio) :
    Describes (r.setRadio x) pkt :=
  ⟨h.type, h.key, h.src, h.dst⟩

section frame
variable (g : Globals) (pkt : Packet)

theorem identify_current : (g.identify pkt).current = { g.current with
    ethernetType := beaconType
    ssid := ssidArray pkt g.current.ssid
    ethernetBssId := fillAddr (ntoaBuffer g.etherNtoaBuf (etherText (pkt.addr bssid)))
      g.current.ethernetBssId } := by
  simp [Globals.identify, Globals.storeText, Globals.storeSsid, Globals.storeType,
    PacketInfo.setAddr, PacketInfo.addr]

theorem storeText_current_addr (off : Nat) (m : AddrMember) :
    ((g.storeText (etherText (pkt.addr off)) m).current.addr m).str =
      etherText (pkt.addr off) := by
  rw [Globals.storeText, Globals.setCurrent_current]
  cases m <;> exact fillAddr_ntoaBuffer_str _ _ (addr_text_length_le pkt off)
    (nul_notMem_etherText _)

theorem identify_key (hlen : pkt.tagLen < maxSsidCharCount) :
    (g.identify pkt).current.key = textKey pkt.key := by
  have hbssid := storeText_current_addr ((g.storeType beaconType).storeSsid pkt) pkt bssid .bssId
  refine Prod.ext ?_ hbssid
  rw [identify_current]
  exact ssidArray_str pkt g.current.ssid hlen

theorem address_current : (g.address pkt).current = { g.current with
    ethernetDstAddr := fillAddr (ntoaBuffer g.etherNtoaBuf (etherText (pkt.addr etherDhost)))
      g.current.ethernetDstAddr
    ethernetSrcAddr := fillAddr (ntoaBuffer
        (ntoaBuffer g.etherNtoaBuf (etherText (pkt.addr etherDhost)))
        (etherText (pkt.addr etherShost)))
      g.current.ethernetSrcAddr } := by
  simp [Globals.address, Globals.storeText, PacketInfo.setAddr, PacketInfo.addr]

theorem address_type : (g.address pkt).current.ethernetType = g.current.ethernetType := by
  rw [address_current]

theorem address_key : (g.address pkt).current.key = g.current.key := by
  rw [address_current]
  simp only [PacketInfo.key]

theorem address_src :
    (g.address pkt).current.ethernetSrcAddr.str = etherText (pkt.addr etherShost) :=
  storeText_current_addr _ pkt etherShost .src

theorem address_dst :
    (g.address pkt).current.ethernetDstAddr.str = etherText (pkt.addr etherDhost) := by
  have h := storeText_current_addr g pkt etherDhost .dst
  rw [Globals.storeText, Globals.setCurrent_current] at h
  rw [address_current]
  exact h

@[simp] theorem countSearch_current (others duplicates : Nat) :
    (g.countSearch others duplicates).current = g.current := rfl

theorem describes_new (hlen : pkt.tagLen < maxSsidCharCount) (others : Nat) :
    Describes (((g.identify pkt).countSearch others 0).address pkt).current pkt where
  type := by rw [address_type, countSearch_current, identify_current]
  key := by rw [address_key, countSearch_current, identify_key g pkt hlen]
  src := address_src _ pkt
  dst := address_dst _ pkt

end frame

def RadioOnly (w w' : World) : Prop :=
  ∃ x, w'.globals = w.globals.setCurrent (w.globals.current.setRadio x)

theorem RadioOnly.refl (w : World) : RadioOnly w w :=
  ⟨w.globals.current.radio, by simp⟩

theorem RadioOnly.trans (u v w : World) (h : RadioOnly u v) (h' : RadioOnly v w) :
    RadioOnly u w := by
  obtain ⟨x, hx⟩ := h
  obtain ⟨y, hy⟩ := h'
  exact ⟨y, by rw [hy, hx]; simp⟩

theorem RadioOnly.of_eq {w w' : World} (h : w'.globals = w.globals) : RadioOnly w w' :=
  ⟨w.globals.current.radio, by simp [h]⟩

section safe
open Code

/- What the parser does to the globals is what the stores of its arguments do. -/
section parse
variable {R : World → World → Prop} (hglobals : ∀ w w' : World, w'.globals = w.globals → R w w')
  (htrans : ∀ u v w, R u v → R v w → R u w)
include hglobals

theorem safe_read8 (pkt : Packet) (a : Nat) : (read8 pkt a).Safe R :=
  fun _ => ⟨by simp, hglobals _ _ rfl⟩

theorem safe_readLe16 (pkt : Packet) (a : Nat) : (readLe16 pkt a).Safe R :=
  fun _ => ⟨by simp, hglobals _ _ rfl⟩

theorem safe_readLe32 (pkt : Packet) (a : Nat) : (readLe32 pkt a).Safe R :=
  fun _ => ⟨by simp, hglobals _ _ rfl⟩

theorem safe_return {α : Type} (a : α) : (pure a : C α).Safe R :=
  safe_pure (fun w => hglobals w w rfl) a

include htrans

theorem safe_skipBitmaps (pkt : Packet) (it : RadiotapIterator) :
    (skipBitmaps pkt it).Safe R := by
  induction it using skipBitmaps.induct with
  | case1 it ih =>
    rw [skipBitmaps]
    refine (safe_readLe32 hglobals pkt it.arg).bind htrans fun word => ?_
    split
    · split
      · exact safe_return hglobals _
      · rename_i hin
        exact ih hin
    · exact safe_return hglobals _

theorem safe_init (pkt : Packet) (it : RadiotapIterator) (maxLength : Int) :
    (ieee80211RadiotapIteratorInit pkt it maxLength).Safe R := by
  refine (safe_read8 hglobals pkt 0).bind htrans fun version => ?_
  split
  · exact safe_return hglobals _
  · refine (safe_readLe16 hglobals pkt 2).bind htrans fun len => ?_
    split
    · exact safe_return hglobals _
    · refine (safe_readLe32 hglobals pkt 4).bind htrans fun present => ?_
      split
      · exact safe_skipBitmaps hglobals htrans pkt _
      · exact safe_return hglobals _

theorem safe_nextEntry (pkt : Packet) (it : RadiotapIterator) :
    (nextEntry pkt it).Safe R := by
  unfold nextEntry
  split
  · split
    · exact (safe_readLe32 hglobals pkt _).bind htrans fun _ => safe_return hglobals _
    · exact safe_return hglobals _
  · exact safe_return hglobals _

theorem safe_nextLoop (pkt : Packet) (n : Nat) (it : RadiotapIterator) :
    (iteratorNextLoop pkt n it).Safe R := by
  induction n generalizing it with
  | zero => exact safe_return hglobals _
  | succ n ih =>
    rw [iteratorNextLoop]
    split
    · split
      · exact (safe_nextEntry hglobals htrans pkt it).bind htrans fun it' => ih it'
      · split
        · exact safe_return hglobals _
        · exact (safe_nextEntry hglobals htrans pkt it.hit).bind htrans fun _ =>
            safe_return hglobals _
    · exact safe_return hglobals _

variable (hstore : ∀ pkt it, (storeArgument pkt it).Safe R)
include hstore

theorem safe_body (pkt : Packet) (b : Int × RadiotapIterator) :
    (parseRadioTapBody pkt b).Safe R := by
  obtain ⟨ret, it⟩ := b
  rw [parseRadioTapBody]
  split
  · have hcount : countNext.Safe R := fun _ => ⟨by simp, hglobals _ _ rfl⟩
    refine hcount.bind htrans fun _ => ?_
    refine Code.Safe.bind htrans (safe_nextLoop hglobals htrans pkt _ _) fun b => ?_
    obtain ⟨ret', it'⟩ := b
    dsimp only
    split
    · exact safe_return hglobals _
    · exact (hstore pkt it').bind htrans fun _ => safe_return hglobals _
  · split <;> exact safe_return hglobals _

theorem safe_parse (fuel : Nat) (pkt : Packet) (stack : RadiotapIterator) (maxLength : Int) :
    (parseRadioTap fuel pkt stack maxLength).Safe R :=
  (safe_init hglobals htrans pkt stack maxLength).bind htrans fun b =>
    Code.Safe.loop (fun w => hglobals w w rfl) htrans (safe_body hglobals htrans hstore pkt) fuel b

end parse

theorem RadioOnly.globals (w w' : World) (h : w'.globals = w.globals) : RadioOnly w w' := .of_eq h

theorem safe_storeRadio (f : PacketInfo → PacketInfo)
    (hf : ∀ r, ∃ x, f r = PacketInfo.setRadio r x) : (storeCurrent f).Safe RadioOnly := by
  intro w
  obtain ⟨x, hx⟩ := hf w.globals.current
  exact ⟨by simp, x, by rw [storeCurrent_apply, hx]⟩

theorem safe_storeArgument (pkt : Packet) (it : RadiotapIterator) :
    (storeArgument pkt it).Safe RadioOnly := by
  unfold storeArgument
  split
  · exact (safe_read8 RadioOnly.globals pkt _).bind RadioOnly.trans fun rate =>
      safe_storeRadio _ fun r => ⟨{ r.radio with dataRateKbps := rate.toNat * 500 }, rfl⟩
  · split
    · exact (safe_read8 RadioOnly.globals pkt _).bind RadioOnly.trans fun antenna =>
        safe_storeRadio _ fun r => ⟨{ r.radio with antenna := antenna.toNat }, rfl⟩
    · split
      · exact (safe_read8 RadioOnly.globals pkt _).bind RadioOnly.trans fun signal =>
          safe_storeRadio _ fun r => ⟨{ r.radio with signalPwrDbmAtAntenna := signal }, rfl⟩
      · split
        · exact (safe_readLe16 RadioOnly.globals pkt _).bind RadioOnly.trans fun channel =>
            safe_storeRadio _ fun r => ⟨{ r.radio with channel := channel.toUInt16 }, rfl⟩
        · exact safe_pure RadioOnly.refl _

/-- On every header, and with every stack, the parser writes radio members only and leaves no
array. -/
theorem safe_parseRadioTap (fuel : Nat) (pkt : Packet) (stack : RadiotapIterator)
    (maxLength : Int) : (parseRadioTap fuel pkt stack maxLength).Safe RadioOnly :=
  safe_parse RadioOnly.globals RadioOnly.trans safe_storeArgument fuel pkt stack maxLength

end safe
end NetworkAnalyser.Server
