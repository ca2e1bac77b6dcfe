import NetworkAnalyser.CaptureOutput
import NetworkAnalyser.ReadBounds

/-! Beacons as the stations send them, behind the header of the usual adapter: what is in the
packets the capture is given, and what is to be reported of each. -/
namespace NetworkAnalyser.Server
open NetworkAnalyser.Exec NetworkAnalyser.CString NetworkAnalyser.Printf

structure Address where
  octets : Bytes
  six : octets.length = 6
  deriving DecidableEq

def littleEndian (x : UInt16) : Bytes := [x.toUInt8, (x >>> 8).toUInt8]

/- The reception of a beacon, by the members of the radiotap header and of the frame. The rate
is in units of 500 kbps, the frequency in MHz; `elements` is what follows the SSID. -/
structure Beacon where
  flags : UInt8
  rate : UInt8
  frequency : UInt16
  channelFlags : UInt16
  signal : UInt8
  antenna : UInt8
  rxFlags : UInt16
  duration : UInt16
  dst : Address
  src : Address
  bss : Address
  sequence : UInt16
  fixedParams : Bytes
  ssid : Bytes
  elements : Bytes
  fixed_size : fixedParams.length = 12
  ssid_short : ssid.length < maxSsidCharCount
  deriving DecidableEq

namespace Beacon

def radiotap (b : Beacon) : Bytes :=
  [0, 0, 18, 0, 0x2e, 0x48, 0, 0, b.flags, b.rate] ++ littleEndian b.frequency ++
    littleEndian b.channelFlags ++ [b.signal, b.antenna] ++ littleEndian b.rxFlags

def control (b : Beacon) : Bytes := [0x80, 0] ++ littleEndian b.duration

def fixedPart (b : Beacon) : Bytes :=
  littleEndian b.sequence ++ b.fixedParams ++ [0, b.ssid.length.toUInt8]

def bytes (b : Beacon) : Bytes :=
  b.radiotap ++ (b.control ++ (b.dst.octets ++ (b.src.octets ++ (b.bss.octets ++
    (b.fixedPart ++ (b.ssid ++ b.elements))))))

def packet (b : Beacon) : Packet := .ofBytes b.bytes

/-- SSID and BSSID; the SSID is a C string to the capture. -/
def network (b : Beacon) : Bytes × Bytes := (cstr b.ssid, b.bss.octets)

/-- What is to be printed of a beacon. -/
def report (signedChar : Bool) (b : Beacon) : PacketTexts where
  datarate := percentI (500 * b.rate.toNat)
  antenna := percentI b.antenna.toNat
  channel := percentI b.frequency.toNat
  power := percentI (promoteChar signedChar b.signal)
  ssid := cstr b.ssid
  src := etherText b.src.octets
  dst := etherText b.dst.octets
  bssid := etherText b.bss.octets

end Beacon

theorem ofBytes_slice (pre mid post : Bytes) :
    (List.range mid.length).map (fun i =>
      (Packet.ofBytes (pre ++ (mid ++ post))).byte (pre.length + i)) = mid := by
  refine List.ext_getElem (by simp) fun i h _ => ?_
  have hi : i < mid.length := by simpa using h
  have hslice : (pre ++ (mid ++ post))[pre.length + i]? = some mid[i] := by
    rw [List.getElem?_append_right (Nat.le_add_right _ _), Nat.add_sub_cancel_left,
      List.getElem?_append_left hi, List.getElem?_eq_getElem hi]
  simp [Packet.ofBytes, hslice]

theorem ofBytes_byte (pre post : Bytes) (c : UInt8) :
    (Packet.ofBytes (pre ++ c :: post)).byte pre.length = c := by
  simp [Packet.ofBytes]

theorem littleEndian_value (x : UInt16) :
    ((x.toUInt8.toNat + 256 * (x >>> 8).toUInt8.toNat).toUInt16) = x := by
  have hx : x.toNat < 65536 := x.toNat_lt
  apply UInt16.toNat_inj.mp
  have hlow : x.toUInt8.toNat = x.toNat % 256 := by simp
  have hhigh : (x >>> 8).toUInt8.toNat = x.toNat / 256 := by
    simp [Nat.shiftRight_eq_div_pow]
    omega
  rw [hlow, hhigh]
  simp
  omega

namespace Beacon
variable (b : Beacon)

@[simp] theorem radiotap_length : b.radiotap.length = 18 := rfl

@[simp] theorem control_length : b.control.length = 4 := rfl

@[simp] theorem fixedPart_length : b.fixedPart.length = 16 := by
  simp [fixedPart, littleEndian, b.fixed_size]

theorem addr_dst : b.packet.addr etherDhost = b.dst.octets := by
  have h := ofBytes_slice (b.radiotap ++ b.control) b.dst.octets
    (b.src.octets ++ (b.bss.octets ++ (b.fixedPart ++ (b.ssid ++ b.elements))))
  rw [b.dst.six, List.append_assoc] at h
  exact h

theorem addr_src : b.packet.addr etherShost = b.src.octets := by
  have h := ofBytes_slice (b.radiotap ++ (b.control ++ b.dst.octets)) b.src.octets
    (b.bss.octets ++ (b.fixedPart ++ (b.ssid ++ b.elements)))
  rw [b.src.six] at h
  simpa [Packet.addr, packet, bytes, b.dst.six, etherShost, frameStart] using h

theorem addr_bss : b.packet.addr bssid = b.bss.octets := by
  have h := ofBytes_slice (b.radiotap ++ (b.control ++ (b.dst.octets ++ b.src.octets)))
    b.bss.octets (b.fixedPart ++ (b.ssid ++ b.elements))
  rw [b.bss.six] at h
  simpa [Packet.addr, packet, bytes, b.dst.six, b.src.six, bssid, frameStart] using h

theorem tagLen_eq : b.packet.tagLen = b.ssid.length := by
  have h := ofBytes_byte
    (b.radiotap ++ (b.control ++ (b.dst.octets ++ (b.src.octets ++ (b.bss.octets ++
      (littleEndian b.sequence ++ (b.fixedParams ++ [0])))))))
    (b.ssid ++ b.elements) b.ssid.length.toUInt8
  have hbyte : b.packet.byte tagLength = b.ssid.length.toUInt8 := by
    simpa [packet, bytes, fixedPart, b.dst.six, b.src.six, b.bss.six, b.fixed_size, littleEndian,
      tagLength, mgmtFrame, frameStart] using h
  have hshort : b.ssid.length < 15 := b.ssid_short
  rw [Packet.tagLen, hbyte, UInt8.toNat_ofNat']
  omega

theorem ssidBytes_eq : b.packet.ssidBytes = b.ssid := by
  have h := ofBytes_slice
    (b.radiotap ++ (b.control ++ (b.dst.octets ++ (b.src.octets ++ (b.bss.octets ++
      b.fixedPart))))) b.ssid b.elements
  rw [Packet.ssidBytes, b.tagLen_eq]
  simpa [packet, bytes, b.dst.six, b.src.six, b.bss.six, ssidStart, mgmtFrame, frameStart] using h

theorem tagLen_lt : b.packet.tagLen < maxSsidCharCount := b.tagLen_eq ▸ b.ssid_short

theorem frameType_eq : b.packet.frameType = beaconType := rfl

theorem key_eq : b.packet.key = b.network := by
  rw [Packet.key, b.ssidBytes_eq, b.addr_bss]
  rfl

theorem full : FullHeader b.packet 8 := typicalHeader_full b.packet rfl

theorem radio_eq : packetRadio b.packet 8 =
    ⟨500 * b.rate.toNat, b.antenna.toNat, b.frequency, b.signal⟩ := by
  have hrate : b.packet.byte 9 = b.rate := rfl
  have hlow : b.packet.byte 10 = b.frequency.toUInt8 := rfl
  have hhigh : b.packet.byte 11 = (b.frequency >>> 8).toUInt8 := rfl
  have hsignal : b.packet.byte 14 = b.signal := rfl
  have hantenna : b.packet.byte 15 = b.antenna := rfl
  have hchannel : (b.packet.le16 10).toUInt16 = b.frequency := by
    rw [Packet.le16, hlow, hhigh]
    exact littleEndian_value b.frequency
  rw [packetRadio, (typicalHeader_fits b.packet rfl).2.2]
  simp [fieldRadio, hrate, hchannel, hsignal, hantenna, Int.mul_comm]

theorem texts_eq (signedChar : Bool) : packetTexts signedChar b.packet 8 = b.report signedChar := by
  rw [packetTexts, b.radio_eq, b.ssidBytes_eq, b.addr_src, b.addr_dst, b.addr_bss]
  rfl

theorem caplen_eq : b.packet.caplen = ssidStart + b.ssid.length + b.elements.length := by
  simp [packet, bytes, Packet.ofBytes, b.dst.six, b.src.six, b.bss.six, ssidStart, mgmtFrame,
    frameStart]
  omega

end Beacon

theorem broadcast_six : broadcast.length = 6 := List.length_replicate

def homeAddress : Address := ⟨[0, 1, 2, 3, 4, 10], rfl⟩

theorem zeroParams_size : (List.replicate 12 0 : Bytes).length = 12 := List.length_replicate

theorem home_short : (ascii "home").length < maxSsidCharCount := by decide

theorem guest_short : (ascii "guest").length < maxSsidCharCount := by decide

def homeStation : Beacon where
  flags := 0
  rate := 2
  frequency := 2412
  channelFlags := 0xa0
  signal := 0xc5
  antenna := 1
  rxFlags := 0
  duration := 0
  dst := ⟨broadcast, broadcast_six⟩
  src := homeAddress
  bss := homeAddress
  sequence := 0
  fixedParams := List.replicate 12 0
  ssid := ascii "home"
  elements := []
  fixed_size := zeroParams_size
  ssid_short := home_short

def guestStation : Beacon :=
  { homeStation with ssid := ascii "guest", ssid_short := guest_short }

end NetworkAnalyser.Server
