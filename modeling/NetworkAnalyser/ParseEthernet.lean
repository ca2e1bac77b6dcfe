import NetworkAnalyser.Printf
import NetworkAnalyser.ServerState

/-! `parse_ethernet` with the duplicate search, on the frame 18 bytes into the packet. -/
namespace NetworkAnalyser.Server
open NetworkAnalyser.Exec NetworkAnalyser.CString NetworkAnalyser.Printf

abbrev beaconType : Nat := 0x8000

/- Offsets of the members of `struct ethernet_beacon_frame` and, 24 bytes further on, of
`struct ethernet_mgmt_frame`. -/
def frameStart : Nat := 18
def etherDhost : Nat := frameStart + 4
def etherShost : Nat := frameStart + 10
def bssid : Nat := frameStart + 16
def mgmtFrame : Nat := frameStart + 24
def tagLength : Nat := mgmtFrame + 13
def ssidStart : Nat := mgmtFrame + 14

def storeSsid (ssidBuff : CharArray maxSsidCharCount) (i : Nat) (c : UInt8) :
    C (CharArray maxSsidCharCount) :=
  if i < maxSsidCharCount then do
    storeCurrent fun r => { r with ssid := r.ssid.set i c }
    return ssidBuff.set i c
  else
    Code.outOfBounds

def copySsid (pkt : Packet) (ssidBuff : CharArray maxSsidCharCount) :
    Nat → C (CharArray maxSsidCharCount)
  | 0 => return ssidBuff
  | count + 1 => do
    let buff ← copySsid pkt ssidBuff count
    let c ← read8 pkt (ssidStart + count)
    storeSsid buff count c

def takeSsid (pkt : Packet) (ssidBuff : CharArray maxSsidCharCount) :
    C (CharArray maxSsidCharCount) := do
  let length ← read8 pkt tagLength
  let ssidLength := length.toNat
  let ssidBuff ← copySsid pkt ssidBuff ssidLength
  if ssidLength < maxSsidCharCount then
    storeSsid ssidBuff ssidLength 0
  else
    storeSsid ssidBuff maxSsidCharCount 0

def etherText (addr : Bytes) : Bytes := [58].intercalate (addr.map fun b => percentX b.toNat)

def Packet.addr (pkt : Packet) (off : Nat) : Bytes := (List.range 6).map fun i => pkt.byte (off + i)

/-- The static buffer after a call: text and NUL overwrite its front, what a longer text left
behind them stays. -/
def ntoaBuffer (old : CharArray 18) (text : Bytes) : CharArray 18 :=
  old.copyFrom (fun i => (text ++ [0]).getD i 0) (text.length + 1)

def etherNtoa (pkt : Packet) (off : Nat) : C Unit := fun w =>
  (.done (), { w.read ((List.range 6).map (off + ·)) with
    globals := { w.globals with
      etherNtoaBuf := ntoaBuffer w.globals.etherNtoaBuf (etherText (pkt.addr off)) } })

inductive AddrMember where
  | src | dst | bssId
  deriving DecidableEq

def PacketInfo.addr (r : PacketInfo) : AddrMember → CharArray 18
  | .src => r.ethernetSrcAddr
  | .dst => r.ethernetDstAddr
  | .bssId => r.ethernetBssId

def PacketInfo.setAddr (r : PacketInfo) (a : CharArray 18) : AddrMember → PacketInfo
  | .src => { r with ethernetSrcAddr := a }
  | .dst => { r with ethernetDstAddr := a }
  | .bssId => { r with ethernetBssId := a }

/-- 17 bytes of the static buffer and a NUL go to the member, wherever the text ends. -/
def fillAddr (ntoa a : CharArray 18) : CharArray 18 :=
  (a.copyFrom (fun i => ntoa.bytes.getD i 0) 17).set 17 0

def storeAddr (pkt : Packet) (off : Nat) (m : AddrMember) : C Unit := do
  etherNtoa pkt off
  let g ← getGlobals
  storeCurrent fun r => r.setAddr (fillAddr g.etherNtoaBuf (r.addr m)) m

def sameSsid (r : PacketInfo) (newSsid : Bytes) : Prop := strcmp r.ssid.bytes newSsid = 0
def sameBssid (r : PacketInfo) (newBssid : Bytes) : Prop :=
  strcmp r.ethernetBssId.bytes newBssid = 0

instance (r : PacketInfo) (s : Bytes) : Decidable (sameSsid r s) :=
  inferInstanceAs (Decidable (_ = _))
instance (r : PacketInfo) (s : Bytes) : Decidable (sameBssid r s) :=
  inferInstanceAs (Decidable (_ = _))

def searchFrom (newSsid newBssid : Bytes) : Nat → Nat → C Int
  | 0, _ => return 0
  | n + 1, count => do
    let g ← getGlobals
    if sameSsid (g.record count) newSsid ∧ ¬ sameBssid (g.record count) newBssid then
      modifyGlobals fun g =>
        { g with packetsSameSsidDiffBssid := g.packetsSameSsidDiffBssid + 1 }
    if sameSsid (g.record count) newSsid ∧ sameBssid (g.record count) newBssid then
      modifyGlobals fun g => { g with dupPacketsDiscarded := g.dupPacketsDiscarded + 1 }
      return 1
    searchFrom newSsid newBssid n (count + 1)

def pktWithSsidBssidExists (newSsid newBssid : Bytes) : C Int := do
  let g ← getGlobals
  searchFrom newSsid newBssid g.curPacketCount 0

/- `ssidBuff` is what the local array of that name holds before it is filled. -/
def parseEthernet (pkt : Packet) (ssidBuff : CharArray maxSsidCharCount) : C Nat := do
  let etherFrameType ← readBe16 pkt frameStart
  storeCurrent fun r => { r with ethernetType := etherFrameType }
  if etherFrameType = beaconType then
    let ssidBuff ← takeSsid pkt ssidBuff
    storeAddr pkt bssid .bssId
    let g ← getGlobals
    let foundDupPkt ← pktWithSsidBssidExists ssidBuff.bytes g.current.ethernetBssId.bytes
    if foundDupPkt = 1 then
      return 0
    storeAddr pkt etherDhost .dst
    storeAddr pkt etherShost .src
    return etherFrameType
  else
    return etherFrameType

end NetworkAnalyser.Server
