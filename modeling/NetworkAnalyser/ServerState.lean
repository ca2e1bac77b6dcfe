import Mathlib.Logic.Function.Basic
import NetworkAnalyser.Exec
import NetworkAnalyser.CString

/-! The globals of the capture server, the packet buffer its parsers read and the primitive
accesses. Addresses are offsets from the start of the packet buffer. -/
namespace NetworkAnalyser.Server
open NetworkAnalyser.Exec NetworkAnalyser.CString

abbrev maxPacketInfoCount : Nat := 50
abbrev maxSsidCharCount : Nat := 15
abbrev maxOutputBufferSize : Nat := 8192
abbrev bufsiz : Nat := 8192

/-- Memory as the parsers see it; only the first `caplen` bytes were captured. -/
structure Packet where
  caplen : Nat
  byte : Nat → UInt8

def Packet.ofBytes (bytes : Bytes) : Packet := ⟨bytes.length, fun i => bytes.getD i 0⟩

/- The `int` members are unbounded here; they are only stored and printed. The `char` member
is its bit pattern, the sign of a plain `char` shows when it is printed. -/
structure PacketInfo where
  ethernetType : Nat
  dataRateKbps : Int
  antenna : Int
  channel : UInt16
  signalPwrDbmAtAntenna : UInt8
  ssid : CharArray maxSsidCharCount
  ethernetSrcAddr : CharArray 18
  ethernetDstAddr : CharArray 18
  ethernetBssId : CharArray 18
  deriving DecidableEq

def PacketInfo.zero : PacketInfo where
  ethernetType := 0
  dataRateKbps := 0
  antenna := 0
  channel := 0
  signalPwrDbmAtAntenna := 0
  ssid := .zero _
  ethernetSrcAddr := .zero _
  ethernetDstAddr := .zero _
  ethernetBssId := .zero _

structure CaptureInfo where
  packetInfoCount : Nat
  packetInfoArray : Nat → PacketInfo

/- `etherNtoaBuf` is the static buffer `ether_ntoa` writes its text to; `buffPtr` is an offset
into `outputBuff`. -/
structure Globals where
  curPacketCount : Nat
  dupPacketsDiscarded : Nat
  packetsSameSsidDiffBssid : Nat
  capInfo : CaptureInfo
  etherNtoaBuf : CharArray 18
  outputBuff : Nat → UInt8
  buffPtr : Nat

def Globals.initial : Globals where
  curPacketCount := 0
  dupPacketsDiscarded := 0
  packetsSameSsidDiffBssid := 0
  capInfo := ⟨0, fun _ => .zero⟩
  etherNtoaBuf := .zero _
  outputBuff := fun _ => 0
  buffPtr := 0

namespace Globals

def record (g : Globals) (i : Nat) : PacketInfo := g.capInfo.packetInfoArray i

/-- `cap_info.packet_info_array[cur_packet_count]`. -/
def current (g : Globals) : PacketInfo := g.record g.curPacketCount

def setCurrent (g : Globals) (r : PacketInfo) : Globals :=
  { g with capInfo :=
    { g.capInfo with
      packetInfoArray := Function.update g.capInfo.packetInfoArray g.curPacketCount r } }

@[simp] theorem setCurrent_current (g : Globals) (r : PacketInfo) :
    (g.setCurrent r).current = r := by
  simp [current, record, setCurrent]

theorem setCurrent_record_of_ne (g : Globals) (r : PacketInfo) {i : Nat}
    (h : i ≠ g.curPacketCount) : (g.setCurrent r).record i = g.record i := by
  simp [record, setCurrent, h]

@[simp] theorem setCurrent_setCurrent (g : Globals) (r r' : PacketInfo) :
    (g.setCurrent r).setCurrent r' = g.setCurrent r' := by
  simp [setCurrent]

@[simp] theorem setCurrent_self (g : Globals) : g.setCurrent g.current = g := by
  simp [setCurrent, current, record]

section fields
variable (g : Globals) (r : PacketInfo)
@[simp] theorem setCurrent_cur : (g.setCurrent r).curPacketCount = g.curPacketCount := rfl
@[simp] theorem setCurrent_dup :
    (g.setCurrent r).dupPacketsDiscarded = g.dupPacketsDiscarded := rfl
@[simp] theorem setCurrent_same :
    (g.setCurrent r).packetsSameSsidDiffBssid = g.packetsSameSsidDiffBssid := rfl
@[simp] theorem setCurrent_count :
    (g.setCurrent r).capInfo.packetInfoCount = g.capInfo.packetInfoCount := rfl
@[simp] theorem setCurrent_ntoa : (g.setCurrent r).etherNtoaBuf = g.etherNtoaBuf := rfl
@[simp] theorem setCurrent_out : (g.setCurrent r).outputBuff = g.outputBuff := rfl
@[simp] theorem setCurrent_ptr : (g.setCurrent r).buffPtr = g.buffPtr := rfl
end fields

end Globals

/- The globals, with what a run does to its buffers on record: the packet offsets read, the
calls of the iterator, the offsets of `output_buff` written. -/
structure World where
  globals : Globals
  reads : List Nat
  nextCalls : Nat
  writes : List Nat

def World.start (g : Globals) : World := ⟨g, [], 0, []⟩

abbrev C := Code World

def getGlobals : C Globals := fun w => (.done w.globals, w)
def modifyGlobals (f : Globals → Globals) : C Unit :=
  Code.modify fun w => { w with globals := f w.globals }

def storeCurrent (f : PacketInfo → PacketInfo) : C Unit :=
  modifyGlobals fun g => g.setCurrent (f g.current)

def World.read (w : World) (addrs : List Nat) : World := { w with reads := addrs ++ w.reads }

def read8 (pkt : Packet) (addr : Nat) : C UInt8 := fun w =>
  (.done (pkt.byte addr), w.read [addr])

/- Loads of the little-endian target; the radiotap header is little-endian on every target. -/
def Packet.le16 (pkt : Packet) (addr : Nat) : Nat :=
  (pkt.byte addr).toNat + 256 * (pkt.byte (addr + 1)).toNat

def Packet.le32 (pkt : Packet) (addr : Nat) : Nat :=
  pkt.le16 addr + 65536 * pkt.le16 (addr + 2)

def Packet.be16 (pkt : Packet) (addr : Nat) : Nat :=
  256 * (pkt.byte addr).toNat + (pkt.byte (addr + 1)).toNat

def readLe16 (pkt : Packet) (addr : Nat) : C Nat := fun w =>
  (.done (pkt.le16 addr), w.read [addr, addr + 1])

def readLe32 (pkt : Packet) (addr : Nat) : C Nat := fun w =>
  (.done (pkt.le32 addr), w.read [addr, addr + 1, addr + 2, addr + 3])

def readBe16 (pkt : Packet) (addr : Nat) : C Nat := fun w =>
  (.done (pkt.be16 addr), w.read [addr, addr + 1])

section accesses
variable (w : World) (pkt : Packet) (addr : Nat)
@[simp] theorem getGlobals_apply : getGlobals w = (.done w.globals, w) := rfl
@[simp] theorem modifyGlobals_apply (f : Globals → Globals) :
    modifyGlobals f w = (.done (), { w with globals := f w.globals }) := rfl
@[simp] theorem storeCurrent_apply (f : PacketInfo → PacketInfo) : storeCurrent f w =
    (.done (), { w with globals := w.globals.setCurrent (f w.globals.current) }) := rfl
@[simp] theorem read8_apply :
    read8 pkt addr w = (.done (pkt.byte addr), w.read [addr]) := rfl
@[simp] theorem readLe16_apply :
    readLe16 pkt addr w = (.done (pkt.le16 addr), w.read [addr, addr + 1]) := rfl
@[simp] theorem readLe32_apply : readLe32 pkt addr w =
    (.done (pkt.le32 addr), w.read [addr, addr + 1, addr + 2, addr + 3]) := rfl
@[simp] theorem readBe16_apply :
    readBe16 pkt addr w = (.done (pkt.be16 addr), w.read [addr, addr + 1]) := rfl
theorem read_read (addrs addrs' : List Nat) :
    (w.read addrs).read addrs' = w.read (addrs' ++ addrs) := by
  simp [World.read]
@[simp] theorem read_globals (addrs : List Nat) : (w.read addrs).globals = w.globals := rfl
@[simp] theorem read_reads (addrs : List Nat) : (w.read addrs).reads = addrs ++ w.reads := rfl
@[simp] theorem read_nextCalls (addrs : List Nat) : (w.read addrs).nextCalls = w.nextCalls := rfl
@[simp] theorem read_writes (addrs : List Nat) : (w.read addrs).writes = w.writes := rfl
end accesses

end NetworkAnalyser.Server
