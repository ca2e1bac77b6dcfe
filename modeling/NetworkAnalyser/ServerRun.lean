import NetworkAnalyser.CaptureOutput

/-! What holds of the records in every state the server reaches. -/
namespace NetworkAnalyser.Server
open NetworkAnalyser.Exec NetworkAnalyser.CString NetworkAnalyser.Printf

def AddressText (b : Bytes) : Prop := ∀ c ∈ b, c = 58 ∨ IsDigit c

theorem addressText_etherText (s : Bytes) : AddressText (etherText s) := by
  intro c hc
  cases mem_etherText hc with
  | inl h => exact Or.inl h
  | inr h =>
    obtain ⟨b, _, hb⟩ := h
    exact Or.inr (percentX_isDigit _ c hb)

structure Addressed (r : PacketInfo) : Prop where
  src : AddressText r.ethernetSrcAddr.str
  dst : AddressText r.ethernetDstAddr.str
  bss : AddressText r.ethernetBssId.str

def AllAddressed (g : Globals) : Prop := ∀ i, Addressed (g.record i)

theorem addressed_zero : Addressed .zero := by
  have hnil : AddressText (CharArray.zero 18).str := by
    rw [CharArray.zero_str]
    exact fun c hc => absurd hc List.not_mem_nil
  exact ⟨hnil, hnil, hnil⟩

theorem AllAddressed.frame {g g' : Globals} (h : AllAddressed g) (hframe : g.Frame g')
    (hcur : Addressed g'.current) : AllAddressed g' := by
  intro i
  by_cases hi : i = g.curPacketCount
  · rw [hi, ← hframe.cur]
    exact hcur
  · rw [hframe.record i hi]
    exact h i

theorem Addressed.identify {g : Globals} (h : Addressed g.current) (pkt : Packet) :
    Addressed (g.identify pkt).current := by
  have hbss := storeText_current_addr ((g.storeType beaconType).storeSsid pkt) pkt bssid .bssId
  refine ⟨?_, ?_, ?_⟩
  · rw [identify_current]
    exact h.src
  · rw [identify_current]
    exact h.dst
  · change AddressText (((g.identify pkt).current.addr .bssId).str)
    rw [Globals.identify, hbss]
    exact addressText_etherText _

theorem Describes.addressed {r : PacketInfo} {pkt : Packet} (h : Describes r pkt) :
    Addressed r where
  src := h.src ▸ addressText_etherText _
  dst := h.dst ▸ addressText_etherText _
  bss := by
    have hbss : r.ethernetBssId.str = etherText (pkt.addr bssid) := congrArg Prod.snd h.key
    rw [hbss]
    exact addressText_etherText _

theorem AllAddressed.storeType {g : Globals} (h : AllAddressed g) (type : Nat) :
    AllAddressed (g.storeType type) := by
  refine h.frame (g.frame_storeType type) ?_
  rw [Globals.storeType, Globals.setCurrent_current]
  have hcur := h g.curPacketCount
  exact ⟨hcur.src, hcur.dst, hcur.bss⟩

theorem AllAddressed.deliver {fuel : Nat} {g g' : Globals} {d : Delivery} (h : AllAddressed g)
    (hd : deliver fuel g d = some g') : AllAddressed g' := by
  cases delivered hd with
  | full => exact h
  | skipped => exact h.storeType 0
  | other => exact h.storeType _
  | known =>
    have hident : AllAddressed (g.identify d.packet) :=
      h.frame (g.frame_identify _) ((h g.curPacketCount).identify d.packet)
    exact hident
  | stored hroom htype hlen hnew hparse =>
    obtain ⟨hframe, hdesc⟩ := newBeacon_parsed hlen hparse
    have hw := h.frame hframe hdesc.addressed
    exact hw

theorem AllAddressed.capture {fuel : Nat} {g g' : Globals} {ds : List Delivery}
    (h : AllAddressed g) (hrun : capturePackets fuel g ds = some g') : AllAddressed g' := by
  have hreset : AllAddressed (resetCounts g) := h
  refine runOver_history (fun _ g => AllAddressed g) hreset ?_ hrun
  intro seen d u v _ _ hu hd
  exact hu.deliver hd

theorem AllAddressed.command {fuel : Nat} {signedChar : Bool} {g g' : Globals}
    {ds : List Delivery} (h : AllAddressed g)
    (hrun : captureCommand fuel signedChar g ds = some g') : AllAddressed g' := by
  obtain ⟨u, w, hu, hw, rfl⟩ := captureCommand_eq_some hrun
  obtain ⟨w', hw', hprinted⟩ := generateJson_apply signedChar (World.start u)
  obtain rfl : w = w' := (Prod.mk.inj (hw.symm.trans hw')).2
  have hrecord : w.globals.record = u.record :=
    funext fun i => congrArg (fun c => c.packetInfoArray i) hprinted.capInfo
  have hall := h.capture hu
  intro i
  rw [hrecord]
  exact hall i

/-- The states between the commands of clients. -/
inductive Served : Globals → Prop
  | start : Served .initial
  | capture {fuel : Nat} {signedChar : Bool} {g g' : Globals} {ds : List Delivery}
      (h : Served g) (hrun : captureCommand fuel signedChar g ds = some g') : Served g'

/-- The states the text of a response is generated in. -/
def Captured (g : Globals) : Prop :=
  ∃ fuel ds g₀, Served g₀ ∧ capturePackets fuel g₀ ds = some g

theorem Served.allAddressed {g : Globals} (h : Served g) : AllAddressed g := by
  induction h with
  | start => exact fun _ => addressed_zero
  | capture h hrun ih => exact ih.command hrun

theorem Captured.allAddressed {g : Globals} (h : Captured g) : AllAddressed g := by
  obtain ⟨fuel, ds, g₀, hserved, hrun⟩ := h
  exact hserved.allAddressed.capture hrun

end NetworkAnalyser.Server
