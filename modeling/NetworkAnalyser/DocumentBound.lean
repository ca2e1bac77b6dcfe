import Mathlib.Algebra.Group.Action.Defs
import Mathlib.Algebra.Order.BigOperators.Group.List
import Mathlib.Algebra.Order.Group.Nat
import NetworkAnalyser.CaptureRoundTrip
import NetworkAnalyser.RecordHistory

/-! How many records the output buffer holds whatever they say, over all states the server
reaches. -/
namespace NetworkAnalyser.Server
open NetworkAnalyser.Exec NetworkAnalyser.CString NetworkAnalyser.Printf NetworkAnalyser.FirstOffers

theorem percentI_length_le {i : Int} {k : Nat} (hk : 0 < k) (hpos : 0 ≤ i)
    (h : i.natAbs < 10 ^ k) : (percentI i).length ≤ k := by
  rw [percentI, if_neg (by omega)]
  exact unsigned_length_le (by decide) hk h

def powerWidth (signedChar : Bool) : Nat := if signedChar then 4 else 3

theorem power_length_le (signedChar : Bool) (c : UInt8) :
    (percentI (promoteChar signedChar c)).length ≤ powerWidth signedChar := by
  have hc := c.toNat_lt
  cases signedChar with
  | false =>
    change (percentI (c.toNat : Int)).length ≤ 3
    exact percentI_length_le (by decide) (Int.natCast_nonneg _) (by omega)
  | true =>
    have hlow := Int8.le_toInt c.toInt8
    have hhigh := Int8.toInt_lt c.toInt8
    change (percentI c.toInt8.toInt).length ≤ 4
    rw [percentI]
    split
    · have hdigits : (unsigned 10 c.toInt8.toInt.natAbs).length ≤ 3 :=
        unsigned_length_le (by decide) (by decide) (by omega)
      rw [List.length_cons]
      omega
    · exact unsigned_length_le (by decide) (by decide) (by omega)

theorem PacketInfo.Narrow.width {r : PacketInfo} (h : r.Narrow) (signedChar : Bool) :
    ((r.texts signedChar).values.map List.length).sum ≤ 79 + powerWidth signedChar := by
  have hchannel : r.channel.toNat < 65536 := r.channel.toNat_lt
  obtain ⟨hrate₀, hrate⟩ : 0 ≤ r.dataRateKbps ∧ r.dataRateKbps ≤ 127500 := h.radio.rate
  obtain ⟨hantenna₀, hantenna⟩ : 0 ≤ r.antenna ∧ r.antenna ≤ 255 := h.radio.antenna
  have hdatarate : (percentI r.dataRateKbps).length ≤ 6 :=
    percentI_length_le (by decide) hrate₀ (by omega)
  have hantenna : (percentI r.antenna).length ≤ 3 :=
    percentI_length_le (by decide) hantenna₀ (by omega)
  have hchannel : (percentI r.channel.toNat).length ≤ 5 :=
    percentI_length_le (by decide) (Int.natCast_nonneg _) (by omega)
  have hpower := power_length_le signedChar r.signalPwrDbmAtAntenna
  have hssid := h.ssid
  have hsrc := h.src
  have hdst := h.dst
  have hbss := h.bss
  simp only [PacketTexts.values, PacketTexts.members, PacketInfo.texts, List.map_cons, List.map_nil,
    List.sum_cons, List.sum_nil]
  omega

/-- As many records always fit, with the unsigned plain `char` of the Raspberry Pi one more. -/
def alwaysFitting (signedChar : Bool) : Nat := if signedChar then 43 else 44

theorem document_length_le {signedChar : Bool} {g : Globals} (hg : Captured g) :
    (documentOf (storedTexts signedChar g)).length ≤
      14 + g.capInfo.packetInfoCount * (181 + powerWidth signedChar) +
        (g.capInfo.packetInfoCount - 1) := by
  have hcount := storedTexts_length signedChar g
  have hsum : ((storedTexts signedChar g).map fun t =>
      102 + (t.values.map List.length).sum).sum ≤
        (storedTexts signedChar g).length * (181 + powerWidth signedChar) := by
    rw [← smul_eq_mul]
    refine List.sum_le_card_nsmul _ _ ?_ |>.trans (by rw [List.length_map])
    intro x hx
    obtain ⟨t, ht, rfl⟩ := List.mem_map.mp hx
    obtain ⟨r, hr, rfl⟩ := List.mem_map.mp ht
    obtain ⟨i, _, rfl⟩ := List.mem_map.mp hr
    have := (hg.narrow i).width signedChar
    omega
  rw [documentOf_length, hcount]
  rw [hcount] at hsum
  omega

theorem wideAddress_six (i : Nat) : (wideAddress i).length = 6 := rfl

theorem wideName_short : (List.replicate 14 97 : Bytes).length < maxSsidCharCount := by decide

def wideStation (i : Nat) : Beacon where
  flags := 0
  rate := 255
  frequency := 65535
  channelFlags := 0
  signal := 128
  antenna := 255
  rxFlags := 0
  duration := 0
  dst := ⟨broadcast, broadcast_six⟩
  src := ⟨wideAddress i, wideAddress_six i⟩
  bss := ⟨wideAddress i, wideAddress_six i⟩
  sequence := 0
  fixedParams := List.replicate 12 0
  ssid := List.replicate 14 97
  elements := []
  fixed_size := zeroParams_size
  ssid_short := wideName_short

theorem wideStation_width (signedChar : Bool) : ∀ i < 45,
    (((wideStation i).report signedChar).values.map List.length).sum =
      79 + powerWidth signedChar := by
  cases signedChar <;> decide +kernel

theorem wideStations_survey {n : Nat} (hn : n ≤ 45) :
    survey ((List.range n).map wideStation) = (List.range n).map wideStation := by
  have hnodup : (((List.range n).map wideStation).map Beacon.network).Nodup := by
    rw [List.map_map]
    refine List.nodup_range.map_on fun i hi j hj hij => ?_
    have haddr : wideAddress i = wideAddress j := congrArg Prod.snd hij
    have hlast : (16 + i).toUInt8 = (16 + j).toUInt8 := by
      simpa [wideAddress] using haddr
    have hnat := congrArg UInt8.toNat hlast
    have hi := List.mem_range.mp hi
    have hj := List.mem_range.mp hj
    simp at hnat
    omega
  rw [survey, firsts_eq_self hnodup, List.take_of_length_le]
  rw [List.length_map, List.length_range]
  exact hn.trans (by decide)

theorem wideStations_captured {n : Nat} (hn : n ≤ 45) (signedChar : Bool) : ∃ g, Captured g ∧
    storedTexts signedChar g = (List.range n).map fun i => (wideStation i).report signedChar := by
  have hbeacons : ((List.range n).map fun i => .of (wideStation i)).map Reception.beacon =
      (List.range n).map wideStation := by
    rw [List.map_map]
    rfl
  obtain ⟨g, hg, htexts⟩ := capture_texts .initial ((List.range n).map fun i => .of (wideStation i))
  refine ⟨g, ⟨15, _, .initial, .start, hg⟩, ?_⟩
  rw [htexts, hbeacons, wideStations_survey hn, List.map_map]
  rfl

theorem wideStations_length (signedChar : Bool) {n : Nat} (hn : n ≤ 45) :
    (documentOf ((List.range n).map fun i => (wideStation i).report signedChar)).length =
      14 + n * (181 + powerWidth signedChar) + (n - 1) := by
  have hwidths : ((List.range n).map fun i => (wideStation i).report signedChar).map
      (fun t => 102 + (t.values.map List.length).sum) =
        List.replicate n (181 + powerWidth signedChar) := by
    rw [List.map_map]
    refine List.eq_replicate_iff.mpr ⟨by simp, fun x hx => ?_⟩
    obtain ⟨i, hi, rfl⟩ := List.mem_map.mp hx
    have hwidth := wideStation_width signedChar i
      (Nat.lt_of_lt_of_le (List.mem_range.mp hi) hn)
    simp only [Function.comp_apply, hwidth]
    omega
  rw [documentOf_length, hwidths, List.sum_replicate, smul_eq_mul, List.length_map,
    List.length_range]

theorem outputFits_of_few {signedChar : Bool} {g : Globals} (hg : Captured g)
    (hfew : g.capInfo.packetInfoCount ≤ alwaysFitting signedChar) : OutputFits signedChar g := by
  have hlen := @document_length_le signedChar g hg
  rw [outputFits_iff_length]
  cases signedChar with
  | false =>
    have hle : g.capInfo.packetInfoCount ≤ 44 := hfew
    change _ ≤ 14 + g.capInfo.packetInfoCount * 184 + (g.capInfo.packetInfoCount - 1) at hlen
    exact Nat.lt_of_le_of_lt hlen (show _ < 8192 by omega)
  | true =>
    have hle : g.capInfo.packetInfoCount ≤ 43 := hfew
    change _ ≤ 14 + g.capInfo.packetInfoCount * 185 + (g.capInfo.packetInfoCount - 1) at hlen
    exact Nat.lt_of_le_of_lt hlen (show _ < 8192 by omega)

theorem crowd_of_wideStations (signedChar : Bool) : ∃ g, Captured g ∧
    g.capInfo.packetInfoCount = alwaysFitting signedChar + 1 ∧ ¬ OutputFits signedChar g := by
  have hmore : alwaysFitting signedChar + 1 ≤ 45 := by cases signedChar <;> decide
  obtain ⟨g, hg, htexts⟩ := wideStations_captured hmore signedChar
  refine ⟨g, hg, ?_, fun hfits => ?_⟩
  · rw [← storedTexts_length signedChar g, htexts, List.length_map, List.length_range]
  · rw [outputFits_iff_length, htexts, wideStations_length signedChar hmore] at hfits
    cases signedChar <;> exact absurd hfits (by decide)

/-- The bound below which the text of a capture fits whatever the stations send. -/
theorem documents_fit_iff (signedChar : Bool) (n : Nat) :
    (∀ g, Captured g → g.capInfo.packetInfoCount ≤ n → OutputFits signedChar g) ↔
      n ≤ alwaysFitting signedChar := by
  constructor
  · intro h
    by_contra hn
    obtain ⟨g, hg, hcount, hover⟩ := crowd_of_wideStations signedChar
    exact hover (h g hg (by omega))
  · exact fun hn g hg hcount => outputFits_of_few hg (hcount.trans hn)

end NetworkAnalyser.Server
