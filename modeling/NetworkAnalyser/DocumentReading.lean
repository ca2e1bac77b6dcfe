import NetworkAnalyser.CaptureExchange

/-! What can be read off the document the capture server generates: every value it reports. -/
namespace NetworkAnalyser.Json

theorem utf16_append_inj {c d : Char} {s t : JString} (h : utf16 c ++ s = utf16 d ++ t) :
    c = d ∧ s = t := by
  have hc := char_scalar c
  have hd := char_scalar d
  have hunit : ∀ {m n : Nat}, m < 0x10000 → n < 0x10000 → m.toUInt16 = n.toUInt16 → m = n := by
    intro m n hm hn heq
    have hnat := congrArg UInt16.toNat heq
    rwa [toNat_toUInt16 hm, toNat_toUInt16 hn] at hnat
  rw [utf16, utf16] at h
  by_cases hlow : c.toNat < 0x10000 <;> by_cases hlow' : d.toNat < 0x10000
  · rw [if_pos hlow, if_pos hlow'] at h
    obtain ⟨hhead, htail⟩ := List.cons.inj h
    exact ⟨Char.toNat_inj.mp (hunit hlow hlow' hhead), htail⟩
  · rw [if_pos hlow, if_neg hlow'] at h
    have hhead := hunit hlow (by omega) (List.cons.inj h).1
    omega
  · rw [if_neg hlow, if_pos hlow'] at h
    have hhead := hunit (by omega) hlow' (List.cons.inj h).1
    omega
  · rw [if_neg hlow, if_neg hlow'] at h
    obtain ⟨hhead, hrest⟩ := List.cons.inj h
    obtain ⟨hnext, htail⟩ := List.cons.inj hrest
    have hfirst := hunit (by omega) (by omega) hhead
    have hsecond := hunit (by omega) (by omega) hnext
    exact ⟨Char.toNat_inj.mp (by omega), htail⟩

theorem ofChars_injective : Function.Injective JString.ofChars := by
  have hne : ∀ (c : Char) (cs : List Char), JString.ofChars (c :: cs) ≠ [] := by
    intro c cs h
    rw [ofChars_cons, utf16] at h
    split at h <;> cases h
  intro cs
  induction cs with
  | nil =>
    intro ds h
    cases ds with
    | nil => rfl
    | cons d ds => exact absurd h.symm (hne d ds)
  | cons c cs ih =>
    intro ds h
    cases ds with
    | nil => exact absurd h (hne c cs)
    | cons d ds =>
      obtain ⟨rfl, hrest⟩ := utf16_append_inj h
      rw [ih hrest]

end NetworkAnalyser.Json

namespace NetworkAnalyser.Server
open NetworkAnalyser.CString NetworkAnalyser.Printf NetworkAnalyser.Json

theorem percentI_inj {i j : Int} (h : percentI i = percentI j) : i = j := by
  have hunsigned : ∀ {m n : Nat}, unsigned 10 m = unsigned 10 n → m = n :=
    fun h => unsigned_inj (by decide) (by decide) h
  have hminus : ∀ (m : Nat) (t : Bytes), unsigned 10 m ≠ 45 :: t := by
    intro m t heq
    have hdigit := unsigned_isDigit (b := 10) (by decide) (by decide) m 45
      (heq ▸ List.mem_cons_self)
    exact absurd hdigit (by unfold IsDigit; decide)
  unfold percentI at h
  by_cases hi : i < 0 <;> by_cases hj : j < 0
  · rw [if_pos hi, if_pos hj] at h
    have habs := hunsigned (List.cons.inj h).2
    omega
  · rw [if_pos hi, if_neg hj] at h
    exact absurd h.symm (hminus _ _)
  · rw [if_neg hi, if_pos hj] at h
    exact absurd h (hminus _ _)
  · rw [if_neg hi, if_neg hj] at h
    have habs := hunsigned h
    omega

theorem promoteChar_inj {signedChar : Bool} {c d : UInt8}
    (h : promoteChar signedChar c = promoteChar signedChar d) : c = d := by
  cases signedChar with
  | true => exact congrArg Int8.toUInt8 (Int8.toInt_inj.mp h)
  | false => exact UInt8.toNat_inj.mp (Int.ofNat.inj h)

/-- The two records agree in all that is reported. -/
structure Alike (r r' : PacketInfo) : Prop where
  dataRateKbps : r.dataRateKbps = r'.dataRateKbps
  antenna : r.antenna = r'.antenna
  channel : r.channel = r'.channel
  signalPwrDbmAtAntenna : r.signalPwrDbmAtAntenna = r'.signalPwrDbmAtAntenna
  ssid : r.ssid.str = r'.ssid.str
  ethernetSrcAddr : r.ethernetSrcAddr.str = r'.ethernetSrcAddr.str
  ethernetDstAddr : r.ethernetDstAddr.str = r'.ethernetDstAddr.str
  ethernetBssId : r.ethernetBssId.str = r'.ethernetBssId.str

theorem texts_eq_iff {signedChar : Bool} {r r' : PacketInfo} :
    r.texts signedChar = r'.texts signedChar ↔ Alike r r' := by
  constructor
  · intro h
    have hchannel : percentI r.channel.toNat = percentI r'.channel.toNat :=
      congrArg PacketTexts.channel h
    exact {
      dataRateKbps := percentI_inj (congrArg PacketTexts.datarate h)
      antenna := percentI_inj (congrArg PacketTexts.antenna h)
      channel := UInt16.toNat_inj.mp (Int.ofNat.inj (percentI_inj hchannel))
      signalPwrDbmAtAntenna := promoteChar_inj (percentI_inj (congrArg PacketTexts.power h))
      ssid := congrArg PacketTexts.ssid h
      ethernetSrcAddr := congrArg PacketTexts.src h
      ethernetDstAddr := congrArg PacketTexts.dst h
      ethernetBssId := congrArg PacketTexts.bssid h }
  · intro h
    simp only [PacketInfo.texts, h.dataRateKbps, h.antenna, h.channel, h.signalPwrDbmAtAntenna,
      h.ssid, h.ethernetSrcAddr, h.ethernetDstAddr, h.ethernetBssId]

theorem chars_inj {t t' : Bytes} (h : PlainText t) (h' : PlainText t')
    (heq : JString.ofChars (Server.chars t) = JString.ofChars (Server.chars t')) : t = t' := by
  rw [← h.spec.1, ofChars_injective heq, h'.spec.1]

theorem packet_inj {t t' : PacketTexts} (h : ∀ v ∈ t.values, PlainText v)
    (h' : ∀ v ∈ t'.values, PlainText v) (heq : t.packet = t'.packet) : t = t' := by
  have hmember : ∀ {v v' : Bytes}, v ∈ t.values → v' ∈ t'.values →
      JString.ofChars (Server.chars v) = .ofChars (Server.chars v') → v = v' :=
    fun hv hv' => chars_inj (h _ hv) (h' _ hv')
  have hmem : ∀ u : PacketTexts, u.datarate ∈ u.values ∧ u.antenna ∈ u.values ∧
      u.channel ∈ u.values ∧ u.power ∈ u.values ∧ u.ssid ∈ u.values ∧ u.src ∈ u.values ∧
      u.dst ∈ u.values ∧ u.bssid ∈ u.values := by
    simp [PacketTexts.values, PacketTexts.members]
  obtain ⟨hrate, hantenna, hchannel, hpower, hssid, hsrc, hdst, hbssid⟩ := hmem t
  obtain ⟨hrate', hantenna', hchannel', hpower', hssid', hsrc', hdst', hbssid'⟩ := hmem t'
  have hrates := hmember hrate hrate' (congrArg (fun p => p.packet.datarate) heq)
  have hantennas := hmember hantenna hantenna' (congrArg (fun p => p.packet.antenna) heq)
  have hchannels := hmember hchannel hchannel' (congrArg (fun p => p.packet.channel) heq)
  have hpowers := hmember hpower hpower' (congrArg (fun p => p.packet.power) heq)
  have hssids := hmember hssid hssid' (congrArg (fun p => p.packet.ssid) heq)
  have hsrcs := hmember hsrc hsrc' (congrArg (fun p => p.packet.src) heq)
  have hdsts := hmember hdst hdst' (congrArg (fun p => p.packet.dst) heq)
  have hbssids := hmember hbssid hbssid' (congrArg (fun p => p.packet.bssid) heq)
  exact (PacketTexts.mk.injEq ..).mpr
    ⟨hrates, hantennas, hchannels, hpowers, hssids, hsrcs, hdsts, hbssids⟩

theorem packets_inj {ts ts' : List PacketTexts} (h : ∀ t ∈ ts, ∀ v ∈ t.values, PlainText v)
    (h' : ∀ t ∈ ts', ∀ v ∈ t.values, PlainText v)
    (heq : ts.map PacketTexts.packet = ts'.map PacketTexts.packet) : ts = ts' := by
  induction ts generalizing ts' with
  | nil => exact (List.map_eq_nil_iff.mp heq.symm).symm
  | cons t ts ih =>
    cases ts' with
    | nil => cases heq
    | cons t' ts' =>
      obtain ⟨hhead, htail⟩ := List.cons.inj heq
      obtain rfl := packet_inj (h t List.mem_cons_self) (h' t' List.mem_cons_self) hhead
      rw [ih (fun u hu => h u (List.mem_cons_of_mem t hu))
        (fun u hu => h' u (List.mem_cons_of_mem t hu)) htail]

/-- The packets are read off the document, so it is that of no others. -/
theorem documentOf_inj {ts ts' : List PacketTexts} (h : ∀ t ∈ ts, ∀ v ∈ t.values, PlainText v)
    (h' : ∀ t ∈ ts', ∀ v ∈ t.values, PlainText v) (heq : documentOf ts = documentOf ts') :
    ts = ts' := by
  rw [← encode_documentChars h, ← encode_documentChars h'] at heq
  have hchars := congrArg Utf8.decode heq
  rw [Utf8.decode_encode, Utf8.decode_encode] at hchars
  have hparse := parseDocument_complete (documentChars_derives h)
  rw [Option.some.inj hchars, parseDocument_complete (documentChars_derives h')] at hparse
  have hdata := congrArg Client.NetworkCaptureData.ofValue (Option.some.inj hparse)
  rw [Client.NetworkCaptureData.ofValue_packetsValue,
    Client.NetworkCaptureData.ofValue_packetsValue] at hdata
  exact packets_inj h h' (congrArg Client.NetworkCaptureData.packets (Option.some.inj hdata)).symm

section output
variable {signedChar : Bool} {g g' : Globals}

theorem storedTexts_eq_iff : storedTexts signedChar g = storedTexts signedChar g' ↔
    List.Forall₂ Alike (storedRecords g) (storedRecords g') := by
  rw [storedTexts, storedTexts, ← List.forall₂_eq_eq_eq, List.forall₂_map_left_iff,
    List.forall₂_map_right_iff]
  simp only [texts_eq_iff]

/-- Of two captures whose documents fit and whose SSIDs are plain, the texts that are generated
are the same only if the stored records agree, one by one, in all that is reported. -/
theorem outputText_eq_iff (hg : Captured g) (hg' : Captured g') (hfit : OutputFits signedChar g)
    (hfit' : OutputFits signedChar g') (hplain : ∀ r ∈ storedRecords g, PlainText r.ssid.str)
    (hplain' : ∀ r ∈ storedRecords g', PlainText r.ssid.str) : ∃ w w',
    generateJson signedChar (World.start g) = (.done (), w) ∧
      generateJson signedChar (World.start g') = (.done (), w') ∧
      (outputText w.globals = outputText w'.globals ↔
        List.Forall₂ Alike (storedRecords g) (storedRecords g')) := by
  have hssid : ∀ g : Globals, (∀ r ∈ storedRecords g, PlainText r.ssid.str) →
      ∀ t ∈ storedTexts signedChar g, PlainText t.ssid := by
    intro g h t ht
    obtain ⟨r, hr, rfl⟩ := List.mem_map.mp ht
    exact h r hr
  obtain ⟨w, hw, htext⟩ := document_of_fits hfit
  obtain ⟨w', hw', htext'⟩ := document_of_fits hfit'
  refine ⟨w, w', hw, hw', ?_⟩
  rw [htext, htext', ← storedTexts_eq_iff]
  exact ⟨documentOf_inj (hg.plain (hssid g hplain)) (hg'.plain (hssid g' hplain')),
    congrArg documentOf⟩

end output

theorem guestStation_plain : PlainText (cstr guestStation.ssid) := by
  have hname : cstr guestStation.ssid = [103, 117, 101, 115, 116] := by decide
  rw [hname]
  refine plainText_of_ascii fun c hc => ?_
  simp only [List.mem_cons, List.not_mem_nil, or_false] at hc
  rcases hc with rfl | rfl | rfl | rfl | rfl <;> decide

theorem captured_station {b : Beacon} (hplain : PlainText (cstr b.ssid)) : ∃ g, Captured g ∧
    OutputFits false g ∧ storedTexts false g = [b.report false] ∧
      ∀ r ∈ storedRecords g, PlainText r.ssid.str := by
  obtain ⟨g, hg, htexts⟩ := capture_texts .initial [.of b]
  have hone : storedTexts false g = [b.report false] := htexts false
  have hcaptured : Captured g := ⟨15, _, .initial, .start, hg⟩
  have hcount := storedTexts_length false g
  rw [hone] at hcount
  have hfew : g.capInfo.packetInfoCount ≤ alwaysFitting false :=
    hcount.symm.trans_le (show 1 ≤ alwaysFitting false by decide)
  refine ⟨g, hcaptured, outputFits_of_few hcaptured hfew, hone, fun r hr => ?_⟩
  have hmem : r.texts false ∈ storedTexts false g := List.mem_map_of_mem hr
  rw [hone, List.mem_singleton] at hmem
  have hssid : r.ssid.str = cstr b.ssid := congrArg PacketTexts.ssid hmem
  exact hssid ▸ hplain

theorem bothStations_differ : ∃ g g' w w', Captured g ∧ Captured g' ∧
    generateJson false (World.start g) = (.done (), w) ∧
    generateJson false (World.start g') = (.done (), w') ∧
    outputText w.globals ≠ outputText w'.globals := by
  obtain ⟨g, hg, hfit, htexts, hplain⟩ := captured_station homeStation_plain
  obtain ⟨g', hg', hfit', htexts', hplain'⟩ := captured_station guestStation_plain
  obtain ⟨w, w', hw, hw', heq⟩ := outputText_eq_iff hg hg' hfit hfit' hplain hplain'
  refine ⟨g, g', w, w', hg, hg', hw, hw', fun h => ?_⟩
  have hreports := (@storedTexts_eq_iff false g g').mpr (heq.mp h)
  rw [htexts, htexts'] at hreports
  have hname : cstr homeStation.ssid = cstr guestStation.ssid :=
    congrArg PacketTexts.ssid (List.cons.inj hreports).1
  exact absurd hname (by decide)

end NetworkAnalyser.Server
