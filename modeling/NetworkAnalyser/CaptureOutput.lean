import NetworkAnalyser.CaptureContents

/-! The `capture` command: a capture and the text generated from it, against the history before
it and against the size of the buffer. -/
namespace NetworkAnalyser.Server
open NetworkAnalyser.Exec NetworkAnalyser.CString NetworkAnalyser.FirstOffers

/-- The branch of `process_client_command` for `capture`. -/
def captureCommand (fuel : Nat) (signedChar : Bool) (g : Globals) (ds : List Delivery) :
    Option Globals :=
  (capturePackets fuel g ds).bind fun g' =>
    match generateJson signedChar (World.start g') with
    | (.done _, w) => some w.globals
    | (.undefined, _) => none
    | (.running, _) => none

theorem captureCommand_eq_some {fuel : Nat} {signedChar : Bool} {g u : Globals}
    {ds : List Delivery} (h : captureCommand fuel signedChar g ds = some u) :
    ∃ g' w, capturePackets fuel g ds = some g' ∧
      generateJson signedChar (World.start g') = (.done (), w) ∧ u = w.globals := by
  obtain ⟨g', hg', hgen⟩ := Option.bind_eq_some_iff.mp h
  obtain ⟨w, hw, _⟩ := generateJson_apply signedChar (World.start g')
  rw [hw] at hgen
  exact ⟨g', w, hg', hw, (Option.some.inj hgen).symm⟩

theorem Represents.storedTexts_packets {g : Globals} {l : CaptureLog}
    (h : Represents FilledFrom g l) (signedChar : Bool) (start : Nat)
    (hfull : ∀ p ∈ l.kept, FullHeader p start) :
    storedTexts signedChar g = l.kept.map fun p => packetTexts signedChar p start := by
  apply List.ext_getElem
  · simp [storedTexts, storedRecords, h.count]
  · intro i hi _
    have hlt : i < l.kept.length := by
      simpa [storedTexts, storedRecords, h.count] using hi
    simp only [storedTexts, storedRecords, List.getElem_map, List.getElem_range]
    exact (h.record i hlt).texts (hfull _ (List.getElem_mem hlt)) signedChar

theorem Represents.storedTexts_eq {g g' : Globals} {l : CaptureLog} (signedChar : Bool)
    (h : Represents FilledFrom g l) (h' : Represents FilledFrom g' l) :
    storedTexts signedChar g = storedTexts signedChar g' := by
  apply List.ext_getElem
  · simp [storedTexts, storedRecords, h.count, h'.count]
  · intro i hi _
    have hlt : i < l.kept.length := by
      simpa [storedTexts, storedRecords, h.count] using hi
    simp only [storedTexts, storedRecords, List.getElem_map, List.getElem_range]
    exact (h.record i hlt).texts_eq (h'.record i hlt) signedChar

/-- Every byte the generation writes lies in the buffer. -/
def OutputFits (signedChar : Bool) (g : Globals) : Prop :=
  ∀ w, generateJson signedChar (World.start g) = (.done (), w) →
    ∀ a ∈ w.writes, a < maxOutputBufferSize

theorem outputFits_iff_length (signedChar : Bool) (g : Globals) :
    OutputFits signedChar g ↔
      (documentOf (storedTexts signedChar g)).length < maxOutputBufferSize := by
  obtain ⟨w, hw, hprinted⟩ := generateJson_apply signedChar (World.start g)
  change Printed _ w (document signedChar (storedRecords g)) at hprinted
  rw [document_eq] at hprinted
  have hptr : w.globals.buffPtr = (documentOf (storedTexts signedChar g)).length := by
    rw [hprinted.ptr, Nat.zero_add]
  have hmem : ∀ a, a ∈ w.writes ↔ a ≤ (documentOf (storedTexts signedChar g)).length := by
    intro a
    rw [hprinted.writes, hptr]
    simp [World.start]
  constructor
  · intro h
    exact h w hw _ ((hmem _).mpr (Nat.le_refl _))
  · intro h w' hw' a ha
    obtain rfl : w = w' := (Prod.mk.inj (hw.symm.trans hw')).2
    exact Nat.lt_of_le_of_lt ((hmem a).mp ha) h

/-- The generation stays in the buffer exactly when format text, members, commas and the NUL
together fit. -/
theorem output_fits_iff (signedChar : Bool) (g : Globals) : OutputFits signedChar g ↔
    14 + ((storedTexts signedChar g).map fun t => 102 + (t.values.map List.length).sum).sum +
      (g.capInfo.packetInfoCount - 1) + 1 ≤ maxOutputBufferSize := by
  have hcount : (storedTexts signedChar g).length = g.capInfo.packetInfoCount := by
    simp [storedTexts, storedRecords]
  rw [outputFits_iff_length, documentOf_length, hcount]
  exact Iff.rfl

/-- What is reported of these packets, by the values they carry. -/
def Reported (signedChar : Bool) (ps : List Packet) : List PacketTexts → Prop :=
  List.Forall₂ (fun p t => ∃ start, FullHeader p start ∧ t = packetTexts signedChar p start)
    (beaconLog ps).kept

/-- The text of the report ends inside the buffer. -/
def ReportFits (signedChar : Bool) (ps : List Packet) : Prop :=
  ∀ ts, Reported signedChar ps ts → (documentOf ts).length < maxOutputBufferSize

theorem Represents.reported {g : Globals} {ps : List Packet} (signedChar : Bool)
    (h : Represents FilledFrom g (beaconLog ps)) :
    Reported signedChar ps (storedTexts signedChar g) := by
  refine List.forall₂_iff_get.mpr ⟨?_, fun i hi _ => ?_⟩
  · simp [storedTexts, storedRecords, h.count]
  · have hfilled := h.record i hi
    obtain ⟨start, hfull, _⟩ := hfilled.2
    refine ⟨start, hfull, ?_⟩
    simp only [storedTexts, storedRecords, List.get_eq_getElem, List.getElem_map,
      List.getElem_range]
    exact hfilled.texts hfull signedChar

theorem reported_eq {signedChar : Bool} {ps : List Packet} {start : Nat} {ts : List PacketTexts}
    (hfull : ∀ p ∈ (beaconLog ps).kept, FullHeader p start) (h : Reported signedChar ps ts) :
    ts = (beaconLog ps).kept.map fun p => packetTexts signedChar p start := by
  unfold Reported at h
  generalize (beaconLog ps).kept = kept at hfull h
  induction h with
  | nil => rfl
  | cons hp _ ih =>
    obtain ⟨hfirst, hrest⟩ := List.forall_mem_cons.mp hfull
    obtain ⟨start', hfull', rfl⟩ := hp
    obtain rfl : start = start' := hfirst.accepts.start.unique hfull'.accepts.start
    rw [ih hrest, List.map_cons]

/-- Whatever the globals and the locals held before, a capture of these packets gives one text,
inside the buffer, and each of its records is filled from the packet that has taken it. -/
structure Isolated (signedChar : Bool) (ps : List Packet) : Prop where
  same : ∀ fuel fuel' g g' ds ds' u u', ds.map (·.packet) = ps → ds'.map (·.packet) = ps →
    captureCommand fuel signedChar g ds = some u →
    captureCommand fuel' signedChar g' ds' = some u' → outputText u = outputText u'
  inside : ∀ fuel g ds u, ds.map (·.packet) = ps → capturePackets fuel g ds = some u →
    OutputFits signedChar u
  filled : ∀ fuel g ds u, ds.map (·.packet) = ps → capturePackets fuel g ds = some u →
    ∀ i < u.capInfo.packetInfoCount, ∃ d, CreatedBy fuel g ds i d ∧ FilledFrom (u.record i) d.packet

/-- A capture whose packets are harmless and whose report fits does not depend on the ones before
it. -/
theorem isolated_of_allHarmless (signedChar : Bool) (ps : List Packet) (hall : AllHarmless ps)
    (hfits : ReportFits signedChar ps) : Isolated signedChar ps where
  same fuel fuel' g g' ds ds' u u' hds hds' h h' := by
    obtain ⟨v, w, hv, hw, rfl⟩ := captureCommand_eq_some h
    obtain ⟨v', w', hv', hw', rfl⟩ := captureCommand_eq_some h'
    have hrep := capture_fills (hds ▸ hall) hv
    have hrep' := capture_fills (hds' ▸ hall) hv'
    rw [hds] at hrep
    rw [hds'] at hrep'
    rw [outputText_generateJson signedChar hw, outputText_generateJson signedChar hw',
      hrep.storedTexts_eq signedChar hrep']
  inside fuel g ds u hds h := by
    have hrep := capture_fills (hds ▸ hall) h
    rw [hds] at hrep
    exact (outputFits_iff_length signedChar u).mpr (hfits _ (hrep.reported signedChar))
  filled fuel g ds u hds h i hi := by
    rw [capture_counts h] at hi
    exact capture_filled (hds ▸ hall) h i hi

def neighbourBeacon : Packet := typicalBeacon [0, 1, 2, 3, 4, 11] (Printf.ascii "neighbour")

theorem neighbourBeacon_isolated : Isolated false [neighbourBeacon] := by
  have hheader : FullHeader neighbourBeacon 8 := typicalHeader_full neighbourBeacon (by decide)
  have hkept : (beaconLog [neighbourBeacon]).kept = [neighbourBeacon] :=
    beaconLog_kept (by decide) (by decide)
  refine isolated_of_allHarmless false [neighbourBeacon] (fun seen p hp hroom => ?_)
    fun ts hts => ?_
  · obtain rfl : p = neighbourBeacon := by
      simpa using hp.subset (show p ∈ seen ++ [p] by simp)
    exact Or.inr ⟨by decide, Or.inr ⟨8, hheader⟩⟩
  · have hfull : ∀ p ∈ (beaconLog [neighbourBeacon]).kept, FullHeader p 8 := by
      intro p hp
      rw [hkept] at hp
      exact List.mem_singleton.mp hp ▸ hheader
    rw [reported_eq hfull hts, hkept, documentOf_length]
    decide

def silentBeacon : Packet :=
  .ofBytes ([0, 0, 18, 0] ++ List.replicate 14 0 ++ frameBytes [0x80, 0] broadcast
    [0, 1, 2, 3, 4, 10] [0, 1, 2, 3, 4, 10] (Printf.ascii "home"))

/-- Globals in which an earlier capture left a rate of 54 Mbps in the first record. -/
def afterFastBeacon : Globals :=
  Globals.initial.setCurrent { PacketInfo.zero with dataRateKbps := 54000 }

theorem silentBeacon_not_isolated :
    ¬ Isolated false [silentBeacon] ∧ ¬ Isolated true [silentBeacon] := by
  have hdiff : ∀ signedChar, ¬ ((captureCommand 1 signedChar .initial [.of silentBeacon]).map
      outputText = (captureCommand 1 signedChar afterFastBeacon [.of silentBeacon]).map
        outputText) := by
    decide +kernel
  have hruns : ∀ signedChar, (captureCommand 1 signedChar .initial [.of silentBeacon]).isSome ∧
      (captureCommand 1 signedChar afterFastBeacon [.of silentBeacon]).isSome := by
    decide +kernel
  have hnot : ∀ signedChar, ¬ Isolated signedChar [silentBeacon] := by
    intro signedChar h
    obtain ⟨u, hu⟩ := Option.isSome_iff_exists.mp (hruns signedChar).1
    obtain ⟨u', hu'⟩ := Option.isSome_iff_exists.mp (hruns signedChar).2
    have hsame := h.same 1 1 _ _ [.of silentBeacon] [.of silentBeacon] u u' rfl rfl hu hu'
    refine hdiff signedChar ?_
    rw [hu, hu', Option.map_some, Option.map_some, hsame]
  exact ⟨hnot false, hnot true⟩

def wideAddress (i : Nat) : Bytes := List.replicate 5 255 ++ [(16 + i).toUInt8]

/- Texts of full width: a rate of 127.5 Mbps, a channel beyond 10 GHz, a signal of -128 dBm (or
128), an SSID of fourteen letters, addresses of two digits each. -/
def wideBeacon (i : Nat) : Packet :=
  .ofBytes ([0, 0, 18, 0, 0x2e, 0x48, 0, 0, 0, 255, 255, 255, 0xa0, 0, 0x80, 255, 0, 0] ++
    frameBytes [0x80, 0] broadcast (wideAddress i) (wideAddress i) (List.replicate 14 97))

def crowd : List Packet := (List.range 50).map wideBeacon

theorem wideBeacon_full (i : Nat) : FullHeader (wideBeacon i) 8 :=
  typicalHeader_full (wideBeacon i) rfl

theorem wideBeacon_key (i : Nat) :
    (wideBeacon i).key = (List.replicate 14 97, wideAddress i) := by
  have hssid : (wideBeacon i).ssidBytes = List.replicate 14 97 := rfl
  have hbssid : (wideBeacon i).addr bssid = wideAddress i := rfl
  have hname : cstr (List.replicate 14 97) = List.replicate 14 97 := by decide
  rw [Packet.key, hssid, hname, hbssid]

theorem wideBeacon_radio (i : Nat) :
    packetRadio (wideBeacon i) 8 = ⟨127500, 255, 65535, 128⟩ := by
  have hrate : (wideBeacon i).byte 9 = 255 := rfl
  have hlow : (wideBeacon i).byte 10 = 255 := rfl
  have hhigh : (wideBeacon i).byte 11 = 255 := rfl
  have hsignal : (wideBeacon i).byte 14 = 128 := rfl
  have hantenna : (wideBeacon i).byte 15 = 255 := rfl
  rw [packetRadio, (typicalHeader_fits (wideBeacon i) rfl).2.2]
  simp [fieldRadio, Packet.le16, hrate, hlow, hhigh, hsignal, hantenna]

theorem wideBeacon_texts (signedChar : Bool) (i : Nat) :
    packetTexts signedChar (wideBeacon i) 8 =
      ⟨Printf.percentI 127500, Printf.percentI 255, Printf.percentI 65535,
        Printf.percentI (promoteChar signedChar 128), List.replicate 14 97,
        etherText (wideAddress i), etherText broadcast, etherText (wideAddress i)⟩ := by
  have hssid : cstr (wideBeacon i).ssidBytes = List.replicate 14 97 :=
    congrArg Prod.fst (wideBeacon_key i)
  have hbssid : (wideBeacon i).addr bssid = wideAddress i := rfl
  have hsrc : (wideBeacon i).addr etherShost = wideAddress i := rfl
  have hdst : (wideBeacon i).addr etherDhost = broadcast := rfl
  rw [packetTexts, wideBeacon_radio, hssid, hbssid, hsrc, hdst]
  congr 1

theorem crowd_kept : (beaconLog crowd).kept = crowd := by
  refine beaconLog_kept (fun p hp => ?_) ?_
  · obtain ⟨i, _, rfl⟩ := List.mem_map.mp hp
    rfl
  · have hkeys : crowd.map Packet.key =
        (List.range 50).map fun i => (List.replicate 14 97, wideAddress i) := by
      rw [crowd, List.map_map]
      exact List.map_congr_left fun i _ => wideBeacon_key i
    rw [hkeys]
    decide +kernel

/-- Fifty such stations in range are all stored, and the text runs over the buffer. -/
theorem crowd_overflows : ∃ g, capturePackets 15 .initial (crowd.map .of) = some g ∧
    ¬ OutputFits false g ∧ ¬ OutputFits true g := by
  have hpackets : (crowd.map Delivery.of).map (·.packet) = crowd := by
    rw [List.map_map]
    exact List.map_id crowd
  obtain ⟨g, hg⟩ : ∃ g, capturePackets 15 .initial (crowd.map .of) = some g := by
    refine runOver_total fun seen d u hp _ => ?_
    obtain ⟨p, hmem, rfl⟩ := List.mem_map.mp (hp.subset (show d ∈ seen ++ [d] by simp))
    obtain ⟨i, _, rfl⟩ := List.mem_map.mp hmem
    have htag : (wideBeacon i).tagLen = 14 := rfl
    exact deliver_returns rfl (htag.trans_lt (by decide)) ((wideBeacon_full i).returns u)
  have hall : AllHarmless ((crowd.map Delivery.of).map (·.packet)) := by
    rw [hpackets]
    intro seen p hp _
    obtain ⟨i, _, rfl⟩ := List.mem_map.mp (hp.subset (show p ∈ seen ++ [p] by simp))
    exact Or.inr ⟨rfl, Or.inr ⟨8, wideBeacon_full i⟩⟩
  have hrep := capture_fills hall hg
  rw [hpackets] at hrep
  have hfull : ∀ p ∈ (beaconLog crowd).kept, FullHeader p 8 := by
    intro p hp
    rw [crowd_kept] at hp
    obtain ⟨i, _, rfl⟩ := List.mem_map.mp hp
    exact wideBeacon_full i
  have htexts : ∀ signedChar, storedTexts signedChar g = (List.range 50).map fun i =>
      ⟨Printf.percentI 127500, Printf.percentI 255, Printf.percentI 65535,
        Printf.percentI (promoteChar signedChar 128), List.replicate 14 97,
        etherText (wideAddress i), etherText broadcast, etherText (wideAddress i)⟩ := by
    intro signedChar
    rw [hrep.storedTexts_packets signedChar 8 hfull, crowd_kept, crowd, List.map_map]
    exact List.map_congr_left fun i _ => wideBeacon_texts signedChar i
  refine ⟨g, hg, ?_, ?_⟩
  · rw [outputFits_iff_length, documentOf_length, htexts]
    decide +kernel
  · rw [outputFits_iff_length, documentOf_length, htexts]
    decide +kernel

end NetworkAnalyser.Server
