import NetworkAnalyser.CaptureHistory
import NetworkAnalyser.PacketTexts
import NetworkAnalyser.RadiotapArguments

/-! Captures in which every record is filled from the one packet that created it. -/
namespace NetworkAnalyser.Server
open NetworkAnalyser.Exec NetworkAnalyser.CString NetworkAnalyser.FirstOffers

section fold
variable {α β γ : Type} {step : β → α → β} (get : β → γ) {hit : α → Prop} [DecidablePred hit]
  {val : α → γ} (hstep : ∀ b a, get (step b a) = if hit a then val a else get b)
include hstep

theorem foldl_get_of_miss {as : List α} (h : ∀ a ∈ as, ¬ hit a) (b : β) :
    get (as.foldl step b) = get b := by
  induction as generalizing b with
  | nil => rfl
  | cons a as ih =>
    rw [List.foldl_cons, ih (fun c hc => h c (List.mem_cons_of_mem a hc)), hstep,
      if_neg (h a List.mem_cons_self)]

theorem foldl_get_congr {as : List α} (h : ∃ a ∈ as, hit a) (b c : β) :
    get (as.foldl step b) = get (as.foldl step c) := by
  induction as generalizing b c with
  | nil =>
    obtain ⟨a, ha, _⟩ := h
    exact absurd ha List.not_mem_nil
  | cons a as ih =>
    rw [List.foldl_cons, List.foldl_cons]
    by_cases hrest : ∃ x ∈ as, hit x
    · exact ih hrest _ _
    · have hnone : ∀ x ∈ as, ¬ hit x := fun x hx hh => hrest ⟨x, hx, hh⟩
      have ha : hit a := by
        obtain ⟨x, hx, hh⟩ := h
        cases List.mem_cons.mp hx with
        | inl hx => exact hx ▸ hh
        | inr hx => exact absurd hh (hnone x hx)
      rw [foldl_get_of_miss get hstep hnone, foldl_get_of_miss get hstep hnone, hstep, hstep,
        if_pos ha, if_pos ha]

end fold

/-- The store of one argument, on the radio members alone. -/
def fieldRadio (pkt : Packet) (x : Radio) (f : Field) : Radio where
  dataRateKbps := if f.1 = radiotapRate then (pkt.byte f.2).toNat * 500 else x.dataRateKbps
  antenna := if f.1 = radiotapAntenna then (pkt.byte f.2).toNat else x.antenna
  channel := if f.1 = radiotapChannel then (pkt.le16 f.2).toUInt16 else x.channel
  signalPwrDbmAtAntenna :=
    if f.1 = radiotapDbmAntsignal then pkt.byte f.2 else x.signalPwrDbmAtAntenna

theorem fieldStore_eq (pkt : Packet) (f : Field) (r : PacketInfo) :
    fieldStore pkt f r = r.setRadio (fieldRadio pkt r.radio f) := by
  unfold fieldStore fieldRadio PacketInfo.setRadio PacketInfo.radio
  by_cases hrate : f.1 = radiotapRate
  · simp [hrate]
  by_cases hantenna : f.1 = radiotapAntenna
  · simp [hantenna]
  by_cases hsignal : f.1 = radiotapDbmAntsignal
  · simp [hsignal]
  by_cases hchannel : f.1 = radiotapChannel
  · simp [hchannel]
  · simp [hrate, hantenna, hsignal, hchannel]

theorem foldl_fieldStore (pkt : Packet) (fields : List Field) (r : PacketInfo) :
    fields.foldl (fun r f => fieldStore pkt f r) r =
      r.setRadio (fields.foldl (fieldRadio pkt) r.radio) := by
  induction fields generalizing r with
  | nil => rfl
  | cons f fields ih =>
    rw [List.foldl_cons, List.foldl_cons, ih, fieldStore_eq, setRadio_radio, setRadio_setRadio]

/-- All four arguments the parser stores are among the fields. -/
def Covers (fields : List Field) : Prop :=
  ∀ k ∈ [radiotapRate, radiotapChannel, radiotapDbmAntsignal, radiotapAntenna],
    ∃ f ∈ fields, f.1 = k

instance (fields : List Field) : Decidable (Covers fields) :=
  inferInstanceAs (Decidable (∀ k ∈ _, _))

theorem Covers.foldl_eq {fields : List Field} (h : Covers fields) (pkt : Packet) (x y : Radio) :
    fields.foldl (fieldRadio pkt) x = fields.foldl (fieldRadio pkt) y := by
  apply Radio.ext
  · exact foldl_get_congr Radio.dataRateKbps (by intros; rfl) (h radiotapRate (by decide)) x y
  · exact foldl_get_congr Radio.antenna (by intros; rfl) (h radiotapAntenna (by decide)) x y
  · exact foldl_get_congr Radio.channel (by intros; rfl) (h radiotapChannel (by decide)) x y
  · exact foldl_get_congr Radio.signalPwrDbmAtAntenna (by intros; rfl)
      (h radiotapDbmAntsignal (by decide)) x y

/-- A header that is parsed to the end, the iterator meeting all four arguments as it walks. -/
structure FullHeader (pkt : Packet) (start : Nat) : Prop where
  accepts : Accepts pkt bufsiz start
  fits : Fits (itLen pkt) (fieldsOf (itPresent pkt) start)
  covers : Covers (fieldsOf (itPresent pkt) start)

def packetRadio (pkt : Packet) (start : Nat) : Radio :=
  (fieldsOf (itPresent pkt) start).foldl (fieldRadio pkt) PacketInfo.zero.radio

theorem FullHeader.parsed {pkt : Packet} {start fuel : Nat} (h : FullHeader pkt start)
    {stack : RadiotapIterator} {ret : Int} {w w' : World}
    (hp : parseRadioTap fuel pkt stack bufsiz w = (.done ret, w')) :
    w'.globals.current.radio = packetRadio pkt start := by
  obtain ⟨addrs, _, hfull⟩ := parseRadioTap_fits h.accepts h.fits stack w
  rw [(parseRadioTap_unique hp hfull).2]
  change ((w.read addrs).takeFields pkt _).globals.current.radio = _
  rw [takeFields_globals, Globals.setCurrent_current, foldl_fieldStore, setRadio_radio]
  exact h.covers.foldl_eq pkt _ _

theorem FullHeader.returns {d : Delivery} {start : Nat} (h : FullHeader d.packet start)
    (g : Globals) : RadioTapReturns 15 g d := by
  intro _ w _
  obtain ⟨addrs, _, hparse⟩ := parseRadioTap_fits h.accepts h.fits d.iterator w
  have hlen : (fieldsOf (itPresent d.packet) start).length ≤ 14 := layout_length_le 14 0 _ _
  have hmore := parseRadioTap_mono (14 - (fieldsOf (itPresent d.packet) start).length) hparse
  have hfuel : (fieldsOf (itPresent d.packet) start).length + 1 +
      (14 - (fieldsOf (itPresent d.packet) start).length) = 15 := by omega
  rw [hfuel] at hmore
  exact ⟨_, _, hmore⟩

theorem typicalHeader_full (pkt : Packet)
    (h : (List.range 8).map pkt.byte = typicalHeader.take 8) : FullHeader pkt 8 := by
  obtain ⟨haccepts, hlen, hfields⟩ := typicalHeader_fits pkt h
  refine ⟨haccepts, ?_, ?_⟩
  · rw [hlen, hfields]
    decide
  · rw [hfields]
    decide

/-- A header of which no argument needs padding, by its own layout. -/
theorem fullHeader_of_unpadded {pkt : Packet} {start : Nat} (haccepts : Accepts pkt bufsiz start)
    (hpad : Unpadded (itPresent pkt) start)
    (hends : ArgumentsEnd (itLen pkt) (argumentsOf (itPresent pkt) start))
    (hcovers : Covers (argumentsOf (itPresent pkt) start)) : FullHeader pkt start := by
  rw [← fieldsOf_of_unpadded hpad] at hends hcovers
  exact ⟨haccepts, argumentsEnd_iff.mp hends, hcovers⟩

/-- Every member of the record comes from the packet. -/
def FilledFrom (r : PacketInfo) (pkt : Packet) : Prop :=
  Describes r pkt ∧ ∃ start, FullHeader pkt start ∧ r.radio = packetRadio pkt start

theorem FilledFrom.describes (r : PacketInfo) (pkt : Packet) (h : FilledFrom r pkt) :
    Describes r pkt := h.1

def packetTexts (signedChar : Bool) (pkt : Packet) (start : Nat) : PacketTexts where
  datarate := Printf.percentI (packetRadio pkt start).dataRateKbps
  antenna := Printf.percentI (packetRadio pkt start).antenna
  channel := Printf.percentI (packetRadio pkt start).channel.toNat
  power := Printf.percentI (promoteChar signedChar (packetRadio pkt start).signalPwrDbmAtAntenna)
  ssid := cstr pkt.ssidBytes
  src := etherText (pkt.addr etherShost)
  dst := etherText (pkt.addr etherDhost)
  bssid := etherText (pkt.addr bssid)

theorem FilledFrom.texts {r : PacketInfo} {pkt : Packet} {start : Nat} (h : FilledFrom r pkt)
    (hfull : FullHeader pkt start) (signedChar : Bool) :
    r.texts signedChar = packetTexts signedChar pkt start := by
  obtain ⟨hdesc, start', hfull', hradio⟩ := h
  obtain rfl : start = start' := hfull.accepts.start.unique hfull'.accepts.start
  have hkey := hdesc.key
  simp only [PacketInfo.key, textKey, Packet.key, Prod.mk.injEq] at hkey
  rw [packetTexts, ← hradio, PacketInfo.texts, hkey.1, hkey.2, hdesc.src, hdesc.dst]
  rfl

theorem FilledFrom.texts_eq {r r' : PacketInfo} {pkt : Packet} (h : FilledFrom r pkt)
    (h' : FilledFrom r' pkt) (signedChar : Bool) : r.texts signedChar = r'.texts signedChar := by
  obtain ⟨start, hfull, _⟩ := h.2
  rw [h.texts hfull, h'.texts hfull]

def beaconLog (ps : List Packet) : CaptureLog :=
  Log.empty.offerAll (ps.filter fun p => p.frameType = beaconType)

/-- A packet that takes no record, or fills one. -/
def Harmless (l : CaptureLog) (pkt : Packet) : Prop :=
  l.kept.length < maxPacketInfoCount → pkt.frameType = 0 ∨
    (pkt.frameType = beaconType ∧ (l.Known pkt ∨ ∃ start, FullHeader pkt start))

/-- Each packet is harmless after the packets before it. -/
def AllHarmless (ps : List Packet) : Prop :=
  ∀ seen p, seen ++ [p] <+: ps → Harmless (beaconLog seen) p

theorem beaconLog_snoc_beacon {ps : List Packet} {p : Packet} (h : p.frameType = beaconType) :
    beaconLog (ps ++ [p]) = (beaconLog ps).offer p := by
  rw [beaconLog, List.filter_append, List.filter_cons_of_pos (by simpa using h), List.filter_nil,
    Log.offerAll_snoc]
  rfl

theorem beaconLog_snoc_other {ps : List Packet} {p : Packet} (h : p.frameType ≠ beaconType) :
    beaconLog (ps ++ [p]) = beaconLog ps := by
  rw [beaconLog, List.filter_append, List.filter_cons_of_neg (by simpa using h), List.filter_nil,
    List.append_nil]
  rfl

theorem Harmless.deliver {fuel : Nat} {g g' : Globals} {d : Delivery} {ps : List Packet}
    (h : Harmless (beaconLog ps) d.packet) (hrep : Represents FilledFrom g (beaconLog ps))
    (hd : deliver fuel g d = some g') :
    Represents FilledFrom g' (beaconLog (ps ++ [d.packet])) := by
  by_cases htype : d.packet.frameType = beaconType
  · rw [beaconLog_snoc_beacon htype]
    refine hrep.deliver FilledFrom.describes (fun _ => htype) ?_ hd
    intro hroom hlen hnew ret w hparse
    cases h (hrep.cur ▸ hroom) with
    | inl hzero => exact absurd (htype.symm.trans hzero) (by decide)
    | inr hb =>
      obtain ⟨start, hfull⟩ := hb.2.resolve_left hnew
      exact ⟨(newBeacon_parsed hlen hparse).2, start, hfull, hfull.parsed hparse⟩
  · rw [beaconLog_snoc_other htype]
    cases delivered hd with
    | full => exact hrep
    | skipped => exact hrep.frame (Globals.frame_storeType g 0)
    | other hroom _ hzero =>
      cases h (hrep.cur ▸ hroom) with
      | inl h => exact absurd h hzero
      | inr hb => exact absurd hb.1 htype
    | known _ hbeacon => exact absurd hbeacon htype
    | stored _ hbeacon => exact absurd hbeacon htype

theorem beaconLog_kept {ps : List Packet} (hbeacon : ∀ p ∈ ps, p.frameType = beaconType)
    (hlen : ((ps.map Packet.key).eraseDups.take maxPacketInfoCount).length = ps.length) :
    (beaconLog ps).kept = ps := by
  have hfilter : (ps.filter fun p => p.frameType = beaconType) = ps :=
    List.filter_eq_self.mpr fun p hp => by simpa using hbeacon p hp
  rw [beaconLog, hfilter]
  refine (Log.offerAll_sublist ps).eq_of_length ?_
  rw [← hlen, ← Log.offerAll_keys, List.length_map]

section capture
variable {fuel : Nat} {g₀ g : Globals} {ds : List Delivery}

theorem packets_snoc {seen : List Delivery} {d : Delivery} (hp : seen ++ [d] <+: ds) :
    seen.map (·.packet) ++ [d.packet] <+: ds.map (·.packet) := by
  simpa using hp.map (·.packet)

theorem AllHarmless.earlier {ps qs : List Packet} (h : AllHarmless ps) (hp : qs <+: ps) :
    AllHarmless qs := fun seen p hseen => h seen p (hseen.trans hp)

theorem capture_fills (hall : AllHarmless (ds.map (·.packet)))
    (h : capturePackets fuel g₀ ds = some g) :
    Represents FilledFrom g (beaconLog (ds.map (·.packet))) := by
  refine runOver_history (fun seen g => Represents FilledFrom g (beaconLog (seen.map (·.packet))))
    (represents_reset g₀) ?_ h
  intro seen d u v hp _ hrep hd
  rw [List.map_append, List.map_singleton]
  exact (hall _ _ (packets_snoc hp)).deliver hrep hd

theorem capture_filled (hall : AllHarmless (ds.map (·.packet)))
    (h : capturePackets fuel g₀ ds = some g) :
    ∀ i < g.curPacketCount, ∃ d, CreatedBy fuel g₀ ds i d ∧ FilledFrom (g.record i) d.packet := by
  refine capture_created (fun seen d u v hp hu hd hcount => ?_) h
  have hseen : seen.map (·.packet) <+: ds.map (·.packet) :=
    ((List.prefix_append seen [d]).trans hp).map _
  have hrep := capture_fills (hall.earlier hseen) hu
  have hrep' := (hall _ _ (packets_snoc hp)).deliver hrep hd
  by_cases htype : d.packet.frameType = beaconType
  · rw [beaconLog_snoc_beacon htype] at hrep'
    exact hrep.stored_last hrep' hcount
  · rw [beaconLog_snoc_other htype] at hrep'
    rw [hrep'.cur, hrep.cur] at hcount
    exact absurd hcount.symm (Nat.succ_ne_self _)

end capture

end NetworkAnalyser.Server
