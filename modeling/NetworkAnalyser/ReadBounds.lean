import NetworkAnalyser.Capture
import NetworkAnalyser.RadiotapReads

/-! Which packets the callback handles within the captured bytes. -/
namespace NetworkAnalyser.Server
open NetworkAnalyser.Exec NetworkAnalyser.CString

/-- Too short for what the parsers read at fixed offsets, or with a length field that points
past the captured bytes. -/
def Malformed (pkt : Packet) : Prop :=
  pkt.caplen < frameStart + 2 ∨
    (pkt.frameType = beaconType ∧ pkt.caplen < ssidStart + pkt.tagLen) ∨
    pkt.caplen < itLen pkt

/-- Whatever the locals hold: no access leaves an array, every byte read was captured, and a
malformed packet is rejected without a record. -/
structure Confined (g : Globals) (pkt : Packet) : Prop where
  defined : ∀ fuel buff it,
    (packetCaptureCallback fuel ⟨pkt, buff, it⟩ (World.start g)).1 ≠ .undefined
  reads : ∀ fuel buff it,
    ∀ a ∈ (packetCaptureCallback fuel ⟨pkt, buff, it⟩ (World.start g)).2.reads, a < pkt.caplen
  rejects : Malformed pkt → ∀ buff it, ∃ fuel w,
    packetCaptureCallback fuel ⟨pkt, buff, it⟩ (World.start g) = (.done (), w) ∧
      w.globals.capInfo.packetInfoCount = g.capInfo.packetInfoCount

/-- The radiotap header is walked over within the captured bytes: the presence words looked at
end there, and so do the arguments, or the walk hangs at one that is never read. -/
structure HeaderInside (pkt : Packet) : Prop where
  version : pkt.byte 0 = 0
  length : itLen pkt ≤ bufsiz
  captured : itLen pkt ≤ pkt.caplen
  words : wordsEnd pkt ≤ pkt.caplen
  fields : ∀ f, FirstMisfit (itLen pkt) (fieldsOf (itPresent pkt) (wordsEnd pkt)) f → Quiet f

/-- A beacon the arrays hold, captured as far as its SSID, and known or with its header in
order. -/
structure BeaconInside (g : Globals) (pkt : Packet) : Prop where
  type : pkt.frameType = beaconType
  ssid : pkt.tagLen < maxSsidCharCount
  captured : ssidStart + pkt.tagLen ≤ pkt.caplen
  header : Known g pkt ∨ HeaderInside pkt

/-- A frame of another type, captured as far as its type, and skipped or with its header
captured. -/
structure OtherInside (pkt : Packet) : Prop where
  type : pkt.frameType ≠ beaconType
  captured : frameStart + 2 ≤ pkt.caplen
  header : pkt.frameType = 0 ∨ itLen pkt ≤ pkt.caplen

def Inside (g : Globals) (pkt : Packet) : Prop :=
  ¬ g.curPacketCount < maxPacketInfoCount ∨ OtherInside pkt ∨ BeaconInside g pkt

theorem mem_addrReads {off a : Nat} : a ∈ addrReads off ↔ off ≤ a ∧ a < off + 6 := by
  rw [addrReads, List.mem_map]
  constructor
  · rintro ⟨i, hi, rfl⟩
    have := List.mem_range.mp hi
    omega
  · intro h
    exact ⟨a - off, List.mem_range.mpr (by omega), by omega⟩

theorem mem_ssidReads {pkt : Packet} {a : Nat} : a ∈ ssidReads pkt ↔
    (ssidStart ≤ a ∧ a < ssidStart + pkt.tagLen) ∨ a = tagLength := by
  rw [ssidReads, List.mem_append, List.mem_reverse, List.mem_map, List.mem_singleton]
  constructor
  · rintro (⟨i, hi, rfl⟩ | h)
    · have := List.mem_range.mp hi
      exact Or.inl (by omega)
    · exact Or.inr h
  · rintro (h | h)
    · exact Or.inl ⟨a - ssidStart, List.mem_range.mpr (by omega), by omega⟩
    · exact Or.inr h

theorem offsets : frameStart = 18 ∧ etherDhost = 22 ∧ etherShost = 28 ∧ bssid = 34 ∧
    tagLength = 55 ∧ ssidStart = 56 := by decide

theorem keyReads_lt_iff (pkt : Packet) (bound : Nat) :
    (∀ a ∈ keyReads pkt, a < bound) ↔ ssidStart + pkt.tagLen ≤ bound := by
  obtain ⟨hframe, _, _, hbssid, htag, hssid⟩ := offsets
  have hmem : ∀ a, a ∈ keyReads pkt ↔ (34 ≤ a ∧ a < 40) ∨ (56 ≤ a ∧ a < 56 + pkt.tagLen) ∨
      a = 55 ∨ a = 18 ∨ a = 19 := by
    intro a
    rw [keyReads, List.mem_append, List.mem_append, mem_addrReads, mem_ssidReads, hframe, hbssid,
      htag, hssid]
    simp only [List.mem_cons, List.not_mem_nil, or_false]
    omega
  rw [hssid]
  constructor
  · intro h
    have hlast := h (55 + pkt.tagLen) ((hmem _).mpr (by omega))
    omega
  · intro h a ha
    have := (hmem a).mp ha
    omega

section new
variable {g : Globals} {d : Delivery} (hroom : g.curPacketCount < maxPacketInfoCount)
  (htype : d.packet.frameType = beaconType) (hlen : d.packet.tagLen < maxSsidCharCount)
  (hnew : ¬ Known g d.packet)
include hroom htype hlen hnew

theorem callback_new_reads (fuel : Nat) :
    (packetCaptureCallback fuel d (World.start g)).1 ≠ .undefined ∧
    (packetCaptureCallback fuel d (World.start g)).2.reads =
      (parseRadioTap fuel d.packet d.iterator bufsiz (newBeaconWorld g d)).2.reads := by
  have hsafe := (safe_parseRadioTap fuel d.packet d.iterator bufsiz (newBeaconWorld g d)).1
  rw [callback_new hroom htype hlen hnew, bind_apply]
  cases hp : parseRadioTap fuel d.packet d.iterator bufsiz (newBeaconWorld g d) with
  | mk o w =>
    rw [hp] at hsafe
    cases o with
    | done ret => exact ⟨by simp, rfl⟩
    | undefined => exact absurd rfl hsafe
    | running => exact ⟨by simp, rfl⟩

theorem callback_new_count {fuel : Nat} {w : World}
    (h : packetCaptureCallback fuel d (World.start g) = (.done (), w)) :
    w.globals.capInfo.packetInfoCount = g.capInfo.packetInfoCount + 1 := by
  rw [callback_new hroom htype hlen hnew] at h
  obtain ⟨ret, u, hu, hstore⟩ := bind_eq_done h
  obtain rfl : _ = w := (Prod.mk.inj hstore).2
  have hsafe := (safe_parseRadioTap fuel d.packet d.iterator bufsiz (newBeaconWorld g d)).2
  rw [hu] at hsafe
  obtain ⟨x, hx⟩ := hsafe
  change u.globals.capInfo.packetInfoCount + 1 = _
  rw [hx]
  rfl

end new

theorem newBeaconWorld_reads_lt {g : Globals} {d : Delivery} {bound : Nat}
    (h : ssidStart + d.packet.tagLen ≤ bound) :
    ∀ a ∈ (newBeaconWorld g d).reads, a < bound := by
  obtain ⟨_, hdst, hsrc, _, _, hssid⟩ := offsets
  intro a ha
  change a ∈ addrReads etherShost ++ (addrReads etherDhost ++ keyReads d.packet) ++ [] at ha
  rw [List.append_nil, List.mem_append, List.mem_append, mem_addrReads, mem_addrReads] at ha
  rcases ha with ha | ha | ha
  · omega
  · omega
  · exact (keyReads_lt_iff d.packet bound).mpr h a ha

/-- A stack slot that looks like an iterator about to meet a rate stored at `addr`. -/
def strayIterator (addr : Nat) : RadiotapIterator :=
  { rtheader := 0, maxLength := addr + 1, thisArgIndex := 0, thisArg := 0,
    argIndex := radiotapRate, arg := addr, nextBitmap := 0, bitmapShifter := 1 }

theorem refused_reads {pkt : Packet} {maxLength : Int}
    (h : ¬ (pkt.byte 0 = 0 ∧ (itLen pkt : Int) ≤ maxLength)) (addr : Nat) (w : World) :
    addr ∈ (parseRadioTap 1 pkt (strayIterator addr) maxLength w).2.reads := by
  obtain ⟨it, addrs, hinit, hcases⟩ := init_rejects
    (fun start ha => h ⟨ha.version, ha.length⟩) (strayIterator addr) w
  obtain rfl : it = strayIterator addr := by
    cases hcases with
    | inl hc => exact hc.2
    | inr hc => exact absurd ⟨hc.1, hc.2.1⟩ h
  have halign : rtAlign radiotapRate = 1 := by decide
  have hlen : rtLength radiotapRate = 1 := by decide
  have hfit : (strayIterator addr).hit.offset ≤ (strayIterator addr).maxLength := by
    simp [strayIterator, RadiotapIterator.hit, RadiotapIterator.offset,
      adjustIndex_of_align_one halign, hlen]
  rw [parseRadioTap_of_init hinit, loop_again (body_present pkt _ _ _ (by decide) (by
    change 2 < 14
    decide) (by change 1 &&& 1 ≠ 0; decide) hfit), loop_zero]
  refine List.mem_append_left _ ?_
  change addr ∈ fieldReads (adjustIndex radiotapRate _, addr)
  rw [adjustIndex_of_align_one halign]
  exact List.mem_cons_self

theorem parseRadioTap_reads_lt {pkt : Packet} {maxLength : Int} {bound : Nat}
    (hver : pkt.byte 0 = 0) (hlen : (itLen pkt : Int) ≤ maxLength) (hcap : itLen pkt ≤ bound)
    (hwords : wordsEnd pkt ≤ bound)
    (hfields : ∀ f, FirstMisfit (itLen pkt) (fieldsOf (itPresent pkt) (wordsEnd pkt)) f → Quiet f)
    (fuel : Nat) (stack : RadiotapIterator) {w : World} (hw : ∀ a ∈ w.reads, a < bound) :
    ∀ a ∈ (parseRadioTap fuel pkt stack maxLength w).2.reads, a < bound := by
  obtain ⟨ret, addrs, hret, haddrs, hinit⟩ := init_reads hver hlen stack w
  intro a ha
  rw [parseRadioTap_of_init hinit] at ha
  have hloop := @loop_reads_quiet pkt 14 ret (headerIterator pkt stack (wordsEnd pkt))
    (w.read addrs) rfl (Nat.le_refl 14) hret hfields fuel a ha
  have hpos := wordsEnd_ge pkt
  cases hloop with
  | inr hlt => exact Nat.lt_of_lt_of_le hlt hcap
  | inl hmem =>
    cases List.mem_append.mp hmem with
    | inl hmem =>
      have := (haddrs a).mp hmem
      omega
    | inr hmem => exact hw a hmem

theorem Confined.of_outside {g : Globals} {pkt : Packet} {reads : List Nat}
    (h : ∀ fuel buff it, ∃ g',
      packetCaptureCallback fuel ⟨pkt, buff, it⟩ (World.start g) =
        (.done (), { (World.start g).read reads with globals := g' }) ∧
      (Malformed pkt → g'.capInfo.packetInfoCount = g.capInfo.packetInfoCount))
    (hreads : ∀ a ∈ reads, a < pkt.caplen) : Confined g pkt where
  defined fuel buff it := by
    obtain ⟨g', hg', _⟩ := h fuel buff it
    rw [hg']
    simp
  reads fuel buff it a ha := by
    obtain ⟨g', hg', _⟩ := h fuel buff it
    rw [hg'] at ha
    exact hreads a (by simpa [World.read, World.start] using ha)
  rejects hmal buff it := by
    obtain ⟨g', hg', hcount⟩ := h 0 buff it
    exact ⟨0, _, hg', hcount hmal⟩

theorem OtherInside.confined {g : Globals} {pkt : Packet} (h : OtherInside pkt)
    (hroom : g.curPacketCount < maxPacketInfoCount) : Confined g pkt := by
  have hreads : ∀ a ∈ [frameStart, frameStart + 1], a < pkt.caplen := by
    have := h.captured
    simp only [List.mem_cons, List.not_mem_nil, or_false]
    omega
  by_cases hzero : pkt.frameType = 0
  · exact .of_outside (fun fuel buff it =>
      ⟨_, callback_zero (d := ⟨pkt, buff, it⟩) hroom hzero, fun _ => rfl⟩) hreads
  · refine .of_outside (fun fuel buff it =>
      ⟨_, callback_other (d := ⟨pkt, buff, it⟩) hroom h.type hzero, fun hmal => ?_⟩) hreads
    rcases hmal with hshort | ⟨htype, _⟩ | hlen
    · exact absurd h.captured (Nat.not_le.mpr hshort)
    · exact absurd htype h.type
    · cases h.header with
      | inl hz => exact absurd hz hzero
      | inr hle => exact absurd hle (Nat.not_le.mpr hlen)

theorem BeaconInside.confined {g : Globals} {pkt : Packet} (h : BeaconInside g pkt)
    (hroom : g.curPacketCount < maxPacketInfoCount) : Confined g pkt := by
  obtain ⟨htype, hlen, hcap, hheader⟩ := h
  by_cases hknown : Known g pkt
  · exact .of_outside (fun fuel buff it =>
      ⟨(g.identify pkt).countSearch (othersPassed g pkt buff) 1,
        callback_known (d := ⟨pkt, buff, it⟩) hroom htype hlen hknown, fun _ => rfl⟩)
      ((keyReads_lt_iff pkt pkt.caplen).mpr hcap)
  · cases hheader with
    | inl h => exact absurd h hknown
    | inr h =>
      refine ⟨fun fuel buff it => ?_, fun fuel buff it => ?_, fun hmal => ?_⟩
      · exact (@callback_new_reads g ⟨pkt, buff, it⟩ hroom htype hlen hknown fuel).1
      · rw [(@callback_new_reads g ⟨pkt, buff, it⟩ hroom htype hlen hknown fuel).2]
        exact parseRadioTap_reads_lt h.version (Int.ofNat_le.mpr h.length) h.captured h.words
          h.fields fuel it (newBeaconWorld_reads_lt (d := ⟨pkt, buff, it⟩) hcap)
      · obtain ⟨hframe, _, _, _, _, hssid⟩ := offsets
        have hlength := h.captured
        rcases hmal with hshort | ⟨_, hlong⟩ | hlong
        · omega
        · omega
        · omega

theorem Confined.header {g : Globals} {pkt : Packet} (h : Confined g pkt)
    (hroom : g.curPacketCount < maxPacketInfoCount) (htype : pkt.frameType = beaconType)
    (hlen : pkt.tagLen < maxSsidCharCount) (hnew : ¬ Known g pkt) : HeaderInside pkt := by
  have hreads : ∀ fuel it, ∀ a ∈ (parseRadioTap fuel pkt it bufsiz
      (newBeaconWorld g ⟨pkt, .zero _, it⟩)).2.reads, a < pkt.caplen := by
    intro fuel it
    rw [← (@callback_new_reads g ⟨pkt, .zero _, it⟩ hroom htype hlen hnew fuel).2]
    exact h.reads fuel _ it
  have haccept : pkt.byte 0 = 0 ∧ (itLen pkt : Int) ≤ bufsiz := by
    by_contra hbad
    have := hreads 1 _ pkt.caplen (refused_reads hbad pkt.caplen _)
    exact Nat.lt_irrefl _ this
  obtain ⟨hver, hle⟩ := haccept
  have hinit := init_reads hver hle staleIterator
    (newBeaconWorld g ⟨pkt, .zero _, staleIterator⟩)
  obtain ⟨ret, addrs, hret, haddrs, hinit⟩ := hinit
  refine ⟨hver, Int.ofNat_le.mp hle, ?_, ?_, fun f hf => ?_⟩
  · -- a header that claims more than was captured is not rejected
    by_contra hshort
    obtain ⟨fuel, w, hdone, hcount⟩ := h.rejects (Or.inr (Or.inr (Nat.not_le.mp hshort)))
      (.zero _) staleIterator
    have := callback_new_count (d := ⟨pkt, .zero _, staleIterator⟩) hroom htype hlen hnew hdone
    omega
  · have hge := wordsEnd_ge pkt
    have hlast := hreads 0 staleIterator (wordsEnd pkt - 1) (by
      rw [parseRadioTap_of_init hinit, loop_zero]
      exact List.mem_append_left _ ((haddrs _).mpr (by omega)))
    omega
  · by_contra hloud
    obtain ⟨fuel, a, ha, hfar⟩ := @loop_reads_loud pkt 14 ret
      (headerIterator pkt staleIterator (wordsEnd pkt))
      ((newBeaconWorld g ⟨pkt, .zero _, staleIterator⟩).read addrs) f rfl hret hf hloud pkt.caplen
    rw [← parseRadioTap_of_init hinit] at ha
    exact Nat.not_lt.mpr hfar (hreads fuel staleIterator a ha)

theorem Confined.captured {g : Globals} {pkt : Packet} (h : Confined g pkt)
    (hroom : g.curPacketCount < maxPacketInfoCount) (htype : pkt.frameType = beaconType)
    (hlen : pkt.tagLen < maxSsidCharCount) : ssidStart + pkt.tagLen ≤ pkt.caplen := by
  refine (keyReads_lt_iff pkt pkt.caplen).mp fun a ha => h.reads 0 (.zero _) staleIterator a ?_
  by_cases hknown : Known g pkt
  · rw [callback_known (d := ⟨pkt, .zero _, staleIterator⟩) hroom htype hlen hknown]
    exact List.mem_append_left _ ha
  · have hheader := h.header hroom htype hlen hknown
    obtain ⟨ret, addrs, _, _, hinit⟩ := init_reads hheader.version
      (Int.ofNat_le.mpr hheader.length) staleIterator
      (newBeaconWorld g ⟨pkt, .zero _, staleIterator⟩)
    rw [(@callback_new_reads g ⟨pkt, .zero _, staleIterator⟩ hroom htype hlen hknown 0).2,
      parseRadioTap_of_init hinit, loop_zero]
    refine List.mem_append_right _ (List.mem_append_left _ ?_)
    exact List.mem_append_right _ (List.mem_append_right _ ha)

theorem Confined.beacon {g : Globals} {pkt : Packet} (h : Confined g pkt)
    (hroom : g.curPacketCount < maxPacketInfoCount) (htype : pkt.frameType = beaconType) :
    BeaconInside g pkt := by
  have hlen : pkt.tagLen < maxSsidCharCount := by
    by_contra hlong
    obtain ⟨w, hw⟩ := @callback_overflow 0 g ⟨pkt, .zero _, staleIterator⟩ hroom htype
      (Nat.not_lt.mp hlong)
    exact h.defined 0 (.zero _) staleIterator (by rw [hw])
  refine ⟨htype, hlen, h.captured hroom htype hlen, ?_⟩
  by_cases hknown : Known g pkt
  · exact Or.inl hknown
  · exact Or.inr (h.header hroom htype hlen hknown)

theorem Confined.other {g : Globals} {pkt : Packet} (h : Confined g pkt)
    (hroom : g.curPacketCount < maxPacketInfoCount) (htype : pkt.frameType ≠ beaconType) :
    OtherInside pkt := by
  by_cases hzero : pkt.frameType = 0
  · have hlast := h.reads 0 (.zero _) staleIterator (frameStart + 1) (by
      rw [callback_zero (d := ⟨pkt, .zero _, staleIterator⟩) hroom hzero]
      simp [World.read])
    exact ⟨htype, hlast, Or.inl hzero⟩
  · have hlast := h.reads 0 (.zero _) staleIterator (frameStart + 1) (by
      rw [callback_other (d := ⟨pkt, .zero _, staleIterator⟩) hroom htype hzero]
      simp [World.read])
    refine ⟨htype, hlast, Or.inr ?_⟩
    by_contra hshort
    obtain ⟨fuel, w, hdone, hcount⟩ := h.rejects (Or.inr (Or.inr (Nat.not_le.mp hshort)))
      (.zero _) staleIterator
    rw [callback_other (d := ⟨pkt, .zero _, staleIterator⟩) hroom htype hzero] at hdone
    obtain rfl := (Prod.mk.inj hdone).2
    exact Nat.succ_ne_self _ hcount

/-- The callback keeps to the captured bytes, and rejects what is too short, on exactly these
packets. -/
theorem confined_iff (g : Globals) (pkt : Packet) : Confined g pkt ↔ Inside g pkt := by
  by_cases hroom : g.curPacketCount < maxPacketInfoCount
  · constructor
    · intro h
      by_cases htype : pkt.frameType = beaconType
      · exact Or.inr (Or.inr (h.beacon hroom htype))
      · exact Or.inr (Or.inl (h.other hroom htype))
    · rintro (hfull | hother | hbeacon)
      · exact absurd hroom hfull
      · exact hother.confined hroom
      · exact hbeacon.confined hroom
  · refine ⟨fun _ => Or.inl hroom, fun _ => ?_⟩
    exact @Confined.of_outside g pkt [] (fun fuel buff it =>
      ⟨g, callback_full (d := ⟨pkt, buff, it⟩) hroom, fun _ => rfl⟩) (by simp)

def cutBeacon : Packet :=
  { typicalBeacon [0, 1, 2, 3, 4, 10] (Printf.ascii "home") with caplen := 58 }

theorem cutBeacon_not_confined : ¬ Confined .initial cutBeacon := by
  intro h
  have hcap := h.captured (by decide) (by decide) (by decide)
  exact absurd hcap (by decide)

end NetworkAnalyser.Server
