import NetworkAnalyser.DistinctBeacons

/-! The figures a capture reports at its end, against the packets they are about: the counter of
packets that share an SSID counts the records a search passes over. -/
namespace NetworkAnalyser.Server
open NetworkAnalyser.Exec NetworkAnalyser.CString NetworkAnalyser.FirstOffers

def ssidMates (g : Globals) (pkt : Packet) : List (Bytes × Bytes) :=
  ((List.range g.curPacketCount).map fun i => (g.record i).key).filter
    fun k => k.1 = (textKey pkt.key).1

theorem passedOthers_eq (record : Nat → PacketInfo) (newSsid newBssid : Bytes) (n count : Nat) :
    passedOthers record newSsid newBssid n count =
      ((((List.range' count n).map fun i => (record i).key).filter
        fun k => k.1 = cstr newSsid).takeWhile fun k => k ≠ (cstr newSsid, cstr newBssid)).length := by
  induction n generalizing count with
  | zero => rfl
  | succ n ih =>
    rw [passedOthers, List.range'_succ, List.map_cons]
    by_cases hssid : sameSsid (record count) newSsid
    · have hkey : (record count).key.1 = cstr newSsid := (strcmp_eq_zero _ _).mp hssid
      rw [if_pos hssid, List.filter_cons_of_pos (by simpa using hkey)]
      by_cases hbssid : sameBssid (record count) newBssid
      · have hboth : (record count).key = (cstr newSsid, cstr newBssid) :=
          Prod.ext hkey ((strcmp_eq_zero _ _).mp hbssid)
        rw [if_pos hbssid, List.takeWhile_cons_of_neg (by simpa using hboth)]
        rfl
      · have hother : (record count).key ≠ (cstr newSsid, cstr newBssid) := fun h =>
          hbssid ((strcmp_eq_zero _ _).mpr (congrArg Prod.snd h))
        rw [if_neg hbssid, List.takeWhile_cons_of_pos (by simpa using hother), List.length_cons, ih]
    · have hkey : (record count).key.1 ≠ cstr newSsid := fun h =>
        hssid ((strcmp_eq_zero _ _).mpr h)
      rw [if_neg hssid, List.filter_cons_of_neg (by simpa using hkey), ih]

section mates
variable {g : Globals} {pkt : Packet}

theorem othersPassed_eq (hlen : pkt.tagLen < maxSsidCharCount) (buff : CharArray maxSsidCharCount) :
    othersPassed g pkt buff =
      ((ssidMates g pkt).takeWhile fun k => k ≠ textKey pkt.key).length := by
  have hssid : cstr (ssidArray pkt buff).bytes = (textKey pkt.key).1 := ssidArray_str pkt buff hlen
  have hbssid : cstr (g.identify pkt).current.ethernetBssId.bytes = (textKey pkt.key).2 :=
    congrArg Prod.snd (identify_key g pkt hlen)
  have hrecords : ((List.range g.curPacketCount).map fun i => ((g.identify pkt).record i).key) =
      (List.range g.curPacketCount).map fun i => (g.record i).key := by
    refine List.map_congr_left fun i hi => ?_
    rw [(g.frame_identify pkt).record i (Nat.ne_of_lt (List.mem_range.mp hi))]
  rw [othersPassed, passedOthers_eq, hssid, hbssid, ← List.range_eq_range', hrecords]
  rfl

theorem known_iff_mem : Known g pkt ↔ textKey pkt.key ∈ ssidMates g pkt := by
  simp [Known, ssidMates]

theorem passed_of_new (hnew : ¬ Known g pkt) :
    (ssidMates g pkt).takeWhile (fun k => k ≠ textKey pkt.key) = ssidMates g pkt := by
  refine List.takeWhile_eq_self_iff.mpr fun k hk => ?_
  have hne : k ≠ textKey pkt.key := fun h => hnew (known_iff_mem.mpr (h ▸ hk))
  simpa using hne

theorem passed_of_known (hknown : Known g pkt) :
    (ssidMates g pkt).takeWhile (fun k => k ≠ textKey pkt.key) = [] ↔
      (ssidMates g pkt).head? = some (textKey pkt.key) := by
  have hmem := known_iff_mem.mp hknown
  cases hmates : ssidMates g pkt with
  | nil =>
    rw [hmates] at hmem
    exact absurd hmem List.not_mem_nil
  | cons k ks => simp

end mates

/-- Some stored record has the SSID at the fixed offsets of the packet and another BSSID. -/
def SharesSsid (g : Globals) (pkt : Packet) : Prop := ∃ i < g.curPacketCount,
  (g.record i).key.1 = (textKey pkt.key).1 ∧ (g.record i).key.2 ≠ (textKey pkt.key).2

instance (g : Globals) (pkt : Packet) : Decidable (SharesSsid g pkt) :=
  inferInstanceAs (Decidable (∃ i < _, _))

/-- Delivery number `k` finds earlier records it shares its SSID with. -/
def sharesAfter (fuel : Nat) (g₀ : Globals) (ds : List Delivery) (k : Nat) : Bool :=
  match capturePackets fuel g₀ (ds.take k), ds[k]? with
  | some g, some d => decide (SharesSsid g d.packet)
  | _, _ => false

def roomy (fuel : Nat) (g₀ : Globals) (ds : List Delivery) : Finset Nat :=
  (Finset.range ds.length).filter fun k => storedAfter fuel g₀ ds k < maxPacketInfoCount

/-- The deliveries that find room, are stored and share their SSID with an earlier record. -/
def sharing (fuel : Nat) (g₀ : Globals) (ds : List Delivery) : Finset Nat :=
  (roomy fuel g₀ ds).filter fun k =>
    storedAfter fuel g₀ ds (k + 1) = storedAfter fuel g₀ ds k + 1 ∧ sharesAfter fuel g₀ ds k

/-- The figures account for the packets of the capture. -/
structure Accounts (fuel : Nat) (g₀ : Globals) (ds : List Delivery) (g : Globals) : Prop where
  delivered : g.curPacketCount + g.dupPacketsDiscarded = (roomy fuel g₀ ds).card
  shared : g.packetsSameSsidDiffBssid = (sharing fuel g₀ ds).card

/-- So they do after each packet. -/
def AccountsThroughout (fuel : Nat) (g₀ : Globals) (ds : List Delivery) : Prop :=
  ∀ seen g, seen <+: ds → capturePackets fuel g₀ seen = some g → Accounts fuel g₀ seen g

/-- The frame type is not the code for a packet that was not processed; the search for a known
beacon meets its own record first among those of its SSID, the search for a new one meets at
most one of them; and a packet that is not searched for shares its SSID with none. -/
structure CountsOnce (g : Globals) (pkt : Packet) : Prop where
  type : pkt.frameType ≠ 0
  known : pkt.frameType = beaconType → Known g pkt →
    (ssidMates g pkt).head? = some (textKey pkt.key)
  new : pkt.frameType = beaconType → ¬ Known g pkt → (ssidMates g pkt).length ≤ 1
  other : pkt.frameType ≠ beaconType → ¬ SharesSsid g pkt

section step
variable {fuel : Nat} {g g' : Globals} {d : Delivery}

theorem sharesSsid_iff_of_new (hnew : ¬ Known g d.packet) :
    SharesSsid g d.packet ↔ 0 < (ssidMates g d.packet).length := by
  rw [List.length_pos_iff_exists_mem]
  constructor
  · rintro ⟨i, hi, hssid, _⟩
    refine ⟨(g.record i).key, ?_⟩
    simpa [ssidMates, hssid] using ⟨i, hi, rfl⟩
  · rintro ⟨k, hk⟩
    simp only [ssidMates, List.mem_filter, List.mem_map, List.mem_range,
      decide_eq_true_eq] at hk
    obtain ⟨⟨i, hi, rfl⟩, hssid⟩ := hk
    exact ⟨i, hi, hssid, fun hbssid => hnew ⟨i, hi, Prod.ext hssid hbssid⟩⟩

theorem identify_shared (g : Globals) (pkt : Packet) :
    (g.identify pkt).packetsSameSsidDiffBssid = g.packetsSameSsidDiffBssid := rfl

theorem address_shared (g : Globals) (pkt : Packet) :
    (g.address pkt).packetsSameSsidDiffBssid = g.packetsSameSsidDiffBssid := rfl

theorem setCurrent_shared (g : Globals) (r : PacketInfo) :
    (g.setCurrent r).packetsSameSsidDiffBssid = g.packetsSameSsidDiffBssid := rfl

theorem newBeacon_counts {w : World} {o : Outcome Int}
    (h : parseRadioTap fuel d.packet d.iterator bufsiz (newBeaconWorld g d) = (o, w)) :
    w.globals.curPacketCount = g.curPacketCount ∧
    w.globals.dupPacketsDiscarded = g.dupPacketsDiscarded ∧
    w.globals.packetsSameSsidDiffBssid =
      g.packetsSameSsidDiffBssid + othersPassed g d.packet d.ssidBuff := by
  have hsafe := (safe_parseRadioTap fuel d.packet d.iterator bufsiz (newBeaconWorld g d)).2
  rw [h] at hsafe
  obtain ⟨x, hx⟩ := hsafe
  have hframe : Globals.Frame g w.globals := by
    rw [hx]
    exact (frame_newBeacon g d).trans (Globals.frame_setCurrent _ _)
  refine ⟨hframe.cur, hframe.dup, ?_⟩
  rw [hx, setCurrent_shared, newBeaconWorld, address_shared, Globals.countSearch, identify_shared]

/-- The figures go up by the packet, once. -/
structure AddsOne (g g' : Globals) (pkt : Packet) : Prop where
  delivered : g'.curPacketCount + g'.dupPacketsDiscarded =
    g.curPacketCount + g.dupPacketsDiscarded + 1
  shared : g'.packetsSameSsidDiffBssid = g.packetsSameSsidDiffBssid +
    if g'.curPacketCount = g.curPacketCount + 1 ∧ SharesSsid g pkt then 1 else 0

theorem Delivered.addsOne_iff (h : Delivered fuel g d g')
    (hroom : g.curPacketCount < maxPacketInfoCount) :
    AddsOne g g' d.packet ↔ CountsOnce g d.packet := by
  have hbeacon : beaconType ≠ 0 := by decide
  cases h with
  | full hfull => exact absurd hroom hfull
  | skipped _ hzero =>
    exact iff_of_false (fun h => Nat.succ_ne_self _ h.delivered.symm) fun h => h.type hzero
  | other _ htype hzero =>
    have hstored : g.curPacketCount + 1 = g.curPacketCount + 1 := rfl
    constructor
    · intro h
      refine ⟨hzero, fun hb => absurd hb htype, fun hb => absurd hb htype, fun _ hshares => ?_⟩
      have hshared := h.shared
      rw [if_pos ⟨hstored, hshares⟩] at hshared
      exact Nat.succ_ne_self _ hshared.symm
    · intro h
      refine ⟨Nat.add_right_comm _ _ _, ?_⟩
      rw [if_neg fun hs => h.other htype hs.2]
      rfl
  | known _ htype hlen hknown =>
    have hsame := passed_of_known hknown
    rw [← List.length_eq_zero_iff, ← othersPassed_eq hlen d.ssidBuff] at hsame
    constructor
    · intro h
      have hshared := h.shared
      rw [if_neg fun hs => Nat.succ_ne_self _ hs.1.symm] at hshared
      have hnone : othersPassed g d.packet d.ssidBuff = 0 := Nat.add_left_cancel hshared
      exact ⟨htype ▸ hbeacon, fun _ _ => hsame.mp hnone, fun _ hnew => absurd hknown hnew,
        fun hother => absurd htype hother⟩
    · intro h
      refine ⟨rfl, ?_⟩
      rw [if_neg fun hs => Nat.succ_ne_self _ hs.1.symm]
      exact congrArg (g.packetsSameSsidDiffBssid + ·) (hsame.mpr (h.known htype hknown))
  | stored _ htype hlen hnew hparse =>
    obtain ⟨hcur, hdup, hsame⟩ := newBeacon_counts hparse
    rw [othersPassed_eq hlen, passed_of_new hnew] at hsame
    have hshares := @sharesSsid_iff_of_new g d hnew
    constructor
    · intro h
      have hshared := h.shared
      simp only [Globals.storeRecord, hcur, hsame, true_and, hshares] at hshared
      refine ⟨htype ▸ hbeacon, fun _ hknown => absurd hknown hnew, fun _ _ => ?_,
        fun hother => absurd htype hother⟩
      split at hshared <;> omega
    · intro h
      have hfew := h.new htype hnew
      refine ⟨?_, ?_⟩
      · simp only [Globals.storeRecord, hcur, hdup]
        omega
      · simp only [Globals.storeRecord, hcur, hsame, true_and, hshares]
        split <;> omega

end step

section run
variable {fuel : Nat} {g₀ g g' : Globals} {ds seen rest : List Delivery} {d : Delivery}

def AllCountOnce (fuel : Nat) (g₀ : Globals) (ds : List Delivery) : Prop :=
  ∀ seen d g, seen ++ [d] <+: ds → capturePackets fuel g₀ seen = some g →
    g.curPacketCount < maxPacketInfoCount → CountsOnce g d.packet

theorem storedAfter_append {k : Nat} (hk : k ≤ seen.length) :
    storedAfter fuel g₀ (seen ++ rest) k = storedAfter fuel g₀ seen k := by
  rw [storedAfter, storedAfter, List.take_append_of_le_length hk]

theorem storedAfter_length (hg : capturePackets fuel g₀ seen = some g) :
    storedAfter fuel g₀ seen seen.length = g.curPacketCount := by
  rw [storedAfter, List.take_length, hg]
  rfl

theorem sharesAfter_append {k : Nat} (hk : k < seen.length) :
    sharesAfter fuel g₀ (seen ++ rest) k = sharesAfter fuel g₀ seen k := by
  rw [sharesAfter, sharesAfter, List.take_append_of_le_length (Nat.le_of_lt hk),
    List.getElem?_append_left hk]

theorem sharesAfter_last (hg : capturePackets fuel g₀ seen = some g) :
    sharesAfter fuel g₀ (seen ++ [d]) seen.length = decide (SharesSsid g d.packet) := by
  rw [sharesAfter, List.take_left' rfl, hg, List.getElem?_concat_length]

theorem card_filter_range_succ {p q : Nat → Prop} [DecidablePred p] [DecidablePred q] {n : Nat}
    (h : ∀ k < n, p k ↔ q k) : ((Finset.range (n + 1)).filter p).card =
      ((Finset.range n).filter q).card + if p n then 1 else 0 := by
  rw [Finset.range_add_one, Finset.filter_insert,
    Finset.filter_congr fun k hk => h k (Finset.mem_range.mp hk)]
  split
  · rw [Finset.card_insert_of_notMem (by simp)]
  · rfl

theorem card_roomy_snoc (hg : capturePackets fuel g₀ seen = some g) :
    (roomy fuel g₀ (seen ++ [d])).card =
      (roomy fuel g₀ seen).card + if g.curPacketCount < maxPacketInfoCount then 1 else 0 := by
  have hlen : (seen ++ [d]).length = seen.length + 1 := List.length_append
  have hbefore : ∀ k < seen.length, storedAfter fuel g₀ (seen ++ [d]) k < maxPacketInfoCount ↔
      storedAfter fuel g₀ seen k < maxPacketInfoCount := fun k hk => by
    rw [storedAfter_append (Nat.le_of_lt hk)]
  rw [roomy, hlen, card_filter_range_succ hbefore, storedAfter_append (Nat.le_refl _),
    storedAfter_length hg, roomy]

theorem card_sharing_snoc (hg : capturePackets fuel g₀ seen = some g)
    (hg' : capturePackets fuel g₀ (seen ++ [d]) = some g') :
    (sharing fuel g₀ (seen ++ [d])).card = (sharing fuel g₀ seen).card +
      if g.curPacketCount < maxPacketInfoCount ∧ g'.curPacketCount = g.curPacketCount + 1 ∧
        SharesSsid g d.packet then 1 else 0 := by
  have hlen : (seen ++ [d]).length = seen.length + 1 := List.length_append
  have hafter := storedAfter_length hg'
  rw [hlen] at hafter
  have hbefore : ∀ k < seen.length,
      (storedAfter fuel g₀ (seen ++ [d]) k < maxPacketInfoCount ∧
        storedAfter fuel g₀ (seen ++ [d]) (k + 1) = storedAfter fuel g₀ (seen ++ [d]) k + 1 ∧
          sharesAfter fuel g₀ (seen ++ [d]) k) ↔
      (storedAfter fuel g₀ seen k < maxPacketInfoCount ∧
        storedAfter fuel g₀ seen (k + 1) = storedAfter fuel g₀ seen k + 1 ∧
          sharesAfter fuel g₀ seen k) := fun k hk => by
    rw [storedAfter_append (Nat.le_of_lt hk), storedAfter_append hk, sharesAfter_append hk]
  rw [sharing, sharing, roomy, roomy, Finset.filter_filter, Finset.filter_filter, hlen,
    card_filter_range_succ hbefore]
  simp only [storedAfter_append (Nat.le_refl _), storedAfter_length hg, hafter,
    sharesAfter_last hg, decide_eq_true_eq]

theorem Accounts.snoc_iff (h : Accounts fuel g₀ seen g)
    (hg : capturePackets fuel g₀ seen = some g) (hd : deliver fuel g d = some g') :
    Accounts fuel g₀ (seen ++ [d]) g' ↔
      (g.curPacketCount < maxPacketInfoCount → AddsOne g g' d.packet) := by
  have hroomy := @card_roomy_snoc fuel g₀ g seen d hg
  have hsharing := card_sharing_snoc hg (capture_snoc hg hd)
  rw [← h.delivered] at hroomy
  rw [← h.shared] at hsharing
  by_cases hroom : g.curPacketCount < maxPacketInfoCount
  · rw [if_pos hroom] at hroomy
    simp only [hroom, true_and] at hsharing
    constructor
    · exact fun h' _ => ⟨h'.delivered.trans hroomy, h'.shared.trans hsharing⟩
    · exact fun h' =>
        ⟨(h' hroom).delivered.trans hroomy.symm, (h' hroom).shared.trans hsharing.symm⟩
  · rw [deliver_full hroom] at hd
    obtain rfl := Option.some.inj hd
    rw [if_neg hroom] at hroomy
    rw [if_neg fun h => hroom h.1] at hsharing
    exact iff_of_true ⟨hroomy.symm, hsharing.symm⟩ fun h => absurd h hroom

theorem accountsThroughout_iff (h : capturePackets fuel g₀ ds = some g) :
    AccountsThroughout fuel g₀ ds ↔ AllCountOnce fuel g₀ ds := by
  constructor
  · intro hacc seen d u hp hu hroom
    obtain ⟨v, hv⟩ := runOver_prefix hp h
    obtain ⟨u', hu', hd⟩ := runOver_snoc hv
    obtain rfl : u = u' := Option.some.inj (hu.symm.trans hu')
    have hbefore := hacc seen u ((List.prefix_append seen [d]).trans hp) hu
    have hadds := (hbefore.snoc_iff hu hd).mp (hacc _ v hp hv) hroom
    exact ((delivered hd).addsOne_iff hroom).mp hadds
  · intro honce seen u hp hu
    refine runOver_history (fun s v => Accounts fuel g₀ s v) ⟨rfl, rfl⟩ ?_ hu
    intro s d v w hs hv hacc hd
    exact (hacc.snoc_iff hv hd).mpr fun hroom =>
      ((delivered hd).addsOne_iff hroom).mpr (honce s d v (hs.trans hp) hv hroom)

end run

theorem capture_returns {fuel : Nat} {g₀ : Globals} {ds : List Delivery}
    (hssid : ∀ d ∈ ds, d.packet.frameType = beaconType → d.packet.tagLen < maxSsidCharCount)
    (hradio : ∀ seen d g, seen ++ [d] <+: ds → capturePackets fuel g₀ seen = some g →
      RadioTapReturns fuel g d) : ∃ g, capturePackets fuel g₀ ds = some g := by
  refine runOver_total fun seen d u hp hu => ?_
  by_cases htype : d.packet.frameType = beaconType
  · exact deliver_returns htype (hssid d (hp.subset (by simp)) htype) (hradio seen d u hp hu)
  · by_cases hroom : u.curPacketCount < maxPacketInfoCount
    · by_cases hzero : d.packet.frameType = 0
      · exact ⟨_, deliver_zero hroom hzero⟩
      · exact ⟨_, deliver_other hroom htype hzero⟩
    · exact ⟨u, deliver_full hroom⟩

/-- The capture returns, and its figures account for the packets, at its end and before it, exactly
when each packet that finds room is counted once. -/
theorem capture_accounts_iff (fuel : Nat) (g₀ : Globals) (ds : List Delivery)
    (hssid : ∀ d ∈ ds, d.packet.frameType = beaconType → d.packet.tagLen < maxSsidCharCount)
    (hradio : ∀ seen d g, seen ++ [d] <+: ds → capturePackets fuel g₀ seen = some g →
      RadioTapReturns fuel g d) :
    ∃ g, capturePackets fuel g₀ ds = some g ∧
      (AccountsThroughout fuel g₀ ds ↔ AllCountOnce fuel g₀ ds) := by
  obtain ⟨g, hg⟩ := capture_returns hssid hradio
  exact ⟨g, hg, accountsThroughout_iff hg⟩

theorem eq_of_snoc_prefix_singleton {α : Type} {seen : List α} {a b : α}
    (h : seen ++ [a] <+: [b]) : seen = [] ∧ a = b := by
  have hlen : seen.length = 0 := by simpa using h.length_le
  obtain rfl : seen = [] := List.length_eq_zero_iff.mp hlen
  exact ⟨rfl, by simpa using h⟩

theorem home_accounted : ∃ g, capturePackets 15 .initial [.of homeBeacon] = some g ∧
    AccountsThroughout 15 .initial [.of homeBeacon] := by
  have hradio : ∀ seen d g, seen ++ [d] <+: [.of homeBeacon] →
      capturePackets 15 .initial seen = some g → RadioTapReturns 15 g d := by
    intro seen d g hp _
    obtain ⟨rfl, rfl⟩ := eq_of_snoc_prefix_singleton hp
    exact (typicalHeader_full homeBeacon (by decide)).returns g
  obtain ⟨g, hg, hiff⟩ := capture_accounts_iff 15 .initial [.of homeBeacon] (by decide) hradio
  refine ⟨g, hg, hiff.mpr fun seen d u hp hu _ => ?_⟩
  obtain ⟨rfl, rfl⟩ := eq_of_snoc_prefix_singleton hp
  obtain rfl := Option.some.inj hu
  exact ⟨by decide, fun _ hknown => absurd hknown (by decide), fun _ _ => by decide,
    fun hother => absurd (by decide) hother⟩

def homeMesh : List Delivery :=
  [10, 11, 12].map fun b => .of (typicalBeacon [0, 1, 2, 3, 4, b] (Printf.ascii "home"))

def associationRequest : Delivery := .of (.ofBytes (typicalHeader ++ List.replicate 24 0))

/-- A station answers a probe under the SSID of another that has been stored. -/
def probedHome : List Delivery :=
  [.of homeBeacon, .of (.ofBytes (typicalHeader ++ frameBytes [0x50, 0] broadcast
    [0, 1, 2, 3, 4, 11] [0, 1, 2, 3, 4, 11] (Printf.ascii "home")))]

theorem not_accounts_of_figures {ds : List Delivery} {stored shared : Nat}
    (hfigures : (capturePackets 15 .initial ds).map (fun g =>
      (g.curPacketCount + g.dupPacketsDiscarded, g.packetsSameSsidDiffBssid)) =
        some (stored, shared))
    (hcounts : ¬ (stored = (roomy 15 .initial ds).card ∧ shared = (sharing 15 .initial ds).card)) :
    ∃ g, capturePackets 15 .initial ds = some g ∧ ¬ Accounts 15 .initial ds g := by
  obtain ⟨g, hg, heq⟩ := Option.map_eq_some_iff.mp hfigures
  obtain ⟨rfl, rfl⟩ := Prod.mk.inj heq
  exact ⟨g, hg, fun hacc => hcounts ⟨hacc.delivered, hacc.shared⟩⟩

/-- The third station is counted twice, the association request not at all, and the answer to the
probe not as one of the same SSID. -/
theorem homeMesh_not_accounted :
    (∃ g, capturePackets 15 .initial homeMesh = some g ∧ ¬ Accounts 15 .initial homeMesh g) ∧
    (∃ g, capturePackets 15 .initial [associationRequest] = some g ∧
      ¬ Accounts 15 .initial [associationRequest] g) ∧
    ∃ g, capturePackets 15 .initial probedHome = some g ∧ ¬ Accounts 15 .initial probedHome g := by
  refine ⟨?_, ?_, ?_⟩
  · exact @not_accounts_of_figures homeMesh 3 3 (by decide +kernel) (by decide +kernel)
  · exact @not_accounts_of_figures [associationRequest] 0 0 (by decide +kernel) (by decide +kernel)
  · exact @not_accounts_of_figures probedHome 2 0 (by decide +kernel) (by decide +kernel)

end NetworkAnalyser.Server
