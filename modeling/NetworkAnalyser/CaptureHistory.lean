import NetworkAnalyser.Deduplication

/-! The history of a capture: the records stored stay as they are, and each of them is taken by
one delivery. -/
namespace NetworkAnalyser.Server
open NetworkAnalyser.Exec NetworkAnalyser.FirstOffers

/-- The records of `g` are the first of `g'`, and both counters agree on their number. -/
structure Extends (g g' : Globals) : Prop where
  cur : g.curPacketCount ≤ g'.curPacketCount
  count : g.capInfo.packetInfoCount = g.curPacketCount →
    g'.capInfo.packetInfoCount = g'.curPacketCount
  record : ∀ i < g.curPacketCount, g'.record i = g.record i

theorem Extends.refl (g : Globals) : Extends g g := ⟨Nat.le_refl _, id, fun _ _ => rfl⟩

theorem Extends.trans {g g' g'' : Globals} (h : Extends g g') (h' : Extends g' g'') :
    Extends g g'' where
  cur := h.cur.trans h'.cur
  count hg := h'.count (h.count hg)
  record i hi := (h'.record i (Nat.lt_of_lt_of_le hi h.cur)).trans (h.record i hi)

theorem Extends.frame {g g' : Globals} (h : g.Frame g') : Extends g g' where
  cur := h.cur.ge
  count hg := by rw [h.count, h.cur, hg]
  record i hi := h.record i (Nat.ne_of_lt hi)

theorem Extends.store (g : Globals) : Extends g g.storeRecord where
  cur := Nat.le_succ _
  count hg := congrArg (· + 1) hg
  record _ _ := rfl

theorem Extends.discard (g : Globals) (others : Nat) : Extends g (g.countSearch others 1) where
  cur := Nat.le_refl _
  count hg := hg
  record _ _ := rfl

theorem Extends.known {g g' : Globals} (h : Extends g g') {pkt : Packet} (hk : Known g pkt) :
    Known g' pkt := by
  obtain ⟨i, hi, hkey⟩ := hk
  exact ⟨i, Nat.lt_of_lt_of_le hi h.cur, by rw [h.record i hi]; exact hkey⟩

section deliver
variable {fuel : Nat} {g g' : Globals} {d : Delivery}

theorem extends_deliver (hd : deliver fuel g d = some g') : Extends g g' := by
  cases delivered hd with
  | full => exact .refl g
  | skipped => exact .frame (g.frame_storeType 0)
  | other => exact (Extends.frame (g.frame_storeType _)).trans (.store _)
  | known => exact (Extends.frame (g.frame_identify d.packet)).trans (.discard _ _)
  | stored hroom htype hlen hnew hparse =>
    exact (Extends.frame (newBeacon_parsed hlen hparse).1).trans (.store _)

theorem deliver_count (hd : deliver fuel g d = some g') :
    g'.curPacketCount = g.curPacketCount ∨ g'.curPacketCount = g.curPacketCount + 1 := by
  cases delivered hd with
  | full => exact .inl rfl
  | skipped => exact .inl (g.frame_storeType 0).cur
  | other => exact .inr (congrArg (· + 1) (g.frame_storeType _).cur)
  | known => exact .inl (g.frame_identify d.packet).cur
  | stored hroom htype hlen hnew hparse =>
    exact .inr (congrArg (· + 1) (newBeacon_parsed hlen hparse).1.cur)

theorem extends_run {ds : List Delivery} (h : runOver (deliver fuel) g ds = some g') :
    Extends g g' :=
  runOver_history (fun _ u => Extends g u) (.refl g)
    (fun _ _ _ _ _ _ hu hd => hu.trans (extends_deliver hd)) h

end deliver

section capture
variable {fuel : Nat} {g₀ g u v : Globals} {ds seen rest : List Delivery} {d : Delivery}

theorem capture_counts (h : capturePackets fuel g₀ ds = some g) :
    g.capInfo.packetInfoCount = g.curPacketCount := (extends_run h).count rfl

theorem capture_snoc (hu : capturePackets fuel g₀ seen = some u) (hd : deliver fuel u d = some v) :
    capturePackets fuel g₀ (seen ++ [d]) = some v := by
  rw [capturePackets, runOver_append]
  change (capturePackets fuel g₀ seen).bind _ = _
  rw [hu, Option.bind_some, runOver_cons hd, runOver_nil]

theorem capture_rest (hu : capturePackets fuel g₀ seen = some u)
    (hg : capturePackets fuel g₀ (seen ++ rest) = some g) :
    runOver (deliver fuel) u rest = some g := by
  rw [capturePackets, runOver_append] at hg
  obtain ⟨w, hw, hrest⟩ := Option.bind_eq_some_iff.mp hg
  obtain rfl : u = w := Option.some.inj (hu.symm.trans hw)
  exact hrest

/-- Record `i` is the next one before the delivery `d`, and a stored one after it. -/
structure Creates (fuel : Nat) (g₀ : Globals) (seen : List Delivery) (d : Delivery) (i : Nat) :
    Prop where
  before : (capturePackets fuel g₀ seen).map Globals.curPacketCount = some i
  after : (capturePackets fuel g₀ (seen ++ [d])).map Globals.curPacketCount = some (i + 1)

/-- The delivery among `ds` that has taken record `i`. -/
def CreatedBy (fuel : Nat) (g₀ : Globals) (ds : List Delivery) (i : Nat) (d : Delivery) : Prop :=
  ∃ seen, seen ++ [d] <+: ds ∧ Creates fuel g₀ seen d i

theorem CreatedBy.later {more : List Delivery} {i : Nat} (h : CreatedBy fuel g₀ ds i d)
    (hp : ds <+: more) : CreatedBy fuel g₀ more i d := by
  obtain ⟨seen, hseen, hcreates⟩ := h
  exact ⟨seen, hseen.trans hp, hcreates⟩

/-- What holds of each record and its packet when the record is stored holds of them at the end. -/
theorem capture_created {P : PacketInfo → Packet → Prop}
    (hstored : ∀ seen d u v, seen ++ [d] <+: ds → capturePackets fuel g₀ seen = some u →
      deliver fuel u d = some v → v.curPacketCount = u.curPacketCount + 1 →
      P (v.record u.curPacketCount) d.packet)
    (h : capturePackets fuel g₀ ds = some g) :
    ∀ i < g.curPacketCount, ∃ d, CreatedBy fuel g₀ ds i d ∧ P (g.record i) d.packet := by
  refine runOver_history (fun seen g => ∀ i < g.curPacketCount, ∃ d,
    CreatedBy fuel g₀ seen i d ∧ P (g.record i) d.packet) ?_ ?_ h
  · intro i hi
    exact absurd hi (Nat.not_lt_zero i)
  · intro seen d u v hp hu hrecords hd i hi
    have hv := capture_snoc hu hd
    have hstays := extends_deliver hd
    by_cases hlt : i < u.curPacketCount
    · obtain ⟨e, he, hholds⟩ := hrecords i hlt
      rw [hstays.record i hlt]
      exact ⟨e, he.later (List.prefix_append seen [d]), hholds⟩
    · have hcount : v.curPacketCount = u.curPacketCount + 1 := by
        have := deliver_count hd
        omega
      obtain rfl : i = u.curPacketCount := by omega
      refine ⟨d, ⟨seen, List.prefix_refl _, ?_, ?_⟩, hstored seen d u v hp hu hd hcount⟩
      · exact congrArg (Option.map Globals.curPacketCount) hu
      · rw [hv, Option.map_some, hcount]

theorem Creates.unique {seen' : List Delivery} {d' : Delivery} {i : Nat}
    (h : Creates fuel g₀ seen d i) (h' : Creates fuel g₀ seen' d' i) (hp : seen ++ [d] <+: ds)
    (hp' : seen' ++ [d'] <+: ds) : seen = seen' ∧ d = d' := by
  have hlater : ∀ {s s' : List Delivery} {e e' : Delivery}, Creates fuel g₀ s e i →
      Creates fuel g₀ s' e' i → ¬ s ++ [e] <+: s' := by
    rintro s s' e e' hs hs' ⟨more, rfl⟩
    obtain ⟨u, hu, hcur⟩ := Option.map_eq_some_iff.mp hs.after
    obtain ⟨v, hv, hcur'⟩ := Option.map_eq_some_iff.mp hs'.before
    have hle := (extends_run (capture_rest hu hv)).cur
    omega
  have hshort : ∀ {s s' : List Delivery} {e e' : Delivery}, s ++ [e] <+: ds → s' ++ [e'] <+: ds →
      ¬ s ++ [e] <+: s' → s'.length ≤ s.length := by
    intro s s' e e' hs hs' hnot
    by_contra hlt
    refine hnot (List.prefix_of_prefix_length_le hs ((List.prefix_append s' [e']).trans hs') ?_)
    rw [List.length_append, List.length_singleton]
    omega
  have hlen : seen.length = seen'.length :=
    Nat.le_antisymm (hshort hp' hp (hlater h' h)) (hshort hp hp' (hlater h h'))
  have heq : seen ++ [d] = seen' ++ [d'] := by
    rw [List.prefix_iff_eq_take.mp hp, List.prefix_iff_eq_take.mp hp', List.length_append,
      List.length_append, hlen]
    rfl
  obtain ⟨hseen, hd⟩ := List.append_inj heq hlen
  exact ⟨hseen, List.singleton_inj.mp hd⟩

theorem CreatedBy.unique {d' : Delivery} {i : Nat} (h : CreatedBy fuel g₀ ds i d)
    (h' : CreatedBy fuel g₀ ds i d') : d = d' := by
  obtain ⟨seen, hp, hcreates⟩ := h
  obtain ⟨seen', hp', hcreates'⟩ := h'
  exact (hcreates.unique hcreates' hp hp').2

theorem Represents.stored_last {D : PacketInfo → Packet → Prop} {l : CaptureLog} {p : Packet}
    (hu : Represents D u l) (hv : Represents D v (l.offer p))
    (hcount : v.curPacketCount = u.curPacketCount + 1) : D (v.record u.curPacketCount) p := by
  have hlen : (l.offer p).kept.length = l.kept.length + 1 := by rw [← hv.cur, hcount, hu.cur]
  have hkept : (l.offer p).kept = l.kept ++ [p] := by
    by_cases hroom : l.kept.length < maxPacketInfoCount
    · by_cases hnew : l.Known p
      · rw [Log.offer_known hroom hnew] at hlen
        exact absurd hlen.symm (Nat.succ_ne_self _)
      · rw [Log.offer_new hroom hnew]
        rfl
    · rw [Log.offer_full hroom] at hlen
      exact absurd hlen.symm (Nat.succ_ne_self _)
  have hi : u.curPacketCount < (l.offer p).kept.length := by
    rw [hlen, hu.cur]
    exact Nat.lt_succ_self _
  have hlast : (l.offer p).kept[u.curPacketCount] = p := by
    simp only [hkept, hu.cur, List.getElem_concat_length]
  have hrecord := hv.record _ hi
  rwa [hlast] at hrecord

end capture

end NetworkAnalyser.Server
