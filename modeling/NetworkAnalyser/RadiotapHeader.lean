import NetworkAnalyser.RadiotapLayout

/-! What `ieee80211_radiotap_iterator_init` accepts, where the arguments of an accepted header
start, and the iterator it leaves behind when it rejects one. -/
namespace NetworkAnalyser.Server
open NetworkAnalyser.Exec

def Extended (pkt : Packet) (addr : Nat) : Prop := pkt.le32 addr &&& presentExtendMask ≠ 0

instance (pkt : Packet) (addr : Nat) : Decidable (Extended pkt addr) :=
  inferInstanceAs (Decidable (_ ≠ _))

/-- The presence words from `addr` on end with word number `k`, and the ones before it end
within the stated length. -/
structure BitmapsEnd (pkt : Packet) (addr maxLength k : Nat) : Prop where
  more : ∀ j < k, Extended pkt (addr + 4 * j)
  last : ¬ Extended pkt (addr + 4 * k)
  within : k = 0 ∨ addr + 4 * k ≤ maxLength

def itLen (pkt : Packet) : Nat := pkt.le16 2
def itPresent (pkt : Packet) : Nat := pkt.le32 4

def ArgsStart (pkt : Packet) (start : Nat) : Prop :=
  (¬ Extended pkt 4 ∧ start = 8) ∨
    (Extended pkt 4 ∧ ∃ k, BitmapsEnd pkt 8 (itLen pkt) k ∧ start = 12 + 4 * k)

theorem ArgsStart.le {pkt : Packet} {start : Nat} (h : ArgsStart pkt start) : 8 ≤ start := by
  cases h with
  | inl h => exact h.2.ge
  | inr h =>
    obtain ⟨_, k, _, rfl⟩ := h
    omega

theorem BitmapsEnd.unique {pkt : Packet} {addr maxLength k l : Nat}
    (hk : BitmapsEnd pkt addr maxLength k) (hl : BitmapsEnd pkt addr maxLength l) : k = l := by
  by_contra hne
  cases Nat.lt_or_gt_of_ne hne with
  | inl h => exact hk.last (hl.more k h)
  | inr h => exact hl.last (hk.more l h)

theorem ArgsStart.unique {pkt : Packet} {a b : Nat} (ha : ArgsStart pkt a)
    (hb : ArgsStart pkt b) : a = b := by
  cases ha with
  | inl ha =>
    cases hb with
    | inl hb => exact ha.2.trans hb.2.symm
    | inr hb => exact absurd hb.1 ha.1
  | inr ha =>
    cases hb with
    | inl hb => exact absurd ha.1 hb.1
    | inr hb =>
      obtain ⟨_, k, hk, rfl⟩ := ha
      obtain ⟨_, l, hl, rfl⟩ := hb
      rw [hk.unique hl]

theorem skipBitmaps_last {pkt : Packet} {it : RadiotapIterator} (w : World)
    (h : ¬ Extended pkt it.arg) : skipBitmaps pkt it w =
      (.done (0, it.moveArg (it.arg + 4)),
        w.read [it.arg, it.arg + 1, it.arg + 2, it.arg + 3]) := by
  unfold Extended at h
  rw [skipBitmaps, bind_done (readLe32_apply w pkt it.arg), if_neg h]
  rfl

theorem skipBitmaps_over {pkt : Packet} {it : RadiotapIterator} (w : World)
    (h : Extended pkt it.arg) (hover : it.arg + 4 - it.rtheader > it.maxLength) :
    skipBitmaps pkt it w = (.done (-EINVAL, it.moveArg (it.arg + 4)),
      w.read [it.arg, it.arg + 1, it.arg + 2, it.arg + 3]) := by
  unfold Extended at h
  rw [skipBitmaps, bind_done (readLe32_apply w pkt it.arg), if_pos h, if_pos hover]
  rfl

theorem skipBitmaps_more {pkt : Packet} {it : RadiotapIterator} (w : World)
    (h : Extended pkt it.arg) (hin : ¬ it.arg + 4 - it.rtheader > it.maxLength) :
    skipBitmaps pkt it w = skipBitmaps pkt (it.moveArg (it.arg + 4))
      (w.read [it.arg, it.arg + 1, it.arg + 2, it.arg + 3]) := by
  unfold Extended at h
  rw [skipBitmaps, bind_done (readLe32_apply w pkt it.arg), if_pos h, if_neg hin]

theorem bitmapsEnd_succ_iff {pkt : Packet} {addr maxLength k : Nat} (hext : Extended pkt addr)
    (hin : addr + 4 ≤ maxLength) :
    BitmapsEnd pkt addr maxLength (k + 1) ↔ BitmapsEnd pkt (addr + 4) maxLength k := by
  have haddr : ∀ j, addr + 4 * (j + 1) = addr + 4 + 4 * j := fun j => by omega
  constructor
  · intro h
    refine ⟨fun j hj => haddr j ▸ h.more (j + 1) (by omega), haddr k ▸ h.last, Or.inr ?_⟩
    cases h.within with
    | inl h => omega
    | inr h => omega
  · intro h
    refine ⟨fun j hj => ?_, (haddr k).symm ▸ h.last, Or.inr ?_⟩
    · cases j with
      | zero => exact hext
      | succ j => exact (haddr j).symm ▸ h.more j (by omega)
    · cases h.within with
      | inl h => omega
      | inr h => omega

theorem skipBitmaps_cases (pkt : Packet) (it : RadiotapIterator) (w : World)
    (hhdr : it.rtheader = 0) :
    (∃ k addrs, BitmapsEnd pkt it.arg it.maxLength k ∧
      (∀ a, a ∈ addrs ↔ it.arg ≤ a ∧ a < it.arg + 4 * k + 4) ∧
      skipBitmaps pkt it w = (.done (0, it.moveArg (it.arg + 4 * k + 4)), w.read addrs)) ∨
    (∃ arg addrs, it.maxLength < arg ∧ (∀ k, ¬ BitmapsEnd pkt it.arg it.maxLength k) ∧
      skipBitmaps pkt it w = (.done (-EINVAL, it.moveArg arg), w.read addrs)) := by
  induction hm : it.maxLength + 1 - it.arg using Nat.strong_induction_on generalizing it w with
  | _ m ih =>
    by_cases hext : Extended pkt it.arg
    · by_cases hover : it.arg + 4 > it.maxLength
      · refine Or.inr ⟨it.arg + 4, _, hover, fun k hk => ?_,
          skipBitmaps_over w hext (by rw [hhdr]; exact hover)⟩
        cases k with
        | zero => exact hk.last hext
        | succ k =>
          cases hk.within with
          | inl h => omega
          | inr h => omega
      · rw [skipBitmaps_more w hext (by rw [hhdr]; exact hover)]
        have hend : ∀ k, BitmapsEnd pkt it.arg it.maxLength (k + 1) ↔
            BitmapsEnd pkt (it.arg + 4) it.maxLength k := fun k =>
          bitmapsEnd_succ_iff hext (by omega)
        have hrec := ih (it.maxLength + 1 - (it.arg + 4)) (by omega) (it.moveArg (it.arg + 4))
          (w.read [it.arg, it.arg + 1, it.arg + 2, it.arg + 3]) hhdr rfl
        cases hrec with
        | inl hrec =>
          obtain ⟨k, addrs, hk, haddrs, heq⟩ := hrec
          refine Or.inl ⟨k + 1, addrs ++ [it.arg, it.arg + 1, it.arg + 2, it.arg + 3],
            (hend k).mpr hk, fun a => ?_, ?_⟩
          · simp only [List.mem_append, haddrs, RadiotapIterator.moveArg, List.mem_cons,
              List.not_mem_nil, or_false]
            omega
          · rw [heq]
            have : it.arg + 4 + 4 * k + 4 = it.arg + 4 * (k + 1) + 4 := by omega
            simp [World.read, RadiotapIterator.moveArg, this]
        | inr hrec =>
          obtain ⟨arg, addrs, harg, hnone, heq⟩ := hrec
          refine Or.inr ⟨arg, addrs ++ [it.arg, it.arg + 1, it.arg + 2, it.arg + 3], harg,
            fun k hk => ?_, by rw [heq]; simp [World.read, RadiotapIterator.moveArg]⟩
          cases k with
          | zero => exact hk.last hext
          | succ k => exact hnone k ((hend k).mp hk)
    · exact Or.inl ⟨0, _, ⟨fun j hj => absurd hj (Nat.not_lt_zero j), hext, Or.inl rfl⟩,
        fun a => by simp only [List.mem_cons, List.not_mem_nil, or_false]; omega,
        skipBitmaps_last w hext⟩

def headerIterator (pkt : Packet) (stack : RadiotapIterator) (arg : Nat) : RadiotapIterator :=
  { stack with
    rtheader := 0, maxLength := itLen pkt, argIndex := 0, bitmapShifter := itPresent pkt,
    arg := arg, thisArg := 0 }

/-- The header passes every check of the initialisation. -/
structure Accepts (pkt : Packet) (maxLength : Int) (start : Nat) : Prop where
  version : pkt.byte 0 = 0
  length : (itLen pkt : Int) ≤ maxLength
  start : ArgsStart pkt start

def World.readHeader (w : World) : World := ((w.read [0]).read [2, 3]).read [4, 5, 6, 7]

def headerReads : List Nat := [4, 5, 6, 7] ++ [2, 3] ++ [0]

theorem readHeader_eq (w : World) : w.readHeader = w.read headerReads := by
  rw [World.readHeader, read_read, read_read, headerReads]

theorem mem_headerReads (a : Nat) : a ∈ headerReads ↔ a = 0 ∨ (2 ≤ a ∧ a < 8) := by
  simp only [headerReads, List.mem_append, List.mem_cons, List.not_mem_nil, or_false]
  omega

section
variable {pkt : Packet} {maxLength : Int} (hver : pkt.byte 0 = 0)
  (hlen : (itLen pkt : Int) ≤ maxLength) (stack : RadiotapIterator) (w : World)
include hver hlen

theorem init_single (hext : ¬ Extended pkt 4) :
    ieee80211RadiotapIteratorInit pkt stack maxLength w =
      (.done (0, headerIterator pkt stack 8), w.readHeader) := by
  unfold Extended at hext
  unfold itLen at hlen
  rw [ieee80211RadiotapIteratorInit, bind_done (read8_apply w pkt 0), if_neg (by simpa using hver),
    bind_done (readLe16_apply _ pkt 2), if_neg (Int.not_lt.mpr hlen),
    bind_done (readLe32_apply _ pkt 4), if_neg hext]
  rfl

theorem init_extended (hext : Extended pkt 4) :
    ieee80211RadiotapIteratorInit pkt stack maxLength w =
      skipBitmaps pkt (headerIterator pkt stack 8) w.readHeader := by
  unfold Extended at hext
  unfold itLen at hlen
  rw [ieee80211RadiotapIteratorInit, bind_done (read8_apply w pkt 0), if_neg (by simpa using hver),
    bind_done (readLe16_apply _ pkt 2), if_neg (Int.not_lt.mpr hlen),
    bind_done (readLe32_apply _ pkt 4), if_pos hext]
  rfl

end

theorem init_accepts {pkt : Packet} {maxLength : Int} {start : Nat}
    (h : Accepts pkt maxLength start) (stack : RadiotapIterator) (w : World) :
    ∃ addrs, (∀ a, a ∈ addrs ↔ a = 0 ∨ (2 ≤ a ∧ a < start)) ∧
      ieee80211RadiotapIteratorInit pkt stack maxLength w =
        (.done (0, headerIterator pkt stack start), w.read addrs) := by
  obtain ⟨hver, hlen, hstart⟩ := h
  cases hstart with
  | inl hs =>
    obtain ⟨hext, rfl⟩ := hs
    refine ⟨headerReads, mem_headerReads, ?_⟩
    rw [init_single hver hlen stack w hext, readHeader_eq]
  | inr hs =>
    obtain ⟨hext, k, hk, rfl⟩ := hs
    cases skipBitmaps_cases pkt (headerIterator pkt stack 8) w.readHeader rfl with
    | inl hc =>
      obtain ⟨l, addrs, hl, haddrs, heq⟩ := hc
      obtain rfl : k = l := hk.unique hl
      refine ⟨addrs ++ headerReads, fun a => ?_, ?_⟩
      · rw [List.mem_append, haddrs, mem_headerReads]
        simp only [headerIterator]
        omega
      · have hstart : 12 + 4 * k = 8 + 4 * k + 4 := by omega
        rw [init_extended hver hlen stack w hext, heq, readHeader_eq, read_read, hstart]
        rfl
    | inr hc =>
      obtain ⟨_, _, _, hnone, _⟩ := hc
      exact absurd hk (hnone k)

/-- A header that is not accepted: the iterator is left as it was found, or it points past the
stated length. -/
theorem init_rejects {pkt : Packet} {maxLength : Int}
    (h : ∀ start, ¬ Accepts pkt maxLength start) (stack : RadiotapIterator) (w : World) :
    ∃ it addrs, ieee80211RadiotapIteratorInit pkt stack maxLength w =
        (.done (-EINVAL, it), w.read addrs) ∧
      ((¬ (pkt.byte 0 = 0 ∧ (itLen pkt : Int) ≤ maxLength) ∧ it = stack) ∨
        (pkt.byte 0 = 0 ∧ (itLen pkt : Int) ≤ maxLength ∧
          ∃ arg, itLen pkt < arg ∧ it = headerIterator pkt stack arg)) := by
  by_cases hver : pkt.byte 0 = 0
  · by_cases hlen : (itLen pkt : Int) ≤ maxLength
    · have hext : Extended pkt 4 := by
        by_contra hext
        exact h 8 ⟨hver, hlen, Or.inl ⟨hext, rfl⟩⟩
      rw [init_extended hver hlen stack w hext]
      cases skipBitmaps_cases pkt (headerIterator pkt stack 8) w.readHeader rfl with
      | inl hc =>
        obtain ⟨k, _, hk, _⟩ := hc
        exact absurd ⟨hver, hlen, Or.inr ⟨hext, k, hk, rfl⟩⟩ (h (12 + 4 * k))
      | inr hc =>
        obtain ⟨arg, addrs, harg, _, heq⟩ := hc
        refine ⟨headerIterator pkt stack arg, addrs ++ headerReads, ?_,
          Or.inr ⟨hver, hlen, arg, harg, rfl⟩⟩
        rw [heq, readHeader_eq, read_read]
        rfl
    · refine ⟨stack, [2, 3] ++ [0], ?_, Or.inl ⟨fun h => hlen h.2, rfl⟩⟩
      unfold itLen at hlen
      rw [ieee80211RadiotapIteratorInit, bind_done (read8_apply w pkt 0),
        if_neg (by simpa using hver), bind_done (readLe16_apply _ pkt 2),
        if_pos (Int.not_le.mp hlen)]
      simp [World.read]
  · refine ⟨stack, [0], ?_, Or.inl ⟨fun h => hver h.1, rfl⟩⟩
    rw [ieee80211RadiotapIteratorInit, bind_done (read8_apply w pkt 0), if_pos hver]
    rfl

end NetworkAnalyser.Server
