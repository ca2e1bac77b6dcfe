import NetworkAnalyser.RadiotapHeader

/-! When `parseRadioTap` returns, with how many calls of the iterator, and when its loop goes
on for ever. -/
namespace NetworkAnalyser.Server
open NetworkAnalyser.Exec

theorem parseRadioTap_of_init {pkt : Packet} {maxLength : Int} {stack it : RadiotapIterator}
    {ret : Int} {w w' : World}
    (h : ieee80211RadiotapIteratorInit pkt stack maxLength w = (.done (ret, it), w'))
    (fuel : Nat) : parseRadioTap fuel pkt stack maxLength w =
      Code.loop (parseRadioTapBody pkt) fuel (ret, it) w' := by
  rw [parseRadioTap, bind_done h]

theorem parseRadioTap_mono {fuel : Nat} {pkt : Packet} {stack : RadiotapIterator}
    {maxLength ret : Int} {w u : World} (more : Nat)
    (h : parseRadioTap fuel pkt stack maxLength w = (.done ret, u)) :
    parseRadioTap (fuel + more) pkt stack maxLength w = (.done ret, u) := by
  obtain ⟨b, v, hinit, hloop⟩ := bind_eq_done h
  rw [parseRadioTap_of_init hinit]
  exact loop_mono more hloop

theorem parseRadioTap_unique {m n : Nat} {pkt : Packet} {stack : RadiotapIterator}
    {maxLength ret ret' : Int} {w u u' : World}
    (hm : parseRadioTap m pkt stack maxLength w = (.done ret, u))
    (hn : parseRadioTap n pkt stack maxLength w = (.done ret', u')) : ret = ret' ∧ u = u' := by
  obtain ⟨b, v, hinit, hloop⟩ := bind_eq_done hm
  rw [parseRadioTap_of_init hinit] at hn
  exact loop_unique hloop hn

theorem parseRadioTap_fits {pkt : Packet} {maxLength : Int} {start : Nat}
    (h : Accepts pkt maxLength start) (hfit : Fits (itLen pkt) (fieldsOf (itPresent pkt) start))
    (stack : RadiotapIterator) (w : World) :
    ∃ addrs, (∀ a, a ∈ addrs ↔ a = 0 ∨ (2 ≤ a ∧ a < start)) ∧
      parseRadioTap ((fieldsOf (itPresent pkt) start).length + 1) pkt stack maxLength w =
        (.done 0, { (w.read addrs).takeFields pkt (fieldsOf (itPresent pkt) start) with
          nextCalls := w.nextCalls + (fieldsOf (itPresent pkt) start).length + 1 }) := by
  obtain ⟨addrs, haddrs, hinit⟩ := init_accepts h stack w
  refine ⟨addrs, haddrs, (parseRadioTap_of_init hinit _).trans ?_⟩
  exact loop_fits pkt 14 0 (headerIterator pkt stack start) (w.read addrs) rfl
    (Nat.le_refl 14) (by decide) hfit

theorem init_own_header {pkt : Packet} {maxLength : Int} (hver : pkt.byte 0 = 0)
    (hlen : (itLen pkt : Int) ≤ maxLength) (stack : RadiotapIterator) (w : World) :
    ∃ ret arg addrs, ret ≠ -1 ∧ (ArgsStart pkt arg ∨ itLen pkt < arg) ∧
      ieee80211RadiotapIteratorInit pkt stack maxLength w =
        (.done (ret, headerIterator pkt stack arg), w.read addrs) := by
  by_cases hacc : ∃ start, Accepts pkt maxLength start
  · obtain ⟨start, hacc⟩ := hacc
    obtain ⟨addrs, _, hinit⟩ := init_accepts hacc stack w
    exact ⟨0, start, addrs, by decide, Or.inl hacc.start, hinit⟩
  · obtain ⟨it, addrs, hinit, hcases⟩ := init_rejects (not_exists.mp hacc) stack w
    cases hcases with
    | inl hc => exact absurd ⟨hver, hlen⟩ hc.1
    | inr hc =>
      obtain ⟨_, _, arg, harg, rfl⟩ := hc
      exact ⟨-EINVAL, arg, addrs, by decide, Or.inr harg, hinit⟩

theorem loop_no_fields {pkt : Packet} (hnone : ∀ j < 14, (itPresent pkt).testBit j = false)
    {ret : Int} (hret : ret ≠ -1) (stack : RadiotapIterator) (arg : Nat) (w : World) :
    Code.loop (parseRadioTapBody pkt) 1 (ret, headerIterator pkt stack arg) w =
      (.done 0, { w with nextCalls := w.nextCalls + 1 }) := by
  have hnil := (fieldsOf_eq_nil_iff (itPresent pkt) arg).mpr hnone
  have hfields : (headerIterator pkt stack arg).fields 14 = [] := hnil
  have hloop := loop_fits pkt 14 ret (headerIterator pkt stack arg) w rfl (Nat.le_refl 14) hret
  rw [hfields] at hloop
  exact hloop (by simp [Fits])

theorem no_fields_past {maxLength present arg : Nat} (h : maxLength < arg)
    (hfit : Fits maxLength (fieldsOf present arg)) : ∀ j < 14, present.testBit j = false := by
  refine (fieldsOf_eq_nil_iff _ arg).mp (List.eq_nil_iff_forall_not_mem.mpr fun f hf => ?_)
  have hle := layout_offset_le 14 0 present arg f hf
  have := hfit f hf
  omega

theorem loop_header_diverges {pkt : Packet} {arg : Nat} {ret : Int} (hret : ret ≠ -1)
    (hfit : ¬ Fits (itLen pkt) (fieldsOf (itPresent pkt) arg)) (stack : RadiotapIterator)
    (w : World) (fuel : Nat) :
    ∃ w', Code.loop (parseRadioTapBody pkt) fuel (ret, headerIterator pkt stack arg) w =
      (.running, w') :=
  loop_not_fits pkt 14 ret (headerIterator pkt stack arg) w rfl hret hfit fuel

/-- A stack slot that looks like an iterator past the end of its header. -/
def staleIterator : RadiotapIterator :=
  { rtheader := 0, maxLength := 0, thisArgIndex := 0, thisArg := 0, argIndex := 0, arg := 8,
    nextBitmap := 0, bitmapShifter := 1 }

theorem staleIterator_overrun : Overrun (-EINVAL, staleIterator) := by
  unfold Overrun
  decide

/-- A header whose version or length is refused is walked over all the same, with the iterator
the stack happens to hold. -/
theorem parseRadioTap_refused {pkt : Packet} {maxLength : Int}
    (h : ¬ (pkt.byte 0 = 0 ∧ (itLen pkt : Int) ≤ maxLength)) (w : World) (fuel : Nat) :
    ∃ w', parseRadioTap fuel pkt staleIterator maxLength w = (.running, w') := by
  obtain ⟨it, addrs, hinit, hcases⟩ := init_rejects
    (fun start ha => h ⟨ha.version, ha.length⟩) staleIterator w
  obtain rfl : it = staleIterator := by
    cases hcases with
    | inl hc => exact hc.2
    | inr hc => exact absurd ⟨hc.1, hc.2.1⟩ h
  rw [parseRadioTap, bind_done hinit]
  exact overrun_diverges pkt _ staleIterator_overrun fuel

/-- Whatever the stack and the world hold, the loop leaves, and the iterator has been called at
most once more than there are argument types. -/
def ParseTerminates (pkt : Packet) (maxLength : Int) : Prop :=
  ∀ stack w, ∃ fuel ret w', parseRadioTap fuel pkt stack maxLength w = (.done ret, w') ∧
    w'.nextCalls ≤ w.nextCalls + (rtSizes.length + 1)

/-- Version 0, a permitted length, and no argument the walk visits past that length. -/
structure HeaderFits (pkt : Packet) (maxLength : Int) : Prop where
  version : pkt.byte 0 = 0
  length : (itLen pkt : Int) ≤ maxLength
  fields : (∀ j < 14, (itPresent pkt).testBit j = false) ∨
    ∃ start, ArgsStart pkt start ∧ Fits (itLen pkt) (fieldsOf (itPresent pkt) start)

theorem HeaderFits.terminates {pkt : Packet} {maxLength : Int} (h : HeaderFits pkt maxLength) :
    ParseTerminates pkt maxLength := by
  intro stack w
  obtain ⟨hver, hlen, hfields⟩ := h
  cases hfields with
  | inl hnone =>
    obtain ⟨ret, arg, addrs, hret, _, hinit⟩ := init_own_header hver hlen stack w
    refine ⟨1, 0, _, (parseRadioTap_of_init hinit 1).trans
      (loop_no_fields hnone hret stack arg _), ?_⟩
    simp only [read_nextCalls]
    omega
  | inr hfit =>
    obtain ⟨start, hstart, hfit⟩ := hfit
    obtain ⟨addrs, _, hparse⟩ := parseRadioTap_fits ⟨hver, hlen, hstart⟩ hfit stack w
    refine ⟨_, _, _, hparse, ?_⟩
    have := layout_length_le 14 0 (itPresent pkt) start
    rw [rtSizes_length]
    simp only [fieldsOf]
    omega

theorem HeaderFits.of_terminates {pkt : Packet} {maxLength : Int}
    (h : ParseTerminates pkt maxLength) : HeaderFits pkt maxLength := by
  obtain ⟨fuel, ret, w', hdone, _⟩ := h staleIterator (World.start Globals.initial)
  have hhdr : pkt.byte 0 = 0 ∧ (itLen pkt : Int) ≤ maxLength := by
    by_contra hbad
    obtain ⟨w'', hrun⟩ := parseRadioTap_refused hbad (World.start Globals.initial) fuel
    simp [hdone] at hrun
  refine ⟨hhdr.1, hhdr.2, ?_⟩
  obtain ⟨ret', arg, addrs, hret, harg, hinit⟩ :=
    init_own_header hhdr.1 hhdr.2 staleIterator (World.start Globals.initial)
  have hfit : Fits (itLen pkt) (fieldsOf (itPresent pkt) arg) := by
    by_contra hfit
    obtain ⟨w'', hrun⟩ := loop_header_diverges hret hfit staleIterator
      ((World.start Globals.initial).read addrs) fuel
    rw [parseRadioTap_of_init hinit, hrun] at hdone
    simp at hdone
  cases harg with
  | inl hstart => exact Or.inr ⟨arg, hstart, hfit⟩
  | inr hover => exact Or.inl (no_fields_past hover hfit)

/-- The parser returns, within a fixed number of iterator calls, on exactly the packets whose
header keeps its arguments within its own length. -/
theorem parseRadioTap_terminates_iff (pkt : Packet) (maxLength : Int) :
    ParseTerminates pkt maxLength ↔ HeaderFits pkt maxLength :=
  ⟨HeaderFits.of_terminates, HeaderFits.terminates⟩

/-- A captured beacon whose 8-byte header announces the 8-byte TSFT argument. -/
def tsftWithoutRoom : Packet :=
  .ofBytes ([0, 0, 8, 0, 1, 0, 0, 0] ++ List.replicate 10 0 ++ 0x80 :: List.replicate 38 0)

theorem tsftWithoutRoom_never_returns : ¬ ParseTerminates tsftWithoutRoom bufsiz := by
  intro h
  cases (HeaderFits.of_terminates h).fields with
  | inl hnone => exact absurd (hnone 0 (by decide)) (by decide)
  | inr hfit =>
    obtain ⟨start, hstart, hfit⟩ := hfit
    have hext : ¬ Extended tsftWithoutRoom 4 := by decide
    obtain rfl : start = 8 := hstart.unique (.inl ⟨hext, rfl⟩)
    revert hfit
    decide

end NetworkAnalyser.Server
