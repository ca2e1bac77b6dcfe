import NetworkAnalyser.ParseTermination

/-! Which bytes the radiotap parser reads: of the header, of the arguments that fit, and while
it goes on for ever past the stated length. -/
namespace NetworkAnalyser.Server
open NetworkAnalyser.Exec

/-- The end of the last presence word looked at, from the one at `addr` on. -/
def wordsEndFrom (pkt : Packet) (limit addr : Nat) : Nat :=
  if Extended pkt addr ∧ addr + 4 ≤ limit then wordsEndFrom pkt limit (addr + 4) else addr + 4
termination_by limit + 1 - addr

def wordsEnd (pkt : Packet) : Nat :=
  if Extended pkt 4 then wordsEndFrom pkt (itLen pkt) 8 else 8

theorem wordsEndFrom_ge (pkt : Packet) (limit addr : Nat) :
    addr + 4 ≤ wordsEndFrom pkt limit addr := by
  induction addr using wordsEndFrom.induct pkt limit with
  | case1 addr hmore ih =>
    rw [wordsEndFrom, if_pos hmore]
    omega
  | case2 addr hlast => rw [wordsEndFrom, if_neg hlast]

theorem wordsEnd_ge (pkt : Packet) : 8 ≤ wordsEnd pkt := by
  have := wordsEndFrom_ge pkt (itLen pkt) 8
  unfold wordsEnd
  split <;> omega

theorem skipBitmaps_reads (pkt : Packet) (limit addr : Nat) (it : RadiotapIterator) (w : World)
    (hhdr : it.rtheader = 0) (hlimit : it.maxLength = limit) (haddr : it.arg = addr) :
    ∃ ret addrs, ret ≠ -1 ∧
      (∀ a, a ∈ addrs ↔ addr ≤ a ∧ a < wordsEndFrom pkt limit addr) ∧
      skipBitmaps pkt it w =
        (.done (ret, it.moveArg (wordsEndFrom pkt limit addr)), w.read addrs) := by
  induction addr using wordsEndFrom.induct pkt limit generalizing it w with
  | case1 addr hmore ih =>
    have hext : Extended pkt it.arg := haddr ▸ hmore.1
    obtain ⟨ret, addrs, hret, haddrs, heq⟩ := ih (it.moveArg (addr + 4))
      (w.read [addr, addr + 1, addr + 2, addr + 3]) hhdr hlimit rfl
    have hle := wordsEndFrom_ge pkt limit (addr + 4)
    rw [wordsEndFrom, if_pos hmore]
    refine ⟨ret, addrs ++ [addr, addr + 1, addr + 2, addr + 3], hret, fun a => ?_, ?_⟩
    · simp only [List.mem_append, haddrs, List.mem_cons, List.not_mem_nil, or_false]
      omega
    · rw [skipBitmaps_more w hext (by rw [hhdr, hlimit, haddr]; omega), haddr, heq]
      simp [World.read, RadiotapIterator.moveArg]
  | case2 addr hlast =>
    rw [wordsEndFrom, if_neg hlast]
    have haddrs : ∀ a, a ∈ [addr, addr + 1, addr + 2, addr + 3] ↔ addr ≤ a ∧ a < addr + 4 := by
      intro a
      simp only [List.mem_cons, List.not_mem_nil, or_false]
      omega
    subst haddr
    by_cases hext : Extended pkt it.arg
    · have hover : it.arg + 4 - it.rtheader > it.maxLength := by
        have := not_and.mp hlast hext
        rw [hhdr, hlimit]
        omega
      exact ⟨-EINVAL, _, by decide, haddrs, skipBitmaps_over w hext hover⟩
    · exact ⟨0, _, by decide, haddrs, skipBitmaps_last w hext⟩

theorem init_reads {pkt : Packet} {maxLength : Int} (hver : pkt.byte 0 = 0)
    (hlen : (itLen pkt : Int) ≤ maxLength) (stack : RadiotapIterator) (w : World) :
    ∃ ret addrs, ret ≠ -1 ∧ (∀ a, a ∈ addrs ↔ a = 0 ∨ (2 ≤ a ∧ a < wordsEnd pkt)) ∧
      ieee80211RadiotapIteratorInit pkt stack maxLength w =
        (.done (ret, headerIterator pkt stack (wordsEnd pkt)), w.read addrs) := by
  by_cases hext : Extended pkt 4
  · obtain ⟨ret, addrs, hret, haddrs, heq⟩ := skipBitmaps_reads pkt (itLen pkt) 8
      (headerIterator pkt stack 8) w.readHeader rfl rfl rfl
    have hle := wordsEndFrom_ge pkt (itLen pkt) 8
    rw [wordsEnd, if_pos hext]
    refine ⟨ret, addrs ++ headerReads, hret, fun a => ?_, ?_⟩
    · rw [List.mem_append, haddrs, mem_headerReads]
      omega
    · rw [init_extended hver hlen stack w hext, heq, readHeader_eq, read_read]
      rfl
  · rw [wordsEnd, if_neg hext]
    refine ⟨0, headerReads, by decide, mem_headerReads, ?_⟩
    rw [init_single hver hlen stack w hext, readHeader_eq]

theorem adjustIndex_of_align_one {i : Nat} (h : rtAlign i = 1) (off : Nat) :
    adjustIndex i off = i := by
  simp [adjustIndex, rtSkew, h]

theorem adjustIndex_of_align_two {i : Nat} (h : rtAlign i = 2) (off : Nat) :
    adjustIndex i off = i + off % 2 := by
  have hskew : rtSkew i off = off % 2 := by rw [rtSkew, h, Nat.and_one_is_mod]
  rw [adjustIndex, hskew, h]
  split <;> omega

theorem adjustIndex_tsft (off : Nat) :
    adjustIndex 0 off = if off % 8 = 0 then 0 else 8 - off % 8 := by
  have hskew : rtSkew 0 off = off % 8 := Nat.and_two_pow_sub_one_eq_mod off 3
  have halign : rtAlign 0 = 8 := rfl
  rw [adjustIndex, hskew, halign]
  by_cases h : off % 8 = 0
  · simp [h]
  · rw [if_pos h, if_neg h, Nat.zero_add]

def nextField (f : Field) : Field :=
  (adjustIndex f.1 (f.2 + rtLength f.1), f.2 + rtLength f.1)

/-- From here on nothing is read. -/
def Quiet (f : Field) : Prop :=
  (f.1 = 0 ∧ f.2 % 8 = 0) ∨ f.1 ∈ [1, 6, 7, 8, 9, 10, 12, 13] ∨ (f.1 = 4 ∧ f.2 % 2 = 0)

/-- From here on every argument met is read. -/
def Steady (f : Field) : Prop := f.1 ∈ [2, 5, 11] ∨ (f.1 = 3 ∧ f.2 % 2 = 0)

instance (f : Field) : Decidable (Quiet f) := inferInstanceAs (Decidable (_ ∨ _))

theorem Quiet.index_mem {f : Field} (h : Quiet f) : f.1 ∈ [0, 1, 4, 6, 7, 8, 9, 10, 12, 13] := by
  rcases h with ⟨h, _⟩ | h | ⟨h, _⟩
  · rw [h]
    decide
  · have hsub : [1, 6, 7, 8, 9, 10, 12, 13] ⊆ [0, 1, 4, 6, 7, 8, 9, 10, 12, 13] := by decide
    exact hsub h
  · rw [h]
    decide

theorem Quiet.reads {f : Field} (h : Quiet f) : fieldReads f = [] := by
  have htable : ∀ i ∈ [0, 1, 4, 6, 7, 8, 9, 10, 12, 13], i ≠ radiotapChannel ∧
      ¬ (i = radiotapRate ∨ i = radiotapAntenna ∨ i = radiotapDbmAntsignal) := by
    decide
  obtain ⟨hchannel, hother⟩ := htable f.1 h.index_mem
  rw [fieldReads, if_neg hchannel, if_neg hother]

theorem Quiet.next {f : Field} (h : Quiet f) : Quiet (nextField f) := by
  obtain ⟨i, off⟩ := f
  have hmk : nextField (i, off) = (adjustIndex i (off + rtLength i), off + rtLength i) := rfl
  rcases h with ⟨hi, hoff⟩ | hi | ⟨hi, hoff⟩
  · obtain rfl : i = 0 := hi
    have hlen : rtLength 0 = 8 := by decide
    have hnext : (off + 8) % 8 = 0 := by simp only at hoff; omega
    rw [hmk, hlen, adjustIndex_tsft, if_pos hnext]
    exact Or.inl ⟨rfl, hnext⟩
  · rw [hmk]
    refine Or.inr (Or.inl ?_)
    by_cases halign : rtAlign i = 1
    · rw [adjustIndex_of_align_one halign]
      exact hi
    · have htable : ∀ i ∈ [1, 6, 7, 8, 9, 10, 12, 13], rtAlign i ≠ 1 →
          (i = 7 ∨ i = 8 ∨ i = 9) ∧ rtAlign i = 2 := by
        decide
      obtain ⟨hrange, htwo⟩ := htable i hi halign
      have hparity := Nat.mod_two_eq_zero_or_one (off + rtLength i)
      rw [adjustIndex_of_align_two htwo]
      simp only [List.mem_cons, List.not_mem_nil, or_false]
      omega
  · obtain rfl : i = 4 := hi
    have hlen : rtLength 4 = 2 := by decide
    have hnext : (off + 2) % 2 = 0 := by simp only at hoff; omega
    rw [hmk, hlen, adjustIndex_of_align_two (by decide), hnext]
    exact Or.inr (Or.inr ⟨rfl, hnext⟩)

theorem Steady.next {f : Field} (h : Steady f) :
    f.2 ∈ fieldReads f ∧ f.2 < (nextField f).2 ∧ Steady (nextField f) := by
  obtain ⟨i, off⟩ := f
  have hmk : nextField (i, off) = (adjustIndex i (off + rtLength i), off + rtLength i) := rfl
  rcases h with hi | ⟨hi, hoff⟩
  · have htable : ∀ i ∈ [2, 5, 11], i ≠ radiotapChannel ∧
        (i = radiotapRate ∨ i = radiotapAntenna ∨ i = radiotapDbmAntsignal) ∧
        rtAlign i = 1 ∧ i < 14 := by
      decide
    obtain ⟨hchannel, hread, halign, hlt⟩ := htable i hi
    refine ⟨?_, Nat.lt_add_of_pos_right (rtLength_pos hlt), Or.inl ?_⟩
    · rw [fieldReads, if_neg hchannel, if_pos hread]
      exact List.mem_cons_self
    · rw [hmk, adjustIndex_of_align_one halign]
      exact hi
  · obtain rfl : i = 3 := hi
    have hlen : rtLength 3 = 4 := by decide
    have hnext : (off + 4) % 2 = 0 := by simp only at hoff; omega
    have halign : rtAlign 3 = 2 := by decide
    rw [hmk, hlen, adjustIndex_of_align_two halign, hnext]
    exact ⟨List.mem_cons_self, Nat.lt_add_of_pos_right (by decide), Or.inr ⟨rfl, hnext⟩⟩

theorem nextField_channel_odd {off : Nat} (h : off % 2 = 1) :
    nextField (3, off) = (4, off + 4) := by
  have hlen : rtLength 3 = 4 := by decide
  have halign : rtAlign 3 = 2 := by decide
  have hnext : (off + 4) % 2 = 1 := by omega
  rw [nextField, hlen, adjustIndex_of_align_two halign, hnext]

theorem nextField_fhss_odd {off : Nat} (h : off % 2 = 1) :
    nextField (4, off) = (5, off + 2) := by
  have hlen : rtLength 4 = 2 := by decide
  have halign : rtAlign 4 = 2 := by decide
  have hnext : (off + 2) % 2 = 1 := by omega
  rw [nextField, hlen, adjustIndex_of_align_two halign, hnext]

theorem steady_of_not_quiet {f : Field} (hlt : f.1 < 14) (htsft : f.1 = 0 → f.2 % 8 = 0)
    (h : ¬ Quiet f) :
    Steady f ∨ Steady (nextField f) ∨ Steady (nextField (nextField f)) := by
  obtain ⟨i, off⟩ := f
  have hsignal : ∀ o, Steady (5, o) := fun o => Or.inl (by decide : 5 ∈ [2, 5, 11])
  have htable : ∀ i < 14, i ∉ [1, 6, 7, 8, 9, 10, 12, 13] →
      i = 0 ∨ i ∈ [2, 5, 11] ∨ i = 3 ∨ i = 4 := by
    decide
  have hloud : i ∉ [1, 6, 7, 8, 9, 10, 12, 13] := fun hi => h (Or.inr (Or.inl hi))
  rcases htable i hlt hloud with rfl | hi | rfl | rfl
  · exact absurd (Or.inl ⟨rfl, htsft rfl⟩) h
  · exact Or.inl (Or.inl hi)
  · cases Nat.mod_two_eq_zero_or_one off with
    | inl heven => exact Or.inl (Or.inr ⟨rfl, heven⟩)
    | inr hodd =>
      refine Or.inr (Or.inr ?_)
      rw [nextField_channel_odd hodd, nextField_fhss_odd (by omega)]
      exact hsignal _
  · cases Nat.mod_two_eq_zero_or_one off with
    | inl heven => exact absurd (Or.inr (Or.inr ⟨rfl, heven⟩)) h
    | inr hodd =>
      refine Or.inr (Or.inl ?_)
      rw [nextField_fhss_odd hodd]
      exact hsignal _

theorem hit_field {it : RadiotapIterator} (h : it.rtheader = 0) :
    it.hit.field = nextField it.field := by
  simp [RadiotapIterator.field, RadiotapIterator.hit, RadiotapIterator.offset, nextField, h]

section overrun
variable {pkt : Packet} {b : Int × RadiotapIterator} (h : Overrun b) (hhdr : b.2.rtheader = 0)
include h hhdr

theorem quiet_loop (hquiet : Quiet b.2.field) (w : World) (fuel : Nat) :
    (Code.loop (parseRadioTapBody pkt) fuel b w).2.reads = w.reads := by
  induction fuel generalizing b w with
  | zero => rfl
  | succ fuel ih =>
    obtain ⟨hbody, hover⟩ := overrun_step pkt w h
    rw [loop_again hbody]
    have hnext : Quiet b.2.hit.field := by
      rw [hit_field hhdr]
      exact hquiet.next
    rw [ih hover hhdr hnext]
    change fieldReads b.2.field ++ w.reads = w.reads
    rw [hquiet.reads, List.nil_append]

theorem steady_loop (hsteady : Steady b.2.field) (w : World) (bound : Nat) :
    ∃ fuel, ∃ a ∈ (Code.loop (parseRadioTapBody pkt) fuel b w).2.reads, bound ≤ a := by
  induction hgap : bound - b.2.arg using Nat.strong_induction_on generalizing b w with
  | _ gap ih =>
    obtain ⟨hbody, hover⟩ := overrun_step pkt w h
    obtain ⟨hread, hgrow, hnext⟩ := hsteady.next
    rw [← hit_field hhdr] at hnext hgrow
    by_cases hfar : bound ≤ b.2.arg
    · refine ⟨1, b.2.arg, ?_, hfar⟩
      rw [loop_again hbody, loop_zero]
      exact List.mem_append_left _ hread
    · have hgrow' : b.2.arg < b.2.hit.arg := hgrow
      obtain ⟨fuel, a, ha, hle⟩ := ih (bound - b.2.hit.arg) (by omega)
        (b := (-EINVAL, b.2.hit)) hover hhdr hnext
        (w.takeField pkt b.2.field) rfl
      exact ⟨fuel + 1, a, by rw [loop_again hbody]; exact ha, hle⟩

theorem loud_loop (hloud : ¬ Quiet b.2.field) (w : World) (bound : Nat) :
    ∃ fuel, ∃ a ∈ (Code.loop (parseRadioTapBody pkt) fuel b w).2.reads, bound ≤ a := by
  have hfield : b.2.field.1 < 14 := (adjustIndex_le h.2.1 _).2
  have htsft : b.2.field.1 = 0 → b.2.field.2 % 8 = 0 := by
    intro hzero
    have hle := (adjustIndex_le h.2.1 b.2.offset).1
    have hidx : b.2.argIndex = 0 := Nat.le_zero.mp (hzero ▸ hle)
    have hoff : b.2.offset = b.2.arg := by rw [RadiotapIterator.offset, hhdr, Nat.sub_zero]
    rw [RadiotapIterator.field, hidx, hoff, adjustIndex_tsft] at hzero
    change (if b.2.arg % 8 = 0 then 0 else 8 - b.2.arg % 8) = 0 at hzero
    by_contra hskew
    change ¬ b.2.arg % 8 = 0 at hskew
    rw [if_neg hskew] at hzero
    have := Nat.mod_lt b.2.arg (show 0 < 8 by decide)
    omega
  obtain ⟨hbody, hover⟩ := overrun_step pkt w h
  obtain ⟨hbody', hover'⟩ := overrun_step pkt
    (w.takeField pkt b.2.field) hover
  have hfirst : b.2.hit.field = nextField b.2.field := hit_field hhdr
  have hsecond : b.2.hit.hit.field = nextField (nextField b.2.field) := by
    rw [@hit_field b.2.hit hhdr, hfirst]
  rcases steady_of_not_quiet hfield htsft hloud with hs | hs | hs
  · exact steady_loop h hhdr hs w bound
  · obtain ⟨fuel, a, ha, hle⟩ := steady_loop (b := (-EINVAL, b.2.hit)) hover hhdr
      (hfirst ▸ hs) _ bound
    exact ⟨fuel + 1, a, by rw [loop_again hbody]; exact ha, hle⟩
  · obtain ⟨fuel, a, ha, hle⟩ := steady_loop (b := (-EINVAL, b.2.hit.hit)) hover' hhdr
      (hsecond ▸ hs) _ bound
    exact ⟨fuel + 1 + 1, a, by rw [loop_again hbody, loop_again hbody']; exact ha, hle⟩

end overrun

def FirstMisfit (maxLength : Nat) (fields : List Field) (f : Field) : Prop :=
  fields.find? (fun f => maxLength < f.2 + rtLength f.1) = some f

theorem fieldReads_bounds {f : Field} {a : Nat} (h : a ∈ fieldReads f) :
    f.2 ≤ a ∧ a < f.2 + rtLength f.1 := by
  unfold fieldReads at h
  split at h
  · rename_i hchannel
    have hlen : rtLength f.1 = 4 := by rw [hchannel]; decide
    simp only [List.mem_cons, List.not_mem_nil, or_false] at h
    omega
  · split at h
    · rename_i hother
      have hlen : rtLength f.1 = 1 := by
        rcases hother with hf | hf | hf
        · rw [hf]
          decide
        · rw [hf]
          decide
        · rw [hf]
          decide
      rw [List.mem_singleton] at h
      omega
    · simp at h

section walk
variable {pkt : Packet}

/-- Up to a quiet argument, reads stay within the stated length. -/
theorem loop_reads_quiet {n : Nat} {ret : Int} {it : RadiotapIterator} {w : World}
    (hhdr : it.rtheader = 0) (hn : 14 ≤ it.argIndex + n) (hret : ret ≠ -1)
    (hquiet : ∀ f, FirstMisfit it.maxLength (it.fields n) f → Quiet f) (fuel : Nat) :
    ∀ a ∈ (Code.loop (parseRadioTapBody pkt) fuel (ret, it) w).2.reads,
      a ∈ w.reads ∨ a < it.maxLength := by
  induction n generalizing ret it w fuel with
  | zero =>
    cases fuel with
    | zero => exact fun a ha => Or.inl ha
    | succ fuel =>
      rw [loop_leave (body_end pkt ret it w hret (by omega))]
      exact fun a ha => Or.inl ha
  | succ n ih =>
    cases pass pkt n w hhdr hret with
    | ended hfields hbody =>
      cases fuel with
      | zero => exact fun a ha => Or.inl ha
      | succ fuel =>
        rw [loop_leave hbody]
        exact fun a ha => Or.inl ha
    | absent hfields hbody =>
      rw [hfields] at hquiet
      rw [loop_congr hbody]
      exact @ih ret it.skip w hhdr (by simp only [RadiotapIterator.skip]; omega) hret hquiet fuel
    | present hfields hfit hindex hbody =>
      rw [hfields] at hquiet
      cases fuel with
      | zero => exact fun a ha => Or.inl ha
      | succ fuel =>
        have hrest : ∀ f, FirstMisfit it.maxLength (it.hit.skip.fields n) f → Quiet f := by
          intro f hf
          refine hquiet f ?_
          rw [FirstMisfit, List.find?_cons_of_neg (by simpa using hfit)]
          exact hf
        rw [loop_again hbody]
        intro a ha
        cases @ih _ it.hit.skip (w.takeField pkt it.field) hhdr (by omega) (by omega) hrest
          fuel a ha with
        | inr h => exact Or.inr h
        | inl h =>
          cases List.mem_append.mp h with
          | inl h => exact Or.inr (Nat.lt_of_lt_of_le (fieldReads_bounds h).2 hfit)
          | inr h => exact Or.inl h
    | overrun hfields hmisfit hover =>
      rw [hfields] at hquiet
      have hfirst : Quiet it.field :=
        hquiet _ (List.find?_cons_of_pos (by simpa using hmisfit))
      rw [quiet_loop hover hhdr hfirst w fuel]
      exact fun a ha => Or.inl ha

/-- An argument past the stated length that is not quiet makes the parser read anywhere. -/
theorem loop_reads_loud {n : Nat} {ret : Int} {it : RadiotapIterator} {w : World} {f : Field}
    (hhdr : it.rtheader = 0) (hret : ret ≠ -1) (hf : FirstMisfit it.maxLength (it.fields n) f)
    (hloud : ¬ Quiet f) (bound : Nat) :
    ∃ fuel, ∃ a ∈ (Code.loop (parseRadioTapBody pkt) fuel (ret, it) w).2.reads, bound ≤ a := by
  induction n generalizing ret it w with
  | zero => simp [FirstMisfit, RadiotapIterator.fields, layout] at hf
  | succ n ih =>
    cases pass pkt n w hhdr hret with
    | ended hfields hbody => simp [FirstMisfit, hfields] at hf
    | absent hfields hbody =>
      rw [hfields] at hf
      obtain ⟨fuel, a, ha, hle⟩ := @ih ret it.skip w hhdr hret hf
      exact ⟨fuel, a, by rw [loop_congr hbody]; exact ha, hle⟩
    | present hfields hfit hindex hbody =>
      rw [FirstMisfit, hfields, List.find?_cons_of_neg (by simpa using hfit)] at hf
      obtain ⟨fuel, a, ha, hle⟩ := @ih it.hit.thisArgIndex it.hit.skip (w.takeField pkt it.field)
        hhdr (by omega) hf
      exact ⟨fuel + 1, a, by rw [loop_again hbody]; exact ha, hle⟩
    | overrun hfields hmisfit hover =>
      rw [FirstMisfit, hfields, List.find?_cons_of_pos (by simpa using hmisfit)] at hf
      rw [← Option.some.inj hf] at hloud
      exact loud_loop hover hhdr hloud w bound

end walk
end NetworkAnalyser.Server
