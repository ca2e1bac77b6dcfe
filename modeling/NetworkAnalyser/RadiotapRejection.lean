import NetworkAnalyser.ParseTermination

/-! What `parseRadioTap` makes of the error codes of the iterator: of a header that is refused and
of an argument that runs past the stated length. -/
namespace NetworkAnalyser.Server
open NetworkAnalyser.Exec

/-- The iterator answers with an argument, with the end of the arguments, or with the code for an
argument that ends past the stated length, at which it then stands. -/
theorem next_cases (pkt : Packet) (it : RadiotapIterator) :
    ∃ ret it', (∀ w, ieee80211RadiotapIteratorNext pkt it w = (.done (ret, it'), w)) ∧
      (ret = -1 ∨ 0 ≤ ret ∨ (ret = -EINVAL ∧ Overrun (ret, it'))) := by
  induction hn : 14 - it.argIndex generalizing it with
  | zero => exact ⟨-1, it, fun w => next_end pkt it w (by omega), Or.inl rfl⟩
  | succ n ih =>
    have hlt : it.argIndex < 14 := by omega
    by_cases hbit : it.bitmapShifter &&& 1 = 0
    · obtain ⟨ret, it', hnext, hcases⟩ := ih it.skip (by simp only [RadiotapIterator.skip]; omega)
      exact ⟨ret, it', fun w => (next_absent pkt it w hlt hbit).trans (hnext w), hcases⟩
    · by_cases hfit : it.hit.offset ≤ it.maxLength
      · exact ⟨_, _, fun w => next_present pkt it w hlt hbit hfit,
          Or.inr (Or.inl (Int.natCast_nonneg _))⟩
      · have hover : Overrun (0, it) := ⟨show (0 : Int) ≠ -1 by decide, hlt, hbit, Nat.not_le.mp hfit⟩
        exact ⟨_, _, fun w => next_overrun pkt it w hlt hbit (Nat.not_le.mp hfit),
          Or.inr (Or.inr ⟨rfl, (overrun_step pkt (World.start .initial) hover).2⟩)⟩

def NextFails (pkt : Packet) (it : RadiotapIterator) : Prop :=
  ∃ it', ∀ w, ieee80211RadiotapIteratorNext pkt it w = (.done (-EINVAL, it'), w)

theorem nextFails_of_overrun (pkt : Packet) {b : Int × RadiotapIterator} (h : Overrun b) :
    NextFails pkt b.2 :=
  ⟨b.2.hit, fun w => next_overrun pkt b.2 w h.2.1 h.2.2.1 h.2.2.2⟩

theorem body_of_next {pkt : Packet} {ret code : Int} {it it' : RadiotapIterator}
    (hret : ret ≠ -1) (hcode : code ≠ -1)
    (h : ∀ w, ieee80211RadiotapIteratorNext pkt it w = (.done (code, it'), w)) (w : World) :
    parseRadioTapBody pkt (ret, it) w =
      (.done (.inl (code, it')), w.takeField pkt (it'.thisArgIndex, it'.thisArg)) := by
  rw [parseRadioTapBody, if_pos hret, bind_done (countNext_apply w), bind_done (h _)]
  simp only
  rw [if_neg hcode, bind_done (storeArgument_apply pkt _ w)]
  rfl

theorem nextFails_iff_body {pkt : Packet} {ret : Int} {it : RadiotapIterator} (hret : ret ≠ -1)
    (w : World) : NextFails pkt it ↔
      ∃ it' w', parseRadioTapBody pkt (ret, it) w = (.done (.inl (-EINVAL, it')), w') := by
  constructor
  · rintro ⟨it', hcall⟩
    exact ⟨it', _, body_of_next hret (by decide) hcall w⟩
  · rintro ⟨it', w', hbody⟩
    obtain ⟨code, it'', hnext, hcases⟩ := next_cases pkt it
    by_cases hend : code = -1
    · rw [parseRadioTapBody, if_pos hret, bind_done (countNext_apply w), bind_done (hnext _)] at hbody
      simp only at hbody
      rw [if_pos hend] at hbody
      cases hbody
    · rw [body_of_next hret hend hnext w] at hbody
      cases hbody
      exact ⟨it', hnext⟩

theorem nextFails_diverges {pkt : Packet} {ret : Int} {it : RadiotapIterator} (hret : ret ≠ -1)
    (h : NextFails pkt it) (w : World) (fuel : Nat) :
    ∃ w', Code.loop (parseRadioTapBody pkt) fuel (ret, it) w = (.running, w') := by
  obtain ⟨it', hcall⟩ := h
  have hover : Overrun (-EINVAL, it') := by
    obtain ⟨code, it'', hnext, hcases⟩ := next_cases pkt it
    cases (hnext w).symm.trans (hcall w)
    rcases hcases with hend | hindex | hfail
    · exact absurd hend (by decide)
    · exact absurd hindex (by decide)
    · exact hfail.2
  cases fuel with
  | zero => exact ⟨w, loop_zero _ _ _⟩
  | succ fuel =>
    rw [loop_again (body_of_next hret (by decide) hcall w)]
    exact overrun_diverges pkt _ hover fuel

theorem visits_failure {pkt : Packet} (n : Nat) {ret : Int} {it : RadiotapIterator} {w : World}
    (hhdr : it.rtheader = 0) (hret : ret ≠ -1) (hfit : ¬ Fits it.maxLength (it.fields n)) :
    ∃ b w', Visits (parseRadioTapBody pkt) (ret, it) w b w' ∧ b.1 ≠ -1 ∧ NextFails pkt b.2 := by
  induction n generalizing ret it w with
  | zero => exact absurd (by simp [Fits, RadiotapIterator.fields, layout]) hfit
  | succ n ih =>
    cases pass pkt n w hhdr hret with
    | ended hfields hbody =>
      rw [hfields] at hfit
      exact absurd (by simp [Fits]) hfit
    | absent hfields hbody =>
      rw [hfields] at hfit
      obtain ⟨b, w', hvisit, hb, hfail⟩ := @ih ret it.skip w hhdr hret hfit
      cases hvisit.congr hbody with
      | inl hhere =>
        obtain ⟨rfl, rfl⟩ := hhere
        refine ⟨(ret, it), w', .here _ _, hret, ?_⟩
        rw [nextFails_iff_body hret w', hbody]
        exact (nextFails_iff_body hret w').mp hfail
      | inr hvisit => exact ⟨b, w', hvisit, hb, hfail⟩
    | present hfields hhere hindex hbody =>
      rw [hfields, fits_cons] at hfit
      obtain ⟨b, w', hvisit, hb, hfail⟩ := @ih it.hit.thisArgIndex it.hit.skip
        (w.takeField pkt it.field) hhdr (by omega) (fun h => hfit ⟨hhere, h⟩)
      exact ⟨b, w', .again hbody hvisit, hb, hfail⟩
    | overrun hfields hmisfit hover =>
      exact ⟨(ret, it), w, .here _ _, hret, nextFails_of_overrun pkt hover⟩

/-- In a run of the function the loop comes to a call of the iterator from `it`, in the world
`w'`. -/
def Calls (pkt : Packet) (maxLength : Int) (stack : RadiotapIterator) (w : World)
    (it : RadiotapIterator) (w' : World) : Prop :=
  ∃ r it₀ w₀ ret, ieee80211RadiotapIteratorInit pkt stack maxLength w = (.done (r, it₀), w₀) ∧
    Visits (parseRadioTapBody pkt) (r, it₀) w₀ (ret, it) w' ∧ ret ≠ -1

/-- A header that is refused, or an argument that runs past the stated length, makes the function
return a negative value, and nothing is read or stored for it; zero stands for a header accepted
and calls that all succeeded. The stack holds anything. -/
structure ReportsRejection (pkt : Packet) (maxLength : Int) : Prop where
  refused : ∀ stack w r it w', ieee80211RadiotapIteratorInit pkt stack maxLength w =
      (.done (r, it), w') → r < 0 →
    ∃ fuel ret u, parseRadioTap fuel pkt stack maxLength w = (.done ret, u) ∧ ret < 0 ∧
      u.nextCalls = w.nextCalls ∧ u.reads = w'.reads ∧ u.globals = w.globals
  failed : ∀ stack w it w', Calls pkt maxLength stack w it w' → NextFails pkt it →
    ∃ fuel ret u, parseRadioTap fuel pkt stack maxLength w = (.done ret, u) ∧ ret < 0 ∧
      u.reads = w'.reads ∧ u.globals = w'.globals
  succeeded : ∀ stack w fuel u, parseRadioTap fuel pkt stack maxLength w = (.done 0, u) →
    (∃ it w', ieee80211RadiotapIteratorInit pkt stack maxLength w = (.done (0, it), w')) ∧
    ∀ it w', Calls pkt maxLength stack w it w' →
      ∃ ret it', ieee80211RadiotapIteratorNext pkt it w' = (.done (ret, it'), w') ∧
        (ret = -1 ∨ 0 ≤ ret)

theorem ReportsRejection.of_fits {pkt : Packet} {maxLength : Int} {start : Nat}
    (h : Accepts pkt maxLength start)
    (hfit : Fits (itLen pkt) (fieldsOf (itPresent pkt) start)) :
    ReportsRejection pkt maxLength := by
  have hquiet : ∀ stack w it w', Calls pkt maxLength stack w it w' → ¬ NextFails pkt it := by
    rintro stack w it w' ⟨r, it₀, w₀, ret, hinit, hvisit, hret⟩ hfail
    obtain ⟨addrs, _, hdone⟩ := parseRadioTap_fits h hfit stack w
    rw [parseRadioTap_of_init hinit] at hdone
    exact hvisit.diverges (nextFails_diverges hret hfail w') hdone
  refine ⟨fun stack w r it w' hinit hr => ?_, fun stack w it w' hcall hfail => ?_,
    fun stack w fuel u _ => ⟨?_, fun it w' hcall => ?_⟩⟩
  · obtain ⟨addrs, _, hzero⟩ := init_accepts h stack w
    cases hzero.symm.trans hinit
    exact absurd hr (by decide)
  · exact absurd hfail (hquiet stack w it w' hcall)
  · obtain ⟨addrs, _, hzero⟩ := init_accepts h stack w
    exact ⟨_, _, hzero⟩
  · obtain ⟨ret, it', hnext, hcases⟩ := next_cases pkt it
    refine ⟨ret, it', hnext w', ?_⟩
    rcases hcases with hend | hindex | hfail
    · exact Or.inl hend
    · exact Or.inr hindex
    · obtain ⟨rfl, _⟩ := hfail
      exact absurd ⟨it', hnext⟩ (hquiet stack w it w' hcall)

theorem ReportsRejection.accepts {pkt : Packet} {maxLength : Int}
    (h : ReportsRejection pkt maxLength) : ∃ start, Accepts pkt maxLength start := by
  by_contra hnone
  obtain ⟨it, addrs, hinit, hcases⟩ := init_rejects (not_exists.mp hnone) staleIterator
    (World.start .initial)
  obtain ⟨fuel, ret, u, hdone, hneg, _⟩ := h.refused _ _ _ _ _ hinit (by decide)
  rcases hcases with ⟨hbad, _⟩ | ⟨_, _, arg, harg, rfl⟩
  · obtain ⟨v, hrun⟩ := parseRadioTap_refused hbad (World.start .initial) fuel
    rw [hdone] at hrun
    cases hrun
  · have hcode : -EINVAL ≠ -1 := by decide
    by_cases hfit : Fits (itLen pkt) (fieldsOf (itPresent pkt) arg)
    · have hzero := loop_no_fields (no_fields_past harg hfit) hcode staleIterator arg
        ((World.start .initial).read addrs)
      rw [← parseRadioTap_of_init hinit] at hzero
      obtain ⟨rfl, _⟩ := parseRadioTap_unique hdone hzero
      exact absurd hneg (by decide)
    · obtain ⟨v, hrun⟩ := loop_header_diverges hcode hfit staleIterator
        ((World.start .initial).read addrs) fuel
      rw [← parseRadioTap_of_init hinit, hdone] at hrun
      cases hrun

theorem ReportsRejection.fits {pkt : Packet} {maxLength : Int} {start : Nat}
    (h : ReportsRejection pkt maxLength) (haccepts : Accepts pkt maxLength start) :
    Fits (itLen pkt) (fieldsOf (itPresent pkt) start) := by
  by_contra hfit
  obtain ⟨addrs, _, hinit⟩ := init_accepts haccepts staleIterator (World.start .initial)
  obtain ⟨⟨ret, it⟩, w', hvisit, hret, hfail⟩ := @visits_failure pkt 14 0
    (headerIterator pkt staleIterator start) ((World.start .initial).read addrs) rfl
    (by decide) hfit
  obtain ⟨fuel, code, u, hdone, _⟩ := h.failed staleIterator (World.start .initial) it w'
    ⟨0, _, _, ret, hinit, hvisit, hret⟩ hfail
  rw [parseRadioTap_of_init hinit] at hdone
  exact hvisit.diverges (nextFails_diverges hret hfail w') hdone

/-- Errors are reported on exactly the headers that have none. -/
theorem reports_rejection_iff (pkt : Packet) (maxLength : Int) :
    ReportsRejection pkt maxLength ↔ ∃ start, Accepts pkt maxLength start ∧
      Fits (itLen pkt) (fieldsOf (itPresent pkt) start) := by
  constructor
  · intro h
    obtain ⟨start, haccepts⟩ := h.accepts
    exact ⟨start, haccepts, h.fits haccepts⟩
  · rintro ⟨start, haccepts, hfit⟩
    exact .of_fits haccepts hfit

def futureHeader : Packet := .ofBytes ([1, 0, 8, 0, 0, 0, 0, 0] ++ List.replicate 50 0)

theorem futureHeader_not_reported : ¬ ReportsRejection futureHeader bufsiz := by
  intro h
  obtain ⟨start, haccepts⟩ := h.accepts
  exact absurd haccepts.version (by decide)

end NetworkAnalyser.Server
