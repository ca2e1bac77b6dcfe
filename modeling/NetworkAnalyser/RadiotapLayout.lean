import NetworkAnalyser.ParseRadioTap

/-! The arguments a presence word announces, laid out as the iterator walks over them, and
what the loop of `parseRadioTap` does on them. -/
namespace NetworkAnalyser.Server
open NetworkAnalyser.Exec

/-- The arguments from type `i` on: their types as reported and their offsets. A misaligned
argument is reported under the index it has been moved on to. -/
def layout : Nat → Nat → Nat → Nat → List Field
  | 0, _, _, _ => []
  | n + 1, i, bits, off =>
    if 14 ≤ i then []
    else if bits &&& 1 = 0 then layout n (i + 1) (bits >>> 1) off
    else (adjustIndex i off, off) ::
      layout n (adjustIndex i off + 1) (bits >>> 1) (off + rtLength (adjustIndex i off))

/-- All arguments of the first presence word. -/
def fieldsOf (present start : Nat) : List Field := layout 14 0 present start

def Fits (maxLength : Nat) (fields : List Field) : Prop :=
  ∀ f ∈ fields, f.2 + rtLength f.1 ≤ maxLength

instance (maxLength : Nat) (fields : List Field) : Decidable (Fits maxLength fields) :=
  inferInstanceAs (Decidable (∀ f ∈ fields, _))

theorem layout_length_le (n i bits off : Nat) : (layout n i bits off).length ≤ n := by
  induction n generalizing i bits off with
  | zero => rfl
  | succ n ih =>
    rw [layout]
    split
    · exact Nat.zero_le _
    · split
      · exact Nat.le_succ_of_le (ih _ _ _)
      · exact Nat.succ_le_succ (ih _ _ _)

theorem layout_offset_le (n i bits off : Nat) : ∀ f ∈ layout n i bits off, off ≤ f.2 := by
  induction n generalizing i bits off with
  | zero => simp [layout]
  | succ n ih =>
    intro f hf
    rw [layout] at hf
    split at hf
    · simp at hf
    · split at hf
      · exact ih _ _ _ f hf
      · cases List.mem_cons.mp hf with
        | inl h => exact h ▸ Nat.le_refl off
        | inr h => exact Nat.le_trans (Nat.le_add_right _ _) (ih _ _ _ f h)

theorem layout_eq_nil_iff (n i bits off : Nat) :
    layout n i bits off = [] ↔ ∀ j < n, i + j < 14 → bits.testBit j = false := by
  induction n generalizing i bits off with
  | zero => simp [layout]
  | succ n ih =>
    rw [layout]
    split
    · rename_i hi
      simp only [true_iff]
      intro j _ hj
      omega
    · rename_i hi
      split
      · rename_i hbit
        rw [ih]
        constructor
        · intro h j hj hij
          cases j with
          | zero => simpa using hbit
          | succ j => simpa [Nat.testBit_shiftRight, Nat.add_comm] using h j (by omega) (by omega)
        · intro h j hj hij
          simpa [Nat.testBit_shiftRight, Nat.add_comm] using h (j + 1) (by omega) (by omega)
      · rename_i hbit
        simp only [reduceCtorEq, false_iff]
        intro h
        exact hbit (by simpa using h 0 (by omega) (by omega))

theorem fieldsOf_eq_nil_iff (present start : Nat) :
    fieldsOf present start = [] ↔ ∀ j < 14, present.testBit j = false := by
  rw [fieldsOf, layout_eq_nil_iff]
  exact ⟨fun h j hj => h j hj (by omega), fun h j hj _ => h j hj⟩

def RadiotapIterator.skip (it : RadiotapIterator) : RadiotapIterator :=
  { it with argIndex := it.argIndex + 1, bitmapShifter := it.bitmapShifter >>> 1 }

def RadiotapIterator.fields (it : RadiotapIterator) (n : Nat) : List Field :=
  layout n it.argIndex it.bitmapShifter it.arg

/-- The iterator stands at an argument that ends past the stated length. -/
def Overrun (b : Int × RadiotapIterator) : Prop :=
  b.1 ≠ -1 ∧ b.2.argIndex < 14 ∧ b.2.bitmapShifter &&& 1 ≠ 0 ∧ b.2.maxLength < b.2.hit.offset

inductive Pass (pkt : Packet) (n : Nat) (ret : Int) (it : RadiotapIterator) (w : World) : Prop
  | ended (hfields : it.fields (n + 1) = [])
      (hbody : parseRadioTapBody pkt (ret, it) w =
        (.done (.inr 0), { w with nextCalls := w.nextCalls + 1 }))
  | absent (hfields : it.fields (n + 1) = it.skip.fields n)
      (hbody : parseRadioTapBody pkt (ret, it) w = parseRadioTapBody pkt (ret, it.skip) w)
  | present (hfields : it.fields (n + 1) = it.field :: it.hit.skip.fields n)
      (hfit : it.field.2 + rtLength it.field.1 ≤ it.maxLength)
      (hindex : it.argIndex < it.hit.skip.argIndex)
      (hbody : parseRadioTapBody pkt (ret, it) w =
        (.done (.inl ((it.hit.thisArgIndex : Int), it.hit.skip)), w.takeField pkt it.field))
  | overrun (hfields : it.fields (n + 1) = it.field :: it.hit.skip.fields n)
      (hmisfit : it.maxLength < it.field.2 + rtLength it.field.1) (hover : Overrun (ret, it))

theorem pass (pkt : Packet) (n : Nat) {ret : Int} {it : RadiotapIterator} (w : World)
    (hhdr : it.rtheader = 0) (hret : ret ≠ -1) : Pass pkt n ret it w := by
  have hoff : it.offset = it.arg := by rw [RadiotapIterator.offset, hhdr, Nat.sub_zero]
  by_cases hi : 14 ≤ it.argIndex
  · refine .ended ?_ (body_end pkt ret it w hret hi)
    rw [RadiotapIterator.fields, layout, if_pos hi]
  have hlt : it.argIndex < 14 := Nat.not_le.mp hi
  by_cases hbit : it.bitmapShifter &&& 1 = 0
  · refine .absent ?_ (body_absent pkt ret it w hret hlt hbit)
    rw [RadiotapIterator.fields, layout, if_neg hi, if_pos hbit]
    rfl
  have hfields : it.fields (n + 1) = it.field :: it.hit.skip.fields n := by
    rw [RadiotapIterator.fields, layout, if_neg hi, if_neg hbit, ← hoff]
    simp only [RadiotapIterator.field, RadiotapIterator.fields, RadiotapIterator.skip,
      RadiotapIterator.hit, hoff]
  have hend : it.hit.offset = it.field.2 + rtLength it.field.1 := by
    simp only [RadiotapIterator.hit, RadiotapIterator.field, RadiotapIterator.offset, hhdr,
      Nat.sub_zero]
  by_cases hfit : it.hit.offset ≤ it.maxLength
  · have hadj := (adjustIndex_le hlt it.offset).1
    exact .present hfields (hend ▸ hfit) (Nat.lt_succ_of_le hadj)
      (body_present pkt ret it w hret hlt hbit hfit)
  · exact .overrun hfields (hend ▸ Nat.not_le.mp hfit) ⟨hret, hlt, hbit, Nat.not_le.mp hfit⟩

theorem fits_cons {maxLength : Nat} {f : Field} {fields : List Field} :
    Fits maxLength (f :: fields) ↔ f.2 + rtLength f.1 ≤ maxLength ∧ Fits maxLength fields :=
  List.forall_mem_cons

def World.takeFields (pkt : Packet) (w : World) (fields : List Field) : World :=
  fields.foldl (World.takeField pkt) w

theorem takeFields_globals (pkt : Packet) (w : World) (fields : List Field) :
    (w.takeFields pkt fields).globals =
      w.globals.setCurrent (fields.foldl (fun r f => fieldStore pkt f r) w.globals.current) := by
  induction fields generalizing w with
  | nil => simp [World.takeFields]
  | cons f fields ih =>
    change ((w.takeField pkt f).takeFields pkt fields).globals = _
    rw [ih]
    simp [World.takeField]

theorem loop_fits (pkt : Packet) (n : Nat) (ret : Int) (it : RadiotapIterator) (w : World)
    (hhdr : it.rtheader = 0) (hn : 14 ≤ it.argIndex + n) (hret : ret ≠ -1)
    (hfit : Fits it.maxLength (it.fields n)) :
    Code.loop (parseRadioTapBody pkt) ((it.fields n).length + 1) (ret, it) w =
      (.done 0, { w.takeFields pkt (it.fields n) with
        nextCalls := w.nextCalls + (it.fields n).length + 1 }) := by
  induction n generalizing ret it w with
  | zero => exact loop_leave (body_end pkt ret it w hret (by omega))
  | succ n ih =>
    cases pass pkt n w hhdr hret with
    | ended hfields hbody =>
      rw [hfields]
      exact loop_leave hbody
    | absent hfields hbody =>
      rw [hfields] at hfit ⊢
      rw [loop_congr hbody]
      exact ih ret it.skip w hhdr (by simp only [RadiotapIterator.skip]; omega) hret hfit
    | present hfields hhere hindex hbody =>
      rw [hfields] at hfit ⊢
      rw [List.length_cons, loop_again hbody]
      rw [ih it.hit.thisArgIndex it.hit.skip (w.takeField pkt it.field) hhdr (by omega) (by omega)
        (fits_cons.mp hfit).2]
      simp only [World.takeFields, List.foldl_cons, World.takeField, Prod.mk.injEq, true_and]
      congr 1
      omega
    | overrun hfields hmisfit hover =>
      rw [hfields] at hfit
      exact absurd (fits_cons.mp hfit).1 (Nat.not_le.mpr hmisfit)

/-- The error code is taken for a field index, and the next call meets the same argument with
the pointer further on. -/
theorem overrun_step (pkt : Packet) {b : Int × RadiotapIterator} (w : World) (h : Overrun b) :
    parseRadioTapBody pkt b w = (.done (.inl (-EINVAL, b.2.hit)),
      w.takeField pkt b.2.field) ∧
    Overrun (-EINVAL, b.2.hit) := by
  obtain ⟨hret, hi, hbit, hover⟩ := h
  have hcode : -EINVAL ≠ -1 := by decide
  refine ⟨body_overrun pkt b.1 b.2 w hret hi hbit hover, hcode,
    (adjustIndex_le hi _).2, hbit, Nat.lt_of_lt_of_le hover ?_⟩
  simp only [RadiotapIterator.hit, RadiotapIterator.offset]
  omega

theorem overrun_diverges (pkt : Packet) {b : Int × RadiotapIterator} (w : World)
    (h : Overrun b) (fuel : Nat) :
    ∃ w', Code.loop (parseRadioTapBody pkt) fuel b w = (.running, w') :=
  loop_diverges (fun b _ => Overrun b)
    (fun _ w h => ⟨_, _, (overrun_step pkt w h).1, (overrun_step pkt w h).2⟩) h fuel

/-- Some argument ends past the stated length: the loop never leaves. -/
theorem loop_not_fits (pkt : Packet) (n : Nat) (ret : Int) (it : RadiotapIterator) (w : World)
    (hhdr : it.rtheader = 0) (hret : ret ≠ -1) (hfit : ¬ Fits it.maxLength (it.fields n))
    (fuel : Nat) : ∃ w', Code.loop (parseRadioTapBody pkt) fuel (ret, it) w = (.running, w') := by
  induction n generalizing ret it w fuel with
  | zero => exact absurd (by simp [Fits, RadiotapIterator.fields, layout]) hfit
  | succ n ih =>
    cases pass pkt n w hhdr hret with
    | ended hfields hbody =>
      rw [hfields] at hfit
      exact absurd (by simp [Fits]) hfit
    | absent hfields hbody =>
      rw [hfields] at hfit
      rw [loop_congr hbody]
      exact ih ret it.skip w hhdr hret hfit fuel
    | present hfields hhere hindex hbody =>
      rw [hfields, fits_cons] at hfit
      cases fuel with
      | zero => exact ⟨w, loop_zero _ _ _⟩
      | succ fuel =>
        rw [loop_again hbody]
        exact ih _ it.hit.skip _ hhdr (by omega) (fun h => hfit ⟨hhere, h⟩) fuel
    | overrun hfields hmisfit hover => exact overrun_diverges pkt w hover fuel

end NetworkAnalyser.Server
