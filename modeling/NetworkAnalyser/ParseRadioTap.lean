import NetworkAnalyser.RadiotapIterator

/-! `parseRadioTap` and the layout of the arguments its iterator walks over. -/
namespace NetworkAnalyser.Server
open NetworkAnalyser.Exec

abbrev radiotapRate : Nat := 2
abbrev radiotapChannel : Nat := 3
abbrev radiotapDbmAntsignal : Nat := 5
abbrev radiotapAntenna : Nat := 11

def storeArgument (pkt : Packet) (it : RadiotapIterator) : C Unit :=
  if it.thisArgIndex = radiotapRate then do
    let rate ← read8 pkt it.thisArg
    storeCurrent fun r => { r with dataRateKbps := rate.toNat * 500 }
  else if it.thisArgIndex = radiotapAntenna then do
    let antenna ← read8 pkt it.thisArg
    storeCurrent fun r => { r with antenna := antenna.toNat }
  else if it.thisArgIndex = radiotapDbmAntsignal then do
    let signal ← read8 pkt it.thisArg
    storeCurrent fun r => { r with signalPwrDbmAtAntenna := signal }
  else if it.thisArgIndex = radiotapChannel then do
    let channel ← readLe16 pkt it.thisArg
    storeCurrent fun r => { r with channel := channel.toUInt16 }
  else
    pure ()

def countNext : C Unit := Code.modify fun w => { w with nextCalls := w.nextCalls + 1 }

@[simp] theorem countNext_apply (w : World) :
    countNext w = (.done (), { w with nextCalls := w.nextCalls + 1 }) := rfl

/- One pass of the `while` loop; leaving it ends the function. What follows the loop moves
copies of the arguments only, so its two returns are all there is to it. -/
def parseRadioTapBody (pkt : Packet) :
    Int × RadiotapIterator → C ((Int × RadiotapIterator) ⊕ Int)
  | (ret, it) =>
    if ret ≠ -1 then do
      countNext
      let (ret, it) ← ieee80211RadiotapIteratorNext pkt it
      if ret = -1 then
        return .inr 0
      storeArgument pkt it
      return .inl (ret, it)
    else if ret ≠ -ENOENT then
      return .inr (-1)
    else
      return .inr 0

/- `stack` is what the local `iterator` holds before its initialisation. -/
def parseRadioTap (fuel : Nat) (pkt : Packet) (stack : RadiotapIterator) (packetBufLen : Int) :
    C Int := do
  let (ret, it) ← ieee80211RadiotapIteratorInit pkt stack packetBufLen
  Code.loop (parseRadioTapBody pkt) fuel (ret, it)

/-- An argument type and the offset of the argument. -/
abbrev Field := Nat × Nat

def RadiotapIterator.field (it : RadiotapIterator) : Field :=
  (adjustIndex it.argIndex it.offset, it.arg)

def fieldReads (f : Field) : List Nat :=
  if f.1 = radiotapChannel then [f.2, f.2 + 1]
  else if f.1 = radiotapRate ∨ f.1 = radiotapAntenna ∨ f.1 = radiotapDbmAntsignal then [f.2]
  else []

def fieldStore (pkt : Packet) (f : Field) (r : PacketInfo) : PacketInfo :=
  if f.1 = radiotapRate then { r with dataRateKbps := (pkt.byte f.2).toNat * 500 }
  else if f.1 = radiotapAntenna then { r with antenna := (pkt.byte f.2).toNat }
  else if f.1 = radiotapDbmAntsignal then { r with signalPwrDbmAtAntenna := pkt.byte f.2 }
  else if f.1 = radiotapChannel then { r with channel := (pkt.le16 f.2).toUInt16 }
  else r

def World.takeField (pkt : Packet) (w : World) (f : Field) : World :=
  { w.read (fieldReads f) with
    globals := w.globals.setCurrent (fieldStore pkt f w.globals.current)
    nextCalls := w.nextCalls + 1 }

theorem storeArgument_apply (pkt : Packet) (it : RadiotapIterator) (w : World) :
    storeArgument pkt it { w with nextCalls := w.nextCalls + 1 } =
      (.done (), w.takeField pkt (it.thisArgIndex, it.thisArg)) := by
  unfold storeArgument World.takeField fieldReads fieldStore
  unfold radiotapRate radiotapAntenna radiotapDbmAntsignal radiotapChannel
  by_cases hrate : it.thisArgIndex = 2
  · simp [hrate, bind_apply, World.read]
  by_cases hantenna : it.thisArgIndex = 11
  · simp [hantenna, bind_apply, World.read]
  by_cases hsignal : it.thisArgIndex = 5
  · simp [hsignal, bind_apply, World.read]
  by_cases hchannel : it.thisArgIndex = 3
  · simp [hchannel, bind_apply, World.read]
  · simp [hrate, hantenna, hsignal, hchannel, World.read]

section
variable (pkt : Packet) (ret : Int) (it : RadiotapIterator) (w : World) (hret : ret ≠ -1)
include hret

theorem body_end (h : 14 ≤ it.argIndex) : parseRadioTapBody pkt (ret, it) w =
    (.done (.inr 0), { w with nextCalls := w.nextCalls + 1 }) := by
  rw [parseRadioTapBody, if_pos hret, bind_done (countNext_apply w),
    bind_done (next_end pkt it _ h)]
  rfl

theorem body_absent (h : it.argIndex < 14) (hbit : it.bitmapShifter &&& 1 = 0) :
    parseRadioTapBody pkt (ret, it) w = parseRadioTapBody pkt (ret,
      { it with argIndex := it.argIndex + 1, bitmapShifter := it.bitmapShifter >>> 1 }) w := by
  rw [parseRadioTapBody, if_pos hret, parseRadioTapBody, if_pos hret]
  rw [bind_done (countNext_apply w),
    bind_done (countNext_apply w), bind_apply, bind_apply,
    next_absent pkt it _ h hbit]

theorem body_present (h : it.argIndex < 14) (hbit : it.bitmapShifter &&& 1 ≠ 0)
    (hfit : it.hit.offset ≤ it.maxLength) : parseRadioTapBody pkt (ret, it) w =
      (.done (.inl ((it.hit.thisArgIndex : Int),
          { it.hit with argIndex := it.hit.argIndex + 1,
                        bitmapShifter := it.bitmapShifter >>> 1 })),
        w.takeField pkt it.field) := by
  rw [parseRadioTapBody, if_pos hret, bind_done (countNext_apply w),
    bind_done (next_present pkt it _ h hbit hfit)]
  simp only
  rw [if_neg (by omega), bind_done (storeArgument_apply pkt _ w)]
  rfl

theorem body_overrun (h : it.argIndex < 14) (hbit : it.bitmapShifter &&& 1 ≠ 0)
    (hover : it.maxLength < it.hit.offset) : parseRadioTapBody pkt (ret, it) w =
      (.done (.inl (-EINVAL, it.hit)),
        w.takeField pkt it.field) := by
  rw [parseRadioTapBody, if_pos hret, bind_done (countNext_apply w),
    bind_done (next_overrun pkt it _ h hbit hover)]
  simp only
  rw [if_neg (by decide), bind_done (storeArgument_apply pkt _ w)]
  rfl

end
end NetworkAnalyser.Server
