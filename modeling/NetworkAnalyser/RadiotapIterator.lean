import NetworkAnalyser.ServerState

/-! The radiotap header iterator of `radiotap-parser.c`. -/
namespace NetworkAnalyser.Server
open NetworkAnalyser.Exec

def EINVAL : Int := 22
def ENOENT : Int := 2

def presentExtendMask : Nat := 0x80000000

/- Pointers are offsets from the start of the packet buffer. -/
structure RadiotapIterator where
  rtheader : Nat
  maxLength : Nat
  thisArgIndex : Nat
  thisArg : Nat
  argIndex : Nat
  arg : Nat
  nextBitmap : Nat
  bitmapShifter : Nat
  deriving DecidableEq

def RadiotapIterator.offset (it : RadiotapIterator) : Nat := it.arg - it.rtheader

/- `rt_sizes`: alignment in the upper, length in the lower nybble, from TSFT to DB_ANTNOISE. -/
def rtSizes : List Nat :=
  [0x88, 0x11, 0x11, 0x24, 0x22, 0x11, 0x11, 0x22, 0x22, 0x22, 0x11, 0x11, 0x11, 0x11]

def rtAlign (index : Nat) : Nat := rtSizes.getD index 0 >>> 4
def rtLength (index : Nat) : Nat := rtSizes.getD index 0 &&& 0x0f

/-- How far `offset` stands past the last boundary the argument type may start at. -/
def rtSkew (index offset : Nat) : Nat := offset &&& (rtAlign index - 1)

/- A misaligned argument moves the index on by the missing padding, not the pointer. -/
def adjustIndex (index offset : Nat) : Nat :=
  if rtSkew index offset ≠ 0 then index + (rtAlign index - rtSkew index offset) else index

def RadiotapIterator.moveArg (it : RadiotapIterator) (arg : Nat) : RadiotapIterator :=
  { it with arg := arg }

/- The presence words that follow while bit 31 of the one read is set. `arg` ends up past the
last of them unless they run past the stated header length. -/
def skipBitmaps (pkt : Packet) (it : RadiotapIterator) : C (Int × RadiotapIterator) := do
  let word ← readLe32 pkt it.arg
  if word &&& presentExtendMask ≠ 0 then
    if it.arg + 4 - it.rtheader > it.maxLength then
      return (-EINVAL, it.moveArg (it.arg + 4))
    else
      skipBitmaps pkt (it.moveArg (it.arg + 4))
  else
    return (0, it.moveArg (it.arg + 4))
termination_by it.rtheader + it.maxLength + 1 - it.arg
decreasing_by all_goals (simp only [RadiotapIterator.moveArg]; omega)

/- The header pointer is the packet pointer and neither pointer is null. -/
def ieee80211RadiotapIteratorInit (pkt : Packet) (iterator : RadiotapIterator)
    (maxLength : Int) : C (Int × RadiotapIterator) := do
  let itVersion ← read8 pkt 0
  if itVersion ≠ 0 then
    return (-EINVAL, iterator)
  let itLen ← readLe16 pkt 2
  if maxLength < itLen then
    return (-EINVAL, iterator)
  let itPresent ← readLe32 pkt 4
  let iterator := { iterator with
    rtheader := 0, maxLength := itLen, argIndex := 0, bitmapShifter := itPresent,
    arg := 8, thisArg := 0 }
  if itPresent &&& presentExtendMask ≠ 0 then
    skipBitmaps pkt iterator
  else
    return (0, iterator)

/-- From the label `next_entry` to the end of the loop body. -/
def nextEntry (pkt : Packet) (it : RadiotapIterator) : C RadiotapIterator :=
  if (it.argIndex + 1) &&& 31 = 0 then
    if it.bitmapShifter &&& 1 ≠ 0 then do
      let word ← readLe32 pkt it.nextBitmap
      return { it with argIndex := it.argIndex + 1, bitmapShifter := word,
                       nextBitmap := it.nextBitmap + 4 }
    else
      return { it with argIndex := rtSizes.length }
  else
    return { it with argIndex := it.argIndex + 1, bitmapShifter := it.bitmapShifter >>> 1 }

/-- The argument is present: what the loop stores before its length check. -/
def RadiotapIterator.hit (it : RadiotapIterator) : RadiotapIterator :=
  { it with
    argIndex := adjustIndex it.argIndex it.offset
    thisArgIndex := adjustIndex it.argIndex it.offset
    thisArg := it.arg
    arg := it.arg + rtLength (adjustIndex it.argIndex it.offset) }

/- The first argument bounds the iterations; `arg_index` grows in each of them. -/
def iteratorNextLoop (pkt : Packet) : Nat → RadiotapIterator → C (Int × RadiotapIterator)
  | 0, it => return (-1, it)
  | n + 1, it =>
    if it.argIndex < rtSizes.length then
      if it.bitmapShifter &&& 1 = 0 then do
        let it ← nextEntry pkt it
        iteratorNextLoop pkt n it
      else if it.hit.offset > it.maxLength then
        return (-EINVAL, it.hit)
      else do
        let it' ← nextEntry pkt it.hit
        return (it'.thisArgIndex, it')
    else
      return (-1, it)

def ieee80211RadiotapIteratorNext (pkt : Packet) (it : RadiotapIterator) :
    C (Int × RadiotapIterator) :=
  iteratorNextLoop pkt (rtSizes.length - it.argIndex) it

theorem rtSizes_length : rtSizes.length = 14 := rfl

theorem adjustIndex_le {i : Nat} (h : i < 14) (off : Nat) :
    i ≤ adjustIndex i off ∧ adjustIndex i off < 14 := by
  have hskew : rtSkew i off ≤ rtAlign i - 1 := Nat.and_le_right
  have htable : ∀ j : Fin 14, j.val + rtAlign j.val ≤ 14 ∧ 0 < rtAlign j.val := by decide
  obtain ⟨hle, hpos⟩ := htable ⟨i, h⟩
  unfold adjustIndex
  split <;> simp only at hle hpos <;> omega

theorem rtLength_pos {i : Nat} (h : i < 14) : 0 < rtLength i := by
  have htable : ∀ j : Fin 14, 0 < rtLength j.val := by decide
  exact htable ⟨i, h⟩

theorem nextEntry_apply (pkt : Packet) (it : RadiotapIterator) (w : World)
    (h : it.argIndex < 14) : nextEntry pkt it w =
      (.done { it with argIndex := it.argIndex + 1,
                       bitmapShifter := it.bitmapShifter >>> 1 }, w) := by
  have hne : (it.argIndex + 1) &&& 31 ≠ 0 := by
    have : ∀ i : Fin 14, (i.val + 1) &&& 31 ≠ 0 := by decide
    exact this ⟨it.argIndex, h⟩
  rw [nextEntry, if_neg hne]
  rfl

theorem next_end (pkt : Packet) (it : RadiotapIterator) (w : World) (h : 14 ≤ it.argIndex) :
    ieee80211RadiotapIteratorNext pkt it w = (.done (-1, it), w) := by
  have : rtSizes.length - it.argIndex = 0 := by rw [rtSizes_length]; omega
  rw [ieee80211RadiotapIteratorNext, this]
  rfl

theorem next_absent (pkt : Packet) (it : RadiotapIterator) (w : World) (h : it.argIndex < 14)
    (hbit : it.bitmapShifter &&& 1 = 0) :
    ieee80211RadiotapIteratorNext pkt it w =
      ieee80211RadiotapIteratorNext pkt
        { it with argIndex := it.argIndex + 1, bitmapShifter := it.bitmapShifter >>> 1 } w := by
  have hfuel : rtSizes.length - it.argIndex = (rtSizes.length - (it.argIndex + 1)) + 1 := by
    rw [rtSizes_length]; omega
  rw [ieee80211RadiotapIteratorNext, hfuel, iteratorNextLoop,
    if_pos (show _ < rtSizes.length from h),
    if_pos hbit, bind_done (nextEntry_apply pkt it w h)]
  rfl

theorem next_present (pkt : Packet) (it : RadiotapIterator) (w : World) (h : it.argIndex < 14)
    (hbit : it.bitmapShifter &&& 1 ≠ 0) (hfit : it.hit.offset ≤ it.maxLength) :
    ieee80211RadiotapIteratorNext pkt it w =
      (.done ((it.hit.thisArgIndex : Int),
        { it.hit with argIndex := it.hit.argIndex + 1,
                      bitmapShifter := it.bitmapShifter >>> 1 }), w) := by
  have hfuel : rtSizes.length - it.argIndex = (rtSizes.length - (it.argIndex + 1)) + 1 := by
    rw [rtSizes_length]; omega
  have hadj : it.hit.argIndex < 14 := (adjustIndex_le h it.offset).2
  rw [ieee80211RadiotapIteratorNext, hfuel, iteratorNextLoop,
    if_pos (show _ < rtSizes.length from h),
    if_neg hbit, if_neg (by omega), bind_done (nextEntry_apply pkt it.hit w hadj)]
  rfl

/-- A present argument that ends past the stated length: the pointer has moved on already,
the index and the bitmap stay. -/
theorem next_overrun (pkt : Packet) (it : RadiotapIterator) (w : World) (h : it.argIndex < 14)
    (hbit : it.bitmapShifter &&& 1 ≠ 0) (hover : it.maxLength < it.hit.offset) :
    ieee80211RadiotapIteratorNext pkt it w = (.done (-EINVAL, it.hit), w) := by
  have hfuel : rtSizes.length - it.argIndex = (rtSizes.length - (it.argIndex + 1)) + 1 := by
    rw [rtSizes_length]; omega
  rw [ieee80211RadiotapIteratorNext, hfuel, iteratorNextLoop,
    if_pos (show _ < rtSizes.length from h),
    if_neg hbit, if_pos hover]
  rfl

end NetworkAnalyser.Server
