import NetworkAnalyser.CaptureContents
import NetworkAnalyser.RadiotapArguments

/-! What `parseRadioTap` makes of a well-formed header, against the arguments its sender has put
there, up to the power that is printed where a plain `char` is unsigned. -/
namespace NetworkAnalyser.Server
open NetworkAnalyser.Exec

section fold
variable {α β γ : Type} {step : β → α → β} (get : β → γ) {hit : α → Prop} [DecidablePred hit]
  {val : α → γ} (hstep : ∀ b a, get (step b a) = if hit a then val a else get b)
include hstep

theorem foldl_get_of_find {as : List α} (h : as.Pairwise fun a c => hit a → ¬ hit c) (b : β) :
    get (as.foldl step b) = ((as.find? hit).map val).getD (get b) := by
  induction as generalizing b with
  | nil => rfl
  | cons a as ih =>
    obtain ⟨hfirst, hrest⟩ := List.pairwise_cons.mp h
    rw [List.foldl_cons]
    by_cases ha : hit a
    · have hmiss : ∀ c ∈ as, ¬ hit c := fun c hc => hfirst c hc ha
      rw [foldl_get_of_miss get hstep hmiss, hstep, if_pos ha,
        List.find?_cons_of_pos (by simpa using ha)]
      rfl
    · rw [ih hrest, hstep, if_neg ha, List.find?_cons_of_neg (by simpa using ha)]

end fold

def argument (args : List Field) (k : Nat) : Option Nat :=
  (args.find? fun f => f.1 = k).map Prod.snd

def Packet.frequency (pkt : Packet) (off : Nat) : UInt16 := (pkt.le16 off).toUInt16

def Packet.decoded (pkt : Packet) (args : List Field) (x : Radio) : Radio where
  dataRateKbps := ((argument args radiotapRate).map pkt.byte).elim x.dataRateKbps
    fun rate => 500 * rate.toNat
  antenna := ((argument args radiotapAntenna).map pkt.byte).elim x.antenna
    fun antenna => antenna.toNat
  channel := ((argument args radiotapChannel).map pkt.frequency).getD x.channel
  signalPwrDbmAtAntenna :=
    ((argument args radiotapDbmAntsignal).map pkt.byte).getD x.signalPwrDbmAtAntenna

theorem foldl_fieldRadio (pkt : Packet) {fields : List Field}
    (h : fields.Pairwise fun f g => f.1 < g.1) (x : Radio) :
    fields.foldl (fieldRadio pkt) x = pkt.decoded fields x := by
  have honce : ∀ k, fields.Pairwise fun f g => f.1 = k → ¬ g.1 = k :=
    fun k => h.imp fun hlt hf hg => absurd hlt (by rw [hf, hg]; exact Nat.lt_irrefl k)
  apply Radio.ext
  · refine (foldl_get_of_find Radio.dataRateKbps (by intros; rfl) (honce radiotapRate) x).trans ?_
    simp only [Packet.decoded, argument]
    cases fields.find? fun f => f.1 = radiotapRate with
    | none => rfl
    | some f => exact mul_comm _ _
  · refine (foldl_get_of_find Radio.antenna (by intros; rfl) (honce radiotapAntenna) x).trans ?_
    simp only [Packet.decoded, argument]
    cases fields.find? fun f => f.1 = radiotapAntenna with
    | none => rfl
    | some f => rfl
  · refine (foldl_get_of_find Radio.channel (by intros; rfl) (honce radiotapChannel) x).trans ?_
    simp only [Packet.decoded, argument, Option.map_map]
    rfl
  · refine (foldl_get_of_find Radio.signalPwrDbmAtAntenna (by intros; rfl)
      (honce radiotapDbmAntsignal) x).trans ?_
    simp only [Packet.decoded, argument, Option.map_map]
    rfl

/-- A header of version 0 in a buffer of `bufLen` bytes: after the first presence word `words`
more, then the arguments of types 0 to 13 and what else there may be, all within the stated
length. -/
structure RadiotapHeader where
  packet : Packet
  bufLen : Int
  words : Nat
  version : packet.byte 0 = 0
  held : (itLen packet : Int) ≤ bufLen
  extended : ∀ j < words, Extended packet (4 + 4 * j)
  last : ¬ Extended packet (4 + 4 * words)
  header : 8 + 4 * words ≤ itLen packet
  fits : ArgumentsEnd (itLen packet) (argumentsOf (itPresent packet) (8 + 4 * words))

namespace RadiotapHeader

def sent (h : RadiotapHeader) : List Field := argumentsOf (itPresent h.packet) (8 + 4 * h.words)

def walked (h : RadiotapHeader) : List Field := fieldsOf (itPresent h.packet) (8 + 4 * h.words)

theorem argsStart (h : RadiotapHeader) : ArgsStart h.packet (8 + 4 * h.words) := by
  have hlast := h.last
  have hext := h.extended
  have hin := h.header
  cases hwords : h.words with
  | zero =>
    rw [hwords] at hlast
    exact Or.inl ⟨hlast, rfl⟩
  | succ k =>
    rw [hwords] at hlast hext hin
    have haddr : ∀ j, 4 + 4 * (j + 1) = 8 + 4 * j := fun j => by omega
    refine Or.inr ⟨hext 0 (Nat.succ_pos k), k, ⟨fun j hj => ?_, ?_, Or.inr (by omega)⟩, by omega⟩
    · exact haddr j ▸ hext (j + 1) (by omega)
    · exact haddr k ▸ hlast

theorem accepts (h : RadiotapHeader) : Accepts h.packet h.bufLen (8 + 4 * h.words) :=
  ⟨h.version, h.held, h.argsStart⟩

theorem walked_fits (h : RadiotapHeader) : Fits (itLen h.packet) h.walked :=
  layout_fits rfl (fun _ => by omega) (argumentsEnd_iff.mp h.fits)

theorem walked_sorted (h : RadiotapHeader) : h.walked.Pairwise fun f g => f.1 < g.1 :=
  (layout_sorted 14 0 _ _).1

theorem parsed (h : RadiotapHeader) (stack : RadiotapIterator) (w : World) :
    ∃ fuel w', parseRadioTap fuel h.packet stack h.bufLen w = (.done 0, w') ∧
      w'.globals = w.globals.setCurrent
        (w.globals.current.setRadio (h.packet.decoded h.walked w.globals.current.radio)) := by
  obtain ⟨addrs, _, hparse⟩ := parseRadioTap_fits h.accepts h.walked_fits stack w
  refine ⟨_, _, hparse, ?_⟩
  change ((w.read addrs).takeFields h.packet h.walked).globals = _
  rw [takeFields_globals, foldl_fieldStore, foldl_fieldRadio h.packet h.walked_sorted]
  rfl

end RadiotapHeader

/-- The parser returns 0, stores the arguments of the header in the current record and nothing
else, and `writePacket` prints the signal power, with the unsigned plain `char` of the Raspberry
Pi, as the signed byte that was sent. -/
def DecodesRight (h : RadiotapHeader) : Prop :=
  ∀ stack w, ∃ fuel w', parseRadioTap fuel h.packet stack h.bufLen w = (.done 0, w') ∧
    w'.globals = w.globals.setCurrent
      (w.globals.current.setRadio (h.packet.decoded h.sent w.globals.current.radio)) ∧
    ∀ off, argument h.sent radiotapDbmAntsignal = some off →
      promoteChar false w'.globals.current.signalPwrDbmAtAntenna =
        (h.packet.byte off).toInt8.toInt

/-- Under each of the four types the iterator finds what was sent or something equal, and no
negative power was sent. -/
structure WalkAgrees (h : RadiotapHeader) : Prop where
  rate : (argument h.walked radiotapRate).map h.packet.byte =
    (argument h.sent radiotapRate).map h.packet.byte
  antenna : (argument h.walked radiotapAntenna).map h.packet.byte =
    (argument h.sent radiotapAntenna).map h.packet.byte
  channel : (argument h.walked radiotapChannel).map h.packet.frequency =
    (argument h.sent radiotapChannel).map h.packet.frequency
  signal : (argument h.walked radiotapDbmAntsignal).map h.packet.byte =
    (argument h.sent radiotapDbmAntsignal).map h.packet.byte
  positive : ∀ off, argument h.sent radiotapDbmAntsignal = some off → h.packet.byte off < 128

theorem promoteChar_false_eq_iff (c : UInt8) : promoteChar false c = c.toInt8.toInt ↔ c < 128 := by
  have hsigned : c.toInt8.toInt = if 2 * c.toNat < 256 then (c.toNat : Int) else c.toNat - 256 :=
    BitVec.toInt_eq_toNat_cond _
  have hlt : c < 128 ↔ c.toNat < 128 := UInt8.lt_iff_toNat_lt
  rw [hsigned, hlt, promoteChar, if_neg (by decide)]
  split <;> omega

theorem WalkAgrees.decoded_eq {h : RadiotapHeader} (ha : WalkAgrees h) (x : Radio) :
    h.packet.decoded h.walked x = h.packet.decoded h.sent x := by
  simp only [Packet.decoded, ha.rate, ha.antenna, ha.channel, ha.signal]

theorem decoded_signal {pkt : Packet} {args : List Field} {off : Nat}
    (h : argument args radiotapDbmAntsignal = some off) (x : Radio) :
    (pkt.decoded args x).signalPwrDbmAtAntenna = pkt.byte off := by
  rw [Packet.decoded, h]
  rfl

theorem eq_of_elim_eq {α β : Type} [Nontrivial β] {f : α → β} (hf : f.Injective)
    {p q : Option α} (h : ∀ b, p.elim b f = q.elim b f) : p = q := by
  cases p with
  | none =>
    cases q with
    | none => rfl
    | some v =>
      obtain ⟨b, hb⟩ := exists_ne (f v)
      exact absurd (h b) hb
  | some u =>
    cases q with
    | none =>
      obtain ⟨b, hb⟩ := exists_ne (f u)
      exact absurd (h b).symm hb
    | some v => exact congrArg some (hf (h (f u)))

theorem eq_of_getD_eq {α : Type} [Nontrivial α] {p q : Option α}
    (h : ∀ a, p.getD a = q.getD a) : p = q := by
  refine eq_of_elim_eq (f := id) Function.injective_id fun a => ?_
  have ha := h a
  cases p <;> cases q <;> exact ha

instance nontrivialUInt8 : Nontrivial UInt8 := ⟨0, 1, by decide⟩

instance nontrivialUInt16 : Nontrivial UInt16 := ⟨0, 1, by decide⟩

theorem WalkAgrees.of_decoded_eq {h : RadiotapHeader}
    (heq : ∀ x, h.packet.decoded h.walked x = h.packet.decoded h.sent x)
    (hpos : ∀ off, argument h.sent radiotapDbmAntsignal = some off → h.packet.byte off < 128) :
    WalkAgrees h where
  rate := by
    refine eq_of_elim_eq (f := fun rate : UInt8 => (500 * rate.toNat : Int))
      (fun a b hab => UInt8.toNat_inj.mp (by simp only at hab; omega)) fun b => ?_
    exact congrArg Radio.dataRateKbps (heq ⟨b, 0, 0, 0⟩)
  antenna := by
    refine eq_of_elim_eq (f := fun antenna : UInt8 => (antenna.toNat : Int))
      (fun a b hab => UInt8.toNat_inj.mp (by simp only at hab; omega)) fun b => ?_
    exact congrArg Radio.antenna (heq ⟨0, b, 0, 0⟩)
  channel := eq_of_getD_eq fun b => congrArg Radio.channel (heq ⟨0, 0, b, 0⟩)
  signal := eq_of_getD_eq fun b => congrArg Radio.signalPwrDbmAtAntenna (heq ⟨0, 0, 0, b⟩)
  positive := hpos

theorem WalkAgrees.decodes {h : RadiotapHeader} (ha : WalkAgrees h) : DecodesRight h := by
  intro stack w
  obtain ⟨fuel, w', hparse, hglobals⟩ := h.parsed stack w
  rw [ha.decoded_eq] at hglobals
  refine ⟨fuel, w', hparse, hglobals, fun off hoff => ?_⟩
  have hstored : w'.globals.current.signalPwrDbmAtAntenna = h.packet.byte off := by
    rw [hglobals, Globals.setCurrent_current]
    exact decoded_signal hoff _
  rw [hstored]
  exact (promoteChar_false_eq_iff _).mpr (ha.positive off hoff)

theorem WalkAgrees.of_decodes {h : RadiotapHeader} (hd : DecodesRight h) : WalkAgrees h := by
  have hsame : ∀ w : World, h.packet.decoded h.walked w.globals.current.radio =
      h.packet.decoded h.sent w.globals.current.radio := by
    intro w
    obtain ⟨fuel, w', hparse, hglobals, _⟩ := hd staleIterator w
    obtain ⟨fuel', w'', hparse', hglobals'⟩ := h.parsed staleIterator w
    obtain rfl : w' = w'' := (parseRadioTap_unique hparse hparse').2
    have hrecord := congrArg (fun g => g.current.radio) (hglobals'.symm.trans hglobals)
    simpa using hrecord
  refine .of_decoded_eq (fun x => ?_) fun off hoff => ?_
  · have hstart := hsame (World.start (Globals.initial.setCurrent (PacketInfo.zero.setRadio x)))
    simpa [World.start] using hstart
  · obtain ⟨_, w', _, hglobals, hprint⟩ := hd staleIterator (World.start Globals.initial)
    have hstored : w'.globals.current.signalPwrDbmAtAntenna = h.packet.byte off := by
      rw [hglobals, Globals.setCurrent_current]
      exact decoded_signal hoff _
    have hprinted := hprint off hoff
    rw [hstored] at hprinted
    exact (promoteChar_false_eq_iff _).mp hprinted

/-- A well-formed header is decoded right exactly when moving the type on, in place of the
pointer, changes none of the four values and no negative power was sent. -/
theorem decodesRight_iff (h : RadiotapHeader) : DecodesRight h ↔ WalkAgrees h :=
  ⟨WalkAgrees.of_decodes, WalkAgrees.decodes⟩

/-- Without padding only the sign of the power is at stake. -/
theorem decodesRight_of_unpadded {h : RadiotapHeader}
    (hu : Unpadded (itPresent h.packet) (8 + 4 * h.words)) :
    DecodesRight h ↔
      ∀ off, argument h.sent radiotapDbmAntsignal = some off → h.packet.byte off < 128 := by
  have hsame : h.walked = h.sent := fieldsOf_of_unpadded hu
  refine (decodesRight_iff h).trans ⟨WalkAgrees.positive, fun hpos => ?_⟩
  exact ⟨by rw [hsame], by rw [hsame], by rw [hsame], by rw [hsame], hpos⟩

def paddedChannel : RadiotapHeader where
  packet := .ofBytes [0, 0, 14, 0, 0x0a, 0, 0, 0, 0, 0, 0x6c, 9, 0xa0, 0]
  bufLen := bufsiz
  words := 0
  version := by decide
  held := by decide
  extended := fun j hj => absurd hj (Nat.not_lt_zero j)
  last := by decide
  header := by decide
  fits := by decide

def weakSignal : RadiotapHeader where
  packet := .ofBytes typicalHeader
  bufLen := bufsiz
  words := 0
  version := by decide
  held := by decide
  extended := fun j hj => absurd hj (Nat.not_lt_zero j)
  last := by decide
  header := by decide
  fits := by decide

/-- The channel behind the padding is not stored, and the power is printed as 197. -/
theorem paddedChannel_weakSignal_not_decoded :
    ¬ DecodesRight paddedChannel ∧ ¬ DecodesRight weakSignal := by
  constructor
  · intro h
    exact absurd (WalkAgrees.of_decodes h).channel (by decide)
  · intro h
    exact absurd ((WalkAgrees.of_decodes h).positive 14 (by decide)) (by decide)

end NetworkAnalyser.Server
