import NetworkAnalyser.Printf
import NetworkAnalyser.ServerState

/-! `writePacket` and `generateJson`, and the document they leave in the output buffer. -/
namespace NetworkAnalyser.Server
open NetworkAnalyser.Exec NetworkAnalyser.CString NetworkAnalyser.Printf

/-- The value a plain `char` is promoted to; whether it is signed depends on the target. -/
def promoteChar (signedChar : Bool) (c : UInt8) : Int :=
  if signedChar then c.toInt8.toInt else c.toNat

def packetText (signedChar : Bool) (r : PacketInfo) : Bytes :=
  ascii "\x7b\"packet\":\x7b\"datarate\":\"" ++ percentI r.dataRateKbps ++
  ascii "\",\"antenna\":\"" ++ percentI r.antenna ++
  ascii "\",\"channel\":\"" ++ percentI r.channel.toNat ++
  ascii "\",\"power\":\"" ++ percentI (promoteChar signedChar r.signalPwrDbmAtAntenna) ++
  ascii "\",\"ssid\":\"" ++ r.ssid.str ++
  ascii "\",\"src\":\"" ++ r.ethernetSrcAddr.str ++
  ascii "\",\"dst\":\"" ++ r.ethernetDstAddr.str ++
  ascii "\",\"bssid\":\"" ++ r.ethernetBssId.str ++
  ascii "\"\x7d\x7d"

/-- Memory with `text` at `ptr`. -/
def overwrite (buff : Nat → UInt8) (ptr : Nat) (text : Bytes) : Nat → UInt8 := fun i =>
  if ptr ≤ i then text.getD (i - ptr) (buff i) else buff i

/- Text and NUL go to `buff_ptr`, wherever it points; the result is the length of the text. -/
def sprintf (text : Bytes) : C Nat := fun w =>
  (.done text.length, { w with
    globals := { w.globals with
      outputBuff := overwrite w.globals.outputBuff w.globals.buffPtr (text ++ [0]) }
    writes := (List.range (text.length + 1)).map (w.globals.buffPtr + ·) ++ w.writes })

/-- `cnt = sprintf(buff_ptr, ..); buff_ptr += cnt;` -/
def append (text : Bytes) : C Unit := do
  let cnt ← sprintf text
  modifyGlobals fun g => { g with buffPtr := g.buffPtr + cnt }

def writePacket (signedChar : Bool) (curPacketNum : Nat) : C Unit := do
  let g ← getGlobals
  append (packetText signedChar (g.record curPacketNum))

def writePackets (signedChar : Bool) : Nat → Nat → C Unit
  | 0, _ => return
  | n + 1, pktCount => do
    writePacket signedChar pktCount
    let g ← getGlobals
    if pktCount + 1 < g.capInfo.packetInfoCount then
      append (ascii ",")
      writePackets signedChar n (pktCount + 1)
    else
      writePackets signedChar n (pktCount + 1)

def generateJson (signedChar : Bool) : C Unit := do
  modifyGlobals fun g => { g with buffPtr := 0 }
  append (ascii "\x7b\"packets\":[")
  let g ← getGlobals
  writePackets signedChar g.capInfo.packetInfoCount 0
  append (ascii "]\x7d")

/-- What `main` sends: `strlen(output_buff)` bytes from the start of the buffer. -/
def outputText (g : Globals) : Bytes :=
  cstr ((List.range maxOutputBufferSize).map g.outputBuff)

def storedRecords (g : Globals) : List PacketInfo :=
  (List.range g.capInfo.packetInfoCount).map g.record

def document (signedChar : Bool) (rs : List PacketInfo) : Bytes :=
  ascii "\x7b\"packets\":[" ++ [44].intercalate (rs.map (packetText signedChar)) ++
    ascii "]\x7d"

/-- `text` has been appended at `buff_ptr`, with a NUL behind it. -/
structure Printed (w w' : World) (text : Bytes) : Prop where
  ptr : w'.globals.buffPtr = w.globals.buffPtr + text.length
  text : ∀ i (h : i < text.length), w'.globals.outputBuff (w.globals.buffPtr + i) = text[i]
  nul : w'.globals.outputBuff w'.globals.buffPtr = 0
  before : ∀ i < w.globals.buffPtr, w'.globals.outputBuff i = w.globals.outputBuff i
  writes : ∀ a, a ∈ w'.writes ↔
    a ∈ w.writes ∨ (w.globals.buffPtr ≤ a ∧ a ≤ w'.globals.buffPtr)
  capInfo : w'.globals.capInfo = w.globals.capInfo

theorem Printed.trans {u v w : World} {s t : Bytes} (h : Printed u v s) (h' : Printed v w t) :
    Printed u w (s ++ t) where
  ptr := by rw [h'.ptr, h.ptr, List.length_append, Nat.add_assoc]
  text i hi := by
    by_cases hlt : i < s.length
    · rw [h'.before _ (by rw [h.ptr]; omega), h.text i hlt, List.getElem_append_left hlt]
    · have hlen : i - s.length < t.length := by rw [List.length_append] at hi; omega
      have haddr : u.globals.buffPtr + i = v.globals.buffPtr + (i - s.length) := by
        rw [h.ptr]; omega
      rw [haddr, h'.text _ hlen, List.getElem_append_right (Nat.not_lt.mp hlt)]
  nul := h'.nul
  before i hi := by rw [h'.before i (by rw [h.ptr]; omega), h.before i hi]
  writes a := by
    rw [h'.writes, h.writes, h'.ptr, h.ptr]
    constructor
    · rintro ((h | h) | h)
      · exact Or.inl h
      · exact Or.inr (by omega)
      · exact Or.inr (by omega)
    · rintro (h | h)
      · exact Or.inl (Or.inl h)
      · by_cases hle : a ≤ u.globals.buffPtr + s.length
        · exact Or.inl (Or.inr ⟨h.1, hle⟩)
        · exact Or.inr (by omega)
  capInfo := h'.capInfo.trans h.capInfo

def World.print (w : World) (text : Bytes) : World :=
  { w with
    globals := { w.globals with
      outputBuff := overwrite w.globals.outputBuff w.globals.buffPtr (text ++ [0])
      buffPtr := w.globals.buffPtr + text.length }
    writes := (List.range (text.length + 1)).map (w.globals.buffPtr + ·) ++ w.writes }

@[simp] theorem print_record (w : World) (text : Bytes) :
    (w.print text).globals.record = w.globals.record := rfl

@[simp] theorem print_capInfo (w : World) (text : Bytes) :
    (w.print text).globals.capInfo = w.globals.capInfo := rfl

theorem append_apply (text : Bytes) (w : World) : append text w = (.done (), w.print text) := rfl

theorem printed_print (w : World) (text : Bytes) : Printed w (w.print text) text where
  ptr := rfl
  text i hi := by
    have hi' : i < (text ++ [0]).length := by rw [List.length_append]; omega
    change overwrite _ _ _ _ = _
    rw [overwrite, if_pos (Nat.le_add_right _ _), Nat.add_sub_cancel_left,
      List.getD_eq_getElem?_getD, List.getElem?_eq_getElem hi', Option.getD_some,
      List.getElem_append_left hi]
  nul := by
    change overwrite _ _ _ (w.globals.buffPtr + text.length) = _
    rw [overwrite, if_pos (Nat.le_add_right _ _)]
    simp
  before i hi := by
    change overwrite _ _ _ _ = _
    rw [overwrite, if_neg (Nat.not_le.mpr hi)]
  writes a := by
    change a ∈ _ ++ _ ↔ _ ∨ (_ ∧ a ≤ w.globals.buffPtr + text.length)
    rw [List.mem_append, List.mem_map]
    constructor
    · rintro (⟨i, hi, rfl⟩ | h)
      · have := List.mem_range.mp hi
        exact Or.inr (by omega)
      · exact Or.inl h
    · rintro (h | h)
      · exact Or.inr h
      · exact Or.inl ⟨a - w.globals.buffPtr, List.mem_range.mpr (by omega), by omega⟩
  capInfo := rfl

theorem writePacket_apply (signedChar : Bool) (i : Nat) (w : World) :
    writePacket signedChar i w =
      (.done (), w.print (packetText signedChar (w.globals.record i))) := rfl

theorem writePackets_apply (signedChar : Bool) {n i : Nat} {w₀ w : World} {t : Bytes}
    (h : Printed w₀ w t) (hn : i + n = w.globals.capInfo.packetInfoCount) :
    ∃ w', writePackets signedChar n i w = (.done (), w') ∧
      Printed w₀ w' (t ++ [44].intercalate
        ((List.range' i n).map fun k => packetText signedChar (w.globals.record k))) := by
  induction n generalizing i w t with
  | zero => exact ⟨w, rfl, by simpa using h⟩
  | succ n ih =>
    have hone := h.trans (printed_print w (packetText signedChar (w.globals.record i)))
    rw [writePackets, bind_done (writePacket_apply signedChar i w),
      bind_done (getGlobals_apply _)]
    by_cases hlast : i + 1 < w.globals.capInfo.packetInfoCount
    · have hcomma := hone.trans (printed_print _ (ascii ","))
      obtain ⟨w', hw, hprinted⟩ := ih hcomma (i := i + 1) (by
        simp only [print_capInfo]
        omega)
      simp only [print_record] at hprinted
      refine ⟨w', ?_, ?_⟩
      · rw [print_capInfo, if_pos hlast, bind_done (append_apply _ _)]
        exact hw
      · cases n with
        | zero => omega
        | succ n =>
          have hcons : [44].intercalate ((List.range' i (n + 1 + 1)).map
                fun k => packetText signedChar (w.globals.record k)) =
              packetText signedChar (w.globals.record i) ++ (ascii "," ++
                [44].intercalate ((List.range' (i + 1) (n + 1)).map
                  fun k => packetText signedChar (w.globals.record k))) := by
            simp [List.range'_succ, List.intercalate_cons_cons, ascii]
          rw [hcons, ← List.append_assoc, ← List.append_assoc]
          exact hprinted
    · obtain rfl : n = 0 := by omega
      refine ⟨w.print (packetText signedChar (w.globals.record i)), ?_, ?_⟩
      · rw [print_capInfo, if_neg hlast]
        rfl
      · rw [List.range'_one, List.map_singleton, List.intercalate_singleton]
        exact hone

theorem generateJson_apply (signedChar : Bool) (w : World) :
    ∃ w', generateJson signedChar w = (.done (), w') ∧
      Printed { w with globals := { w.globals with buffPtr := 0 } } w'
        (document signedChar (storedRecords w.globals)) := by
  have hopen := printed_print { w with globals := { w.globals with buffPtr := 0 } }
    (ascii "\x7b\"packets\":[")
  obtain ⟨u, hu, hloop⟩ := writePackets_apply signedChar (i := 0) hopen (Nat.zero_add _)
  refine ⟨u.print (ascii "]\x7d"), ?_, ?_⟩
  · rw [generateJson, bind_done (modifyGlobals_apply _ _), bind_done (append_apply _ _),
      bind_done (getGlobals_apply _), bind_done hu]
    rfl
  · have hall := hloop.trans (printed_print u (ascii "]\x7d"))
    rw [← List.range_eq_range'] at hall
    rw [document, storedRecords, List.map_map]
    exact hall

end NetworkAnalyser.Server
