import NetworkAnalyser.GenerateJson

/-! The document as its members: eight texts a record, their lengths and the bytes they use. -/
namespace NetworkAnalyser.Server
open NetworkAnalyser.Exec NetworkAnalyser.CString NetworkAnalyser.Printf

structure PacketTexts where
  datarate : Bytes
  antenna : Bytes
  channel : Bytes
  power : Bytes
  ssid : Bytes
  src : Bytes
  dst : Bytes
  bssid : Bytes
  deriving DecidableEq

def PacketInfo.texts (signedChar : Bool) (r : PacketInfo) : PacketTexts where
  datarate := percentI r.dataRateKbps
  antenna := percentI r.antenna
  channel := percentI r.channel.toNat
  power := percentI (promoteChar signedChar r.signalPwrDbmAtAntenna)
  ssid := r.ssid.str
  src := r.ethernetSrcAddr.str
  dst := r.ethernetDstAddr.str
  bssid := r.ethernetBssId.str

namespace PacketTexts

def members (t : PacketTexts) : List (Bytes × Bytes) :=
  [(ascii "datarate", t.datarate), (ascii "antenna", t.antenna), (ascii "channel", t.channel),
    (ascii "power", t.power), (ascii "ssid", t.ssid), (ascii "src", t.src), (ascii "dst", t.dst),
    (ascii "bssid", t.bssid)]

def values (t : PacketTexts) : List Bytes := t.members.map Prod.snd

end PacketTexts

def quoted (text : Bytes) : Bytes := 34 :: (text ++ [34])

def memberText (m : Bytes × Bytes) : Bytes := quoted m.1 ++ 58 :: quoted m.2

def PacketTexts.object (t : PacketTexts) : Bytes :=
  ascii "\x7b\"packet\":\x7b" ++ [44].intercalate (t.members.map memberText) ++ ascii "\x7d\x7d"

theorem packetText_eq (signedChar : Bool) (r : PacketInfo) :
    packetText signedChar r = (r.texts signedChar).object := by
  simp [packetText, PacketTexts.object, PacketTexts.members, PacketInfo.texts, memberText, quoted,
    List.intercalate_cons_cons, ascii]

/-- The texts of the stored records, in array order. -/
def storedTexts (signedChar : Bool) (g : Globals) : List PacketTexts :=
  (storedRecords g).map (PacketInfo.texts signedChar)

def documentOf (ts : List PacketTexts) : Bytes :=
  ascii "\x7b\"packets\":[" ++ [44].intercalate (ts.map PacketTexts.object) ++ ascii "]\x7d"

theorem document_eq (signedChar : Bool) (g : Globals) :
    document signedChar (storedRecords g) = documentOf (storedTexts signedChar g) := by
  rw [document, documentOf, storedTexts, List.map_map]
  exact congrArg (fun f => _ ++ [44].intercalate ((storedRecords g).map f) ++ _)
    (funext (packetText_eq signedChar))

theorem object_length (t : PacketTexts) :
    t.object.length = 102 + (t.values.map List.length).sum := by
  simp [PacketTexts.object, PacketTexts.values, PacketTexts.members, memberText, quoted,
    List.intercalate_cons_cons, ascii]
  omega

theorem intercalate_length {α : Type} (c : α) (ls : List (List α)) :
    ([c].intercalate ls).length = (ls.map List.length).sum + (ls.length - 1) := by
  induction ls with
  | nil => rfl
  | cons l ls ih =>
    cases ls with
    | nil => simp
    | cons m ls =>
      rw [List.intercalate_cons_cons]
      simp only [List.length_append, ih, List.map_cons, List.sum_cons, List.length_cons,
        List.length_nil]
      omega

theorem documentOf_length (ts : List PacketTexts) : (documentOf ts).length =
    14 + (ts.map fun t => 102 + (t.values.map List.length).sum).sum + (ts.length - 1) := by
  have hlen : (ts.map PacketTexts.object).map List.length =
      ts.map fun t => 102 + (t.values.map List.length).sum := by
    rw [List.map_map]
    exact List.map_congr_left fun t _ => object_length t
  have hopen : (ascii "\x7b\"packets\":[").length = 12 := by decide
  have hclose : (ascii "]\x7d").length = 2 := by decide
  rw [documentOf, List.length_append, List.length_append, intercalate_length, hlen,
    List.length_map, hopen, hclose]
  omega

theorem nul_notMem_percentI (i : Int) : (0 : UInt8) ∉ percentI i := by
  intro h
  cases percentI_isDigit i 0 h with
  | inl h => exact absurd h (by decide)
  | inr h =>
    cases h with
    | inl h => exact absurd h.1 (by decide)
    | inr h => exact absurd h.1 (by decide)

theorem nul_notMem_values (signedChar : Bool) (r : PacketInfo) :
    ∀ v ∈ (r.texts signedChar).values, (0 : UInt8) ∉ v := by
  intro v hv
  simp only [PacketTexts.values, PacketTexts.members, PacketInfo.texts, List.map_cons,
    List.map_nil, List.mem_cons, List.not_mem_nil, or_false] at hv
  rcases hv with rfl | rfl | rfl | rfl | rfl | rfl | rfl | rfl
  · exact nul_notMem_percentI _
  · exact nul_notMem_percentI _
  · exact nul_notMem_percentI _
  · exact nul_notMem_percentI _
  · exact nul_notMem_cstr _
  · exact nul_notMem_cstr _
  · exact nul_notMem_cstr _
  · exact nul_notMem_cstr _

theorem mem_intercalate {α : Type} {c x : α} {ls : List (List α)}
    (h : x ∈ [c].intercalate ls) : x = c ∨ ∃ l ∈ ls, x ∈ l := by
  induction ls with
  | nil => simp [List.intercalate_nil] at h
  | cons l ls ih =>
    cases ls with
    | nil => exact Or.inr ⟨l, List.mem_cons_self, by simpa using h⟩
    | cons m ls =>
      rw [List.intercalate_cons_cons, List.mem_append, List.mem_append, List.mem_singleton] at h
      cases h with
      | inl h =>
        cases h with
        | inl h => exact Or.inr ⟨l, List.mem_cons_self, h⟩
        | inr h => exact Or.inl h
      | inr h =>
        cases ih h with
        | inl h => exact Or.inl h
        | inr h =>
          obtain ⟨k, hk, hx⟩ := h
          exact Or.inr ⟨k, List.mem_cons_of_mem l hk, hx⟩

theorem nul_notMem_object {t : PacketTexts} (h : ∀ v ∈ t.values, (0 : UInt8) ∉ v) :
    (0 : UInt8) ∉ t.object := by
  intro hmem
  rw [PacketTexts.object, List.mem_append, List.mem_append] at hmem
  rcases hmem with (hmem | hmem) | hmem
  · revert hmem
    decide
  · cases mem_intercalate hmem with
    | inl hc => exact absurd hc (by decide)
    | inr hm =>
      obtain ⟨l, hl, hx⟩ := hm
      obtain ⟨m, hm, rfl⟩ := List.mem_map.mp hl
      have hname : (0 : UInt8) ∉ m.1 := by
        have hnames : ∀ n ∈ t.members.map Prod.fst, (0 : UInt8) ∉ n := by
          change ∀ n ∈ [ascii "datarate", ascii "antenna", ascii "channel", ascii "power",
            ascii "ssid", ascii "src", ascii "dst", ascii "bssid"], (0 : UInt8) ∉ n
          decide
        exact hnames _ (List.mem_map_of_mem hm)
      have hvalue : (0 : UInt8) ∉ m.2 := h _ (List.mem_map_of_mem hm)
      simp [memberText, quoted, hname, hvalue] at hx
  · revert hmem
    decide

theorem nul_notMem_document (signedChar : Bool) (g : Globals) :
    (0 : UInt8) ∉ documentOf (storedTexts signedChar g) := by
  intro hmem
  rw [documentOf, List.mem_append, List.mem_append] at hmem
  rcases hmem with (hmem | hmem) | hmem
  · revert hmem
    decide
  · cases mem_intercalate hmem with
    | inl hc => exact absurd hc (by decide)
    | inr hm =>
      obtain ⟨l, hl, hx⟩ := hm
      obtain ⟨t, ht, rfl⟩ := List.mem_map.mp hl
      obtain ⟨r, _, rfl⟩ := List.mem_map.mp ht
      exact nul_notMem_object (nul_notMem_values signedChar r) hx
  · revert hmem
    decide

/-- What is sent after a run: the document, as much of it as the buffer holds. -/
theorem outputText_generateJson (signedChar : Bool) {g : Globals} {w : World}
    (h : generateJson signedChar (World.start g) = (.done (), w)) :
    outputText w.globals = (documentOf (storedTexts signedChar g)).take maxOutputBufferSize := by
  obtain ⟨w', hw, hprinted⟩ := generateJson_apply signedChar (World.start g)
  obtain rfl : w = w' := (Prod.mk.inj (h.symm.trans hw)).2
  change Printed _ w (document signedChar (storedRecords g)) at hprinted
  rw [document_eq] at hprinted
  refine cstr_window (fun i hi => ?_) ?_ (nul_notMem_document signedChar g) maxOutputBufferSize
  · have := hprinted.text i hi
    rwa [Nat.zero_add] at this
  · have := hprinted.nul
    rwa [hprinted.ptr, Nat.zero_add] at this

end NetworkAnalyser.Server
