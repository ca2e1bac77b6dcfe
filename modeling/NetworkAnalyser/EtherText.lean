import NetworkAnalyser.ParseEthernet

/-! The texts in a record: the SSID as it is copied and the addresses as `ether_ntoa` prints
them, read back as C strings. -/
namespace NetworkAnalyser.Server
open NetworkAnalyser.Exec NetworkAnalyser.CString NetworkAnalyser.Printf

theorem str_of_bytes {n : Nat} {a : CharArray n} {s rest : Bytes}
    (h : a.bytes = s ++ 0 :: rest) : a.str = cstr s := by
  rw [CharArray.str, h, cstr_append_nul]

theorem percentX_octet_length (b : UInt8) : (percentX b.toNat).length ≤ 2 :=
  unsigned_length_le (by decide) (by decide) (by simpa using b.toNat_lt)

theorem colon_notMem_percentX (n : Nat) : (58 : UInt8) ∉ percentX n := by
  intro h
  cases percentX_isDigit n 58 h with
  | inl h => exact absurd h.2 (by decide)
  | inr h => exact absurd h.1 (by decide)

theorem nul_notMem_percentX (n : Nat) : (0 : UInt8) ∉ percentX n := by
  intro h
  cases percentX_isDigit n 0 h with
  | inl h => exact absurd h.1 (by decide)
  | inr h => exact absurd h.1 (by decide)

theorem etherText_cons_cons (a b : UInt8) (s : Bytes) :
    etherText (a :: b :: s) = percentX a.toNat ++ 58 :: etherText (b :: s) := by
  simp [etherText, List.intercalate_cons_cons]

theorem etherText_length_lt {s : Bytes} (hs : s ≠ []) : (etherText s).length < 3 * s.length := by
  induction s with
  | nil => exact absurd rfl hs
  | cons a s ih =>
    have ha := percentX_octet_length a
    cases s with
    | nil =>
      simp only [etherText, List.map_cons, List.map_nil, List.intercalate_singleton,
        List.length_cons, List.length_nil]
      omega
    | cons b s =>
      have hrest := ih (by simp)
      rw [etherText_cons_cons, List.length_append, List.length_cons]
      simp only [List.length_cons] at hrest ⊢
      omega

theorem mem_etherText {s : Bytes} {c : UInt8} (h : c ∈ etherText s) :
    c = 58 ∨ ∃ b ∈ s, c ∈ percentX b.toNat := by
  induction s with
  | nil => simp [etherText] at h
  | cons a s ih =>
    cases s with
    | nil => exact Or.inr ⟨a, by simp, by simpa [etherText] using h⟩
    | cons b s =>
      rw [etherText_cons_cons, List.mem_append, List.mem_cons] at h
      cases h with
      | inl h => exact Or.inr ⟨a, List.mem_cons_self, h⟩
      | inr h =>
        cases h with
        | inl h => exact Or.inl h
        | inr h =>
          cases ih h with
          | inl h => exact Or.inl h
          | inr h =>
            obtain ⟨d, hd, hc⟩ := h
            exact Or.inr ⟨d, List.mem_cons_of_mem a hd, hc⟩

theorem nul_notMem_etherText (s : Bytes) : 0 ∉ etherText s := by
  intro h
  cases mem_etherText h with
  | inl h => exact absurd h (by decide)
  | inr h =>
    obtain ⟨b, _, hb⟩ := h
    exact nul_notMem_percentX _ hb

theorem etherText_inj {s t : Bytes} (hs : s ≠ []) (ht : t ≠ []) (h : etherText s = etherText t) :
    s = t := by
  have hsplit : ∀ u : Bytes, u ≠ [] →
      (etherText u).splitOn 58 = u.map fun b => percentX b.toNat := by
    intro u hu
    refine List.splitOn_intercalate 58 (fun l hl => ?_) (by simpa using hu)
    obtain ⟨b, _, rfl⟩ := List.mem_map.mp hl
    exact colon_notMem_percentX _
  have hmap : s.map (fun b => percentX b.toNat) = t.map fun b => percentX b.toNat := by
    rw [← hsplit s hs, h, hsplit t ht]
  exact List.map_injective_iff.mpr (fun a b hab => UInt8.toNat_inj.mp (percentX_inj hab)) hmap

@[simp] theorem addr_length (pkt : Packet) (off : Nat) : (pkt.addr off).length = 6 := by
  simp [Packet.addr]

theorem addr_ne_nil (pkt : Packet) (off : Nat) : pkt.addr off ≠ [] :=
  List.ne_nil_of_length_pos (by simp)

theorem addr_text_length_le (pkt : Packet) (off : Nat) :
    (etherText (pkt.addr off)).length ≤ 17 := by
  have := etherText_length_lt (addr_ne_nil pkt off)
  rw [addr_length] at this
  omega

theorem fillAddr_bytes (ntoa a : CharArray 18) :
    (fillAddr ntoa a).bytes = ntoa.bytes.take 17 ++ [0] := by
  have hfront : (List.range 17).map (fun i => ntoa.bytes.getD i 0) = ntoa.bytes.take 17 := by
    apply List.ext_getElem
    · simp [ntoa.size_eq]
    · intro i hi _
      have hlt : i < 17 := by simpa using hi
      have : i < ntoa.bytes.length := by rw [ntoa.size_eq]; omega
      simp [this]
  have hback : (a.bytes.drop 17).length = 1 := by rw [List.length_drop, a.size_eq]
  obtain ⟨c, hc⟩ := List.length_eq_one_iff.mp hback
  rw [fillAddr, CharArray.set_bytes, CharArray.copyFrom_bytes _ _ _ (by omega), hfront, hc,
    List.set_append_right _ _ (by simp [ntoa.size_eq])]
  simp [ntoa.size_eq]

theorem ntoaBuffer_bytes (old : CharArray 18) {text : Bytes} (h : text.length ≤ 17) :
    (ntoaBuffer old text).bytes = text ++ 0 :: old.bytes.drop (text.length + 1) := by
  have hfront : (List.range (text.length + 1)).map (fun i => (text ++ [0]).getD i 0) =
      text ++ [0] := by
    apply List.ext_getElem
    · simp
    · intro i hi _
      have hlt : i < (text ++ [0]).length := by simpa using hi
      simp only [List.getElem_map, List.getElem_range, List.getD_eq_getElem?_getD,
        List.getElem?_eq_getElem hlt, Option.getD_some]
  rw [ntoaBuffer, CharArray.copyFrom_bytes _ _ _ (by omega), hfront, List.append_assoc]
  rfl

/-- The 17 bytes copied may reach past the text, the string they hold is the text. -/
theorem fillAddr_ntoaBuffer_str (old a : CharArray 18) {text : Bytes} (h : text.length ≤ 17)
    (hnul : 0 ∉ text) : (fillAddr (ntoaBuffer old text) a).str = text := by
  have hbytes : ∃ rest, (fillAddr (ntoaBuffer old text) a).bytes = text ++ 0 :: rest := by
    rw [fillAddr_bytes, ntoaBuffer_bytes old h, List.take_append, List.take_of_length_le h]
    cases hroom : 17 - text.length with
    | zero => exact ⟨[], by simp⟩
    | succ k => exact ⟨_, by rw [List.take_succ_cons, List.append_assoc, List.cons_append]⟩
  obtain ⟨rest, hrest⟩ := hbytes
  rw [str_of_bytes hrest, cstr_eq_self hnul]

def Packet.tagLen (pkt : Packet) : Nat := (pkt.byte tagLength).toNat

def Packet.ssidBytes (pkt : Packet) : Bytes :=
  (List.range pkt.tagLen).map fun i => pkt.byte (ssidStart + i)

def ssidArray (pkt : Packet) (a : CharArray maxSsidCharCount) : CharArray maxSsidCharCount :=
  (a.copyFrom (fun i => pkt.byte (ssidStart + i)) pkt.tagLen).set pkt.tagLen 0

theorem ssidArray_bytes (pkt : Packet) (a : CharArray maxSsidCharCount)
    (h : pkt.tagLen < maxSsidCharCount) :
    (ssidArray pkt a).bytes = pkt.ssidBytes ++ 0 :: a.bytes.drop (pkt.tagLen + 1) := by
  have hlen : pkt.ssidBytes.length = pkt.tagLen := by simp [Packet.ssidBytes]
  have hlt : pkt.tagLen < a.bytes.length := by rwa [a.size_eq]
  rw [ssidArray, CharArray.set_bytes, CharArray.copyFrom_bytes _ _ _ (Nat.le_of_lt h)]
  change (pkt.ssidBytes ++ _).set pkt.tagLen 0 = _
  rw [List.set_append_right _ _ hlen.le, hlen, Nat.sub_self, List.drop_eq_getElem_cons hlt,
    List.set_cons_zero]

theorem ssidArray_str (pkt : Packet) (a : CharArray maxSsidCharCount)
    (h : pkt.tagLen < maxSsidCharCount) : (ssidArray pkt a).str = cstr pkt.ssidBytes :=
  str_of_bytes (ssidArray_bytes pkt a h)

end NetworkAnalyser.Server
