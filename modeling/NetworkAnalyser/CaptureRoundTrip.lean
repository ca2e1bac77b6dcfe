import NetworkAnalyser.ServerRun
import NetworkAnalyser.NetworkCaptureData

/-! What the client reads of the text the server generates. -/
namespace NetworkAnalyser.Server
open NetworkAnalyser.Exec NetworkAnalyser.CString NetworkAnalyser.Printf NetworkAnalyser.Json
open NetworkAnalyser.Client (javaString javaText memberNames readCapture packetsValue)

/-- The client's packet holds the texts of the record, member by member. -/
def Holds (p : Client.Packet) (t : PacketTexts) : Prop :=
  List.Forall₂ (fun s b => javaText b = some s) p.packet.values t.values

/-- The text generated from the globals is one JSON document, and the client reads as many
packets as are stored, in their order and with their texts. -/
def RoundTrips (signedChar : Bool) (g : Globals) : Prop :=
  ∃ w data, generateJson signedChar (World.start g) = (.done (), w) ∧
    readCapture (outputText w.globals) = some data ∧
    data.packets.length = g.capInfo.packetInfoCount ∧
    List.Forall₂ Holds data.packets (storedTexts signedChar g)

/-- Valid UTF-8 without quotes, backslashes and control characters. -/
def PlainText (b : Bytes) : Prop := ∃ cs, Utf8.decode b = some cs ∧ ∀ c ∈ cs, Unescaped c

def chars (b : Bytes) : List Char := (Utf8.decode b).getD []

theorem PlainText.spec {b : Bytes} (h : PlainText b) :
    Utf8.encode (chars b) = b ∧ javaText b = some (.ofChars (chars b)) ∧
      ∀ c ∈ chars b, Unescaped c := by
  obtain ⟨cs, hdec, hcs⟩ := h
  have hchars : chars b = cs := by rw [chars, hdec, Option.getD_some]
  rw [hchars, javaText, hdec]
  exact ⟨(Utf8.decode_eq_some_iff.mp hdec).symm, rfl, hcs⟩

theorem encode_toList {s : String} (h : ∀ c ∈ s.toList, c.toNat < 0x80) :
    Utf8.encode s.toList = ascii s :=
  Utf8.encode_ascii h

theorem encode_quotedText (cs : List Char) :
    Utf8.encode (quotedText cs) = quoted (Utf8.encode cs) := by
  have hquote : Utf8.encode ['"'] = [34] := by decide
  rw [quotedText, quoted, ← List.singleton_append, Utf8.encode_append, Utf8.encode_append, hquote]
  rfl

theorem encode_objectText (ms : List (List Char × List Char)) :
    Utf8.encode (objectText ms) =
      123 :: ([44].intercalate
        (ms.map fun m => quoted (Utf8.encode m.1) ++ 58 :: Utf8.encode m.2) ++ [125]) := by
  have hopen : Utf8.encode ['\x7b'] = [123] := by decide
  have hclose : Utf8.encode ['\x7d'] = [125] := by decide
  have hcomma : Utf8.encode [','] = [44] := by decide
  have hcolon : Utf8.encode [':'] = [58] := by decide
  have hpair : ∀ m : List Char × List Char,
      Utf8.encode (pairText m) = quoted (Utf8.encode m.1) ++ 58 :: Utf8.encode m.2 := by
    intro m
    rw [pairText, ← List.singleton_append, Utf8.encode_append, Utf8.encode_append, hcolon,
      encode_quotedText]
    rfl
  rw [objectText, ← List.singleton_append, Utf8.encode_append, Utf8.encode_append,
    Utf8.encode_intercalate, hopen, hclose, hcomma, List.map_map]
  exact congrArg (fun f => 123 :: ([44].intercalate (ms.map f) ++ [125])) (funext hpair)

theorem encode_arrayText (ts : List (List Char)) :
    Utf8.encode (arrayText ts) = 91 :: ([44].intercalate (ts.map Utf8.encode) ++ [93]) := by
  have hopen : Utf8.encode ['['] = [91] := by decide
  have hclose : Utf8.encode [']'] = [93] := by decide
  have hcomma : Utf8.encode [','] = [44] := by decide
  rw [arrayText, ← List.singleton_append, Utf8.encode_append, Utf8.encode_append,
    Utf8.encode_intercalate, hopen, hclose, hcomma]
  rfl

def PacketTexts.named (t : PacketTexts) : List (String × Bytes) := memberNames.zip t.values

def PacketTexts.chars (t : PacketTexts) : List Char :=
  objectText [("packet".toList,
    objectText (t.named.map fun m => (m.1.toList, quotedText (Server.chars m.2))))]

def documentChars (ts : List PacketTexts) : List Char :=
  objectText [("packets".toList, arrayText (ts.map PacketTexts.chars))]

def PacketTexts.packet (t : PacketTexts) : Client.Packet where
  packet :=
    { datarate := .ofChars (Server.chars t.datarate)
      antenna := .ofChars (Server.chars t.antenna)
      channel := .ofChars (Server.chars t.channel)
      power := .ofChars (Server.chars t.power)
      ssid := .ofChars (Server.chars t.ssid)
      src := .ofChars (Server.chars t.src)
      dst := .ofChars (Server.chars t.dst)
      bssid := .ofChars (Server.chars t.bssid) }

theorem unescaped_names : ∀ n ∈ "packet" :: "packets" :: memberNames,
    (∀ c ∈ n.toList, Unescaped c) ∧ ∀ c ∈ n.toList, c.toNat < 0x80 := by
  intro n hn
  have hall : ("packet" :: "packets" :: memberNames).all (fun n =>
      n.toList.all fun c => decide (Unescaped c ∧ c.toNat < 0x80)) = true := by
    decide
  have hchars : ∀ c ∈ n.toList, Unescaped c ∧ c.toNat < 0x80 := fun c hc =>
    of_decide_eq_true (List.all_eq_true.mp (List.all_eq_true.mp hall n hn) c hc)
  exact ⟨fun c hc => (hchars c hc).1, fun c hc => (hchars c hc).2⟩

section plain
variable {t : PacketTexts} (h : ∀ b ∈ t.values, PlainText b)
include h

theorem PacketTexts.derives : Derives (.value t.packet.toValue) t.chars := by
  have hmembers : ∀ m ∈ t.named, (∀ c ∈ m.1.toList, Unescaped c) ∧
      Derives (.value (.str (.ofChars (Server.chars m.2)))) (quotedText (Server.chars m.2)) := by
    intro m hm
    obtain ⟨hname, hvalue⟩ := List.of_mem_zip hm
    exact ⟨(unescaped_names m.1 (by simp [hname])).1, derives_quoted (h m.2 hvalue).spec.2.2⟩
  have hinner : Derives (.value t.packet.packet.toValue)
      (objectText (t.named.map fun m => (m.1.toList, quotedText (Server.chars m.2)))) :=
    derives_object hmembers
  exact derives_object_singleton (unescaped_names "packet" (by simp)).1 hinner

theorem PacketTexts.encode_chars : Utf8.encode t.chars = t.object := by
  have hmembers : (t.named.map fun m => (m.1.toList, quotedText (Server.chars m.2))).map
        (fun m => quoted (Utf8.encode m.1) ++ 58 :: Utf8.encode m.2) =
      t.members.map memberText := by
    have hnamed : t.members = t.named.map fun m => (ascii m.1, m.2) := rfl
    rw [hnamed, List.map_map, List.map_map]
    refine List.map_congr_left fun m hm => ?_
    obtain ⟨hname, hvalue⟩ := List.of_mem_zip hm
    change quoted (Utf8.encode m.1.toList) ++ 58 :: Utf8.encode (quotedText (Server.chars m.2)) =
      quoted (ascii m.1) ++ 58 :: quoted m.2
    rw [encode_toList (unescaped_names m.1 (by simp [hname])).2, encode_quotedText,
      (h m.2 hvalue).spec.1]
  have hopen : (123 :: quoted (ascii "packet")) ++ [58, 123] = ascii "\x7b\"packet\":\x7b" := by
    decide
  have hclose : ascii "\x7d\x7d" = [125, 125] := by decide
  rw [PacketTexts.chars, encode_objectText, List.map_singleton, List.intercalate_singleton,
    encode_objectText, hmembers, encode_toList (unescaped_names "packet" (by simp)).2,
    PacketTexts.object, ← hopen, hclose]
  simp

theorem PacketTexts.holds : Holds t.packet t := by
  have hall : ∀ {bs : List Bytes}, (∀ b ∈ bs, PlainText b) →
      List.Forall₂ (fun s b => javaText b = some s)
        (bs.map fun b => JString.ofChars (Server.chars b)) bs := by
    intro bs hbs
    rw [List.forall₂_map_left_iff, List.forall₂_same]
    exact fun b hb => (hbs b hb).spec.2.1
  exact hall h

end plain

section document
variable {ts : List PacketTexts} (h : ∀ t ∈ ts, ∀ b ∈ t.values, PlainText b)
include h

theorem documentChars_derives :
    Derives (.value (packetsValue (ts.map PacketTexts.packet))) (documentChars ts) := by
  have hpackets : Derives (.value (.arr ((ts.map PacketTexts.packet).map Client.Packet.toValue)))
      (arrayText (ts.map PacketTexts.chars)) := by
    rw [List.map_map]
    exact derives_array fun t ht => PacketTexts.derives (h t ht)
  exact derives_object_singleton (unescaped_names "packets" (by simp)).1 hpackets

theorem encode_documentChars : Utf8.encode (documentChars ts) = documentOf ts := by
  have hobjects : (ts.map PacketTexts.chars).map Utf8.encode = ts.map PacketTexts.object := by
    rw [List.map_map]
    exact List.map_congr_left fun t ht => PacketTexts.encode_chars (h t ht)
  have hopen : (123 :: quoted (ascii "packets")) ++ [58, 91] = ascii "\x7b\"packets\":[" := by
    decide
  have hclose : ascii "]\x7d" = [93, 125] := by decide
  rw [documentChars, encode_objectText, List.map_singleton, List.intercalate_singleton,
    encode_arrayText, hobjects, encode_toList (unescaped_names "packets" (by simp)).2,
    documentOf, ← hopen, hclose]
  simp

end document

theorem document_of_fits {signedChar : Bool} {g : Globals} (hfit : OutputFits signedChar g) :
    ∃ w, generateJson signedChar (World.start g) = (.done (), w) ∧
      outputText w.globals = documentOf (storedTexts signedChar g) := by
  obtain ⟨w, hw, _⟩ := generateJson_apply signedChar (World.start g)
  refine ⟨w, hw, ?_⟩
  rw [outputText_generateJson signedChar hw]
  exact List.take_of_length_le (Nat.le_of_lt ((outputFits_iff_length signedChar g).mp hfit))

theorem storedTexts_length (signedChar : Bool) (g : Globals) :
    (storedTexts signedChar g).length = g.capInfo.packetInfoCount := by
  simp [storedTexts, storedRecords]

theorem roundTrips_of_plain {signedChar : Bool} {g : Globals} (hfit : OutputFits signedChar g)
    (h : ∀ t ∈ storedTexts signedChar g, ∀ b ∈ t.values, PlainText b) :
    RoundTrips signedChar g := by
  obtain ⟨w, hw, htext⟩ := document_of_fits hfit
  refine ⟨w, ⟨none, (storedTexts signedChar g).map PacketTexts.packet⟩, hw, ?_, ?_, ?_⟩
  · rw [htext, ← encode_documentChars h, readCapture, Utf8.decode_encode, Option.bind_eq_bind,
      Option.bind_some, parseDocument_complete (documentChars_derives h)]
    exact Client.NetworkCaptureData.ofValue_packetsValue _
  · rw [List.length_map, storedTexts_length]
  · rw [List.forall₂_map_left_iff, List.forall₂_same]
    exact fun t ht => PacketTexts.holds (h t ht)

theorem javaText_size {b : Bytes} {s : JString} (h : javaText b = some s) : s.size = b.length := by
  obtain ⟨cs, hdec, rfl⟩ := Option.map_eq_some_iff.mp h
  rw [Utf8.decode_eq_some_iff.mp hdec, Utf8.encode_length]
  clear hdec h
  induction cs with
  | nil => rfl
  | cons c cs ih => rw [ofChars_cons, size_append, size_utf16, ih, Utf8.textSize_cons]

theorem plainText_of_javaText {b : Bytes} {s : JString} (h : javaText b = some s)
    (hplain : s.Plain) : PlainText b := by
  obtain ⟨cs, hdec, rfl⟩ := Option.map_eq_some_iff.mp h
  refine ⟨cs, hdec, fun c hc => (plain_utf16_iff c).mp fun u hu => hplain u ?_⟩
  exact List.mem_flatMap.mpr ⟨c, hc, hu⟩

theorem Holds.size {p : Client.Packet} {t : PacketTexts} (h : Holds p t) :
    p.packet.values.map JString.size = t.values.map List.length := by
  rw [← List.forall₂_eq_eq_eq, List.forall₂_map_left_iff, List.forall₂_map_right_iff]
  exact h.imp fun s b hs => javaText_size hs

theorem forall₂_exists_left {α β : Type} {R : α → β → Prop} {as : List α} {bs : List β}
    (h : List.Forall₂ R as bs) : ∀ b ∈ bs, ∃ a ∈ as, R a b := by
  induction h with
  | nil => simp
  | cons hab _ ih =>
    intro b hb
    cases List.mem_cons.mp hb with
    | inl hb => exact ⟨_, List.mem_cons_self, hb ▸ hab⟩
    | inr hb =>
      obtain ⟨a, ha, hr⟩ := ih b hb
      exact ⟨a, List.mem_cons_of_mem _ ha, hr⟩

theorem Holds.plain {p : Client.Packet} {t : PacketTexts} (h : Holds p t)
    (hplain : ∀ s ∈ p.packet.values, s.Plain) : ∀ b ∈ t.values, PlainText b := by
  intro b hb
  obtain ⟨s, hs, hsb⟩ := forall₂_exists_left h b hb
  exact plainText_of_javaText hsb (hplain s hs)

theorem plain_of_roundTrips {signedChar : Bool} {g : Globals} (hfit : OutputFits signedChar g)
    (h : RoundTrips signedChar g) :
    ∀ t ∈ storedTexts signedChar g, ∀ b ∈ t.values, PlainText b := by
  obtain ⟨w, data, hw, hread, hcount, hholds⟩ := h
  obtain ⟨w', hw', htext⟩ := document_of_fits hfit
  obtain rfl : w = w' := (Prod.mk.inj (hw.symm.trans hw')).2
  rw [htext, readCapture] at hread
  obtain ⟨cs, hdec, hread⟩ := Option.bind_eq_some_iff.mp hread
  obtain ⟨v, hparse, hdata⟩ := Option.bind_eq_some_iff.mp hread
  obtain ⟨t, blanks, rfl, hderives, _⟩ := parseDocument_sound hparse
  obtain ⟨hroom, hplain⟩ := Client.NetworkCaptureData.room hdata
  have hlen : (documentOf (storedTexts signedChar g)).length =
      Utf8.textSize t + Utf8.textSize blanks := by
    rw [Utf8.decode_eq_some_iff.mp hdec, Utf8.encode_length, Utf8.textSize_append]
  have hsizes : (data.packets.map fun p => 102 + (p.packet.values.map JString.size).sum) =
      (storedTexts signedChar g).map fun t => 102 + (t.values.map List.length).sum := by
    rw [← List.forall₂_eq_eq_eq, List.forall₂_map_left_iff, List.forall₂_map_right_iff]
    exact hholds.imp fun p t hpt => by rw [hpt.size]
  -- the text has no byte to spare
  have hleast : v.size ≤ Utf8.textSize t := hderives.size_le
  rw [Client.size_packetsValue, hsizes, hholds.length_eq, ← documentOf_length] at hroom
  have hexact : Utf8.textSize t = v.size := by omega
  have hall := hplain (hderives.plain hexact)
  intro u hu
  obtain ⟨p, hp, hpt⟩ := forall₂_exists_left hholds u hu
  exact hpt.plain (hall p hp)

theorem plainText_of_ascii {b : Bytes} (h : ∀ c ∈ b, 0x20 ≤ c ∧ c < 0x80 ∧ c ≠ 34 ∧ c ≠ 92) :
    PlainText b := by
  have hchar : ∀ c ∈ b, (Char.ofNat c.toNat).toNat = c.toNat := by
    intro c hc
    have hlt : c.toNat < 0x80 := (h c hc).2.1
    have hvalid : c.toNat.isValidChar := Or.inl (by omega)
    rw [Char.ofNat, dif_pos hvalid]
    rfl
  refine ⟨b.map fun c => Char.ofNat c.toNat, Utf8.decode_eq_some_iff.mpr ?_, fun d hd => ?_⟩
  · rw [Utf8.encode_ascii, List.map_map]
    · refine (List.map_id b).symm.trans (List.map_congr_left fun c hc => ?_)
      change c = (Char.ofNat c.toNat).toNat.toUInt8
      rw [hchar c hc]
      exact UInt8.ofNat_toNat.symm
    · intro d hd
      obtain ⟨c, hc, rfl⟩ := List.mem_map.mp hd
      rw [hchar c hc]
      exact (h c hc).2.1
  · obtain ⟨c, hc, rfl⟩ := List.mem_map.mp hd
    obtain ⟨hprint, _, hquote, hslash⟩ := h c hc
    refine ⟨?_, fun he => hquote ?_, fun he => hslash ?_⟩
    · rw [hchar c hc]
      exact hprint
    · have := congrArg Char.toNat he
      rw [hchar c hc] at this
      exact UInt8.toNat_inj.mp this
    · have := congrArg Char.toNat he
      rw [hchar c hc] at this
      exact UInt8.toNat_inj.mp this

theorem plainText_of_digits {b : Bytes} (h : ∀ c ∈ b, c = 45 ∨ c = 58 ∨ IsDigit c) :
    PlainText b := by
  refine plainText_of_ascii fun c hc => ?_
  simp only [ne_eq, ← UInt8.toNat_inj, UInt8.le_iff_toNat_le, UInt8.lt_iff_toNat_lt]
  rcases h c hc with rfl | rfl | hd
  · decide
  · decide
  · simp only [IsDigit, UInt8.le_iff_toNat_le] at hd
    simp only [UInt8.reduceToNat] at hd ⊢
    omega

theorem plainText_percentI (i : Int) : PlainText (percentI i) :=
  plainText_of_digits fun c hc => (percentI_isDigit i c hc).imp id Or.inr

theorem AddressText.plainText {b : Bytes} (h : AddressText b) : PlainText b :=
  plainText_of_digits fun c hc => Or.inr (h c hc)

theorem Captured.plain {signedChar : Bool} {g : Globals} (hg : Captured g)
    (h : ∀ t ∈ storedTexts signedChar g, PlainText t.ssid) :
    ∀ t ∈ storedTexts signedChar g, ∀ b ∈ t.values, PlainText b := by
  intro t ht b hb
  have hssid := h t ht
  obtain ⟨r, hr, rfl⟩ := List.mem_map.mp ht
  obtain ⟨i, _, rfl⟩ := List.mem_map.mp hr
  obtain ⟨hsrc, hdst, hbss⟩ := hg.allAddressed i
  simp only [PacketTexts.values, PacketTexts.members, PacketInfo.texts, List.map_cons,
    List.map_nil, List.mem_cons, List.not_mem_nil, or_false] at hb
  rcases hb with rfl | rfl | rfl | rfl | rfl | rfl | rfl | rfl
  · exact plainText_percentI _
  · exact plainText_percentI _
  · exact plainText_percentI _
  · exact plainText_percentI _
  · exact hssid
  · exact hsrc.plainText
  · exact hdst.plainText
  · exact hbss.plainText

/-- The response to a capture comes back exactly when the stored SSIDs are plain. -/
theorem round_trips_iff {signedChar : Bool} {g : Globals} (hg : Captured g)
    (hfit : OutputFits signedChar g) :
    RoundTrips signedChar g ↔ ∀ t ∈ storedTexts signedChar g, PlainText t.ssid := by
  constructor
  · intro h t ht
    exact plain_of_roundTrips hfit h t ht t.ssid (by simp [PacketTexts.values, PacketTexts.members])
  · intro h
    exact roundTrips_of_plain hfit (hg.plain h)

theorem neighbourBeacon_round_trips : ∃ g,
    capturePackets 15 .initial [.of neighbourBeacon] = some g ∧
      (RoundTrips false g ↔ ∀ t ∈ storedTexts false g, PlainText t.ssid) := by
  obtain ⟨g, hg⟩ : ∃ g, capturePackets 15 .initial [.of neighbourBeacon] = some g :=
    Option.isSome_iff_exists.mp (by decide +kernel)
  have hfit : ∀ u ∈ capturePackets 15 .initial [.of neighbourBeacon],
      (documentOf (storedTexts false u)).length < maxOutputBufferSize := by
    decide +kernel
  exact ⟨g, hg, round_trips_iff ⟨15, _, _, .start, hg⟩
    ((outputFits_iff_length false g).mpr (hfit g hg))⟩

def quoteBeacon : Packet := typicalBeacon [0, 1, 2, 3, 4, 10] (ascii "my\"net")

theorem quoteBeacon_not_round_trips : ∃ g,
    capturePackets 15 .initial [.of quoteBeacon] = some g ∧ OutputFits false g ∧
      ¬ RoundTrips false g := by
  obtain ⟨g, hg⟩ : ∃ g, capturePackets 15 .initial [.of quoteBeacon] = some g :=
    Option.isSome_iff_exists.mp (by decide +kernel)
  have hfit : ∀ u ∈ capturePackets 15 .initial [.of quoteBeacon],
      (documentOf (storedTexts false u)).length < maxOutputBufferSize := by
    decide +kernel
  have hssid : ∀ u ∈ capturePackets 15 .initial [.of quoteBeacon],
      ascii "my\"net" ∈ (storedTexts false u).map PacketTexts.ssid := by
    decide +kernel
  have hfits := (outputFits_iff_length false g).mpr (hfit g hg)
  refine ⟨g, hg, hfits, fun h => ?_⟩
  obtain ⟨t, ht, hname⟩ := List.mem_map.mp (hssid g hg)
  obtain ⟨cs, hdec, hcs⟩ := plain_of_roundTrips hfits h t ht t.ssid
    (by simp [PacketTexts.values, PacketTexts.members])
  have hascii : ("my\"net".toList.all fun c => decide (c.toNat < 0x80)) = true := by decide
  rw [hname, ← encode_toList fun c hc => of_decide_eq_true (List.all_eq_true.mp hascii c hc),
    Utf8.decode_encode] at hdec
  obtain rfl := Option.some.inj hdec
  exact absurd (hcs '"' (by decide)) (by decide)

end NetworkAnalyser.Server
