import NetworkAnalyser.CaptureRoundTrip
import NetworkAnalyser.RpiService

/-! When the client reads a complete response, against how the transport cuts it. -/
namespace NetworkAnalyser.Client
open NetworkAnalyser.JavaExec NetworkAnalyser.CString NetworkAnalyser.Json

theorem encode_brace (t : List Char) : Utf8.encode ('\x7b' :: t) = 123 :: Utf8.encode t := by
  have hopen : Utf8.encode ['\x7b'] = [123] := by decide
  rw [← List.singleton_append, Utf8.encode_append, hopen, List.singleton_append]

/-- A JSON object, without blanks around it, that the client has room for. -/
structure Response where
  /-- The text behind the opening brace. -/
  text : List Char
  value : Value
  object : Derives (.value value) ('\x7b' :: text)
  fits : (Utf8.encode ('\x7b' :: text)).length ≤ maxNetworkInputBufferSize

def Response.bytes (r : Response) : Bytes := Utf8.encode ('\x7b' :: r.text)

def received (c : Bytes) : Bytes :=
  c ++ List.replicate (maxNetworkInputBufferSize - c.length) 0

theorem readInto_fits {c : Bytes} (h : c.length ≤ maxNetworkInputBufferSize)
    (chunks : List Bytes) :
    readInto (List.replicate maxNetworkInputBufferSize 0) (c :: chunks) =
      ((c.length : Int), received c) := by
  change (((min c.length _ : Nat) : Int), _) = _
  rw [List.length_replicate, List.take_of_length_le h, List.drop_replicate, Nat.min_eq_left h]
  rfl

/-- What the mapper does with bytes that open an object, `bind` being the binding of its classes. -/
structure ReadsObjects (bind : Value → Option NetworkCaptureData) (mapper : Mapper) : Prop where
  /-- It takes the object they begin with, whatever text is behind it. -/
  object : ∀ {t r : List Char} {v data}, Derives (.value v) ('\x7b' :: t) → bind v = some data →
    mapper (Utf8.encode ('\x7b' :: t ++ r)) = .ok data
  /-- A beginning of a text in which no object is closed is refused, also with zeros behind. -/
  unclosed : ∀ {t : List Char} {c : Bytes} {n : Nat}, c <+: Utf8.encode ('\x7b' :: t) → c ≠ [] →
    0 ∉ c → (∀ u v, Derives (.value v) ('\x7b' :: u) → ¬ Utf8.encode ('\x7b' :: u) <+: c) →
    mapper (c ++ List.replicate n 0) = .error .io

section read
variable {mapper : Mapper} {c : Bytes}

theorem count_pos (h : c ≠ []) : (c.length : Int) > 0 := by
  have := List.length_pos_iff.mpr h
  omega

theorem deserialize_ok {data : NetworkCaptureData} {n : Int} (hn : n > 0)
    (h : mapper c = .ok data) (s : Exchange) :
    deserialize mapper n c s = (.ok (), { s with data := some data }) := by
  rw [deserialize, if_pos hn]
  apply tryCatch_ok
  rw [h]
  rfl

theorem deserialize_error {n : Int} (hn : n > 0) (h : mapper c = .error .io)
    (s : Exchange) : deserialize mapper n c s = (.error .io, s) := by
  rw [deserialize, if_pos hn]
  refine (tryCatch_error (t := s) (e := .io) ?_ _).trans rfl
  rw [h]
  rfl

variable {chunks : List Bytes} (hlen : c.length ≤ maxNetworkInputBufferSize) (s : Exchange)
include hlen

theorem exchange_delivering : exchange mapper (.delivering (c :: chunks)) s =
    (do
      deserialize mapper c.length (received c)
      let s ← Java.get
      closeStream s.inp none
      closeStream s.out none
      pure () : J Unit)
    { s with
      socket := some s.opened
      out := some s.opened
      inp := some s.opened
      opened := s.opened + 1
      sent := clientCaptureCommand } := by
  have hread := readInto_fits hlen chunks
  have hopen : openSocket (.delivering (c :: chunks)) s =
      (.ok (), { s with socket := some s.opened, opened := s.opened + 1 }) := rfl
  rw [exchange, bind_ok hopen]
  simp only [Calls.delivering, call_none_bind, modify_bind, ofExcept_ok_bind, hread]
  rfl

variable (hpos : c ≠ [])
include hpos

theorem getNetworkInfo_ok {data : NetworkCaptureData}
    (h : mapper (received c) = .ok data) :
    (getNetworkInfoFromClient mapper (.delivering (c :: chunks)) s).1 =
      .ok (data.setDevId rpiId) := by
  have hread := deserialize_ok (count_pos hpos) h
  obtain ⟨t, hdone, hdata⟩ : ∃ t,
      exchange mapper (.delivering (c :: chunks)) { s with data := none } = (.ok (), t) ∧
        t.data = some data :=
    ⟨_, ((exchange_delivering hlen _).trans (bind_ok (hread _) _)).trans rfl, rfl⟩
  rw [getNetworkInfoFromClient, modify_bind,
    bind_ok (tryCatch_ok (m := exchange _ _) hdone _), get_bind, hdata]
  rfl

theorem getNetworkInfo_error (h : mapper (received c) = .error .io) :
    (getNetworkInfoFromClient mapper (.delivering (c :: chunks)) s).1 = .error .nullPointer := by
  have hread := deserialize_error (count_pos hpos) h
  have hfail : exchange mapper (.delivering (c :: chunks)) { s with data := none } = _ :=
    (exchange_delivering hlen _).trans (bind_error (hread _) _)
  rw [getNetworkInfoFromClient, modify_bind,
    bind_ok ((tryCatch_error (m := exchange _ _) hfail _).trans rfl)]
  rfl

end read

section response
variable {bind : Value → Option NetworkCaptureData} {mapper : Mapper} (r : Response)

theorem zero_notMem_bytes : 0 ∉ r.bytes := Utf8.zero_notMem_encode r.object.nul_notMem

theorem received_encode : received r.bytes = Utf8.encode ('\x7b' :: r.text ++
    List.replicate (maxNetworkInputBufferSize - r.bytes.length) '\x00') := by
  rw [Utf8.encode_append, Utf8.encode_replicate_nul]
  rfl

theorem bytes_ne_nil : r.bytes ≠ [] := by
  rw [Response.bytes, encode_brace]
  exact List.cons_ne_nil _ _

variable (hreads : ReadsObjects bind mapper)
include hreads

theorem mapper_whole {data : NetworkCaptureData} (hbind : bind r.value = some data) :
    mapper (received r.bytes) = .ok data := by
  rw [received_encode]
  exact hreads.object r.object hbind

theorem mapper_part {c rest : Bytes} (hcut : c ++ rest = r.bytes) (hne : c ≠ [])
    (hrest : rest ≠ []) : mapper (received c) = .error .io := by
  have hpart : c <+: r.bytes := ⟨rest, hcut⟩
  refine hreads.unclosed hpart hne (fun h => zero_notMem_bytes r (hpart.subset h)) ?_
  intro u v hderives hin
  obtain ⟨b, hb⟩ := hin.trans hpart
  have hwhole := Utf8.decode_encode_append ('\x7b' :: u) b
  rw [hb, Response.bytes, Utf8.decode_encode] at hwhole
  obtain ⟨q, _, hq⟩ := Option.map_eq_some_iff.mp hwhole.symm
  obtain rfl := r.object.eq_of_prefix hderives ⟨q, hq⟩
  have hall : c = r.bytes := hpart.eq_of_length_le hin.length_le
  rw [hall] at hcut
  exact hrest (List.self_eq_append_right.mp hcut.symm)

theorem getNetworkInfo_whole {data : NetworkCaptureData} (hbind : bind r.value = some data)
    (s : Exchange) :
    (getNetworkInfoFromClient mapper (.delivering [r.bytes]) s).1 = .ok (data.setDevId rpiId) :=
  getNetworkInfo_ok r.fits s (bytes_ne_nil r) (mapper_whole r hreads hbind)

theorem getNetworkInfo_cut {chunks : List Bytes} (hne : ∀ c ∈ chunks, c ≠ [])
    (hcut : chunks.flatten = r.bytes) (hmore : chunks ≠ [r.bytes]) (s : Exchange) :
    (getNetworkInfoFromClient mapper (.delivering chunks) s).1 = .error .nullPointer := by
  cases chunks with
  | nil => exact absurd hcut.symm (bytes_ne_nil r)
  | cons c chunks =>
    have hsplit : c ++ chunks.flatten = r.bytes := hcut
    have hlen : c.length ≤ maxNetworkInputBufferSize := by
      have hfits : r.bytes.length ≤ maxNetworkInputBufferSize := r.fits
      rw [← hsplit, List.length_append] at hfits
      omega
    have hfirst := hne c List.mem_cons_self
    apply getNetworkInfo_error hlen s hfirst
    apply mapper_part r hreads hsplit hfirst
    cases chunks with
    | nil => exact fun _ => hmore (by rw [← hsplit, List.flatten_nil, List.append_nil])
    | cons d chunks =>
      have hd : d ≠ [] := hne d (List.mem_cons_of_mem _ List.mem_cons_self)
      exact List.append_ne_nil_of_left_ne_nil hd _

end response

/-- The client has the whole response exactly when it comes in one chunk. -/
theorem complete_response_iff {bind : Value → Option NetworkCaptureData} {mapper : Mapper}
    (hreads : ReadsObjects bind mapper) {r : Response} {data : NetworkCaptureData}
    (hbind : bind r.value = some data) {chunks : List Bytes} (hne : ∀ c ∈ chunks, c ≠ [])
    (hcut : chunks.flatten = r.bytes) (s : Exchange) :
    (getNetworkInfoFromClient mapper (.delivering chunks) s).1 = .ok (data.setDevId rpiId) ↔
      chunks = [r.bytes] := by
  by_cases hone : chunks = [r.bytes]
  · rw [hone]
    exact iff_of_true (getNetworkInfo_whole r hreads hbind s) rfl
  · rw [getNetworkInfo_cut r hreads hne hcut hone s]
    exact iff_of_false (fun h => by cases h) hone

/-- A mapper made of the parser and a binding. -/
def readValue (bind : Value → Option NetworkCaptureData) : Mapper := fun b =>
  match (Utf8.decode b).bind Json.readValue with
  | none => .error .io
  | some (v, _) =>
    match bind v with
    | none => .error .io
    | some data => .ok data

theorem opens_of_brace {t : List Char} {b : Bytes} (h : Utf8.encode t = 123 :: b) :
    ∃ u, t = '\x7b' :: u := by
  have hdec := Utf8.decode_encode_append ['\x7b'] b
  rw [encode_brace, Utf8.encode_nil, List.singleton_append, ← h, Utf8.decode_encode] at hdec
  obtain ⟨u, _, hu⟩ := Option.map_eq_some_iff.mp hdec.symm
  exact ⟨u, hu.symm⟩

theorem readValue_readsObjects (bind : Value → Option NetworkCaptureData) :
    ReadsObjects bind (readValue bind) where
  object := by
    intro t r v data hderives hbind
    have hread : (Utf8.decode (Utf8.encode ('\x7b' :: t ++ r))).bind Json.readValue =
        some (v, r) := by
      rw [Utf8.decode_encode, Option.bind_some]
      exact readValue_complete hderives (hderives.follows_of_brace r)
    simp only [readValue, hread, hbind]
  unclosed := by
    intro t c n hc hne _ hnone
    -- the text that is read begins as the bytes do
    have hbrace : ∀ {u b}, c ++ List.replicate n 0 = Utf8.encode u ++ b → 0 < u.length →
        ∃ t, u = '\x7b' :: t := by
      intro u b h hpos
      obtain ⟨x, c, rfl⟩ := List.exists_cons_of_ne_nil hne
      obtain ⟨y, bs, hy⟩ := List.exists_cons_of_ne_nil (Utf8.encode_ne_nil hpos)
      rw [encode_brace] at hc
      rw [hy] at h
      obtain rfl := (List.cons.inj h).1
      obtain rfl := (List.cons_prefix_cons.mp hc).1
      exact opens_of_brace hy
    have hread : (Utf8.decode (c ++ List.replicate n 0)).bind Json.readValue = none := by
      rw [Option.eq_none_iff_forall_ne_some]
      rintro ⟨v, r⟩ hread
      obtain ⟨cs, hdec, hparse⟩ := Option.bind_eq_some_iff.mp hread
      obtain ⟨u, rfl, hderives⟩ := readValue_sound hparse
      have hbytes := Utf8.decode_eq_some_iff.mp hdec
      rw [Utf8.encode_append] at hbytes
      obtain ⟨u, rfl⟩ := hbrace hbytes hderives.length_pos
      have hin : Utf8.encode ('\x7b' :: u) <+: c := Utf8.prefix_of_append_zeros
        ⟨_, hbytes.symm⟩ (Utf8.zero_notMem_encode hderives.nul_notMem)
      exact hnone u v hderives hin
    rw [readValue, hread]

/-- The mapper of the concrete runs. -/
abbrev captureMapper : Mapper := readValue NetworkCaptureData.ofValue

def emptyResponse : Response where
  text := "\"packets\":[]\x7d".toList
  value := packetsValue []
  object := @Server.documentChars_derives [] (by simp)
  fits := by decide

theorem emptyResponse_value :
    NetworkCaptureData.ofValue emptyResponse.value = some ⟨none, []⟩ := rfl

example : emptyResponse.bytes = Server.documentOf [] := by decide

theorem emptyResponse_complete :
    (getNetworkInfoFromClient captureMapper
      (.delivering [emptyResponse.bytes]) ⟨none, none, none, 0, [], [], none⟩).1 =
        .ok (NetworkCaptureData.setDevId ⟨none, []⟩ rpiId) ↔
      [emptyResponse.bytes] = [emptyResponse.bytes] :=
  complete_response_iff (readValue_readsObjects _) emptyResponse_value (by decide) (by decide) _

/-- The response cut within the name of its member. -/
theorem cutResponse_not_complete : ∃ chunks : List Bytes,
    (∀ c ∈ chunks, c ≠ []) ∧ chunks.flatten = emptyResponse.bytes ∧
      ∀ s, (getNetworkInfoFromClient captureMapper
        (.delivering chunks) s).1 = .error .nullPointer := by
  refine ⟨[Printf.ascii "\x7b\"pack", Printf.ascii "ets\":[]\x7d"], by decide, by decide, ?_⟩
  intro s
  exact getNetworkInfo_cut emptyResponse (readValue_readsObjects _) (by decide) (by decide)
    (by decide) s

theorem blanks_of_brace {t w : List Char} {b : Bytes} (hw : ∀ c ∈ w, isWs c)
    (h : Utf8.encode (t ++ w) = b ++ [125]) : w = [] := by
  rcases List.eq_nil_or_concat w with rfl | ⟨w, c, rfl⟩
  · rfl
  · have hc : isWs c := hw c (by simp)
    have hlast : Utf8.encode [c] = [c.toNat.toUInt8] ∧ c.toNat.toUInt8 ≠ 125 := by
      simp only [isWs, Bool.or_eq_true, decide_eq_true_eq] at hc
      rcases hc with ((rfl | rfl) | rfl) | rfl <;> decide
    rw [List.concat_eq_append, ← List.append_assoc, Utf8.encode_append, hlast.1] at h
    exact absurd (List.append_inj' h rfl).2 (by simpa using hlast.2)

/-- Whatever JSON the server generates inside its buffer is such a response. -/
theorem response_of_document {signedChar : Bool} {g : Server.Globals} {v : Value}
    (hfit : Server.OutputFits signedChar g)
    (hjson : (Utf8.decode (Server.documentOf (Server.storedTexts signedChar g))).bind
      parseDocument = some v) :
    ∃ r : Response, r.bytes = Server.documentOf (Server.storedTexts signedChar g) ∧
      r.value = v := by
  obtain ⟨cs, hdec, hparse⟩ := Option.bind_eq_some_iff.mp hjson
  obtain ⟨t, w, rfl, hd, hw⟩ := parseDocument_sound hparse
  have hbytes := (Utf8.decode_eq_some_iff.mp hdec).symm
  have hroom := (Server.outputFits_iff_length signedChar g).mp hfit
  have hopen : Printf.ascii "\x7b\"packets\":[" = 123 :: Printf.ascii "\"packets\":[" := by decide
  have hclose : Printf.ascii "]\x7d" = [93] ++ [125] := by decide
  rw [Server.documentOf, hclose, ← List.append_assoc] at hbytes
  obtain rfl := blanks_of_brace hw hbytes
  rw [hopen, List.append_nil] at hbytes
  obtain ⟨u, rfl⟩ := opens_of_brace hbytes
  rw [List.append_nil] at hdec
  have hwhole := Utf8.decode_eq_some_iff.mp hdec
  exact ⟨⟨u, v, hd, hwhole ▸ Nat.le_of_lt hroom⟩, hwhole.symm, rfl⟩

/-- A capture without an id is taken for its packets. -/
structure ReadsCaptures (bind : Value → Option NetworkCaptureData) (mapper : Mapper) : Prop
    extends ReadsObjects bind mapper where
  packets : ∀ ps, bind (packetsValue ps) = some ⟨none, ps⟩

theorem captureMapper_readsCaptures : ReadsCaptures NetworkCaptureData.ofValue captureMapper :=
  ⟨readValue_readsObjects _, NetworkCaptureData.ofValue_packetsValue⟩

def documentResponse (ts : List Server.PacketTexts)
    (hplain : ∀ t ∈ ts, ∀ b ∈ t.values, Server.PlainText b)
    (hfits : (Server.documentOf ts).length ≤ maxNetworkInputBufferSize) : Response where
  text := (Server.documentChars ts).tail
  value := packetsValue (ts.map Server.PacketTexts.packet)
  object := Server.documentChars_derives hplain
  fits := (congrArg List.length (Server.encode_documentChars hplain)).trans_le hfits

theorem documentResponse_bytes {ts : List Server.PacketTexts}
    (hplain : ∀ t ∈ ts, ∀ b ∈ t.values, Server.PlainText b)
    (hfits : (Server.documentOf ts).length ≤ maxNetworkInputBufferSize) :
    (documentResponse ts hplain hfits).bytes = Server.documentOf ts :=
  Server.encode_documentChars hplain

theorem getNetworkInfo_document {bind : Value → Option NetworkCaptureData} {mapper : Mapper}
    (hreads : ReadsCaptures bind mapper) {ts : List Server.PacketTexts}
    (hplain : ∀ t ∈ ts, ∀ b ∈ t.values, Server.PlainText b)
    (hfits : (Server.documentOf ts).length ≤ maxNetworkInputBufferSize) {chunks : List Bytes}
    (hne : ∀ c ∈ chunks, c ≠ []) (hcut : chunks.flatten = Server.documentOf ts) (s : Exchange) :
    (getNetworkInfoFromClient mapper (.delivering chunks) s).1 =
      if chunks = [Server.documentOf ts] then
        .ok ⟨some rpiId, ts.map Server.PacketTexts.packet⟩
      else .error .nullPointer := by
  rw [← documentResponse_bytes hplain hfits] at hcut ⊢
  by_cases hone : chunks = [(documentResponse ts hplain hfits).bytes]
  · rw [if_pos hone, hone]
    exact getNetworkInfo_whole (documentResponse ts hplain hfits) hreads.toReadsObjects
      (hreads.packets _) s
  · rw [if_neg hone]
    exact getNetworkInfo_cut _ hreads.toReadsObjects hne hcut hone s

/-- The client gets the packets that the server has stored, with their texts, exactly when the
response comes in one chunk. -/
theorem capture_received_iff {bind : Value → Option NetworkCaptureData} {mapper : Mapper}
    (hreads : ReadsCaptures bind mapper) {signedChar : Bool} {g : Server.Globals}
    (hg : Server.Captured g) (hfit : Server.OutputFits signedChar g)
    (hssid : ∀ t ∈ Server.storedTexts signedChar g, Server.PlainText t.ssid)
    {chunks : List Bytes} (hne : ∀ c ∈ chunks, c ≠ [])
    (hcut : chunks.flatten = Server.documentOf (Server.storedTexts signedChar g)) (s : Exchange) :
    (∃ data, (getNetworkInfoFromClient mapper (.delivering chunks) s).1 = .ok data ∧
      List.Forall₂ Server.Holds data.packets (Server.storedTexts signedChar g)) ↔
      chunks = [Server.documentOf (Server.storedTexts signedChar g)] := by
  have hplain := hg.plain hssid
  have hroom := Nat.le_of_lt ((Server.outputFits_iff_length signedChar g).mp hfit)
  rw [getNetworkInfo_document hreads hplain hroom hne hcut s]
  by_cases hone : chunks = [Server.documentOf (Server.storedTexts signedChar g)]
  · rw [if_pos hone]
    refine iff_of_true ⟨_, rfl, ?_⟩ hone
    rw [List.forall₂_map_left_iff, List.forall₂_same]
    exact fun t ht => Server.PacketTexts.holds (hplain t ht)
  · rw [if_neg hone]
    exact iff_of_false (fun ⟨_, h, _⟩ => by cases h) hone

end NetworkAnalyser.Client
