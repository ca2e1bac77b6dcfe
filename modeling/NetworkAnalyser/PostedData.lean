import NetworkAnalyser.CaptureExchange

/-! When a run of the capture task has data to post, whichever of its calls fail. -/
namespace NetworkAnalyser.Client
open NetworkAnalyser.JavaExec NetworkAnalyser.CString NetworkAnalyser.Json

/-- Closing throws what `close` and `sleep` declare, if anything. -/
structure Calls.Declared (c : Calls) : Prop where
  closeIn : ∀ e, c.closeIn = some e → e = .io
  closeOut : ∀ e, c.closeOut = some e → e = .io
  sleep : ∀ e, c.sleep = some e → e = .interrupted

/-- Nothing fails up to the read, and the mapper makes this of the first chunk of the response. -/
structure Receives (mapper : Mapper) (c : Calls) (data : NetworkCaptureData) : Prop where
  connect : c.connect = none
  getOutputStream : c.getOutputStream = none
  write : c.write = none
  getInputStream : c.getInputStream = none
  read : ∃ chunk rest, c.read = .ok (chunk :: rest) ∧ chunk ≠ [] ∧
    mapper (received (chunk.take maxNetworkInputBufferSize)) = .ok data

theorem readBytes_cons (chunk : Bytes) (rest : List Bytes) : readBytes (chunk :: rest) =
    (((min chunk.length maxNetworkInputBufferSize : Nat) : Int),
      received (chunk.take maxNetworkInputBufferSize)) := by
  change (((min chunk.length (List.replicate _ _).length : Nat) : Int), _ ++ List.drop _ _) = _
  rw [received, List.length_replicate, List.drop_replicate, List.length_take]
  congr 3
  omega

section exchange
variable {mapper : Mapper} {c : Calls} {s : Exchange}

theorem deserialize_data (mapper : Mapper) (n : Int) (b : Bytes) (s : Exchange) :
    (∃ data, (n > 0 ∧ mapper b = .ok data) ∧
      deserialize mapper n b s = (.ok (), { s with data := some data })) ∨
    (¬ (∃ data, n > 0 ∧ mapper b = .ok data) ∧ ∃ r, deserialize mapper n b s = (r, s)) := by
  by_cases hn : n > 0
  · rw [deserialize, if_pos hn]
    cases hm : mapper b with
    | ok data => exact .inl ⟨data, ⟨hn, rfl⟩, rfl⟩
    | error e =>
      have hthrown : (do
          let data ← Java.ofExcept (Except.error e)
          Java.modify fun s => { s with data := some data } : J Unit) s = (.error e, s) := rfl
      rw [tryCatch_error hthrown]
      have hnot : ¬ ∃ data, n > 0 ∧
          (.error e : Except JavaException NetworkCaptureData) = .ok data :=
        fun h => by cases h.choose_spec.2
      refine .inr ⟨hnot, ?_⟩
      by_cases he : e = .jsonGeneration
      · rw [if_pos he]
        exact ⟨.ok (), rfl⟩
      · rw [if_neg he]
        exact ⟨.error e, rfl⟩
  · rw [deserialize, if_neg hn]
    exact .inr ⟨fun h => hn h.choose_spec.1, .ok (), rfl⟩

theorem closeStreams_declared (hc : c.Declared) (k : Nat) (s : Exchange) : ∃ r closed,
    (do
      closeStream (some k) c.closeIn
      closeStream (some k) c.closeOut
      Java.call c.sleep : J Unit) s = (r, { s with closed := closed }) ∧
    ∀ e, r = .error e → e.isRuntime = false := by
  obtain ⟨_, _, _, _, _, closeIn, closeOut, sleep⟩ := c
  have hcaught : ∀ {e' : JavaException}, e'.isRuntime = false → ∀ e,
      (.error e' : Except JavaException Unit) = .error e → e.isRuntime = false :=
    fun he' e he => Except.error.inj he ▸ he'
  cases closeIn with
  | some e =>
    obtain rfl := hc.closeIn e rfl
    exact ⟨.error .io, s.closed, rfl, hcaught rfl⟩
  | none =>
    cases closeOut with
    | some e =>
      obtain rfl := hc.closeOut e rfl
      exact ⟨.error .io, k :: s.closed, rfl, hcaught rfl⟩
    | none =>
      cases sleep with
      | some e =>
        obtain rfl := hc.sleep e rfl
        exact ⟨.error .interrupted, k :: k :: s.closed, rfl, hcaught rfl⟩
      | none => exact ⟨.ok (), k :: k :: s.closed, rfl, fun _ h => by cases h⟩

theorem decodeAndClose_data (hc : c.Declared) (chunks : List Bytes) {k : Nat}
    (hin : s.inp = some k) (hout : s.out = some k) (hs : s.data = none) : ∃ r t,
    decodeAndClose mapper c chunks s = (r, t) ∧
    (∀ read, t.data = some read ↔
      (readBytes chunks).1 > 0 ∧ mapper (readBytes chunks).2 = .ok read) ∧
    (t.data ≠ none → ∀ e, r = .error e → e.isRuntime = false) := by
  rw [decodeAndClose]
  cases deserialize_data mapper (readBytes chunks).1 (readBytes chunks).2 s with
  | inl h =>
    obtain ⟨data, ⟨hpos, hmap⟩, hdecode⟩ := h
    obtain ⟨r, closed, hclose, hr⟩ := closeStreams_declared hc k { s with data := some data }
    rw [bind_ok hdecode, get_bind]
    simp only [hin, hout] at hclose ⊢
    refine ⟨r, _, hclose, fun read => ?_, fun _ => hr⟩
    rw [hmap]
    exact ⟨fun h => ⟨hpos, congrArg _ (Option.some.inj h)⟩, fun h => congrArg _ (Except.ok.inj h.2)⟩
  | inr h =>
    obtain ⟨hnone, r, hdecode⟩ := h
    have hstays : ∀ read, s.data = some read ↔
        (readBytes chunks).1 > 0 ∧ mapper (readBytes chunks).2 = .ok read := by
      intro read
      rw [hs]
      exact iff_of_false (fun h => by cases h) fun h => hnone ⟨read, h⟩
    cases r with
    | error e =>
      rw [bind_error hdecode]
      exact ⟨_, _, rfl, hstays, fun h => absurd hs h⟩
    | ok _ =>
      obtain ⟨r, closed, hclose, _⟩ := closeStreams_declared hc k s
      rw [bind_ok hdecode, get_bind]
      simp only [hin, hout] at hclose ⊢
      exact ⟨r, _, hclose, hstays, fun h => absurd hs h⟩

theorem readBytes_iff {chunks : List Bytes} {read : NetworkCaptureData} :
    ((readBytes chunks).1 > 0 ∧ mapper (readBytes chunks).2 = .ok read) ↔
      ∃ chunk rest, (.ok chunks : Except JavaException (List Bytes)) = .ok (chunk :: rest) ∧
        chunk ≠ [] ∧ mapper (received (chunk.take maxNetworkInputBufferSize)) = .ok read := by
  cases chunks with
  | nil =>
    refine iff_of_false (fun h => by cases h.1) fun h => ?_
    obtain ⟨chunk, rest, h, _⟩ := h
    cases h
  | cons chunk rest =>
    have hcount : ((min chunk.length maxNetworkInputBufferSize : Nat) : Int) > 0 ↔ chunk ≠ [] := by
      have hmax : 0 < maxNetworkInputBufferSize := by decide
      rw [← List.length_pos_iff]
      omega
    rw [readBytes_cons, hcount]
    constructor
    · exact fun h => ⟨chunk, rest, rfl, h⟩
    · rintro ⟨chunk', rest', h, hread⟩
      cases h
      exact hread

theorem exchange_data (hc : c.Declared) (s : Exchange) : ∃ r t,
    exchange mapper c { s with data := none } = (r, t) ∧
    (∀ read, t.data = some read ↔ Receives mapper c read) ∧
    (t.data ≠ none → ∀ e, r = .error e → e.isRuntime = false) := by
  have hfails : ∀ {e t}, exchange mapper c { s with data := none } = (.error e, t) →
      t.data = none → (∀ read, ¬ Receives mapper c read) → ∃ r t,
      exchange mapper c { s with data := none } = (r, t) ∧
      (∀ read, t.data = some read ↔ Receives mapper c read) ∧
      (t.data ≠ none → ∀ e, r = .error e → e.isRuntime = false) := by
    intro e t h hdata hnot
    refine ⟨_, t, h, fun read => iff_of_false (fun h => ?_) (hnot read), fun h => absurd hdata h⟩
    rw [hdata] at h
    cases h
  obtain ⟨connect, getOutputStream, write, getInputStream, read, closeIn, closeOut, sleep⟩ := c
  cases connect with
  | some e => exact hfails rfl rfl fun _ h => by cases h.connect
  | none =>
    cases getOutputStream with
    | some e => exact hfails rfl rfl fun _ h => by cases h.getOutputStream
    | none =>
      cases write with
      | some e => exact hfails rfl rfl fun _ h => by cases h.write
      | none =>
        cases getInputStream with
        | some e => exact hfails rfl rfl fun _ h => by cases h.getInputStream
        | none =>
          cases read with
          | error e =>
            refine hfails rfl rfl fun _ h => ?_
            obtain ⟨_, _, hread, _⟩ := h.read
            cases hread
          | ok chunks =>
            obtain ⟨r, t, hrun, hdata, hr⟩ := @decodeAndClose_data mapper _
              { s with data := none }.connected hc chunks s.opened rfl rfl rfl
            refine ⟨r, t, hrun, fun read => ?_, hr⟩
            rw [hdata, readBytes_iff]
            exact ⟨fun h => ⟨rfl, rfl, rfl, rfl, h⟩, fun h => h.read⟩

/-- A run of the task posts data if and only if nothing fails up to the first read, and that read
brings what the mapper takes; closing the connection may fail. -/
theorem Attempt.handed_iff (a : Attempt) (hc : a.calls.Declared) (s : Exchange)
    (data : NetworkCaptureData) : a.handed s = some data ↔
      ∃ read, Receives a.mapper a.calls read ∧ data = read.setDevId rpiId := by
  obtain ⟨r, t, hrun, hdata, hr⟩ := @exchange_data a.mapper _ hc s
  constructor
  · intro h
    rw [Attempt.handed] at h
    cases getNetworkInfo_result a.mapper a.calls s with
    | inl hthrown =>
      obtain ⟨e, _, heq⟩ := hthrown
      rw [heq] at h
      cases h
    | inr hok =>
      obtain ⟨read, hread, hok⟩ := hok
      rw [hrun] at hread
      rw [hok] at h
      exact ⟨read, (hdata read).mp hread, (Option.some.inj h).symm⟩
  · rintro ⟨read, hreceives, rfl⟩
    have hread := (hdata read).mpr hreceives
    have hcaught := getNetworkInfo_caught hrun (hr (by rw [hread]; simp))
    rw [Attempt.handed, hcaught, hread]
    rfl

end exchange

theorem emptyResponse_handed : Attempt.handed
    { mapper := captureMapper
      calls := { Calls.delivering [emptyResponse.bytes] with
        closeIn := some .io
        sleep := some .interrupted }
      posted := .ok () } .initial = some ⟨some rpiId, []⟩ := by
  have hfits : emptyResponse.bytes.length ≤ maxNetworkInputBufferSize := emptyResponse.fits
  have hreceives : Receives captureMapper
      { Calls.delivering [emptyResponse.bytes] with
        closeIn := some .io
        sleep := some .interrupted } ⟨none, []⟩ := by
    refine ⟨rfl, rfl, rfl, rfl, emptyResponse.bytes, [], rfl, by decide, ?_⟩
    rw [List.take_of_length_le hfits]
    exact mapper_whole emptyResponse (readValue_readsObjects _) emptyResponse_value
  refine (Attempt.handed_iff _ ⟨?_, ?_, ?_⟩ .initial _).mpr ⟨⟨none, []⟩, hreceives, rfl⟩
  · exact fun e h => (Option.some.inj h).symm
  · exact fun e h => by cases h
  · exact fun e h => (Option.some.inj h).symm

end NetworkAnalyser.Client
