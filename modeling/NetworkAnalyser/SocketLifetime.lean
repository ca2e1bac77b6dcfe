import NetworkAnalyser.CompleteResponse

/-! The sockets of the capture exchanges over runs of the timer task, one after the other: each
is closed by the call that opened it, or by none. -/
namespace NetworkAnalyser.Client
open NetworkAnalyser.JavaExec NetworkAnalyser.CString

def Exchange.initial : Exchange := ⟨none, none, none, 0, [], [], none⟩

def Exchange.openSockets (s : Exchange) : List Nat :=
  (List.range s.opened).filter fun k => k ∉ s.closed

/-- What a run of the task meets: how the mapper and the calls of the exchange turn out, and the
post to the web server. -/
structure Attempt where
  mapper : Mapper
  calls : Calls
  posted : Except JavaException Unit

def captureAndSendNetworkData (a : Attempt) : J Unit := do
  let _ ← getNetworkInfoFromClient a.mapper a.calls
  Java.ofExcept a.posted

def Attempt.run (a : Attempt) : J Unit :=
  Java.tryCatch (captureAndSendNetworkData a) fun e =>
    if e.isRuntime then pure () else Java.throw e

def afterRuns (as : List Attempt) : Exchange :=
  as.foldl (fun s a => (a.run s).2) .initial

def readBytes (chunks : List Bytes) : Int × Bytes :=
  readInto (List.replicate maxNetworkInputBufferSize 0) chunks

/-- The mapper is not called, or it succeeds, or its exception is caught at once. -/
def Decodes (mapper : Mapper) (chunks : List Bytes) : Prop :=
  (readBytes chunks).1 > 0 → ∀ e, mapper (readBytes chunks).2 = .error e → e = .jsonGeneration

/-- Nothing fails from the connection to the close of the input stream. -/
structure Releases (mapper : Mapper) (c : Calls) : Prop where
  getOutputStream : c.getOutputStream = none
  write : c.write = none
  getInputStream : c.getInputStream = none
  read : ∃ chunks, c.read = .ok chunks ∧ Decodes mapper chunks
  closeIn : c.closeIn = none

def Exchange.connected (s : Exchange) : Exchange :=
  { s with
    socket := some s.opened
    out := some s.opened
    inp := some s.opened
    opened := s.opened + 1
    sent := clientCaptureCommand }

def decodeAndClose (mapper : Mapper) (c : Calls) (chunks : List Bytes) : J Unit := do
  deserialize mapper (readBytes chunks).1 (readBytes chunks).2
  let s ← Java.get
  closeStream s.inp c.closeIn
  closeStream s.out c.closeOut
  Java.call c.sleep

/-- What one exchange does to the sockets. -/
inductive Sockets (mapper : Mapper) (c : Calls) (s s' : Exchange) : Prop
  | none (hconnect : c.connect ≠ .none) (hopened : s'.opened = s.opened)
      (hclosed : s'.closed = s.closed)
  | released (hreleases : Releases mapper c) (hopened : s'.opened = s.opened + 1)
      (hclosed : ∀ k, k ∈ s'.closed ↔ k = s.opened ∨ k ∈ s.closed)
  | leaked (hconnect : c.connect = .none) (hreleases : ¬ Releases mapper c)
      (hopened : s'.opened = s.opened + 1) (hclosed : s'.closed = s.closed)

section exchange
variable {mapper : Mapper} {c : Calls} {s : Exchange}

theorem deserialize_apply (n : Int) (b : Bytes) (s : Exchange) : ∃ r d,
    deserialize mapper n b s = (r, { s with data := d }) ∧
      (r = .ok () ↔ (n > 0 → ∀ e, mapper b = .error e → e = .jsonGeneration)) := by
  by_cases hn : n > 0
  · rw [deserialize, if_pos hn]
    cases hm : mapper b with
    | ok data => exact ⟨.ok (), some data, rfl, iff_of_true rfl fun _ e he => by cases he⟩
    | error e =>
      by_cases he : e = .jsonGeneration
      · subst he
        exact ⟨.ok (), s.data, rfl, iff_of_true rfl fun _ e he => (Except.error.inj he).symm⟩
      · refine ⟨.error e, s.data, ?_, iff_of_false (by simp) fun h => he (h hn e rfl)⟩
        refine (tryCatch_error (t := s) (e := e) rfl _).trans ?_
        rw [if_neg he]
        rfl
  · rw [deserialize, if_neg hn]
    exact ⟨.ok (), s.data, rfl, iff_of_true rfl fun h => absurd h hn⟩

theorem closeStreams_closed (c : Calls) (k : Nat) (s : Exchange) : ∃ closed,
    ((do
      closeStream (some k) c.closeIn
      closeStream (some k) c.closeOut
      Java.call c.sleep : J Unit) s).2 = { s with closed := closed } ∧
    (c.closeIn = none → ∀ a, a ∈ closed ↔ a = k ∨ a ∈ s.closed) ∧
    (c.closeIn ≠ none → closed = s.closed) := by
  cases c.closeIn with
  | some e => exact ⟨s.closed, rfl, fun h => absurd h (by simp), fun _ => rfl⟩
  | none =>
    have hnone : ∀ {closed : List Nat}, (none : Option JavaException) ≠ none → closed = s.closed :=
      fun h => absurd rfl h
    cases c.closeOut with
    | some e => exact ⟨k :: s.closed, rfl, fun _ a => List.mem_cons, hnone⟩
    | none =>
      have htwice : ∀ a, a ∈ k :: k :: s.closed ↔ a = k ∨ a ∈ s.closed := by simp
      cases c.sleep with
      | some e => exact ⟨k :: k :: s.closed, rfl, fun _ => htwice, hnone⟩
      | none => exact ⟨k :: k :: s.closed, rfl, fun _ => htwice, hnone⟩

theorem decodeAndClose_closed (chunks : List Bytes) {k : Nat} (hin : s.inp = some k)
    (hout : s.out = some k) :
    (decodeAndClose mapper c chunks s).2.opened = s.opened ∧
    (Decodes mapper chunks ∧ c.closeIn = none →
      ∀ a, a ∈ (decodeAndClose mapper c chunks s).2.closed ↔ a = k ∨ a ∈ s.closed) ∧
    (¬ (Decodes mapper chunks ∧ c.closeIn = none) →
      (decodeAndClose mapper c chunks s).2.closed = s.closed) := by
  obtain ⟨r, d, hdecode, hok⟩ := @deserialize_apply mapper (readBytes chunks).1
    (readBytes chunks).2 s
  cases r with
  | error e =>
    have hfails : ¬ Decodes mapper chunks := fun h => by cases hok.mpr h
    rw [decodeAndClose, bind_error hdecode]
    exact ⟨rfl, fun h => absurd h.1 hfails, fun _ => rfl⟩
  | ok _ =>
    have hdecodes : Decodes mapper chunks := hok.mp rfl
    obtain ⟨closed, hclose, hclosed, hkept⟩ := closeStreams_closed c k { s with data := d }
    rw [decodeAndClose, bind_ok hdecode, get_bind]
    simp only [hin, hout] at hclose ⊢
    rw [hclose]
    exact ⟨rfl, fun h => hclosed h.2, fun h => hkept fun hnone => h ⟨hdecodes, hnone⟩⟩

theorem exchange_sockets (mapper : Mapper) (c : Calls) (s : Exchange) :
    Sockets mapper c s (exchange mapper c s).2 := by
  obtain ⟨connect, getOutputStream, write, getInputStream, read, closeIn, closeOut, sleep⟩ := c
  cases connect with
  | some e => exact .none (by simp) rfl rfl
  | none =>
    cases getOutputStream with
    | some e => exact .leaked rfl (fun h => by cases h.getOutputStream) rfl rfl
    | none =>
      cases write with
      | some e => exact .leaked rfl (fun h => by cases h.write) rfl rfl
      | none =>
        cases getInputStream with
        | some e => exact .leaked rfl (fun h => by cases h.getInputStream) rfl rfl
        | none =>
          cases read with
          | error e =>
            refine .leaked rfl (fun h => ?_) rfl rfl
            obtain ⟨_, hread, _⟩ := h.read
            cases hread
          | ok chunks =>
            obtain ⟨hopened, hclosed, hkept⟩ := @decodeAndClose_closed mapper
              ⟨none, none, none, none, .ok chunks, closeIn, closeOut, sleep⟩ s.connected chunks
              s.opened rfl rfl
            by_cases h : Decodes mapper chunks ∧ closeIn = none
            · exact .released ⟨rfl, rfl, rfl, ⟨chunks, rfl, h.1⟩, h.2⟩ hopened (hclosed h)
            · refine .leaked rfl (fun hr => h ⟨?_, hr.closeIn⟩) hopened (hkept h)
              obtain ⟨chunks', hread, hdecodes⟩ := hr.read
              exact Except.ok.inj hread ▸ hdecodes

theorem getNetworkInfo_thrown {e : JavaException} {t : Exchange}
    (h : exchange mapper c { s with data := none } = (.error e, t)) (he : e.isRuntime = true) :
    getNetworkInfoFromClient mapper c s = (.error e, t) := by
  rw [getNetworkInfoFromClient, modify_bind, bind_error]
  refine (tryCatch_error h _).trans ?_
  cases e <;> first | rfl | cases he

/-- What is no runtime exception is caught, and `setDevId` goes by what `data` holds. -/
theorem getNetworkInfo_caught {r : Except JavaException Unit} {t : Exchange}
    (h : exchange mapper c { s with data := none } = (r, t))
    (hr : ∀ e, r = .error e → e.isRuntime = false) :
    getNetworkInfoFromClient mapper c s =
      (t.data.elim (.error .nullPointer) fun data => .ok (data.setDevId rpiId), t) := by
  have hcaught : Java.tryCatch (exchange mapper c) (fun e =>
      if e = .io ∨ e = .jsonGeneration ∨ e = .interrupted then pure () else Java.throw e)
      { s with data := none } = (.ok (), t) := by
    cases r with
    | ok _ => exact tryCatch_ok h _
    | error e =>
      refine (tryCatch_error h _).trans ?_
      have hchecked := hr e rfl
      cases e <;> first | rfl | cases hchecked
  rw [getNetworkInfoFromClient, modify_bind, bind_ok hcaught, get_bind]
  cases t.data <;> rfl

theorem getNetworkInfo_cases (mapper : Mapper) (c : Calls) (s : Exchange) : ∃ r t,
    exchange mapper c { s with data := none } = (r, t) ∧
      ((∃ e, e.isRuntime = true ∧ getNetworkInfoFromClient mapper c s = (.error e, t)) ∨
        getNetworkInfoFromClient mapper c s =
          (t.data.elim (.error .nullPointer) fun data => .ok (data.setDevId rpiId), t)) := by
  cases h : exchange mapper c { s with data := none } with
  | mk r t =>
    refine ⟨r, t, rfl, ?_⟩
    by_cases hr : ∀ e, r = .error e → e.isRuntime = false
    · exact .inr (getNetworkInfo_caught h hr)
    · simp only [not_forall, Bool.not_eq_false] at hr
      obtain ⟨e, rfl, he⟩ := hr
      exact .inl ⟨e, he, getNetworkInfo_thrown h he⟩

theorem getNetworkInfo_state (mapper : Mapper) (c : Calls) (s : Exchange) :
    (getNetworkInfoFromClient mapper c s).2 = (exchange mapper c { s with data := none }).2 := by
  obtain ⟨r, t, hrun, hends⟩ := getNetworkInfo_cases mapper c s
  rw [hrun]
  cases hends with
  | inl hthrown =>
    obtain ⟨e, _, hthrown⟩ := hthrown
    rw [hthrown]
  | inr hcaught => rw [hcaught]

theorem run_state (a : Attempt) (s : Exchange) :
    (a.run s).2 = (getNetworkInfoFromClient a.mapper a.calls s).2 := by
  have hcatch : ∀ (m : J Unit) (t : Exchange), (Java.tryCatch m (fun e =>
      if e.isRuntime then pure () else Java.throw e) t).2 = (m t).2 := by
    intro m t
    cases h : m t with
    | mk r u =>
      cases r with
      | ok _ => rw [tryCatch_ok h]
      | error e =>
        rw [tryCatch_error h]
        cases e.isRuntime with
        | true => rfl
        | false => rfl
  rw [Attempt.run, hcatch, captureAndSendNetworkData]
  cases h : getNetworkInfoFromClient a.mapper a.calls s with
  | mk r t =>
    cases r with
    | error e => rw [bind_error h]
    | ok data =>
      rw [bind_ok h]
      cases a.posted with
      | ok _ => rfl
      | error e => rfl

end exchange

def Attempt.Clean (a : Attempt) : Prop := a.calls.connect ≠ none ∨ Releases a.mapper a.calls

/-- Every socket is closed by the call that opened it, and between the calls none is open. -/
structure ClosesAll (as : List Attempt) : Prop where
  call : ∀ pre a, pre ++ [a] <+: as → ∀ k, (afterRuns pre).opened ≤ k →
    k < (afterRuns (pre ++ [a])).opened → k ∈ (afterRuns (pre ++ [a])).closed
  between : ∀ pre, pre <+: as → (afterRuns pre).openSockets = []

theorem afterRuns_concat (as : List Attempt) (a : Attempt) :
    afterRuns (as ++ [a]) = (a.run (afterRuns as)).2 := by
  rw [afterRuns, List.foldl_append]
  rfl

theorem afterRuns_sockets (as : List Attempt) (a : Attempt) :
    Sockets a.mapper a.calls (afterRuns as) (afterRuns (as ++ [a])) := by
  rw [afterRuns_concat, run_state, getNetworkInfo_state]
  cases exchange_sockets a.mapper a.calls { afterRuns as with data := none } with
  | none hconnect hopened hclosed => exact .none hconnect hopened hclosed
  | released hreleases hopened hclosed => exact .released hreleases hopened hclosed
  | leaked hconnect hreleases hopened hclosed => exact .leaked hconnect hreleases hopened hclosed

theorem closed_lt_opened (as : List Attempt) :
    ∀ k ∈ (afterRuns as).closed, k < (afterRuns as).opened := by
  induction as using List.reverseRecOn with
  | nil => exact fun k hk => absurd hk List.not_mem_nil
  | append_singleton as a ih =>
    intro k hk
    cases afterRuns_sockets as a with
    | none _ hopened hclosed =>
      rw [hopened]
      exact ih k (hclosed ▸ hk)
    | released _ hopened hclosed =>
      rw [hopened]
      cases (hclosed k).mp hk with
      | inl h => omega
      | inr h => exact Nat.lt_succ_of_lt (ih k h)
    | leaked _ _ hopened hclosed =>
      rw [hopened]
      exact Nat.lt_succ_of_lt (ih k (hclosed ▸ hk))

theorem openSockets_eq_nil {s : Exchange} : s.openSockets = [] ↔ ∀ k < s.opened, k ∈ s.closed := by
  simp [Exchange.openSockets, List.filter_eq_nil_iff]

theorem ClosesAll.clean {as : List Attempt} (h : ClosesAll as) : ∀ a ∈ as, a.Clean := by
  intro a ha
  obtain ⟨pre, post, rfl⟩ := List.append_of_mem ha
  have hp : pre ++ [a] <+: pre ++ a :: post := ⟨post, by simp⟩
  cases afterRuns_sockets pre a with
  | none hconnect => exact Or.inl hconnect
  | released hreleases => exact Or.inr hreleases
  | leaked _ _ hopened hclosed =>
    have hown := h.call pre a hp (afterRuns pre).opened (Nat.le_refl _) (by omega)
    rw [hclosed] at hown
    exact absurd (closed_lt_opened pre _ hown) (Nat.lt_irrefl _)

theorem ClosesAll.of_clean {as : List Attempt} (h : ∀ a ∈ as, a.Clean) : ClosesAll as where
  call pre a hp k hle hlt := by
    cases afterRuns_sockets pre a with
    | none _ hopened => omega
    | released _ hopened hclosed => exact (hclosed k).mpr (Or.inl (by omega))
    | leaked hconnect hreleases =>
      exact absurd (h a (hp.subset (by simp))) (not_or.mpr ⟨not_not.mpr hconnect, hreleases⟩)
  between pre := by
    rw [openSockets_eq_nil]
    induction pre using List.reverseRecOn with
    | nil => exact fun _ k hk => absurd hk (Nat.not_lt_zero k)
    | append_singleton pre a ih =>
      intro hp k hk
      have hbefore := ih ((List.prefix_append pre [a]).trans hp)
      cases afterRuns_sockets pre a with
      | none _ hopened hclosed =>
        rw [hclosed]
        exact hbefore k (hopened ▸ hk)
      | released _ hopened hclosed =>
        rw [hopened] at hk
        rw [hclosed]
        by_cases hown : k = (afterRuns pre).opened
        · exact Or.inl hown
        · exact Or.inr (hbefore k (by omega))
      | leaked hconnect hreleases =>
        exact absurd (h a (hp.subset (by simp))) (not_or.mpr ⟨not_not.mpr hconnect, hreleases⟩)

/-- No socket outlives its exchange exactly when each connection that is made goes through to the
close of its input stream. -/
theorem closes_all_iff (as : List Attempt) : ClosesAll as ↔ ∀ a ∈ as, a.Clean :=
  ⟨ClosesAll.clean, ClosesAll.of_clean⟩

/-- The response to a capture without beacons comes in two pieces, and the first is decoded. -/
def cutAttempt : Attempt where
  mapper := captureMapper
  calls := .delivering [Printf.ascii "\x7b\"pack", Printf.ascii "ets\":[]\x7d"]
  posted := .ok ()

theorem cutAttempt_leaks : ¬ ClosesAll [cutAttempt] := by
  intro h
  have hread : readBytes [Printf.ascii "\x7b\"pack", Printf.ascii "ets\":[]\x7d"] =
      (6, received (Printf.ascii "\x7b\"pack")) := readInto_fits (by decide) _
  have hcut : Printf.ascii "\x7b\"pack" ++ Printf.ascii "ets\":[]\x7d" = emptyResponse.bytes := by
    decide
  have herror : captureMapper (received (Printf.ascii "\x7b\"pack")) =
      .error .io :=
    mapper_part emptyResponse (readValue_readsObjects _) hcut (by decide) (by decide)
  rcases h.clean cutAttempt List.mem_cons_self with hconnect | hreleases
  · exact hconnect rfl
  · obtain ⟨chunks, hchunks, hdecodes⟩ := hreleases.read
    obtain rfl := Except.ok.inj hchunks
    have hmapper : cutAttempt.mapper = captureMapper := rfl
    rw [Decodes, hread, hmapper] at hdecodes
    have hpos : (6 : Int) > 0 := by decide
    exact absurd (hdecodes hpos .io herror) (by decide)

end NetworkAnalyser.Client
