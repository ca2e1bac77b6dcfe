import NetworkAnalyser.CompleteResponse
import NetworkAnalyser.Exec

/-! Two executions of the exchange on the one service: its fields are shared, and each blocking
call ends a step. An execution opens one connection, which goes by its name. -/
namespace NetworkAnalyser.Client
open NetworkAnalyser.Exec NetworkAnalyser.JavaExec NetworkAnalyser.CString NetworkAnalyser.Json

inductive Execution where
  | old
  | new
  deriving DecidableEq

def Execution.other : Execution → Execution
  | .old => .new
  | .new => .old

/-- The blocking call an execution is in, on which connection and with which local `data`, or how
the execution has ended. -/
inductive Point where
  | connecting
  | writing (k : Execution)
  | reading (k : Execution)
  | closingIn (k : Execution) (data : Option NetworkCaptureData)
  | closingOut (k : Execution) (data : Option NetworkCaptureData)
  | returned (data : NetworkCaptureData)
  | threw

inductive Event where
  | opened (e : Execution)
  | received (e k : Execution)
  | closed (e k : Execution)
  deriving DecidableEq

/-- The fields of the service; of each connection whether the command has been written, the
response read and the connection closed; the executions, and what has happened, latest first. -/
structure Service where
  socket : Option Execution
  out : Option Execution
  inp : Option Execution
  written : Execution → Bool
  taken : Execution → Bool
  closed : Execution → Bool
  point : Execution → Point
  log : List Event

def Service.initial : Service where
  socket := none
  out := none
  inp := none
  written := fun _ => false
  taken := fun _ => false
  closed := fun _ => false
  point := fun _ => .connecting
  log := []

namespace Service

def goTo (s : Service) (e : Execution) (p : Point) : Service :=
  { s with point := Function.update s.point e p }

def logged (s : Service) (ev : Event) : Service := { s with log := ev :: s.log }

def connected (s : Service) (e : Execution) : Service :=
  ({ s with socket := some e, out := some e }.logged (.opened e)).goTo e (.writing e)

def markWritten (s : Service) (k : Execution) : Service :=
  { s with written := Function.update s.written k true }

/-- `write` has returned; the stream to read from is that of the socket of the field. -/
def wrote (s : Service) (e k : Execution) : Service :=
  match s.socket with
  | none => (s.markWritten k).goTo e .threw
  | some j =>
    if s.closed j then (s.markWritten k).goTo e .threw
    else { s.markWritten k with inp := some j }.goTo e (.reading j)

def markTaken (s : Service) (k : Execution) : Service :=
  { s with taken := Function.update s.taken k true }

def finishedReading (s : Service) (e k : Execution) (data : Option NetworkCaptureData) : Service :=
  match s.inp with
  | none => ((s.markTaken k).logged (.received e k)).goTo e .threw
  | some j => ((s.markTaken k).logged (.received e k)).goTo e (.closingIn j data)

def close (s : Service) (e k : Execution) : Service :=
  { s with closed := Function.update s.closed k true }.logged (.closed e k)

def closedIn (s : Service) (e k : Execution) (data : Option NetworkCaptureData) : Service :=
  match s.out with
  | none => (s.close e k).goTo e .threw
  | some j => (s.close e k).goTo e (.closingOut j data)

def closedOut (s : Service) (e k : Execution) (data : Option NetworkCaptureData) : Service :=
  match data with
  | none => (s.close e k).goTo e .threw
  | some data => (s.close e k).goTo e (.returned (data.setDevId rpiId))

end Service

def decodeRead (mapper : Mapper) (chunks : List Bytes) :
    Except JavaException (Option NetworkCaptureData) :=
  let read := readInto (List.replicate maxNetworkInputBufferSize 0) chunks
  if read.1 > 0 then
    match mapper read.2 with
    | .ok data => .ok (some data)
    | .error e => if e = .jsonGeneration then .ok none else .error e
  else
    .ok none

section step
variable (mapper : Mapper) (response : Execution → Response)

/- The blocking call of the execution returns, and it runs on to the next one. A stream of a
closed connection throws, a read waits for the response, and behind the response the stream
ends. -/
def exchangeStep (s : Service) (e : Execution) : Option Service :=
  match s.point e with
  | .connecting => some (s.connected e)
  | .writing k => if s.closed k then some (s.goTo e .threw) else some (s.wrote e k)
  | .reading k =>
    if s.closed k then some (s.goTo e .threw)
    else if s.written k then
      match decodeRead mapper (if s.taken k then [] else [(response k).bytes]) with
      | .error _ => some ((s.markTaken k).goTo e .threw)
      | .ok data => some (s.finishedReading e k data)
    else none
  | .closingIn k data => some (s.closedIn e k data)
  | .closingOut k data => some (s.closedOut e k data)
  | .returned _ => none
  | .threw => none

def interleave (es : List Execution) : Option Service :=
  runOver (exchangeStep mapper response) .initial es

end step

def Service.Finished (s : Service) : Prop :=
  ∀ e, s.point e = .threw ∨ ∃ data, s.point e = .returned data

theorem Execution.other_ne (e : Execution) : e.other ≠ e := by
  cases e <;> decide

@[simp] theorem Execution.other_other (e : Execution) : e.other.other = e := by
  cases e <;> rfl

theorem Execution.eq_or_other (e d : Execution) : d = e ∨ d = e.other := by
  cases e <;> cases d <;> decide

section decode
variable {mapper : Mapper}

theorem decodeRead_whole {r : Response} {d : NetworkCaptureData}
    (h : mapper (received r.bytes) = .ok d) : decodeRead mapper [r.bytes] = .ok (some d) := by
  have hread : readInto (List.replicate maxNetworkInputBufferSize 0) [r.bytes] =
      ((r.bytes.length : Int), received r.bytes) := readInto_fits r.fits []
  simp only [decodeRead, hread, if_pos (count_pos (bytes_ne_nil r)), h]

end decode

structure Unmoved (s t : Service) : Prop where
  point : t.point = s.point
  socket : t.socket = s.socket
  out : t.out = s.out
  written : ∀ k, s.written k = true → t.written k = true
  closed : ∀ k, s.closed k = true → t.closed k = true
  log : s.log ⊆ t.log

structure Advanced (d : Execution) (s s' : Service) : Prop where
  point : ∀ e, e ≠ d → s'.point e = s.point e
  reading : ∀ k, s'.point d = .reading k → s.socket = some k
  fields : s'.socket = s.socket ∧ s'.out = s.out ∨
    s'.socket = some d ∧ s'.out = some d ∧ s'.point d = .writing d
  written : ∀ k, s.written k = true → s'.written k = true
  closed : ∀ k, s.closed k = true → s'.closed k = true
  log : s.log ⊆ s'.log

section advanced
variable {d : Execution} {s t : Service}

@[simp] theorem goTo_point (s : Service) (e : Execution) (p : Point) :
    (s.goTo e p).point e = p := by
  simp [Service.goTo]

theorem goTo_point_of_ne {e : Execution} (h : e ≠ d) (p : Point) :
    (s.goTo d p).point e = s.point e := Function.update_of_ne h _ _

theorem update_true {f : Execution → Bool} (k : Execution) {j : Execution} (h : f j = true) :
    Function.update f k true j = true := by
  by_cases hj : j = k
  · rw [hj, Function.update_self]
  · rw [Function.update_of_ne hj, h]

theorem Unmoved.refl (s : Service) : Unmoved s s :=
  ⟨rfl, rfl, rfl, fun _ => id, fun _ => id, List.Subset.refl _⟩

theorem unmoved_markWritten (s : Service) (k : Execution) : Unmoved s (s.markWritten k) :=
  ⟨rfl, rfl, rfl, fun _ => update_true k, fun _ => id, List.Subset.refl _⟩

theorem unmoved_markTaken (s : Service) (k : Execution) : Unmoved s (s.markTaken k) :=
  ⟨rfl, rfl, rfl, fun _ => id, fun _ => id, List.Subset.refl _⟩

theorem unmoved_close (s : Service) (e k : Execution) : Unmoved s (s.close e k) :=
  ⟨rfl, rfl, rfl, fun _ => id, fun _ => update_true k, List.subset_cons_self _ _⟩

theorem Unmoved.logged (h : Unmoved s t) (ev : Event) : Unmoved s (t.logged ev) :=
  { h with log := List.subset_cons_of_subset ev h.log }

theorem Unmoved.setIn (h : Unmoved s t) (i : Option Execution) : Unmoved s { t with inp := i } :=
  { h with }

theorem Unmoved.goTo (h : Unmoved s t) (d : Execution) {p : Point}
    (hp : ∀ k, p = .reading k → s.socket = some k) : Advanced d s (t.goTo d p) where
  point e he := (goTo_point_of_ne he p).trans (congrFun h.point e)
  reading k hk := hp k ((goTo_point _ _ _).symm.trans hk)
  fields := Or.inl ⟨h.socket, h.out⟩
  written := h.written
  closed := h.closed
  log := h.log

theorem connected_advanced (s : Service) (d : Execution) : Advanced d s (s.connected d) where
  point _ h := goTo_point_of_ne h _
  reading _ hk := Point.noConfusion ((goTo_point _ _ _).symm.trans hk)
  fields := Or.inr ⟨rfl, rfl, goTo_point _ _ _⟩
  written _ := id
  closed _ := id
  log := List.subset_cons_self _ _

theorem wrote_advanced (s : Service) (d k : Execution) : Advanced d s (s.wrote d k) := by
  have hunmoved := unmoved_markWritten s k
  rw [Service.wrote]
  split
  · exact hunmoved.goTo d nofun
  case h_2 j hsocket =>
    split
    · exact hunmoved.goTo d nofun
    · exact (hunmoved.setIn (some j)).goTo d fun i hi => by
        cases hi
        exact hsocket

theorem finishedReading_advanced (s : Service) (d k : Execution)
    (data : Option NetworkCaptureData) : Advanced d s (s.finishedReading d k data) := by
  have hunmoved := (unmoved_markTaken s k).logged (.received d k)
  rw [Service.finishedReading]
  split
  · exact hunmoved.goTo d nofun
  · exact hunmoved.goTo d nofun

theorem closedIn_advanced (s : Service) (d k : Execution) (data : Option NetworkCaptureData) :
    Advanced d s (s.closedIn d k data) := by
  have hunmoved := unmoved_close s d k
  rw [Service.closedIn]
  split
  · exact hunmoved.goTo d nofun
  · exact hunmoved.goTo d nofun

theorem closedOut_advanced (s : Service) (d k : Execution) (data : Option NetworkCaptureData) :
    Advanced d s (s.closedOut d k data) := by
  have hunmoved := unmoved_close s d k
  cases data with
  | none => exact hunmoved.goTo d nofun
  | some data => exact hunmoved.goTo d nofun

variable {mapper : Mapper} {response : Execution → Response}
  {s' : Service}

theorem exchangeStep_advanced (h : exchangeStep mapper response s d = some s') :
    Advanced d s s' := by
  rw [exchangeStep] at h
  cases hp : s.point d with
  | connecting =>
    rw [hp] at h
    exact Option.some.inj h ▸ connected_advanced s d
  | writing k =>
    simp only [hp] at h
    split at h
    · exact Option.some.inj h ▸ (Unmoved.refl s).goTo d nofun
    · exact Option.some.inj h ▸ wrote_advanced s d k
  | reading k =>
    simp only [hp] at h
    split at h
    · exact Option.some.inj h ▸ (Unmoved.refl s).goTo d nofun
    · split at h
      · split at h
        · exact Option.some.inj h ▸ (unmoved_markTaken s k).goTo d nofun
        · exact Option.some.inj h ▸ finishedReading_advanced s d k _
      · cases h
  | closingIn k data =>
    rw [hp] at h
    exact Option.some.inj h ▸ closedIn_advanced s d k data
  | closingOut k data =>
    rw [hp] at h
    exact Option.some.inj h ▸ closedOut_advanced s d k data
  | returned data =>
    rw [hp] at h
    cases h
  | threw =>
    rw [hp] at h
    cases h

end advanced

/-- A read on the connection returns now, or once the execution it belongs to has written. -/
def Served (s : Service) (k : Execution) : Prop :=
  s.written k = true ∨ s.closed k = true ∨ s.point k = .writing k

structure Serving (s : Service) : Prop where
  socket : ∀ k, s.socket = some k → Served s k
  reading : ∀ e k, s.point e = .reading k → Served s k

section progress
variable {mapper : Mapper} {response : Execution → Response}
  {d : Execution} {s s' : Service}

theorem wrote_written (s : Service) (e k : Execution) : (s.wrote e k).written k = true := by
  have hwritten : (s.markWritten k).written k = true := Function.update_self _ _ _
  rw [Service.wrote]
  split
  · exact hwritten
  · split
    · exact hwritten
    · exact hwritten

theorem Served.step {k : Execution} (h : Served s k)
    (hstep : exchangeStep mapper response s d = some s') : Served s' k := by
  have hadv := exchangeStep_advanced hstep
  obtain hwritten | hclosed | hp := h
  · exact Or.inl (hadv.written k hwritten)
  · exact Or.inr (Or.inl (hadv.closed k hclosed))
  · by_cases hkd : k = d
    · subst hkd
      simp only [exchangeStep, hp] at hstep
      split at hstep
      case isTrue hclosed => exact Or.inr (Or.inl (hadv.closed k hclosed))
      case isFalse => exact Or.inl (Option.some.inj hstep ▸ wrote_written s k k)
    · exact Or.inr (Or.inr ((hadv.point k hkd).trans hp))

theorem Serving.step (h : Serving s) (hstep : exchangeStep mapper response s d = some s') :
    Serving s' := by
  have hadv := exchangeStep_advanced hstep
  constructor
  · intro k hk
    cases hadv.fields with
    | inl hsame => exact (h.socket k (hsame.1.symm.trans hk)).step hstep
    | inr hnew =>
      obtain rfl := Option.some.inj (hnew.1.symm.trans hk)
      exact Or.inr (Or.inr hnew.2.2)
  · intro e k hk
    by_cases he : e = d
    · subst he
      exact (h.socket k (hadv.reading k hk)).step hstep
    · exact (h.reading e k ((hadv.point e he).symm.trans hk)).step hstep

theorem Serving.run {es : List Execution} (h : interleave mapper response es = some s) :
    Serving s := by
  have hinitial : Serving .initial := by
    constructor
    · intro k hk
      cases hk
    · intro e k hk
      cases hk
  exact runOver_history (fun _ s => Serving s) hinitial
    (fun _ _ _ _ _ _ hu hstep => hu.step hstep) h

theorem ended_or_waiting (h : exchangeStep mapper response s d = none) :
    (s.point d = .threw ∨ ∃ data, s.point d = .returned data) ∨
      ∃ k, s.point d = .reading k ∧ s.written k = false ∧ s.closed k = false := by
  rw [exchangeStep] at h
  cases hp : s.point d with
  | connecting =>
    rw [hp] at h
    cases h
  | writing k =>
    simp only [hp] at h
    split at h <;> cases h
  | reading k =>
    simp only [hp] at h
    split at h
    · cases h
    · split at h
      · split at h <;> cases h
      · exact Or.inr ⟨k, rfl, by simpa using ‹¬ s.written k = true›,
          by simpa using ‹¬ s.closed k = true›⟩
  | closingIn k data =>
    rw [hp] at h
    cases h
  | closingOut k data =>
    rw [hp] at h
    cases h
  | returned data => exact Or.inl (Or.inr ⟨data, rfl⟩)
  | threw => exact Or.inl (Or.inl rfl)

/-- Every interleaving can go on until both executions have ended. -/
theorem interleave_progress {es : List Execution} (h : interleave mapper response es = some s)
    (hunfinished : ¬ s.Finished) : ∃ e s', exchangeStep mapper response s e = some s' := by
  have hserving := Serving.run h
  by_contra hstuck
  have hnone (e : Execution) : exchangeStep mapper response s e = none := by
    cases hstep : exchangeStep mapper response s e with
    | none => rfl
    | some s' => exact absurd ⟨e, s', hstep⟩ hstuck
  refine hunfinished fun e => (ended_or_waiting (hnone e)).elim id ?_
  rintro ⟨k, hp, hwritten, hclosed⟩
  obtain hw | hc | hk := hserving.reading e k hp
  · exact Bool.noConfusion (hwritten.symm.trans hw)
  · exact Bool.noConfusion (hclosed.symm.trans hc)
  · -- the execution it waits for is about to write
    obtain (hend | ⟨_, hend⟩) | ⟨_, hend, _⟩ := ended_or_waiting (hnone k)
    · exact Point.noConfusion (hk.symm.trans hend)
    · exact Point.noConfusion (hk.symm.trans hend)
    · exact Point.noConfusion (hk.symm.trans hend)

end progress

end NetworkAnalyser.Client
