import Mathlib.Tactic.IntervalCases
import NetworkAnalyser.SharedService

/-! Two executions of the exchange on the one service: in which orders of their steps each has its
connection for itself. -/
namespace NetworkAnalyser.Client
open NetworkAnalyser.Exec NetworkAnalyser.JavaExec NetworkAnalyser.CString NetworkAnalyser.Json

def Orderly : List Event → Prop
  | [] => True
  | .closed e k :: log => e = k ∧ (∃ j, .received k j ∈ log) ∧ Orderly log
  | .opened _ :: log => Orderly log
  | .received _ _ :: log => Orderly log

/-- Each execution returns what was sent on its own connection, and each connection is closed, by
its own execution and after its read. -/
structure Undisturbed (data : Execution → NetworkCaptureData) (s : Service) : Prop where
  returns : ∀ e, s.point e = .returned ((data e).setDevId rpiId)
  closes : ∀ e, .closed e e ∈ s.log
  orderly : Orderly s.log

/-- The `out.close()` of `e` is going to close the connection of the other one, or has done so, or
`e` throws. -/
inductive Doomed (e : Execution) (s : Service) : Prop
  | writing {k : Execution} (hp : s.point e = .writing k) (hout : s.out = some e.other)
  | reading {k : Execution} (hp : s.point e = .reading k) (hout : s.out = some e.other)
  | closingIn {k : Execution} {data : Option NetworkCaptureData}
      (hp : s.point e = .closingIn k data) (hout : s.out = some e.other)
  | closingOut {data : Option NetworkCaptureData} (hp : s.point e = .closingOut e.other data)
  | closed (h : .closed e e.other ∈ s.log)
  | threw (hp : s.point e = .threw)

theorem Orderly.own {log : List Event} (h : Orderly log) {e k : Execution}
    (hmem : .closed e k ∈ log) : e = k := by
  induction log with
  | nil => cases hmem
  | cons ev log ih =>
    cases ev with
    | opened j => exact ih h (List.mem_of_ne_of_mem (by simp) hmem)
    | received i j => exact ih h (List.mem_of_ne_of_mem (by simp) hmem)
    | closed i j =>
      cases List.mem_cons.mp hmem with
      | inl heq =>
        cases heq
        exact h.1
      | inr hmem => exact ih h.2.2 hmem

theorem Doomed.not_undisturbed {e : Execution} {s : Service} (h : Doomed e s)
    {data : Execution → NetworkCaptureData} : ¬ Undisturbed data s := by
  intro hs
  have hreturns := hs.returns e
  cases h with
  | writing hp => exact Point.noConfusion (hp.symm.trans hreturns)
  | reading hp => exact Point.noConfusion (hp.symm.trans hreturns)
  | closingIn hp => exact Point.noConfusion (hp.symm.trans hreturns)
  | closingOut hp => exact Point.noConfusion (hp.symm.trans hreturns)
  | closed h => exact e.other_ne (hs.orderly.own h).symm
  | threw hp => exact Point.noConfusion (hp.symm.trans hreturns)

section doomed
variable {mapper : Mapper} {response : Execution → Response}
  {e d : Execution} {s s' : Service}

theorem Doomed.own_step (h : Doomed e s) (hstep : exchangeStep mapper response s e = some s') :
    Doomed e s' := by
  have hadv := exchangeStep_advanced hstep
  rw [exchangeStep] at hstep
  cases h with
  | writing hp hout =>
    simp only [hp, Service.wrote] at hstep
    split at hstep
    · exact Option.some.inj hstep ▸ .threw (goTo_point _ _ _)
    · split at hstep
      · exact Option.some.inj hstep ▸ .threw (goTo_point _ _ _)
      · split at hstep
        · exact Option.some.inj hstep ▸ .threw (goTo_point _ _ _)
        · exact Option.some.inj hstep ▸ .reading (goTo_point _ _ _) hout
  | reading hp hout =>
    simp only [hp, Service.finishedReading] at hstep
    split at hstep
    · exact Option.some.inj hstep ▸ .threw (goTo_point _ _ _)
    · split at hstep
      · split at hstep
        · exact Option.some.inj hstep ▸ .threw (goTo_point _ _ _)
        · split at hstep
          · exact Option.some.inj hstep ▸ .threw (goTo_point _ _ _)
          · exact Option.some.inj hstep ▸ .closingIn (goTo_point _ _ _) hout
      · cases hstep
  | closingIn hp hout =>
    simp only [hp, Service.closedIn, hout] at hstep
    exact Option.some.inj hstep ▸ .closingOut (goTo_point _ _ _)
  | @closingOut data hp =>
    simp only [hp] at hstep
    cases data with
    | none => exact Option.some.inj hstep ▸ .closed List.mem_cons_self
    | some data => exact Option.some.inj hstep ▸ .closed List.mem_cons_self
  | closed h => exact .closed (hadv.log h)
  | threw hp =>
    rw [hp] at hstep
    cases hstep

theorem Doomed.other_step (h : Doomed e s)
    (hstep : exchangeStep mapper response s e.other = some s') : Doomed e s' := by
  have hadv := exchangeStep_advanced hstep
  have hpoint : s'.point e = s.point e := hadv.point e e.other_ne.symm
  have hout (hs : s.out = some e.other) : s'.out = some e.other :=
    hadv.fields.elim (fun heq => heq.2.trans hs) fun hnew => hnew.2.1
  cases h with
  | writing hp hs => exact .writing (hpoint.trans hp) (hout hs)
  | reading hp hs => exact .reading (hpoint.trans hp) (hout hs)
  | closingIn hp hs => exact .closingIn (hpoint.trans hp) (hout hs)
  | closingOut hp => exact .closingOut (hpoint.trans hp)
  | closed h => exact .closed (hadv.log h)
  | threw hp => exact .threw (hpoint.trans hp)

theorem Doomed.run {es : List Execution} (h : Doomed e s)
    (hrun : runOver (exchangeStep mapper response) s es = some s') : Doomed e s' := by
  refine runOver_history (fun _ s => Doomed e s) h ?_ hrun
  intro seen d u v _ _ hu hstep
  obtain rfl | rfl := e.eq_or_other d
  · exact hu.own_step hstep
  · exact hu.other_step hstep

end doomed

/-- `e` uses no field any more. -/
inductive Past (data : Execution → NetworkCaptureData) (e : Execution) (s : Service) : Prop
  | closingOut (hp : s.point e = .closingOut e (some (data e))) (hread : .received e e ∈ s.log)
      (hclosed : .closed e e ∈ s.log)
  | returned (hp : s.point e = .returned ((data e).setDevId rpiId))
      (hclosed : .closed e e ∈ s.log)

/-- `e` is the last to have assigned the fields it is going to use. -/
inductive Own (data : Execution → NetworkCaptureData) (e : Execution) (s : Service) : Prop
  | connecting (hp : s.point e = .connecting) (hclosed : s.closed e = false)
      (htaken : s.taken e = false)
  | writing (hp : s.point e = .writing e) (hclosed : s.closed e = false)
      (htaken : s.taken e = false) (hsocket : s.socket = some e) (hout : s.out = some e)
  | reading (hp : s.point e = .reading e) (hclosed : s.closed e = false)
      (htaken : s.taken e = false) (hwritten : s.written e = true) (hinp : s.inp = some e)
      (hout : s.out = some e)
  | closingIn (hp : s.point e = .closingIn e (some (data e))) (hread : .received e e ∈ s.log)
      (hout : s.out = some e)
  | past (h : Past data e s)

structure Apart (d : Execution) (s s' : Service) : Prop where
  point : s'.point d.other = s.point d.other
  written : s'.written d.other = s.written d.other
  taken : s'.taken d.other = s.taken d.other
  closed : s'.closed d.other = s.closed d.other
  log : s.log ⊆ s'.log
  orderly : Orderly s.log → Orderly s'.log

section own
variable {mapper : Mapper} {response : Execution → Response}
  {data : Execution → NetworkCaptureData} {e : Execution} {s s' : Service}

theorem Past.apart (h : Past data e s) (happart : Apart e.other s s') : Past data e s' := by
  have hpoint : s'.point e = s.point e := by simpa using happart.point
  cases h with
  | closingOut hp hread hclosed =>
    exact .closingOut (hpoint.trans hp) (happart.log hread) (happart.log hclosed)
  | returned hp hclosed => exact .returned (hpoint.trans hp) (happart.log hclosed)

theorem Past.step (h : Past data e s) (hstep : exchangeStep mapper response s e = some s') :
    Past data e s' ∧ Apart e s s' ∧ s'.socket = s.socket ∧ s'.out = s.out ∧ s'.inp = s.inp := by
  rw [exchangeStep] at hstep
  cases h with
  | closingOut hp hread hclosed =>
    rw [hp] at hstep
    obtain rfl := Option.some.inj hstep
    refine ⟨.returned (goTo_point _ _ _) List.mem_cons_self, ?_, rfl, rfl, rfl⟩
    exact {
      point := goTo_point_of_ne e.other_ne _
      written := rfl
      taken := rfl
      closed := Function.update_of_ne e.other_ne _ _
      log := List.subset_cons_self _ _
      orderly := fun h => ⟨rfl, ⟨e, hread⟩, h⟩ }
  | returned hp =>
    rw [hp] at hstep
    cases hstep

theorem Own.apart (h : Own data e s) (happart : Apart e.other s s') (hsocket : s'.socket = s.socket)
    (hout : s'.out = s.out) (hinp : s'.inp = s.inp) : Own data e s' := by
  have hpoint : s'.point e = s.point e := by simpa using happart.point
  have hwritten : s'.written e = s.written e := by simpa using happart.written
  have htaken : s'.taken e = s.taken e := by simpa using happart.taken
  have hclosed : s'.closed e = s.closed e := by simpa using happart.closed
  cases h with
  | connecting hp hc ht => exact .connecting (hpoint.trans hp) (hclosed.trans hc) (htaken.trans ht)
  | writing hp hc ht hs ho =>
    exact .writing (hpoint.trans hp) (hclosed.trans hc) (htaken.trans ht) (hsocket.trans hs)
      (hout.trans ho)
  | reading hp hc ht hw hi ho =>
    exact .reading (hpoint.trans hp) (hclosed.trans hc) (htaken.trans ht) (hwritten.trans hw)
      (hinp.trans hi) (hout.trans ho)
  | closingIn hp hr ho => exact .closingIn (hpoint.trans hp) (happart.log hr) (hout.trans ho)
  | past h => exact .past (h.apart happart)

variable (hread : ∀ e, mapper (received (response e).bytes) = .ok (data e))
include hread

theorem exchangeStep_reading {k : Execution} (hp : s.point e = .reading k)
    (hclosed : s.closed k = false) (htaken : s.taken k = false) (hwritten : s.written k = true) :
    exchangeStep mapper response s e = some (s.finishedReading e k (some (data k))) := by
  have hdecode : decodeRead mapper (if s.taken k then [] else [(response k).bytes]) =
      .ok (some (data k)) := by
    rw [htaken]
    exact decodeRead_whole (hread k)
  simp only [exchangeStep, hp, hclosed, hwritten, hdecode, Bool.false_eq_true, if_false, if_true]

theorem Own.step (h : Own data e s) (hstep : exchangeStep mapper response s e = some s') :
    Own data e s' ∧ Apart e s s' := by
  have hpoint {t : Service} (p : Point) (ht : t.point = s.point) :
      (t.goTo e p).point e.other = s.point e.other :=
    (goTo_point_of_ne e.other_ne p).trans (congrFun ht _)
  cases h with
  | connecting hp hclosed htaken =>
    rw [exchangeStep, hp] at hstep
    obtain rfl := Option.some.inj hstep
    refine ⟨.writing (goTo_point _ _ _) hclosed htaken rfl rfl, ?_⟩
    exact ⟨hpoint _ rfl, rfl, rfl, rfl, List.subset_cons_self _ _, id⟩
  | writing hp hclosed htaken hsocket hout =>
    simp only [exchangeStep, hp, hclosed, Service.wrote, hsocket, Bool.false_eq_true,
      if_false] at hstep
    obtain rfl := Option.some.inj hstep
    refine ⟨.reading (goTo_point _ _ _) hclosed htaken (Function.update_self _ _ _) rfl hout, ?_⟩
    exact ⟨hpoint _ rfl, Function.update_of_ne e.other_ne _ _, rfl, rfl, List.Subset.refl _, id⟩
  | reading hp hclosed htaken hwritten hinp hout =>
    rw [exchangeStep_reading hread hp hclosed htaken hwritten] at hstep
    simp only [Service.finishedReading, hinp] at hstep
    obtain rfl := Option.some.inj hstep
    refine ⟨.closingIn (goTo_point _ _ _) List.mem_cons_self hout, ?_⟩
    exact ⟨hpoint _ rfl, rfl, Function.update_of_ne e.other_ne _ _, rfl,
      List.subset_cons_self _ _, id⟩
  | closingIn hp hread hout =>
    simp only [exchangeStep, hp, Service.closedIn, hout] at hstep
    obtain rfl := Option.some.inj hstep
    refine ⟨.past (.closingOut (goTo_point _ _ _) (List.mem_cons_of_mem _ hread)
      List.mem_cons_self), ?_⟩
    exact ⟨hpoint _ rfl, rfl, rfl, Function.update_of_ne e.other_ne _ _,
      List.subset_cons_self _ _, fun h => ⟨rfl, ⟨e, hread⟩, h⟩⟩
  | past h =>
    obtain ⟨hpast, happart, _⟩ := h.step hstep
    exact ⟨.past hpast, happart⟩

end own

/-- `e` has closed its input stream, the other execution has the fields for itself. -/
structure Led (data : Execution → NetworkCaptureData) (e : Execution) (s : Service) : Prop where
  past : Past data e s
  own : Own data e.other s
  orderly : Orderly s.log

section order
variable {mapper : Mapper} {response : Execution → Response}
  {data : Execution → NetworkCaptureData} {e : Execution} {s s' : Service} {es : List Execution}

theorem Own.returned (h : Own data e s) (hfinished : s.Finished) :
    s.point e = .returned ((data e).setDevId rpiId) ∧ .closed e e ∈ s.log := by
  have hnot (p : Point) (hp : s.point e = p) (hthrew : p ≠ .threw)
      (hreturned : ∀ d, p ≠ .returned d) : False :=
    (hfinished e).elim (fun h => hthrew (hp.symm.trans h))
      fun ⟨d, h⟩ => hreturned d (hp.symm.trans h)
  cases h with
  | connecting hp => exact (hnot _ hp nofun nofun).elim
  | writing hp => exact (hnot _ hp nofun nofun).elim
  | reading hp => exact (hnot _ hp nofun nofun).elim
  | closingIn hp => exact (hnot _ hp nofun nofun).elim
  | past h =>
    cases h with
    | closingOut hp => exact (hnot _ hp nofun nofun).elim
    | returned hp hclosed => exact ⟨hp, hclosed⟩

theorem Led.undisturbed (h : Led data e s) (hfinished : s.Finished) : Undisturbed data s := by
  have hown (d : Execution) : Own data d s := by
    obtain rfl | rfl := e.eq_or_other d
    · exact .past h.past
    · exact h.own
  exact ⟨fun d => ((hown d).returned hfinished).1, fun d => ((hown d).returned hfinished).2,
    h.orderly⟩

def Service.alone (data : Execution → NetworkCaptureData) (e : Execution) : Nat → Service
  | 0 => .initial
  | 1 => Service.initial.connected e
  | 2 => (Service.initial.connected e).wrote e e
  | 3 => ((Service.initial.connected e).wrote e e).finishedReading e e (some (data e))
  | _ => (((Service.initial.connected e).wrote e e).finishedReading e e (some (data e))).closedIn
      e e (some (data e))

theorem alone_led (data : Execution → NetworkCaptureData) (e : Execution) :
    Led data e (.alone data e 4) := by
  cases e with
  | old =>
    refine ⟨.closingOut rfl ?_ ?_, .connecting rfl rfl rfl, rfl, ⟨.old, ?_⟩, trivial⟩
    · exact List.mem_cons_of_mem _ List.mem_cons_self
    · exact List.mem_cons_self
    · exact List.mem_cons_self
  | new =>
    refine ⟨.closingOut rfl ?_ ?_, .connecting rfl rfl rfl, rfl, ⟨.new, ?_⟩, trivial⟩
    · exact List.mem_cons_of_mem _ List.mem_cons_self
    · exact List.mem_cons_self
    · exact List.mem_cons_self

theorem alone_not_undisturbed {n : Nat} (hn : n < 4) : ¬ Undisturbed data (.alone data e n) := by
  intro h
  have hreturns := h.returns e.other
  interval_cases n <;> cases e <;> cases hreturns

theorem alone_doomed {n : Nat} (hpos : 0 < n) (hn : n < 4)
    (h : exchangeStep mapper response (.alone data e n) e.other = some s) : Doomed e s := by
  have hconnect : exchangeStep mapper response (.alone data e n) e.other =
      some ((Service.alone data e n).connected e.other) := by
    interval_cases n <;> cases e <;> rfl
  obtain rfl := Option.some.inj (hconnect.symm.trans h)
  interval_cases n
  · exact .writing (k := e) (by cases e <;> rfl) rfl
  · exact .reading (k := e) (by cases e <;> rfl) rfl
  · have hp : ((Service.alone data e 3).connected e.other).point e =
        .closingIn e (some (data e)) := by cases e <;> rfl
    exact .closingIn hp rfl

section mapper
variable (hread : ∀ e, mapper (received (response e).bytes) = .ok (data e))
include hread

theorem alone_step (n : Nat) (hn : n < 4) :
    exchangeStep mapper response (.alone data e n) e = some (.alone data e (n + 1)) := by
  interval_cases n
  · rfl
  · cases e <;> rfl
  · cases e <;> exact exchangeStep_reading hread rfl rfl rfl rfl
  · cases e <;> rfl

theorem Led.step (h : Led data e s) {d : Execution}
    (hstep : exchangeStep mapper response s d = some s') : Led data e s' := by
  obtain rfl | rfl := e.eq_or_other d
  · obtain ⟨hpast, happart, hsocket, hout, hinp⟩ := h.past.step hstep
    exact ⟨hpast, h.own.apart (by simpa using happart) hsocket hout hinp, happart.orderly h.orderly⟩
  · obtain ⟨hown, happart⟩ := h.own.step hread hstep
    exact ⟨h.past.apart happart, hown, happart.orderly h.orderly⟩

theorem Led.run (h : Led data e s)
    (hrun : runOver (exchangeStep mapper response) s es = some s') : Led data e s' :=
  runOver_history (fun _ s => Led data e s) h (fun _ _ _ _ _ _ hu hstep => hu.step hread hstep) hrun

theorem alone_run {n : Nat} (hn : n ≤ 4) :
    interleave mapper response (List.replicate n e) = some (.alone data e n) := by
  induction n with
  | zero => rfl
  | succ n ih =>
    rw [List.replicate_succ', interleave, runOver_append, ← interleave, ih (by omega)]
    simp [runOver, alone_step hread n hn]

theorem replicate_prefix {m n : Nat} (hpos : 0 < n) (hn : n + m = 4)
    (hrun : runOver (exchangeStep mapper response) (.alone data e n) es = some s)
    (h : Undisturbed data s) : List.replicate m e <+: es := by
  induction m generalizing n es with
  | zero => exact List.nil_prefix
  | succ m ih =>
    cases es with
    | nil =>
      obtain rfl := Option.some.inj hrun
      exact absurd h (alone_not_undisturbed (by omega))
    | cons d es =>
      obtain ⟨t, ht, hrest⟩ := Option.bind_eq_some_iff.mp hrun
      obtain rfl | rfl := e.eq_or_other d
      · rw [alone_step hread n (by omega)] at ht
        obtain rfl := Option.some.inj ht
        exact List.cons_prefix_cons.mpr ⟨rfl, ih (by omega) (by omega) hrest⟩
      · exact absurd h (((alone_doomed hpos (by omega) ht).run hrest).not_undisturbed)

end mapper

def Service.between (data : Execution → NetworkCaptureData) (e : Execution) : Service :=
  (Service.alone data e 4).closedOut e e (some (data e))

def Service.sequential (data : Execution → NetworkCaptureData) (e : Execution) : Service :=
  (((((Service.between data e).connected e.other).wrote e.other e.other).finishedReading
    e.other e.other (some (data e.other))).closedIn e.other e.other
      (some (data e.other))).closedOut e.other e.other (some (data e.other))

theorem sequential_finished (data : Execution → NetworkCaptureData) (e : Execution) :
    (Service.sequential data e).Finished := by
  intro d
  cases e <;> cases d <;> exact Or.inr ⟨_, rfl⟩

theorem sequential_run (hread : ∀ e, mapper (received (response e).bytes) = .ok (data e)) :
    interleave mapper response (List.replicate 5 e ++ List.replicate 5 e.other) =
      some (.sequential data e) := by
  have hbetween : interleave mapper response (List.replicate 5 e) = some (.between data e) := by
    rw [List.replicate_succ', interleave, runOver_append, ← interleave,
      alone_run hread (Nat.le_refl 4)]
    cases e <;> rfl
  rw [interleave, runOver_append, ← interleave, hbetween, Option.bind_some]
  cases e with
  | old =>
    refine (runOver_cons rfl _).trans ((runOver_cons rfl _).trans ?_)
    exact (runOver_cons (exchangeStep_reading hread rfl rfl rfl rfl) _).trans rfl
  | new =>
    refine (runOver_cons rfl _).trans ((runOver_cons rfl _).trans ?_)
    exact (runOver_cons (exchangeStep_reading hread rfl rfl rfl rfl) _).trans rfl

section reads
variable {bind : Value → Option NetworkCaptureData} (hreads : ReadsObjects bind mapper)
  (hbind : ∀ e, bind (response e).value = some (data e))
include hreads hbind

theorem sequential_returns (e d : Execution) (x : Exchange) :
    ∃ result, (Service.sequential data e).point d = .returned result ∧
      (getNetworkInfoFromClient mapper (.delivering [(response d).bytes]) x).1 = .ok result := by
  refine ⟨(data d).setDevId rpiId, ?_, getNetworkInfo_whole (response d) hreads (hbind d) x⟩
  cases e <;> cases d <;> rfl

/-- Two executions leave each other alone exactly when one has closed its input stream before the
other connects. -/
theorem undisturbed_iff (hrun : interleave mapper response es = some s) (hfinished : s.Finished) :
    Undisturbed data s ↔ ∃ e, List.replicate 4 e <+: es := by
  have hread : ∀ e, mapper (received (response e).bytes) = .ok (data e) :=
    fun e => mapper_whole (response e) hreads (hbind e)
  constructor
  · intro h
    cases es with
    | nil =>
      obtain rfl := Option.some.inj hrun
      exact absurd h (alone_not_undisturbed (e := .old) (n := 0) (by decide))
    | cons e es =>
      have hrest : runOver (exchangeStep mapper response) (.alone data e 1) es = some s := hrun
      exact ⟨e, List.cons_prefix_cons.mpr ⟨rfl, replicate_prefix hread (by decide) rfl hrest h⟩⟩
  · rintro ⟨e, rest, rfl⟩
    rw [interleave, runOver_append, ← interleave, alone_run hread (Nat.le_refl 4)] at hrun
    exact ((alone_led data e).run hread hrun).undisturbed hfinished

end reads
end order

def noBeacon : NetworkCaptureData := ⟨none, []⟩

theorem noBeacon_read (_ : Execution) :
    captureMapper (received emptyResponse.bytes) = .ok noBeacon :=
  mapper_whole emptyResponse (readValue_readsObjects _) emptyResponse_value

theorem oldThenNew_undisturbed : ∃ s, interleave captureMapper
    (fun _ => emptyResponse) [.old, .old, .old, .old, .old, .new, .new, .new, .new, .new] =
      some s ∧ s.Finished ∧ Undisturbed (fun _ => noBeacon) s := by
  have hrun := sequential_run noBeacon_read (e := .old)
  have hfinished := sequential_finished (fun _ => noBeacon) .old
  exact ⟨_, hrun, hfinished, (undisturbed_iff (readValue_readsObjects _)
    (fun _ => emptyResponse_value) hrun hfinished).mpr ⟨.old, List.prefix_iff_eq_take.mpr rfl⟩⟩

/-- The new execution connects before the old one writes, and closes the connection that both
read from. -/
theorem newConnectsFirst_disturbed : ∃ s, interleave captureMapper
    (fun _ => emptyResponse) [.old, .new, .new, .old, .new, .new, .new, .old] = some s ∧
      s.Finished ∧ ¬ Undisturbed (fun _ => noBeacon) s ∧ s.point .old = .threw := by
  have hread (s : Service) (hp : s.point .new = .reading .new) (hclosed : s.closed .new = false)
      (htaken : s.taken .new = false) (hwritten : s.written .new = true) :=
    exchangeStep_reading noBeacon_read hp hclosed htaken hwritten
  refine ⟨_, (runOver_cons rfl _).trans ((runOver_cons rfl _).trans ((runOver_cons rfl _).trans
    ((runOver_cons rfl _).trans ((runOver_cons (hread _ rfl rfl rfl rfl) _).trans rfl)))),
    ?_, ?_, rfl⟩
  · intro e
    cases e with
    | old => exact Or.inl rfl
    | new => exact Or.inr ⟨_, rfl⟩
  · intro h
    exact Point.noConfusion (h.returns .old)

end NetworkAnalyser.Client
