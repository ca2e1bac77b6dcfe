import Mathlib.Data.List.Destutter
import NetworkAnalyser.ScheduleSync

/-! When a run of the job goes on to a new timer, over runs that do not overlap: the attempts to
schedule are the changes of the fetched configuration. -/
namespace NetworkAnalyser.Client
open NetworkAnalyser.JavaExec NetworkAnalyser.JavaTimer

def fetchAndCancel (response : Except JavaException (Option RpiConfig)) :
    SyncJ (Option RpiConfig) := do
  let rpiConfig ← getRpiConfigFromServer response
  saveAndCancel rpiConfig

def resume (x : Start) : Option RpiConfig → SyncJ Unit
  | none => return
  | some rpiConfig => do
    waitForCleanup x.interrupted
    reschedule x.now rpiConfig

theorem synchronize_eq (x : Start) (s : ConfigSyncJob) :
    synchronize x s = (fetchAndCancel x.response >>= resume x) s := by
  obtain ⟨response, interrupted, now⟩ := x
  cases response with
  | error e => rfl
  | ok rpiConfig =>
    cases h : saveAndCancel rpiConfig s with
    | mk r t =>
      have hfetch : fetchAndCancel (.ok rpiConfig) s = (r, t) := h
      cases r with
      | error e => exact (bind_error h _).trans (bind_error hfetch _).symm
      | ok o =>
        refine (bind_ok h _).trans (Eq.trans ?_ (bind_ok hfetch _).symm)
        cases o <;> rfl

section fetch
variable {response : Except JavaException (Option RpiConfig)} {s : ConfigSyncJob}

inductive Fetched (response : Except JavaException (Option RpiConfig)) (s : ConfigSyncJob) :
    Except JavaException (Option RpiConfig) → ConfigSyncJob → Prop
  | failed {e : JavaException} (h : ∀ c, response ≠ .ok (some c)) : Fetched response s (.error e) s
  | same {c : RpiConfig} (h : response = .ok (some c)) (hcur : s.curRpiConfig = some c) :
      Fetched response s (.ok none) s
  | changed {c : RpiConfig} (h : response = .ok (some c)) (hcur : s.curRpiConfig ≠ some c) :
      Fetched response s (.ok (some c)) { s with curRpiConfig := some c, timers := s.cancelled }

theorem fetched (response : Except JavaException (Option RpiConfig)) (s : ConfigSyncJob) :
    Fetched response s (fetchAndCancel response s).1 (fetchAndCancel response s).2 := by
  cases response with
  | error e => exact .failed fun c h => by cases h
  | ok rpiConfig =>
    cases rpiConfig with
    | none => exact .failed fun c h => by cases h
    | some c =>
      change Fetched _ s (saveAndCancel (some c) s).1 (saveAndCancel (some c) s).2
      by_cases hcur : s.curRpiConfig = some c
      · rw [saveAndCancel_same hcur]
        exact .same rfl hcur
      · rw [saveAndCancel_changed hcur]
        exact .changed rfl hcur

end fetch

/-- The configuration a run that starts in `s` goes on with past the sleep; `Schedules` is what it
does with it. -/
def attempted (x : Start) (s : ConfigSyncJob) : Option RpiConfig :=
  match (fetchAndCancel x.response s).1 with
  | .ok rpiConfig => rpiConfig
  | .error _ => none

def beforeTimer (x : Start) (s : ConfigSyncJob) : ConfigSyncJob :=
  (fetchAndCancel x.response s).2

section attempt
variable {x : Start} {s s' : ConfigSyncJob} {c : RpiConfig}

theorem Fetched.goes_on_iff {r : Except JavaException (Option RpiConfig)}
    (h : Fetched x.response s r s') :
    r = .ok (some c) ↔ x.response = .ok (some c) ∧ s.curRpiConfig ≠ some c := by
  cases h with
  | failed hnone => exact iff_of_false (by simp) fun h => hnone c h.1
  | same heq hcur =>
    refine iff_of_false (by simp) fun h => h.2 ?_
    rw [hcur, ← Except.ok.inj (heq.symm.trans h.1)]
  | changed heq hcur =>
    constructor
    · intro h
      have hc := Except.ok.inj h
      exact ⟨heq.trans (congrArg Except.ok hc), hc ▸ hcur⟩
    · exact fun h => heq.symm.trans h.1

theorem attempted_eq_some_iff :
    attempted x s = some c ↔ x.fetched = some c ∧ s.curRpiConfig ≠ some c := by
  have hfetched : x.fetched = some c ↔ x.response = .ok (some c) := by
    rw [Start.fetched]
    cases x.response with
    | error e => simp
    | ok rpiConfig => simp
  rw [hfetched, ← (fetched x.response s).goes_on_iff, attempted]
  cases (fetchAndCancel x.response s).1 with
  | error e => simp
  | ok rpiConfig => simp

theorem Ran.idle {r : Except JavaException Unit} (h : Ran x s r s') (hidle : attempted x s = none) :
    s' = s := by
  cases h with
  | failed => rfl
  | same => rfl
  | scheduled hf hcur =>
    rw [attempted_eq_some_iff.mpr ⟨hf, hcur⟩] at hidle
    cases hidle
  | refused hf hcur =>
    rw [attempted_eq_some_iff.mpr ⟨hf, hcur⟩] at hidle
    cases hidle

/-- The one call of `scheduleAtFixedRate` of a run, on the new timer: the timer takes the task, or
the run ends with what it throws. -/
inductive Schedules (x : Start) (c : RpiConfig) (s : ConfigSyncJob) :
    Except JavaException Unit → ConfigSyncJob → Prop
  | accepted {t : Timer} (h : Timer.fresh.scheduleAtFixedRate x.now c.schedule = .ok t)
      (htasks : t.tasks = [c.schedule]) : Schedules x c s (.ok ()) (s.renewed c t)
  | refused {r : Refusal} (h : Timer.fresh.scheduleAtFixedRate x.now c.schedule = .error r) :
      Schedules x c s (.error (.refused r)) (s.renewed c .fresh)

theorem Ran.schedules {r : Except JavaException Unit} (h : Ran x s r s')
    (hgoes : attempted x s = some c) : Schedules x c s r s' := by
  obtain ⟨hf, hcur⟩ := attempted_eq_some_iff.mp hgoes
  cases h with
  | failed h => rw [hf] at h; cases h
  | same h hsame => exact absurd (hsame.trans (h.symm.trans hf)) hcur
  | scheduled h _ haccepted =>
    obtain rfl := Option.some.inj (h.symm.trans hf)
    exact .accepted (schedule_fresh haccepted) rfl
  | refused h _ hrefused =>
    obtain rfl := Option.some.inj (h.symm.trans hf)
    exact .refused (schedule_refused hrefused .fresh)

theorem Schedules.renewed {r : Except JavaException Unit} (h : Schedules x c s r s') :
    ∃ t, s' = s.renewed c t := by
  cases h with
  | accepted => exact ⟨_, rfl⟩
  | refused => exact ⟨_, rfl⟩

theorem beforeTimer_timers (hgoes : attempted x s = some c) :
    (beforeTimer x s).timers = s.cancelled := by
  have hstate : ∀ {r t}, Fetched x.response s r t → r = .ok (some c) → t.timers = s.cancelled := by
    intro r t h hr
    cases h with
    | failed => cases hr
    | same => cases hr
    | changed => rfl
  refine hstate (fetched x.response s) ?_
  rw [attempted] at hgoes
  cases hr : (fetchAndCancel x.response s).1 with
  | error e => rw [hr] at hgoes; cases hgoes
  | ok rpiConfig => rw [hr] at hgoes; exact congrArg Except.ok hgoes

end attempt

def OthersCancelled (s : ConfigSyncJob) : Prop :=
  ∀ i t, s.timers[i]? = some t → s.timer ≠ some i → t.cancelled = true

theorem mem_cancelled {s : ConfigSyncJob} {t : Timer} (h : t ∈ s.cancelled) :
    (∃ u : Timer, t = u.cancel) ∨ ∃ i, s.timers[i]? = some t ∧ s.timer ≠ some i := by
  obtain ⟨i, hi⟩ := List.mem_iff_getElem?.mp h
  cases hheld : s.timer with
  | none =>
    rw [ConfigSyncJob.cancelled, hheld] at hi
    exact Or.inr ⟨i, hi, by simp⟩
  | some j =>
    rw [ConfigSyncJob.cancelled, hheld, List.getElem?_modify] at hi
    obtain ⟨u, hu, rfl⟩ := Option.map_eq_some_iff.mp hi
    by_cases hij : j = i
    · rw [if_pos hij]
      exact Or.inl ⟨u, rfl⟩
    · rw [if_neg hij]
      exact Or.inr ⟨i, hu, by simpa using hij⟩

theorem OthersCancelled.cancelled {s : ConfigSyncJob} (h : OthersCancelled s) :
    ∀ t ∈ s.cancelled, t.cancelled = true := by
  intro t ht
  obtain ⟨u, rfl⟩ | ⟨i, hi, hne⟩ := mem_cancelled ht
  · rfl
  · exact h i t hi hne

theorem OthersCancelled.renewed {s : ConfigSyncJob} (h : OthersCancelled s) (c : RpiConfig)
    (t : Timer) : OthersCancelled (s.renewed c t) := by
  intro i u hu hne
  have hlt : i < s.cancelled.length := by
    have hle : i < (s.cancelled ++ [t]).length := (List.getElem?_eq_some_iff.mp hu).1
    have hi : s.cancelled.length ≠ i := fun hi => hne (congrArg some hi)
    rw [List.length_append, List.length_singleton] at hle
    omega
  change (s.cancelled ++ [t])[i]? = some u at hu
  rw [List.getElem?_append_left hlt] at hu
  exact h.cancelled u (List.mem_of_getElem? hu)

theorem cancelled_length (s : ConfigSyncJob) : s.cancelled.length = s.timers.length := by
  rw [ConfigSyncJob.cancelled]
  cases s.timer with
  | none => rfl
  | some j => exact List.length_modify _ _ _

def attempts : ConfigSyncJob → List Start → List RpiConfig
  | _, [] => []
  | s, x :: xs => (attempted x s).toList ++ attempts (start x s).2 xs

theorem attempts_concat (s : ConfigSyncJob) (xs : List Start) (x : Start) :
    attempts s (xs ++ [x]) =
      attempts s xs ++ (attempted x (xs.foldl (fun s x => (start x s).2) s)).toList := by
  induction xs generalizing s with
  | nil => simp [attempts]
  | cons y xs ih => simp [attempts, ih]

section destutter
variable {α : Type} [DecidableEq α]

theorem destutter'_concat (a b : α) (l : List α) : (l ++ [b]).destutter' (· ≠ ·) a =
    l.destutter' (· ≠ ·) a ++ if (a :: l).getLast? = some b then [] else [b] := by
  induction l generalizing a with
  | nil =>
    by_cases hab : a = b
    · simp [hab]
    · simp [hab]
  | cons c l ih =>
    rw [List.cons_append, List.destutter'_cons, List.destutter'_cons, List.getLast?_cons_cons]
    by_cases hac : a = c
    · rw [if_neg (not_not.mpr hac), if_neg (not_not.mpr hac), ih a, hac]
    · rw [if_pos hac, if_pos hac, ih c, List.cons_append]

theorem destutter_concat (l : List α) (b : α) : (l ++ [b]).destutter (· ≠ ·) =
    l.destutter (· ≠ ·) ++ if l.getLast? = some b then [] else [b] := by
  cases l with
  | nil => rfl
  | cons a l => exact destutter'_concat a b l

end destutter

theorem after_othersCancelled (xs : List Start) : OthersCancelled (after xs) := by
  induction xs using List.reverseRecOn with
  | nil =>
    intro i t ht
    simp [after, ConfigSyncJob.initial] at ht
  | append_singleton xs x ih =>
    have hran := ran_after xs x
    cases hgoes : attempted x (after xs) with
    | none => exact hran.idle hgoes ▸ ih
    | some c =>
      obtain ⟨t, ht⟩ := (hran.schedules hgoes).renewed
      rw [ht]
      exact ih.renewed c t

/-- A run makes a new timer, and schedules the task on it, exactly for a configuration that differs
from the one fetched last. -/
structure ReschedulesOnChange (xs : List Start) : Prop where
  attempted_iff : ∀ pre x, pre ++ [x] <+: xs → ∀ c,
    attempted x (after pre) = some c ↔ x.fetched = some c ∧ lastFetched pre ≠ some c
  created : ∀ pre x, pre ++ [x] <+: xs → (after (pre ++ [x])).timers.length =
    (after pre).timers.length + (attempted x (after pre)).toList.length
  scheduled : ∀ pre x, pre ++ [x] <+: xs → ∀ c, attempted x (after pre) = some c →
    Schedules x c (after pre) (synchronize x (after pre)).1 (after (pre ++ [x]))
  idle : ∀ pre x, pre ++ [x] <+: xs → attempted x (after pre) = none →
    after (pre ++ [x]) = after pre
  sequence : attempts .initial xs = (xs.filterMap Start.fetched).destutter (· ≠ ·)
  failed : ∀ pre x, pre ++ [x] <+: xs → x.fetched = none → after (pre ++ [x]) = after pre
  cancelled : ∀ pre x, pre ++ [x] <+: xs → attempted x (after pre) ≠ none →
    (beforeTimer x (after pre)).timers.length = (after pre).timers.length ∧
      ∀ t ∈ (beforeTimer x (after pre)).timers, t.cancelled = true

theorem attempted_after_iff {xs : List Start} {x : Start} {c : RpiConfig} :
    attempted x (after xs) = some c ↔ x.fetched = some c ∧ lastFetched xs ≠ some c := by
  rw [attempted_eq_some_iff, after_curRpiConfig]

theorem attempts_eq_destutter (xs : List Start) :
    attempts .initial xs = (xs.filterMap Start.fetched).destutter (· ≠ ·) := by
  induction xs using List.reverseRecOn with
  | nil => rfl
  | append_singleton xs x ih =>
    rw [attempts_concat, ih, List.filterMap_append]
    change _ ++ (attempted x (after xs)).toList = _
    cases hf : x.fetched with
    | none =>
      have hidle : attempted x (after xs) = none := by
        rw [Option.eq_none_iff_forall_ne_some]
        intro c hc
        rw [(attempted_after_iff.mp hc).1] at hf
        cases hf
      simp [hidle, hf]
    | some c =>
      have hone : [x].filterMap Start.fetched = [c] := by simp [hf]
      rw [hone, destutter_concat]
      change _ = _ ++ if lastFetched xs = some c then [] else [c]
      congr 1
      by_cases hlast : lastFetched xs = some c
      · rw [if_pos hlast]
        cases hgoes : attempted x (after xs) with
        | none => rfl
        | some d =>
          obtain ⟨hd, hne⟩ := attempted_after_iff.mp hgoes
          exact absurd (hlast.trans (hf.symm.trans hd)) hne
      · rw [if_neg hlast, attempted_after_iff.mpr ⟨hf, hlast⟩]
        rfl

theorem reschedules_on_change (xs : List Start) : ReschedulesOnChange xs where
  attempted_iff _ _ _ _ := attempted_after_iff
  created pre x _ := by
    have hran := ran_after pre x
    cases hgoes : attempted x (after pre) with
    | none =>
      rw [hran.idle hgoes]
      rfl
    | some c =>
      obtain ⟨t, ht⟩ := (hran.schedules hgoes).renewed
      rw [ht]
      change ((after pre).cancelled ++ [t]).length = _
      rw [List.length_append, cancelled_length]
      rfl
  scheduled pre x _ _ hgoes := (ran_after pre x).schedules hgoes
  idle pre x _ hidle := (ran_after pre x).idle hidle
  sequence := attempts_eq_destutter xs
  failed pre x _ hf := by
    refine (ran_after pre x).idle (Option.eq_none_iff_forall_ne_some.mpr fun c hc => ?_)
    rw [(attempted_after_iff.mp hc).1] at hf
    cases hf
  cancelled pre x _ hgoes := by
    obtain ⟨c, hc⟩ := Option.ne_none_iff_exists'.mp hgoes
    rw [beforeTimer_timers hc]
    exact ⟨cancelled_length _, (after_othersCancelled pre).cancelled⟩

end NetworkAnalyser.Client
