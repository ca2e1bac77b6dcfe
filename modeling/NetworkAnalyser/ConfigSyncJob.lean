import NetworkAnalyser.RpiService

/-! `ConfigSyncJob.start`, and what one run does. -/
namespace NetworkAnalyser.Client
open NetworkAnalyser.JavaExec NetworkAnalyser.JavaTimer

/-- The fields of the job, with the timers of the process. -/
structure ConfigSyncJob where
  curRpiConfig : Option RpiConfig
  timer : Option Nat
  timers : Timers
  deriving DecidableEq

def ConfigSyncJob.initial : ConfigSyncJob := ⟨none, none, []⟩

/-- What a run meets: how the fetch turns out, whether the sleep is interrupted, and the time at
which the task is scheduled. -/
structure Start where
  response : Except JavaException (Option RpiConfig)
  interrupted : Bool
  now : Int64

abbrev SyncJ := Java JavaException ConfigSyncJob

def ConfigSyncJob.unchanged (s : ConfigSyncJob) (rpiConfig : RpiConfig) : Bool :=
  match s.curRpiConfig with
  | none => false
  | some config => config.equals (some rpiConfig)

def ConfigSyncJob.cancelled (s : ConfigSyncJob) : Timers :=
  match s.timer with
  | none => s.timers
  | some t => s.timers.modify t Timer.cancel

def cancelTimer : SyncJ Unit := Java.modify fun s => { s with timers := s.cancelled }

/-- From the fetch to the sleep; nothing is returned where the method returns. -/
def saveAndCancel (rpiConfig : Option RpiConfig) : SyncJ (Option RpiConfig) :=
  match rpiConfig with
  -- the debug message calls `toString`
  | none => Java.throw .nullPointer
  | some rpiConfig => do
    let s ← Java.get
    if s.unchanged rpiConfig then
      return none
    else
      Java.modify fun s => { s with curRpiConfig := some rpiConfig }
      cancelTimer
      return some rpiConfig

def waitForCleanup (interrupted : Bool) : SyncJ Unit :=
  Java.tryCatch (Java.call (if interrupted then some .interrupted else none)) fun e =>
    if e = .interrupted then pure () else Java.throw e

def newTimer : SyncJ Unit := do
  Java.modify fun s => { s with timer := none }
  Java.modify fun s =>
    { s with timer := some s.timers.length, timers := s.timers ++ [.fresh] }

def scheduleAtFixedRate (now : Int64) (schedule : Schedule) : SyncJ Unit := do
  let s ← Java.get
  match s.timer with
  | none => Java.throw .nullPointer
  | some t =>
    match (s.timers.getD t .fresh).scheduleAtFixedRate now schedule with
    | .error r => Java.throw (.refused r)
    | .ok timer => Java.modify fun s => { s with timers := s.timers.set t timer }

def RpiConfig.schedule (c : RpiConfig) : Schedule :=
  ⟨c.captureTaskStartDelay, c.captureTaskRepeatInterval⟩

/-- From the sleep on. -/
def reschedule (now : Int64) (rpiConfig : RpiConfig) : SyncJ Unit := do
  newTimer
  scheduleAtFixedRate now rpiConfig.schedule

def synchronize (x : Start) : SyncJ Unit := do
  let rpiConfig ← getRpiConfigFromServer x.response
  match ← saveAndCancel rpiConfig with
  | none => return
  | some rpiConfig =>
    waitForCleanup x.interrupted
    reschedule x.now rpiConfig

def start (x : Start) : SyncJ Unit :=
  Java.tryCatch (synchronize x) fun _ => pure ()

def Start.fetched (x : Start) : Option RpiConfig :=
  match x.response with
  | .ok rpiConfig => rpiConfig
  | .error _ => none

def ConfigSyncJob.renewed (s : ConfigSyncJob) (c : RpiConfig) (t : Timer) : ConfigSyncJob where
  curRpiConfig := some c
  timer := some s.cancelled.length
  timers := s.cancelled ++ [t]

/-- The ways a run can go: how the `try` ends, and the state then. -/
inductive Ran (x : Start) (s : ConfigSyncJob) :
    Except JavaException Unit → ConfigSyncJob → Prop
  | failed {e : JavaException} (h : x.fetched = none) : Ran x s (.error e) s
  | same {c : RpiConfig} (h : x.fetched = some c) (hcur : s.curRpiConfig = some c) :
      Ran x s (.ok ()) s
  | scheduled {c : RpiConfig} (h : x.fetched = some c) (hcur : s.curRpiConfig ≠ some c)
      (haccepted : c.schedule.Accepted x.now) :
      Ran x s (.ok ()) (s.renewed c ⟨false, [c.schedule]⟩)
  | refused {c : RpiConfig} (h : x.fetched = some c) (hcur : s.curRpiConfig ≠ some c)
      (hrefused : ¬ c.schedule.Accepted x.now) :
      Ran x s (.error (.refused .illegalArgument)) (s.renewed c .fresh)

theorem unchanged_iff (s : ConfigSyncJob) (c : RpiConfig) :
    s.unchanged c = true ↔ s.curRpiConfig = some c := by
  rw [ConfigSyncJob.unchanged]
  cases s.curRpiConfig with
  | none => simp
  | some config =>
    change config.equals (some c) = true ↔ _
    rw [RpiConfig.equals_iff, Option.some_inj]

section blocks
variable {s : ConfigSyncJob} {c : RpiConfig}

theorem saveAndCancel_same (h : s.curRpiConfig = some c) :
    saveAndCancel (some c) s = (.ok none, s) := by
  rw [saveAndCancel, get_bind, if_pos ((unchanged_iff s c).mpr h)]
  rfl

theorem saveAndCancel_changed (h : s.curRpiConfig ≠ some c) :
    saveAndCancel (some c) s =
      (.ok (some c), { s with curRpiConfig := some c, timers := s.cancelled }) := by
  rw [saveAndCancel, get_bind, if_neg (mt (unchanged_iff s c).mp h)]
  rfl

@[simp] theorem waitForCleanup_apply (interrupted : Bool) :
    waitForCleanup interrupted s = (.ok (), s) := by
  cases interrupted with
  | false => rfl
  | true => rfl

variable {now : Int64}

theorem newTimer_apply :
    newTimer s =
      (.ok (), { s with timer := some s.timers.length, timers := s.timers ++ [.fresh] }) := rfl

theorem reschedule_accepted (h : c.schedule.Accepted now) :
    reschedule now c s = (.ok (), { s with
      timer := some s.timers.length
      timers := s.timers ++ [⟨false, [c.schedule]⟩] }) := by
  have hheld : (s.timers ++ [Timer.fresh]).getD s.timers.length .fresh = .fresh := by simp
  rw [reschedule, bind_ok newTimer_apply, scheduleAtFixedRate, get_bind]
  simp only [hheld, schedule_fresh h]
  simp

theorem reschedule_refused (h : ¬ c.schedule.Accepted now) :
    reschedule now c s = (.error (.refused .illegalArgument), { s with
      timer := some s.timers.length
      timers := s.timers ++ [.fresh] }) := by
  rw [reschedule, bind_ok newTimer_apply, scheduleAtFixedRate, get_bind]
  simp only [schedule_refused h]
  rfl

variable (interrupted : Bool)

theorem synchronize_same (h : s.curRpiConfig = some c) :
    synchronize ⟨.ok (some c), interrupted, now⟩ s = (.ok (), s) :=
  bind_ok (saveAndCancel_same h) _

theorem synchronize_changed (h : s.curRpiConfig ≠ some c) :
    synchronize ⟨.ok (some c), interrupted, now⟩ s =
      reschedule now c { s with curRpiConfig := some c, timers := s.cancelled } :=
  (bind_ok (saveAndCancel_changed h) _).trans (bind_ok (waitForCleanup_apply interrupted) _)

end blocks

theorem ran (x : Start) (s : ConfigSyncJob) : Ran x s (synchronize x s).1 (synchronize x s).2 := by
  obtain ⟨response, interrupted, now⟩ := x
  cases response with
  | error e => exact .failed rfl
  | ok rpiConfig =>
    cases rpiConfig with
    | none => exact .failed rfl
    | some c =>
      by_cases hcur : s.curRpiConfig = some c
      · rw [synchronize_same interrupted hcur]
        exact .same rfl hcur
      · rw [synchronize_changed interrupted hcur]
        by_cases haccepted : c.schedule.Accepted now
        · rw [reschedule_accepted haccepted]
          exact .scheduled rfl hcur haccepted
        · rw [reschedule_refused haccepted]
          exact .refused rfl hcur haccepted

theorem start_apply (x : Start) (s : ConfigSyncJob) :
    start x s = (.ok (), (synchronize x s).2) := by
  cases h : synchronize x s with
  | mk r t =>
    cases r with
    | ok _ => exact tryCatch_ok h _
    | error e => exact tryCatch_error h _

end NetworkAnalyser.Client
