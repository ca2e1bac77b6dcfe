import Mathlib.Data.List.Induction

/-! Runs of sequential code over an explicit state. A run ends with a value, stops at an
access outside an array, or is still inside a loop when its iterations are used up. -/
namespace NetworkAnalyser.Exec
variable {σ α β γ ι : Type}

inductive Outcome (α : Type) where
  | done (a : α)
  | undefined
  | running
  deriving DecidableEq, Repr

/-- The state reached is kept in every outcome, also where the run does not return. -/
def Code (σ α : Type) := σ → Outcome α × σ

def Code.bind (m : Code σ α) (f : α → Code σ β) : Code σ β := fun s =>
  match m s with
  | (.done a, t) => f a t
  | (.undefined, t) => (.undefined, t)
  | (.running, t) => (.running, t)

instance : Monad (Code σ) where
  pure a := fun s => (.done a, s)
  bind := Code.bind

def Code.get : Code σ σ := fun s => (.done s, s)
def Code.modify (f : σ → σ) : Code σ Unit := fun s => (.done (), f s)
def Code.outOfBounds : Code σ α := fun s => (.undefined, s)

@[simp] theorem pure_apply (a : α) (s : σ) : (pure a : Code σ α) s = (.done a, s) := rfl
@[simp] theorem get_apply (s : σ) : (Code.get : Code σ σ) s = (.done s, s) := rfl
@[simp] theorem modify_apply (f : σ → σ) (s : σ) : Code.modify f s = (.done (), f s) := rfl

theorem bind_apply (m : Code σ α) (f : α → Code σ β) (s : σ) :
    (m >>= f) s = match m s with
      | (.done a, t) => f a t
      | (.undefined, t) => (.undefined, t)
      | (.running, t) => (.running, t) := rfl

theorem bind_done {m : Code σ α} {f : α → Code σ β} {s t : σ} {a : α}
    (h : m s = (.done a, t)) : (m >>= f) s = f a t := by
  rw [bind_apply, h]

theorem bind_undefined {m : Code σ α} {f : α → Code σ β} {s t : σ}
    (h : m s = (.undefined, t)) : (m >>= f) s = (.undefined, t) := by
  rw [bind_apply, h]

theorem bind_eq_done {m : Code σ α} {f : α → Code σ β} {s t : σ} {b : β}
    (h : (m >>= f) s = (.done b, t)) :
    ∃ a u, m s = (.done a, u) ∧ f a u = (.done b, t) := by
  rw [bind_apply] at h
  cases hm : m s with
  | mk o u =>
    rw [hm] at h
    cases o with
    | done a => exact ⟨a, u, rfl, h⟩
    | undefined => simp at h
    | running => simp at h

/-- A `while` loop of at most `fuel` iterations: the body answers `.inl` to go round again
and `.inr` to leave. -/
def Code.loop (body : β → Code σ (β ⊕ α)) : Nat → β → Code σ α
  | 0, _ => fun s => (.running, s)
  | fuel + 1, b => do
    match ← body b with
    | .inl b' => Code.loop body fuel b'
    | .inr a => pure a

theorem loop_zero (body : β → Code σ (β ⊕ α)) (b : β) (s : σ) :
    Code.loop body 0 b s = (.running, s) := rfl

theorem loop_again {body : β → Code σ (β ⊕ α)} {fuel : Nat} {b b' : β} {s t : σ}
    (h : body b s = (.done (.inl b'), t)) :
    Code.loop body (fuel + 1) b s = Code.loop body fuel b' t := by
  rw [Code.loop, bind_done h]

theorem loop_leave {body : β → Code σ (β ⊕ α)} {fuel : Nat} {b : β} {a : α} {s t : σ}
    (h : body b s = (.done (.inr a), t)) :
    Code.loop body (fuel + 1) b s = (.done a, t) := by
  rw [Code.loop, bind_done h]
  rfl

theorem loop_mono {body : β → Code σ (β ⊕ α)} {fuel : Nat} {b : β} {a : α} {s t : σ}
    (more : Nat) (h : Code.loop body fuel b s = (.done a, t)) :
    Code.loop body (fuel + more) b s = (.done a, t) := by
  induction fuel generalizing b s with
  | zero => simp [loop_zero] at h
  | succ fuel ih =>
    rw [Code.loop] at h
    obtain ⟨r, u, hr, hrest⟩ := bind_eq_done h
    rw [Nat.succ_add_eq_add_succ, Nat.add_succ]
    cases r with
    | inl b' => rw [loop_again hr]; exact ih hrest
    | inr a' => rw [loop_leave hr]; exact hrest

theorem loop_unique {body : β → Code σ (β ⊕ α)} {m n : Nat} {b : β} {a a' : α} {s t t' : σ}
    (hm : Code.loop body m b s = (.done a, t)) (hn : Code.loop body n b s = (.done a', t')) :
    a = a' ∧ t = t' := by
  have h : (Outcome.done a, t) = (Outcome.done a', t') := by
    rw [← loop_mono n hm, Nat.add_comm, loop_mono m hn]
  simpa using h

/-- A loop whose body always goes round again from the states of `I` never leaves. -/
theorem loop_diverges {body : β → Code σ (β ⊕ α)} (I : β → σ → Prop)
    (hstep : ∀ b s, I b s → ∃ b' t, body b s = (.done (.inl b'), t) ∧ I b' t)
    {b : β} {s : σ} (h : I b s) (fuel : Nat) :
    ∃ t, Code.loop body fuel b s = (.running, t) := by
  induction fuel generalizing b s with
  | zero => exact ⟨s, loop_zero body b s⟩
  | succ fuel ih =>
    obtain ⟨b', t, hb, ht⟩ := hstep b s h
    obtain ⟨u, hu⟩ := ih ht
    exact ⟨u, by rw [loop_again hb, hu]⟩

theorem loop_congr {body : β → Code σ (β ⊕ α)} {b b' : β} {s : σ} (h : body b s = body b' s)
    (fuel : Nat) : Code.loop body fuel b s = Code.loop body fuel b' s := by
  cases fuel with
  | zero => rfl
  | succ fuel =>
    change (body b >>= _) s = (body b' >>= _) s
    rw [bind_apply, bind_apply, h]

/-- The loop comes from one value and state to another by passes that all go round again. -/
inductive Visits (body : β → Code σ (β ⊕ α)) : β → σ → β → σ → Prop
  | here (b : β) (s : σ) : Visits body b s b s
  | again {b b' c : β} {s s' t : σ} (hbody : body b s = (.done (.inl b'), s'))
      (h : Visits body b' s' c t) : Visits body b s c t

theorem Visits.loop {body : β → Code σ (β ⊕ α)} {b c : β} {s t : σ} (h : Visits body b s c t) :
    ∃ n, ∀ fuel, Code.loop body (fuel + n) b s = Code.loop body fuel c t := by
  induction h with
  | here b s => exact ⟨0, fun _ => rfl⟩
  | again hbody _ ih =>
    obtain ⟨n, hn⟩ := ih
    exact ⟨n + 1, fun fuel => (loop_again hbody).trans (hn fuel)⟩

theorem Visits.diverges {body : β → Code σ (β ⊕ α)} {b c : β} {s t : σ}
    (h : Visits body b s c t) (hrun : ∀ fuel, ∃ u, Code.loop body fuel c t = (.running, u))
    {fuel : Nat} {a : α} {u : σ} : Code.loop body fuel b s ≠ (.done a, u) := by
  intro hdone
  obtain ⟨n, hn⟩ := h.loop
  obtain ⟨v, hv⟩ := hrun fuel
  have hmore := loop_mono n hdone
  rw [hn, hv] at hmore
  cases hmore

theorem Visits.congr {body : β → Code σ (β ⊕ α)} {b b' c : β} {s t : σ}
    (hbody : body b s = body b' s) (h : Visits body b' s c t) :
    (c = b' ∧ t = s) ∨ Visits body b s c t := by
  cases h with
  | here => exact Or.inl ⟨rfl, rfl⟩
  | again hagain h => exact Or.inr (.again (hbody.trans hagain) h)

/-- The run does not leave an array, and the state it reaches, also where it does not return,
is related to the state before. -/
def Code.Safe (R : σ → σ → Prop) (m : Code σ α) : Prop :=
  ∀ s, (m s).1 ≠ .undefined ∧ R s (m s).2

section
variable {R : σ → σ → Prop} (hrefl : ∀ s, R s s)
  (htrans : ∀ s t u, R s t → R t u → R s u)

include hrefl in
theorem safe_pure (a : α) : (pure a : Code σ α).Safe R := fun s => ⟨by simp, hrefl s⟩

include htrans in
theorem Code.Safe.bind {m : Code σ α} {f : α → Code σ β} (hm : m.Safe R)
    (hf : ∀ a, (f a).Safe R) : (m >>= f).Safe R := by
  intro s
  have h := hm s
  rw [bind_apply]
  cases hms : m s with
  | mk o t =>
    rw [hms] at h
    cases o with
    | done a => exact ⟨(hf a t).1, htrans _ _ _ h.2 (hf a t).2⟩
    | undefined => exact absurd rfl h.1
    | running => exact ⟨by simp, h.2⟩

include hrefl htrans in
theorem Code.Safe.loop {body : β → Code σ (β ⊕ α)} (hbody : ∀ b, (body b).Safe R)
    (fuel : Nat) (b : β) : (Code.loop body fuel b).Safe R := by
  induction fuel generalizing b with
  | zero => exact fun s => ⟨by simp [loop_zero], hrefl s⟩
  | succ fuel ih =>
    refine (hbody b).bind htrans fun r => ?_
    cases r with
    | inl b' => exact ih b'
    | inr a => exact safe_pure hrefl a

end

/-- Feed the inputs one after the other; an input whose step does not return ends the run. -/
def runOver (step : σ → ι → Option σ) : σ → List ι → Option σ
  | s, [] => some s
  | s, d :: ds => (step s d).bind fun t => runOver step t ds

@[simp] theorem runOver_nil (step : σ → ι → Option σ) (s : σ) : runOver step s [] = some s := rfl

theorem runOver_cons {step : σ → ι → Option σ} {s t : σ} {d : ι} (h : step s d = some t)
    (ds : List ι) : runOver step s (d :: ds) = runOver step t ds := by
  rw [runOver, h, Option.bind_some]

theorem runOver_append (step : σ → ι → Option σ) (s : σ) (ds es : List ι) :
    runOver step s (ds ++ es) = (runOver step s ds).bind fun t => runOver step t es := by
  induction ds generalizing s with
  | nil => rfl
  | cons d ds ih =>
    cases h : step s d with
    | none => simp [runOver, h]
    | some t => simp [runOver, h, ih]

theorem runOver_snoc {step : σ → ι → Option σ} {s u : σ} {ds : List ι} {d : ι}
    (h : runOver step s (ds ++ [d]) = some u) :
    ∃ t, runOver step s ds = some t ∧ step t d = some u := by
  rw [runOver_append] at h
  obtain ⟨t, ht, hu⟩ := Option.bind_eq_some_iff.mp h
  exact ⟨t, ht, by simpa [runOver] using hu⟩

/-- What holds at the start and is kept by every step, with the inputs seen so far at hand,
holds after every run. -/
theorem runOver_history {step : σ → ι → Option σ} {s t : σ} {ds : List ι}
    (I : List ι → σ → Prop) (hinit : I [] s)
    (hstep : ∀ seen d u v, seen ++ [d] <+: ds → runOver step s seen = some u → I seen u →
      step u d = some v → I (seen ++ [d]) v)
    (h : runOver step s ds = some t) : I ds t := by
  induction ds using List.reverseRecOn generalizing t with
  | nil => simpa using (Option.some.inj h) ▸ hinit
  | append_singleton ds d ih =>
    obtain ⟨u, hu, hd⟩ := runOver_snoc h
    have hseen := ih (fun seen e u v hp => hstep seen e u v (hp.trans (List.prefix_append ds [d])))
      hu
    exact hstep ds d u t (List.prefix_refl _) hu hseen hd

/-- If every step that is reached returns, so does the run. -/
theorem runOver_total {step : σ → ι → Option σ} {s : σ} {ds : List ι}
    (h : ∀ seen d u, seen ++ [d] <+: ds → runOver step s seen = some u →
      ∃ v, step u d = some v) : ∃ t, runOver step s ds = some t := by
  induction ds using List.reverseRecOn with
  | nil => exact ⟨s, rfl⟩
  | append_singleton ds d ih =>
    obtain ⟨u, hu⟩ := ih fun seen e u hp => h seen e u (hp.trans (List.prefix_append ds [d]))
    obtain ⟨v, hv⟩ := h ds d u (List.prefix_refl _) hu
    exact ⟨v, by rw [runOver_append, hu]; simpa [runOver] using hv⟩

theorem runOver_prefix {step : σ → ι → Option σ} {s t : σ} {ds seen : List ι}
    (hp : seen <+: ds) (h : runOver step s ds = some t) : ∃ u, runOver step s seen = some u := by
  obtain ⟨rest, rfl⟩ := hp
  rw [runOver_append] at h
  obtain ⟨u, hu, _⟩ := Option.bind_eq_some_iff.mp h
  exact ⟨u, hu⟩

end NetworkAnalyser.Exec
