import Mathlib.Init

/-! Programs with a state and exceptions. -/
namespace NetworkAnalyser.JavaExec

/-- What is stored before an exception is thrown stays. -/
def Java (ε σ α : Type) : Type := σ → Except ε α × σ

variable {ε σ α β : Type}

namespace Java

instance : Monad (Java ε σ) where
  pure a := fun s => (.ok a, s)
  bind m f := fun s =>
    match m s with
    | (.ok a, t) => f a t
    | (.error e, t) => (.error e, t)

def get : Java ε σ σ := fun s => (.ok s, s)
def modify (f : σ → σ) : Java ε σ Unit := fun s => (.ok (), f s)
def throw (e : ε) : Java ε σ α := fun s => (.error e, s)

def tryCatch (m : Java ε σ α) (handler : ε → Java ε σ α) : Java ε σ α := fun s =>
  match m s with
  | (.ok a, t) => (.ok a, t)
  | (.error e, t) => handler e t

def call : Option ε → Java ε σ Unit
  | none => pure ()
  | some e => throw e

def ofExcept : Except ε α → Java ε σ α
  | .ok a => pure a
  | .error e => throw e

end Java

section
variable {s t : σ} {a : α} {e : ε}

@[simp] theorem pure_apply : (pure a : Java ε σ α) s = (.ok a, s) := rfl
@[simp] theorem get_apply : (Java.get : Java ε σ σ) s = (.ok s, s) := rfl
@[simp] theorem modify_apply (f : σ → σ) : (Java.modify f : Java ε σ Unit) s = (.ok (), f s) := rfl

@[simp] theorem get_bind (f : σ → Java ε σ β) : (Java.get >>= f) s = f s s := rfl
@[simp] theorem modify_bind (g : σ → σ) (f : Unit → Java ε σ β) :
    (Java.modify g >>= f) s = f () (g s) := rfl
@[simp] theorem call_none_bind (f : Unit → Java ε σ β) : (Java.call none >>= f) s = f () s := rfl
@[simp] theorem ofExcept_ok_bind (f : α → Java ε σ β) :
    (Java.ofExcept (.ok a) >>= f) s = f a s := rfl

theorem bind_ok {m : Java ε σ α} (h : m s = (.ok a, t)) (f : α → Java ε σ β) :
    (m >>= f) s = f a t := by
  change (match m s with | (.ok a, t) => f a t | (.error e, t) => (.error e, t)) = _
  rw [h]

theorem bind_error {m : Java ε σ α} (h : m s = (.error e, t)) (f : α → Java ε σ β) :
    (m >>= f) s = (.error e, t) := by
  change (match m s with | (.ok a, t) => f a t | (.error e, t) => (.error e, t)) = _
  rw [h]

theorem tryCatch_ok {m : Java ε σ α} (h : m s = (.ok a, t)) (handler : ε → Java ε σ α) :
    Java.tryCatch m handler s = (.ok a, t) := by
  rw [Java.tryCatch, h]

theorem tryCatch_error {m : Java ε σ α} (h : m s = (.error e, t)) (handler : ε → Java ε σ α) :
    Java.tryCatch m handler s = handler e t := by
  rw [Java.tryCatch, h]

end
end NetworkAnalyser.JavaExec
