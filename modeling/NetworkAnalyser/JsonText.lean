import Mathlib.Data.List.Nodup
import Mathlib.Data.List.Perm.Subperm
import Mathlib.Algebra.Order.BigOperators.Group.List
import Mathlib.Algebra.Order.Group.Nat
import NetworkAnalyser.JsonParser
import NetworkAnalyser.JsonSize

/-! Texts without blanks and escapes, and the members of a value by their names. -/
namespace NetworkAnalyser.Json
open NetworkAnalyser.Utf8

def quotedText (cs : List Char) : List Char := '"' :: (cs ++ ['"'])

def arrayText (ts : List (List Char)) : List Char := '[' :: ([','].intercalate ts ++ [']'])

def pairText (m : List Char × List Char) : List Char := quotedText m.1 ++ ':' :: m.2

def objectText (ms : List (List Char × List Char)) : List Char :=
  '\x7b' :: ([','].intercalate (ms.map pairText) ++ ['\x7d'])

@[simp] theorem ofChars_cons (c : Char) (cs : List Char) :
    JString.ofChars (c :: cs) = utf16 c ++ JString.ofChars cs := rfl

theorem stringText_unescaped {cs : List Char} (h : ∀ c ∈ cs, Unescaped c) :
    StringText (.ofChars cs) (cs ++ ['"']) := by
  induction cs with
  | nil => exact .close
  | cons c cs ih =>
    exact .char (h c List.mem_cons_self) (ih fun d hd => h d (List.mem_cons_of_mem _ hd))

theorem derives_quoted {cs : List Char} (h : ∀ c ∈ cs, Unescaped c) :
    Derives (.value (.str (.ofChars cs))) (quotedText cs) :=
  .str (stringText_unescaped h)

theorem derives_elements {α : Type} {f : α → Value} {g : α → List Char} {x : α} {xs : List α}
    (h : ∀ y ∈ x :: xs, Derives (.value (f y)) (g y)) :
    Derives (.elements ((x :: xs).map f)) ([','].intercalate ((x :: xs).map g) ++ [']']) := by
  induction xs generalizing x with
  | nil =>
    simpa using Derives.elements (h x List.mem_cons_self) .elementsEnd
  | cons y xs ih =>
    have hrest := ih (x := y) fun z hz => h z (List.mem_cons_of_mem _ hz)
    have hall := Derives.elements (h x List.mem_cons_self) (.elementsMore hrest)
    simpa [List.intercalate_cons_cons] using hall

theorem derives_array {α : Type} {f : α → Value} {g : α → List Char} {xs : List α}
    (h : ∀ x ∈ xs, Derives (.value (f x)) (g x)) :
    Derives (.value (.arr (xs.map f))) (arrayText (xs.map g)) := by
  cases xs with
  | nil => exact .arrEmpty (w := []) (by simp)
  | cons x xs => exact .arr (derives_elements h)

theorem derives_member {k t t' : List Char} {v : Value} {ms : List (JString × Value)}
    (hk : ∀ c ∈ k, Unescaped c) (hv : Derives (.value v) t) (hms : Derives (.membersTail ms) t') :
    Derives (.members ((.ofChars k, v) :: ms)) (pairText (k, t) ++ t') := by
  have h := Derives.members (stringText_unescaped hk) (w := []) (by simp) hv hms
  simpa [pairText, quotedText] using h

theorem derives_members {α : Type} {k : α → List Char} {f : α → Value} {g : α → List Char} {x : α}
    {xs : List α}
    (h : ∀ y ∈ x :: xs, (∀ c ∈ k y, Unescaped c) ∧ Derives (.value (f y)) (g y)) :
    Derives (.members ((x :: xs).map fun y => (JString.ofChars (k y), f y)))
      ([','].intercalate ((x :: xs).map fun y => pairText (k y, g y)) ++ ['\x7d']) := by
  induction xs generalizing x with
  | nil =>
    obtain ⟨hk, hv⟩ := h x List.mem_cons_self
    simpa using derives_member hk hv .membersEnd
  | cons y xs ih =>
    obtain ⟨hk, hv⟩ := h x List.mem_cons_self
    have hrest := ih (x := y) fun z hz => h z (List.mem_cons_of_mem _ hz)
    have hall := derives_member hk hv (.membersMore hrest)
    simpa [List.intercalate_cons_cons] using hall

theorem derives_object {α : Type} {k : α → List Char} {f : α → Value} {g : α → List Char}
    {xs : List α} (h : ∀ x ∈ xs, (∀ c ∈ k x, Unescaped c) ∧ Derives (.value (f x)) (g x)) :
    Derives (.value (.obj (xs.map fun x => (JString.ofChars (k x), f x))))
      (objectText (xs.map fun x => (k x, g x))) := by
  cases xs with
  | nil => exact .objEmpty (w := []) (by simp)
  | cons x xs =>
    have hms := derives_members h
    rw [objectText, List.map_map]
    exact .obj hms

theorem derives_object_singleton {k t : List Char} {v : Value} (hk : ∀ c ∈ k, Unescaped c)
    (hv : Derives (.value v) t) :
    Derives (.value (.obj [(JString.ofChars k, v)])) (objectText [(k, t)]) := by
  have hms := derives_member hk hv .membersEnd
  rw [objectText, List.map_singleton, List.intercalate_singleton]
  exact .obj hms

/-- The member of an object; of several with the name the last one counts. -/
def Value.member (k : JString) : Value → Option Value
  | .obj ms => (ms.reverse.find? fun m => m.1 = k).map Prod.snd
  | _ => none

def Value.text : Value → Option JString
  | .str s => some s
  | _ => none

def Value.elements : Value → Option (List Value)
  | .arr vs => some vs
  | _ => none

theorem member_mem {k : JString} {v x : Value} (h : v.member k = some x) :
    ∃ ms, v = .obj ms ∧ (k, x) ∈ ms := by
  cases v with
  | obj ms =>
    obtain ⟨⟨k', y⟩, hfind, rfl⟩ := Option.map_eq_some_iff.mp h
    have hkey : k' = k := by simpa using List.find?_some hfind
    subst hkey
    exact ⟨ms, rfl, List.mem_reverse.mp (List.mem_of_find?_eq_some hfind)⟩
  | null => cases h
  | bool b => cases h
  | num t => cases h
  | str s => cases h
  | arr vs => cases h

theorem member_of_mem {ms : List (JString × Value)} (hnodup : (ms.map Prod.fst).Nodup)
    {m : JString × Value} (hm : m ∈ ms) : (Value.obj ms).member m.1 = some m.2 := by
  have hsome : (ms.reverse.find? fun m' => m'.1 = m.1).isSome :=
    List.find?_isSome.mpr ⟨m, List.mem_reverse.mpr hm, by simp⟩
  obtain ⟨m', hfind⟩ := Option.isSome_iff_exists.mp hsome
  have hkey : m'.1 = m.1 := by simpa using List.find?_some hfind
  have hmem : m' ∈ ms := List.mem_reverse.mp (List.mem_of_find?_eq_some hfind)
  have heq : m' = m := List.inj_on_of_nodup_map hnodup hmem hm hkey
  rw [Value.member, hfind, heq]
  rfl

theorem member_singleton (k : JString) (v : Value) : (Value.obj [(k, v)]).member k = some v := by
  simp [Value.member]

theorem membersPlain_iff (ms : List (JString × Value)) :
    MembersPlain ms ↔ ∀ m ∈ ms, m.1.Plain ∧ m.2.Plain := by
  induction ms with
  | nil => simp [MembersPlain]
  | cons m ms ih => simp [MembersPlain, ih, and_assoc]

theorem membersSize_eq (ms : List (JString × Value)) :
    membersSize ms = (ms.map fun m => m.1.size + 3 + m.2.size + 1).sum := by
  induction ms with
  | nil => rfl
  | cons m ms ih => rw [membersSize, ih, List.map_cons, List.sum_cons]

theorem size_obj_le {l ms : List (JString × Value)} (hne : l ≠ []) (hnodup : (l.map Prod.fst).Nodup)
    (hsub : l ⊆ ms) : (Value.obj l).size ≤ (Value.obj ms).size := by
  have hperm := List.subperm_of_subset (List.Nodup.of_map Prod.fst hnodup) hsub
  have hsum : membersSize l ≤ membersSize ms := by
    rw [membersSize_eq, membersSize_eq]
    obtain ⟨l', hl', hsl⟩ := hperm
    rw [← (hl'.map _).sum_eq]
    exact (hsl.map _).sum_le_sum fun n _ => Nat.zero_le n
  cases l with
  | nil => exact absurd rfl hne
  | cons m l =>
    cases ms with
    | nil => exact absurd (hsub List.mem_cons_self) List.not_mem_nil
    | cons m' ms => exact Nat.add_le_add_left hsum 1

theorem size_singleton (k : JString) (v : Value) :
    (Value.obj [(k, v)]).size = k.size + v.size + 5 := by
  rw [Value.size, membersSize, membersSize]
  omega

theorem size_singleton_le {m : JString × Value} {ms : List (JString × Value)} (h : m ∈ ms) :
    (Value.obj [m]).size ≤ (Value.obj ms).size :=
  size_obj_le (List.cons_ne_nil _ _) (by simp) (by simpa using h)

end NetworkAnalyser.Json
