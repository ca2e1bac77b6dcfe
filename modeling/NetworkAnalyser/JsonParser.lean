import Mathlib.Data.List.TakeWhile
import NetworkAnalyser.JsonGrammar

/-! A JSON parser, sound and complete for the grammar. -/
namespace NetworkAnalyser.Json

def skipWs (s : List Char) : List Char := s.dropWhile isWs

def parseString : List Char → Option (JString × List Char)
  | [] => none
  | '"' :: s => some ([], s)
  | '\\' :: 'u' :: a :: b :: c :: d :: s => do
    let u ← hexUnit a b c d
    let (us, r) ← parseString s
    return (u :: us, r)
  | '\\' :: c :: s => do
    let u ← escapeUnit c
    let (us, r) ← parseString s
    return (u :: us, r)
  | c :: s =>
    if Unescaped c then do
      let (us, r) ← parseString s
      return (utf16 c ++ us, r)
    else none

def parseNumber (s : List Char) : Option (Value × List Char) :=
  let t := s.takeWhile isNumberChar
  if t ≠ [] ∧ validNumber t then some (.num t, s.dropWhile isNumberChar) else none

mutual

def parseValue : Nat → List Char → Option (Value × List Char)
  | 0, _ => none
  | n + 1, s =>
    match skipWs s with
    | 'n' :: 'u' :: 'l' :: 'l' :: r => some (.null, r)
    | 't' :: 'r' :: 'u' :: 'e' :: r => some (.bool true, r)
    | 'f' :: 'a' :: 'l' :: 's' :: 'e' :: r => some (.bool false, r)
    | '"' :: s => (parseString s).map (Prod.map .str id)
    | '[' :: s =>
      match skipWs s with
      | ']' :: r => some (.arr [], r)
      | _ => (parseElements n s).map (Prod.map .arr id)
    | '\x7b' :: s =>
      match skipWs s with
      | '\x7d' :: r => some (.obj [], r)
      | _ => (parseMembers n s).map (Prod.map .obj id)
    | s => parseNumber s

def parseElements : Nat → List Char → Option (List Value × List Char)
  | 0, _ => none
  | n + 1, s => do
    let (v, s) ← parseValue n s
    let (vs, r) ← parseElementsTail n s
    return (v :: vs, r)

def parseElementsTail : Nat → List Char → Option (List Value × List Char)
  | 0, _ => none
  | n + 1, s =>
    match skipWs s with
    | ']' :: r => some ([], r)
    | ',' :: s => parseElements n s
    | _ => none

def parseMembers : Nat → List Char → Option (List (JString × Value) × List Char)
  | 0, _ => none
  | n + 1, s =>
    match skipWs s with
    | '"' :: s => do
      let (k, s) ← parseString s
      match skipWs s with
      | ':' :: s => do
        let (v, s) ← parseValue n s
        let (ms, r) ← parseMembersTail n s
        return ((k, v) :: ms, r)
      | _ => none
    | _ => none

def parseMembersTail : Nat → List Char → Option (List (JString × Value) × List Char)
  | 0, _ => none
  | n + 1, s =>
    match skipWs s with
    | '\x7d' :: r => some ([], r)
    | ',' :: s => parseMembers n s
    | _ => none

end

/-- The first value of a text, and what follows it. Every nested call has a shorter text to
read, so the length of the text is fuel enough. -/
def readValue (s : List Char) : Option (Value × List Char) := parseValue s.length s

def parseDocument (s : List Char) : Option Value :=
  match readValue s with
  | some (v, r) => if skipWs r = [] then some v else none
  | none => none

theorem parseString_sound {s : List Char} {us : JString} {r : List Char}
    (h : parseString s = some (us, r)) : ∃ t, s = t ++ r ∧ StringText us t := by
  fun_induction parseString s generalizing us r with
  | case1 => cases h
  | case2 s =>
    cases h
    exact ⟨['"'], rfl, .close⟩
  | case3 a b c d s ih =>
    obtain ⟨u, hu, h⟩ := Option.bind_eq_some_iff.mp h
    obtain ⟨⟨us', r'⟩, hrec, h⟩ := Option.bind_eq_some_iff.mp h
    cases h
    obtain ⟨t, rfl, ht⟩ := ih hrec
    exact ⟨_, rfl, .unicode hu ht⟩
  | case4 c s hshape ih =>
    obtain ⟨u, hu, h⟩ := Option.bind_eq_some_iff.mp h
    obtain ⟨⟨us', r'⟩, hrec, h⟩ := Option.bind_eq_some_iff.mp h
    cases h
    obtain ⟨t, rfl, ht⟩ := ih hrec
    exact ⟨_, rfl, .escape hu ht⟩
  | case5 c s hquote hshape hslash hc ih =>
    obtain ⟨⟨us', r'⟩, hrec, h⟩ := Option.bind_eq_some_iff.mp h
    cases h
    obtain ⟨t, rfl, ht⟩ := ih hrec
    exact ⟨_, rfl, .char hc ht⟩
  | case6 c s hquote hshape hslash hc => cases h

theorem parseString_complete {us : JString} {t : List Char} (h : StringText us t)
    (r : List Char) : parseString (t ++ r) = some (us, r) := by
  induction h with
  | close => rfl
  | @char c s t h hs ih =>
    obtain ⟨hprint, hquote, hslash⟩ := id h
    simp [parseString, h, ih, hslash]
  | @escape c u s t h hs ih =>
    have hu : c ≠ 'u' := by
      rintro rfl
      exact absurd h (by simp [escapeUnit])
    simp [parseString, h, ih, hu]
  | @unicode a b c d u s t h hs ih => simp [parseString, h, ih]

@[simp] theorem skipWs_ws {c : Char} (h : isWs c) (s : List Char) :
    skipWs (c :: s) = skipWs s := by
  simp [skipWs, h]

theorem skipWs_all {w : List Char} (h : ∀ c ∈ w, isWs c) (s : List Char) :
    skipWs (w ++ s) = skipWs s := by
  induction w with
  | nil => rfl
  | cons c w ih =>
    rw [List.cons_append, skipWs_ws (h c List.mem_cons_self),
      ih fun c hc => h c (List.mem_cons_of_mem _ hc)]

theorem skipWs_spec (s : List Char) : ∃ w, (∀ c ∈ w, isWs c) ∧ s = w ++ skipWs s :=
  ⟨s.takeWhile isWs, fun _ hc => List.mem_takeWhile_imp hc, List.takeWhile_append_dropWhile.symm⟩

theorem Derives.blanks {i : Item} {t : List Char} (h : Derives i t) {w : List Char}
    (hw : ∀ c ∈ w, isWs c) : Derives i (w ++ t) := by
  induction w with
  | nil => exact h
  | cons c w ih =>
    exact .ws (hw c List.mem_cons_self) (ih fun c hc => hw c (List.mem_cons_of_mem _ hc))

def Delimited (s : List Char) : Prop := ∀ c ∈ s.head?, isNumberChar c = false

theorem parseNumber_sound {s : List Char} {v : Value} {r : List Char}
    (h : parseNumber s = some (v, r)) : ∃ t, s = t ++ r ∧ Derives (.value v) t := by
  simp only [parseNumber] at h
  split at h
  · rename_i hnum
    cases h
    exact ⟨_, List.takeWhile_append_dropWhile.symm, .num hnum.1
      (fun _ hc => List.mem_takeWhile_imp hc) hnum.2⟩
  · cases h

theorem parseNumber_complete {t r : List Char} (hne : t ≠ []) (hchars : ∀ c ∈ t, isNumberChar c)
    (hvalid : validNumber t) (hr : Delimited r) : parseNumber (t ++ r) = some (.num t, r) := by
  have hrest : r.takeWhile isNumberChar = [] ∧ r.dropWhile isNumberChar = r := by
    cases r with
    | nil => exact ⟨rfl, rfl⟩
    | cons c r => simp [hr c rfl]
  have htake : (t ++ r).takeWhile isNumberChar = t := by
    rw [List.takeWhile_append_of_pos hchars, hrest.1, List.append_nil]
  have hdrop : (t ++ r).dropWhile isNumberChar = r := by
    rw [List.dropWhile_append_of_pos hchars, hrest.2]
  rw [parseNumber, htake, hdrop, if_pos ⟨hne, hvalid⟩]

def Reads (n : Nat) (s r : List Char) : Item → Prop
  | .value v => parseValue n s = some (v, r)
  | .elements vs => parseElements n s = some (vs, r)
  | .elementsTail vs => parseElementsTail n s = some (vs, r)
  | .members ms => parseMembers n s = some (ms, r)
  | .membersTail ms => parseMembersTail n s = some (ms, r)

def Item.Nonempty : Item → Prop
  | .elements vs => vs ≠ []
  | .members ms => ms ≠ []
  | _ => True

theorem Derives.nonempty {i : Item} {t : List Char} (h : Derives i t) : i.Nonempty := by
  induction h with
  | ws h ht ih => exact ih
  | elements hv hvs => exact List.cons_ne_nil _ _
  | members hk hw hv hms => exact List.cons_ne_nil _ _
  | _ => trivial

def Begins (i : Item) (s r : List Char) : Prop := ∃ t, s = t ++ r ∧ Derives i t

theorem Begins.of_skipWs {i : Item} {s r : List Char} (h : Begins i (skipWs s) r) :
    Begins i s r := by
  obtain ⟨w, hw, hs⟩ := skipWs_spec s
  obtain ⟨t, ht, hd⟩ := h
  exact ⟨w ++ t, by rw [hs, ht, List.append_assoc], hd.blanks hw⟩

theorem Begins.arr {vs : List Value} {s r : List Char} (h : Begins (.elements vs) s r) :
    Begins (.value (.arr vs)) ('[' :: s) r := by
  obtain ⟨t, rfl, hd⟩ := h
  cases vs with
  | nil => exact absurd rfl hd.nonempty
  | cons v vs => exact ⟨'[' :: t, rfl, .arr hd⟩

theorem Begins.obj {ms : List (JString × Value)} {s r : List Char}
    (h : Begins (.members ms) s r) : Begins (.value (.obj ms)) ('\x7b' :: s) r := by
  obtain ⟨t, rfl, hd⟩ := h
  cases ms with
  | nil => exact absurd rfl hd.nonempty
  | cons m ms => exact ⟨'\x7b' :: t, rfl, .obj hd⟩

theorem parseValue_sound {n : Nat} {s r : List Char} {v : Value}
    (harr : ∀ s r vs, parseElements n s = some (vs, r) → Begins (.elements vs) s r)
    (hobj : ∀ s r ms, parseMembers n s = some (ms, r) → Begins (.members ms) s r)
    (h : parseValue (n + 1) s = some (v, r)) : Begins (.value v) s r := by
  refine .of_skipWs ?_
  rw [parseValue] at h
  split at h
  · rename_i hs
    cases h
    exact ⟨_, hs, .null⟩
  · rename_i hs
    cases h
    exact ⟨_, hs, .boolTrue⟩
  · rename_i hs
    cases h
    exact ⟨_, hs, .boolFalse⟩
  · rename_i s' hs
    obtain ⟨⟨us, r'⟩, hstr, h⟩ := Option.map_eq_some_iff.mp h
    cases h
    obtain ⟨t, rfl, ht⟩ := parseString_sound hstr
    exact ⟨_, hs, .str ht⟩
  · rename_i s' hs
    rw [hs]
    split at h
    · rename_i r' hclose
      cases h
      obtain ⟨w, hw, hs'⟩ := skipWs_spec s'
      exact ⟨'[' :: (w ++ [']']), by rw [hs', hclose]; simp, .arrEmpty hw⟩
    · obtain ⟨⟨vs, r'⟩, hvs, h⟩ := Option.map_eq_some_iff.mp h
      cases h
      exact (harr _ _ _ hvs).arr
  · rename_i s' hs
    rw [hs]
    split at h
    · rename_i r' hclose
      cases h
      obtain ⟨w, hw, hs'⟩ := skipWs_spec s'
      exact ⟨'\x7b' :: (w ++ ['\x7d']), by rw [hs', hclose]; simp, .objEmpty hw⟩
    · obtain ⟨⟨ms, r'⟩, hms, h⟩ := Option.map_eq_some_iff.mp h
      cases h
      exact (hobj _ _ _ hms).obj
  · exact parseNumber_sound h

theorem Reads.sound {n : Nat} {s r : List Char} {i : Item} (h : Reads n s r i) :
    Begins i s r := by
  induction n generalizing s r i with
  | zero => cases i <;> cases h
  | succ n ih =>
    cases i with
    | value v =>
      exact parseValue_sound (fun s r vs h => ih (i := .elements vs) h)
        (fun s r ms h => ih (i := .members ms) h) h
    | elements vs =>
      obtain ⟨⟨v, s'⟩, hv, h⟩ := Option.bind_eq_some_iff.mp h
      obtain ⟨⟨vs', r'⟩, hvs, h⟩ := Option.bind_eq_some_iff.mp h
      cases h
      obtain ⟨t, rfl, ht⟩ := ih (i := .value v) hv
      obtain ⟨t', rfl, ht'⟩ := ih (i := .elementsTail vs') hvs
      exact ⟨t ++ t', (List.append_assoc _ _ _).symm, .elements ht ht'⟩
    | elementsTail vs =>
      refine .of_skipWs ?_
      rw [Reads, parseElementsTail] at h
      split at h
      · rename_i hs
        cases h
        exact ⟨_, hs, .elementsEnd⟩
      · rename_i s' hs
        obtain ⟨t, rfl, ht⟩ := ih (i := .elements vs) h
        exact ⟨',' :: t, hs, .elementsMore ht⟩
      · cases h
    | members ms =>
      refine .of_skipWs ?_
      rw [Reads, parseMembers] at h
      split at h
      · rename_i s' hs
        obtain ⟨⟨k, s''⟩, hk, hrest⟩ := Option.bind_eq_some_iff.mp h
        obtain ⟨t, rfl, ht⟩ := parseString_sound hk
        obtain ⟨w, hw, hs''⟩ := skipWs_spec s''
        simp only at hrest
        split at hrest
        · rename_i s₃ hcolon
          obtain ⟨⟨v, s₄⟩, hv, hrest⟩ := Option.bind_eq_some_iff.mp hrest
          obtain ⟨⟨ms', r'⟩, hms, hrest⟩ := Option.bind_eq_some_iff.mp hrest
          cases hrest
          obtain ⟨t', rfl, ht'⟩ := ih (i := .value v) hv
          obtain ⟨t'', rfl, ht''⟩ := ih (i := .membersTail ms') hms
          refine ⟨_, ?_, .members ht hw ht' ht''⟩
          rw [hs, hs'', hcolon]
          simp
        · cases hrest
      · cases h
    | membersTail ms =>
      refine .of_skipWs ?_
      rw [Reads, parseMembersTail] at h
      split at h
      · rename_i hs
        cases h
        exact ⟨_, hs, .membersEnd⟩
      · rename_i s' hs
        obtain ⟨t, rfl, ht⟩ := ih (i := .members ms) h
        exact ⟨',' :: t, hs, .membersMore ht⟩
      · cases h

theorem parseValue_ws {c : Char} (hc : isWs c) (n : Nat) (s : List Char) :
    parseValue n (c :: s) = parseValue n s := by
  cases n with
  | zero => rfl
  | succ n => rw [parseValue, parseValue, skipWs_ws hc]

theorem Reads.ws {c : Char} (hc : isWs c) {n : Nat} {s r : List Char} {i : Item}
    (h : Reads n s r i) : Reads n (c :: s) r i := by
  cases n with
  | zero => cases i <;> cases h
  | succ n =>
    cases i with
    | value v => exact (parseValue_ws hc _ s).trans h
    | elements vs =>
      change (parseValue n (c :: s) >>= _) = _
      rw [parseValue_ws hc]
      exact h
    | elementsTail vs =>
      rw [Reads, parseElementsTail] at h ⊢
      rwa [skipWs_ws hc]
    | members ms =>
      rw [Reads, parseMembers] at h ⊢
      rwa [skipWs_ws hc]
    | membersTail ms =>
      rw [Reads, parseMembersTail] at h ⊢
      rwa [skipWs_ws hc]

/-- Only a number has to know where it ends. -/
def Item.Follows (r : List Char) : Item → Prop
  | .value (.num _) => Delimited r
  | _ => True

def marks : List Char :=
  ['n', 't', 'f', '"', '[', ']', '\x7b', '\x7d', ',', ' ', '\t', '\n', '\r']

theorem not_number_of_mark {c : Char} (h : c ∈ marks) : isNumberChar c = false := by
  have hall : marks.all (fun d => decide (isNumberChar d = false)) = true := by decide
  exact of_decide_eq_true (List.all_eq_true.mp hall c h)

theorem mark_of_ws {c : Char} (h : isWs c) : c ∈ marks := by
  simp only [isWs, Bool.or_eq_true, decide_eq_true_eq] at h
  rcases h with ((rfl | rfl) | rfl) | rfl <;> decide

theorem notMem_marks {c : Char} (h : isNumberChar c) : c ∉ marks := fun hc => by
  rw [not_number_of_mark hc] at h
  cases h

theorem delimited_mark {c : Char} (h : c ∈ marks) (r : List Char) : Delimited (c :: r) := by
  intro d hd
  cases hd
  exact not_number_of_mark h

theorem Derives.delimited_elements {vs : List Value} {t : List Char}
    (h : Derives (.elementsTail vs) t) (r : List Char) : Delimited (t ++ r) := by
  cases h with
  | ws hc ht => exact delimited_mark (mark_of_ws hc) _
  | elementsEnd => exact delimited_mark (by decide) _
  | elementsMore h => exact delimited_mark (by decide) _

theorem Derives.delimited_members {ms : List (JString × Value)} {t : List Char}
    (h : Derives (.membersTail ms) t) (r : List Char) : Delimited (t ++ r) := by
  cases h with
  | ws hc ht => exact delimited_mark (mark_of_ws hc) _
  | membersEnd => exact delimited_mark (by decide) _
  | membersMore h => exact delimited_mark (by decide) _

theorem Item.follows_of_delimited {r : List Char} (h : Delimited r) (i : Item) :
    i.Follows r := by
  unfold Follows
  split
  · exact h
  · trivial

theorem skipWs_mark {c : Char} (h : isWs c = false) (s : List Char) : skipWs (c :: s) = c :: s := by
  simp [skipWs, h]

def Item.Opens (s : List Char) : Item → Prop
  | .value _ => ∀ s', s ≠ ']' :: s'
  | .elements _ => ∀ s', s ≠ ']' :: s'
  | .members _ => ∀ s', s ≠ '\x7d' :: s'
  | _ => True

theorem Derives.opens {i : Item} {t : List Char} (h : Derives i t) (r : List Char) :
    i.Opens (skipWs (t ++ r)) := by
  induction h generalizing r with
  | @ws c i t h ht ih =>
    rw [List.cons_append, skipWs_ws h]
    exact ih r
  | @num t hne hchars hvalid =>
    cases t with
    | nil => exact absurd rfl hne
    | cons c t =>
      have hc := notMem_marks (hchars c List.mem_cons_self)
      have hws : isWs c = false := Bool.eq_false_iff.mpr fun h => hc (mark_of_ws h)
      rw [List.cons_append, skipWs_mark hws]
      intro s' hs
      obtain rfl := (List.cons.inj hs).1
      exact hc (by decide)
  | @elements v vs t t' hv hvs ihv ihvs =>
    rw [List.append_assoc]
    exact ihv (t' ++ r)
  | elementsEnd => trivial
  | elementsMore => trivial
  | membersEnd => trivial
  | membersMore => trivial
  | _ => exact fun s' h => by simp [skipWs, isWs] at h

theorem Derives.length_pos {i : Item} {t : List Char} (h : Derives i t) : 0 < t.length := by
  induction h with
  | num hne hchars hvalid => exact List.length_pos_iff.mpr hne
  | @elements v vs t t' hv hvs ihv ihvs =>
    rw [List.length_append]
    omega
  | _ => exact Nat.succ_pos _

theorem parseValue_number {c : Char} (hc : c ∉ marks) (n : Nat) (s : List Char) :
    parseValue (n + 1) (c :: s) = parseNumber (c :: s) := by
  have hws : isWs c = false := Bool.eq_false_iff.mpr fun h => hc (mark_of_ws h)
  have hne : ∀ d ∈ marks, ∀ s', c :: s ≠ d :: s' := by
    rintro d hd s' hs
    exact hc ((List.cons.inj hs).1 ▸ hd)
  rw [parseValue, skipWs_mark hws]
  split
  · rename_i hs
    exact absurd hs (hne _ (by decide) _)
  · rename_i hs
    exact absurd hs (hne _ (by decide) _)
  · rename_i hs
    exact absurd hs (hne _ (by decide) _)
  · rename_i hs
    exact absurd hs (hne _ (by decide) _)
  · rename_i hs
    exact absurd hs (hne _ (by decide) _)
  · rename_i hs
    exact absurd hs (hne _ (by decide) _)
  · rfl

section reads
variable {n : Nat} {s s' r : List Char}

theorem Reads.arr {v : Value} {vs : List Value} (hopen : ∀ s', skipWs s ≠ ']' :: s')
    (h : Reads n s r (.elements (v :: vs))) :
    Reads (n + 1) ('[' :: s) r (.value (.arr (v :: vs))) := by
  have hrec : parseElements n s = some (v :: vs, r) := h
  rw [Reads, parseValue, skipWs_mark (by decide)]
  -- the branch of a bracket that closes at once is ruled out by `hopen`
  simp only
  rw [hrec]
  rfl

theorem Reads.obj {m : JString × Value} {ms : List (JString × Value)}
    (hopen : ∀ s', skipWs s ≠ '\x7d' :: s') (h : Reads n s r (.members (m :: ms))) :
    Reads (n + 1) ('\x7b' :: s) r (.value (.obj (m :: ms))) := by
  have hrec : parseMembers n s = some (m :: ms, r) := h
  rw [Reads, parseValue, skipWs_mark (by decide)]
  simp only
  rw [hrec]
  rfl

theorem Reads.elements {v : Value} {vs : List Value} (hv : Reads n s s' (.value v))
    (hvs : Reads n s' r (.elementsTail vs)) : Reads (n + 1) s r (.elements (v :: vs)) := by
  have hvalue : parseValue n s = some (v, s') := hv
  have htail : parseElementsTail n s' = some (vs, r) := hvs
  simp only [Reads, parseElements, hvalue, htail, Option.bind_eq_bind, Option.bind_some,
    Option.pure_def]

theorem Reads.elementsMore {vs : List Value} (h : Reads n s r (.elements vs)) :
    Reads (n + 1) (',' :: s) r (.elementsTail vs) := by
  have hrec : parseElements n s = some (vs, r) := h
  rw [Reads, parseElementsTail, skipWs_mark (by decide)]
  exact hrec

theorem Reads.members {k : JString} {v : Value} {ms : List (JString × Value)} {t w : List Char}
    (hk : StringText k t) (hw : ∀ c ∈ w, isWs c) (hv : Reads n s s' (.value v))
    (hms : Reads n s' r (.membersTail ms)) :
    Reads (n + 1) ('"' :: (t ++ (w ++ ':' :: s))) r (.members ((k, v) :: ms)) := by
  have hvalue : parseValue n s = some (v, s') := hv
  have htail : parseMembersTail n s' = some (ms, r) := hms
  have hcolon : skipWs (w ++ ':' :: s) = ':' :: s := by
    rw [skipWs_all hw, skipWs_mark (by decide)]
  rw [Reads, parseMembers, skipWs_mark (by decide)]
  simp only [parseString_complete hk, Option.bind_eq_bind, Option.bind_some, hcolon, hvalue,
    htail, Option.pure_def]

theorem Reads.membersMore {ms : List (JString × Value)} (h : Reads n s r (.members ms)) :
    Reads (n + 1) (',' :: s) r (.membersTail ms) := by
  have hrec : parseMembers n s = some (ms, r) := h
  rw [Reads, parseMembersTail, skipWs_mark (by decide)]
  exact hrec

theorem Derives.reads_of_succ {i : Item} {t : List Char} (h : Derives i t) (hn : t.length ≤ n)
    (hread : ∀ m, t.length ≤ m + 1 → Reads (m + 1) s r i) : Reads n s r i := by
  have hpos := h.length_pos
  obtain ⟨m, rfl⟩ : ∃ m, n = m + 1 := ⟨n - 1, by omega⟩
  exact hread m hn

end reads

theorem Derives.reads_succ {i : Item} {t : List Char} (h : Derives i t) {n : Nat} {r : List Char}
    (hn : t.length ≤ n + 1) (hr : i.Follows r) : Reads (n + 1) (t ++ r) r i := by
  induction h generalizing n r with
  | @ws c i t h ht ih => exact (ih (by simp only [List.length_cons] at hn; omega) hr).ws h
  | null => simp [Reads, parseValue, skipWs, isWs]
  | boolTrue => simp [Reads, parseValue, skipWs, isWs]
  | boolFalse => simp [Reads, parseValue, skipWs, isWs]
  | @num t hne hchars hvalid =>
    cases t with
    | nil => exact absurd rfl hne
    | cons c t =>
      exact (parseValue_number (notMem_marks (hchars c List.mem_cons_self)) n _).trans
        (parseNumber_complete hne hchars hvalid hr)
  | @str s t h => simp [Reads, parseValue, skipWs_mark, isWs, parseString_complete h]
  | @arrEmpty w hw => simp [Reads, parseValue, skipWs_mark, isWs, skipWs_all hw]
  | @arr v vs t h ih =>
    apply Reads.arr (h.opens r)
    exact h.reads_of_succ (by simpa using hn) fun m hm => ih hm trivial
  | @elements v vs t t' hv hvs ihv ihvs =>
    have hpos := hv.length_pos
    have hpos' := hvs.length_pos
    rw [List.length_append] at hn
    rw [List.append_assoc]
    apply Reads.elements
    · exact hv.reads_of_succ (by omega) fun m hm =>
        ihv hm (Item.follows_of_delimited (hvs.delimited_elements r) _)
    · exact hvs.reads_of_succ (by omega) fun m hm => ihvs hm trivial
  | elementsEnd => simp [Reads, parseElementsTail, skipWs, isWs]
  | @elementsMore vs t h ih =>
    apply Reads.elementsMore
    exact h.reads_of_succ (by simpa using hn) fun m hm => ih hm trivial
  | @objEmpty w hw => simp [Reads, parseValue, skipWs_mark, isWs, skipWs_all hw]
  | @obj m ms t h ih =>
    apply Reads.obj (h.opens r)
    exact h.reads_of_succ (by simpa using hn) fun m hm => ih hm trivial
  | @members k v ms t w t' t'' hk hw hv hms ihv ihms =>
    have hpos := hms.length_pos
    simp only [List.length_cons, List.length_append] at hn
    simp only [List.cons_append, List.append_assoc]
    apply Reads.members hk hw
    · exact hv.reads_of_succ (by omega) fun m hm =>
        ihv hm (Item.follows_of_delimited (hms.delimited_members r) _)
    · exact hms.reads_of_succ (by omega) fun m hm => ihms hm trivial
  | membersEnd => simp [Reads, parseMembersTail, skipWs, isWs]
  | @membersMore ms t h ih =>
    apply Reads.membersMore
    exact h.reads_of_succ (by simpa using hn) fun m hm => ih hm trivial

/-- What the grammar derives, the parser reads, whatever follows. -/
theorem Derives.reads {i : Item} {t : List Char} (h : Derives i t) {n : Nat} {r : List Char}
    (hn : t.length ≤ n) (hr : i.Follows r) : Reads n (t ++ r) r i :=
  h.reads_of_succ hn fun _ hm => h.reads_succ hm hr

theorem readValue_sound {s r : List Char} {v : Value} (h : readValue s = some (v, r)) :
    Begins (.value v) s r :=
  Reads.sound (i := .value v) h

theorem readValue_complete {t r : List Char} {v : Value} (h : Derives (.value v) t)
    (hr : (Item.value v).Follows r) : readValue (t ++ r) = some (v, r) := by
  refine h.reads ?_ hr
  rw [List.length_append]
  exact Nat.le_add_right _ _

theorem parseDocument_sound {s : List Char} {v : Value} (h : parseDocument s = some v) :
    ∃ t w, s = t ++ w ∧ Derives (.value v) t ∧ ∀ c ∈ w, isWs c := by
  unfold parseDocument at h
  split at h
  · rename_i v' r hread
    split at h
    · rename_i hend
      cases h
      obtain ⟨t, ht, hd⟩ := readValue_sound hread
      obtain ⟨w, hw, hr⟩ := skipWs_spec r
      rw [hend, List.append_nil] at hr
      exact ⟨t, w, hr ▸ ht, hd, hw⟩
    · cases h
  · cases h

theorem parseDocument_complete {t : List Char} {v : Value} (h : Derives (.value v) t) :
    parseDocument t = some v := by
  have hread := readValue_complete h (r := [])
    (Item.follows_of_delimited (fun c hc => by cases hc) _)
  rw [List.append_nil] at hread
  rw [parseDocument, hread]
  exact if_pos rfl

theorem nul_of_escapeUnit {c : Char} {u : UInt16} (h : escapeUnit c = some u) : c ≠ '\x00' := by
  rintro rfl
  simp [escapeUnit] at h

theorem nul_of_hexValue {c : Char} {n : Nat} (h : hexValue c = some n) : c ≠ '\x00' := by
  rintro rfl
  simp [hexValue] at h

theorem StringText.nul_notMem {s : JString} {t : List Char} (h : StringText s t) :
    '\x00' ∉ t := by
  induction h with
  | close => decide
  | @char c s t h hs ih =>
    have hc : c ≠ '\x00' := by
      rintro rfl
      exact absurd h (by decide)
    simp [hc.symm, ih]
  | @escape c u s t h hs ih => simp [(nul_of_escapeUnit h).symm, ih]
  | @unicode a b c d u s t h hs ih =>
    obtain ⟨a', ha, h⟩ := Option.bind_eq_some_iff.mp h
    obtain ⟨b', hb, h⟩ := Option.bind_eq_some_iff.mp h
    obtain ⟨c', hc, h⟩ := Option.bind_eq_some_iff.mp h
    obtain ⟨d', hd, h⟩ := Option.bind_eq_some_iff.mp h
    simp [(nul_of_hexValue ha).symm, (nul_of_hexValue hb).symm, (nul_of_hexValue hc).symm,
      (nul_of_hexValue hd).symm, ih]

theorem nul_of_ws {w : List Char} (hw : ∀ c ∈ w, isWs c) : '\x00' ∉ w := fun h =>
  absurd (hw _ h) (by decide)

theorem Derives.nul_notMem {i : Item} {t : List Char} (h : Derives i t) : '\x00' ∉ t := by
  induction h with
  | @ws c i t h ht ih =>
    have hc : c ≠ '\x00' := by
      rintro rfl
      exact absurd h (by decide)
    simp [hc.symm, ih]
  | null => decide
  | boolTrue => decide
  | boolFalse => decide
  | num hne hchars hvalid => exact fun hmem => absurd (hchars _ hmem) (by decide)
  | str h => simp [h.nul_notMem]
  | arrEmpty hw => simp [nul_of_ws hw]
  | arr h ih => simp [ih]
  | elements hv hvs ihv ihvs => simp [ihv, ihvs]
  | elementsEnd => decide
  | elementsMore h ih => simp [ih]
  | objEmpty hw => simp [nul_of_ws hw]
  | obj h ih => simp [ih]
  | members hk hw hv hms ihv ihms => simp [hk.nul_notMem, nul_of_ws hw, ihv, ihms]
  | membersEnd => decide
  | membersMore h ih => simp [ih]

theorem Derives.follows_of_brace {v : Value} {t : List Char}
    (h : Derives (.value v) ('\x7b' :: t)) (r : List Char) : (Item.value v).Follows r := by
  cases v with
  | num s =>
    cases h with
    | ws hc ht => exact absurd hc (by decide)
    | num hne hchars hvalid => exact absurd (hchars _ List.mem_cons_self) (by decide)
  | null => trivial
  | bool b => trivial
  | str s => trivial
  | arr vs => trivial
  | obj ms => trivial

/-- No object's text begins another's. -/
theorem Derives.eq_of_prefix {v v' : Value} {t p : List Char} (h : Derives (.value v) ('\x7b' :: t))
    (hd : Derives (.value v') ('\x7b' :: p)) (hp : '\x7b' :: p <+: '\x7b' :: t) : p = t := by
  obtain ⟨q, hq⟩ := hp
  have hfirst := readValue_complete hd (hd.follows_of_brace q)
  have hwhole := readValue_complete h (h.follows_of_brace [])
  rw [List.append_nil, ← hq, hfirst] at hwhole
  obtain ⟨_, rfl⟩ : v' = v ∧ q = [] := by simpa using hwhole
  rw [List.append_nil] at hq
  exact (List.cons.inj hq).2

end NetworkAnalyser.Json
