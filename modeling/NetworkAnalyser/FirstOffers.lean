import Mathlib.Data.Finset.Card
import Mathlib.Data.Finset.Range
import Mathlib.Data.List.Induction
import Mathlib.Data.List.Nodup

/-! A bounded log that keeps the first item offered under each key. -/
namespace NetworkAnalyser.FirstOffers
variable {ι κ : Type}

section
variable [BEq κ] [LawfulBEq κ]

theorem eraseDups_snoc (ks : List κ) (k : κ) :
    (ks ++ [k]).eraseDups = ks.eraseDups ++ if k ∈ ks then [] else [k] := by
  rw [List.eraseDups_append]
  by_cases h : k ∈ ks
  · simp [List.removeAll, h]
  · simp [List.removeAll, h, List.eraseDups_cons]

theorem mem_eraseDups (ks : List κ) (k : κ) : k ∈ ks.eraseDups ↔ k ∈ ks := by
  induction ks using List.reverseRecOn with
  | nil => simp
  | append_singleton ks a ih =>
    rw [eraseDups_snoc, List.mem_append, List.mem_append, ih, List.mem_singleton]
    by_cases ha : a ∈ ks
    · rw [if_pos ha]
      constructor
      · intro h
        exact Or.inl (h.resolve_right List.not_mem_nil)
      · intro h
        exact Or.inl (h.elim id fun he => he ▸ ha)
    · rw [if_neg ha, List.mem_singleton]

end

/- No two kept items share a key, and there are at most `cap` of them. -/
@[ext] structure Log (key : ι → κ) (cap : Nat) where
  kept : List ι
  discarded : Nat
  distinct : (kept.map key).Nodup
  bounded : kept.length ≤ cap

namespace Log
variable {key : ι → κ} {cap : Nat}

def empty : Log key cap := ⟨[], 0, List.nodup_nil, Nat.zero_le cap⟩

def Known (l : Log key cap) (x : ι) : Prop := key x ∈ l.kept.map key

instance [DecidableEq κ] (l : Log key cap) (x : ι) : Decidable (l.Known x) :=
  inferInstanceAs (Decidable (_ ∈ _))

def discard (l : Log key cap) : Log key cap := { l with discarded := l.discarded + 1 }

def keep (l : Log key cap) (x : ι) (hroom : l.kept.length < cap) (hnew : ¬ l.Known x) :
    Log key cap where
  kept := l.kept ++ [x]
  discarded := l.discarded
  distinct := by
    rw [List.map_append, List.map_singleton, List.nodup_append]
    refine ⟨l.distinct, List.nodup_singleton _, fun a ha b hb hab => hnew ?_⟩
    rw [Known, ← List.mem_singleton.mp hb, ← hab]
    exact ha
  bounded := by
    rw [List.length_append, List.length_singleton]
    exact hroom

variable [DecidableEq κ]

/-- A full log ignores the item, a known key is counted and discarded. -/
def offer (l : Log key cap) (x : ι) : Log key cap :=
  if hroom : l.kept.length < cap then
    if hnew : l.Known x then l.discard else l.keep x hroom hnew
  else l

def offerAll (l : Log key cap) (xs : List ι) : Log key cap := xs.foldl offer l

@[simp] theorem offerAll_nil (l : Log key cap) : l.offerAll [] = l := rfl

theorem offerAll_snoc (l : Log key cap) (xs : List ι) (x : ι) :
    l.offerAll (xs ++ [x]) = (l.offerAll xs).offer x := by
  rw [offerAll, List.foldl_append]
  rfl

section cases
variable {l : Log key cap} {x : ι}

theorem offer_full (h : ¬ l.kept.length < cap) : l.offer x = l := dif_neg h

theorem offer_known (hroom : l.kept.length < cap) (h : l.Known x) : l.offer x = l.discard := by
  rw [offer, dif_pos hroom, dif_pos h]

theorem offer_new (hroom : l.kept.length < cap) (h : ¬ l.Known x) :
    l.offer x = l.keep x hroom h := by
  rw [offer, dif_pos hroom, dif_neg h]

end cases

theorem offerAll_sublist (xs : List ι) :
    ((empty : Log key cap).offerAll xs).kept.Sublist xs := by
  induction xs using List.reverseRecOn with
  | nil => exact List.Sublist.refl []
  | append_singleton xs x ih =>
    rw [offerAll_snoc]
    by_cases hroom : ((empty : Log key cap).offerAll xs).kept.length < cap
    · by_cases hnew : ((empty : Log key cap).offerAll xs).Known x
      · rw [offer_known hroom hnew]
        exact ih.trans (List.sublist_append_left xs [x])
      · rw [offer_new hroom hnew]
        exact ih.append (List.Sublist.refl [x])
    · rw [offer_full hroom]
      exact ih.trans (List.sublist_append_left xs [x])

theorem offerAll_keys [BEq κ] [LawfulBEq κ] (xs : List ι) :
    ((empty : Log key cap).offerAll xs).kept.map key = (xs.map key).eraseDups.take cap := by
  induction xs using List.reverseRecOn with
  | nil => simp [empty]
  | append_singleton xs x ih =>
    have hlen : ((empty : Log key cap).offerAll xs).kept.length =
        min cap (xs.map key).eraseDups.length := by
      rw [← List.length_take, ← ih, List.length_map]
    rw [offerAll_snoc, List.map_append, List.map_singleton, eraseDups_snoc]
    by_cases hroom : ((empty : Log key cap).offerAll xs).kept.length < cap
    · have hall : (xs.map key).eraseDups.take cap = (xs.map key).eraseDups :=
        List.take_of_length_le (by omega)
      have hknown : ((empty : Log key cap).offerAll xs).Known x ↔ key x ∈ xs.map key := by
        rw [Known, ih, hall, mem_eraseDups]
      by_cases hx : key x ∈ xs.map key
      · rw [offer_known hroom (hknown.mpr hx), if_pos hx, List.append_nil]
        exact ih
      · rw [offer_new hroom (fun h => hx (hknown.mp h)), if_neg hx,
          List.take_of_length_le (by rw [List.length_append, List.length_singleton]; omega), ← hall,
          ← ih]
        simp [keep]
    · rw [offer_full hroom, ih, List.take_append_of_le_length (by omega)]

theorem offerAll_discarded (xs : List ι) :
    ((empty : Log key cap).offerAll xs).discarded = ((Finset.range xs.length).filter fun i =>
      ((empty : Log key cap).offerAll (xs.take i)).kept.length < cap ∧
      ((empty : Log key cap).offerAll (xs.take (i + 1))).kept.length =
        ((empty : Log key cap).offerAll (xs.take i)).kept.length).card := by
  induction xs using List.reverseRecOn with
  | nil => rfl
  | append_singleton xs x ih =>
    have hbefore : ∀ i ∈ Finset.range xs.length,
        (xs ++ [x]).take i = xs.take i ∧ (xs ++ [x]).take (i + 1) = xs.take (i + 1) := by
      intro i hi
      have hlt := Finset.mem_range.mp hi
      exact ⟨List.take_append_of_le_length (by omega), List.take_append_of_le_length (by omega)⟩
    have hlast : (xs ++ [x]).take xs.length = xs ∧ (xs ++ [x]).take (xs.length + 1) = xs ++ [x] :=
      ⟨List.take_left' rfl, List.take_of_length_le (by simp)⟩
    rw [List.length_append, List.length_singleton, Finset.range_add_one, Finset.filter_insert,
      hlast.1, hlast.2, Finset.filter_congr fun i hi => by rw [(hbefore i hi).1, (hbefore i hi).2]]
    rw [offerAll_snoc]
    by_cases hroom : ((empty : Log key cap).offerAll xs).kept.length < cap
    · by_cases hnew : ((empty : Log key cap).offerAll xs).Known x
      · rw [offer_known hroom hnew, if_pos ⟨hroom, rfl⟩, Finset.card_insert_of_notMem (by simp),
          ← ih]
        rfl
      · rw [offer_new hroom hnew, if_neg (by simp [keep]), ← ih]
        rfl
    · rw [offer_full hroom, if_neg (fun h => hroom h.1), ih]

end Log

section firsts
variable [DecidableEq κ] (key : ι → κ)

/-- The items whose key has not occurred before them. -/
def firsts : List ι → List ι
  | [] => []
  | x :: xs => x :: (firsts xs).filter fun y => key y ≠ key x

variable {key}

theorem mem_firsts_keys {k : κ} (xs : List ι) :
    k ∈ (firsts key xs).map key ↔ k ∈ xs.map key := by
  induction xs with
  | nil => simp [firsts]
  | cons x xs ih =>
    simp only [List.mem_map] at ih
    by_cases hk : k = key x
    · simp [firsts, hk]
    · simp only [firsts, List.map_cons, List.mem_cons, hk, false_or, List.mem_map,
        List.mem_filter, decide_eq_true_eq]
      rw [← ih]
      constructor
      · rintro ⟨y, ⟨hy, _⟩, hyk⟩
        exact ⟨y, hy, hyk⟩
      · rintro ⟨y, hy, hyk⟩
        exact ⟨y, ⟨hy, fun h => hk (hyk.symm.trans h)⟩, hyk⟩

theorem firsts_nodup (xs : List ι) : ((firsts key xs).map key).Nodup := by
  induction xs with
  | nil => exact List.nodup_nil
  | cons x xs ih =>
    rw [firsts, List.map_cons, List.nodup_cons]
    refine ⟨fun h => ?_, ih.sublist (List.filter_sublist.map key)⟩
    obtain ⟨y, hy, hyx⟩ := List.mem_map.mp h
    exact (decide_eq_true_eq.mp (List.mem_filter.mp hy).2) hyx

theorem firsts_sublist (key : ι → κ) (xs : List ι) : (firsts key xs).Sublist xs := by
  induction xs with
  | nil => exact .slnil
  | cons x xs ih => exact (List.filter_sublist.trans ih).cons_cons x

theorem firsts_append (xs ys : List ι) : firsts key (xs ++ ys) =
    firsts key xs ++ (firsts key ys).filter fun y => key y ∉ xs.map key := by
  induction xs with
  | nil => simp [firsts]
  | cons x xs ih =>
    rw [List.cons_append, firsts, ih, List.filter_append, firsts, List.filter_filter,
      List.cons_append]
    congr 2
    refine List.filter_congr fun y _ => ?_
    by_cases hy : key y = key x <;> simp [hy]

theorem firsts_snoc (xs : List ι) (x : ι) :
    firsts key (xs ++ [x]) = firsts key xs ++ if key x ∈ xs.map key then [] else [x] := by
  rw [firsts_append]
  by_cases hx : key x ∈ xs.map key
  · rw [if_pos hx]
    simp [firsts, List.mem_map.mp hx]
  · rw [if_neg hx]
    simp only [List.mem_map, not_exists, not_and] at hx
    simpa [firsts] using hx

theorem firsts_map {ι' : Type} (f : ι' → ι) (xs : List ι') :
    firsts key (xs.map f) = (firsts (fun x => key (f x)) xs).map f := by
  induction xs with
  | nil => rfl
  | cons x xs ih =>
    rw [List.map_cons, firsts, ih, firsts, List.map_cons, List.filter_map]
    rfl

theorem firsts_perm {xs ys : List ι} (h : xs.Perm ys) :
    ((firsts key xs).map key).Perm ((firsts key ys).map key) := by
  refine (List.perm_ext_iff_of_nodup (firsts_nodup xs) (firsts_nodup ys)).mpr fun k => ?_
  rw [mem_firsts_keys, mem_firsts_keys]
  exact (h.map key).mem_iff

theorem firsts_eq_self {xs : List ι} (h : (xs.map key).Nodup) : firsts key xs = xs := by
  induction xs with
  | nil => rfl
  | cons x xs ih =>
    obtain ⟨hx, hxs⟩ := List.nodup_cons.mp h
    rw [firsts, ih hxs]
    refine congrArg (x :: ·) (List.filter_eq_self.mpr fun y hy => ?_)
    exact decide_eq_true fun hyx => hx (hyx ▸ List.mem_map_of_mem hy)

namespace Log
variable {cap : Nat}

/-- The log keeps the first item of each key, of as many keys as it has room for. -/
theorem offerAll_kept (xs : List ι) :
    ((empty : Log key cap).offerAll xs).kept = (firsts key xs).take cap := by
  induction xs using List.reverseRecOn with
  | nil => simp [empty, firsts]
  | append_singleton xs x ih =>
    rw [offerAll_snoc, firsts_snoc]
    by_cases hroom : ((empty : Log key cap).offerAll xs).kept.length < cap
    · have hlen : (firsts key xs).length ≤ cap := by
        rw [ih, List.length_take] at hroom
        omega
      have hall : ((empty : Log key cap).offerAll xs).kept = firsts key xs :=
        ih.trans (List.take_of_length_le hlen)
      have hknown : ((empty : Log key cap).offerAll xs).Known x ↔ key x ∈ xs.map key := by
        rw [Known, hall, mem_firsts_keys]
      by_cases hx : key x ∈ xs.map key
      · rw [offer_known hroom (hknown.mpr hx), if_pos hx, List.append_nil]
        exact ih
      · rw [offer_new hroom (fun h => hx (hknown.mp h)), if_neg hx, List.take_of_length_le]
        · rw [← hall]
          rfl
        · rw [hall] at hroom
          rw [List.length_append, List.length_singleton]
          omega
    · rw [offer_full hroom, ih, List.take_append_of_le_length]
      rw [ih, List.length_take] at hroom
      omega

theorem offerAll_accounts {xs : List ι} (hroom : (firsts key xs).length < cap) :
    ((empty : Log key cap).offerAll xs).discarded + (firsts key xs).length = xs.length := by
  induction xs using List.reverseRecOn with
  | nil => rfl
  | append_singleton xs x ih =>
    rw [firsts_snoc, List.length_append] at hroom
    have hfewer : (firsts key xs).length < cap := Nat.lt_of_le_of_lt (Nat.le_add_right _ _) hroom
    have hall : ((empty : Log key cap).offerAll xs).kept = firsts key xs :=
      (offerAll_kept xs).trans (List.take_of_length_le (Nat.le_of_lt hfewer))
    have hlen : ((empty : Log key cap).offerAll xs).kept.length < cap := by
      rw [hall]
      exact hfewer
    have hknown : ((empty : Log key cap).offerAll xs).Known x ↔ key x ∈ xs.map key := by
      rw [Known, hall, mem_firsts_keys]
    have hxs := ih hfewer
    rw [offerAll_snoc, firsts_snoc]
    by_cases hx : key x ∈ xs.map key
    · rw [offer_known hlen (hknown.mpr hx), if_pos hx, List.append_nil, List.length_append]
      simp only [discard, List.length_singleton]
      omega
    · rw [offer_new hlen (fun h => hx (hknown.mp h)), if_neg hx]
      simp only [keep, List.length_append, List.length_singleton]
      omega

end Log
end firsts
end NetworkAnalyser.FirstOffers
