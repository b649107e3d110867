import Mathlib.Data.List.Basic
import Mathlib.Data.List.Induction

/-!
# Values laid over one another

Requests that each give values for some of many names, and lists in which the
last entry of a key counts.
-/

namespace Runc.Lib

universe u v w

section Overlay

variable {ι : Type u} {D : ι → Type v}

def overlay (old : (i : ι) → D i) (new : (i : ι) → Option (D i)) : (i : ι) → D i :=
  fun i => (new i).getD (old i)

def lastGiven (news : List ((i : ι) → Option (D i))) (i : ι) : Option (D i) :=
  (news.filterMap fun new => new i).getLast?

theorem lastGiven_append (news : List ((i : ι) → Option (D i))) (new : (i : ι) → Option (D i))
    (i : ι) : lastGiven (news ++ [new]) i = (new i).or (lastGiven news i) := by
  unfold lastGiven
  rw [List.filterMap_append]
  cases h : new i with
  | none => simp [h]
  | some d => simp [h]

theorem foldl_overlay (old : (i : ι) → D i) (news : List ((i : ι) → Option (D i))) (i : ι) :
    news.foldl overlay old i = (lastGiven news i).getD (old i) := by
  induction news using List.reverseRecOn with
  | nil => rfl
  | append_singleton news new ih =>
    rw [List.foldl_concat, lastGiven_append, overlay, ih]
    cases new i with
    | none => rfl
    | some d => rfl

theorem lastGiven_concat_getD (old : (i : ι) → D i) (news : List ((i : ι) → Option (D i)))
    (new : (i : ι) → Option (D i)) :
    (fun i => (lastGiven (news ++ [new]) i).getD (old i)) =
      overlay (fun i => (lastGiven news i).getD (old i)) new := by
  funext i
  rw [lastGiven_append, overlay]
  cases new i with
  | none => rfl
  | some d => rfl

end Overlay

section Upsert

variable {α : Type u} {κ : Type v} [DecidableEq κ] (key : α → κ)

def lookup (k : κ) : List α → Option α
  | [] => none
  | a :: rest => (lookup k rest).or (if key a = k then some a else none)

def replaceLast (k : κ) (f : α → α) : List α → Option (List α)
  | [] => none
  | a :: rest =>
      match replaceLast k f rest with
      | some rest' => some (a :: rest')
      | none => if key a = k then some (f a :: rest) else none

def upsert (k : κ) (f : α → α) (new : α) (l : List α) : List α :=
  match replaceLast key k f l with
  | some l' => l'
  | none => l ++ [new]

variable {key} {k : κ} {f : α → α} {new : α} {l l' : List α}

theorem lookup_append_singleton (a : α) :
    lookup key k (l ++ [a]) = if key a = k then some a else lookup key k l := by
  induction l with
  | nil => simp [lookup]
  | cons b rest ih =>
    rw [List.cons_append, lookup, ih, lookup]
    split
    · rfl
    · rfl

theorem replaceLast_eq_none (h : replaceLast key k f l = none) : lookup key k l = none := by
  induction l with
  | nil => rfl
  | cons a rest ih =>
    unfold replaceLast at h
    cases hrest : replaceLast key k f rest with
    | some rest' =>
      rw [hrest] at h
      cases h
    | none =>
      rw [hrest] at h
      have hkey : key a ≠ k := by
        intro heq
        rw [if_pos heq] at h
        cases h
      rw [lookup, ih hrest, if_neg hkey]
      rfl

theorem replaceLast_eq_some (hf : ∀ a, key (f a) = key a) (h : replaceLast key k f l = some l') :
    ∃ a,
      lookup key k l = some a ∧ lookup key k l' = some (f a) ∧
        ∀ k', k' ≠ k → lookup key k' l' = lookup key k' l := by
  induction l generalizing l' with
  | nil => cases h
  | cons b rest ih =>
    unfold replaceLast at h
    cases hrest : replaceLast key k f rest with
    | some rest' =>
      rw [hrest] at h
      cases h
      obtain ⟨a, hold, hchanged, hother⟩ := ih hrest
      refine ⟨a, by rw [lookup, hold]; rfl, by rw [lookup, hchanged]; rfl, ?_⟩
      intro k' hne
      rw [lookup, lookup, hother k' hne]
    | none =>
      rw [hrest] at h
      have hkey : key b = k := by
        by_contra hne
        rw [if_neg hne] at h
        cases h
      rw [if_pos hkey] at h
      cases h
      have hnone : lookup key k rest = none := replaceLast_eq_none hrest
      refine ⟨b, ?_, ?_, ?_⟩
      · rw [lookup, hnone, if_pos hkey]
        rfl
      · rw [lookup, hnone, hf, if_pos hkey]
        rfl
      · intro k' hne
        rw [lookup, lookup, hf, hkey, if_neg (Ne.symm hne), if_neg (Ne.symm hne)]

theorem lookup_upsert (hf : ∀ a, key (f a) = key a) (hnew : key new = k) (k' : κ) :
    lookup key k' (upsert key k f new l) =
      if k' = k then some (((lookup key k l).map f).getD new)
      else lookup key k' l := by
  unfold upsert
  cases hreplace : replaceLast key k f l with
  | none =>
    have hnone : lookup key k l = none := replaceLast_eq_none hreplace
    change lookup key k' (l ++ [new]) = _
    rw [lookup_append_singleton, hnew, hnone]
    by_cases hk : k' = k
    · rw [if_pos hk, if_pos hk.symm]
      rfl
    · rw [if_neg hk, if_neg (Ne.symm hk)]
  | some l' =>
    obtain ⟨a, hold, hchanged, hother⟩ := replaceLast_eq_some hf hreplace
    change lookup key k' l' = _
    by_cases hk : k' = k
    · rw [if_pos hk, hk, hchanged, hold]
      rfl
    · rw [if_neg hk, hother k' hk]

theorem read_upsert {β : Type w} (read : Option α → β) (given : Option β)
    (hf : ∀ a, key (f a) = key a) (hnew : key new = k)
    (hchanged : ∀ a, read (some (f a)) = given.getD (read (some a)))
    (hadded : read (some new) = given.getD (read none)) :
    (fun k' => read (lookup key k' (upsert key k f new l))) =
      overlay (fun k' => read (lookup key k' l))
        (fun k' => if k' = k then given else none) := by
  funext k'
  unfold overlay
  dsimp only
  rw [lookup_upsert hf hnew]
  by_cases hk : k' = k
  · rw [if_pos hk, if_pos hk, hk]
    cases lookup key k l with
    | none => exact hadded
    | some a => exact hchanged a
  · rw [if_neg hk, if_neg hk]
    rfl

theorem replaceLast_eq_none_iff : replaceLast key k f l = none ↔ ∀ a ∈ l, key a ≠ k := by
  induction l with
  | nil => exact iff_of_true rfl nofun
  | cons a rest ih =>
    rw [replaceLast, List.forall_mem_cons, ← ih]
    cases replaceLast key k f rest with
    | some rest' => simp
    | none => simp

theorem filter_replaceLast (hf : ∀ a, key (f a) = key a) (h : replaceLast key k f l = some l')
    (k' : κ) :
    (l'.filter (key · = k')).length = (l.filter (key · = k')).length ∧
      (k' ≠ k → l'.filter (key · = k') = l.filter (key · = k')) := by
  induction l generalizing l' with
  | nil => cases h
  | cons b rest ih =>
    unfold replaceLast at h
    cases hrest : replaceLast key k f rest with
    | some rest' =>
      rw [hrest] at h
      cases h
      obtain ⟨hlength, hsame⟩ := ih hrest
      constructor
      · simp only [List.filter_cons]
        split <;> simp [hlength]
      · intro hne
        rw [List.filter_cons, List.filter_cons, hsame hne]
    | none =>
      rw [hrest] at h
      have hkey : key b = k := by
        by_contra hne
        rw [if_neg hne] at h
        cases h
      rw [if_pos hkey] at h
      cases h
      constructor
      · simp only [List.filter_cons, hf]
        split <;> rfl
      · intro hne
        simp [hf, hkey, Ne.symm hne]

theorem filter_upsert (hf : ∀ a, key (f a) = key a) (hnew : key new = k) (k' : κ) :
    ((upsert key k f new l).filter (key · = k')).length ≤ max 1 (l.filter (key · = k')).length ∧
      (k' ≠ k → (upsert key k f new l).filter (key · = k') = l.filter (key · = k')) := by
  unfold upsert
  cases hreplace : replaceLast key k f l with
  | some l' =>
    obtain ⟨hlength, hsame⟩ := filter_replaceLast hf hreplace k'
    exact ⟨hlength ▸ Nat.le_max_right _ _, hsame⟩
  | none =>
    dsimp only
    rw [List.filter_append, List.filter_singleton, hnew]
    by_cases hk : k' = k
    · have hnil : l.filter (key · = k') = [] := by
        rw [List.filter_eq_nil_iff, hk]
        exact fun a ha => by simpa using replaceLast_eq_none_iff.mp hreplace a ha
      refine ⟨?_, fun hne => absurd hk hne⟩
      rw [hnil, hk]
      simp
    · simp [Ne.symm hk, Nat.le_max_right]

theorem lookup_upsert_comm {k₂ : κ} {f₂ : α → α} {new₂ : α} (hf : ∀ a, key (f a) = key a)
    (hnew : key new = k) (hf₂ : ∀ a, key (f₂ a) = key a) (hnew₂ : key new₂ = k₂) (hne : k ≠ k₂)
    (k' : κ) :
    lookup key k' (upsert key k₂ f₂ new₂ (upsert key k f new l)) =
      lookup key k' (upsert key k f new (upsert key k₂ f₂ new₂ l)) := by
  simp only [lookup_upsert hf hnew, lookup_upsert hf₂ hnew₂, if_neg hne, if_neg (Ne.symm hne)]
  by_cases hk : k' = k
  · simp only [hk, if_true, if_neg hne]
  · simp only [if_neg hk]

end Upsert

end Runc.Lib
