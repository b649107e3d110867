import Mathlib.Algebra.Group.Nat.Defs
import Mathlib.Data.List.Basic

/-!
# Words, slices and tokens of byte strings

The pieces that binary formats are made of: words of a fixed width in either
byte order, reads that stay inside a buffer, and the splitting of a string at a
separator.
-/

namespace Runc.Lib

universe u

inductive Endian
  | little
  | big
deriving DecidableEq

def putLittle : Nat → Nat → List UInt8
  | 0, _ => []
  | n + 1, v => UInt8.ofNat v :: putLittle n (v / 256)

def getLittle : List UInt8 → Nat
  | [] => 0
  | b :: rest => b.toNat + 256 * getLittle rest

theorem putLittle_length (n v : Nat) : (putLittle n v).length = n := by
  induction n generalizing v with
  | zero => rfl
  | succ n ih => simp [putLittle, ih]

theorem getLittle_putLittle (n v : Nat) : getLittle (putLittle n v) = v % 256 ^ n := by
  induction n generalizing v with
  | zero => simp [putLittle, getLittle, Nat.mod_one]
  | succ n ih =>
    have hbyte : (UInt8.ofNat v).toNat = v % 256 := by
      simp
    rw [putLittle, getLittle, ih, hbyte, pow_succ, Nat.mul_comm (256 ^ n), Nat.mod_mul]

def Endian.put (e : Endian) (n v : Nat) : List UInt8 :=
  match e with
  | .little => putLittle n v
  | .big => (putLittle n v).reverse

def Endian.get (e : Endian) (bytes : List UInt8) : Nat :=
  match e with
  | .little => getLittle bytes
  | .big => getLittle bytes.reverse

@[simp]
theorem Endian.put_length (e : Endian) (n v : Nat) : (e.put n v).length = n := by
  cases e with
  | little => exact putLittle_length n v
  | big => simp [put, putLittle_length]

theorem Endian.get_put (e : Endian) (n v : Nat) : e.get (e.put n v) = v % 256 ^ n := by
  cases e with
  | little => exact getLittle_putLittle n v
  | big => simp [get, put, getLittle_putLittle]

theorem Endian.get_put_of_lt (e : Endian) {n v : Nat} (h : v < 256 ^ n) :
    e.get (e.put n v) = v := by
  rw [get_put, Nat.mod_eq_of_lt h]

section Slices

variable {α : Type u}

def slice (data : List α) (pos len : Nat) : Option (List α) :=
  if pos + len ≤ data.length then some ((data.drop pos).take len) else none

theorem slice_append (front : List α) {part : List α} (back : List α) {pos len : Nat}
    (hpos : pos = front.length) (hlen : len = part.length) :
    slice (front ++ (part ++ back)) pos len = some part := by
  subst hpos hlen
  have hle : front.length + part.length ≤ (front ++ (part ++ back)).length := by
    simp only [List.length_append]
    omega
  rw [slice, if_pos hle, List.drop_left, List.take_left]

theorem slice_inside {front part back found : List α} {len : Nat}
    (h : slice part 0 len = some found) :
    slice (front ++ (part ++ back)) front.length len = some found := by
  unfold slice at h
  split at h
  · rename_i hle
    cases h
    have hle' : front.length + len ≤ (front ++ (part ++ back)).length := by
      simp only [List.length_append]
      omega
    have hlen : len ≤ part.length := by omega
    rw [slice, if_pos hle', List.drop_left, List.take_append_of_le_length hlen, List.drop_zero]
  · cases h

theorem slice_all (part : List α) : slice part 0 part.length = some part := by
  simp [slice]

end Slices

section Joined

variable {α : Type u} {d : α}

theorem intercalate_cons_cons (part next : List α) (parts : List (List α)) :
    [d].intercalate (part :: next :: parts) =
      part ++ (d :: [d].intercalate (next :: parts)) := by
  simp [List.intercalate]

theorem intercalate_singleton (part : List α) : [d].intercalate [part] = part := by
  simp [List.intercalate]

variable {parts : List (List α)}

theorem mem_intercalate {x : α} (h : x ∈ [d].intercalate parts) :
    x = d ∨ ∃ part ∈ parts, x ∈ part := by
  induction parts with
  | nil => simp [List.intercalate] at h
  | cons part parts ih =>
    cases parts with
    | nil =>
      rw [intercalate_singleton] at h
      exact .inr ⟨part, List.mem_cons_self, h⟩
    | cons next parts =>
      rw [intercalate_cons_cons, List.mem_append, List.mem_cons] at h
      rcases h with h | h | h
      · exact .inr ⟨part, List.mem_cons_self, h⟩
      · exact .inl h
      · rcases ih h with hd | ⟨p, hp, hx⟩
        · exact .inl hd
        · exact .inr ⟨p, List.mem_cons_of_mem _ hp, hx⟩

theorem middle_of_mem {part : List α} (h : part ∈ parts) :
    ∃ left right, [d].intercalate parts = left ++ (part ++ right) := by
  induction parts with
  | nil => cases h
  | cons first parts ih =>
    cases parts with
    | nil =>
      rw [List.mem_singleton] at h
      exact ⟨[], [], by rw [intercalate_singleton, h, List.append_nil]; rfl⟩
    | cons next parts =>
      rw [intercalate_cons_cons]
      rcases List.mem_cons.mp h with rfl | h
      · exact ⟨[], _, rfl⟩
      · obtain ⟨left, right, heq⟩ := ih h
        refine ⟨first ++ d :: left, right, ?_⟩
        rw [heq, List.append_assoc]
        rfl

def weight : List (List α) → Nat
  | [] => 0
  | part :: parts => part.length + 1 + weight parts

theorem length_intercalate (parts : List (List α)) :
    ([d].intercalate parts).length = weight parts - 1 := by
  induction parts with
  | nil => rfl
  | cons part parts ih =>
    cases parts with
    | nil =>
      rw [intercalate_singleton]
      rfl
    | cons next parts =>
      rw [intercalate_cons_cons, List.length_append, List.length_cons, ih]
      simp only [weight]
      omega

theorem weight_filter_le (p : List α → Bool) (parts : List (List α)) :
    weight (parts.filter p) ≤ weight parts := by
  induction parts with
  | nil => exact Nat.le_refl _
  | cons part parts ih =>
    rw [List.filter_cons, weight]
    split
    · rw [weight]
      omega
    · omega

theorem weight_filter_lt {p : List α → Bool} {left : List α}
    (hmem : left ∈ parts) (hleft : p left = false) :
    weight (parts.filter p) + left.length + 1 ≤ weight parts := by
  induction parts with
  | nil => cases hmem
  | cons part parts ih =>
    have hle := weight_filter_le p parts
    rw [List.filter_cons, weight]
    rcases List.mem_cons.mp hmem with rfl | hmem
    · rw [hleft]
      simp only [Bool.false_eq_true, if_false]
      omega
    · have hrest := ih hmem
      split
      · rw [weight]
        omega
      · omega

end Joined

section Split

variable {α : Type u} [DecidableEq α] {d : α}

theorem mem_splitOn_intercalate {parts : List (List α)} (hne : parts ≠ []) (piece : List α) :
    piece ∈ ([d].intercalate parts).splitOn d ↔ ∃ part ∈ parts, piece ∈ part.splitOn d := by
  induction parts with
  | nil => exact absurd rfl hne
  | cons part parts ih =>
    cases parts with
    | nil =>
      rw [intercalate_singleton]
      simp
    | cons next parts =>
      have hsplit := List.splitOnP_append_cons (p := (· == d)) part
        ([d].intercalate (next :: parts)) (beq_self_eq_true d)
      rw [intercalate_cons_cons, List.splitOn, hsplit, List.mem_append, ← List.splitOn,
        ← List.splitOn, ih (List.cons_ne_nil _ _), List.exists_mem_cons_iff _ part]

theorem not_mem_of_mem_splitOn {text piece : List α} (h : piece ∈ text.splitOn d) : d ∉ piece := by
  induction text generalizing piece with
  | nil =>
    rw [show ([] : List α).splitOn d = [[]] from rfl, List.mem_singleton] at h
    rw [h]
    exact List.not_mem_nil
  | cons x text ih =>
    rw [List.splitOn, List.splitOnP_cons_eq_if_modifyHead] at h
    split at h
    · rcases List.mem_cons.mp h with rfl | h
      · exact List.not_mem_nil
      · exact ih h
    · rename_i hx
      cases hsplit : text.splitOnP (· == d) with
      | nil =>
        rw [hsplit] at h
        cases h
      | cons first pieces =>
        rw [hsplit, List.modifyHead_cons] at h
        have hpieces : ∀ piece ∈ first :: pieces, d ∉ piece := by
          rw [← hsplit]
          exact fun piece hpiece => ih hpiece
        rcases List.mem_cons.mp h with rfl | h
        · intro hmem
          rcases List.mem_cons.mp hmem with rfl | hmem
          · exact hx (beq_self_eq_true d)
          · exact hpieces first List.mem_cons_self hmem
        · exact hpieces piece (List.mem_cons_of_mem _ h)

theorem middle_of_mem_splitOn {text piece : List α} (h : piece ∈ text.splitOn d) :
    ∃ left right, text = left ++ (piece ++ right) := by
  obtain ⟨left, right, heq⟩ := middle_of_mem (d := d) h
  exact ⟨left, right, (List.intercalate_splitOn d).symm.trans heq⟩

end Split

section Tokens

variable {α : Type u} [DecidableEq α] {d : α}

def tokensFrom (d : α) (current : List α) : List α → List (List α)
  | [] => if current = [] then [] else [current]
  | x :: rest =>
      if x = d then
        if current = [] then tokensFrom d [] rest
        else current :: tokensFrom d [] rest
      else tokensFrom d (current ++ [x]) rest

def tokens (d : α) (text : List α) : List (List α) :=
  tokensFrom d [] text

variable {part : List α}

theorem takeWhile_ne_append (h : d ∉ part) (rest : List α) :
    (part ++ d :: rest).takeWhile (· ≠ d) = part := by
  induction part with
  | nil => simp
  | cons x part ih =>
    simp only [List.mem_cons, not_or] at h
    have hx : x ≠ d := Ne.symm h.1
    simpa [hx] using ih h.2

theorem tokensFrom_append (hpart : d ∉ part) (current rest : List α) :
    tokensFrom d current (part ++ rest) = tokensFrom d (current ++ part) rest := by
  induction part generalizing current with
  | nil => simp
  | cons x part ih =>
    simp only [List.mem_cons, not_or] at hpart
    have hx : x ≠ d := Ne.symm hpart.1
    rw [List.cons_append, tokensFrom, if_neg hx, ih hpart.2]
    simp

theorem tokens_intercalate {parts : List (List α)} (hnonempty : ∀ part ∈ parts, part ≠ [])
    (hfree : ∀ part ∈ parts, d ∉ part) : tokens d ([d].intercalate parts) = parts := by
  unfold tokens
  induction parts with
  | nil => rfl
  | cons part parts ih =>
    have hpart : part ≠ [] := hnonempty part List.mem_cons_self
    have hd : d ∉ part := hfree part List.mem_cons_self
    have ih' := ih (fun p hp => hnonempty p (List.mem_cons_of_mem _ hp))
      (fun p hp => hfree p (List.mem_cons_of_mem _ hp))
    cases parts with
    | nil =>
      rw [intercalate_singleton, ← List.append_nil part, tokensFrom_append hd]
      simp [tokensFrom, hpart]
    | cons next parts =>
      rw [intercalate_cons_cons, tokensFrom_append hd, List.nil_append,
        tokensFrom, if_pos rfl, if_neg hpart, ih']

theorem tokensFrom_append_sep (current a b : List α) :
    tokensFrom d current (a ++ d :: b) = tokensFrom d current a ++ tokens d b := by
  induction a generalizing current with
  | nil =>
    simp only [List.nil_append, tokensFrom, if_true]
    split
    · rfl
    · rfl
  | cons x a ih =>
    rw [List.cons_append, tokensFrom, tokensFrom]
    split
    · split
      · exact ih []
      · rw [ih [], List.cons_append]
    · exact ih _

theorem tokens_append_sep (a b : List α) : tokens d (a ++ d :: b) = tokens d a ++ tokens d b :=
  tokensFrom_append_sep [] a b

theorem tokens_of_not_mem (hd : d ∉ part) (hne : part ≠ []) : tokens d part = [part] := by
  have h := tokens_intercalate (List.forall_mem_singleton.mpr hne)
    (List.forall_mem_singleton.mpr hd)
  rwa [intercalate_singleton] at h

variable {text : List α}

theorem mem_tokensFrom {current : List α} (hcurrent : d ∉ current)
    (h : part ∈ tokensFrom d current text) :
    d ∉ part ∧ part ≠ [] ∧ ∀ x ∈ part, x ∈ current ∨ x ∈ text := by
  induction text generalizing current with
  | nil =>
    rw [tokensFrom] at h
    split at h
    · cases h
    · rename_i hne
      obtain rfl := List.mem_singleton.mp h
      exact ⟨hcurrent, hne, fun x hx => Or.inl hx⟩
  | cons y text ih =>
    have hlater : part ∈ tokensFrom d [] text →
        d ∉ part ∧ part ≠ [] ∧ ∀ x ∈ part, x ∈ current ∨ x ∈ y :: text := by
      intro hmem
      obtain ⟨hd, hne, hsub⟩ := ih List.not_mem_nil hmem
      refine ⟨hd, hne, fun x hx => Or.inr (List.mem_cons_of_mem _ ?_)⟩
      exact (hsub x hx).resolve_left List.not_mem_nil
    rw [tokensFrom] at h
    split at h
    · split at h
      · exact hlater h
      · rename_i hne
        rcases List.mem_cons.mp h with rfl | h
        · exact ⟨hcurrent, hne, fun x hx => Or.inl hx⟩
        · exact hlater h
    · rename_i hy
      have hnext : d ∉ current ++ [y] := by
        simp only [List.mem_append, List.mem_singleton, not_or]
        exact ⟨hcurrent, Ne.symm hy⟩
      obtain ⟨hd, hne, hsub⟩ := ih hnext h
      refine ⟨hd, hne, fun x hx => ?_⟩
      have hx' := hsub x hx
      simp only [List.mem_append, List.mem_singleton] at hx'
      simp only [List.mem_cons]
      tauto

theorem mem_tokens (h : part ∈ tokens d text) : d ∉ part ∧ part ≠ [] ∧ ∀ x ∈ part, x ∈ text := by
  obtain ⟨hd, hne, hsub⟩ := mem_tokensFrom List.not_mem_nil h
  exact ⟨hd, hne, fun x hx => (hsub x hx).resolve_left List.not_mem_nil⟩

theorem flatten_tokensFrom (current text : List α) :
    (tokensFrom d current text).flatten = current ++ text.filter (· ≠ d) := by
  induction text generalizing current with
  | nil =>
    rw [tokensFrom]
    split
    · rename_i hnil
      simp [hnil]
    · simp
  | cons x text ih =>
    rw [tokensFrom]
    split
    · rename_i hx
      split
      · rename_i hnil
        rw [ih]
        simp [hx, hnil]
      · rw [List.flatten_cons, ih]
        simp [hx]
    · rename_i hx
      rw [ih]
      simp [hx]

theorem flatten_tokens (text : List α) : (tokens d text).flatten = text.filter (· ≠ d) :=
  flatten_tokensFrom [] text

def merge (e d : α) (x : α) : α :=
  if x = e then d else x

variable {e : α}

theorem tokensFrom_map_merge (hd : d ∉ text) (current : List α) :
    tokensFrom d current (text.map (merge e d)) = tokensFrom e current text := by
  induction text generalizing current with
  | nil => rfl
  | cons x text ih =>
    simp only [List.mem_cons, not_or] at hd
    rw [List.map_cons, tokensFrom, tokensFrom, ih hd.2, ih hd.2]
    by_cases hx : x = e
    · simp [merge, hx]
    · simp [merge, hx, Ne.symm hd.1]

theorem tokens_map_merge_of_not_mem (hd : d ∉ text) :
    tokens d (text.map (merge e d)) = tokens e text :=
  tokensFrom_map_merge hd []

theorem tokens_map_merge (text : List α) :
    tokens d (text.map (merge e d)) = (tokens d text).flatMap (tokens e) := by
  have hstep : ∀ current : List α, d ∉ current → tokens d ((current ++ text).map (merge e d)) =
        (tokensFrom d current text).flatMap (tokens e) := by
    induction text with
    | nil =>
      intro current hcurrent
      rw [List.append_nil, tokens_map_merge_of_not_mem hcurrent, tokensFrom]
      split
      · rename_i hnil
        rw [hnil]
        rfl
      · simp
    | cons x text ih =>
      intro current hcurrent
      rw [tokensFrom]
      split
      · rename_i hx
        have hmerge : merge e d x = d := by simp [merge, hx]
        rw [List.map_append, List.map_cons, hmerge, tokens_append_sep]
        have hrest := ih [] List.not_mem_nil
        rw [List.nil_append] at hrest
        rw [hrest, tokens_map_merge_of_not_mem hcurrent]
        split
        · rename_i hnil
          rw [hnil]
          rfl
        · simp
      · rename_i hx
        have hnext : d ∉ current ++ [x] := by
          simp only [List.mem_append, List.mem_singleton, not_or]
          exact ⟨hcurrent, Ne.symm hx⟩
        rw [← ih _ hnext, List.append_assoc, List.singleton_append]
  exact hstep [] List.not_mem_nil

end Tokens

end Runc.Lib
