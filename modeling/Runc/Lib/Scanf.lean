import Mathlib.Data.Nat.Digits.Defs
import Runc.Lib.Utf8

/-!
# `fmt.Sscanf`

Scanning a byte string along a format of literal characters, `%d` and `%c`.  The
scan stops at the first directive that does not match and tells how many items it
has stored by then.
-/

namespace Runc.Lib

inductive Directive
  | lit (c : Char)
  /-- `%d`. -/
  | int
  /-- `%c`. -/
  | rune
deriving DecidableEq

/-- `SkipSpace` of a scan where a line feed is no blank; `skip` bytes of a blank are
still to go. -/
def skipSpace : Nat → Text → Option Text
  | _, [] => some []
  | skip + 1, _ :: rest => skipSpace skip rest
  | 0, c :: rest =>
      if c = '\n' then none
      else
        match spaceEncodings.find? (·.isPrefixOf (c :: rest)) with
        | none => some (c :: rest)
        | some e => skipSpace (e.length - 1) rest

def scanSign : Text → Bool × Text
  | '-' :: rest => (true, rest)
  | '+' :: rest => (false, rest)
  | t => (false, t)

/-- `scanNumber` and the conversion into an integer of that many bits. -/
def scanNumber (bits : Nat) : Bool × Text → Option (Int × Text)
  | (negative, t) =>
      let digits := t.takeWhile isDigit
      let magnitude : Int := Nat.ofDigitChars 10 digits 0
      let value := if negative then -magnitude else magnitude
      if digits ≠ [] ∧ -2 ^ (bits - 1) ≤ value ∧ value < 2 ^ (bits - 1) then
        some (value, t.dropWhile isDigit)
      else none

def scanInt (bits : Nat) (t : Text) : Option (Int × Text) :=
  ((skipSpace 0 t).map scanSign).bind (scanNumber bits)

def sscanf (bits : Nat) : List Directive → Text → List Int
  | [], _ => []
  | .lit c :: format, t =>
      if t.head? = some c then sscanf bits format t.tail else []
  | .int :: format, t =>
      match scanInt bits t with
      | none => []
      | some (value, rest) => value :: sscanf bits format rest
  | .rune :: format, t =>
      if t = [] then []
      else ((decodeRune t).1 : Int) :: sscanf bits format (t.drop (decodeRune t).2)

theorem sscanf_lits (bits : Nat) (w : Text) (format : List Directive) (t : Text) :
    sscanf bits (w.map .lit ++ format) t =
      if w <+: t then sscanf bits format (t.drop w.length) else [] := by
  induction w generalizing t with
  | nil => simp
  | cons c w ih =>
    rw [List.map_cons, List.cons_append, sscanf]
    cases t with
    | nil => simp
    | cons x t =>
      by_cases hx : x = c
      · simp [hx, ih, List.cons_prefix_cons]
      · simp [hx, Ne.symm hx, List.cons_prefix_cons]

def Blanks (t : Text) : Prop :=
  ∃ parts : List Text, (∀ e ∈ parts, e ∈ spaceEncodings ∧ e ≠ ['\n']) ∧
    t = parts.flatten

theorem spaceEncodings_free :
    ∀ e ∈ spaceEncodings, ∀ e' ∈ spaceEncodings, e.isPrefixOf e' = true → e = e' := by
  decide

theorem find?_spaceEncodings {e : Text} (he : e ∈ spaceEncodings) (rest : Text) :
    spaceEncodings.find? (·.isPrefixOf (e ++ rest)) = some e := by
  obtain ⟨e', hfind⟩ : ∃ e', spaceEncodings.find? (·.isPrefixOf (e ++ rest)) = some e' := by
    refine Option.isSome_iff_exists.mp (List.find?_isSome.mpr ⟨e, he, ?_⟩)
    exact List.isPrefixOf_iff_prefix.mpr (List.prefix_append e rest)
  have hmem := List.mem_of_find?_eq_some hfind
  have hfound : e'.isPrefixOf (e ++ rest) = true := by
    simpa using List.find?_some hfind
  have hinitial : e' <+: e ++ rest := List.isPrefixOf_iff_prefix.mp hfound
  -- No blank starts with another one.
  have hsame : e' = e := by
    rcases List.prefix_or_prefix_of_prefix hinitial (List.prefix_append e rest) with h | h
    · exact spaceEncodings_free e' hmem e he (List.isPrefixOf_iff_prefix.mpr h)
    · exact (spaceEncodings_free e he e' hmem (List.isPrefixOf_iff_prefix.mpr h)).symm
  rw [hfind, hsame]

theorem skipSpace_eq_drop (skip : Nat) (t : Text) :
    skipSpace skip t = skipSpace 0 (t.drop skip) := by
  induction skip generalizing t with
  | zero => rfl
  | succ skip ih =>
    cases t with
    | nil => rfl
    | cons c rest => rw [skipSpace, ih, List.drop_succ_cons]

theorem spaceEncodings_first :
    ∀ e ∈ spaceEncodings, e ≠ [] ∧ (e.head? = some '\n' → e = ['\n']) := by
  decide

theorem skipSpace_blank {e : Text} (he : e ∈ spaceEncodings) (hline : e ≠ ['\n']) (rest : Text) :
    skipSpace 0 (e ++ rest) = skipSpace 0 rest := by
  have hfind := find?_spaceEncodings he rest
  have hfirst := spaceEncodings_first e he
  cases e with
  | nil => exact absurd rfl hfirst.1
  | cons c e =>
    have hc : c ≠ '\n' := fun h => hline (hfirst.2 (by rw [List.head?_cons, h]))
    rw [List.cons_append] at hfind ⊢
    rw [skipSpace, if_neg hc, hfind]
    dsimp only
    rw [skipSpace_eq_drop, List.length_cons, Nat.add_sub_cancel, List.drop_left]

theorem skipSpace_blanks {blanks : Text} (h : Blanks blanks) (rest : Text) :
    skipSpace 0 (blanks ++ rest) = skipSpace 0 rest := by
  obtain ⟨parts, hparts, rfl⟩ := h
  induction parts with
  | nil => rfl
  | cons e parts ih =>
    obtain ⟨he, hline⟩ := hparts e List.mem_cons_self
    rw [List.flatten_cons, List.append_assoc, skipSpace_blank he hline]
    exact ih fun e' he' => hparts e' (List.mem_cons_of_mem _ he')

theorem Blanks.nil : Blanks [] :=
  ⟨[], fun _ he => absurd he List.not_mem_nil, rfl⟩

theorem Blanks.cons {e blanks : Text} (he : e ∈ spaceEncodings) (hline : e ≠ ['\n'])
    (h : Blanks blanks) : Blanks (e ++ blanks) := by
  obtain ⟨parts, hparts, rfl⟩ := h
  refine ⟨e :: parts, fun e' he' => ?_, rfl⟩
  rcases List.mem_cons.mp he' with rfl | he'
  · exact ⟨he, hline⟩
  · exact hparts e' he'

theorem skipSpace_eq_some {t rest : Text} (h : skipSpace 0 t = some rest) :
    ∃ blanks, Blanks blanks ∧ t = blanks ++ rest := by
  induction hlen : t.length using Nat.strong_induction_on generalizing t with
  | _ n ih =>
    cases t with
    | nil =>
      cases h
      exact ⟨[], .nil, rfl⟩
    | cons c tail =>
      cases hfind : spaceEncodings.find? (·.isPrefixOf (c :: tail)) with
      | none =>
        rw [skipSpace, hfind] at h
        split at h
        · cases h
        · cases h
          exact ⟨[], .nil, rfl⟩
      | some e =>
        have he := List.mem_of_find?_eq_some hfind
        have hfound : e.isPrefixOf (c :: tail) = true := by
          simpa using List.find?_some hfind
        obtain ⟨after, hafter⟩ := List.isPrefixOf_iff_prefix.mp hfound
        have hline : e ≠ ['\n'] := by
          rintro rfl
          obtain ⟨rfl, -⟩ := List.cons.inj hafter
          simp [skipSpace] at h
        rw [← hafter, skipSpace_blank he hline] at h
        have hpos := List.length_pos_iff.mpr (spaceEncodings_first e he).1
        have hshort : after.length < n := by
          rw [← hlen, ← hafter, List.length_append]
          omega
        obtain ⟨blanks, hblanks, rfl⟩ := ih after.length hshort h rfl
        refine ⟨e ++ blanks, .cons he hline hblanks, ?_⟩
        rw [← hafter, List.append_assoc]

theorem skipSpace_self {c : Char} (hc : isDigit c = true ∨ c = '+' ∨ c = '-') (rest : Text) :
    skipSpace 0 (c :: rest) = some (c :: rest) := by
  have hfirst : ∀ e ∈ spaceEncodings, ∀ x, e.head? = some x →
      isDigit x = false ∧ x ≠ '+' ∧ x ≠ '-' := by
    intro e he x hx
    have hall : ∀ e ∈ spaceEncodings, e.head?.all
        (fun x => !isDigit x && x != '+' && x != '-') = true := by
      decide
    have h := hall e he
    rw [hx] at h
    simpa [and_assoc] using h
  have hline : c ≠ '\n' := by
    rintro rfl
    revert hc
    decide
  have hnone : spaceEncodings.find? (·.isPrefixOf (c :: rest)) = none := by
    refine List.find?_eq_none.mpr fun e he hinitial => ?_
    cases e with
    | nil => exact (spaceEncodings_first [] he).1 rfl
    | cons x e =>
      obtain ⟨h₁, h₂, h₃⟩ := hfirst _ he x rfl
      rw [(List.cons_prefix_cons.mp (List.isPrefixOf_iff_prefix.mp hinitial)).1] at h₁ h₂ h₃
      rcases hc with hc | hc | hc
      · rw [hc] at h₁
        cases h₁
      · exact h₂ hc
      · exact h₃ hc
  rw [skipSpace, if_neg hline, hnone]

/-- A text that `%d` reads as the number `n`, without a minus sign. -/
def ReadsAs (bits : Nat) (t : Text) (n : Nat) : Prop :=
  ∃ blanks sign digits, t = blanks ++ (sign ++ digits) ∧ Blanks blanks ∧
    (sign = [] ∨ sign = ['+']) ∧ digits ≠ [] ∧ (∀ c ∈ digits, isDigit c = true) ∧
    Nat.ofDigitChars 10 digits 0 = n ∧ n < 2 ^ (bits - 1)

theorem scanSign_eq_false {t rest : Text} (h : scanSign t = (false, rest)) :
    t = rest ∨ t = '+' :: rest := by
  unfold scanSign at h
  split at h
  · cases h
  · cases h
    exact Or.inr rfl
  · cases h
    exact Or.inl rfl

theorem scanSign_digit {c : Char} (hc : isDigit c = true) (rest : Text) :
    scanSign (c :: rest) = (false, c :: rest) := by
  unfold scanSign
  split
  · rename_i heq
    obtain ⟨rfl, -⟩ := List.cons.inj heq
    cases hc
  · rename_i heq
    obtain ⟨rfl, -⟩ := List.cons.inj heq
    cases hc
  · rfl

theorem skipSpace_number {sign digits : Text} (hsign : sign = [] ∨ sign = ['+']) (hne : digits ≠ [])
    (hdigits : ∀ c ∈ digits, isDigit c = true) (rest : Text) :
    (skipSpace 0 (sign ++ digits ++ rest)).map scanSign = some (false, digits ++ rest) := by
  obtain ⟨d, digits, rfl⟩ := List.exists_cons_of_ne_nil hne
  have hd := hdigits d List.mem_cons_self
  rcases hsign with rfl | rfl
  · rw [List.nil_append, List.cons_append, skipSpace_self (.inl hd), Option.map_some,
      scanSign_digit hd]
  · rw [List.append_assoc, List.singleton_append, skipSpace_self (.inr (.inl rfl))]
    rfl

theorem takeWhile_digits {digits rest : Text} (hdigits : ∀ c ∈ digits, isDigit c = true)
    (hrest : rest.head?.all (!isDigit ·) = true) :
    (digits ++ rest).takeWhile isDigit = digits ∧
      (digits ++ rest).dropWhile isDigit = rest := by
  have hstop : rest.takeWhile isDigit = [] ∧ rest.dropWhile isDigit = rest := by
    cases rest with
    | nil => exact ⟨rfl, rfl⟩
    | cons c rest =>
      have hc : isDigit c = false := by simpa using hrest
      simp [hc]
  rw [List.takeWhile_append_of_pos hdigits, List.dropWhile_append_of_pos hdigits, hstop.1,
    hstop.2, List.append_nil]
  exact ⟨rfl, rfl⟩

theorem head_dropWhile (t : Text) : (t.dropWhile isDigit).head?.all (!isDigit ·) = true := by
  induction t with
  | nil => rfl
  | cons c t ih =>
    by_cases hc : isDigit c = true
    · rwa [List.dropWhile_cons, if_pos hc]
    · rw [List.dropWhile_cons, if_neg hc]
      simpa using hc

theorem scanNumber_digits {bits n : Nat} {digits rest : Text} (hne : digits ≠ [])
    (hdigits : ∀ c ∈ digits, isDigit c = true) (hvalue : Nat.ofDigitChars 10 digits 0 = n)
    (hlt : n < 2 ^ (bits - 1)) (hrest : rest.head?.all (!isDigit ·) = true) :
    scanNumber bits (false, digits ++ rest) = some ((n : Int), rest) := by
  obtain ⟨htake, hdrop⟩ := takeWhile_digits hdigits hrest
  have hbound : ((n : Nat) : Int) < 2 ^ (bits - 1) := by exact_mod_cast hlt
  have hlow : -2 ^ (bits - 1) ≤ ((n : Nat) : Int) :=
    le_trans (neg_nonpos.mpr (by positivity)) (Int.natCast_nonneg n)
  unfold scanNumber
  dsimp only
  rw [htake, hdrop, hvalue, if_neg Bool.false_ne_true, if_pos ⟨hne, hlow, hbound⟩]

theorem scanNumber_eq_some_iff {bits n : Nat} (hn : 0 < n) {negative : Bool} {t rest : Text} :
    scanNumber bits (negative, t) = some ((n : Int), rest) ↔
      negative = false ∧ ∃ digits, t = digits ++ rest ∧ digits ≠ [] ∧
        (∀ c ∈ digits, isDigit c = true) ∧ Nat.ofDigitChars 10 digits 0 = n ∧
        n < 2 ^ (bits - 1) ∧ rest.head?.all (!isDigit ·) = true := by
  constructor
  · intro h
    unfold scanNumber at h
    cases negative with
    | true =>
      simp only [if_true] at h
      split at h
      · have hvalue := (Prod.mk.inj (Option.some.inj h)).1
        omega
      · cases h
    | false =>
      simp only [Bool.false_eq_true, if_false] at h
      split at h
      · rename_i hok
        obtain ⟨hvalue, rfl⟩ := Prod.mk.inj (Option.some.inj h)
        have hlt := hok.2.2
        rw [hvalue] at hlt
        exact ⟨rfl, t.takeWhile isDigit, (List.takeWhile_append_dropWhile).symm, hok.1,
          fun c hc => List.mem_takeWhile_imp hc, Int.ofNat.inj hvalue,
          by exact_mod_cast hlt, head_dropWhile t⟩
      · cases h
  · rintro ⟨rfl, digits, rfl, hne, hdigits, hvalue, hlt, hrest⟩
    exact scanNumber_digits hne hdigits hvalue hlt hrest

theorem scanInt_number {bits n : Nat} {number rest : Text} (h : ReadsAs bits number n)
    (hrest : rest.head?.all (!isDigit ·) = true) :
    scanInt bits (number ++ rest) = some ((n : Int), rest) := by
  obtain ⟨blanks, sign, digits, rfl, hblanks, hsign, hne, hdigits, hvalue, hlt⟩ := h
  rw [scanInt, List.append_assoc, skipSpace_blanks hblanks, skipSpace_number hsign hne hdigits,
    Option.bind_some]
  exact scanNumber_digits hne hdigits hvalue hlt hrest

theorem scanInt_eq_some_iff {bits n : Nat} (hn : 0 < n) {t rest : Text} :
    scanInt bits t = some ((n : Int), rest) ↔
      ∃ number, t = number ++ rest ∧ ReadsAs bits number n ∧
        rest.head?.all (!isDigit ·) = true := by
  constructor
  · intro h
    obtain ⟨⟨negative, t₂⟩, hread, hnumber⟩ := Option.bind_eq_some_iff.mp h
    obtain ⟨t₁, hskip, hsign⟩ := Option.map_eq_some_iff.mp hread
    obtain ⟨blanks, hblanks, rfl⟩ := skipSpace_eq_some hskip
    obtain ⟨rfl, digits, rfl, hne, hdigits, hvalue, hlt, hrest⟩ :=
      (scanNumber_eq_some_iff hn).mp hnumber
    rcases scanSign_eq_false hsign with rfl | rfl
    · exact ⟨blanks ++ ([] ++ digits), by simp,
        ⟨blanks, [], digits, rfl, hblanks, .inl rfl, hne, hdigits, hvalue, hlt⟩, hrest⟩
    · exact ⟨blanks ++ (['+'] ++ digits), by simp,
        ⟨blanks, ['+'], digits, rfl, hblanks, .inr rfl, hne, hdigits, hvalue, hlt⟩, hrest⟩
  · rintro ⟨number, rfl, hreads, hrest⟩
    exact scanInt_number hreads hrest

end Runc.Lib
