import Mathlib.Algebra.Group.Nat.Defs
import Runc.Lib.Text

/-!
# UTF-8 in byte strings

The runes of a byte string, as a Go program sees them when it ranges over the
string, `strings.Map` and `strconv.Quote`.  The Unicode tables are a parameter of
which only the ASCII part is fixed.
-/

namespace Runc.Lib

structure Unicode where
  /-- `unicode.IsLetter`. -/
  isLetter : Nat → Bool
  /-- `unicode.IsDigit`. -/
  isDigit : Nat → Bool
  /-- `strconv.IsPrint`. -/
  isPrint : Nat → Bool
  isLetter_ascii : ∀ c : Char, c.toNat < 0x80 →
    isLetter c.toNat = (isLower c || isUpper c)
  isDigit_ascii : ∀ c : Char, c.toNat < 0x80 →
    isDigit c.toNat = Lib.isDigit c
  isPrint_ascii : ∀ n, n < 0x80 →
    isPrint n = decide (0x20 ≤ n ∧ n < 0x7f)

def Unicode.ascii : Unicode where
  isLetter n := isLower (Char.ofNat n) || isUpper (Char.ofNat n)
  isDigit n := Lib.isDigit (Char.ofNat n)
  isPrint n := 0x20 ≤ n ∧ n < 0x7f
  isLetter_ascii c _ := by rw [Char.ofNat_toNat]
  isDigit_ascii c _ := by rw [Char.ofNat_toNat]
  isPrint_ascii _ _ := rfl

section Decode

def runeError : Nat :=
  0xFFFD

def leadByte (b : Nat) : Option (Nat × Nat × Nat) :=
  if 0xC2 ≤ b ∧ b ≤ 0xDF then some (2, 0x80, 0xBF)
  else if b = 0xE0 then some (3, 0xA0, 0xBF)
  else if b = 0xED then some (3, 0x80, 0x9F)
  else if 0xE1 ≤ b ∧ b ≤ 0xEF then some (3, 0x80, 0xBF)
  else if b = 0xF0 then some (4, 0x90, 0xBF)
  else if 0xF1 ≤ b ∧ b ≤ 0xF3 then some (4, 0x80, 0xBF)
  else if b = 0xF4 then some (4, 0x80, 0x8F)
  else none

def byteIn (low high : Nat) (c : Char) : Bool :=
  low ≤ c.toNat && c.toNat ≤ high

/-- The first rune and the number of bytes it takes. -/
def decodeRune : Text → Nat × Nat
  | [] => (runeError, 0)
  | b :: rest =>
      if b.toNat < 0x80 then (b.toNat, 1)
      else
        match leadByte b.toNat with
        | none => (runeError, 1)
        | some (width, low, high) =>
            let tail := rest.take (width - 1)
            if tail.length = width - 1 ∧ tail.head?.all (byteIn low high) ∧
                tail.all (byteIn 0x80 0xBF) then
              (tail.foldl (fun r c => r * 64 + (c.toNat - 0x80))
                (b.toNat % 2 ^ (7 - width)), width)
            else (runeError, 1)

def runesFrom : Nat → Text → List (Nat × Text)
  | _, [] => []
  | skip + 1, _ :: rest => runesFrom skip rest
  | 0, c :: rest =>
      ((decodeRune (c :: rest)).1,
        (c :: rest).take (decodeRune (c :: rest)).2) ::
        runesFrom ((decodeRune (c :: rest)).2 - 1) rest

def runes (t : Text) : List (Nat × Text) :=
  runesFrom 0 t

variable {c : Char}

theorem decodeRune_ascii {rest : Text} (hc : c.toNat < 0x80) :
    decodeRune (c :: rest) = (c.toNat, 1) := by
  simp [decodeRune, hc]

theorem decodeRune_high {x : Char} {rest : Text} (hc : ¬ c.toNat < 0x80)
    (hx : x ∈ (c :: rest).take (decodeRune (c :: rest)).2) : ¬ x.toNat < 0x80 := by
  have hone : x ∈ (c :: rest).take 1 → ¬ x.toNat < 0x80 := by
    intro h
    rw [show (c :: rest).take 1 = [c] from rfl, List.mem_singleton] at h
    rw [h]
    exact hc
  rw [decodeRune, if_neg hc] at hx
  split at hx
  · exact hone hx
  · rename_i width low high _
    dsimp only at hx
    split at hx
    · rename_i hok
      cases width with
      | zero => simp at hx
      | succ n =>
        rw [List.take_succ_cons, List.mem_cons] at hx
        rcases hx with rfl | hx
        · exact hc
        · have hbyte := List.all_eq_true.mp hok.2.2 x hx
          simp only [byteIn, Bool.and_eq_true, decide_eq_true_eq] at hbyte
          omega
    · exact hone hx

variable {t : Text}

theorem runesFrom_cases {skip : Nat} {r : Nat} {bytes : Text} (h : (r, bytes) ∈ runesFrom skip t) :
    (∃ c ∈ t, c.toNat < 0x80 ∧ r = c.toNat ∧ bytes = [c]) ∨
      ((∀ x ∈ bytes, ¬ x.toNat < 0x80) ∧ ∀ x ∈ bytes, x ∈ t) := by
  induction t generalizing skip with
  | nil => cases skip <;> simp [runesFrom] at h
  | cons c rest ih =>
    have hlater : ∀ skip, (r, bytes) ∈ runesFrom skip rest →
        (∃ x ∈ c :: rest, x.toNat < 0x80 ∧ r = x.toNat ∧ bytes = [x]) ∨
          ((∀ x ∈ bytes, ¬ x.toNat < 0x80) ∧
            ∀ x ∈ bytes, x ∈ c :: rest) := by
      intro skip hmem
      rcases ih hmem with ⟨x, hx, hrest⟩ | ⟨hhigh, hsub⟩
      · exact Or.inl ⟨x, List.mem_cons_of_mem _ hx, hrest⟩
      · exact Or.inr ⟨hhigh, fun x hx => List.mem_cons_of_mem _ (hsub x hx)⟩
    cases skip with
    | succ n => exact hlater n h
    | zero =>
      rw [runesFrom, List.mem_cons] at h
      rcases h with h | h
      · obtain ⟨rfl, rfl⟩ := Prod.mk.inj h
        by_cases hc : c.toNat < 0x80
        · refine Or.inl ⟨c, List.mem_cons_self, hc, ?_⟩
          simp [decodeRune_ascii hc]
        · exact Or.inr ⟨fun x hx => decodeRune_high hc hx, fun x hx => List.mem_of_mem_take hx⟩
      · exact hlater _ h

theorem runes_cases {r : Nat} {bytes : Text} (h : (r, bytes) ∈ runes t) :
    (∃ c ∈ t, c.toNat < 0x80 ∧ r = c.toNat ∧ bytes = [c]) ∨
      ((∀ x ∈ bytes, ¬ x.toNat < 0x80) ∧ ∀ x ∈ bytes, x ∈ t) :=
  runesFrom_cases h

theorem runesFrom_eq_drop (skip : Nat) (t : Text) : runesFrom skip t = runes (t.drop skip) := by
  induction skip generalizing t with
  | zero => rfl
  | succ skip ih =>
    cases t with
    | nil => rfl
    | cons c rest => rw [runesFrom, ih, List.drop_succ_cons]

theorem leadByte_cases {b width low high : Nat} (h : leadByte b = some (width, low, high)) :
    (width = 2 ∧ 0xC2 ≤ b ∧ b ≤ 0xDF) ∨
      (width = 3 ∧ (b = 0xE0 ∧ low = 0xA0 ∨ 0xE1 ≤ b ∧ b ≤ 0xEF)) ∨
      (width = 4 ∧ (b = 0xF0 ∧ low = 0x90 ∨ 0xF1 ≤ b ∧ b ≤ 0xF4)) := by
  unfold leadByte at h
  split_ifs at h <;> simp only [Option.some.injEq, Prod.mk.injEq] at h <;> omega

theorem leadByte_width {b width low high : Nat} (h : leadByte b = some (width, low, high)) :
    2 ≤ width := by
  have hcases := leadByte_cases h
  omega

theorem decodeRune_width (c : Char) (rest : Text) : 1 ≤ (decodeRune (c :: rest)).2 := by
  rw [decodeRune]
  split_ifs
  · exact Nat.le_refl 1
  · split
    · exact Nat.le_refl 1
    · rename_i hlead
      have hwidth := leadByte_width hlead
      dsimp only
      split_ifs
      · exact Nat.le_of_succ_le hwidth
      · exact Nat.le_refl 1

theorem runes_cons_ascii (hc : c.toNat < 0x80) (rest : Text) :
    runes (c :: rest) = (c.toNat, [c]) :: runes rest := by
  rw [runes, runesFrom, decodeRune_ascii hc]
  rfl

theorem runes_cons_high (hc : ¬ c.toNat < 0x80) (rest : Text) :
    ∃ r bytes tail, c :: rest = bytes ++ tail ∧ bytes ≠ [] ∧
      (∀ x ∈ bytes, ¬ x.toNat < 0x80) ∧
      runes (c :: rest) = (r, bytes) :: runes tail := by
  have hwidth := decodeRune_width c rest
  obtain ⟨n, hn⟩ : ∃ n, (decodeRune (c :: rest)).2 = n + 1 := ⟨_, (Nat.sub_add_cancel hwidth).symm⟩
  refine ⟨(decodeRune (c :: rest)).1, (c :: rest).take (n + 1), rest.drop n, ?_, by simp,
    fun x hx => decodeRune_high hc (by rwa [hn]), ?_⟩
  · rw [← List.drop_succ_cons (a := c), List.take_append_drop]
  · rw [runes, runesFrom, hn, runesFrom_eq_drop, Nat.add_sub_cancel]

theorem le_foldl_rune (r : Nat) (tail : Text) :
    r * 64 ^ tail.length ≤
      tail.foldl (fun r c => r * 64 + (c.toNat - 0x80)) r := by
  induction tail generalizing r with
  | nil => simp
  | cons c tail ih =>
    rw [List.length_cons, List.foldl_cons, Nat.pow_succ', ← Nat.mul_assoc]
    refine Nat.le_trans ?_ (ih _)
    exact Nat.mul_le_mul_right _ (Nat.le_add_right _ _)

theorem decodeRune_multi (hc : ¬ c.toNat < 0x80) (rest : Text) :
    decodeRune (c :: rest) = (runeError, 1) ∨
      (2 ≤ (decodeRune (c :: rest)).2 ∧
        (decodeRune (c :: rest)).2 ≤ (c :: rest).length ∧
        0x80 ≤ (decodeRune (c :: rest)).1) := by
  rw [decodeRune, if_neg hc]
  split
  · exact Or.inl rfl
  · rename_i width low high hlead
    have hcases := leadByte_cases hlead
    dsimp only
    split
    · rename_i hok
      obtain ⟨hlen, hsecond, -⟩ := hok
      obtain ⟨x, more, htail⟩ := List.exists_cons_of_length_eq_add_one
        (show (rest.take (width - 1)).length = width - 2 + 1 by omega)
      rw [htail] at hlen hsecond ⊢
      have hx : low ≤ x.toNat := by
        simp only [List.head?_cons, Option.all_some, byteIn, Bool.and_eq_true,
          decide_eq_true_eq] at hsecond
        exact hsecond.1
      have hfit : (rest.take (width - 1)).length ≤ rest.length := List.length_take_le' _ _
      have hshift := le_foldl_rune (c.toNat % 2 ^ (7 - width) * 64 + (x.toNat - 0x80)) more
      rw [htail, List.length_cons] at hfit
      rw [List.length_cons] at hlen
      refine Or.inr ⟨by omega, by rw [List.length_cons]; omega, ?_⟩
      rw [List.foldl_cons]
      refine Nat.le_trans ?_ hshift
      rcases hcases with ⟨rfl, hb⟩ | ⟨rfl, hb⟩ | ⟨rfl, hb⟩
      · rw [show more.length = 0 by omega]
        omega
      · rw [show more.length = 1 by omega]
        omega
      · rw [show more.length = 2 by omega]
        omega
    · exact Or.inl rfl

theorem mem_runesFrom {skip : Nat} {x : Nat × Text} (hx : x ∈ runesFrom skip t) :
    ∃ c rest, x = ((decodeRune (c :: rest)).1,
      (c :: rest).take (decodeRune (c :: rest)).2) := by
  induction t generalizing skip with
  | nil => cases skip <;> cases hx
  | cons c rest ih =>
    cases skip with
    | succ n => exact ih hx
    | zero =>
      rcases List.mem_cons.mp hx with rfl | hx
      · exact ⟨c, rest, rfl⟩
      · exact ih hx

theorem runes_kinds {x : Nat × Text} (hx : x ∈ runes t) :
    (∃ c : Char, c.toNat < 0x80 ∧ x = (c.toNat, [c])) ∨
      (∃ c : Char, ¬ c.toNat < 0x80 ∧ x = (runeError, [c])) ∨
      (0x80 ≤ x.1 ∧ 2 ≤ x.2.length ∧ ∀ c ∈ x.2, ¬ c.toNat < 0x80) := by
  obtain ⟨c, rest, rfl⟩ := mem_runesFrom hx
  by_cases hc : c.toNat < 0x80
  · refine Or.inl ⟨c, hc, ?_⟩
    rw [decodeRune_ascii hc]
    rfl
  · right
    rcases decodeRune_multi hc rest with herror | ⟨htwo, hfit, hrune⟩
    · refine Or.inl ⟨c, hc, ?_⟩
      rw [herror]
      rfl
    · refine Or.inr ⟨hrune, ?_, fun x hx => decodeRune_high hc hx⟩
      rw [List.length_take, Nat.min_eq_left hfit]
      exact htwo

theorem runes_induction {P : Text → Prop} (nil : P [])
    (ascii : ∀ c rest, c.toNat < 0x80 → P rest → P (c :: rest))
    (high : ∀ r bytes tail, bytes ≠ [] → (∀ x ∈ bytes, ¬ x.toNat < 0x80) →
      runes (bytes ++ tail) = (r, bytes) :: runes tail → P tail → P (bytes ++ tail)) (t : Text) :
    P t := by
  induction hlen : t.length using Nat.strong_induction_on generalizing t with
  | _ n ih =>
    cases t with
    | nil => exact nil
    | cons c rest =>
      subst hlen
      by_cases hc : c.toNat < 0x80
      · exact ascii c rest hc (ih rest.length (by simp) rest rfl)
      · obtain ⟨r, bytes, tail, heq, hne, hhigh, hrunes⟩ := runes_cons_high hc rest
        rw [heq] at hrunes ih ⊢
        have hpos := List.length_pos_iff.mpr hne
        refine high r bytes tail hne hhigh hrunes (ih tail.length ?_ tail rfl)
        rw [List.length_append]
        omega

theorem flatMap_runes (t : Text) : (runes t).flatMap Prod.snd = t := by
  induction t using runes_induction with
  | nil => rfl
  | ascii c rest hc ih =>
    rw [runes_cons_ascii hc, List.flatMap_cons, ih]
    rfl
  | high r bytes tail hne hhigh hrunes ih => rw [hrunes, List.flatMap_cons, ih]

end Decode

section Map

def runeErrorBytes : Text :=
  [Char.ofNat 0xEF, Char.ofNat 0xBF, Char.ofNat 0xBD]

def invalidRune : Nat × Text → Bool
  | (_, [c]) => decide (0x80 ≤ c.toNat)
  | _ => false

/-- `utf8.ValidString`. -/
def ValidUtf8 (t : Text) : Prop :=
  ∀ x ∈ runes t, invalidRune x = false

instance (t : Text) : Decidable (ValidUtf8 t) :=
  inferInstanceAs (Decidable (∀ x ∈ runes t, invalidRune x = false))

def mapRune (f : Char → Char) (x : Nat × Text) : Text :=
  if invalidRune x then runeErrorBytes
  else x.2.map fun c => if c.toNat < 0x80 then f c else c

/-- `strings.Map` for a mapping that changes ASCII runes only, and into ASCII
runes. -/
def mapAscii (f : Char → Char) (t : Text) : Text :=
  (runes t).flatMap (mapRune f)

variable {f : Char → Char}

@[simp]
theorem mapAscii_nil : mapAscii f [] = [] :=
  rfl

theorem mapAscii_cons_ascii {c : Char} (hc : c.toNat < 0x80) (rest : Text) :
    mapAscii f (c :: rest) = f c :: mapAscii f rest := by
  rw [mapAscii, runes_cons_ascii hc, List.flatMap_cons, mapRune]
  simp [invalidRune, hc, Nat.not_le.mpr hc, mapAscii]

theorem mapRune_high {bytes : Text} (h : ∀ x ∈ bytes, ¬ x.toNat < 0x80) (r : Nat) :
    mapRune f (r, bytes) =
      if invalidRune (r, bytes) then runeErrorBytes else bytes := by
  have hmap : bytes.map (fun c => if c.toNat < 0x80 then f c else c) = bytes :=
    (List.map_congr_left fun c hc => if_neg (h c hc)).trans (List.map_id bytes)
  rw [mapRune, hmap]

variable {t : Text}

theorem mapAscii_eq_nil (h : mapAscii f t = []) : t = [] := by
  induction t using runes_induction with
  | nil => rfl
  | ascii c rest hc ih =>
    rw [mapAscii_cons_ascii hc] at h
    cases h
  | high r bytes tail hne hhigh hrunes ih =>
    rw [mapAscii, hrunes, List.flatMap_cons, mapRune_high hhigh] at h
    have hhead := (List.append_eq_nil_iff.mp h).1
    split at hhead
    · cases hhead
    · exact absurd hhead hne

theorem mapAscii_of_valid (h : ValidUtf8 t) :
    mapAscii f t = t.map fun c => if c.toNat < 0x80 then f c else c := by
  induction t using runes_induction with
  | nil => rfl
  | ascii c rest hc ih =>
    have hrest : ValidUtf8 rest := fun x hx =>
      h x (by rw [runes_cons_ascii hc]; exact List.mem_cons_of_mem _ hx)
    rw [mapAscii_cons_ascii hc, ih hrest, List.map_cons, if_pos hc]
  | high r bytes tail hne hhigh hrunes ih =>
    have hhead : invalidRune (r, bytes) = false := h _ (by rw [hrunes]; exact List.mem_cons_self)
    have htail : ValidUtf8 tail := fun x hx =>
      h x (by rw [hrunes]; exact List.mem_cons_of_mem _ hx)
    rw [mapAscii, hrunes, List.flatMap_cons, List.map_append, ← ih htail, mapRune, hhead]
    rfl

theorem countP_mapAscii {p : Char → Bool} (hascii : ∀ c : Char, c.toNat < 0x80 → p (f c) = p c)
    (hhigh : ∀ c : Char, ¬ c.toNat < 0x80 → p c = true) (t : Text) :
    (mapAscii f t).countP p = t.countP p + 2 * (runes t).countP invalidRune := by
  induction t using runes_induction with
  | nil => rfl
  | ascii c rest hc ih =>
    rw [mapAscii_cons_ascii hc, runes_cons_ascii hc, List.countP_cons,
      List.countP_cons, List.countP_cons, ih, hascii c hc]
    have hvalid : invalidRune (c.toNat, [c]) = false := by
      simp [invalidRune, hc]
    rw [hvalid]
    simp only [Bool.false_eq_true, if_false]
    omega
  | high r bytes tail hne hbytes hrunes ih =>
    rw [mapAscii, hrunes, List.flatMap_cons, ← mapAscii, List.countP_append,
      List.countP_append, List.countP_cons, ih, mapRune_high hbytes]
    cases hinvalid : invalidRune (r, bytes) with
    | false =>
      simp only [Bool.false_eq_true, if_false]
      omega
    | true =>
      have hone : bytes.length = 1 := by
        unfold invalidRune at hinvalid
        split at hinvalid
        · rename_i heq
          obtain ⟨-, rfl⟩ := Prod.mk.inj heq
          rfl
        · cases hinvalid
      have hcount : bytes.countP p = bytes.length :=
        List.countP_eq_length.mpr fun c hc => hhigh c (hbytes c hc)
      have herror : runeErrorBytes.countP p = 3 := by
        refine List.countP_eq_length.mpr fun c hc => hhigh c ?_
        rw [runeErrorBytes, List.mem_cons, List.mem_cons, List.mem_singleton] at hc
        rcases hc with rfl | rfl | rfl <;> decide
      rw [hcount, hone, if_pos rfl, if_pos rfl, herror]
      omega

theorem mapAscii_initial {w : Text} (hw : ∀ c ∈ w, c.toNat < 0x80) (h : w <+: mapAscii f t) :
    ∃ v rest, t = v ++ rest ∧ v.map f = w ∧ mapAscii f t = w ++ mapAscii f rest := by
  induction w generalizing t with
  | nil => exact ⟨[], t, rfl, rfl, rfl⟩
  | cons x w ih =>
    have hx := hw x List.mem_cons_self
    cases t with
    | nil => exact absurd h (by simp)
    | cons c rest =>
      by_cases hc : c.toNat < 0x80
      · rw [mapAscii_cons_ascii hc, List.cons_prefix_cons] at h
        obtain ⟨v, tail, rfl, rfl, heq⟩ := ih (fun y hy => hw y (List.mem_cons_of_mem _ hy)) h.2
        refine ⟨c :: v, tail, rfl, by rw [List.map_cons, h.1], ?_⟩
        rw [mapAscii_cons_ascii hc, heq, h.1]
        rfl
      -- Any other rune starts with a byte that is not ASCII.
      · exfalso
        obtain ⟨r, bytes, tail, heq, hne, hhigh, hrunes⟩ := runes_cons_high hc rest
        rw [mapAscii, hrunes, List.flatMap_cons, mapRune_high hhigh] at h
        split at h
        · exact absurd hx ((List.cons_prefix_cons.mp h).1 ▸ by decide)
        · obtain ⟨b, bytes, rfl⟩ := List.exists_cons_of_ne_nil hne
          exact hhigh x ((List.cons_prefix_cons.mp h).1 ▸ List.mem_cons_self) hx

end Map

section Quote

def hexDigit (n : Nat) : Char :=
  if n % 16 < 10 then Char.ofNat (0x30 + n % 16)
  else Char.ofNat (0x57 + n % 16)

def hex : Nat → Nat → Text
  | 0, _ => []
  | digits + 1, n => hex digits (n / 16) ++ [hexDigit n]

def escapeLetter (r : Nat) : Option Char :=
  [(0x07, 'a'), (0x08, 'b'), (0x0c, 'f'), (0x0a, 'n'), (0x0d, 'r'),
    (0x09, 't'), (0x0b, 'v')].lookup r

def escapeHex (r : Nat) : Text :=
  if r < 0x20 ∨ r = 0x7f then 'x' :: hex 2 r
  else if r < 0x10000 then 'u' :: hex 4 r
  else 'U' :: hex 8 r

/-- `appendEscapedRune` for a double-quoted string. -/
def escapeRune (unicode : Unicode) (r : Nat) (bytes : Text) : Text :=
  if r = 0x22 ∨ r = 0x5c then '\\' :: bytes
  else if unicode.isPrint r then bytes
  else
    match escapeLetter r with
    | some letter => ['\\', letter]
    | none => '\\' :: escapeHex r

def quoteRune (unicode : Unicode) : Nat × Text → Text
  | (r, [b]) =>
      if r = runeError then "\\x".toList ++ hex 2 b.toNat
      else escapeRune unicode r [b]
  | (r, bytes) => escapeRune unicode r bytes

def quote (unicode : Unicode) (t : Text) : Text :=
  '"' :: ((runes t).flatMap (quoteRune unicode) ++ ['"'])

variable {c : Char}

theorem mem_hex {digits n : Nat} (hc : c ∈ hex digits n) : ∃ k : Fin 16, c = hexDigit k := by
  induction digits generalizing n with
  | zero => simp [hex] at hc
  | succ digits ih =>
    rw [hex, List.mem_append, List.mem_singleton] at hc
    rcases hc with hc | rfl
    · exact ih hc
    · refine ⟨⟨n % 16, Nat.mod_lt _ (by decide)⟩, ?_⟩
      simp [hexDigit]

theorem hex_not_space {digits n : Nat} (hc : c ∈ hex digits n) : isSpace c = false := by
  have hdigit : ∀ k : Fin 16, isSpace (hexDigit k) = false := by decide
  obtain ⟨k, rfl⟩ := mem_hex hc
  exact hdigit k

variable {r : Nat}

theorem escapeLetter_cases {letter : Char} (h : escapeLetter r = some letter) :
    (r, letter) ∈ [(0x07, 'a'), (0x08, 'b'), (0x0c, 'f'), (0x0a, 'n'),
      (0x0d, 'r'), (0x09, 't'), (0x0b, 'v')] := by
  obtain ⟨before, after, hsplit, -⟩ := List.lookup_eq_some_iff.mp h
  rw [hsplit]
  exact List.mem_append_right before List.mem_cons_self

theorem escapeLetter_not_space {letter : Char} (h : escapeLetter r = some letter) :
    isSpace letter = false := by
  have hmem := escapeLetter_cases h
  simp only [List.mem_cons, Prod.mk.injEq, List.not_mem_nil, or_false] at hmem
  rcases hmem with h | h | h | h | h | h | h <;> rw [h.2] <;> rfl

theorem escapeHex_not_space (hc : c ∈ escapeHex r) : isSpace c = false := by
  unfold escapeHex at hc
  split_ifs at hc <;>
  · rcases List.mem_cons.mp hc with rfl | hc
    · rfl
    · exact hex_not_space hc

variable {unicode : Unicode}

theorem escapeRune_not_space {bytes : Text}
    (hbytes : ∀ c ∈ bytes, isSpace c = false) (hc : c ∈ escapeRune unicode r bytes) :
    isSpace c = false := by
  unfold escapeRune at hc
  split_ifs at hc
  · rcases List.mem_cons.mp hc with rfl | hc
    · rfl
    · exact hbytes c hc
  · exact hbytes c hc
  · cases hletter : escapeLetter r with
    | some letter =>
      rw [hletter] at hc
      simp only [List.mem_cons, List.not_mem_nil, or_false] at hc
      rcases hc with rfl | rfl
      · rfl
      · exact escapeLetter_not_space hletter
    | none =>
      rw [hletter] at hc
      rcases List.mem_cons.mp hc with rfl | hc
      · rfl
      · exact escapeHex_not_space hc

theorem quote_not_space {t : Text} (ht : ∀ c ∈ t, isSpace c = false) (hc : c ∈ quote unicode t) :
    isSpace c = false := by
  simp only [quote, List.mem_cons, List.mem_append, List.mem_flatMap,
    List.not_mem_nil, or_false] at hc
  rcases hc with rfl | ⟨⟨r, bytes⟩, hrune, hc⟩ | rfl
  · rfl
  · have hbytes : ∀ x ∈ bytes, isSpace x = false := by
      rcases runes_cases hrune with ⟨x, hx, _, _, rfl⟩ | ⟨_, hsub⟩
      · intro y hy
        rw [List.mem_singleton.mp hy]
        exact ht x hx
      · exact fun x hx => ht x (hsub x hx)
    unfold quoteRune at hc
    split at hc
    · rename_i r' b heq
      obtain ⟨rfl, rfl⟩ := Prod.mk.inj heq
      split at hc
      · rw [List.mem_append] at hc
        rcases hc with hc | hc
        · rcases List.mem_pair.mp hc with rfl | rfl <;> rfl
        · exact hex_not_space hc
      · exact escapeRune_not_space hbytes hc
    · rename_i r' bytes' _ heq
      obtain ⟨rfl, rfl⟩ := Prod.mk.inj heq
      exact escapeRune_not_space hbytes hc
  · rfl

theorem quoteRune_cases (unicode : Unicode) (x : Nat × Text) :
    quoteRune unicode x = x.2 ∨ ∃ rest, quoteRune unicode x = '\\' :: rest := by
  have hescape : ∀ r bytes, escapeRune unicode r bytes = bytes ∨
      ∃ rest, escapeRune unicode r bytes = '\\' :: rest := by
    intro r bytes
    unfold escapeRune
    split_ifs
    · exact Or.inr ⟨_, rfl⟩
    · exact Or.inl rfl
    · split
      · exact Or.inr ⟨_, rfl⟩
      · exact Or.inr ⟨_, rfl⟩
  unfold quoteRune
  split
  · split_ifs
    · exact Or.inr ⟨_, rfl⟩
    · exact hescape _ _
  · exact hescape _ _

theorem quoteRune_ascii (hc : c.toNat < 0x80) (unicode : Unicode) :
    quoteRune unicode (c.toNat, [c]) = escapeRune unicode c.toNat [c] := by
  rw [quoteRune, if_neg]
  unfold runeError
  omega

theorem quoteRune_slash (unicode : Unicode) : quoteRune unicode ('/'.toNat, ['/']) = ['/'] := by
  have hprint : unicode.isPrint '/'.toNat = true := unicode.isPrint_ascii _ (by decide)
  rw [quoteRune_ascii (by decide), escapeRune, if_neg (by decide), if_pos hprint]

theorem quote_slash_iff {t : Text} :
    (∃ rest, quote unicode t = '"' :: '/' :: rest) ↔ t.head? = some '/' := by
  cases t with
  | nil => simp [quote, runes, runesFrom]
  | cons c rest =>
    -- the first rune is that of `c`
    obtain ⟨r, bytes, tail, hrunes, hhead⟩ : ∃ r bytes tail,
        runes (c :: rest) = (r, c :: bytes) :: runes tail ∧
          (c = '/' → quoteRune unicode (r, c :: bytes) = ['/']) := by
      by_cases hc : c.toNat < 0x80
      · refine ⟨_, _, _, runes_cons_ascii hc rest, ?_⟩
        rintro rfl
        exact quoteRune_slash unicode
      · obtain ⟨r, bytes, tail, heq, hne, -, hrunes⟩ := runes_cons_high hc rest
        obtain ⟨b, bytes, rfl⟩ := List.exists_cons_of_ne_nil hne
        obtain ⟨rfl, -⟩ := List.cons.inj heq
        refine ⟨_, _, _, hrunes, ?_⟩
        rintro rfl
        exact absurd (by decide) hc
    rw [quote, hrunes, List.flatMap_cons, List.head?_cons, Option.some.injEq]
    constructor
    · rintro ⟨rest', heq⟩
      have htail := (List.cons.inj heq).2
      rcases quoteRune_cases unicode (r, c :: bytes) with hsame | ⟨more, hback⟩
      · rw [hsame] at htail
        exact (List.cons.inj htail).1
      · rw [hback] at htail
        exact absurd (List.cons.inj htail).1 (by decide)
    · intro hc
      rw [hhead hc]
      exact ⟨_, rfl⟩

end Quote

end Runc.Lib
