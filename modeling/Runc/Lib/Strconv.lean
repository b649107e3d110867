import Runc.Lib.Utf8

/-!
# Unsigned decimal numbers

`parseUint` reads a number digit by digit and stops at the first byte that is no digit,
or as soon as the number is too large.
-/

namespace Runc.Lib

inductive NumError
  | errSyntax
  | errRange
deriving DecidableEq

def NumError.error : NumError → Text
  | .errSyntax => "invalid syntax".toList
  | .errRange => "value out of range".toList

def NumError.parseUint (unicode : Unicode) (t : Text) (err : NumError) : Text :=
  "strconv.ParseUint: parsing ".toList ++ quote unicode t ++ ": ".toList ++ err.error

def NumError.value (bits : Nat) : NumError → Nat
  | .errSyntax => 0
  | .errRange => 2 ^ bits - 1

def parseUintFrom (bits n : Nat) : Text → Except NumError Nat
  | [] => .ok n
  | c :: t =>
      if isDigit c = false then .error .errSyntax
      else
        let n1 := 10 * n + (c.toNat - '0'.toNat)
        if n1 < 2 ^ bits then parseUintFrom bits n1 t else .error .errRange

def parseUint (bits : Nat) : Text → Except NumError Nat
  | [] => .error .errSyntax
  | c :: t => parseUintFrom bits 0 (c :: t)

def atoiValue (bits : Nat) (t : Text) : Int :=
  let (neg, digits) :=
    match t with
    | '-' :: rest => (true, rest)
    | '+' :: rest => (false, rest)
    | rest => (false, rest)
  let un :=
    match parseUint bits digits with
    | .ok n => n
    | .error err => err.value bits
  let cutoff := 2 ^ (bits - 1)
  if neg then -(min un cutoff : Nat) else (min un (cutoff - 1) : Nat)

theorem le_ofDigitChars (t : Text) (n : Nat) : n ≤ Nat.ofDigitChars 10 t n := by
  induction t generalizing n with
  | nil => exact Nat.le_refl n
  | cons c t ih =>
    rw [Nat.ofDigitChars_cons]
    exact Nat.le_trans (by omega) (ih _)

theorem parseUintFrom_eq_ok_iff {bits n m : Nat} {t : Text} (hn : n < 2 ^ bits) :
    parseUintFrom bits n t = .ok m ↔
      (∀ c ∈ t, isDigit c = true) ∧ m = Nat.ofDigitChars 10 t n ∧ m < 2 ^ bits := by
  induction t generalizing n with
  | nil =>
    rw [parseUintFrom, Except.ok.injEq, Nat.ofDigitChars_nil]
    constructor
    · rintro rfl
      exact ⟨nofun, rfl, hn⟩
    · exact fun h => h.2.1.symm
  | cons c t ih =>
    rw [parseUintFrom, List.forall_mem_cons, Nat.ofDigitChars_cons]
    by_cases hc : isDigit c = true
    · rw [if_neg (by simp [hc])]
      by_cases hfit : 10 * n + (c.toNat - '0'.toNat) < 2 ^ bits
      · rw [if_pos hfit, ih hfit]
        simp only [hc, true_and]
      · rw [if_neg hfit]
        constructor
        · nofun
        · rintro ⟨-, rfl, hlt⟩
          -- the number only grows
          exact absurd (Nat.lt_of_le_of_lt (le_ofDigitChars t _) hlt) hfit
    · rw [if_pos (by simpa using hc)]
      simp only [hc, false_and, reduceCtorEq]

theorem parseUint_eq_ok_iff {bits m : Nat} {t : Text} :
    parseUint bits t = .ok m ↔
      t ≠ [] ∧ (∀ c ∈ t, isDigit c = true) ∧
        m = Nat.ofDigitChars 10 t 0 ∧ m < 2 ^ bits := by
  cases t with
  | nil => simp [parseUint]
  | cons c t =>
    rw [parseUint, parseUintFrom_eq_ok_iff (Nat.two_pow_pos bits)]
    exact ⟨fun h => ⟨List.cons_ne_nil c t, h⟩, fun h => h.2⟩

theorem parseUint_toDigits {bits n : Nat} (hn : n < 2 ^ bits) :
    parseUint bits (Nat.toDigits 10 n) = .ok n :=
  parseUint_eq_ok_iff.mpr ⟨Nat.toDigits_ne_nil, fun _ hc => isDigit_of_mem_toDigits hc,
    (Nat.ofDigitChars_toDigits (by omega) (by omega)).symm, hn⟩

end Runc.Lib
