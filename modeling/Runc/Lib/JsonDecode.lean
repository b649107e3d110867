import Runc.Lib.Json

/-!
# Decoding JSON into Go values

The members of an object are stored one after the other in the fields of a structure. A
member belongs to a field if the names are the same up to case.
-/

namespace Runc.Lib

def foldName : Text → Text
  | '\u00c5' :: '\u00bf' :: rest => 'S' :: foldName rest
  | '\u00e2' :: '\u0084' :: '\u00aa' :: rest => 'K' :: foldName rest
  | c :: rest => c.toUpper :: foldName rest
  | [] => []

def Members.decode {σ : Type} (store : σ → Text → Json → Option σ) : Members → σ → Option σ
  | .nil, fields => some fields
  | .cons key v rest, fields => (store fields key v).bind (rest.decode store)

def Json.decode {σ : Type} (store : σ → Text → Json → Option σ) (fields : σ) : Json → Option σ
  | .obj members => members.decode store fields
  | .null => some fields
  | .bool _ | .num _ | .str _ | .arr _ => none

def readDigits (limit : Nat) (t : Text) : Option Int :=
  let n := Nat.ofDigitChars 10 t 0
  if t ≠ [] ∧ t.all isDigit = true ∧ n < limit then some n else none

/-- `strconv.ParseInt` of a JSON number, for base 10 and 64 bits. -/
def readInt : Text → Option Int
  | '-' :: t => (readDigits 0x8000000000000001 t).map fun n => -n
  | t => readDigits 0x8000000000000000 t

theorem toDigits_head (n : Nat) (hpos : 0 < n) :
    ∃ c rest, Nat.toDigits 10 n = c :: rest ∧ c ≠ '0' ∧ isDigit c = true := by
  induction n using Nat.strong_induction_on with
  | _ n ih =>
    by_cases hsmall : n < 10
    · refine ⟨n.digitChar, [], Nat.toDigits_of_lt_base hsmall, ?_⟩
      have hdigit : ∀ k : Fin 10, 0 < k.val →
          Nat.digitChar k ≠ '0' ∧ isDigit (Nat.digitChar k) = true := by decide
      exact hdigit ⟨n, hsmall⟩ hpos
    · obtain ⟨c, rest, heq, hc⟩ := ih (n / 10) (by omega) (by omega)
      refine ⟨c, rest ++ [(n % 10).digitChar], ?_, hc⟩
      rw [Nat.toDigits_of_base_le (by omega) (by omega), heq, List.cons_append]

theorem isUnsigned_toDigits (n : Nat) : isUnsigned (Nat.toDigits 10 n) = true := by
  rcases Nat.eq_zero_or_pos n with rfl | hpos
  · rfl
  · obtain ⟨c, rest, heq, hzero, hc⟩ := toDigits_head n hpos
    have hdigits : ∀ d ∈ rest, isDigit d = true := by
      intro d hd
      refine isDigit_of_mem_toDigits (n := n) ?_
      rw [heq]
      exact List.mem_cons_of_mem _ hd
    have hrest : rest.dropWhile isDigit = [] := by
      have happend : (rest ++ []).dropWhile isDigit = [] := List.dropWhile_append_of_pos hdigits
      rw [List.append_nil] at happend
      exact happend
    rw [heq, isUnsigned.eq_2 c rest hzero, hc, hrest]
    rfl

theorem isNumberChar_toDigits {n : Nat} {c : Char} (hc : c ∈ Nat.toDigits 10 n) :
    isNumberChar c = true := by
  rw [isNumberChar, isDigit_of_mem_toDigits hc]
  rfl

theorem toDigits_ne_minus (n : Nat) (rest : Text) : Nat.toDigits 10 n ≠ '-' :: rest := by
  intro heq
  have hminus : isDigit '-' = true := by
    refine isDigit_of_mem_toDigits (n := n) ?_
    rw [heq]
    exact List.mem_cons_self
  cases hminus

theorem intLiteral_inj {a b : Int} (h : intLiteral a = intLiteral b) : a = b := by
  have hdigits : ∀ {m n : Nat}, Nat.toDigits 10 m = Nat.toDigits 10 n → m = n := by
    intro m n heq
    have hvalue := congrArg (fun t => Nat.ofDigitChars 10 t 0) heq
    rwa [Nat.ofDigitChars_toDigits (by omega) (by omega),
      Nat.ofDigitChars_toDigits (by omega) (by omega)] at hvalue
  rw [intLiteral, intLiteral] at h
  split at h <;> split at h
  · have hsame := hdigits (List.cons.inj h).2
    omega
  · exact absurd h.symm (toDigits_ne_minus _ _)
  · exact absurd h (toDigits_ne_minus _ _)
  · have hsame := hdigits h
    omega

theorem isNumber_intLiteral (n : Int) : isNumber (intLiteral n) = true := by
  have hdigits : (Nat.toDigits 10 n.natAbs).all isNumberChar = true :=
    List.all_eq_true.mpr fun _ hc => isNumberChar_toDigits hc
  rw [isNumber, Bool.and_eq_true, intLiteral]
  split
  · refine ⟨?_, isUnsigned_toDigits _⟩
    rw [List.all_cons, hdigits]
    rfl
  · refine ⟨hdigits, ?_⟩
    rw [isSigned.eq_2 _ (toDigits_ne_minus _), isUnsigned_toDigits]

theorem readDigits_toDigits {limit n : Nat} (h : n < limit) :
    readDigits limit (Nat.toDigits 10 n) = some (n : Int) := by
  have hvalue : Nat.ofDigitChars 10 (Nat.toDigits 10 n) 0 = n :=
    Nat.ofDigitChars_toDigits (by omega) (by omega)
  rw [readDigits, hvalue]
  exact if_pos ⟨Nat.toDigits_ne_nil, List.all_eq_true.mpr fun _ hc => isDigit_of_mem_toDigits hc, h⟩

theorem readInt_intLiteral {n : Int} (hlow : -0x8000000000000000 ≤ n)
    (hhigh : n < 0x8000000000000000) : readInt (intLiteral n) = some n := by
  rw [intLiteral]
  by_cases hneg : n < 0
  · rw [if_pos hneg, readInt, readDigits_toDigits (by omega), Option.map_some]
    congr 1
    omega
  · rw [if_neg hneg, readInt.eq_2 _ (toDigits_ne_minus _), readDigits_toDigits (by omega)]
    congr 1
    omega

end Runc.Lib
