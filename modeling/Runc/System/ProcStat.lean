import Runc.Lib.Indexing
import Runc.Lib.Strconv

/-!
# `/proc/<pid>/stat`

`parseStat` takes the name, the state and the start time of a process out of the line
that the kernel shows for it. `none` is a panic: an index outside the string.
-/

namespace Runc.System

open Lib

structure StatT where
  name : Text := []
  state : Char := '\x00'
  startTime : Nat := 0
deriving DecidableEq

def zombie : Char := 'Z'

def dead : Char := 'X'

def minAfterName : Nat := 20 * 2 + 1

def skipSpaces (data : Text) (skip first : Nat) : Option Nat :=
  if h : 0 < skip ∧ first < data.length then do
    let c ← byteAt data first
    if c = ' ' then skipSpaces data (skip - 1) (first + 1)
    else skipSpaces data skip (first + 1)
  else some first
termination_by data.length - first

variable (unicode : Unicode)

def parseStartTime (stat : StatT) (data : Text) : Option (StatT × Option Text) := do
  let first ← skipSpaces data (22 - 3) 0
  let rest ← substrFrom data first
  match indexByte ' ' rest with
  | none => some (stat, some ("invalid stat data (too short): ".toList ++ quote unicode data))
  | some i =>
      let word ← substr data first (first + i)
      match parseUint 64 word with
      | .error err =>
          some ({ stat with startTime := err.value 64 },
            some ("invalid stat data (bad start time): ".toList ++ err.parseUint unicode word))
      | .ok startTime => some ({ stat with startTime }, none)

def noComm (data : Text) : StatT × Option Text :=
  ({}, some ("invalid stat data (no comm or too short): ".toList ++ quote unicode data))

def parseStat (data : Text) : Option (StatT × Option Text) :=
  match indexByte '(' data with
  | none => some (noComm unicode data)
  | some first =>
      if first + minAfterName ≥ data.length then some (noComm unicode data)
      else
        match lastIndexByte ')' data with
        | none => some (noComm unicode data)
        | some last =>
            if last ≤ first ∨ last + minAfterName ≥ data.length then
              some (noComm unicode data)
            else do
              let name ← substr data (first + 1) last
              let data ← substrFrom data (last + 2)
              let state ← byteAt data 0
              parseStartTime unicode { name, state } data

theorem skipSpaces_le {data : Text} {first : Nat} (skip : Nat) (hfirst : first ≤ data.length) :
    ∃ next, skipSpaces data skip first = some next ∧ next ≤ data.length := by
  fun_induction skipSpaces data skip first with
  | case1 skip first h ihBlank ihOther =>
    obtain ⟨c, hc⟩ := byteAt_eq_some h.2
    rw [hc, Option.bind_eq_bind, Option.bind_some]
    by_cases hblank : c = ' '
    · rw [if_pos hblank]
      exact ihBlank h.2
    · rw [if_neg hblank]
      exact ihOther h.2
  | case2 skip first h => exact ⟨first, rfl, hfirst⟩

theorem parseStartTime_total (stat : StatT) (data : Text) :
    ∃ result, parseStartTime unicode stat data = some result := by
  obtain ⟨first, hfirst, hle⟩ := skipSpaces_le (22 - 3) (Nat.zero_le data.length)
  have hrest := substrFrom_eq_some hle
  unfold parseStartTime
  simp only [hfirst, hrest, Option.bind_eq_bind, Option.bind_some]
  cases hi : indexByte ' ' (data.drop first) with
  | none => exact ⟨_, rfl⟩
  | some i =>
    have hlt := indexByte_lt hi
    rw [List.length_drop] at hlt
    have hword : first + i ≤ data.length := by omega
    simp only [substr_eq_some (Nat.le_add_right first i) hword, Option.bind_some]
    split
    · exact ⟨_, rfl⟩
    · exact ⟨_, rfl⟩

theorem parseStat_total (data : Text) : ∃ result, parseStat unicode data = some result := by
  unfold parseStat
  split
  · exact ⟨_, rfl⟩
  · rename_i first hfirst
    split
    · exact ⟨_, rfl⟩
    · split
      · exact ⟨_, rfl⟩
      · rename_i last hlast
        split
        · exact ⟨_, rfl⟩
        · rename_i hbounds
          have hlt := lastIndexByte_lt hlast
          have hcut : last + 2 < data.length := by
            rw [minAfterName] at hbounds
            omega
          have hstate : 0 < (data.drop (last + 2)).length := by
            rw [List.length_drop]
            omega
          obtain ⟨state, hstate⟩ := byteAt_eq_some hstate
          have hname := substr_eq_some (t := data) (by omega : first + 1 ≤ last) (by omega)
          simp only [hname, substrFrom_eq_some (Nat.le_of_lt hcut), hstate,
            Option.bind_eq_bind, Option.bind_some]
          exact parseStartTime_total unicode _ _

section Kernel

structure KernelStat where
  pid : Nat
  comm : Text
  state : Char
  before : List Int
  start : Nat
  after : List Int
  state_letter : isUpper state = true ∨ isLower state = true
  before_length : before.length = 21 - 3
  start_lt : start < 2 ^ 64
  after_ne_nil : after ≠ []

def spaced (fields : List Int) : Text :=
  fields.flatMap fun n => ' ' :: intLiteral n

def KernelStat.tail (k : KernelStat) : Text :=
  k.state :: (spaced (k.before ++ (k.start : Int) :: k.after) ++ ['\n'])

def KernelStat.line (k : KernelStat) : Text :=
  Nat.toDigits 10 k.pid ++ [' ', '('] ++ k.comm ++ [')', ' '] ++ k.tail

def KernelStat.stat (k : KernelStat) : StatT where
  name := k.comm
  state := k.state
  startTime := k.start

variable {unicode} {n : Nat} {w rest : Text}

theorem skipSpaces_word (front rest : Text) (hw : ' ' ∉ w) :
    skipSpaces (front ++ (w ++ ' ' :: rest)) (n + 1) front.length =
      skipSpaces (front ++ (w ++ ' ' :: rest)) n (front.length + w.length + 1) := by
  induction w generalizing front with
  | nil =>
    rw [List.nil_append, skipSpaces, dif_pos (by simp), byteAt_append]
    rfl
  | cons c w ih =>
    have hc : c ≠ ' ' := fun h => hw (h ▸ List.mem_cons_self)
    have hrest := ih (front ++ [c]) (fun h => hw (List.mem_cons_of_mem _ h))
    simp only [List.append_assoc, List.singleton_append, List.length_append,
      List.length_singleton] at hrest
    rw [List.cons_append, skipSpaces, dif_pos (by simp), byteAt_append,
      Option.bind_eq_bind, Option.bind_some, if_neg hc, hrest, List.length_cons]
    congr 1
    omega

theorem skipSpaces_words (front rest : Text) {words : List Text} (hwords : ∀ w ∈ words, ' ' ∉ w) :
    skipSpaces (front ++ (words.flatMap (· ++ [' ']) ++ rest)) words.length front.length =
      some (front ++ words.flatMap (· ++ [' '])).length := by
  induction words generalizing front with
  | nil =>
    rw [skipSpaces, dif_neg (by simp)]
    simp
  | cons w words ih =>
    rw [List.forall_mem_cons] at hwords
    have hnext := ih (front ++ (w ++ [' '])) hwords.2
    have hword := skipSpaces_word (n := words.length) front
      (words.flatMap (· ++ [' ']) ++ rest) hwords.1
    simp only [List.flatMap_cons, List.append_assoc, List.cons_append, List.nil_append,
      List.length_append, List.length_cons, List.length_nil] at hnext hword ⊢
    rw [hword, Nat.add_assoc, hnext]

theorem flatMap_blank (w : Text) (words : List Text) (rest : Text) :
    w ++ (words.flatMap (' ' :: ·) ++ ' ' :: rest) =
      (w :: words).flatMap (· ++ [' ']) ++ rest := by
  induction words generalizing w with
  | nil => simp
  | cons v words ih =>
    have hnext := ih v
    simp only [List.flatMap_cons, List.append_assoc, List.cons_append, List.nil_append] at hnext ⊢
    rw [hnext]

theorem parseStartTime_words (stat : StatT) {words : List Text} {start : Nat}
    (hlength : words.length = 22 - 3) (hwords : ∀ w ∈ words, ' ' ∉ w) (hstart : start < 2 ^ 64) :
    parseStartTime unicode stat
        (words.flatMap (· ++ [' ']) ++ (Nat.toDigits 10 start ++ ' ' :: rest)) =
      some ({ stat with startTime := start }, none) := by
  have hskip := skipSpaces_words [] (Nat.toDigits 10 start ++ ' ' :: rest) hwords
  have hdigits : ' ' ∉ Nat.toDigits 10 start :=
    fun h => absurd (isDigit_of_mem_toDigits h) (by decide)
  rw [hlength, List.nil_append, List.nil_append, List.length_nil] at hskip
  unfold parseStartTime
  simp only [hskip, substrFrom_append, indexByte_append rest hdigits, substr_middle,
    parseUint_toDigits hstart, Option.bind_eq_bind, Option.bind_some]

theorem not_mem_intLiteral {c : Char} (m : Int) (hc : c = ' ' ∨ c = ')') : c ∉ intLiteral m := by
  intro hmem
  rcases mem_intLiteral hmem with h | h
  · rcases hc with rfl | rfl <;> cases h
  · rcases hc with rfl | rfl <;> cases h

theorem length_spaced (fields : List Int) : 2 * fields.length ≤ (spaced fields).length := by
  induction fields with
  | nil => exact Nat.le_refl 0
  | cons m fields ih =>
    have hpos := List.length_pos_of_ne_nil (intLiteral_ne_nil m)
    rw [spaced] at ih ⊢
    rw [List.flatMap_cons, List.length_append, List.length_cons, List.length_cons]
    omega

namespace KernelStat

variable (k : KernelStat)

theorem tail_length : minAfterName ≤ k.tail.length := by
  have hfields := length_spaced (k.before ++ (k.start : Int) :: k.after)
  have hafter := List.length_pos_of_ne_nil k.after_ne_nil
  have hbefore := k.before_length
  rw [List.length_append, List.length_cons] at hfields
  rw [tail, minAfterName, List.length_cons, List.length_append]
  omega

theorem tail_closed : ')' ∉ k.tail := by
  have hstate : ')' ≠ k.state := by
    intro h
    have hletter := k.state_letter
    rw [← h] at hletter
    revert hletter
    decide
  have hspaced : ∀ fields : List Int, ')' ∉ spaced fields := by
    intro fields hmem
    obtain ⟨m, -, hm⟩ := List.mem_flatMap.mp hmem
    rcases List.mem_cons.mp hm with h | h
    · cases h
    · exact not_mem_intLiteral m (Or.inr rfl) h
  simp [tail, hstate, hspaced]

theorem exists_tail :
    ∃ rest, k.tail =
      ([k.state] :: k.before.map intLiteral).flatMap (· ++ [' ']) ++
        (Nat.toDigits 10 k.start ++ ' ' :: rest) := by
  obtain ⟨m, after, hafter⟩ := List.exists_cons_of_ne_nil k.after_ne_nil
  refine ⟨intLiteral m ++ (spaced after ++ ['\n']), ?_⟩
  rw [← flatMap_blank, tail, hafter, spaced, spaced, ← intLiteral_natCast]
  simp [List.flatMap_map]

theorem words_no_blank : ∀ w ∈ [k.state] :: k.before.map intLiteral, ' ' ∉ w := by
  intro w hw
  rcases List.mem_cons.mp hw with rfl | hw
  · intro h
    have hletter := k.state_letter
    rw [← List.mem_singleton.mp h] at hletter
    revert hletter
    decide
  · obtain ⟨m, -, rfl⟩ := List.mem_map.mp hw
    exact not_mem_intLiteral m (Or.inl rfl)

def opening : Text :=
  Nat.toDigits 10 k.pid ++ [' ']

theorem opening_open : '(' ∉ k.opening := by
  intro h
  rcases List.mem_append.mp h with h | h
  · exact absurd (isDigit_of_mem_toDigits h) (by decide)
  · revert h
    decide

theorem parseStat_line : parseStat unicode k.line = some (k.stat, none) := by
  have hfirst : indexByte '(' k.line = some k.opening.length := by
    have happend := indexByte_append (k.comm ++ [')', ' '] ++ k.tail) k.opening_open
    simpa [line, opening] using happend
  have hlast : lastIndexByte ')' k.line = some (k.opening.length + 1 + k.comm.length) := by
    have hclosed : ')' ∉ ' ' :: k.tail := by simp [k.tail_closed]
    have happend := lastIndexByte_append (k.opening ++ ['('] ++ k.comm) hclosed
    have hline : k.line = k.opening ++ ['('] ++ k.comm ++ ')' :: ' ' :: k.tail := by
      simp [line, opening]
    rwa [← hline, List.length_append, List.length_append, List.length_singleton] at happend
  have hname : substr k.line (k.opening.length + 1) (k.opening.length + 1 + k.comm.length) =
      some k.comm := by
    have hmiddle := substr_middle (k.opening ++ ['(']) k.comm ([')', ' '] ++ k.tail)
    simpa [line, opening] using hmiddle
  have htail : substrFrom k.line (k.opening.length + 1 + k.comm.length + 2) = some k.tail := by
    have happend := substrFrom_append (k.opening ++ ['('] ++ k.comm ++ [')', ' ']) k.tail
    have hline : k.line = k.opening ++ ['('] ++ k.comm ++ [')', ' '] ++ k.tail := by
      simp [line, opening]
    rwa [← hline, List.length_append, List.length_append, List.length_append,
      List.length_singleton] at happend
  have hstate : byteAt k.tail 0 = some k.state := rfl
  have hlength : k.line.length = k.opening.length + 1 + k.comm.length + 2 + k.tail.length := by
    simp [line, opening]
    omega
  have hlong := k.tail_length
  unfold parseStat
  simp only [hfirst, hlast]
  rw [if_neg (by omega), if_neg (by omega)]
  simp only [hname, htail, hstate, Option.bind_eq_bind, Option.bind_some]
  obtain ⟨rest, hrest⟩ := k.exists_tail
  rw [hrest, parseStartTime_words _ (by simp [k.before_length]) k.words_no_blank k.start_lt]
  rfl

end KernelStat

end Kernel

end Runc.System
