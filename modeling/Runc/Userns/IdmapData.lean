import Runc.Bootstrap.Message
import Runc.Lib.Scanf

/-!
# The text of id mappings

`encodeIDMapping` prints a list of mappings, the kernel shows it in padded columns, and
`parseIdmapData` reads both, as long as a line fits the buffer of its scanner.
-/

namespace Runc.Userns

open Lib
open Bootstrap (Bytes IDMap ascii decimal encodeIDMapping)

def maxScanTokenSize : Nat := 64 * 1024

def formatSpace (t : Text) : Option Text :=
  if t = [] ∨ spaceEncodings.any (·.isPrefixOf t) = true then skipSpace 0 t else none

/-- `Sscanf` with the format `%d %d %d`. -/
def scanIDMap (line : Text) : Option IDMap := do
  let (containerID, t) ← scanInt 64 line
  let (hostID, t) ← scanInt 64 (← formatSpace t)
  let (size, _) ← scanInt 64 (← formatSpace t)
  return { containerID, hostID, size }

inductive IdmapError
  /-- `parsing id map failed: invalid format in line %q: %w`. -/
  | invalidFormat (line : Text)
  /-- `parsing id map failed: %w`, from `scanner.Err`. -/
  | tooLong
deriving DecidableEq

def parseLine (line : Text) : Except IdmapError IDMap :=
  match scanIDMap line with
  | none => .error (.invalidFormat line)
  | some m => .ok m

def parseIdmapData (data : Text) : Except IdmapError (List IDMap) := do
  let ms ← (scanLines maxScanTokenSize data).mapM parseLine
  if (rawLines data).all (·.length < maxScanTokenSize) then .ok ms else .error .tooLong

structure Mapping32 where
  containerID : UInt32
  hostID : UInt32
  size : UInt32

def Mapping32.idMap (m : Mapping32) : IDMap :=
  ⟨m.containerID.toNat, m.hostID.toNat, m.size.toNat⟩

structure Padding where
  lead : Nat := 0
  first : Nat := 0
  second : Nat := 0

def digits (n : UInt32) : Text := Nat.toDigits 10 n.toNat

def columns (pad : Padding) (m : Mapping32) : Text :=
  List.replicate pad.lead ' ' ++ digits m.containerID ++
    (List.replicate (pad.first + 1) ' ' ++ (digits m.hostID ++
      (List.replicate (pad.second + 1) ' ' ++ digits m.size)))

def idmapText (rows : List (Padding × Mapping32)) : Text :=
  (rows.map fun row => columns row.1 row.2).flatMap (· ++ ['\n'])

def fileText (data : Bytes) : Text :=
  data.map fun b => Char.ofNat b.toNat

section Columns

variable (pad : Padding) (m : Mapping32) (n : UInt32) (rest : Text)

theorem blanks_replicate (k : Nat) : Blanks (List.replicate k ' ') := by
  induction k with
  | zero => exact .nil
  | succ k ih => exact .cons (e := [' ']) (by decide) (by decide) ih

theorem isDigit_of_mem_digits {n : UInt32} : ∀ c ∈ digits n, isDigit c = true :=
  fun _ hc => isDigit_of_mem_toDigits hc

theorem readsAs_digits (k : Nat) : ReadsAs 64 (List.replicate k ' ' ++ digits n) n.toNat := by
  have hlt : n.toNat < 2 ^ 32 := n.toNat_lt
  refine ⟨_, [], digits n, rfl, blanks_replicate k, .inl rfl, Nat.toDigits_ne_nil,
    isDigit_of_mem_digits, Nat.ofDigitChars_toDigits (by omega) (by omega), ?_⟩
  omega

theorem formatSpace_digits (k : Nat) :
    formatSpace (List.replicate (k + 1) ' ' ++ (digits n ++ rest)) = some (digits n ++ rest) := by
  have hspace : spaceEncodings.any
      (·.isPrefixOf (List.replicate (k + 1) ' ' ++ (digits n ++ rest))) = true :=
    List.any_eq_true.mpr ⟨[' '], by decide, by simp [List.replicate_succ]⟩
  rw [formatSpace, if_pos (.inr hspace), skipSpace_blanks (blanks_replicate _)]
  obtain ⟨d, ds, hd⟩ := List.exists_cons_of_ne_nil (l := digits n) Nat.toDigits_ne_nil
  have hdigit : isDigit d = true := isDigit_of_mem_digits d (hd ▸ List.mem_cons_self)
  rw [hd, List.cons_append, skipSpace_self (.inl hdigit)]

theorem scanIDMap_columns : scanIDMap (columns pad m) = some m.idMap := by
  have hblank : ∀ k t, (List.replicate (k + 1) ' ' ++ t).head?.all (!isDigit ·) = true :=
    fun _ _ => rfl
  have hhost := scanInt_number (readsAs_digits m.hostID 0) (hblank pad.second (digits m.size))
  have hsize := @scanInt_number _ _ _ [] (readsAs_digits m.size 0) rfl
  have hlast := formatSpace_digits m.size [] pad.second
  rw [List.append_nil] at hlast hsize
  simp only [List.replicate_zero, List.nil_append] at hhost hsize
  rw [scanIDMap, columns, scanInt_number (readsAs_digits _ _) (hblank _ _)]
  simp [formatSpace_digits, hhost, hlast, hsize, Mapping32.idMap]

theorem not_mem_columns {c : Char} (hdigit : isDigit c = false) (hc : c ≠ ' ') :
    c ∉ columns pad m := by
  have hdigits : ∀ n : UInt32, c ∉ digits n := by
    intro n hmem
    rw [isDigit_of_mem_digits c hmem] at hdigit
    cases hdigit
  simp [columns, hc, hdigits]

theorem dropCR_columns : dropCR (columns pad m) = columns pad m := by
  refine if_neg fun hlast => ?_
  exact not_mem_columns pad m (by decide) (by decide) (List.mem_of_getLast? hlast)

end Columns

section Parse

variable (rows : List (Padding × Mapping32))

theorem mapM_rows :
    (rows.map fun row => columns row.1 row.2).mapM parseLine = .ok (rows.map (·.2.idMap)) := by
  induction rows with
  | nil => rfl
  | cons row rows ih =>
    rw [List.map_cons, List.mapM_cons, ih, parseLine, scanIDMap_columns]
    rfl

theorem rawLines_idmapText :
    rawLines (idmapText rows) = rows.map fun row => columns row.1 row.2 := by
  refine rawLines_flatMap fun line hline => ?_
  obtain ⟨row, -, rfl⟩ := List.mem_map.mp hline
  exact not_mem_columns _ _ (by decide) (by decide)

theorem parseIdmapData_rows (hfit : ∀ row ∈ rows, (columns row.1 row.2).length < maxScanTokenSize) :
    parseIdmapData (idmapText rows) = .ok (rows.map (·.2.idMap)) := by
  have hshort : ∀ line ∈ rawLines (idmapText rows), line.length < maxScanTokenSize := by
    rw [rawLines_idmapText]
    exact List.forall_mem_map.mpr hfit
  have hlines : scanLines maxScanTokenSize (idmapText rows) =
      rows.map fun row => columns row.1 row.2 := by
    rw [scanLines_of_fit hshort, rawLines_idmapText, List.map_map]
    exact List.map_congr_left fun row _ => dropCR_columns row.1 row.2
  rw [parseIdmapData, hlines, mapM_rows]
  exact if_pos (List.all_eq_true.mpr fun line hline => decide_eq_true (hshort line hline))

theorem fileText_decimal (n : UInt32) : fileText (decimal n.toNat) = digits n := by
  have hdecimal : decimal n.toNat = (digits n).map fun c => UInt8.ofNat c.toNat := by
    rw [decimal, ascii, digits]
    simp [toString, Int.repr, Nat.repr]
  rw [hdecimal, fileText, List.map_map]
  refine (List.map_congr_left fun c hc => ?_).trans (List.map_id _)
  have hdigit := isDigit_of_mem_digits c hc
  have hle : c.toNat ≤ 57 := by
    simp only [isDigit, Bool.and_eq_true, decide_eq_true_eq] at hdigit
    exact hdigit.2
  have hbyte : (UInt8.ofNat c.toNat).toNat = c.toNat := by
    rw [UInt8.toNat_ofNat']
    omega
  rw [Function.comp_apply, hbyte, Char.ofNat_toNat, id]

theorem fileText_encodeIDMapping (ms : List Mapping32) :
    fileText (encodeIDMapping (ms.map Mapping32.idMap)) = idmapText (ms.map ({}, ·)) := by
  induction ms with
  | nil => rfl
  | cons m ms ih =>
    have happend : ∀ a b, fileText (a ++ b) = fileText a ++ fileText b :=
      fun _ _ => List.map_append
    rw [List.map_cons, encodeIDMapping, List.flatMap_cons, ← encodeIDMapping, happend, ih]
    have hcons : ∀ b l, fileText (b :: l) = Char.ofNat b.toNat :: fileText l := fun _ _ => rfl
    have hblank : Char.ofNat Bootstrap.blank.toNat = ' ' := rfl
    have hnewline : Char.ofNat Bootstrap.newline.toNat = '\n' := rfl
    have hnil : fileText [] = [] := rfl
    simp only [happend, hcons, hblank, hnewline, hnil, Mapping32.idMap, fileText_decimal]
    simp [idmapText, columns]

end Parse

end Runc.Userns
