import Runc.Lib.Utf8

/-!
# Strings in JSON texts

How Go writes a string into a JSON text and reads it back.  A string is a sequence of
bytes; what is not UTF-8 in it becomes U+FFFD on both ways.
-/

namespace Runc.Lib

def unhex (c : Char) : Option Nat :=
  if isDigit c then some (c.toNat - 0x30)
  else if 'a'.toNat ≤ c.toNat ∧ c.toNat ≤ 'f'.toNat then some (c.toNat - 0x57)
  else if 'A'.toNat ≤ c.toNat ∧ c.toNat ≤ 'F'.toNat then some (c.toNat - 0x37)
  else none

def unhex4 (a b c d : Char) : Option Nat :=
  match unhex a, unhex b, unhex c, unhex d with
  | some a, some b, some c, some d => some (((a * 16 + b) * 16 + c) * 16 + d)
  | _, _, _, _ => none

def encodeRune (r : Nat) : Text :=
  if r < 0x80 then [Char.ofNat r]
  else if r < 0x800 then [Char.ofNat (0xC0 + r / 64), Char.ofNat (0x80 + r % 64)]
  else if r < 0x10000 then
    [Char.ofNat (0xE0 + r / 4096), Char.ofNat (0x80 + r / 64 % 64), Char.ofNat (0x80 + r % 64)]
  else
    [Char.ofNat (0xF0 + r / 262144), Char.ofNat (0x80 + r / 4096 % 64),
      Char.ofNat (0x80 + r / 64 % 64), Char.ofNat (0x80 + r % 64)]

def isSurrogate (r : Nat) : Bool :=
  0xD800 ≤ r && r < 0xE000

/-- `utf16.DecodeRune`, if the two are a pair. -/
def surrogatePair (r r' : Nat) : Option Nat :=
  if 0xD800 ≤ r ∧ r < 0xDC00 ∧ 0xDC00 ≤ r' ∧ r' < 0xE000 then
    some ((r - 0xD800) * 1024 + (r' - 0xDC00) + 0x10000)
  else none

def escapedByte (c : Char) : Option Char :=
  [('"', '"'), ('\\', '\\'), ('/', '/'), ('b', Char.ofNat 0x08), ('f', Char.ofNat 0x0c),
    ('n', '\n'), ('r', '\r'), ('t', '\t')].lookup c

/-- The value of an escape with four digits at the start. -/
def getu4 : Text → Option Nat
  | '\\' :: 'u' :: h₁ :: h₂ :: h₃ :: h₄ :: _ => unhex4 h₁ h₂ h₃ h₄
  | _ => none

def unescapeU (t : Text) : Option (Text × Nat) :=
  match getu4 t with
  | none => none
  | some r =>
      if isSurrogate r then
        match (getu4 (t.drop 6)).bind (surrogatePair r) with
        | some pair => some (encodeRune pair, 12)
        | none => some (encodeRune runeError, 6)
      else some (encodeRune r, 6)

def unescapeSequence : Text → Option (Text × Nat)
  | [] => none
  | e :: rest =>
      if e = 'u' then unescapeU ('\\' :: e :: rest)
      else (escapedByte e).map fun byte => ([byte], 2)

def unescapeUnit : Text → Option (Text × Nat)
  | [] => none
  | c :: rest =>
      if c = '\\' then unescapeSequence rest
      else if c.toNat < 0x20 then none
      else some ([c], 1)

def unescapeFrom : Nat → Text → Option (Text × Text)
  | _, [] => none
  | skip + 1, _ :: rest => unescapeFrom skip rest
  | 0, c :: rest =>
      if c = '"' then some ([], rest)
      else
        match unescapeUnit (c :: rest) with
        | none => none
        | some (bytes, width) =>
            (unescapeFrom (width - 1) rest).map fun x => (bytes ++ x.1, x.2)

/-- `unquote`, without the replacement of what is not UTF-8. -/
def unescape (t : Text) : Option (Text × Text) :=
  unescapeFrom 0 t

def sanitize (t : Text) : Text :=
  mapAscii id t

def readString (t : Text) : Option (Text × Text) :=
  (unescape t).map fun x => (sanitize x.1, x.2)

def jsonLetter (c : Char) : Option Char :=
  [('"', '"'), ('\\', '\\'), (Char.ofNat 0x08, 'b'), (Char.ofNat 0x0c, 'f'), ('\n', 'n'),
    ('\r', 'r'), ('\t', 't')].lookup c

def escapeU (r : Nat) : Text :=
  '\\' :: 'u' :: hex 4 r

def escapeAscii (c : Char) : Text :=
  match jsonLetter c with
  | some letter => ['\\', letter]
  | none =>
      if c.toNat < 0x20 ∨ c = '<' ∨ c = '>' ∨ c = '&' then escapeU c.toNat else [c]

def lineSeparators : List (Text × Nat) :=
  [(encodeRune 0x2028, 0x2028), (encodeRune 0x2029, 0x2029)]

def escapeHigh (bytes : Text) : Text :=
  match lineSeparators.lookup bytes with
  | some r => escapeU r
  | none => bytes

def escapeJsonRune (x : Nat × Text) : Text :=
  if invalidRune x then escapeU runeError
  else
    match x.2 with
    | [c] => escapeAscii c
    | bytes => escapeHigh bytes

/-- `appendString` of encoding/json, between the quotes. -/
def escapeJson (t : Text) : Text :=
  (runes t).flatMap escapeJsonRune

theorem unescapeFrom_eq_drop (skip : Nat) (t : Text) :
    unescapeFrom skip t = unescape (t.drop skip) := by
  induction skip generalizing t with
  | zero => rfl
  | succ skip ih =>
    cases t with
    | nil => rfl
    | cons c rest => rw [unescapeFrom, ih, List.drop_succ_cons]

variable {bytes : Text} {c : Char}

theorem unescape_unit {rest : Text} {width : Nat} (hc : c ≠ '"')
    (h : unescapeUnit (c :: rest) = some (bytes, width + 1)) :
    unescape (c :: rest) = (unescape (rest.drop width)).map fun x => (bytes ++ x.1, x.2) := by
  rw [unescape, unescapeFrom, if_neg hc, h]
  dsimp only
  rw [Nat.add_sub_cancel, unescapeFrom_eq_drop]

theorem unescape_plain (hquote : c ≠ '"') (hback : c ≠ '\\') (hprint : ¬ c.toNat < 0x20)
    (rest : Text) :
    unescape (c :: rest) = (unescape rest).map fun x => (c :: x.1, x.2) := by
  have hunit : unescapeUnit (c :: rest) = some ([c], 0 + 1) := by
    rw [unescapeUnit, if_neg hback, if_neg hprint]
  exact unescape_unit hquote hunit

theorem unescape_letter {e byte : Char} (hu : e ≠ 'u') (h : escapedByte e = some byte)
    (rest : Text) :
    unescape ('\\' :: e :: rest) = (unescape rest).map fun x => (byte :: x.1, x.2) := by
  have hunit : unescapeUnit ('\\' :: e :: rest) = some ([byte], 1 + 1) := by
    rw [unescapeUnit, if_pos rfl, unescapeSequence, if_neg hu, h]
    rfl
  exact unescape_unit (by decide) hunit

theorem unhex_hexDigit (n : Nat) : unhex (hexDigit n) = some (n % 16) := by
  have hdigit : ∀ k : Fin 16, unhex (hexDigit k) = some k.val := by decide
  have hmod : hexDigit n = hexDigit (n % 16) := by
    simp [hexDigit]
  rw [hmod]
  exact hdigit ⟨n % 16, Nat.mod_lt _ (by decide)⟩

variable {r : Nat}

theorem getu4_escapeU (h : r < 0x10000) (rest : Text) : getu4 (escapeU r ++ rest) = some r := by
  have hdigits : escapeU r ++ rest = '\\' :: 'u' :: hexDigit (r / 16 / 16 / 16) ::
      hexDigit (r / 16 / 16) :: hexDigit (r / 16) :: hexDigit r :: rest := rfl
  rw [hdigits, getu4, unhex4, unhex_hexDigit, unhex_hexDigit, unhex_hexDigit, unhex_hexDigit]
  dsimp only
  rw [Option.some.injEq]
  omega

theorem unescape_escapeU (h : r < 0x10000) (hsurrogate : isSurrogate r = false) (rest : Text) :
    unescape (escapeU r ++ rest) =
      (unescape rest).map fun x => (encodeRune r ++ x.1, x.2) := by
  have hunit : unescapeUnit (escapeU r ++ rest) = some (encodeRune r, 5 + 1) := by
    have hu : unescapeUnit (escapeU r ++ rest) = unescapeU (escapeU r ++ rest) := rfl
    rw [hu, unescapeU, getu4_escapeU h]
    dsimp only
    rw [hsurrogate, if_neg Bool.false_ne_true]
  exact unescape_unit (by decide) hunit

theorem escapedByte_of_jsonLetter {letter : Char} (h : jsonLetter c = some letter) :
    letter ≠ 'u' ∧ escapedByte letter = some c := by
  obtain ⟨before, after, hsplit, -⟩ := List.lookup_eq_some_iff.mp h
  have hmem := List.mem_append_right before (List.mem_cons_self (a := (c, letter)) (l := after))
  rw [← hsplit] at hmem
  simp only [List.mem_cons, Prod.mk.injEq, List.not_mem_nil, or_false] at hmem
  rcases hmem with h | h | h | h | h | h | h
  all_goals
    rw [h.1, h.2]
    decide

theorem ne_of_jsonLetter (h : jsonLetter c = none) :
    c ≠ '"' ∧ c ≠ '\\' := by
  constructor
  · rintro rfl
    cases h
  · rintro rfl
    cases h

theorem encodeRune_ascii (h : c.toNat < 0x80) : encodeRune c.toNat = [c] := by
  rw [encodeRune, if_pos h, Char.ofNat_toNat]

theorem unescape_escapeAscii (h : c.toNat < 0x80) (rest : Text) :
    unescape (escapeAscii c ++ rest) = (unescape rest).map fun x => (c :: x.1, x.2) := by
  rw [escapeAscii]
  split
  · rename_i letter hletter
    obtain ⟨hu, hbyte⟩ := escapedByte_of_jsonLetter hletter
    exact unescape_letter hu hbyte rest
  · rename_i hletter
    obtain ⟨hquote, hback⟩ := ne_of_jsonLetter hletter
    split
    · have hsurrogate : isSurrogate c.toNat = false := by
        rw [isSurrogate, Bool.and_eq_false_iff, decide_eq_false_iff_not]
        exact .inl (by omega)
      rw [unescape_escapeU (by omega) hsurrogate, encodeRune_ascii h]
      rfl
    · rename_i hplain
      exact unescape_plain hquote hback (fun hlow => hplain (.inl hlow)) rest

theorem unescape_high (h : ∀ c ∈ bytes, ¬ c.toNat < 0x80) (rest : Text) :
    unescape (bytes ++ rest) = (unescape rest).map fun x => (bytes ++ x.1, x.2) := by
  induction bytes with
  | nil =>
    cases hrest : unescape rest with
    | none => exact hrest
    | some x => exact hrest
  | cons c bytes ih =>
    have hc := h c List.mem_cons_self
    have hquote : c ≠ '"' := fun heq => hc (heq ▸ by decide)
    have hback : c ≠ '\\' := fun heq => hc (heq ▸ by decide)
    rw [List.cons_append, unescape_plain hquote hback (by omega),
      ih fun x hx => h x (List.mem_cons_of_mem c hx), Option.map_map]
    rfl

theorem unescape_escapeHigh (h : ∀ c ∈ bytes, ¬ c.toNat < 0x80) (rest : Text) :
    unescape (escapeHigh bytes ++ rest) =
      (unescape rest).map fun x => (bytes ++ x.1, x.2) := by
  rw [escapeHigh]
  split
  · rename_i r hlookup
    obtain ⟨before, after, hsplit, -⟩ := List.lookup_eq_some_iff.mp hlookup
    have hmem := List.mem_append_right before (List.mem_cons_self (a := (bytes, r)) (l := after))
    rw [← hsplit] at hmem
    simp only [lineSeparators, List.mem_cons, Prod.mk.injEq, List.not_mem_nil, or_false] at hmem
    rcases hmem with ⟨rfl, rfl⟩ | ⟨rfl, rfl⟩
    · exact unescape_escapeU (by decide) (by decide) rest
    · exact unescape_escapeU (by decide) (by decide) rest
  · exact unescape_high h rest

theorem unescape_escapeJsonRune (h : ∀ c ∈ bytes, ¬ c.toNat < 0x80) (rest : Text) :
    unescape (escapeJsonRune (r, bytes) ++ rest) =
      (unescape rest).map fun x => (mapRune id (r, bytes) ++ x.1, x.2) := by
  rw [mapRune_high h, escapeJsonRune]
  cases hinvalid : invalidRune (r, bytes) with
  | true =>
    rw [if_pos rfl, if_pos rfl]
    exact unescape_escapeU (by decide) (by decide) rest
  | false =>
    rw [if_neg Bool.false_ne_true, if_neg Bool.false_ne_true]
    split
    · -- a single byte that is not ASCII is invalid
      rename_i c hbytes
      obtain rfl : bytes = [c] := hbytes
      have hc := h c List.mem_cons_self
      rw [invalidRune, decide_eq_false_iff_not] at hinvalid
      omega
    · exact unescape_escapeHigh h rest

theorem unescape_escapeJson (t rest : Text) :
    unescape (escapeJson t ++ '"' :: rest) = some (sanitize t, rest) := by
  induction t using runes_induction with
  | nil => rfl
  | ascii c tail hc ih =>
    have hrune : escapeJsonRune (c.toNat, [c]) = escapeAscii c := by
      have hvalid : invalidRune (c.toNat, [c]) = false := by
        rw [invalidRune, decide_eq_false_iff_not]
        omega
      rw [escapeJsonRune, hvalid, if_neg Bool.false_ne_true]
    rw [escapeJson, runes_cons_ascii hc, List.flatMap_cons, ← escapeJson, hrune,
      List.append_assoc, unescape_escapeAscii hc, ih, sanitize, sanitize,
      mapAscii_cons_ascii hc]
    rfl
  | high r bytes tail hne hhigh hrunes ih =>
    rw [escapeJson, hrunes, List.flatMap_cons, ← escapeJson, List.append_assoc,
      unescape_escapeJsonRune hhigh, ih, sanitize, sanitize, mapAscii, mapAscii, hrunes,
      List.flatMap_cons]
    rfl

def carried (t : Text) : Text :=
  sanitize (sanitize t)

theorem readString_escapeJson (t rest : Text) :
    readString (escapeJson t ++ '"' :: rest) = some (carried t, rest) := by
  rw [readString, unescape_escapeJson]
  rfl

theorem sanitize_of_valid {t : Text} (h : ValidUtf8 t) : sanitize t = t := by
  have hid : ∀ c ∈ t, (if c.toNat < 0x80 then id c else c) = c := by
    intro c _
    split
    · rfl
    · rfl
  rw [sanitize, mapAscii_of_valid h, List.map_congr_left hid, List.map_id']

theorem length_sanitize (t : Text) :
    (sanitize t).length = t.length + 2 * (runes t).countP invalidRune := by
  have hcount := countP_mapAscii (f := id) (p := fun _ => true) (fun _ _ => rfl) (fun _ _ => rfl) t
  rw [List.countP_true] at hcount
  exact hcount

theorem carried_eq_iff {t : Text} : carried t = t ↔ ValidUtf8 t := by
  constructor
  · intro h
    have hlen := congrArg List.length h
    rw [carried, length_sanitize, length_sanitize] at hlen
    have hnone : (runes t).countP invalidRune = 0 := by omega
    intro x hx
    have hx' := List.countP_eq_zero.mp hnone x hx
    exact Bool.eq_false_iff.mpr hx'
  · intro h
    rw [carried, sanitize_of_valid h, sanitize_of_valid h]

end Runc.Lib
