import Runc.Lib.Text

/-!
# Path patterns

The globs of an access control profile.  `?` is one byte and `*` any number of
bytes other than a slash, `**` any number of bytes; `[…]` is one byte of a class
and `{…,…}` one of several patterns; a backslash takes the meaning from the byte
after it.

A pattern is read in two steps: escapes make a text into a list of items, and the
language of the items is an inductive predicate with one rule for each kind of
item.  A pattern with an unclosed class or group has no rule and matches nothing.
-/

namespace Runc.Lib
namespace Glob

structure Item where
  char : Char
  escaped : Bool
deriving DecidableEq, Repr

def escapeLetters : List (Char × Char) :=
  [('a', '\x07'), ('e', '\x1b'), ('f', '\x0c'), ('n', '\n'), ('r', '\x0d'),
    ('t', '\t')]

def hexValue (c : Char) : Option Nat :=
  if '0' ≤ c ∧ c ≤ '9' then some (c.toNat - '0'.toNat)
  else if 'a' ≤ c ∧ c ≤ 'f' then some (c.toNat - 'a'.toNat + 10)
  else if 'A' ≤ c ∧ c ≤ 'F' then some (c.toNat - 'A'.toNat + 10)
  else none

def escapeValue : Text → Char × Nat
  | [] => ('\\', 0)
  | c :: rest =>
      match escapeLetters.lookup c with
      | some v => (v, 1)
      | none =>
          if c = 'x' then
            match rest.head?.bind hexValue, rest.tail.head?.bind hexValue with
            | some a, some b => (Char.ofNat (16 * a + b), 3)
            | some a, none => (Char.ofNat a, 2)
            | none, _ => (c, 1)
          else (c, 1)

def itemsFrom : Nat → Text → List Item
  | _, [] => []
  | skip + 1, _ :: rest => itemsFrom skip rest
  | 0, c :: rest =>
      if c = '\\' then
        ⟨(escapeValue rest).1, true⟩ :: itemsFrom (escapeValue rest).2 rest
      else ⟨c, false⟩ :: itemsFrom 0 rest

def items (t : Text) : List Item :=
  itemsFrom 0 t

def readPath : Text → List Item
  | '"' :: rest => items rest.dropLast
  | t => items t

theorem items_cons {c : Char} (hc : c ≠ '\\') (rest : Text) :
    items (c :: rest) = ⟨c, false⟩ :: items rest :=
  if_neg hc

theorem itemsFrom_eq_drop (skip : Nat) (t : Text) : itemsFrom skip t = items (t.drop skip) := by
  induction skip generalizing t with
  | zero => rfl
  | succ skip ih =>
    cases t with
    | nil => rfl
    | cons c rest => rw [itemsFrom, ih, List.drop_succ_cons]

theorem items_escape (rest : Text) :
    items ('\\' :: rest) =
      ⟨(escapeValue rest).1, true⟩ ::
        items (rest.drop (escapeValue rest).2) := by
  rw [← itemsFrom_eq_drop]
  rfl

theorem items_append {a : Text} (ha : '\\' ∉ a) (b : Text) :
    items (a ++ b) = a.map (⟨·, false⟩) ++ items b := by
  induction a with
  | nil => rfl
  | cons c a ih =>
    have hc : c ≠ '\\' := fun h => ha (h ▸ List.mem_cons_self)
    rw [List.cons_append, items_cons hc, ih (fun h => ha (List.mem_cons_of_mem _ h))]
    rfl

def metacharacters : Text :=
  "*?[]\x7b\x7d".toList

def Item.plain (i : Item) : Bool :=
  i.escaped || i.char ∉ metacharacters

def splitClass : List Item → Option (List Item × List Item)
  | [] => none
  | i :: rest =>
      if i = ⟨']', false⟩ then some ([], rest)
      else (splitClass rest).map (fun s => (i :: s.1, s.2))

def inMembers (c : Char) : List Item → Bool
  | low :: ⟨'-', false⟩ :: high :: rest =>
      (low.char ≤ c && c ≤ high.char) || inMembers c rest
  | i :: rest => i.char = c || inMembers c rest
  | [] => false

def inClass (c : Char) : List Item → Bool
  | [] => false
  | ⟨'^', false⟩ :: rest => !rest.isEmpty && !inMembers c rest
  | members => inMembers c members

structure Depth where
  groups : Nat
  inClass : Bool

def Depth.next (d : Depth) (i : Item) : Depth :=
  if i = ⟨'[', false⟩ then { d with inClass := true }
  else if i = ⟨']', false⟩ then { d with inClass := false }
  else if d.inClass then d
  else if i = ⟨'\x7b', false⟩ then { d with groups := d.groups + 1 }
  else if i = ⟨'\x7d', false⟩ then { d with groups := d.groups - 1 }
  else d

def Depth.outer (d : Depth) : Bool :=
  d.groups = 0 && !d.inClass

def pushItem (i : Item) : List (List Item) → List (List Item)
  | [] => [[i]]
  | first :: others => (i :: first) :: others

def splitGroup : Depth → List Item → Option (List (List Item) × List Item)
  | _, [] => none
  | d, i :: rest =>
      if d.outer ∧ i = ⟨'\x7d', false⟩ then some ([[]], rest)
      else if d.outer ∧ i = ⟨',', false⟩ then
        (splitGroup d rest).map (fun s => ([] :: s.1, s.2))
      else (splitGroup (d.next i) rest).map (fun s => (pushItem i s.1, s.2))

inductive Matches : List Item → Text → Prop
  | nil : Matches [] []
  | plain {i : Item} {p : List Item} {t : Text} :
      i.plain = true → Matches p t → Matches (i :: p) (i.char :: t)
  | one {c : Char} {p : List Item} {t : Text} :
      c ≠ '/' → Matches p t → Matches (⟨'?', false⟩ :: p) (c :: t)
  | starNone {p : List Item} {t : Text} :
      Matches p t → Matches (⟨'*', false⟩ :: p) t
  | starMore {c : Char} {p : List Item} {t : Text} :
      c ≠ '/' → Matches (⟨'*', false⟩ :: p) t →
        Matches (⟨'*', false⟩ :: p) (c :: t)
  | starsMore {c : Char} {p : List Item} {t : Text} :
      Matches (⟨'*', false⟩ :: ⟨'*', false⟩ :: p) t →
        Matches (⟨'*', false⟩ :: ⟨'*', false⟩ :: p) (c :: t)
  | inClass {c : Char} {p members rest : List Item} {t : Text} :
      splitClass p = some (members, rest) → inClass c members = true →
        Matches rest t → Matches (⟨'[', false⟩ :: p) (c :: t)
  | group {p rest alternative : List Item} {alternatives : List (List Item)}
      {t : Text} :
      splitGroup ⟨0, false⟩ p = some (alternatives, rest) →
        2 ≤ alternatives.length → alternative ∈ alternatives →
          Matches (alternative ++ rest) t → Matches (⟨'\x7b', false⟩ :: p) t

theorem matches_plain_iff {p : List Item} (hp : ∀ i ∈ p, i.plain = true) {t : Text} :
    Matches p t ↔ t = p.map Item.char := by
  induction p generalizing t with
  | nil =>
    constructor
    · rintro ⟨⟩
      rfl
    · rintro rfl
      exact Matches.nil
  | cons i p ih =>
    obtain ⟨hi, hrest⟩ := List.forall_mem_cons.mp hp
    constructor
    · intro h
      cases h with
      | plain _ h =>
        rw [(ih hrest).mp h]
        rfl
      | one => cases hi
      | starNone => cases hi
      | starMore => cases hi
      | starsMore => cases hi
      | inClass => cases hi
      | group => cases hi
    · rintro rfl
      exact Matches.plain hi ((ih hrest).mpr rfl)

def weight (t : Text) : Nat :=
  t.countP (· ∈ metacharacters)

theorem weight_cons (c : Char) (t : Text) : weight (c :: t) = weight t + weight [c] := by
  rw [weight, weight, weight, List.countP_cons, List.countP_singleton]

theorem weight_append (a b : Text) : weight (a ++ b) = weight a + weight b :=
  List.countP_append

theorem weight_singleton_le (c : Char) : weight [c] ≤ 1 :=
  List.countP_le_length

def load (p : List Item) : Nat :=
  weight (p.map Item.char)

theorem load_cons (i : Item) (p : List Item) : load (i :: p) = load p + weight [i.char] :=
  weight_cons i.char (p.map Item.char)

theorem load_append (p q : List Item) : load (p ++ q) = load p + load q := by
  rw [load, List.map_append, weight_append]
  rfl

theorem load_of_not_plain {i : Item} (hi : i.plain = false) (p : List Item) :
    load (i :: p) = load p + 1 := by
  rw [Item.plain, Bool.or_eq_false_iff, decide_eq_false_iff_not, not_not] at hi
  rw [load_cons, weight, List.countP_singleton, if_pos (decide_eq_true hi.2)]

theorem splitClass_eq {p members rest : List Item} (h : splitClass p = some (members, rest)) :
    p = members ++ ⟨']', false⟩ :: rest := by
  induction p generalizing members with
  | nil => cases h
  | cons i p ih =>
    rw [splitClass] at h
    split at h
    · rename_i hi
      cases h
      rw [hi]
      rfl
    · obtain ⟨⟨more, rest'⟩, hsplit, heq⟩ := Option.map_eq_some_iff.mp h
      cases heq
      rw [ih hsplit]
      rfl

theorem splitGroup_load {d : Depth} {p rest : List Item} {alternatives : List (List Item)}
    (h : splitGroup d p = some (alternatives, rest)) :
    load rest + 1 ≤ load p ∧
      ∀ a ∈ alternatives, load a + load rest + 1 ≤ load p := by
  have hnil : load [] = 0 := rfl
  induction p generalizing d alternatives with
  | nil => cases h
  | cons i p ih =>
    have hcons := load_cons i p
    rw [splitGroup] at h
    split at h
    · rename_i hclose
      have hbrace : load (i :: p) = load p + 1 := by
        rw [hclose.2]
        exact load_of_not_plain rfl p
      cases h
      refine ⟨by omega, fun a ha => ?_⟩
      rw [List.mem_singleton.mp ha]
      omega
    · split at h
      · obtain ⟨⟨others, rest'⟩, hsplit, heq⟩ := Option.map_eq_some_iff.mp h
        cases heq
        obtain ⟨hrest, hothers⟩ := ih hsplit
        refine ⟨by omega, fun a ha => ?_⟩
        rcases List.mem_cons.mp ha with rfl | ha
        · omega
        · have hother := hothers a ha
          omega
      · obtain ⟨⟨others, rest'⟩, hsplit, heq⟩ := Option.map_eq_some_iff.mp h
        cases heq
        obtain ⟨hrest, hothers⟩ := ih hsplit
        refine ⟨by omega, fun a ha => ?_⟩
        cases others with
        | nil =>
          have hpush := load_cons i []
          rw [List.mem_singleton.mp ha]
          omega
        | cons first others =>
          rcases List.mem_cons.mp ha with rfl | ha
          · have hfirst := hothers first List.mem_cons_self
            have hpush := load_cons i first
            omega
          · have hother := hothers a (List.mem_cons_of_mem _ ha)
            omega

theorem Matches.thin {p : List Item} {t : Text} (h : Matches p t) :
    ∃ t', Matches p t' ∧ weight t' ≤ load p ∧
      ((∃ i ∈ p, i.plain = false) → weight t' < load p) := by
  -- for an item with a meaning the strict bound gives both
  have hstrict : ∀ {p : List Item} {t' : Text}, Matches p t' → weight t' < load p →
      ∃ t', Matches p t' ∧ weight t' ≤ load p ∧ ((∃ i ∈ p, i.plain = false) → weight t' < load p) :=
    fun hm hlt => ⟨_, hm, Nat.le_of_lt hlt, fun _ => hlt⟩
  induction h with
  | nil => exact ⟨[], Matches.nil, Nat.le_refl _, by simp⟩
  | @plain i p t hi _ ih =>
    obtain ⟨t', hm, hle, hlt⟩ := ih
    have hpattern := load_cons i p
    have htext := weight_cons i.char t'
    refine ⟨i.char :: t', Matches.plain hi hm, by omega, ?_⟩
    rintro ⟨j, hj, hmeta⟩
    rcases List.mem_cons.mp hj with rfl | hj
    · rw [hi] at hmeta
      cases hmeta
    · have hrest := hlt ⟨j, hj, hmeta⟩
      omega
  | @one c p t _ _ ih =>
    obtain ⟨t', hm, hle, -⟩ := ih
    have hpattern := load_of_not_plain (i := ⟨'?', false⟩) rfl p
    have htext := weight_cons 'a' t'
    have hletter : weight ['a'] = 0 := by decide
    exact hstrict (Matches.one (c := 'a') (by decide) hm) (by omega)
  | @starNone p t _ ih =>
    obtain ⟨t', hm, hle, -⟩ := ih
    have hpattern := load_of_not_plain (i := ⟨'*', false⟩) rfl p
    exact hstrict (Matches.starNone hm) (by omega)
  | starMore _ _ ih => exact ih
  | starsMore _ ih => exact ih
  | @inClass c p members rest t hsplit hc _ ih =>
    obtain ⟨t', hm, hle, -⟩ := ih
    have hpattern := load_of_not_plain (i := ⟨'[', false⟩) rfl p
    have hclose := load_of_not_plain (i := ⟨']', false⟩) rfl rest
    have htext := weight_cons c t'
    have hone := weight_singleton_le c
    have hbody : load p = load members + load (⟨']', false⟩ :: rest) := by
      rw [splitClass_eq hsplit, load_append]
    exact hstrict (Matches.inClass hsplit hc hm) (by omega)
  | @group p rest a alternatives t hsplit htwo ha _ ih =>
    obtain ⟨t', hm, hle, -⟩ := ih
    have hpattern := load_of_not_plain (i := ⟨'\x7b', false⟩) rfl p
    have hless := (splitGroup_load hsplit).2 a ha
    rw [load_append] at hle
    exact hstrict (Matches.group hsplit htwo ha hm) (by omega)

end Glob
end Runc.Lib
