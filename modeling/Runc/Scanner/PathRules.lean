import Runc.Lib.Glob
import Runc.Scanner.AuditRules

/-!
# What a path rule allows

A path rule names its file by a pattern.  `quoteAppArmorPath` puts a name with a
blank, a quote or a backslash in quotes, but leaves the metacharacters of patterns
as they are.
-/

namespace Runc.Scanner

open Lib

def rulePath (rule : Text) : Text :=
  ((rule.drop 2).reverse.dropWhile (· ≠ ' ')).tail.reverse

def RuleAllows (rule file : Text) : Prop :=
  Glob.Matches (Glob.readPath (rulePath rule)) file

theorem rulePath_append {path mode : Text} (hmode : ' ' ∉ mode) :
    rulePath ("  ".toList ++ (path ++ (" ".toList ++ mode))) = path := by
  have hdrop : ∀ t, ("  ".toList ++ t).drop 2 = t := fun _ => rfl
  have hkeep : ∀ c ∈ mode.reverse, decide (c ≠ ' ') = true := by
    intro c hc
    exact decide_eq_true (fun h => hmode (h ▸ List.mem_reverse.mp hc))
  rw [rulePath, hdrop, List.reverse_append, List.reverse_append,
    List.append_assoc, List.dropWhile_append_of_pos hkeep]
  exact List.reverse_reverse path

theorem rulePath_ruleOf {unicode : Unicode} {r : AppArmorDenialRecord} (h : r.GivesPath) :
    rulePath (ruleOf unicode r) = quoteAppArmorPath unicode r.name := by
  rw [ruleOf_of_givesPath h]
  refine rulePath_append (fun hmem => ?_)
  rcases List.mem_append.mp hmem with hmem | hmem
  · exact absurd (mem_canonicalAppArmorFileMode hmem) (by decide)
  · exact absurd hmem (by decide)

section Quoted

variable {unicode : Unicode}

def Lost (unicode : Unicode) (x : Nat × Text) : Prop :=
  x.1 = 0x08 ∨ x.1 = 0x0b ∨ (2 ≤ x.2.length ∧ unicode.isPrint x.1 = false)

variable {c : Char}

theorem items_hexByte (hc : c.toNat < 256) (rest : Text) :
    Glob.items ("\\x".toList ++ hex 2 c.toNat ++ rest) =
      ⟨c, true⟩ :: Glob.items rest := by
  have hdigit : ∀ k : Fin 16, Glob.hexValue (hexDigit k) = some k.val := by
    decide
  have hvalue : ∀ n, Glob.hexValue (hexDigit n) = some (n % 16) := by
    intro n
    rw [show hexDigit n = hexDigit (n % 16) by simp [hexDigit]]
    exact hdigit ⟨n % 16, Nat.mod_lt _ (by decide)⟩
  have hescape : Glob.escapeValue ('x' :: hexDigit (c.toNat / 16) :: hexDigit c.toNat :: rest) =
        (Char.ofNat (16 * (c.toNat / 16 % 16) + c.toNat % 16), 3) := by
    have hletter : Glob.escapeLetters.lookup 'x' = none := by decide
    simp only [Glob.escapeValue, hletter, List.head?_cons, List.tail_cons,
      Option.bind_some, hvalue, if_true]
  have hnumber : 16 * (c.toNat / 16 % 16) + c.toNat % 16 = c.toNat := by
    omega
  have happ : "\\x".toList ++ hex 2 c.toNat ++ rest =
      '\\' :: 'x' :: hexDigit (c.toNat / 16) :: hexDigit c.toNat :: rest := rfl
  rw [happ, Glob.items_escape, hescape, hnumber, Char.ofNat_toNat]
  rfl

inductive ReadBack (unicode : Unicode) (x : Nat × Text) : Prop
  | printed
      (hkept : ¬ Lost unicode x)
      (hread : ∀ rest, Glob.items (quoteRune unicode x ++ rest) =
        x.2.map (⟨·, false⟩) ++ Glob.items rest)
  | escaped
      (hkept : ¬ Lost unicode x)
      (c : Char)
      (hbyte : x.2 = [c])
      (hc : c ∉ Glob.metacharacters)
      (hread : ∀ rest, Glob.items (quoteRune unicode x ++ rest) =
        ⟨c, true⟩ :: Glob.items rest)
  | lost
      (hlost : Lost unicode x)
      (hbytes : ∀ c ∈ x.2, c ∉ Glob.metacharacters)
      (d : Char)
      (more : Text)
      (hhead : ∃ c bytes, x.2 = c :: bytes ∧ c ≠ d)
      (hmore : ∀ c ∈ d :: more, c ∉ Glob.metacharacters)
      (hread : ∀ rest, Glob.items (quoteRune unicode x ++ rest) =
        ⟨d, true⟩ :: (more.map (⟨·, false⟩) ++ Glob.items rest))

theorem metacharacter_printable (hc : c ∈ Glob.metacharacters) :
    0x20 ≤ c.toNat ∧ c.toNat < 0x7f := by
  have hall : Glob.metacharacters.all
      (fun c => decide (0x20 ≤ c.toNat ∧ c.toNat < 0x7f)) = true := by
    decide
  exact forall_mem_of_all hall c hc

theorem hex_not_meta {digits n : Nat} (hc : c ∈ hex digits n) :
    c ∉ Glob.metacharacters ∧ c ≠ '\\' := by
  have hdigit : ∀ k : Fin 16,
      hexDigit k ∉ Glob.metacharacters ∧ hexDigit k ≠ '\\' := by
    decide
  obtain ⟨k, rfl⟩ := mem_hex hc
  exact hdigit k

theorem not_metacharacter (hc : ¬ (0x20 ≤ c.toNat ∧ c.toNat < 0x7f)) : c ∉ Glob.metacharacters :=
  fun hmem => hc (metacharacter_printable hmem)

theorem not_lost_byte {r : Nat} (hback : r ≠ 0x08) (htab : r ≠ 0x0b) : ¬ Lost unicode (r, [c]) := by
  rintro (h | h | ⟨h, -⟩)
  · exact hback h
  · exact htab h
  · exact absurd h (by decide : ¬ 2 ≤ 1)

theorem readBack_letter {letter : Char} (hquote : quoteRune unicode (c.toNat, [c]) = ['\\', letter])
    (hletter : escapeLetter c.toNat = some letter) : ReadBack unicode (c.toNat, [c]) := by
  have hread : ∀ v, (∀ rest, Glob.escapeValue (letter :: rest) = (v, 1)) →
      ∀ rest, Glob.items (quoteRune unicode (c.toNat, [c]) ++ rest) =
        ⟨v, true⟩ :: Glob.items rest := by
    intro v hv rest
    have hitems := Glob.items_escape (letter :: rest)
    rw [hv rest] at hitems
    rw [hquote]
    exact hitems
  have hcases := escapeLetter_cases hletter
  simp only [List.mem_cons, Prod.mk.injEq, List.not_mem_nil, or_false] at hcases
  have hmeta : c ∉ Glob.metacharacters := not_metacharacter (by omega)
  have hknown : ∀ v : Char, c.toNat = v.toNat → c.toNat ≠ 0x08 →
      c.toNat ≠ 0x0b → (∀ rest, Glob.escapeValue (letter :: rest) = (v, 1)) →
        ReadBack unicode (c.toNat, [c]) := by
    intro v hv hback htab hvalue
    have hcv : c = v := by
      rw [← Char.ofNat_toNat c, hv, Char.ofNat_toNat]
    exact .escaped (not_lost_byte hback htab) c rfl hmeta (hcv ▸ hread v hvalue)
  have hunknown : Lost unicode (c.toNat, [c]) → c ≠ letter → letter ∉ Glob.metacharacters →
      (∀ rest, Glob.escapeValue (letter :: rest) = (letter, 1)) →
        ReadBack unicode (c.toNat, [c]) := by
    intro hlost hne hplain hvalue
    refine .lost hlost ?_ letter [] ?_ ?_ (hread letter hvalue)
    · exact List.forall_mem_singleton.mpr hmeta
    · exact ⟨c, [], rfl, hne⟩
    · exact List.forall_mem_singleton.mpr hplain
  -- two of the seven letters are unknown to the reader
  rcases hcases with ⟨hn, rfl⟩ | ⟨hn, rfl⟩ | ⟨hn, rfl⟩ | ⟨hn, rfl⟩ | ⟨hn, rfl⟩ |
    ⟨hn, rfl⟩ | ⟨hn, rfl⟩
  · exact hknown '\x07' hn (by omega) (by omega) (fun _ => rfl)
  · refine hunknown (Or.inl hn) ?_ (by decide) (fun _ => rfl)
    rintro rfl
    exact absurd hn (by decide)
  · exact hknown '\x0c' hn (by omega) (by omega) (fun _ => rfl)
  · exact hknown '\n' hn (by omega) (by omega) (fun _ => rfl)
  · exact hknown '\x0d' hn (by omega) (by omega) (fun _ => rfl)
  · exact hknown '\t' hn (by omega) (by omega) (fun _ => rfl)
  · refine hunknown (Or.inr (Or.inl hn)) ?_ (by decide) (fun _ => rfl)
    rintro rfl
    exact absurd hn (by decide)

theorem readBack_ascii (hc : c.toNat < 0x80) : ReadBack unicode (c.toNat, [c]) := by
  have hquote := quoteRune_ascii hc unicode
  by_cases hmark : c.toNat = 0x22 ∨ c.toNat = 0x5c
  · -- a quote or a backslash, behind a backslash
    rw [escapeRune, if_pos hmark] at hquote
    have hkept : ¬ Lost unicode (c.toNat, [c]) := not_lost_byte (by omega) (by omega)
    have hmarks : c = '"' ∨ c = '\\' := by
      rw [← Char.ofNat_toNat c]
      exact hmark.imp (fun h => by rw [h]) (fun h => by rw [h])
    rcases hmarks with rfl | rfl
    · refine .escaped hkept _ rfl (by decide) (fun rest => ?_)
      rw [hquote]
      exact Glob.items_escape ('"' :: rest)
    · refine .escaped hkept _ rfl (by decide) (fun rest => ?_)
      rw [hquote]
      exact Glob.items_escape ('\\' :: rest)
  · rw [escapeRune, if_neg hmark] at hquote
    by_cases hprint : 0x20 ≤ c.toNat ∧ c.toNat < 0x7f
    · have hisPrint : unicode.isPrint c.toNat = true := by
        rw [unicode.isPrint_ascii _ hc]
        exact decide_eq_true hprint
      rw [if_pos hisPrint] at hquote
      refine .printed (not_lost_byte (by omega) (by omega)) (fun rest => ?_)
      rw [hquote]
      refine Glob.items_append (fun hmem => hmark (Or.inr ?_)) rest
      rw [← List.mem_singleton.mp hmem]
      rfl
    · have hisPrint : ¬ unicode.isPrint c.toNat = true := by
        rw [unicode.isPrint_ascii _ hc]
        exact fun h => hprint (of_decide_eq_true h)
      rw [if_neg hisPrint] at hquote
      cases hletter : escapeLetter c.toNat with
      | some letter =>
        rw [hletter] at hquote
        exact readBack_letter hquote hletter
      | none =>
        rw [hletter] at hquote
        have hcontrol : c.toNat < 0x20 ∨ c.toNat = 0x7f := by omega
        have hback : c.toNat ≠ 0x08 := by
          intro h
          rw [h] at hletter
          exact absurd hletter (by decide)
        have htab : c.toNat ≠ 0x0b := by
          intro h
          rw [h] at hletter
          exact absurd hletter (by decide)
        refine .escaped (not_lost_byte hback htab) c rfl (not_metacharacter hprint) (fun rest => ?_)
        rw [hquote]
        simp only [escapeHex, if_pos hcontrol]
        exact items_hexByte (by omega) rest

theorem readBack_multi {r : Nat} {bytes : Text} (hr : 0x80 ≤ r) (htwo : 2 ≤ bytes.length)
    (hhigh : ∀ c ∈ bytes, ¬ c.toNat < 0x80) : ReadBack unicode (r, bytes) := by
  have hquote : quoteRune unicode (r, bytes) = escapeRune unicode r bytes := by
    unfold quoteRune
    split
    · rename_i b heq
      cases heq
      exact absurd htwo (by decide : ¬ 2 ≤ 1)
    · rename_i heq
      cases heq
      rfl
  have hmeta : ∀ c ∈ bytes, c ∉ Glob.metacharacters :=
    fun c hc => not_metacharacter (by have := hhigh c hc; omega)
  rw [escapeRune, if_neg (by omega)] at hquote
  by_cases hprint : unicode.isPrint r = true
  · rw [if_pos hprint] at hquote
    refine .printed ?_ (fun rest => ?_)
    · rintro (h | h | ⟨-, h⟩)
      · exact absurd (hr.trans_eq h) (by decide)
      · exact absurd (hr.trans_eq h) (by decide)
      · rw [hprint] at h
        cases h
    · rw [hquote]
      refine Glob.items_append (fun hmem => hhigh _ hmem (by decide)) rest
  · have hletter : escapeLetter r = none := by
      rw [Option.eq_none_iff_forall_ne_some]
      intro letter hletter
      have hcases := escapeLetter_cases hletter
      simp only [List.mem_cons, Prod.mk.injEq, List.not_mem_nil, or_false] at hcases
      omega
    rw [if_neg hprint, hletter] at hquote
    have hlost : Lost unicode (r, bytes) := Or.inr (Or.inr ⟨htwo, Bool.not_eq_true _ ▸ hprint⟩)
    have hunknown : ∀ (d : Char) (digits : Nat),
        quoteRune unicode (r, bytes) = '\\' :: d :: hex digits r →
        (∀ rest, Glob.escapeValue (d :: rest) = (d, 1)) →
        d.toNat < 0x80 → d ∉ Glob.metacharacters →
          ReadBack unicode (r, bytes) := by
      intro d digits hd hvalue hascii hplain
      refine .lost hlost hmeta d (hex digits r) ?_ ?_ (fun rest => ?_)
      · obtain ⟨c, tail, rfl⟩ : ∃ c tail, bytes = c :: tail :=
          List.exists_cons_of_length_pos (by omega)
        refine ⟨c, tail, rfl, ?_⟩
        rintro rfl
        exact hhigh c List.mem_cons_self hascii
      · exact List.forall_mem_cons.mpr ⟨hplain, fun c hc => (hex_not_meta hc).1⟩
      · have hitems := Glob.items_escape (d :: (hex digits r ++ rest))
        rw [hvalue] at hitems
        rw [hd]
        refine hitems.trans (congrArg _ ?_)
        exact Glob.items_append (fun hmem => (hex_not_meta hmem).2 rfl) rest
    simp only [escapeHex, if_neg (show ¬ (r < 0x20 ∨ r = 0x7f) by omega)] at hquote
    split at hquote
    · exact hunknown 'u' 4 hquote (fun _ => rfl) (by decide) (by decide)
    · exact hunknown 'U' 8 hquote (fun _ => rfl) (by decide) (by decide)

theorem readBack {t : Text} {x : Nat × Text} (hx : x ∈ runes t)
    (hbytes : ∀ c ∈ x.2, c.toNat < 256) : ReadBack unicode x := by
  rcases runes_kinds hx with ⟨c, hc, rfl⟩ | ⟨c, hc, rfl⟩ | ⟨hr, htwo, hhigh⟩
  · exact readBack_ascii hc
  · refine .escaped (not_lost_byte (by decide) (by decide)) c rfl
      (not_metacharacter (by omega)) (fun rest => ?_)
    exact items_hexByte (hbytes c List.mem_cons_self) rest
  · exact readBack_multi hr htwo hhigh

end Quoted

section Exact

/-- A pattern written for a text; `faithful` says when its items are the bytes of
the text. -/
structure PatternOf (p : List Glob.Item) (t : Text) (faithful : Prop) : Prop where
  load_eq : Glob.load p = Glob.weight t
  meta_iff : (∃ i ∈ p, i.plain = false) ↔ ∃ c ∈ t, c ∈ Glob.metacharacters
  chars_iff : p.map Glob.Item.char = t ↔ faithful

theorem PatternOf.plain {p : List Glob.Item} {t : Text} {faithful : Prop}
    (h : PatternOf p t faithful) (ht : ∀ c ∈ t, c ∉ Glob.metacharacters) :
    ∀ i ∈ p, i.plain = true := by
  intro i hi
  by_contra hnot
  obtain ⟨c, hc, hmeta⟩ := h.meta_iff.mp ⟨i, hi, Bool.not_eq_true _ ▸ hnot⟩
  exact ht c hc hmeta

variable {faithful : Prop} {t : Text} {p : List Glob.Item}

theorem PatternOf.exact_iff (h : PatternOf p t faithful) :
    (∀ file, Glob.Matches p file ↔ file = t) ↔
      (∀ c ∈ t, c ∉ Glob.metacharacters) ∧ faithful := by
  constructor
  · intro hexact
    have hplain : ∀ c ∈ t, c ∉ Glob.metacharacters := by
      intro c hc hmeta
      -- a lighter text is matched too
      obtain ⟨t', hm, -, hlight⟩ := ((hexact t).mpr rfl).thin
      have hlt := hlight (h.meta_iff.mpr ⟨c, hc, hmeta⟩)
      rw [(hexact t').mp hm, h.load_eq] at hlt
      exact absurd hlt (Nat.lt_irrefl _)
    refine ⟨hplain, h.chars_iff.mp ?_⟩
    exact (hexact _).mp ((Glob.matches_plain_iff (h.plain hplain)).mpr rfl)
  · rintro ⟨hplain, hfaithful⟩ file
    rw [Glob.matches_plain_iff (h.plain hplain), h.chars_iff.mpr hfaithful]

theorem patternOf_bytes (t : Text) : PatternOf (t.map (⟨·, false⟩)) t True where
  load_eq := by
    rw [Glob.load, List.map_map]
    exact congrArg Glob.weight (List.map_id t)
  meta_iff := by
    simp [Glob.Item.plain]
  chars_iff := by
    rw [List.map_map]
    exact iff_of_true (List.map_id t) trivial

theorem PatternOf.append_left {q : List Glob.Item} {u : Text}
    (hp : PatternOf p t True) (hq : PatternOf q u faithful) :
    PatternOf (p ++ q) (t ++ u) faithful where
  load_eq := by
    rw [Glob.load_append, Glob.weight_append, hp.load_eq, hq.load_eq]
  meta_iff := by
    simp only [List.mem_append, or_and_right, exists_or, hp.meta_iff, hq.meta_iff]
  chars_iff := by
    rw [List.map_append, hp.chars_iff.mpr trivial, List.append_cancel_left_eq]
    exact hq.chars_iff

theorem PatternOf.append_lost {q : List Glob.Item} {u : Text}
    {c d : Char} {more : List Glob.Item} {bytes : Text} (hp : p = ⟨d, true⟩ :: more)
    (ht : t = c :: bytes) (hne : c ≠ d) (hplain : ∀ i ∈ p, i.char ∉ Glob.metacharacters)
    (hbytes : ∀ c ∈ t, c ∉ Glob.metacharacters) (hq : PatternOf q u faithful) :
    PatternOf (p ++ q) (t ++ u) False where
  load_eq := by
    have hload : Glob.load p = 0 := by
      rw [Glob.load, Glob.weight, List.countP_eq_zero]
      intro x hx
      obtain ⟨i, hi, rfl⟩ := List.mem_map.mp hx
      simpa using hplain i hi
    have hweight : Glob.weight t = 0 := by
      rw [Glob.weight, List.countP_eq_zero]
      intro x hx
      simpa using hbytes x hx
    rw [Glob.load_append, Glob.weight_append, hload, hweight, hq.load_eq]
  meta_iff := by
    have hitems : ¬ ∃ i ∈ p, i.plain = false := by
      rintro ⟨i, hi, hmeta⟩
      rw [Glob.Item.plain, Bool.or_eq_false_iff, decide_eq_false_iff_not, not_not] at hmeta
      exact hplain i hi hmeta.2
    have htext : ¬ ∃ c ∈ t, c ∈ Glob.metacharacters := by
      rintro ⟨c, hc, hmeta⟩
      exact hbytes c hc hmeta
    simp only [List.mem_append, or_and_right, exists_or, hq.meta_iff, hitems, htext, false_or]
  chars_iff := by
    refine iff_of_false (fun heq => hne ?_) id
    rw [hp, ht] at heq
    exact (List.cons.inj heq).1.symm

theorem patternOf_escaped {c : Char} (hc : c ∉ Glob.metacharacters) :
    PatternOf [⟨c, true⟩] [c] True where
  load_eq := rfl
  meta_iff := by
    simp [Glob.Item.plain, hc]
  chars_iff := iff_of_true rfl trivial

theorem PatternOf.congr {faithful' : Prop}
    (h : PatternOf p t faithful) (hiff : faithful ↔ faithful') : PatternOf p t faithful' :=
  ⟨h.load_eq, h.meta_iff, h.chars_iff.trans hiff⟩

variable {unicode : Unicode}

theorem patternOf_quoted {xs : List (Nat × Text)} (hxs : ∀ x ∈ xs, ReadBack unicode x) :
    PatternOf (Glob.items (xs.flatMap (quoteRune unicode)))
      (xs.flatMap Prod.snd) (∀ x ∈ xs, ¬ Lost unicode x) := by
  induction xs with
  | nil => exact (patternOf_bytes []).congr (by simp)
  | cons x xs ih =>
    obtain ⟨hx, hrest⟩ := List.forall_mem_cons.mp hxs
    have ih := ih hrest
    rw [List.flatMap_cons, List.flatMap_cons, List.forall_mem_cons]
    cases hx with
    | printed hkept hread =>
      rw [hread]
      exact ((patternOf_bytes x.2).append_left ih).congr (iff_and_self.mpr fun _ => hkept)
    | escaped hkept c hbyte hc hread =>
      rw [hread, hbyte]
      exact ((patternOf_escaped hc).append_left ih).congr (iff_and_self.mpr fun _ => hkept)
    | lost hlost hbytes d more hhead hmore hread =>
      obtain ⟨c, bytes, hx, hne⟩ := hhead
      rw [hread, ← List.cons_append]
      refine (PatternOf.append_lost rfl hx hne ?_ hbytes ih).congr
        (iff_of_false id (fun h => h.1 hlost))
      intro i hi
      rcases List.mem_cons.mp hi with rfl | hi
      · exact hmore d List.mem_cons_self
      · obtain ⟨e, he, rfl⟩ := List.mem_map.mp hi
        exact hmore e (List.mem_cons_of_mem _ he)

def NeedsQuotes (name : Text) : Prop :=
  name.any (· ∈ " \t\"\\".toList) = true

def PlainName (unicode : Unicode) (name : Text) : Prop :=
  (∀ c ∈ name, c ∉ Glob.metacharacters) ∧
    (NeedsQuotes name → ∀ x ∈ runes name, ¬ Lost unicode x)

theorem patternOf_path {name : Text} (hname : ∀ c ∈ name, c.toNat < 256) :
    PatternOf (Glob.readPath (quoteAppArmorPath unicode name)) name
      (NeedsQuotes name → ∀ x ∈ runes name, ¬ Lost unicode x) := by
  unfold quoteAppArmorPath
  split
  · rename_i hquoted
    have hbytes : ∀ x ∈ runes name, ∀ c ∈ x.2, c.toNat < 256 := by
      intro x hx c hc
      rw [← flatMap_runes name] at hname
      exact hname c (List.mem_flatMap.mpr ⟨x, hx, hc⟩)
    have hread : Glob.readPath (quote unicode name) =
        Glob.items ((runes name).flatMap (quoteRune unicode)) := by
      rw [quote, Glob.readPath, List.dropLast_concat]
    have hreads : ∀ x ∈ runes name, ReadBack unicode x := fun x hx => readBack hx (hbytes x hx)
    have hpattern := patternOf_quoted hreads
    rw [flatMap_runes, ← hread] at hpattern
    exact hpattern.congr ⟨fun h _ => h, fun h => h hquoted⟩
  · rename_i hbare
    have hslash : '\\' ∉ name := fun hmem =>
      hbare (List.any_eq_true.mpr ⟨_, hmem, by decide⟩)
    have hread : Glob.readPath name = name.map (⟨·, false⟩) := by
      have hitems := Glob.items_append hslash []
      rw [List.append_nil] at hitems
      refine Eq.trans ?_ (hitems.trans (List.append_nil _))
      unfold Glob.readPath
      split
      · exact absurd (List.any_eq_true.mpr ⟨'"', List.mem_cons_self, by decide⟩) hbare
      · rfl
    rw [hread]
    exact (patternOf_bytes name).congr (iff_of_true trivial (fun hquotes => absurd hquotes hbare))

/-- What a path rule allows. -/
theorem pathRule_exact_iff (unicode : Unicode) (r : AppArmorDenialRecord) (hpath : r.GivesPath)
    (hname : ∀ c ∈ r.name, c.toNat < 256) :
    ((∀ file, RuleAllows (ruleOf unicode r) file → file = r.name) ↔
      PlainName unicode r.name ∨
        ∀ file, ¬ Glob.Matches
          (Glob.readPath (quoteAppArmorPath unicode r.name)) file) ∧
    ((∀ file, RuleAllows (ruleOf unicode r) file ↔ file = r.name) ↔
      PlainName unicode r.name) := by
  have hpattern : PatternOf (Glob.readPath (quoteAppArmorPath unicode r.name))
      r.name _ := patternOf_path hname
  have hexact := hpattern.exact_iff
  unfold RuleAllows
  rw [rulePath_ruleOf hpath]
  refine ⟨?_, hexact⟩
  rw [PlainName, ← hexact]
  constructor
  · intro honly
    by_cases hsome : ∃ file, Glob.Matches (Glob.readPath (quoteAppArmorPath unicode r.name)) file
    · obtain ⟨file, hfile⟩ := hsome
      have hself := honly file hfile
      refine Or.inl (fun other => ⟨honly other, ?_⟩)
      rintro rfl
      exact hself ▸ hfile
    · exact Or.inr (not_exists.mp hsome)
  · rintro (heq | hnone) file hfile
    · exact (heq file).mp hfile
    · exact absurd hfile (hnone file)

instance (unicode : Unicode) (x : Nat × Text) : Decidable (Lost unicode x) :=
  inferInstanceAs (Decidable (_ ∨ _))

def blankRecord : AppArmorDenialRecord :=
  { operation := "open".toList, name := "/a b".toList, requestedMask := "r".toList }

theorem pathRule_exact_blank :
    blankRecord.GivesPath ∧
      ∀ file, RuleAllows (ruleOf Unicode.ascii blankRecord) file ↔ file = blankRecord.name :=
  ⟨by decide, (pathRule_exact_iff Unicode.ascii blankRecord (by decide)
    (forall_mem_of_all (by decide))).2.mpr
    ⟨forall_mem_of_all (by decide), fun _ => by decide⟩⟩

theorem pathRule_star_allows :
    AppArmorDenialRecord.GivesPath
        { operation := "open".toList, name := "/t/*".toList,
          requestedMask := "r".toList } ∧
      ruleOf Unicode.ascii
          { operation := "open".toList, name := "/t/*".toList,
            requestedMask := "r".toList } = "  /t/* r,".toList ∧
      RuleAllows "  /t/* r,".toList "/t/key".toList := by
  refine ⟨by decide, by decide, ?_⟩
  have hitems : Glob.readPath (rulePath "  /t/* r,".toList) =
      [⟨'/', false⟩, ⟨'t', false⟩, ⟨'/', false⟩, ⟨'*', false⟩] := by
    decide
  have hstar : Glob.Matches [⟨'*', false⟩] "key".toList :=
    .starMore (by decide) (.starMore (by decide) (.starMore (by decide) (.starNone .nil)))
  unfold RuleAllows
  rw [hitems]
  exact .plain (i := ⟨'/', false⟩) (by decide) (.plain (i := ⟨'t', false⟩) (by decide)
      (.plain (i := ⟨'/', false⟩) (by decide) hstar))

end Exact

end Runc.Scanner
