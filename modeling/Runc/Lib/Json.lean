import Runc.Lib.JsonString

/-!
# JSON

JSON values, their texts as Go writes them, and a reader for JSON texts that refuses
what is nested too deeply, as Go does.
-/

namespace Runc.Lib

mutual

inductive Json
  | null
  | bool (b : Bool)
  | num (literal : Text)
  | str (s : Text)
  | arr (items : Items)
  | obj (members : Members)

inductive Items
  | nil
  | cons (v : Json) (rest : Items)

inductive Members
  | nil
  | cons (key : Text) (v : Json) (rest : Members)

end

def isNumberChar (c : Char) : Bool :=
  isDigit c || c = '-' || c = '+' || c = '.' || c = 'e' || c = 'E'

def isExponent : Text → Bool
  | [] => true
  | c :: rest =>
      let digits := match rest with
        | '+' :: digits | '-' :: digits => digits
        | _ => rest
      (c = 'e' || c = 'E') && digits ≠ [] && digits.all isDigit

def isFraction : Text → Bool
  | '.' :: rest => rest.head?.any isDigit && isExponent (rest.dropWhile isDigit)
  | t => isExponent t

def isUnsigned : Text → Bool
  | '0' :: rest => isFraction rest
  | c :: rest => isDigit c && isFraction (rest.dropWhile isDigit)
  | [] => false

def isSigned : Text → Bool
  | '-' :: rest => isUnsigned rest
  | t => isUnsigned t

def isNumber (t : Text) : Bool :=
  t.all isNumberChar && isSigned t

def renderString (s : Text) : Text :=
  '"' :: (escapeJson s ++ ['"'])

mutual

def Json.render : Json → Text
  | .null => "null".toList
  | .bool true => "true".toList
  | .bool false => "false".toList
  | .num literal => literal
  | .str s => renderString s
  | .arr items => '[' :: items.render true
  | .obj members => '\x7b' :: members.render true

def Items.render : Bool → Items → Text
  | _, .nil => [']']
  | first, .cons v rest => (if first then [] else [',']) ++ (v.render ++ rest.render false)

def Members.render : Bool → Members → Text
  | _, .nil => ['\x7d']
  | first, .cons key v rest =>
      (if first then [] else [',']) ++
        (renderString key ++ ':' :: (v.render ++ rest.render false))

end

def isJsonSpace (c : Char) : Bool :=
  c = ' ' || c = '\t' || c = '\r' || c = '\n'

def skipBlanks (t : Text) : Text :=
  t.dropWhile isJsonSpace

def word (w t : Text) : Option Text :=
  if w.isPrefixOf t then some (t.drop w.length) else none

def scalar (t : Text) : Option (Json × Text) :=
  match word "null".toList t with
  | some rest => some (.null, rest)
  | none =>
      match word "true".toList t with
      | some rest => some (.bool true, rest)
      | none =>
          match word "false".toList t with
          | some rest => some (.bool false, rest)
          | none =>
              if isNumber (t.takeWhile isNumberChar) then
                some (.num (t.takeWhile isNumberChar), t.dropWhile isNumberChar)
              else none

def memberKey (t : Text) : Option (Text × Text) :=
  match skipBlanks t with
  | '"' :: rest =>
      match readString rest with
      | none => none
      | some (key, rest) =>
          match skipBlanks rest with
          | ':' :: rest => some (key, rest)
          | _ => none
  | _ => none

mutual

def value : Nat → Nat → Text → Option (Json × Text)
  | 0, _, _ => none
  | fuel + 1, depth, t =>
      match skipBlanks t with
      | [] => none
      | c :: rest =>
          if c = '"' then (readString rest).map fun x => (.str x.1, x.2)
          else if c = '[' then
            match depth with
            | 0 => none
            | depth + 1 => (items fuel depth true rest).map fun x => (.arr x.1, x.2)
          else if c = '\x7b' then
            match depth with
            | 0 => none
            | depth + 1 => (members fuel depth true rest).map fun x => (.obj x.1, x.2)
          else scalar (c :: rest)

def items : Nat → Nat → Bool → Text → Option (Items × Text)
  | 0, _, _, _ => none
  | fuel + 1, depth, first, t =>
      match skipBlanks t with
      | [] => none
      | c :: rest =>
          if c = ']' then some (.nil, rest)
          else if first || c = ',' then
            match value fuel depth (if first then c :: rest else rest) with
            | none => none
            | some (v, rest) =>
                (items fuel depth false rest).map fun x => (.cons v x.1, x.2)
          else none

def members : Nat → Nat → Bool → Text → Option (Members × Text)
  | 0, _, _, _ => none
  | fuel + 1, depth, first, t =>
      match skipBlanks t with
      | [] => none
      | c :: rest =>
          if c = '\x7d' then some (.nil, rest)
          else if first || c = ',' then
            match memberKey (if first then c :: rest else rest) with
            | none => none
            | some (key, rest) =>
                match value fuel depth rest with
                | none => none
                | some (v, rest) =>
                    (members fuel depth false rest).map fun x => (.cons key v x.1, x.2)
          else none

end

def maxNestingDepth : Nat :=
  10000

def parse (t : Text) : Option Json :=
  match value (2 * t.length + 2) maxNestingDepth t with
  | some (v, rest) => if skipBlanks rest = [] then some v else none
  | none => none

mutual

def Json.NumbersOk : Json → Prop
  | .num literal => literal ≠ [] ∧ isNumber literal = true
  | .arr items => items.NumbersOk
  | .obj members => members.NumbersOk
  | .null | .bool _ | .str _ => True

def Items.NumbersOk : Items → Prop
  | .nil => True
  | .cons v rest => v.NumbersOk ∧ rest.NumbersOk

def Members.NumbersOk : Members → Prop
  | .nil => True
  | .cons _ v rest => v.NumbersOk ∧ rest.NumbersOk

end

mutual

def Json.depth : Json → Nat
  | .arr items => items.depth + 1
  | .obj members => members.depth + 1
  | .null | .bool _ | .num _ | .str _ => 0

def Items.depth : Items → Nat
  | .nil => 0
  | .cons v rest => max v.depth rest.depth

def Members.depth : Members → Nat
  | .nil => 0
  | .cons _ v rest => max v.depth rest.depth

end

mutual

def Json.carried : Json → Json
  | .str s => .str (Lib.carried s)
  | .arr items => .arr items.carried
  | .obj members => .obj members.carried
  | .null => .null
  | .bool b => .bool b
  | .num literal => .num literal

def Items.carried : Items → Items
  | .nil => .nil
  | .cons v rest => .cons v.carried rest.carried

def Members.carried : Members → Members
  | .nil => .nil
  | .cons key v rest => .cons (Lib.carried key) v.carried rest.carried

end

mutual

def Json.Utf8 : Json → Prop
  | .str s => ValidUtf8 s
  | .arr items => items.Utf8
  | .obj members => members.Utf8
  | .null | .bool _ | .num _ => True

def Items.Utf8 : Items → Prop
  | .nil => True
  | .cons v rest => v.Utf8 ∧ rest.Utf8

def Members.Utf8 : Members → Prop
  | .nil => True
  | .cons key v rest => ValidUtf8 key ∧ v.Utf8 ∧ rest.Utf8

end

mutual

theorem Json.carried_of_utf8 (v : Json) (h : v.Utf8) : v.carried = v := by
  match v with
  | .null => rfl
  | .bool b => rfl
  | .num literal => rfl
  | .str s => rw [Json.carried, carried_eq_iff.mpr h]
  | .arr items => rw [Json.carried, Items.carried_of_utf8 items h]
  | .obj members => rw [Json.carried, Members.carried_of_utf8 members h]

theorem Items.carried_of_utf8 (items : Items) (h : items.Utf8) : items.carried = items := by
  match items with
  | .nil => rfl
  | .cons v rest => rw [Items.carried, Json.carried_of_utf8 v h.1, Items.carried_of_utf8 rest h.2]

theorem Members.carried_of_utf8 (members : Members) (h : members.Utf8) :
    members.carried = members := by
  match members with
  | .nil => rfl
  | .cons key v rest =>
    rw [Members.carried, carried_eq_iff.mpr h.1, Json.carried_of_utf8 v h.2.1,
      Members.carried_of_utf8 rest h.2.2]

end

def Ends (rest : Text) : Prop :=
  ∀ c ∈ rest.head?, isNumberChar c = false

theorem ends_nil : Ends [] :=
  fun _ hc => nomatch hc

theorem ends_cons {c : Char} (h : isNumberChar c = false) (rest : Text) : Ends (c :: rest) := by
  intro d hd
  cases hd
  exact h

theorem takeWhile_number {literal rest : Text} (hliteral : ∀ c ∈ literal, isNumberChar c = true)
    (hrest : Ends rest) :
    (literal ++ rest).takeWhile isNumberChar = literal ∧
      (literal ++ rest).dropWhile isNumberChar = rest := by
  have hstop : rest.takeWhile isNumberChar = [] ∧ rest.dropWhile isNumberChar = rest := by
    cases rest with
    | nil => exact ⟨rfl, rfl⟩
    | cons c rest =>
      have hc := hrest c rfl
      constructor
      · rw [List.takeWhile_cons, hc, if_neg Bool.false_ne_true]
      · rw [List.dropWhile_cons, hc, if_neg Bool.false_ne_true]
  constructor
  · rw [List.takeWhile_append_of_pos hliteral, hstop.1, List.append_nil]
  · rw [List.dropWhile_append_of_pos hliteral, hstop.2]

theorem isNumberChar_of_isNumber {literal : Text} (h : isNumber literal = true) :
    ∀ c ∈ literal, isNumberChar c = true := by
  rw [isNumber, Bool.and_eq_true] at h
  exact List.all_eq_true.mp h.1

theorem word_of_head {w t : Text} {c d : Char} (h : d ≠ c) : word (d :: w) (c :: t) = none := by
  have hno : (d :: w).isPrefixOf (c :: t) = false := by
    rw [List.isPrefixOf, beq_false_of_ne h, Bool.false_and]
  rw [word, hno, if_neg Bool.false_ne_true]

theorem scalar_num {literal rest : Text} (hne : literal ≠ []) (h : isNumber literal = true)
    (hrest : Ends rest) : scalar (literal ++ rest) = some (.num literal, rest) := by
  have hchars := isNumberChar_of_isNumber h
  obtain ⟨htake, hdrop⟩ := takeWhile_number hchars hrest
  obtain ⟨c, tail, rfl⟩ := List.exists_cons_of_ne_nil hne
  have hc := hchars c List.mem_cons_self
  have hword : ∀ (d : Char) (w : Text), isNumberChar d = false →
      word (d :: w) (c :: (tail ++ rest)) = none := by
    intro d w hd
    refine word_of_head ?_
    rintro rfl
    rw [hc] at hd
    cases hd
  have hnull : word "null".toList (c :: (tail ++ rest)) = none := hword 'n' _ (by decide)
  have htrue : word "true".toList (c :: (tail ++ rest)) = none := hword 't' _ (by decide)
  have hfalse : word "false".toList (c :: (tail ++ rest)) = none := hword 'f' _ (by decide)
  rw [List.cons_append] at htake hdrop ⊢
  rw [scalar, hnull, htrue, hfalse]
  dsimp only
  rw [htake, if_pos h, hdrop]

theorem render_head {v : Json} (h : v.NumbersOk) :
    ∃ c t, v.render = c :: t ∧ isJsonSpace c = false ∧ c ≠ ']' := by
  cases v with
  | num literal =>
    obtain ⟨hne, hnumber⟩ := h
    obtain ⟨c, tail, rfl⟩ := List.exists_cons_of_ne_nil hne
    have hc := isNumberChar_of_isNumber hnumber c List.mem_cons_self
    refine ⟨c, tail, rfl, ?_, ?_⟩
    · rw [Bool.eq_false_iff]
      intro hspace
      simp only [isJsonSpace, Bool.or_eq_true, decide_eq_true_eq] at hspace
      rcases hspace with ((rfl | rfl) | rfl) | rfl <;> cases hc
    · rintro rfl
      cases hc
  | null => exact ⟨'n', _, rfl, by decide, by decide⟩
  | bool b =>
    cases b with
    | false => exact ⟨'f', _, rfl, by decide, by decide⟩
    | true => exact ⟨'t', _, rfl, by decide, by decide⟩
  | str s => exact ⟨'"', _, rfl, by decide, by decide⟩
  | arr items => exact ⟨'[', _, rfl, by decide, by decide⟩
  | obj members => exact ⟨'\x7b', _, rfl, by decide, by decide⟩

theorem skipBlanks_cons {c : Char} (h : isJsonSpace c = false) (t : Text) :
    skipBlanks (c :: t) = c :: t := by
  rw [skipBlanks, List.dropWhile_cons, h, if_neg Bool.false_ne_true]

theorem memberKey_render (key rest : Text) :
    memberKey (renderString key ++ ':' :: rest) = some (carried key, rest) := by
  have hquote : renderString key ++ ':' :: rest =
      '"' :: (escapeJson key ++ '"' :: ':' :: rest) := by
    rw [renderString, List.cons_append, List.append_assoc]
    rfl
  rw [hquote, memberKey, skipBlanks_cons (by decide)]
  simp only [readString_escapeJson]
  rw [skipBlanks_cons (by decide)]
  rfl

def within (deep limit : Nat) {α : Type} (x : α) : Option α :=
  if deep ≤ limit then some x else none

theorem within_succ (deep limit : Nat) {α : Type} (x : α) :
    within (deep + 1) (limit + 1) x = within deep limit x := by
  rw [within, within]
  exact if_congr Nat.succ_le_succ_iff rfl rfl

theorem within_map {deep limit : Nat} {α β : Type} (f : α → β) (x : α) :
    (within deep limit x).map f = within deep limit (f x) :=
  apply_ite (Option.map f) _ _ _

theorem within_bind {deep deep' limit : Nat} {α β γ : Type} {x : α} {y : β} {tail : Text}
    {g : Text → Option β} (f : α → β → γ) (hg : g tail = within deep' limit y) :
    ((within deep limit (x, tail)).bind fun p => (g p.2).map (f p.1)) =
      within (max deep deep') limit (f x y) := by
  rw [within, within]
  by_cases h : deep ≤ limit
  · rw [if_pos h, Option.bind_some, hg, within]
    by_cases h' : deep' ≤ limit
    · rw [if_pos h', if_pos (Nat.max_le.mpr ⟨h, h'⟩)]
      rfl
    · rw [if_neg h', if_neg fun hmax => h' (Nat.max_le.mp hmax).2]
      rfl
  · rw [if_neg h, if_neg fun hmax => h (Nat.max_le.mp hmax).1]
    rfl

theorem render_pos {v : Json} (h : v.NumbersOk) : 0 < v.render.length := by
  obtain ⟨c, t, heq, -, -⟩ := render_head h
  rw [heq]
  exact Nat.succ_pos _

theorem items_render_pos (first : Bool) (vs : Items) : 0 < (vs.render first).length := by
  cases vs with
  | nil => exact Nat.succ_pos _
  | cons v rest =>
    have hrest := items_render_pos false rest
    rw [Items.render, List.length_append, List.length_append]
    omega

theorem members_render_pos (first : Bool) (ms : Members) : 0 < (ms.render first).length := by
  cases ms with
  | nil => exact Nat.succ_pos _
  | cons key v rest =>
    rw [Members.render, List.length_append, List.length_append, List.length_cons]
    omega

theorem ends_items (vs : Items) (rest : Text) : Ends (vs.render false ++ rest) := by
  cases vs with
  | nil => exact ends_cons (by decide) _
  | cons v vs => exact ends_cons (by decide) _

theorem ends_members (ms : Members) (rest : Text) : Ends (ms.render false ++ rest) := by
  cases ms with
  | nil => exact ends_cons (by decide) _
  | cons key v ms => exact ends_cons (by decide) _

theorem match_eq_bind {α : Type} (r : Option (Json × Text)) (f : Json × Text → Option α) :
    (match r with
      | none => none
      | some (w, rest) => f (w, rest)) = r.bind f := by
  cases r with
  | none => rfl
  | some p => rfl

theorem items_cons {fuel depth : Nat} {first : Bool} {v : Json} {tail : Text} (h : v.NumbersOk) :
    items (fuel + 1) depth first ((if first then [] else [',']) ++ (v.render ++ tail)) =
      (value fuel depth (v.render ++ tail)).bind fun p =>
        (items fuel depth false p.2).map fun x => (.cons p.1 x.1, x.2) := by
  cases first with
  | false =>
    rw [if_neg Bool.false_ne_true, List.singleton_append, items, skipBlanks_cons (by decide)]
    exact match_eq_bind _ fun p =>
      (items fuel depth false p.2).map fun x => (Items.cons p.1 x.1, x.2)
  | true =>
    obtain ⟨c, t, heq, hspace, hclose⟩ := render_head h
    rw [if_pos rfl, List.nil_append, heq, List.cons_append, items, skipBlanks_cons hspace]
    dsimp only
    rw [if_neg hclose]
    exact match_eq_bind _ fun p =>
      (items fuel depth false p.2).map fun x => (Items.cons p.1 x.1, x.2)

theorem members_cons {fuel depth : Nat} {first : Bool} {key tail : Text} :
    members (fuel + 1) depth first
        ((if first then [] else [',']) ++ (renderString key ++ ':' :: tail)) =
      (value fuel depth tail).bind fun p =>
        (members fuel depth false p.2).map fun x => (.cons (carried key) p.1 x.1, x.2) := by
  have hkey := memberKey_render key tail
  cases first with
  | false =>
    rw [if_neg Bool.false_ne_true, List.singleton_append, members, skipBlanks_cons (by decide)]
    dsimp only
    rw [if_neg (by decide), if_pos (by decide), if_neg Bool.false_ne_true, hkey]
    exact match_eq_bind _ fun p =>
      (members fuel depth false p.2).map fun x => (Members.cons (carried key) p.1 x.1, x.2)
  | true =>
    rw [if_pos rfl, List.nil_append]
    rw [renderString, List.cons_append] at hkey ⊢
    rw [members, skipBlanks_cons (by decide)]
    dsimp only
    rw [if_neg (by decide), if_pos (by decide), if_pos rfl, hkey]
    exact match_eq_bind _ fun p =>
      (members fuel depth false p.2).map fun x => (Members.cons (carried key) p.1 x.1, x.2)

mutual

theorem value_render (v : Json) (hv : v.NumbersOk) (fuel depth : Nat) (rest : Text)
    (hfuel : v.render.length ≤ fuel) (hrest : Ends rest) :
    value fuel depth (v.render ++ rest) = within v.depth depth (v.carried, rest) := by
  obtain ⟨fuel, rfl⟩ : ∃ n, fuel = n + 1 :=
    ⟨fuel - 1, (Nat.sub_add_cancel (Nat.lt_of_lt_of_le (render_pos hv) hfuel)).symm⟩
  match v with
  | .null => rfl
  | .bool false => rfl
  | .bool true => rfl
  | .num literal =>
    obtain ⟨c, t, heq, hspace, -⟩ := render_head hv
    have hscalar := scalar_num hv.1 hv.2 hrest
    have hc := isNumberChar_of_isNumber hv.2 c
      (by rw [show literal = c :: t from heq]; exact List.mem_cons_self)
    have hne : ∀ d, isNumberChar d = false → c ≠ d := by
      rintro d hd rfl
      rw [hc] at hd
      cases hd
    rw [heq, List.cons_append, value, skipBlanks_cons hspace]
    dsimp only
    rw [if_neg (hne '"' (by decide)), if_neg (hne '[' (by decide)),
      if_neg (hne '\x7b' (by decide)), ← List.cons_append, ← heq]
    exact hscalar
  | .str s =>
    rw [Json.render, renderString, List.cons_append, List.append_assoc, value,
      skipBlanks_cons (by decide)]
    dsimp only
    rw [if_pos rfl, List.singleton_append, readString_escapeJson]
    rfl
  | .arr vs =>
    rw [Json.render, List.cons_append, value, skipBlanks_cons (by decide)]
    dsimp only
    rw [if_neg (by decide), if_pos rfl]
    cases depth with
    | zero => rfl
    | succ depth =>
      dsimp only
      rw [items_render vs hv fuel depth true rest (Nat.le_of_succ_le_succ hfuel),
        within_map, Json.depth, within_succ, Json.carried]
  | .obj ms =>
    rw [Json.render, List.cons_append, value, skipBlanks_cons (by decide)]
    dsimp only
    rw [if_neg (by decide), if_neg (by decide), if_pos rfl]
    cases depth with
    | zero => rfl
    | succ depth =>
      dsimp only
      rw [members_render ms hv fuel depth true rest (Nat.le_of_succ_le_succ hfuel),
        within_map, Json.depth, within_succ, Json.carried]

theorem items_render (vs : Items) (hvs : vs.NumbersOk) (fuel depth : Nat) (first : Bool)
    (rest : Text) (hfuel : (vs.render first).length ≤ fuel) :
    items fuel depth first (vs.render first ++ rest) =
      within vs.depth depth (vs.carried, rest) := by
  obtain ⟨fuel, rfl⟩ : ∃ n, fuel = n + 1 :=
    ⟨fuel - 1, (Nat.sub_add_cancel (Nat.lt_of_lt_of_le (items_render_pos first vs) hfuel)).symm⟩
  match vs with
  | .nil => rfl
  | .cons v vs =>
    obtain ⟨hv, hvs⟩ := hvs
    have hpos := render_pos hv
    have hpos' := items_render_pos false vs
    rw [Items.render, List.length_append, List.length_append] at hfuel
    rw [Items.render, List.append_assoc, List.append_assoc, items_cons hv,
      value_render v hv fuel depth _ (by omega) (ends_items vs rest)]
    have hnext := items_render vs hvs fuel depth false rest (by omega)
    exact within_bind (fun w x => (Items.cons w x.1, x.2)) hnext

theorem members_render (ms : Members) (hms : ms.NumbersOk) (fuel depth : Nat) (first : Bool)
    (rest : Text) (hfuel : (ms.render first).length ≤ fuel) :
    members fuel depth first (ms.render first ++ rest) =
      within ms.depth depth (ms.carried, rest) := by
  obtain ⟨fuel, rfl⟩ : ∃ n, fuel = n + 1 :=
    ⟨fuel - 1, (Nat.sub_add_cancel (Nat.lt_of_lt_of_le (members_render_pos first ms) hfuel)).symm⟩
  match ms with
  | .nil => rfl
  | .cons key v ms =>
    obtain ⟨hv, hms⟩ := hms
    have hpos := render_pos hv
    have hpos' := members_render_pos false ms
    rw [Members.render, List.length_append, List.length_append, List.length_cons,
      List.length_append] at hfuel
    rw [Members.render, List.append_assoc, List.append_assoc, List.cons_append,
      List.append_assoc, members_cons,
      value_render v hv fuel depth _ (by omega) (ends_members ms rest)]
    have hnext := members_render ms hms fuel depth false rest (by omega)
    exact within_bind (fun w x => (Members.cons (carried key) w x.1, x.2)) hnext

end

theorem parse_render {v : Json} (h : v.NumbersOk) :
    parse v.render = within v.depth maxNestingDepth v.carried := by
  have hvalue := value_render v h (2 * v.render.length + 2) maxNestingDepth [] (by omega) ends_nil
  rw [List.append_nil] at hvalue
  rw [parse, hvalue, within, within]
  by_cases hdeep : v.depth ≤ maxNestingDepth
  · rw [if_pos hdeep, if_pos hdeep]
    rfl
  · rw [if_neg hdeep, if_neg hdeep]

end Runc.Lib
