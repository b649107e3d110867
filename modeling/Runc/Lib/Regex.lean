import Runc.Lib.Text

/-!
# Regular expressions

Backtracking matching with leftmost-first semantics, as package `regexp` has it, for
expressions that repeat character classes only and match no empty text. `results` lists
the ways an expression can match at one place, the preferred one first.
-/

namespace Runc.Lib

inductive Regex where
  | text (s : Text)
  | star (p : Char → Bool)
  | plus (p : Char → Bool)
  | seq (a b : Regex)
  | alt (a b : Regex)
  | opt (a : Regex)
  | group (n : Nat) (a : Regex)
  | wordBoundary
  | lineStart

structure Hit where
  taken : Text
  rest : Text
  groups : List (Nat × Text)
deriving DecidableEq, Repr

def lastOf (last : Option Char) (a : Text) : Option Char :=
  a.getLast?.or last

def Hit.last (h : Hit) (last : Option Char) : Option Char :=
  lastOf last h.taken

def Hit.append (h h' : Hit) : Hit :=
  ⟨h.taken ++ h'.taken, h'.rest, h.groups ++ h'.groups⟩

def Hit.group (h : Hit) (n : Nat) : Text :=
  (h.groups.lookup n).getD []

def greedy (p : Char → Bool) : Text → List (Text × Text)
  | [] => [([], [])]
  | c :: rest =>
      if p c then
        (greedy p rest).map (fun s => (c :: s.1, s.2)) ++ [([], c :: rest)]
      else [([], c :: rest)]

/-- `\b` between two bytes. -/
def atWordBoundary (last next : Option Char) : Bool :=
  last.any isWord != next.any isWord

namespace Regex

def results : Regex → Option Char → Text → List Hit
  | .text s, _, t =>
      if s.isPrefixOf t then [⟨s, t.drop s.length, []⟩] else []
  | .star p, _, t => (greedy p t).map (fun s => ⟨s.1, s.2, []⟩)
  | .plus p, _, t =>
      ((greedy p t).filter (fun s => !s.1.isEmpty)).map
        (fun s => ⟨s.1, s.2, []⟩)
  | .seq a b, last, t =>
      (a.results last t).flatMap (fun h =>
        (b.results (h.last last) h.rest).map h.append)
  | .alt a b, last, t => a.results last t ++ b.results last t
  | .opt a, last, t => a.results last t ++ [⟨[], t, []⟩]
  | .group n a, last, t =>
      (a.results last t).map (fun h =>
        ⟨h.taken, h.rest, (n, h.taken) :: h.groups⟩)
  | .wordBoundary, last, t =>
      if atWordBoundary last t.head? then [⟨[], t, []⟩] else []
  | .lineStart, last, t =>
      if last.all (· = '\n') then [⟨[], t, []⟩] else []

def first (r : Regex) (last : Option Char) (t : Text) : Option Hit :=
  (r.results last t).head?

def findFrom (r : Regex) : Option Char → Text → Option Hit
  | last, [] => r.first last []
  | last, c :: rest =>
      match r.first last (c :: rest) with
      | some h => some h
      | none => findFrom r (some c) rest

/-- `FindSubmatch`. -/
def find (r : Regex) (t : Text) : Option Hit :=
  r.findFrom none t

def findAllFrom (r : Regex) : Nat → Option Char → Text → List Hit
  | _, _, [] => []
  | skip + 1, _, c :: rest => findAllFrom r skip (some c) rest
  | 0, last, c :: rest =>
      match r.first last (c :: rest) with
      | some h => h :: findAllFrom r (h.taken.length - 1) (some c) rest
      | none => findAllFrom r 0 (some c) rest

/-- `FindAllSubmatch`. -/
def findAll (r : Regex) (t : Text) : List Hit :=
  r.findAllFrom 0 none t

def replaceFrom (r : Regex) (f : Text → Text) : Nat → Option Char → Text → Text
  | _, _, [] => []
  | skip + 1, _, c :: rest => replaceFrom r f skip (some c) rest
  | 0, last, c :: rest =>
      match r.first last (c :: rest) with
      | some h => f h.taken ++ replaceFrom r f (h.taken.length - 1) (some c) rest
      | none => c :: replaceFrom r f 0 (some c) rest

/-- `ReplaceAllFunc`. -/
def replaceAll (r : Regex) (f : Text → Text) (t : Text) : Text :=
  r.replaceFrom f 0 none t

end Regex

section Equations

variable {p : Char → Bool} {r a b : Regex} {last : Option Char} {t : Text}

theorem greedy_cons (c : Char) :
    greedy p (c :: t) =
      if p c then
        (greedy p t).map (fun s => (c :: s.1, s.2)) ++ [([], c :: t)]
      else [([], c :: t)] :=
  rfl

namespace Regex

theorem first_eq : r.first last t = (r.results last t).head? :=
  rfl

theorem results_text (s : Text) :
    (text s).results last t =
      if s.isPrefixOf t then [⟨s, t.drop s.length, []⟩] else [] :=
  rfl

theorem results_star : (star p).results last t = (greedy p t).map (fun s => ⟨s.1, s.2, []⟩) :=
  rfl

theorem results_plus :
    (plus p).results last t =
      ((greedy p t).filter (fun s => !s.1.isEmpty)).map
        (fun s => ⟨s.1, s.2, []⟩) :=
  rfl

theorem results_seq :
    (seq a b).results last t =
      (a.results last t).flatMap (fun h =>
        (b.results (h.last last) h.rest).map h.append) :=
  rfl

theorem results_alt : (alt a b).results last t = a.results last t ++ b.results last t :=
  rfl

theorem results_opt : (opt a).results last t = a.results last t ++ [⟨[], t, []⟩] :=
  rfl

theorem results_group (n : Nat) :
    (group n a).results last t =
      (a.results last t).map (fun h =>
        ⟨h.taken, h.rest, (n, h.taken) :: h.groups⟩) :=
  rfl

theorem results_wordBoundary :
    wordBoundary.results last t =
      if atWordBoundary last t.head? then [⟨[], t, []⟩] else [] :=
  rfl

theorem results_lineStart :
    lineStart.results last t =
      if last.all (· = '\n') then [⟨[], t, []⟩] else [] :=
  rfl

theorem findFrom_cons (c : Char) :
    r.findFrom last (c :: t) =
      match r.first last (c :: t) with
      | some h => some h
      | none => r.findFrom (some c) t :=
  rfl

theorem findAllFrom_cons (c : Char) :
    r.findAllFrom 0 last (c :: t) =
      match r.first last (c :: t) with
      | some h => h :: r.findAllFrom (h.taken.length - 1) (some c) t
      | none => r.findAllFrom 0 (some c) t :=
  rfl

theorem replaceFrom_cons {f : Text → Text} (c : Char) :
    r.replaceFrom f 0 last (c :: t) =
      match r.first last (c :: t) with
      | some h => f h.taken ++ r.replaceFrom f (h.taken.length - 1) (some c) t
      | none => c :: r.replaceFrom f 0 (some c) t :=
  rfl

end Regex

end Equations

@[simp]
theorem lastOf_nil (last : Option Char) : lastOf last [] = last :=
  rfl

@[simp]
theorem lastOf_cons (last : Option Char) (c : Char) (a : Text) :
    lastOf last (c :: a) = lastOf (some c) a := by
  cases a with
  | nil => rfl
  | cons x a =>
    rw [lastOf, lastOf, List.getLast?_cons_cons]
    simp [List.getLast?_cons]

section Greedy

variable {p : Char → Bool}

theorem mem_greedy {t a b : Text} : (a, b) ∈ greedy p t ↔ a ++ b = t ∧ ∀ c ∈ a, p c = true := by
  induction t generalizing a with
  | nil =>
    change (a, b) ∈ [([], [])] ↔ _
    simp only [List.mem_singleton, Prod.mk.injEq, List.append_eq_nil_iff]
    constructor
    · rintro ⟨rfl, rfl⟩
      simp
    · rintro ⟨hab, _⟩
      exact hab
  | cons x rest ih =>
    cases a with
    | nil => by_cases hx : p x = true <;> simp [greedy_cons, hx]
    | cons y a =>
      by_cases hx : p x = true
      · simp only [greedy_cons, hx, if_true, List.mem_append, List.mem_map,
          List.mem_singleton, Prod.mk.injEq, List.cons.injEq,
          List.cons_append, List.forall_mem_cons]
        constructor
        · rintro (⟨⟨a', b'⟩, hmem, ⟨rfl, rfl⟩, rfl⟩ | ⟨h, _⟩)
          · exact ⟨⟨rfl, (ih.mp hmem).1⟩, hx, (ih.mp hmem).2⟩
          · cases h
        · rintro ⟨⟨rfl, hab⟩, _, ha⟩
          exact Or.inl ⟨(a, b), ih.mpr ⟨hab, ha⟩, ⟨rfl, rfl⟩, rfl⟩
      · simp only [greedy_cons, if_neg hx, List.mem_singleton, Prod.mk.injEq,
          List.cons_append, List.cons.injEq, List.forall_mem_cons]
        constructor
        · rintro ⟨h, _⟩
          cases h
        · rintro ⟨⟨rfl, _⟩, hy, _⟩
          exact absurd hy hx

theorem greedy_longest {a b : Text} (ha : ∀ c ∈ a, p c = true) (hb : b.head?.any p = false) :
    (greedy p (a ++ b)).head? = some (a, b) := by
  induction a with
  | nil =>
    cases b with
    | nil => rfl
    | cons c b =>
      have hc : p c = false := by simpa using hb
      simp [greedy_cons, hc]
  | cons c a ih =>
    have hrest := ih (fun x hx => ha x (List.mem_cons_of_mem _ hx))
    rw [List.cons_append, greedy_cons, if_pos (ha c List.mem_cons_self)]
    rw [List.head?_append, List.head?_map, hrest]
    rfl

end Greedy

namespace Regex

variable {last : Option Char} {t : Text} {h : Hit}

section Results

theorem mem_results_text {s : Text} :
    h ∈ (Regex.text s).results last t ↔
      t = s ++ h.rest ∧ h.taken = s ∧ h.groups = [] := by
  obtain ⟨taken, rest, groups⟩ := h
  rw [results_text]
  split
  · rename_i hpre
    obtain ⟨u, rfl⟩ := List.isPrefixOf_iff_prefix.mp hpre
    simp only [List.drop_left, List.mem_singleton, Hit.mk.injEq, List.append_cancel_left_eq]
    tauto
  · rename_i hpre
    simp only [List.not_mem_nil, false_iff]
    rintro ⟨rfl, -, -⟩
    exact hpre (List.isPrefixOf_iff_prefix.mpr (List.prefix_append _ _))

theorem mem_results_star {p : Char → Bool} :
    h ∈ (Regex.star p).results last t ↔
      t = h.taken ++ h.rest ∧ (∀ c ∈ h.taken, p c = true) ∧ h.groups = [] := by
  obtain ⟨taken, rest, groups⟩ := h
  simp only [results_star, List.mem_map, Prod.exists, mem_greedy, Hit.mk.injEq]
  constructor
  · rintro ⟨a, b, ⟨hab, ha⟩, rfl, rfl, rfl⟩
    exact ⟨hab.symm, ha, rfl⟩
  · rintro ⟨hab, ha, rfl⟩
    exact ⟨taken, rest, ⟨hab.symm, ha⟩, rfl, rfl, rfl⟩

theorem mem_results_plus {p : Char → Bool} :
    h ∈ (Regex.plus p).results last t ↔
      t = h.taken ++ h.rest ∧ h.taken ≠ [] ∧ (∀ c ∈ h.taken, p c = true) ∧
        h.groups = [] := by
  obtain ⟨taken, rest, groups⟩ := h
  simp only [results_plus, List.mem_map, List.mem_filter, Prod.exists, mem_greedy,
    Hit.mk.injEq, Bool.not_eq_true', List.isEmpty_eq_false_iff]
  constructor
  · rintro ⟨a, b, ⟨⟨hab, ha⟩, hne⟩, rfl, rfl, rfl⟩
    exact ⟨hab.symm, hne, ha, rfl⟩
  · rintro ⟨hab, hne, ha, rfl⟩
    exact ⟨taken, rest, ⟨⟨hab.symm, ha⟩, hne⟩, rfl, rfl, rfl⟩

variable {a : Regex}

theorem mem_results_seq {b : Regex} :
    h ∈ (Regex.seq a b).results last t ↔
      ∃ x ∈ a.results last t, ∃ y ∈ b.results (x.last last) x.rest,
        h = x.append y := by
  simp only [results_seq, List.mem_flatMap, List.mem_map, eq_comm]

theorem exists_mem_results_seq {b : Regex} {x : Hit} (ha : x ∈ a.results last t)
    (hb : ∃ y, y ∈ b.results (x.last last) x.rest) : ∃ h, h ∈ (Regex.seq a b).results last t := by
  obtain ⟨y, hy⟩ := hb
  exact ⟨x.append y, mem_results_seq.mpr ⟨x, ha, y, hy, rfl⟩⟩

theorem mem_results_group {n : Nat} :
    h ∈ (Regex.group n a).results last t ↔
      ∃ x ∈ a.results last t,
        h = ⟨x.taken, x.rest, (n, x.taken) :: x.groups⟩ := by
  simp only [results_group, List.mem_map, eq_comm]

theorem mem_results_wordBoundary :
    h ∈ Regex.wordBoundary.results last t ↔
      atWordBoundary last t.head? = true ∧ h = ⟨[], t, []⟩ := by
  rw [results_wordBoundary]
  split <;> simp_all

theorem mem_results_lineStart :
    h ∈ Regex.lineStart.results last t ↔
      last.all (· = '\n') = true ∧ h = ⟨[], t, []⟩ := by
  rw [results_lineStart]
  split <;> simp_all

theorem results_split {r : Regex} (hh : h ∈ r.results last t) : h.taken ++ h.rest = t := by
  induction r generalizing last t h with
  | text s =>
    obtain ⟨ht, htaken, -⟩ := mem_results_text.mp hh
    rw [htaken, ht]
  | star p => exact (mem_results_star.mp hh).1.symm
  | plus p => exact (mem_results_plus.mp hh).1.symm
  | seq a b iha ihb =>
    obtain ⟨x, hx, y, hy, rfl⟩ := mem_results_seq.mp hh
    rw [Hit.append, List.append_assoc, ihb hy, iha hx]
  | alt a b iha ihb =>
    rcases List.mem_append.mp hh with hh | hh
    · exact iha hh
    · exact ihb hh
  | opt a iha =>
    rcases List.mem_append.mp hh with hh | hh
    · exact iha hh
    · rw [List.mem_singleton.mp hh]
      rfl
  | group n a iha =>
    obtain ⟨x, hx, rfl⟩ := mem_results_group.mp hh
    have hsplit := iha hx
    exact hsplit
  | wordBoundary =>
    rw [(mem_results_wordBoundary.mp hh).2]
    rfl
  | lineStart =>
    rw [(mem_results_lineStart.mp hh).2]
    rfl

end Results

section First

variable {r : Regex}

theorem first_mem (hfirst : r.first last t = some h) : h ∈ r.results last t :=
  List.mem_of_mem_head? hfirst

theorem first_split (hfirst : r.first last t = some h) : h.taken ++ h.rest = t :=
  results_split (first_mem hfirst)

theorem first_eq_none (hno : ∀ h, h ∉ r.results last t) : r.first last t = none := by
  rw [first_eq, List.eq_nil_iff_forall_not_mem.mpr hno]
  rfl

theorem first_text (s rest : Text) :
    (Regex.text s).first last (s ++ rest) = some ⟨s, rest, []⟩ := by
  have hpre : s.isPrefixOf (s ++ rest) = true :=
    List.isPrefixOf_iff_prefix.mpr (List.prefix_append s rest)
  rw [first_eq, results_text, if_pos hpre]
  simp

theorem first_star {p : Char → Bool} {a b : Text} (ha : ∀ c ∈ a, p c = true)
    (hb : b.head?.any p = false) : (Regex.star p).first last (a ++ b) = some ⟨a, b, []⟩ := by
  rw [first_eq, results_star, List.head?_map, greedy_longest ha hb]
  rfl

theorem first_plus {p : Char → Bool} {a b : Text} (hne : a ≠ []) (ha : ∀ c ∈ a, p c = true)
    (hb : b.head?.any p = false) : (Regex.plus p).first last (a ++ b) = some ⟨a, b, []⟩ := by
  obtain ⟨tail, hgreedy⟩ := List.head?_eq_some_iff.mp (greedy_longest ha hb)
  have hkeep : (!a.isEmpty) = true := by simpa using hne
  rw [first_eq, results_plus, hgreedy, List.filter_cons]
  simp [hkeep]

variable {x : Hit} {a : Regex}

theorem first_seq {b : Regex} {y : Hit} (ha : a.first last t = some x)
    (hb : b.first (x.last last) x.rest = some y) :
    (Regex.seq a b).first last t = some (x.append y) := by
  obtain ⟨xs, hxs⟩ := List.head?_eq_some_iff.mp ha
  obtain ⟨ys, hys⟩ := List.head?_eq_some_iff.mp hb
  rw [first_eq, results_seq, hxs, List.flatMap_cons, hys]
  rfl

theorem first_group {n : Nat} (ha : a.first last t = some x) :
    (Regex.group n a).first last t =
      some ⟨x.taken, x.rest, (n, x.taken) :: x.groups⟩ := by
  rw [first_eq, results_group, List.head?_map, show (a.results last t).head? = some x from ha]
  rfl

theorem first_alt_left {b : Regex} (ha : a.first last t = some x) :
    (Regex.alt a b).first last t = some x := by
  rw [first_eq, results_alt, List.head?_append,
    show (a.results last t).head? = some x from ha]
  rfl

theorem first_opt (ha : a.first last t = some x) : (Regex.opt a).first last t = some x := by
  rw [first_eq, results_opt, List.head?_append, show (a.results last t).head? = some x from ha]
  rfl

theorem first_wordBoundary (hb : atWordBoundary last t.head? = true) :
    Regex.wordBoundary.first last t = some ⟨[], t, []⟩ := by
  rw [first_eq, results_wordBoundary, if_pos hb]
  rfl

theorem first_lineStart (hl : last.all (· = '\n') = true) :
    Regex.lineStart.first last t = some ⟨[], t, []⟩ := by
  rw [first_eq, results_lineStart, if_pos hl]
  rfl

end First

section Search

def Silent (r : Regex) : Option Char → Text → Text → Prop
  | _, [], _ => True
  | last, c :: a, b => r.first last (c :: (a ++ b)) = none ∧ Silent r (some c) a b

variable {r : Regex} {a b : Text}

theorem findFrom_append (hsilent : r.Silent last a b) :
    r.findFrom last (a ++ b) = r.findFrom (lastOf last a) b := by
  induction a generalizing last with
  | nil => rfl
  | cons c a ih =>
    rw [List.cons_append, findFrom_cons, hsilent.1, lastOf_cons]
    exact ih hsilent.2

theorem findFrom_first (hfirst : r.first last t = some h) : r.findFrom last t = some h := by
  cases t with
  | nil => exact hfirst
  | cons c t => rw [findFrom_cons, hfirst]

theorem findFrom_isSome_iff :
    (r.findFrom last t).isSome = true ↔
      ∃ before after, t = before ++ after ∧
        ∃ h, h ∈ r.results (lastOf last before) after := by
  constructor
  · intro hsome
    induction t generalizing last with
    | nil =>
      obtain ⟨h, hh⟩ := Option.isSome_iff_exists.mp hsome
      exact ⟨[], [], rfl, h, first_mem hh⟩
    | cons c rest ih =>
      rw [findFrom_cons] at hsome
      cases hfirst : r.first last (c :: rest) with
      | some h => exact ⟨[], c :: rest, rfl, h, first_mem hfirst⟩
      | none =>
        rw [hfirst] at hsome
        obtain ⟨before, after, rfl, h, hh⟩ := ih hsome
        refine ⟨c :: before, after, rfl, h, ?_⟩
        rw [lastOf_cons]
        exact hh
  · rintro ⟨before, after, rfl, h, hh⟩
    induction before generalizing last with
    | nil =>
      obtain ⟨h', others, hcons⟩ := List.exists_cons_of_ne_nil (List.ne_nil_of_mem hh)
      rw [lastOf_nil] at hcons
      have hfirst : r.first last after = some h' := by
        rw [first_eq, hcons]
        rfl
      rw [List.nil_append, findFrom_first hfirst]
      rfl
    | cons c before ih =>
      rw [lastOf_cons] at hh
      rw [List.cons_append, findFrom_cons]
      cases r.first last (c :: (before ++ after)) with
      | some _ => rfl
      | none => exact ih hh

theorem findFrom_mem (h' : r.findFrom last t = some h) : ∃ last' t', h ∈ r.results last' t' := by
  induction t generalizing last with
  | nil => exact ⟨_, _, first_mem h'⟩
  | cons c rest ih =>
    rw [findFrom_cons] at h'
    cases hfirst : r.first last (c :: rest) with
    | some found =>
      rw [hfirst] at h'
      cases h'
      exact ⟨_, _, first_mem hfirst⟩
    | none =>
      rw [hfirst] at h'
      exact ih h'

variable {f : Text → Text}

theorem replaceFrom_skip :
    r.replaceFrom f a.length last (a ++ b) =
      r.replaceFrom f 0 (lastOf last a) b := by
  induction a generalizing last with
  | nil => rfl
  | cons c a ih =>
    rw [lastOf_cons]
    exact ih

theorem replaceFrom_hit (hfirst : r.first last t = some h) (hne : h.taken ≠ []) :
    r.replaceFrom f 0 last t =
      f h.taken ++ r.replaceFrom f 0 (h.last last) h.rest := by
  have hsplit := first_split hfirst
  obtain ⟨taken, rest, groups⟩ := h
  obtain ⟨c, a, rfl⟩ := List.exists_cons_of_ne_nil hne
  subst hsplit
  rw [List.cons_append] at hfirst ⊢
  rw [replaceFrom_cons, hfirst]
  simp only [List.length_cons, Nat.add_sub_cancel, Hit.last, lastOf_cons]
  rw [replaceFrom_skip]

theorem replaceFrom_append (hsilent : r.Silent last a b) :
    r.replaceFrom f 0 last (a ++ b) =
      a ++ r.replaceFrom f 0 (lastOf last a) b := by
  induction a generalizing last with
  | nil => rfl
  | cons c a ih =>
    rw [List.cons_append, replaceFrom_cons, hsilent.1, lastOf_cons]
    exact congrArg (c :: ·) (ih hsilent.2)

theorem replaceFrom_silent (hsilent : r.Silent last a []) : r.replaceFrom f 0 last a = a := by
  have happ := replaceFrom_append (f := f) hsilent
  rw [List.append_nil] at happ
  rw [happ, show r.replaceFrom f 0 (lastOf last a) [] = [] from rfl, List.append_nil]

theorem findAllFrom_skip :
    r.findAllFrom a.length last (a ++ b) =
      r.findAllFrom 0 (lastOf last a) b := by
  induction a generalizing last with
  | nil => rfl
  | cons c a ih =>
    rw [lastOf_cons]
    exact ih

theorem findAllFrom_hit (hfirst : r.first last t = some h) (hne : h.taken ≠ []) :
    r.findAllFrom 0 last t = h :: r.findAllFrom 0 (h.last last) h.rest := by
  have hsplit := first_split hfirst
  obtain ⟨taken, rest, groups⟩ := h
  obtain ⟨c, a, rfl⟩ := List.exists_cons_of_ne_nil hne
  subst hsplit
  rw [List.cons_append] at hfirst ⊢
  rw [findAllFrom_cons, hfirst]
  simp only [List.length_cons, Nat.add_sub_cancel, Hit.last, lastOf_cons]
  rw [findAllFrom_skip]

theorem findAllFrom_append (hsilent : r.Silent last a b) :
    r.findAllFrom 0 last (a ++ b) = r.findAllFrom 0 (lastOf last a) b := by
  induction a generalizing last with
  | nil => rfl
  | cons c a ih =>
    rw [List.cons_append, findAllFrom_cons, hsilent.1, lastOf_cons]
    exact ih hsilent.2

theorem mem_findAllFrom {skip : Nat} (hh : h ∈ r.findAllFrom skip last t) :
    ∃ before, t = before ++ (h.taken ++ h.rest) ∧
      r.first (lastOf last before) (h.taken ++ h.rest) = some h := by
  induction t generalizing last skip with
  | nil => cases skip <;> cases hh
  | cons c rest ih =>
    have hlater : ∀ skip, h ∈ r.findAllFrom skip (some c) rest →
        ∃ before, c :: rest = before ++ (h.taken ++ h.rest) ∧
          r.first (lastOf last before) (h.taken ++ h.rest) = some h := by
      intro skip hmem
      obtain ⟨before, hrest, hfirst⟩ := ih hmem
      refine ⟨c :: before, ?_, ?_⟩
      · rw [hrest]
        rfl
      · rw [lastOf_cons]
        exact hfirst
    cases skip with
    | succ n => exact hlater n hh
    | zero =>
      rw [findAllFrom_cons] at hh
      cases hfirst : r.first last (c :: rest) with
      | none =>
        rw [hfirst] at hh
        exact hlater 0 hh
      | some x =>
        rw [hfirst] at hh
        rcases List.mem_cons.mp hh with rfl | hh
        · refine ⟨[], (first_split hfirst).symm, ?_⟩
          rw [first_split hfirst]
          exact hfirst
        · exact hlater _ hh

theorem mem_findAllFrom_of_first {skip : Nat} (hskip : skip ≤ a.length) (hne : b ≠ [])
    (hfirst : r.first (lastOf last a) b = some h) (hbefore : ∀ x y, a = x ++ y → y ≠ [] → ∀ h',
      r.first (lastOf last x) (y ++ b) = some h' →
        h'.taken.length ≤ y.length) : h ∈ r.findAllFrom skip last (a ++ b) := by
  induction a generalizing last skip with
  | nil =>
    obtain ⟨c, b, rfl⟩ := List.exists_cons_of_ne_nil hne
    cases skip with
    | succ n => simp at hskip
    | zero =>
      rw [lastOf_nil] at hfirst
      rw [List.nil_append, findAllFrom_cons, hfirst]
      exact List.mem_cons_self
  | cons c a ih =>
    rw [lastOf_cons] at hfirst
    have hlater : ∀ x y, a = x ++ y → y ≠ [] → ∀ h',
        r.first (lastOf (some c) x) (y ++ b) = some h' →
          h'.taken.length ≤ y.length := by
      intro x y hxy hy h' hh'
      refine hbefore (c :: x) y ?_ hy h' ?_
      · rw [hxy]
        rfl
      · rw [lastOf_cons]
        exact hh'
    cases skip with
    | succ n => exact ih (Nat.le_of_succ_le_succ hskip) hfirst hlater
    | zero =>
      rw [List.cons_append, findAllFrom_cons]
      cases hhere : r.first last (c :: (a ++ b)) with
      | none => exact ih (Nat.zero_le _) hfirst hlater
      | some x =>
        refine List.mem_cons_of_mem _ (ih ?_ hfirst hlater)
        have hlen := hbefore [] (c :: a) rfl (List.cons_ne_nil _ _) x hhere
        rw [List.length_cons] at hlen
        omega

end Search

end Regex

end Runc.Lib
