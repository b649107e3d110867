import Runc.Lib.Path

/-!
# What a path is below of

A path lies in a directory if the names of the directory are the first of its names.
-/

namespace Runc.Lib
namespace Path

def Within (dir p : AbsPath) : Prop :=
  dir.names <+: p.names

instance (dir p : AbsPath) : Decidable (Within dir p) :=
  inferInstanceAs (Decidable (dir.names <+: p.names))

def Beside (dir p : AbsPath) : Prop :=
  ∃ parent name more rest,
    dir.names = parent ++ [name] ∧ more ≠ [] ∧
      p.names = parent ++ (name ++ more) :: rest

def slashed (names : List Text) : Text :=
  names.flatMap (fun name => '/' :: name)

theorem slashed_cons (name : Text) (names : List Text) :
    slashed (name :: names) = '/' :: (name ++ slashed names) := by
  simp [slashed]

theorem slashed_append (a b : List Text) : slashed (a ++ b) = slashed a ++ slashed b :=
  List.flatMap_append

variable {names : List Text}

theorem render_eq_slashed (h : names ≠ []) : render names = slashed names := by
  induction names with
  | nil => exact absurd rfl h
  | cons name names ih =>
    cases names with
    | nil => simp [render, slashed, List.intercalate]
    | cons next names =>
      rw [slashed_cons, ← ih (List.cons_ne_nil _ _), render, intercalate_cons_cons]
      rfl

def split (p : Text) : Text × Text :=
  ((p.reverse.dropWhile (· ≠ '/')).reverse, (p.reverse.takeWhile (· ≠ '/')).reverse)

def dir (p : Text) : Text :=
  clean (split p).1

theorem split_render_concat {init : List Text} {last : Text} (hlast : '/' ∉ last) :
    split (render (init ++ [last])) = (slashed init ++ ['/'], last) := by
  have htext : (render (init ++ [last])).reverse = last.reverse ++ '/' :: (slashed init).reverse := by
    rw [render_eq_slashed (by simp), slashed_append, slashed_cons]
    simp [slashed]
  have hfree : ∀ c ∈ last.reverse, decide (c ≠ '/') = true := by
    intro c hc
    refine decide_eq_true fun heq => hlast ?_
    exact heq ▸ List.mem_reverse.mp hc
  rw [split, htext, List.dropWhile_append_of_pos hfree, List.takeWhile_append_of_pos hfree]
  simp

theorem tokens_slashed (h : ∀ name ∈ names, IsName name) : tokens '/' (slashed names) = names := by
  by_cases hnil : names = []
  · rw [hnil]
    rfl
  · rw [← render_eq_slashed hnil, tokens_render h]

theorem isAbs_slashed (names : List Text) (t : Text) :
    isAbs (slashed names ++ '/' :: t) = true := by
  cases names with
  | nil => rfl
  | cons name names =>
    rw [slashed_cons]
    rfl

theorem join_slashed {init : List Text} {last : Text} (h : ∀ name ∈ init ++ [last], IsName name) :
    join (slashed init ++ ['/']) last = render (init ++ [last]) := by
  obtain ⟨hinit, hlast⟩ := List.forall_mem_append.mp h
  have hname : IsName last := hlast last List.mem_cons_self
  have htext : slashed init ++ ['/'] ++ '/' :: last = slashed init ++ '/' :: '/' :: last := by simp
  have htokens : tokens '/' ('/' :: last) = [last] :=
    (tokens_append_sep [] last).trans (tokens_of_not_mem hname.no_slash hname.ne_nil)
  rw [join, if_neg (by simp), htext, clean_of_isAbs (isAbs_slashed _ _), tokens_append_sep,
    tokens_slashed hinit, htokens, reduce_names h]
  simp

theorem dir_render_concat {init : List Text} {last : Text}
    (h : ∀ name ∈ init ++ [last], IsName name) : dir (render (init ++ [last])) = render init := by
  obtain ⟨hinit, hlast⟩ := List.forall_mem_append.mp h
  rw [dir, split_render_concat (hlast last (by simp)).no_slash, clean_of_isAbs (isAbs_slashed _ _),
    tokens_append_sep, tokens_slashed hinit]
  rw [show tokens '/' [] = [] from rfl, List.append_nil, reduce_names hinit]
  simp

variable {x : Text}

theorem initial_of_slashed {y : Text} (hx : '/' ∉ x) (h : x <+: y ++ slashed names) : x <+: y := by
  cases names with
  | nil => simpa [slashed] using h
  | cons name names =>
    rw [slashed_cons] at h
    exact initial_of_not_mem hx h

theorem element_of_slashed {y u : Text} (hx : '/' ∉ x) (hy : '/' ∉ y)
    (h : x ++ '/' :: u <+: y ++ slashed names) : x = y ∧ '/' :: u <+: slashed names := by
  obtain ⟨more, rfl⟩ := initial_of_slashed hx ((List.prefix_append _ _).trans h)
  rw [List.append_assoc, List.prefix_append_right_inj] at h
  cases more with
  | nil => exact ⟨(List.append_nil x).symm, h⟩
  | cons c more =>
    obtain rfl : '/' = c := (List.cons_prefix_cons.mp h).1
    exact absurd (by simp) hy

variable {a b : List Text}

theorem slashed_prefix (ha : ∀ name ∈ a, IsName name)
    (hb : ∀ name ∈ b, IsName name) (h : slashed a <+: slashed b) :
    a <+: b ∨ ∃ parent name more rest,
      a = parent ++ [name] ∧ more ≠ [] ∧ b = parent ++ (name ++ more) :: rest := by
  induction a generalizing b with
  | nil => exact .inl List.nil_prefix
  | cons x a ih =>
    cases b with
    | nil => simp [slashed] at h
    | cons y b =>
      have hx : '/' ∉ x := (ha x List.mem_cons_self).no_slash
      have hy : '/' ∉ y := (hb y List.mem_cons_self).no_slash
      rw [slashed_cons, slashed_cons, List.cons_prefix_cons] at h
      cases a with
      | nil =>
        -- the last name of `a` begins the name at its place in `b`
        have hlast : x <+: y ++ slashed b := by simpa [slashed] using h.2
        obtain ⟨more, rfl⟩ := initial_of_slashed hx hlast
        by_cases hmore : more = []
        · subst hmore
          exact .inl (by simp)
        · exact .inr ⟨[], x, more, b, rfl, hmore, rfl⟩
      | cons z a =>
        rw [slashed_cons] at h
        obtain ⟨rfl, hrest⟩ := element_of_slashed hx hy h.2
        rw [← slashed_cons] at hrest
        rcases ih (fun n hn => ha n (List.mem_cons_of_mem _ hn))
          (fun n hn => hb n (List.mem_cons_of_mem _ hn)) hrest with hin | hbeside
        · exact .inl (List.cons_prefix_cons.mpr ⟨rfl, hin⟩)
        · obtain ⟨parent, name, more, rest, hza, hmore, rfl⟩ := hbeside
          exact .inr ⟨x :: parent, name, more, rest, by rw [hza]; rfl, hmore, rfl⟩

variable {p : AbsPath}

theorem text_eq_slashed (h : p.names ≠ []) : p.text = slashed p.names := by
  rw [p.text_eq, render_eq_slashed h]

theorem text_of_names_nil (h : p.names = []) : p.text = ['/'] := by
  rw [p.text_eq, h]
  rfl

variable {dir : AbsPath}

theorem not_within_of_beside (h : Beside dir p) : ¬ Within dir p := by
  obtain ⟨parent, name, more, rest, hdir, hmore, hp⟩ := h
  intro hin
  rw [Within, hdir, hp, List.prefix_append_right_inj] at hin
  have hname : name = name ++ more := (List.cons_prefix_cons.mp hin).1
  exact hmore (List.self_eq_append_right.mp hname)

theorem text_prefix_of_within (h : Within dir p) : dir.text <+: p.text := by
  by_cases hdir : dir.names = []
  · rw [text_of_names_nil hdir, p.text_eq]
    exact ⟨_, rfl⟩
  · obtain ⟨rest, hrest⟩ := h
    have hp : p.names ≠ [] := by
      rw [← hrest]
      exact List.append_ne_nil_of_left_ne_nil hdir rest
    rw [text_eq_slashed hdir, text_eq_slashed hp, ← hrest, slashed_append]
    exact List.prefix_append _ _

theorem text_prefix_of_beside (h : Beside dir p) : dir.text <+: p.text := by
  obtain ⟨parent, name, more, rest, hdir, -, hp⟩ := h
  rw [text_eq_slashed (by simp [hdir]), text_eq_slashed (by simp [hp]), hdir, hp,
    slashed_append, slashed_append, List.prefix_append_right_inj, slashed_cons, slashed_cons]
  exact ⟨more ++ slashed rest, by simp [slashed]⟩

theorem text_prefix_iff (dir p : AbsPath) : dir.text <+: p.text ↔ Within dir p ∨ Beside dir p := by
  constructor
  · intro h
    by_cases hdir : dir.names = []
    · exact .inl (by rw [Within, hdir]; exact List.nil_prefix)
    · by_cases hp : p.names = []
      · rw [text_eq_slashed hdir, text_of_names_nil hp] at h
        obtain ⟨name, names, hcons⟩ := List.exists_cons_of_ne_nil hdir
        have hname : name ≠ [] := (dir.isName name (hcons ▸ List.mem_cons_self)).ne_nil
        rw [hcons, slashed_cons, List.cons_prefix_cons, List.prefix_nil] at h
        exact absurd (List.append_eq_nil_iff.mp h.2).1 hname
      · rw [text_eq_slashed hdir, text_eq_slashed hp] at h
        exact slashed_prefix dir.isName p.isName h
  · rintro (h | h)
    · exact text_prefix_of_within h
    · exact text_prefix_of_beside h

theorem within_iff_text (hdir : dir.names ≠ []) (p : AbsPath) :
    Within dir p ↔ p.text = dir.text ∨ dir.text ++ ['/'] <+: p.text := by
  constructor
  · rintro ⟨rest, hrest⟩
    cases rest with
    | nil => exact .inl (AbsPath.names_inj.mp (by rw [← hrest, List.append_nil]))
    | cons name rest =>
      refine .inr ⟨name ++ slashed rest, ?_⟩
      have hp : p.names ≠ [] := by rw [← hrest]; simp
      rw [text_eq_slashed hdir, text_eq_slashed hp, ← hrest, slashed_append, slashed_cons]
      simp
  · rintro (heq | h)
    · exact ⟨[], (List.append_nil _).trans (AbsPath.names_inj.mpr heq.symm)⟩
    · rcases (text_prefix_iff dir p).mp ((List.prefix_append _ _).trans h) with hin | hbeside
      · exact hin
      · obtain ⟨parent, name, more, rest, hd, hmore, hp⟩ := hbeside
        rw [text_eq_slashed hdir, text_eq_slashed (by simp [hp]), hd, hp, slashed_append,
          slashed_append, List.append_assoc, List.prefix_append_right_inj, slashed_cons,
          slashed_cons] at h
        obtain ⟨c, more, rfl⟩ := List.exists_cons_of_ne_nil hmore
        obtain rfl : '/' = c := by
          have hcut : '/' :: slashed [] <+: (c :: more) ++ slashed rest := by
            simpa [slashed, List.prefix_append_right_inj] using h
          exact (List.cons_prefix_cons.mp hcut).1
        have hslash := (p.isName (name ++ '/' :: more) (by simp [hp])).no_slash
        exact absurd (by simp) hslash

def trimRight (c : Char) (t : Text) : Text :=
  (t.reverse.dropWhile (· = c)).reverse

theorem trimRight_of_last {c d : Char} {t : Text} (h : d ≠ c) :
    trimRight c (t ++ [d]) = t ++ [d] := by
  simp [trimRight, h]

theorem trimRight_text (p : AbsPath) : trimRight '/' p.text = slashed p.names := by
  rcases List.eq_nil_or_concat p.names with hnil | ⟨parent, name, hnames⟩
  · rw [text_of_names_nil hnil, hnil]
    decide
  · have hname : IsName name := p.isName name (by simp [hnames])
    obtain hnil | ⟨start, d, rfl⟩ := List.eq_nil_or_concat name
    · exact absurd hnil hname.ne_nil
    · have hd : d ≠ '/' := by
        rintro rfl
        exact hname.no_slash (by simp)
      have htext : slashed p.names = (slashed parent ++ '/' :: start) ++ [d] := by
        rw [hnames, List.concat_eq_append, List.concat_eq_append, slashed_append, slashed_cons]
        simp [slashed]
      rw [text_eq_slashed (by simp [hnames]), htext]
      exact trimRight_of_last hd

theorem within_iff_slashed (dir p : AbsPath) :
    Within dir p ↔ slashed dir.names ++ ['/'] <+: slashed p.names ++ ['/'] := by
  by_cases hdir : dir.names = []
  · rw [Within, hdir]
    refine iff_of_true List.nil_prefix ?_
    cases p.names with
    | nil => exact List.prefix_rfl
    | cons name names =>
      rw [slashed_cons]
      exact ⟨_, rfl⟩
  · rw [within_iff_text hdir, List.prefix_concat_iff, text_eq_slashed hdir]
    by_cases hp : p.names = []
    · rw [text_of_names_nil hp, hp]
      obtain ⟨name, names, hcons⟩ := List.exists_cons_of_ne_nil hdir
      have hname : name ≠ [] := (dir.isName name (hcons ▸ List.mem_cons_self)).ne_nil
      rw [hcons, slashed_cons]
      simp [slashed, hname]
    · rw [text_eq_slashed hp]
      exact or_congr (eq_comm.trans (List.append_left_inj _).symm) Iff.rfl

def dropCommon : List Text → List Text → List Text × List Text
  | x :: xs, y :: ys => if x = y then dropCommon xs ys else (x :: xs, y :: ys)
  | xs, ys => (xs, ys)

def rel (basepath targpath : Text) : Except Text Text :=
  let base := clean basepath
  let targ := clean targpath
  if targ = base then .ok dot
  else
    let base := if base = dot then [] else base
    let failed := "Rel: can't make ".toList ++ targpath ++ " relative to ".toList ++ basepath
    if isAbs base ≠ isAbs targ then .error failed
    else
      match dropCommon (tokens '/' base) (tokens '/' targ) with
      | (b :: bs, t :: ts) =>
          if b = dotdot then .error failed
          else .ok (['/'].intercalate ((b :: bs).map (fun _ => dotdot) ++ t :: ts))
      | (bs, ts) => .ok (['/'].intercalate (bs.map (fun _ => dotdot) ++ ts))

theorem dropCommon_append (a b : List Text) : dropCommon a (a ++ b) = ([], b) := by
  induction a with
  | nil => rfl
  | cons x a ih => rw [List.cons_append, dropCommon, if_pos rfl, ih]

theorem dropCommon_fst_ne_nil (h : ¬ a <+: b) : (dropCommon a b).1 ≠ [] := by
  induction a generalizing b with
  | nil => exact absurd List.nil_prefix h
  | cons x a ih =>
    cases b with
    | nil => exact List.cons_ne_nil _ _
    | cons y b =>
      rw [dropCommon]
      split
      · rename_i hxy
        exact ih fun hab => h (List.cons_prefix_cons.mpr ⟨hxy, hab⟩)
      · exact List.cons_ne_nil _ _

theorem mem_of_mem_dropCommon (h : x ∈ (dropCommon a b).1) : x ∈ a := by
  induction a generalizing b with
  | nil => exact h
  | cons y a ih =>
    cases b with
    | nil => exact h
    | cons z b =>
      rw [dropCommon] at h
      split at h
      · exact List.mem_cons_of_mem _ (ih h)
      · exact h

def way (base targ : AbsPath) : List Text :=
  (dropCommon base.names targ.names).1.map (fun _ => dotdot) ++
    (dropCommon base.names targ.names).2

theorem rel_text {base targ : AbsPath} (h : base.names ≠ targ.names) :
    rel base.text targ.text = .ok (['/'].intercalate (way base targ)) := by
  have hne : targ.text ≠ base.text := fun heq => h (AbsPath.names_inj.mpr heq.symm)
  have hdot : base.text ≠ dot := by
    rw [base.text_eq]
    exact fun heq => absurd (List.cons.inj heq).1 (by decide)
  have habs : ¬ isAbs base.text ≠ isAbs targ.text := by
    rw [base.abs, targ.abs]
    exact fun hneq => hneq rfl
  rw [rel, base.clean_eq, targ.clean_eq]
  simp only [if_neg hne, if_neg hdot, if_neg habs]
  change (match dropCommon base.names targ.names with
    | (b :: bs, t :: ts) => _
    | (bs, ts) => _) = _
  rw [way]
  have hleft : ∀ b ∈ (dropCommon base.names targ.names).1, b ≠ dotdot :=
    fun b hb => (base.isName b (mem_of_mem_dropCommon hb)).ne_dotdot
  generalize dropCommon base.names targ.names = left at hleft ⊢
  obtain ⟨bs, ts⟩ := left
  cases bs with
  | nil => rfl
  | cons b bs =>
    cases ts with
    | nil => rfl
    | cons t ts => exact if_neg (hleft b List.mem_cons_self)

theorem rel_self (p : AbsPath) : rel p.text p.text = .ok dot := by
  rw [rel, if_pos rfl]

theorem dotdot_prefix_intercalate (part : Text) (parts : List Text) :
    dotdot <+: ['/'].intercalate (part :: parts) ↔ dotdot <+: part := by
  have hslash : '/' ∉ dotdot := by decide
  cases parts with
  | nil => rw [intercalate_singleton]
  | cons next parts =>
    rw [intercalate_cons_cons]
    exact ⟨initial_of_not_mem hslash, fun h => h.trans (List.prefix_append _ _)⟩

theorem dotdot_prefix_rel_iff {base targ : AbsPath} (h : base.names ≠ targ.names) :
    dotdot <+: ['/'].intercalate (way base targ) ↔
      ¬ Within base targ ∨
        ∃ name rest, targ.names = base.names ++ name :: rest ∧ dotdot <+: name := by
  by_cases hin : Within base targ
  · obtain ⟨rest, hrest⟩ := hin
    have hway : way base targ = rest := by
      rw [way, ← hrest, dropCommon_append]
      rfl
    rw [hway]
    cases rest with
    | nil => exact absurd (by rw [← hrest, List.append_nil]) h
    | cons name rest =>
      rw [dotdot_prefix_intercalate]
      constructor
      · exact fun hname => .inr ⟨name, rest, hrest.symm, hname⟩
      · rintro (hout | ⟨name', rest', heq, hname⟩)
        · exact absurd ⟨name :: rest, hrest⟩ hout
        · rw [← hrest, List.append_cancel_left_eq, List.cons.injEq] at heq
          exact heq.1 ▸ hname
  · obtain ⟨b, bs, hleft⟩ := List.exists_cons_of_ne_nil (dropCommon_fst_ne_nil hin)
    have hway : way base targ =
        dotdot :: (bs.map (fun _ => dotdot) ++ (dropCommon base.names targ.names).2) := by
      rw [way, hleft]
      rfl
    rw [hway, dotdot_prefix_intercalate]
    exact ⟨fun _ => .inl hin, fun _ => List.prefix_rfl⟩

theorem rel_eq_dot_iff (base targ : AbsPath) :
    rel base.text targ.text = .ok dot ↔ base.names = targ.names := by
  constructor
  · intro h
    by_contra hne
    rw [rel_text hne] at h
    have hway : ['/'].intercalate (way base targ) = dot := Except.ok.inj h
    by_cases hin : Within base targ
    · obtain ⟨rest, hrest⟩ := hin
      have hnames : way base targ = rest := by
        rw [way, ← hrest, dropCommon_append]
        rfl
      have hname : ∀ name ∈ rest, IsName name := by
        intro name hname
        exact targ.isName name (hrest ▸ List.mem_append_right _ hname)
      -- the one name of the way would be `.`
      have htokens := tokens_intercalate (fun n hn => (hname n hn).ne_nil)
        (fun n hn => (hname n hn).no_slash)
      rw [← hnames, hway] at htokens
      exact (hname dot (by rw [← hnames, ← htokens]; decide)).ne_dot rfl
    · have hdots := (dotdot_prefix_rel_iff hne).mpr (.inl hin)
      rw [hway] at hdots
      exact absurd hdots (by decide)
  · intro h
    rw [AbsPath.names_inj.mp h]
    exact rel_self targ

end Path
end Runc.Lib
