import Runc.Lib.Bytes
import Runc.Lib.Text

/-!
# Slash-separated paths

The functions of Go's packages `path` and `path/filepath` (which agree on Unix) that
work on the text of a path.
-/

namespace Runc.Lib
namespace Path

def dot : Text :=
  ['.']

def dotdot : Text :=
  ['.', '.']

def up (rooted : Bool) : List Text → List Text
  | [] => if rooted then [] else [dotdot]
  | top :: rest => if top = dotdot then dotdot :: top :: rest else rest

def push (rooted : Bool) (kept : List Text) (part : Text) : List Text :=
  if part = dot then kept
  else if part = dotdot then up rooted kept
  else part :: kept

def reduce (rooted : Bool) (kept parts : List Text) : List Text :=
  parts.foldl (push rooted) kept

def isAbs (p : Text) : Bool :=
  p.head? = some '/'

def render (names : List Text) : Text :=
  '/' :: ['/'].intercalate names

def clean (p : Text) : Text :=
  let names := (reduce (isAbs p) [] (tokens '/' p)).reverse
  if isAbs p then render names
  else if names = [] then dot
  else ['/'].intercalate names

def join (a b : Text) : Text :=
  if a = [] then
    if b = [] then [] else clean b
  else clean (a ++ '/' :: b)

structure IsName (name : Text) : Prop where
  ne_nil : name ≠ []
  no_slash : '/' ∉ name
  ne_dot : name ≠ dot
  ne_dotdot : name ≠ dotdot

instance (name : Text) : Decidable (IsName name) :=
  decidable_of_iff (name ≠ [] ∧ '/' ∉ name ∧ name ≠ dot ∧ name ≠ dotdot)
    ⟨fun h => ⟨h.1, h.2.1, h.2.2.1, h.2.2.2⟩,
      fun h => ⟨h.ne_nil, h.no_slash, h.ne_dot, h.ne_dotdot⟩⟩

theorem push_name {rooted : Bool} {kept : List Text} {name : Text} (h : IsName name) :
    push rooted kept name = name :: kept := by
  rw [push, if_neg h.ne_dot, if_neg h.ne_dotdot]

theorem reduce_names {rooted : Bool} {kept names : List Text} (h : ∀ name ∈ names, IsName name) :
    reduce rooted kept names = names.reverse ++ kept := by
  induction names generalizing kept with
  | nil => rfl
  | cons name names ih =>
    have hrest : ∀ n ∈ names, IsName n := fun n hn => h n (List.mem_cons_of_mem _ hn)
    have hstep : reduce rooted kept (name :: names) =
        reduce rooted (push rooted kept name) names := rfl
    rw [hstep, push_name (h name List.mem_cons_self), ih hrest]
    simp

theorem push_rooted_isName {kept : List Text} {part : Text} (hkept : ∀ name ∈ kept, IsName name)
    (hpart : '/' ∉ part ∧ part ≠ []) : ∀ name ∈ push true kept part, IsName name := by
  intro name hname
  rw [push] at hname
  split at hname
  · exact hkept name hname
  · rename_i hdot
    split at hname
    · cases kept with
      | nil => cases hname
      | cons top rest =>
        -- below the root no `..` is ever kept
        rw [up, if_neg (hkept top List.mem_cons_self).ne_dotdot] at hname
        exact hkept name (List.mem_cons_of_mem _ hname)
    · rename_i hdotdot
      rcases List.mem_cons.mp hname with rfl | hname
      · exact ⟨hpart.2, hpart.1, hdot, hdotdot⟩
      · exact hkept name hname

theorem reduce_rooted_isName {kept parts : List Text} (hkept : ∀ name ∈ kept, IsName name)
    (hparts : ∀ part ∈ parts, '/' ∉ part ∧ part ≠ []) :
    ∀ name ∈ reduce true kept parts, IsName name := by
  induction parts generalizing kept with
  | nil => exact hkept
  | cons part parts ih =>
    exact ih (push_rooted_isName hkept (hparts part List.mem_cons_self))
      (fun p hp => hparts p (List.mem_cons_of_mem _ hp))

theorem tokens_parts {p part : Text} (h : part ∈ tokens '/' p) : '/' ∉ part ∧ part ≠ [] :=
  ⟨(mem_tokens h).1, (mem_tokens h).2.1⟩

@[simp]
theorem isAbs_render (names : List Text) : isAbs (render names) = true :=
  rfl

theorem tokens_render {names : List Text} (h : ∀ name ∈ names, IsName name) :
    tokens '/' (render names) = names := by
  have hroot : tokens '/' (render names) = tokens '/' (['/'].intercalate names) :=
    tokens_append_sep [] _
  rw [hroot]
  exact tokens_intercalate (fun n hn => (h n hn).ne_nil) (fun n hn => (h n hn).no_slash)

theorem clean_of_isAbs {p : Text} (h : isAbs p = true) :
    clean p = render (reduce true [] (tokens '/' p)).reverse := by
  rw [clean, h]
  rfl

structure AbsPath where
  text : Text
  abs : isAbs text = true
  clean_eq : clean text = text

namespace AbsPath

def names (p : AbsPath) : List Text :=
  tokens '/' p.text

theorem text_eq_and_isName (p : AbsPath) :
    p.text = render p.names ∧ ∀ name ∈ p.names, IsName name := by
  have hclean : p.text = render (reduce true [] (tokens '/' p.text)).reverse := by
    rw [← clean_of_isAbs p.abs, p.clean_eq]
  have hnames : ∀ name ∈ (reduce true [] (tokens '/' p.text)).reverse, IsName name := by
    intro name hname
    exact reduce_rooted_isName (fun n hn => absurd hn List.not_mem_nil)
      (fun _ => tokens_parts) name (List.mem_reverse.mp hname)
  have htokens : p.names = (reduce true [] (tokens '/' p.text)).reverse :=
    (congrArg (tokens '/') hclean).trans (tokens_render hnames)
  rw [htokens]
  exact ⟨hclean, hnames⟩

theorem text_eq (p : AbsPath) : p.text = render p.names :=
  p.text_eq_and_isName.1

theorem isName (p : AbsPath) : ∀ name ∈ p.names, IsName name :=
  p.text_eq_and_isName.2

theorem text_ne_nil (p : AbsPath) : p.text ≠ [] := by
  rw [p.text_eq]
  exact List.cons_ne_nil _ _

def ofNames (names : List Text) (h : ∀ name ∈ names, IsName name) : AbsPath where
  text := render names
  abs := rfl
  clean_eq := by
    rw [clean_of_isAbs (isAbs_render names), tokens_render h, reduce_names h]
    simp

@[simp]
theorem names_ofNames (names : List Text) (h : ∀ name ∈ names, IsName name) :
    (ofNames names h).names = names :=
  tokens_render h

theorem names_inj {p q : AbsPath} : p.names = q.names ↔ p.text = q.text := by
  constructor
  · intro h
    rw [p.text_eq, q.text_eq, h]
  · intro h
    rw [names, names, h]

end AbsPath

def resolve (names : List Text) (sub : Text) : List Text :=
  (reduce true names.reverse (tokens '/' sub)).reverse

theorem resolve_isName {names : List Text} (h : ∀ name ∈ names, IsName name) (sub : Text) :
    ∀ name ∈ resolve names sub, IsName name := by
  intro name hname
  refine reduce_rooted_isName (fun n hn => h n (List.mem_reverse.mp hn))
    (fun _ => tokens_parts) name (List.mem_reverse.mp hname)

theorem resolve_of_isName {names : List Text} {sub : Text}
    (h : ∀ name ∈ tokens '/' sub, IsName name) : resolve names sub = names ++ tokens '/' sub := by
  rw [resolve, reduce_names h, List.reverse_append, List.reverse_reverse, List.reverse_reverse]

theorem resolve_name {names : List Text} {name : Text} (h : IsName name) :
    resolve names name = names ++ [name] := by
  have htokens : tokens '/' name = [name] := tokens_of_not_mem h.no_slash h.ne_nil
  rw [resolve_of_isName, htokens]
  rw [htokens]
  exact fun n hn => List.mem_singleton.mp hn ▸ h

theorem join_text (base : AbsPath) (sub : Text) :
    join base.text sub = render (resolve base.names sub) := by
  have habs : isAbs (base.text ++ '/' :: sub) = true := by
    rw [base.text_eq]
    rfl
  have hwalk : reduce true [] (tokens '/' base.text ++ tokens '/' sub) =
      reduce true base.names.reverse (tokens '/' sub) := by
    have hbase : reduce true [] (tokens '/' base.text) = base.names.reverse := by
      rw [← List.append_nil base.names.reverse]
      exact reduce_names base.isName
    rw [← hbase]
    exact List.foldl_append
  rw [join, if_neg base.text_ne_nil, clean_of_isAbs habs, tokens_append_sep, hwalk]
  rfl

def AbsPath.joined (base : AbsPath) (sub : Text) : AbsPath :=
  AbsPath.ofNames (resolve base.names sub) (resolve_isName base.isName sub)

theorem AbsPath.joined_text (base : AbsPath) (sub : Text) :
    (base.joined sub).text = join base.text sub :=
  (join_text base sub).symm

@[simp]
theorem AbsPath.joined_names (base : AbsPath) (sub : Text) :
    (base.joined sub).names = resolve base.names sub :=
  AbsPath.names_ofNames _ _

structure Climb where
  ups : Nat
  downs : List Text
  deriving DecidableEq, Repr

def Climb.step (c : Climb) (part : Text) : Climb :=
  if part = dot then c
  else if part = dotdot then
    match c.downs with
    | [] => { c with ups := c.ups + 1 }
    | _ :: rest => { c with downs := rest }
  else { c with downs := part :: c.downs }

def climb (sub : Text) : Climb :=
  (tokens '/' sub).foldl Climb.step ⟨0, []⟩

theorem push_climb {kept : List Text} {part : Text} {c : Climb} (hkept : ∀ name ∈ kept, IsName name)
    (hdowns : ∀ name ∈ c.downs, name ≠ dotdot) :
    push true (c.downs ++ kept.drop c.ups) part =
      (c.step part).downs ++ kept.drop (c.step part).ups := by
  rw [push, Climb.step]
  split
  · rfl
  · split
    · cases hc : c.downs with
      | nil =>
        rw [List.nil_append, List.nil_append, ← List.drop_drop]
        cases hrest : kept.drop c.ups with
        | nil => rfl
        | cons top rest =>
          have htop : top ∈ kept := List.mem_of_mem_drop (hrest ▸ List.mem_cons_self)
          exact if_neg (hkept top htop).ne_dotdot
      | cons top rest => exact if_neg (hdowns top (hc ▸ List.mem_cons_self))
    · rfl

theorem step_downs {part : Text} {c : Climb} (hdowns : ∀ name ∈ c.downs, name ≠ dotdot) :
    ∀ name ∈ (c.step part).downs, name ≠ dotdot := by
  intro name hname
  rw [Climb.step] at hname
  split at hname
  · exact hdowns name hname
  · split at hname
    · split at hname
      · rename_i hc
        rw [hc] at hname
        cases hname
      · rename_i hc
        exact hdowns name (hc ▸ List.mem_cons_of_mem _ hname)
    · rename_i hpart
      rcases List.mem_cons.mp hname with rfl | hname
      · exact hpart
      · exact hdowns name hname

theorem reduce_climb {kept : List Text} {c : Climb} (hkept : ∀ name ∈ kept, IsName name)
    (hdowns : ∀ name ∈ c.downs, name ≠ dotdot) (parts : List Text) :
    reduce true (c.downs ++ kept.drop c.ups) parts =
      (parts.foldl Climb.step c).downs ++ kept.drop (parts.foldl Climb.step c).ups := by
  induction parts generalizing c with
  | nil => rfl
  | cons part parts ih =>
    rw [List.foldl_cons, ← ih (step_downs hdowns), ← push_climb hkept hdowns]
    rfl

theorem resolve_eq {names : List Text} (h : ∀ name ∈ names, IsName name) (sub : Text) :
    resolve names sub =
      names.take (names.length - (climb sub).ups) ++ (climb sub).downs.reverse := by
  have hkept : ∀ name ∈ names.reverse, IsName name := fun n hn => h n (List.mem_reverse.mp hn)
  have hstart : reduce true names.reverse (tokens '/' sub) =
      (climb sub).downs ++ names.reverse.drop (climb sub).ups :=
    reduce_climb (c := ⟨0, []⟩) hkept (fun n hn => absurd hn List.not_mem_nil) _
  rw [resolve, hstart, List.reverse_append, List.drop_reverse, List.reverse_reverse]

end Path
end Runc.Lib
