import Runc.Rootfs.ProcMount

/-!
# Cleaning paths and stripping the root

The functions of `internal/pathrs` that work on the text of a path.  They are
compared with the names that are left once every `.` and `..` is resolved below
`/` (`rooted`).
-/

namespace Runc.Pathrs

open Lib
open Lib.Path
open Rootfs (isLexicallyInRoot isLexicallyInRoot_iff)

def lexicallyCleanPath (path : Text) : Text :=
  if path = [] then []
  else if isAbs path then clean path
  else
    match rel ['/'] (clean ('/' :: path)) with
    | .ok path => path
    | .error _ => []

/-- `strings.TrimPrefix`. -/
def trimStart (start t : Text) : Text :=
  if start.isPrefixOf t then t.drop start.length else t

def lexicallyStripRoot (root path : Text) : Text :=
  let root := lexicallyCleanPath ('/' :: root)
  let path := lexicallyCleanPath ('/' :: path)
  let path :=
    if path = root then ['/']
    else if root = ['/'] then path
    else trimStart (root ++ ['/']) path
  lexicallyCleanPath ('/' :: path)

def rooted (t : Text) : AbsPath :=
  .ofNames (resolve [] t) (resolve_isName (fun _ h => absurd h List.not_mem_nil) t)

@[simp]
theorem rooted_names (t : Text) : (rooted t).names = resolve [] t :=
  AbsPath.names_ofNames _ _

theorem tokens_slash_cons (t : Text) : tokens '/' ('/' :: t) = tokens '/' t :=
  tokens_append_sep [] t

theorem clean_slash (t : Text) : clean ('/' :: t) = (rooted t).text := by
  rw [clean_of_isAbs rfl, tokens_slash_cons]
  rfl

theorem lexicallyCleanPath_slash (t : Text) : lexicallyCleanPath ('/' :: t) = (rooted t).text := by
  have habs : isAbs ('/' :: t) = true := rfl
  rw [lexicallyCleanPath, if_neg (List.cons_ne_nil _ _), if_pos habs, clean_slash]

theorem exists_slash_cons {p : Text} (h : isAbs p = true) : ∃ t, p = '/' :: t := by
  cases p with
  | nil => exact absurd h (by decide)
  | cons c t => exact ⟨t, by simpa [isAbs] using h⟩

theorem rooted_text {t : Text} {p : AbsPath} (h : tokens '/' t = p.names) :
    (rooted t).text = p.text := by
  refine AbsPath.names_inj.mp ?_
  rw [rooted_names, resolve_of_isName (h ▸ p.isName), h, List.nil_append]

def relative (names : List Text) : Text :=
  if names = [] then dot else ['/'].intercalate names

theorem lexicallyCleanPath_relative {p : Text} (hne : p ≠ []) (habs : isAbs p = false) :
    lexicallyCleanPath p = relative (resolve [] p) := by
  have hroot : (rooted []).text = ['/'] := rfl
  rw [lexicallyCleanPath, if_neg hne, habs, if_neg (by decide), clean_slash, ← hroot, relative]
  by_cases hnil : resolve [] p = []
  · have hsame : (rooted p).text = (rooted []).text :=
      AbsPath.names_inj.mp (by rw [rooted_names, hnil]; rfl)
    rw [if_pos hnil, hsame, rel_self]
  · have hdiff : (rooted []).names ≠ (rooted p).names := by
      rw [rooted_names p]
      exact fun h => hnil h.symm
    rw [if_neg hnil, rel_text hdiff, way, rooted_names p]
    rfl

theorem resolve_relative {names base : List Text} (h : ∀ name ∈ names, IsName name) :
    resolve base (relative names) = base ++ names := by
  rw [relative]
  split
  · rename_i hnil
    rw [hnil, List.append_nil, resolve, show tokens '/' dot = [dot] from rfl]
    exact List.reverse_reverse base
  · have htokens : tokens '/' (['/'].intercalate names) = names :=
      tokens_intercalate (fun n hn => (h n hn).ne_nil) (fun n hn => (h n hn).no_slash)
    rw [resolve_of_isName (by rw [htokens]; exact h), htokens]

theorem relative_head {names : List Text} (h : ∀ name ∈ names, IsName name) :
    relative names ≠ [] ∧ isAbs (relative names) = false := by
  cases names with
  | nil => exact ⟨by decide, rfl⟩
  | cons name names =>
    obtain ⟨c, cs, rfl⟩ := List.exists_cons_of_ne_nil (h name List.mem_cons_self).ne_nil
    have hc : c ≠ '/' := by
      rintro rfl
      exact (h _ List.mem_cons_self).no_slash List.mem_cons_self
    have hhead : ∃ more, relative ((c :: cs) :: names) = c :: more := by
      cases names with
      | nil => exact ⟨cs, by simp [relative]⟩
      | cons next names =>
        exact ⟨_, by rw [relative, if_neg (List.cons_ne_nil _ _), intercalate_cons_cons]; rfl⟩
    obtain ⟨more, hmore⟩ := hhead
    rw [hmore]
    exact ⟨List.cons_ne_nil _ _, by simp [isAbs, hc]⟩

theorem resolve_lexicallyCleanPath (base : List Text) (p : Text) :
    resolve base (lexicallyCleanPath p) = base ++ resolve [] p := by
  by_cases hne : p = []
  · rw [hne, show lexicallyCleanPath [] = [] from rfl, resolve_of_isName (by decide),
      resolve_of_isName (by decide)]
    rfl
  · cases habs : isAbs p with
    | false =>
      rw [lexicallyCleanPath_relative hne habs, resolve_relative]
      exact resolve_isName (by simp) p
    | true =>
      obtain ⟨t, rfl⟩ := exists_slash_cons habs
      rw [lexicallyCleanPath_slash, resolve_of_isName (rooted t).isName]
      exact congrArg (base ++ ·) ((rooted_names t).trans (by rw [resolve, resolve, tokens_slash_cons]))

theorem lexicallyCleanPath_lexicallyCleanPath (p : Text) :
    lexicallyCleanPath (lexicallyCleanPath p) = lexicallyCleanPath p := by
  by_cases hne : p = []
  · rw [hne]
    rfl
  · cases habs : isAbs p with
    | false =>
      have hnames : ∀ name ∈ resolve [] p, IsName name := resolve_isName (by simp) p
      obtain ⟨hne', habs'⟩ := relative_head hnames
      rw [lexicallyCleanPath_relative hne habs, lexicallyCleanPath_relative hne' habs',
        resolve_relative hnames, List.nil_append]
    | true =>
      obtain ⟨t, rfl⟩ := exists_slash_cons habs
      rw [lexicallyCleanPath_slash, lexicallyCleanPath, if_neg (rooted t).text_ne_nil,
        if_pos (rooted t).abs, (rooted t).clean_eq]

/-- However many `..` the path has, it stays below the root it is joined to. -/
theorem lexicallyCleanPath_stays :
    (∀ p, lexicallyCleanPath (lexicallyCleanPath p) = lexicallyCleanPath p) ∧
      ∀ (p : Text) (root : AbsPath),
        isLexicallyInRoot root.text (join root.text (lexicallyCleanPath p)) = true := by
  refine ⟨lexicallyCleanPath_lexicallyCleanPath, fun p root => ?_⟩
  rw [← AbsPath.joined_text, isLexicallyInRoot_iff, Within, AbsPath.joined_names,
    resolve_lexicallyCleanPath]
  exact List.prefix_append _ _

section StripRoot

variable {root path : Text}

theorem names_rooted (p : AbsPath) : (rooted p.text).names = p.names :=
  AbsPath.names_inj.mpr (rooted_text rfl)

theorem lexicallyStripRoot_of_within {rest : List Text}
    (h : (rooted path).names = (rooted root).names ++ rest) :
    lexicallyStripRoot root path = render rest := by
  have hrest : ∀ name ∈ rest, IsName name := fun name hname =>
    (rooted path).isName name (h ▸ List.mem_append_right _ hname)
  simp only [lexicallyStripRoot, lexicallyCleanPath_slash]
  refine rooted_text (p := .ofNames rest hrest) ?_
  rw [AbsPath.names_ofNames]
  split
  · rename_i heq
    rw [AbsPath.names_inj.mpr heq, List.self_eq_append_right] at h
    rw [h]
    rfl
  · rename_i hne
    split
    · rename_i hroot
      have hnil : (rooted root).names = [] := congrArg (tokens '/') hroot
      exact h.trans (by rw [hnil, List.nil_append])
    · rename_i hroot
      have hnil : (rooted root).names ≠ [] := fun hnil => hroot (text_of_names_nil hnil)
      have hstart : (rooted root).text ++ ['/'] <+: (rooted path).text :=
        ((within_iff_text hnil _).mp ⟨rest, h.symm⟩).resolve_left hne
      rw [trimStart, if_pos (List.isPrefixOf_iff_prefix.mpr hstart)]
      obtain ⟨more, hmore⟩ := hstart
      rw [← hmore, List.drop_left]
      have htokens : (rooted path).names = (rooted root).names ++ tokens '/' more := by
        rw [AbsPath.names, ← hmore, List.append_assoc]
        exact tokens_append_sep _ _
      exact List.append_cancel_left (htokens.symm.trans h)

theorem lexicallyStripRoot_of_not_within (h : ¬ Within (rooted root) (rooted path)) :
    lexicallyStripRoot root path = (rooted path).text := by
  have hnil : (rooted root).names ≠ [] := fun hnil => h (by rw [Within, hnil]; exact List.nil_prefix)
  have hout := mt (within_iff_text hnil (rooted path)).mpr h
  have hroot : (rooted root).text ≠ ['/'] := fun heq => hnil (congrArg (tokens '/') heq)
  simp only [lexicallyStripRoot, lexicallyCleanPath_slash]
  rw [if_neg fun heq => hout (.inl heq), if_neg hroot, trimStart,
    if_neg fun hstart => hout (.inr (List.isPrefixOf_iff_prefix.mp hstart))]
  exact rooted_text rfl

theorem join_render (base : AbsPath) {rest : List Text} (h : ∀ name ∈ rest, IsName name) :
    join base.text (render rest) = render (base.names ++ rest) := by
  have htokens := tokens_render h
  rw [join_text, resolve_of_isName (by rw [htokens]; exact h), htokens]

/-- The stripped path is clean and absolute and leads from the root to the path, if the path is
in the root at all. -/
theorem lexicallyStripRoot_spec (root path : Text) :
    lexicallyCleanPath ('/' :: root) = (rooted root).text ∧
      lexicallyCleanPath ('/' :: path) = (rooted path).text ∧
      isAbs (lexicallyStripRoot root path) = true ∧
      clean (lexicallyStripRoot root path) = lexicallyStripRoot root path ∧
      dotdot ∉ tokens '/' (lexicallyStripRoot root path) ∧
      (Within (rooted root) (rooted path) →
        join (rooted root).text (lexicallyStripRoot root path) = (rooted path).text) ∧
      (¬ Within (rooted root) (rooted path) →
        lexicallyStripRoot root path = (rooted path).text) := by
  refine ⟨lexicallyCleanPath_slash root, lexicallyCleanPath_slash path, ?_⟩
  by_cases hin : Within (rooted root) (rooted path)
  · obtain ⟨rest, hrest⟩ := hin
    have hnames : ∀ name ∈ rest, IsName name := fun name hname =>
      (rooted path).isName name (hrest ▸ List.mem_append_right _ hname)
    have hclean := (AbsPath.ofNames rest hnames).clean_eq
    rw [lexicallyStripRoot_of_within hrest.symm, tokens_render hnames]
    refine ⟨rfl, hclean, fun h => (hnames _ h).ne_dotdot rfl, fun _ => ?_,
      fun hout => absurd ⟨rest, hrest⟩ hout⟩
    rw [join_render _ hnames, hrest, ← AbsPath.text_eq]
  · rw [lexicallyStripRoot_of_not_within hin]
    exact ⟨(rooted path).abs, (rooted path).clean_eq,
      fun h => ((rooted path).isName _ h).ne_dotdot rfl, fun h => absurd h hin, fun _ => rfl⟩

end StripRoot

section MkdirAll

/-- An error of `MkdirAllParentInRoot` before the parent is created. -/
inductive MkdirErr
  | hallucinate (err : Text)
  | badTrailing (unsafePath filename : Text)
deriving DecidableEq

def MkdirErr.error (unicode : Unicode) : MkdirErr → Text
  | .hallucinate err => "failed to construct hallucinated target path: ".toList ++ err
  | .badTrailing unsafePath filename =>
      "create parent dir in root subpath ".toList ++ quote unicode unsafePath ++
        " has bad trailing component ".toList ++ quote unicode filename

variable {F : Type} (secureJoin : Text → Text → Except Text Text)
  (mkdirAllInRoot : Text → Text → Except Text F)

def hallucinateUnsafePath (root unsafePath : Text) : Except Text Text :=
  match secureJoin root (lexicallyStripRoot root unsafePath) with
  | .error err => .error err
  | .ok weirdPath => .ok (lexicallyStripRoot root weirdPath)

def mkdirAllParentInRoot (root unsafePath : Text) : Except MkdirErr (Except Text F × Text) :=
  match hallucinateUnsafePath secureJoin root unsafePath with
  | .error err => .error (.hallucinate err)
  | .ok unsafePath =>
      let (dirPath, filename) := split unsafePath
      if join ['/'] filename = ['/'] then .error (.badTrailing unsafePath filename)
      else .ok (mkdirAllInRoot root dirPath, filename)

variable {secureJoin mkdirAllInRoot} {root weird : AbsPath} {path : Text}

theorem hallucinateUnsafePath_ok {rest : List Text}
    (hjoin : secureJoin root.text (lexicallyStripRoot root.text path) = .ok weird.text)
    (hrest : root.names ++ rest = weird.names) :
    hallucinateUnsafePath secureJoin root.text path = .ok (render rest) := by
  have hstrip : lexicallyStripRoot root.text weird.text = render rest :=
    lexicallyStripRoot_of_within (by rw [names_rooted, names_rooted, hrest])
  rw [hallucinateUnsafePath, hjoin]
  exact congrArg Except.ok hstrip

theorem mkdirAllParentInRoot_root
    (hjoin : secureJoin root.text (lexicallyStripRoot root.text path) = .ok root.text) :
    mkdirAllParentInRoot secureJoin mkdirAllInRoot root.text path =
      .error (.badTrailing ['/'] []) := by
  rw [mkdirAllParentInRoot, hallucinateUnsafePath_ok hjoin (List.append_nil _)]
  rfl

theorem mkdirAllParentInRoot_below {init : List Text} {last : Text}
    (hjoin : secureJoin root.text (lexicallyStripRoot root.text path) = .ok weird.text)
    (hweird : root.names ++ (init ++ [last]) = weird.names) :
    mkdirAllParentInRoot secureJoin mkdirAllInRoot root.text path =
      .ok (mkdirAllInRoot root.text (slashed init ++ ['/']), last) := by
  have hlast : IsName last := weird.isName last (hweird ▸ by simp)
  have hname : join ['/'] last ≠ ['/'] := by
    have hjoined : join (rooted []).text last = '/' :: ['/'].intercalate [last] := by
      rw [join_text, resolve_name hlast]
      rfl
    intro hroot
    have hnil : ['/'].intercalate [last] = [] := (List.cons.inj (hjoined.symm.trans hroot)).2
    exact hlast.ne_nil (by simpa using hnil)
  rw [mkdirAllParentInRoot, hallucinateUnsafePath_ok hjoin hweird]
  simp only [split_render_concat hlast.no_slash]
  exact if_neg hname

end MkdirAll

end Runc.Pathrs
