import Mathlib.Data.List.AList
import Runc.Lib.Indexing

/-!
# Labels

`CreateLibcontainerConfig` stores the annotations of a spec and the bundle directory as
labels `key=value`. `utils.Annotations` takes them apart again, and `runc exec` looks
for the bundle with `utils.SearchLabels`.
-/

namespace Runc.Specconv

open Lib

/-- `map[string]string`. -/
abbrev StringMap := AList (fun _ : Text => Text)

abbrev StringEntry := Sigma (fun _ : Text => Text)

def bundleKey : Text :=
  ['b', 'u', 'n', 'd', 'l', 'e']

def label (entry : StringEntry) : Text :=
  entry.1 ++ '=' :: entry.2

def labels (order : List StringEntry) (cwd : Text) : List Text :=
  order.map label ++ [bundleKey ++ '=' :: cwd]

def searchLabels (key : Text) : List Text → Option Text
  | [] => none
  | s :: rest =>
      if key ++ ['='] <+: s then some (s.drop (key ++ ['=']).length)
      else searchLabels key rest

def annotationsFrom : Text × StringMap → List Text → Text × StringMap
  | found, [] => found
  | (bundle, user), l :: rest =>
      match cut '=' l with
      | none => annotationsFrom (bundle, user) rest
      | some (name, value) =>
          if name = bundleKey then annotationsFrom (value, user) rest
          else annotationsFrom (bundle, user.insert name value) rest

def annotations (labels : List Text) : Text × StringMap :=
  annotationsFrom ([], ∅) labels

def execBundle (labels : List Text) : Except String Text :=
  match searchLabels bundleKey labels with
  | none => .error "bundle not found in labels"
  | some bundle => .ok bundle

def Plain (key : Text) : Prop :=
  '=' ∉ key ∧ key ≠ bundleKey

theorem annotationsFrom_plain {entry : StringEntry} (h : Plain entry.1) (bundle : Text)
    (user : StringMap) (rest : List Text) :
    annotationsFrom (bundle, user) (label entry :: rest) =
      annotationsFrom (bundle, user.insert entry.1 entry.2) rest := by
  have hcut : cut '=' (label entry) = some (entry.1, entry.2) := cut_eq_some_iff.mpr ⟨rfl, h.1⟩
  rw [annotationsFrom, hcut]
  exact if_neg h.2

theorem annotationsFrom_append (found : Text × StringMap) (a b : List Text) :
    annotationsFrom found (a ++ b) = annotationsFrom (annotationsFrom found a) b := by
  induction a generalizing found with
  | nil => rfl
  | cons l a ih =>
    obtain ⟨bundle, user⟩ := found
    rw [List.cons_append, annotationsFrom, annotationsFrom]
    split
    · exact ih _
    · split
      · exact ih _
      · exact ih _

theorem annotationsFrom_bundle (found : Text × StringMap) (cwd : Text) :
    annotationsFrom found [bundleKey ++ '=' :: cwd] = (cwd, found.2) := by
  have hcut : cut '=' (bundleKey ++ '=' :: cwd) = some (bundleKey, cwd) :=
    cut_eq_some_iff.mpr ⟨rfl, by decide⟩
  obtain ⟨bundle, user⟩ := found
  rw [annotationsFrom, hcut]
  exact if_pos rfl

theorem mem_annotationsFrom {found : Text × StringMap} (hfound : ∀ key ∈ found.2, Plain key)
    (ls : List Text) : ∀ key ∈ (annotationsFrom found ls).2, Plain key := by
  induction ls generalizing found with
  | nil => exact hfound
  | cons l ls ih =>
    obtain ⟨bundle, user⟩ := found
    rw [annotationsFrom]
    split
    · exact ih hfound
    · rename_i name value hcut
      split
      · exact ih hfound
      · rename_i hname
        refine ih fun key hkey => ?_
        rcases (AList.mem_insert user).mp hkey with rfl | hkey
        · exact ⟨(cut_eq_some_iff.mp hcut).2, hname⟩
        · exact hfound key hkey

theorem lookup_foldl_insert {order : List StringEntry} (hnodup : order.NodupKeys) (user : StringMap)
    (key : Text) :
    (order.foldl (fun m e => m.insert e.1 e.2) user).lookup key =
      (order.dlookup key).or (user.lookup key) := by
  induction order generalizing user with
  | nil => rfl
  | cons entry order ih =>
    obtain ⟨k, v⟩ := entry
    obtain ⟨hk, horder⟩ := List.nodupKeys_cons.mp hnodup
    rw [List.foldl_cons, ih horder]
    by_cases hkey : key = k
    · subst hkey
      rw [List.dlookup_eq_none.mpr hk, List.dlookup_cons_eq, AList.lookup_insert]
      rfl
    · rw [List.dlookup_cons_ne _ _ hkey, AList.lookup_insert_ne hkey]

theorem annotationsFrom_order {order : List StringEntry} (h : ∀ entry ∈ order, Plain entry.1)
    (bundle : Text) (user : StringMap) :
    annotationsFrom (bundle, user) (order.map label) =
      (bundle, order.foldl (fun m e => m.insert e.1 e.2) user) := by
  induction order generalizing user with
  | nil => rfl
  | cons entry order ih =>
    rw [List.map_cons, annotationsFrom_plain (h entry List.mem_cons_self),
      ih fun e he => h e (List.mem_cons_of_mem _ he)]
    rfl

section RoundTrip

variable {m : StringMap} {order : List StringEntry}

theorem annotations_labels (order : List StringEntry) (cwd : Text) :
    annotations (labels order cwd) =
      (cwd, (annotationsFrom ([], ∅) (order.map label)).2) := by
  rw [annotations, labels, annotationsFrom_append, annotationsFrom_bundle]

theorem annotations_lookup_iff (horder : order.Perm m.entries) (cwd : Text) :
    (∀ key, (annotations (labels order cwd)).2.lookup key = m.lookup key) ↔
      ∀ entry ∈ m.entries, Plain entry.1 := by
  rw [annotations_labels]
  have hnodup : order.NodupKeys := (List.perm_nodupKeys horder).mpr m.nodupKeys
  constructor
  · rintro h ⟨key, value⟩ hentry
    have hsome : value ∈ m.lookup key := AList.mem_lookup_iff.mpr hentry
    rw [← h key] at hsome
    have hmem : key ∈ (annotationsFrom ([], ∅) (order.map label)).2 :=
      AList.lookup_isSome.mp (Option.isSome_of_mem hsome)
    exact mem_annotationsFrom (fun k hk => absurd hk (AList.notMem_empty k)) _ key hmem
  · intro h key
    have hplain : ∀ entry ∈ order, Plain entry.1 :=
      fun entry hentry => h entry (horder.mem_iff.mp hentry)
    rw [annotationsFrom_order hplain, lookup_foldl_insert hnodup, AList.lookup_empty,
      Option.or_none]
    exact List.perm_dlookup key hnodup horder

theorem searchLabels_head (value : Text) (rest : List Text) :
    searchLabels bundleKey ((bundleKey ++ '=' :: value) :: rest) = some value := by
  have hsplit : bundleKey ++ '=' :: value = (bundleKey ++ ['=']) ++ value := by simp
  rw [searchLabels, hsplit, if_pos (List.prefix_append _ _), List.drop_left]

theorem searchLabels_of_all {cwd : Text} {ls : List Text}
    (h : ∀ l ∈ ls, bundleKey ++ ['='] <+: l → l = bundleKey ++ '=' :: cwd) :
    searchLabels bundleKey (ls ++ [bundleKey ++ '=' :: cwd]) = some cwd := by
  induction ls with
  | nil => exact searchLabels_head cwd []
  | cons l ls ih =>
    by_cases hl : bundleKey ++ ['='] <+: l
    · rw [h l List.mem_cons_self hl]
      exact searchLabels_head cwd _
    · rw [List.cons_append, searchLabels, if_neg hl]
      exact ih fun l' hl' => h l' (List.mem_cons_of_mem _ hl')

theorem not_bundle_of_plain {entry : StringEntry} (h : Plain entry.1) :
    ¬ bundleKey ++ ['='] <+: label entry := by
  rintro ⟨value, hvalue⟩
  have hcut : cut '=' (label entry) = some (entry.1, entry.2) := cut_eq_some_iff.mpr ⟨rfl, h.1⟩
  have hcut' : cut '=' (label entry) = some (bundleKey, value) :=
    cut_eq_some_iff.mpr ⟨by rw [← hvalue]; simp, by decide⟩
  rw [hcut] at hcut'
  exact h.2 (Prod.mk.inj (Option.some.inj hcut')).1

theorem execBundle_eq_ok_iff {ls : List Text} {cwd : Text} :
    execBundle ls = .ok cwd ↔ searchLabels bundleKey ls = some cwd := by
  unfold execBundle
  cases searchLabels bundleKey ls <;> simp

theorem execBundle_iff (m : StringMap) (cwd : Text) :
    (∀ order : List StringEntry, order.Perm m.entries →
        execBundle (labels order cwd) = .ok cwd) ↔
      ∀ entry ∈ m.entries, bundleKey ++ ['='] <+: label entry →
        label entry = bundleKey ++ '=' :: cwd := by
  constructor
  · rintro h entry hentry ⟨value, hvalue⟩
    -- The annotation may come first.
    have hfirst := h _ (List.perm_cons_erase hentry).symm
    have hlabel : label entry = bundleKey ++ '=' :: value := by
      rw [← hvalue]
      simp
    rw [labels, List.map_cons, List.cons_append, hlabel, execBundle_eq_ok_iff,
      searchLabels_head] at hfirst
    rw [hlabel, Option.some.inj hfirst]
  · intro h order horder
    rw [execBundle_eq_ok_iff]
    refine searchLabels_of_all fun l hl hbundle => ?_
    obtain ⟨entry, hentry, rfl⟩ := List.mem_map.mp hl
    exact h entry (horder.mem_iff.mp hentry) hbundle

def RoundTrip (m : StringMap) (order : List StringEntry) (cwd : Text) : Prop :=
  (annotations (labels order cwd)).1 = cwd ∧
    (∀ key, (annotations (labels order cwd)).2.lookup key = m.lookup key) ∧
    searchLabels bundleKey (labels order cwd) = some cwd

/-- The round trip of the labels. -/
theorem labels_roundTrip_iff (m : StringMap) (order : List StringEntry)
    (horder : order.Perm m.entries) (cwd : Text) :
    (RoundTrip m order cwd ↔ ∀ entry ∈ m.entries, Plain entry.1) ∧
      ((∀ order : List StringEntry, order.Perm m.entries →
          execBundle (labels order cwd) = .ok cwd) ↔
        ∀ entry ∈ m.entries, bundleKey ++ ['='] <+: label entry →
          label entry = bundleKey ++ '=' :: cwd) := by
  refine ⟨⟨fun h => (annotations_lookup_iff horder cwd).mp h.2.1, fun h => ?_⟩,
    execBundle_iff m cwd⟩
  refine ⟨by rw [annotations_labels], (annotations_lookup_iff horder cwd).mpr h, ?_⟩
  refine searchLabels_of_all fun l hl hbundle => ?_
  obtain ⟨entry, hentry, rfl⟩ := List.mem_map.mp hl
  exact absurd hbundle (not_bundle_of_plain (h entry (horder.mem_iff.mp hentry)))

end RoundTrip

def versionMap : StringMap :=
  AList.insert ['v'] ['1'] ∅

theorem labels_roundTrip_version : RoundTrip versionMap versionMap.entries ['/', 'b'] := by
  refine (labels_roundTrip_iff versionMap versionMap.entries (.refl _) ['/', 'b']).1.mpr ?_
  intro entry hentry
  obtain rfl := List.mem_singleton.mp hentry
  exact ⟨by decide, by decide⟩

def otherBundle : StringMap :=
  AList.insert bundleKey ['/', 'x'] ∅

/-- Another bundle. -/
theorem exec_other_bundle :
    let ls := labels otherBundle.entries ['/', 'b']
    execBundle ls = .ok ['/', 'x'] ∧ (annotations ls).1 = ['/', 'b'] ∧
      otherBundle.lookup bundleKey = some ['/', 'x'] ∧
      (annotations ls).2.lookup bundleKey = none ∧
      ¬ RoundTrip otherBundle otherBundle.entries ['/', 'b'] := by
  refine ⟨rfl, rfl, rfl, rfl, fun h => ?_⟩
  exact absurd h.2.2 (by decide)

end Runc.Specconv
