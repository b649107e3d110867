import Runc.Bootstrap.RoundTrip

/-!
# A list of paths that is sent empty

`bootstrapData` looks at the map to see whether there is anything to join, but
`orderNamespacePaths` keeps only the entries whose type the configuration lists.
-/

namespace Runc.Bootstrap

open Lib

def PathsEmpty (e : Endian) (wire : Bytes) : Prop :=
  ∃ c n nsspec, nlParse wire.length e wire = .ok (c, n) ∧
    c.namespaces = some nsspec ∧
    (cString nsspec = [] ∨
      ∃ opens, openNamespaces opens nsspec = .error .nsPathsEmpty)

section Sent

variable {host : Host} {config : Config} {cloneFlags : Nat} {nsMaps : NsMap}

theorem told_namespaces_empty_iff (host : Host) (config : Config) (cloneFlags : Nat)
    (nsMaps : NsMap) :
    (told host config cloneFlags nsMaps).namespaces = some [] ↔
      nsMaps ≠ [] ∧ namespacePairs config nsMaps = [] := by
  simp only [told, List.length_pos_iff]
  split
  · rename_i hne
    simp [hne]
  · rename_i hnil
    simp [hnil]

theorem pathsEmpty_iff {wire : Bytes} (h : bootstrapData host config cloneFlags nsMaps = .ok wire) :
    PathsEmpty host.endian wire ↔
      nsMaps ≠ [] ∧ namespacePairs config nsMaps = [] := by
  obtain ⟨hparse, hclean⟩ := nlParse_bootstrapData h
  have hread := hparse wire.length (Nat.le_refl _)
  rw [← told_namespaces_empty_iff host config cloneFlags nsMaps]
  constructor
  · rintro ⟨c, n, nsspec, hc, hspec, hempty⟩
    rw [hread] at hc
    cases hc
    obtain ⟨pairs, hpairs, rfl⟩ := Option.map_eq_some_iff.mp hspec
    have hopen := openNamespaces_joined (told_clean hclean hpairs)
    -- an empty list is refused whatever can be opened
    obtain ⟨opens, hbail⟩ : ∃ opens, openNamespaces opens
        (ended ([comma].intercalate (pairs.map pairItem))) = .error .nsPathsEmpty := by
      rcases hempty with hnil | hbail
      · exact ⟨fun _ => true, by rw [openNamespaces, hnil]; rfl⟩
      · exact hbail
    rw [hopen] at hbail
    split at hbail
    · rename_i hnil
      rw [hpairs, hnil]
    · exact absurd hbail (openAll_ne_nsPathsEmpty _ _)
  · intro hnil
    exact ⟨_, _, ended [], hread, by simp [Told.arrives, hnil], .inl rfl⟩

theorem namespacePairs_eq_nil_iff (hpaths : ∀ entry ∈ nsMaps, entry.2 ≠ []) :
    namespacePairs config nsMaps = [] ↔
      ∀ entry ∈ nsMaps, entry.1 ∈ namespaceTypes → config.contains entry.1 = false := by
  simp only [namespacePairs, List.filterMap_eq_nil_iff]
  constructor
  · intro hnone entry hentry htype
    by_contra hlisted
    have hfound : ∃ found, nsMaps.find? (·.1 = entry.1) = some found := by
      rw [← Option.isSome_iff_exists, List.find?_isSome]
      exact ⟨entry, hentry, by simp⟩
    obtain ⟨found, hfound⟩ := hfound
    have hpath := hpaths found (List.mem_of_find?_eq_some hfound)
    have hpair := hnone entry.1 htype
    simp [namespacePair, NsMap.get, hlisted, hfound, hpath] at hpair
  · intro hunlisted ns htype
    cases hfound : nsMaps.find? (·.1 = ns) with
    | none => simp [namespacePair, NsMap.get, hfound]
    | some found =>
      have hns : found.1 = ns := by simpa using List.find?_some hfound
      have hlisted := hunlisted found (List.mem_of_find?_eq_some hfound)
      rw [hns] at hlisted
      simp [namespacePair, hlisted htype]

end Sent

section Callers

variable {host : Host} {config : Config}

theorem contains_iff (ns : NamespaceType) :
    config.contains ns = true ↔ ∃ listed ∈ config.namespaces, listed.type = ns := by
  simp [Config.contains]

theorem mem_initNsMaps (entry : NamespaceType × Bytes) :
    entry ∈ initNsMaps config ↔
      ∃ ns ∈ config.namespaces, ns.path ≠ [] ∧ entry = (ns.type, ns.path) := by
  have hfold : ∀ (l : List Namespace) (m : NsMap), entry ∈ l.foldl
          (fun m ns => if ns.path ≠ [] then (ns.type, ns.path) :: m else m) m ↔
        entry ∈ m ∨ ∃ ns ∈ l, ns.path ≠ [] ∧ entry = (ns.type, ns.path) := by
    intro l
    induction l with
    | nil => simp
    | cons ns rest ih =>
      intro m
      rw [List.foldl_cons, ih]
      by_cases hpath : ns.path = []
      · simp [hpath]
      · simp [hpath]
        tauto
  exact (hfold config.namespaces []).trans (by simp)

theorem initBootstrap_pathsEmpty_iff {wire : Bytes} (h : initBootstrap host config = .ok wire) :
    PathsEmpty host.endian wire ↔
      (∃ ns ∈ config.namespaces, ns.path ≠ []) ∧
        ∀ ns ∈ config.namespaces, ns.path ≠ [] → ns.type ∉ namespaceTypes := by
  have hpaths : ∀ entry ∈ initNsMaps config, entry.2 ≠ [] := by
    intro entry hentry
    obtain ⟨ns, -, hpath, rfl⟩ := (mem_initNsMaps entry).mp hentry
    exact hpath
  have hsome : initNsMaps config ≠ [] ↔ ∃ ns ∈ config.namespaces, ns.path ≠ [] := by
    constructor
    · intro hne
      obtain ⟨entry, hentry⟩ := List.exists_mem_of_ne_nil _ hne
      obtain ⟨ns, hns, hpath, -⟩ := (mem_initNsMaps entry).mp hentry
      exact ⟨ns, hns, hpath⟩
    · rintro ⟨ns, hns, hpath⟩
      exact List.ne_nil_of_mem ((mem_initNsMaps _).mpr ⟨ns, hns, hpath, rfl⟩)
  rw [pathsEmpty_iff h, hsome, namespacePairs_eq_nil_iff hpaths]
  refine and_congr_right fun _ => ⟨fun hnone ns hns hpath htype => ?_,
    fun hunknown entry hentry htype => ?_⟩
  · have hlisted := hnone _ ((mem_initNsMaps _).mpr ⟨ns, hns, hpath, rfl⟩) htype
    rw [(contains_iff ns.type).mpr ⟨ns, hns, rfl⟩] at hlisted
    cases hlisted
  · obtain ⟨ns, hns, hpath, rfl⟩ := (mem_initNsMaps entry).mp hentry
    exact absurd htype (hunknown ns hns hpath)

theorem getPath_ne_nil (pid : Int) (ns : NamespaceType) : getPath pid ns ≠ [] := by
  have hslash : ascii "/proc/" ≠ [] := by decide
  simp [getPath, hslash]

theorem mem_namespacePaths {pid : Int} (hpid : 0 < pid) (entry : NamespaceType × Bytes) :
    entry ∈ namespacePaths host config pid ↔
      entry.2 = getPath pid entry.1 ∧
        (config.contains entry.1 = true ∨
          (entry.1 ∈ namespaceTypes ∧ host.supported entry.1 = true)) := by
  obtain ⟨type, path⟩ := entry
  rw [contains_iff]
  simp only [namespacePaths, hpid, if_true, List.mem_append, List.mem_map,
    List.mem_filter, Prod.mk.injEq, Bool.and_eq_true]
  constructor
  · rintro (⟨listed, hlisted, rfl, rfl⟩ | ⟨ns, ⟨htype, hsupported, -⟩, rfl, rfl⟩)
    · exact ⟨rfl, .inl ⟨listed, hlisted, rfl⟩⟩
    · exact ⟨rfl, .inr ⟨htype, hsupported⟩⟩
  · rintro ⟨rfl, hlisted⟩
    by_cases hcontains : config.contains type = true
    · obtain ⟨listed, hmem, rfl⟩ := (contains_iff type).mp hcontains
      exact .inl ⟨listed, hmem, rfl, rfl⟩
    · rcases hlisted with hlisted | ⟨htype, hsupported⟩
      · exact absurd ((contains_iff type).mpr hlisted) hcontains
      · exact .inr ⟨type, ⟨htype, hsupported, by simpa using hcontains⟩, rfl, rfl⟩

theorem setnsBootstrap_pathsEmpty_iff {pid : Int} {wire : Bytes}
    (h : setnsBootstrap host config pid = .ok wire) :
    PathsEmpty host.endian wire ↔
      0 < pid ∧ (∀ ns ∈ config.namespaces, ns.type ∉ namespaceTypes) ∧
        (config.namespaces ≠ [] ∨ ∃ ns ∈ namespaceTypes, host.supported ns = true) := by
  rw [pathsEmpty_iff h]
  by_cases hpid : 0 < pid
  · have hpaths : ∀ entry ∈ namespacePaths host config pid, entry.2 ≠ [] := by
      intro entry hentry
      rw [((mem_namespacePaths hpid entry).mp hentry).1]
      exact getPath_ne_nil pid entry.1
    have hlisted : namespacePairs config (namespacePaths host config pid) = [] ↔
        ∀ ns ∈ config.namespaces, ns.type ∉ namespaceTypes := by
      rw [namespacePairs_eq_nil_iff hpaths]
      constructor
      · intro hnone ns hns htype
        have hcontains := (contains_iff ns.type).mpr ⟨ns, hns, rfl⟩
        have hmissing := hnone (ns.type, getPath pid ns.type)
          ((mem_namespacePaths hpid _).mpr ⟨rfl, .inl hcontains⟩) htype
        rw [hcontains] at hmissing
        cases hmissing
      · intro hunknown entry _ htype
        by_contra hcontains
        obtain ⟨ns, hns, hsame⟩ := (contains_iff entry.1).mp (by simpa using hcontains)
        exact hunknown ns hns (hsame ▸ htype)
    have hsome : namespacePaths host config pid ≠ [] ↔
        config.namespaces ≠ [] ∨ ∃ ns ∈ namespaceTypes, host.supported ns = true := by
      constructor
      · intro hne
        obtain ⟨entry, hentry⟩ := List.exists_mem_of_ne_nil _ hne
        rcases ((mem_namespacePaths hpid entry).mp hentry).2 with hcontains | hfound
        · obtain ⟨ns, hns, -⟩ := (contains_iff _).mp hcontains
          exact .inl (List.ne_nil_of_mem hns)
        · exact .inr ⟨entry.1, hfound⟩
      · rintro (hne | ⟨ns, hfound⟩)
        · obtain ⟨ns, hns⟩ := List.exists_mem_of_ne_nil _ hne
          have hcontains := (contains_iff ns.type).mpr ⟨ns, hns, rfl⟩
          exact List.ne_nil_of_mem ((mem_namespacePaths hpid
            (ns.type, getPath pid ns.type)).mpr ⟨rfl, .inl hcontains⟩)
        · exact List.ne_nil_of_mem ((mem_namespacePaths hpid
            (ns, getPath pid ns)).mpr ⟨rfl, .inr hfound⟩)
    rw [hlisted, hsome]
    tauto
  · have hnil : namespacePaths host config pid = [] := by
      simp [namespacePaths, hpid]
    simp [hnil, hpid]

end Callers

/-- Empty lists. -/
theorem pathsEmpty_callers_iff (host : Host) (config : Config) (pid : Int) :
    (∀ wire, initBootstrap host config = .ok wire →
      (¬ PathsEmpty host.endian wire ↔
        (∀ ns ∈ config.namespaces, ns.path = []) ∨
          ∃ ns ∈ config.namespaces, ns.path ≠ [] ∧ ns.type ∈ namespaceTypes)) ∧
    (∀ wire, setnsBootstrap host config pid = .ok wire →
      (¬ PathsEmpty host.endian wire ↔
        pid ≤ 0 ∨ (∃ ns ∈ config.namespaces, ns.type ∈ namespaceTypes) ∨
          (config.namespaces = [] ∧
            ∀ ns ∈ namespaceTypes, host.supported ns = false))) := by
  constructor
  · intro wire h
    rw [initBootstrap_pathsEmpty_iff h, not_and_or]
    refine or_congr ?_ ?_
    · simp
    · simp
  · intro wire h
    rw [setnsBootstrap_pathsEmpty_iff h, not_and_or, not_and_or]
    refine or_congr ?_ (or_congr ?_ ?_)
    · omega
    · simp
    · simp

theorem pathsEmpty_callers_joinsNet :
    ∃ wire, initBootstrap (plainHost .little) joinsNet = .ok wire ∧
      ¬ PathsEmpty .little wire := by
  have hsent : initBootstrap (plainHost .little) joinsNet = .ok _ := rfl
  exact ⟨_, hsent, ((pathsEmpty_callers_iff (plainHost .little) joinsNet 0).1 _
    hsent).mpr (.inr (by decide))⟩

theorem exec_pathsEmpty :
    ∃ wire, setnsBootstrap (plainHost .little) {} 42 = .ok wire ∧
      PathsEmpty .little wire := by
  have hsent : setnsBootstrap (plainHost .little) {} 42 = .ok _ := rfl
  exact ⟨_, hsent, (setnsBootstrap_pathsEmpty_iff hsent).mpr (by decide)⟩

end Runc.Bootstrap
