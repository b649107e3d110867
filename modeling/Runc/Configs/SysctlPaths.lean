import Runc.Configs.Sysctl

/-!
# Sysctls: which files are opened
-/

namespace Runc.Configs

open Lib
open Bootstrap (NamespaceType)

def components (path : Text) : List Text :=
  tokens '/' path

def names (path : Text) : List Text :=
  (components path).filter (· ≠ ['.'])

theorem components_sys (rest : Text) :
    components ("sys/".toList ++ rest) = "sys".toList :: components rest := by
  have hsys : "sys/".toList = "sys".toList ++ ['/'] := by decide
  have hfree : '/' ∉ "sys".toList := by decide
  have hne : "sys".toList ≠ [] := by decide
  rw [components, hsys, List.append_assoc, List.singleton_append, tokens_append_sep,
    tokens_of_not_mem hfree hne]
  rfl

theorem names_sys (rest : Text) :
    names ("sys/".toList ++ rest) = "sys".toList :: names rest := by
  have hsys : "sys".toList ≠ ['.'] := by decide
  rw [names, components_sys]
  exact List.filter_cons_of_pos (decide_eq_true hsys)

theorem not_mem_map_merge (t : Text) : '.' ∉ t.map (merge '.' '/') := by
  intro h
  obtain ⟨c, -, hc⟩ := List.mem_map.mp h
  unfold merge at hc
  split at hc
  · cases hc
  · rename_i hne
    exact hne hc

theorem dot_not_mem_components {t name : Text} (h : name ∈ components (t.map (merge '.' '/'))) :
    '.' ∉ name :=
  fun hdot => not_mem_map_merge t ((mem_tokens h).2.2 _ hdot)

theorem names_map_merge (t : Text) :
    names (t.map (merge '.' '/')) = components (t.map (merge '.' '/')) := by
  refine List.filter_eq_self.mpr fun name hname => decide_eq_true ?_
  rintro rfl
  exact dot_not_mem_components hname List.mem_cons_self

theorem names_map_merge_iff (t : Text) :
    names (t.map (merge '.' '/')) = names t ↔ ∀ name ∈ names t, '.' ∉ name := by
  constructor
  · intro heq name hname
    rw [← heq, names_map_merge] at hname
    exact dot_not_mem_components hname
  · intro hfree
    rw [names_map_merge, components, tokens_map_merge, names, components]
    have hpart : ∀ part ∈ tokens '/' t,
        tokens '.' part = if part = ['.'] then [] else [part] := by
      intro part hpart
      split
      · rename_i hdot
        rw [hdot]
        rfl
      · rename_i hdot
        refine tokens_of_not_mem (hfree part ?_) (mem_tokens hpart).2.1
        exact List.mem_filter.mpr ⟨hpart, decide_eq_true hdot⟩
    generalize tokens '/' t = parts at hpart
    induction parts with
    | nil => rfl
    | cons part parts ih =>
      rw [List.flatMap_cons, hpart part List.mem_cons_self,
        ih fun p hp => hpart p (List.mem_cons_of_mem _ hp)]
      split
      · rename_i hdot
        simp [hdot]
      · rename_i hdot
        simp [hdot]

theorem merge_swapSep (c : Char) : merge '.' '/' (swapSep c) = merge '.' '/' c := by
  unfold merge swapSep
  split_ifs <;> simp_all

theorem map_swapSep_merge (t : Text) :
    (t.map swapSep).map (merge '.' '/') = t.map (merge '.' '/') := by
  rw [List.map_map]
  exact List.map_congr_left fun c _ => merge_swapSep c

theorem convert_initial {w key : Text} (hw : ∀ c ∈ w, c.toNat < 0x80)
    (h : w <+: convertSysctlVariableToDotsSeparator key) :
    ∃ rest, key.map (merge '.' '/') = w.map (merge '.' '/') ++ rest := by
  unfold convertSysctlVariableToDotsSeparator at h
  split at h
  · obtain ⟨v, rest, rfl, rfl, -⟩ := mapAscii_initial hw h
    exact ⟨rest.map (merge '.' '/'), by rw [List.map_append, map_swapSep_merge]⟩
  · obtain ⟨rest, rfl⟩ := h
    exact ⟨rest.map (merge '.' '/'), List.map_append⟩

theorem convert_eq {w key : Text} (hw : ∀ c ∈ w, c.toNat < 0x80)
    (h : convertSysctlVariableToDotsSeparator key = w) :
    key.map (merge '.' '/') = w.map (merge '.' '/') := by
  unfold convertSysctlVariableToDotsSeparator at h
  split at h
  · have hinitial : w <+: mapAscii swapSep key := h ▸ List.prefix_rfl
    obtain ⟨v, rest, rfl, rfl, heq⟩ := mapAscii_initial hw hinitial
    rw [h] at heq
    have hrest := mapAscii_eq_nil (List.append_cancel_left_eq _ _ _ |>.mp
      ((List.append_nil _).trans heq)).symm
    rw [hrest, List.append_nil, map_swapSep_merge]
  · rw [h]

def ipcFiles : List (List Text) :=
  ["msgmax", "msgmnb", "msgmni", "sem", "shmall", "shmmax", "shmmni",
    "shm_rmid_forced"].map fun file => ["sys", "kernel", file].map String.toList

section Confined

variable (isHostNetNS : Text → Except String Bool) (config : SysctlConfig)

def Authorised (path : Text) : Prop :=
  (config.namespaces.contains .newIpc = true ∧
      (components path ∈ ipcFiles ∨
        ["sys", "fs", "mqueue"].map String.toList <+: components path)) ∨
    ((config.namespaces.contains .newNet = true ∧
        (config.namespaces.pathOf .newNet = [] ∨
          isHostNetNS (config.namespaces.pathOf .newNet) = .ok false)) ∧
      ["sys", "net"].map String.toList <+: components path) ∨
    (config.namespaces.contains .newUts = true ∧
      components path = ["sys", "kernel", "domainname"].map String.toList) ∨
    (config.namespaces.contains .newUser = true ∧
      ["sys", "user"].map String.toList <+: components path)

variable {isHostNetNS config}

theorem hostNet_eq_false (h : hostNet isHostNetNS config = .ok false) :
    config.namespaces.contains .newNet = true ∧
      (config.namespaces.pathOf .newNet = [] ∨
        isHostNetNS (config.namespaces.pathOf .newNet) = .ok false) := by
  unfold hostNet at h
  split at h
  · rename_i hns
    split at h
    · rename_i hpath
      exact ⟨hns, Or.inl hpath⟩
    · exact ⟨hns, Or.inr h⟩
  · cases h

theorem components_of_eq {w key : Text} (hw : ∀ c ∈ w, c.toNat < 0x80) (hfree : '/' ∉ w)
    (h : convertSysctlVariableToDotsSeparator key = w) :
    components (sysctlPath key) = "sys".toList :: tokens '.' w := by
  rw [sysctlPath, components_sys, convert_eq hw h, components, tokens_map_merge_of_not_mem hfree]

theorem components_of_initial {w key : Text} (hw : ∀ c ∈ w, c.toNat < 0x80) (hfree : '/' ∉ w)
    (h : w ++ ['.'] <+: convertSysctlVariableToDotsSeparator key) :
    "sys".toList :: tokens '.' w <+: components (sysctlPath key) := by
  have hascii : ∀ c ∈ w ++ ['.'], c.toNat < 0x80 := by
    intro c hc
    rcases List.mem_append.mp hc with hc | hc
    · exact hw c hc
    · rw [List.mem_singleton.mp hc]
      decide
  obtain ⟨rest, hkey⟩ := convert_initial hascii h
  have hsep : (w ++ ['.']).map (merge '.' '/') = w.map (merge '.' '/') ++ ['/'] := by
    rw [List.map_append]
    rfl
  rw [sysctlPath, components_sys, hkey, hsep, List.append_assoc,
    List.singleton_append, components, tokens_append_sep,
    tokens_map_merge_of_not_mem hfree]
  exact List.cons_prefix_cons.mpr ⟨rfl, List.prefix_append _ _⟩

theorem validSysctl_file :
    ∀ w ∈ validSysctl, (∀ c ∈ w, c.toNat < 0x80) ∧ '/' ∉ w ∧
      "sys".toList :: tokens '.' w ∈ ipcFiles := by
  have hall : ∀ w ∈ validSysctl, w.all (fun c => decide (c.toNat < 0x80)) = true ∧
      '/' ∉ w ∧ "sys".toList :: tokens '.' w ∈ ipcFiles := by
    decide +kernel
  exact fun w hw => ⟨forall_mem_of_all (hall w hw).1, (hall w hw).2⟩

theorem components_of_directory {w key : Text} {directory : List Text}
    (hw : w.all (fun c => decide (c.toNat < 0x80)) = true) (hfree : '/' ∉ w)
    (hdir : "sys".toList :: tokens '.' w = directory)
    (h : w ++ ['.'] <+: convertSysctlVariableToDotsSeparator key) :
    directory <+: components (sysctlPath key) :=
  hdir ▸ components_of_initial (forall_mem_of_all hw) hfree h

theorem authorised_of_allowed {key : Text}
    (h : Allowed isHostNetNS config (convertSysctlVariableToDotsSeparator key)) :
    Authorised isHostNetNS config (sysctlPath key) := by
  rcases h with ⟨hkey | hkey, hns⟩ | ⟨hkey, hns⟩ | ⟨hkey, hns⟩ | ⟨hkey, hns⟩
  · obtain ⟨hw, hfree, hfile⟩ := validSysctl_file _ hkey
    refine Or.inl ⟨hns, Or.inl ?_⟩
    rwa [components_of_eq hw hfree rfl]
  · refine Or.inl ⟨hns, Or.inr ?_⟩
    have hsplit : "fs.mqueue.".toList = "fs.mqueue".toList ++ ['.'] := by decide
    exact components_of_directory (by decide) (by decide) (by decide) (hsplit ▸ hkey)
  · refine Or.inr (Or.inl ⟨hostNet_eq_false hns, ?_⟩)
    have hsplit : "net.".toList = "net".toList ++ ['.'] := by decide
    exact components_of_directory (by decide) (by decide) (by decide) (hsplit ▸ hkey)
  · refine Or.inr (Or.inr (Or.inl ⟨hns, ?_⟩))
    have hascii : "kernel.domainname".toList.all (fun c => decide (c.toNat < 0x80)) = true := by
      decide
    rw [components_of_eq (forall_mem_of_all hascii) (by decide) hkey]
    decide
  · refine Or.inr (Or.inr (Or.inr ⟨hns, ?_⟩))
    have hsplit : "user.".toList = "user".toList ++ ['.'] := by decide
    exact components_of_directory (by decide) (by decide) (by decide) (hsplit ▸ hkey)

/-- Confinement. -/
theorem sysctl_confined (isHostNetNS : Text → Except String Bool) (config : SysctlConfig)
    (keys : List Text) (hkeys : keys.Perm (config.sysctl.map Prod.fst))
    (hvalid : sysctl isHostNetNS config keys = .ok ()) (unicode : Unicode) (proc : ProcSys)
    (entries : List (Text × Text)) (hentries : entries.Perm config.sysctl) :
    ∀ path ∈ (writeSysctls unicode proc entries).opened,
      ['.', '.'] ∉ components path ∧ Authorised isHostNetNS config path := by
  intro path hpath
  obtain ⟨entry, hentry, rfl⟩ := mem_writeSysctls hpath
  have hkey : entry.1 ∈ keys := hkeys.mem_iff.mpr (List.mem_map_of_mem (hentries.mem_iff.mp hentry))
  refine ⟨fun hdots => ?_, authorised_of_allowed (sysctl_allowed hvalid _ hkey)⟩
  rw [sysctlPath, components_sys] at hdots
  rcases List.mem_cons.mp hdots with hdots | hdots
  · exact absurd hdots (by decide)
  · exact dot_not_mem_components hdots List.mem_cons_self

end Confined

def ownNetwork (key : Text) : SysctlConfig where
  sysctl := [(key, ['1'])]
  namespaces := [{ type := .newNet }]

def tangledKey : Text :=
  "net/..//./ipv4.../x".toList

theorem sysctl_confined_tangled :
    sysctl (fun _ => .ok true) (ownNetwork tangledKey) [tangledKey] = .ok () ∧
      sysctlPath tangledKey ∈ (writeSysctls Unicode.ascii {}
        (ownNetwork tangledKey).sysctl).opened ∧
      ['.', '.'] ∉ components (sysctlPath tangledKey) ∧
      Authorised (fun _ => .ok true) (ownNetwork tangledKey) (sysctlPath tangledKey) := by
  have hvalid : sysctl (fun _ => .ok true) (ownNetwork tangledKey) [tangledKey] = .ok () := by
    rfl
  have hopened : sysctlPath tangledKey ∈ (writeSysctls Unicode.ascii {}
      (ownNetwork tangledKey).sysctl).opened := List.mem_cons_self
  exact ⟨hvalid, hopened, sysctl_confined _ (ownNetwork tangledKey) [tangledKey] (.refl _)
    hvalid Unicode.ascii {} _ (.refl _) _ hopened⟩

def denotedPath (s : Text) : Text :=
  "sys/".toList ++ s.map swapSep

def keyPath (key : Text) : Text :=
  if slashForm key then key else key.map swapSep

theorem swapSep_swapSep (c : Char) : swapSep (swapSep c) = c := by
  unfold swapSep
  split_ifs <;> simp_all

theorem map_swapSep_swapSep (t : Text) : (t.map swapSep).map swapSep = t := by
  rw [List.map_map]
  exact (List.map_congr_left fun c _ => swapSep_swapSep c).trans (List.map_id t)

theorem isSep_swapSep (c : Char) : isSep (swapSep c) = isSep c := by
  unfold isSep swapSep
  split_ifs <;> simp_all

theorem isSep_merge (c : Char) : isSep (merge '.' '/' c) = isSep c := by
  unfold isSep merge
  split_ifs <;> simp_all

theorem mapAscii_swapSep {t : Text} (h : ValidUtf8 t) : mapAscii swapSep t = t.map swapSep := by
  rw [mapAscii_of_valid h]
  refine List.map_congr_left fun c _ => ?_
  split
  · rfl
  · rename_i hc
    unfold swapSep
    split_ifs with hdot hslash
    · exact absurd (hdot ▸ hc) (by decide)
    · exact absurd (hslash ▸ hc) (by decide)
    · rfl

theorem countP_names (t : Text) : (names t).flatten.countP (!isSep ·) = t.countP (!isSep ·) := by
  have hparts : ∀ parts : List Text, (parts.filter (· ≠ ['.'])).flatten.countP (!isSep ·) =
        parts.flatten.countP (!isSep ·) := by
    intro parts
    induction parts with
    | nil => rfl
    | cons part parts ih =>
      by_cases hdot : part = ['.']
      · rw [List.filter_cons_of_neg (by simp [hdot]), ih, hdot]
        rfl
      · rw [List.filter_cons_of_pos (by simp [hdot]), List.flatten_cons,
          List.flatten_cons, List.countP_append, List.countP_append, ih]
  rw [names, hparts, components, flatten_tokens, List.countP_filter]
  refine List.countP_congr fun c _ => ?_
  by_cases hc : c = '/' <;> simp [hc, isSep]

theorem valid_of_names {key : Text}
    (h : names (key.map (merge '.' '/')) = names ((mapAscii swapSep key).map swapSep)) :
    ValidUtf8 key := by
  have hcount := congrArg (fun l => l.flatten.countP (!isSep ·)) h
  simp only [countP_names, List.countP_map] at hcount
  have hmerge : (fun c => !isSep c) ∘ merge '.' '/' = (!isSep ·) :=
    funext fun c => by rw [Function.comp_apply, isSep_merge]
  have hswap : (fun c => !isSep c) ∘ swapSep = (!isSep ·) :=
    funext fun c => by rw [Function.comp_apply, isSep_swapSep]
  rw [hmerge, hswap, countP_mapAscii (fun c _ => by rw [isSep_swapSep])] at hcount
  · have hnone : (runes key).countP invalidRune = 0 := by omega
    intro x hx
    simpa using List.countP_eq_zero.mp hnone x hx
  · intro c hc
    simp only [isSep, Bool.not_eq_true', Bool.or_eq_false_iff, decide_eq_false_iff_not]
    refine ⟨?_, ?_⟩ <;> rintro rfl <;> exact hc (by decide)

/-- The file that is opened. -/
theorem sysctl_same_file_iff (key : Text) :
    names (sysctlPath key) =
        names (denotedPath (convertSysctlVariableToDotsSeparator key)) ↔
      (slashForm key = true → ValidUtf8 key) ∧
        ∀ name ∈ names (keyPath key), '.' ∉ name := by
  rw [sysctlPath, denotedPath, names_sys, names_sys, List.cons_inj_right, keyPath,
    convertSysctlVariableToDotsSeparator]
  cases hform : slashForm key with
  | false =>
    simp only [Bool.false_eq_true, if_false, false_implies, true_and]
    rw [← names_map_merge_iff, map_swapSep_merge]
  | true =>
    simp only [if_true, true_implies]
    constructor
    · intro h
      have hvalid := valid_of_names h
      rw [mapAscii_swapSep hvalid, map_swapSep_swapSep] at h
      exact ⟨hvalid, (names_map_merge_iff key).mp h⟩
    · rintro ⟨hvalid, hfree⟩
      rw [mapAscii_swapSep hvalid, map_swapSep_swapSep]
      exact (names_map_merge_iff key).mpr hfree

def vlanKey : Text :=
  "net.ipv4.conf.eno2/100.rp_filter".toList

theorem vlan_key_misread :
    sysctl (fun _ => .ok true) (ownNetwork vlanKey) [vlanKey] = .ok () ∧
      denotedPath (convertSysctlVariableToDotsSeparator vlanKey) =
        "sys/net/ipv4/conf/eno2.100/rp_filter".toList ∧
      sysctlPath vlanKey = "sys/net/ipv4/conf/eno2/100/rp_filter".toList ∧
      names (sysctlPath vlanKey) ≠
        names (denotedPath (convertSysctlVariableToDotsSeparator vlanKey)) := by
  refine ⟨rfl, by decide, by decide, by decide⟩

end Runc.Configs
