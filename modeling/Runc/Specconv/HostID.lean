import Mathlib.Data.List.Pairwise
import Runc.Specconv.CreateConfig

/-!
# Ids on the host

The mappings of a spec have 32-bit fields; `hostIDFromMapping` computes with `int64`.
-/

namespace Runc.Specconv

open Lib Bootstrap

structure LinuxIDMapping where
  containerID : UInt32
  hostID : UInt32
  size : UInt32

def LinuxIDMapping.idMap (m : LinuxIDMapping) : IDMap :=
  ⟨m.containerID.toNat, m.hostID.toNat, m.size.toNat⟩

def toConfigIDMap (specMaps : Option (List LinuxIDMapping)) : Option (List IDMap) :=
  specMaps.map (List.map LinuxIDMapping.idMap)

def int64 (n : Int) : Int :=
  n.bmod (2 ^ 64)

/-- `hostIDFromMapping`, every sum and difference as an `int64`. -/
def hostIDFromMapping64 (containerID : Int) (maps : List IDMap) : Option Int :=
  (maps.find? fun m => m.containerID ≤ containerID ∧
      containerID ≤ int64 (int64 (m.containerID + m.size) - 1)).map
    fun m => int64 (m.hostID + int64 (containerID - m.containerID))

def Covers (m : IDMap) (id : Int) : Prop :=
  m.containerID ≤ id ∧ id < m.containerID + m.size

def HostCovers (m : IDMap) (id : Int) : Prop :=
  m.hostID ≤ id ∧ id < m.hostID + m.size

def Translates (maps : List IDMap) (id n : Int) : Prop :=
  ∃ before m after, maps = before ++ m :: after ∧ (∀ b ∈ before, ¬ Covers b id) ∧
    Covers m id ∧ n = m.hostID + (id - m.containerID)

theorem int64_of_small {n : Int} (hlow : -0x8000000000000000 ≤ n)
    (hhigh : n < 0x8000000000000000) : int64 n = n := by
  rw [int64]
  exact Int.bmod_eq_of_le (by omega) (by omega)

theorem hostIDFromMapping_eq_some_iff {maps : List IDMap} {id n : Int} :
    hostIDFromMapping id maps = some n ↔ Translates maps id n := by
  have hcovers : ∀ m : IDMap, (m.containerID ≤ id ∧ id ≤ m.containerID + m.size - 1) ↔
      Covers m id := by
    intro m
    rw [Covers]
    omega
  rw [hostIDFromMapping, Option.map_eq_some_iff]
  simp only [List.find?_eq_some_iff_append, decide_eq_true_eq, Bool.not_eq_true',
    decide_eq_false_iff_not, hcovers]
  constructor
  · rintro ⟨m, ⟨hm, before, after, rfl, hbefore⟩, rfl⟩
    exact ⟨before, m, after, rfl, hbefore, hm, rfl⟩
  · rintro ⟨before, m, after, rfl, hbefore, hm, rfl⟩
    exact ⟨m, ⟨hm, before, after, rfl, hbefore⟩, rfl⟩

theorem hostIDFromMapping64_eq (specMaps : List LinuxIDMapping) (id : UInt32) :
    hostIDFromMapping64 id.toNat (specMaps.map LinuxIDMapping.idMap) =
      hostIDFromMapping id.toNat (specMaps.map LinuxIDMapping.idMap) := by
  have hid := id.toNat_lt
  rw [hostIDFromMapping64, hostIDFromMapping, List.find?_map, List.find?_map]
  have hsame : ∀ m : LinuxIDMapping,
      int64 (int64 (m.idMap.containerID + m.idMap.size) - 1) =
          m.idMap.containerID + m.idMap.size - 1 ∧
        int64 (m.idMap.hostID + int64 (id.toNat - m.idMap.containerID)) =
          m.idMap.hostID + (id.toNat - m.idMap.containerID) := by
    intro m
    have hcontainer := m.containerID.toNat_lt
    have hhost := m.hostID.toNat_lt
    have hsize := m.size.toNat_lt
    simp only [LinuxIDMapping.idMap]
    constructor
    · rw [int64_of_small (n := _ + _) (by omega) (by omega), int64_of_small (by omega) (by omega)]
    · rw [int64_of_small (n := _ - _) (by omega) (by omega), int64_of_small (by omega) (by omega)]
  simp only [Function.comp_def, hsame, Option.map_map]

theorem Translates.hostCovers {maps : List IDMap} {id n : Int} (h : Translates maps id n) :
    ∃ m ∈ maps, HostCovers m n ∧ id = m.containerID + (n - m.hostID) := by
  obtain ⟨before, m, after, rfl, -, ⟨hlow, hhigh⟩, rfl⟩ := h
  exact ⟨m, List.mem_append_right _ List.mem_cons_self, ⟨by omega, by omega⟩, by omega⟩

theorem exists_translates {maps : List IDMap} {id : Int} (h : ∃ m ∈ maps, Covers m id) :
    ∃ n, Translates maps id n := by
  obtain ⟨m, hm, hcovers⟩ := h
  have hfound : hostIDFromMapping id maps ≠ none := by
    rw [hostIDFromMapping, Ne, Option.map_eq_none_iff, List.find?_eq_none]
    intro hnone
    have hno := hnone m hm
    rw [decide_eq_true_eq] at hno
    exact hno ⟨hcovers.1, by have := hcovers.2; omega⟩
  obtain ⟨n, hn⟩ := Option.ne_none_iff_exists'.mp hfound
  exact ⟨n, hostIDFromMapping_eq_some_iff.mp hn⟩

/-- Translating ids. -/
theorem hostID_translates (host : Host) (gid : Bool) (namespaces : Configs.Namespaces)
    (hns : namespaces.contains .newUser = true) (specMaps : List LinuxIDMapping) :
    (∀ id : UInt32, hostIDFromMapping64 id.toNat (specMaps.map LinuxIDMapping.idMap) =
      hostIDFromMapping id.toNat (specMaps.map LinuxIDMapping.idMap)) ∧
    (∀ (id : UInt32) (n : Int),
      hostID host gid namespaces (toConfigIDMap (some specMaps)) id.toNat = .ok n ↔
        Translates (specMaps.map LinuxIDMapping.idMap) id.toNat n ∧ n ≤ host.maxInt) ∧
    (∀ id : UInt32, (∃ n, Translates (specMaps.map LinuxIDMapping.idMap) id.toNat n) ↔
      ∃ m ∈ specMaps, Covers m.idMap id.toNat) ∧
    ((specMaps.map LinuxIDMapping.idMap).Pairwise
        (fun m m' => ∀ n, ¬ (HostCovers m n ∧ HostCovers m' n)) →
      ∀ (id id' : UInt32) (n : Int),
        hostID host gid namespaces (toConfigIDMap (some specMaps)) id.toNat = .ok n →
        hostID host gid namespaces (toConfigIDMap (some specMaps)) id'.toNat = .ok n →
          id = id') := by
  have hok : ∀ (id : UInt32) (n : Int),
      hostID host gid namespaces (toConfigIDMap (some specMaps)) id.toNat = .ok n ↔
        Translates (specMaps.map LinuxIDMapping.idMap) id.toNat n ∧ n ≤ host.maxInt := by
    intro id n
    rw [hostID, if_pos hns, toConfigIDMap, Option.map_some, Option.getD_some,
      ← hostIDFromMapping_eq_some_iff]
    generalize specMaps.map LinuxIDMapping.idMap = maps
    by_cases hnil : maps = []
    · rw [if_pos hnil, hnil]
      exact ⟨nofun, fun h => nomatch h.1⟩
    · rw [if_neg hnil]
      cases hostIDFromMapping id.toNat maps with
      | none => exact ⟨nofun, fun h => nomatch h.1⟩
      | some k =>
        dsimp only
        rw [Option.some.injEq]
        by_cases hbig : k > host.maxInt
        · rw [if_pos hbig]
          refine ⟨nofun, ?_⟩
          rintro ⟨rfl, hle⟩
          omega
        · rw [if_neg hbig, Except.ok.injEq]
          constructor
          · rintro rfl
            exact ⟨rfl, by omega⟩
          · exact And.left
  refine ⟨hostIDFromMapping64_eq specMaps, hok, ?_, ?_⟩
  · intro id
    constructor
    · rintro ⟨n, before, m, after, heq, -, hcovers, -⟩
      have hmem : m ∈ specMaps.map LinuxIDMapping.idMap :=
        heq ▸ List.mem_append_right _ List.mem_cons_self
      obtain ⟨s, hs, rfl⟩ := List.mem_map.mp hmem
      exact ⟨s, hs, hcovers⟩
    · rintro ⟨s, hs, hcovers⟩
      exact exists_translates ⟨s.idMap, List.mem_map_of_mem hs, hcovers⟩
  · intro hapart id id' n hid hid'
    obtain ⟨m, hm, hcovers, heq⟩ := ((hok id n).mp hid).1.hostCovers
    obtain ⟨m', hm', hcovers', heq'⟩ := ((hok id' n).mp hid').1.hostCovers
    have hsame : m = m' := by
      by_contra hne
      have hsymm : Std.Symm fun m m' => ∀ n, ¬ (HostCovers m n ∧ HostCovers m' n) :=
        ⟨fun _ _ h n hn => h n hn.symm⟩
      exact hapart.forall hm hm' hne n ⟨hcovers, hcovers'⟩
    subst hsame
    exact UInt32.toNat_inj.mp (by omega)

def intHost (maxInt : Int) : Host :=
  { getwd := .ok [], getUserNamespaceMappings := fun _ => .ok ([], []), maxInt }

def userNamespaces : Configs.Namespaces :=
  [{ type := .newUser, path := [] }]

theorem hostID_translates_tenant :
    hostID (intHost 9223372036854775807) false userNamespaces
      (toConfigIDMap (some [⟨0, 100000, 65536⟩])) (1 : UInt32).toNat = .ok 100001 :=
  ((hostID_translates _ false userNamespaces rfl [⟨0, 100000, 65536⟩]).2.1 1 100001).mpr
    ⟨⟨[], _, [], rfl, nofun, ⟨by decide, by decide⟩, rfl⟩, by decide⟩

theorem hostID_too_large :
    Covers (LinuxIDMapping.idMap ⟨0, 4294967295, 1⟩) (0 : UInt32).toNat ∧
      hostID (intHost 2147483647) false userNamespaces
          (toConfigIDMap (some [⟨0, 4294967295, 1⟩])) (0 : UInt32).toNat =
        .error (.tooLarge false 0 4294967295 2147483647) :=
  ⟨⟨by decide, by decide⟩, rfl⟩

end Runc.Specconv
