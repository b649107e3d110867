import Mathlib.Data.List.Perm.Basic
import Runc.Bootstrap.Message
import Runc.Lib.Indexing
import Runc.Lib.JsonDecode

/-!
# Handles of user namespaces

`Handles` keeps a file for each mapping that was asked for, under a key that the order of the
mappings does not matter to.
-/

namespace Runc.Userns

open Lib
open Bootstrap (IDMap)

structure Mapping where
  uidMappings : List IDMap
  gidMappings : List IDMap
deriving DecidableEq

/-- `%d:%d:%d`. -/
def rangeText (m : IDMap) : Text :=
  [':'].intercalate [intLiteral m.containerID, intLiteral m.hostID, intLiteral m.size]

def joinedRanges (maps : List IDMap) : Text :=
  [','].intercalate (sortStrings (maps.map rangeText))

def Mapping.id (m : Mapping) : Text :=
  "uid=".toList ++ joinedRanges m.uidMappings ++
    (";gid=".toList ++ joinedRanges m.gidMappings)

structure Namespace where
  serial : Nat
  mapping : Mapping

structure Handles where
  maps : List (Text × Namespace) := []
  spawned : Nat := 0

/-- What the operations of a `Get` come to. -/
structure GetEnv where
  spawnProc : Except Text Unit
  openFile : Except Text Unit
  dupFile : Except Text Unit

def get (hs : Handles) (req : Mapping) (env : GetEnv) : Except Text Namespace × Handles :=
  match hs.maps.lookup req.id with
  | some file => (env.dupFile.map fun _ => file, hs)
  | none =>
      match env.spawnProc with
      | .error err =>
          (.error ("failed to spawn dummy process for map ".toList ++ req.id ++ ": ".toList ++ err),
            hs)
      | .ok () =>
          let hs := { hs with spawned := hs.spawned + 1 }
          match env.openFile with
          | .error err => (.error err, hs)
          | .ok () =>
              let file := ⟨hs.spawned, req⟩
              (env.dupFile.map fun _ => file, { hs with maps := (req.id, file) :: hs.maps })

def release (hs : Handles) : Handles :=
  { hs with maps := [] }

inductive Call
  | get (req : Mapping) (env : GetEnv)
  | release

def results : Handles → List Call → List (Mapping × Except Text Namespace)
  | _, [] => []
  | hs, .get req env :: calls => (req, (get hs req env).1) :: results (get hs req env).2 calls
  | hs, .release :: calls => results (release hs) calls

def Mapping.Same (m m' : Mapping) : Prop :=
  m.uidMappings.Perm m'.uidMappings ∧ m.gidMappings.Perm m'.gidMappings

theorem mem_rangeText {m : IDMap} {c : Char} (h : c ∈ rangeText m) :
    c = ':' ∨ c = '-' ∨ isDigit c = true := by
  rcases mem_intercalate h with rfl | ⟨part, hpart, hc⟩
  · exact .inl rfl
  · simp only [List.mem_cons, List.not_mem_nil, or_false] at hpart
    rcases hpart with rfl | rfl | rfl <;> exact .inr (mem_intLiteral hc)

theorem rangeText_injective : Function.Injective rangeText := by
  intro m m' h
  have hparts : ∀ m : IDMap, tokens ':' (rangeText m) =
      [intLiteral m.containerID, intLiteral m.hostID, intLiteral m.size] := by
    have hfree : ∀ n, ':' ∉ intLiteral n := by
      intro n hmem
      rcases mem_intLiteral hmem with hc | hc <;> cases hc
    exact fun m => tokens_intercalate (by simp [intLiteral_ne_nil]) (by simp [hfree])
  have heq := congrArg (tokens ':') h
  rw [hparts, hparts] at heq
  obtain ⟨h₁, heq⟩ := List.cons.inj heq
  obtain ⟨h₂, heq⟩ := List.cons.inj heq
  obtain ⟨h₃, -⟩ := List.cons.inj heq
  cases m
  cases m'
  rw [IDMap.mk.injEq]
  exact ⟨intLiteral_inj h₁, intLiteral_inj h₂, intLiteral_inj h₃⟩

theorem joinedRanges_eq_iff {maps maps' : List IDMap} :
    joinedRanges maps = joinedRanges maps' ↔ maps.Perm maps' := by
  have hparts : ∀ maps, tokens ',' (joinedRanges maps) = sortStrings (maps.map rangeText) := by
    intro maps
    refine tokens_intercalate (fun part hpart => ?_) fun part hpart => ?_
    · obtain ⟨m, -, rfl⟩ := List.mem_map.mp (mem_sortStrings.mp hpart)
      simp [rangeText, List.intercalate, intLiteral_ne_nil]
    · obtain ⟨m, -, rfl⟩ := List.mem_map.mp (mem_sortStrings.mp hpart)
      intro hmem
      rcases mem_rangeText hmem with hc | hc | hc <;> cases hc
  rw [← List.map_perm_map_iff rangeText_injective, ← sortStrings_eq_iff]
  refine ⟨fun h => ?_, congrArg _⟩
  rw [← hparts, h, hparts]

theorem cut_id (m : Mapping) :
    cut ';' m.id = some ("uid=".toList ++ joinedRanges m.uidMappings,
      "gid=".toList ++ joinedRanges m.gidMappings) := by
  refine cut_eq_some_iff.mpr ⟨rfl, fun hmem => ?_⟩
  rcases List.mem_append.mp hmem with hc | hc
  · exact absurd hc (by decide)
  · rcases mem_intercalate hc with hc | ⟨part, hpart, hc⟩
    · cases hc
    · obtain ⟨m, -, rfl⟩ := List.mem_map.mp (mem_sortStrings.mp hpart)
      rcases mem_rangeText hc with hc | hc | hc <;> cases hc

theorem id_eq_iff {m m' : Mapping} : m.id = m'.id ↔ m.Same m' := by
  rw [Mapping.Same, ← joinedRanges_eq_iff, ← joinedRanges_eq_iff]
  constructor
  · intro h
    have hcut := congrArg (cut ';') h
    rw [cut_id, cut_id, Option.some.injEq, Prod.mk.injEq] at hcut
    exact ⟨List.append_cancel_left hcut.1, List.append_cancel_left hcut.2⟩
  · rintro ⟨huid, hgid⟩
    rw [Mapping.id, Mapping.id, huid, hgid]

def Handles.Inv (hs : Handles) : Prop :=
  ∀ key file, hs.maps.lookup key = some file → file.mapping.id = key

theorem inv_nil (spawned : Nat) : Handles.Inv ⟨[], spawned⟩ := by
  intro key file h
  cases h

theorem map_eq_ok {x : Except Text Unit} {file file' : Namespace}
    (h : (x.map fun _ => file) = .ok file') : file' = file := by
  cases x <;> cases h
  rfl

theorem get_inv {hs : Handles} (h : hs.Inv) (req : Mapping) (env : GetEnv) :
    (get hs req env).2.Inv ∧
      ∀ file, (get hs req env).1 = .ok file → file.mapping.id = req.id := by
  unfold get
  cases hlookup : hs.maps.lookup req.id with
  | some file =>
    refine ⟨h, fun file' hfile => ?_⟩
    rw [map_eq_ok hfile]
    exact h _ _ hlookup
  | none =>
    cases env.spawnProc with
    | error err => exact ⟨h, nofun⟩
    | ok _ =>
      cases env.openFile with
      | error err => exact ⟨h, nofun⟩
      | ok _ =>
        refine ⟨fun key file hfile => ?_, fun file hfile => ?_⟩
        · rw [List.lookup_cons] at hfile
          split at hfile
          · rename_i hkey
            cases hfile
            exact (eq_of_beq hkey).symm
          · exact h key file hfile
        · rw [map_eq_ok hfile]

theorem results_inv {hs : Handles} (h : hs.Inv) (calls : List Call) :
    ∀ req file, (req, .ok file) ∈ results hs calls → file.mapping.id = req.id := by
  induction calls generalizing hs with
  | nil => exact fun _ _ hmem => absurd hmem List.not_mem_nil
  | cons call calls ih =>
    cases call with
    | release => exact ih (inv_nil _)
    | get req env =>
      obtain ⟨hinv, hfile⟩ := get_inv h req env
      intro req' file hmem
      rcases List.mem_cons.mp hmem with heq | hrest
      · obtain ⟨rfl, hok⟩ := Prod.mk.inj heq
        exact hfile file hok.symm
      · exact ih hinv req' file hrest

/-- The key and the cache. -/
theorem handles_same :
    (∀ m m' : Mapping, m.id = m'.id ↔ m.Same m') ∧
    ∀ calls req file, (req, .ok file) ∈ results {} calls → file.mapping.Same req :=
  ⟨fun _ _ => id_eq_iff, fun calls req file hmem =>
    id_eq_iff.mp (results_inv (inv_nil 0) calls req file hmem)⟩

end Runc.Userns
