import Runc.Lib.Indexing
import Runc.Specconv.Rootless
import Runc.Update.Sequences

/-!
# Ids and weights from the command line

`--user` and `--additional-gids` of `runc exec` and `--blkio-weight` of `runc update` are read
as integers and then converted to smaller ones.
-/

namespace Runc.Exec

open Lib
open Specconv (atoi)

structure User where
  uid : Nat
  gid : Nat
  additionalGids : List Nat

def uint32 (n : Int) : Nat :=
  (n % 4294967296).toNat

def int (maxInt : Int) (n : Nat) : Int :=
  (n : Int).bmod (2 * (maxInt + 1)).toNat

inductive IdError
  /-- `bad gid: %w`. -/
  | badGid
  /-- `bad uid: %w`. -/
  | badUid
  /-- `additional-gids must be a positive number %d`. -/
  | negative (gid : Int)
deriving DecidableEq

section GetProcess

variable (maxInt : Int)

def setGid (gids : Text) (u : User) : Except IdError User :=
  match atoi maxInt gids with
  | none => .error .badGid
  | some gid => .ok { u with gid := uint32 gid }

def setUid (uids : Text) (u : User) : Except IdError User :=
  match atoi maxInt uids with
  | none => .error .badUid
  | some uid => .ok { u with uid := uint32 uid }

def setUser (user : Text) (u : User) : Except IdError User :=
  if user = [] then .ok u
  else
    match cut ':' user with
    | none => setUid maxInt user u
    | some (uids, gids) => (setGid maxInt gids u).bind (setUid maxInt uids)

end GetProcess

def addGids : List Int → User → Except IdError User
  | [], u => .ok u
  | gid :: rest, u =>
      if gid < 0 then .error (.negative gid)
      else addGids rest { u with additionalGids := u.additionalGids ++ [uint32 gid] }

structure ProcessIDs where
  uid : Int
  gid : Int
  additionalGroups : List Int

def newProcess (maxInt : Int) (u : User) : ProcessIDs :=
  ⟨int maxInt u.uid, int maxInt u.gid, u.additionalGids.map (int maxInt)⟩

def textIDs (maxInt : Int) (user : Text) : Option (Int × Option Int) :=
  match cut ':' user with
  | none => (atoi maxInt user).map (·, none)
  | some (uids, gids) =>
      (atoi maxInt uids).bind fun uid => (atoi maxInt gids).map fun gid => (uid, some gid)

def Fits (maxInt n : Int) : Prop :=
  0 ≤ n ∧ n < 4294967296 ∧ n ≤ maxInt

/-- The largest `int` of the builds. -/
def Native (maxInt : Int) : Prop :=
  maxInt = 0x7fffffff ∨ maxInt = 0x7fffffffffffffff

variable {maxInt : Int}

theorem stored_eq_iff (hmax : Native maxInt) (n : Int) :
    (uint32 n : Int) = n ∧ int maxInt (uint32 n) = n ↔ Fits maxInt n := by
  rw [int, uint32, Fits, Int.bmod_def]
  rcases hmax with rfl | rfl
  · simp only [Int.reduceAdd, Int.reduceMul, Int.reduceToNat]
    omega
  · simp only [Int.reduceAdd, Int.reduceMul, Int.reduceToNat]
    omega

theorem setUid_eq_ok {uids : Text} {u u' : User} (h : setUid maxInt uids u = .ok u') :
    ∃ uid, atoi maxInt uids = some uid ∧ u' = { u with uid := uint32 uid } := by
  unfold setUid at h
  split at h
  · cases h
  · rename_i uid huid
    cases h
    exact ⟨uid, huid, rfl⟩

theorem setGid_eq_ok {gids : Text} {u u' : User} (h : setGid maxInt gids u = .ok u') :
    ∃ gid, atoi maxInt gids = some gid ∧ u' = { u with gid := uint32 gid } := by
  unfold setGid at h
  split at h
  · cases h
  · rename_i gid hgid
    cases h
    exact ⟨gid, hgid, rfl⟩

theorem setUser_eq_ok {user : Text} {u u' : User} (hne : user ≠ [])
    (h : setUser maxInt user u = .ok u') :
    ∃ uid gid, textIDs maxInt user = some (uid, gid) ∧
      u' = { u with uid := uint32 uid, gid := (gid.map uint32).getD u.gid } := by
  rw [setUser, if_neg hne] at h
  rw [textIDs]
  cases hcut : cut ':' user with
  | none =>
    rw [hcut] at h
    obtain ⟨uid, huid, rfl⟩ := setUid_eq_ok h
    exact ⟨uid, none, by simp [huid], rfl⟩
  | some parts =>
    rw [hcut] at h
    obtain ⟨u₁, hgids, huids⟩ := bind_eq_ok h
    obtain ⟨gid, hgid, rfl⟩ := setGid_eq_ok hgids
    obtain ⟨uid, huid, rfl⟩ := setUid_eq_ok huids
    exact ⟨uid, some gid, by simp [huid, hgid], rfl⟩

theorem addGids_eq_ok {gids : List Int} {u u' : User} (h : addGids gids u = .ok u') :
    u' = { u with additionalGids := u.additionalGids ++ gids.map uint32 } := by
  induction gids generalizing u with
  | nil =>
    cases h
    rw [List.map_nil, List.append_nil]
  | cons gid rest ih =>
    rw [addGids] at h
    split at h
    · cases h
    · rw [ih h, List.map_cons, List.append_assoc]
      rfl

theorem map_stored_eq_iff (hmax : Native maxInt) (gids : List Int) :
    (gids.map uint32).map Int.ofNat = gids ∧ (gids.map uint32).map (int maxInt) = gids ↔
      ∀ gid ∈ gids, Fits maxInt gid := by
  induction gids with
  | nil => simp
  | cons gid rest ih =>
    simp only [List.map_cons, List.cons.injEq, List.forall_mem_cons, ← ih,
      ← stored_eq_iff hmax gid]
    exact and_and_and_comm

/-- What is stored. -/
theorem stored_iff_fits (maxInt : Int) (hmax : Native maxInt) :
    (∀ user u u', user ≠ [] → setUser maxInt user u = .ok u' →
      ∃ uid gid, textIDs maxInt user = some (uid, gid) ∧
        (u'.uid = uid ∧ (newProcess maxInt u').uid = uid ↔ Fits maxInt uid) ∧
        ∀ g, gid = some g → (u'.gid = g ∧ (newProcess maxInt u').gid = g ↔ Fits maxInt g)) ∧
    (∀ gids u u', addGids gids u = .ok u' →
      (u'.additionalGids.map Int.ofNat = u.additionalGids.map Int.ofNat ++ gids ∧
          (newProcess maxInt u').additionalGroups =
            (newProcess maxInt u).additionalGroups ++ gids ↔
        ∀ gid ∈ gids, Fits maxInt gid)) ∧
    ∀ (host : Update.Host) (f : Update.Flags) (r : Update.LinuxResources),
      f.resources host = .ok r → ∃ t, r.sections = some t ∧
        ∀ w, t.blockIO.weight = some w →
          ((w : Int) = f.blkioWeight ↔ 0 ≤ f.blkioWeight ∧ f.blkioWeight < 65536) := by
  refine ⟨fun user u u' hne h => ?_, fun gids u u' h => ?_, fun host f r h => ?_⟩
  · obtain ⟨uid, gid, hids, rfl⟩ := setUser_eq_ok hne h
    refine ⟨uid, gid, hids, stored_eq_iff hmax uid, fun g hg => ?_⟩
    rw [hg]
    exact stored_eq_iff hmax g
  · rw [addGids_eq_ok h, newProcess, newProcess, List.map_append, List.map_append,
      List.append_right_inj, List.append_right_inj, map_stored_eq_iff hmax]
  · obtain ⟨t, ht, hreads⟩ := Update.flags_reads h
    refine ⟨t, ht, fun w hw => ?_⟩
    have hweight := hreads.weight
    rw [hw, Option.map_some] at hweight
    obtain ⟨n, hn, hstored⟩ := Option.map_eq_some_iff.mp hweight.symm
    have hn : (if f.blkioWeight = 0 then none else some f.blkioWeight) = some n := hn
    split at hn
    · cases hn
    · cases hn
      rw [← hstored]
      exact Update.uint16_eq_iff f.blkioWeight

def rootUser : User := ⟨0, 0, []⟩

theorem stored_user_1000 : (newProcess 0x7fffffffffffffff ⟨1000, 0, []⟩).uid = 1000 := by
  obtain ⟨uid, gid, hids, huid, -⟩ := (stored_iff_fits 0x7fffffffffffffff (.inr rfl)).1
    "1000".toList rootUser ⟨1000, 0, []⟩ (by decide) (by rfl)
  have hsame : (uid, gid) = (1000, none) := Option.some.inj (hids.symm.trans (by rfl))
  cases hsame
  exact (huid.mpr ⟨by decide, by decide, by decide⟩).2

theorem stored_user_wraps :
    textIDs 0x7fffffffffffffff "4294967296".toList = some (4294967296, none) ∧
      setUser 0x7fffffffffffffff "4294967296".toList ⟨1000, 1000, []⟩ =
        .ok ⟨0, 1000, []⟩ ∧
      addGids [4294967296] rootUser = .ok ⟨0, 0, [0]⟩ ∧ Update.uint16 66036 = 500 :=
  ⟨rfl, rfl, rfl, rfl⟩

end Runc.Exec
