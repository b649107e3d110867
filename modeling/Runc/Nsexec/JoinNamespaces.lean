import Mathlib.Data.List.Nodup
import Runc.Lib.Flags
import Runc.Lib.Text

/-!
# Joining namespaces

`join_namespaces` tries to join all namespaces but the user namespace, then the user
namespace, and then again those that were refused for want of permission.  Which
namespaces a pass is for is a set of flags.

The answers of `setns` are a function of the number of the call; the calls are logged.
-/

namespace Runc.Nsexec

open Lib

inductive NsType
  | cgroup
  | ipc
  | mnt
  | net
  | pid
  | time
  | user
  | uts
deriving DecidableEq

namespace NsType

def bit : NsType → Nat
  | cgroup => 25
  | ipc => 27
  | mnt => 17
  | net => 30
  | pid => 29
  | time => 7
  | user => 28
  | uts => 26

/-- `nstype`. -/
def flag (t : NsType) : Flags :=
  Flags.bit t.bit

def name : NsType → Text
  | cgroup => "cgroup".toList
  | ipc => "ipc".toList
  | mnt => "mnt".toList
  | net => "net".toList
  | pid => "pid".toList
  | time => "time".toList
  | user => "user".toList
  | uts => "uts".toList

/-- `all_ns_types`. -/
def all : List NsType :=
  [cgroup, ipc, mnt, net, pid, time, user, uts]

theorem bit_injective {t u : NsType} (h : t.bit = u.bit) : t = u := by
  revert h
  cases t <;> cases u <;> decide

theorem getLsbD_flag (t u : NsType) : t.flag.getLsbD u.bit = decide (t = u) := by
  have hbound : t.bit < 64 := by
    cases t <;> decide
  rw [flag, Flags.getLsbD_bit hbound, decide_eq_decide]
  exact ⟨bit_injective, congrArg bit⟩

theorem flag_and_eq_zero (t : NsType) (s : Flags) : t.flag &&& s = 0 ↔ s.getLsbD t.bit = false := by
  rw [flag, BitVec.and_comm]
  exact Flags.lacks_bit_iff (by cases t <;> decide) s

end NsType

/-- `struct namespace_t`; a file descriptor of `-1` is none. -/
structure NsEntry where
  type : NsType
  fd : Option Nat
deriving DecidableEq

structure SetnsCall where
  ns : NsEntry
  answer : Except Nat Unit
deriving DecidableEq

structure JoinEnv where
  setns : Nat → Except Nat Unit
  setresuid : Except Nat Unit

def eperm : Nat := 1

inductive JoinErr
  | setns (t : NsType) (errno : Nat)
  | setresuid (errno : Nat)
  | failedToJoin (set : Flags)
deriving DecidableEq

def nssetToStr (set : Flags) : Text :=
  ", ".toList.intercalate ((NsType.all.filter fun t => t.flag &&& set ≠ 0).map NsType.name)

def JoinErr.text (strerror : Nat → Text) : JoinErr → Text
  | .setns t errno =>
      "failed to setns into ".toList ++ t.name ++ " namespace: ".toList ++ strerror errno
  | .setresuid errno =>
      "failed to become root in user namespace: ".toList ++ strerror errno
  | .failedToJoin set =>
      "failed to join \x7b".toList ++ nssetToStr set ++ "\x7d namespaces: ".toList ++
        strerror eperm

inductive Pass
  | done (joined : Flags) (list : List NsEntry) (log : List SetnsCall)
  | exited (err : JoinErr) (log : List SetnsCall)

namespace Pass

def keep (ns : NsEntry) : Pass → Pass
  | done joined list log => done joined (ns :: list) log
  | exited err log => exited err log

def join (ns : NsEntry) : Pass → Pass
  | done joined list log => done (ns.type.flag ||| joined) ({ ns with fd := none } :: list) log
  | exited err log => exited err log

variable {ns : NsEntry} {p : Pass} {joined : Flags} {list : List NsEntry}
variable {log : List SetnsCall} {err : JoinErr}

theorem keep_eq_done (h : p.keep ns = done joined list log) :
    ∃ rest, p = done joined rest log ∧ list = ns :: rest := by
  cases p with
  | done joined rest log =>
    cases h
    exact ⟨rest, rfl, rfl⟩
  | exited err log => cases h

theorem join_eq_done (h : p.join ns = done joined list log) :
    ∃ others rest, p = done others rest log ∧ joined = ns.type.flag ||| others ∧
      list = { ns with fd := none } :: rest := by
  cases p with
  | done others rest log =>
    cases h
    exact ⟨others, rest, rfl, rfl, rfl⟩
  | exited err log => cases h

theorem keep_eq_exited (h : p.keep ns = exited err log) : p = exited err log := by
  cases p with
  | done joined rest log => cases h
  | exited err log => exact h

theorem join_eq_exited (h : p.join ns = exited err log) : p = exited err log := by
  cases p with
  | done joined rest log => cases h
  | exited err log => exact h

end Pass

/-- `__join_namespaces`. -/
def joinPass (env : JoinEnv) (allow : Flags) : List NsEntry → List SetnsCall → Pass
  | [], log => .done 0 [] log
  | ns :: rest, log =>
      if ns.type.flag &&& allow = 0 then (joinPass env allow rest log).keep ns
      else
        match env.setns log.length with
        | .error errno =>
            if errno = eperm then
              (joinPass env allow rest (log ++ [⟨ns, .error errno⟩])).keep ns
            else .exited (.setns ns.type errno) (log ++ [⟨ns, .error errno⟩])
        | .ok () =>
            if ns.type = .user then
              match env.setresuid with
              | .error errno => .exited (.setresuid errno) (log ++ [⟨ns, .ok ()⟩])
              | .ok () => (joinPass env allow rest (log ++ [⟨ns, .ok ()⟩])).join ns
            else (joinPass env allow rest (log ++ [⟨ns, .ok ()⟩])).join ns

def flagsOf (list : List NsEntry) : Flags :=
  list.foldr (fun ns set => ns.type.flag ||| set) 0

inductive JoinResult
  | returned
  | exited (err : JoinErr)
deriving DecidableEq

def closeNamespaces (toJoin joined : Flags) (list : List NsEntry) : JoinResult :=
  let failedToJoin := (toJoin &&& ~~~joined) ||| flagsOf (list.filter (·.fd.isSome))
  if failedToJoin ≠ 0 then .exited (.failedToJoin failedToJoin) else .returned

/-- `join_namespaces`, with the namespaces that `__open_namespaces` has opened. -/
def joinNamespaces (env : JoinEnv) (list : List NsEntry) : JoinResult × List SetnsCall :=
  let toJoin := flagsOf list
  match joinPass env (toJoin &&& ~~~(0 ||| NsType.user.flag)) list [] with
  | .exited err log => (.exited err, log)
  | .done first list log =>
      match joinPass env NsType.user.flag list log with
      | .exited err log => (.exited err, log)
      | .done second list log =>
          match joinPass env (toJoin &&& ~~~((first ||| second) ||| NsType.user.flag)) list log with
          | .exited err log => (.exited err, log)
          | .done third list log =>
              (closeNamespaces toJoin ((first ||| second) ||| third) list, log)

def GoesOn (env : JoinEnv) (c : SetnsCall) : Prop :=
  c.answer = .error eperm ∨
    c.answer = .ok () ∧ (c.ns.type = .user → env.setresuid = .ok ())

theorem joinPass_cons (env : JoinEnv) (allow : Flags) (ns : NsEntry) (rest : List NsEntry)
    (log : List SetnsCall) :
    (ns.type.flag &&& allow = 0 ∧
      joinPass env allow (ns :: rest) log = (joinPass env allow rest log).keep ns) ∨
    (ns.type.flag &&& allow ≠ 0 ∧ ∃ answer,
      (¬ GoesOn env ⟨ns, answer⟩ ∧
        ∃ err, joinPass env allow (ns :: rest) log = .exited err (log ++ [⟨ns, answer⟩]) ∧
          ∀ errno, answer = .error errno → err = .setns ns.type errno) ∨
      (answer = .error eperm ∧
        joinPass env allow (ns :: rest) log =
          (joinPass env allow rest (log ++ [⟨ns, answer⟩])).keep ns) ∨
      (answer = .ok () ∧ GoesOn env ⟨ns, answer⟩ ∧
        joinPass env allow (ns :: rest) log =
          (joinPass env allow rest (log ++ [⟨ns, answer⟩])).join ns)) := by
  rw [joinPass]
  by_cases hallow : ns.type.flag &&& allow = 0
  · exact .inl ⟨hallow, if_pos hallow⟩
  rw [if_neg hallow]
  refine .inr ⟨hallow, env.setns log.length, ?_⟩
  cases env.setns log.length with
  | error errno =>
    dsimp only
    by_cases hperm : errno = eperm
    · rw [if_pos hperm, hperm]
      exact .inr (.inl ⟨rfl, rfl⟩)
    · rw [if_neg hperm]
      refine .inl ⟨?_, _, rfl, ?_⟩
      · rintro (heq | ⟨heq, -⟩)
        · cases heq
          exact hperm rfl
        · cases heq
      · intro errno' heq
        cases heq
        rfl
  | ok _ =>
    by_cases huser : ns.type = .user
    · rw [if_pos huser]
      cases hroot : env.setresuid with
      | error errno =>
        refine .inl ⟨?_, _, rfl, nofun⟩
        rintro (heq | ⟨-, h⟩)
        · cases heq
        · rw [h huser] at hroot
          cases hroot
      | ok _ => exact .inr (.inr ⟨rfl, .inr ⟨rfl, fun _ => hroot⟩, rfl⟩)
    · rw [if_neg huser]
      exact .inr (.inr ⟨rfl, .inr ⟨rfl, fun h => absurd h huser⟩, rfl⟩)

def tried (allow : Flags) (list : List NsEntry) : List NsEntry :=
  list.filter fun ns => ns.type.flag &&& allow ≠ 0

def joinedIn (calls : List SetnsCall) (t : NsType) : Bool :=
  calls.any fun c => c.ns.type = t ∧ c.answer = .ok ()

def closeIn (calls : List SetnsCall) (ns : NsEntry) : NsEntry :=
  if joinedIn calls ns.type then { ns with fd := none } else ns

variable {t : NsType} {calls : List SetnsCall}

theorem joinedIn_eq_true_iff :
    joinedIn calls t = true ↔ ∃ c ∈ calls, c.ns.type = t ∧ c.answer = .ok () := by
  simp [joinedIn]

theorem joinedIn_cons (c : SetnsCall) (calls : List SetnsCall) (t : NsType) :
    joinedIn (c :: calls) t =
      (decide (c.ns.type = t ∧ c.answer = .ok ()) || joinedIn calls t) :=
  List.any_cons

theorem joinedIn_append (calls calls' : List SetnsCall) (t : NsType) :
    joinedIn (calls ++ calls') t = (joinedIn calls t || joinedIn calls' t) :=
  List.any_append

theorem joinedIn_eq_false (h : ∀ c ∈ calls, c.ns.type ≠ t) : joinedIn calls t = false := by
  rw [← Bool.not_eq_true, joinedIn_eq_true_iff]
  rintro ⟨c, hc, ht, -⟩
  exact h c hc ht

structure PassDone (env : JoinEnv) (allow : Flags) (list : List NsEntry)
    (calls : List SetnsCall) (joined : Flags) (list' : List NsEntry) : Prop where
  calls_ns : calls.map SetnsCall.ns = tried allow list
  goesOn : ∀ c ∈ calls, GoesOn env c
  joined : ∀ t : NsType, joined.getLsbD t.bit = joinedIn calls t
  closed : list' = list.map (closeIn calls)

variable {ns : NsEntry}

theorem tried_cons_of_eq {allow : Flags} (h : ns.type.flag &&& allow = 0) (rest : List NsEntry) :
    tried allow (ns :: rest) = tried allow rest :=
  List.filter_cons_of_neg (by simp [h])

theorem tried_cons_of_ne {allow : Flags} (h : ns.type.flag &&& allow ≠ 0) (rest : List NsEntry) :
    tried allow (ns :: rest) = ns :: tried allow rest :=
  List.filter_cons_of_pos (decide_eq_true h)

section PassDone

variable {env : JoinEnv} {allow : Flags} {ns : NsEntry} {rest list' : List NsEntry}
variable {calls : List SetnsCall} {joined : Flags}

theorem PassDone.fresh (h : PassDone env allow rest calls joined list')
    (hns : ns.type ∉ rest.map NsEntry.type) : ∀ c ∈ calls, c.ns.type ≠ ns.type := by
  intro c hc heq
  have hmem : c.ns ∈ tried allow rest := h.calls_ns ▸ List.mem_map_of_mem hc
  exact hns (heq ▸ List.mem_map_of_mem (List.mem_of_mem_filter hmem))

theorem map_closeIn_cons (c : SetnsCall) (calls : List SetnsCall)
    (h : ∀ ns ∈ rest, ¬ (c.ns.type = ns.type ∧ c.answer = .ok ())) :
    rest.map (closeIn (c :: calls)) = rest.map (closeIn calls) := by
  refine List.map_congr_left fun ns hns => ?_
  rw [closeIn, closeIn, joinedIn_cons, decide_eq_false (h ns hns), Bool.false_or]

section

variable (h : PassDone env allow rest calls joined list')
include h

theorem PassDone.skip
    (hns : ns.type ∉ rest.map NsEntry.type) (hallow : ns.type.flag &&& allow = 0) :
    PassDone env allow (ns :: rest) calls joined (ns :: list') where
  calls_ns := by rw [tried_cons_of_eq hallow, h.calls_ns]
  goesOn := h.goesOn
  joined := h.joined
  closed := by
    rw [List.map_cons, closeIn, joinedIn_eq_false (h.fresh hns), ← h.closed]
    rfl

theorem PassDone.refuse
    (hns : ns.type ∉ rest.map NsEntry.type) (hallow : ns.type.flag &&& allow ≠ 0) :
    PassDone env allow (ns :: rest) (⟨ns, .error eperm⟩ :: calls) joined (ns :: list') where
  calls_ns := by rw [tried_cons_of_ne hallow, List.map_cons, h.calls_ns]
  goesOn := List.forall_mem_cons.mpr ⟨.inl rfl, h.goesOn⟩
  joined := by
    intro t
    rw [joinedIn_cons, h.joined]
    simp
  closed := by
    rw [List.map_cons, map_closeIn_cons _ _ (by simp), closeIn, joinedIn_cons,
      joinedIn_eq_false (h.fresh hns), ← h.closed]
    simp

theorem PassDone.join (hns : ns.type ∉ rest.map NsEntry.type) (hallow : ns.type.flag &&& allow ≠ 0)
    (hgoes : GoesOn env ⟨ns, .ok ()⟩) :
    PassDone env allow (ns :: rest) (⟨ns, .ok ()⟩ :: calls) (ns.type.flag ||| joined)
      ({ ns with fd := none } :: list') where
  calls_ns := by rw [tried_cons_of_ne hallow, List.map_cons, h.calls_ns]
  goesOn := List.forall_mem_cons.mpr ⟨hgoes, h.goesOn⟩
  joined := by
    intro t
    rw [joinedIn_cons, BitVec.getLsbD_or, NsType.getLsbD_flag, h.joined]
    simp
  closed := by
    have hothers : ∀ other ∈ rest, ¬ (ns.type = other.type ∧
        (Except.ok () : Except Nat Unit) = .ok ()) := by
      rintro other hother ⟨heq, -⟩
      exact hns (heq ▸ List.mem_map_of_mem hother)
    rw [List.map_cons, map_closeIn_cons _ _ hothers, closeIn, joinedIn_cons, ← h.closed]
    simp

end

theorem joinPass_done {list : List NsEntry} {log log' : List SetnsCall}
    (hnodup : (list.map NsEntry.type).Nodup)
    (h : joinPass env allow list log = .done joined list' log') :
    ∃ calls, log' = log ++ calls ∧ PassDone env allow list calls joined list' := by
  induction list generalizing log joined list' with
  | nil =>
    cases h
    exact ⟨[], (List.append_nil _).symm, rfl, nofun, fun _ => BitVec.getLsbD_zero, rfl⟩
  | cons ns rest ih =>
    rw [List.map_cons, List.nodup_cons] at hnodup
    obtain ⟨hns, hrest⟩ := hnodup
    rcases joinPass_cons env allow ns rest log with
      ⟨hallow, hrun⟩ | ⟨hallow, answer, ⟨-, err, hrun, -⟩ | ⟨rfl, hrun⟩ | ⟨rfl, hgoes, hrun⟩⟩
    · obtain ⟨rest', hpass, rfl⟩ := Pass.keep_eq_done (hrun ▸ h)
      obtain ⟨calls, hlog, hdone⟩ := ih hrest hpass
      exact ⟨calls, hlog, hdone.skip hns hallow⟩
    · rw [hrun] at h
      cases h
    · obtain ⟨rest', hpass, rfl⟩ := Pass.keep_eq_done (hrun ▸ h)
      obtain ⟨calls, hlog, hdone⟩ := ih hrest hpass
      rw [List.append_assoc] at hlog
      exact ⟨_, hlog, hdone.refuse hns hallow⟩
    · obtain ⟨others, rest', hpass, rfl, rfl⟩ := Pass.join_eq_done (hrun ▸ h)
      obtain ⟨calls, hlog, hdone⟩ := ih hrest hpass
      rw [List.append_assoc] at hlog
      exact ⟨_, hlog, hdone.join hns hallow hgoes⟩

theorem joinPass_exited {list : List NsEntry} {log log' : List SetnsCall} {err : JoinErr}
    (h : joinPass env allow list log = .exited err log') :
    ∃ calls c, log' = log ++ (calls ++ [c]) ∧
      (calls ++ [c]).map SetnsCall.ns <+: tried allow list ∧
      (∀ call ∈ calls, GoesOn env call) ∧ ¬ GoesOn env c ∧
      ∀ errno, c.answer = .error errno → err = .setns c.ns.type errno := by
  induction list generalizing log with
  | nil => cases h
  | cons ns rest ih =>
    rcases joinPass_cons env allow ns rest log with
      ⟨hallow, hrun⟩ |
          ⟨hallow, answer, ⟨hstops, err', hrun, herr⟩ | ⟨rfl, hrun⟩ | ⟨rfl, hgoes, hrun⟩⟩
    · obtain ⟨calls, c, hlog, htried, hgoes, hstops⟩ := ih (Pass.keep_eq_exited (hrun ▸ h))
      exact ⟨calls, c, hlog, tried_cons_of_eq hallow rest ▸ htried, hgoes, hstops⟩
    · rw [hrun] at h
      cases h
      refine ⟨[], ⟨ns, answer⟩, rfl, ?_, nofun, hstops, herr⟩
      rw [tried_cons_of_ne hallow]
      exact ⟨tried allow rest, rfl⟩
    · obtain ⟨calls, c, hlog, htried, hgoes, hstops⟩ := ih (Pass.keep_eq_exited (hrun ▸ h))
      refine ⟨⟨ns, .error eperm⟩ :: calls, c, ?_, ?_, ?_, hstops⟩
      · rw [hlog, List.append_assoc]
        rfl
      · rw [tried_cons_of_ne hallow]
        exact List.cons_prefix_cons.mpr ⟨rfl, htried⟩
      · exact List.forall_mem_cons.mpr ⟨.inl rfl, hgoes⟩
    · obtain ⟨calls, c, hlog, htried, hrest, hstops⟩ := ih (Pass.join_eq_exited (hrun ▸ h))
      refine ⟨⟨ns, .ok ()⟩ :: calls, c, ?_, ?_, ?_, hstops⟩
      · rw [hlog, List.append_assoc]
        rfl
      · rw [tried_cons_of_ne hallow]
        exact List.cons_prefix_cons.mpr ⟨rfl, htried⟩
      · exact List.forall_mem_cons.mpr ⟨hgoes, hrest⟩

end PassDone

theorem getLsbD_flagsOf (list : List NsEntry) (i : Nat) :
    (flagsOf list).getLsbD i = true ↔ ∃ ns ∈ list, ns.type.bit = i := by
  induction list with
  | nil => simp [flagsOf]
  | cons ns rest ih =>
    have hbound : ns.type.bit < 64 := by
      cases ns.type <;> decide
    have hstep : flagsOf (ns :: rest) = ns.type.flag ||| flagsOf rest := rfl
    rw [hstep, BitVec.getLsbD_or, Bool.or_eq_true, ih, NsType.flag, Flags.getLsbD_bit hbound,
      decide_eq_true_eq, List.exists_mem_cons_iff]

theorem mem_allow_iff {list : List NsEntry} (h : t ∈ list.map NsEntry.type) (except : Flags) :
    t.flag &&& (flagsOf list &&& ~~~except) ≠ 0 ↔ except.getLsbD t.bit = false := by
  have hbound : t.bit < 64 := by
    cases t <;> decide
  have hset : (flagsOf list).getLsbD t.bit = true := by
    obtain ⟨ns, hns, rfl⟩ := List.mem_map.mp h
    exact (getLsbD_flagsOf list _).mpr ⟨ns, hns, rfl⟩
  rw [Ne, NsType.flag_and_eq_zero, BitVec.getLsbD_and, hset, BitVec.getLsbD_not,
    decide_eq_true hbound]
  cases except.getLsbD t.bit <;> decide

def others (list : List NsEntry) : List NsEntry :=
  list.filter fun ns => ns.type ≠ .user

def users (list : List NsEntry) : List NsEntry :=
  list.filter fun ns => ns.type = .user

def refused (calls : List SetnsCall) : List NsEntry :=
  (calls.filter fun c => c.answer = .error eperm).map SetnsCall.ns

theorem tried_first (list : List NsEntry) :
    tried (flagsOf list &&& ~~~(0 ||| NsType.user.flag)) list = others list := by
  have hzero : (0 : Flags) ||| NsType.user.flag = NsType.user.flag := BitVec.zero_or
  refine List.filter_congr fun ns hns => ?_
  rw [decide_eq_decide, mem_allow_iff (List.mem_map_of_mem hns), hzero, NsType.getLsbD_flag,
    decide_eq_false_iff_not]
  exact ne_comm

@[simp]
theorem closeIn_type (calls : List SetnsCall) (ns : NsEntry) :
    (closeIn calls ns).type = ns.type := by
  rw [closeIn]
  split <;> rfl

theorem closeIn_of_not_joined (h : joinedIn calls ns.type = false) : closeIn calls ns = ns := by
  rw [closeIn, h]
  rfl

theorem map_closeIn_append (calls calls' : List SetnsCall) (list : List NsEntry) :
    (list.map (closeIn calls)).map (closeIn calls') = list.map (closeIn (calls ++ calls')) := by
  rw [List.map_map]
  refine List.map_congr_left fun ns _ => ?_
  rw [Function.comp_apply, closeIn, closeIn_type, closeIn, closeIn, joinedIn_append]
  cases joinedIn calls ns.type <;> cases joinedIn calls' ns.type <;> rfl

theorem map_type_closeIn (calls : List SetnsCall) (list : List NsEntry) :
    (list.map (closeIn calls)).map NsEntry.type = list.map NsEntry.type := by
  rw [List.map_map]
  exact List.map_congr_left fun ns _ => closeIn_type calls ns

theorem getLsbD_joined_append {calls' : List SetnsCall} {joined joined' : Flags}
    (h : ∀ t : NsType, joined.getLsbD t.bit = joinedIn calls t)
    (h' : ∀ t : NsType, joined'.getLsbD t.bit = joinedIn calls' t) (t : NsType) :
    (joined ||| joined').getLsbD t.bit = joinedIn (calls ++ calls') t := by
  rw [BitVec.getLsbD_or, h, h', joinedIn_append]

theorem filter_map_closeIn (calls : List SetnsCall) {p : NsType → Bool}
    (h : ∀ t, p t = true → joinedIn calls t = false) (list : List NsEntry) :
    (list.map (closeIn calls)).filter (fun ns => p ns.type) =
      list.filter fun ns => p ns.type := by
  rw [List.filter_map]
  have hfilter : ((fun ns => p ns.type) ∘ closeIn calls) = fun ns : NsEntry => p ns.type := by
    funext ns
    simp
  have hsame : (list.filter fun ns => p ns.type).map (closeIn calls) =
      (list.filter fun ns => p ns.type).map id :=
    List.map_congr_left fun ns hns => closeIn_of_not_joined (h _ (List.mem_filter.mp hns).2)
  rw [hfilter, hsame, List.map_id]

section Run

variable {env : JoinEnv} {list : List NsEntry} {first mid retry : List SetnsCall}

variable {calls : List SetnsCall}

theorem type_of_others (h : calls.map SetnsCall.ns <+: others list)
    (c : SetnsCall) (hc : c ∈ calls) : c.ns ∈ list ∧ c.ns.type ≠ .user := by
  have hmem := List.mem_filter.mp (h.subset (List.mem_map_of_mem hc))
  exact ⟨hmem.1, of_decide_eq_true hmem.2⟩

theorem type_of_users (h : calls.map SetnsCall.ns <+: users list) (c : SetnsCall) (hc : c ∈ calls) :
    c.ns ∈ list ∧ c.ns.type = .user := by
  have hmem := List.mem_filter.mp (h.subset (List.mem_map_of_mem hc))
  exact ⟨hmem.1, of_decide_eq_true hmem.2⟩

theorem tried_second (h : first.map SetnsCall.ns <+: others list) :
    tried NsType.user.flag (list.map (closeIn first)) = users list := by
  have htried : tried NsType.user.flag (list.map (closeIn first)) =
      (list.map (closeIn first)).filter (fun ns => decide (ns.type = .user)) := by
    refine List.filter_congr fun ns _ => ?_
    rw [decide_eq_decide, Ne, NsType.flag_and_eq_zero, NsType.getLsbD_flag,
      decide_eq_false_iff_not, not_not]
    exact eq_comm
  rw [htried]
  refine filter_map_closeIn first (p := fun t => decide (t = .user)) ?_ list
  intro t ht
  rw [of_decide_eq_true ht]
  exact joinedIn_eq_false fun c hc => (type_of_others h c hc).2

theorem refused_eq (hnodup : (list.map NsEntry.type).Nodup)
    (hfirst : first.map SetnsCall.ns = others list) (hgoes : ∀ c ∈ first, GoesOn env c) :
    refused first = list.filter fun ns => ns.type ≠ .user ∧ joinedIn first ns.type = false := by
  have htypes : (first.map fun c => c.ns.type).Nodup := by
    have hsub : ((others list).map NsEntry.type).Nodup :=
      hnodup.sublist ((List.filter_sublist).map _)
    rwa [← hfirst, List.map_map] at hsub
  have hanswer : ∀ c ∈ first, decide (c.answer = .error eperm) =
      decide (joinedIn first c.ns.type = false) := by
    intro c hc
    rw [decide_eq_decide, ← Bool.not_eq_true, joinedIn_eq_true_iff]
    constructor
    · rintro hperm ⟨other, hother, htype, hok⟩
      rw [List.inj_on_of_nodup_map htypes hother hc htype, hperm] at hok
      cases hok
    · intro hnone
      rcases hgoes c hc with hperm | ⟨hok, -⟩
      · exact hperm
      · exact absurd ⟨c, hc, rfl, hok⟩ hnone
  have hmap : (first.filter fun c => decide (joinedIn first c.ns.type = false)).map
      SetnsCall.ns = (first.map SetnsCall.ns).filter
        fun ns => decide (joinedIn first ns.type = false) := by
    rw [List.filter_map]
    rfl
  rw [refused, List.filter_congr hanswer, hmap, hfirst, others, List.filter_filter]
  refine List.filter_congr fun ns _ => ?_
  rw [Bool.decide_and, Bool.and_comm]

theorem tried_third {joined : Flags} (hnodup : (list.map NsEntry.type).Nodup)
    (hfirst : first.map SetnsCall.ns = others list) (hgoes : ∀ c ∈ first, GoesOn env c)
    (hmid : mid.map SetnsCall.ns <+: users list)
    (hjoined : ∀ t : NsType, joined.getLsbD t.bit = joinedIn (first ++ mid) t) :
    tried (flagsOf list &&& ~~~(joined ||| NsType.user.flag))
      (list.map (closeIn (first ++ mid))) = refused first := by
  have hothers : ∀ t, t ≠ .user → joinedIn (first ++ mid) t = joinedIn first t := by
    intro t ht
    have hnone : joinedIn mid t = false :=
      joinedIn_eq_false fun c hc heq => ht (heq ▸ (type_of_users hmid c hc).2)
    rw [joinedIn_append, hnone, Bool.or_false]
  have htried : tried (flagsOf list &&& ~~~(joined ||| NsType.user.flag))
      (list.map (closeIn (first ++ mid))) = (list.map (closeIn (first ++ mid))).filter
          fun ns => decide (ns.type ≠ .user ∧ joinedIn first ns.type = false) := by
    refine List.filter_congr fun ns hns => ?_
    obtain ⟨ns, hmem, rfl⟩ := List.mem_map.mp hns
    rw [closeIn_type, decide_eq_decide, mem_allow_iff (List.mem_map_of_mem hmem),
      BitVec.getLsbD_or, hjoined, NsType.getLsbD_flag]
    by_cases huser : ns.type = .user
    · simp [huser]
    · simp [huser, hothers _ huser, Ne.symm huser]
  rw [htried, refused_eq hnodup hfirst hgoes]
  refine filter_map_closeIn (first ++ mid)
    (p := fun t => decide (t ≠ .user ∧ joinedIn first t = false)) ?_ list
  intro t ht
  obtain ⟨huser, hnone⟩ := of_decide_eq_true ht
  rw [hothers t huser, hnone]

theorem closeNamespaces_eq_returned_iff {joined : Flags}
    (hjoined : ∀ t : NsType, joined.getLsbD t.bit = joinedIn calls t) :
    closeNamespaces (flagsOf list) joined (list.map (closeIn calls)) = .returned ↔
      ∀ ns ∈ list, joinedIn calls ns.type = true := by
  rw [closeNamespaces]
  constructor
  · intro h ns hns
    by_contra hnone
    rw [Bool.not_eq_true, ← hjoined, ← mem_allow_iff (List.mem_map_of_mem hns),
      Ne, NsType.flag_and_eq_zero] at hnone
    have hbit : ¬ ((flagsOf list &&& ~~~joined) |||
        flagsOf ((list.map (closeIn calls)).filter (·.fd.isSome))) = 0 := by
      intro hzero
      have hget := congrArg (fun s : Flags => s.getLsbD ns.type.bit) hzero
      simp only [BitVec.getLsbD_or, Bool.not_eq_false] at hget hnone
      rw [hnone] at hget
      exact absurd hget (by simp)
    rw [if_pos hbit] at h
    cases h
  · intro hall
    have hclosed : (list.map (closeIn calls)).filter (·.fd.isSome) = [] := by
      rw [List.filter_eq_nil_iff]
      intro ns hns
      obtain ⟨ns, hmem, rfl⟩ := List.mem_map.mp hns
      rw [closeIn, hall ns hmem]
      simp
    have hnone : flagsOf list &&& ~~~joined = 0 := by
      refine BitVec.eq_of_getLsbD_eq fun i _ => ?_
      rw [BitVec.getLsbD_and]
      cases hbit : (flagsOf list).getLsbD i with
      | false => simp
      | true =>
        obtain ⟨ns, hns, rfl⟩ := (getLsbD_flagsOf list i).mp hbit
        simp [hjoined, hall ns hns]
    rw [hclosed, hnone]
    rfl

structure Tries (list : List NsEntry) (first mid retry : List SetnsCall) : Prop where
  firstOf : first.map SetnsCall.ns <+: others list
  midOf : mid.map SetnsCall.ns <+: users list
  retryOf : retry.map SetnsCall.ns <+: refused first
  midAfter : mid ≠ [] → first.map SetnsCall.ns = others list
  retryAfter : retry ≠ [] →
    first.map SetnsCall.ns = others list ∧ mid.map SetnsCall.ns = users list

structure Complete (list : List NsEntry) (first mid retry : List SetnsCall) : Prop where
  firstOf : first.map SetnsCall.ns = others list
  midOf : mid.map SetnsCall.ns = users list
  retryOf : retry.map SetnsCall.ns = refused first

theorem Complete.tries (h : Complete list first mid retry) : Tries list first mid retry where
  firstOf := h.firstOf ▸ List.prefix_rfl
  midOf := h.midOf ▸ List.prefix_rfl
  retryOf := h.retryOf ▸ List.prefix_rfl
  midAfter := fun _ => h.firstOf
  retryAfter := fun _ => ⟨h.firstOf, h.midOf⟩

def Ending (env : JoinEnv) (list : List NsEntry) (result : JoinResult)
    (first mid retry : List SetnsCall) : Prop :=
  (Complete list first mid retry ∧ (∀ c ∈ first ++ (mid ++ retry), GoesOn env c) ∧
    (result = .returned ↔ ∀ ns ∈ list, joinedIn (first ++ (mid ++ retry)) ns.type = true)) ∨
  ∃ calls c err, first ++ (mid ++ retry) = calls ++ [c] ∧ (∀ call ∈ calls, GoesOn env call) ∧
    ¬ GoesOn env c ∧ result = .exited err ∧
    ∀ errno, c.answer = .error errno → err = .setns c.ns.type errno

variable {c : SetnsCall}

theorem Ending.of_exited {before : List SetnsCall} {err : JoinErr}
    (hlog : first ++ (mid ++ retry) = before ++ (calls ++ [c]))
    (hbefore : ∀ call ∈ before, GoesOn env call) (hgoes : ∀ call ∈ calls, GoesOn env call)
    (hstops : ¬ GoesOn env c)
    (herr : ∀ errno, c.answer = .error errno → err = .setns c.ns.type errno) :
    Ending env list (.exited err) first mid retry := by
  rw [← List.append_assoc before] at hlog
  exact .inr ⟨before ++ calls, c, err, hlog, List.forall_mem_append.mpr ⟨hbefore, hgoes⟩,
    hstops, rfl, herr⟩

theorem joinNamespaces_run (env : JoinEnv) (hnodup : (list.map NsEntry.type).Nodup) :
    ∃ first mid retry, (joinNamespaces env list).2 = first ++ (mid ++ retry) ∧
      Tries list first mid retry ∧
      Ending env list (joinNamespaces env list).1 first mid retry := by
  have hnodup' : ∀ calls, ((list.map (closeIn calls)).map NsEntry.type).Nodup := fun calls =>
    map_type_closeIn calls list ▸ hnodup
  rw [joinNamespaces]
  cases hpass : joinPass env (flagsOf list &&& ~~~(0 ||| NsType.user.flag)) list [] with
  | exited err log =>
    obtain ⟨calls, c, rfl, hof, hgoes, hstops, herr⟩ := joinPass_exited hpass
    rw [tried_first] at hof
    exact ⟨calls ++ [c], [], [], (List.append_nil _).symm,
      ⟨hof, List.nil_prefix, List.nil_prefix, nofun, nofun⟩,
      .of_exited (List.append_nil _) (List.forall_mem_nil _) hgoes hstops herr⟩
  | done joined list₁ log =>
    obtain ⟨first, hlog, hfirst⟩ := joinPass_done hnodup hpass
    rw [List.nil_append] at hlog
    have hfirstOf := hfirst.calls_ns
    rw [tried_first] at hfirstOf
    obtain rfl := hfirst.closed
    rw [hlog]
    dsimp only
    cases hpass₂ : joinPass env NsType.user.flag (list.map (closeIn first)) first with
    | exited err log =>
      obtain ⟨calls, c, rfl, hof, hgoes, hstops, herr⟩ := joinPass_exited hpass₂
      rw [tried_second (hfirstOf ▸ List.prefix_rfl)] at hof
      exact ⟨first, calls ++ [c], [], by simp,
        ⟨hfirstOf ▸ List.prefix_rfl, hof, List.nil_prefix, fun _ => hfirstOf, nofun⟩,
        .of_exited (by simp) hfirst.goesOn hgoes hstops herr⟩
    | done joined' list₂ log =>
      obtain ⟨mid, rfl, hmid⟩ := joinPass_done (hnodup' first) hpass₂
      have hmidOf := hmid.calls_ns
      rw [tried_second (hfirstOf ▸ List.prefix_rfl)] at hmidOf
      obtain rfl := hmid.closed
      have hbefore : ∀ c ∈ first ++ mid, GoesOn env c :=
        List.forall_mem_append.mpr ⟨hfirst.goesOn, hmid.goesOn⟩
      have hjoined := getLsbD_joined_append hfirst.joined hmid.joined
      have hthird := tried_third hnodup hfirstOf hfirst.goesOn (hmidOf ▸ List.prefix_rfl) hjoined
      rw [map_closeIn_append]
      dsimp only
      cases hpass₃ : joinPass env (flagsOf list &&& ~~~((joined ||| joined') ||| NsType.user.flag))
          (list.map (closeIn (first ++ mid))) (first ++ mid) with
      | exited err log =>
        obtain ⟨calls, c, rfl, hof, hgoes, hstops, herr⟩ := joinPass_exited hpass₃
        rw [hthird] at hof
        exact ⟨first, mid, calls ++ [c], by simp,
          ⟨hfirstOf ▸ List.prefix_rfl, hmidOf ▸ List.prefix_rfl, hof, fun _ => hfirstOf,
            fun _ => ⟨hfirstOf, hmidOf⟩⟩,
          .of_exited (List.append_assoc _ _ _).symm hbefore hgoes hstops herr⟩
      | done joined'' list₃ log =>
        obtain ⟨retry, rfl, hretry⟩ := joinPass_done (hnodup' _) hpass₃
        have hretryOf := hretry.calls_ns
        rw [hthird] at hretryOf
        obtain rfl := hretry.closed
        have hcomplete : Complete list first mid retry := ⟨hfirstOf, hmidOf, hretryOf⟩
        refine ⟨first, mid, retry, by simp, hcomplete.tries, .inl ⟨hcomplete, ?_, ?_⟩⟩
        · rw [← List.append_assoc]
          exact List.forall_mem_append.mpr ⟨hbefore, hretry.goesOn⟩
        · rw [map_closeIn_append, ← List.append_assoc]
          exact closeNamespaces_eq_returned_iff (getLsbD_joined_append hjoined hretry.joined)

def joins (log : List SetnsCall) : List NsEntry :=
  (log.filter fun c => c.answer = .ok ()).map SetnsCall.ns

theorem mem_joins_iff {log : List SetnsCall} {ns : NsEntry} :
    ns ∈ joins log ↔ ∃ c ∈ log, c.ns = ns ∧ c.answer = .ok () := by
  simp [joins, and_assoc, and_comm]

theorem mem_of_refused (h : Tries list first mid retry) (hc : c ∈ retry) :
    ∃ c' ∈ first, c'.ns = c.ns ∧ c'.answer = .error eperm := by
  obtain ⟨c', hc', heq⟩ := List.mem_map.mp (h.retryOf.subset (List.mem_map_of_mem hc))
  obtain ⟨hmem, hperm⟩ := List.mem_filter.mp hc'
  exact ⟨c', hmem, heq, of_decide_eq_true hperm⟩

theorem Tries.ns_mem (h : Tries list first mid retry) (hc : c ∈ first ++ (mid ++ retry)) :
    c.ns ∈ list := by
  rcases List.mem_append.mp hc with hfirst | hrest
  · exact (type_of_others h.firstOf c hfirst).1
  rcases List.mem_append.mp hrest with hmid | hretry
  · exact (type_of_users h.midOf c hmid).1
  · obtain ⟨c', hc', heq, -⟩ := mem_of_refused h hretry
    exact heq ▸ (type_of_others h.firstOf c' hc').1

theorem Tries.pairwise (hnodup : list.Nodup) (h : Tries list first mid retry) :
    (first ++ (mid ++ retry)).Pairwise fun c' c => c'.answer = .ok () → c'.ns ≠ c.ns := by
  have hof : ∀ {calls : List SetnsCall} {entries : List NsEntry}, entries.Nodup →
      calls.map SetnsCall.ns <+: entries →
      calls.Pairwise fun c' c => c'.answer = .ok () → c'.ns ≠ c.ns := by
    intro calls entries hentries hcalls
    refine (List.pairwise_map.mp (hentries.sublist hcalls.sublist)).imp ?_
    intro c' c hne _
    exact hne
  have hothers : (others list).Nodup := hnodup.sublist List.filter_sublist
  have hfirst : (first.map SetnsCall.ns).Nodup := hothers.sublist h.firstOf.sublist
  have hrefused : (refused first).Nodup := hfirst.sublist ((List.filter_sublist).map _)
  rw [List.pairwise_append, List.pairwise_append]
  refine ⟨hof hothers h.firstOf,
    ⟨hof (hnodup.sublist List.filter_sublist) h.midOf, hof hrefused h.retryOf, ?_⟩, ?_⟩
  · intro c' hc' c hc _ heq
    obtain ⟨c'', hc'', heq', -⟩ := mem_of_refused h hc
    have huser := (type_of_users h.midOf c' hc').2
    rw [heq, ← heq'] at huser
    exact (type_of_others h.firstOf c'' hc'').2 huser
  · intro c' hc' c hc hok heq
    rcases List.mem_append.mp hc with hmid | hretry
    · have huser := (type_of_users h.midOf c hmid).2
      rw [← heq] at huser
      exact (type_of_others h.firstOf c' hc').2 huser
    · -- the call that was refused is the one that joined
      obtain ⟨c'', hc'', heq', hperm⟩ := mem_of_refused h hretry
      rw [List.inj_on_of_nodup_map hfirst hc'' hc' (heq'.trans heq.symm), hok] at hperm
      cases hperm

theorem Tries.joins_nodup (hnodup : list.Nodup) (h : Tries list first mid retry) :
    (joins (first ++ (mid ++ retry))).Nodup := by
  rw [joins, List.Nodup, List.pairwise_map, List.pairwise_filter]
  exact (h.pairwise hnodup).imp fun hne hok _ => hne (of_decide_eq_true hok)

theorem Tries.joinedIn_iff (hnodup : (list.map NsEntry.type).Nodup) (h : Tries list first mid retry)
    {ns : NsEntry} (hns : ns ∈ list) :
    joinedIn (first ++ (mid ++ retry)) ns.type = true ↔
      (joins (first ++ (mid ++ retry))).count ns = 1 := by
  have hone : (joins (first ++ (mid ++ retry))).count ns = 1 ↔
      ns ∈ joins (first ++ (mid ++ retry)) :=
    ⟨fun hcount => List.count_pos_iff.mp (hcount ▸ Nat.one_pos),
      List.count_eq_one_of_mem (h.joins_nodup (hnodup.of_map _))⟩
  rw [hone, joinedIn_eq_true_iff, mem_joins_iff]
  constructor
  · rintro ⟨c, hc, htype, hok⟩
    exact ⟨c, hc, List.inj_on_of_nodup_map hnodup (h.ns_mem hc) hns htype, hok⟩
  · rintro ⟨c, hc, heq, hok⟩
    exact ⟨c, hc, congrArg NsEntry.type heq, hok⟩

theorem Ending.returned_iff {result : JoinResult} (hnodup : (list.map NsEntry.type).Nodup)
    (htries : Tries list first mid retry) (h : Ending env list result first mid retry) :
    result = .returned ↔
      (∀ ns ∈ list, (joins (first ++ (mid ++ retry))).count ns = 1) ∧
      (NsType.user ∈ list.map NsEntry.type → env.setresuid = .ok ()) := by
  rcases h with ⟨-, hgoes, hiff⟩ | ⟨calls, c, err, hlog, -, hstops, rfl, -⟩
  · rw [hiff]
    constructor
    · intro hall
      refine ⟨fun ns hns => (htries.joinedIn_iff hnodup hns).mp (hall ns hns), fun huser => ?_⟩
      obtain ⟨ns, hns, htype⟩ := List.mem_map.mp huser
      obtain ⟨c, hc, htype', hok⟩ := joinedIn_eq_true_iff.mp (hall ns hns)
      rcases hgoes c hc with hperm | ⟨-, hroot⟩
      · rw [hok] at hperm
        cases hperm
      · exact hroot (htype'.trans htype)
    · rintro ⟨hone, -⟩ ns hns
      exact (htries.joinedIn_iff hnodup hns).mpr (hone ns hns)
  · -- the call that ended the process is the last on its namespace, and did not join it
    refine ⟨nofun, ?_⟩
    rintro ⟨hone, hroot⟩
    have hc : c ∈ first ++ (mid ++ retry) :=
      hlog ▸ List.mem_append_right _ (List.mem_singleton_self c)
    have hns := htries.ns_mem hc
    obtain ⟨c', hc', heq, hok⟩ :=
      mem_joins_iff.mp (List.count_pos_iff.mp (hone c.ns hns ▸ Nat.one_pos))
    have hpairwise := htries.pairwise (hnodup.of_map _)
    rw [hlog] at hpairwise hc'
    rcases List.mem_append.mp hc' with hearlier | hlast
    · have hne := (List.pairwise_append.mp hpairwise).2.2 c' hearlier c (List.mem_singleton_self c)
      exact absurd heq (hne hok)
    · rw [List.mem_singleton.mp hlast] at hok
      exact absurd (.inr ⟨hok, fun huser => hroot (huser ▸ List.mem_map_of_mem hns)⟩) hstops

/-- Joining the namespaces. -/
theorem joinNamespaces_iff (env : JoinEnv) (list : List NsEntry)
    (hnodup : (list.map NsEntry.type).Nodup) :
    ((joinNamespaces env list).1 = .returned ↔
      (∀ ns ∈ list, (joins (joinNamespaces env list).2).count ns = 1) ∧
      (NsType.user ∈ list.map NsEntry.type → env.setresuid = .ok ())) ∧
    (∃ first mid retry, (joinNamespaces env list).2 = first ++ (mid ++ retry) ∧
      Tries list first mid retry ∧
      ((∀ c ∈ (joinNamespaces env list).2, GoesOn env c) → Complete list first mid retry)) ∧
    ∀ c ∈ (joinNamespaces env list).2, ∀ errno, c.answer = .error errno → errno ≠ eperm →
      (joinNamespaces env list).2.getLast? = some c ∧
      (joinNamespaces env list).1 = .exited (.setns c.ns.type errno) := by
  obtain ⟨first, mid, retry, hlog, htries, hending⟩ := joinNamespaces_run env hnodup
  rw [hlog]
  refine ⟨hending.returned_iff hnodup htries, ⟨first, mid, retry, rfl, htries, ?_⟩, ?_⟩
  · intro hgoes
    rcases hending with ⟨hcomplete, -⟩ | ⟨calls, c, err, heq, -, hstops, -⟩
    · exact hcomplete
    · exact absurd (hgoes c (heq ▸ List.mem_append_right _ (List.mem_singleton_self c))) hstops
  · intro c hc errno herrno hne
    have hstops : ¬ GoesOn env c := by
      rintro (hperm | ⟨hok, -⟩)
      · exact hne (Except.error.inj (herrno.symm.trans hperm))
      · rw [herrno] at hok
        cases hok
    rcases hending with ⟨-, hgoes, -⟩ | ⟨calls, last, err, heq, hgoes, -, hresult, herr⟩
    · exact absurd (hgoes c hc) hstops
    · rw [heq] at hc ⊢
      rcases List.mem_append.mp hc with hearlier | hlast
      · exact absurd (hgoes c hearlier) hstops
      · obtain rfl := List.mem_singleton.mp hlast
        exact ⟨List.getLast?_concat, hresult.trans (congrArg _ (herr errno herrno))⟩

theorem joinNamespaces_retried :
    let env : JoinEnv := ⟨fun i => if i = 0 then .error eperm else .ok (), .ok ()⟩
    let list : List NsEntry := [⟨.user, some 3⟩, ⟨.mnt, some 4⟩]
    (joinNamespaces env list).1 = .returned ∧
      ∀ ns ∈ list, (joins (joinNamespaces env list).2).count ns = 1 := by
  intro env list
  have hreturned : (joinNamespaces env list).1 = .returned := by decide
  exact ⟨hreturned, ((joinNamespaces_iff env list (by decide)).1.mp hreturned).1⟩

theorem joinNamespaces_not_root :
    let env : JoinEnv := ⟨fun _ => .ok (), .error 22⟩
    let list : List NsEntry := [⟨.user, some 3⟩]
    (list.map NsEntry.type).Nodup ∧
      (∀ ns ∈ list, (joins (joinNamespaces env list).2).count ns = 1) ∧
      (joinNamespaces env list).1 = .exited (.setresuid 22) := by
  decide

end Run

end Runc.Nsexec
