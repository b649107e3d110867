import Mathlib.Data.List.ReduceOption
import Runc.Configs.Seccomp
import Runc.Lib.Program
import Runc.Seccomp.EnosysStub

/-!
# The actions of a filter

`InitSeccomp` makes a filter of libseccomp from the configuration.  An action that
returns an error number or notifies a tracer carries a value, which is kept in the upper
half of a 32-bit word.

What libseccomp and the kernel answer is a parameter; an answer may depend on the filter
that has been built so far.
-/

namespace Runc.Seccomp

open Lib
open Configs (Action Operator Arg Syscall)

abbrev ScmpAction := BitVec 64

namespace ScmpAction

def killThread : ScmpAction := 1
def trap : ScmpAction := 2
def notify : ScmpAction := 3
def errno : ScmpAction := 4
def trace : ScmpAction := 5
def allow : ScmpAction := 6
def log : ScmpAction := 7
def killProcess : ScmpAction := 8

def setReturnCode (a : ScmpAction) (code : BitVec 16) : ScmpAction :=
  if a &&& 0xFFFF = errno ∨ a &&& 0xFFFF = trace then
    (a &&& 0xFFFF) ||| ((code.signExtend 64 &&& 0xFFFF) <<< 16)
  else a

def toNative (a : ScmpAction) : BitVec 32 :=
  if a &&& 0xFFFF = killProcess then 0x80000000
  else if a &&& 0xFFFF = killThread then 0
  else if a &&& 0xFFFF = trap then 0x00030000
  else if a &&& 0xFFFF = errno then (0x00050000 : BitVec 32) ||| (a.setWidth 32 >>> 16)
  else if a &&& 0xFFFF = trace then (0x7FF00000 : BitVec 32) ||| (a.setWidth 32 >>> 16)
  else if a &&& 0xFFFF = log then 0x7FFC0000
  else if a &&& 0xFFFF = allow then 0x7FFF0000
  else if a &&& 0xFFFF = notify then 0x7FC00000
  else 0

end ScmpAction

open ScmpAction (setReturnCode toNative)

def eperm : BitVec 16 := 1

def actTrace : ScmpAction := setReturnCode .trace eperm
def actErrno : ScmpAction := setReturnCode .errno eperm

def int16 (v : UInt64) : BitVec 16 :=
  v.toBitVec.setWidth 16

def getAction (act : Action) (errnoRet : Option UInt64) : Except Text ScmpAction :=
  match act with
  | .kill => .ok .killThread
  | .killThread => .ok .killThread
  | .errno =>
      match errnoRet with
      | some v => .ok (setReturnCode .errno (int16 v))
      | none => .ok actErrno
  | .trap => .ok .trap
  | .allow => .ok .allow
  | .trace =>
      match errnoRet with
      | some v => .ok (setReturnCode .trace (int16 v))
      | none => .ok actTrace
  | .log => .ok .log
  | .notify => .ok .notify
  | .killProcess => .ok .killProcess
  | .other _ => .error "invalid action, cannot use in rule".toList

inductive ScmpCompareOp
  | notEqual
  | less
  | lessOrEqual
  | equal
  | greaterEqual
  | greater
  | maskedEqual
deriving DecidableEq

structure ScmpCondition where
  argument : UInt64
  op : ScmpCompareOp
  operand1 : UInt64
  operand2 : UInt64
deriving DecidableEq

def getOperator : Operator → Except Text ScmpCompareOp
  | .equalTo => .ok .equal
  | .notEqualTo => .ok .notEqual
  | .greaterThan => .ok .greater
  | .greaterThanOrEqualTo => .ok .greaterEqual
  | .lessThan => .ok .less
  | .lessThanOrEqualTo => .ok .lessOrEqual
  | .maskEqualTo => .ok .maskedEqual
  | .other _ => .error "invalid operator, cannot use in rule".toList

def makeCondition (arg : UInt64) (comparison : ScmpCompareOp) (operand1 operand2 : UInt64) :
    Except Text ScmpCondition :=
  if 5 < arg then
    .error ("syscalls only have up to 6 arguments (".toList ++ Nat.toDigits 10 arg.toNat ++
      " given)".toList)
  else .ok ⟨arg, comparison, operand1, operand2⟩

def getCondition : Option Arg → Except Text ScmpCondition
  | none => .error "cannot convert nil to syscall condition".toList
  | some arg =>
      match getOperator arg.op with
      | .error err => .error err
      | .ok op => makeCondition arg.index op arg.value arg.valueTwo

def syscallMaxArguments : Nat := 6

def readConditions :
    List (Option Arg) → List Nat → List ScmpCondition → Except Text (List Nat × List ScmpCondition)
  | [], argCounts, conditions => .ok (argCounts, conditions)
  | arg :: rest, argCounts, conditions =>
      match getCondition arg with
      | .error err => .error err
      | .ok cond =>
          readConditions rest (argCounts.modify cond.argument.toNat (· + 1))
            (conditions ++ [cond])

def conditionSets (args : List (Option Arg)) : Except Text (List (List ScmpCondition)) :=
  if args = [] then .ok [[]]
  else
    match readConditions args (List.replicate syscallMaxArguments 0) [] with
    | .error err => .error err
    | .ok (argCounts, conditions) =>
        .ok (if argCounts.any (1 < ·) then conditions.map ([·]) else [conditions])

structure FilterRule where
  call : ScmpSyscall
  action : BitVec 32
  conds : List ScmpCondition
deriving DecidableEq

/-- `libseccomp.ScmpFilter`. -/
structure Filter where
  defaultAction : BitVec 32
  archs : List ScmpArch
  logBit : Bool
  ssb : Bool
  optimize : Nat
  noNewPrivsBit : Bool
  rules : List FilterRule
deriving DecidableEq

structure Library where
  /-- The level of `GetAPI`, whose error is ignored. -/
  api : Nat
  getArchFromString : Text → Except Text ScmpArch
  getSyscallFromName : Text → Except Text ScmpSyscall
  newFilter : BitVec 32 → Except Text Unit
  addArch : Filter → ScmpArch → Except Text Unit
  setLogBit : Filter → Except Text Unit
  setSSB : Filter → Except Text Unit
  setOptimize : Filter → Except Text Unit
  setNoNewPrivsBit : Filter → Except Text Unit
  addRule : Filter → FilterRule → Except Text Unit
  patchAndLoad : Configs.Seccomp → Filter → Except Text Int

def wrap {α : Type} (what : Text) : Except Text α → Except (Fault Text) α
  | .error err => .error (.error (what ++ err))
  | .ok a => .ok a

section Model

variable (lib : Library)

def newFilter (defaultAction : ScmpAction) : Except Text Filter := do
  lib.newFilter (toNative defaultAction)
  .ok ⟨toNative defaultAction, [], false, false, 0, true, []⟩

def addArch (filter : Filter) (arch : Text) : Except (Fault Text) Filter := do
  let scmpArch ← wrap "error validating Seccomp architecture: ".toList (lib.getArchFromString arch)
  wrap "error adding architecture to seccomp filter: ".toList (lib.addArch filter scmpArch)
  .ok { filter with archs := filter.archs ++ [scmpArch] }

def flagTsync : Text := "SECCOMP_FILTER_FLAG_TSYNC".toList
def flagLog : Text := "SECCOMP_FILTER_FLAG_LOG".toList
def flagSpecAllow : Text := "SECCOMP_FILTER_FLAG_SPEC_ALLOW".toList

def setFlag (filter : Filter) (flag : Text) : Except (Fault Text) Filter :=
  if flag = flagTsync then .ok filter
  else if flag = flagLog then do
    wrap "error adding log flag to seccomp filter: ".toList (lib.setLogBit filter)
    .ok { filter with logBit := true }
  else if flag = flagSpecAllow then do
    wrap "error adding SSB flag to seccomp filter: ".toList (lib.setSSB filter)
    .ok { filter with ssb := true }
  else .error (.error ("seccomp flag ".toList ++ flag ++ " is not known to runc".toList))

def optimizeFor (rules : Nat) (filter : Filter) : Filter :=
  if 32 < rules then
    match lib.setOptimize filter with
    | .error _ => filter
    | .ok () => { filter with optimize := 2 }
  else filter

def addRule (filter : Filter) (rule : FilterRule) : Except Text Filter := do
  lib.addRule filter rule
  .ok { filter with rules := filter.rules ++ [rule] }

def addRuleErr (call : Syscall) : Text :=
  (if call.args = [] then "error adding seccomp filter rule for syscall ".toList
    else "error adding seccomp rule for syscall ".toList) ++ call.name ++ ": ".toList

def matchCall (defAct : ScmpAction) (filter : Filter) : Option Syscall →
    Except (Fault Text) Filter
  | none => .error (.error "cannot use nil as syscall to block".toList)
  | some call =>
      if call.name.length = 0 then
        .error (.error "empty string is not a valid syscall".toList)
      else do
        let callAct ← wrap "action in seccomp profile is invalid: ".toList
          (getAction call.action call.errnoRet)
        if callAct = defAct then .ok filter
        else
          match lib.getSyscallFromName call.name with
          | .error _ => .ok filter
          | .ok callNum => do
              let sets ← wrap ("error creating seccomp syscall condition for syscall ".toList ++
                call.name ++ ": ".toList) (conditionSets call.args)
              wrap (addRuleErr call)
                (sets.foldlM (fun filter conds => addRule lib filter
                  ⟨callNum, toNative callAct, conds⟩) filter)

def addCall (defAct : ScmpAction) (filter : Filter) : Option Syscall →
    Except (Fault Text) Filter
  | none => .error (.error "encountered nil syscall while initializing Seccomp".toList)
  | some call => matchCall lib defAct filter (some call)

def checkNotify : List (Option Syscall) → Except (Fault Text) Unit
  | [] => .ok ()
  | none :: _ => .error .panicked
  | some call :: rest =>
      if call.action = .notify then
        if lib.api < 6 then
          .error (.error ("seccomp notify unsupported: API level: got ".toList ++
            Nat.toDigits 10 lib.api ++ (", want at least 6. Please try with " ++
              "libseccomp >= 2.5.0 and Linux >= 5.7").toList))
        else if call.name = "write".toList then
          .error (.error "SCMP_ACT_NOTIFY cannot be used for the write syscall".toList)
        else checkNotify rest
      else checkNotify rest

def buildFilter (config : Configs.Seccomp) (defaultAction : ScmpAction) :
    Except (Fault Text) (Int × Filter) := do
  checkNotify lib config.syscalls
  if defaultAction = .notify then
    .error (.error "SCMP_ACT_NOTIFY cannot be used as default action".toList)
  else do
    let filter ← wrap "error creating filter: ".toList (newFilter lib defaultAction)
    let filter ← config.architectures.foldlM (addArch lib) filter
    let filter ← config.flags.foldlM (setFlag lib) filter
    let filter := optimizeFor lib config.syscalls.length filter
    wrap "error setting no new privileges: ".toList (lib.setNoNewPrivsBit filter)
    let filter ← config.syscalls.foldlM (addCall lib defaultAction)
      { filter with noNewPrivsBit := false }
    let seccompFd ← wrap "error loading seccomp filter into kernel: ".toList
      (lib.patchAndLoad config filter)
    .ok (seccompFd, filter)

def initSeccomp : Option Configs.Seccomp → Except (Fault Text) (Int × Filter)
  | none => .error (.error "cannot initialize Seccomp - nil config passed".toList)
  | some config =>
      match getAction config.defaultAction config.defaultErrnoRet with
      | .error _ => .error (.error "error initializing seccomp - invalid default action".toList)
      | .ok defaultAction => buildFilter lib config defaultAction

end Model

namespace ScmpAction

theorem getLsbD_mask (i : Nat) : (0xFFFF : BitVec 64).getLsbD i = decide (i < 16) := by
  have hmask : (0xFFFF : BitVec 64) = (BitVec.allOnes 16).setWidth 64 := by decide
  rw [hmask, BitVec.getLsbD_setWidth, BitVec.getLsbD_allOnes]
  by_cases hi : i < 16
  · simp [hi, show i < 64 by omega]
  · simp [hi]

theorem low_half {a : ScmpAction} (ha : a &&& 0xFFFF = a) (x : BitVec 64) :
    (a ||| (x <<< 16)) &&& 0xFFFF = a := by
  refine BitVec.eq_of_getLsbD_eq fun i hi => ?_
  have hbit : (a.getLsbD i && decide (i < 16)) = a.getLsbD i := by
    rw [← getLsbD_mask, ← BitVec.getLsbD_and, ha]
  rw [BitVec.getLsbD_and, BitVec.getLsbD_or, BitVec.getLsbD_shiftLeft, getLsbD_mask]
  by_cases hlow : i < 16
  · simp [hlow]
  · rw [← hbit]
    simp [hlow]

theorem high_half {a : ScmpAction} (ha : a &&& 0xFFFF = a) (code : BitVec 16) :
    (a ||| ((code.signExtend 64 &&& 0xFFFF) <<< 16)).setWidth 32 >>> 16 = code.setWidth 32 := by
  refine BitVec.eq_of_getLsbD_eq fun i hi => ?_
  have hbit : a.getLsbD (16 + i) = false := by
    rw [← ha, BitVec.getLsbD_and, getLsbD_mask]
    simp
  rw [BitVec.getLsbD_ushiftRight, BitVec.getLsbD_setWidth, BitVec.getLsbD_or, hbit,
    BitVec.getLsbD_shiftLeft, BitVec.getLsbD_and, BitVec.getLsbD_signExtend, getLsbD_mask,
    BitVec.getLsbD_setWidth]
  by_cases hlow : i < 16
  · simp [hlow, hi, show 16 + i < 32 by omega, show 16 + i < 64 by omega, show i < 64 by omega]
  · simp [hlow, BitVec.getLsbD_of_ge code i (by omega)]

theorem toNative_setReturnCode_errno (code : BitVec 16) :
    toNative (setReturnCode errno code) = 0x00050000 ||| code.setWidth 32 := by
  have hcode : setReturnCode errno code = errno ||| ((code.signExtend 64 &&& 0xFFFF) <<< 16) :=
    if_pos (by decide)
  rw [hcode, toNative, low_half (by decide), if_neg (by decide), if_neg (by decide),
    if_neg (by decide), if_pos rfl, high_half (by decide)]

theorem toNative_setReturnCode_trace (code : BitVec 16) :
    toNative (setReturnCode trace code) = 0x7FF00000 ||| code.setWidth 32 := by
  have hcode : setReturnCode trace code = trace ||| ((code.signExtend 64 &&& 0xFFFF) <<< 16) :=
    if_pos (by decide)
  rw [hcode, toNative, low_half (by decide), if_neg (by decide), if_neg (by decide),
    if_neg (by decide), if_neg (by decide), if_pos rfl, high_half (by decide)]

end ScmpAction

def retAction : Action → Option (BitVec 32)
  | .errno => some 0x00050000
  | .trace => some 0x7FF00000
  | _ => none

def Carries (ret : BitVec 32) (v : UInt64) (native : BitVec 32) : Prop :=
  native &&& 0xFFFF0000 = ret ∧ (native &&& 0xFFFF).toNat = v.toNat

instance (ret : BitVec 32) (v : UInt64) (native : BitVec 32) : Decidable (Carries ret v native) :=
  inferInstanceAs (Decidable (_ ∧ _))

theorem masks {ret : BitVec 32} (hret : ret &&& 0xFFFF0000 = ret) (code : BitVec 16) :
    (ret ||| code.setWidth 32) &&& 0xFFFF0000 = ret ∧
      (ret ||| code.setWidth 32) &&& 0xFFFF = code.setWidth 32 := by
  have hmask : (0xFFFF : BitVec 32) = (BitVec.allOnes 16).setWidth 32 := by decide
  have hdisjoint : (0xFFFF : BitVec 32) &&& 0xFFFF0000 = 0 := by decide
  have hcode : code.setWidth 32 &&& (0xFFFF : BitVec 32) = code.setWidth 32 := by
    rw [hmask, ← BitVec.setWidth_and, BitVec.and_allOnes]
  have hcode' : code.setWidth 32 &&& (0xFFFF0000 : BitVec 32) = 0 := by
    rw [← hcode, BitVec.and_assoc, hdisjoint]
    exact BitVec.and_zero
  have hret' : ret &&& 0xFFFF = 0 := by
    rw [← hret, BitVec.and_assoc, BitVec.and_comm (0xFFFF0000 : BitVec 32), hdisjoint]
    exact BitVec.and_zero
  constructor
  · rw [BitVec.and_or_distrib_right, hret, hcode']
    exact BitVec.or_zero
  · rw [BitVec.and_or_distrib_right, hret', hcode]
    exact BitVec.zero_or

theorem carries_int16_iff {ret : BitVec 32} (hret : ret &&& 0xFFFF0000 = ret) (v : UInt64) :
    Carries ret v (ret ||| (int16 v).setWidth 32) ↔ v.toNat < 65536 := by
  obtain ⟨haction, hdata⟩ := masks hret (int16 v)
  have hvalue : ((int16 v).setWidth 32).toNat = v.toNat % 65536 := by
    have hlt : v.toNat % 65536 < 2 ^ 32 := (Nat.mod_lt _ (by decide)).trans (by decide)
    rw [int16, BitVec.toNat_setWidth, BitVec.toNat_setWidth]
    exact Nat.mod_eq_of_lt hlt
  rw [Carries, haction, hdata, hvalue]
  exact ⟨fun ⟨_, heq⟩ => heq ▸ Nat.mod_lt _ (by decide), fun hlt => ⟨rfl, Nat.mod_eq_of_lt hlt⟩⟩

theorem getAction_carries_iff {act : Action} {ret : BitVec 32} (hact : retAction act = some ret)
    (v : UInt64) :
    ∃ a, getAction act (some v) = .ok a ∧ (Carries ret v (toNative a) ↔ v.toNat < 65536) := by
  cases act with
  | errno =>
    cases hact
    refine ⟨_, rfl, ?_⟩
    rw [ScmpAction.toNative_setReturnCode_errno]
    exact carries_int16_iff (by decide) v
  | trace =>
    cases hact
    refine ⟨_, rfl, ?_⟩
    rw [ScmpAction.toNative_setReturnCode_trace]
    exact carries_int16_iff (by decide) v
  | _ => cases hact

section Proofs

variable {lib : Library} {filter filter' : Filter} {defAct : ScmpAction}

theorem wrap_eq_ok {α : Type} {what : Text} {x : Except Text α} {a : α} (h : wrap what x = .ok a) :
    x = .ok a := by
  cases x with
  | error err => cases h
  | ok b =>
    cases h
    rfl

theorem readConditions_length {args : List (Option Arg)} {argCounts argCounts' : List Nat}
    {conditions conditions' : List ScmpCondition}
    (h : readConditions args argCounts conditions = .ok (argCounts', conditions')) :
    conditions'.length = conditions.length + args.length := by
  induction args generalizing argCounts conditions with
  | nil =>
    cases h
    rfl
  | cons arg rest ih =>
    rw [readConditions] at h
    cases hcond : getCondition arg with
    | error err =>
      rw [hcond] at h
      cases h
    | ok cond =>
      rw [hcond] at h
      rw [ih h, List.length_append, List.length_cons, List.length_cons, List.length_nil]
      omega

theorem conditionSets_ne_nil {args : List (Option Arg)} {sets : List (List ScmpCondition)}
    (h : conditionSets args = .ok sets) : sets ≠ [] := by
  rw [conditionSets] at h
  by_cases hargs : args = []
  · rw [if_pos hargs] at h
    cases h
    exact List.cons_ne_nil _ _
  rw [if_neg hargs] at h
  cases hread : readConditions args (List.replicate syscallMaxArguments 0) [] with
  | error err =>
    rw [hread] at h
    cases h
  | ok result =>
    obtain ⟨argCounts, conditions⟩ := result
    rw [hread] at h
    cases h
    split
    · intro hnil
      have hlength := readConditions_length hread
      rw [List.map_eq_nil_iff.mp hnil, List.length_nil, Nat.zero_add] at hlength
      exact hargs (List.eq_nil_of_length_eq_zero hlength.symm)
    · exact List.cons_ne_nil _ _

def rulesOf (lib : Library) (defAct : ScmpAction) (call : Syscall) : List FilterRule :=
  match getAction call.action call.errnoRet with
  | .error _ => []
  | .ok callAct =>
      if callAct = defAct then []
      else
        match lib.getSyscallFromName call.name, conditionSets call.args with
        | .ok callNum, .ok sets => sets.map fun conds => ⟨callNum, toNative callAct, conds⟩
        | _, _ => []

theorem addRules_eq_ok {rules : List FilterRule}
    (h : rules.foldlM (addRule lib) filter = .ok filter') :
    filter' = { filter with rules := filter.rules ++ rules } := by
  refine foldlM_keeps (fun done f => f = { filter with rules := filter.rules ++ done }) h ?_ ?_
  · rw [List.append_nil]
  · rintro done rule - f f' - rfl hadd -
    obtain ⟨_, -, hadd⟩ := bind_eq_ok hadd
    cases hadd
    rw [List.append_assoc]

theorem mem_rulesOf {call : Syscall} {rule : FilterRule} (h : rule ∈ rulesOf lib defAct call) :
    ∃ callAct, getAction call.action call.errnoRet = .ok callAct ∧
      rule.action = toNative callAct := by
  rw [rulesOf] at h
  split at h
  · cases h
  case h_2 callAct hact =>
      split at h
      · cases h
      split at h
      · obtain ⟨conds, -, rfl⟩ := List.mem_map.mp h
        exact ⟨callAct, hact, rfl⟩
      · cases h

def InFilter (lib : Library) (defAct : ScmpAction) (call : Syscall) : Prop :=
  ∀ callNum, lib.getSyscallFromName call.name = .ok callNum →
    getAction call.action call.errnoRet = .ok defAct ∨ rulesOf lib defAct call ≠ []

theorem matchCall_ok {call : Syscall} (h : matchCall lib defAct filter (some call) = .ok filter') :
    filter' = { filter with rules := filter.rules ++ rulesOf lib defAct call } ∧
      InFilter lib defAct call := by
  rw [matchCall] at h
  split at h
  · cases h
  obtain ⟨callAct, hact, h⟩ := bind_eq_ok h
  rw [InFilter, rulesOf, wrap_eq_ok hact]
  dsimp only
  by_cases hsame : callAct = defAct
  · rw [if_pos hsame] at h ⊢
    cases h
    rw [List.append_nil]
    exact ⟨rfl, fun _ _ => .inl (congrArg _ hsame)⟩
  rw [if_neg hsame] at h ⊢
  cases hname : lib.getSyscallFromName call.name with
  | error err =>
    rw [hname] at h
    cases h
    rw [List.append_nil]
    exact ⟨rfl, nofun⟩
  | ok callNum =>
    rw [hname] at h
    obtain ⟨sets, hsets, h⟩ := bind_eq_ok h
    have hfold : (sets.map fun conds => (⟨callNum, toNative callAct, conds⟩ : FilterRule)).foldlM
        (addRule lib) filter = .ok filter' := by
      rw [List.foldlM_map]
      exact wrap_eq_ok h
    rw [wrap_eq_ok hsets]
    refine ⟨addRules_eq_ok hfold, fun _ _ => .inr ?_⟩
    exact fun hnil => conditionSets_ne_nil (wrap_eq_ok hsets) (List.map_eq_nil_iff.mp hnil)

structure Rules (lib : Library) (defAct : ScmpAction) (filter : Filter)
    (entries : List (Option Syscall)) (filter' : Filter) : Prop where
  noNil : none ∉ entries
  defaultAction : filter'.defaultAction = filter.defaultAction
  rules : filter'.rules = filter.rules ++ entries.reduceOption.flatMap (rulesOf lib defAct)
  inFilter : ∀ call, some call ∈ entries → InFilter lib defAct call

theorem addCalls_ok {entries : List (Option Syscall)}
    (h : entries.foldlM (addCall lib defAct) filter = .ok filter') :
    Rules lib defAct filter entries filter' := by
  refine foldlM_keeps (Rules lib defAct filter) h ?_ ?_
  · exact ⟨nofun, rfl, (List.append_nil _).symm, nofun⟩
  · intro done entry _ f f' _ hdone hadd _
    cases entry with
    | none => cases hadd
    | some call =>
      obtain ⟨rfl, hin⟩ := matchCall_ok hadd
      refine ⟨?_, hdone.defaultAction, ?_, ?_⟩
      · simp [hdone.noNil]
      · dsimp only
        rw [hdone.rules, List.reduceOption_append, List.flatMap_append, List.append_assoc]
        simp [List.reduceOption]
      · intro other hother
        rcases List.mem_append.mp hother with hother | hother
        · exact hdone.inFilter other hother
        · cases List.mem_singleton.mp hother
          exact hin

def SameRules (filter filter' : Filter) : Prop :=
  filter'.defaultAction = filter.defaultAction ∧ filter'.rules = filter.rules

theorem addArch_sameRules {arch : Text} (h : addArch lib filter arch = .ok filter') :
    SameRules filter filter' := by
  obtain ⟨scmpArch, -, h⟩ := bind_eq_ok h
  obtain ⟨_, -, h⟩ := bind_eq_ok h
  cases h
  exact ⟨rfl, rfl⟩

theorem setFlag_sameRules {flag : Text} (h : setFlag lib filter flag = .ok filter') :
    SameRules filter filter' := by
  rw [setFlag] at h
  split at h
  · cases h
    exact ⟨rfl, rfl⟩
  split at h
  · obtain ⟨_, -, h⟩ := bind_eq_ok h
    cases h
    exact ⟨rfl, rfl⟩
  split at h
  · obtain ⟨_, -, h⟩ := bind_eq_ok h
    cases h
    exact ⟨rfl, rfl⟩
  · cases h

theorem optimizeFor_sameRules (lib : Library) (n : Nat) (filter : Filter) :
    SameRules filter (optimizeFor lib n filter) := by
  rw [optimizeFor]
  split
  · split <;> exact ⟨rfl, rfl⟩
  · exact ⟨rfl, rfl⟩

theorem foldlM_sameRules {α : Type} {f : Filter → α → Except (Fault Text) Filter} {xs : List α}
    (hf : ∀ filter x filter', f filter x = .ok filter' → SameRules filter filter')
    (h : xs.foldlM f filter = .ok filter') : SameRules filter filter' := by
  refine foldlM_keeps (fun _ => SameRules filter) h ⟨rfl, rfl⟩ ?_
  rintro - x - g g' - ⟨hdefault, hrules⟩ hstep -
  obtain ⟨hdefault', hrules'⟩ := hf g x g' hstep
  exact ⟨hdefault'.trans hdefault, hrules'.trans hrules⟩

variable {config : Configs.Seccomp} {fd : Int}

theorem newFilter_eq_ok (h : newFilter lib defAct = .ok filter) :
    filter.defaultAction = toNative defAct ∧ filter.rules = [] := by
  obtain ⟨_, -, h⟩ := bind_eq_ok h
  cases h
  exact ⟨rfl, rfl⟩

theorem initSeccomp_ok (h : initSeccomp lib (some config) = .ok (fd, filter)) :
    ∃ defAct, getAction config.defaultAction config.defaultErrnoRet = .ok defAct ∧
      filter.defaultAction = toNative defAct ∧
      filter.rules = config.syscalls.reduceOption.flatMap (rulesOf lib defAct) ∧
      ∀ call, some call ∈ config.syscalls → InFilter lib defAct call := by
  rw [initSeccomp] at h
  cases hact : getAction config.defaultAction config.defaultErrnoRet with
  | error err =>
    rw [hact] at h
    cases h
  | ok defAct =>
    rw [hact] at h
    refine ⟨defAct, rfl, ?_⟩
    obtain ⟨_, -, h⟩ := bind_eq_ok h
    split at h
    · cases h
    obtain ⟨f₀, hnew, h⟩ := bind_eq_ok h
    obtain ⟨f₁, harchs, h⟩ := bind_eq_ok h
    obtain ⟨f₂, hflags, h⟩ := bind_eq_ok h
    obtain ⟨_, -, h⟩ := bind_eq_ok h
    obtain ⟨f₃, hcalls, h⟩ := bind_eq_ok h
    obtain ⟨_, -, h⟩ := bind_eq_ok h
    cases h
    obtain ⟨hdefault₀, hrules₀⟩ := newFilter_eq_ok (wrap_eq_ok hnew)
    obtain ⟨hdefault₁, hrules₁⟩ := foldlM_sameRules (fun _ _ _ => addArch_sameRules) harchs
    obtain ⟨hdefault₂, hrules₂⟩ := foldlM_sameRules (fun _ _ _ => setFlag_sameRules) hflags
    obtain ⟨hdefault₃, hrules₃⟩ := optimizeFor_sameRules lib config.syscalls.length f₂
    have hadded := addCalls_ok hcalls
    refine ⟨?_, ?_, hadded.inFilter⟩
    · rw [hadded.defaultAction, hdefault₃, hdefault₂, hdefault₁, hdefault₀]
    · rw [hadded.rules, hrules₃, hrules₂, hrules₁, hrules₀, List.nil_append]

def installedFor (lib : Library) (defAct : ScmpAction) (filter : Filter) (call : Syscall) :
    List (BitVec 32) :=
  match rulesOf lib defAct call with
  | [] => [filter.defaultAction]
  | rules => rules.map FilterRule.action

theorem forall_installedFor_iff
    {call : Syscall} {callNum : ScmpSyscall} {callAct : ScmpAction} {P : BitVec 32 → Prop}
    (hdefault : filter.defaultAction = toNative defAct) (hin : InFilter lib defAct call)
    (hname : lib.getSyscallFromName call.name = .ok callNum)
    (hact : getAction call.action call.errnoRet = .ok callAct) :
    (∀ a ∈ installedFor lib defAct filter call, P a) ↔ P (toNative callAct) := by
  have hsame : ∀ rule ∈ rulesOf lib defAct call, rule.action = toNative callAct := by
    intro rule hrule
    obtain ⟨callAct', hact', haction⟩ := mem_rulesOf hrule
    rw [hact] at hact'
    cases hact'
    exact haction
  rw [installedFor]
  split
  case h_1 hnone =>
      -- nothing was added, so the rule is for the default action
      have hdef := (hin callNum hname).resolve_right fun hne => hne hnone
      rw [hact] at hdef
      cases hdef
      rw [hdefault, List.forall_mem_singleton]
  case h_2 hsome =>
      cases hrules : rulesOf lib defAct call with
      | nil => exact absurd hrules hsome
      | cons rule rest =>
        rw [hrules] at hsame
        constructor
        · intro hall
          have hfirst := hall rule.action (List.mem_map_of_mem List.mem_cons_self)
          rwa [hsame rule List.mem_cons_self] at hfirst
        · intro hP a ha
          obtain ⟨r, hr, rfl⟩ := List.mem_map.mp ha
          rwa [hsame r hr]

/-- The values of a configuration arrive exactly if they have 16 bits. -/
theorem initSeccomp_carries_iff (lib : Library) (config : Configs.Seccomp) (fd : Int)
    (filter : Filter) (h : initSeccomp lib (some config) = .ok (fd, filter)) :
    (∀ ret v, retAction config.defaultAction = some ret → config.defaultErrnoRet = some v →
      (Carries ret v filter.defaultAction ↔ v.toNat < 65536)) ∧
    ∃ defAct, getAction config.defaultAction config.defaultErrnoRet = .ok defAct ∧
      filter.rules = config.syscalls.reduceOption.flatMap (rulesOf lib defAct) ∧
      ∀ call, some call ∈ config.syscalls →
        ∀ callNum, lib.getSyscallFromName call.name = .ok callNum →
        ∀ ret v, retAction call.action = some ret → call.errnoRet = some v →
          ((∀ a ∈ installedFor lib defAct filter call, Carries ret v a) ↔ v.toNat < 65536) := by
  obtain ⟨defAct, hdef, hdefault, hrules, hin⟩ := initSeccomp_ok h
  constructor
  · intro ret v hret hv
    obtain ⟨a, ha, hiff⟩ := getAction_carries_iff hret v
    rw [hv, ha] at hdef
    cases hdef
    rw [hdefault]
    exact hiff
  · refine ⟨defAct, hdef, hrules, fun call hcall callNum hname ret v hret hv => ?_⟩
    obtain ⟨a, ha, hiff⟩ := getAction_carries_iff hret v
    rw [← hv] at ha
    rw [forall_installedFor_iff hdefault (hin call hcall) hname ha]
    exact hiff

def mkdirLibrary : Library where
  api := 6
  getArchFromString := fun _ => .ok .archAMD64
  getSyscallFromName := fun name =>
    if name = "mkdir".toList then .ok 83 else .error "no such syscall".toList
  newFilter := fun _ => .ok ()
  addArch := fun _ _ => .ok ()
  setLogBit := fun _ => .ok ()
  setSSB := fun _ => .ok ()
  setOptimize := fun _ => .ok ()
  setNoNewPrivsBit := fun _ => .ok ()
  addRule := fun _ _ => .ok ()
  patchAndLoad := fun _ _ => .ok (-1)

def denyMkdir (v : UInt64) : Configs.Seccomp where
  defaultAction := .allow
  architectures := ["amd64".toList]
  flags := []
  syscalls := [some ⟨"mkdir".toList, .errno, some v, []⟩]
  defaultErrnoRet := none

theorem initSeccomp_carries_enosys :
    ∃ fd filter, initSeccomp mkdirLibrary (some (denyMkdir 38)) = .ok (fd, filter) ∧
      ∀ a ∈ installedFor mkdirLibrary .allow filter ⟨"mkdir".toList, .errno, some 38, []⟩,
        Carries 0x00050000 38 a := by
  refine ⟨_, _, rfl, ?_⟩
  obtain ⟨-, defAct, hdef, -, hcalls⟩ := initSeccomp_carries_iff mkdirLibrary (denyMkdir 38) _ _ rfl
  cases hdef
  exact (hcalls _ List.mem_cons_self 83 rfl _ 38 rfl rfl).mpr (by decide)

theorem initSeccomp_denial_succeeds :
    ∃ fd filter, initSeccomp mkdirLibrary (some (denyMkdir 65536)) = .ok (fd, filter) ∧
      filter.rules = [⟨83, 0x00050000, []⟩] ∧
      ¬ Carries 0x00050000 65536 0x00050000 ∧ Carries 0x00050000 0 0x00050000 :=
  ⟨_, _, rfl, by decide, by decide, by decide⟩

end Proofs

end Runc.Seccomp
