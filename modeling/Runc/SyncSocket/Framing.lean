import Runc.SyncSocket.Model

/-!
# Messages arrive as they were sent

The calls of `doReadSync` are to return the messages that were sent, each with its file,
and then the end of the stream; a message with an error is to be returned as that error.
-/

namespace Runc.SyncSocket

open Lib

structure Argument where
  value : Json
  numbersOk : value.NumbersOk
  utf8 : value.Utf8

inductive Message
  | plain (type : Text) (flags : BitVec 64) (arg : Option Argument) (file : Option File)
      (h : type ≠ procError)
  | error (flags : BitVec 64) (text : Text)

def Message.sync : Message → SyncT
  | .plain type flags arg file _ => ⟨type, flags, arg.map Argument.value, file⟩
  | .error flags text => ⟨procError, flags, some (InitError.value ⟨text⟩), none⟩

def Message.expected : Message → Result
  | .plain type flags arg file h => .ok (Message.plain type flags arg file h).sync.withFlag
  | .error _ text => .error (.initError ⟨text⟩)

structure Sent where
  message : Message
  answers : Answers
  success : (doWriteSync answers message.sync).2 = .ok ()

def Sent.packets (s : Sent) : List Packet :=
  (doWriteSync s.answers s.message.sync).1

def outcomes (sent : List Sent) : List Result :=
  sent.map (fun s => s.message.expected) ++ [.error .eof]

/-- In every run the calls of `doReadSync` return that. -/
def Delivered (sent : List Sent) : Prop :=
  Channel.Yields doReadSync (sent.flatMap Sent.packets) (outcomes sent)

def Message.Faithful : Message → Prop
  | .plain type _ arg file _ =>
      ValidUtf8 type ∧
        (∀ v ∈ arg, v.value ≠ .null ∧ v.value.depth < maxNestingDepth) ∧
          ∀ f ∈ file, f.name ≠ []
  | .error _ text => ValidUtf8 text

def payload (name : Text) : Text :=
  if name = [] then ['\x00'] else name

def attached (file : Option File) : List Packet :=
  file.toList.map fun f => ⟨payload f.name, some f.description⟩

def framed (sync : SyncT) : List Packet :=
  ⟨sync.withFlag.value.render, none⟩ :: attached sync.file

theorem withFlag_eq (sync : SyncT) :
    sync.withFlag = ⟨sync.type, sync.withFlag.flags, sync.arg, sync.file⟩ := by
  obtain ⟨type, flags, arg, file⟩ := sync
  cases file with
  | none => rfl
  | some f => rfl

theorem withFlag_arg (sync : SyncT) : sync.withFlag.arg = sync.arg := by
  rw [withFlag_eq]

theorem sendAttached_ok {answer : Option Text} {type : Text} {file : Option File}
    (h : (sendAttached answer type file).2 = .ok ()) :
    (∀ f ∈ file, f.name.length < maxNameLen) ∧
      (sendAttached answer type file).1 = attached file := by
  cases file with
  | none => exact ⟨fun _ hf => (nomatch hf), rfl⟩
  | some file =>
    by_cases hlong : maxNameLen ≤ file.name.length
    · rw [sendAttached, sendFile, if_pos hlong] at h
      cases h
    · rw [sendAttached, sendFile, if_neg hlong] at h ⊢
      cases answer with
      | some err => cases h
      | none =>
        refine ⟨?_, rfl⟩
        rintro f ⟨⟩
        exact Nat.not_le.mp hlong

variable {sync : SyncT}

theorem doWriteSync_ok {answers : Answers} (h : (doWriteSync answers sync).2 = .ok ()) :
    argDepth sync.arg ≤ maxNestingDepth ∧ (∀ f ∈ sync.file, f.name.length < maxNameLen) ∧
      (doWriteSync answers sync).1 = framed sync := by
  unfold doWriteSync at h ⊢
  by_cases hdeep : argDepth sync.arg ≤ maxNestingDepth
  · rw [SyncT.marshal, withFlag_arg, if_pos hdeep] at h ⊢
    dsimp only at h ⊢
    cases hwrite : answers.write with
    | some err =>
      rw [hwrite] at h
      cases h
    | none =>
      rw [hwrite] at h
      obtain ⟨hname, hpackets⟩ := sendAttached_ok h
      refine ⟨hdeep, hname, ?_⟩
      dsimp only
      rw [hpackets]
      rfl
  · rw [SyncT.marshal, withFlag_arg, if_neg hdeep] at h
    cases h

theorem flags_and_withFlag (sync : SyncT) :
    sync.withFlag.flags &&& syncFlagHasFd ≠ 0 ↔ sync.file ≠ none := by
  unfold SyncT.withFlag
  cases sync.file with
  | none =>
    have hclear : sync.flags &&& ~~~syncFlagHasFd &&& syncFlagHasFd = 0 := by
      rw [BitVec.and_assoc, BitVec.not_and_self]
      exact BitVec.and_zero
    exact ⟨fun h => absurd hclear h, fun h => absurd rfl h⟩
  | some f =>
    have hset : (sync.flags &&& ~~~syncFlagHasFd ||| syncFlagHasFd) &&& syncFlagHasFd =
        syncFlagHasFd := by
      ext i hi
      rw [BitVec.getElem_and, BitVec.getElem_or]
      cases syncFlagHasFd[i] with
      | false => exact Bool.and_false _
      | true =>
        rw [Bool.or_true]
        rfl
    dsimp only
    rw [hset]
    exact ⟨fun _ h => (nomatch h), fun _ => by decide⟩

theorem intLiteral_ne_nil (n : Int) : intLiteral n ≠ [] := by
  intro hnil
  have hnumber := isNumber_intLiteral n
  rw [hnil] at hnumber
  cases hnumber

theorem value_numbersOk (h : ∀ v ∈ sync.arg, v.NumbersOk) : sync.value.NumbersOk := by
  refine ⟨trivial, ⟨intLiteral_ne_nil _, isNumber_intLiteral _⟩, ?_⟩
  cases harg : sync.arg with
  | none => trivial
  | some v => exact ⟨h v harg, trivial⟩

theorem value_depth (sync : SyncT) : sync.value.depth = argDepth sync.arg + 1 := by
  cases harg : sync.arg with
  | none =>
    rw [SyncT.value, harg]
    rfl
  | some v =>
    have hvalue : sync.value.depth = max 0 (max 0 (max v.depth 0)) + 1 := by
      rw [SyncT.value, harg]
      rfl
    rw [hvalue, argDepth]
    omega

def SyncT.decoded (sync : SyncT) : SyncT :=
  ⟨carried sync.type, sync.flags, (sync.arg.map Json.carried).bind storedArg, none⟩

theorem store_type (sync : SyncT) (s : Text) :
    sync.store "type".toList (.str s) = some { sync with type := s } := by
  rw [SyncT.store, if_pos (by decide)]
  rfl

theorem store_flags (sync : SyncT) (flags : BitVec 64) :
    sync.store "flags".toList (.num (intLiteral flags.toInt)) =
      some { sync with flags := flags } := by
  rw [SyncT.store, if_neg (by decide), if_pos (by decide), storeInt,
    readInt_intLiteral flags.le_toInt flags.toInt_lt, Option.map_some, BitVec.ofInt_toInt,
    Option.map_some]

theorem store_arg (sync : SyncT) (v : Json) :
    sync.store "arg".toList v = some { sync with arg := storedArg v } := by
  rw [SyncT.store, if_neg (by decide), if_neg (by decide), if_pos (by decide)]

theorem decode_argMember (sync : SyncT) (harg : sync.arg = none) (arg : Option Json) :
    (argMember arg).carried.decode SyncT.store sync =
      some { sync with arg := (arg.map Json.carried).bind storedArg } := by
  cases arg with
  | none =>
    rw [argMember, Members.carried, Members.decode, Option.map_none, Option.bind_none, ← harg]
  | some v =>
    have hname : carried "arg".toList = "arg".toList := by decide
    rw [argMember, Members.carried, hname, Members.decode, store_arg, Option.bind_some]
    rfl

theorem decode_carried (sync : SyncT) :
    sync.value.carried.decode SyncT.store ⟨[], 0, none, none⟩ = some sync.decoded := by
  have htype : carried "type".toList = "type".toList := by decide
  have hflags : carried "flags".toList = "flags".toList := by decide
  rw [SyncT.value, Json.carried, Members.carried, Members.carried, htype, hflags, Json.carried,
    Json.carried, Json.decode, Members.decode, store_type, Option.bind_some, Members.decode,
    store_flags, Option.bind_some, decode_argMember _ rfl]
  rfl

theorem unmarshalSync_render (h : ∀ v ∈ sync.arg, v.NumbersOk) :
    unmarshalSync sync.value.render =
      within (argDepth sync.arg + 1) maxNestingDepth sync.decoded := by
  rw [unmarshalSync, parse_render (value_numbersOk h), value_depth, within, within]
  by_cases hdeep : argDepth sync.arg + 1 ≤ maxNestingDepth
  · rw [if_pos hdeep, if_pos hdeep, Option.bind_some, decode_carried]
  · rw [if_neg hdeep, if_neg hdeep, Option.bind_none]

theorem run_packet {data : Text} (hdata : 0 < data.length) (rest : List Packet) :
    doReadSync.run (⟨data, none⟩ :: rest) =
      match unmarshalSync data with
      | none => (.error .unmarshal, rest)
      | some sync =>
          if sync.type = procError then (.error (procErrorOf sync.arg), rest)
          else (receiveAttached sync).run rest := by
  rw [doReadSync, readPacket, Reading.run, List.head?_cons]
  dsimp only
  rw [if_neg hdata.ne', Reading.run, List.head?_cons, Option.map_some, List.tail_cons]
  dsimp only
  cases unmarshalSync data with
  | none => rfl
  | some sync =>
    dsimp only
    split
    · rfl
    · rfl

theorem payload_length {name : Text} (h : name.length < maxNameLen) :
    (payload name).length < maxNameLen := by
  unfold payload
  split
  · decide
  · exact h

def received (file : Option File) : Option File :=
  file.map fun f => ⟨payload f.name, f.description⟩

def SyncT.arrived (sync : SyncT) : SyncT :=
  { sync.withFlag.decoded with file := received sync.file }

theorem run_receiveAttached (hname : ∀ f ∈ sync.file, f.name.length < maxNameLen)
    (rest : List Packet) :
    (receiveAttached sync.withFlag.decoded).run (attached sync.file ++ rest) =
      (.ok sync.arrived, rest) := by
  have hflag : sync.withFlag.decoded.flags &&& syncFlagHasFd ≠ 0 ↔ sync.file ≠ none :=
    flags_and_withFlag sync
  unfold receiveAttached SyncT.arrived
  cases hfile : sync.file with
  | none =>
    rw [if_neg fun h => hflag.mp h hfile]
    rfl
  | some f =>
    have hset : sync.withFlag.decoded.flags &&& syncFlagHasFd ≠ 0 :=
      hflag.mpr fun h => by rw [hfile] at h; cases h
    have hrecv : recvFile (some ⟨payload f.name, some f.description⟩) =
        .ok ⟨payload f.name, f.description⟩ :=
      if_neg (Nat.not_le.mpr (payload_length (hname f hfile)))
    rw [if_pos hset, attached, Option.toList_some, List.map_singleton, List.singleton_append,
      Reading.run, List.head?_cons, hrecv]
    rfl

theorem run_framed (hnumbers : ∀ v ∈ sync.arg, v.NumbersOk)
    (hname : ∀ f ∈ sync.file, f.name.length < maxNameLen) (rest : List Packet) :
    doReadSync.run (framed sync ++ rest) =
      if argDepth sync.arg + 1 ≤ maxNestingDepth then
        if sync.arrived.type = procError then
          (.error (procErrorOf sync.arrived.arg), attached sync.file ++ rest)
        else (.ok sync.arrived, rest)
      else (.error .unmarshal, attached sync.file ++ rest) := by
  have hnumbers' : ∀ v ∈ sync.withFlag.arg, v.NumbersOk := by
    rw [withFlag_arg]
    exact hnumbers
  rw [framed, List.cons_append, run_packet (render_pos (value_numbersOk hnumbers')),
    unmarshalSync_render hnumbers', withFlag_arg, within]
  by_cases hdeep : argDepth sync.arg + 1 ≤ maxNestingDepth
  · rw [if_pos hdeep, if_pos hdeep]
    dsimp only
    rw [run_receiveAttached hname]
    rfl
  · rw [if_neg hdeep, if_neg hdeep]

theorem payload_eq_iff (name : Text) : payload name = name ↔ name ≠ [] := by
  unfold payload
  constructor
  · rintro h rfl
    cases h
  · intro h
    exact if_neg h

theorem received_eq_iff (file : Option File) : received file = file ↔ ∀ f ∈ file, f.name ≠ [] := by
  cases file with
  | none => exact ⟨fun _ _ hf => (nomatch hf), fun _ => rfl⟩
  | some f =>
    constructor
    · rintro h _ ⟨⟩
      exact (payload_eq_iff f.name).mp (congrArg File.name (Option.some.inj h))
    · intro h
      rw [received, Option.map_some, (payload_eq_iff f.name).mpr (h f rfl)]

theorem storedArg_eq_iff (v : Json) : storedArg v = some v ↔ v ≠ .null := by
  cases v with
  | null => exact ⟨fun h => (nomatch h), fun h => absurd rfl h⟩
  | bool _ | num _ | str _ | arr _ | obj _ => exact ⟨fun _ h => (nomatch h), fun _ => rfl⟩

theorem arrived_arg_eq_iff (arg : Option Argument) :
    (((arg.map Argument.value).map Json.carried).bind storedArg = arg.map Argument.value) ↔
      ∀ v ∈ arg, v.value ≠ .null := by
  cases arg with
  | none => exact ⟨fun _ _ hv => (nomatch hv), fun _ => rfl⟩
  | some v =>
    rw [Option.map_some, Option.map_some, Json.carried_of_utf8 v.value v.utf8,
      Option.bind_some, storedArg_eq_iff]
    constructor
    · rintro h _ ⟨⟩
      exact h
    · intro h
      exact h v rfl

theorem initError_numbersOk (err : InitError) : err.value.NumbersOk := by
  unfold InitError.value
  split
  · trivial
  · exact ⟨trivial, trivial⟩

theorem sync_numbersOk (m : Message) : ∀ v ∈ m.sync.arg, v.NumbersOk := by
  intro v hv
  cases m with
  | plain type flags arg file h =>
    obtain ⟨a, -, rfl⟩ := Option.mem_map.mp hv
    exact a.numbersOk
  | error flags text =>
    cases hv
    exact initError_numbersOk _

theorem run_packets (s : Sent) (rest : List Packet) :
    doReadSync.run (s.packets ++ rest) =
      if argDepth s.message.sync.arg + 1 ≤ maxNestingDepth then
        if s.message.sync.arrived.type = procError then
          (.error (procErrorOf s.message.sync.arrived.arg), attached s.message.sync.file ++ rest)
        else (.ok s.message.sync.arrived, rest)
      else (.error .unmarshal, attached s.message.sync.file ++ rest) := by
  obtain ⟨-, hname, hpackets⟩ := doWriteSync_ok s.success
  rw [Sent.packets, hpackets, run_framed (sync_numbersOk s.message) hname]

theorem argDepth_le_iff (arg : Option Argument) :
    argDepth (arg.map Argument.value) + 1 ≤ maxNestingDepth ↔
      ∀ v ∈ arg, v.value.depth < maxNestingDepth := by
  cases arg with
  | none => exact ⟨fun _ _ hv => (nomatch hv), fun _ => by decide⟩
  | some v =>
    constructor
    · rintro h _ ⟨⟩
      exact h
    · intro h
      exact h v rfl

theorem arrived_eq_iff (sync : SyncT) :
    sync.arrived = sync.withFlag ↔
      carried sync.type = sync.type ∧
        (sync.arg.map Json.carried).bind storedArg = sync.arg ∧
          received sync.file = sync.file := by
  have harrived : sync.arrived = ⟨carried sync.type, sync.withFlag.flags,
      (sync.arg.map Json.carried).bind storedArg, received sync.file⟩ := by
    rw [SyncT.arrived, SyncT.decoded, withFlag_eq]
  rw [harrived, withFlag_eq]
  constructor
  · intro h
    injection h with htype _ harg hfile
    exact ⟨htype, harg, hfile⟩
  · rintro ⟨htype, harg, hfile⟩
    rw [htype, harg, hfile]

theorem plain_faithful_iff
    {type : Text} {flags : BitVec 64} {arg : Option Argument} {file : Option File}
    {h : type ≠ procError} :
    (Message.plain type flags arg file h).Faithful ↔
      argDepth (Message.plain type flags arg file h).sync.arg + 1 ≤ maxNestingDepth ∧
        (Message.plain type flags arg file h).sync.arrived =
          (Message.plain type flags arg file h).sync.withFlag := by
  rw [arrived_eq_iff]
  change ValidUtf8 type ∧ _ ∧ _ ↔
    argDepth (arg.map Argument.value) + 1 ≤ maxNestingDepth ∧ carried type = type ∧
    ((arg.map Argument.value).map Json.carried).bind storedArg = arg.map Argument.value ∧
      received file = file
  rw [argDepth_le_iff, carried_eq_iff, arrived_arg_eq_iff, received_eq_iff]
  constructor
  · rintro ⟨htype, harg, hfile⟩
    exact ⟨fun v hv => (harg v hv).2, htype, fun v hv => (harg v hv).1, hfile⟩
  · rintro ⟨hdeep, htype, harg, hfile⟩
    exact ⟨htype, fun v hv => ⟨harg v hv, hdeep v hv⟩, hfile⟩

theorem decode_initError (text : Text) :
    (InitError.value ⟨text⟩).carried.decode InitError.store ⟨[]⟩ = some ⟨carried text⟩ := by
  unfold InitError.value
  by_cases hempty : text = []
  · rw [if_pos hempty, hempty]
    rfl
  · have hname : carried "message".toList = "message".toList := by decide
    have hfold : foldName "message".toList = "MESSAGE".toList := by decide
    rw [if_neg hempty, Json.carried, Members.carried, hname, Json.decode, Members.decode,
      InitError.store, if_pos hfold]
    rfl

theorem procErrorOf_arrived (flags : BitVec 64) (text : Text) :
    procErrorOf (Message.error flags text).sync.arrived.arg = .initError ⟨carried text⟩ := by
  have harg : (Message.error flags text).sync.arrived.arg = some (InitError.value ⟨text⟩).carried :=
    rfl
  rw [harg, procErrorOf, decode_initError]

theorem error_depth (flags : BitVec 64) (text : Text) :
    argDepth (Message.error flags text).sync.arg + 1 ≤ maxNestingDepth := by
  change (InitError.value ⟨text⟩).depth + 1 ≤ maxNestingDepth
  unfold InitError.value
  split
  · decide
  · change max 0 0 + 1 + 1 ≤ maxNestingDepth
    decide

variable {s : Sent}

theorem run_error {flags : BitVec 64} {text : Text} (hs : s.message = .error flags text)
    (rest : List Packet) :
    doReadSync.run (s.packets ++ rest) = (.error (.initError ⟨carried text⟩), rest) := by
  have htype : (Message.error flags text).sync.arrived.type = procError := by
    change carried procError = procError
    decide
  rw [run_packets, hs, if_pos (error_depth flags text), if_pos htype, procErrorOf_arrived]
  rfl

theorem run_of_faithful (h : s.message.Faithful) (rest : List Packet) :
    doReadSync.run (s.packets ++ rest) = (s.message.expected, rest) := by
  cases hs : s.message with
  | plain type flags arg file hplain =>
    rw [hs] at h
    obtain ⟨hdeep, harrived⟩ := plain_faithful_iff.mp h
    have htype : (Message.plain type flags arg file hplain).sync.arrived.type ≠ procError := by
      rw [harrived, withFlag_eq]
      exact hplain
    rw [run_packets, hs, if_pos hdeep, if_neg htype, harrived]
    rfl
  | error flags text =>
    rw [hs] at h
    rw [run_error hs, carried_eq_iff.mpr h]
    rfl

theorem faithful_of_run {rest : List Packet}
    (h : (doReadSync.run (s.packets ++ rest)).1 = s.message.expected) : s.message.Faithful := by
  cases hs : s.message with
  | plain type flags arg file hplain =>
    rw [run_packets, hs] at h
    by_cases hdeep : argDepth (Message.plain type flags arg file hplain).sync.arg + 1 ≤
        maxNestingDepth
    · rw [if_pos hdeep] at h
      split at h
      · cases h
      · exact plain_faithful_iff.mpr ⟨hdeep, Except.ok.inj h⟩
    · rw [if_neg hdeep] at h
      cases h
  | error flags text =>
    rw [run_error hs, hs] at h
    injection h with h
    injection h with h
    injection h with h
    exact carried_eq_iff.mp h

theorem outcomes_cons (s : Sent) (sent : List Sent) :
    outcomes (s :: sent) = s.message.expected :: outcomes sent :=
  rfl

theorem calls_eq_iff (sent : List Sent) :
    doReadSync.calls (outcomes sent).length (sent.flatMap Sent.packets) = outcomes sent ↔
      ∀ s ∈ sent, s.message.Faithful := by
  induction sent with
  | nil => exact ⟨fun _ _ hs => (nomatch hs), fun _ => rfl⟩
  | cons s sent ih =>
    rw [outcomes_cons, List.length_cons, List.flatMap_cons, Reading.calls,
      List.forall_mem_cons, ← ih]
    constructor
    · intro h
      injection h with hfirst hrest
      have hfaithful := faithful_of_run hfirst
      rw [run_of_faithful hfaithful] at hrest
      exact ⟨hfaithful, hrest⟩
    · rintro ⟨hfaithful, hrest⟩
      rw [run_of_faithful hfaithful, hrest]

/-- All messages arrive if and only if each of them can be carried. -/
theorem delivered_iff (sent : List Sent) : Delivered sent ↔ ∀ s ∈ sent, s.message.Faithful := by
  rw [Delivered, Channel.yields_iff, calls_eq_iff]

def emptyName : Sent where
  message := .plain "procMountFd".toList 0 none (some ⟨[], 7⟩) (by decide)
  answers := ⟨none, none⟩
  success := rfl

theorem emptyName_not_delivered :
    (doReadSync.run emptyName.packets).1 =
        .ok ⟨"procMountFd".toList, syncFlagHasFd, none, some ⟨['\x00'], 7⟩⟩ ∧
      ¬ Delivered [emptyName] := by
  refine ⟨rfl, fun h => ?_⟩
  have hfaithful := (calls_eq_iff [emptyName]).mp (Channel.yields_iff.mp h) emptyName
    List.mem_cons_self
  exact hfaithful.2.2 ⟨[], 7⟩ rfl rfl

end Runc.SyncSocket
