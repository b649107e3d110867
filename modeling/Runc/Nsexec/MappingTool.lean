import Mathlib.Data.List.Forall2
import Runc.Bootstrap.Message
import Runc.Lib.CString
import Runc.Lib.Text

/-!
# The arguments of the mapping tools

`try_mapping_tool` runs `newuidmap` or `newgidmap` with the mappings of the bootstrap
message. The child cuts the text in place and fills an array of fixed size with pointers
into it.
-/

namespace Runc.Nsexec

open Lib
open Lib.CString (Memory)
open Bootstrap (Bytes IDMap decimal blank newline encodeIDMapping)

inductive Slot
  | uninit
  | null
  | app
  | pidFmt
  | map (p : Nat)
deriving DecidableEq

def maxArgv : Nat := 20

def separators : List UInt8 := [newline, blank]

def fill : Nat → Memory → Nat → List Slot → Option (List Slot × Memory)
  | 0, mem, _, argv => some (argv, mem)
  | left + 1, mem, map, argv =>
      match mem[map]? with
      | none => none
      | some b =>
          if b = 0 then some (argv ++ [.null], mem)
          else
            match CString.strpbrk separators mem map with
            | none => none
            | some none => some (argv ++ [.map map], mem)
            | some (some next) =>
                match CString.strspn separators (mem.set next 0) (next + 1) with
                | none => none
                | some n => fill left (mem.set next 0) (next + 1 + n) (argv ++ [.map map])

/-- `snprintf(pid_fmt, 16, "%d", pid)`. -/
def pidText (pid : BitVec 32) : Bytes :=
  (decimal pid.toInt).take 15

def Slot.string (app : Bytes) (pid : BitVec 32) (mem : Memory) : Slot → Option Bytes
  | .uninit => none
  | .null => none
  | .app => some app
  | .pidFmt => some (pidText pid)
  | .map p => CString.read mem p

def execArgs (app : Bytes) (pid : BitVec 32) (mem : Memory) : List Slot → Option (List Bytes)
  | [] => none
  | slot :: rest =>
      if slot = .null then some []
      else
        match slot.string app pid mem, execArgs app pid mem rest with
        | some s, some args => some (s :: args)
        | _, _ => none

inductive ToolCall
  | bailx (msg : String)
  | undefined
  | execve (args : List Bytes)
deriving DecidableEq

def ToolCall.ofArgs : Option (List Bytes) → ToolCall
  | none => .undefined
  | some args => .execve args

def argvArray (argv : List Slot) : List Slot :=
  argv ++ List.replicate (maxArgv - argv.length) .uninit

/-- `try_mapping_tool` up to the call of the tool, in the child; the parent waits for
it and returns its status. -/
def tryMappingTool (app : Option Bytes) (pid : BitVec 32) (mem : Memory) : ToolCall :=
  match app with
  | none => .bailx "mapping tool not present"
  | some app =>
      match fill (maxArgv - 2) mem 0 [.app, .pidFmt] with
      | none => .undefined
      | some (argv, mem) => .ofArgs (execArgs app pid mem (argvArray argv))

structure Field where
  text : Bytes
  sep : UInt8

structure Field.Plain (f : Field) : Prop where
  nonempty : f.text ≠ []
  zero : 0 ∉ f.text
  free : ∀ b ∈ f.text, b ∉ separators
  sep_mem : f.sep ∈ separators

def Field.bytes (f : Field) : Bytes :=
  f.text ++ [f.sep]

def mappingFields (m : IDMap) : List Field :=
  [⟨decimal m.containerID, blank⟩, ⟨decimal m.hostID, blank⟩, ⟨decimal m.size, newline⟩]

theorem encodeIDMapping_eq (maps : List IDMap) :
    encodeIDMapping maps = (maps.flatMap mappingFields).flatMap Field.bytes := by
  rw [encodeIDMapping, List.flatMap_assoc]
  congr 1
  funext m
  simp [mappingFields, Field.bytes]

theorem zero_not_mem_bytes {fields : List Field} (h : ∀ f ∈ fields, f.Plain) :
    0 ∉ fields.flatMap Field.bytes := by
  have hsep : (0 : UInt8) ∉ separators := by decide
  intro hzero
  obtain ⟨f, hf, hmem⟩ := List.mem_flatMap.mp hzero
  rcases List.mem_append.mp hmem with htext | heq
  · exact (h f hf).zero htext
  · rw [List.mem_singleton] at heq
    exact hsep (heq ▸ (h f hf).sep_mem)

theorem head_bytes {fields : List Field} (h : ∀ f ∈ fields, f.Plain) (b : UInt8)
    (hb : (fields.flatMap Field.bytes).head? = some b) : b ∉ separators := by
  cases fields with
  | nil => cases hb
  | cons f fields =>
    have hf := h f List.mem_cons_self
    obtain ⟨c, text, htext⟩ := List.exists_cons_of_ne_nil hf.nonempty
    rw [List.flatMap_cons, Field.bytes, htext] at hb
    obtain rfl : c = b := Option.some.inj hb
    exact hf.free c (htext ▸ List.mem_cons_self)

section Loop

variable {app : Bytes} {pid : BitVec 32}

def Holds (app : Bytes) (pid : BitVec 32) (mem : Memory) : List Slot → List Bytes → Prop :=
  List.Forall₂ fun slot s => slot.string app pid mem = some s

variable {mem : Memory}

theorem Slot.string_append_right {slot : Slot} {s : Bytes}
    (h : slot.string app pid mem = some s) (more : Memory) :
    slot.string app pid (mem ++ more) = some s := by
  cases slot with
  | map p => exact CString.read_append_right h more
  | _ => exact h

variable {strs : List Bytes} {argv : List Slot}

theorem Holds.append_right (h : Holds app pid mem argv strs) (more : Memory) :
    Holds app pid (mem ++ more) argv strs :=
  List.Forall₂.imp (fun _ _ hslot => Slot.string_append_right hslot more) h

theorem fill_field {f : Field} {fields : List Field} (hf : f.Plain)
    (hfields : ∀ f ∈ fields, f.Plain) (left : Nat) (before rest : Memory) (argv : List Slot) :
    fill (left + 1) (before ++ ((f :: fields).flatMap Field.bytes ++ 0 :: rest)) before.length
        argv =
      fill left ((before ++ (f.text ++ [0])) ++ (fields.flatMap Field.bytes ++ 0 :: rest))
        (before ++ (f.text ++ [0])).length (argv ++ [.map before.length]) := by
  have hzero : 0 ∉ f.text ++ f.sep :: fields.flatMap Field.bytes := by
    have h := zero_not_mem_bytes (List.forall_mem_cons.mpr ⟨hf, hfields⟩)
    rwa [List.flatMap_cons, Field.bytes, List.append_assoc] at h
  have hmem : before ++ ((f :: fields).flatMap Field.bytes ++ 0 :: rest) =
      before ++ ((f.text ++ f.sep :: fields.flatMap Field.bytes) ++ 0 :: rest) := by
    simp [Field.bytes]
  have hset : (before ++ ((f.text ++ f.sep :: fields.flatMap Field.bytes) ++ 0 :: rest)).set
      (before.length + f.text.length) 0 =
        (before ++ (f.text ++ [0])) ++ (fields.flatMap Field.bytes ++ 0 :: rest) := by
    rw [List.set_append_right _ _ (Nat.le_add_right _ _), Nat.add_sub_cancel_left,
      List.append_assoc, List.set_append_right _ _ (Nat.le_refl _), Nat.sub_self]
    simp
  have hread := CString.read_append hzero before rest
  have hbreak := CString.strpbrk_field hread hf.free hf.sep_mem
  have hspan := CString.strspn_start
    (CString.read_append (zero_not_mem_bytes hfields) (before ++ (f.text ++ [0])) rest)
    (head_bytes hfields)
  have hlength : (before ++ (f.text ++ [0])).length = before.length + f.text.length + 1 := by
    simp [Nat.add_assoc]
  obtain ⟨c, text, htext⟩ := List.exists_cons_of_ne_nil hf.nonempty
  have hfirst : (before ++ ((f.text ++ f.sep :: fields.flatMap Field.bytes) ++
      0 :: rest))[before.length]? = some c := by
    rw [List.getElem?_append_right (Nat.le_refl _), Nat.sub_self, htext]
    rfl
  have hc : c ≠ 0 := fun heq => hf.zero (htext ▸ heq ▸ List.mem_cons_self)
  rw [hmem, fill, hfirst]
  dsimp only
  rw [if_neg hc, hbreak]
  dsimp only
  rw [hset, ← hlength, hspan]
  rfl

theorem fill_fields {fields : List Field} (hfields : ∀ f ∈ fields, f.Plain) (left : Nat)
    (before rest : Memory) (hargv : Holds app pid before argv strs) :
    ∃ mem slots,
      fill left (before ++ (fields.flatMap Field.bytes ++ 0 :: rest)) before.length argv =
        some (slots ++ (if fields.length < left then [.null] else []), mem) ∧
      Holds app pid mem slots (strs ++ (fields.take left).map Field.text) := by
  induction fields generalizing left before argv strs with
  | nil =>
    refine ⟨before ++ 0 :: rest, argv, ?_, by simpa using hargv.append_right _⟩
    cases left with
    | zero => simp [fill]
    | succ left =>
      rw [fill]
      simp
  | cons f fields ih =>
    obtain ⟨hf, hrest⟩ := List.forall_mem_cons.mp hfields
    cases left with
    | zero =>
      refine ⟨before ++ ((f :: fields).flatMap Field.bytes ++ 0 :: rest), argv, ?_, ?_⟩
      · simp [fill]
      · simpa using hargv.append_right _
    | succ left =>
      have hnew : (Slot.map before.length).string app pid (before ++ (f.text ++ [0])) =
          some f.text := CString.read_append hf.zero before []
      have hargv' : Holds app pid (before ++ (f.text ++ [0])) (argv ++ [.map before.length])
          (strs ++ [f.text]) :=
        List.rel_append (hargv.append_right _) (.cons hnew .nil)
      obtain ⟨mem, slots, hfill, hslots⟩ := ih hrest left _ hargv'
      refine ⟨mem, slots, ?_, ?_⟩
      · rw [fill_field hf hrest, hfill]
        simp
      · simpa using hslots

theorem Slot.ne_null {slot : Slot} {s : Bytes} (h : slot.string app pid mem = some s) :
    slot ≠ .null := by
  rintro rfl
  cases h

theorem execArgs_null (h : Holds app pid mem argv strs) (rest : List Slot) :
    execArgs app pid mem (argv ++ .null :: rest) = some strs := by
  induction h with
  | nil => rfl
  | cons hslot _ ih => rw [List.cons_append, execArgs, if_neg (Slot.ne_null hslot), hslot, ih]

theorem execArgs_full (h : Holds app pid mem argv strs) : execArgs app pid mem argv = none := by
  induction h with
  | nil => rfl
  | cons hslot _ ih => rw [execArgs, if_neg (Slot.ne_null hslot), hslot, ih]

end Loop

theorem decimal_eq (n : Int) :
    decimal n =
      (if n < 0 then [45] else []) ++
        (Nat.toDigits 10 n.natAbs).map fun c => UInt8.ofNat c.toNat := by
  cases n with
  | ofNat m =>
    have hrepr : toString (Int.ofNat m) = String.ofList (Nat.toDigits 10 m) := rfl
    rw [decimal, Bootstrap.ascii, hrepr, String.toList_ofList, if_neg (by simp)]
    rfl
  | negSucc m =>
    have hrepr : toString (Int.negSucc m) = "-" ++ String.ofList (Nat.toDigits 10 (m + 1)) := rfl
    rw [decimal, Bootstrap.ascii, hrepr, if_pos (by omega)]
    simp only [String.toList_append, String.toList_ofList]
    rfl

theorem mem_decimal {n : Int} {b : UInt8} (h : b ∈ decimal n) :
    b.toNat = 45 ∨ 48 ≤ b.toNat ∧ b.toNat ≤ 57 := by
  rw [decimal_eq, List.mem_append] at h
  rcases h with h | h
  · split at h
    · rw [List.mem_singleton.mp h]
      exact .inl rfl
    · cases h
  · obtain ⟨c, hc, rfl⟩ := List.mem_map.mp h
    have hdigit := isDigit_of_mem_toDigits hc
    simp only [isDigit, Bool.and_eq_true, decide_eq_true_eq] at hdigit
    have hlow : 48 ≤ c.toNat := hdigit.1
    have hhigh : c.toNat ≤ 57 := hdigit.2
    have hbyte : (UInt8.ofNat c.toNat).toNat = c.toNat :=
      UInt8.toNat_ofNat_of_lt (Nat.lt_of_le_of_lt hhigh (by decide))
    rw [hbyte]
    exact .inr ⟨hlow, hhigh⟩

theorem decimal_length (pid : BitVec 32) : (decimal pid.toInt).length ≤ 11 := by
  have hlow := BitVec.le_toInt pid
  have hhigh := BitVec.toInt_lt (x := pid)
  have hdigits : (Nat.toDigits 10 pid.toInt.natAbs).length ≤ 10 :=
    (Nat.length_toDigits_le_iff (by decide) (by decide)).mpr (by omega)
  rw [decimal_eq, List.length_append, List.length_map]
  split
  · rw [List.length_singleton]
    omega
  · rw [List.length_nil]
    omega

theorem decimal_ne_nil (n : Int) : decimal n ≠ [] := by
  have hdigits := Nat.length_toDigits_pos (b := 10) (n := n.natAbs)
  rw [decimal_eq]
  refine List.append_ne_nil_of_right_ne_nil _ fun hnil => ?_
  rw [List.map_eq_nil_iff.mp hnil] at hdigits
  exact absurd hdigits (by decide)

theorem plain_decimal (n : Int) {sep : UInt8} (hsep : sep ∈ separators) :
    Field.Plain ⟨decimal n, sep⟩ := by
  have hseparators : ∀ b ∈ separators, b.toNat = 10 ∨ b.toNat = 32 :=
    List.forall_mem_cons.mpr ⟨.inl rfl, List.forall_mem_singleton.mpr (.inr rfl)⟩
  refine ⟨decimal_ne_nil n, fun hzero => ?_, fun b hb hmem => ?_, hsep⟩
  · rcases mem_decimal hzero with h | h
    · exact absurd h (by decide)
    · exact absurd h (by decide)
  · have hb' := mem_decimal hb
    have hmem' := hseparators b hmem
    omega

theorem pidText_eq (pid : BitVec 32) : pidText pid = decimal pid.toInt :=
  List.take_of_length_le (Nat.le_trans (decimal_length pid) (by decide))

def numbers (m : IDMap) : List Bytes :=
  [decimal m.containerID, decimal m.hostID, decimal m.size]

theorem mappingFields_plain {maps : List IDMap} (f : Field) (hf : f ∈ maps.flatMap mappingFields) :
    f.Plain := by
  obtain ⟨m, -, hm⟩ := List.mem_flatMap.mp hf
  simp only [mappingFields, List.mem_cons, List.not_mem_nil, or_false] at hm
  rcases hm with rfl | rfl | rfl
  · exact plain_decimal _ (by decide)
  · exact plain_decimal _ (by decide)
  · exact plain_decimal _ (by decide)

theorem mappingFields_text (maps : List IDMap) :
    (maps.flatMap mappingFields).map Field.text = maps.flatMap numbers := by
  rw [List.map_flatMap]
  rfl

theorem mappingFields_length (maps : List IDMap) :
    (maps.flatMap mappingFields).length = 3 * maps.length := by
  induction maps with
  | nil => rfl
  | cons m maps ih =>
    rw [List.flatMap_cons, List.length_append, ih, List.length_cons]
    have hlength : (mappingFields m).length = 3 := rfl
    omega

/-- The tool gets the pid and all the numbers of the mappings exactly if there are at most five
of them; with more there is no room for the null pointer. -/
theorem tryMappingTool_iff (app : Bytes) (pid : BitVec 32) (maps : List IDMap) (rest : Memory) :
    (tryMappingTool (some app) pid (encodeIDMapping maps ++ 0 :: rest) =
        .execve (app :: decimal pid.toInt :: maps.flatMap numbers) ↔
      maps.length ≤ 5) ∧
    (5 < maps.length →
      tryMappingTool (some app) pid (encodeIDMapping maps ++ 0 :: rest) = .undefined) := by
  have hstart : Holds app pid [] [.app, .pidFmt] [app, decimal pid.toInt] :=
    .cons rfl (.cons (congrArg some (pidText_eq pid)) .nil)
  have hplain : ∀ f ∈ maps.flatMap mappingFields, f.Plain := mappingFields_plain
  obtain ⟨mem, slots, hfill, hslots⟩ := fill_fields hplain (maxArgv - 2) [] rest hstart
  rw [← encodeIDMapping_eq, mappingFields_length] at hfill
  have hrun : tryMappingTool (some app) pid (encodeIDMapping maps ++ 0 :: rest) =
      .ofArgs (execArgs app pid mem
        (argvArray (slots ++ if 3 * maps.length < maxArgv - 2 then [.null] else []))) := by
    have hfill' : fill (maxArgv - 2) (encodeIDMapping maps ++ 0 :: rest) 0 [.app, .pidFmt] =
        some (slots ++ if 3 * maps.length < maxArgv - 2 then [.null] else [], mem) := hfill
    rw [tryMappingTool, hfill']
  by_cases hroom : 3 * maps.length < maxArgv - 2
  · have hfew : maps.length ≤ 5 := by
      rw [maxArgv] at hroom
      omega
    rw [if_pos hroom, argvArray, List.append_assoc, List.singleton_append,
      execArgs_null hslots, List.take_of_length_le (mappingFields_length maps ▸ hroom.le),
      mappingFields_text] at hrun
    exact ⟨iff_of_true hrun hfew, fun hmany => absurd hfew (by omega)⟩
  · have hmany : 5 < maps.length := by
      rw [maxArgv] at hroom
      omega
    -- all the slots are filled
    have hlength : maxArgv - slots.length = 0 := by
      rw [hslots.length_eq]
      simp only [List.length_append, List.length_map, List.length_take, mappingFields_length,
        List.length_cons, List.length_nil]
      rw [maxArgv] at hroom ⊢
      omega
    rw [if_neg hroom, List.append_nil, argvArray, hlength, List.replicate_zero, List.append_nil,
      execArgs_full hslots] at hrun
    refine ⟨iff_of_false ?_ (by omega), fun _ => hrun⟩
    rw [hrun]
    exact nofun

theorem tryMappingTool_six :
    tryMappingTool (some (Bootstrap.ascii "/usr/bin/newuidmap")) 7
      (encodeIDMapping (List.replicate 6 ⟨0, 1, 1⟩) ++ [0]) = .undefined := by
  decide

end Runc.Nsexec
