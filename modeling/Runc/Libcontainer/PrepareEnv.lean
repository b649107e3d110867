import Runc.Lib.Indexing
import Runc.Lib.KeepLast
import Runc.Lib.Strconv

/-!
# The environment of the container process

`prepareEnv` goes through the environment from its last entry to its first. It adds
HOME, read from the container's /etc/passwd, if the environment gives no value for it.
-/

namespace Runc.Libcontainer

open Lib

structure PasswdUser where
  uid : Int := 0
  home : Text := []
deriving DecidableEq

/-- `LookupUid`: why there is no user. -/
inductive LookupErr
  | noPasswdEntries
  | other (text : Text)
deriving DecidableEq

def maxScanTokenSize : Nat := 64 * 1024

/-- `parseLine`, for the third and the sixth field. -/
def parsePasswdLine (bits : Nat) (line : Text) : PasswdUser where
  uid := ((line.splitOn ':')[2]?).elim 0 (atoiValue bits)
  home := ((line.splitOn ':')[5]?).getD []

def parsePasswdFilter (bits : Nat) (filter : PasswdUser → Bool) (passwd : Text) :
    Except Text (List PasswdUser) :=
  if (rawLines passwd).all (·.length < maxScanTokenSize) then
    let lines := ((scanLines maxScanTokenSize passwd).map trimSpace).filter (· ≠ [])
    .ok ((lines.map (parsePasswdLine bits)).filter filter)
  else .error "bufio.Scanner: token too long".toList

/-- `passwd` is what opening and reading /etc/passwd gives. -/
def lookupUid (bits : Nat) (passwd : Except Text Text) (uid : Int) :
    Except LookupErr PasswdUser :=
  match passwd with
  | .error err => .error (.other err)
  | .ok text =>
      match parsePasswdFilter bits (fun u => u.uid = uid) text with
      | .error err => .error (.other err)
      | .ok [] => .error .noPasswdEntries
      | .ok (u :: _) => .ok u

def getUserHome (bits : Nat) (passwd : Except Text Text) (uid : Int) : Text × Option Text :=
  match lookupUid bits passwd uid with
  | .ok u => (u.home, none)
  | .error .noPasswdEntries => (['/'], none)
  | .error (.other err) => (['/'], some err)

structure EnvState where
  out : List Text := []
  saw : List Text := []
  homeIsSet : Bool := false
  path : Option Text := none
deriving DecidableEq

def homeKey : Text := "HOME".toList

def pathKey : Text := "PATH".toList

def missingEquals : Text :=
  "invalid environment variable: missing '='".toList

def emptyName : Text :=
  "invalid environment variable: name cannot be empty".toList

def containsNul (unicode : Unicode) (key : Text) : Text :=
  "invalid environment variable ".toList ++ quote unicode key ++
    ": contains nul byte (\\x00)".toList

def EnvState.take (st : EnvState) (kv key val : Text) : EnvState :=
  let st := if key = pathKey then { st with path := some val } else st
  if key = homeKey then
    if val ≠ [] then { st with homeIsSet := true, out := st.out ++ [kv] } else st
  else { st with out := st.out ++ [kv] }

variable (unicode : Unicode)

def envRound (st : EnvState) (kv : Text) : EnvState × Option Text :=
  match indexByte '=' kv with
  | none => (st, some missingEquals)
  | some 0 => (st, some emptyName)
  | some (i + 1) =>
      let key := kv.take (i + 1)
      let val := kv.drop (i + 1 + 1)
      if key ∈ st.saw then (st, none)
      else
        let st := { st with saw := key :: st.saw }
        if indexByte '\x00' kv ≠ none then (st, some (containsNul unicode key))
        else (st.take kv key val, none)

def envScan : List Text → EnvState × Option Text
  | [] => ({}, none)
  | kv :: rest =>
      match envScan rest with
      | (st, some err) => (st, some err)
      | (st, none) => envRound unicode st kv

/-- `none` is a nil list. The second part is what PATH is set to for the process itself, which
happens also if a later round fails. -/
def prepareEnv (bits : Nat) (passwd : Except Text Text) (env : Option (List Text)) (uid : Int) :
    Except Text (Option (List Text)) × Option Text :=
  match env with
  | none => (.ok none, none)
  | some env =>
      match envScan unicode env with
      | (st, some err) => (.error err, st.path)
      | (st, none) =>
          let out := st.out.reverse
          if st.homeIsSet then (.ok (some out), st.path)
          else
            let home := (getUserHome bits passwd uid).1
            (.ok (some (out ++ [homeKey ++ '=' :: home])), st.path)

def nameOf (kv : Text) : Text :=
  kv.takeWhile (· ≠ '=')

def valueOf (kv : Text) : Text :=
  (kv.dropWhile (· ≠ '=')).tail

def lastEntries (env : List Text) : List Text :=
  keepLast nameOf env

def Invalid (env : List Text) : Prop :=
  (∃ kv ∈ env, '=' ∉ kv ∨ nameOf kv = []) ∨
    ∃ before kv after, env = before ++ kv :: after ∧ nameOf kv ∉ after.map nameOf ∧
      '\x00' ∈ kv

def GivenHome (env : List Text) : Prop :=
  ∃ kv ∈ lastEntries env, nameOf kv = homeKey ∧ valueOf kv ≠ []

structure Prepared (env : List Text) (home : Text) (out : List Text) : Prop where
  names : (out.map nameOf).Nodup
  no_nul : ∀ kv ∈ out, '\x00' ∉ kv
  one_home : ∃ kv, out.filter (nameOf · = homeKey) = [kv]
  given : GivenHome env → out = lastEntries env
  added : ¬ GivenHome env →
    out = (lastEntries env).filter (nameOf · ≠ homeKey) ++ [homeKey ++ '=' :: home]

section Entries

variable {name value kv : Text}

theorem nameOf_append (h : '=' ∉ name) : nameOf (name ++ '=' :: value) = name := by
  have hname : ∀ c ∈ name, decide (c ≠ '=') = true :=
    fun c hc => decide_eq_true fun heq => h (heq ▸ hc)
  rw [nameOf, List.takeWhile_append_of_pos hname, List.takeWhile_cons_of_neg (by simp),
    List.append_nil]

theorem valueOf_append (h : '=' ∉ name) : valueOf (name ++ '=' :: value) = value := by
  have hname : ∀ c ∈ name, decide (c ≠ '=') = true :=
    fun c hc => decide_eq_true fun heq => h (heq ▸ hc)
  rw [valueOf, List.dropWhile_append_of_pos hname, List.dropWhile_cons_of_neg (by simp),
    List.tail_cons]

theorem homeKey_no_equals : '=' ∉ homeKey := by
  decide

@[simp]
theorem nameOf_home (home : Text) : nameOf (homeKey ++ '=' :: home) = homeKey :=
  nameOf_append homeKey_no_equals

def EnvState.add (st : EnvState) (kv : Text) : EnvState where
  out := if nameOf kv = homeKey ∧ valueOf kv = [] then st.out else st.out ++ [kv]
  saw := nameOf kv :: st.saw
  homeIsSet := st.homeIsSet || decide (nameOf kv = homeKey ∧ valueOf kv ≠ [])
  path := if nameOf kv = pathKey then some (valueOf kv) else st.path

theorem EnvState.take_eq_add (st : EnvState) (kv : Text) :
    EnvState.take { st with saw := nameOf kv :: st.saw } kv (nameOf kv) (valueOf kv) =
      st.add kv := by
  unfold EnvState.take EnvState.add
  by_cases hhome : nameOf kv = homeKey
  · have hpath : homeKey ≠ pathKey := by decide
    by_cases hvalue : valueOf kv = []
    · simp [hhome, hpath, hvalue]
    · simp [hhome, hpath, hvalue]
  · by_cases hpath : nameOf kv = pathKey
    · simp [hpath, show pathKey ≠ homeKey by decide]
    · simp [hhome, hpath]

theorem envRound_eq (st : EnvState) (kv : Text) :
    envRound unicode st kv =
      if '=' ∉ kv then (st, some missingEquals)
      else if nameOf kv = [] then (st, some emptyName)
      else if nameOf kv ∈ st.saw then (st, none)
      else if '\x00' ∈ kv then
        ({ st with saw := nameOf kv :: st.saw }, some (containsNul unicode (nameOf kv)))
      else (st.add kv, none) := by
  by_cases heq : '=' ∈ kv
  · obtain ⟨name, value, hkv, hname⟩ := List.eq_append_cons_of_mem heq
    have hindex : indexByte '=' kv = some name.length := hkv ▸ indexByte_append value hname
    have hnameOf : nameOf kv = name := hkv ▸ nameOf_append hname
    have hvalueOf : valueOf kv = value := hkv ▸ valueOf_append hname
    rw [if_neg (not_not.mpr heq), hnameOf, envRound, hindex]
    cases name with
    | nil => rfl
    | cons c name =>
      have hkey : kv.take (name.length + 1) = c :: name := by
        simp [hkv]
      have hval : kv.drop (name.length + 1 + 1) = value := by
        simp [hkv]
      have htake := st.take_eq_add kv
      rw [hnameOf, hvalueOf] at htake
      simp only [List.length_cons, hkey, hval, htake, reduceCtorEq, if_false, ne_eq,
        indexByte_eq_none_iff, not_not]
  · rw [if_pos heq, envRound, indexByte_eq_none_iff.mpr heq]

end Entries

section Loop

variable {unicode : Unicode} {env : List Text}

theorem invalid_iff :
    Invalid env ↔
      (∃ kv ∈ env, '=' ∉ kv ∨ nameOf kv = []) ∨ ∃ kv ∈ lastEntries env, '\x00' ∈ kv := by
  refine or_congr_right ⟨?_, ?_⟩
  · rintro ⟨before, kv, after, henv, hlast, hnul⟩
    exact ⟨kv, mem_keepLast_iff.mpr ⟨before, after, henv, hlast⟩, hnul⟩
  · rintro ⟨kv, hkv, hnul⟩
    obtain ⟨before, after, henv, hlast⟩ := mem_keepLast_iff.mp hkv
    exact ⟨before, kv, after, henv, hlast, hnul⟩

theorem invalid_cons_of_mem {kv : Text} (heq : '=' ∈ kv) (hname : nameOf kv ≠ [])
    (hlater : nameOf kv ∈ env.map nameOf) : Invalid (kv :: env) ↔ Invalid env := by
  rw [invalid_iff, invalid_iff, lastEntries, keepLast_cons_of_mem hlater]
  simp [heq, hname, lastEntries]

theorem invalid_cons_of_not_mem {kv : Text} (heq : '=' ∈ kv) (hname : nameOf kv ≠ [])
    (hlater : nameOf kv ∉ env.map nameOf) : Invalid (kv :: env) ↔ '\x00' ∈ kv ∨ Invalid env := by
  rw [invalid_iff, invalid_iff, lastEntries, keepLast_cons_of_not_mem hlater]
  simp only [List.mem_cons, exists_eq_or_imp, heq, hname, not_true_eq_false, or_self,
    false_or, lastEntries]
  exact or_left_comm

/-- The state of the loop after the entries of `env`. -/
structure Scanned (env : List Text) (st : EnvState) : Prop where
  saw : ∀ key, key ∈ st.saw ↔ key ∈ env.map nameOf
  out : st.out.reverse =
    (lastEntries env).filter fun kv => ¬ (nameOf kv = homeKey ∧ valueOf kv = [])
  home : st.homeIsSet = true ↔ GivenHome env
  path : st.path = ((lastEntries env).find? (nameOf · = pathKey)).map valueOf

theorem scanned_nil : Scanned [] {} where
  saw := by simp
  out := by simp [lastEntries, keepLast]
  home := by simp [GivenHome, lastEntries, keepLast]
  path := by simp [lastEntries, keepLast]

theorem Scanned.skip {st : EnvState} {kv : Text} (h : Scanned env st)
    (hseen : nameOf kv ∈ env.map nameOf) : Scanned (kv :: env) st := by
  have hlast : lastEntries (kv :: env) = lastEntries env := keepLast_cons_of_mem hseen
  refine ⟨fun key => ?_, hlast ▸ h.out, ?_, hlast ▸ h.path⟩
  · rw [h.saw, List.map_cons, List.mem_cons]
    constructor
    · exact Or.inr
    · rintro (rfl | hkey)
      · exact hseen
      · exact hkey
  · rw [h.home, GivenHome, GivenHome, hlast]

theorem Scanned.add {st : EnvState} {kv : Text} (h : Scanned env st)
    (hnew : nameOf kv ∉ env.map nameOf) : Scanned (kv :: env) (st.add kv) := by
  have hlast : lastEntries (kv :: env) = kv :: lastEntries env := keepLast_cons_of_not_mem hnew
  refine ⟨fun key => ?_, ?_, ?_, ?_⟩
  · rw [EnvState.add, List.mem_cons, h.saw, List.map_cons, List.mem_cons]
  · rw [hlast, EnvState.add, List.filter_cons, ← h.out]
    by_cases hempty : nameOf kv = homeKey ∧ valueOf kv = []
    · simp [hempty]
    · simp [hempty]
  · rw [EnvState.add, GivenHome, hlast, List.exists_mem_cons_iff, Bool.or_eq_true,
      h.home, decide_eq_true_eq, or_comm]
    rfl
  · rw [EnvState.add, hlast, List.find?_cons, h.path]
    by_cases hpath : nameOf kv = pathKey
    · simp [hpath]
    · simp [hpath]

theorem envScan_spec (unicode : Unicode) (env : List Text) :
    (∃ st err, envScan unicode env = (st, some err) ∧ Invalid env) ∨
      ∃ st, envScan unicode env = (st, none) ∧ ¬ Invalid env ∧ Scanned env st := by
  induction env with
  | nil => exact Or.inr ⟨{}, rfl, by simp [invalid_iff, lastEntries, keepLast], scanned_nil⟩
  | cons kv env ih =>
    rcases ih with ⟨st, err, hscan, hinvalid⟩ | ⟨st, hscan, hvalid, hst⟩
    · -- an entry behind this one has failed
      refine Or.inl ⟨st, err, by rw [envScan, hscan], ?_⟩
      rcases hinvalid with ⟨x, hx, hbad⟩ | ⟨before, x, after, rfl, hlast, hnul⟩
      · exact Or.inl ⟨x, List.mem_cons_of_mem _ hx, hbad⟩
      · exact Or.inr ⟨kv :: before, x, after, rfl, hlast, hnul⟩
    · have hround : envScan unicode (kv :: env) = envRound unicode st kv := by
        rw [envScan, hscan]
      rw [hround, envRound_eq]
      by_cases heq : '=' ∈ kv
      · by_cases hname : nameOf kv = []
        · refine Or.inl ⟨st, emptyName, ?_, Or.inl ⟨kv, List.mem_cons_self, Or.inr hname⟩⟩
          rw [if_neg (not_not.mpr heq), if_pos hname]
        · rw [if_neg (not_not.mpr heq), if_neg hname]
          by_cases hseen : nameOf kv ∈ st.saw
          · have hlater := (hst.saw _).mp hseen
            refine Or.inr ⟨st, if_pos hseen, ?_, hst.skip hlater⟩
            rwa [invalid_cons_of_mem heq hname hlater]
          · have hnew : nameOf kv ∉ env.map nameOf := fun h => hseen ((hst.saw _).mpr h)
            rw [if_neg hseen, invalid_cons_of_not_mem heq hname hnew]
            by_cases hnul : '\x00' ∈ kv
            · exact Or.inl ⟨_, _, if_pos hnul, Or.inl hnul⟩
            · refine Or.inr ⟨st.add kv, if_neg hnul, ?_, hst.add hnew⟩
              rintro (h | h)
              · exact hnul h
              · exact hvalid h
      · exact Or.inl ⟨st, missingEquals, if_pos heq, Or.inl ⟨kv, List.mem_cons_self, Or.inl heq⟩⟩

end Loop

section Contract

variable {unicode : Unicode} {bits : Nat} {env : List Text} {home : Text} {st : EnvState}

theorem filter_lastEntries {kv : Text} (hkv : kv ∈ lastEntries env) :
    (lastEntries env).filter (nameOf · = nameOf kv) = [kv] := by
  have hnodup : ((lastEntries env).map nameOf).Nodup := nodup_keepLast env
  generalize lastEntries env = entries at hkv hnodup
  induction entries with
  | nil => cases hkv
  | cons e entries ih =>
    rw [List.map_cons, List.nodup_cons] at hnodup
    rcases List.mem_cons.mp hkv with rfl | hkv
    · rw [List.filter_cons, if_pos (by simp), List.filter_eq_nil_iff.mpr]
      intro x hx hname
      exact hnodup.1 (List.mem_map.mpr ⟨x, hx, of_decide_eq_true hname⟩)
    · have hne : nameOf e ≠ nameOf kv := fun h =>
        hnodup.1 (h ▸ List.mem_map_of_mem hkv)
      rw [List.filter_cons, if_neg (by simpa using hne), ih hkv hnodup.2]

theorem Scanned.out_of_given (h : Scanned env st) (hgiven : GivenHome env) :
    st.out.reverse = lastEntries env := by
  obtain ⟨kv, hkv, hname, hvalue⟩ := hgiven
  rw [h.out, List.filter_eq_self]
  intro x hx
  refine decide_eq_true ?_
  rintro ⟨hx_name, hx_value⟩
  have hmem : x ∈ (lastEntries env).filter (nameOf · = nameOf kv) :=
    List.mem_filter.mpr ⟨hx, decide_eq_true (hx_name.trans hname.symm)⟩
  rw [filter_lastEntries hkv, List.mem_singleton] at hmem
  exact hvalue (hmem ▸ hx_value)

theorem Scanned.out_of_not_given (h : Scanned env st) (hgiven : ¬ GivenHome env) :
    st.out.reverse = (lastEntries env).filter (nameOf · ≠ homeKey) := by
  rw [h.out]
  refine List.filter_congr fun kv hkv => ?_
  rw [decide_eq_decide, not_iff_not, and_iff_left_iff_imp]
  intro hname
  by_contra hvalue
  exact hgiven ⟨kv, hkv, hname, hvalue⟩

theorem lastEntries_no_nul (hvalid : ¬ Invalid env) : ∀ kv ∈ lastEntries env, '\x00' ∉ kv :=
  fun kv hkv hnul => hvalid (invalid_iff.mpr (Or.inr ⟨kv, hkv, hnul⟩))

theorem prepared_given (hvalid : ¬ Invalid env) (hgiven : GivenHome env) :
    Prepared env home (lastEntries env) where
  names := nodup_keepLast env
  no_nul := lastEntries_no_nul hvalid
  one_home := by
    obtain ⟨kv, hkv, hname, -⟩ := hgiven
    exact ⟨kv, hname ▸ filter_lastEntries hkv⟩
  given := fun _ => rfl
  added := fun h => absurd hgiven h

theorem prepared_added (hvalid : ¬ Invalid env) (hgiven : ¬ GivenHome env) (hnul : '\x00' ∉ home) :
    Prepared env home
      ((lastEntries env).filter (nameOf · ≠ homeKey) ++ [homeKey ++ '=' :: home]) where
  names := by
    have hentries : ((lastEntries env).map nameOf).Nodup := nodup_keepLast env
    have hothers : (((lastEntries env).filter (nameOf · ≠ homeKey)).map nameOf).Nodup :=
      hentries.sublist (List.filter_sublist.map nameOf)
    rw [List.map_append, List.map_singleton, nameOf_home]
    refine hothers.append (List.nodup_singleton _) ?_
    rw [List.disjoint_singleton]
    intro hmem
    obtain ⟨kv, hkv, hname⟩ := List.mem_map.mp hmem
    exact of_decide_eq_true (List.mem_filter.mp hkv).2 hname
  no_nul := by
    intro kv hkv
    rcases List.mem_append.mp hkv with hkv | hkv
    · exact lastEntries_no_nul hvalid kv (List.mem_filter.mp hkv).1
    · rw [List.mem_singleton.mp hkv, List.mem_append, List.mem_cons]
      rintro (h | h | h)
      · exact absurd h (by decide)
      · cases h
      · exact hnul h
  one_home := by
    refine ⟨homeKey ++ '=' :: home, ?_⟩
    rw [List.filter_append, List.filter_filter, List.filter_eq_nil_iff.mpr, List.nil_append]
    · simp
    · simp
  given := fun h => absurd h hgiven
  added := fun _ => rfl

variable {passwd : Except Text Text} {uid : Int}

theorem prepareEnv_of_invalid (hinvalid : Invalid env) :
    ∃ err, (prepareEnv unicode bits passwd (some env) uid).1 = .error err := by
  rcases envScan_spec unicode env with ⟨st, err, hscan, -⟩ | ⟨st, -, hvalid, -⟩
  · exact ⟨err, by simp only [prepareEnv, hscan]⟩
  · exact absurd hinvalid hvalid

theorem prepareEnv_of_given (hvalid : ¬ Invalid env) (hgiven : GivenHome env) :
    (prepareEnv unicode bits passwd (some env) uid).1 = .ok (some (lastEntries env)) := by
  rcases envScan_spec unicode env with ⟨st, err, -, hinvalid⟩ | ⟨st, hscan, -, hst⟩
  · exact absurd hinvalid hvalid
  · simp only [prepareEnv, hscan, hst.home.mpr hgiven, hst.out_of_given hgiven, if_true]

theorem prepareEnv_of_not_given (hvalid : ¬ Invalid env) (hgiven : ¬ GivenHome env) :
    (prepareEnv unicode bits passwd (some env) uid).1 =
      .ok (some ((lastEntries env).filter (nameOf · ≠ homeKey) ++
        [homeKey ++ '=' :: (getUserHome bits passwd uid).1])) := by
  rcases envScan_spec unicode env with ⟨st, err, -, hinvalid⟩ | ⟨st, hscan, -, hst⟩
  · exact absurd hinvalid hvalid
  · have hset : ¬ st.homeIsSet = true := fun h => hgiven (hst.home.mp h)
    simp only [prepareEnv, hscan, hst.out_of_not_given hgiven]
    rw [if_neg hset]

end Contract

/-- The contract of `prepareEnv`. -/
theorem prepareEnv_contract_iff (unicode : Unicode) (bits : Nat) (passwd : Except Text Text)
    (env : Option (List Text)) (uid : Int) :
    (((∃ err, (prepareEnv unicode bits passwd env uid).1 = .error err) ↔
        Invalid (env.getD [])) ∧
      ∀ out, (prepareEnv unicode bits passwd env uid).1 = .ok out →
        Prepared (env.getD []) (getUserHome bits passwd uid).1 (out.getD [])) ↔
    env ≠ none ∧
      (Invalid (env.getD []) ∨ GivenHome (env.getD []) ∨
        '\x00' ∉ (getUserHome bits passwd uid).1) := by
  cases env with
  | none =>
    constructor
    · rintro ⟨-, h⟩
      obtain ⟨kv, hkv⟩ := (h none rfl).one_home
      cases hkv
    · exact fun h => absurd rfl h.1
  | some env =>
    rw [Option.getD_some]
    by_cases hinvalid : Invalid env
    · have hfails : ∃ err, (prepareEnv unicode bits passwd (some env) uid).1 = .error err :=
        prepareEnv_of_invalid hinvalid
      obtain ⟨err, herr⟩ := hfails
      simp [herr, hinvalid]
    · by_cases hgiven : GivenHome env
      · simp [prepareEnv_of_given hinvalid hgiven, hinvalid, hgiven, prepared_given hinvalid hgiven]
      · rw [prepareEnv_of_not_given hinvalid hgiven]
        constructor
        · rintro ⟨-, h⟩
          refine ⟨nofun, Or.inr (Or.inr fun hnul => ?_)⟩
          -- the HOME that was added is in the result
          exact (h _ rfl).no_nul _ (List.mem_append_right _ List.mem_cons_self)
            (List.mem_append_right _ (List.mem_cons_of_mem _ hnul))
        · rintro ⟨-, h⟩
          refine ⟨⟨nofun, fun h => absurd h hinvalid⟩, ?_⟩
          intro out hout
          cases hout
          refine prepared_added hinvalid hgiven ?_
          exact (h.resolve_left hinvalid).resolve_left hgiven

def nulPasswd : Text :=
  "root:x:0:0:root:/ro\x00ot:/bin/sh\n".toList

theorem nulHome_returned :
    (prepareEnv .ascii 64 (.ok nulPasswd) (some []) 0).1 =
        .ok (some ["HOME=/ro\x00ot".toList]) ∧
      '\x00' ∈ "HOME=/ro\x00ot".toList ∧
      (prepareEnv .ascii 64 (.ok nulPasswd) none 0).1 = .ok none := by
  decide +kernel

end Runc.Libcontainer
