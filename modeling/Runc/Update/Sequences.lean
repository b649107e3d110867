import Runc.Update.NewValues

/-!
# Sequences of update requests

Every run of the command starts from the configuration that was saved last.
-/

namespace Runc.Update

open Lib (Text overlay lastGiven)

def Request.Keeps (host : Host) (old : Values) (req : Request) : Value → Prop
  | .memoryCheckBeforeUpdate =>
      req.supplied host .memoryCheckBeforeUpdate ≠ none ∨ req.source.nullCheck ∨
        old .memoryCheckBeforeUpdate = false
  -- a request with one of the two keeps the other, unless it is given as zero
  | .cpuPeriod =>
      (req.source.supplied host).period.getD 0 ≠ 0 ∨ old .cpuPeriod = (0 : Nat) ∨
        (req.supplied host .cpuPeriod ≠ none ↔ (req.source.supplied host).quota.getD 0 = 0)
  | .cpuQuota =>
      (req.source.supplied host).quota.getD 0 ≠ 0 ∨ old .cpuQuota = (0 : Int) ∨
        (req.supplied host .cpuQuota ≠ none ↔ (req.source.supplied host).period.getD 0 = 0)
  | .cpuBurst => req.supplied host .cpuBurst ≠ none ∨ old .cpuBurst = (none : Option Nat)
  | .cpuIdle => req.supplied host .cpuIdle ≠ none ∨ old .cpuIdle = (none : Option Int)
  | .pidsLimit => req.supplied host .pidsLimit ≠ none ∨ old .pidsLimit = (none : Option Int)
  | .cpusetCpus => req.supplied host .cpusetCpus ≠ none ∨ old .cpusetCpus = ([] : Text)
  | .cpusetMems => req.supplied host .cpusetMems ≠ none ∨ old .cpusetMems = ([] : Text)
  | .unified key =>
      req.supplied host (.unified key) ≠ none ∨
        old (.unified key) = req.source.nullEntry key
  | .blkioWeight => req.source.weightFits
  | .unread name => ∀ x, req.supplied host (.unread name) = some x → old (.unread name) = x
  | _ => True

def newSaved (host : Host) (req : Request) (t : Sections) (saved : Saved) : Saved where
  resources := { t.newValues host saved.loaded.resources with skipDevices := false }
  intelRdt := saved.intelRdt.map (·.update req)

variable {host : Host} {req : Request} {t : Sections} {saved : Saved}

theorem getD_default_iff {α : Type} (given : Option α) (default old : α) :
    given.getD default = given.getD old ↔ given ≠ none ∨ old = default := by
  cases given with
  | none => simp [eq_comm]
  | some a => simp

theorem overwritten_iff {α : Type} (given old : Option α) :
    given = (given.map some).getD old ↔ given.map some ≠ none ∨ old = none := by
  cases given with
  | none => simp [eq_comm]
  | some a => simp

theorem periodQuota_iff {α : Type} [Zero α] [DecidableEq α] (given : Option α) (old : α)
    (rest : Prop) [Decidable rest] :
    (if given.getD 0 ≠ 0 ∨ rest then given.getD 0 else old) = given.getD old ↔
      given.getD 0 ≠ 0 ∨ old = 0 ∨ (given ≠ none ↔ rest) := by
  cases given with
  | none =>
    by_cases hrest : rest
    · simp [hrest, eq_comm]
    · simp [hrest]
  | some a =>
    by_cases ha : a = 0
    · by_cases hrest : rest
      · simp [ha, hrest]
      · simp [ha, hrest]
    · simp [ha]

theorem uint16_eq_iff (n : Int) : (uint16 n : Int) = n ↔ 0 ≤ n ∧ n < 65536 := by
  unfold uint16
  omega

theorem weight_iff (hreads : t.Reads host req.source) (old : Nat) :
    ((t.blockIO.weight.getD old : Nat) : Int) =
        (req.source.supplied host).weight.getD (old : Int) ↔
      req.source.weightFits := by
  have hcast : ((t.blockIO.weight.getD old : Nat) : Int) =
        ((req.source.supplied host).weight.map req.source.storedWeight).getD (old : Int) := by
    rw [← hreads.weight]
    cases t.blockIO.weight with
    | none => rfl
    | some n => rfl
  rw [hcast]
  cases hsource : req.source with
  | file doc =>
    have hid : (Source.file doc).storedWeight = id := rfl
    rw [hid, Option.map_id_fun]
    exact iff_of_true rfl trivial
  | flags f =>
    change ((if f.blkioWeight = 0 then none else some f.blkioWeight).map _).getD _ =
      (if f.blkioWeight = 0 then none else some f.blkioWeight).getD _ ↔ _
    by_cases hzero : f.blkioWeight = 0
    · rw [if_pos hzero]
      exact iff_of_true rfl ⟨by omega, by omega⟩
    · rw [if_neg hzero]
      exact uint16_eq_iff f.blkioWeight

theorem supplied_check_of_null {source : Source} (h : source.nullCheck) :
    (source.supplied host).checkBeforeUpdate = none := by
  cases source with
  | flags f => exact h.elim
  | file doc =>
    cases doc with
    | error msg => exact h.elim
    | ok d =>
      obtain ⟨m, hmemory, hnull⟩ := h
      simp [Source.supplied, Doc.supplied, hmemory, hnull, Member.given]

theorem check_iff (hreads : t.Reads host req.source) (old : Bool) :
    t.memory.checkBeforeUpdate.getD old =
        (req.source.supplied host).checkBeforeUpdate.getD old ↔
      (req.source.supplied host).checkBeforeUpdate ≠ none ∨ req.source.nullCheck ∨
        old = false := by
  by_cases hnull : req.source.nullCheck
  · rw [hreads.check_null hnull, supplied_check_of_null hnull]
    exact iff_of_true rfl (Or.inr (Or.inl hnull))
  · rw [hreads.check hnull, Option.getD_some, getD_default_iff]
    simp [hnull]

theorem schema_eq {present : Option IntelRdt} {field : IntelRdt → Text} {given : Text}
    (hpresent : given ≠ [] → present.isSome) :
    (present.map fun rdt => if given ≠ [] then given else field rdt) =
      (textGiven given).getD (present.map field) := by
  unfold textGiven
  by_cases hnil : given = []
  · simp [hnil]
  · obtain ⟨rdt, hrdt⟩ := Option.isSome_iff_exists.mp (hpresent hnil)
    simp [hnil, hrdt]

theorem schema_present (hrdt : req.intelRdtRefused host saved.intelRdt.isSome = false)
    (hgiven : req.l3CacheSchema ≠ [] ∨ req.memBwSchema ≠ []) : saved.intelRdt.isSome := by
  unfold Request.intelRdtRefused at hrdt
  rw [Bool.or_eq_false_iff] at hrdt
  cases hpresent : saved.intelRdt.isSome with
  | true => rfl
  | false =>
    have hnone := hrdt.2
    rw [hpresent] at hnone
    simp at hnone
    rcases hgiven with h | h
    · exact absurd hnone.1 h
    · exact absurd hnone.2 h

theorem unified_iff {α : Type} (given null old : Option α) :
    given.or null = (given.map some).getD old ↔
      given.map some ≠ none ∨ old = null := by
  cases given with
  | none => simp [eq_comm]
  | some a => simp

theorem unread_iff {α : Type} (given : Option α) (old : α) :
    old = given.getD old ↔ ∀ x, given = some x → old = x := by
  cases given with
  | none => simp
  | some a => simp

theorem values_newSaved_iff (hreads : t.Reads host req.source)
    (hrdt : req.intelRdtRefused host saved.intelRdt.isSome = false) (v : Value) :
    (newSaved host req t saved).values v =
        overlay saved.values (req.supplied host) v ↔
      req.Keeps host saved.values v := by
  unfold newSaved overlay
  -- the new values in terms of what the request supplies
  rw [newValues_eq, memory_fixUp, cpu_fixUp, hreads.limit, hreads.reservation, hreads.swap,
    hreads.shares, hreads.quota, hreads.burst, hreads.period, hreads.realtimeRuntime,
    hreads.realtimePeriod, hreads.cpus, hreads.mems, hreads.idle, hreads.pidsLimit,
    hreads.leafWeight, hreads.weightDevice, hreads.throttleDevice, funext hreads.unified]
  cases v with
  | memory => exact iff_of_true rfl trivial
  | memoryReservation => exact iff_of_true rfl trivial
  | memorySwap => exact iff_of_true rfl trivial
  | memoryCheckBeforeUpdate => exact check_iff hreads _
  | cpuShares => exact iff_of_true rfl trivial
  | cpuWeight => exact iff_of_true rfl trivial
  | cpuQuota =>
    exact periodQuota_iff (req.source.supplied host).quota saved.resources.cpuQuota
      ((req.source.supplied host).period.getD 0 = 0)
  | cpuPeriod =>
    exact periodQuota_iff (req.source.supplied host).period saved.resources.cpuPeriod
      ((req.source.supplied host).quota.getD 0 = 0)
  | cpuBurst => exact overwritten_iff _ _
  | cpuRtRuntime => exact iff_of_true rfl trivial
  | cpuRtPeriod => exact iff_of_true rfl trivial
  | cpusetCpus => exact getD_default_iff _ _ _
  | cpusetMems => exact getD_default_iff _ _ _
  | cpuIdle => exact overwritten_iff _ _
  | pidsLimit => exact overwritten_iff _ _
  | blkioWeight => exact weight_iff hreads _
  | blkioLeafWeight => exact iff_of_true rfl trivial
  | weightDevice dev => exact iff_of_true (foldl_upsert weightOf_upsert _ _ dev) trivial
  | leafWeightDevice dev => exact iff_of_true (foldl_upsert leafWeightOf_upsert _ _ dev) trivial
  | throttleDevice kind dev => exact iff_of_true (foldl_upsert rateOf_upsert _ _ dev) trivial
  | unified key => exact unified_iff _ _ _
  | unread name => exact unread_iff _ _
  | l3CacheSchema =>
    refine iff_of_true ?_ trivial
    change (saved.intelRdt.map _).map _ = _
    rw [Option.map_map]
    exact schema_eq fun h => schema_present hrdt (Or.inl h)
  | memBwSchema =>
    refine iff_of_true ?_ trivial
    change (saved.intelRdt.map _).map _ = _
    rw [Option.map_map]
    exact schema_eq fun h => schema_present hrdt (Or.inr h)

def Call.after (saved : Saved) (call : Call) : Saved :=
  (call.exec saved).2.stateFile

def afterCalls (saved : Saved) (calls : List Call) : Saved :=
  calls.foldl Call.after saved

/-- A call that returns an error: it cannot be read, or asks for Intel RDT
settings that cannot be had, or an operation of `Set` fails. -/
def Call.refused (present : Bool) (call : Call) : Bool :=
  call.read.isNone || call.req.intelRdtRefused call.host present ||
    call.env.setFails call.intelRdtManager

def supplies (saved : Saved) (calls : List Call) : List ((v : Value) → Option v.Datum) :=
  (calls.filter fun call => !call.refused saved.intelRdt.isSome).map fun call =>
    call.req.supplied call.host

def expected (saved : Saved) (calls : List Call) : Values :=
  fun v => (lastGiven (supplies saved calls) v).getD (saved.values v)

structure KeepsValues (saved : Saved) (calls : List Call) : Prop where
  no_crash : ∀ before call after, calls = before ++ call :: after →
    (call.exec (afterCalls saved before)).1 ≠ .error .nilPointer
  values : ∀ before after, calls = before ++ after →
    ∀ v, (afterCalls saved before).values v = expected saved before v

variable {call : Call}

theorem source_of_read {r : LinuxResources} (h : call.read = some r) :
    call.req.source.resources call.host = .ok r := by
  unfold Call.read at h
  split at h
  · cases h
  · cases hres : call.req.source.resources call.host with
    | error err =>
      rw [hres] at h
      cases h
    | ok r' =>
      rw [hres] at h
      cases h
      rfl

inductive Outcome (call : Call) (saved : Saved) : Prop
  | unreadable
      (hread : call.read = none)
      (hrefused : call.refused saved.intelRdt.isSome = true)
      (hresult : (call.exec saved).1 ≠ .error .nilPointer)
      (hafter : call.after saved = saved)
  | crash
      (hread : call.read ≠ none)
      (hnull : call.req.source.nullSection)
      (hresult : (call.exec saved).1 = .error .nilPointer)
      (hafter : call.after saved = saved)
  | refused
      (hnull : ¬ call.req.source.nullSection)
      (hrefused : call.refused saved.intelRdt.isSome = true)
      (hresult : (call.exec saved).1 ≠ .error .nilPointer)
      (hafter : call.after saved = saved)
  | succeeds
      (hread : call.read ≠ none)
      (hnull : ¬ call.req.source.nullSection)
      (hrefused : call.refused saved.intelRdt.isSome = false)
      (hresult : (call.exec saved).1 ≠ .error .nilPointer)
      (hvalues : ∀ v,
        (call.after saved).values v =
            overlay saved.values (call.req.supplied call.host) v ↔
          call.req.Keeps call.host saved.values v)
      (hrdt : (call.after saved).intelRdt.isSome = saved.intelRdt.isSome)

theorem outcome (call : Call) (saved : Saved) : Outcome call saved := by
  cases hread : call.read with
  | none =>
    obtain ⟨err, hne, hexec⟩ : ∃ err, err ≠ Err.nilPointer ∧ call.exec saved = (.error err, _) :=
      update_early hread
    refine .unreadable hread ?_ ?_ ?_
    · simp [Call.refused, hread]
    · rw [hexec]
      exact fun h => hne (Except.error.inj h)
    · rw [Call.after, hexec]
      rfl
  | some r =>
    have hsome : call.read ≠ none := by
      rw [hread]
      exact Option.some_ne_none r
    rcases source_reads (source_of_read hread) with ⟨hnull, hr⟩ | ⟨hnull, t, hr, hreads⟩
    · obtain ⟨w, hexec, hfile⟩ :
          ∃ w, call.exec saved = (.error .nilPointer, w) ∧ w.stateFile = saved :=
        update_crash hread hr
      exact .crash hsome hnull (by rw [hexec]) (by rw [Call.after, hexec, hfile])
    · cases hrdt : call.req.intelRdtRefused call.host saved.intelRdt.isSome with
      | true =>
        obtain ⟨msg, w, hexec, hfile, -⟩ := update_intelRdtRefused hread hr hrdt
        exact .refused hnull (by simp [Call.refused, hrdt])
          (by rw [hexec]; exact fun h => nomatch h)
          (by rw [Call.after, hexec, hfile])
      | false =>
        cases hset : call.env.setFails call.intelRdtManager with
        | true =>
          obtain ⟨msg, w, hexec, hfile, -⟩ := update_setFails hread hr hrdt hset
          exact .refused hnull (by simp [Call.refused, hset])
            (by rw [hexec]; exact fun h => nomatch h)
            (by rw [Call.after, hexec, hfile])
        | false =>
          obtain ⟨w, hexec, hfile⟩ := update_succeeds hread hr hrdt hset
          have hafter : call.after saved =
              newSaved call.host call.req t saved := by
            rw [Call.after, hexec, hfile]
            rfl
          refine .succeeds hsome hnull (by simp [Call.refused, hread, hrdt, hset])
            (by rw [hexec]; exact fun h => nomatch h) ?_ ?_
          · rw [hafter]
            exact values_newSaved_iff hreads hrdt
          · rw [hafter, newSaved, Option.isSome_map]

theorem isSome_intelRdt_afterCalls (saved : Saved) (calls : List Call) :
    (afterCalls saved calls).intelRdt.isSome = saved.intelRdt.isSome := by
  induction calls generalizing saved with
  | nil => rfl
  | cons call rest ih =>
    change (afterCalls (call.after saved) rest).intelRdt.isSome = _
    rw [ih]
    cases outcome call saved with
    | unreadable _ _ _ hafter => rw [hafter]
    | crash _ _ _ hafter => rw [hafter]
    | refused _ _ _ hafter => rw [hafter]
    | succeeds _ _ _ _ _ hrdt => exact hrdt

theorem afterCalls_concat (saved : Saved) (calls : List Call) (call : Call) :
    afterCalls saved (calls ++ [call]) = call.after (afterCalls saved calls) := by
  rw [afterCalls, List.foldl_concat]
  rfl

variable {calls : List Call}

theorem expected_concat_refused (h : call.refused saved.intelRdt.isSome = true) :
    expected saved (calls ++ [call]) = expected saved calls := by
  unfold expected supplies
  rw [List.filter_append]
  simp [h]

theorem expected_concat (h : call.refused saved.intelRdt.isSome = false) :
    expected saved (calls ++ [call]) =
      overlay (expected saved calls) (call.req.supplied call.host) := by
  have hsupplies : supplies saved (calls ++ [call]) =
      supplies saved calls ++ [call.req.supplied call.host] := by
    unfold supplies
    rw [List.filter_append]
    simp [h]
  unfold expected
  rw [hsupplies]
  exact Lib.lastGiven_concat_getD _ _ _

theorem values_concat {before : List Call}
    (hbefore : (afterCalls saved before).values = expected saved before) (hcall : call.read ≠ none →
      ¬ call.req.source.nullSection ∧
        (call.refused saved.intelRdt.isSome = false →
          ∀ v, call.req.Keeps call.host (expected saved before) v)) :
    (afterCalls saved (before ++ [call])).values = expected saved (before ++ [call]) := by
  rw [afterCalls_concat]
  cases outcome call (afterCalls saved before) with
  | unreadable _ hrefused _ hafter =>
    rw [isSome_intelRdt_afterCalls] at hrefused
    rw [hafter, expected_concat_refused hrefused, hbefore]
  | crash hread hnull _ _ => exact absurd hnull (hcall hread).1
  | refused _ hrefused _ hafter =>
    rw [isSome_intelRdt_afterCalls] at hrefused
    rw [hafter, expected_concat_refused hrefused, hbefore]
  | succeeds hread _ hrefused _ hkeep _ =>
    rw [isSome_intelRdt_afterCalls] at hrefused
    funext v
    rw [(hkeep v).mpr (by rw [hbefore]; exact (hcall hread).2 hrefused v),
      expected_concat hrefused, hbefore]

theorem values_afterCalls
    (hcalls : ∀ before call after, calls = before ++ call :: after → call.read ≠ none →
      ¬ call.req.source.nullSection ∧
        (call.refused saved.intelRdt.isSome = false →
          ∀ v, call.req.Keeps call.host (expected saved before) v)) (before after : List Call)
    (hsplit : calls = before ++ after) :
    (afterCalls saved before).values = expected saved before := by
  induction before using List.reverseRecOn generalizing after with
  | nil => rfl
  | append_singleton before call ih =>
    rw [List.append_assoc, List.singleton_append] at hsplit
    exact values_concat (ih (call :: after) hsplit) (hcalls before call after hsplit)

/-- Update requests. -/
theorem updates_keep_iff (saved : Saved) (calls : List Call) :
    KeepsValues saved calls ↔
      ∀ before call after, calls = before ++ call :: after → call.read ≠ none →
        ¬ call.req.source.nullSection ∧
          (call.refused saved.intelRdt.isSome = false →
            ∀ v, call.req.Keeps call.host (expected saved before) v) := by
  constructor
  · intro hkeeps before call after hsplit hread
    have hbefore := funext (hkeeps.values before (call :: after) hsplit)
    have hafter := hkeeps.values (before ++ [call]) after (by rw [hsplit]; simp)
    have hcrash := hkeeps.no_crash before call after hsplit
    rw [afterCalls_concat] at hafter
    cases houtcome : outcome call (afterCalls saved before) with
    | unreadable hnone => exact absurd hnone hread
    | crash _ _ hresult => exact absurd hresult hcrash
    | refused hnull hrefused =>
      rw [isSome_intelRdt_afterCalls] at hrefused
      refine ⟨hnull, fun h => ?_⟩
      rw [hrefused] at h
      cases h
    | succeeds _ hnull hrefused _ hvalues =>
      rw [isSome_intelRdt_afterCalls] at hrefused
      refine ⟨hnull, fun _ v => ?_⟩
      rw [← hbefore, ← hvalues v, hafter v, expected_concat hrefused, hbefore]
  · intro hcond
    refine ⟨fun before call after hsplit hresult => ?_, fun before after hsplit v =>
      congrFun (values_afterCalls hcond before after hsplit) v⟩
    cases outcome call (afterCalls saved before) with
    | unreadable _ _ hne _ => exact hne hresult
    | crash hread hnull _ _ => exact (hcond before call after hsplit hread).1 hnull
    | refused _ _ hne _ => exact hne hresult
    | succeeds _ _ _ hne _ _ => exact hne hresult

def limited : Saved where
  resources := { pidsLimit := some 100, cpuPeriod := 100000, cpuQuota := 50000 }

/-- `{"memory": {"limit": 1048576}}` -/
def raiseMemory : Call where
  host := bareHost
  req := { source := .file (.ok { memory := .value { limit := .value 1048576 } }) }

/-- `{"memory": null}` -/
def nullMemory : Call where
  host := bareHost
  req := { source := .file (.ok { memory := .null }) }

theorem limits_lost :
    (limited.values .pidsLimit = some (100 : Int) ∧
        (afterCalls limited [raiseMemory]).values .pidsLimit = (none : Option Int) ∧
        (afterCalls limited [raiseMemory]).values .cpuQuota = (0 : Int)) ∧
      (nullMemory.exec limited).1 = .error .nilPointer ∧
      ¬ KeepsValues limited [raiseMemory] ∧ ¬ KeepsValues limited [nullMemory] := by
  refine ⟨⟨rfl, rfl, rfl⟩, rfl, fun h => ?_, fun h => ?_⟩
  · have hlost : (none : Option Int) = some 100 := h.values [raiseMemory] [] rfl .pidsLimit
    cases hlost
  · exact h.no_crash [] nullMemory [] rfl rfl

end Runc.Update
