import Runc.Update.NewValues

/-!
# Failed updates

`Set` gives the managers the old configuration back when one of them fails. The old
configuration is the one whose records the command has written to.
-/

namespace Runc.Update

open Lib (Text)

variable {host : Host} {t : Sections} {res : Resources}

structure Sections.Agrees (t : Sections) (host : Host) (res : Resources) : Prop where
  memory : ∀ n, t.memory.limit = some n → n = res.memory
  memoryReservation : ∀ n, t.memory.reservation = some n → n = res.memoryReservation
  memorySwap : ∀ n, t.memory.fixUp.swap = some n → n = res.memorySwap
  memoryCheckBeforeUpdate : ∀ b, t.memory.checkBeforeUpdate = some b →
    b = res.memoryCheckBeforeUpdate
  cpuShares : ∀ n, t.cpu.fixUp.shares = some n →
    n = res.cpuShares ∧ host.convertCPUSharesToCgroupV2Value n = res.cpuWeight
  cpuPeriod : t.cpu.period.getD 0 ≠ 0 ∨ t.cpu.quota.getD 0 = 0 →
    t.cpu.period.getD 0 = res.cpuPeriod
  cpuQuota : t.cpu.quota.getD 0 ≠ 0 ∨ t.cpu.period.getD 0 = 0 →
    t.cpu.quota.getD 0 = res.cpuQuota
  cpuBurst : t.cpu.burst = res.cpuBurst
  cpuRtPeriod : ∀ n, t.cpu.realtimePeriod = some n → n = res.cpuRtPeriod
  cpuRtRuntime : ∀ n, t.cpu.realtimeRuntime = some n → n = res.cpuRtRuntime
  cpusetCpus : t.cpu.cpus = res.cpusetCpus
  cpusetMems : t.cpu.mems = res.cpusetMems
  cpuIdle : t.cpu.idle = res.cpuIdle
  pidsLimit : t.pids.limit = res.pidsLimit
  blkioWeight : ∀ n, t.blockIO.weight = some n → n = res.blkioWeight
  blkioLeafWeight : ∀ n, t.blockIO.leafWeight = some n → n = res.blkioLeafWeight
  blkioWeightDevice :
    t.blockIO.weightDevice.foldl upsertWeightDevice res.blkioWeightDevice =
      res.blkioWeightDevice
  blkioThrottleDevice : ∀ kind,
    (t.blockIO.throttleDevice kind).foldl upsertThrottleDevice
      (res.blkioThrottleDevice kind) = res.blkioThrottleDevice kind
  unified : t.unified = res.unified

theorem getD_eq_self_iff {α : Type} (given : Option α) (old : α) :
    given.getD old = old ↔ ∀ n, given = some n → n = old := by
  cases given with
  | none => simp
  | some a => simp

theorem ite_eq_old_iff {α : Type} (p : Prop) [Decidable p] (new old : α) :
    (if p then new else old) = old ↔ (p → new = old) := by
  by_cases hp : p
  · simp [hp]
  · simp [hp]

theorem shares_eq_iff {α β : Type} (given : Option α) (f : α → β) (old : α) (old' : β) :
    (given.getD old = old ∧ (given.map f).getD old' = old') ↔
      ∀ n, given = some n → n = old ∧ f n = old' := by
  cases given with
  | none => simp
  | some a => simp

theorem agrees_iff : t.newValues host res = res ↔ t.Agrees host res := by
  rw [newValues_eq]
  constructor
  · intro h
    have hshares := (shares_eq_iff t.cpu.fixUp.shares host.convertCPUSharesToCgroupV2Value
        res.cpuShares res.cpuWeight).mp
        ⟨congrArg Resources.cpuShares h, congrArg Resources.cpuWeight h⟩
    exact {
      memory := (getD_eq_self_iff _ _).mp (congrArg Resources.memory h)
      memoryReservation := (getD_eq_self_iff _ _).mp (congrArg Resources.memoryReservation h)
      memorySwap := (getD_eq_self_iff _ _).mp (congrArg Resources.memorySwap h)
      memoryCheckBeforeUpdate :=
        (getD_eq_self_iff _ _).mp (congrArg Resources.memoryCheckBeforeUpdate h)
      cpuShares := hshares
      cpuPeriod := (ite_eq_old_iff _ _ _).mp (congrArg Resources.cpuPeriod h)
      cpuQuota := (ite_eq_old_iff _ _ _).mp (congrArg Resources.cpuQuota h)
      cpuBurst := congrArg Resources.cpuBurst h
      cpuRtPeriod := (getD_eq_self_iff _ _).mp (congrArg Resources.cpuRtPeriod h)
      cpuRtRuntime := (getD_eq_self_iff _ _).mp (congrArg Resources.cpuRtRuntime h)
      cpusetCpus := congrArg Resources.cpusetCpus h
      cpusetMems := congrArg Resources.cpusetMems h
      cpuIdle := congrArg Resources.cpuIdle h
      pidsLimit := congrArg Resources.pidsLimit h
      blkioWeight := (getD_eq_self_iff _ _).mp (congrArg Resources.blkioWeight h)
      blkioLeafWeight := (getD_eq_self_iff _ _).mp (congrArg Resources.blkioLeafWeight h)
      blkioWeightDevice := congrArg Resources.blkioWeightDevice h
      blkioThrottleDevice := congrFun (congrArg Resources.blkioThrottleDevice h)
      unified := congrArg Resources.unified h }
  · intro h
    obtain ⟨hshares, hweight⟩ :=
      (shares_eq_iff t.cpu.fixUp.shares host.convertCPUSharesToCgroupV2Value
        res.cpuShares res.cpuWeight).mpr h.cpuShares
    rw [(getD_eq_self_iff _ _).mpr h.memory, (getD_eq_self_iff _ _).mpr h.memoryReservation,
      (getD_eq_self_iff _ _).mpr h.memorySwap,
      (getD_eq_self_iff _ _).mpr h.memoryCheckBeforeUpdate, hshares, hweight,
      (ite_eq_old_iff _ _ _).mpr h.cpuPeriod, (ite_eq_old_iff _ _ _).mpr h.cpuQuota,
      h.cpuBurst, (getD_eq_self_iff _ _).mpr h.cpuRtPeriod,
      (getD_eq_self_iff _ _).mpr h.cpuRtRuntime, h.cpusetCpus, h.cpusetMems, h.cpuIdle,
      h.pidsLimit, (getD_eq_self_iff _ _).mpr h.blkioWeight,
      (getD_eq_self_iff _ _).mpr h.blkioLeafWeight, h.blkioWeightDevice,
      funext h.blkioThrottleDevice, h.unified]

def Request.AgreesRdt (req : Request) (rdt : IntelRdt) : Prop :=
  (req.l3CacheSchema = [] ∨ req.l3CacheSchema = rdt.l3CacheSchema) ∧
    (req.memBwSchema = [] ∨ req.memBwSchema = rdt.memBwSchema)

theorem schema_eq_old_iff (given old : Text) :
    (if given ≠ [] then given else old) = old ↔ given = [] ∨ given = old := by
  by_cases hnil : given = []
  · simp [hnil]
  · simp [hnil]

theorem agreesRdt_iff (req : Request) (rdt : IntelRdt) :
    rdt.update req = rdt ↔ req.AgreesRdt rdt := by
  obtain ⟨l3, mb⟩ := rdt
  unfold IntelRdt.update Request.AgreesRdt
  rw [IntelRdt.mk.injEq, schema_eq_old_iff, schema_eq_old_iff]

def Resources.kept (res : Resources) : Resources :=
  { res with skipDevices := false }

/-- The container holds the old settings, and the managers were last given the old
ones, as far as `view` shows. -/
structure RolledBack (view : Resources → Resources) (old : Settings) (w : World) : Prop where
  resources : view w.held.resources = view old.resources
  intelRdt : w.held.intelRdt = old.intelRdt
  cgroupManager : ∀ given, w.cgroupSettings = some given →
    view given = view old.resources
  intelRdtManager : ∀ given, w.intelRdtSettings = some given → given = old.intelRdt

def Call.FailsClean (view : Resources → Resources) (call : Call) (saved : Saved) : Prop :=
  ∀ err w, call.exec saved = (.error err, w) → err ≠ .nilPointer →
    RolledBack view saved.loaded w

def Call.sections (call : Call) : Option Sections :=
  call.read.bind LinuxResources.sections

variable {view : Resources → Resources} {call : Call} {saved : Saved}

theorem failsClean_of_no_sections (h : call.sections = none) : call.FailsClean view saved := by
  intro err w hexec hne
  unfold Call.sections at h
  cases hread : call.read with
  | none =>
    obtain ⟨err', -, hearly⟩ : ∃ err, err ≠ Err.nilPointer ∧ call.exec saved = (.error err, _) :=
      update_early hread
    rw [hearly] at hexec
    cases hexec
    refine ⟨?_, ?_, fun _ h => (by cases h), fun _ h => (by cases h)⟩
    · rw [held_load]
    · rw [held_load]
  | some r =>
    rw [hread] at h
    obtain ⟨w', hcrash, -⟩ : ∃ w, call.exec saved = (.error .nilPointer, w) ∧ w.stateFile = saved :=
      update_crash hread h
    rw [hcrash] at hexec
    cases hexec
    exact absurd rfl hne

theorem read_of_sections (h : call.sections = some t) :
    ∃ r, call.read = some r ∧ r.sections = some t := by
  unfold Call.sections at h
  exact Option.bind_eq_some_iff.mp h

theorem failsClean_refused_iff (h : call.sections = some t)
    (hrdt : call.req.intelRdtRefused call.host saved.intelRdt.isSome = true) :
    call.FailsClean view saved ↔
      view (t.newValues call.host saved.loaded.resources) = view saved.loaded.resources := by
  obtain ⟨r, hread, hr⟩ := read_of_sections h
  obtain ⟨msg, w, hexec, -, hheld, hcgroup, hintel⟩ := update_intelRdtRefused hread hr hrdt
  constructor
  · intro hclean
    have hback := hclean (.text msg) w hexec (fun h => nomatch h)
    rw [← hback.resources, hheld]
  · intro hsame err w' hexec' _
    rw [hexec] at hexec'
    cases hexec'
    refine ⟨?_, ?_, fun _ hgiven => ?_, fun _ hgiven => ?_⟩
    · rw [hheld, hsame]
    · rw [hheld]
    · rw [hcgroup] at hgiven
      cases hgiven
    · rw [hintel] at hgiven
      cases hgiven

theorem failsClean_setFails_iff (h : call.sections = some t)
    (hrdt : call.req.intelRdtRefused call.host saved.intelRdt.isSome = false)
    (hfails : call.env.setFails call.intelRdtManager = true) :
    call.FailsClean view saved ↔
      view (t.newSettings call saved.loaded).resources = view saved.loaded.resources ∧
        (t.newSettings call saved.loaded).intelRdt = saved.intelRdt := by
  obtain ⟨r, hread, hr⟩ := read_of_sections h
  obtain ⟨msg, w, hexec, -, hheld, hgives⟩ := update_setFails hread hr hrdt hfails
  constructor
  · intro hclean
    have hback := hclean (.text msg) w hexec (fun h => nomatch h)
    rw [← hheld]
    exact ⟨hback.resources, hback.intelRdt⟩
  · rintro ⟨hresources, hintel⟩ err w' hexec' _
    rw [hexec] at hexec'
    cases hexec'
    refine ⟨?_, ?_, fun given hgiven => ?_, fun given hgiven => ?_⟩
    · rw [hheld, hresources]
    · rw [hheld]
      exact hintel
    · rw [hgives.cgroup given hgiven, hresources]
    · rw [hgives.intelRdt given hgiven]
      exact hintel

theorem failsClean_of_succeeds (h : call.sections = some t)
    (hrdt : call.req.intelRdtRefused call.host saved.intelRdt.isSome = false)
    (hfails : call.env.setFails call.intelRdtManager = false) : call.FailsClean view saved := by
  obtain ⟨r, hread, hr⟩ := read_of_sections h
  obtain ⟨w, hexec, -⟩ := update_succeeds hread hr hrdt hfails
  intro err w' hexec' _
  rw [hexec] at hexec'
  cases hexec'

theorem skipDevices_newValues : (t.newValues host saved.loaded.resources).skipDevices = false := by
  rw [newValues_eq]
  rfl

theorem kept_eq_self (h : res.skipDevices = false) : res.kept = res := by
  obtain ⟨⟩ := res
  simp only at h
  subst h
  rfl

theorem kept_newValues_iff :
    (t.newValues host saved.loaded.resources).kept = saved.loaded.resources.kept ↔
      t.Agrees host saved.loaded.resources := by
  have hold : saved.loaded.resources.kept = saved.loaded.resources := rfl
  rw [kept_eq_self skipDevices_newValues, hold, agrees_iff]

theorem map_update_iff (req : Request) (intelRdt : Option IntelRdt) :
    intelRdt.map (·.update req) = intelRdt ↔
      ∀ rdt, intelRdt = some rdt → req.AgreesRdt rdt := by
  cases intelRdt with
  | none => simp
  | some rdt => simp [agreesRdt_iff]

/-- Failed updates. -/
theorem update_rollback_iff (call : Call) (saved : Saved) :
    (call.FailsClean id saved ↔
        ∀ t, call.sections = some t →
          (call.req.intelRdtRefused call.host saved.intelRdt.isSome = true →
            t.Agrees call.host saved.loaded.resources) ∧
          (call.req.intelRdtRefused call.host saved.intelRdt.isSome = false →
            call.env.setFails call.intelRdtManager = false)) ∧
      (call.FailsClean Resources.kept saved ↔
        ∀ t, call.sections = some t →
          (call.req.intelRdtRefused call.host saved.intelRdt.isSome = true →
            t.Agrees call.host saved.loaded.resources) ∧
          (call.req.intelRdtRefused call.host saved.intelRdt.isSome = false →
            call.env.setFails call.intelRdtManager = true →
              t.Agrees call.host saved.loaded.resources ∧
                ∀ rdt, saved.intelRdt = some rdt → call.req.AgreesRdt rdt)) := by
  cases hsections : call.sections with
  | none =>
    refine ⟨iff_of_true (failsClean_of_no_sections hsections) ?_,
      iff_of_true (failsClean_of_no_sections hsections) ?_⟩
    · exact fun t h => nomatch h
    · exact fun t h => nomatch h
  | some t =>
    simp only [Option.some.injEq, forall_eq']
    cases hrdt : call.req.intelRdtRefused call.host saved.intelRdt.isSome with
    | true =>
      rw [failsClean_refused_iff hsections hrdt, failsClean_refused_iff hsections hrdt,
        id, id, agrees_iff, kept_newValues_iff]
      simp
    | false =>
      cases hfails : call.env.setFails call.intelRdtManager with
      | true =>
        rw [failsClean_setFails_iff hsections hrdt hfails,
          failsClean_setFails_iff hsections hrdt hfails]
        have hskip : (t.newSettings call saved.loaded).resources ≠
            saved.loaded.resources := by
          intro h
          cases congrArg Resources.skipDevices h
        have hkept : (t.newSettings call saved.loaded).resources.kept =
            (t.newValues call.host saved.loaded.resources).kept := rfl
        have hintel : (t.newSettings call saved.loaded).intelRdt =
            saved.intelRdt.map (·.update call.req) := rfl
        rw [hkept, kept_newValues_iff, hintel, map_update_iff]
        simp [hskip]
      | false =>
        refine ⟨iff_of_true (failsClean_of_succeeds hsections hrdt hfails) ?_,
          iff_of_true (failsClean_of_succeeds hsections hrdt hfails) ?_⟩
        · simp
        · simp

def refusedMemory : Call where
  host := bareHost
  req := { source := .file (.ok { memory := .value { limit := .value 4096 } }) }
  env := { cgroupSet := some "device or resource busy" }

theorem refused_memory_held :
    ∃ err w,
      refusedMemory.exec { resources := { memory := 1048576 } } = (.error err, w) ∧
        w.held.resources.memory = 4096 ∧
        w.cgroupSettings.map (·.memory) = some 4096 ∧
        ¬ refusedMemory.FailsClean Resources.kept { resources := { memory := 1048576 } } := by
  refine ⟨_, _, rfl, rfl, rfl, fun hclean => ?_⟩
  have hback := hclean (.text "device or resource busy") _ rfl (fun h => nomatch h)
  have hmemory : (4096 : Int) = 1048576 := congrArg Resources.memory hback.resources
  omega

end Runc.Update
