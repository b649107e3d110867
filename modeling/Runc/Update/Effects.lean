import Runc.Update.Command

/-!
# How the update command ends

**Results.**
* `update_succeeds`: the new configuration is saved.
-/

namespace Runc.Update

open Lib (Text Program)

structure Sections where
  memory : LinuxMemory
  cpu : LinuxCPU
  pids : LinuxPids
  blockIO : LinuxBlockIO
  unified : Text → Option Text

def LinuxResources.sections (r : LinuxResources) : Option Sections :=
  match r.memory, r.cpu, r.pids, r.blockIO with
  | some m, some c, some p, some b => some ⟨m, c, p, b, r.unified⟩
  | _, _, _, _ => none

def Sections.newValues (host : Host) (r : Sections) (res : Resources) : Resources :=
  updatePids r.pids r.unified
    (updateMemory r.memory.fixUp
      (updateCPU host r.cpu.fixUp ( updateBlockIO r.blockIO res)))

def Request.intelRdtRefused (host : Host) (req : Request) (present : Bool) : Bool :=
  (req.l3CacheSchema ≠ [] && !host.isCATEnabled) ||
    (req.memBwSchema ≠ [] && !host.isMBAEnabled) ||
    ((req.l3CacheSchema ≠ [] || req.memBwSchema ≠ []) && !present)

def Env.setFails (env : Env) (intelRdtManager : Bool) : Bool :=
  env.currentStatus.isSome || env.stopped || env.cgroupSet.isSome ||
    (intelRdtManager && env.intelRdtSet.isSome) || env.saveState.isSome

def World.write (w : World) (config : Config) (f : Resources → Resources) : World :=
  { w with heap := { w.heap with
      resources := Function.update w.heap.resources config.cgroups
        (f (w.heap.resources config.cgroups)) } }

def Heap.writeRdt (heap : Heap) (req : Request) : Option Nat → Heap
  | none => heap
  | some a =>
      { heap with
        intelRdt := Function.update heap.intelRdt a ((heap.intelRdt a).update req) }

def World.writeRdt (w : World) (config : Config) (req : Request) : World :=
  { w with heap := w.heap.writeRdt req config.intelRdt }

theorem exec_writeResources (config : Config) (f : Resources → Resources) (w : World) :
    (writeResources config f).exec w = (.ok (), w.write config f) :=
  rfl

@[simp]
theorem held_write (w : World) (f : Resources → Resources) :
    (w.write w.config f).held =
      { w.held with resources := f w.held.resources } := by
  simp [World.held, World.write, Heap.settings]

theorem write_write (w : World) (config : Config) (f g : Resources → Resources) :
    (w.write config f).write config g = w.write config fun res => g (f res) := by
  simp [World.write]

@[simp]
theorem held_writeRdt (w : World) (req : Request) :
    (w.writeRdt w.config req).held =
      { w.held with intelRdt := w.held.intelRdt.map (·.update req) } := by
  cases hrdt : w.config.intelRdt with
  | none => simp [World.held, World.writeRdt, Heap.writeRdt, Heap.settings, hrdt]
  | some a => simp [World.held, World.writeRdt, Heap.writeRdt, Heap.settings, hrdt]

variable {req : Request}

theorem writeRdt_of_nil (w : World) (config : Config) (hl3 : req.l3CacheSchema = [])
    (hmb : req.memBwSchema = []) : w.writeRdt config req = w := by
  unfold World.writeRdt
  cases config.intelRdt with
  | none => rfl
  | some a =>
    have hsame : (w.heap.intelRdt a).update req = w.heap.intelRdt a := by
      simp [IntelRdt.update, hl3, hmb]
    simp [Heap.writeRdt, hsame]

theorem exec_fault_none (w : World) : (fault none).exec w = (.ok (), w) :=
  rfl

theorem exec_fault_some (msg : String) (w : World) :
    (fault (some msg)).exec w = (.error (.text msg), w) :=
  rfl

theorem exec_updateValues (host : Host) (config : Config) (hr : r.sections = some t) (w : World) :
    (updateValues host config r).exec w =
      (.ok (), w.write config (t.newValues host)) := by
  obtain ⟨memory, cpu, pids, blockIO, unified⟩ := r
  unfold LinuxResources.sections at hr
  split at hr
  · rename_i m c p b hm hc hp hb
    cases hr
    simp only at hm hc hp hb
    subst hm hc hp hb
    simp only [updateValues, deref, Program.exec_bind, Program.exec_pure,
      exec_writeResources, write_write]
    rfl
  · cases hr

theorem exec_updateValues_nil (host : Host) (config : Config) (hr : r.sections = none) (w : World) :
    ∃ w',
      (updateValues host config r).exec w = (.error .nilPointer, w') ∧
        w'.stateFile = w.stateFile := by
  obtain ⟨memory, cpu, pids, blockIO, unified⟩ := r
  cases memory with
  | none => exact ⟨w, rfl, rfl⟩
  | some m =>
    cases cpu with
    | none => exact ⟨w, rfl, rfl⟩
    | some c =>
      cases blockIO with
      | none => exact ⟨w, rfl, rfl⟩
      | some b =>
        cases pids with
        | none => exact ⟨_, rfl, rfl⟩
        | some p => cases hr

variable {host : Host}

theorem exec_updateIntelRdt_refused {config : Config}
    (h : req.intelRdtRefused host config.intelRdt.isSome = true) (w : World) :
    ∃ msg, (updateIntelRdt host config req).exec w = (.error (.text msg), w) := by
  unfold updateIntelRdt
  cases hcat : (decide (req.l3CacheSchema ≠ []) && !host.isCATEnabled) with
  | true => exact ⟨_, rfl⟩
  | false =>
    cases hmba : (decide (req.memBwSchema ≠ []) && !host.isMBAEnabled) with
    | true => exact ⟨_, rfl⟩
    | false =>
      rw [Request.intelRdtRefused, hcat, hmba, Bool.false_or, Bool.false_or, Bool.and_eq_true] at h
      rw [h.1]
      cases hrdt : config.intelRdt with
      | none => exact ⟨_, rfl⟩
      | some a =>
        rw [hrdt] at h
        cases h.2

theorem exec_updateIntelRdt {config : Config}
    (h : req.intelRdtRefused host config.intelRdt.isSome = false) (w : World) :
    (updateIntelRdt host config req).exec w = (.ok (), w.writeRdt config req) := by
  rw [Request.intelRdtRefused, Bool.or_eq_false_iff, Bool.or_eq_false_iff] at h
  obtain ⟨⟨hcat, hmba⟩, hrdt⟩ := h
  unfold updateIntelRdt
  rw [hcat, hmba]
  cases hgiven : (decide (req.l3CacheSchema ≠ []) || decide (req.memBwSchema ≠ [])) with
  | false =>
    have hnil : req.l3CacheSchema = [] ∧ req.memBwSchema = [] := by
      simpa using hgiven
    rw [writeRdt_of_nil w config hnil.1 hnil.2]
    rfl
  | true =>
    rw [hgiven, Bool.true_and] at hrdt
    unfold World.writeRdt
    cases hconfig : config.intelRdt with
    | none =>
      rw [hconfig] at hrdt
      cases hrdt
    | some a => rfl

/-- Only the settings that `w` holds have been given to the managers. -/
structure GivesOnly (held : Settings) (w : World) : Prop where
  cgroup : ∀ given, w.cgroupSettings = some given → given = held.resources
  intelRdt : ∀ given, w.intelRdtSettings = some given → given = held.intelRdt

theorem exec_set_fails {env : Env} {w : World} (hfails : env.setFails w.intelRdtManager = true)
    (hcgroup : w.cgroupSettings = none) (hrdt : w.intelRdtSettings = none) :
    ∃ msg w',
      (set w.config env).exec w = (.error (.text msg), w') ∧
        w'.held = w.held ∧ w'.stateFile = w.stateFile ∧ GivesOnly w.held w' := by
  obtain ⟨getContainer, currentStatus, stopped, cgroupSet, cgroupSetBack, intelRdtSet,
    intelRdtSetBack, saveState⟩ := env
  obtain ⟨heap, config, manager, cgroupSettings, intelRdtSettings, stateFile⟩ := w
  simp only at hcgroup hrdt
  subst hcgroup hrdt
  cases currentStatus with
  | some msg => exact ⟨msg, _, rfl, rfl, rfl, ⟨fun _ h => (by cases h), fun _ h => (by cases h)⟩⟩
  | none =>
  cases stopped with
  | true => exact ⟨_, _, rfl, rfl, rfl, ⟨fun _ h => (by cases h), fun _ h => (by cases h)⟩⟩
  | false =>
  cases cgroupSet with
  | some msg =>
    cases cgroupSetBack with
    | none => exact ⟨msg, _, rfl, rfl, rfl, ⟨fun _ h => (by cases h; rfl), fun _ h => (by cases h)⟩⟩
    | some back =>
      exact ⟨msg, _, rfl, rfl, rfl, ⟨fun _ h => (by cases h; rfl), fun _ h => (by cases h)⟩⟩
  | none =>
  cases manager with
  | false =>
    cases saveState with
    | none => cases hfails
    | some msg =>
      exact ⟨msg, _, rfl, rfl, rfl, ⟨fun _ h => (by cases h; rfl), fun _ h => (by cases h)⟩⟩
  | true =>
  cases intelRdtSet with
  | none =>
    cases saveState with
    | none => cases hfails
    | some msg =>
      exact ⟨msg, _, rfl, rfl, rfl, ⟨fun _ h => (by cases h; rfl), fun _ h => (by cases h; rfl)⟩⟩
  | some msg =>
    cases cgroupSetBack <;> cases intelRdtSetBack <;>
      exact ⟨msg, _, rfl, rfl, rfl, ⟨fun _ h => (by cases h; rfl), fun _ h => (by cases h; rfl)⟩⟩

theorem exec_set {env : Env} {w : World} (hfails : env.setFails w.intelRdtManager = false) :
    ∃ w',
      (set w.config env).exec w = (.ok (), w') ∧
        w'.stateFile = {
          resources := { w.held.resources with skipDevices := false }
          intelRdt := w.held.intelRdt } := by
  obtain ⟨getContainer, currentStatus, stopped, cgroupSet, cgroupSetBack, intelRdtSet,
    intelRdtSetBack, saveState⟩ := env
  obtain ⟨heap, config, manager, cgroupSettings, intelRdtSettings, stateFile⟩ := w
  simp only [Env.setFails, Bool.or_eq_false_iff, Option.isSome_eq_false_iff,
    Option.isNone_iff_eq_none] at hfails
  obtain ⟨⟨⟨⟨rfl, rfl⟩, rfl⟩, hrdt⟩, rfl⟩ := hfails
  cases manager with
  | false => exact ⟨_, rfl, rfl⟩
  | true =>
    cases intelRdtSet with
    | none => exact ⟨_, rfl, rfl⟩
    | some msg => cases hrdt

structure Call where
  host : Host
  req : Request
  env : Env := {}
  intelRdtManager : Bool := false

def bareHost : Host where
  parseInt _ := .error "invalid syntax"
  parseUint _ := .error "invalid syntax"
  ramInBytes _ := .error "invalid size"
  sharesCurve _ := 0
  isCATEnabled := false
  isMBAEnabled := false

def Call.exec (call : Call) (saved : Saved) : Except Err Unit × World :=
  (update call.host call.req call.env).exec (load saved call.intelRdtManager)

def Call.read (call : Call) : Option LinuxResources :=
  match call.env.getContainer with
  | some _ => none
  | none => (call.req.source.resources call.host).toOption

def Saved.loaded (saved : Saved) : Settings where
  resources := { saved.resources with skipDevices := false }
  intelRdt := saved.intelRdt

theorem held_load (saved : Saved) (manager : Bool) : (load saved manager).held = saved.loaded := by
  obtain ⟨resources, intelRdt⟩ := saved
  cases intelRdt with
  | none => rfl
  | some rdt => rfl

theorem isSome_load_intelRdt (saved : Saved) (manager : Bool) :
    (load saved manager).config.intelRdt.isSome = saved.intelRdt.isSome := by
  simp [load]

variable {call : Call} {saved : Saved} {r : LinuxResources} {t : Sections}

theorem exec_of_read (hread : call.read = some r) :
    call.exec saved =
      Program.exec
        (do
          updateValues call.host (load saved call.intelRdtManager).config r
          updateIntelRdt call.host (load saved call.intelRdtManager).config call.req
          writeResources (load saved call.intelRdtManager).config
            fun res => { res with skipDevices := true }
          set (load saved call.intelRdtManager).config call.env)
        (load saved call.intelRdtManager) := by
  unfold Call.read at hread
  cases hget : call.env.getContainer with
  | some msg =>
    rw [hget] at hread
    cases hread
  | none =>
    cases hres : call.req.source.resources call.host with
    | error err =>
      rw [hget, hres] at hread
      cases hread
    | ok r' =>
      rw [hget, hres] at hread
      cases hread
      simp only [Call.exec, update, hget, readResources, hres, Program.exec_bind,
        exec_fault_none, Program.exec_get, Program.exec_pure]

theorem update_crash (hread : call.read = some r) (hr : r.sections = none) :
    ∃ w, call.exec saved = (.error .nilPointer, w) ∧ w.stateFile = saved := by
  obtain ⟨w, hexec, hfile⟩ :=
    exec_updateValues_nil call.host (load saved call.intelRdtManager).config hr
      (load saved call.intelRdtManager)
  refine ⟨w, ?_, hfile⟩
  rw [exec_of_read hread, Program.exec_bind, hexec]

theorem update_intelRdtRefused (hread : call.read = some r) (hr : r.sections = some t)
    (hrdt : call.req.intelRdtRefused call.host saved.intelRdt.isSome = true) :
    ∃ msg w,
      call.exec saved = (.error (.text msg), w) ∧ w.stateFile = saved ∧
        w.held = { saved.loaded with
          resources := t.newValues call.host saved.loaded.resources } ∧
        w.cgroupSettings = none ∧ w.intelRdtSettings = none := by
  let w₀ := load saved call.intelRdtManager
  rw [← isSome_load_intelRdt saved call.intelRdtManager] at hrdt
  obtain ⟨msg, hexec⟩ :=
    exec_updateIntelRdt_refused hrdt (w₀.write w₀.config (t.newValues call.host))
  refine ⟨msg, w₀.write w₀.config (t.newValues call.host), ?_, rfl, ?_, rfl, rfl⟩
  · rw [exec_of_read hread, Program.exec_bind, exec_updateValues _ _ hr]
    simp only
    rw [Program.exec_bind, hexec]
  · rw [held_write, held_load]

def Sections.newSettings (t : Sections) (call : Call) (old : Settings) : Settings where
  resources := { t.newValues call.host old.resources with skipDevices := true }
  intelRdt := old.intelRdt.map (·.update call.req)

theorem exec_until_set (hread : call.read = some r) (hr : r.sections = some t)
    (hrdt : call.req.intelRdtRefused call.host saved.intelRdt.isSome = false) :
    ∃ w,
      call.exec saved = (set w.config call.env).exec w ∧
        w.held = t.newSettings call saved.loaded ∧ w.stateFile = saved ∧
        w.intelRdtManager = call.intelRdtManager ∧
        w.cgroupSettings = none ∧ w.intelRdtSettings = none := by
  let w₀ := load saved call.intelRdtManager
  let w₁ := w₀.write w₀.config (t.newValues call.host)
  let w₂ := w₁.writeRdt w₀.config call.req
  rw [← isSome_load_intelRdt saved call.intelRdtManager] at hrdt
  refine ⟨w₂.write w₀.config fun res => { res with skipDevices := true },
    ?_, ?_, rfl, rfl, rfl, rfl⟩
  · rw [exec_of_read hread, Program.exec_bind, exec_updateValues _ _ hr]
    simp only
    rw [Program.exec_bind, exec_updateIntelRdt hrdt w₁]
    simp only
    rw [Program.exec_bind, exec_writeResources]
    rfl
  · -- all three writes go to the cells that the container's configuration is in
    have hheld₁ : w₁.held = { saved.loaded with
        resources := t.newValues call.host saved.loaded.resources } := by
      rw [held_write, held_load]
    have hheld₂ : w₂.held = { w₁.held with
        intelRdt := w₁.held.intelRdt.map (·.update call.req) } :=
      held_writeRdt w₁ call.req
    have hheld₃ := held_write w₂ fun res => { res with skipDevices := true }
    rw [hheld₂, hheld₁] at hheld₃
    exact hheld₃

theorem update_setFails (hread : call.read = some r) (hr : r.sections = some t)
    (hrdt : call.req.intelRdtRefused call.host saved.intelRdt.isSome = false)
    (hfails : call.env.setFails call.intelRdtManager = true) :
    ∃ msg w,
      call.exec saved = (.error (.text msg), w) ∧ w.stateFile = saved ∧
        w.held = t.newSettings call saved.loaded ∧
        GivesOnly (t.newSettings call saved.loaded) w := by
  obtain ⟨w, hexec, hheld, hfile, hmanager, hcgroup, hintel⟩ := exec_until_set hread hr hrdt
  rw [← hmanager] at hfails
  obtain ⟨msg, w', hset, hheld', hfile', hgives⟩ := exec_set_fails hfails hcgroup hintel
  refine ⟨msg, w', hexec.trans hset, hfile'.trans hfile, hheld'.trans hheld, ?_⟩
  rw [← hheld]
  exact hgives

theorem update_succeeds (hread : call.read = some r) (hr : r.sections = some t)
    (hrdt : call.req.intelRdtRefused call.host saved.intelRdt.isSome = false)
    (hfails : call.env.setFails call.intelRdtManager = false) :
    ∃ w,
      call.exec saved = (.ok (), w) ∧
        w.stateFile = {
          resources := { t.newValues call.host saved.loaded.resources with
            skipDevices := false }
          intelRdt := saved.intelRdt.map (·.update call.req) } := by
  obtain ⟨w, hexec, hheld, -, hmanager, -, -⟩ := exec_until_set hread hr hrdt
  rw [← hmanager] at hfails
  obtain ⟨w', hset, hfile⟩ := exec_set hfails
  refine ⟨w', hexec.trans hset, ?_⟩
  rw [hfile, hheld]
  rfl

theorem parseOption_error {α : Type} {opt : String} {parse : Text → Except String α} {val : Text}
    {err : Err} (h : parseOption opt parse val = .error err) : err ≠ .nilPointer := by
  unfold parseOption at h
  split at h
  · cases h
  · split at h
    · cases h
    · cases h
      exact fun h => nomatch h

theorem bind_error {α β : Type} {x : Except Err α} {f : α → Except Err β}
    (hx : ∀ err, x = .error err → err ≠ .nilPointer)
    (hf : ∀ a err, f a = .error err → err ≠ .nilPointer) :
    ∀ err, x >>= f = .error err → err ≠ .nilPointer := by
  intro err h
  cases x with
  | error err' =>
    cases h
    exact hx err rfl
  | ok a => exact hf a err h

theorem resources_error {source : Source} {err : Err} (h : source.resources host = .error err) :
    err ≠ .nilPointer := by
  cases source with
  | file doc =>
    cases doc with
    | ok d => cases h
    | error msg =>
      cases h
      exact fun h => nomatch h
  | flags f =>
    revert err
    change ∀ err, f.resources host = .error err → err ≠ .nilPointer
    unfold Flags.resources
    repeat refine bind_error (fun _ => parseOption_error) fun _ => ?_
    intro err h
    cases h

theorem update_early (hread : call.read = none) :
    ∃ err,
      err ≠ .nilPointer ∧
        call.exec saved = (.error err, load saved call.intelRdtManager) := by
  unfold Call.read at hread
  cases hget : call.env.getContainer with
  | some msg =>
    refine ⟨.text msg, (by intro h; cases h), ?_⟩
    rw [Call.exec, update, hget, Program.exec_bind, exec_fault_some]
  | none =>
    cases hres : call.req.source.resources call.host with
    | ok r =>
      rw [hget, hres] at hread
      cases hread
    | error err =>
      refine ⟨err, resources_error hres, ?_⟩
      simp only [Call.exec, update, hget, readResources, hres, Program.exec_bind,
        exec_fault_none, Program.exec_get, Program.exec_throw]

end Runc.Update
