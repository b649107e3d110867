import Runc.Update.Effects
import Runc.Update.Supplied

/-!
# The values that a request leaves

The command copies most values only if the request has them; some are overwritten by
what the request has, be it nothing.
-/

namespace Runc.Update

open Lib (Text overlay lastGiven bind_eq_ok)

def Doc.nullSection (d : Doc) : Prop :=
  d.memory = .null ∨ d.cpu = .null ∨ d.pids = .null ∨ d.blockIO = .null

def Source.nullSection : Source → Prop
  | .file (.ok doc) => doc.nullSection
  | _ => False

def Source.nullCheck : Source → Prop
  | .file (.ok doc) => ∃ m, doc.memory = .value m ∧ m.checkBeforeUpdate = .null
  | _ => False

def Source.nullEntry (source : Source) (key : Text) : Option Text :=
  match source with
  | .file (.ok doc) =>
      match doc.unified.given.bind fun m => m key with
      | some none => some []
      | _ => none
  | _ => none

def Source.weightFits : Source → Prop
  | .flags f => 0 ≤ f.blkioWeight ∧ f.blkioWeight < 65536
  | .file _ => True

def Source.storedWeight : Source → Int → Int
  | .flags _ => fun n => (uint16 n : Int)
  | .file _ => fun n => n

structure Sections.Reads (t : Sections) (host : Host) (source : Source) : Prop where
  limit : t.memory.limit = (source.supplied host).limit
  reservation : t.memory.reservation = (source.supplied host).reservation
  swap : t.memory.swap = (source.supplied host).swap
  check_null : source.nullCheck → t.memory.checkBeforeUpdate = none
  check : ¬ source.nullCheck →
    t.memory.checkBeforeUpdate = some ((source.supplied host).checkBeforeUpdate.getD false)
  shares : t.cpu.shares = (source.supplied host).shares
  quota : t.cpu.quota = (source.supplied host).quota
  burst : t.cpu.burst = (source.supplied host).burst
  period : t.cpu.period = (source.supplied host).period
  realtimeRuntime : t.cpu.realtimeRuntime = (source.supplied host).realtimeRuntime
  realtimePeriod : t.cpu.realtimePeriod = (source.supplied host).realtimePeriod
  cpus : t.cpu.cpus = (source.supplied host).cpus.getD []
  mems : t.cpu.mems = (source.supplied host).mems.getD []
  idle : t.cpu.idle = (source.supplied host).idle
  pidsLimit : t.pids.limit = (source.supplied host).pidsLimit
  weight : t.blockIO.weight.map (fun n : Nat => (n : Int)) =
    (source.supplied host).weight.map source.storedWeight
  leafWeight : t.blockIO.leafWeight = (source.supplied host).leafWeight
  weightDevice : t.blockIO.weightDevice = (source.supplied host).weightDevice
  throttleDevice : t.blockIO.throttleDevice = (source.supplied host).throttleDevice
  unified : ∀ key,
    t.unified key = ((source.supplied host).unified key).or (source.nullEntry key)

theorem parseOption_eq_ok {α : Type} {opt : String} {parse : Text → Except String α} {val : Text}
    {x : Option α} (h : parseOption opt parse val = .ok x) : x = parsed parse val := by
  unfold parseOption at h
  unfold parsed
  split at h
  · rename_i hnil
    cases h
    rw [if_pos hnil]
  · rename_i hne
    rw [if_neg hne]
    split at h
    · rename_i v hparse
      cases h
      rw [hparse]
      rfl
    · cases h

theorem flags_reads {host : Host} {f : Flags} {r : LinuxResources} (h : f.resources host = .ok r) :
    ∃ t, r.sections = some t ∧ t.Reads host (.flags f) := by
  obtain ⟨idle, hidle, h⟩ := bind_eq_ok h
  obtain ⟨burst, hburst, h⟩ := bind_eq_ok h
  obtain ⟨period, hperiod, h⟩ := bind_eq_ok h
  obtain ⟨rtPeriod, hrtPeriod, h⟩ := bind_eq_ok h
  obtain ⟨shares, hshares, h⟩ := bind_eq_ok h
  obtain ⟨quota, hquota, h⟩ := bind_eq_ok h
  obtain ⟨rtRuntime, hrtRuntime, h⟩ := bind_eq_ok h
  obtain ⟨limit, hlimit, h⟩ := bind_eq_ok h
  obtain ⟨swap, hswap, h⟩ := bind_eq_ok h
  obtain ⟨-, -, h⟩ := bind_eq_ok h
  obtain ⟨-, -, h⟩ := bind_eq_ok h
  obtain ⟨reservation, hreservation, h⟩ := bind_eq_ok h
  cases h
  have hempty : ∀ val : Text, val = (if val = [] then none else some val).getD [] := by
    intro val
    split
    · assumption
    · rfl
  refine ⟨_, rfl, {
    limit := parseOption_eq_ok hlimit
    reservation := parseOption_eq_ok hreservation
    swap := parseOption_eq_ok hswap
    check_null := fun h => h.elim
    check := fun _ => rfl
    shares := parseOption_eq_ok hshares
    quota := parseOption_eq_ok hquota
    burst := parseOption_eq_ok hburst
    period := parseOption_eq_ok hperiod
    realtimeRuntime := parseOption_eq_ok hrtRuntime
    realtimePeriod := parseOption_eq_ok hrtPeriod
    cpus := hempty _
    mems := hempty _
    idle := parseOption_eq_ok hidle
    pidsLimit := rfl
    weight := ?_
    leafWeight := rfl
    weightDevice := rfl
    throttleDevice := rfl
    unified := fun _ => rfl }⟩
  change (if f.blkioWeight ≠ 0 then some (uint16 f.blkioWeight) else none).map _ =
    (if f.blkioWeight = 0 then none else some f.blkioWeight).map _
  by_cases hzero : f.blkioWeight = 0
  · rw [if_neg (not_not_intro hzero), if_pos hzero]
    rfl
  · rw [if_pos hzero, if_neg hzero]
    rfl

theorem pointer_none {α : Type} (m : Member α) : m.pointer none = m.given := by
  cases m with
  | absent => rfl
  | null => rfl
  | value a => rfl

theorem plain_empty {α : Type} (empty : α) (m : Member α) : m.plain empty = m.given.getD empty := by
  cases m with
  | absent => rfl
  | null => rfl
  | value a => rfl

theorem doc_sections_eq_none_iff (d : Doc) :
    (d.decode .initial).sections = none ↔ d.nullSection := by
  obtain ⟨memory, cpu, pids, blockIO, unified, unread⟩ := d
  unfold Doc.nullSection
  cases memory <;> cases cpu <;> cases pids <;> cases blockIO <;>
    simp [LinuxResources.sections, Doc.decode, Member.object, LinuxResources.initial]

theorem memory_reads {member : Member MemoryDoc} {m : LinuxMemory}
    (h : member.object MemoryDoc.decode {} (some { checkBeforeUpdate := some false }) =
      some m) :
    m.limit = member.given.bind (·.limit.given) ∧
      m.reservation = member.given.bind (·.reservation.given) ∧
      m.swap = member.given.bind (·.swap.given) ∧
      m.checkBeforeUpdate =
        member.given.elim (some false) (·.checkBeforeUpdate.pointer (some false)) := by
  cases member with
  | absent =>
    cases h
    exact ⟨rfl, rfl, rfl, rfl⟩
  | null => cases h
  | value d =>
    cases h
    exact ⟨pointer_none _, pointer_none _, pointer_none _, rfl⟩

theorem cpu_reads {member : Member CPUDoc} {c : LinuxCPU}
    (h : member.object CPUDoc.decode {} (some {}) = some c) :
    c = {
      shares := member.given.bind (·.shares.given)
      quota := member.given.bind (·.quota.given)
      burst := member.given.bind (·.burst.given)
      period := member.given.bind (·.period.given)
      realtimeRuntime := member.given.bind (·.realtimeRuntime.given)
      realtimePeriod := member.given.bind (·.realtimePeriod.given)
      cpus := (member.given.bind (·.cpus.given)).getD []
      mems := (member.given.bind (·.mems.given)).getD []
      idle := member.given.bind (·.idle.given) } := by
  cases member with
  | absent =>
    cases h
    rfl
  | null => cases h
  | value d =>
    cases h
    simp only [Option.getD_some, CPUDoc.decode, pointer_none, plain_empty]
    rfl

theorem pids_reads {member : Member PidsDoc} {p : LinuxPids}
    (h : member.object PidsDoc.decode {} (some {}) = some p) :
    p.limit = member.given.bind (·.limit.given) := by
  cases member with
  | absent =>
    cases h
    rfl
  | null => cases h
  | value d =>
    cases h
    exact pointer_none _

theorem blockIO_reads {member : Member BlockIODoc} {b : LinuxBlockIO}
    (h : member.object BlockIODoc.decode {} (some {}) = some b) :
    b = {
      weight := member.given.bind (·.weight.given)
      leafWeight := member.given.bind (·.leafWeight.given)
      weightDevice := (member.given.bind (·.weightDevice.given)).getD []
      throttleDevice := fun kind =>
        (member.given.bind fun d => (d.throttleDevice kind).given).getD [] } := by
  cases member with
  | absent =>
    cases h
    rfl
  | null => cases h
  | value d =>
    cases h
    simp only [Option.getD_some, BlockIODoc.decode, pointer_none, plain_empty]
    rfl

theorem unified_reads (d : Doc) (key : Text) :
    (d.decode .initial).unified key =
      (d.supplied.unified key).or ((Source.file (.ok d)).nullEntry key) := by
  simp only [Doc.decode, Doc.supplied, Source.nullEntry]
  cases d.unified with
  | absent => rfl
  | null => rfl
  | value m =>
    simp only [Member.given, Option.bind_some]
    rcases m key with _ | _ | text
    · rfl
    · rfl
    · rfl

theorem doc_reads {host : Host} {d : Doc} {t : Sections}
    (h : (d.decode .initial).sections = some t) : t.Reads host (.file (.ok d)) := by
  unfold LinuxResources.sections at h
  split at h
  · rename_i m c p b hm hc hp hb
    cases h
    obtain ⟨hlimit, hreservation, hswap, hcheck⟩ := memory_reads hm
    have hcpu := cpu_reads hc
    have hblkio := blockIO_reads hb
    refine {
      limit := hlimit
      reservation := hreservation
      swap := hswap
      check_null := ?_
      check := ?_
      shares := congrArg LinuxCPU.shares hcpu
      quota := congrArg LinuxCPU.quota hcpu
      burst := congrArg LinuxCPU.burst hcpu
      period := congrArg LinuxCPU.period hcpu
      realtimeRuntime := congrArg LinuxCPU.realtimeRuntime hcpu
      realtimePeriod := congrArg LinuxCPU.realtimePeriod hcpu
      cpus := congrArg LinuxCPU.cpus hcpu
      mems := congrArg LinuxCPU.mems hcpu
      idle := congrArg LinuxCPU.idle hcpu
      pidsLimit := pids_reads hp
      weight := ?_
      leafWeight := congrArg LinuxBlockIO.leafWeight hblkio
      weightDevice := congrArg LinuxBlockIO.weightDevice hblkio
      throttleDevice := congrArg LinuxBlockIO.throttleDevice hblkio
      unified := unified_reads d }
    · rintro ⟨doc, hdoc, hnull⟩
      rw [hcheck, hdoc]
      change doc.checkBeforeUpdate.pointer (some false) = none
      rw [hnull]
      rfl
    · intro hnull
      rw [hcheck]
      simp only [Source.supplied, Doc.supplied]
      cases hmemory : d.memory with
      | absent => rfl
      | null => rfl
      | value doc =>
        change doc.checkBeforeUpdate.pointer (some false) =
          some (doc.checkBeforeUpdate.given.getD false)
        cases hvalue : doc.checkBeforeUpdate with
        | absent => rfl
        | null => exact absurd ⟨doc, hmemory, hvalue⟩ hnull
        | value x => rfl
    · rw [hblkio]
      change _ = ((d.blockIO.given.bind (·.weight.given)).map _).map _
      rw [Option.map_map]
      rfl
  · cases h

theorem source_reads {host : Host} {source : Source} {r : LinuxResources}
    (h : source.resources host = .ok r) :
    (source.nullSection ∧ r.sections = none) ∨
      (¬ source.nullSection ∧ ∃ t, r.sections = some t ∧ t.Reads host source) := by
  cases source with
  | flags f => exact Or.inr ⟨fun h => h.elim, flags_reads h⟩
  | file doc =>
    cases doc with
    | error msg => cases h
    | ok d =>
      cases h
      cases hsections : (d.decode .initial).sections with
      | none => exact Or.inl ⟨(doc_sections_eq_none_iff d).mp hsections, rfl⟩
      | some t =>
        refine Or.inr ⟨fun hnull => ?_, t, rfl, doc_reads hsections⟩
        rw [(doc_sections_eq_none_iff d).mpr hnull] at hsections
        cases hsections

theorem updatePeriodQuota_eq (c : LinuxCPU) (res : Resources) :
    updatePeriodQuota c res =
      { res with
        cpuPeriod :=
          if c.period.getD 0 ≠ 0 ∨ c.quota.getD 0 = 0 then c.period.getD 0
          else res.cpuPeriod
        cpuQuota := if c.quota.getD 0 ≠ 0 ∨ c.period.getD 0 = 0 then c.quota.getD 0
          else res.cpuQuota } := by
  unfold updatePeriodQuota
  by_cases hp : c.period.getD 0 = 0
  · by_cases hq : c.quota.getD 0 = 0
    · simp [hp, hq]
    · simp [hp, hq]
  · by_cases hq : c.quota.getD 0 = 0
    · simp [hp, hq]
    · simp [hp, hq]

theorem updateShares_eq (host : Host) (c : LinuxCPU) (res : Resources) :
    updateShares host c res =
      { res with
        cpuShares := c.shares.getD res.cpuShares
        cpuWeight :=
          (c.shares.map host.convertCPUSharesToCgroupV2Value).getD res.cpuWeight } := by
  unfold updateShares
  cases c.shares with
  | none => rfl
  | some shares => rfl

theorem memory_fixUp (m : LinuxMemory) :
    m.fixUp =
      { m with swap := if m.limit = some (-1) ∧ m.swap = none then some 0 else m.swap } := by
  unfold LinuxMemory.fixUp
  split
  · rfl
  · rfl

theorem cpu_fixUp (c : LinuxCPU) :
    c.fixUp =
      { c with shares := if c.idle.isSome ∧ c.shares = none then some 0 else c.shares } := by
  unfold LinuxCPU.fixUp
  split
  · rfl
  · rfl

theorem newValues_eq (t : Sections) (host : Host) (res : Resources) :
    t.newValues host res =
      { memory := t.memory.limit.getD res.memory
        memoryReservation := t.memory.reservation.getD res.memoryReservation
        memorySwap := t.memory.fixUp.swap.getD res.memorySwap
        memoryCheckBeforeUpdate := t.memory.checkBeforeUpdate.getD res.memoryCheckBeforeUpdate
        cpuShares := t.cpu.fixUp.shares.getD res.cpuShares
        cpuWeight :=
          (t.cpu.fixUp.shares.map host.convertCPUSharesToCgroupV2Value).getD res.cpuWeight
        cpuPeriod := if t.cpu.period.getD 0 ≠ 0 ∨ t.cpu.quota.getD 0 = 0 then t.cpu.period.getD 0
          else res.cpuPeriod
        cpuQuota := if t.cpu.quota.getD 0 ≠ 0 ∨ t.cpu.period.getD 0 = 0 then t.cpu.quota.getD 0
          else res.cpuQuota
        cpuBurst := t.cpu.burst
        cpuRtPeriod := t.cpu.realtimePeriod.getD res.cpuRtPeriod
        cpuRtRuntime := t.cpu.realtimeRuntime.getD res.cpuRtRuntime
        cpusetCpus := t.cpu.cpus
        cpusetMems := t.cpu.mems
        cpuIdle := t.cpu.idle
        pidsLimit := t.pids.limit
        blkioWeight := t.blockIO.weight.getD res.blkioWeight
        blkioLeafWeight := t.blockIO.leafWeight.getD res.blkioLeafWeight
        blkioWeightDevice := t.blockIO.weightDevice.foldl upsertWeightDevice res.blkioWeightDevice
        blkioThrottleDevice := fun kind =>
          (t.blockIO.throttleDevice kind).foldl upsertThrottleDevice (res.blkioThrottleDevice kind)
        unified := t.unified
        unread := res.unread
        skipDevices := res.skipDevices } := by
  simp only [Sections.newValues, updatePids, updateMemory, updateCPU, updateBlockIO,
    updateShares_eq, updatePeriodQuota_eq, memory_fixUp, cpu_fixUp]

theorem weightOf_upsert (devices : List WeightDevice) (wd : LinuxWeightDevice) :
    weightOf (upsertWeightDevice devices wd) =
      overlay (weightOf devices) (weightGiven wd) :=
  Lib.read_upsert (fun found => (found.map WeightDevice.weight).getD 0) wd.weight
    (fun _ => rfl) rfl (fun _ => rfl) rfl

theorem leafWeightOf_upsert (devices : List WeightDevice) (wd : LinuxWeightDevice) :
    leafWeightOf (upsertWeightDevice devices wd) =
      overlay (leafWeightOf devices) (leafWeightGiven wd) :=
  Lib.read_upsert (fun found => (found.map WeightDevice.leafWeight).getD 0) wd.leafWeight
    (fun _ => rfl) rfl (fun _ => rfl) rfl

theorem rateOf_upsert (devices : List ThrottleDevice) (td : LinuxThrottleDevice) :
    rateOf (upsertThrottleDevice devices td) =
      overlay (rateOf devices) (rateGiven td) :=
  Lib.read_upsert (fun found => found.map ThrottleDevice.rate) (some (some td.rate))
    (fun _ => rfl) rfl (fun _ => rfl) rfl

theorem foldl_upsert {α δ D : Type} {upsert : List α → δ → List α}
    {valueOf : List α → BlockIODevice → D} {given : δ → BlockIODevice → Option D}
    (hstep : ∀ devices d, valueOf (upsert devices d) = overlay (valueOf devices) (given d))
    (devices : List α) (entries : List δ) (dev : BlockIODevice) :
    valueOf (entries.foldl upsert devices) dev =
      (lastGiven (entries.map given) dev).getD (valueOf devices dev) := by
  rw [← Lib.foldl_overlay, List.foldl_map]
  induction entries generalizing devices with
  | nil => rfl
  | cons d rest ih => rw [List.foldl_cons, List.foldl_cons, ih, hstep]

end Runc.Update
