import Runc.Update.NewValues

/-!
# Sequences of device updates

`upsertWeightDevice` and `upsertThrottleDevice` change the last entry of a device, or append one.
-/

namespace Runc.Update

open Lib

variable {α δ : Type} {device : α → BlockIODevice} {target : δ → BlockIODevice}

def entriesOf (device : α → BlockIODevice) (dev : BlockIODevice) (devices : List α) : List α :=
  devices.filter (device · = dev)

structure Upserts (device : α → BlockIODevice) (target : δ → BlockIODevice)
    (upsert : List α → δ → List α) : Prop where
  others : ∀ devices (updates : List δ) dev, (∀ u ∈ updates, target u ≠ dev) →
    entriesOf device dev (updates.foldl upsert devices) = entriesOf device dev devices
  noDuplicate : ∀ devices (updates : List δ) dev,
    (entriesOf device dev (updates.foldl upsert devices)).length ≤
      max 1 (entriesOf device dev devices).length
  swap : ∀ devices u u', target u ≠ target u' → ∀ dev,
    lookup device dev (upsert (upsert devices u) u') =
      lookup device dev (upsert (upsert devices u') u)

theorem Upserts.of_upsert {f : δ → α → α} {new : δ → α} (hf : ∀ u a, device (f u a) = device a)
    (hnew : ∀ u, device (new u) = target u) :
    Upserts device target fun devices u => upsert device (target u) (f u) (new u) devices where
  others devices updates dev h := by
    induction updates generalizing devices with
    | nil => rfl
    | cons u rest ih =>
      obtain ⟨hu, hrest⟩ := List.forall_mem_cons.mp h
      rw [List.foldl_cons, ih _ hrest]
      exact (filter_upsert (hf u) (hnew u) dev).2 (Ne.symm hu)
  noDuplicate devices updates dev := by
    induction updates generalizing devices with
    | nil => exact Nat.le_max_right _ _
    | cons u rest ih =>
      have hone := (filter_upsert (l := devices) (hf u) (hnew u) dev).1
      have hrest := ih (upsert device (target u) (f u) (new u) devices)
      rw [entriesOf, entriesOf] at hrest ⊢
      rw [List.foldl_cons]
      omega
  swap devices u u' hne dev :=
    lookup_upsert_comm (hf u) (hnew u) (hf u') (hnew u') hne dev

/-- Sequences of updates. -/
theorem upsertDevices_spec :
    (∀ devices (updates : List LinuxWeightDevice) dev,
      weightOf (updates.foldl upsertWeightDevice devices) dev =
          (lastGiven (updates.map weightGiven) dev).getD (weightOf devices dev) ∧
        leafWeightOf (updates.foldl upsertWeightDevice devices) dev =
          (lastGiven (updates.map leafWeightGiven) dev).getD (leafWeightOf devices dev)) ∧
    (∀ devices (updates : List LinuxThrottleDevice) dev,
      rateOf (updates.foldl upsertThrottleDevice devices) dev =
        (lastGiven (updates.map rateGiven) dev).getD (rateOf devices dev)) ∧
    Upserts WeightDevice.device LinuxWeightDevice.device upsertWeightDevice ∧
    Upserts ThrottleDevice.device LinuxThrottleDevice.device upsertThrottleDevice :=
  ⟨fun devices updates dev => ⟨foldl_upsert weightOf_upsert devices updates dev,
      foldl_upsert leafWeightOf_upsert devices updates dev⟩,
    foldl_upsert rateOf_upsert, .of_upsert (fun _ _ => rfl) fun _ => rfl,
    .of_upsert (fun _ _ => rfl) fun _ => rfl⟩

end Runc.Update
