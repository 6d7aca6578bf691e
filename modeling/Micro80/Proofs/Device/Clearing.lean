import Micro80.Proofs.Device.Consistency

/-!
# Clearing devices

The devices of two maps are cleared in two rounds, those of the first map and then those of the
second one that are not in the first. So a device is cleared once if it is in one of the maps or in
both of them, at however many ports. The order in which a list has its devices means nothing: it may
change at any time, and it changes nothing but the order of the clearings.

For this a list must have no device twice, and nothing that can be done to maps makes it so. This
does not take ranges of ports that exist, or even ranges with a port.

## Main definitions

* `Peripherals.tallied`: devices that keep a tally of the clearings.
* `PortMap.Reorders`: maps that differ in the order of their devices.
* `PortMap.Arise`: the pairs of maps that edits lead to.

## Main statements

* `PortMap.clearOnce_tallied`: the clearings, in their order.
* `PortMap.Arise.nodup`: no list of devices has one twice.
* `PortMap.Arise.count_clearings`: every device is cleared once.
-/

namespace Micro80

variable {ι σ : Type}

/-! ### Tallies -/

/-- **Devices with a tally** of the clearings, the oldest first. -/
def Peripherals.tallied (bus : Peripherals ι σ) : Peripherals ι (σ × List ι) where
  info := bus.info
  read d p s :=
    let a := bus.read d p s.1
    ⟨(a.state, s.2), a.stop, a.result⟩
  write d p b s :=
    let a := bus.write d p b s.1
    ⟨(a.state, s.2), a.stop, a.result⟩
  clear d s := (bus.clear d s.1, s.2 ++ [d])

/-- Clears some devices one after the other. -/
def Peripherals.clearEach (bus : Peripherals ι σ) (ds : List ι) (s : σ) : σ :=
  ds.foldl (fun s d => bus.clear d s) s

/-- The tally has the devices that are cleared, and they do what they do without it. -/
theorem Peripherals.clearEach_tallied (bus : Peripherals ι σ) (ds : List ι) (s : σ × List ι) :
    bus.tallied.clearEach ds s = (bus.clearEach ds s.1, s.2 ++ ds) := by
  induction ds generalizing s with
  | nil => rw [List.append_nil]; rfl
  | cons d rest ih =>
    show bus.tallied.clearEach rest (bus.clear d s.1, s.2 ++ [d]) = _
    rw [ih, List.append_assoc]
    rfl

namespace PortMap

variable [DecidableEq ι]

/-- **Clearings.** The devices of two maps in the order in which they are cleared. -/
def clearings (inputs outputs : PortMap ι) : List ι :=
  inputs.devices ++ outputs.devices.filter fun d => !inputs.has d

theorem clearOnce_eq (bus : Peripherals ι σ) (inputs outputs : PortMap ι) (s : σ) :
    clearOnce bus inputs outputs s = bus.clearEach (inputs.clearings outputs) s :=
  (List.foldl_append ..).symm

/-- **Clearing once** clears these devices in this order and no others. -/
theorem clearOnce_tallied (bus : Peripherals ι σ) (inputs outputs : PortMap ι) (s : σ) :
    clearOnce bus.tallied inputs outputs (s, []) =
      (clearOnce bus inputs outputs s, inputs.clearings outputs) := by
  rw [clearOnce_eq, clearOnce_eq, bus.clearEach_tallied]
  rfl

theorem mem_clearings {inputs outputs : PortMap ι} {d : ι} :
    d ∈ inputs.clearings outputs ↔ (inputs.has d || outputs.has d) = true := by
  simp only [clearings, List.mem_append, List.mem_filter, Bool.or_eq_true, has,
    List.contains_iff_mem, Bool.not_eq_true', ← Bool.not_eq_true]
  by_cases input : d ∈ inputs.devices <;> simp [input]

theorem nodup_clearings {inputs outputs : PortMap ι} (input : inputs.devices.Nodup)
    (output : outputs.devices.Nodup) : (inputs.clearings outputs).Nodup := by
  refine List.nodup_append.2 ⟨input, output.filter _, ?_⟩
  rintro d here e there rfl
  have absent := (List.mem_filter.1 there).2
  rw [has, List.contains_iff_mem.2 here] at absent
  cases absent

/-! ### Lists of devices -/

/-- **Reordering.** A map with the same owners and the same devices, which may be in another
order. -/
structure Reorders (m m' : PortMap ι) : Prop where
  owner : m'.owner = m.owner
  devices : m'.devices.Perm m.devices

section

variable {m : PortMap ι} (nodup : m.devices.Nodup)

include nodup

theorem nodup_tryInstall (d : ι) (first : UInt8) (count : UInt32) :
    (m.tryInstall d first count).2.devices.Nodup := by
  cases possible : m.install? d first count with
  | none =>
    rw [tryInstall, possible]
    exact nodup
  | some m' =>
    rw [tryInstall, possible]
    exact (gains_of_install? possible).nodup nodup

/-- **No edit** puts a device on the list twice. -/
theorem nodup_edit (info : ι → DeviceInfo) (e : Edit ι) : (m.edit info e).2.devices.Nodup := by
  cases e with
  | install d first count => exact nodup_tryInstall nodup d first count
  | installOwn d => exact nodup_tryInstall nodup d _ _
  | removePort p =>
    dsimp only [edit]
    cases removed : m.removePort? p with
    | none => exact nodup
    | some m' =>
      obtain ⟨d, owned⟩ := isSome_removePort?_iff.1 (Option.isSome_of_eq_some removed)
      exact (loses_of_removePort? owned removed).nodup nodup
  | remove d =>
    dsimp only [edit, remove?]
    cases m.lowest? d with
    | none => exact nodup
    | some p => exact (m.loses_without d).nodup nodup
  | removeAll => exact .nil

/-- The same for one direction of a device that may or may not work in it. -/
theorem nodup_of_installIf {works : Bool} {d : ι} {first : UInt8} {count : UInt32}
    {m' : PortMap ι} (h : (if works then m.install? d first count else some m) = some m') :
    m'.devices.Nodup := by
  cases works with
  | false =>
    cases h
    exact nodup
  | true => exact (gains_of_install? h).nodup nodup

end

theorem nodup_installBoth (info : ι → DeviceInfo) (d : ι) {inputs outputs : PortMap ι}
    (input : inputs.devices.Nodup) (output : outputs.devices.Nodup) :
    (installBoth info d inputs outputs).2.1.devices.Nodup ∧
      (installBoth info d inputs outputs).2.2.devices.Nodup := by
  unfold installBoth
  dsimp only
  split
  · exact ⟨input, output⟩
  · split
    · exact ⟨input, output⟩
    · rename_i inputs' entered
      have input' := nodup_of_installIf input entered
      split
      · exact ⟨(inputs'.loses_without d).nodup input', output⟩
      · rename_i outputs' entered'
        exact ⟨input', nodup_of_installIf output entered'⟩

/-! ### Pairs of maps -/

/-- **What edits lead to.** A pair of maps that are empty at first, after edits of each of them and
devices installed in both. At any time the lists of devices may be in another order. -/
inductive Arise (info : ι → DeviceInfo) : PortMap ι → PortMap ι → Prop where
  | empty : Arise info empty empty
  | editInputs {inputs outputs : PortMap ι} (e : Edit ι) (arise : Arise info inputs outputs) :
      Arise info (inputs.edit info e).2 outputs
  | editOutputs {inputs outputs : PortMap ι} (e : Edit ι) (arise : Arise info inputs outputs) :
      Arise info inputs (outputs.edit info e).2
  | installBoth {inputs outputs : PortMap ι} (d : ι) (arise : Arise info inputs outputs) :
      Arise info (PortMap.installBoth info d inputs outputs).2.1
        (PortMap.installBoth info d inputs outputs).2.2
  | reorder {inputs outputs inputs' outputs' : PortMap ι} (arise : Arise info inputs outputs)
      (input : inputs.Reorders inputs') (output : outputs.Reorders outputs') :
      Arise info inputs' outputs'

namespace Arise

variable {info : ι → DeviceInfo} {inputs outputs : PortMap ι} (h : Arise info inputs outputs)

include h

/-- **Nothing** puts a device on a list twice. -/
theorem nodup : inputs.devices.Nodup ∧ outputs.devices.Nodup := by
  induction h with
  | empty => exact ⟨.nil, .nil⟩
  | editInputs e _ ih => exact ⟨nodup_edit ih.1 info e, ih.2⟩
  | editOutputs e _ ih => exact ⟨ih.1, nodup_edit ih.2 info e⟩
  | installBoth d _ ih => exact nodup_installBoth info d ih.1 ih.2
  | reorder _ input output ih =>
    exact ⟨input.devices.nodup_iff.2 ih.1, output.devices.nodup_iff.2 ih.2⟩

/-- **Every device of the maps** is cleared once, and no other device is. -/
theorem count_clearings (d : ι) :
    (inputs.clearings outputs).count d = if inputs.has d || outputs.has d then 1 else 0 := by
  rw [(nodup_clearings h.nodup.1 h.nodup.2).count]
  exact if_congr mem_clearings rfl rfl

end Arise

end PortMap

end Micro80
