import Micro80.Proofs.Device.Installing

/-!
# Wiring

A port map keeps its devices in two forms, as the owners of ports and as a list, and a device that
works in both directions is in two maps. What keeps all of this together is that a map is wired for
a set of devices: each of them has all of its own ports and no others, nobody else has a port, and
the list has each of them once.

Installing a device and removing one lead from one set to another. This takes devices with a range
of ports that is not empty and ends with the last port at most. Only for them does the sum of 32
bits by which a map reckons with ranges tell their ports.

## Main definitions

* `DeviceInfo.Owns`, `DeviceInfo.Fits`: the ports of a device, and the devices that have theirs.
* `PortMap.IsWired`: maps with a given set of devices.
* `PortMap.joined`: a map with one more device.

## Main statements

* `DeviceInfo.Fits.inRange_iff`: the ports of a range are those of the device.
* `PortMap.IsWired.joined`, `PortMap.IsWired.remove`: one device more, and one less.
* `PortMap.IsWired.installBoth`: installing a device in its directions, or in neither.
* `PortMap.IsWired.restores`: removing what one has tried to install.
-/

namespace Micro80

variable {ι : Type}

/-! ### The ports of a device -/

namespace DeviceInfo

/-- **The ports of a device,** by their numbers and without regard to how many bits these have. -/
def Owns (i : DeviceInfo) (p : UInt8) : Prop :=
  i.port.toNat ≤ p.toNat ∧ p.toNat < i.port.toNat + i.count.toNat

/-- **Fitting devices.** There is a port, and all of them exist. -/
structure Fits (i : DeviceInfo) : Prop where
  count_pos : 0 < i.count.toNat
  last_le : i.port.toNat + i.count.toNat ≤ 256

namespace Fits

variable {i : DeviceInfo} (h : i.Fits)

include h

theorem not_beyond : ¬ 256 < i.port.toUInt32 + i.count := by
  have small := h.last_le
  rw [UInt32.lt_iff_toNat_lt, PortMap.toNat_end, Nat.mod_eq_of_lt (by omega)]
  exact Nat.not_lt.2 small

/-- **The ports of the range** of a fitting device are its own. -/
theorem inRange_iff (p : UInt8) : inRange i.port i.count p = true ↔ i.Owns p :=
  PortMap.inRange_iff_of_le h.last_le

theorem owns_port : i.Owns i.port :=
  ⟨Nat.le_refl _, Nat.lt_add_of_pos_right h.count_pos⟩

end Fits

end DeviceInfo

namespace PortMap

/-! ### Wired maps -/

/-- **Wired maps.** The devices of a set have all of their own ports and no others, nobody else has
a port, and the list of devices has each of them once. -/
structure IsWired (info : ι → DeviceInfo) (S : ι → Prop) (m : PortMap ι) : Prop where
  owner_iff : ∀ p d, m.owner p = some d ↔ S d ∧ (info d).Owns p
  mem_iff : ∀ d, d ∈ m.devices ↔ S d
  nodup : m.devices.Nodup

theorem isWired_empty (info : ι → DeviceInfo) : (empty : PortMap ι).IsWired info fun _ => False where
  owner_iff _ _ := ⟨nofun, fun h => h.1.elim⟩
  mem_iff _ := ⟨nofun, False.elim⟩
  nodup := .nil

namespace IsWired

variable {info : ι → DeviceInfo} {S : ι → Prop} {m : PortMap ι}

/-- A map is wired for one set only. -/
theorem congr (h : m.IsWired info S) {T : ι → Prop} (same : ∀ d, S d ↔ T d) : m.IsWired info T where
  owner_iff p d := by rw [h.owner_iff, same]
  mem_iff d := by rw [h.mem_iff, same]
  nodup := h.nodup

variable [DecidableEq ι] (h : m.IsWired info S) {d : ι}

include h

theorem has_iff (e : ι) : m.has e = true ↔ S e := by
  rw [has, List.contains_iff_mem, h.mem_iff]

omit [DecidableEq ι] in
/-- The list of devices is the list of those that have a port. -/
theorem mem_iff_exists_owner {e : ι} (fits : (info e).Fits) :
    e ∈ m.devices ↔ ∃ p, m.owner p = some e := by
  rw [h.mem_iff]
  constructor
  · intro present
    exact ⟨(info e).port, (h.owner_iff _ _).2 ⟨present, fits.owns_port⟩⟩
  · rintro ⟨p, owned⟩
    exact ((h.owner_iff p e).1 owned).1

end IsWired

/-! ### One device more -/

/-- **One device more.** The map with a device at the ports of a range. -/
def joined (m : PortMap ι) (d : ι) (first : UInt8) (count : UInt32) : PortMap ι where
  owner p := if inRange first count p then some d else m.owner p
  devices := d :: m.devices

namespace IsWired

variable {info : ι → DeviceInfo} {S : ι → Prop} {m : PortMap ι} (h : m.IsWired info S) {d : ι}
  (fits : (info d).Fits) (free : m.isBusy (info d).port (info d).count = false)

include h fits free

/-- Where the ports of a device are free it is not in the map. -/
theorem absent_of_free : ¬ S d := by
  intro present
  have owned := (h.owner_iff _ d).2 ⟨present, fits.owns_port⟩
  rw [not_isBusy_iff.1 free _ ((fits.inRange_iff _).2 fits.owns_port)] at owned
  cases owned

theorem joined : (m.joined d (info d).port (info d).count).IsWired info fun e => e = d ∨ S e where
  owner_iff p e := by
    dsimp only [PortMap.joined]
    split
    · -- The ports of the range were free.
      rename_i inside
      constructor
      · rintro ⟨⟩
        exact ⟨.inl rfl, (fits.inRange_iff p).1 inside⟩
      · rintro ⟨rfl | present, owns⟩
        · rfl
        · have owned := (h.owner_iff p e).2 ⟨present, owns⟩
          rw [not_isBusy_iff.1 free p inside] at owned
          cases owned
    · -- The other ports are not those of the new device.
      rename_i outside
      rw [h.owner_iff]
      constructor
      · rintro ⟨present, owns⟩
        exact ⟨.inr present, owns⟩
      · rintro ⟨rfl | present, owns⟩
        · exact absurd ((fits.inRange_iff p).2 owns) outside
        · exact ⟨present, owns⟩
  mem_iff e := by
    dsimp only [PortMap.joined]
    rw [List.mem_cons, h.mem_iff]
  nodup := by
    dsimp only [PortMap.joined]
    rw [List.nodup_cons, h.mem_iff]
    exact ⟨h.absent_of_free fits free, h.nodup⟩

variable [DecidableEq ι]

/-- **Installing a device** works where its ports are free. -/
theorem install?_eq : m.install? d (info d).port (info d).count =
    some (m.joined d (info d).port (info d).count) := by
  have new : m.has d = false := by
    rw [← Bool.not_eq_true, h.has_iff]
    exact h.absent_of_free fits free
  have possible : ¬ (256 < (info d).port.toUInt32 + (info d).count ∨
      m.isBusy (info d).port (info d).count = true) := by
    rw [free]
    rintro (beyond | busy)
    · exact fits.not_beyond beyond
    · cases busy
  rw [install?, if_neg possible, new]
  rfl

/-- A device that has just been installed can be removed without a trace. -/
theorem without_joined : (m.joined d (info d).port (info d).count).without d = m := by
  have absent := h.absent_of_free fits free
  have owner : ((m.joined d (info d).port (info d).count).without d).owner = m.owner := by
    funext p
    rw [owner_without]
    by_cases inside : inRange (info d).port (info d).count p = true
    · have taken : (m.joined d (info d).port (info d).count).owner p = some d := if_pos inside
      rw [if_pos taken, not_isBusy_iff.1 free p inside]
    · have kept : (m.joined d (info d).port (info d).count).owner p = m.owner p := if_neg inside
      rw [kept, if_neg fun owned => absent ((h.owner_iff p d).1 owned).1]
  have devices : ((m.joined d (info d).port (info d).count).without d).devices = m.devices := by
    dsimp only [without, PortMap.joined]
    rw [List.filter_cons_of_neg (by simp), List.filter_eq_self]
    intro e present
    rw [decide_eq_true_iff]
    rintro rfl
    exact absent ((h.mem_iff e).1 present)
  exact (PortMap.mk.injEq ..).mpr ⟨owner, devices⟩

end IsWired

/-! ### One device less -/

theorem isSome_lowest?_iff [DecidableEq ι] {m : PortMap ι} {d : ι} :
    (m.lowest? d).isSome = true ↔ ∃ p, m.owner p = some d := by
  rw [lowest?, List.find?_isSome]
  simp only [mem_allPorts, true_and, decide_eq_true_iff]

namespace IsWired

variable {info : ι → DeviceInfo} {S : ι → Prop} {m : PortMap ι} [DecidableEq ι]
  (h : m.IsWired info S) {d : ι}

include h

theorem without : (m.without d).IsWired info fun e => e ≠ d ∧ S e where
  owner_iff p e := by
    rw [owner_without]
    split
    · rename_i owned
      constructor
      · nofun
      · rintro ⟨⟨other, present⟩, owns⟩
        rw [(h.owner_iff p e).2 ⟨present, owns⟩] at owned
        exact absurd (Option.some.inj owned) other
    · rename_i free
      rw [h.owner_iff]
      constructor
      · rintro ⟨present, owns⟩
        refine ⟨⟨?_, present⟩, owns⟩
        rintro rfl
        exact free ((h.owner_iff p e).2 ⟨present, owns⟩)
      · rintro ⟨⟨-, present⟩, owns⟩
        exact ⟨present, owns⟩
  mem_iff e := by
    dsimp only [PortMap.without]
    rw [List.mem_filter, decide_eq_true_iff, h.mem_iff, and_comm]
  nodup := h.nodup.filter _

/-- **Removing a device** works where the device is. -/
theorem remove?_eq (fits : (info d).Fits) :
    m.remove? d = if m.has d then some (m.without d) else none := by
  have found : (m.lowest? d).isSome = m.has d := by
    rw [Bool.eq_iff_iff, isSome_lowest?_iff, has, List.contains_iff_mem,
      h.mem_iff_exists_owner fits]
  rw [remove?, ← found]
  cases m.lowest? d <;> rfl

/-- Whether or not a device is in the map, it is not when it has been removed. -/
theorem remove (fits : (info d).Fits) :
    ((m.remove? d).getD m).IsWired info fun e => e ≠ d ∧ S e := by
  rw [h.remove?_eq fits]
  cases present : m.has d with
  | true => exact h.without
  | false =>
    have absent : ¬ S d := by
      rw [← h.has_iff, present]
      exact Bool.false_ne_true
    refine h.congr fun e => (and_iff_right_of_imp ?_).symm
    rintro there rfl
    exact absent there

end IsWired

/-! ### Both directions -/

section

variable [DecidableEq ι] {info : ι → DeviceInfo} {S : ι → Prop}

/-- Nothing is removed where a device is not in the map. -/
theorem IsWired.getD_remove?_of_absent {m : PortMap ι} {d : ι} (h : m.IsWired info S)
    (fits : (info d).Fits) (absent : ¬ S d) : (m.remove? d).getD m = m := by
  have out : m.has d = false := by
    rw [← Bool.not_eq_true, h.has_iff]
    exact absent
  rw [h.remove?_eq fits, out]
  rfl

/-- **One direction.** The map of a direction after a device has been installed that may or may not
work in it. -/
theorem IsWired.exists_enter {dir : DeviceInfo → Bool} {m : PortMap ι}
    (h : m.IsWired info fun e => S e ∧ dir (info e) = true) {d : ι} (fits : (info d).Fits)
    (free : (dir (info d) && m.isBusy (info d).port (info d).count) = false) :
    ∃ m', (if dir (info d) then m.install? d (info d).port (info d).count else some m) = some m' ∧
      m'.IsWired info (fun e => (e = d ∨ S e) ∧ dir (info e) = true) ∧
      (m'.remove? d).getD m' = m := by
  cases works : dir (info d) with
  | true =>
    rw [works, Bool.true_and] at free
    have joined := h.joined fits free
    refine ⟨_, h.install?_eq fits free, joined.congr fun e => ?_, ?_⟩
    · constructor
      · rintro (rfl | ⟨present, input⟩)
        · exact ⟨.inl rfl, works⟩
        · exact ⟨.inr present, input⟩
      · rintro ⟨rfl | present, input⟩
        · exact .inl rfl
        · exact .inr ⟨present, input⟩
    · have inside := (joined.has_iff d).2 (.inl rfl)
      rw [joined.remove?_eq fits, if_pos inside, Option.getD_some, h.without_joined fits free]
  | false =>
    refine ⟨m, rfl, h.congr fun e => ?_, h.getD_remove?_of_absent fits ?_⟩
    · constructor
      · rintro ⟨present, input⟩
        exact ⟨.inr present, input⟩
      · rintro ⟨rfl | present, input⟩
        · rw [works] at input
          cases input
        · exact ⟨present, input⟩
    · rintro ⟨-, input⟩
      rw [works] at input
      cases input

end

/-- **Wired pairs.** The maps of both directions for a set of devices, of which each is in the maps
of its own directions. -/
structure AreWired (info : ι → DeviceInfo) (S : ι → Prop) (inputs outputs : PortMap ι) : Prop where
  inputs : inputs.IsWired info fun d => S d ∧ (info d).input = true
  outputs : outputs.IsWired info fun d => S d ∧ (info d).output = true

namespace AreWired

variable [DecidableEq ι] {info : ι → DeviceInfo} {S : ι → Prop} {inputs outputs : PortMap ι}
  (h : AreWired info S inputs outputs) {d : ι} (fits : (info d).Fits)

include h fits

/-- **Installing a device** in all of its directions or in none of them. If it is installed it can
be removed again without a trace. -/
theorem installBoth {possible : Bool} {inputs' outputs' : PortMap ι}
    (installed : PortMap.installBoth info d inputs outputs = (possible, inputs', outputs')) :
    (possible = true ∧ AreWired info (fun e => e = d ∨ S e) inputs' outputs' ∧
        (inputs'.remove? d).getD inputs' = inputs ∧
        (outputs'.remove? d).getD outputs' = outputs) ∨
      possible = false ∧ inputs' = inputs ∧ outputs' = outputs := by
  unfold PortMap.installBoth at installed
  dsimp only at installed
  split at installed
  · cases installed
    exact .inr ⟨rfl, rfl, rfl⟩
  · rename_i free
    rw [Bool.not_eq_true, Bool.or_eq_false_iff] at free
    obtain ⟨inputs₁, entered, wired, restored⟩ := h.inputs.exists_enter fits free.1
    obtain ⟨outputs₁, entered', wired', restored'⟩ := h.outputs.exists_enter fits free.2
    rw [entered] at installed
    dsimp only at installed
    rw [entered'] at installed
    cases installed
    exact .inl ⟨rfl, ⟨wired, wired'⟩, restored, restored'⟩

/-- **Removing a device** from both directions. -/
theorem remove : AreWired info (fun e => e ≠ d ∧ S e) ((inputs.remove? d).getD inputs)
    ((outputs.remove? d).getD outputs) where
  inputs := (h.inputs.remove fits).congr fun _ => and_assoc.symm
  outputs := (h.outputs.remove fits).congr fun _ => and_assoc.symm

end AreWired

theorem areWired_empty (info : ι → DeviceInfo) :
    AreWired info (fun _ => False) .empty (.empty : PortMap ι) where
  inputs := (isWired_empty info).congr fun _ => ⟨False.elim, And.left⟩
  outputs := (isWired_empty info).congr fun _ => ⟨False.elim, And.left⟩

end PortMap

end Micro80
