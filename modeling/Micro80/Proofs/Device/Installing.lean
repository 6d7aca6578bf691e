import Micro80.Device.PortMap

/-!
# Installing devices

A device is installed at all ports of a range or at none of them, and a device that works in both
directions is installed in both maps or in neither. This holds whatever is in the maps, and also if
the same device has other ports in one of them: once all ports of the device have been found free,
nothing can fail any more, and so nothing that has been done is ever taken back.

The ports of a range are counted without regard to how many bits the numbers have, but the map
reckons with its end in 32 bits. Where the end does not fit, the map takes the range for one without
ports: it finds all of them free, and it lets the device in without giving it any.

## Main definitions

* `PortMap.Spans`: the ports of a range.
* `PortMap.Gains`: what a map looks like after a device has got some ports.
* `PortMap.KeepsToRange`: whether a map does with a range what the range is for.

## Main statements

* `PortMap.inRange_iff`: which ports a map counts to a range.
* `PortMap.keepsToRange_iff`: maps keep to the ranges whose ends fit in 32 bits.
* `PortMap.installBoth_all_or_nothing`: installing a device in all of its directions or in none.
-/

namespace Micro80

variable {ι : Type}

namespace PortMap

/-! ### Ranges -/

/-- **The ports of a range,** by their numbers. -/
def Spans (first : UInt8) (count : UInt32) (p : UInt8) : Prop :=
  first.toNat ≤ p.toNat ∧ p.toNat < first.toNat + count.toNat

section

variable {first : UInt8} {count : UInt32}

/-- The end of a range as a map reckons with it. -/
theorem toNat_end (first : UInt8) (count : UInt32) :
    (first.toUInt32 + count).toNat = (first.toNat + count.toNat) % 0x100000000 := by
  rw [UInt32.toNat_add, UInt8.toNat_toUInt32]

/-- **The ports that a map counts to a range** are those of the range if its end fits in 32 bits,
and none if it does not. -/
theorem inRange_iff {p : UInt8} :
    inRange first count p = true ↔
      first.toNat + count.toNat < 0x100000000 ∧ Spans first count p := by
  have byte := first.toNat_lt
  have word := count.toNat_lt
  rw [inRange, Bool.and_eq_true, decide_eq_true_iff, decide_eq_true_iff, UInt8.le_iff_toNat_le,
    UInt32.lt_iff_toNat_lt, toNat_end, UInt8.toNat_toUInt32, Spans]
  by_cases fits : first.toNat + count.toNat < 0x100000000
  · rw [Nat.mod_eq_of_lt fits]
    exact (and_iff_right fits).symm
  · -- What is left of the end is below the first port.
    have low : (first.toNat + count.toNat) % 0x100000000 < first.toNat := by omega
    omega

/-- A range that ends with the last port at most has an end that fits. -/
theorem inRange_iff_of_le {p : UInt8} (bounded : first.toNat + count.toNat ≤ 256) :
    inRange first count p = true ↔ Spans first count p := by
  rw [inRange_iff, and_iff_right (by omega)]

theorem isBusy_iff {m : PortMap ι} :
    m.isBusy first count = true ↔ ∃ p d, inRange first count p = true ∧ m.owner p = some d := by
  simp only [isBusy, List.any_eq_true, Bool.and_eq_true, Option.isSome_iff_exists]
  constructor
  · rintro ⟨p, -, inside, d, owned⟩
    exact ⟨p, d, inside, owned⟩
  · rintro ⟨p, d, inside, owned⟩
    exact ⟨p, mem_allPorts p, inside, d, owned⟩

theorem not_isBusy_iff {m : PortMap ι} :
    m.isBusy first count = false ↔ ∀ p, inRange first count p = true → m.owner p = none := by
  rw [← Bool.not_eq_true, isBusy_iff]
  constructor
  · intro free p inside
    rw [← Option.not_isSome_iff_eq_none, Option.isSome_iff_exists]
    rintro ⟨d, owned⟩
    exact free ⟨p, d, inside, owned⟩
  · rintro free ⟨p, d, inside, owned⟩
    rw [free p inside] at owned
    cases owned

end

/-! ### One direction -/

/-- **Gaining a device.** A map after a device has got some ports: these are its own, the others are
as they were, and the device is among the devices of the map, which has none of them twice if it had
none twice before. -/
structure Gains (m : PortMap ι) (d : ι) (ports : UInt8 → Prop) (m' : PortMap ι) : Prop where
  owner_of_mem : ∀ p, ports p → m'.owner p = some d
  owner_of_notMem : ∀ p, ¬ ports p → m'.owner p = m.owner p
  mem_iff : ∀ e, e ∈ m'.devices ↔ e = d ∨ e ∈ m.devices
  nodup : m.devices.Nodup → m'.devices.Nodup

variable [DecidableEq ι] {m m' : PortMap ι} {d : ι} {first : UInt8} {count : UInt32}

/-- **A device that has been installed** has got the ports that the map counts to its range. -/
theorem gains_of_install? (h : m.install? d first count = some m') :
    m.Gains d (fun p => inRange first count p = true) m' := by
  have devices : m'.devices = if m.has d then m.devices else d :: m.devices := by
    unfold install? at h
    split at h
    · cases h
    · cases h
      rfl
  refine ⟨fun p inside => ?_, fun p outside => ?_, fun e => ?_, fun nodup => ?_⟩
  · rw [owner_install? h, if_pos inside]
  · rw [owner_install? h, if_neg outside]
  · rw [devices]
    split
    · rename_i present
      rw [has, List.contains_iff_mem] at present
      refine (or_iff_right_of_imp ?_).symm
      rintro rfl
      exact present
    · exact List.mem_cons
  · rw [devices]
    split
    · exact nodup
    · rename_i absent
      rw [has, List.contains_iff_mem] at absent
      exact List.nodup_cons.2 ⟨absent, nodup⟩

/-- **When a device can be installed.** The end of the range, as the map reckons with it, is not
beyond the last port, and no port that the map counts to the range has a device. -/
theorem isSome_install?_iff :
    (m.install? d first count).isSome = true ↔
      (first.toNat + count.toNat) % 0x100000000 ≤ 256 ∧ m.isBusy first count = false := by
  have last : 256 < first.toUInt32 + count ↔ ¬(first.toNat + count.toNat) % 0x100000000 ≤ 256 := by
    rw [UInt32.lt_iff_toNat_lt, toNat_end, Nat.not_le]
    rfl
  unfold install?
  split
  · rename_i impossible
    rw [last] at impossible
    simp only [Option.isSome_none, Bool.false_eq_true, false_iff, not_and, Bool.not_eq_false]
    exact fun bounded => impossible.resolve_left (not_not_intro bounded)
  · rename_i possible
    rw [not_or, last, Classical.not_not, Bool.not_eq_true] at possible
    exact iff_of_true rfl possible

/-- **Trying to install** a device at a range: whether it was possible, and the map afterwards. -/
def tryInstall (m : PortMap ι) (d : ι) (first : UInt8) (count : UInt32) : Bool × PortMap ι :=
  match m.install? d first count with
  | some m' => (true, m')
  | none => (false, m)

/-- **Keeping to a range.** The range is busy if one of its ports has a device. It is possible to
install a device there if the range ends with the last port at most and is not busy. Then the device
gets exactly the ports of the range, and otherwise the map stays as it is. -/
structure KeepsToRange (m : PortMap ι) (d : ι) (first : UInt8) (count : UInt32) : Prop where
  busy_iff : m.isBusy first count = true ↔ ∃ p e, Spans first count p ∧ m.owner p = some e
  possible_iff : (m.tryInstall d first count).1 = true ↔
    first.toNat + count.toNat ≤ 256 ∧ ∀ p, Spans first count p → m.owner p = none
  gains : (m.tryInstall d first count).1 = true →
    m.Gains d (Spans first count) (m.tryInstall d first count).2
  unchanged : (m.tryInstall d first count).1 = false → (m.tryInstall d first count).2 = m

/-- Trying to install a device says whether it can be installed. -/
theorem tryInstall_fst : (m.tryInstall d first count).1 = (m.install? d first count).isSome := by
  unfold tryInstall
  split <;> simp_all

theorem tryInstall_of_isSome (possible : (m.install? d first count).isSome = true) :
    m.install? d first count = some (m.tryInstall d first count).2 := by
  obtain ⟨m', h⟩ := Option.isSome_iff_exists.1 possible
  rw [tryInstall, h]

/-- **Maps keep to the ranges whose ends fit in 32 bits,** and to no others: they let a device in at
a range whose end does not fit, although the range ends far beyond the last port. -/
theorem keepsToRange_iff (m : PortMap ι) (d : ι) (first : UInt8) (count : UInt32) :
    m.KeepsToRange d first count ↔ first.toNat + count.toNat < 0x100000000 := by
  have byte := first.toNat_lt
  have word := count.toNat_lt
  constructor
  · intro keeps
    refine Classical.byContradiction fun beyond => ?_
    have free : m.isBusy first count = false :=
      not_isBusy_iff.2 fun p inside => absurd (inRange_iff.1 inside).1 beyond
    have possible : (m.install? d first count).isSome = true :=
      isSome_install?_iff.2 ⟨by omega, free⟩
    rw [← tryInstall_fst, keeps.possible_iff] at possible
    omega
  · intro fits
    have range (p : UInt8) : inRange first count p = true ↔ Spans first count p := by
      rw [inRange_iff, and_iff_right fits]
    refine ⟨?_, ?_, fun possible => ?_, fun impossible => ?_⟩
    · rw [isBusy_iff]
      simp only [range]
    · rw [tryInstall_fst, isSome_install?_iff, Nat.mod_eq_of_lt fits, not_isBusy_iff]
      simp only [range]
    · rw [tryInstall_fst] at possible
      simpa only [range] using gains_of_install? (tryInstall_of_isSome possible)
    · rw [tryInstall_fst, Option.isSome_eq_false_iff, Option.isNone_iff_eq_none] at impossible
      rw [tryInstall, impossible]

/-- A map with one device at port 5. -/
def single : PortMap Bool := (empty.tryInstall false 5 1).2

/-- The greatest count at port 5: the map takes the range for a free one, though its first port has
a device, and it lets another device in. -/
theorem not_keepsToRange_single :
    single.owner 5 = some false ∧ single.isBusy 5 0xFFFFFFFF = false ∧
      (single.tryInstall true 5 0xFFFFFFFF).1 = true ∧
      ¬single.KeepsToRange true 5 0xFFFFFFFF := by
  have owned : single.owner 5 = some false := by decide +kernel
  have free : single.isBusy 5 0xFFFFFFFF = false := by decide +kernel
  refine ⟨owned, free, by decide +kernel, fun keeps => ?_⟩
  have busy := keeps.busy_iff.2 ⟨5, false, ⟨by decide, by decide⟩, owned⟩
  rw [free] at busy
  cases busy

/-! ### Both directions -/

/-- **One direction of a device.** A map after a device has been installed that may or may not work
in the direction of the map. -/
def GainsIf (works : Bool) (m : PortMap ι) (d : ι) (ports : UInt8 → Prop) (m' : PortMap ι) : Prop :=
  if works then m.Gains d ports m' else m' = m

/-- Nothing can fail in a direction whose ports are free. -/
theorem exists_gainsIf {works : Bool} (bounded : first.toNat + count.toNat ≤ 256)
    (free : (works && m.isBusy first count) = false) :
    ∃ m', (if works then m.install? d first count else some m) = some m' ∧
      m.GainsIf works d (Spans first count) m' := by
  cases works with
  | false => exact ⟨m, rfl, rfl⟩
  | true =>
    have possible : (m.install? d first count).isSome = true :=
      isSome_install?_iff.2 ⟨by omega, free⟩
    obtain ⟨m', installed⟩ := Option.isSome_iff_exists.1 possible
    refine ⟨m', installed, ?_⟩
    show m.Gains d (Spans first count) m'
    simpa only [inRange_iff_of_le bounded] using gains_of_install? installed

omit [DecidableEq ι] in
/-- A direction does not stand in the way of a device that does not work in it, or whose ports are
free. -/
theorem not_busy_iff (m : PortMap ι) (works : Bool)
    (bounded : first.toNat + count.toNat ≤ 256) :
    (works && m.isBusy first count) = false ↔
      (works = true → ∀ p, Spans first count p → m.owner p = none) := by
  cases works with
  | false => simp
  | true =>
    rw [Bool.true_and, not_isBusy_iff]
    simp only [inRange_iff_of_le bounded, forall_const]

/-- **All or nothing.** Let the ports of a device exist. Whatever is in the maps of the two
directions, the device can be installed if and only if none of its ports has a device in a direction
in which it works. If it is installed, the map of each of its directions has gained exactly the
ports of the device and the device, and the other map is as it was; if not, both maps are as they
were. -/
theorem installBoth_all_or_nothing (info : ι → DeviceInfo) (d : ι) (inputs outputs : PortMap ι)
    (bounded : (info d).port.toNat + (info d).count.toNat ≤ 256) :
    let r := installBoth info d inputs outputs
    (r.1 = true ↔
      ((info d).input = true →
        ∀ p, Spans (info d).port (info d).count p → inputs.owner p = none) ∧
      ((info d).output = true →
        ∀ p, Spans (info d).port (info d).count p → outputs.owner p = none)) ∧
    (r.1 = true →
      inputs.GainsIf (info d).input d (Spans (info d).port (info d).count) r.2.1 ∧
      outputs.GainsIf (info d).output d (Spans (info d).port (info d).count) r.2.2) ∧
    (r.1 = false → r.2 = (inputs, outputs)) := by
  intro r
  have inputFree := not_busy_iff inputs (info d).input bounded
  have outputFree := not_busy_iff outputs (info d).output bounded
  cases blocked : (info d).input && inputs.isBusy (info d).port (info d).count ||
      (info d).output && outputs.isBusy (info d).port (info d).count with
  | true =>
    have refused : r = (false, inputs, outputs) := if_pos blocked
    rw [refused]
    refine ⟨⟨nofun, fun free => ?_⟩, nofun, fun _ => rfl⟩
    -- A direction that is in the way has a device at a port of the range.
    rw [inputFree.2 free.1, outputFree.2 free.2] at blocked
    cases blocked
  | false =>
    have free := Bool.or_eq_false_iff.1 blocked
    obtain ⟨inputs', entered, gains⟩ := exists_gainsIf (d := d) bounded free.1
    obtain ⟨outputs', entered', gains'⟩ := exists_gainsIf (d := d) bounded free.2
    have installed : r = (true, inputs', outputs') := by
      show installBoth info d inputs outputs = _
      unfold installBoth
      dsimp only
      rw [blocked, if_neg Bool.false_ne_true, entered]
      dsimp only
      rw [entered']
    rw [installed]
    exact ⟨iff_of_true rfl ⟨inputFree.1 free.1, outputFree.1 free.2⟩, fun _ => ⟨gains, gains'⟩,
      nofun⟩

/-- Two devices, of which the first works in both directions. -/
def overlapping : Bool → DeviceInfo
  | false => ⟨.ascii "BOTH", .ascii "BOTH", .ascii "both", true, true, 0x10, 4⟩
  | true => ⟨.ascii "OUT", .ascii "OUT", .ascii "output", false, true, 0x12, 1⟩

/-- Inputs among which the first device has other ports than its own. -/
def elsewhere : PortMap Bool := (empty.tryInstall false 0x80 2).2

/-- Outputs among which the second device has a port of the first one. -/
def occupied : PortMap Bool := (empty.tryInstall true 0x12 1).2

/-- The first device cannot be installed, and it keeps the ports that it has. -/
theorem installBoth_all_or_nothing_overlapping :
    (overlapping false).port.toNat + (overlapping false).count.toNat ≤ 256 ∧
      occupied.owner 0x12 = some true ∧
      (installBoth overlapping false elsewhere occupied).1 = false ∧
      (installBoth overlapping false elsewhere occupied).2 = (elsewhere, occupied) ∧
      (installBoth overlapping false elsewhere occupied).2.1.owner 0x81 = some false := by
  have bounded : (overlapping false).port.toNat + (overlapping false).count.toNat ≤ 256 := by
    decide
  have taken : occupied.owner 0x12 = some true := by decide +kernel
  have owned : elsewhere.owner 0x81 = some false := by decide +kernel
  obtain ⟨possible, -, unchanged⟩ :=
    installBoth_all_or_nothing overlapping false elsewhere occupied bounded
  have refused : (installBoth overlapping false elsewhere occupied).1 = false := by
    rw [← Bool.not_eq_true, possible]
    rintro ⟨-, free⟩
    have none := free rfl 0x12 ⟨by decide, by decide⟩
    rw [taken] at none
    cases none
  have same := unchanged refused
  refine ⟨bounded, taken, refused, same, ?_⟩
  rw [same]
  dsimp only
  exact owned

end PortMap

end Micro80
