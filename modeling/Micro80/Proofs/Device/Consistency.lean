import Mathlib.Data.Set.Card
import Micro80.Proofs.Device.Wiring

/-!
# Consistent port maps

A port map says twice which devices it has: as the owners of ports and as a list. Whatever is done
to a map, and at whatever ports, the list has exactly the owners, each of them once. A device comes
in with the first of its ports and goes out with the last.

Here removing a device is done in one stroke. It can be done port by port as well: what is at the
lowest port of the device is removed, as long as there is such a port. Every round takes a port away
from the device, so there is an end to it, and what is left is the map without the device.

The ranges are those that have a port, as a map demands of its callers, and that end with the last
port at most.

## Main definitions

* `PortMap.IsConsistent`: the list of devices has the owners of ports, each of them once.
* `PortMap.Loses`: what a map looks like after a device has lost some ports.
* `PortMap.Sheds`: removing a device port by port.
* `PortMap.Edit`, with `PortMap.edit` and `PortMap.editAll`: what can be done to a map.
* `PortMap.Unmaps`, `PortMap.Evicts`: what removing comes to.

## Main statements

* `PortMap.lowest?_eq_some_iff`, `PortMap.count_eq_ncard`: what is asked about ports.
* `PortMap.sheds_iff`: removing port by port ends, and with the map without the device.
* `PortMap.IsConsistent.edit`, `PortMap.IsConsistent.editAll`: edits keep maps consistent.
* `PortMap.list_tells_owners`: all of this together.
-/

namespace Micro80

variable {ι : Type}

/-! ### Ports -/

theorem pairwise_allPorts : allPorts.Pairwise (· < ·) := by
  rw [allPorts, List.pairwise_map]
  refine List.pairwise_lt_range.imp_of_mem fun {a b} ha hb less => ?_
  rw [List.mem_range] at ha hb
  rw [UInt8.lt_iff_toNat_lt, UInt8.toNat_ofNat_of_lt' ha, UInt8.toNat_ofNat_of_lt' hb]
  exact less

theorem nodup_allPorts : allPorts.Nodup := pairwise_allPorts.imp UInt8.ne_of_lt

namespace PortMap

/-- **Counting ports** counts those that have a device. -/
theorem count_eq_ncard (m : PortMap ι) : m.count = {p | ∃ d, m.owner p = some d}.ncard := by
  have ports : {p | ∃ d, m.owner p = some d} =
      ↑(allPorts.filter fun p => (m.owner p).isSome).toFinset := by
    ext p
    simp [mem_allPorts, Option.isSome_iff_exists]
  rw [ports, Set.ncard_coe_finset, List.toFinset_card_of_nodup (nodup_allPorts.filter _), count,
    List.countP_eq_length_filter]

section

variable [DecidableEq ι] {m m' : PortMap ι} {d : ι} {p : UInt8}

theorem isLeast_of_lowest? (found : m.lowest? d = some p) : IsLeast {q | m.owner q = some d} p := by
  obtain ⟨owned, before, behind, ports, none⟩ := List.find?_eq_some_iff_append.1 found
  refine ⟨of_decide_eq_true owned, fun q holds => ?_⟩
  have ordered := pairwise_allPorts
  have listed := mem_allPorts q
  rw [ports] at ordered listed
  obtain earlier | later := List.mem_append.1 listed
  · have unowned := none q earlier
    rw [decide_eq_true (show m.owner q = some d from holds)] at unowned
    cases unowned
  · obtain rfl | later := List.mem_cons.1 later
    · exact UInt8.le_refl q
    · have rest := (List.pairwise_append.1 ordered).2.1
      exact UInt8.le_of_lt (List.rel_of_pairwise_cons rest later)

/-- **The lowest port** of a device. -/
theorem lowest?_eq_some_iff : m.lowest? d = some p ↔ IsLeast {q | m.owner q = some d} p := by
  constructor
  · exact isLeast_of_lowest?
  · rintro ⟨owned, least⟩
    obtain ⟨q, found⟩ := Option.isSome_iff_exists.1 (isSome_lowest?_iff.2 ⟨p, owned⟩)
    obtain ⟨owned', least'⟩ := isLeast_of_lowest? found
    rw [found, UInt8.le_antisymm (least' owned) (least owned')]

theorem lowest?_eq_none_iff : m.lowest? d = none ↔ ∀ q, m.owner q ≠ some d := by
  rw [← Option.not_isSome_iff_eq_none, isSome_lowest?_iff, not_exists]

end

/-! ### Consistency -/

/-- **Consistent maps.** The list of devices has those that have a port, each of them once. -/
structure IsConsistent (m : PortMap ι) : Prop where
  mem_iff : ∀ d, d ∈ m.devices ↔ ∃ p, m.owner p = some d
  nodup : m.devices.Nodup

theorem isConsistent_empty : (empty : PortMap ι).IsConsistent where
  mem_iff _ := ⟨nofun, nofun⟩
  nodup := .nil

/-- **Losing ports.** A map after a device has lost some ports: these have no device any more, the
others are as they were, and the device is among the devices of the map only if it has a port
left. -/
structure Loses (m : PortMap ι) (d : ι) (ports : UInt8 → Prop) (m' : PortMap ι) : Prop where
  owner_of_mem : ∀ p, ports p → m'.owner p = none
  owner_of_notMem : ∀ p, ¬ ports p → m'.owner p = m.owner p
  mem_iff : ∀ e, e ∈ m'.devices ↔ e ∈ m.devices ∧ (e = d → ∃ p, m'.owner p = some d)
  nodup : m.devices.Nodup → m'.devices.Nodup

namespace IsConsistent

variable {m m' : PortMap ι} {d : ι} {ports : UInt8 → Prop} (h : m.IsConsistent)

include h

/-- The list of devices is as long as there are owners. -/
theorem length_devices : m.devices.length = {d | ∃ p, m.owner p = some d}.ncard := by
  classical
  have owners : {d | ∃ p, m.owner p = some d} = ↑m.devices.toFinset := by
    ext d
    simp [h.mem_iff]
  rw [owners, Set.ncard_coe_finset, List.toFinset_card_of_nodup h.nodup]

/-- A map stays consistent if a device gains ports that nobody has. -/
theorem gains (gains : m.Gains d ports m') (some : ∃ p, ports p)
    (free : ∀ p, ports p → m.owner p = none) : m'.IsConsistent where
  nodup := gains.nodup h.nodup
  mem_iff e := by
    rw [gains.mem_iff, h.mem_iff]
    constructor
    · rintro (rfl | ⟨p, owned⟩)
      · obtain ⟨p, inside⟩ := some
        exact ⟨p, gains.owner_of_mem p inside⟩
      · have outside : ¬ ports p := by
          intro inside
          rw [free p inside] at owned
          cases owned
        exact ⟨p, (gains.owner_of_notMem p outside).trans owned⟩
    · rintro ⟨p, owned⟩
      by_cases inside : ports p
      · rw [gains.owner_of_mem p inside] at owned
        exact .inl (Option.some.inj owned).symm
      · rw [gains.owner_of_notMem p inside] at owned
        exact .inr ⟨p, owned⟩

/-- A map stays consistent if a device loses ports of its own. -/
theorem loses (loses : m.Loses d ports m') (own : ∀ p, ports p → m.owner p = some d) :
    m'.IsConsistent where
  nodup := loses.nodup h.nodup
  mem_iff e := by
    rw [loses.mem_iff, h.mem_iff]
    constructor
    · rintro ⟨⟨p, owned⟩, left⟩
      by_cases same : e = d
      · exact same ▸ left same
      · have outside : ¬ ports p := by
          intro inside
          rw [own p inside] at owned
          exact same (Option.some.inj owned).symm
        exact ⟨p, (loses.owner_of_notMem p outside).trans owned⟩
    · rintro ⟨p, owned⟩
      refine ⟨⟨p, ?_⟩, fun same => ⟨p, same ▸ owned⟩⟩
      have outside : ¬ ports p := by
        intro inside
        rw [loses.owner_of_mem p inside] at owned
        cases owned
      exact (loses.owner_of_notMem p outside).symm.trans owned

end IsConsistent

/-! ### Removing -/

section

variable [DecidableEq ι] {m m' : PortMap ι} {d : ι} {p : UInt8}

/-- A port can be removed if it has a device. -/
theorem isSome_removePort?_iff : (m.removePort? p).isSome = true ↔ ∃ d, m.owner p = some d := by
  unfold removePort?
  cases m.owner p <;> simp

/-- Whether or not a port has had a device, it has none when it has been removed. -/
theorem owner_getD_removePort? (m : PortMap ι) (p q : UInt8) :
    ((m.removePort? p).getD m).owner q = if q = p then none else m.owner q := by
  cases removed : m.removePort? p with
  | some m' => exact owner_removePort? removed q
  | none =>
    have vacant : m.owner p = none := by
      rw [Option.eq_none_iff_forall_ne_some]
      intro d owned
      have possible := isSome_removePort?_iff.2 ⟨d, owned⟩
      rw [removed] at possible
      cases possible
    by_cases same : q = p
    · rw [if_pos same, same]
      exact vacant
    · rw [if_neg same]
      rfl

/-- Whether or not a device has had ports, it has none when it has been removed. -/
theorem owner_getD_remove? (m : PortMap ι) (d : ι) (p : UInt8) :
    ((m.remove? d).getD m).owner p = if m.owner p = some d then none else m.owner p := by
  rw [remove?]
  cases found : m.lowest? d with
  | some q => exact m.owner_without d p
  | none =>
    rw [if_neg (lowest?_eq_none_iff.1 found p)]
    rfl

/-- **Removing a port** leaves its device on the list if it has another one. -/
theorem devices_removePort? (owned : m.owner p = some d) (removed : m.removePort? p = some m') :
    m'.devices = if (m'.lowest? d).isSome then m.devices else m.devices.filter (· ≠ d) := by
  unfold removePort? at removed
  rw [owned] at removed
  cases removed
  simp only [lowest?, List.find?_isSome, List.any_eq_true]

theorem loses_of_removePort? (owned : m.owner p = some d) (removed : m.removePort? p = some m') :
    m.Loses d (· = p) m' := by
  have owner := owner_removePort? removed
  have devices := devices_removePort? owned removed
  refine ⟨fun q same => ?_, fun q other => ?_, fun e => ?_, fun nodup => ?_⟩
  · rw [owner, if_pos same]
  · rw [owner, if_neg other]
  · rw [devices]
    split
    · rename_i left
      rw [isSome_lowest?_iff] at left
      exact ⟨fun mem => ⟨mem, fun _ => left⟩, And.left⟩
    · rename_i gone
      rw [isSome_lowest?_iff] at gone
      rw [List.mem_filter, decide_eq_true_iff]
      exact and_congr_right'
        ⟨fun other same => absurd same other, fun left same => gone (left same)⟩
  · rw [devices]
    split
    · exact nodup
    · exact nodup.filter _

theorem loses_without (m : PortMap ι) (d : ι) :
    m.Loses d (fun p => m.owner p = some d) (m.without d) := by
  have owner := m.owner_without d
  have gone : ¬ ∃ q, (m.without d).owner q = some d := by
    rintro ⟨q, owned⟩
    rw [owner] at owned
    split at owned
    · cases owned
    · contradiction
  refine ⟨fun q own => ?_, fun q other => ?_, fun e => ?_, fun nodup => nodup.filter _⟩
  · rw [owner, if_pos own]
  · rw [owner, if_neg other]
  · show e ∈ m.devices.filter (· ≠ d) ↔ _
    rw [List.mem_filter, decide_eq_true_iff]
    exact and_congr_right' ⟨fun other same => absurd same other, fun left same => gone (left same)⟩

/-! ### Port by port -/

/-- **Removing port by port.** As long as a device has a port, what is at its lowest port is
removed. -/
inductive Sheds (d : ι) : PortMap ι → PortMap ι → Prop where
  | done {m : PortMap ι} (none : m.lowest? d = none) : Sheds d m m
  | next {m m₁ m' : PortMap ι} {p : UInt8} (found : m.lowest? d = some p)
      (removed : m.removePort? p = some m₁) (rest : Sheds d m₁ m') : Sheds d m m'

/-- A device that loses a port has fewer ports. -/
theorem ncard_ports_lt (owned : m.owner p = some d) (removed : m.removePort? p = some m') :
    {q | m'.owner q = some d}.ncard < {q | m.owner q = some d}.ncard := by
  have owner := owner_removePort? removed
  have finite : {q | m.owner q = some d}.Finite :=
    allPorts.toFinset.finite_toSet.subset fun q _ => by simp [mem_allPorts]
  refine Set.ncard_lt_ncard ?_ finite
  refine (Set.ssubset_iff_of_subset fun q left => ?_).2 ⟨p, owned, fun left => ?_⟩
  · rw [Set.mem_ofPred_eq, owner] at left
    split at left
    · cases left
    · exact left
  · rw [Set.mem_ofPred_eq, owner, if_pos rfl] at left
    cases left

/-- The map without a device is the same after one of its ports has been removed. -/
theorem without_of_removePort? (owned : m.owner p = some d)
    (removed : m.removePort? p = some m') : m'.without d = m.without d := by
  refine (PortMap.mk.injEq ..).mpr ⟨funext fun q => ?_, ?_⟩
  · rw [owner_removePort? removed]
    by_cases same : q = p
    · rw [if_pos same, same, if_pos owned, if_neg nofun]
    · rw [if_neg same]
  · rw [devices_removePort? owned removed]
    split
    · rfl
    · rw [List.filter_filter]
      simp only [Bool.and_self]

/-- A map without a port of a device and without the device is what it is. -/
theorem without_of_removePort?_of_none (owned : m.owner p = some d)
    (removed : m.removePort? p = some m') (none : m'.lowest? d = none) : m'.without d = m' := by
  refine (PortMap.mk.injEq ..).mpr ⟨funext fun q => if_neg (lowest?_eq_none_iff.1 none q), ?_⟩
  rw [devices_removePort? owned removed, none]
  show List.filter _ (List.filter _ _) = List.filter _ _
  rw [List.filter_filter]
  simp only [Bool.and_self]

/-- One round of removing a device, and then the device: this is removing the device. -/
theorem getD_remove?_of_removePort? (owned : m.owner p = some d)
    (removed : m.removePort? p = some m') :
    (m'.remove? d).getD m' = (m.remove? d).getD m := by
  have present : (m.remove? d).getD m = m.without d := by
    obtain ⟨q, found⟩ := Option.isSome_iff_exists.1 (isSome_lowest?_iff.2 ⟨p, owned⟩)
    rw [remove?, found]
    rfl
  rw [present, ← without_of_removePort? owned removed, remove?]
  cases none : m'.lowest? d with
  | none => exact (without_of_removePort?_of_none owned removed none).symm
  | some q => rfl

/-- **Removing port by port** comes to an end, and what is left is what removing the device
leaves. -/
theorem sheds_iff : m.Sheds d m' ↔ m' = (m.remove? d).getD m := by
  -- Every round takes a port away from the device.
  induction n : {q | m.owner q = some d}.ncard using Nat.strong_induction_on generalizing m with
  | _ n ih =>
    cases found : m.lowest? d with
    | none =>
      have stays : (m.remove? d).getD m = m := by
        rw [remove?, found]
        rfl
      rw [stays]
      constructor
      · intro sheds
        cases sheds with
        | done => rfl
        | next found' =>
          rw [found] at found'
          cases found'
      · rintro rfl
        exact .done found
    | some p =>
      have owned : m.owner p = some d := (isLeast_of_lowest? found).1
      obtain ⟨m₁, removed⟩ := Option.isSome_iff_exists.1 (isSome_removePort?_iff.2 ⟨d, owned⟩)
      have rest := ih _ (n ▸ ncard_ports_lt owned removed) rfl
      rw [getD_remove?_of_removePort? owned removed] at rest
      rw [← rest]
      constructor
      · intro sheds
        cases sheds with
        | done none =>
          rw [found] at none
          cases none
        | next found' removed' rest' =>
          rw [found] at found'
          cases found'
          rw [removed] at removed'
          cases removed'
          exact rest'
      · exact .next found removed

end

/-! ### Edits -/

/-- **Edits.** What can be done to a map. -/
inductive Edit (ι : Type) where
  /-- Installs a device at a range of ports. -/
  | install (d : ι) (first : UInt8) (count : UInt32)
  /-- Installs a device at its own ports. -/
  | installOwn (d : ι)
  | removePort (p : UInt8)
  | remove (d : ι)
  | removeAll

/-- **Fitting edits.** The range of ports, if there is one, has a port and ends with the last port
at most. -/
def Edit.Fits (info : ι → DeviceInfo) : Edit ι → Prop
  | install _ first count => 0 < count.toNat ∧ first.toNat + count.toNat ≤ 256
  | installOwn d => (info d).Fits
  | removePort _ | remove _ | removeAll => True

section

variable [DecidableEq ι] (info : ι → DeviceInfo)

/-- **Editing.** Whether an edit is possible, and the map afterwards. -/
def edit (m : PortMap ι) : Edit ι → Bool × PortMap ι
  | .install d first count => m.tryInstall d first count
  | .installOwn d => m.tryInstall d (info d).port (info d).count
  | .removePort p => ((m.removePort? p).isSome, (m.removePort? p).getD m)
  | .remove d => ((m.remove? d).isSome, (m.remove? d).getD m)
  | .removeAll => (true, empty)

/-- The map after several edits. -/
def editAll (m : PortMap ι) (edits : List (Edit ι)) : PortMap ι :=
  edits.foldl (fun m e => (m.edit info e).2) m

namespace IsConsistent

variable {info} {m : PortMap ι} (h : m.IsConsistent)

include h

/-- **Trying to install** a device at some ports keeps a map consistent. -/
theorem tryInstall {d : ι} {first : UInt8} {count : UInt32} (positive : 0 < count.toNat)
    (bounded : first.toNat + count.toNat ≤ 256) : (m.tryInstall d first count).2.IsConsistent := by
  cases possible : m.install? d first count with
  | none =>
    rw [PortMap.tryInstall, possible]
    exact h
  | some m' =>
    rw [PortMap.tryInstall, possible]
    have own : inRange first count first = true :=
      (inRange_iff_of_le bounded).2 ⟨Nat.le_refl _, Nat.lt_add_of_pos_right positive⟩
    exact h.gains (gains_of_install? possible) ⟨first, own⟩
      (not_isBusy_iff.1 (not_isBusy_of_install? possible))

theorem removePort (p : UInt8) : ((m.removePort? p).getD m).IsConsistent := by
  cases removed : m.removePort? p with
  | none => exact h
  | some m' =>
    obtain ⟨d, owned⟩ := isSome_removePort?_iff.1 (Option.isSome_of_eq_some removed)
    exact h.loses (loses_of_removePort? owned removed) fun q same => same ▸ owned

theorem remove (d : ι) : ((m.remove? d).getD m).IsConsistent := by
  rw [remove?]
  cases m.lowest? d with
  | none => exact h
  | some p => exact h.loses (m.loses_without d) fun q own => own

/-- **An edit** keeps a map consistent. -/
theorem edit {e : Edit ι} (fits : e.Fits info) : (m.edit info e).2.IsConsistent := by
  cases e with
  | install d first count => exact h.tryInstall fits.1 fits.2
  | installOwn d => exact h.tryInstall fits.count_pos fits.last_le
  | removePort p => exact h.removePort p
  | remove d => exact h.remove d
  | removeAll => exact isConsistent_empty

/-- **Any number of edits** keep a map consistent. -/
theorem editAll {edits : List (Edit ι)} (fits : ∀ e ∈ edits, e.Fits info) :
    (m.editAll info edits).IsConsistent := by
  induction edits generalizing m with
  | nil => exact h
  | cons e rest ih =>
    rw [List.forall_mem_cons] at fits
    exact ih (h.edit fits.1) fits.2

end IsConsistent

end

/-! ### What maps tell -/

section

variable [DecidableEq ι]

/-- **What removing a port comes to.** It is possible if the port has a device. The other ports stay
as they are, the device goes out of the map if the port was its last one, and no other device
does. -/
structure Unmaps (m : PortMap ι) (p : UInt8) (r : Bool × PortMap ι) : Prop where
  possible_iff : r.1 = true ↔ ∃ d, m.owner p = some d
  owner : ∀ q, r.2.owner q = if q = p then none else m.owner q
  dropped_iff : ∀ d, m.owner p = some d → (r.2.has d = false ↔ ∀ q, m.owner q = some d → q = p)
  has_of_ne : ∀ e, m.owner p ≠ some e → r.2.has e = m.has e

/-- **What removing a device comes to.** It is possible if the device has a port. Removing it port
by port comes to an end with the same map. Its ports have no device any more, the other ports stay
as they are, it is not in the map any more, and the other devices are if they were. -/
structure Evicts (m : PortMap ι) (d : ι) (r : Bool × PortMap ι) : Prop where
  possible_iff : r.1 = true ↔ ∃ p, m.owner p = some d
  sheds_iff : ∀ m', m.Sheds d m' ↔ m' = r.2
  owner : ∀ p, r.2.owner p = if m.owner p = some d then none else m.owner p
  has_iff : ∀ e, r.2.has e = true ↔ m.has e = true ∧ e ≠ d

namespace IsConsistent

variable {m : PortMap ι} (h : m.IsConsistent)

include h

theorem has_iff {d : ι} : m.has d = true ↔ ∃ p, m.owner p = some d := by
  rw [has, List.contains_iff_mem, h.mem_iff]

/-- **Removing a port** does what it is for. -/
theorem unmaps (info : ι → DeviceInfo) (p : UInt8) :
    m.Unmaps p (m.edit info (.removePort p)) := by
  have owner := m.owner_getD_removePort? p
  have has (e : ι) : ((m.removePort? p).getD m).has e = true ↔ ∃ q, q ≠ p ∧ m.owner q = some e := by
    rw [(h.removePort p).has_iff]
    refine exists_congr fun q => ?_
    rw [owner]
    by_cases same : q = p <;> simp [same]
  refine ⟨isSome_removePort?_iff, owner, fun d owned => ?_, fun e other => ?_⟩
  · show ((m.removePort? p).getD m).has d = false ↔ _
    rw [← Bool.not_eq_true, has]
    constructor
    · intro gone q owned'
      exact Classical.byContradiction fun different => gone ⟨q, different, owned'⟩
    · rintro last ⟨q, different, owned'⟩
      exact different (last q owned')
  · show ((m.removePort? p).getD m).has e = m.has e
    rw [Bool.eq_iff_iff, has, h.has_iff]
    refine exists_congr fun q => and_iff_right_of_imp ?_
    rintro owned rfl
    exact other owned

/-- **Removing a device** does what it is for. -/
theorem evicts (info : ι → DeviceInfo) (d : ι) : m.Evicts d (m.edit info (.remove d)) := by
  have owner := m.owner_getD_remove? d
  refine ⟨?_, fun m' => PortMap.sheds_iff, owner, fun e => ?_⟩
  · show (m.remove? d).isSome = true ↔ _
    rw [remove?, Option.isSome_map, isSome_lowest?_iff]
  · show ((m.remove? d).getD m).has e = true ↔ _
    rw [(h.remove d).has_iff, h.has_iff, ← exists_and_right]
    refine exists_congr fun p => ?_
    rw [owner]
    split
    · rename_i owned
      rw [owned]
      simp only [reduceCtorEq, Option.some.injEq, false_iff, not_and, Classical.not_not]
      exact Eq.symm
    · rename_i other
      refine (and_iff_left_of_imp ?_).symm
      rintro owned rfl
      exact other owned

end IsConsistent

/-- **The list of devices tells the owners.** After any fitting edits of an empty map, which may
give the same device several ranges of ports, the list has the devices that have a port, each of
them once. So a device is in the map if and only if it has a lowest port, which is the least of its
ports, the list is as long as there are owners, and as many ports are counted as have a device.
Removing a port and removing a device do what they are for. -/
theorem list_tells_owners (info : ι → DeviceInfo) {edits : List (Edit ι)}
    (fits : ∀ e ∈ edits, e.Fits info) :
    let m := (empty : PortMap ι).editAll info edits
    (m.devices.Nodup ∧ ∀ d, d ∈ m.devices ↔ ∃ p, m.owner p = some d) ∧
      (∀ d, m.has d = true ↔ m.lowest? d ≠ none) ∧
      m.devices.length = {d | ∃ p, m.owner p = some d}.ncard ∧
      m.count = {p | ∃ d, m.owner p = some d}.ncard ∧
      (∀ d p, m.lowest? d = some p ↔ IsLeast {q | m.owner q = some d} p) ∧
      (∀ p, m.Unmaps p (m.edit info (.removePort p))) ∧
      ∀ d, m.Evicts d (m.edit info (.remove d)) := by
  intro m
  have consistent : m.IsConsistent := isConsistent_empty.editAll fits
  refine ⟨⟨consistent.nodup, consistent.mem_iff⟩, fun d => ?_, consistent.length_devices,
    m.count_eq_ncard, fun d p => lowest?_eq_some_iff, consistent.unmaps info,
    consistent.evicts info⟩
  rw [consistent.has_iff, ← isSome_lowest?_iff, Option.isSome_iff_ne_none]

end

/-- The device that works in both directions gets a port apart from its own ones, the other one gets
a port in vain and then another, and what is at two of the ports is removed. -/
def moves : List (Edit Bool) :=
  [.installOwn false, .install false 0x80 2, .install true 0x11 1, .install true 0xFF 1,
    .removePort 0x10, .removePort 0xFF]

/-- The first device has the ports that are left, and the second one is gone with its only port. -/
theorem list_tells_owners_moves :
    (∀ e ∈ moves, e.Fits overlapping) ∧
      ((empty : PortMap Bool).editAll overlapping moves).lowest? false = some 0x11 ∧
      ((empty : PortMap Bool).editAll overlapping moves).has false = true ∧
      ((empty : PortMap Bool).editAll overlapping moves).has true = false ∧
      ((empty : PortMap Bool).editAll overlapping moves).owner 0x81 = some false ∧
      (((empty : PortMap Bool).editAll overlapping moves).edit overlapping
        (.remove false)).2.owner 0x81 = none := by
  have fits : ∀ e ∈ moves, e.Fits overlapping := by
    simp only [moves, List.forall_mem_cons, Edit.Fits]
    exact ⟨⟨by decide, by decide⟩, by decide, by decide, by decide, trivial, trivial, nofun⟩
  obtain ⟨-, has, -, -, -, -, evicts⟩ := list_tells_owners overlapping fits
  have lowest : ((empty : PortMap Bool).editAll overlapping moves).lowest? false = some 0x11 := by
    decide +kernel
  have absent : ((empty : PortMap Bool).editAll overlapping moves).lowest? true = none := by
    decide +kernel
  have owned : ((empty : PortMap Bool).editAll overlapping moves).owner 0x81 = some false := by
    decide +kernel
  refine ⟨fits, lowest, (has false).2 (by rw [lowest]; simp), ?_, owned, ?_⟩
  · rw [← Bool.not_eq_true, has]
    exact not_not_intro absent
  · rw [(evicts false).owner, if_pos owned]

end PortMap

end Micro80
