import Micro80.Proofs.Text.Fields

/-!
# Names with operands filled in

The name of an opcode has places for the texts of operands. What is filled in can be found again:
the fields of the result are those of the name, and a field with a single place determines the text
that stands there.

## Main definitions

* `Instruction.Hole`, `Instruction.holes`: the places for operands in a name.
* `Instruction.fillings`: a name with each of several texts filled in.

## Main statements

* `Instruction.fields_fill`: the fields of a name that is filled in.
* `Instruction.outline_fill`: its outline depends on the outlines of the operands only.
* `Instruction.pick_eq_of_fill_eq`: what is filled into a single place can be found again.
-/

namespace Micro80

namespace Instruction

section Fill

variable {dst src : Text}

/-! ### Fields and outlines -/

/-- A byte that begins no place is left as it is. -/
theorem fill_cons {c : UInt8} {rest : Text} (notDst : ∀ t, c = 37 → rest = 68 :: t → False)
    (notSrc : ∀ t, c = 37 → rest = 83 :: t → False) :
    fill dst src (c :: rest) = c :: fill dst src rest :=
  fill.eq_4 dst src c rest notDst notSrc

/-- The fields of a name that is filled in are the fields of the name, filled in. -/
theorem fields_fill (hd : dst.IsField) (hs : src.IsField) (t : Text) :
    (fill dst src t).fields = t.fields.map (fill dst src) := by
  fun_induction fill dst src t with
  | case1 => rfl
  | case2 rest ih =>
    obtain ⟨f, fs, h⟩ := Text.exists_fields_eq_cons rest
    rw [Text.fields_append hd, ih, Text.fields_cons, Text.fields_cons, h]
    rfl
  | case3 rest ih =>
    obtain ⟨f, fs, h⟩ := Text.exists_fields_eq_cons rest
    rw [Text.fields_append hs, ih, Text.fields_cons, Text.fields_cons, h]
    rfl
  | case4 c rest notDst notSrc ih =>
    obtain ⟨f, fs, h⟩ := Text.exists_fields_eq_cons rest
    rw [Text.fields_cons, ih, Text.fields_cons, h]
    split
    · rfl
    · -- A place does not begin in one field and end in the next.
      have filled : fill dst src (c :: f) = c :: fill dst src f := by
        refine fill_cons ?_ ?_
        · rintro f' rfl rfl
          obtain ⟨rest', rfl⟩ := Text.exists_eq_cons_of_fields h
          exact notDst rest' rfl rfl
        · rintro f' rfl rfl
          obtain ⟨rest', rfl⟩ := Text.exists_eq_cons_of_fields h
          exact notSrc rest' rfl rfl
      rw [List.map_cons, List.modifyHead_cons, List.modifyHead_cons, List.map_cons, filled]

/-- The outline of a name that is filled in depends on the outlines of the operands only. -/
theorem outline_fill (t : Text) :
    (fill dst src t).outline = (fill dst.outline src.outline t).outline := by
  fun_induction fill dst src t with
  | case1 => rfl
  | case2 rest ih =>
    rw [fill, Text.outline_outline_append, ← Text.outline_append_outline, ih,
      Text.outline_append_outline]
  | case3 rest ih =>
    rw [fill, Text.outline_outline_append, ← Text.outline_append_outline, ih,
      Text.outline_append_outline]
  | case4 c rest notDst notSrc ih =>
    rw [fill_cons notDst notSrc, Text.outline, Text.outline, ih]

/-! ### Several texts for each place -/

/-- **Fillings.** A name with each of several texts in the places of its operands. -/
def fillings (dsts srcs : List Text) : Text → List Text
  | [] => [[]]
  | 37 :: 68 :: rest => dsts.flatMap fun d => (fillings dsts srcs rest).map (d ++ ·)
  | 37 :: 83 :: rest => srcs.flatMap fun s => (fillings dsts srcs rest).map (s ++ ·)
  | c :: rest => (fillings dsts srcs rest).map (c :: ·)

theorem fill_mem_fillings {dsts srcs : List Text} (hd : dst ∈ dsts) (hs : src ∈ srcs) (t : Text) :
    fill dst src t ∈ fillings dsts srcs t := by
  fun_induction fill dst src t with
  | case1 => exact List.mem_singleton_self _
  | case2 rest ih => exact List.mem_flatMap.2 ⟨dst, hd, List.mem_map_of_mem ih⟩
  | case3 rest ih => exact List.mem_flatMap.2 ⟨src, hs, List.mem_map_of_mem ih⟩
  | case4 c rest notDst notSrc ih =>
    rw [fillings.eq_4 dsts srcs c rest notDst notSrc]
    exact List.mem_map_of_mem ih

/-! ### Single places -/

/-- **Places.** Where the texts of operands stand in a name. -/
inductive Hole where
  | dst | src
  deriving DecidableEq

/-- What is meant for a place. -/
def Hole.pick {α : Type} (dst src : α) : Hole → α
  | .dst => dst
  | .src => src

/-- The places in a name. -/
def holes : Text → List Hole
  | [] => []
  | 37 :: 68 :: rest => .dst :: holes rest
  | 37 :: 83 :: rest => .src :: holes rest
  | _ :: rest => holes rest

/-- Without a place for them the operands do not matter. -/
theorem exists_fill_of_holes_eq_nil {t : Text} (h : holes t = []) :
    ∃ fixed, ∀ dst src, fill dst src t = fixed := by
  fun_induction holes t with
  | case1 => exact ⟨[], fun _ _ => rfl⟩
  | case2 => cases h
  | case3 => cases h
  | case4 c rest notDst notSrc ih =>
    obtain ⟨fixed, filled⟩ := ih h
    refine ⟨c :: fixed, fun dst src => ?_⟩
    rw [fill_cons notDst notSrc, filled]

/-- With a single place there is something before it and something after it. -/
theorem exists_fill_of_holes_eq_singleton {t : Text} {p : Hole} (h : holes t = [p]) :
    ∃ before after, ∀ dst src, fill dst src t = before ++ p.pick dst src ++ after := by
  fun_induction holes t with
  | case1 => cases h
  | case2 rest ih =>
    obtain ⟨rfl, none⟩ := List.cons.inj h
    obtain ⟨fixed, filled⟩ := exists_fill_of_holes_eq_nil none
    exact ⟨[], fixed, fun dst src => congrArg (dst ++ ·) (filled dst src)⟩
  | case3 rest ih =>
    obtain ⟨rfl, none⟩ := List.cons.inj h
    obtain ⟨fixed, filled⟩ := exists_fill_of_holes_eq_nil none
    exact ⟨[], fixed, fun dst src => congrArg (src ++ ·) (filled dst src)⟩
  | case4 c rest notDst notSrc ih =>
    obtain ⟨before, after, filled⟩ := ih h
    refine ⟨c :: before, after, fun dst src => ?_⟩
    rw [fill_cons notDst notSrc, filled, List.cons_append, List.cons_append]

/-- **What is filled into a single place** can be found again. -/
theorem pick_eq_of_fill_eq {t : Text} {p : Hole} (h : holes t = [p]) {dst' src' : Text}
    (same : fill dst src t = fill dst' src' t) : p.pick dst src = p.pick dst' src' := by
  obtain ⟨before, after, filled⟩ := exists_fill_of_holes_eq_singleton h
  rw [filled, filled] at same
  exact List.append_cancel_left (List.append_cancel_right same)

end Fill

end Instruction

end Micro80
