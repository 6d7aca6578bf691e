import Micro80.Proofs.Text.Number

/-!
# Fields and outlines

A line of an assembler listing has fields: what stands before the first tabulator, between it and
the first comma, and so on.

Numbers stand in texts in too many forms to be listed. The outline of a text says no more of a
number than that there is one, and nothing of what comes after it.

## Main definitions

* `Text.fields`: the fields of a text.
* `Text.outline`: a text up to its first number.

## Main statements

* `Text.fields_append`: what has no separator belongs to one field.
* `Text.outline_outline_append`: the outline of a text is found from outlines of its parts.
-/

namespace Micro80

namespace Text

/-! ### Fields -/

/-- Tabulators and commas separate fields. -/
def isSeparator (c : UInt8) : Bool := c == 9 || c == 44

/-- **Fields.** What stands between the separators of a text. -/
def fields (t : Text) : List Text := t.splitOnP isSeparator

/-- Whether a text has a single field. -/
def IsField (t : Text) : Prop := ∀ c ∈ t, isSeparator c = false

instance decidableIsField (t : Text) : Decidable t.IsField :=
  List.decidableBAll (isSeparator · = false) t

theorem IsField.append {s t : Text} (hs : s.IsField) (ht : t.IsField) : IsField (s ++ t) := by
  intro c hc
  exact (List.mem_append.1 hc).elim (hs c) (ht c)

theorem IsField.parenthesized {t : Text} (h : t.IsField) : IsField (Text.parenthesized t) :=
  ((by decide : IsField (ascii "(")).append h).append (by decide)

theorem fields_cons (c : UInt8) (t : Text) :
    fields (c :: t) = if isSeparator c then [] :: fields t else (fields t).modifyHead (c :: ·) :=
  List.splitOnP_cons_eq_if_modifyHead ..

/-- What has no separator belongs to the first field. -/
theorem fields_append {s : Text} (h : s.IsField) (t : Text) :
    fields (s ++ t) = (fields t).modifyHead (s ++ ·) := by
  induction s with
  | nil => exact (congrFun List.modifyHead_id (fields t)).symm
  | cons c s ih =>
    rw [List.cons_append, fields_cons, h c List.mem_cons_self, ih fun b hb =>
      h b (List.mem_cons_of_mem c hb)]
    exact List.modifyHead_modifyHead ..

theorem exists_fields_eq_cons (t : Text) : ∃ f fs, fields t = f :: fs :=
  List.exists_cons_of_ne_nil (List.splitOnP_ne_nil isSeparator t)

/-- The first field begins as the text does. -/
theorem exists_eq_cons_of_fields {t f : Text} {fs : List Text} {c : UInt8}
    (h : fields t = (c :: f) :: fs) : ∃ rest, t = c :: rest := by
  cases t with
  | nil => cases h
  | cons b t =>
    obtain ⟨g, gs, ht⟩ := exists_fields_eq_cons t
    rw [fields_cons, ht] at h
    split at h
    · cases h
    · cases h
      exact ⟨t, rfl⟩

/-! ### Outlines -/

/-- Whether a number may begin here. -/
def opensNumber (c : UInt8) : Bool := isDigit c || c == 43 || c == 45

/-- **Outlines.** A text up to its first number, which is left open. -/
def outline : Text → Text
  | [] => []
  | c :: rest => if opensNumber c then [digit 0] else c :: outline rest

theorem outline_cons_of_opensNumber {c : UInt8} (h : opensNumber c = true) (t : Text) :
    outline (c :: t) = [digit 0] := if_pos h

theorem outline_cons_of_not_opensNumber {c : UInt8} (h : ¬opensNumber c = true) (t : Text) :
    outline (c :: t) = c :: outline t := if_neg h

/-- An outline is all that the outline of a longer text needs. -/
theorem outline_outline_append (s t : Text) : outline (outline s ++ t) = outline (s ++ t) := by
  induction s with
  | nil => rfl
  | cons c s ih =>
    by_cases number : opensNumber c = true
    · have cut : outline ((c :: s) ++ t) = [digit 0] := outline_cons_of_opensNumber number (s ++ t)
      rw [outline_cons_of_opensNumber number, cut]
      rfl
    · rw [outline_cons_of_not_opensNumber number, List.cons_append, List.cons_append,
        outline_cons_of_not_opensNumber number, outline_cons_of_not_opensNumber number, ih]

theorem outline_append_outline (s t : Text) : outline (s ++ outline t) = outline (s ++ t) := by
  induction s with
  | nil =>
    have same := outline_outline_append t []
    rwa [List.append_nil, List.append_nil] at same
  | cons c s ih => rw [List.cons_append, List.cons_append, outline, outline, ih]

/-! ### Numbers -/

namespace IsNumber

/-- Letters and digits are no separators. -/
theorem isField {t : Text} (h : IsNumber t) : IsField t := by
  intro c hc
  have word := h.word c hc
  rw [Bool.eq_false_iff]
  intro separator
  obtain rfl | rfl : c = 9 ∨ c = 44 := by simpa [isSeparator] using separator
  · revert word
    decide
  · revert word
    decide

/-- All that an outline says of a number is that there is one. -/
theorem outline_append {s : Text} (h : IsNumber s) (t : Text) : outline (s ++ t) = [digit 0] := by
  obtain ⟨c, rest, rfl, first⟩ := h.opens
  refine outline_cons_of_opensNumber ?_ (rest ++ t)
  unfold opensNumber
  rw [first, Bool.true_or, Bool.true_or]

theorem outline {t : Text} (h : IsNumber t) : t.outline = [digit 0] := by
  have same := h.outline_append []
  rwa [List.append_nil] at same

theorem outline_parenthesized {t : Text} (h : IsNumber t) :
    (parenthesized t).outline = ascii "(0" := by
  show Text.outline (40 :: (t ++ ascii ")")) = _
  rw [outline_cons_of_not_opensNumber (by decide), h.outline_append]
  rfl

end IsNumber

end Text

end Micro80
