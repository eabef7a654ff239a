import ExprVet.Text.Blank
import Mathlib.Data.List.DropRight

/-!
# Trimming and lines

Blanks can be taken from the two ends of a text in either order, and what stands around a character
that is no blank is trimmed on its own. A text that ends with a newline is cut into the lines of its
parts.
-/

namespace ExprVet.Text

/-- A text is cut at its first character of the kind. -/
theorem cutAt?_append {p : Char → Bool} {before after : List Char} {c : Char}
    (hbefore : ∀ x ∈ before, p x = false) (hc : p c = true) :
    cutAt? p (before ++ c :: after) = some (before, after) := by
  induction before with
  | nil => simp [cutAt?, hc]
  | cons x before ih =>
      rw [List.forall_mem_cons] at hbefore
      simp [cutAt?, hbefore.1, ih hbefore.2]

section Trim

variable {c : Char} {before after : List Char}

theorem trimStart_append_cons (h : isBlank c = false) (before after : List Char) :
    trimStart (before ++ c :: after) = trimStart before ++ c :: after := by
  rw [trimStart, trimStart, List.dropWhile_append, List.dropWhile_cons_of_neg (by simp [h])]
  split
  · rename_i hempty
    rw [List.isEmpty_iff.mp hempty, List.nil_append]
  · rfl

theorem trimEnd_append_cons (h : isBlank c = false) (before after : List Char) :
    trimEnd (before ++ c :: after) = before ++ c :: trimEnd after := by
  have hreverse : (before ++ c :: after).reverse = after.reverse ++ c :: before.reverse := by simp
  have hstart := trimStart_append_cons h after.reverse before.reverse
  rw [trimStart, trimStart] at hstart
  rw [trimEnd, hreverse, hstart]
  simp [trimEnd]

/-- What stands around a character that is no blank is trimmed on its own. -/
theorem trim_append_cons (h : isBlank c = false) (before after : List Char) :
    trim (before ++ c :: after) = trimStart before ++ c :: trimEnd after := by
  rw [trim, trimStart_append_cons h, trimEnd_append_cons h]

/-- The two ends of a text are trimmed in either order. -/
theorem trimStart_trimEnd (cs : List Char) : trimStart (trimEnd cs) = trim cs := by
  rw [trim]
  by_cases h : ∃ c ∈ cs, isBlank c = false
  · obtain ⟨c, hmem, hc⟩ := h
    obtain ⟨before, after, rfl⟩ := List.append_of_mem hmem
    rw [trimEnd_append_cons hc, trimStart_append_cons hc, trimStart_append_cons hc,
      trimEnd_append_cons hc]
  · have hblank : ∀ c ∈ cs, isBlank c = true := by simpa using h
    have hstart : trimStart cs = [] := List.dropWhile_eq_nil_iff.mpr hblank
    have hend : trimEnd cs = [] := List.rdropWhile_eq_nil_iff.mpr hblank
    rw [hstart, hend]
    rfl

@[simp] theorem trim_trimStart (cs : List Char) : trim (trimStart cs) = trim cs := by
  rw [trim, trim, trimStart, trimStart, List.dropWhile_idempotent]

@[simp] theorem trim_trimEnd (cs : List Char) : trim (trimEnd cs) = trim cs := by
  rw [trim, trimStart_trimEnd, trim]
  exact List.rdropWhile_idempotent isBlank (trimStart cs)

theorem trim_cons (h : isBlank c = true) (cs : List Char) : trim (c :: cs) = trim cs := by
  rw [trim, trimStart, List.dropWhile_cons_of_pos h]
  rfl

theorem trim_concat (h : isBlank c = true) (cs : List Char) : trim (cs ++ [c]) = trim cs := by
  have hend : trimEnd (cs ++ [c]) = trimEnd cs := List.rdropWhile_concat_pos isBlank cs c h
  rw [← trimStart_trimEnd, hend, trimStart_trimEnd]

/-- The carriage return that may end a line is a blank. -/
@[simp] theorem trim_dropReturn (cs : List Char) : trim (dropReturn cs) = trim cs := by
  rw [dropReturn]
  split
  · rename_i hlast
    obtain ⟨front, rfl⟩ := List.getLast?_eq_some_iff.mp hlast
    rw [List.dropLast_concat, trim_concat (by decide)]
  · rfl

end Trim

/-- The first newline ends the first line. -/
theorem lines_append_newline {line : List Char} (h : '\n' ∉ line) (rest : List Char) :
    lines (line ++ '\n' :: rest) = dropReturn line :: lines rest := by
  have hcut : cutAt? (· == '\n') (line ++ '\n' :: rest) = some (line, rest) :=
    cutAt?_append (fun x hx => by simpa using fun he : x = '\n' => h (he ▸ hx)) (by simp)
  rw [lines]
  split
  · rename_i found after hfound
    obtain ⟨rfl, rfl⟩ := Prod.mk.inj (Option.some.inj (hcut.symm.trans hfound))
    rw [if_pos (by simp; omega)]
  · rename_i hnone
    rw [hcut] at hnone
    cases hnone

/-- The lines of a text that does not end with a newline itself, but is followed by one. -/
def linesOf (text : List Char) : List (List Char) := (text.splitOn '\n').map dropReturn

theorem linesOf_of_not_mem {line : List Char} (h : '\n' ∉ line) : linesOf line = [dropReturn line] := by
  rw [linesOf, List.splitOn_eq_singleton h, List.map_singleton]

/-- A text is a line, or a line with a newline and a text after it. -/
@[elab_as_elim]
theorem lineInduction {motive : List Char → Prop} (line : ∀ line, '\n' ∉ line → motive line)
    (newline : ∀ line rest, '\n' ∉ line → motive rest → motive (line ++ '\n' :: rest))
    (text : List Char) : motive text := by
  by_cases h : '\n' ∈ text
  · obtain ⟨before, rest, rfl, hbefore⟩ := List.eq_append_cons_of_mem h
    exact newline before rest hbefore (lineInduction line newline rest)
  · exact line text h
termination_by text.length
decreasing_by
  subst_vars
  simp
  omega

/-- A newline ends the lines of the text in front of it. -/
theorem lines_append (text rest : List Char) :
    lines (text ++ '\n' :: rest) = linesOf text ++ lines rest := by
  induction text using lineInduction with
  | line line h =>
      rw [lines_append_newline h, linesOf_of_not_mem h]
      rfl
  | newline line more h ih =>
      rw [List.append_assoc, List.cons_append, lines_append_newline h, ih, linesOf, linesOf,
        List.splitOn_append_cons_self_of_not_mem h, List.map_cons, List.cons_append]

theorem length_linesOf (text : List Char) : (linesOf text).length = text.count '\n' + 1 := by
  induction text using lineInduction with
  | line line h =>
      rw [linesOf_of_not_mem h, List.count_eq_zero_of_not_mem h]
      rfl
  | newline line more h ih =>
      rw [linesOf, List.length_map] at ih ⊢
      rw [List.splitOn_append_cons_self_of_not_mem h, List.length_cons, ih, List.count_append,
        List.count_eq_zero_of_not_mem h, List.count_cons_self]
      omega

end ExprVet.Text
