import ExprVet.Proofs.Printing

/-!
# String literals

A string literal is closed by the first quote that no backslash takes with it. The lexer looks for
that quote, but it gives up behind a backslash at the end of a line. A closed literal is a token
exactly if all its escapes are known.
-/

namespace ExprVet.Calc

/-- What a string literal contains whose opening quote stands just before the text: all up to the
first quote that no backslash takes with it. A backslash takes any character. -/
def contents? : List Char → Option (List Char)
  | [] => none
  | '"' :: _ => some []
  | '\\' :: c :: cs => (contents? cs).map ('\\' :: c :: ·)
  | c :: cs => (contents? cs).map (c :: ·)

/-- The characters that backslashes take with them. -/
def escapes : List Char → List Char
  | '\\' :: c :: cs => c :: escapes cs
  | _ :: cs => escapes cs
  | [] => []

/-- The characters that may stand behind a backslash. -/
def knownEscapes : List Char := ['n', 't', '\\', '"']

theorem contents?_cons {c : Char} (hquote : c ≠ '"') (hbackslash : c ≠ '\\') (cs : List Char) :
    contents? (c :: cs) = (contents? cs).map (c :: ·) := by
  rw [contents?.eq_def]
  split <;> simp_all

theorem escapes_cons {c : Char} (hbackslash : c ≠ '\\') (cs : List Char) :
    escapes (c :: cs) = escapes cs := by
  rw [escapes.eq_def]
  split <;> simp_all

/-- A closed literal is its closing quote, or an escape or another character in front of one. -/
@[elab_as_elim]
theorem contents?_induction
    {motive : (cs contents : List Char) → contents? cs = some contents → Prop}
    (quote : ∀ cs, motive ('"' :: cs) [] rfl)
    (escape : ∀ c cs contents (h : contents? cs = some contents), motive cs contents h →
      motive ('\\' :: c :: cs) ('\\' :: c :: contents) (by rw [contents?, h, Option.map_some]))
    (plain : ∀ c cs contents (hquote : c ≠ '"') (hbackslash : c ≠ '\\')
      (h : contents? cs = some contents), motive cs contents h →
      motive (c :: cs) (c :: contents)
        (by rw [contents?_cons hquote hbackslash, h, Option.map_some]))
    {cs contents : List Char} (h : contents? cs = some contents) : motive cs contents h := by
  induction cs using stringInduction generalizing contents with
  | nil | backslash => cases h
  | quote cs =>
      cases h
      exact quote cs
  | escape c cs ih =>
      obtain ⟨contents, hcontents, rfl⟩ := Option.map_eq_some_iff.mp h
      exact escape c cs contents hcontents (ih hcontents)
  | plain c cs hquote hbackslash ih =>
      rw [contents?_cons hquote hbackslash] at h
      obtain ⟨contents, hcontents, rfl⟩ := Option.map_eq_some_iff.mp h
      exact plain c cs contents hquote hbackslash hcontents (ih hcontents)

/-- The contents stand in front of their closing quote, whatever follows it. -/
theorem exists_after_of_contents? {cs contents : List Char} (h : contents? cs = some contents) :
    (∃ after, cs = contents ++ '"' :: after) ∧
      ∀ rest, contents? (contents ++ '"' :: rest) = some contents := by
  induction h using contents?_induction with
  | quote cs => exact ⟨⟨cs, rfl⟩, fun rest => rfl⟩
  | escape c cs contents _ ih =>
      obtain ⟨⟨after, rfl⟩, hrest⟩ := ih
      refine ⟨⟨after, rfl⟩, fun rest => ?_⟩
      rw [List.cons_append, List.cons_append, contents?, hrest, Option.map_some]
  | plain c cs contents hquote hbackslash _ ih =>
      obtain ⟨⟨after, rfl⟩, hrest⟩ := ih
      refine ⟨⟨after, rfl⟩, fun rest => ?_⟩
      rw [List.cons_append, contents?_cons hquote hbackslash, hrest, Option.map_some]

theorem take_of_contents? {cs contents : List Char} (h : contents? cs = some contents) :
    cs.take contents.length = contents ∧ cs.take (contents.length + 1) = contents ++ ['"'] := by
  obtain ⟨⟨after, rfl⟩, -⟩ := exists_after_of_contents? h
  refine ⟨List.take_left, ?_⟩
  rw [← List.singleton_append, ← List.append_assoc]
  exact List.take_left' (List.length_append ..)

/-- The three ways in which the search for the closing quote ends: it is found, the text ends, or a
backslash has a newline behind it. -/
theorem stringEnd_contents (cs : List Char) :
    (∃ contents, contents? cs = some contents ∧ '\n' ∉ escapes contents ∧
      stringEnd cs = .closed contents.length) ∨
    (contents? cs = none ∧ '\n' ∉ escapes cs ∧ stringEnd cs = .unclosed cs.length) ∨
    ('\n' ∈ escapes ((contents? cs).getD cs) ∧
      ∃ length, stringEnd cs = .unclosed length ∧ (cs.take length).getLast? = some '\\') := by
  induction cs using stringInduction with
  | nil | backslash => exact .inr (.inl ⟨rfl, List.not_mem_nil, rfl⟩)
  | quote cs => exact .inl ⟨[], rfl, List.not_mem_nil, rfl⟩
  | escape c cs ih =>
      rw [contents?]
      by_cases hc : c = '\n'
      · subst hc
        refine .inr (.inr ⟨?_, 1, rfl, rfl⟩)
        cases contents? cs <;> exact List.mem_cons_self
      · have hnewline : '\n' ≠ c := fun h => hc h.symm
        rw [stringEnd_escape_of_ne hc]
        rcases ih with ⟨contents, hcontents, hescapes, hend⟩ | ⟨hnone, hescapes, hend⟩ |
          ⟨hescapes, length, hend, hlast⟩
        · refine .inl ⟨'\\' :: c :: contents, by rw [hcontents]; rfl, ?_, by rw [hend]; rfl⟩
          simp [escapes, hnewline, hescapes]
        · refine .inr (.inl ⟨by rw [hnone]; rfl, ?_, by rw [hend]; rfl⟩)
          simp [escapes, hnewline, hescapes]
        · refine .inr (.inr ⟨?_, length + 2, by rw [hend]; rfl, ?_⟩)
          · cases hcontents : contents? cs <;> rw [hcontents] at hescapes <;>
              exact List.mem_cons_of_mem c hescapes
          · simp [List.getLast?_cons, hlast]
  | plain c cs hquote hbackslash ih =>
      rw [contents?_cons hquote hbackslash, stringEnd_cons hquote hbackslash]
      rcases ih with ⟨contents, hcontents, hescapes, hend⟩ | ⟨hnone, hescapes, hend⟩ |
        ⟨hescapes, length, hend, hlast⟩
      · refine .inl ⟨c :: contents, by rw [hcontents]; rfl, ?_, by rw [hend]; rfl⟩
        rwa [escapes_cons hbackslash]
      · refine .inr (.inl ⟨by rw [hnone]; rfl, ?_, by rw [hend]; rfl⟩)
        rwa [escapes_cons hbackslash]
      · refine .inr (.inr ⟨?_, length + 1, by rw [hend]; rfl, ?_⟩)
        · cases hcontents : contents? cs <;> rw [hcontents] at hescapes <;>
            simpa [escapes_cons hbackslash] using hescapes
        · simp [List.getLast?_cons, hlast]

theorem unescape_escape_isSome_iff (c : Char) (cs : List Char) :
    (unescape ('\\' :: c :: cs)).isSome ↔ c ∈ knownEscapes ∧ (unescape cs).isSome := by
  by_cases hc : c ∈ knownEscapes
  · have hknown := hc
    simp only [knownEscapes, List.mem_cons, List.not_mem_nil, or_false] at hknown
    rcases hknown with rfl | rfl | rfl | rfl <;> simp [unescape, hc]
  · have hnone : unescape ('\\' :: c :: cs) = none := by
      simp only [knownEscapes, List.mem_cons, List.not_mem_nil, or_false, not_or] at hc
      obtain ⟨hn, ht, hbackslash, hquote⟩ := hc
      unfold unescape
      simp [hn, ht, hbackslash, hquote]
    simp [hnone, hc]

/-- The escapes of a closed literal are resolved exactly if all of them are known. -/
theorem unescape_isSome_iff {cs contents : List Char} (h : contents? cs = some contents) :
    (unescape contents).isSome ↔ ∀ c ∈ escapes contents, c ∈ knownEscapes := by
  induction h using contents?_induction with
  | quote cs => exact iff_of_true rfl (List.forall_mem_nil _)
  | escape c cs contents _ ih =>
      rw [unescape_escape_isSome_iff, escapes, List.forall_mem_cons, ih]
  | plain c cs contents _ hbackslash _ ih =>
      rw [unescape_cons hbackslash, Option.isSome_map, escapes_cons hbackslash, ih]

end ExprVet.Calc
