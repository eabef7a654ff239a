/-! # Blank characters, trimming and lines

Blank means the `White_Space` property: the ASCII blanks, the next-line and no-break characters and
the spaces of the general punctuation block. A line ends at a newline, and a carriage return just
before that newline belongs to the line end. -/

namespace ExprVet.Text

def isBlank (c : Char) : Bool :=
  let code := c.toNat
  (0x09 ≤ code && code ≤ 0x0d) || code == 0x20 || code == 0x85 || code == 0xa0 || code == 0x1680 ||
    (0x2000 ≤ code && code ≤ 0x200a) || code == 0x2028 || code == 0x2029 || code == 0x202f ||
    code == 0x205f || code == 0x3000

theorem isBlank_of_isWhitespace {c : Char} (h : c.isWhitespace = true) : isBlank c = true := by
  simp only [Char.isWhitespace, Bool.or_eq_true, decide_eq_true_eq] at h
  rcases h with ((rfl | rfl) | rfl) | rfl <;> decide

def trimStart (cs : List Char) : List Char := cs.dropWhile isBlank

def trimEnd (cs : List Char) : List Char := (cs.reverse.dropWhile isBlank).reverse

/-- Blank characters are taken from both ends. -/
def trim (cs : List Char) : List Char := trimEnd (trimStart cs)

/-- A text up to the first character of a kind, and the text after that character. -/
def cutAt? (p : Char → Bool) : List Char → Option (List Char × List Char)
  | [] => none
  | c :: cs =>
      if p c then some ([], cs)
      else (cutAt? p cs).map fun (before, after) => (c :: before, after)

theorem cutAt?_eq_some {p : Char → Bool} {cs before after : List Char}
    (h : cutAt? p cs = some (before, after)) :
    (∀ c ∈ before, p c = false) ∧ ∃ c, p c = true ∧ cs = before ++ c :: after := by
  induction cs generalizing before with
  | nil => simp [cutAt?] at h
  | cons c cs ih =>
      by_cases hc : p c
      · simp only [cutAt?, hc, if_true, Option.some.injEq, Prod.mk.injEq] at h
        obtain ⟨rfl, rfl⟩ := h
        exact ⟨by simp, c, hc, rfl⟩
      · simp only [cutAt?, hc, Bool.false_eq_true, if_false, Option.map_eq_some_iff] at h
        obtain ⟨⟨b, a⟩, hcut, heq⟩ := h
        obtain ⟨rfl, rfl⟩ := Prod.mk.inj heq
        obtain ⟨hb, d, hd, rfl⟩ := ih hcut
        exact ⟨by simpa [hc] using hb, d, hd, rfl⟩

/-- A text without the carriage return that may end it. -/
def dropReturn (cs : List Char) : List Char :=
  if cs.getLast? = some '\r' then cs.dropLast else cs

/-- The lines of a text. A newline at the very end opens no further line. -/
def lines (cs : List Char) : List (List Char) :=
  match cutAt? (· == '\n') cs with
  | some (line, rest) => dropReturn line :: (if rest.length < cs.length then lines rest else [])
  | none => if cs.isEmpty then [] else [cs]
termination_by cs.length

end ExprVet.Text
