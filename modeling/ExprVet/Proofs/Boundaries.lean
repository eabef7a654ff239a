import ExprVet.Proofs.Confinement
import ExprVet.Proofs.Lexing
import Mathlib.Data.List.Infix

/-!
# Places between characters

Every token of a source starts and ends between two of its characters, and so does everything that
is located by tokens, such as the syntax errors of a wrapper. What such a span has in common with a
part of the source lies between characters of that part.
-/

namespace ExprVet

open Text

/-- A span of a text. It ends where it starts or later, and both ends are places between characters
of the UTF-8 form of the text. -/
structure Span.Inside (span : Span) (text : String) : Prop where
  start_le : span.start ≤ span.stop
  stop_le : span.stop ≤ text.utf8ByteSize
  start_valid : (⟨span.start⟩ : String.Pos.Raw).IsValid text
  stop_valid : (⟨span.stop⟩ : String.Pos.Raw).IsValid text

/-- A place of a text with only whole characters in front of it. -/
def IsBoundary (text : List Char) (place : Nat) : Prop :=
  ∃ front, front <+: text ∧ byteLength front = place

/-- Both ends of the span are boundaries. The end may come first. -/
structure Span.Bounded (span : Span) (text : List Char) : Prop where
  start : IsBoundary text span.start
  stop : IsBoundary text span.stop

theorem eq_nil_of_byteLength_le {cs : List Char} (h : byteLength cs ≤ 0) : cs = [] := by
  have hlength : cs.length ≤ byteLength cs := length_le_byteLength cs
  exact List.eq_nil_of_length_eq_zero (by omega)

theorem isBoundary_byteLength {front text : List Char} (h : front <+: text) :
    IsBoundary text (byteLength front) := ⟨front, h, rfl⟩

theorem isBoundary_length (text : List Char) : IsBoundary text (byteLength text) :=
  isBoundary_byteLength (List.prefix_refl text)

theorem IsBoundary.le_byteLength {text : List Char} {place : Nat} (h : IsBoundary text place) :
    place ≤ byteLength text := by
  obtain ⟨front, ⟨rest, rfl⟩, rfl⟩ := h
  rw [byteLength_append]
  exact Nat.le_add_right _ _

theorem IsBoundary.max {text : List Char} {first second : Nat} (h : IsBoundary text first)
    (h' : IsBoundary text second) : IsBoundary text (max first second) := by
  rw [Nat.max_def]
  split <;> assumption

theorem IsBoundary.min {text : List Char} {first second : Nat} (h : IsBoundary text first)
    (h' : IsBoundary text second) : IsBoundary text (min first second) := by
  rw [Nat.min_def]
  split <;> assumption

/-- A boundary is what strings call a valid position. -/
theorem IsBoundary.isValid {text : String} {place : Nat} (h : IsBoundary text.toList place) :
    (⟨place⟩ : String.Pos.Raw).IsValid text := by
  obtain ⟨front, ⟨rest, htext⟩, rfl⟩ := h
  rw [String.Pos.Raw.isValid_iff_exists_append]
  refine ⟨String.ofList front, String.ofList rest, ?_, ?_⟩
  · rw [← String.ofList_append, htext, String.ofList_toList]
  · have hsize := byteLength_toList (String.ofList front)
    rw [String.toList_ofList] at hsize
    rw [hsize]
    rfl

/-- A boundary of the whole text that is not outside of a part is one of that part. -/
theorem IsBoundary.sub {before part after : List Char} {place : Nat}
    (h : IsBoundary (before ++ (part ++ after)) place) (hstart : byteLength before ≤ place)
    (hstop : place ≤ byteLength before + byteLength part) :
    IsBoundary part (place - byteLength before) := by
  obtain ⟨front, hfront, rfl⟩ := h
  rcases List.prefix_or_prefix_of_prefix (List.prefix_append before (part ++ after)) hfront with
    ⟨inPart, rfl⟩ | ⟨rest, rfl⟩
  · rw [List.prefix_append_right_inj] at hfront
    rw [byteLength_append, Nat.add_sub_cancel_left]
    rcases List.prefix_or_prefix_of_prefix hfront (List.prefix_append part after) with
      hprefix | ⟨more, rfl⟩
    · exact isBoundary_byteLength hprefix
    · obtain rfl : more = [] := by
        simp only [byteLength_append] at hstop
        exact eq_nil_of_byteLength_le (by omega)
      rw [List.append_nil]
      exact isBoundary_length part
  · rw [byteLength_append, Nat.sub_eq_zero_of_le (Nat.le_add_right _ _)]
    exact isBoundary_byteLength List.nil_prefix

namespace Span

/-- The common part of a span and a part of the source lies inside that part. -/
theorem Bounded.inside {span place : Span} {before after : List Char} {part : String}
    (h : span.Bounded (before ++ (part.toList ++ after)))
    (hwithin : span.within ⟨byteLength before, byteLength before + byteLength part.toList⟩ =
      some place) : place.Inside part := by
  simp only [within] at hwithin
  split at hwithin
  · cases hwithin
  rename_i hinside
  rw [not_or, Nat.not_lt, Nat.not_lt] at hinside
  obtain rfl := Option.some.inj hwithin
  have hend : IsBoundary (before ++ (part.toList ++ after))
      (byteLength before + byteLength part.toList) := by
    rw [← byteLength_append, ← List.append_assoc]
    exact isBoundary_byteLength (List.prefix_append _ after)
  have hfirst := h.start.sub hinside.1 hinside.2
  have hlast := (h.start.max (h.stop.min hend)).sub (Nat.le_trans hinside.1 (Nat.le_max_left _ _))
    (Nat.max_le.mpr ⟨hinside.2, Nat.min_le_right _ _⟩)
  refine ⟨Nat.sub_le_sub_right (Nat.le_max_left _ _) _, ?_, hfirst.isValid, hlast.isValid⟩
  rw [← byteLength_toList]
  exact hlast.le_byteLength

theorem Bounded.join {first last : Span} {text : List Char} (hfirst : first.Bounded text)
    (hlast : last.Bounded text) : (first.join last).Bounded text :=
  ⟨hfirst.start, hlast.stop⟩

/-- What starts in front of a part has no place in it. -/
theorem within_eq_none {span body : Span} (h : span.start < body.start) :
    span.within body = none := by
  rw [within, if_pos (.inl h)]

/-- A span of a part, moved to where the part stands, is told as it was. -/
theorem within_shift {start stop length : Nat} (hle : start ≤ stop) (hstop : stop ≤ length)
    (offset : Nat) :
    (shift offset ⟨start, stop⟩).within ⟨offset, offset + length⟩ = some ⟨start, stop⟩ := by
  have hinside : ¬(offset + start < offset ∨ offset + length < offset + start) := by
    omega
  have hlast : max (offset + start) (min (offset + stop) (offset + length)) - offset = stop := by
    omega
  exact (if_neg hinside).trans
    (congrArg some (congrArg₂ Span.mk (Nat.add_sub_cancel_left ..) hlast))

end Span

namespace Calc

theorem bounded_of_mem_tokenize {source : String} {lexeme : Lexeme}
    (h : lexeme ∈ tokenize source) : lexeme.span.Bounded source.toList := by
  obtain ⟨_, ⟨before, after, htext, rfl⟩, hspan⟩ := selects_of_mem_lexemes h
  rw [hspan, htext]
  simp only [Span.shift, Nat.zero_add]
  refine ⟨isBoundary_byteLength (List.prefix_append _ _), ?_⟩
  rw [← byteLength_append, ← List.append_assoc]
  exact isBoundary_byteLength (List.prefix_append _ _)

theorem le_start_of_mem_lexemes {offset : Nat} {cs : List Char} {lexeme : Lexeme}
    (h : lexeme ∈ lexemes offset cs) : offset ≤ lexeme.span.start := by
  obtain ⟨span, -, hspan⟩ := selects_of_mem_lexemes h
  rw [hspan]
  exact Nat.le_add_right _ _

/-- Tokens take up some of the source, each behind the one before. -/
theorem start_lt_and_pairwise_lexemes (offset : Nat) (cs : List Char) :
    (∀ lexeme ∈ lexemes offset cs, lexeme.span.start < lexeme.span.stop) ∧
      (lexemes offset cs).Pairwise fun first second => first.span.stop ≤ second.span.start := by
  induction offset, cs using lexemes.induct with
  | case1 offset =>
      rw [lexemes_nil]
      exact ⟨List.forall_mem_nil _, .nil⟩
  | case2 offset c cs hc ih =>
      rw [lexemes_separator hc]
      exact ih
  | case3 offset c cs hc token length htoken text stop ih =>
      have hpos : 0 < byteLength (c :: cs.take length) :=
        Nat.lt_of_lt_of_le c.utf8Size_pos (Nat.le_add_right _ _)
      rw [lexemes_token (Bool.eq_false_iff.mpr hc) htoken, List.forall_mem_cons, List.pairwise_cons]
      exact ⟨⟨Nat.lt_add_of_pos_right hpos, ih.1⟩, fun _ => le_start_of_mem_lexemes, ih.2⟩

theorem start_lt_stop_of_mem_lexemes {offset : Nat} {cs : List Char} {lexeme : Lexeme}
    (h : lexeme ∈ lexemes offset cs) : lexeme.span.start < lexeme.span.stop :=
  (start_lt_and_pairwise_lexemes offset cs).1 lexeme h

theorem pairwise_lexemes (offset : Nat) (cs : List Char) :
    (lexemes offset cs).Pairwise fun first second => first.span.stop ≤ second.span.start :=
  (start_lt_and_pairwise_lexemes offset cs).2

section

variable {text : List Char} {close sourceEnd : Nat}

theorem bounded_lexicalError (hclose : IsBoundary text close) {lexeme : Lexeme}
    (h : lexeme.span.Bounded text) : (lexicalError close lexeme).span.Bounded text := by
  rw [lexicalError]
  split
  · exact ⟨h.start, hclose⟩
  · exact h

theorem bounded_parseError (hend : IsBoundary text sourceEnd) {tokens : List Lexeme}
    (htokens : ∀ lexeme ∈ tokens, lexeme.span.Bounded text) {pending : Pending}
    (hpending : pending.rest ⊆ tokens) :
    (parseError sourceEnd tokens pending).span.Bounded text := by
  rw [parseError]
  cases hrest : pending.rest with
  | cons lexeme rest =>
      apply htokens
      apply hpending
      rw [hrest]
      exact List.mem_cons_self
  | nil =>
      cases hlast : tokens.getLast? with
      | none => exact ⟨hend, hend⟩
      | some last => exact ⟨hend, (htokens last (List.mem_of_getLast? hlast)).stop⟩

/-- Each syntax error of a wrapper is located between characters of its source. -/
theorem bounded_of_mem_parseWrapper (hclose : IsBoundary text close)
    (hend : IsBoundary text sourceEnd) {tokens : List Lexeme}
    (htokens : ∀ lexeme ∈ tokens, lexeme.span.Bounded text) {error : SyntaxError}
    (h : error ∈ (parseWrapper close sourceEnd tokens).2) : error.span.Bounded text := by
  have hlexical : ∀ own ∈ (tokens.filter (·.token == .error)).map (lexicalError close),
      own.span.Bounded text := by
    intro own hown
    obtain ⟨lexeme, hlexeme, rfl⟩ := List.mem_map.mp hown
    exact bounded_lexicalError hclose (htokens lexeme (List.mem_of_mem_filter hlexeme))
  simp only [parseWrapper, List.partition_eq_filter_filter] at h
  split at h
  · exact hlexical error h
  · rename_i missed hrun
    rcases List.mem_append.mp h with h | h
    · exact hlexical error h
    · obtain ⟨pending, hpending, rfl⟩ := Option.map_eq_some_iff.mp (Option.mem_toList.mp h)
      have hamong := Parser.stays_lambda.among_of_run hrun pending hpending
      apply bounded_parseError hend _ hamong
      intro lexeme hlexeme
      exact htokens lexeme (List.mem_of_mem_filter hlexeme)

end

end Calc

end ExprVet
