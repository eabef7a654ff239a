import ExprVet.Calc.Parser
import Mathlib.Data.List.Basic

/-!
# What parsers read

Two views of a parser are kept apart. `Yields` says that some run of it succeeds; read backwards
through the combinators it tells which tokens a value was read from. `Gives` says what every run of
it comes to, whatever expectations are pending; it is followed forwards along given tokens. Where
both are known of one place they agree.
-/

namespace ExprVet.Calc

/-- Where the last of some tokens stops, or where they begin if there are none. -/
def lastStop : Nat → List Lexeme → Nat
  | stop, [] => stop
  | _, lexeme :: rest => lastStop lexeme.span.stop rest

theorem lastStop_append (stop : Nat) (xs ys : List Lexeme) :
    lastStop stop (xs ++ ys) = lastStop (lastStop stop xs) ys := by
  induction xs generalizing stop with
  | nil => rfl
  | cons x xs ih => exact ih x.span.stop

/-- Some tokens are read from one place to another. -/
structure Cursor.Reads (cursor : Cursor) (read : List Lexeme) (after : Cursor) : Prop where
  rest : cursor.rest = read ++ after.rest
  stop : after.stop = lastStop cursor.stop read

namespace Cursor

theorem Reads.nil (cursor : Cursor) : cursor.Reads [] cursor := ⟨rfl, rfl⟩

theorem Reads.append {cursor middle after : Cursor} {xs ys : List Lexeme}
    (h : cursor.Reads xs middle) (h' : middle.Reads ys after) : cursor.Reads (xs ++ ys) after := by
  constructor
  · rw [h.rest, h'.rest, List.append_assoc]
  · rw [h'.stop, h.stop, lastStop_append]

end Cursor

/-- The token that some lexemes begin with, if there is one. -/
def firstToken? (lexemes : List Lexeme) : Option Token := lexemes.head?.map (·.token)

theorem firstToken?_of_map {read rest : List Lexeme} {first : Token} {tokens : List Token}
    (h : read.map (·.token) = first :: tokens) : firstToken? (read ++ rest) = some first := by
  obtain ⟨lexeme, read, rfl, htoken, -⟩ := List.map_eq_cons_iff.mp h
  rw [← htoken]
  rfl

/-- The stretch of source that some tokens take. -/
def stretch : List Lexeme → Span
  | [] => ⟨0, 0⟩
  | lexeme :: rest => ⟨lexeme.span.start, lastStop lexeme.span.stop rest⟩

theorem Cursor.Reads.stretch {cursor after : Cursor} {read : List Lexeme}
    (h : cursor.Reads read after) (hne : read ≠ []) :
    ⟨cursor.start, after.stop⟩ = stretch read := by
  obtain ⟨first, rest, rfl⟩ := List.exists_cons_of_ne_nil hne
  have hstart : cursor.start = first.span.start := by
    rw [Cursor.start, h.rest]
    rfl
  have hstop : after.stop = lastStop first.span.stop rest := h.stop
  rw [hstart, hstop]
  rfl

namespace Parser

variable {α β : Type} {p : Parser α} {cursor after : Cursor}

/-- Some run of the parser succeeds with a value. -/
def Yields (p : Parser α) (cursor : Cursor) (value : α) (after : Cursor) : Prop :=
  ∃ pending, (p cursor pending).1 = some (value, after)

/-- Every run of the parser comes to the same. -/
def Gives (p : Parser α) (cursor : Cursor) (result : Option (α × Cursor)) : Prop :=
  ∀ pending, (p cursor pending).1 = result

theorem Gives.eq_of_yields {result : Option (α × Cursor)} {value : α} (h : p.Gives cursor result)
    (h' : p.Yields cursor value after) : result = some (value, after) := by
  obtain ⟨pending, hrun⟩ := h'
  rw [← h pending, hrun]

theorem yields_pure {value value' : α}
    (h : (pure value : Parser α).Yields cursor value' after) : value' = value ∧ after = cursor := by
  obtain ⟨pending, hrun⟩ := h
  cases hrun
  exact ⟨rfl, rfl⟩

theorem yields_bind {next : α → Parser β} {value : β}
    (h : (p >>= next).Yields cursor value after) :
    ∃ first middle, p.Yields cursor first middle ∧ (next first).Yields middle value after := by
  obtain ⟨pending, hrun⟩ := h
  change (Parser.bind p next cursor pending).1 = _ at hrun
  simp only [Parser.bind] at hrun
  split at hrun
  · cases hrun
  · rename_i first middle pending' hfirst
    exact ⟨first, middle, ⟨pending, by rw [hfirst]⟩, ⟨pending', hrun⟩⟩

theorem yields_next {accept : Token → Option α} {expected : Expected} {value : α} {span : Span}
    (h : (next accept expected).Yields cursor (value, span) after) :
    ∃ lexeme, accept lexeme.token = some value ∧ span = lexeme.span ∧
      cursor.Reads [lexeme] after := by
  obtain ⟨pending, hrun⟩ := h
  simp only [next] at hrun
  split at hrun
  · cases hrun
  · rename_i lexeme rest hrest
    split at hrun
    · rename_i found hfound
      cases hrun
      exact ⟨lexeme, hfound, rfl, hrest, rfl⟩
    · cases hrun

theorem yields_token {expected : Token} {span : Span}
    (h : (token expected).Yields cursor span after) :
    ∃ lexeme, lexeme.token = expected ∧ span = lexeme.span ∧ cursor.Reads [lexeme] after := by
  obtain ⟨⟨found, place⟩, middle, hnext, hpure⟩ := yields_bind h
  obtain ⟨rfl, rfl⟩ := yields_pure hpure
  obtain ⟨lexeme, haccept, hspan, hreads⟩ := yields_next hnext
  obtain ⟨htoken, -⟩ := Option.ite_none_right_eq_some.mp haccept
  exact ⟨lexeme, htoken, hspan, hreads⟩

theorem eq_of_yields_token {expected : Token} {span : Span}
    (h : (token expected).Yields cursor span after) :
    ∃ stop lexeme rest, lexeme.token = expected ∧ span = lexeme.span ∧
      cursor = ⟨stop, lexeme :: rest⟩ ∧ after = ⟨lexeme.span.stop, rest⟩ := by
  obtain ⟨lexeme, htoken, hspan, hrest, hstop⟩ := yields_token h
  obtain ⟨stop, rest⟩ := cursor
  obtain ⟨stop', rest'⟩ := after
  exact ⟨stop, lexeme, rest', htoken, hspan, congrArg (Cursor.mk stop) hrest,
    congrArg (Cursor.mk · rest') hstop⟩

theorem yields_endOfInput {value : Unit} (h : endOfInput.Yields cursor value after) :
    cursor.rest = [] := by
  obtain ⟨pending, hrun⟩ := h
  simp only [endOfInput] at hrun
  split at hrun
  · exact List.isEmpty_iff.mp ‹_›
  · cases hrun

theorem yields_orElse {q : Parser α} {value : α} (h : (orElse p q).Yields cursor value after) :
    p.Yields cursor value after ∨ q.Yields cursor value after := by
  obtain ⟨pending, hrun⟩ := h
  simp only [orElse] at hrun
  split at hrun
  · exact .inr ⟨_, hrun⟩
  · exact .inl ⟨pending, hrun⟩

theorem yields_optional {value : Option α} (h : (optional p).Yields cursor value after) :
    (value = none ∧ after = cursor) ∨ ∃ found, value = some found ∧ p.Yields cursor found after := by
  obtain ⟨pending, hrun⟩ := h
  simp only [optional] at hrun
  split at hrun
  · cases hrun
    exact .inl ⟨rfl, rfl⟩
  · rename_i found middle pending' hfound
    cases hrun
    exact .inr ⟨found, rfl, pending, by rw [hfound]⟩

theorem yields_labelled {construct : Construct} {value : α}
    (h : (labelled construct p).Yields cursor value after) : p.Yields cursor value after := by
  obtain ⟨pending, hrun⟩ := h
  exact ⟨none, hrun⟩

theorem yields_spanned {value : α} {span : Span}
    (h : (spanned p).Yields cursor (value, span) after) :
    span = ⟨cursor.start, after.stop⟩ ∧ p.Yields cursor value after := by
  obtain ⟨pending, hrun⟩ := h
  simp only [spanned] at hrun
  split at hrun
  · cases hrun
  · rename_i found middle pending' hfound
    cases hrun
    exact ⟨rfl, pending, by rw [hfound]⟩

/-- Every value is read from tokens that it is related to. -/
def Sound (p : Parser α) (R : List Lexeme → α → Prop) : Prop :=
  ∀ ⦃cursor value after⦄, p.Yields cursor value after →
    ∃ read, cursor.Reads read after ∧ R read value

/-- What two relations say of a value they say of the same tokens. -/
theorem Sound.and {R R' : List Lexeme → α → Prop} (h : p.Sound R) (h' : p.Sound R') :
    p.Sound fun read value => R read value ∧ R' read value := by
  intro cursor value after hyields
  obtain ⟨read, hreads, hR⟩ := h hyields
  obtain ⟨read', hreads', hR'⟩ := h' hyields
  obtain rfl : read = read' := List.append_cancel_right (hreads.rest.symm.trans hreads'.rest)
  exact ⟨read, hreads, hR, hR'⟩

theorem Sound.imp {R R' : List Lexeme → α → Prop} (h : p.Sound R)
    (himp : ∀ read value, R read value → R' read value) : p.Sound R' := by
  intro cursor value after hyields
  obtain ⟨read, hreads, hR⟩ := h hyields
  exact ⟨read, hreads, himp read value hR⟩

/-- A value with a token in front of it and one behind it. -/
theorem Sound.bracketed {R : List Lexeme → α → Prop} (h : p.Sound R) (opening closing : Token) :
    (do
      let _ ← token opening
      let value ← p
      let _ ← token closing
      return value : Parser α).Sound fun read value =>
        ∃ opened inner closed, read = opened :: (inner ++ [closed]) ∧ opened.token = opening ∧
          R inner value ∧ closed.token = closing := by
  intro cursor value after hyields
  obtain ⟨_, first, hopen, hrest⟩ := yields_bind hyields
  obtain ⟨found, second, hfound, hrest⟩ := yields_bind hrest
  obtain ⟨_, third, hclose, hpure⟩ := yields_bind hrest
  obtain ⟨rfl, rfl⟩ := yields_pure hpure
  obtain ⟨opened, hopened, -, hreadOpened⟩ := yields_token hopen
  obtain ⟨inner, hread, hR⟩ := h hfound
  obtain ⟨closed, hclosed, -, hreadClosed⟩ := yields_token hclose
  exact ⟨opened :: (inner ++ [closed]), hreadOpened.append (hread.append hreadClosed), opened,
    inner, closed, rfl, hopened, hR, hclosed⟩

theorem Sound.labelled {R : List Lexeme → α → Prop} (h : p.Sound R) (construct : Construct) :
    (labelled construct p).Sound R := by
  intro cursor value after hyields
  exact h (yields_labelled hyields)

theorem Sound.orElse {q : Parser α} {R : List Lexeme → α → Prop} (hp : p.Sound R)
    (hq : q.Sound R) : (orElse p q).Sound R := by
  intro cursor value after hyields
  rcases yields_orElse hyields with h | h
  · exact hp h
  · exact hq h

/-- Values one after the other, each with the tokens that it is read from. -/
inductive Many (R : List Lexeme → α → Prop) : List Lexeme → List α → Prop
  | nil : Many R [] []
  | cons {read reads : List Lexeme} {value : α} {values : List α} (h : R read value)
      (rest : Many R reads values) : Many R (read ++ reads) (value :: values)

theorem Sound.manyUpTo {R : List Lexeme → α → Prop} (h : p.Sound R) (n : Nat) :
    (manyUpTo p n).Sound (Many R) := by
  induction n with
  | zero =>
      intro cursor values after hyields
      obtain ⟨rfl, rfl⟩ := yields_pure hyields
      exact ⟨[], .nil _, .nil⟩
  | succ n ih =>
      intro cursor values after hyields
      obtain ⟨found, middle, hfound, hrest⟩ := yields_bind hyields
      rcases yields_optional hfound with ⟨rfl, rfl⟩ | ⟨value, rfl, hvalue⟩
      · obtain ⟨rfl, rfl⟩ := yields_pure hrest
        exact ⟨[], .nil _, .nil⟩
      · obtain ⟨more, last, hmore, hlast⟩ := yields_bind hrest
        obtain ⟨rfl, rfl⟩ := yields_pure hlast
        obtain ⟨read, hread, hR⟩ := h hvalue
        obtain ⟨reads, hreads, hmany⟩ := ih hmore
        exact ⟨read ++ reads, hread.append hreads, .cons hR hmany⟩

theorem Sound.many {R : List Lexeme → α → Prop} (h : p.Sound R) : (many p).Sound (Many R) := by
  intro cursor values after hyields
  exact h.manyUpTo _ hyields

/-- One or more values with a separator between each two. -/
inductive Separated (R : List Lexeme → α → Prop) (separator : Token) :
    List Lexeme → List α → Prop
  | last {read : List Lexeme} {value : α} (h : R read value) : Separated R separator read [value]
  | more {read reads : List Lexeme} {value : α} {values : List α} {between : Lexeme}
      (h : R read value) (hbetween : between.token = separator)
      (rest : Separated R separator reads values) :
      Separated R separator (read ++ between :: reads) (value :: values)

theorem separated_of_many {R : List Lexeme → α → Prop} {separator : Token}
    {read reads : List Lexeme} {value : α} {values : List α} (h : R read value)
    (hmany : Many (fun xs v => ∃ between ys, xs = between :: ys ∧ between.token = separator ∧ R ys v)
      reads values) : Separated R separator (read ++ reads) (value :: values) := by
  induction hmany generalizing read value with
  | nil =>
      rw [List.append_nil]
      exact .last h
  | cons hnext _ ih =>
      obtain ⟨between, ys, rfl, hbetween, hR⟩ := hnext
      rw [List.cons_append]
      exact .more h hbetween (ih hR)

/-- What separators and the tokens of every value have in common, all tokens have. -/
theorem Separated.forall_mem {R : List Lexeme → α → Prop} {separator : Token} {P : Lexeme → Prop}
    (hvalue : ∀ read value, R read value → ∀ lexeme ∈ read, P lexeme)
    (hseparator : ∀ lexeme : Lexeme, lexeme.token = separator → P lexeme) {read : List Lexeme}
    {values : List α} (h : Separated R separator read values) : ∀ lexeme ∈ read, P lexeme := by
  induction h with
  | last h => exact hvalue _ _ h
  | more h hbetween _ ih =>
      intro lexeme hmem
      rcases List.mem_append.mp hmem with hmem | hmem
      · exact hvalue _ _ h lexeme hmem
      · rcases List.mem_cons.mp hmem with rfl | hmem
        · exact hseparator _ hbetween
        · exact ih lexeme hmem

/-- Each value is read from some of the tokens. -/
theorem Separated.exists_of_mem {R : List Lexeme → α → Prop} {separator : Token}
    {read : List Lexeme} {values : List α} (h : Separated R separator read values) {value : α}
    (hmem : value ∈ values) : ∃ own, own ⊆ read ∧ R own value := by
  induction h with
  | last h =>
      obtain rfl := List.mem_singleton.mp hmem
      exact ⟨_, List.Subset.refl _, h⟩
  | more h _ _ ih =>
      rcases List.mem_cons.mp hmem with rfl | hmem
      · exact ⟨_, List.subset_append_left _ _, h⟩
      · obtain ⟨own, hown, hR⟩ := ih hmem
        refine ⟨own, fun lexeme hlexeme => ?_, hR⟩
        exact List.mem_append_right _ (List.mem_cons_of_mem _ (hown hlexeme))

/-- Any number of values with separators between them and possibly one after the last. -/
inductive Listed (R : List Lexeme → α → Prop) (separator : Token) : List Lexeme → List α → Prop
  | none : Listed R separator [] []
  | some {read : List Lexeme} {values : List α} (h : Separated R separator read values) :
      Listed R separator read values
  | trailing {read : List Lexeme} {values : List α} {last : Lexeme}
      (h : Separated R separator read values) (hlast : last.token = separator) :
      Listed R separator (read ++ [last]) values

theorem Sound.after_token {R : List Lexeme → α → Prop} (h : p.Sound R) (separator : Token) :
    (do let _ ← token separator; p : Parser α).Sound
      fun xs v => ∃ between ys, xs = between :: ys ∧ between.token = separator ∧ R ys v := by
  intro cursor value after hyields
  obtain ⟨_, middle, hseparator, hvalue⟩ := yields_bind hyields
  obtain ⟨between, hbetween, -, hread⟩ := yields_token hseparator
  obtain ⟨read, hreads, hR⟩ := h hvalue
  exact ⟨between :: read, hread.append hreads, between, read, rfl, hbetween, hR⟩

theorem Sound.separated {R : List Lexeme → α → Prop} (h : p.Sound R) (separator : Token) :
    (separated p (token separator)).Sound (Separated R separator) := by
  intro cursor values after hyields
  obtain ⟨value, middle, hvalue, hrest⟩ := yields_bind hyields
  obtain ⟨more, last, hmore, hpure⟩ := yields_bind hrest
  obtain ⟨rfl, rfl⟩ := yields_pure hpure
  obtain ⟨read, hread, hR⟩ := h hvalue
  obtain ⟨reads, hreads, hmany⟩ := (h.after_token separator).many hmore
  exact ⟨read ++ reads, hread.append hreads, separated_of_many hR hmany⟩

theorem Sound.separatedOrNone {R : List Lexeme → α → Prop} (h : p.Sound R) (separator : Token) :
    (separatedOrNone p (token separator)).Sound (Listed R separator) := by
  intro cursor values after hyields
  obtain ⟨found, middle, hfound, hrest⟩ := yields_bind hyields
  rcases yields_optional hfound with ⟨rfl, rfl⟩ | ⟨value, rfl, hvalue⟩
  · obtain ⟨rfl, rfl⟩ := yields_pure hrest
    exact ⟨[], .nil _, .none⟩
  · obtain ⟨more, last, hmore, hend⟩ := yields_bind hrest
    obtain ⟨trailing, stop, htrailing, hpure⟩ := yields_bind hend
    obtain ⟨rfl, rfl⟩ := yields_pure hpure
    obtain ⟨read, hread, hR⟩ := h hvalue
    obtain ⟨reads, hreads, hmany⟩ := (h.after_token separator).many hmore
    have hseparated := separated_of_many hR hmany
    rcases yields_optional htrailing with ⟨-, rfl⟩ | ⟨_, -, htoken⟩
    · exact ⟨read ++ reads, hread.append hreads, .some hseparated⟩
    · obtain ⟨lexeme, hlexeme, -, hlast⟩ := yields_token htoken
      exact ⟨read ++ reads ++ [lexeme], (hread.append hreads).append hlast,
        .trailing hseparated hlexeme⟩

theorem gives_pure (value : α) (cursor : Cursor) :
    (pure value : Parser α).Gives cursor (some (value, cursor)) := by
  intro pending
  rfl

theorem Gives.bind {next : α → Parser β} {value : α} {middle : Cursor}
    {result : Option (β × Cursor)} (h : p.Gives cursor (some (value, middle)))
    (h' : (next value).Gives middle result) : (p >>= next).Gives cursor result := by
  intro pending
  change (Parser.bind p next cursor pending).1 = result
  have hfirst := h pending
  simp only [Parser.bind]
  split
  · rename_i hnone
    rw [hnone] at hfirst
    cases hfirst
  · rename_i hsome
    rw [hsome] at hfirst
    cases hfirst
    exact h' _

theorem Gives.bind_none {next : α → Parser β} (h : p.Gives cursor none) :
    (p >>= next).Gives cursor none := by
  intro pending
  change (Parser.bind p next cursor pending).1 = none
  have hfirst := h pending
  simp only [Parser.bind]
  split
  · rfl
  · rename_i hsome
    rw [hsome] at hfirst
    cases hfirst

theorem gives_next {accept : Token → Option α} {lexeme : Lexeme} {value : α}
    (h : accept lexeme.token = some value) (expected : Expected) (stop : Nat)
    (rest : List Lexeme) : (next accept expected).Gives ⟨stop, lexeme :: rest⟩
      (some ((value, lexeme.span), ⟨lexeme.span.stop, rest⟩)) := by
  intro pending
  simp only [next, h]

theorem gives_next_none {accept : Token → Option α}
    (h : ∀ token ∈ firstToken? cursor.rest, accept token = none) (expected : Expected) :
    (next accept expected).Gives cursor none := by
  intro pending
  simp only [next]
  split
  · rfl
  · rename_i lexeme rest hrest
    have hmissed : accept lexeme.token = none := by
      apply h
      rw [hrest]
      rfl
    rw [hmissed]

theorem gives_token {expected : Token} {lexeme : Lexeme} (h : lexeme.token = expected) (stop : Nat)
    (rest : List Lexeme) : (token expected).Gives ⟨stop, lexeme :: rest⟩
      (some (lexeme.span, ⟨lexeme.span.stop, rest⟩)) :=
  (gives_next (if_pos h) (.token expected) stop rest).bind (gives_pure _ _)

theorem gives_token_none {expected : Token} (h : firstToken? cursor.rest ≠ some expected) :
    (token expected).Gives cursor none := by
  apply Gives.bind_none
  apply gives_next_none
  intro found hfound
  rw [if_neg]
  rintro rfl
  exact h hfound

theorem Gives.bracketed {opening closing : Token} {opened closed : Lexeme} {value : α}
    {inside rest : List Lexeme} {stop' : Nat}
    (h : p.Gives ⟨opened.span.stop, inside⟩ (some (value, ⟨stop', closed :: rest⟩)))
    (hopened : opened.token = opening) (hclosed : closed.token = closing) (stop : Nat) :
    (do
      let _ ← token opening
      let value ← p
      let _ ← token closing
      return value : Parser α).Gives ⟨stop, opened :: inside⟩
        (some (value, ⟨closed.span.stop, rest⟩)) := by
  apply Gives.bind (gives_token hopened stop inside)
  apply h.bind
  exact (gives_token hclosed stop' rest).bind (gives_pure value _)

theorem Gives.optional {value : α} (h : p.Gives cursor (some (value, after))) :
    (optional p).Gives cursor (some (some value, after)) := by
  intro pending
  have hrun := h pending
  simp only [Parser.optional]
  split
  · rename_i hnone
    rw [hnone] at hrun
    cases hrun
  · rename_i hsome
    rw [hsome] at hrun
    cases hrun
    rfl

theorem Gives.optional_none (h : p.Gives cursor none) :
    (Parser.optional p).Gives cursor (some (none, cursor)) := by
  intro pending
  have hrun := h pending
  simp only [Parser.optional]
  split
  · rfl
  · rename_i hsome
    rw [hsome] at hrun
    cases hrun

theorem Gives.orElse_left {q : Parser α} {value : α} (h : p.Gives cursor (some (value, after))) :
    (orElse p q).Gives cursor (some (value, after)) := by
  intro pending
  have hrun := h pending
  simp only [orElse]
  split
  · rename_i hnone
    rw [hnone] at hrun
    cases hrun
  · exact hrun

theorem Gives.orElse_right {q : Parser α} {result : Option (α × Cursor)} (h : p.Gives cursor none)
    (h' : q.Gives cursor result) : (orElse p q).Gives cursor result := by
  intro pending
  have hrun := h pending
  simp only [orElse]
  split
  · exact h' _
  · rename_i hsome
    exact (hsome _ (Prod.ext hrun rfl)).elim

theorem Gives.labelled {result : Option (α × Cursor)} (h : p.Gives cursor result)
    (construct : Construct) : (Parser.labelled construct p).Gives cursor result := by
  intro pending
  exact h none

theorem Gives.spanned {value : α} (h : p.Gives cursor (some (value, after))) :
    (Parser.spanned p).Gives cursor (some ((value, ⟨cursor.start, after.stop⟩), after)) := by
  intro pending
  have hrun := h pending
  simp only [Parser.spanned]
  split
  · rename_i hnone
    rw [hnone] at hrun
    cases hrun
  · rename_i hsome
    rw [hsome] at hrun
    cases hrun
    rfl

theorem Gives.spanned_none (h : p.Gives cursor none) :
    (Parser.spanned p).Gives cursor none := by
  intro pending
  have hrun := h pending
  simp only [Parser.spanned]
  split
  · rfl
  · rename_i hsome
    rw [hsome] at hrun
    cases hrun

/-- Values that a parser gives one after the other, each taking at least one token. -/
inductive GivesAll (p : Parser α) : Cursor → List α → Cursor → Prop
  | nil (cursor : Cursor) : GivesAll p cursor [] cursor
  | cons {cursor middle after : Cursor} {value : α} {values : List α}
      (h : p.Gives cursor (some (value, middle))) (hlt : middle.rest.length < cursor.rest.length)
      (rest : GivesAll p middle values after) : GivesAll p cursor (value :: values) after

theorem GivesAll.append {middle : Cursor} {values more : List α}
    (h : GivesAll p cursor values middle) (h' : GivesAll p middle more after) :
    GivesAll p cursor (values ++ more) after := by
  induction h with
  | nil => exact h'
  | cons h hlt _ ih => exact .cons h hlt (ih h')

theorem GivesAll.length_le {values : List α} (h : GivesAll p cursor values after) :
    values.length ≤ cursor.rest.length := by
  induction h with
  | nil => exact Nat.zero_le _
  | cons _ hlt _ ih =>
      rw [List.length_cons]
      omega

theorem GivesAll.manyUpTo {values : List α} (h : GivesAll p cursor values after)
    (hend : p.Gives after none) {n : Nat} (hn : values.length < n) :
    (manyUpTo p n).Gives cursor (some (values, after)) := by
  induction h generalizing n with
  | nil cursor =>
      cases n with
      | zero => cases hn
      | succ n => exact hend.optional_none.bind (gives_pure _ _)
  | cons h _ _ ih =>
      cases n with
      | zero => cases hn
      | succ n =>
          have hrest := ih hend (Nat.lt_of_succ_lt_succ hn)
          exact h.optional.bind (hrest.bind (gives_pure _ _))

theorem GivesAll.many {values : List α} (h : GivesAll p cursor values after)
    (hend : p.Gives after none) : (many p).Gives cursor (some (values, after)) := by
  have hlength := h.length_le
  intro pending
  exact h.manyUpTo hend (Nat.lt_succ_of_le hlength) pending

end Parser

end ExprVet.Calc
