import ExprVet.Proofs.Header
import ExprVet.Proofs.LambdaSyntax

/-!
# What is read once is read again

The parameters of a lambda are read from their own tokens, and what stands behind these only has to
end them. So the same tokens are read as parameters with the same names and types wherever they
stand and whatever follows. This does not need the names of types to be paths.
-/

namespace ExprVet.Calc

/-- Values with separators between them are a row of what each of them is. -/
theorem Parser.Separated.row {α : Type} {R : List Lexeme → α → Prop} {separator : Token}
    {item : α → List Token → Prop} (hitem : ∀ read value, R read value →
      item value (read.map (·.token))) {read : List Lexeme} {values : List α}
    (h : Separated R separator read values) : Row item separator values (read.map (·.token)) := by
  induction h with
  | last h => exact .last (hitem _ _ h)
  | more h hbetween _ ih =>
      rw [List.map_append, List.map_cons, hbetween]
      exact .more (hitem _ _ h) ih

/-- Parameters with one name and types of one shape. -/
def Param.Like (param other : Param) : Prop :=
  other.name = param.name ∧ other.type.tree = param.type.tree

namespace Parser

theorem rereads_path : path.Sound fun read name =>
    0 < read.length ∧ path.Accepts (· ≠ some .dot) (read.map (·.token)) (· = name) := by
  intro cursor name after hyields
  obtain ⟨segments, middle, hsegments, hpure⟩ := yields_bind hyields
  obtain ⟨rfl, rfl⟩ := yields_pure hpure
  obtain ⟨read, hreads, hseparated⟩ := (sound_select identToken).separated .dot hsegments
  have hrow : Row (fun segment own => own = [.ident segment.1]) .dot segments
      (read.map (·.token)) := by
    apply hseparated.row
    rintro own ⟨segment, span⟩ ⟨lexeme, rfl, haccept, -⟩
    rw [List.map_singleton, identToken_eq_some_iff.mp haccept]
  refine ⟨read, hreads, ?_, accepts_path hrow.map⟩
  cases hseparated with
  | last h =>
      obtain ⟨lexeme, rfl, -⟩ := h
      exact Nat.one_pos
  | more _ _ _ =>
      rw [List.length_append, List.length_cons]
      omega

theorem rereads_typeWith {inner : Parser TypeRef}
    (h : inner.Sound fun read ref => SpeltBy ref.tree (read.map (·.token))) :
    (typeWith inner).Sound fun read ref => SpeltBy ref.tree (read.map (·.token)) := by
  intro cursor ref after hyields
  obtain ⟨⟨⟨name, args⟩, span⟩, middle, hspanned, hpure⟩ := yields_bind hyields
  obtain ⟨rfl, rfl⟩ := yields_pure hpure
  obtain ⟨-, hyields⟩ := yields_spanned hspanned
  obtain ⟨_, first, hpath, hrest⟩ := yields_bind hyields
  obtain ⟨args?, second, hargs, hpure⟩ := yields_bind hrest
  obtain ⟨heq, rfl⟩ := yields_pure hpure
  cases heq
  obtain ⟨inPath, hreadPath, hpos, haccepts⟩ := rereads_path hpath
  rcases yields_optional hargs with ⟨rfl, rfl⟩ | ⟨refs, rfl, hrefs⟩
  · rw [← List.length_map (·.token)] at hpos
    exact ⟨inPath, hreadPath, speltBy_path haccepts hpos⟩
  · obtain ⟨_, hreadArgs, opened, inArgs, closed, rfl, hopened, hseparated, hclosed⟩ :=
      (h.separated .comma).bracketed .lt .gt hrefs
    have hrow : Row (fun ref own => SpeltBy (TypeRef.tree ref) own) .comma refs
        (inArgs.map (·.token)) :=
      hseparated.row fun _ _ => id
    have hspelt : SpeltBy (.node name (TypeRef.trees refs))
        ((inPath ++ opened :: (inArgs ++ [closed])).map (·.token)) := by
      rw [List.map_append, List.map_cons, List.map_append, List.map_singleton, hopened, hclosed,
        TypeRef.trees_eq_map]
      exact speltBy_args haccepts hrow.map
    exact ⟨_, hreadPath.append hreadArgs, hspelt⟩

theorem rereads_type :
    type.Sound fun read ref => SpeltBy ref.tree (read.map (·.token)) := by
  have hupTo (depth : Nat) :
      (typeUpTo depth).Sound fun read ref => SpeltBy ref.tree (read.map (·.token)) := by
    induction depth with
    | zero =>
        rintro cursor ref after ⟨pending, hrun⟩
        cases hrun
    | succ depth ih => exact rereads_typeWith ih
  apply Sound.labelled
  rintro cursor ref after ⟨pending, hrun⟩
  exact hupTo (cursor.rest.length + 1) ⟨pending, hrun⟩

theorem rereads_parameter : parameter.Sound fun read param =>
    parameter.Accepts EndsType (read.map (·.token)) param.Like := by
  apply (sound_parameter_of rereads_type).imp
  rintro _ param ⟨name, colon, inType, rfl, hname, hcolon, hspelt⟩
  rw [List.map_cons, List.map_cons, hname, hcolon]
  exact accepts_parameter hspelt.type

theorem gives_parameter_none {cursor : Cursor} (h : firstToken? cursor.rest = some .pipe) :
    parameter.Gives cursor none := by
  have hname : (select identToken).Gives cursor none := by
    apply gives_next_none
    intro found hfound
    rw [h] at hfound
    cases hfound
    rfl
  exact (hname.bind_none.spanned_none.bind_none).labelled .parameter

theorem rereads_list {read : List Lexeme} {params : List Param}
    (h : Listed (fun own param => parameter.Accepts EndsType (own.map (·.token)) param.Like) .comma
      read params) :
    (separatedOrNone parameter (token .comma)).Accepts (· = some .pipe) (read.map (·.token))
      (List.Forall₂ Param.Like params) := by
  have hrow {read : List Lexeme} {params : List Param}
      (h : Separated (fun own param => parameter.Accepts EndsType (own.map (·.token)) param.Like)
        .comma read params) :
      Row (fun param own => parameter.Accepts EndsType own param.Like) .comma params
        (read.map (·.token)) :=
    h.row fun _ _ => id
  have hcomma : EndsType (some .comma) := ⟨by simp, by simp⟩
  have hnone : ∀ cursor : Cursor, firstToken? cursor.rest = some .pipe →
      parameter.Gives cursor none :=
    fun _ => gives_parameter_none
  cases h with
  | none =>
      apply (accepts_separatedOrNone_nil hnone (token .comma)).imp fun _ => id
      rintro params rfl
      exact .nil
  | some h =>
      apply (accepts_separatedOrNone (hrow h) hcomma).imp _ fun _ => id
      rintro next rfl
      exact ⟨⟨by simp, by simp⟩, by simp⟩
  | trailing h hlast =>
      rw [List.map_append, List.map_singleton, hlast]
      exact accepts_separatedOrNone_last hnone (hrow h) hcomma

/-- The parameters of a lambda are read again from the same tokens, wherever they stand. -/
theorem rereads_params : (orElse noParameters parameters).Sound fun read params =>
    (orElse noParameters parameters).Accepts (fun _ => True) (read.map (·.token))
      (List.Forall₂ Param.Like params) := by
  apply sound_params_of rereads_parameter
  · intro both hboth
    rw [List.map_singleton, hboth]
    apply accepts_noParameters.imp fun _ => id
    rintro params rfl
    exact .nil
  · intro opened closed read params hopened hlisted hclosed
    rw [List.map_cons, List.map_append, List.map_singleton, hopened, hclosed]
    exact accepts_params (rereads_list hlisted) rfl

/-- The parts of a lambda: its parameters are read again anywhere, and its body was read from where
the opening brace stops. -/
theorem rereads_lambda {cursor after : Cursor} {l : Lambda} (h : lambda.Yields cursor l after) :
    ∃ parts stop, cursor.rest = parts.tokens ++ after.rest ∧ l.ReadFrom parts ∧
      (orElse noParameters parameters).Accepts (fun _ => True) (parts.inParams.map (·.token))
        (List.Forall₂ Param.Like l.params) ∧
      expr.Yields ⟨parts.brace.span.stop, parts.inBody ++ parts.closing :: after.rest⟩ l.body
        ⟨stop, parts.closing :: after.rest⟩ := by
  obtain ⟨arrow, brace, closing, _, _, stop, inRet, rest, harrow, hbrace, hclosing, hparams, hret,
    hoffset, hbody, -⟩ := yields_lambda h
  obtain ⟨inParams, hreadParams, hparams, haccepts⟩ := sound_params.and rereads_params hparams
  obtain ⟨inResult, hreadResult, hret⟩ := sound_type hret
  obtain ⟨inBody, hreadBody, hderives⟩ := sound_expr hbody
  have hinRet : inRet = inResult ++ brace :: rest := hreadResult.rest
  have hrest : rest = inBody ++ closing :: after.rest := hreadBody.rest
  refine ⟨⟨inParams, arrow, inResult, brace, inBody, closing⟩, stop, ?_,
    ⟨hparams, harrow, hret, hbrace, hoffset, hderives, hclosing⟩, haccepts, hrest ▸ hbody⟩
  rw [hreadParams.rest, hinRet, hrest]
  simp [LambdaParts.tokens]

end Parser

end ExprVet.Calc
