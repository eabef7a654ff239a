import ExprVet.Calc.Parser.Lambda
import ExprVet.Proofs.Rows
import ExprVet.Validation.Signature

/-!
# Headers of wrappers

A type whose names are dotted paths of identifiers is written as tokens from which the parser reads
a type of the same shape. So the header of a wrapper is read as the parameters and the result that
it was made for, whatever the snippet behind it.
-/

namespace ExprVet

open Calc

/-- Identifiers with dots between them. -/
def IsPath (name : String) : Prop :=
  ∃ segments : List String, segments ≠ [] ∧ (∀ s ∈ segments, IsIdentifier s.toList) ∧
    name = ".".intercalate segments

namespace SemanticType

mutual

/-- The name of the type and those of all its arguments are paths. -/
def WellNamed : SemanticType → Prop
  | ⟨name, _, args, _⟩ => IsPath name ∧ AllWellNamed args

def AllWellNamed : List SemanticType → Prop
  | [] => True
  | type :: types => type.WellNamed ∧ AllWellNamed types

end

end SemanticType

/-- A variable with an identifier for a name and a well named type. -/
structure Binding.WellNamed (binding : Binding) : Prop where
  name : IsIdentifier binding.name.toList
  type : binding.type.WellNamed

/-- The parameter that declares a variable. -/
def Binding.text (binding : Binding) : String := binding.name ++ ": " ++ binding.type.calcText

/-- Names with their arguments. -/
inductive TypeTree where
  | node (path : String) (args : List TypeTree)

mutual

def SemanticType.tree : SemanticType → TypeTree
  | ⟨name, _, args, _⟩ => .node (calcName name) (SemanticType.trees args)

def SemanticType.trees : List SemanticType → List TypeTree
  | [] => []
  | type :: types => type.tree :: SemanticType.trees types

end

mutual

def Calc.TypeRef.tree : TypeRef → TypeTree
  | ⟨path, args, _⟩ => .node path (Calc.TypeRef.trees args)

def Calc.TypeRef.trees : List TypeRef → List TypeTree
  | [] => []
  | ref :: refs => ref.tree :: Calc.TypeRef.trees refs

end

theorem isPath_of_isIdentifier {name : String} (h : IsIdentifier name.toList) : IsPath name := by
  refine ⟨[name], List.cons_ne_nil _ _, ?_, String.intercalate_singleton.symm⟩
  intro s hs
  rw [List.mem_singleton.mp hs]
  exact h

theorem isPath_intercalate {segments : List String} (hne : segments ≠ [])
    (h : ∀ s ∈ segments, IsIdentifier s.toList) : IsPath (".".intercalate segments) :=
  ⟨segments, hne, h, rfl⟩

theorem wellNamed_integer : SemanticType.integer.WellNamed :=
  ⟨isPath_intercalate (List.cons_ne_nil "core" ["Integer"]) (by decide +kernel), trivial⟩

/-- The core types have names that are identifiers in calc. -/
theorem isPath_calcName {name : String} (h : IsPath name) :
    IsPath (SemanticType.calcName name) := by
  have hcore (text : String) (htext : text ∈ ["Int", "Float", "Bool", "Str", "Any"]) :
      IsPath text := by
    apply isPath_of_isIdentifier
    simp only [List.mem_cons, List.not_mem_nil, or_false] at htext
    rcases htext with rfl | rfl | rfl | rfl | rfl
    all_goals decide +kernel
  unfold SemanticType.calcName
  split
  · exact hcore "Int" (by simp)
  · exact hcore "Float" (by simp)
  · exact hcore "Bool" (by simp)
  · exact hcore "Str" (by simp)
  · exact hcore "Any" (by simp)
  · exact h

namespace Calc

theorem written_identifier {name : String} (h : IsIdentifier name.toList) :
    Written name.toList [.ident name] := by
  constructor
  · intro rest hrest
    have hread := lexes_identifier h fun c hc => (hrest c hc).1
    rw [String.ofList_toList] at hread
    exact hread
  · intro token hmem
    rw [List.mem_singleton.mp hmem]
    simp

theorem ends_cons {c : Char} (h : isNameChar c = false ∧ c ≠ '=') (rest : List Char) :
    Ends (c :: rest) := forall_mem_head?_cons h rest

theorem lexes_dot (rest : List Char) : Lexes ".".toList [.dot] rest :=
  lexes_char (by decide) rfl

theorem lexes_comma (rest : List Char) : Lexes ", ".toList [.comma] rest :=
  (lexes_char (by decide) rfl).append (lexes_space rest)

/-- The segments of a path with their tokens. -/
def SegmentTokens (segment : String) (tokens : List Token) : Prop :=
  IsIdentifier segment.toList ∧ tokens = [.ident segment]

theorem written_path {segments : List String} {tokens : List Token}
    (h : Row SegmentTokens .dot segments tokens) :
    Written (".".intercalate segments).toList tokens := by
  rw [String.toList_intercalate]
  apply h.written
  · rintro segment own ⟨hsegment, rfl⟩
    exact written_identifier hsegment
  · exact lexes_dot
  · exact fun rest => ends_cons (by decide) rest
  · exact ⟨by simp, by simp⟩

/-- Names with dots between them are accepted as a path, whether a text is read as them or not. -/
theorem accepts_path {segments : List String} {tokens : List Token}
    (h : Row (fun segment own => own = [.ident segment]) .dot segments tokens) :
    Parser.path.Accepts (· ≠ some .dot) tokens (· = ".".intercalate segments) := by
  have hrow : Row (fun segment own => (Parser.select Parser.identToken).Accepts (fun _ => True) own
      (·.1 = segment)) .dot segments tokens := by
    apply h.imp
    rintro segment own - rfl
    have haccept : Parser.identToken (.ident segment) = some segment := rfl
    exact Parser.accepts_select haccept _
  intro read stop rest hread hrest
  obtain ⟨values, stop', hall, hgives⟩ :=
    Parser.accepts_separated hrow trivial read stop rest hread ⟨trivial, hrest⟩
  refine ⟨_, stop', rfl, ?_⟩
  rw [← map_eq_of_forall₂ hall fun _ _ hvalue => hvalue]
  exact hgives.bind (Parser.gives_pure _ _)

/-- What does not continue a type. -/
def EndsType (next : Option Token) : Prop := next ≠ some .dot ∧ next ≠ some .lt

/-- A row begins like its first item. -/
theorem begins_of_row {β : Type} {item : β → List Token → Prop} {separator : Token}
    {bs : List β} {tokens : List Token} {text : β → List Char} {kind : Char → Bool}
    (between : List Char) (h : Row item separator bs tokens)
    (hitem : ∀ b own, item b own → Begins kind (text b)) :
    Begins kind (between.intercalate (bs.map text)) := by
  cases h with
  | last h =>
      rw [List.map_singleton, List.intercalate_singleton]
      exact hitem _ _ h
  | @more b bs own tokens' h hrow =>
      have hne : bs.map text ≠ [] := by
        cases hrow <;> exact List.cons_ne_nil _ _
      rw [List.map_cons, List.intercalate_cons_of_ne_nil hne, List.append_assoc]
      exact (hitem _ _ h).append _

/-- Tokens that are read as a type of some shape at any sufficient depth. -/
def SpeltBy (tree : TypeTree) (tokens : List Token) : Prop :=
  ∀ depth, tokens.length ≤ depth →
    (Parser.typeUpTo depth).Accepts EndsType tokens (·.tree = tree)

theorem SpeltBy.type {tree : TypeTree} {tokens : List Token} (h : SpeltBy tree tokens) :
    Parser.type.Accepts EndsType tokens (·.tree = tree) := by
  apply Parser.Accepts.labelled
  intro read stop rest hread hrest
  have hdepth : tokens.length ≤ (read ++ rest).length + 1 := by
    rw [← hread, List.length_map, List.length_append]
    omega
  exact h _ hdepth read stop rest hread hrest

/-- The tokens of a type: it is written and read back by them. -/
structure TypeTokens (type : SemanticType) (tokens : List Token) : Prop where
  begins : Begins isNameStart type.calcText.toList
  written : Written type.calcText.toList tokens
  spelt : SpeltBy type.tree tokens

theorem trees_eq_map (types : List SemanticType) :
    SemanticType.trees types = types.map SemanticType.tree := by
  induction types with
  | nil => rfl
  | cons type types ih => rw [SemanticType.trees, ih, List.map_cons]

theorem TypeRef.trees_eq_map (refs : List TypeRef) : trees refs = refs.map tree := by
  induction refs with
  | nil => rfl
  | cons ref refs ih => rw [trees, ih, List.map_cons]

/-- A type is given by its path and by what its brackets hold. -/
theorem gives_typeWith {inner : Parser TypeRef} {cursor middle after : Cursor} {name : String}
    {refs : Option (List TypeRef)} (hpath : Parser.path.Gives cursor (some (name, middle)))
    (hargs : (Parser.optional do
      let _ ← Parser.token .lt
      let args ← Parser.separated inner (Parser.token .comma)
      let _ ← Parser.token .gt
      return args).Gives middle (some (refs, after))) :
    (Parser.typeWith inner).Gives cursor
      (some (⟨name, refs.getD [], ⟨cursor.start, after.stop⟩⟩, after)) := by
  apply Parser.Gives.bind
  · apply Parser.Gives.spanned
    apply Parser.Gives.bind hpath
    apply Parser.Gives.bind hargs
    exact Parser.gives_pure (name, refs.getD []) after
  · exact Parser.gives_pure _ after

theorem accepts_typeWith {inner : Parser TypeRef} {path : String} {inPath : List Token}
    (hpath : Parser.path.Accepts (· ≠ some .dot) inPath (· = path)) :
    (Parser.typeWith inner).Accepts EndsType inPath (·.tree = .node path []) := by
  intro read stop rest hread hrest
  obtain ⟨_, stop1, rfl, hgives⟩ := hpath read stop rest hread hrest.1
  have hmissing : (Parser.token .lt).Gives ⟨stop1, rest⟩ none := Parser.gives_token_none hrest.2
  exact ⟨_, stop1, rfl, gives_typeWith hgives hmissing.bind_none.optional_none⟩

theorem accepts_typeWith_args {inner : Parser TypeRef} {path : String} {inPath row : List Token}
    {trees : List TypeTree} (hpath : Parser.path.Accepts (· ≠ some .dot) inPath (· = path))
    (hrow : Row (fun tree own => inner.Accepts EndsType own (·.tree = tree)) .comma trees row) :
    (Parser.typeWith inner).Accepts EndsType (inPath ++ .lt :: (row ++ [.gt]))
      (·.tree = .node path trees) := by
  intro read stop rest hread hrest
  obtain ⟨readPath, readArgs, rfl, hreadPath, hreadArgs⟩ := List.map_eq_append_iff.mp hread
  obtain ⟨opened, readRest, rfl, hopened, hreadRest⟩ := List.map_eq_cons_iff.mp hreadArgs
  obtain ⟨readRow, closing, rfl, hreadRow, hclosing⟩ := List.map_eq_append_iff.mp hreadRest
  obtain ⟨closed, rfl, hclosed⟩ := List.map_eq_singleton_iff.mp hclosing
  have hfollowPath : firstToken? (opened :: (readRow ++ closed :: rest)) ≠ some .dot := by
    simp [firstToken?, hopened]
  have hfollowRow : EndsType (firstToken? (closed :: rest)) ∧
      firstToken? (closed :: rest) ≠ some .comma := by
    simp [EndsType, firstToken?, hclosed]
  obtain ⟨_, stop1, rfl, hgives⟩ :=
    hpath readPath stop (opened :: (readRow ++ closed :: rest)) hreadPath hfollowPath
  obtain ⟨refs, stop2, hall, hrefs⟩ := Parser.accepts_separated hrow ⟨by simp, by simp⟩ readRow
    opened.span.stop (closed :: rest) hreadRow hfollowRow
  have hargs : (Parser.optional do
      let _ ← Parser.token .lt
      let args ← Parser.separated inner (Parser.token .comma)
      let _ ← Parser.token .gt
      return args).Gives ⟨stop1, opened :: (readRow ++ closed :: rest)⟩
        (some (some refs, ⟨closed.span.stop, rest⟩)) :=
    (hrefs.bracketed hopened hclosed stop1).optional
  have hsplit : readPath ++ opened :: (readRow ++ [closed]) ++ rest =
      readPath ++ opened :: (readRow ++ closed :: rest) := by
    simp
  rw [hsplit]
  refine ⟨_, closed.span.stop, ?_, gives_typeWith hgives hargs⟩
  simp only [TypeRef.tree, Option.getD_some, TypeRef.trees_eq_map,
    map_eq_of_forall₂ hall fun _ _ href => href]

theorem speltBy_path {path : String} {inPath : List Token}
    (hpath : Parser.path.Accepts (· ≠ some .dot) inPath (· = path)) (hpos : 0 < inPath.length) :
    SpeltBy (.node path []) inPath := by
  intro depth hdepth
  obtain ⟨n, rfl⟩ : ∃ n, depth = n + 1 := Nat.exists_eq_add_one.mpr (by omega)
  exact accepts_typeWith hpath

theorem speltBy_args {path : String} {inPath row : List Token} {trees : List TypeTree}
    (hpath : Parser.path.Accepts (· ≠ some .dot) inPath (· = path))
    (hrow : Row SpeltBy .comma trees row) :
    SpeltBy (.node path trees) (inPath ++ .lt :: (row ++ [.gt])) := by
  intro depth hdepth
  simp only [List.length_append, List.length_cons, List.length_nil] at hdepth
  obtain ⟨n, rfl⟩ : ∃ n, depth = n + 1 := Nat.exists_eq_add_one.mpr (by omega)
  apply accepts_typeWith_args hpath
  apply hrow.imp
  intro tree own hle hspelt
  exact hspelt n (by omega)

theorem exists_segmentTokens {name : String} (h : IsPath name) :
    ∃ segments tokens, Row SegmentTokens .dot segments tokens ∧
      name = ".".intercalate segments := by
  obtain ⟨segments, hne, hsegments, hname⟩ := h
  have hitems : ∀ segment ∈ segments, ∃ tokens, SegmentTokens segment tokens := by
    intro segment hmem
    exact ⟨[.ident segment], hsegments segment hmem, rfl⟩
  obtain ⟨tokens, hrow⟩ := exists_row hne hitems
  exact ⟨segments, tokens, hrow, hname⟩

theorem calcTexts_eq_map (types : List SemanticType) :
    SemanticType.calcTexts types = types.map SemanticType.calcText := by
  induction types with
  | nil => rfl
  | cons type types ih => rw [SemanticType.calcTexts, ih, List.map_cons]

theorem lexes_lt {rest : List Char} (h : ∀ c ∈ rest.head?, c ≠ '=') : Lexes ['<'] [.lt] rest :=
  lexes_char_of_orLonger (by decide) rfl h

theorem lexes_gt {rest : List Char} (h : ∀ c ∈ rest.head?, c ≠ '=') : Lexes ['>'] [.gt] rest :=
  lexes_char_of_orLonger (by decide) rfl h

/-- What is written one by one is written as a list with commas. -/
theorem written_commaRow {β : Type} {item : β → List Token → Prop} {text : β → String}
    {bs : List β} {tokens : List Token} (h : Row item .comma bs tokens)
    (hbegins : ∀ b own, item b own → Begins isNameStart (text b).toList)
    (hwritten : ∀ b own, item b own → Written (text b).toList own) :
    Begins isNameStart (", ".intercalate (bs.map text)).toList ∧
      Written (", ".intercalate (bs.map text)).toList tokens := by
  have htexts : (bs.map text).map String.toList = bs.map fun b => (text b).toList := by
    rw [List.map_map]
    rfl
  rw [String.toList_intercalate, htexts]
  constructor
  · exact begins_of_row _ h hbegins
  · exact h.written hwritten lexes_comma (fun rest => ends_cons (by decide) _) ⟨by simp, by simp⟩

/-- The arguments of a type with their tokens, brackets included. -/
theorem written_args {types : List SemanticType} {row : List Token}
    (h : Row TypeTokens .comma types row) :
    Written ('<' :: ((", ".intercalate (SemanticType.calcTexts types)).toList ++ ['>']))
      (.lt :: (row ++ [.gt])) := by
  obtain ⟨hbegins, hrow⟩ := written_commaRow h (fun type own htype => htype.begins)
    fun type own htype => htype.written
  rw [← calcTexts_eq_map] at hbegins hrow
  constructor
  · intro rest hrest
    have hclosed := lexes_gt fun c hc => (hrest c hc).2
    have hinner := (hrow.lexes (['>'] ++ rest) (ends_cons (by decide) rest)).append hclosed
    have hopened := (hbegins.append (['>'] ++ rest)).ne (by decide : isNameStart '=' = false)
    rw [← List.append_assoc] at hopened
    exact (lexes_lt hopened).append hinner
  · exact plain_bracketed ⟨by simp, by simp⟩ ⟨by simp, by simp⟩ hrow.plain

theorem begins_path {segments : List String} {inPath : List Token}
    (h : Row SegmentTokens .dot segments inPath) :
    Begins isNameStart (".".intercalate segments).toList := by
  rw [String.toList_intercalate]
  exact begins_of_row _ h fun segment own hsegment => begins_of_isIdentifier hsegment.1

theorem length_pos_of_segments {segments : List String} {inPath : List Token}
    (h : Row SegmentTokens .dot segments inPath) : 0 < inPath.length := by
  cases h with
  | last h =>
      rw [h.2]
      exact Nat.one_pos
  | more h _ =>
      rw [h.2]
      exact Nat.succ_pos _

theorem typeTokens_path {name : String} {module : ModuleId} {bases : List SemanticType}
    {segments : List String} {inPath : List Token}
    (hrow : Row SegmentTokens .dot segments inPath)
    (hname : SemanticType.calcName name = ".".intercalate segments) :
    TypeTokens ⟨name, module, [], bases⟩ inPath := by
  have htext : SemanticType.calcText ⟨name, module, [], bases⟩ = ".".intercalate segments := hname
  constructor
  · rw [htext]
    exact begins_path hrow
  · rw [htext]
    exact written_path hrow
  · have hpath := accepts_path (hrow.imp fun _ _ _ hsegment => hsegment.2)
    rw [← hname] at hpath
    exact speltBy_path hpath (length_pos_of_segments hrow)

theorem typeTokens_args {name : String} {module : ModuleId} {args bases : List SemanticType}
    {segments : List String} {inPath row : List Token}
    (hrow : Row SegmentTokens .dot segments inPath)
    (hname : SemanticType.calcName name = ".".intercalate segments)
    (hargs : Row TypeTokens .comma args row) :
    TypeTokens ⟨name, module, args, bases⟩ (inPath ++ .lt :: (row ++ [.gt])) := by
  have htext : (SemanticType.calcText ⟨name, module, args, bases⟩).toList =
      (".".intercalate segments).toList ++
        '<' :: ((", ".intercalate (SemanticType.calcTexts args)).toList ++ ['>']) := by
    rw [← hname]
    cases hargs with
    | last _ | more _ _ =>
        simp only [SemanticType.calcText, SemanticType.calcTexts, applied, String.toList_append,
          List.append_assoc]
        rfl
  constructor
  · rw [htext]
    exact (begins_path hrow).append _
  · rw [htext]
    exact (written_path hrow).append (written_args hargs) fun rest _ => ends_cons (by decide) _
  · have hpath := accepts_path (hrow.imp fun _ _ _ hsegment => hsegment.2)
    rw [← hname] at hpath
    have hspelt : Row SpeltBy .comma (args.map SemanticType.tree) row :=
      Row.map (hargs.imp fun type own _ htype => htype.spelt)
    rw [← trees_eq_map] at hspelt
    exact speltBy_args hpath hspelt

mutual

/-- A well named type has tokens that it is written and read back by. -/
theorem exists_typeTokens : ∀ type : SemanticType, type.WellNamed →
    ∃ tokens, TypeTokens type tokens
  | ⟨name, module, args, bases⟩, h => by
      obtain ⟨segments, inPath, hrow, hname⟩ := exists_segmentTokens (isPath_calcName h.1)
      have hargs := exists_typeTokens_of_mem args h.2
      cases args with
      | nil => exact ⟨inPath, typeTokens_path hrow hname⟩
      | cons first rest =>
          obtain ⟨row, hrow'⟩ := exists_row (List.cons_ne_nil first rest) hargs
          exact ⟨_, typeTokens_args hrow hname hrow'⟩

theorem exists_typeTokens_of_mem : ∀ types : List SemanticType, SemanticType.AllWellNamed types →
    ∀ type ∈ types, ∃ tokens, TypeTokens type tokens
  | [], _, _, hmem => by cases hmem
  | type :: types, h, found, hmem => by
      rcases List.mem_cons.mp hmem with heq | hmem
      · rw [heq]
        exact exists_typeTokens type h.1
      · exact exists_typeTokens_of_mem types h.2 found hmem

end

/-- A parameter declares what a binding says. -/
def Param.Declares (binding : Binding) (param : Param) : Prop :=
  param.name = binding.name ∧ param.type.tree = binding.type.tree

/-- The tokens of a parameter: it is written and read back by them. -/
structure ParamTokens (binding : Binding) (tokens : List Token) : Prop where
  begins : Begins isNameStart binding.text.toList
  written : Written binding.text.toList tokens
  accepts : Parser.parameter.Accepts EndsType tokens (Param.Declares binding)

theorem lexes_colon (rest : List Char) : Lexes ": ".toList [.colon] rest :=
  (lexes_char (by decide) rfl).append (lexes_space rest)

theorem accepts_parameter {declared : String} {tree : TypeTree} {tokens : List Token}
    (h : Parser.type.Accepts EndsType tokens (·.tree = tree)) :
    Parser.parameter.Accepts EndsType (.ident declared :: .colon :: tokens)
      (fun param => param.name = declared ∧ param.type.tree = tree) := by
  apply Parser.Accepts.labelled
  intro read stop rest hread hrest
  obtain ⟨name, read, rfl, hname, hread⟩ := List.map_eq_cons_iff.mp hread
  obtain ⟨colon, read, rfl, hcolon, hread⟩ := List.map_eq_cons_iff.mp hread
  obtain ⟨ref, stop', href, hgives⟩ := h read colon.span.stop rest hread hrest
  have hident : Parser.identToken name.token = some declared := by
    rw [hname]
    rfl
  refine ⟨⟨declared, ref, ⟨name.span.start, stop'⟩⟩, stop', ⟨rfl, href⟩, ?_⟩
  apply Parser.Gives.bind
  · apply Parser.Gives.spanned
    apply Parser.Gives.bind (Parser.gives_next hident .somethingElse stop (colon :: (read ++ rest)))
    apply Parser.Gives.bind (Parser.gives_token hcolon _ (read ++ rest))
    apply Parser.Gives.bind hgives
    exact Parser.gives_pure (declared, ref) _
  · exact Parser.gives_pure _ _

theorem exists_paramTokens {binding : Binding} (h : binding.WellNamed) :
    ∃ tokens, ParamTokens binding tokens := by
  obtain ⟨tokens, htype⟩ := exists_typeTokens binding.type h.type
  have htext : binding.text.toList =
      binding.name.toList ++ (": ".toList ++ binding.type.calcText.toList) := by
    rw [Binding.text, String.toList_append, String.toList_append, List.append_assoc]
  refine ⟨.ident binding.name :: .colon :: tokens, ?_, ?_, accepts_parameter htype.spelt.type⟩
  · rw [htext]
    exact (begins_of_isIdentifier h.name).append _
  · have hname := written_identifier h.name
    rw [htext]
    constructor
    · intro rest hrest
      have hlater := (lexes_colon _).append (htype.written.lexes rest hrest)
      exact (hname.lexes _ (ends_cons (by decide) _)).append hlater
    · intro token hmem
      simp only [List.mem_cons] at hmem
      rcases hmem with rfl | rfl | hmem
      · simp
      · simp
      · exact htype.written.plain token hmem

theorem lexes_pipe {rest : List Char} (h : ∀ c ∈ rest.head?, c ≠ '|') : Lexes ['|'] [.pipe] rest :=
  lexes_char_of_orLonger (by decide) rfl h

/-- The parameters of a header with the bars around them. -/
def paramsText (bindings : List Binding) : List Char :=
  '|' :: ((", ".intercalate (bindings.map Binding.text)).toList ++ ['|'])

/-- The tokens of the parameters of a header. -/
structure ParamsTokens (bindings : List Binding) (tokens : List Token) : Prop where
  lexes : ∀ rest, Lexes (paramsText bindings) tokens (' ' :: rest)
  plain : ∀ token ∈ tokens, token ≠ .error ∧ token ≠ .lbrace
  accepts : (Parser.orElse Parser.noParameters Parser.parameters).Accepts (fun _ => True) tokens
    (List.Forall₂ Param.Declares bindings)

theorem accepts_noParameters : (Parser.orElse Parser.noParameters Parser.parameters).Accepts
    (fun _ => True) [.or] (· = []) := by
  intro read stop rest hread _
  obtain ⟨lexeme, rfl, htoken⟩ := List.map_eq_singleton_iff.mp hread
  refine ⟨[], lexeme.span.stop, rfl, ?_⟩
  apply Parser.Gives.orElse_left
  apply Parser.Gives.bind (Parser.gives_token htoken stop rest)
  exact Parser.gives_pure [] _

theorem paramsTokens_nil : ParamsTokens [] [.or] := by
  constructor
  · intro rest offset
    exact ⟨[_], rfl, lexemes_token rfl rfl offset⟩
  · simp
  · exact accepts_noParameters.imp (fun _ => id) fun params hparams => hparams ▸ .nil

/-- What is accepted as a list of parameters is accepted with bars around it. -/
theorem accepts_params {inner : List Token} {follow : Option Token → Prop} {P : List Param → Prop}
    (h : (Parser.separatedOrNone Parser.parameter (Parser.token .comma)).Accepts follow inner P)
    (hfollow : follow (some .pipe)) :
    (Parser.orElse Parser.noParameters Parser.parameters).Accepts (fun _ => True)
      (.pipe :: (inner ++ [.pipe])) P := by
  intro read stop rest hread _
  obtain ⟨opened, read, rfl, hopened, hread⟩ := List.map_eq_cons_iff.mp hread
  obtain ⟨readInner, closing, rfl, hreadInner, hclosing⟩ := List.map_eq_append_iff.mp hread
  obtain ⟨closed, rfl, hclosed⟩ := List.map_eq_singleton_iff.mp hclosing
  have hclosing : follow (firstToken? (closed :: rest)) := by
    rw [← hclosed] at hfollow
    exact hfollow
  obtain ⟨params, stop1, hP, hgives⟩ :=
    h readInner opened.span.stop (closed :: rest) hreadInner hclosing
  have hor : (Parser.token .or).Gives ⟨stop, opened :: (readInner ++ closed :: rest)⟩ none := by
    apply Parser.gives_token_none
    simp [firstToken?, hopened]
  have hsplit : opened :: (readInner ++ [closed]) ++ rest =
      opened :: (readInner ++ closed :: rest) := by
    simp
  rw [hsplit]
  refine ⟨params, closed.span.stop, hP, ?_⟩
  apply Parser.Gives.orElse_right
  · exact Parser.Gives.bind_none hor
  · exact hgives.bracketed hopened hclosed stop

theorem paramsTokens_row {bindings : List Binding} {row : List Token}
    (h : Row ParamTokens .comma bindings row) :
    ParamsTokens bindings (.pipe :: (row ++ [.pipe])) := by
  obtain ⟨hbegins, hrow⟩ := written_commaRow h (fun binding own hparam => hparam.begins)
    fun binding own hparam => hparam.written
  constructor
  · intro rest
    have hclosed : Lexes ['|'] [.pipe] (' ' :: rest) := by
      apply lexes_pipe
      intro c hc
      cases hc
      decide
    have hinner := (hrow.lexes (['|'] ++ ' ' :: rest) (ends_cons (by decide) _)).append hclosed
    have hopened := (hbegins.append (['|'] ++ ' ' :: rest)).ne (by decide : isNameStart '|' = false)
    rw [← List.append_assoc] at hopened
    exact (lexes_pipe hopened).append hinner
  · exact plain_bracketed ⟨by simp, by simp⟩ ⟨by simp, by simp⟩ hrow.plain
  · have hparams : Row (fun binding own => Parser.parameter.Accepts EndsType own
        (Param.Declares binding)) .comma bindings row :=
      h.imp fun binding own _ hparam => hparam.accepts
    exact accepts_params (Parser.accepts_separatedOrNone hparams ⟨by simp, by simp⟩)
      ⟨⟨by simp, by simp⟩, by simp⟩

theorem exists_paramsTokens {bindings : List Binding} (h : ∀ b ∈ bindings, b.WellNamed) :
    ∃ tokens, ParamsTokens bindings tokens := by
  by_cases hne : bindings = []
  · rw [hne]
    exact ⟨[.or], paramsTokens_nil⟩
  · have hparams : ∀ b ∈ bindings, ∃ tokens, ParamTokens b tokens := by
      intro b hmem
      exact exists_paramTokens (h b hmem)
    obtain ⟨row, hrow⟩ := exists_row hne hparams
    exact ⟨_, paramsTokens_row hrow⟩

/-- The text of a wrapper before its opening brace. -/
def headerText (bindings : List Binding) (expected : SemanticType) : List Char :=
  paramsText bindings ++ (" -> ".toList ++ (expected.calcText.toList ++ [' ']))

theorem synthesize_eq (bindings : List Binding) (expected : SemanticType) (body : String) :
    synthesize bindings expected body =
      "|" ++ ", ".intercalate (bindings.map Binding.text) ++ "| -> " ++ expected.calcText ++
        " \x7b" ++ body ++ "\x7d" := by
  simp only [synthesize, Signature.build, Signature.wrapper, Signature.result?,
    List.dropLast_concat, List.getLast?_append, List.getLast?_singleton, Option.some_or,
    Option.getD_some, List.zip_map', List.map_map]
  rfl

/-- A wrapper is its header and, in braces, the snippet as it is. -/
theorem toList_synthesize (bindings : List Binding) (expected : SemanticType) (body : String) :
    (synthesize bindings expected body).toList =
      headerText bindings expected ++ '\x7b' :: (body.toList ++ ['\x7d']) := by
  rw [synthesize_eq]
  simp only [String.toList_append, headerText, paramsText, List.append_assoc, List.cons_append,
    List.nil_append]
  rfl

theorem lexes_arrow (rest : List Char) : Lexes " -> ".toList [.arrow] rest := by
  have harrow : Lexes ['-', '>'] [.arrow] (' ' :: rest) := by
    intro offset
    exact ⟨[_], rfl, lexemes_token rfl rfl offset⟩
  exact (lexes_space _).append (harrow.append (lexes_space rest))

theorem lexes_header {bindings : List Binding} {expected : SemanticType}
    {inParams inResult : List Token} (hparams : ParamsTokens bindings inParams)
    (hresult : TypeTokens expected inResult) (rest : List Char) :
    Lexes (headerText bindings expected) (inParams ++ .arrow :: inResult) rest := by
  have hexpected := (hresult.written.lexes ([' '] ++ rest) (ends_cons (by decide) rest)).append
    (lexes_space rest)
  rw [List.append_nil] at hexpected
  exact (hparams.lexes _).append ((lexes_arrow _).append hexpected)

end Calc

end ExprVet
