import ExprVet.Proofs.LambdaSyntax
import ExprVet.Proofs.Wrapper
import Mathlib.Data.List.Perm.Subperm

/-!
# Headers from any type texts

The text of a type stands in the header of a wrapper as it is, whatever it is. As long as no such
text contains a quote, every colon of the header is a token, and the arrow that ends the parameters
is the one that was written there. So the lambda has a parameter for every colon, among them the
declared variables, and it has no others just if no type text contains a colon.
-/

namespace ExprVet.Calc

open Text

theorem not_mem_takeWhile_of_false {α : Type} {p : α → Bool} {a : α} (h : p a = false)
    (cs : List α) : a ∉ cs.takeWhile p := by
  intro hmem
  rw [List.mem_takeWhile_imp hmem] at h
  cases h

theorem wordToken_ne_colon (word : List Char) : wordToken word ≠ .colon := by
  unfold wordToken
  split <;> simp

theorem numberToken_no_colon (c : Char) (cs : List Char) :
    (numberToken c cs).1 ≠ .colon ∧ ':' ∉ cs.take (numberToken c cs).2 := by
  have hdigit : isDigit ':' = false := by decide
  have hdigits : ':' ∉ cs.take (cs.takeWhile isDigit).length := by
    rw [take_length_takeWhile]
    exact not_mem_takeWhile_of_false hdigit cs
  have hwhole (value : Nat) : (if value ≤ maxInt then Token.int value else .error) ≠ .colon := by
    split <;> simp
  simp only [numberToken]
  split
  · rename_i rest hrest
    split
    · exact ⟨hwhole _, hdigits⟩
    · refine ⟨by simp, ?_⟩
      rw [Nat.add_assoc, List.take_add, hrest, Nat.add_comm 1, List.take_succ_cons,
        take_length_takeWhile isDigit rest]
      simp only [List.mem_append, List.mem_cons, not_or]
      exact ⟨hdigits, by decide, not_mem_takeWhile_of_false hdigit rest⟩
  · exact ⟨hwhole _, hdigits⟩

theorem orLonger_no_colon {next : Char} {long short : Token} (hnext : next ≠ ':')
    (hlong : long ≠ .colon) (hshort : short ≠ .colon) (cs : List Char) :
    (orLonger next long short cs).1 ≠ .colon ∧ ':' ∉ cs.take (orLonger next long short cs).2 := by
  cases cs with
  | nil => exact ⟨hshort, by simp⟩
  | cons c cs =>
      rw [orLonger]
      split
      · rename_i hc
        refine ⟨hlong, ?_⟩
        rw [hc, List.take_one, List.head?_cons]
        simpa using hnext.symm
      · exact ⟨hshort, by simp⟩

theorem firstToken_no_colon {c : Char} (hquote : c ≠ '"') (hcolon : c ≠ ':') (cs : List Char) :
    (firstToken c cs).1 ≠ .colon ∧ ':' ∉ cs.take (firstToken c cs).2 := by
  by_cases hstart : isNameStart c = true
  · rw [firstToken_word hstart, take_length_takeWhile]
    exact ⟨wordToken_ne_colon _, not_mem_takeWhile_of_false (by decide) cs⟩
  · unfold firstToken
    rw [if_neg hstart]
    split
    · exact numberToken_no_colon c cs
    · split
      · exact absurd rfl hquote
      all_goals first
        | exact orLonger_no_colon (by decide) (by simp) (by simp) cs
        | exact absurd rfl hcolon
        | exact ⟨by simp, by simp⟩

/-- A colon is a token, and outside of string literals it is part of no other token. -/
theorem firstToken_colon {c : Char} (h : c ≠ '"') (cs : List Char) :
    ((firstToken c cs).1 = .colon ↔ c = ':') ∧ ':' ∉ cs.take (firstToken c cs).2 := by
  by_cases hcolon : c = ':'
  · have hfirst : firstToken ':' cs = (.colon, 0) := rfl
    rw [hcolon, hfirst]
    exact ⟨iff_of_true rfl rfl, by simp⟩
  · obtain ⟨htoken, htake⟩ := firstToken_no_colon h hcolon cs
    exact ⟨iff_of_false htoken hcolon, htake⟩

/-- Without quotes, the colons of a text are tokens. -/
theorem colons_lexemes {cs : List Char} (h : '"' ∉ cs) (offset : Nat) :
    colons (lexemes offset cs) = cs.count ':' := by
  induction offset, cs using lexemes.induct with
  | case1 offset => rw [lexemes_nil]; rfl
  | case2 offset c cs hc ih =>
      have hcolon : c ≠ ':' := by
        rintro rfl
        exact absurd hc (by decide)
      rw [lexemes_separator hc, ih (List.not_mem_of_not_mem_cons h), List.count_cons_of_ne hcolon]
  | case3 offset c cs hc token length htoken text stop ih =>
      have hsep : isSeparator c = false := Bool.eq_false_iff.mpr hc
      have hne : c ≠ '"' := fun heq => h (heq ▸ List.mem_cons_self)
      obtain ⟨hiff, htake⟩ := firstToken_colon hne cs
      rw [htoken] at hiff htake
      have hdrop : '"' ∉ cs.drop length :=
        fun hmem => h (List.mem_cons_of_mem _ (List.mem_of_mem_drop hmem))
      have hcount : cs.count ':' = (cs.drop length).count ':' := by
        conv_lhs => rw [← List.take_append_drop length cs]
        rw [List.count_append, List.count_eq_zero.mpr htake, Nat.zero_add]
      have hfirst : (if token == .colon then 1 else 0) = if c == ':' then 1 else 0 := by
        simp only [beq_iff_eq, hiff]
      rw [lexemes_token hsep htoken, List.count_cons, hcount, ← ih hdrop, ← hfirst, colons,
        List.countP_cons]
      rfl

theorem colons_withoutErrors (lexemes : List Lexeme) :
    colons (withoutErrors lexemes) = colons lexemes := by
  rw [colons, colons, withoutErrors, List.countP_filter]
  apply List.countP_congr
  intro lexeme _
  constructor
  · exact fun h => (Bool.and_eq_true_iff.mp h).1
  · intro h
    have hcolon : lexeme.token = .colon := eq_of_beq h
    rw [hcolon]
    rfl

theorem namesBeforeColons_subset_append (xs ys : List Lexeme) :
    namesBeforeColons ys ⊆ namesBeforeColons (xs ++ ys) := by
  induction xs with
  | nil => exact List.Subset.refl _
  | cons x xs ih => exact List.Subset.trans ih (List.subset_append_right _ _)

/-- A text that a bar or a blank ends, so that a name can follow. -/
def OpensName (before : List Char) : Prop :=
  before = ['|'] ∨ ∃ earlier, before = earlier ++ [' ']

/-- A name with a colon behind it is read as such wherever it stands in a text without quotes. -/
theorem mem_namesBeforeColons_of_text {before name : List Char} (hopens : OpensName before)
    (hquote : '"' ∉ before) (hname : IsIdentifier name) (after : List Char) :
    String.ofList name ∈
      namesBeforeColons (withoutErrors (lexemes 0 (before ++ (name ++ ':' :: after)))) := by
  have hpair (offset : Nat) : String.ofList name ∈
      namesBeforeColons (withoutErrors (lexemes offset (name ++ ':' :: after))) := by
    have hstop : ∀ c ∈ (':' :: after).head?, isNameChar c = false := by
      intro c hc
      cases hc
      decide
    obtain ⟨read, htokens, hread⟩ := lexes_identifier hname hstop offset
    obtain ⟨lexeme, rfl, htoken⟩ := List.map_eq_singleton_iff.mp htokens
    have hcolon : firstToken ':' after = (.colon, 0) := rfl
    rw [hread, lexemes_token (by decide) hcolon, List.singleton_append,
      withoutErrors_cons (by simp [htoken]), withoutErrors_cons (by simp), namesBeforeColons,
      Lexeme.beforeColon?, htoken]
    exact List.mem_cons_self
  rcases hopens with rfl | ⟨earlier, rfl⟩
  · obtain ⟨c, cs, hcs, hstart, -⟩ := hname.start
    have hbar : ∀ d ∈ (name ++ ':' :: after).head?, d ≠ '|' := by
      rw [hcs]
      rintro d hd rfl
      cases hd
      exact absurd hstart (by decide)
    obtain ⟨read, -, hread⟩ := lexes_pipe hbar 0
    rw [hread, withoutErrors_append]
    exact namesBeforeColons_subset_append _ _ (hpair _)
  · have happart : ∀ d ∈ (' ' :: (name ++ ':' :: after)).head?, Apart d := by
      intro d hd
      cases hd
      decide
    have hearlier : '"' ∉ earlier := fun hmem => hquote (List.mem_append_left _ hmem)
    rw [List.append_assoc, List.singleton_append,
      lexemes_append happart (not_endsUnterminated_of_no_quote hearlier 0),
      lexemes_separator (by decide), withoutErrors_append]
    exact namesBeforeColons_subset_append _ _ (hpair _)

/-- The text of some texts with commas between them. -/
theorem toList_commas_cons (text : String) {texts : List String} (h : texts ≠ []) :
    (", ".intercalate (text :: texts)).toList =
      text.toList ++ (", ".toList ++ (", ".intercalate texts).toList) := by
  have hne : texts.map String.toList ≠ [] := by simpa using h
  rw [String.toList_intercalate, String.toList_intercalate, List.map_cons,
    List.intercalate_cons_of_ne_nil hne, List.append_assoc]

theorem toList_commas_singleton (text : String) : (", ".intercalate [text]).toList = text.toList := by
  rw [String.intercalate_singleton]

/-- Where a text stands among texts with commas between them. -/
theorem exists_split_commas {text : String} {texts : List String} (h : text ∈ texts) :
    ∃ before after, (", ".intercalate texts).toList = before ++ (text.toList ++ after) ∧
      (before = [] ∨ ∃ earlier, before = earlier ++ [' ']) := by
  induction texts with
  | nil => cases h
  | cons first texts ih =>
      by_cases hne : texts = []
      · obtain rfl : text = first := by simpa [hne] using h
        exact ⟨[], [], by rw [hne, toList_commas_singleton]; simp, .inl rfl⟩
      · rw [toList_commas_cons first hne]
        rcases List.mem_cons.mp h with rfl | h
        · exact ⟨[], _, rfl, .inl rfl⟩
        · obtain ⟨before, after, heq, hbefore⟩ := ih h
          refine ⟨first.toList ++ (", ".toList ++ before), after, ?_, .inr ?_⟩
          · rw [heq]
            simp only [List.append_assoc]
          · rcases hbefore with rfl | ⟨earlier, rfl⟩
            · exact ⟨first.toList ++ [','], by simp⟩
            · exact ⟨first.toList ++ (", ".toList ++ earlier), by simp⟩

theorem count_colon_commas (texts : List String) :
    (", ".intercalate texts).toList.count ':' = (texts.flatMap String.toList).count ':' := by
  induction texts with
  | nil => rfl
  | cons first texts ih =>
      by_cases hne : texts = []
      · rw [hne, toList_commas_singleton, List.flatMap_singleton]
      · have hcomma : ", ".toList.count ':' = 0 := rfl
        rw [toList_commas_cons first hne, List.count_append, List.count_append, hcomma, ih,
          Nat.zero_add, List.flatMap_cons, List.count_append]

theorem mem_commas {c : Char} {texts : List String} (h : c ∈ (", ".intercalate texts).toList) :
    c ∈ ", ".toList ∨ ∃ text ∈ texts, c ∈ text.toList := by
  induction texts with
  | nil => cases h
  | cons first texts ih =>
      by_cases hne : texts = []
      · rw [hne, toList_commas_singleton] at h
        exact .inr ⟨first, List.mem_cons_self, h⟩
      · rw [toList_commas_cons first hne, List.mem_append, List.mem_append] at h
        rcases h with h | h | h
        · exact .inr ⟨first, List.mem_cons_self, h⟩
        · exact .inl h
        · exact (ih h).imp_right fun ⟨text, hmem, hc⟩ => ⟨text, List.mem_cons_of_mem _ hmem, hc⟩

theorem not_mem_of_isIdentifier {word : List Char} (h : IsIdentifier word) {d : Char}
    (hstart : isNameStart d = false) (hchar : isNameChar d = false) : d ∉ word := by
  obtain ⟨c, cs, rfl, hc, hcs⟩ := h.start
  intro hmem
  rcases List.mem_cons.mp hmem with rfl | hmem
  · rw [hstart] at hc
    cases hc
  · rw [hcs d hmem] at hchar
    cases hchar

section Header

variable {bindings : List Binding}

theorem toList_bindingText (b : Binding) :
    b.text.toList = b.name.toList ++ (": ".toList ++ b.type.calcText.toList) := by
  rw [Binding.text, String.toList_append, String.toList_append, List.append_assoc]

/-- Without quotes in the types there are none in the parameters. -/
theorem no_quote_paramsText (hnames : ∀ b ∈ bindings, IsIdentifier b.name.toList)
    (hquote : ∀ b ∈ bindings, '"' ∉ b.type.calcText.toList) : '"' ∉ paramsText bindings := by
  intro hmem
  rw [paramsText, List.mem_cons, List.mem_append] at hmem
  rcases hmem with hmem | hmem | hmem
  · exact absurd hmem (by decide)
  · rcases mem_commas hmem with hmem | ⟨text, htext, hmem⟩
    · exact absurd hmem (by decide)
    · obtain ⟨b, hb, rfl⟩ := List.mem_map.mp htext
      rw [toList_bindingText, List.mem_append, List.mem_append] at hmem
      rcases hmem with hmem | hmem | hmem
      · exact not_mem_of_isIdentifier (hnames b hb) (by decide) (by decide) hmem
      · exact absurd hmem (by decide)
      · exact hquote b hb hmem
  · exact absurd hmem (by decide)

/-- The texts of the types of some bindings, one behind the other. -/
def typeTexts (bindings : List Binding) : List Char :=
  bindings.flatMap (·.type.calcText.toList)

theorem not_mem_typeTexts_iff {c : Char} :
    c ∉ typeTexts bindings ↔ ∀ b ∈ bindings, c ∉ b.type.calcText.toList := by
  simp [typeTexts]

theorem count_colon_bindingTexts (hnames : ∀ b ∈ bindings, IsIdentifier b.name.toList) :
    ((bindings.map Binding.text).flatMap String.toList).count ':' =
      bindings.length + (typeTexts bindings).count ':' := by
  induction bindings with
  | nil => rfl
  | cons b bindings ih =>
      rw [List.forall_mem_cons] at hnames
      have hname : b.name.toList.count ':' = 0 :=
        List.count_eq_zero.mpr (not_mem_of_isIdentifier hnames.1 (by decide) (by decide))
      have hcolon : ": ".toList.count ':' = 1 := rfl
      rw [List.map_cons, List.flatMap_cons, List.count_append, ih hnames.2, toList_bindingText,
        List.count_append, List.count_append, hname, hcolon, typeTexts, typeTexts,
        List.flatMap_cons, List.count_append, List.length_cons]
      omega

/-- The colons of the parameters: one for each, and those in the texts of the types. -/
theorem count_colon_paramsText (hnames : ∀ b ∈ bindings, IsIdentifier b.name.toList) :
    (paramsText bindings).count ':' = bindings.length + (typeTexts bindings).count ':' := by
  have hbars (cs : List Char) : ('|' :: (cs ++ ['|'])).count ':' = cs.count ':' := by
    rw [List.count_cons_of_ne (by decide), List.count_append]
    rfl
  rw [paramsText, hbars, count_colon_commas, count_colon_bindingTexts hnames]

/-- Every binding is a name before a colon. -/
theorem map_name_subset (hnames : ∀ b ∈ bindings, IsIdentifier b.name.toList)
    (hquote : ∀ b ∈ bindings, '"' ∉ b.type.calcText.toList) :
    bindings.map (·.name) ⊆ namesBeforeColons (withoutErrors (lexemes 0 (paramsText bindings))) := by
  intro name hname
  obtain ⟨b, hb, rfl⟩ := List.mem_map.mp hname
  obtain ⟨before, after, hsplit, hbefore⟩ := exists_split_commas (List.mem_map_of_mem hb)
  have htext : paramsText bindings =
      ('|' :: before) ++ (b.name.toList ++ ':' :: (' ' :: (b.type.calcText.toList ++
        (after ++ ['|'])))) := by
    rw [paramsText, hsplit, toList_bindingText]
    simp
  have hopens : OpensName ('|' :: before) := by
    rcases hbefore with rfl | ⟨earlier, rfl⟩
    · exact .inl rfl
    · exact .inr ⟨'|' :: earlier, rfl⟩
  have hno : '"' ∉ '|' :: before := by
    have hall := no_quote_paramsText hnames hquote
    rw [htext] at hall
    exact fun hmem => hall (List.mem_append_left _ hmem)
  have hread := mem_namesBeforeColons_of_text hopens hno (hnames b hb)
  rw [String.ofList_toList] at hread
  rw [htext]
  exact hread _

/-- Without quotes in the parameters, the arrow behind them is read as such. -/
theorem exists_tokenize_of_no_quote_params (hquote : '"' ∉ paramsText bindings)
    (expected : SemanticType) (body : String) :
    ∃ arrow, arrow.token = .arrow ∧ tokenize (synthesize bindings expected body) =
      lexemes 0 (paramsText bindings) ++ arrow ::
        lexemes (byteLength (paramsText bindings) + byteLength " -> ".toList)
          (expected.calcText.toList ++ ' ' :: '\x7b' :: (body.toList ++ ['\x7d'])) := by
  have hapart : ∀ d ∈ (" -> ".toList ++ (expected.calcText.toList ++
      ' ' :: '\x7b' :: (body.toList ++ ['\x7d']))).head?, Apart d := by
    intro d hd
    cases hd
    decide
  obtain ⟨arrow, harrow, hread⟩ := lexes_arrow (expected.calcText.toList ++
    ' ' :: '\x7b' :: (body.toList ++ ['\x7d'])) (byteLength (paramsText bindings))
  obtain ⟨arrow, rfl, htoken⟩ := List.map_eq_singleton_iff.mp harrow
  refine ⟨arrow, htoken, ?_⟩
  have hsource : (synthesize bindings expected body).toList = paramsText bindings ++
      (" -> ".toList ++ (expected.calcText.toList ++
        ' ' :: '\x7b' :: (body.toList ++ ['\x7d']))) := by
    rw [toList_synthesize, headerText]
    simp only [List.append_assoc, List.cons_append, List.nil_append]
  rw [tokenize, hsource, lexemes_append hapart (not_endsUnterminated_of_no_quote hquote 0),
    Nat.zero_add, hread]
  rfl

end Header

/-- A lambda was read from the tokens of its wrapper that are no error tokens. -/
theorem exists_parts_of_wrapper? {source : String} {tree : Tree} {lambda : Lambda}
    (hwrapper : Tree.wrapper? source = some tree) (hlambda : tree.lambda = some lambda) :
    tree.lexemes = tokenize source ∧
      ∃ parts, withoutErrors (tokenize source) = parts.tokens ∧ lambda.ReadFrom parts := by
  simp only [Tree.wrapper?, Option.bind_eq_bind, Option.bind_eq_some_iff] at hwrapper
  obtain ⟨body, -, htree⟩ := hwrapper
  obtain rfl := Option.some.inj htree
  obtain ⟨after, hyields, hafter⟩ := parseWrapper_fst hlambda
  obtain ⟨read, hreads, parts, rfl, hparts⟩ := Parser.sound_lambda hyields
  refine ⟨rfl, parts, ?_, hparts⟩
  have hrest := hreads.rest
  rwa [hafter, List.append_nil] at hrest

section Lambdas

variable {bindings : List Binding} {expected : SemanticType} {body : String} {tree : Tree}
  {lambda : Lambda} (hwrapper : Tree.wrapper? (synthesize bindings expected body) = some tree)
  (hlambda : tree.lambda = some lambda) (hnames : ∀ b ∈ bindings, IsIdentifier b.name.toList)
  (hquote : ∀ b ∈ bindings, '"' ∉ b.type.calcText.toList)

include hwrapper hlambda hnames hquote

/-- Without quotes in the types, the parameters of a lambda are those that were written. -/
theorem declared_of_wrapper :
    Declared (withoutErrors (lexemes 0 (paramsText bindings))) lambda.params := by
  obtain ⟨-, parts, htokens, hparts⟩ := exists_parts_of_wrapper? hwrapper hlambda
  obtain ⟨arrow, harrow, hread⟩ :=
    exists_tokenize_of_no_quote_params (no_quote_paramsText hnames hquote) expected body
  rw [hread, withoutErrors_append, withoutErrors_cons (by simp [harrow])] at htokens
  rw [hparts.inParams_eq harrow htokens]
  exact hparts.params.declared

/-- The lambda has one parameter for each binding and one more for each colon in a type. -/
theorem length_params : lambda.params.length =
    bindings.length + (typeTexts bindings).count ':' := by
  rw [← (declared_of_wrapper hwrapper hlambda hnames hquote).colons, colons_withoutErrors,
    colons_lexemes (no_quote_paramsText hnames hquote), count_colon_paramsText hnames]

theorem map_name_subset_params :
    bindings.map (·.name) ⊆ lambda.params.map (·.name) := by
  rw [← (declared_of_wrapper hwrapper hlambda hnames hquote).names]
  exact map_name_subset hnames hquote

/-- The parameters are those that were meant just if no type contains a colon. -/
theorem exact_iff_no_colon (hnodup : (bindings.map (·.name)).Nodup) :
    ((lambda.params.map (·.name)).Nodup ∧
      ∀ name, name ∈ lambda.params.map (·.name) ↔ name ∈ bindings.map (·.name)) ↔
      ∀ b ∈ bindings, ':' ∉ b.type.calcText.toList := by
  have hlength := length_params hwrapper hlambda hnames hquote
  rw [← not_mem_typeTexts_iff]
  constructor
  · rintro ⟨hnodup', hmem⟩
    have hperm := (List.perm_ext_iff_of_nodup hnodup' hnodup).mpr hmem
    have hsame := hperm.length_eq
    rw [List.length_map, List.length_map] at hsame
    exact List.count_eq_zero.mp (by omega)
  · intro hno
    rw [List.count_eq_zero.mpr hno] at hlength
    have hsub := hnodup.subperm (map_name_subset_params hwrapper hlambda hnames hquote)
    have hperm := hsub.perm_of_length_le (by rw [List.length_map, List.length_map]; omega)
    exact ⟨hperm.nodup_iff.mp hnodup, fun name => hperm.mem_iff.symm⟩

end Lambdas

end ExprVet.Calc
