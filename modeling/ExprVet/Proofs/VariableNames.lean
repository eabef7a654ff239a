import ExprVet.Proofs.Declarations

/-!
# Names of variables that are typed in

A variable is declared under any name of letters, digits and underscores, whatever their script. The
lexer has a narrower idea of a name. So a declared variable can be referenced just if its name is
plain: in ASCII, without a digit in front, and no keyword.
-/

namespace ExprVet

namespace Text

/-- The tables list no ASCII characters. -/
theorem isAlphanum_of_isAlphanumeric {c : Char} (h : isAlphanumeric c = true)
    (hascii : c.toNat < 128) : c.isAlphanum = true := by
  have hranges : ∀ range ∈ alphanumericRanges, 128 ≤ range.1 := by decide +kernel
  rw [isAlphanumeric, Bool.or_eq_true] at h
  refine h.resolve_right fun hlisted => ?_
  obtain ⟨range, hmem, hrange⟩ := List.any_eq_true.mp hlisted
  rw [Bool.and_eq_true, decide_eq_true_eq, decide_eq_true_eq] at hrange
  have hlow := hranges range hmem
  omega

end Text

/-- The name of an accepted variable is a word of letters, digits and underscores. -/
theorem name_of_parseBinding {text name : String} {type : SemanticType}
    (h : parseBinding text = .ok (name, type)) :
    name.toList ≠ [] ∧ ∀ c ∈ name.toList, (Text.isAlphanumeric c || c == '_') = true := by
  unfold parseBinding at h
  split at h
  · cases h
  · rename_i before after _
    dsimp only at h
    split at h
    · cases h
    · rename_i hempty
      split at h
      · rename_i hall
        cases h
        rw [String.toList_ofList]
        refine ⟨fun hnil => hempty ?_, List.all_eq_true.mp hall⟩
        rw [hnil]
        rfl
      · cases h

namespace Calc

/-- In ASCII, without a digit in front, and no keyword. -/
structure Plain (name : String) : Prop where
  ascii : ∀ c ∈ name.toList, c.toNat < 128
  start : ∀ c ∈ name.toList.head?, isDigit c = false
  not_keyword : name ∉ keywords

theorem isNameChar_iff {c : Char} : isNameChar c = true ↔ c.isAlphanum = true ∨ c = '_' := by
  have hupper : c.isUpper = decide ('A' ≤ c ∧ c ≤ 'Z') := rfl
  have hlower : c.isLower = (decide ('a' ≤ c) && decide (c ≤ 'z')) := rfl
  have hdigit : c.isDigit = (decide ('0' ≤ c) && decide (c ≤ '9')) := rfl
  have halphanum : c.isAlphanum = (c.isUpper || c.isLower || c.isDigit) := rfl
  rw [halphanum, hupper, hlower, hdigit]
  simp only [isNameChar, isNameStart, isDigit, Bool.or_eq_true, Bool.and_eq_true,
    decide_eq_true_eq, beq_iff_eq]
  exact or_right_comm

theorem toNat_lt_of_isNameChar {c : Char} (h : isNameChar c = true) : c.toNat < 128 := by
  simp only [isNameChar, isNameStart, isDigit, Bool.or_eq_true, Bool.and_eq_true,
    decide_eq_true_eq, beq_iff_eq, Char.le_def, UInt32.le_iff_toNat_le] at h
  change c.val.toNat < 128
  have hZ : 'Z'.val.toNat = 90 := rfl
  have hz : 'z'.val.toNat = 122 := rfl
  have h9 : '9'.val.toNat = 57 := rfl
  rcases h with ((h | h) | rfl) | h
  · omega
  · omega
  · decide
  · omega

/-- Of the characters of accepted names, the lexer knows those in ASCII. -/
theorem isNameChar_iff_ascii {c : Char} (h : (Text.isAlphanumeric c || c == '_') = true) :
    isNameChar c = true ↔ c.toNat < 128 := by
  rw [Bool.or_eq_true, beq_iff_eq] at h
  refine ⟨toNat_lt_of_isNameChar, fun hascii => isNameChar_iff.mpr ?_⟩
  exact h.imp_left fun halphanumeric => Text.isAlphanum_of_isAlphanumeric halphanumeric hascii

theorem isNameStart_iff {c : Char} :
    isNameStart c = true ↔ isNameChar c = true ∧ isDigit c = false := by
  rw [isNameChar, Bool.or_eq_true]
  constructor
  · intro hstart
    refine ⟨.inl hstart, Bool.eq_false_iff.mpr fun hdigit => ?_⟩
    simp only [isNameStart, isDigit, Bool.or_eq_true, Bool.and_eq_true, decide_eq_true_eq,
      beq_iff_eq, Char.le_def, UInt32.le_iff_toNat_le] at hstart hdigit
    have hA : 'A'.val.toNat = 65 := rfl
    have ha : 'a'.val.toNat = 97 := rfl
    have h9 : '9'.val.toNat = 57 := rfl
    rcases hstart with (hstart | hstart) | rfl
    · omega
    · omega
    · revert hdigit
      decide
  · rintro ⟨hstart | hdigit, hnot⟩
    · exact hstart
    · rw [hdigit] at hnot
      cases hnot

/-- The accepted names that are identifiers of the lexer are the plain ones. -/
theorem isIdentifier_iff_plain {name : String} (hne : name.toList ≠ [])
    (hchars : ∀ c ∈ name.toList, (Text.isAlphanumeric c || c == '_') = true) :
    IsIdentifier name.toList ↔ Plain name := by
  obtain ⟨c, cs, hname⟩ := List.exists_cons_of_ne_nil hne
  have hascii : (∀ d ∈ name.toList, isNameChar d = true) ↔ ∀ d ∈ name.toList, d.toNat < 128 :=
    forall₂_congr fun d hd => isNameChar_iff_ascii (hchars d hd)
  have hword : IsIdentifier name.toList ↔ (∀ d ∈ name.toList, isNameChar d = true) ∧
      isDigit c = false ∧ name ∉ keywords := by
    conv_lhs => rw [hname, isIdentifier_cons_iff, ← hname, String.ofList_toList, isNameStart_iff]
    rw [hname, List.forall_mem_cons, List.all_eq_true]
    tauto
  rw [hword, hascii]
  constructor
  · rintro ⟨hascii, hstart, hkeyword⟩
    refine ⟨hascii, fun d hd => ?_, hkeyword⟩
    rw [hname] at hd
    cases hd
    exact hstart
  · rintro ⟨hascii, hstart, hkeyword⟩
    exact ⟨hascii, hstart c (by rw [hname]; rfl), hkeyword⟩

/-- A name on its own is read as one token, the name. -/
def ReadsAsName (name : String) : Prop :=
  ∃ span, tokenize name = [⟨.ident name, name.toList, span⟩]

theorem readsAsName_iff {name : String} : ReadsAsName name ↔ IsIdentifier name.toList := by
  constructor
  · rintro ⟨span, hread⟩
    have hmem : ⟨.ident name, name.toList, span⟩ ∈ lexemes 0 name.toList := by
      rw [← tokenize, hread]
      exact List.mem_singleton_self _
    exact (text_of_ident hmem rfl).2
  · intro hident
    obtain ⟨c, cs, hname, hstart, hcs⟩ := hident.start
    have htake : cs.takeWhile isNameChar = cs := List.takeWhile_eq_self_iff.mpr hcs
    have hfirst : firstToken c cs = (.ident name, cs.length) := by
      rw [firstToken_word hstart, htake, ← hname]
      exact congrArg (·, _) (wordToken_eq_ident_iff.mpr
        ⟨String.ofList_toList, by simpa using hident.not_keyword⟩)
    refine ⟨⟨0, 0 + Text.byteLength (c :: cs)⟩, ?_⟩
    rw [tokenize, hname, lexemes_token (isSeparator_of_isNameStart hstart) hfirst,
      List.take_length, List.drop_length, lexemes_nil]

theorem ReadsAsName.identifiers_eq {name : String} (h : ReadsAsName name) :
    (Tree.discovery name).identifiers = [name] := by
  obtain ⟨span, hread⟩ := h
  have hnodes : (Tree.discovery name).nodes.filter (·.kind == .identifier) =
      [⟨.identifier, String.ofList name.toList, span⟩] := by
    change (_ :: Tree.nodesOf (tokenize name)).filter _ = _
    rw [hread]
    rfl
  rw [Tree.identifiers, hnodes, List.map_singleton, String.ofList_toList]
  rfl

end Calc

/-- An accepted variable can be referenced just if its name is plain. Then the lexer reads the name
on its own as one identifier, and the variable is the only one that a snippet consisting of the name
is resolved to. -/
theorem referable_iff_plain {text name : String} {type : SemanticType}
    (h : parseBinding text = .ok (name, type)) (scope : VariableScope) (imports : List String)
    (expected : SemanticType) :
    (Calc.ReadsAsName name ↔ Calc.Plain name) ∧
    ((⟨name, imports, (scope.declare name type).lookup, expected⟩ : Descriptor).bindings =
      [⟨name, type⟩] ↔ Calc.Plain name) := by
  obtain ⟨hne, hchars⟩ := name_of_parseBinding h
  have hplain := Calc.isIdentifier_iff_plain hne hchars
  have hreads : Calc.ReadsAsName name ↔ Calc.Plain name := Calc.readsAsName_iff.trans hplain
  refine ⟨hreads, fun hbindings => hplain.mp ?_, fun hname => ?_⟩
  · have hmem : name ∈ (Descriptor.bindings ⟨name, imports, (scope.declare name type).lookup,
        expected⟩).map (·.name) := by
      rw [hbindings]
      exact List.mem_singleton_self _
    rw [Descriptor.bindings, mem_map_name_resolveNames] at hmem
    exact Calc.isIdentifier_of_mem_identifiers hmem.1
  · change resolveNames (scope.declare name type).lookup (Calc.Tree.discovery name).identifiers = _
    rw [(hreads.mpr hname).identifiers_eq, resolveNames, List.filterMap_cons,
      VariableScope.lookup_declare_self]
    rfl

/-- A name with letters of both cases and a digit can be referenced. -/
theorem mixedName_referable : parseBinding "aB2: Int" = .ok ("aB2", .integer) ∧
    Calc.ReadsAsName "aB2" ∧
    (⟨"aB2", [], (VariableScope.declare ⟨[], []⟩ "aB2" .integer).lookup,
      .object⟩ : Descriptor).bindings = [⟨"aB2", .integer⟩] := by
  have hparse : parseBinding "aB2: Int" = .ok ("aB2", .integer) := rfl
  have hchars : "aB2".toList = ['a', 'B', '2'] := rfl
  have hplain : Calc.Plain "aB2" := by
    refine ⟨?_, ?_, by decide⟩
    · rw [hchars]
      simp
    · rintro _ ⟨⟩
      rfl
  obtain ⟨hreads, hbindings⟩ := referable_iff_plain hparse ⟨[], []⟩ [] .object
  exact ⟨hparse, hreads.mpr hplain, hbindings.mpr hplain⟩

/-- The keyword `if`, the digit `1` and the letter `é` are accepted as names of variables. The first
and the last cannot be read in a snippet, and the second is read as an integer. -/
theorem keyword_digit_letter_declared :
    (parseBinding "if: Int" = .ok ("if", .integer) ∧ ¬ Calc.ReadsAsName "if" ∧
      check .standard ⟨"if", .object, [("if", .integer)], [], []⟩ =
        .ok [⟨"E001: found '\x7d' expected expression", false, some ⟨2, 2⟩⟩]) ∧
    (parseBinding "1: Str" = .ok ("1", .string) ∧ ¬ Calc.ReadsAsName "1" ∧
      check .standard ⟨"1", .string, [("1", .string)], [], []⟩ =
        .ok [⟨"E300: expression of type `Int` cannot be converted to `Str`", false,
          some ⟨0, 1⟩⟩]) ∧
    (parseBinding "é: Int" = .ok ("é", .integer) ∧ ¬ Calc.ReadsAsName "é" ∧
      check .standard ⟨"é", .object, [("é", .integer)], [], []⟩ =
        .ok [⟨"E001: unexpected character `é`", false, some ⟨0, 2⟩⟩,
          ⟨"E001: found '\x7d' expected expression", false, some ⟨2, 2⟩⟩]) := by
  have hunread {name : String} (h : ¬ Calc.IsIdentifier name.toList) : ¬ Calc.ReadsAsName name :=
    fun hreads => h (Calc.readsAsName_iff.mp hreads)
  refine ⟨⟨rfl, hunread (by decide), ?keyword⟩, ⟨rfl, hunread (by decide), ?digit⟩,
    rfl, hunread (by decide), ?letter⟩
  all_goals decide +kernel

end ExprVet
