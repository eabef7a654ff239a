import ExprVet.Scenario.Case
import ExprVet.Proofs.Lines

/-!
# Written scenario files

A list of cases is written as the scenario format says and read back. The lines between two cases
and after the last one may be any that begin no case, and the directives of a case may stand in any
order. Of all lines only those of a snippet are read with the blanks at their ends, so everything
else is read from its trimmed lines.
-/

namespace ExprVet.Scenario

open Text

/-- One line without blanks at its ends. -/
def Plain (text : String) : Prop := '\n' ∉ text.toList ∧ trim text.toList = text.toList

instance : DecidablePred Plain := fun text =>
  inferInstanceAs (Decidable ('\n' ∉ text.toList ∧ trim text.toList = text.toList))

/-- A type that is given by its name alone. -/
def IsNamed (type : SemanticType) : Prop := type = .ofName type.name ∧ Plain type.name

/-- A line that begins a case. -/
def BeginsCase (line : List Char) : Prop := "# test:".toList <+: trim line

instance : DecidablePred BeginsCase := fun line =>
  inferInstanceAs (Decidable ("# test:".toList <+: trim line))

def labelled (key value : String) : String := "# " ++ key ++ ": " ++ value

def unlines (lines : List String) : String := String.join (lines.map (· ++ "\n"))

namespace Directive

def key : Directive → String
  | .type _ => "type"
  | .variable _ _ => "var"
  | .import _ => "import"
  | .module _ => "module"
  | .skip _ => "skip"

def value : Directive → String
  | .type expected => expected.name
  | .variable name declared => name ++ " = " ++ declared.name
  | .import name => name
  | .module id => id
  | .skip reason => reason

def line (directive : Directive) : String := labelled directive.key directive.value

/-- The line of the directive can be read back. -/
def Writable : Directive → Prop
  | .type expected => IsNamed expected
  | .variable name declared => Plain name ∧ '=' ∉ name.toList ∧ IsNamed declared
  | .import name => Plain name
  | .module id => Plain id
  | .skip reason => Plain reason

def expected? : Directive → Option SemanticType
  | .type expected => some expected
  | _ => none

def declaration? : Directive → Option (String × SemanticType)
  | .variable name declared => some (name, declared)
  | _ => none

def imported? : Directive → Option String
  | .import name => some name
  | _ => none

def module? : Directive → Option ModuleId
  | .module id => some id
  | _ => none

def skip? : Directive → Option String
  | .skip reason => some reason
  | _ => none

end Directive

namespace Case

/-- The lines of a case with its directives in some order. -/
def written (case : Case) (directives : List Directive) : List String :=
  labelled "test" case.name :: (directives.map Directive.line ++
    "---" :: case.input :: "---" :: (case.expected ++ ["==="]))

/-- The directives tell what the case needs. A case of the type of all objects may leave its type
out. -/
structure DescribedBy (case : Case) (directives : List Directive) : Prop where
  type : directives.filterMap Directive.expected? = [case.expectedType] ∨
    directives.filterMap Directive.expected? = [] ∧ case.expectedType = .object
  declarations : directives.filterMap Directive.declaration? = case.declarations
  imports : directives.filterMap Directive.imported? = case.imports
  modules : directives.filterMap Directive.module? = case.modules
  skip : directives.filterMap Directive.skip? = case.skip.toList

/-- The directives in the order in which the format lists them. -/
def directives (case : Case) : List Directive :=
  .type case.expectedType :: (case.declarations.map (fun (name, type) => .variable name type) ++
    case.imports.map .import ++ case.modules.map .module ++ case.skip.toList.map .skip)

theorem filterMap_directives {α : Type} (f : Directive → Option α) (case : Case) :
    case.directives.filterMap f = (f (.type case.expectedType)).toList ++
      case.declarations.filterMap (fun (name, type) => f (.variable name type)) ++
      case.imports.filterMap (fun name => f (.import name)) ++
      case.modules.filterMap (fun id => f (.module id)) ++
      case.skip.toList.filterMap (fun reason => f (.skip reason)) := by
  rw [directives, List.filterMap_cons]
  cases f (.type case.expectedType) <;> simp [List.filterMap_append]

theorem describedBy_directives (case : Case) : case.DescribedBy case.directives where
  type := .inl (by simp [filterMap_directives, Directive.expected?])
  declarations := by simp [filterMap_directives, Directive.declaration?]
  imports := by simp [filterMap_directives, Directive.imported?]
  modules := by simp [filterMap_directives, Directive.module?]
  skip := by simp [filterMap_directives, Directive.skip?]

/-- What the format can say of a case. Only the snippet has more than one line. -/
structure Writable (case : Case) : Prop where
  name : Plain case.name
  expectedType : IsNamed case.expectedType
  declarations : ∀ declaration ∈ case.declarations,
    Plain declaration.1 ∧ '=' ∉ declaration.1.toList ∧ IsNamed declaration.2
  imports : ∀ name ∈ case.imports, Plain name
  modules : ∀ id ∈ case.modules, Plain id
  skip : ∀ reason ∈ case.skip, Plain reason
  /-- No line of the snippet ends it or ends with a carriage return. -/
  input : ∀ line ∈ case.input.toList.splitOn '\n',
    trim line ≠ "---".toList ∧ line.getLast? ≠ some '\r'
  expected : ∀ line ∈ case.expected, Plain line ∧ line ≠ "" ∧ line ≠ "==="

end Case

/-- A case in a file with the lines just before it. -/
structure Entry where
  gap : List String
  directives : List Directive
  case : Case

namespace Entry

def lines (entry : Entry) : List String := entry.gap ++ entry.case.written entry.directives

structure Writable (entry : Entry) : Prop where
  gap : ∀ line ∈ entry.gap, '\n' ∉ line.toList ∧ ¬ BeginsCase line.toList
  directives : entry.case.DescribedBy entry.directives
  case : entry.case.Writable

end Entry

/-- The cases of the entries, each on the line after the newlines before its header. -/
def placed (above : String) : List Entry → List Case
  | [] => []
  | entry :: entries =>
      { entry.case with
        line := (above ++ unlines entry.gap).toList.count '\n' + 1
        problems := [] } :: placed (above ++ unlines entry.lines) entries

/-- The lines of texts that each end with a newline. -/
def cutLines (texts : List String) : List (List Char) := texts.flatMap (linesOf ·.toList)

@[simp] theorem cutLines_nil : cutLines [] = [] := rfl

@[simp] theorem cutLines_cons (text : String) (texts : List String) :
    cutLines (text :: texts) = linesOf text.toList ++ cutLines texts := List.flatMap_cons

@[simp] theorem cutLines_append (texts more : List String) :
    cutLines (texts ++ more) = cutLines texts ++ cutLines more := List.flatMap_append

theorem cutLines_of_forall_not_mem {texts : List String} (h : ∀ text ∈ texts, '\n' ∉ text.toList) :
    cutLines texts = texts.map (dropReturn ·.toList) := by
  induction texts with
  | nil => rfl
  | cons text texts ih =>
      rw [List.forall_mem_cons] at h
      rw [cutLines_cons, linesOf_of_not_mem h.1, ih h.2]
      rfl

theorem toList_unlines_cons (text : String) (texts : List String) :
    (unlines (text :: texts)).toList = text.toList ++ '\n' :: (unlines texts).toList := by
  simp [unlines]

theorem lines_unlines (texts : List String) (rest : List Char) :
    Text.lines ((unlines texts).toList ++ rest) = cutLines texts ++ Text.lines rest := by
  induction texts with
  | nil => simp [unlines]
  | cons text texts ih =>
      rw [toList_unlines_cons, List.append_assoc, List.cons_append, lines_append, ih, cutLines_cons,
        List.append_assoc]

theorem count_unlines (texts : List String) :
    (unlines texts).toList.count '\n' = (cutLines texts).length := by
  induction texts with
  | nil => rfl
  | cons text texts ih =>
      rw [toList_unlines_cons, cutLines_cons, List.length_append, length_linesOf, List.count_append,
        List.count_cons_self, ih]
      omega

theorem trim_labelled (key value : String) : trim (labelled key value).toList =
    '#' :: ' ' :: (key.toList ++ ':' :: trimEnd (' ' :: value.toList)) := by
  have htext : (labelled key value).toList =
      [] ++ '#' :: ((' ' :: key.toList) ++ ':' :: ' ' :: value.toList) := by simp [labelled]
  rw [htext, trim_append_cons (by decide), trimEnd_append_cons (by decide)]
  rfl

theorem trim_trimEnd_space (value : List Char) : trim (trimEnd (' ' :: value)) = trim value := by
  rw [trim_trimEnd, trim_cons (by decide)]

theorem keyValue?_labelled {key : String} (hkey : trim key.toList = key.toList)
    (hcolon : ':' ∉ key.toList) (value : String) :
    keyValue? (trim (labelled key value).toList) = some (key, trim value.toList) := by
  have hcut : cutAt? (· == ':') (' ' :: key.toList ++ ':' :: trimEnd (' ' :: value.toList)) =
      some (' ' :: key.toList, trimEnd (' ' :: value.toList)) :=
    cutAt?_append (by grind) (by simp)
  have hkey' : trim (' ' :: key.toList) = key.toList := (trim_cons (by decide) _).trans hkey
  rw [trim_labelled, keyValue?, ← List.cons_append, hcut]
  simp only [Option.map_some, hkey', trim_trimEnd_space, String.ofList_toList]

theorem header?_labelled {name : String} (h : trim name.toList = name.toList) :
    header? (labelled "test" name).toList = some name := by
  have hline : trim (labelled "test" name).toList =
      "# test:".toList ++ trimEnd (' ' :: name.toList) := trim_labelled "test" name
  rw [header?, hline, if_pos (by simp), List.drop_left, trim_trimEnd_space, h, String.ofList_toList]

theorem header?_eq_none {line : List Char} (h : ¬ BeginsCase line) : header? line = none :=
  if_neg (by simpa [BeginsCase] using h)

@[simp] theorem header?_dropReturn (line : List Char) : header? (dropReturn line) = header? line := by
  rw [header?, header?, trim_dropReturn]

namespace Directive

theorem plain_key (directive : Directive) :
    Plain directive.key ∧ ':' ∉ directive.key.toList := by
  have hkeys : ∀ key ∈ ["type", "var", "import", "module", "skip"],
      Plain key ∧ ':' ∉ key.toList := by decide
  exact hkeys _ (by cases directive <;> simp [key])

theorem not_newline_mem_line {directive : Directive} (h : directive.Writable) :
    '\n' ∉ directive.line.toList := by
  have hvalue : '\n' ∉ directive.value.toList := by
    cases directive with
    | type expected => exact h.2.1
    | «variable» name declared =>
        obtain ⟨hname, -, -, htype⟩ := h
        simp [value, hname.1, htype.1]
    | «import» name => exact h.1
    | module id => exact h.1
    | skip reason => exact h.1
  simp [line, labelled, (plain_key directive).1.1, hvalue]

theorem keyValue?_line (directive : Directive) :
    keyValue? (trim directive.line.toList) = some (directive.key, trim directive.value.toList) :=
  keyValue?_labelled (plain_key directive).1.2 (plain_key directive).2 _

theorem read_line {directive : Directive} (h : directive.Writable) :
    Directive.read (trim directive.line.toList) = .ok directive := by
  rw [Directive.read, keyValue?_line]
  cases directive with
  | type expected =>
      obtain ⟨hofName, -, htrim⟩ := h
      simp only [key, value, htrim, String.ofList_toList]
      rw [← hofName]
  | «variable» name declared =>
      obtain ⟨⟨-, hname⟩, hequals, hofName, -, htype⟩ := h
      have hvalue : trim (name ++ " = " ++ declared.name).toList =
          trimStart (name.toList ++ [' ']) ++ '=' :: trimEnd (' ' :: declared.name.toList) := by
        rw [← trim_append_cons (by decide)]
        simp
      have hcut : cutAt? (· == '=') (trim (name ++ " = " ++ declared.name).toList) =
          some (trimStart (name.toList ++ [' ']), trimEnd (' ' :: declared.name.toList)) := by
        rw [hvalue]
        refine cutAt?_append (fun x hx => ?_) (by simp)
        have := (List.dropWhile_sublist _).subset hx
        grind
      simp only [key, value, hcut, trim_trimStart, trim_concat (by decide : isBlank ' ' = true),
        hname, trim_trimEnd_space, htype, String.ofList_toList]
      rw [← hofName]
  | «import» name => simp only [key, value, h.2, String.ofList_toList]
  | module id => simp only [key, value, h.2, String.ofList_toList]
  | skip reason => simp only [key, value, h.2, String.ofList_toList]

end Directive

namespace Case

theorem addLine_line (case : Case) {directive : Directive} (h : directive.Writable) :
    case.addLine (trim directive.line.toList) = case.apply directive := by
  have hnonempty : (trim directive.line.toList).isEmpty = false := by
    rw [Directive.line, trim_labelled, List.isEmpty_cons]
  rw [addLine, hnonempty, if_neg (by simp), Directive.read_line h]

theorem foldl_addLine {directives : List Directive} (h : ∀ directive ∈ directives, directive.Writable)
    (case : Case) :
    (directives.map (trim ·.line.toList)).foldl addLine case = directives.foldl apply case := by
  rw [List.foldl_map]
  exact List.foldl_ext _ _ _ fun case directive hmem => addLine_line case (h directive hmem)

/-- The last type and the last reason count, everything else adds up in order. -/
theorem foldl_apply (directives : List Directive) (case : Case) :
    directives.foldl apply case = { case with
      expectedType := (directives.filterMap Directive.expected?).getLastD case.expectedType
      declarations := case.declarations ++ directives.filterMap Directive.declaration?
      imports := case.imports ++ directives.filterMap Directive.imported?
      modules := case.modules ++ directives.filterMap Directive.module?
      skip := (directives.filterMap Directive.skip?).getLast?.or case.skip } := by
  induction directives generalizing case with
  | nil => simp
  | cons directive directives ih =>
      rw [List.foldl_cons, ih]
      cases directive <;>
        simp [apply, List.filterMap_cons, Directive.expected?, Directive.declaration?,
          Directive.imported?, Directive.module?, Directive.skip?, List.getLast?_cons]

theorem foldl_apply_named {case : Case} {directives : List Directive}
    (h : case.DescribedBy directives) (line : Nat) :
    directives.foldl apply (named case.name line) =
      { case with line, input := "", expected := [], problems := [] } := by
  have htype : (directives.filterMap Directive.expected?).getLastD .object = case.expectedType := by
    obtain htypes | ⟨htypes, hobject⟩ := h.type
    · rw [htypes, List.getLastD_cons, List.getLastD_nil]
    · rw [htypes, hobject, List.getLastD_nil]
  have hskip : case.skip.toList.getLast?.or none = case.skip := by cases case.skip <;> rfl
  rw [foldl_apply, h.declarations, h.imports, h.modules, h.skip]
  simp only [named, htype, hskip, List.nil_append]

theorem Writable.directive {case : Case} (h : case.Writable) {directives : List Directive}
    (hdescribed : case.DescribedBy directives) {directive : Directive}
    (hmem : directive ∈ directives) : directive.Writable := by
  have hlisted {α : Type} (part : Directive → Option α) {x : α} (hx : part directive = some x) :
      x ∈ directives.filterMap part :=
    List.mem_filterMap.mpr ⟨directive, hmem, hx⟩
  cases directive with
  | type expected =>
      have hexpected := hlisted Directive.expected? rfl
      obtain htypes | ⟨htypes, -⟩ := hdescribed.type
      · rw [htypes, List.mem_singleton] at hexpected
        exact hexpected ▸ h.expectedType
      · simp [htypes] at hexpected
  | «variable» name declared =>
      have hdeclared := hlisted Directive.declaration? rfl
      rw [hdescribed.declarations] at hdeclared
      exact h.declarations (name, declared) hdeclared
  | «import» name =>
      have himported := hlisted Directive.imported? rfl
      rw [hdescribed.imports] at himported
      exact h.imports name himported
  | module id =>
      have hmodule := hlisted Directive.module? rfl
      rw [hdescribed.modules] at hmodule
      exact h.modules id hmodule
  | skip reason =>
      have hskip := hlisted Directive.skip? rfl
      rw [hdescribed.skip] at hskip
      exact h.skip reason (Option.mem_toList.mp hskip)

end Case

theorem splitAtLine_append {stop line : List Char} {before : List (List Char)}
    (hbefore : ∀ l ∈ before, trim l ≠ stop) (hline : trim line = stop) (after : List (List Char)) :
    splitAtLine stop (before ++ line :: after) = (before, after) := by
  have htake : (before ++ line :: after).takeWhile (trim · ≠ stop) = before := by
    rw [List.takeWhile_append_of_pos (by simpa using hbefore),
      List.takeWhile_cons_of_neg (by simp [hline]), List.append_nil]
  rw [splitAtLine, htake, List.drop_left, List.tail_cons]

theorem readFrom_append_of_no_header {above : List (List Char)}
    (h : ∀ line ∈ above, header? line = none) (total : Nat) (rest : List (List Char)) :
    readFrom total (above ++ rest) = readFrom total rest := by
  induction above with
  | nil => rfl
  | cons line above ih =>
      rw [List.forall_mem_cons] at h
      rw [List.cons_append, readFrom, h.1]
      exact ih h.2

theorem readFrom_sections {header : List Char} {name : String} (hheader : header? header = some name)
    {directives input expected : List (List Char)}
    (hdirectives : ∀ line ∈ directives, trim line ≠ "---".toList)
    (hinput : ∀ line ∈ input, trim line ≠ "---".toList)
    (hexpected : ∀ line ∈ expected, trim line ≠ "===".toList)
    (total : Nat) (rest : List (List Char)) :
    let below := directives ++ "---".toList :: (input ++ "---".toList ::
      (expected ++ "===".toList :: rest))
    readFrom total (header :: below) =
      { (directives.map trim).foldl Case.addLine (.named name (total - below.length)) with
        input := String.ofList (['\n'].intercalate input)
        expected := ((expected.map trim).filter (!·.isEmpty)).map String.ofList } ::
        readFrom total rest := by
  intro below
  have hdashes : trim "---".toList = "---".toList := by decide
  have hend : trim "===".toList = "===".toList := by decide
  have hbelow : splitAtLine "---".toList below = (directives, _) :=
    splitAtLine_append hdirectives hdashes _
  rw [readFrom, hheader]
  simp only [hbelow, splitAtLine_append hinput hdashes, splitAtLine_append hexpected hend]

namespace Case

variable {case : Case} {directives : List Directive}

theorem linesOf_written (h : case.Writable) (hdescribed : case.DescribedBy directives) :
    cutLines (case.written directives) =
      dropReturn (labelled "test" case.name).toList ::
        (directives.map (dropReturn ·.line.toList) ++ "---".toList ::
          (linesOf case.input.toList ++ "---".toList ::
            (case.expected.map (dropReturn ·.toList) ++ ["===".toList]))) := by
  have hheader : '\n' ∉ (labelled "test" case.name).toList := by simp [labelled, h.name.1]
  have hdirectives : cutLines (directives.map Directive.line) =
      directives.map (dropReturn ·.line.toList) := by
    rw [cutLines_of_forall_not_mem, List.map_map]
    · rfl
    · rw [List.forall_mem_map]
      exact fun directive hmem => Directive.not_newline_mem_line (h.directive hdescribed hmem)
  have hexpected : cutLines case.expected = case.expected.map (dropReturn ·.toList) :=
    cutLines_of_forall_not_mem fun line hmem => (h.expected line hmem).1.1
  have hdashes : linesOf "---".toList = ["---".toList] := by decide
  have hend : linesOf "===".toList = ["===".toList] := by decide
  simp only [written, cutLines_cons, cutLines_append, cutLines_nil, hdirectives, hexpected, hdashes,
    hend, linesOf_of_not_mem hheader, List.cons_append, List.nil_append, List.append_nil]

/-- No line of the snippet loses anything, so joining its lines gives it back. -/
theorem intercalate_linesOf_input (h : case.Writable) :
    ['\n'].intercalate (linesOf case.input.toList) = case.input.toList := by
  have hkept : linesOf case.input.toList = case.input.toList.splitOn '\n' :=
    (List.map_congr_left fun line hmem => if_neg (h.input line hmem).2).trans (List.map_id _)
  rw [hkept, List.intercalate_splitOn]

theorem read_expected (h : case.Writable) :
    (((case.expected.map (dropReturn ·.toList)).map trim).filter (!·.isEmpty)).map String.ofList =
      case.expected := by
  have htrim : (case.expected.map (dropReturn ·.toList)).map trim =
      case.expected.map String.toList := by
    rw [List.map_map]
    exact List.map_congr_left fun line hmem =>
      (trim_dropReturn line.toList).trans (h.expected line hmem).1.2
  have hnonempty : ∀ line ∈ case.expected.map String.toList, (!line.isEmpty) = true := by
    rw [List.forall_mem_map]
    exact fun line hmem => by simpa using (h.expected line hmem).2.1
  rw [htrim, List.filter_eq_self.mpr hnonempty, List.map_map]
  exact (List.map_congr_left fun line _ => String.ofList_toList).trans (List.map_id _)

/-- The lines that are left of the file tell on which line the case begins. -/
theorem readFrom_written (h : case.Writable) (hdescribed : case.DescribedBy directives)
    (total : Nat) (rest : List (List Char)) :
    readFrom total (cutLines (case.written directives) ++ rest) =
      { case with
        line := total + 1 - (cutLines (case.written directives) ++ rest).length
        problems := [] } :: readFrom total rest := by
  have hheader : header? (dropReturn (labelled "test" case.name).toList) = some case.name := by
    rw [header?_dropReturn, header?_labelled h.name.2]
  have hdirectives : ∀ line ∈ directives.map (dropReturn ·.line.toList),
      trim line ≠ "---".toList := by
    rw [List.forall_mem_map]
    intro directive _
    rw [trim_dropReturn, Directive.line, trim_labelled]
    simp
  have hinput : ∀ line ∈ linesOf case.input.toList, trim line ≠ "---".toList := by
    rw [linesOf, List.forall_mem_map]
    exact fun line hmem => trim_dropReturn line ▸ (h.input line hmem).1
  have hexpected : ∀ line ∈ case.expected.map (dropReturn ·.toList), trim line ≠ "===".toList := by
    rw [List.forall_mem_map]
    intro line hmem
    rw [trim_dropReturn, (h.expected line hmem).1.2, ne_eq, String.toList_inj]
    exact (h.expected line hmem).2.2
  have hfold (line : Nat) : ((directives.map (dropReturn ·.line.toList)).map trim).foldl addLine
      (named case.name line) = { case with line, input := "", expected := [], problems := [] } := by
    simp only [List.map_map, Function.comp_def, trim_dropReturn]
    rw [foldl_addLine fun directive => h.directive hdescribed, foldl_apply_named hdescribed]
  rw [linesOf_written h hdescribed]
  simp only [List.cons_append, List.append_assoc, List.nil_append]
  rw [readFrom_sections hheader hdirectives hinput hexpected, hfold, read_expected h,
    intercalate_linesOf_input h, String.ofList_toList, List.length_cons, Nat.add_sub_add_right]

end Case

theorem Entry.Writable.header?_gap {entry : Entry} (h : entry.Writable) :
    ∀ line ∈ cutLines entry.gap, header? line = none := by
  rw [cutLines_of_forall_not_mem fun line hmem => (h.gap line hmem).1, List.forall_mem_map]
  intro line hmem
  rw [header?_dropReturn, header?_eq_none (h.gap line hmem).2]

/-- The text above and the lines that are left make up the file. -/
theorem readFrom_entries {entries : List Entry} (hentries : ∀ entry ∈ entries, entry.Writable)
    {rest : List (List Char)} (hrest : ∀ line ∈ rest, header? line = none) {total : Nat}
    {above : String} (htotal : total = above.toList.count '\n' +
      (cutLines (entries.flatMap Entry.lines) ++ rest).length) :
    readFrom total (cutLines (entries.flatMap Entry.lines) ++ rest) = placed above entries := by
  -- the text above grows by an entry while the total stays, so lines are counted from the top
  induction entries generalizing above with
  | nil =>
      rw [List.flatMap_nil, cutLines_nil, List.nil_append, ← List.append_nil rest,
        readFrom_append_of_no_header hrest, readFrom, placed]
  | cons entry entries ih =>
      rw [List.forall_mem_cons] at hentries
      obtain ⟨hentry, hentries⟩ := hentries
      have hbelow := @ih hentries (above ++ unlines entry.lines)
      simp only [List.flatMap_cons, Entry.lines, cutLines_append, List.append_assoc,
        List.length_append, String.toList_append, List.count_append, count_unlines] at htotal hbelow ⊢
      rw [readFrom_append_of_no_header hentry.header?_gap,
        Case.readFrom_written hentry.case hentry.directives, hbelow (by omega), placed]
      have hline : total + 1 - (cutLines (entry.case.written entry.directives) ++
          (cutLines (entries.flatMap Entry.lines) ++ rest)).length =
          (above ++ unlines entry.gap).toList.count '\n' + 1 := by
        simp only [String.toList_append, List.count_append, count_unlines, List.length_append]
        omega
      rw [hline]
      rfl

/-- A file that is written in the format is read back, whatever stands between its cases and after
them: the same cases in order, each with the line of its header and without problems. -/
theorem read_written (entries : List Entry) (hentries : ∀ entry ∈ entries, entry.Writable)
    (rest : String) (hrest : ∀ line ∈ Text.lines rest.toList, ¬ BeginsCase line) :
    read (unlines (entries.flatMap Entry.lines) ++ rest) = placed "" entries := by
  have hlines : Text.lines (unlines (entries.flatMap Entry.lines) ++ rest).toList =
      cutLines (entries.flatMap Entry.lines) ++ Text.lines rest.toList := by
    rw [String.toList_append, lines_unlines]
  rw [read, hlines]
  exact readFrom_entries hentries (fun line hmem => header?_eq_none (hrest line hmem)) (by simp)

/-- A case whose snippet looks like the format itself, and one without its type and without lines. -/
def lookalikes : List Entry :=
  let first : Case := { Case.named "look: alike" 0 with
    expectedType := .integer
    declarations := [("x", .integer), ("", .ofName "geo.Point")]
    imports := ["geo"]
    modules := ["geo"]
    input := "# test: inner\n\n  === \n# type: x"
    expected := ["error: E100: undeclared identifier", "# test: no header"] }
  let second : Case := { Case.named "" 0 with skip := some "see: #2" }
  [⟨["", "# between: cases"], first.directives, first⟩, ⟨[], [.skip "see: #2"], second⟩]

theorem read_written_lookalikes :
    (∀ entry ∈ lookalikes, entry.Writable) ∧
      (∀ line ∈ Text.lines "# the end".toList, ¬ BeginsCase line) ∧
      read (unlines (lookalikes.flatMap Entry.lines) ++ "# the end") = placed "" lookalikes ∧
      (placed "" lookalikes).map Case.line = [3, 18] := by
  have hwritable : ∀ entry ∈ lookalikes, entry.Writable := by
    rw [lookalikes, List.forall_mem_cons, List.forall_mem_singleton]
    constructor
    · refine ⟨by decide, Case.describedBy_directives _, by decide, ⟨rfl, by decide⟩, ?_, by decide,
        by decide, by decide, by decide, by decide⟩
      rw [List.forall_mem_cons, List.forall_mem_singleton]
      exact ⟨⟨by decide, by decide, rfl, by decide⟩, by decide, by decide, rfl, by decide⟩
    · exact ⟨by decide, ⟨.inr ⟨rfl, rfl⟩, rfl, rfl, rfl, rfl⟩, by decide, ⟨rfl, by decide⟩, nofun,
        by decide, by decide, by decide, by decide, by decide⟩
  have hlines : Text.lines "# the end".toList = ["# the end".toList] := by
    simp [Text.lines, Text.cutAt?]
  have hrest : ∀ line ∈ Text.lines "# the end".toList, ¬ BeginsCase line := by
    rw [hlines, List.forall_mem_singleton]
    decide
  refine ⟨hwritable, hrest, read_written lookalikes hwritable "# the end" hrest, ?_⟩
  simp only [lookalikes, placed, List.map_cons, List.map_nil, String.toList_append,
    List.count_append, count_unlines]
  decide

end ExprVet.Scenario
