import ExprVet.Proofs.References
import Mathlib.Data.List.Induction
import Mathlib.Data.Prod.Lex
import Mathlib.Order.Bounds.Basic
import Mathlib.Order.WellFounded

/-!
# Inherited declarations

Along a chain of activities each activity takes in those of its declarations that are not there yet,
behind those that are. So a list of declarations only grows from an activity to one inside it, and
`RootFirst`, which says what the list is, is kept by one more declaration and by one more activity.
A declaration that an activity above makes is there already when it is met again.
-/

namespace ExprVet

open Data

/-- Takes in declarations that are not there yet, each behind the ones before. -/
def takeIn (known row : List String) : List String :=
  row.foldl (fun known name => if name ∈ known then known else known ++ [name]) known

@[simp] theorem takeIn_nil (known : List String) : takeIn known [] = known := rfl

theorem takeIn_cons (known : List String) (name : String) (row : List String) :
    takeIn known (name :: row) =
      takeIn (if name ∈ known then known else known ++ [name]) row := rfl

theorem takeIn_concat (known row : List String) (name : String) :
    takeIn known (row ++ [name]) =
      if name ∈ takeIn known row then takeIn known row else takeIn known row ++ [name] :=
  List.foldl_append

theorem prefix_takeIn (known row : List String) : known <+: takeIn known row := by
  induction row generalizing known with
  | nil => exact List.prefix_refl known
  | cons name row ih =>
      rw [takeIn_cons]
      split
      · exact ih known
      · exact (List.prefix_append known [name]).trans (ih _)

theorem eraseDups_concat (names : List String) (name : String) :
    (names ++ [name]).eraseDups =
      if name ∈ names.eraseDups then names.eraseDups else names.eraseDups ++ [name] := by
  rw [List.eraseDups_append]
  by_cases h : name ∈ names
  · simp [List.removeAll, h]
  · simp [List.removeAll, h, List.eraseDups_cons]

/-- Names that are erased where they come again are taken in one after the other. -/
theorem eraseDups_append_eq_takeIn (names row : List String) :
    (names ++ row).eraseDups = takeIn names.eraseDups row := by
  induction row generalizing names with
  | nil => rw [List.append_nil, takeIn_nil]
  | cons name row ih => rw [List.append_cons, ih, eraseDups_concat, takeIn_cons]

theorem eraseDups_flatten_eq_foldl (rows : List (List String)) :
    rows.flatten.eraseDups = rows.foldl takeIn [] := by
  induction rows using List.reverseRecOn with
  | nil => rfl
  | append_singleton rows row ih =>
      rw [List.flatten_concat, eraseDups_append_eq_takeIn, ih, List.foldl_append,
        List.foldl_cons, List.foldl_nil]

/-- A name is declared at a place, which is the depth of an activity below the root and a number in
its list. Places are ordered from the root down, and in the order of a list. -/
def DeclaredAt (rows : List (List String)) (place : Nat ×ₗ Nat) (name : String) : Prop :=
  ∃ row, rows[(ofLex place).1]? = some row ∧ row[(ofLex place).2]? = some name

def FirstAt (rows : List (List String)) (name : String) (place : Nat ×ₗ Nat) : Prop :=
  IsLeast {p | DeclaredAt rows p name} place

/-- A list has what some rows declare, each name once, in the order of the places at which the names
are declared first. -/
structure RootFirst (rows : List (List String)) (collected : List String) : Prop where
  nodup : collected.Nodup
  mem_iff : ∀ name, name ∈ collected ↔ ∃ row ∈ rows, name ∈ row
  ordered : collected.Pairwise fun name later =>
    ∃ p q, FirstAt rows name p ∧ FirstAt rows later q ∧ p < q

theorem DeclaredAt.depth_lt {rows : List (List String)} {place : Nat ×ₗ Nat} {name : String}
    (h : DeclaredAt rows place name) : (ofLex place).1 < rows.length :=
  have ⟨_, hrow, _⟩ := h
  (List.getElem?_eq_some_iff.mp hrow).1

theorem exists_declaredAt_iff {rows : List (List String)} {name : String} :
    (∃ place, DeclaredAt rows place name) ↔ ∃ row ∈ rows, name ∈ row := by
  constructor
  · rintro ⟨place, row, hrow, hname⟩
    exact ⟨row, List.mem_of_getElem? hrow, List.mem_of_getElem? hname⟩
  · rintro ⟨row, hrow, hname⟩
    obtain ⟨depth, hdepth⟩ := List.mem_iff_getElem?.mp hrow
    obtain ⟨number, hnumber⟩ := List.mem_iff_getElem?.mp hname
    exact ⟨toLex (depth, number), row, hdepth, hnumber⟩

/-- The last of some rows has the greatest depth. -/
theorem declaredAt_concat {rows : List (List String)} {row : List String} {place : Nat ×ₗ Nat}
    {name : String} : DeclaredAt (rows ++ [row]) place name ↔ DeclaredAt rows place name ∨
      (ofLex place).1 = rows.length ∧ row[(ofLex place).2]? = some name := by
  simp only [DeclaredAt, getElem?_concat_eq_some_iff, or_and_right, exists_or, and_assoc,
    exists_and_left, exists_eq_left]

/-- One more declaration in the last row has the greatest place. -/
theorem declaredAt_concat_concat {rows : List (List String)} {row : List String} {last : String}
    {place : Nat ×ₗ Nat} {name : String} :
    DeclaredAt (rows ++ [row ++ [last]]) place name ↔ DeclaredAt (rows ++ [row]) place name ∨
      place = toLex (rows.length, row.length) ∧ name = last := by
  have hplace : place = toLex (rows.length, row.length) ↔
      (ofLex place).1 = rows.length ∧ (ofLex place).2 = row.length := Prod.ext_iff
  rw [declaredAt_concat, declaredAt_concat, hplace, getElem?_concat_eq_some_iff, and_or_left,
    or_assoc, and_assoc]

theorem lt_of_declaredAt_concat {rows : List (List String)} {row : List String}
    {place : Nat ×ₗ Nat} {name : String} (h : DeclaredAt (rows ++ [row]) place name) :
    place < toLex (rows.length, row.length) := by
  rw [Prod.Lex.lt_iff]
  rcases declaredAt_concat.mp h with hrows | ⟨hdepth, hrow⟩
  · exact .inl hrows.depth_lt
  · exact .inr ⟨hdepth, (List.getElem?_eq_some_iff.mp hrow).1⟩

theorem DeclaredAt.exists_firstAt {rows : List (List String)} {place : Nat ×ₗ Nat} {name : String}
    (h : DeclaredAt rows place name) : ∃ first, FirstAt rows name first := by
  obtain ⟨first, hmem, hmin⟩ := wellFounded_lt.has_min {p | DeclaredAt rows p name} ⟨place, h⟩
  exact ⟨first, hmem, fun p hp => not_lt.mp (hmin p hp)⟩

/-- A later place changes no first one. -/
theorem FirstAt.concat {rows : List (List String)} {row : List String} {name : String}
    {place : Nat ×ₗ Nat} (h : FirstAt (rows ++ [row]) name place) (last : String) :
    FirstAt (rows ++ [row ++ [last]]) name place := by
  refine ⟨declaredAt_concat_concat.mpr (.inl h.1), fun p hp => ?_⟩
  rcases declaredAt_concat_concat.mp hp with hp | ⟨rfl, -⟩
  · exact h.2 hp
  · exact (lt_of_declaredAt_concat h.1).le

/-- A new name is declared first where it is added. -/
theorem firstAt_concat_self {rows : List (List String)} {row : List String} {last : String}
    (h : ∀ place, ¬ DeclaredAt (rows ++ [row]) place last) :
    FirstAt (rows ++ [row ++ [last]]) last (toLex (rows.length, row.length)) := by
  refine ⟨declaredAt_concat_concat.mpr (.inr ⟨rfl, rfl⟩), fun p hp => ?_⟩
  rcases declaredAt_concat_concat.mp hp with hp | ⟨rfl, -⟩
  · exact absurd hp (h p)
  · exact le_rfl

namespace RootFirst

variable {rows : List (List String)} {row collected : List String}

theorem nil : RootFirst [] [] := ⟨.nil, by simp, .nil⟩

/-- One more declaration is taken in. -/
theorem concat (h : RootFirst (rows ++ [row]) collected) (name : String) :
    RootFirst (rows ++ [row ++ [name]])
      (if name ∈ collected then collected else collected ++ [name]) := by
  have hmem (other : String) : (∃ r ∈ rows ++ [row ++ [name]], other ∈ r) ↔
      other ∈ collected ∨ other = name := by
    simp only [h.mem_iff, List.mem_append, List.mem_singleton, or_and_right, exists_or,
      exists_eq_left, or_assoc]
  have hordered : collected.Pairwise fun first later => ∃ p q,
      FirstAt (rows ++ [row ++ [name]]) first p ∧
        FirstAt (rows ++ [row ++ [name]]) later q ∧ p < q :=
    h.ordered.imp fun ⟨p, q, hp, hq, hlt⟩ => ⟨p, q, hp.concat name, hq.concat name, hlt⟩
  split
  · rename_i hold
    refine ⟨h.nodup, fun other => ?_, hordered⟩
    rw [hmem, or_iff_left_of_imp fun heq => heq ▸ hold]
  · rename_i hnew
    refine ⟨?_, fun other => ?_,
      List.pairwise_append.mpr ⟨hordered, List.pairwise_singleton _ _, ?_⟩⟩
    · rw [(List.perm_append_singleton name collected).nodup_iff]
      exact List.nodup_cons.mpr ⟨hnew, h.nodup⟩
    · rw [hmem, List.mem_append, List.mem_singleton]
    · intro first hfirst later hlater
      obtain rfl := List.mem_singleton.mp hlater
      obtain ⟨place, hplace⟩ := exists_declaredAt_iff.mpr ((h.mem_iff first).mp hfirst)
      obtain ⟨p, hp⟩ := hplace.exists_firstAt
      refine ⟨p, _, hp.concat later, firstAt_concat_self fun q hq => ?_,
        lt_of_declaredAt_concat hp.1⟩
      exact hnew ((h.mem_iff later).mpr (exists_declaredAt_iff.mp ⟨q, hq⟩))

/-- An activity that declares nothing changes nothing. -/
theorem concat_nil (h : RootFirst rows collected) : RootFirst (rows ++ [[]]) collected := by
  have hsame : DeclaredAt (rows ++ [[]]) = DeclaredAt rows := by
    funext place name
    simp [declaredAt_concat]
  refine ⟨h.nodup, fun name => ?_, ?_⟩
  · rw [h.mem_iff]
    simp [or_and_right, exists_or]
  · simpa only [FirstAt, hsame] using h.ordered

/-- One more activity takes in what it declares. -/
theorem takeIn (h : RootFirst rows collected) (row : List String) :
    RootFirst (rows ++ [row]) (takeIn collected row) := by
  induction row using List.reverseRecOn with
  | nil => exact h.concat_nil
  | append_singleton row name ih =>
      rw [takeIn_concat]
      exact ih.concat name

theorem foldl_takeIn (rows : List (List String)) :
    RootFirst rows (rows.foldl ExprVet.takeIn []) := by
  induction rows using List.reverseRecOn with
  | nil => exact nil
  | append_singleton rows row ih =>
      rw [List.foldl_append]
      exact ih.takeIn row

end RootFirst

/-- A row with further names, anywhere, that rows above it declare. -/
inductive AddsKnown (above : List (List String)) : List String → List String → Prop
  | nil : AddsKnown above [] []
  | keep {row more : List String} (name : String) (h : AddsKnown above row more) :
      AddsKnown above (name :: row) (name :: more)
  | add {row more : List String} {name : String} (hknown : ∃ r ∈ above, name ∈ r)
      (h : AddsKnown above row more) : AddsKnown above row (name :: more)

theorem takeIn_of_addsKnown {above : List (List String)} {row more known : List String}
    (h : AddsKnown above row more) (habove : ∀ name, (∃ r ∈ above, name ∈ r) → name ∈ known) :
    takeIn known more = takeIn known row := by
  induction h generalizing known with
  | nil => rfl
  | keep name _ ih =>
      rw [takeIn_cons, takeIn_cons]
      apply ih
      intro other hother
      split
      · exact habove other hother
      · exact List.mem_append_left _ (habove other hother)
  | add hknown _ ih =>
      rw [takeIn_cons, if_pos (habove _ hknown)]
      exact ih habove

theorem foldl_takeIn_of_addsKnown {above : List (List String)} {row more : List String}
    (h : AddsKnown above row more) (below : List (List String)) :
    (above ++ more :: below).foldl takeIn [] = (above ++ row :: below).foldl takeIn [] := by
  rw [List.foldl_append, List.foldl_append, List.foldl_cons, List.foldl_cons, takeIn_of_addsKnown h]
  exact fun name => ((RootFirst.foldl_takeIn above).mem_iff name).mpr

/-- An activity declares what another one does, and besides that only what activities above it do.
-/
def ActivityNode.AddsKnown (above : List ActivityNode) (node more : ActivityNode) : Prop :=
  ExprVet.AddsKnown (above.map (·.imports)) node.imports more.imports ∧
    ExprVet.AddsKnown (above.map (·.modules)) node.modules more.modules

namespace Activity

/-- An activity inside another one. -/
def child (parent : Activity) (node : ActivityNode) : Activity := ⟨parent.chain, node⟩

theorem context_eq (activity : Activity) :
    activity.context = ⟨(activity.chain.map (·.imports)).foldl takeIn [],
      (activity.chain.map (·.modules)).foldl takeIn []⟩ := by
  rw [context, List.flatMap_def, List.flatMap_def, eraseDups_flatten_eq_foldl,
    eraseDups_flatten_eq_foldl]

/-- An activity takes its own declarations into the context of the activity around it. -/
theorem context_child (parent : Activity) (node : ActivityNode) :
    (parent.child node).context = ⟨takeIn parent.context.imports node.imports,
      takeIn parent.context.modules node.modules⟩ := by
  have hchain : (parent.child node).chain = parent.chain ++ [node] := rfl
  simp only [context_eq, hchain, List.map_append, List.map_singleton, List.foldl_append,
    List.foldl_cons, List.foldl_nil]

/-- The imports and the modules of an activity are those that are declared on the way from the root
to it, each once, in the order in which they are declared first. Those of the activity around it
come first, and to repeat in one activity what activities above it declare changes nothing for the
activities inside it and itself. -/
theorem inherited_root_first (activity : Activity) :
    RootFirst (activity.chain.map (·.imports)) activity.context.imports ∧
    RootFirst (activity.chain.map (·.modules)) activity.context.modules ∧
    (∀ node, activity.context.imports <+: (activity.child node).context.imports ∧
      activity.context.modules <+: (activity.child node).context.modules) ∧
    ∀ above node more below, activity.chain = above ++ node :: below →
      ActivityNode.AddsKnown above node more →
      ∀ other : Activity, other.chain = above ++ more :: below →
        other.context = activity.context := by
  refine ⟨?_, ?_, fun node => ?_, ?_⟩
  · rw [context_eq]
    exact .foldl_takeIn _
  · rw [context_eq]
    exact .foldl_takeIn _
  · rw [context_child]
    exact ⟨prefix_takeIn _ _, prefix_takeIn _ _⟩
  · rintro above node more below hchain ⟨himports, hmodules⟩ other hother
    simp only [context_eq, hchain, hother, List.map_append, List.map_cons,
      foldl_takeIn_of_addsKnown himports, foldl_takeIn_of_addsKnown hmodules]

def workflow : ActivityNode := ⟨"Workflow", ["core", "geo"], ["geo"]⟩

def assign : ActivityNode := ⟨"Assign", ["geo"], ["text", "geo"]⟩

/-- An activity between two others repeats an import and a module of the outer one. -/
theorem repeated_inherited_root_first :
    let sequence : ActivityNode := ⟨"Sequence", ["text"], []⟩
    let more : ActivityNode := ⟨"Sequence", ["core", "text"], ["geo"]⟩
    let inner := ((Activity.mk [] workflow).child sequence).child assign
    let other := ((Activity.mk [] workflow).child more).child assign
    ActivityNode.AddsKnown [workflow] sequence more ∧ other.context = inner.context ∧
      inner.context = ⟨["core", "geo", "text"], ["geo", "text"]⟩ := by
  intro sequence more inner other
  have hadds : ActivityNode.AddsKnown [workflow] sequence more :=
    ⟨.add (by decide) (.keep "text" .nil), .add (by decide) .nil⟩
  obtain ⟨-, -, -, hsame⟩ := inner.inherited_root_first
  exact ⟨hadds, hsame [workflow] sequence more [assign] rfl hadds other rfl, by decide⟩

end Activity

end ExprVet
