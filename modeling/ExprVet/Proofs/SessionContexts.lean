import ExprVet.Proofs.Sessions

/-!
# Lines that leave the context as it is

A line that fails and a line that is no command change nothing of what commands set up. The modules
that such a line loads are new to the cache, stand behind what it holds and are those of the
catalog. `Loads` says so of one module, of several and of both validations of a snippet whose
wrapper is shown.
-/

namespace ExprVet

open Text

/-- A catalog and a cache, and the references that the catalog made and that were added to the
cache. -/
structure Loads (catalog : Catalog) (cache : ReferenceCache) (added : List (ModuleId × Reference))
    (catalog' : Catalog) (cache' : ReferenceCache) : Prop where
  entries : cache'.entries = cache.entries ++ added
  known : ∀ entry ∈ added, catalog.find? entry.1 = some entry.2.info
  fresh : ∀ entry ∈ added, cache.get? entry.1 = none
  counted : catalog' = { catalog with loads := catalog.loads + added.length }

namespace Loads

variable {catalog catalog' catalog'' : Catalog} {cache cache' cache'' : ReferenceCache}
  {added more : List (ModuleId × Reference)}

theorem refl (catalog : Catalog) (cache : ReferenceCache) :
    Loads catalog cache [] catalog cache :=
  ⟨(List.append_nil _).symm, List.forall_mem_nil _, List.forall_mem_nil _, rfl⟩

theorem trans (h : Loads catalog cache added catalog' cache')
    (h' : Loads catalog' cache' more catalog'' cache'') :
    Loads catalog cache (added ++ more) catalog'' cache'' := by
  have hmodules : catalog'.modules = catalog.modules := by rw [h.counted]
  refine ⟨?_, List.forall_mem_append.mpr ⟨h.known, fun entry hentry => ?_⟩,
    List.forall_mem_append.mpr ⟨h.fresh, fun entry hentry => ?_⟩, ?_⟩
  · rw [h'.entries, h.entries, List.append_assoc]
  · rw [← Catalog.find?_congr hmodules]
    exact h'.known entry hentry
  · have hget := h'.fresh entry hentry
    rw [ReferenceCache.get?, h.entries, List.lookup_append, Option.or_eq_none_iff] at hget
    exact hget.1
  · rw [h'.counted, h.counted, List.length_append, Nat.add_assoc]

theorem ensure (catalog : Catalog) (cache : ReferenceCache) (module : ModuleId) :
    ∃ added, Loads catalog cache added (cache.ensure module (·.describe module) catalog).2.2
      (cache.ensure module (·.describe module) catalog).2.1 := by
  obtain ⟨stored, -, h⟩ | ⟨info, hget, hfind, h⟩ | ⟨-, -, h⟩ :=
    ReferenceCache.ensure_cases cache catalog module
  · rw [h]
    exact ⟨[], refl catalog cache⟩
  · rw [h]
    refine ⟨[_], rfl, ?_, ?_, rfl⟩
    · rw [List.forall_mem_singleton]
      exact hfind
    · rw [List.forall_mem_singleton]
      exact hget
  · rw [h]
    exact ⟨[], refl catalog cache⟩

theorem ensureAll (catalog : Catalog) (cache : ReferenceCache) (modules : List ModuleId) :
    ∃ added, Loads catalog cache added (cache.ensureAll catalog modules).2.2
      (cache.ensureAll catalog modules).2.1 := by
  induction modules generalizing catalog cache with
  | nil => exact ⟨[], refl catalog cache⟩
  | cons module modules ih =>
      obtain ⟨first, hfirst⟩ := ensure catalog cache module
      obtain ⟨rest, hrest⟩ := ih _ _
      exact ⟨first ++ rest, hfirst.trans hrest⟩

end Loads

namespace Service

/-- A call changes the catalog's count and the cache only. -/
theorem serve_eq_with (service : Service) (call : Call) :
    (service.serve call).validator =
      { service.validator with catalog := (service.serve call).validator.catalog } := by
  cases call <;> rfl

theorem exists_loads_serveAll (service : Service) (calls : List Call) :
    (∃ added, Loads service.validator.catalog service.cache added
      (service.serveAll calls).validator.catalog (service.serveAll calls).cache) ∧
    (service.serveAll calls).validator =
      { service.validator with catalog := (service.serveAll calls).validator.catalog } := by
  induction calls generalizing service with
  | nil => exact ⟨⟨[], .refl _ _⟩, rfl⟩
  | cons call calls ih =>
      obtain ⟨⟨rest, hrest⟩, hvalidator⟩ := ih (service.serve call)
      have hfirst : ∃ added, Loads service.validator.catalog service.cache added
          (service.serve call).validator.catalog (service.serve call).cache := by
        cases call with
        | validate request | compile request => exact Loads.ensureAll _ _ request.modules
      obtain ⟨first, hfirst⟩ := hfirst
      refine ⟨⟨first ++ rest, hfirst.trans hrest⟩, ?_⟩
      change ((service.serve call).serveAll calls).validator = _
      rw [hvalidator, serve_eq_with]
      rfl

end Service

namespace Session

/-- What commands set up. -/
def setup (session : Session) : SessionContext × SessionDisplay × Bool :=
  (session.context, session.display, session.isDone)

theorem setup_wrapperLine (session : Session) (text : String) :
    (session.wrapperLine text).2.setup = session.setup := by
  rw [wrapperLine]
  split <;> rfl

theorem setup_validate (session : Session) (text : String) :
    (session.validate text).2.setup = session.setup := by
  have hline := session.setup_wrapperLine text
  rw [validate]
  split
  · rename_i failure next heq
    rw [heq] at hline
    exact hline
  · rename_i shown next heq
    rw [heq] at hline
    exact hline

/-- Only a line that starts with a slash is read as a command. -/
theorem head?_of_read_command {line : String} {command : Command}
    (h : Line.read line = .ok (.command command)) :
    (trim line.toList).head? = some '/' := by
  rw [Line.read] at h
  split at h
  · cases h
  · rename_i rest hline
    rw [hline]
    rfl
  · cases h

theorem setup_answer_eq {session : Session} {line : String}
    (h : (∃ failure, (session.answer line).1 = .error failure) ∨
      (trim line.toList).head? ≠ some '/') :
    (session.answer line).2.setup = session.setup := by
  rw [answer] at h ⊢
  split
  · rfl
  · rfl
  · -- a command that was obeyed does not fail
    rename_i command hread
    simp only [hread] at h
    obtain ⟨failure, hfailure⟩ := h.resolve_right (not_not.mpr (head?_of_read_command hread))
    cases hfailure
  · exact session.setup_validate _

/-- A line that fails, or that is no command, leaves the scopes, the expected type, the imports, the
local modules and the switches as they are. All that it does is to add modules of the catalog to the
cache that were not there, which the catalog counts. -/
theorem setup_answer {session : Session} {line : String}
    (h : (∃ failure, (session.answer line).1 = .error failure) ∨
      (trim line.toList).head? ≠ some '/') :
    let after := (session.answer line).2
    after.context = session.context ∧ after.display = session.display ∧
      after.isDone = session.isDone ∧
      ∃ added, after.cache.entries = session.cache.entries ++ added ∧
        (∀ entry ∈ added, session.validator.catalog.find? entry.1 = some entry.2.info ∧
          session.cache.get? entry.1 = none) ∧
        after.validator = { session.validator with catalog := { session.validator.catalog with
          loads := session.validator.catalog.loads + added.length } } := by
  intro after
  obtain ⟨hcontext, hdisplay, hdone⟩ :
      after.context = session.context ∧ after.display = session.display ∧
        after.isDone = session.isDone := by
    simpa [setup] using setup_answer_eq h
  obtain ⟨calls, hcalls⟩ := session.exists_calls_answer line
  obtain ⟨⟨added, hadded⟩, hvalidator⟩ := session.service.exists_loads_serveAll calls
  rw [← hcalls] at hadded hvalidator
  refine ⟨hcontext, hdisplay, hdone, added, hadded.entries,
    fun entry hentry => ⟨hadded.known entry hentry, hadded.fresh entry hentry⟩, ?_⟩
  rw [hadded.counted] at hvalidator
  exact hvalidator

/-- A session whose expected type is written such that no wrapper can be read. -/
def quotedSession : Session :=
  (start (SessionConfig.quiet.withModule ⟨"geo", ["geo"], []⟩)).after
    ["/let x: Int", "/module geo", "/expect \""]

/-- A snippet fails in such a session, and all that is left of it is a module in the cache. -/
theorem quotedSession_setup_answer :
    let after := (quotedSession.answer "x + 1").2
    (∃ failure, (quotedSession.answer "x + 1").1 = .error failure) ∧
      after.context = quotedSession.context ∧ after.display = quotedSession.display ∧
      after.isDone = quotedSession.isDone ∧ quotedSession.cache.modules = ["core"] ∧
      after.cache.modules = ["core", "geo"] := by
  have hfails : ∃ failure, (quotedSession.answer "x + 1").1 = .error failure := by
    refine ⟨.validation ⟨languageName, .malformedSource "|x: Int| -> \" \x7bx + 1\x7d"⟩, ?_⟩
    decide +kernel
  obtain ⟨hcontext, hdisplay, hdone, -⟩ := setup_answer (.inl hfails)
  exact ⟨hfails, hcontext, hdisplay, hdone, by decide +kernel, by decide +kernel⟩

end Session

end ExprVet
