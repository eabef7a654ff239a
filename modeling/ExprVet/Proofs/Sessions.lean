import ExprVet.Proofs.History
import ExprVet.Proofs.Scopes
import ExprVet.Session.Repl

/-!
# Sessions answer like single checks

Every line of a session leaves the validator and its cache as some calls would, so that they stay
settled however long the session lasts. Nested scopes look like one scope with the visible
variables. A snippet is therefore answered as a check on its own answers it, with a validator and a
cache that have served nothing before.
-/

namespace ExprVet

namespace SessionContext

/-- The check that a snippet amounts to in a context. -/
def checkRequest (context : SessionContext) (text : String) : CheckRequest :=
  ⟨text, context.expected, context.scope.visible, context.imports, context.modules⟩

theorem toRequest_checkRequest (context : SessionContext) (text : String) :
    (context.checkRequest text).toRequest = context.request text := by
  have henvironment : (VariableScope.empty.declareAll
      (context.checkRequest text).declarations).lookup = context.scope.lookup :=
    context.scope.lookup_declareAll_visible
  rw [CheckRequest.toRequest, henvironment]
  rfl

end SessionContext

/-- A check is answered by a new validator. -/
theorem check_eq_answer (config : SessionConfig) (request : CheckRequest) :
    check config request =
      ((Service.start config.catalog config.validator).answer request.toRequest).mapError
        .validation :=
  rfl

theorem Service.serveAll_append (service : Service) (calls more : List Call) :
    service.serveAll (calls ++ more) = (service.serveAll calls).serveAll more :=
  List.foldl_append

namespace Session

/-- The validator of a session with its cache. -/
def service (session : Session) : Service := ⟨session.validator, session.cache⟩

/-- A session after some lines of input. -/
def after (session : Session) (lines : List String) : Session :=
  lines.foldl (fun session line => (session.answer line).2) session

theorem service_start (config : SessionConfig) :
    (start config).service = .start config.catalog config.validator :=
  rfl

theorem service_obey (session : Session) (command : Command) :
    (session.obey command).2.service = session.service := by
  cases command <;> rfl

theorem exists_calls_wrapperLine (session : Session) (text : String) :
    ∃ calls, (session.wrapperLine text).2.service = session.service.serveAll calls := by
  rw [wrapperLine]
  split
  · exact ⟨[.compile (session.context.request text)], rfl⟩
  · exact ⟨[], rfl⟩

theorem exists_calls_validate (session : Session) (text : String) :
    ∃ calls, (session.validate text).2.service = session.service.serveAll calls := by
  obtain ⟨calls, hcalls⟩ := session.exists_calls_wrapperLine text
  rw [validate]
  split
  · rename_i failure next hline
    rw [hline] at hcalls
    exact ⟨calls, hcalls⟩
  · rename_i shown next hline
    rw [hline] at hcalls
    refine ⟨calls ++ [.validate (next.context.request text)], ?_⟩
    rw [Service.serveAll_append, ← hcalls]
    rfl

/-- A line leaves behind what some calls would: none unless it is a snippet. -/
theorem exists_calls_answer (session : Session) (line : String) :
    ∃ calls, (session.answer line).2.service = session.service.serveAll calls := by
  rw [answer]
  split
  · exact ⟨[], rfl⟩
  · exact ⟨[], rfl⟩
  · exact ⟨[], service_obey session _⟩
  · exact session.exists_calls_validate _

theorem exists_calls_after (session : Session) (lines : List String) :
    ∃ calls, (session.after lines).service = session.service.serveAll calls := by
  induction lines generalizing session with
  | nil => exact ⟨[], rfl⟩
  | cons line lines ih =>
      obtain ⟨calls, hcalls⟩ := session.exists_calls_answer line
      obtain ⟨more, hmore⟩ := ih (session.answer line).2
      refine ⟨calls ++ more, ?_⟩
      rw [Service.serveAll_append, ← hcalls]
      exact hmore

/-- A session stays settled for the catalog and the configuration that it was started with. -/
theorem settled_after (config : SessionConfig) (lines : List String) :
    ((start config).after lines).service.Settled config.catalog config.validator := by
  obtain ⟨calls, hcalls⟩ := (start config).exists_calls_after lines
  rw [hcalls, service_start]
  exact (Service.settled_start _ _).serveAll calls

theorem read_snippet {line : String} (hblank : Text.trim line.toList ≠ [])
    (hslash : (Text.trim line.toList).head? ≠ some '/') :
    Line.read line = .ok (.snippet (trimmed line)) := by
  rw [Line.read]
  split
  · contradiction
  · rename_i hline
    rw [hline] at hslash
    exact absurd rfl hslash
  · rfl

/-- A snippet without anything shown but the errors as data is answered by the validator. -/
theorem answer_snippet {session : Session} {line text : String}
    (hread : Line.read line = .ok (.snippet text)) (hjson : session.display.json = true)
    (hwrapper : session.display.wrapper = false) :
    (session.answer line).1 =
      ((session.service.answer (session.context.request text)).mapError .validation).map
        fun errors => some (Report.json errors) := by
  have hshown : session.wrapperLine text = (.ok "", session) := by
    rw [wrapperLine, hwrapper]
    rfl
  simp only [answer, hread, validate, hshown, Service.answer, service, shownErrors, hjson]
  cases (session.validator.validate session.cache (session.context.request text)).1 with
  | error failure => rfl
  | ok errors => simp [Except.map, Except.mapError]

/-- Whatever was typed in before, a snippet is answered with the errors of a check on its own of the
trimmed line against the expected type, the imports and the modules of the session and against its
visible variables; if the check fails, so does the answer, in the same way. -/
theorem answer_eq_check (config : SessionConfig) (lines : List String) (line : String)
    (hblank : Text.trim line.toList ≠ []) (hslash : (Text.trim line.toList).head? ≠ some '/')
    (hjson : ((start config).after lines).display.json = true)
    (hwrapper : ((start config).after lines).display.wrapper = false) :
    let session := (start config).after lines
    let request := session.context.checkRequest (trimmed line)
    (session.answer line).1 = (check config request).map (fun errors => some (Report.json errors)) ∧
      request.declarations.map Prod.fst = session.context.scope.visibleNames ∧
      ∀ declaration ∈ request.declarations,
        session.context.scope.lookup declaration.1 = some declaration.2 := by
  intro session request
  refine ⟨?_, session.context.scope.map_fst_visible, fun _ => VariableScope.mem_visible_iff.mp⟩
  have hsettled := settled_after config lines
  have hstart := Service.settled_start config.catalog config.validator
  rw [answer_snippet (read_snippet hblank hslash) hjson hwrapper, hsettled.answer_eq,
    check_eq_answer, hstart.answer_eq, SessionContext.toRequest_checkRequest]

/-- After commands of several kinds, one that fails and a snippet, with `x` hidden by a text and
shown again, a sum is answered as a check of it on its own. -/
theorem shadowedSum_answer_eq_check :
    let lines := ["/json", "/let x: Int", "/import geo", "/push", "/let x: Str", "x + ", "/let", "/pop"]
    let session := (start .quiet).after lines
    Text.trim " x + y\t".toList ≠ [] ∧ (Text.trim " x + y\t".toList).head? ≠ some '/' ∧
    session.display.json = true ∧ session.display.wrapper = false ∧
    let request := session.context.checkRequest (trimmed " x + y\t")
    (session.answer " x + y\t").1 =
        (check .quiet request).map (fun errors => some (Report.json errors)) ∧
      request.declarations.map Prod.fst = session.context.scope.visibleNames ∧
      ∀ declaration ∈ request.declarations,
        session.context.scope.lookup declaration.1 = some declaration.2 := by
  have hblank : Text.trim " x + y\t".toList ≠ [] := by decide
  have hslash : (Text.trim " x + y\t".toList).head? ≠ some '/' := by decide
  have hdisplay : ((start .quiet).after ["/json", "/let x: Int", "/import geo", "/push",
      "/let x: Str", "x + ", "/let", "/pop"]).display = ⟨false, true, false⟩ := by
    decide +kernel
  have hjson := congrArg SessionDisplay.json hdisplay
  have hwrapper := congrArg SessionDisplay.wrapper hdisplay
  exact ⟨hblank, hslash, hjson, hwrapper, answer_eq_check .quiet _ _ hblank hslash hjson hwrapper⟩

end Session

end ExprVet
