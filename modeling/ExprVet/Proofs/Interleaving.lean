import ExprVet.Proofs.References
import Mathlib.Data.Finset.Card
import Mathlib.Logic.Function.Basic

/-!
# Callers that share a cache

Many callers ensure modules in one cache. A call looks its module up, describes it where the lookup
misses, and stores what it described. Each of the three is atomic, but other callers may act in
between, so that two of them can miss the same module and both describe it.

The state is the cache together with the progress of each call, and a run lists the events in their
order. `Step.cache_eq` says what an event does to the cache. From it follows what a run leaves
there: for every module the reference that was offered first (`Run.get?_eq`).
-/

namespace ExprVet

namespace ReferenceCache

theorem get?_insertIfAbsent (cache : ReferenceCache) (module other : ModuleId)
    (reference : Reference) : (cache.insertIfAbsent module reference).2.get? other =
      (cache.get? other).or ([(module, reference)].lookup other) := by
  unfold insertIfAbsent
  cases hget : cache.get? module with
  | some stored =>
      by_cases hother : other = module
      · rw [hother, hget, Option.some_or]
      · have hne : (other == module) = false := by simpa using hother
        simp [List.lookup_cons, hne]
  | none => exact List.lookup_append

theorem nodup_insertIfAbsent {cache : ReferenceCache} (h : (cache.entries.map Prod.fst).Nodup)
    (module : ModuleId) (reference : Reference) :
    ((cache.insertIfAbsent module reference).2.entries.map Prod.fst).Nodup := by
  unfold insertIfAbsent
  cases hget : cache.get? module with
  | some stored => exact h
  | none => exact nodup_append_fresh h hget reference

end ReferenceCache

/-- How far a call has come that ensures a module. -/
inductive Progress where
  | fresh
  /-- The lookup has missed. -/
  | missed (module : ModuleId)
  /-- The module is described, but the reference is not stored yet. -/
  | described (module : ModuleId) (reference : Reference)
  | finished (module : ModuleId) (result : Option Reference)

/-- A cache with the calls that ensure modules in it. -/
structure SharedCache where
  cache : ReferenceCache
  progress : Nat → Progress

/-- What can happen to a shared cache, with what the caller sees of it. The last three are calls
that work on the cache directly. -/
inductive CacheEvent where
  | found (call : Nat) (module : ModuleId) (stored : Reference)
  | missed (call : Nat) (module : ModuleId)
  | described (call : Nat) (module : ModuleId) (result : Except EngineError Reference)
  | stored (call : Nat) (module : ModuleId) (offered returned : Reference)
  | inserted (module : ModuleId) (offered returned : Reference)
  | read (module : ModuleId) (result : Option Reference)
  | tested (module : ModuleId) (result : Bool)

namespace CacheEvent

/-- What an event offers to the cache. -/
def offer? : CacheEvent → Option (ModuleId × Reference)
  | stored _ module offered _ => some (module, offered)
  | inserted module offered _ => some (module, offered)
  | _ => none

/-- What a successful call or a direct insertion returns. -/
def returned? : CacheEvent → Option (ModuleId × Reference)
  | found _ module held => some (module, held)
  | stored _ module _ returned => some (module, returned)
  | inserted module _ returned => some (module, returned)
  | _ => none

/-- What some events offer to the cache, in their order. -/
def offers (events : List CacheEvent) : List (ModuleId × Reference) := events.filterMap offer?

theorem offers_concat (events : List CacheEvent) (event : CacheEvent) :
    offers (events ++ [event]) = offers events ++ event.offer?.toList := by
  rw [offers, List.filterMap_append]
  cases h : event.offer? <;> simp [offers, h]

end CacheEvent

namespace SharedCache

/-- An empty cache, before any call. -/
def start : SharedCache := ⟨.empty, fun _ => .fresh⟩

def advance (shared : SharedCache) (call : Nat) (progress : Progress) : SharedCache :=
  { shared with progress := Function.update shared.progress call progress }

def insert (shared : SharedCache) (module : ModuleId) (reference : Reference) : SharedCache :=
  { shared with cache := (shared.cache.insertIfAbsent module reference).2 }

@[simp] theorem advance_cache (shared : SharedCache) (call : Nat) (progress : Progress) :
    (shared.advance call progress).cache = shared.cache := rfl

@[simp] theorem advance_progress_self (shared : SharedCache) (call : Nat) (progress : Progress) :
    (shared.advance call progress).progress call = progress := Function.update_self ..

theorem advance_progress_of_ne (shared : SharedCache) {call other : Nat} (progress : Progress)
    (h : other ≠ call) : (shared.advance call progress).progress other = shared.progress other :=
  Function.update_of_ne h ..

@[simp] theorem insert_progress (shared : SharedCache) (module : ModuleId)
    (reference : Reference) : (shared.insert module reference).progress = shared.progress := rfl

/-- One event. A call takes its own steps in order and otherwise whenever it likes, and describing
may have any result. -/
inductive Step : SharedCache → CacheEvent → SharedCache → Prop
  | found {shared call module stored} (hfresh : shared.progress call = .fresh)
      (hget : shared.cache.get? module = some stored) :
      Step shared (.found call module stored)
        (shared.advance call (.finished module (some stored)))
  | missed {shared call module} (hfresh : shared.progress call = .fresh)
      (hget : shared.cache.get? module = none) :
      Step shared (.missed call module) (shared.advance call (.missed module))
  | described {shared call module} (hmissed : shared.progress call = .missed module)
      (reference : Reference) :
      Step shared (.described call module (.ok reference))
        (shared.advance call (.described module reference))
  | failed {shared call module} (hmissed : shared.progress call = .missed module)
      (error : EngineError) :
      Step shared (.described call module (.error error))
        (shared.advance call (.finished module none))
  | stored {shared call module reference}
      (hdescribed : shared.progress call = .described module reference) :
      Step shared
        (.stored call module reference (shared.cache.insertIfAbsent module reference).1)
        ((shared.insert module reference).advance call
          (.finished module (some (shared.cache.insertIfAbsent module reference).1)))
  | inserted (shared : SharedCache) (module : ModuleId) (reference : Reference) :
      Step shared
        (.inserted module reference (shared.cache.insertIfAbsent module reference).1)
        (shared.insert module reference)
  | read (shared : SharedCache) (module : ModuleId) :
      Step shared (.read module (shared.cache.get? module)) shared
  | tested (shared : SharedCache) (module : ModuleId) :
      Step shared (.tested module (shared.cache.contains module)) shared

/-- Events one after the other. -/
inductive Run (first : SharedCache) : List CacheEvent → SharedCache → Prop
  | nil : Run first [] first
  | concat {events event last next} (hrun : Run first events last)
      (hstep : Step last event next) : Run first (events ++ [event]) next

section Step

variable {shared next : SharedCache} {event : CacheEvent}

/-- The cache changes by what an event offers and by nothing else. -/
theorem Step.cache_eq (h : Step shared event next) :
    next.cache = match event.offer? with
      | some (module, offered) => (shared.cache.insertIfAbsent module offered).2
      | none => shared.cache := by
  cases h <;> rfl

theorem Step.get?_eq (h : Step shared event next) (module : ModuleId) :
    next.cache.get? module = (shared.cache.get? module).or (event.offer?.toList.lookup module) := by
  rw [h.cache_eq]
  cases event.offer? with
  | none => exact Option.or_none.symm
  | some offer => exact ReferenceCache.get?_insertIfAbsent ..

theorem Step.nodup (h : Step shared event next)
    (hnodup : (shared.cache.entries.map Prod.fst).Nodup) :
    (next.cache.entries.map Prod.fst).Nodup := by
  rw [h.cache_eq]
  cases event.offer? with
  | none => exact hnodup
  | some offer => exact ReferenceCache.nodup_insertIfAbsent hnodup ..

/-- What is returned is what is stored at that time. -/
theorem Step.get?_of_returned? (h : Step shared event next) {module : ModuleId}
    {returned : Reference} (hreturned : event.returned? = some (module, returned)) :
    next.cache.get? module = some returned := by
  cases h with
  | found hfresh hget =>
      cases hreturned
      exact hget
  | stored hdescribed =>
      cases hreturned
      exact ReferenceCache.get?_insertIfAbsent_self ..
  | inserted module reference =>
      cases hreturned
      exact ReferenceCache.get?_insertIfAbsent_self ..
  | missed | described | failed | read | tested => cases hreturned

end Step

section Run

variable {first last : SharedCache} {events : List CacheEvent}

/-- A module keeps its reference, and else has the first that was offered. -/
theorem Run.get?_eq (h : Run first events last) (module : ModuleId) :
    last.cache.get? module =
      (first.cache.get? module).or ((CacheEvent.offers events).lookup module) := by
  induction h with
  | nil => exact Option.or_none.symm
  | @concat events event last next hrun hstep ih =>
      calc next.cache.get? module
          = (last.cache.get? module).or (event.offer?.toList.lookup module) :=
            hstep.get?_eq module
        _ = (first.cache.get? module).or (((CacheEvent.offers events).lookup module).or
              (event.offer?.toList.lookup module)) := by rw [ih, Option.or_assoc]
        _ = (first.cache.get? module).or
              ((CacheEvent.offers (events ++ [event])).lookup module) := by
            rw [CacheEvent.offers_concat, List.lookup_append]

theorem Run.get?_of_some (h : Run first events last) {module : ModuleId} {stored : Reference}
    (hget : first.cache.get? module = some stored) : last.cache.get? module = some stored := by
  rw [h.get?_eq, hget, Option.some_or]

theorem Run.nodup (h : Run first events last) (hnodup : (first.cache.entries.map Prod.fst).Nodup) :
    (last.cache.entries.map Prod.fst).Nodup := by
  induction h with
  | nil => exact hnodup
  | concat hrun hstep ih => exact hstep.nodup ih

/-- The modules stored after a run from the start are those that were offered. -/
theorem Run.mem_entries_iff (h : Run start events last) (module : ModuleId) :
    module ∈ last.cache.entries.map Prod.fst ↔
      module ∈ (CacheEvent.offers events).map Prod.fst := by
  have hget : last.cache.entries.lookup module = (CacheEvent.offers events).lookup module :=
    h.get?_eq module
  rw [← not_iff_not, ← Data.lookup_eq_none_iff_not_mem,
    ← Data.lookup_eq_none_iff_not_mem, hget]

theorem Run.size_eq (h : Run start events last) :
    last.cache.size = ((CacheEvent.offers events).map Prod.fst).toFinset.card := by
  have hsame : (last.cache.entries.map Prod.fst).toFinset =
      ((CacheEvent.offers events).map Prod.fst).toFinset := by
    ext module
    rw [List.mem_toFinset, List.mem_toFinset, h.mem_entries_iff]
  calc last.cache.size
      = (last.cache.entries.map Prod.fst).length := (List.length_map Prod.fst).symm
    _ = (last.cache.entries.map Prod.fst).toFinset.card :=
        (List.toFinset_card_of_nodup (h.nodup List.nodup_nil)).symm
    _ = ((CacheEvent.offers events).map Prod.fst).toFinset.card := by rw [hsame]

end Run

section Calls

variable {shared next first last : SharedCache} {event : CacheEvent} {events : List CacheEvent}
  {call : Nat} {module : ModuleId}

/-- A call that has returned takes no further step. -/
theorem Step.progress_of_finished (h : Step shared event next) {result : Option Reference}
    (hfinished : shared.progress call = .finished module result) :
    next.progress call = .finished module result := by
  have hkept {other : Nat} {progress : Progress}
      (hother : shared.progress other ≠ .finished module result) :
      (shared.advance other progress).progress call = .finished module result := by
    have hne : call ≠ other := by
      rintro rfl
      exact hother hfinished
    rw [advance_progress_of_ne shared progress hne, hfinished]
  cases h with
  | found hfresh hget | missed hfresh hget =>
      apply hkept
      rw [hfresh]
      exact Progress.noConfusion
  | described hmissed | failed hmissed =>
      apply hkept
      rw [hmissed]
      exact Progress.noConfusion
  | stored hdescribed =>
      apply hkept
      rw [hdescribed]
      exact Progress.noConfusion
  | inserted | read | tested => exact hfinished

/-- A call whose lookup found its module has returned. -/
theorem Run.finished_of_found (h : Run start events last) {stored : Reference}
    (hfound : .found call module stored ∈ events) :
    last.progress call = .finished module (some stored) := by
  induction h with
  | nil => cases hfound
  | concat hrun hstep ih =>
      rcases List.mem_append.mp hfound with hearlier | hnow
      · exact hstep.progress_of_finished (ih hearlier)
      · rw [← List.mem_singleton.mp hnow] at hstep
        cases hstep
        exact advance_progress_self ..

/-- A call is about to describe its module only by having missed it. -/
theorem Step.missed_cases (h : Step shared event next)
    (hmissed : next.progress call = .missed module) :
    shared.progress call = .missed module ∨
      event = .missed call module ∧ shared.cache.get? module = none := by
  have hkept {other : Nat} {progress : Progress} (hother : ∀ m, progress ≠ .missed m)
      (hafter : (shared.advance other progress).progress call = .missed module) :
      shared.progress call = .missed module := by
    by_cases hne : call = other
    · rw [hne, advance_progress_self] at hafter
      exact absurd hafter (hother module)
    · rwa [advance_progress_of_ne shared progress hne] at hafter
  cases h with
  | found | described | failed | stored =>
      exact .inl (hkept (fun _ => Progress.noConfusion) hmissed)
  | @missed other asked hfresh hget =>
      by_cases hne : call = other
      · subst hne
        rw [advance_progress_self, Progress.missed.injEq] at hmissed
        rw [hmissed] at hget ⊢
        exact .inr ⟨rfl, hget⟩
      · exact .inl (advance_progress_of_ne shared _ hne ▸ hmissed)
  | inserted | read | tested => exact .inl hmissed

/-- What a call is about to describe was not stored when the call looked it up. -/
theorem Run.exists_lookup_of_missed (h : Run start events last)
    (hmissed : last.progress call = .missed module) :
    ∃ earlier rest before, events = earlier ++ .missed call module :: rest ∧
      Run start earlier before ∧ before.cache.get? module = none := by
  induction h with
  | nil => cases hmissed
  | @concat events event last next hrun hstep ih =>
      obtain hbefore | ⟨rfl, hget⟩ := hstep.missed_cases hmissed
      · obtain ⟨earlier, rest, before, rfl, hearlier, hget⟩ := ih hbefore
        exact ⟨earlier, rest ++ [event], before, by simp, hearlier, hget⟩
      · exact ⟨events, [], last, rfl, hrun, hget⟩

/-- Ensuring a module without a break is a run of one call, which returns what `ensure` does. -/
theorem exists_run_ensure {σ : Type} (hfresh : shared.progress call = .fresh) (module : ModuleId)
    (describe : σ → Except EngineError Reference × σ) (state : σ) :
    ∃ events last, Run shared events last ∧
      last.cache = (shared.cache.ensure module describe state).2.1 ∧
      last.progress call = .finished module (shared.cache.ensure module describe state).1 := by
  cases hget : shared.cache.get? module with
  | some stored =>
      refine ⟨_, _, .concat .nil (.found hfresh hget), ?_, ?_⟩
      · simp [ReferenceCache.ensure, hget]
      · simp [ReferenceCache.ensure, hget]
  | none =>
      have hmissed := Run.concat .nil (.missed hfresh hget)
      cases hdescribe : (describe state) with | mk result after
      cases result with
      | ok reference =>
          have hdescribed := hmissed.concat (.described (advance_progress_self ..) reference)
          have hstored := hdescribed.concat (.stored (advance_progress_self ..))
          refine ⟨_, _, hstored, ?_, ?_⟩
          · simp [ReferenceCache.ensure, hget, hdescribe, insert]
          · simp [ReferenceCache.ensure, hget, hdescribe, insert]
      | error error =>
          have hfailed := hmissed.concat (.failed (advance_progress_self ..) error)
          refine ⟨_, _, hfailed, ?_, ?_⟩
          · simp [ReferenceCache.ensure, hget, hdescribe]
          · simp [ReferenceCache.ensure, hget, hdescribe]

end Calls

/-- A shared cache is append-only and its first writer wins, whatever the order of the steps. A
stored reference stays; what a module maps to is the first reference that was offered for it; a call
or an insertion returns what is stored at that time; a failure to describe changes nothing; a call
describes only what it looked up and missed, and nothing once it found something; and there are as
many entries as modules that references were offered for. -/
theorem append_only_in_every_order {earlier later : List CacheEvent} {event : CacheEvent}
    {before after last : SharedCache} (hearlier : Run start earlier before)
    (hstep : Step before event after) (hlater : Run after later last) :
    (∀ module stored, before.cache.get? module = some stored →
      after.cache.get? module = some stored ∧ last.cache.get? module = some stored) ∧
    (∀ module, before.cache.get? module = (CacheEvent.offers earlier).lookup module) ∧
    (∀ module returned, event.returned? = some (module, returned) →
      after.cache.get? module = some returned ∧ last.cache.get? module = some returned) ∧
    (∀ call module error, event = .described call module (.error error) →
      after.cache = before.cache) ∧
    (∀ call module result, event = .described call module result →
      (∃ former rest asked, earlier = former ++ .missed call module :: rest ∧
        Run start former asked ∧ asked.cache.get? module = none) ∧
      ∀ other stored, .found call other stored ∉ earlier) ∧
    before.cache.size = ((CacheEvent.offers earlier).map Prod.fst).toFinset.card := by
  have hmissed {call : Nat} {module : ModuleId} {result : Except EngineError Reference}
      (hevent : event = .described call module result) :
      before.progress call = .missed module := by
    subst hevent
    cases hstep with
    | described hmissed | failed hmissed => exact hmissed
  refine ⟨?stays, ?firstWriter, ?returned, ?failure, ?describes, hearlier.size_eq⟩
  case stays =>
    intro module stored hget
    have hafter := (Run.concat .nil hstep).get?_of_some hget
    exact ⟨hafter, hlater.get?_of_some hafter⟩
  case firstWriter =>
    intro module
    rw [hearlier.get?_eq]
    exact Option.none_or
  case returned =>
    intro module returned hreturned
    have hafter := hstep.get?_of_returned? hreturned
    exact ⟨hafter, hlater.get?_of_some hafter⟩
  case failure =>
    rintro call module error rfl
    exact hstep.cache_eq
  case describes =>
    intro call module result hevent
    refine ⟨hearlier.exists_lookup_of_missed (hmissed hevent), ?_⟩
    intro other stored hfound
    have hfinished := hearlier.finished_of_found hfound
    rw [hmissed hevent] at hfinished
    cases hfinished

/-- Two calls miss the core module and both describe it. The second one gets the reference of the
first, and a failure in between changes nothing. -/
theorem core_stored_once_by_two_calls :
    let first : Reference := ⟨0, .core⟩
    let second : Reference := ⟨1, .core⟩
    ∃ before after last,
      Run start [.missed 0 "core", .missed 1 "core", .described 1 "core" (.ok second),
        .described 0 "core" (.ok first), .stored 0 "core" first first] before ∧
      Step before (.stored 1 "core" second first) after ∧
      Run after [.missed 2 "geo", .described 2 "geo" (.error (.moduleNotFound "geo"))] last ∧
      after.cache.get? "core" = some first ∧ last.cache.get? "core" = some first ∧
      before.cache.size = 1 := by
  intro first second
  let missed := (start.advance 0 (.missed "core")).advance 1 (.missed "core")
  let described := (missed.advance 1 (.described "core" second)).advance 0 (.described "core" first)
  let before := (described.insert "core" first).advance 0 (.finished "core" (some first))
  let after := (before.insert "core" second).advance 1 (.finished "core" (some first))
  let last := (after.advance 2 (.missed "geo")).advance 2 (.finished "geo" none)
  have hmissed : Run start ([.missed 0 "core"] ++ [.missed 1 "core"]) missed :=
    .concat (.concat .nil (.missed rfl rfl)) (.missed rfl rfl)
  have hdescribed : Run start ([.missed 0 "core", .missed 1 "core"] ++
      [.described 1 "core" (.ok second)] ++ [.described 0 "core" (.ok first)]) described :=
    .concat (.concat hmissed (.described rfl second)) (.described rfl first)
  have hearlier : Run start ([.missed 0 "core", .missed 1 "core", .described 1 "core" (.ok second),
      .described 0 "core" (.ok first)] ++ [.stored 0 "core" first first]) before :=
    .concat hdescribed (.stored rfl)
  have hstep : Step before (.stored 1 "core" second first) after := .stored rfl
  have hlater : Run after ([.missed 2 "geo"] ++
      [.described 2 "geo" (.error (.moduleNotFound "geo"))]) last :=
    .concat (.concat .nil (.missed rfl rfl)) (.failed rfl (.moduleNotFound "geo"))
  obtain ⟨-, -, hreturned, -, -, hsize⟩ := append_only_in_every_order hearlier hstep hlater
  obtain ⟨hafter, hlast⟩ := hreturned "core" first rfl
  refine ⟨before, after, last, hearlier, hstep, hlater, hafter, hlast, ?_⟩
  rw [hsize]
  rfl

end SharedCache

end ExprVet
