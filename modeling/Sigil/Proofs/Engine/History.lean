import Sigil.Engine.Basic
import Sigil.Proofs.Library.Registry

/-!
# Histories of compilations

An engine stops before its backend if the specification is unusable, the template has an error or
the source text of the base type cannot be rendered (`Stopped`). A compilation that stops asks
nobody and leaves the registry as it is; any other one registers its references first and then asks
its backend once. So in a history of compilations the registry only grows, whatever resolvers and
backends answer (`asks_in_history`).
-/

namespace Sigil.Engine

open Code Compiler Library Template

/-! ## Preparing a specification -/

section

variable (e : Engine) (s : ClassSpec)

def baseOf : BaseType := (e.complete s).effectiveBase

def namesOf : ClassNames := (e.complete s).names (e.baseOf s)

/-- What is read of the template of a specification. -/
def parsedOf : Parsed := e.translator s.template (e.namesOf s)

/-- A specification with everything that the engine and the template add to it. -/
def generated (e : Engine) (s : ClassSpec) : ClassSpec :=
  { e.complete s with imports := (e.complete s).imports.union (e.parsedOf s).tree.imports }

/-- Why a compilation does not come to its backend. -/
inductive Stopped : Prop where
  | unusable (err : SpecError) : s.check = .error err → Stopped
  | faulty : (e.parsedOf s).hasErrors = true → Stopped
  /-- The base type has source text of its own that cannot be rendered. -/
  | unprintable (text : String) (f : Stencil.Fault) : (e.baseOf s).source = some text →
      renderSource (e.namesOf s) text = .error f → Stopped

/-- What the engine adds to a specification does not make it more or less usable. -/
theorem check_complete : (e.complete s).check = s.check := by
  obtain ⟨className, template, imports, base, model⟩ := s
  cases model with
  | none => rfl
  | some m => cases m <;> rfl

theorem prepare_eq : e.prepare s =
    match s.check with
    | .error err => .error (.spec err)
    | .ok () =>
      if (e.parsedOf s).hasErrors then
        .error (.compilation
          (.ofDiagnostics (e.parsedOf s).diagnostics templateFile (e.complete s).template))
      else
        match SourceUnit.of (e.namesOf s) (e.parsedOf s).tree (e.baseOf s)
            (e.complete s).effectiveModel with
        | .error _ => .error (.unexpected .serializing)
        | .ok u => .ok (u, e.generated s) := by
  rw [← check_complete e s]
  rfl

end

section

variable {e : Engine} {s : ClassSpec}

/-- A class has no unit exactly if the source text of its base type cannot be rendered. -/
theorem of_eq_error_iff {n : ClassNames} {t : ClassTree} {base : BaseType} {model : ModelType} :
    (∃ f, SourceUnit.of n t base model = .error f) ↔
      ∃ text f, base.source = some text ∧ renderSource n text = .error f := by
  unfold SourceUnit.of
  cases base.source with
  | none => simp [pure, Except.pure, bind, Except.bind]
  | some text =>
    rw [Option.mapM_some]
    cases h : renderSource n text with
    | error f => simp [h, bind, Except.bind, Functor.map, Except.map]
    | ok extra => simp [h, pure, Except.pure, bind, Except.bind, Functor.map, Except.map]

/-- A compilation stops, or its specification has a unit. -/
theorem prepare_cases (e : Engine) (s : ClassSpec) :
    (Stopped e s ∧ ∃ err, e.prepare s = .error err) ∨
    (¬ Stopped e s ∧ ∃ u, e.prepare s = .ok (u, e.generated s) ∧
      SourceUnit.of (e.namesOf s) (e.parsedOf s).tree (e.baseOf s)
        (e.complete s).effectiveModel = .ok u) := by
  rw [prepare_eq]
  cases hcheck : s.check with
  | error err => exact .inl ⟨.unusable err hcheck, _, rfl⟩
  | ok =>
    simp only
    by_cases hfaulty : (e.parsedOf s).hasErrors = true
    · rw [if_pos hfaulty]
      exact .inl ⟨.faulty hfaulty, _, rfl⟩
    · rw [if_neg hfaulty]
      have hprints : (∃ f, SourceUnit.of (e.namesOf s) (e.parsedOf s).tree (e.baseOf s)
            (e.complete s).effectiveModel = .error f) ↔
          ∃ text f, (e.baseOf s).source = some text ∧ renderSource (e.namesOf s) text = .error f :=
        of_eq_error_iff
      cases hof : SourceUnit.of (e.namesOf s) (e.parsedOf s).tree (e.baseOf s)
          (e.complete s).effectiveModel with
      | error f =>
        obtain ⟨text, f, hsource, hrender⟩ := hprints.1 ⟨f, hof⟩
        exact .inl ⟨.unprintable text f hsource hrender, _, rfl⟩
      | ok u =>
        refine .inr ⟨fun hstopped => ?_, u, rfl, rfl⟩
        cases hstopped with
        | unusable err h =>
          rw [hcheck] at h
          cases h
        | faulty h => exact hfaulty h
        | unprintable text f hsource hrender =>
          obtain ⟨f, hf⟩ := hprints.2 ⟨text, f, hsource, hrender⟩
          rw [hof] at hf
          cases hf

/-! ## One compilation -/

/-- What a compilation does in any surroundings: it stops without asking, or it asks the backend
once, when its references are registered. -/
theorem compileAsking_cases (e : Engine) (g : Registry) (s : ClassSpec) :
    (Stopped e s ∧ ∃ err, e.prepare s = .error err ∧ ∀ {m : Type → Type} [Monad m] ask,
      e.compileAsking (m := m) ask g s = pure ⟨g, none, .error err⟩) ∨
    (¬ Stopped e s ∧ ∃ u,
      SourceUnit.of (e.namesOf s) (e.parsedOf s).tree (e.baseOf s)
        (e.complete s).effectiveModel = .ok u ∧
      ∀ {m : Type → Type} [Monad m] ask, e.compileAsking (m := m) ask g s = do
        let r := e.request u (e.generated s)
        let answer ← ask (g.addAll r.references) u r
        return ⟨g.addAll r.references, some r, e.conclude (e.generated s) answer⟩) := by
  rcases prepare_cases e s with ⟨hstopped, err, h⟩ | ⟨hgoes, u, h, hu⟩
  · refine .inl ⟨hstopped, err, h, fun ask => ?_⟩
    rw [compileAsking, h]
  · refine .inr ⟨hgoes, u, hu, fun ask => ?_⟩
    rw [compileAsking, h]

theorem compile_cases (e : Engine) (g : Registry) (s : ClassSpec) :
    (Stopped e s ∧ ∃ err, e.prepare s = .error err ∧ e.compile g s = ⟨g, none, .error err⟩) ∨
    (¬ Stopped e s ∧ ∃ u,
      SourceUnit.of (e.namesOf s) (e.parsedOf s).tree (e.baseOf s)
        (e.complete s).effectiveModel = .ok u ∧
      e.compile g s =
        ⟨g.addAll (e.request u (e.generated s)).references, some (e.request u (e.generated s)),
          e.conclude (e.generated s) (e.backend.compile u (e.request u (e.generated s)))⟩) := by
  rcases compileAsking_cases e g s with ⟨hstopped, err, herr, h⟩ | ⟨hgoes, u, hu, h⟩
  · refine .inl ⟨hstopped, err, herr, ?_⟩
    rw [compile, h]
    rfl
  · refine .inr ⟨hgoes, u, hu, ?_⟩
    rw [compile, h]
    rfl

/-- The backend is asked for the unit of the specification. -/
theorem unit_of_request {g : Registry} {r : Request} (h : (e.compile g s).request = some r) :
    ∃ u, SourceUnit.of (e.namesOf s) (e.parsedOf s).tree (e.baseOf s)
      (e.complete s).effectiveModel = .ok u ∧ r = e.request u (e.generated s) := by
  rcases compile_cases e g s with ⟨-, err, -, hc⟩ | ⟨-, u, hu, hc⟩
  · rw [hc] at h
    cases h
  · rw [hc] at h
    exact ⟨u, hu, (Option.some.inj h).symm⟩

theorem contains_compile {g : Registry} {x : Reference} (h : g.contains x = true) :
    (e.compile g s).registry.contains x = true := by
  rcases compile_cases e g s with ⟨-, err, -, hc⟩ | ⟨-, u, -, hc⟩
  · rwa [hc]
  · rw [hc]
    exact Registry.contains_addAll_of_contains h

end

/-! ## Histories -/

/-- A specification that is handed to an engine, and the engine as it is then: its resolver and its
backend may answer otherwise at every time. -/
structure Call where
  engine : Engine
  spec : ClassSpec

namespace Call

def attempt (c : Call) (g : Registry) : Attempt := c.engine.compile g c.spec

def registryAfter (g : Registry) (calls : List Call) : Registry :=
  calls.foldl (fun g c => (c.attempt g).registry) g

theorem contains_registryAfter {g : Registry} {x : Reference} (calls : List Call)
    (h : g.contains x = true) : (registryAfter g calls).contains x = true := by
  induction calls generalizing g with
  | nil => exact h
  | cons c calls ih => exact ih (contains_compile h)

end Call

open Call in
/-- At any time of a history, a compilation that stops leaves the registry as it is and asks its
backend nothing, whatever its surroundings. Any other one asks it once, in sight of a registry that
contains every reference of the request. What a registry contains it contains ever after. -/
theorem asks_in_history (g : Registry) (before after : List Call) (c : Call) :
    let known := registryAfter g before
    let a := c.attempt known
    (Stopped c.engine c.spec →
      a.registry = known ∧ a.request = none ∧ (∃ err, a.result = .error err) ∧
      ∀ {m : Type → Type} [Monad m] ask,
        c.engine.compileAsking (m := m) ask known c.spec = pure a) ∧
    (¬ Stopped c.engine c.spec → ∃ u r,
      a.request = some r ∧
      r.references = c.engine.resolve (c.engine.generated c.spec) c.engine.backend.includes ∧
      (∀ x ∈ r.references, a.registry.contains x = true) ∧
      a.result = c.engine.conclude (c.engine.generated c.spec) (c.engine.backend.compile u r) ∧
      ∀ {m : Type → Type} [Monad m] ask,
        c.engine.compileAsking (m := m) ask known c.spec = do
          let answer ← ask a.registry u r
          return { a with result := c.engine.conclude (c.engine.generated c.spec) answer }) ∧
    ∀ x, known.contains x = true →
      (registryAfter g (before ++ c :: after)).contains x = true := by
  intro known a
  have hgrows : ∀ x, known.contains x = true →
      (registryAfter g (before ++ c :: after)).contains x = true := by
    intro x hx
    rw [registryAfter, List.foldl_append]
    exact contains_registryAfter (c :: after) hx
  have ha : a = c.engine.compile known c.spec := rfl
  rcases compileAsking_cases c.engine known c.spec with ⟨hstopped, err, -, h⟩ | ⟨hgoes, u, -, h⟩
  · have hattempt : a = ⟨known, none, .error err⟩ := by
      rw [ha, compile, h]
      rfl
    refine ⟨fun _ => ?_, fun hgoes => absurd hstopped hgoes, hgrows⟩
    rw [hattempt]
    exact ⟨rfl, rfl, ⟨err, rfl⟩, fun ask => h ask⟩
  · let r := c.engine.request u (c.engine.generated c.spec)
    have hattempt : a = ⟨known.addAll r.references, some r,
        c.engine.conclude (c.engine.generated c.spec) (c.engine.backend.compile u r)⟩ := by
      rw [ha, compile, h]
      rfl
    refine ⟨fun hstopped => absurd hstopped hgoes, fun _ => ⟨u, r, ?_⟩, hgrows⟩
    rw [hattempt]
    exact ⟨rfl, rfl, fun x hx => Registry.contains_addAll_of_mem known hx, rfl, fun ask => h ask⟩

end Sigil.Engine
