import Sigil.Engine.Run
import Sigil.Proofs.Code.Entries
import Sigil.Proofs.Engine.History
import Sigil.Proofs.Library.Exports
import Sigil.Proofs.Template.Verbatim

/-!
# Output of compiled templates

A template runs with a model of the type that it was compiled for; on both sides there are several
ways to say that there is no type, and they all count as one (`Suits`). A sink gets the whole output
in one piece or nothing at all, and a template that is compiled for the model that it runs with
always suits it (`run_compile_spec`).
-/

namespace Sigil.Engine

open Code Compiler Library Render Template

/-- A model type that says nothing. -/
def Untyped (t : Option ModelType) : Prop := t = none ∨ t = some .dynamic

/-- The type that a model comes with. -/
def Model.given : Model → Option ModelType
  | none => Option.none
  | dynamic _ => some .dynamic
  | typed t _ => some t

/-- A model suits a template that is declared for its type, and one without a type suits any that is
declared for none. -/
def Suits (declared given : Option ModelType) : Prop :=
  declared = given ∨ Untyped declared ∧ Untyped given

instance (t : Option ModelType) : Decidable (Untyped t) := inferInstanceAs (Decidable (_ ∨ _))

instance (declared given : Option ModelType) : Decidable (Suits declared given) :=
  inferInstanceAs (Decidable (_ ∨ _))

/-! ## Types of models -/

theorem untyped_iff {t : Option ModelType} : Untyped t ↔ t.filter (!·.isDynamic) = none := by
  cases t with
  | none => simp [Untyped]
  | some t => cases t <;> simp [Untyped, ModelType.isDynamic, Option.filter]

theorem filter_of_not_untyped {t : Option ModelType} (h : ¬ Untyped t) :
    t.filter (!·.isDynamic) = t := by
  cases t with
  | none => rfl
  | some t =>
    cases t with
    | dynamic => exact absurd (.inr rfl) h
    | _ => rfl

theorem type?_eq (m : Model) : m.type? = m.given.filter (!·.isDynamic) := by
  cases m with
  | none => rfl
  | dynamic v => rfl
  | typed t v => cases t <;> rfl

theorem suits_iff {declared given : Option ModelType} :
    Suits declared given ↔ declared.filter (!·.isDynamic) = given.filter (!·.isDynamic) := by
  constructor
  · rintro (rfl | ⟨hd, hg⟩)
    · rfl
    · rw [untyped_iff.1 hd, untyped_iff.1 hg]
  · intro h
    by_cases hd : Untyped declared
    · exact .inr ⟨hd, untyped_iff.2 (h ▸ untyped_iff.1 hd)⟩
    · by_cases hg : Untyped given
      · exact absurd (untyped_iff.2 (h.trans (untyped_iff.1 hg))) hd
      · rw [filter_of_not_untyped hd, filter_of_not_untyped hg] at h
        exact .inl h

/-! ## Compiled templates -/

section

variable {e : Engine} {g : Registry} {s : ClassSpec} {c : Compiled}

theorem conclude_eq_ok {x : Except RunError Built} (h : e.conclude s x = .ok c) :
    c.model = s.model := by
  unfold conclude at h
  split at h
  · cases h
  · unfold loadBuilt at h
    split at h
    · cases h
    · split at h
      · cases h
      · cases h
        rfl

/-- A template is compiled for the type of its specification, if that says something. -/
theorem model_of_compile (h : (e.compile g s).result = .ok c) :
    c.model = s.model.filter (!·.isDynamic) := by
  rcases compile_cases e g s with ⟨-, err, -, hc⟩ | ⟨-, u, -, hc⟩
  · rw [hc] at h
    cases h
  · rw [hc] at h
    exact conclude_eq_ok h

theorem conclude_ne_modelMismatch (x : Except RunError Built) (expected found : String) :
    e.conclude s x ≠ .error (.modelMismatch expected found) := by
  intro h
  unfold conclude at h
  split at h
  · rename_i err
    cases err <;> cases h
  · unfold loadBuilt at h
    split at h
    · cases h
    · split at h <;> cases h

/-- No compilation fails because of a model. -/
theorem compile_ne_modelMismatch (expected found : String) :
    (e.compile g s).result ≠ .error (.modelMismatch expected found) := by
  rcases compile_cases e g s with ⟨-, err, hprepare, hc⟩ | ⟨-, u, -, hc⟩
  · rw [hc]
    rintro ⟨⟩
    rw [prepare_eq] at hprepare
    split at hprepare
    · cases hprepare
    · split at hprepare
      · cases hprepare
      · split at hprepare <;> cases hprepare
  · rw [hc]
    exact conclude_ne_modelMismatch _ expected found

end

/-! ## Compilers that never fail -/

theorem loadBuilt_ofUnit {u : SourceUnit} {s : ClassSpec} (hname : exportedName u.tree = s.fullName)
    (halike : Alike s.fullName s.fullName) (hversion : u.program.version = abiVersion)
    {b : Built} (herrors : b.output.hasErrors = false) (hlibrary : b.library = .library (.ofUnit u))
    (copied : Bool) :
    ∃ c, loadBuilt copied s b = .ok c ∧ c.type.program = u.program := by
  have hfind := find_single s.fullName u.tree.baseType u.model.text b.output.library
    hversion s.fullName
  rw [if_pos halike] at hfind
  rw [loadBuilt, if_neg (by simp [herrors]), hlibrary, load, Exports.ofUnit_eq_single, hname, hfind]
  exact ⟨_, rfl, rfl⟩

/-- A compiler that never fails gives every template that comes to it the program of its own calls,
if all references are files. -/
theorem compile_faithful {e : Engine} {s : ClassSpec} {file : String}
    (ht : e.translator = .markup file) {includes : List Reference} {tempDir : String}
    (he : e.backend = .faithful includes tempDir) (hgoes : ¬ Stopped e s) {files : List String}
    (hfiles : referenceFiles (e.resolve (e.generated s) includes) = .ok files) (g : Registry) :
    ∃ c, (e.compile g s).result = .ok c ∧
      c.type.program = ⟨abiVersion, hostCalls (scanned ⟨s.template.toList, file⟩).body⟩ := by
  rcases compile_cases e g s with ⟨hstopped, -⟩ | ⟨-, u, hu, hc⟩
  · exact absurd hstopped hgoes
  · rw [parsedOf, ht] at hu
    have hcheck : s.check = .ok () := by
      cases hcheck : s.check with
      | ok => rfl
      | error err => exact absurd (.unusable err hcheck) hgoes
    have hname : exportedName u.tree = (e.generated s).fullName := by
      rw [eq_of_of hu]
      exact exportedName_prepared _ _
    have hprogram :
        u.program = ⟨abiVersion, hostCalls (scanned ⟨s.template.toList, file⟩).body⟩ := by
      rw [program_parse hu, body_parse]
    have halike : Alike (e.generated s).fullName (e.generated s).fullName :=
      (alike_fullName_iff hcheck hcheck).2 rfl
    have hversion : u.program.version = abiVersion := by rw [hprogram]
    rw [hc, ← hprogram, he]
    simp only [Backend.faithful, request, he, hfiles, conclude]
    exact loadBuilt_ofUnit hname halike hversion rfl rfl _

/-! ## Runs -/

namespace Compiled

variable (c : Compiled) (enc : Encoder) (k : Sink) (m : Model) (b : Bag)

/-- The output that the template's program finishes with. -/
def finished : Except RenderError String :=
  c.type.program.execute Template.abiVersion ⟨m.value, b, enc⟩

/-- What a run leaves of the sink, and what it answers. -/
inductive Outcome : Sink × Except EngineError Unit → Prop where
  | mismatch : c.model ≠ m.type? →
      Outcome (k, .error (.modelMismatch (typeText c.model) (typeText m.type?)))
  | fails {x : RenderError} : c.model = m.type? → c.finished enc m b = .error x →
      Outcome (k, .error (.render x))
  /-- The sink does not take the output. -/
  | refused {text : String} : c.model = m.type? → c.finished enc m b = .ok text →
      k.closed = true → Outcome (k, .error (.render .write))
  | writes {text : String} : c.model = m.type? → c.finished enc m b = .ok text →
      k.closed = false → Outcome ({ k with writes := k.writes ++ [text] }, .ok ())

theorem outcome_run : c.Outcome enc k m b (c.run enc k m b) := by
  unfold run output
  by_cases h : c.model = m.type?
  · rw [if_neg (not_not_intro h)]
    cases hf : c.finished enc m b with
    | error x =>
      rw [← finished, hf]
      exact .fails h hf
    | ok text =>
      rw [← finished, hf]
      cases hk : k.closed with
      | true => simpa [Sink.write?, hk] using Outcome.refused h hf hk
      | false => simpa [Sink.write?, hk] using Outcome.writes h hf hk
  · rw [if_pos h]
    exact .mismatch h

end Compiled

/-- A template that is compiled for a type runs with the models that suit it and with no others,
and other models are the only ones that are told of as wrong. The sink gets the output of the
template in one piece if the run succeeds, and nothing if it fails in any way. A template that is
compiled for its model is never told that the model is wrong. -/
theorem run_compile_spec (e : Engine) (g : Registry) :
    (∀ s c, (e.compile g s).result = .ok c → ∀ enc k m b,
      let out := c.run enc k m b
      ((∃ expected found, out.2 = .error (.modelMismatch expected found)) ↔
        ¬ Suits s.model m.given) ∧
      (∀ x, Suits s.model m.given → c.finished enc m b = .error x →
        out.2 = .error (.render x)) ∧
      (out.2 = .ok () ↔
        Suits s.model m.given ∧ (∃ text, c.finished enc m b = .ok text) ∧ k.closed = false) ∧
      (out.2 ≠ .ok () → out.1 = k) ∧
      (out.2 = .ok () → ∃ text, c.finished enc m b = .ok text ∧
        out.1 = { k with writes := k.writes ++ [text] })) ∧
    ∀ className template k m expected found,
      (e.runOnce g className template k m).2.2 ≠ .error (.modelMismatch expected found) := by
  constructor
  · intro s c hc enc k m b out
    have hsuits : Suits s.model m.given ↔ c.model = m.type? := by
      rw [model_of_compile hc, type?_eq, suits_iff]
    have hout : c.Outcome enc k m b out := c.outcome_run enc k m b
    clear_value out
    rw [hsuits]
    cases hout with
    | mismatch h => simp [h]
    | fails h hx => simp [h, hx]
    | refused h ht hk => simp [h, ht, hk]
    | writes h ht hk => simp [h, ht, hk]
  · intro className template k m expected found h
    let s : ClassSpec := { className := className, template := template, model := m.type? }
    unfold runOnce at h
    cases hc : (e.compile g s).result with
    | ok c =>
      have hmodel : c.model = m.type? := by
        rw [model_of_compile hc]
        show m.type?.filter (!·.isDynamic) = m.type?
        rw [type?_eq, Option.filter_filter]
        simp
      have hout := c.outcome_run e.encoder k m ∅
      simp only [s, hc] at h
      generalize c.run e.encoder k m ∅ = out at h hout
      cases hout with
      | mismatch hne => exact hne hmodel
      | _ => cases h
    | error err =>
      simp only [s, hc] at h
      cases h
      exact compile_ne_modelMismatch expected found hc

/-- A template for bytes runs with a byte and with nothing else. -/
theorem greeting_runs :
    let e : Engine := { resolve := fun _ more => more, backend := .faithful [] "/tmp" }
    let byte : ModelType := .named "u8" []
    let s : ClassSpec := { className := "Greeting", template := "Hello", model := byte }
    ∃ c, (e.compile {} s).result = .ok c ∧
      (∀ v b, c.run e.encoder {} (.typed byte v) b = ({ writes := ["Hello"] }, .ok ())) ∧
      ∀ v, ∀ m ∈ [.none, .dynamic v, .typed .dynamic v, .typed (.named "u16" []) v], ∀ b,
        (c.run e.encoder {} m b).1 = {} ∧ ∃ expected found,
          (c.run e.encoder {} m b).2 = .error (.modelMismatch expected found) := by
  intro e byte s
  have hgoes : ¬ Stopped e s := by
    rcases prepare_cases e s with ⟨-, err, h⟩ | ⟨hgoes, -⟩
    · have hsome : (e.prepare s).toOption.isSome = true := by decide +kernel
      rw [h] at hsome
      cases hsome
    · exact hgoes
  have hfiles : referenceFiles (e.resolve (e.generated s) []) = .ok [] := rfl
  obtain ⟨c, hc, hprogram⟩ := compile_faithful rfl rfl hgoes hfiles {}
  have hspec := (run_compile_spec e {}).1 s c hc
  have hwrites : WritesText (scanned ⟨"Hello".toList, templateFile⟩).body "Hello".toList := by
    have hbody := (scanned_verbatim (t := "Hello".toList) (by decide) templateFile).2.2
    rw [hbody]
    exact writesText_verbatim _
  refine ⟨c, hc, fun v b => ?_, fun v m hm b => ?_⟩
  · have hfinished : c.finished e.encoder (.typed byte v) b = .ok "Hello" := by
      rw [Compiled.finished, hprogram, execute_literals hwrites, String.ofList_toList]
    obtain ⟨-, -, hok, -, hwritten⟩ := hspec e.encoder {} (.typed byte v) b
    have hout := hok.2 ⟨.inl rfl, ⟨_, hfinished⟩, rfl⟩
    obtain ⟨text, htext, hsink⟩ := hwritten hout
    rw [hfinished] at htext
    cases htext
    exact Prod.ext hsink hout
  · obtain ⟨hmismatch, -, hok, hunwritten, -⟩ := hspec e.encoder {} m b
    have hsuits : ¬ Suits s.model m.given := by
      simp only [List.mem_cons, List.not_mem_nil, or_false] at hm
      rcases hm with rfl | rfl | rfl | rfl <;> simp [s, byte, Suits, Untyped, Model.given]
    exact ⟨hunwritten fun hout => hsuits (hok.1 hout).1, hmismatch.2 hsuits⟩

end Sigil.Engine
