import Mathlib.Data.List.Nodup
import Sigil.Proofs.Code.Entries
import Sigil.Proofs.Compiler.Linking
import Sigil.Proofs.Engine.History
import Sigil.Proofs.Template.Import

/-!
# Imports from the template to the compiler

The imports of a class come from four places: the settings of the engine, the base type, the
specification and the template. They are collected in the specification and in the class tree, one
after the other and partly twice, and both end with the same set. The unit has one item for each
member, the backend is asked with the same set, and the crates that it binds on their account are
those that the imports start with (`imports_agree`).
-/

namespace Sigil

open Text Template

/-! ## Generated classes -/

namespace Code

/-- The class that a specification describes has the imports that the specification ends with. -/
theorem imports_generate (s : ClassSpec) (file : String) (base : BaseType) :
    (s.generate (.markup file) base).2.imports =
      (s.generate (.markup file) base).1.tree.imports := by
  ext x
  show x ∈ s.imports.union ((base.imports.union s.imports).insertAll _) ↔
    x ∈ (base.imports.union s.imports).insertAll _
  simp only [NameSet.mem_union, NameSet.mem_insertAll, or_iff_right_iff_imp]
  exact fun h => .inl (.inr h)

theorem mem_imports_generate {s : ClassSpec} {file : String} {base : BaseType} {x : String} :
    x ∈ (s.generate (.markup file) base).1.tree.imports ↔ x ∈ base.imports ∨ x ∈ s.imports ∨
      ∃ a, Processes ⟨s.template.toList, file⟩ a ∧ importOf? a = some x := by
  rw [← mem_imports_scanned, ← or_assoc, ← NameSet.mem_union]
  exact NameSet.mem_insertAll

def importItem (x : String) : List Char := ("use " ++ x ++ ";\n").toList

theorem importItem_injective {x y : String} (h : importItem x = importItem y) : x = y := by
  simpa [importItem, String.toList_inj] using h

theorem bodyCharsAt_importItems (xs : List String) :
    Block.bodyCharsAt 0 (xs.map fun x => .line ("use " ++ x ++ ";")) =
      (xs.map importItem).flatten := by
  induction xs with
  | nil => rfl
  | cons x xs ih =>
    rw [List.map_cons, bodyCharsAt_line, ih, List.map_cons, List.flatten_cons, importItem]
    simp

theorem imports_prepared (t : ClassTree) (b : BaseType) :
    (t.showLines.forwardTo b).imports = t.imports := by
  rw [ClassTree.forwardTo]
  split <;> rfl

namespace SourceUnit

variable (u : SourceUnit)

/-- What stands above the imports of a unit. -/
def title : List Char := Block.bodyCharsAt 0 (unitHead { u.tree with imports := ∅ })

theorem bodyCharsAt_unitHead :
    Block.bodyCharsAt 0 (unitHead u.tree) =
      u.title ++ (u.tree.imports.toList.map importItem).flatten := by
  rw [unitHead, bodyCharsAt_append, bodyCharsAt_importItems, title, unitHead, bodyCharsAt_append]
  exact congrArg (· ++ _) (List.append_nil _).symm

/-- The text of a unit has one item for each import between its title and the base source. -/
theorem toList_text_imports : ∃ rest, u.text.toList =
    u.title ++ (u.tree.imports.toList.map importItem).flatten ++
      '\n' :: ((baseSource u.names).toList ++ rest) := by
  have hsections : u.sections = Block.bodyCharsAt 0 (unitHead u.tree) ::
      Block.bodyCharsAt 0 [.line (baseSource u.names)] :: u.sections.drop 2 := rfl
  have hne : u.sections.drop 2 ≠ [] :=
    List.append_ne_nil_of_right_ne_nil u.ownSections (List.cons_ne_nil _ _)
  rw [toList_text, hsections, join_cons (List.cons_ne_nil _ _), join_cons hne,
    bodyCharsAt_unitHead, bodyCharsAt_line, List.append_assoc]
  simp

theorem imports_of {n : ClassNames} {t : ClassTree} {base : BaseType} {model : ModelType}
    (h : SourceUnit.of n t base model = .ok u) : u.tree.imports = t.imports := by
  rw [eq_of_of h]
  exact imports_prepared t base

end SourceUnit
end Code

/-! ## Crates of imports -/

namespace Compiler

open Library

/-- A registry has a crate of a name. -/
def Provides (g : Registry) (d : Disk) (name : String) : Prop :=
  ∃ path, (g.resolve? d name).bind (·.location) = some path ∧ isCratePath path = true

namespace Links

theorem externs_search (l : Links) (value : String) : (l.search value).externs = l.externs := by
  unfold search
  split <;> rfl

theorem mem_externs_add {l : Links} {path name x : String} :
    x ∈ (l.add path (some name)).externs ↔ x = name ∨ x ∈ l.externs := by
  rw [add, bind, externs_search]
  split
  · rename_i h
    rw [externs_search]
    refine ⟨.inr, ?_⟩
    rintro (rfl | hx)
    · simpa [externs_search] using h
    · exact hx
  · rw [List.mem_cons]

theorem mem_externs_addRoot {g : Registry} {d : Disk} {l : Links} {root x : String} :
    x ∈ (addRoot g d l root).externs ↔ x ∈ l.externs ∨ x = root ∧ Provides g d root := by
  unfold addRoot
  split
  · rename_i h
    rw [eq_comm, or_iff_left_iff_imp.2]
    rintro ⟨rfl, -⟩
    simpa using h
  · split
    · rename_i path hpath
      split
      · rename_i hcrate
        rw [mem_externs_add, or_comm, and_iff_left ⟨path, hpath, hcrate⟩]
      · rename_i hcrate
        rw [or_iff_left]
        rintro ⟨-, path', hpath', hcrate'⟩
        rw [hpath] at hpath'
        cases hpath'
        exact hcrate hcrate'
    · rename_i hnone
      rw [or_iff_left]
      rintro ⟨-, path, hpath, -⟩
      rw [hnone] at hpath
      cases hpath

/-- The crates that are bound: those of the files, and those that imports start with and that the
registry has. -/
theorem mem_externs_of {g : Registry} {d : Disk} {files imports : List String} {x : String} :
    x ∈ (of g d files imports).externs ↔ x ∈ (files.foldl addFile {}).externs ∨
      x ∈ crateRoots imports ∧ Provides g d x := by
  have hfold : ∀ (roots : List String) (l : Links), x ∈ (roots.foldl (addRoot g d) l).externs ↔
      x ∈ l.externs ∨ x ∈ roots ∧ Provides g d x := by
    intro roots
    induction roots with
    | nil => simp
    | cons root roots ih =>
      intro l
      rw [List.foldl_cons, ih, mem_externs_addRoot, List.mem_cons, or_assoc]
      refine or_congr_right ?_
      constructor
      · rintro (⟨rfl, h⟩ | ⟨hx, h⟩)
        · exact ⟨.inl rfl, h⟩
        · exact ⟨.inr hx, h⟩
      · rintro ⟨rfl | hx, h⟩
        · exact .inl ⟨rfl, h⟩
        · exact .inr ⟨hx, h⟩
  exact hfold _ _

end Links
end Compiler

/-! ## The pipeline -/

namespace Engine

open Code Compiler

theorem hasErrors_of_processes {src : Source} {a : List Char} (h : Processes src a)
    (ha : importOf? a = none) (names : ClassNames) : (src.parse names).hasErrors = true := by
  obtain ⟨f, hf, -⟩ := faults_of_processes h ha
  rw [Parsed.hasErrors, diagnostics_parse, List.any_map, List.any_eq_true]
  exact ⟨f, hf, rfl⟩

theorem mem_imports_complete {e : Engine} {s : ClassSpec} {x : String} :
    x ∈ (e.complete s).imports ↔
      x ∈ s.imports ∨ x ∈ e.settings.imports ∨ x ∈ (e.baseOf s).imports := by
  have hcomplete : (e.complete s).imports =
      (s.imports.union e.settings.imports).union (e.baseOf s).imports := rfl
  rw [hcomplete, NameSet.mem_union, NameSet.mem_union, or_assoc]

/-- When the template has been read as markup, with errors or without, the specification and the
class have the same imports: those of the settings, of the base type, that the specification starts
with and that the template names. An import that names nothing is an error. The unit has one item
for each of them, and this set is what the backend is asked with and what it takes crates from. -/
theorem imports_agree (e : Engine) (file : String) (s : ClassSpec) :
    let e := { e with translator := .markup file }
    let src : Source := ⟨s.template.toList, file⟩
    let after := (e.complete s).generate e.translator (e.baseOf s)
    let imports := after.1.tree.imports
    after.2.imports = imports ∧
    (∀ x, x ∈ imports ↔ x ∈ e.settings.imports ∨ x ∈ (e.baseOf s).imports ∨ x ∈ s.imports ∨
      ∃ a, Processes src a ∧ importOf? a = some x) ∧
    (∀ a, Processes src a → importOf? a = none → after.1.hasErrors = true) ∧
    (imports.toList.map importItem).Nodup ∧
    (∀ model u, SourceUnit.of (e.namesOf s) after.1.tree (e.baseOf s) model = .ok u →
      ∃ rest, u.text.toList = u.title ++ (imports.toList.map importItem).flatten ++
        '\n' :: ((baseSource u.names).toList ++ rest)) ∧
    ∀ g r, (e.compile g s).request = some r →
      r.imports = imports ∧
      (∃ u, SourceUnit.of (e.namesOf s) after.1.tree (e.baseOf s) (e.complete s).effectiveModel =
        .ok u ∧ r.source = u.text) ∧
      (∀ root, root ∈ crateRoots r.imports.toList ↔
        (∃ x ∈ imports, crateRoot x = root) ∧ root ≠ "" ∧ root ∉ implicitCrates) ∧
      ∀ known d files x, x ∈ (Links.of known d files r.imports.toList).externs ↔
        x ∈ (files.foldl Links.addFile {}).externs ∨
          x ∈ crateRoots imports.toList ∧ Provides known d x := by
  intro e src after imports
  have hsame : after.2.imports = imports := imports_generate _ _ _
  refine ⟨hsame, fun x => ?_, fun a h ha => ?_, ?_, fun model u hu => ?_, fun g r hr => ?_⟩
  · rw [mem_imports_generate, mem_imports_complete]
    constructor
    · rintro (hbase | (hown | hsettings | hbase) | htemplate)
      · exact .inr (.inl hbase)
      · exact .inr (.inr (.inl hown))
      · exact .inl hsettings
      · exact .inr (.inl hbase)
      · exact .inr (.inr (.inr htemplate))
    · rintro (hsettings | hbase | hown | htemplate)
      · exact .inr (.inl (.inr (.inl hsettings)))
      · exact .inl hbase
      · exact .inr (.inl (.inl hown))
      · exact .inr (.inr htemplate)
  · exact hasErrors_of_processes h ha _
  · exact List.Nodup.map (fun _ _ => importItem_injective) imports.nodup
  · have himports : imports = u.tree.imports := (u.imports_of hu).symm
    rw [himports]
    exact u.toList_text_imports
  · obtain ⟨u, hu, rfl⟩ := unit_of_request hr
    have himports : (e.request u (e.generated s)).imports = imports := hsame
    rw [himports]
    exact ⟨rfl, ⟨u, hu, rfl⟩, fun _ => mem_crateRoots, fun _ _ _ _ => Links.mem_externs_of⟩

example :
    let e : Engine :=
      { settings := { imports := .ofList ["std::fmt"] }
        resolve := fun _ more => more
        backend := .faithful [] "/tmp" }
    let s : ClassSpec :=
      { className := "Page", template := "@using serde::de ;\n@using std::fmt;\nHello" }
    (e.compile {} s).request.map
        (fun r => (r.imports.toList, (crateRoots r.imports.toList).toList)) =
      some (["serde::de", "std::fmt"], ["serde"]) := by
  decide +kernel

end Engine
end Sigil
