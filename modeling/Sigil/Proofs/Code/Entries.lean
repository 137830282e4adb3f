import Sigil.Proofs.Code.Unit
import Sigil.Proofs.Text.Literal

/-!
# What a unit's text says of its type

The text of a unit is a row of sections with a blank line between each two. Three of them are about
the type that the unit defines: the record that describes it, the list of the library's types and
the function under whose symbol the record is found. `Entry.read?` reads a section for what it
says, and the entries of a template's unit all have the namespace, a dot and the class name for
the full name. These are the class names' full name unless the namespace is empty, where the full
name has no dot (`entries_parse`).
-/

namespace Sigil.Code

open Text Template

/-! ## Sections -/

theorem toList_layout_spaced (gs : List (List Block)) :
    (layout (spaced gs)).toList = join ['\n'] (gs.map (Block.bodyCharsAt 0)) := by
  rw [layout, String.toList_ofList]
  induction gs with
  | nil => rfl
  | cons g gs ih =>
    cases gs with
    | nil => rfl
    | cons g' gs =>
      rw [spaced, bodyCharsAt_append, Block.bodyCharsAt, ih, List.map_cons, List.map_cons,
        List.map_cons, join, List.append_assoc]
      · rfl
      · exact List.cons_ne_nil g' gs

namespace SourceUnit

/-- The base type's own source text, which makes a section if there is any. -/
def ownBlocks (u : SourceUnit) : List (List Block) :=
  match u.extra with
  | some text => if text.isEmpty then [] else [[.line text]]
  | none => []

/-- The sections that the unit does not write itself. -/
def ownSections (u : SourceUnit) : List (List Char) := u.ownBlocks.map (Block.bodyCharsAt 0)

def sections (u : SourceUnit) : List (List Char) :=
  [unitHead u.tree, [.line (baseSource u.names)]].map (Block.bodyCharsAt 0) ++ u.ownSections ++
    (markerBlocks u.model ++ classBlocks u.names u.tree ++ infoBlocks u.tree u.model ++
      exportBlocks u.names u.tree).map (Block.bodyCharsAt 0)

theorem toList_text (u : SourceUnit) : u.text.toList = join ['\n'] u.sections := by
  have : u.text = layout (spaced ([unitHead u.tree, [.line (baseSource u.names)]] ++ u.ownBlocks ++
      markerBlocks u.model ++ classBlocks u.names u.tree ++ infoBlocks u.tree u.model ++
      exportBlocks u.names u.tree)) := rfl
  rw [this, toList_layout_spaced, sections, ownSections]
  simp only [List.map_append, List.append_assoc]

end SourceUnit

/-! ## Entries -/

/-- What a section says of the unit's type. -/
inductive Entry where
  /-- The full name in the record that describes the type. -/
  | record (fullName : String)
  /-- The only full name in the list of the library's types. -/
  | listed (fullName : String)
  /-- The symbol that the record is exported under. -/
  | symbol (name : String)
  deriving DecidableEq, Repr

namespace Entry

def ofName (fullName : String) : List Entry :=
  [record fullName, listed fullName, symbol (typeSymbol fullName)]

/-- What stands in front of the full name in the record. -/
def recordOpening : List Char :=
  "static TYPE_INFO: TemplateTypeInfo = TemplateTypeInfo \x7b\n".toList ++
    "    abi_version: ABI_VERSION,\n    full_name: FfiStr::from_static(".toList

/-- What stands in front of the full name in the list. -/
def listOpening : List Char := "static MODULE_TYPES: [FfiStr; 1] = [FfiStr::from_static(".toList

/-- What stands in front of the symbol of the function that gives the record. -/
def symbolOpening : List Char := "#[no_mangle]\npub extern \"C\" fn ".toList

def symbolClosing : List Char := "() -> *const TemplateTypeInfo \x7b\n    &TYPE_INFO\n\x7d\n".toList

/-- The text that the literal behind some opening stands for. -/
def literalAfter? (opening s : List Char) : Option String :=
  (after? opening s).bind fun r => (literal? r).map fun (t, _) => String.ofList t

def textBetween? (opening closing s : List Char) : Option String :=
  ((after? opening s).bind (before? closing)).map String.ofList

/-- What a section says of the unit's type, if it is about the type at all. -/
def read? (s : List Char) : Option Entry :=
  ((literalAfter? recordOpening s).map record).or
    (((literalAfter? listOpening s).map listed).or
      ((textBetween? symbolOpening symbolClosing s).map symbol))

theorem literalAfter?_quoted (opening r : List Char) (n : String) :
    literalAfter? opening (opening ++ (Text.quoted n.toList ++ r)) = some n := by
  rw [literalAfter?, after?_eq_some_iff.2 rfl, Option.bind_some, literal?_quoted]
  exact congrArg some String.ofList_toList

theorem textBetween?_append (opening closing : List Char) (n : String) :
    textBetween? opening closing (opening ++ (n.toList ++ closing)) = some n := by
  rw [textBetween?, after?_eq_some_iff.2 rfl, Option.bind_some, before?_eq_some_iff.2 rfl,
    Option.map_some, String.ofList_toList]

theorem recordOpening_cons :
    ∃ r, recordOpening = 's' :: 't' :: 'a' :: 't' :: 'i' :: 'c' :: ' ' :: 'T' :: r :=
  ⟨_, congrArg (· ++ _) String.toList_ofList⟩

theorem listOpening_cons :
    ∃ r, listOpening = 's' :: 't' :: 'a' :: 't' :: 'i' :: 'c' :: ' ' :: 'M' :: r :=
  ⟨_, String.toList_ofList⟩

theorem symbolOpening_cons : ∃ r, symbolOpening = '#' :: r := ⟨_, String.toList_ofList⟩

/-- Sections about the type begin with a static item or an attribute. -/
theorem read?_of_head {s : List Char} {c : Char} (hc : s.head? = some c) (hstatic : c ≠ 's')
    (hattribute : c ≠ '#') : read? s = none := by
  obtain ⟨r, rfl⟩ := List.head?_eq_some_iff.1 hc
  have hafter : ∀ {a : Char} {w : List Char}, c ≠ a → after? (a :: w) (c :: r) = none :=
    fun ha => if_neg (Ne.symm ha)
  obtain ⟨_, hrecord⟩ := recordOpening_cons
  obtain ⟨_, hlist⟩ := listOpening_cons
  obtain ⟨_, hsymbol⟩ := symbolOpening_cons
  rw [read?, literalAfter?, literalAfter?, textBetween?, hrecord, hlist, hsymbol, hafter hstatic,
    hafter hstatic, hafter hattribute]
  rfl

theorem read?_record (n : String) (r : List Char) :
    read? (recordOpening ++ (Text.quoted n.toList ++ r)) = some (record n) := by
  rw [read?, literalAfter?_quoted, Option.map_some, Option.some_or]

theorem read?_listed (n : String) (r : List Char) :
    read? (listOpening ++ (Text.quoted n.toList ++ r)) = some (listed n) := by
  have hother : literalAfter? recordOpening (listOpening ++ (Text.quoted n.toList ++ r)) =
      none := by
    obtain ⟨_, hrecord⟩ := recordOpening_cons
    obtain ⟨_, hlist⟩ := listOpening_cons
    rw [literalAfter?, hrecord, hlist]
    rfl
  rw [read?, hother, literalAfter?_quoted]
  rfl

theorem read?_symbol (n : String) :
    read? (symbolOpening ++ (n.toList ++ symbolClosing)) = some (symbol n) := by
  have hother : ∀ {w r : List Char}, w = 's' :: r →
      literalAfter? w (symbolOpening ++ (n.toList ++ symbolClosing)) = none := by
    rintro w r rfl
    obtain ⟨_, hsymbol⟩ := symbolOpening_cons
    rw [literalAfter?, hsymbol]
    rfl
  obtain ⟨_, hrecord⟩ := recordOpening_cons
  obtain ⟨_, hlist⟩ := listOpening_cons
  rw [read?, hother hrecord, hother hlist, textBetween?_append]
  rfl

end Entry

/-! ## The entries of a unit -/

def entries (sections : List (List Char)) : List Entry := sections.filterMap Entry.read?

theorem entries_append (a b : List (List Char)) : entries (a ++ b) = entries a ++ entries b :=
  List.filterMap_append

theorem bodyCharsAt_line (text : String) (bs : List Block) :
    Block.bodyCharsAt 0 (.line text :: bs) = text.toList ++ '\n' :: Block.bodyCharsAt 0 bs := by
  simp [Block.bodyCharsAt, Block.charsAt, Block.indent]

theorem bodyCharsAt_block (head tail : String) (body : List Block) :
    Block.bodyCharsAt 0 [.block head tail body] = head.toList ++
      ('{' :: '\n' :: (Block.bodyCharsAt 1 body ++ '}' :: tail.toList ++ ['\n'])) := by
  simp [Block.bodyCharsAt, Block.charsAt, Block.indent]

/-- Sections that do not begin like one about the type have no entries. -/
theorem entries_eq_nil {gs : List (List Block)}
    (h : ∀ g ∈ gs, ∃ c, c ≠ 's' ∧ c ≠ '#' ∧ (Block.bodyCharsAt 0 g).head? = some c) :
    entries (gs.map (Block.bodyCharsAt 0)) = [] := by
  rw [entries, List.filterMap_eq_nil_iff, List.forall_mem_map]
  intro g hg
  obtain ⟨c, hstatic, hattribute, hc⟩ := h g hg
  exact Entry.read?_of_head hc hstatic hattribute

theorem head?_baseSource (n : ClassNames) : (baseSource n).toList.head? = some '/' := by
  obtain ⟨r, hr⟩ : ∃ r, baseSource n =
      layout (.line "// Quill template runtime interface. Mirrors quill_runtime::abi." :: r) :=
    ⟨_, rfl⟩
  rw [hr, layout, String.toList_ofList, bodyCharsAt_line]
  simp

theorem entries_opening (n : ClassNames) (t : ClassTree) :
    entries ([unitHead t, [.line (baseSource n)]].map (Block.bodyCharsAt 0)) = [] := by
  refine entries_eq_nil ?_
  simp [unitHead, bodyCharsAt_line, head?_baseSource]

theorem entries_markerBlocks (model : ModelType) :
    entries ((markerBlocks model).map (Block.bodyCharsAt 0)) = [] := by
  refine entries_eq_nil ?_
  simp [markerBlocks, bodyCharsAt_line, bodyCharsAt_block]

theorem entries_classBlocks (n : ClassNames) (t : ClassTree) :
    entries ((classBlocks n t).map (Block.bodyCharsAt 0)) = [] := by
  refine entries_eq_nil ?_
  simp [classBlocks, bodyCharsAt_block]

-- The openings once more, as blocks lay them out.
theorem recordOpening_eq : Entry.recordOpening =
    "static TYPE_INFO: TemplateTypeInfo = TemplateTypeInfo ".toList ++ ('{' :: '\n' ::
      (Block.indent 1 ++ ("abi_version: ABI_VERSION,".toList ++ '\n' ::
        (Block.indent 1 ++ "full_name: FfiStr::from_static(".toList)))) := by decide +kernel

theorem symbolOpening_eq : Entry.symbolOpening =
    "#[no_mangle]".toList ++ '\n' :: "pub extern \"C\" fn ".toList := by decide +kernel

theorem symbolClosing_eq : Entry.symbolClosing =
    "() -> *const TemplateTypeInfo ".toList ++ '{' :: '\n' ::
      (Block.indent 1 ++ ("&TYPE_INFO".toList ++ ['\n', '}', '\n'])) := by decide +kernel

theorem entry_record (n : String) (rest : List Block) :
    Entry.read? (Block.bodyCharsAt 0
      [.block "static TYPE_INFO: TemplateTypeInfo = TemplateTypeInfo " ";"
        (.line "abi_version: ABI_VERSION," ::
          .line ("full_name: FfiStr::from_static(" ++ quote n ++ "),") :: rest)]) =
      some (.record n) := by
  have h := Entry.read?_record n
  simp only [recordOpening_eq, List.append_assoc, List.cons_append] at h
  simp only [Block.bodyCharsAt, Block.charsAt, toList_quote, String.toList_append,
    List.append_assoc, List.cons_append, List.nil_append]
  exact h _

theorem entry_listed (n : String) :
    Entry.read? (Block.bodyCharsAt 0
      [.line ("static MODULE_TYPES: [FfiStr; 1] = [FfiStr::from_static(" ++ quote n ++ ")];")]) =
      some (.listed n) := by
  have h := Entry.read?_listed n
  unfold Entry.listOpening at h
  rw [bodyCharsAt_line, String.toList_append, String.toList_append, toList_quote,
    List.append_assoc, List.append_assoc]
  exact h _

theorem entry_symbol (n : String) :
    Entry.read? (Block.bodyCharsAt 0
      [.line "#[no_mangle]",
        .block ("pub extern \"C\" fn " ++ n ++ "() -> *const TemplateTypeInfo ") "" [
          .line "&TYPE_INFO"]]) = some (.symbol n) := by
  have h := Entry.read?_symbol n
  simp only [symbolOpening_eq, symbolClosing_eq, List.append_assoc, List.cons_append] at h
  simp only [Block.bodyCharsAt, Block.charsAt, String.toList_append, List.append_assoc,
    List.cons_append, List.nil_append]
  exact h

theorem entries_infoBlocks (t : ClassTree) (model : ModelType) :
    entries ((infoBlocks t model).map (Block.bodyCharsAt 0)) =
      [.record (exportedName t), .listed (exportedName t)] := by
  rw [infoBlocks, List.map_cons, List.map_cons, List.map_nil, entries,
    List.filterMap_cons_some (entry_record _ _), List.filterMap_cons_some (entry_listed _),
    List.filterMap_nil]

theorem entries_exportBlocks (n : ClassNames) (t : ClassTree) :
    entries ((exportBlocks n t).map (Block.bodyCharsAt 0)) =
      [.symbol (typeSymbol (exportedName t))] := by
  have hexecute : ∀ {body : List Block}, Entry.read? (Block.bodyCharsAt 0 [.block
      "unsafe extern \"C\" fn __quill_execute(writer: *mut c_void, host: *const HostVTable) " ""
      body]) = none := by
    intro body
    refine Entry.read?_of_head (c := 'u') ?_ (by decide) (by decide)
    simp [bodyCharsAt_block]
  rw [exportBlocks, List.map_cons, List.map_cons, List.map_cons, List.map_nil, entries,
    List.filterMap_cons_none hexecute, List.filterMap_cons_some (entry_symbol _),
    List.filterMap_cons_none (by decide +kernel), List.filterMap_nil]

theorem entries_sections (u : SourceUnit) :
    entries u.sections = entries u.ownSections ++ Entry.ofName (exportedName u.tree) := by
  rw [SourceUnit.sections, List.map_append, List.map_append, List.map_append]
  simp only [entries_append]
  rw [entries_opening, entries_markerBlocks, entries_classBlocks, entries_infoBlocks,
    entries_exportBlocks]
  rfl

/-! ## Full names -/

theorem exportedName_prepared (t : ClassTree) (b : BaseType) :
    exportedName (t.showLines.forwardTo b) = exportedName t := by
  rw [ClassTree.forwardTo]
  split <;> rfl

/-- The class names' full name has the namespace in front exactly if there is one, and so has its
symbol. -/
theorem recorded_agree_iff (names : ClassNames) :
    let recorded := names.namespace_ ++ "." ++ names.className
    (recorded = names.fullName ↔ names.namespace_ ≠ "") ∧
    (typeSymbol recorded = typeSymbol names.fullName ↔ names.namespace_ ≠ "") := by
  intro recorded
  have hname : names.namespace_ ≠ "" → recorded = names.fullName := by
    intro h
    rw [ClassNames.fullName, if_neg (mt String.isEmpty_iff.1 h)]
  have hsymbol : typeSymbol recorded = typeSymbol names.fullName → names.namespace_ ≠ "" := by
    intro h hempty
    have hfull : names.fullName = names.className := if_pos (String.isEmpty_iff.2 hempty)
    have hundotted : undotted recorded.toList = undotted names.className.toList := by
      have := congrArg String.toList h
      rwa [hfull, toList_typeSymbol, toList_typeSymbol, List.append_cancel_left_eq] at this
    have hlength := congrArg List.length hundotted
    rw [undotted, undotted, List.length_map, List.length_map, String.toList_append,
      String.toList_append, hempty, List.length_append] at hlength
    exact absurd hlength (by simp)
  exact ⟨⟨fun h => hsymbol (congrArg typeSymbol h), hname⟩,
    hsymbol, fun h => congrArg typeSymbol (hname h)⟩

/-- The unit of a template gives its type the namespace, a dot and the class name for the full name,
in the record, in the list and in the symbol. This is the class names' full name, and its symbol
theirs, unless the namespace is empty, where the full name has no dot. It is the full name of every
specification with those class names. -/
theorem entries_parse (src : Source) (names : ClassNames) (base : BaseType) (model : ModelType)
    {extra : Option String} (h : base.source.mapM (renderSource names) = .ok extra) :
    let recorded := names.namespace_ ++ "." ++ names.className
    (∃ u, SourceUnit.of names (src.parse names).tree base model = .ok u ∧
      u.text.toList = join ['\n'] u.sections ∧
      entries u.sections = entries u.ownSections ++ Entry.ofName recorded) ∧
    (recorded = names.fullName ↔ names.namespace_ ≠ "") ∧
    (typeSymbol recorded = typeSymbol names.fullName ↔ names.namespace_ ≠ "") ∧
    ∀ (s : ClassSpec) (b : BaseType), names = s.names b → recorded = s.fullName := by
  intro recorded
  obtain ⟨hname, hsymbol⟩ := recorded_agree_iff names
  refine ⟨⟨_, of_eq h, ?_, ?_⟩, hname, hsymbol, ?_⟩
  · exact SourceUnit.toList_text _
  · rw [entries_sections, exportedName_prepared]
    rfl
  · rintro s b rfl
    rfl

/-- Without a namespace there is a dot in front of the class name. -/
theorem entries_without_namespace :
    let names : ClassNames := { namespace_ := "", className := "Foo" }
    BaseType.modelFree.source.mapM (renderSource names) = .ok none ∧ names.fullName = "Foo" ∧
    ∃ u, SourceUnit.of names ((⟨['x'], "page"⟩ : Source).parse names).tree .modelFree .dynamic =
        .ok u ∧
      entries u.sections = [.record ".Foo", .listed ".Foo", .symbol "quill_type___Foo"] := by
  intro names
  have hextra : BaseType.modelFree.source.mapM (renderSource names) = .ok none := rfl
  obtain ⟨⟨u, hu, -, hentries⟩, -⟩ := entries_parse ⟨['x'], "page"⟩ names .modelFree .dynamic hextra
  have hown : u.ownSections = [] := by
    cases (of_eq hextra).symm.trans hu
    rfl
  refine ⟨hextra, by decide, u, hu, ?_⟩
  rw [hentries, hown]
  decide

/-- The full name of the class names is not always the recorded one. -/
theorem recorded_not_fullName :
    ¬ ∀ (src : Source) (names : ClassNames) (base : BaseType) (model : ModelType) (u : SourceUnit),
      SourceUnit.of names (src.parse names).tree base model = .ok u →
      entries u.sections = entries u.ownSections ++ Entry.ofName names.fullName := by
  intro h
  let names : ClassNames := { namespace_ := "", className := "Foo" }
  have hextra : BaseType.modelFree.source.mapM (renderSource names) = .ok none := rfl
  have hentries := h ⟨['x'], "page"⟩ names .modelFree .dynamic _ (of_eq hextra)
  rw [entries_sections, exportedName_prepared] at hentries
  exact absurd (List.append_cancel_left hentries) (by decide)

end Sigil.Code
