import Sigil.Library.Exports
import Sigil.Proofs.Text.Utf8

/-!
# Looking up a type

A type is looked up by its symbol, in which the dots of its full name are underscores, and the
record that is found is not compared with the request. `Alike r n` says which requests `r` reach
the type `n`; all others are told what the library holds (`load_single_iff`). Full names of class
specifications are alike only if they are the same, since their class names hold no dots
(`alike_fullName_iff`).
-/

namespace Sigil.Library

open Text Template Render Code

/-! ## Symbols -/

theorem mem_undotted {c : Char} (hdot : c ≠ '.') (hunder : c ≠ '_') {s : List Char} :
    c ∈ undotted s ↔ c ∈ s := by
  rw [undotted, List.mem_map]
  constructor
  · rintro ⟨d, hd, rfl⟩
    split at hunder
    · exact absurd rfl hunder
    · rename_i h
      rwa [if_neg h]
  · exact fun h => ⟨c, h, if_neg hdot⟩

theorem undotted_of_notMem {s : List Char} (h : '.' ∉ s) : undotted s = s := by
  have hid : ∀ c ∈ s, (if c = '.' then '_' else c) = id c := by
    intro c hc
    refine if_neg ?_
    rintro rfl
    exact h hc
  rw [undotted, List.map_congr_left hid, List.map_id]

/-- A symbol is looked up as itself, and with a NUL at its end as what stands in front. -/
theorem lookupKey?_eq_some_iff {symbol key : String} :
    Exports.lookupKey? symbol = some key ↔ '\x00' ∉ key.toList ∧
      (symbol.toList = key.toList ∨ symbol.toList = key.toList ++ ['\x00']) := by
  have hkey : ∀ {cs : List Char}, (if cs.contains '\x00' then none else some (String.ofList cs)) =
      some key ↔ '\x00' ∉ key.toList ∧ cs = key.toList := by
    intro cs
    rw [Option.ite_none_left_eq_some, List.contains_iff_mem, Option.some.injEq]
    constructor
    · rintro ⟨hnul, rfl⟩
      rw [String.toList_ofList]
      exact ⟨hnul, rfl⟩
    · rintro ⟨hnul, rfl⟩
      exact ⟨hnul, String.ofList_toList⟩
  unfold Exports.lookupKey?
  simp only
  split
  · rename_i hlast
    obtain ⟨cs, hcs⟩ := List.getLast?_eq_some_iff.1 hlast
    rw [hkey, hcs, List.dropLast_concat]
    refine and_congr_right fun hnul => ?_
    rw [List.append_cancel_right_eq, or_iff_right]
    exact fun h => hnul (h ▸ List.mem_append_right cs List.mem_cons_self)
  · rename_i hlast
    rw [hkey]
    refine and_congr_right fun hnul => ?_
    rw [or_iff_left]
    exact fun h => hlast (by rw [h, List.getLast?_concat])

/-- The request `r` has the symbol of the full name `n`, apart from one NUL at its end. -/
def Alike (r n : String) : Prop :=
  '\x00' ∉ n.toList ∧
    (undotted r.toList = undotted n.toList ∨ undotted r.toList = undotted n.toList ++ ['\x00'])

instance (r n : String) : Decidable (Alike r n) := inferInstanceAs (Decidable (_ ∧ _))

theorem lookupKey?_typeSymbol {r n : String} :
    Exports.lookupKey? (typeSymbol r) = some (typeSymbol n) ↔ Alike r n := by
  have hnul : '\x00' ∉ (typeSymbol n).toList ↔ '\x00' ∉ n.toList := by
    rw [toList_typeSymbol, List.mem_append, mem_undotted (by decide) (by decide)]
    simp
  rw [lookupKey?_eq_some_iff, hnul, toList_typeSymbol, toList_typeSymbol, List.append_assoc,
    List.append_cancel_left_eq, List.append_cancel_left_eq, Alike]

/-! ## Full names of specifications -/

theorem isIdentifier_of_check {s : ClassSpec} (h : s.check = .ok ()) :
    isIdentifier s.className.toList = true := by
  unfold ClassSpec.check at h
  split at h
  · cases h
  · split at h
    · cases h
    · rename_i hname
      simpa using hname

theorem isNamePart_of_mem_identifier {s : List Char} (h : isIdentifier s = true) :
    ∀ c ∈ s, isNamePart c = true := by
  cases s with
  | nil => cases h
  | cons c r =>
    simp only [isIdentifier, Bool.and_eq_true, List.all_eq_true] at h
    exact List.forall_mem_cons.2 ⟨isNamePart_of_isNameStart h.1.1, h.1.2⟩

/-- Two specifications in order have alike names only if they have the same name. -/
theorem alike_fullName_iff {s t : ClassSpec} (hs : s.check = .ok ()) (ht : t.check = .ok ()) :
    Alike s.fullName t.fullName ↔ s.fullName = t.fullName := by
  have hparts : ∀ {s : ClassSpec} {c : Char}, s.check = .ok () → isNamePart c = false →
      c ∉ s.className.toList := by
    intro s c h hc hmem
    have := isNamePart_of_mem_identifier (isIdentifier_of_check h) c hmem
    exact absurd (hc.symm.trans this) (by decide)
  have hname : ∀ {s : ClassSpec}, s.check = .ok () → undotted s.fullName.toList =
      undotted (classNamespace ++ ".").toList ++ s.className.toList := by
    intro s h
    rw [ClassSpec.fullName, String.toList_append, undotted, List.map_append, ← undotted,
      ← undotted, undotted_of_notMem (hparts h (by decide))]
  have hnul : ∀ {s : ClassSpec}, s.check = .ok () → '\x00' ∉ s.fullName.toList := by
    intro s h
    rw [ClassSpec.fullName, String.toList_append, List.mem_append, not_or]
    exact ⟨by decide, hparts h (by decide)⟩
  constructor
  · rintro ⟨-, h | h⟩
    · rw [hname hs, hname ht] at h
      rw [ClassSpec.fullName, ClassSpec.fullName,
        String.toList_inj.1 (List.append_cancel_left h)]
    · refine absurd ?_ (hnul hs)
      rw [← mem_undotted (by decide) (by decide), h]
      exact List.mem_append_right _ List.mem_cons_self
  · intro h
    rw [h]
    exact ⟨hnul ht, .inl rfl⟩

/-! ## Libraries of one type -/

namespace Exports

/-- The library of one type: its symbol, its record and a list with its full name. -/
def single (n base model : String) (p : Program) : Exports :=
  ⟨[(typeSymbol n, some ⟨Utf8.encode n, Utf8.encode base, Utf8.encode model, p⟩)],
    some (some [Utf8.encode n])⟩

theorem ofUnit_eq_single (u : SourceUnit) :
    ofUnit u = single (exportedName u.tree) u.tree.baseType u.model.text u.program := rfl

end Exports

section

variable (n base model : String) {p : Program} (path : String)

theorem recordText_encode (s : String) : recordText (Utf8.encode s) = .ok s := by
  rw [recordText, Utf8.decode_encode]

theorem load_record (hp : p.version = abiVersion) :
    TypeRecord.load ⟨Utf8.encode n, Utf8.encode base, Utf8.encode model, p⟩ path =
      .ok ⟨n, base, model, path, p⟩ := by
  rw [TypeRecord.load, if_neg (by simp [hp])]
  simp only [recordText_encode]
  rfl

theorem missing_single (r : String) :
    (Exports.single n base model p).missing path r = .typeNotFound r [n] := by
  have hentry : entryText (Utf8.encode n) = n := by
    rw [entryText, recordText_encode]
    rfl
  rw [Exports.missing, Exports.single]
  simp only [List.map_cons, List.map_nil, hentry]

theorem find_single (hp : p.version = abiVersion) (r : String) :
    (Exports.single n base model p).find path r =
      if Alike r n then .ok ⟨n, base, model, path, p⟩ else .error (.typeNotFound r [n]) := by
  rw [Exports.find]
  by_cases h : Alike r n
  · rw [if_pos h, lookupKey?_typeSymbol.2 h]
    simp only [Exports.single, Option.bind_some, List.lookup_cons_self]
    exact load_record n base model path hp
  · have hnone : (Exports.lookupKey? (typeSymbol r)).bind
        (fun key => (Exports.single n base model p).symbols.lookup key) = none := by
      rw [Option.bind_eq_none_iff]
      intro key hkey
      have hne : key ≠ typeSymbol n := fun he => h (lookupKey?_typeSymbol.1 (he ▸ hkey))
      rw [Exports.single, List.lookup_cons, beq_eq_false_iff_ne.2 hne, List.lookup_nil]
    rw [if_neg h, hnone]
    exact congrArg Except.error (missing_single n base model path r)

end

/-- Of a library of one type a request gets the type exactly if it is alike to the full name, and is
otherwise told that name. So the answer is the right one, the requested type or that it is missing,
exactly if the request is not alike to another name. It is right for any two names of
specifications in order. -/
theorem load_single_iff (n base model : String) (p : Program) (hp : p.version = abiVersion)
    (copied : Bool) (path r : String) :
    let answer := load copied path (.library (.single n base model p)) r
    (answer = if Alike r n then .ok ⟨n, base, model, path, p⟩ else .error (.typeNotFound r [n])) ∧
    ((r = n → ∃ t, answer = .ok t ∧ t.fullName = r) ∧
      (r ≠ n → answer = .error (.typeNotFound r [n])) ↔ (Alike r n ↔ r = n)) ∧
    (∀ s t : ClassSpec, s.check = .ok () → t.check = .ok () → r = s.fullName → n = t.fullName →
      (Alike r n ↔ r = n)) := by
  intro answer
  have hanswer : answer =
      if Alike r n then .ok ⟨n, base, model, path, p⟩ else .error (.typeNotFound r [n]) :=
    find_single n base model path hp r
  refine ⟨hanswer, ?_, fun s t hs ht hr hn => hr ▸ hn ▸ alike_fullName_iff hs ht⟩
  rw [hanswer]
  by_cases h : Alike r n
  · rw [if_pos h]
    constructor
    · rintro ⟨-, hne⟩
      refine ⟨fun _ => Decidable.byContradiction fun hr => ?_, fun _ => h⟩
      cases hne hr
    · exact fun hiff => ⟨fun hr => ⟨_, rfl, hr.symm⟩, fun hr => absurd (hiff.1 h) hr⟩
  · rw [if_neg h]
    constructor
    · rintro ⟨hr, -⟩
      refine ⟨fun ha => absurd ha h, fun heq => ?_⟩
      obtain ⟨t, ht, -⟩ := hr heq
      cases ht
    · exact fun hiff => ⟨fun hr => absurd (hiff.2 hr) h, fun _ => rfl⟩

/-- The unit of a class without statements that is named with an underscore. -/
def underscoredUnit : SourceUnit :=
  let names : ClassNames := { className := "Home_Page" }
  ⟨names, names.tree [], .dynamic, none⟩

/-- A request with a dot in place of the underscore gets the type. -/
theorem load_dotted_request :
    underscoredUnit.program.version = abiVersion ∧
    ∀ copied path, load copied path (.library (.ofUnit underscoredUnit))
        "CompiledTemplates.Dynamic.Home.Page" =
      .ok ⟨"CompiledTemplates.Dynamic.Home_Page", "TemplateBase", "dynamic", path,
        underscoredUnit.program⟩ := by
  refine ⟨rfl, fun copied path => ?_⟩
  rw [Exports.ofUnit_eq_single, (load_single_iff _ _ _ underscoredUnit.program rfl copied path _).1,
    if_pos (by decide)]
  rfl

/-- A request for a name that no library holds can get the type of another name. -/
theorem other_type_loaded :
    ¬ ∀ (u : SourceUnit) (copied : Bool) (path r : String),
      let answer := load copied path (.library (.ofUnit u)) r
      (r = exportedName u.tree → ∃ t, answer = .ok t ∧ t.fullName = r) ∧
      (r ≠ exportedName u.tree → answer = .error (.typeNotFound r [exportedName u.tree])) := by
  intro h
  have hanswer := (h underscoredUnit false "page.so" "CompiledTemplates.Dynamic.Home.Page").2
    (by decide)
  rw [load, Exports.ofUnit_eq_single, find_single _ _ _ _ rfl, if_pos (by decide)] at hanswer
  cases hanswer

end Sigil.Library
