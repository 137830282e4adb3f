import Mathlib.Data.List.Induction
import Mathlib.Data.List.TakeWhile
import Sigil.Proofs.Disk.Parent
import Sigil.Proofs.Library.Candidates
import Sigil.Proofs.Text.Trim

/-!
# Modules in a memory map

A line of a memory map has five fields and maybe a path (`MapLine`), and any text without line feeds
can be taken apart like this (`MapLine.exists_text`). A line is read as its path (`mapPath?_text`),
also without a carriage return at its end. The main statement says which modules are read from lines
(`modules_of_lines`): one for each path of a shared library, where it occurs first.
-/

namespace Sigil.Library

open Text

/-! ## Lines -/

/-- A field of a line, with the blanks behind it. -/
structure Field where
  word : List Char
  gap : List Char
  word_ne_nil : word ≠ []
  word_clear : ∀ c ∈ word, isBlank c = false
  gap_ne_nil : gap ≠ []
  gap_blank : IsBlankText gap
  gap_unbroken : '\n' ∉ gap

def Field.text (f : Field) : List Char := f.word ++ f.gap

/-- A line of a memory map: fields with blanks behind them, and behind five of them a path or
nothing. If there are fewer, a last one may follow with nothing behind it. -/
structure MapLine where
  lead : List Char
  fields : List Field
  rest : List Char
  lead_blank : IsBlankText lead
  lead_unbroken : '\n' ∉ lead
  few : fields.length ≤ 5
  last_clear : fields.length < 5 → ∀ c ∈ rest, isBlank c = false
  rest_trimmed : trim rest = rest
  rest_unbroken : '\n' ∉ rest
  /-- There is at most one mark that the file was deleted. -/
  marked_once : ∀ p, rest = p ++ deletedMark → ¬ deletedMark <:+ p

namespace MapLine

def text (l : MapLine) : List Char := l.lead ++ (l.fields.flatMap Field.text ++ l.rest)

def path? (l : MapLine) : Option (List Char) :=
  if l.fields.length = 5 ∧ l.rest ≠ [] then some l.rest else none

end MapLine

def mapText (ls : List MapLine) : String := String.ofList (ls.flatMap (·.text ++ ['\n']))

/-! ## Every line -/

/-- A text that begins with no blank is free of them or begins with a field. -/
theorem exists_field {t : List Char} (ht : '\n' ∉ t) (hhead : ∀ c ∈ t.head?, isBlank c = false) :
    (∀ c ∈ t, isBlank c = false) ∨
      ∃ (f : Field) (r : List Char), t = f.word ++ r ∧ f.gap = r.takeWhile isBlank := by
  have hcut : t.takeWhile (!isBlank ·) ++ t.dropWhile (!isBlank ·) = t :=
    List.takeWhile_append_dropWhile
  have hword : ∀ c ∈ t.takeWhile (!isBlank ·), isBlank c = false := fun c hc => by
    simpa using List.all_eq_true.1 List.all_takeWhile c hc
  cases hbehind : t.dropWhile (!isBlank ·) with
  | nil =>
    rw [hbehind, List.append_nil] at hcut
    exact .inl (hcut ▸ hword)
  | cons b r =>
    rw [hbehind] at hcut
    have hblank : isBlank b = true := by
      have := List.head?_dropWhile_not (!isBlank ·) t
      simpa [hbehind] using this
    refine .inr ⟨⟨t.takeWhile (!isBlank ·), (b :: r).takeWhile isBlank, ?_, hword, ?_, ?_, ?_⟩,
      b :: r, hcut.symm, rfl⟩
    · intro hnil
      rw [hnil, List.nil_append] at hcut
      have := hhead b (hcut ▸ rfl)
      exact Bool.false_ne_true (this.symm.trans hblank)
    · simp [hblank]
    · exact fun c hc => List.all_eq_true.1 List.all_takeWhile c hc
    · exact fun h =>
        ht (hcut ▸ List.mem_append_right _ ((List.takeWhile_prefix _).subset h))

theorem exists_fields (n : Nat) {s : List Char} (hs : '\n' ∉ s) :
    ∃ (fs : List Field) (rest : List Char), fs.length ≤ n ∧
      (fs.length < n → ∀ c ∈ rest, isBlank c = false) ∧
      (∀ c ∈ rest.head?, isBlank c = false) ∧
      s = s.takeWhile isBlank ++ (fs.flatMap Field.text ++ rest) := by
  have hstart (s : List Char) : s = s.takeWhile isBlank ++ trimStart s :=
    List.takeWhile_append_dropWhile.symm
  induction n generalizing s with
  | zero =>
    exact ⟨[], trimStart s, Nat.le_refl 0, fun h => absurd h (Nat.lt_irrefl 0), head?_trimStart s,
      hstart s⟩
  | succ n ih =>
    have ht : '\n' ∉ trimStart s := fun h => hs ((List.dropWhile_suffix _).subset h)
    rcases exists_field ht (head?_trimStart s) with hclear | ⟨f, r, hcut, hgap⟩
    · exact ⟨[], trimStart s, Nat.zero_le _, fun _ => hclear, head?_trimStart s, hstart s⟩
    · have hr : '\n' ∉ r := fun h => ht (hcut ▸ List.mem_append_right f.word h)
      obtain ⟨fs, rest, hlength, hclear, hhead, hrest⟩ := ih hr
      refine ⟨f :: fs, rest, Nat.succ_le_succ hlength,
        fun h => hclear (Nat.lt_of_succ_lt_succ h), hhead, ?_⟩
      rw [List.flatMap_cons, List.append_assoc, Field.text, List.append_assoc, hgap, ← hrest,
        ← hcut]
      exact hstart s

/-- Every text without line feeds is a line, if it ends with no blank and at most one mark. -/
theorem MapLine.exists_text {s : List Char} (hs : '\n' ∉ s)
    (hlast : ∀ c ∈ s.getLast?, isBlank c = false)
    (hmark : ∀ p, s = p ++ deletedMark → ¬ deletedMark <:+ p) : ∃ l : MapLine, l.text = s := by
  obtain ⟨fs, rest, hlength, hclear, hhead, heq⟩ := exists_fields 5 hs
  obtain ⟨front, hfront⟩ : ∃ front, s = front ++ rest :=
    ⟨_, heq.trans (List.append_assoc _ _ _).symm⟩
  refine ⟨⟨s.takeWhile isBlank, fs, rest, fun c hc => List.all_eq_true.1 List.all_takeWhile c hc,
    fun h => hs ((List.takeWhile_prefix _).subset h), hlength, hclear, ?_, ?_, ?_⟩, heq.symm⟩
  · refine trim_eq_self hhead fun c hc => hlast c ?_
    rw [hfront, List.getLast?_append, Option.mem_def.1 hc]
    rfl
  · exact fun h => hs (hfront ▸ List.mem_append_right front h)
  · rintro p hp ⟨q, hq⟩
    refine hmark (front ++ p) ?_ ⟨front ++ q, ?_⟩
    · rw [hfront, hp, List.append_assoc]
    · rw [List.append_assoc, hq]

/-! ## Fields are skipped -/

theorem afterFields?_field {lead : List Char} (hlead : IsBlankText lead) (f : Field)
    (n : Nat) (r : List Char) :
    afterFields? (n + 1) (lead ++ (f.text ++ r)) = afterFields? n (f.gap ++ r) := by
  obtain ⟨c, w, hword⟩ := List.exists_cons_of_ne_nil f.word_ne_nil
  obtain ⟨b, g, hgap⟩ := List.exists_cons_of_ne_nil f.gap_ne_nil
  have hstart : trimStart (lead ++ (f.text ++ r)) = f.word ++ (f.gap ++ r) := by
    rw [trimStart_append hlead, Field.text, List.append_assoc, trimStart_eq_self]
    intro d hd
    rw [hword, List.cons_append, List.head?_cons, Option.mem_some_iff] at hd
    exact f.word_clear d (by simp [hword, hd])
  have hdrop : (f.word ++ (f.gap ++ r)).dropWhile (!isBlank ·) = f.gap ++ r := by
    rw [List.dropWhile_append_of_pos fun d hd => by simp [f.word_clear d hd], hgap,
      List.cons_append, List.dropWhile_cons_of_neg]
    simp [f.gap_blank b (by simp [hgap])]
  rw [afterFields?, hstart, hdrop, hgap]
  rfl

theorem exists_afterFields? (fs : List Field) {lead : List Char} (hlead : IsBlankText lead) :
    ∃ gap, IsBlankText gap ∧ ∀ k r,
      afterFields? (fs.length + k) (lead ++ (fs.flatMap Field.text ++ r)) =
        afterFields? k (gap ++ r) := by
  induction fs generalizing lead with
  | nil => exact ⟨lead, hlead, fun k r => by rw [List.length_nil, Nat.zero_add]; rfl⟩
  | cons f fs ih =>
    obtain ⟨gap, hgap, hfs⟩ := ih f.gap_blank
    refine ⟨gap, hgap, fun k r => ?_⟩
    rw [List.length_cons, Nat.add_right_comm, List.flatMap_cons, List.append_assoc,
      afterFields?_field hlead, hfs]

theorem afterFields?_of_clear {gap r : List Char} (hgap : IsBlankText gap)
    (hr : ∀ c ∈ r, isBlank c = false) (n : Nat) : afterFields? (n + 1) (gap ++ r) = none := by
  have hstart : trimStart (gap ++ r) = r := by
    rw [trimStart_append hgap, trimStart_eq_self]
    exact fun c hc => hr c (List.mem_of_mem_head? hc)
  have hdrop : r.dropWhile (!isBlank ·) = [] := by
    rw [List.dropWhile_eq_nil_iff]
    exact fun c hc => by simp [hr c hc]
  rw [afterFields?, hstart, hdrop]

theorem mapPath?_text (l : MapLine) : mapPath? l.text = l.path? := by
  obtain ⟨gap, hgap, hfields⟩ := exists_afterFields? l.fields l.lead_blank
  rw [mapPath?, MapLine.text, MapLine.path?]
  rcases Nat.lt_or_eq_of_le l.few with hlt | heq
  · have hnone : afterFields? 5 (l.lead ++ (l.fields.flatMap Field.text ++ l.rest)) = none := by
      have := hfields (4 - l.fields.length + 1) l.rest
      rwa [show l.fields.length + (4 - l.fields.length + 1) = 5 by omega,
        afterFields?_of_clear hgap (l.last_clear hlt)] at this
    rw [hnone, if_neg fun h => Nat.ne_of_lt hlt h.1]
  · have hsome : afterFields? 5 (l.lead ++ (l.fields.flatMap Field.text ++ l.rest)) =
        some (gap ++ l.rest) := by
      have := hfields 0 l.rest
      rwa [Nat.add_zero, heq] at this
    rw [hsome]
    simp only [trim_append hgap, l.rest_trimmed, heq, true_and]
    by_cases hrest : l.rest = []
    · rw [hrest]
      rfl
    · rw [if_neg (by simpa using hrest), if_pos hrest]

/-! ## Ends of lines -/

section

variable {c : Char} (hc : isBlank c = true)

include hc

theorem trimStart_snoc (s : List Char) :
    trimStart (s ++ [c]) = if (trimStart s).isEmpty then [] else trimStart s ++ [c] := by
  rw [trimStart, List.dropWhile_append, trimStart]
  split
  · exact List.dropWhile_cons_of_pos hc
  · rfl

theorem dropWord_snoc (s : List Char) :
    (s ++ [c]).dropWhile (!isBlank ·) = s.dropWhile (!isBlank ·) ++ [c] := by
  rw [List.dropWhile_append]
  split
  · rename_i h
    rw [List.isEmpty_iff.1 h, List.dropWhile_cons_of_neg (by simp [hc])]
    rfl
  · rfl

theorem trim_snoc (s : List Char) : trim (s ++ [c]) = trim s :=
  trim_append_right (List.forall_mem_singleton.2 hc) s

/-- A blank behind a text is left behind the fields, or there are none to skip but for it. -/
theorem afterFields?_snoc (n : Nat) (s : List Char) :
    (∃ r, afterFields? n s = some r ∧ afterFields? n (s ++ [c]) = some (r ++ [c])) ∨
      (afterFields? n s = none ∧ ∀ r ∈ afterFields? n (s ++ [c]), IsBlankText r) := by
  have hblank : IsBlankText [c] := List.forall_mem_singleton.2 hc
  induction n generalizing s with
  | zero => exact .inl ⟨s, rfl, rfl⟩
  | succ n ih =>
    rw [afterFields?, afterFields?, trimStart_snoc hc]
    by_cases hs : trimStart s = []
    · refine .inr ⟨by rw [hs]; rfl, ?_⟩
      rw [hs]
      intro r hr
      cases hr
    · rw [if_neg (by simpa using hs), dropWord_snoc hc]
      cases hu : (trimStart s).dropWhile (!isBlank ·) with
      | cons d u => exact ih (d :: u)
      | nil =>
        refine .inr ⟨rfl, ?_⟩
        cases n with
        | zero =>
          intro r hr
          rw [← Option.some.inj hr]
          exact hblank
        | succ n =>
          have hnone := afterFields?_of_clear hblank (List.forall_mem_nil _) n
          rw [List.append_nil] at hnone
          intro r hr
          cases hnone.symm.trans hr

theorem mapPath?_snoc (s : List Char) : mapPath? (s ++ [c]) = mapPath? s := by
  unfold mapPath?
  rcases afterFields?_snoc hc 5 s with ⟨r, hs, hsnoc⟩ | ⟨hs, hsnoc⟩
  · rw [hs, hsnoc]
    simp only [trim_snoc hc]
  · rw [hs]
    cases h : afterFields? 5 (s ++ [c]) with
    | none => rfl
    | some r =>
      have hnil : trim r = [] := (trim_eq_nil_iff r).2 (hsnoc r h)
      simp only [hnil, List.isEmpty_nil, if_true]

end

/-- A carriage return at the end of a line does not matter. -/
theorem mapPath?_dropReturn (s : List Char) : mapPath? (dropReturn s) = mapPath? s := by
  rw [dropReturn]
  cases h : before? ['\r'] s with
  | none => rfl
  | some t =>
    rw [Option.getD_some, before?_eq_some_iff.1 h]
    exact (mapPath?_snoc (by decide) t).symm

theorem lines_flatMap {ls : List (List Char)} (h : ∀ l ∈ ls, '\n' ∉ l) :
    lines (ls.flatMap (· ++ ['\n'])) = ls.map dropReturn := by
  have hfields : fields '\n' (ls.flatMap (· ++ ['\n'])) = ls ++ [[]] := by
    induction ls with
    | nil => rfl
    | cons l ls ih =>
      rw [List.forall_mem_cons] at h
      rw [List.flatMap_cons, List.append_assoc, List.singleton_append, fields_append,
        fields_of_notMem h.1, ih h.2, List.singleton_append, List.cons_append]
  rw [lines, hfields]
  simp

theorem MapLine.notMem_text (l : MapLine) : '\n' ∉ l.text := by
  rw [text, List.mem_append, List.mem_append, List.mem_flatMap]
  rintro (h | ⟨f, -, h⟩ | h)
  · exact l.lead_unbroken h
  · rcases List.mem_append.1 h with h | h
    · exact absurd (f.word_clear _ h) (by decide)
    · exact f.gap_unbroken h
  · exact l.rest_unbroken h

theorem mappedPaths_mapText (ls : List MapLine) :
    mappedPaths (mapText ls) = ((ls.filterMap MapLine.path?).filter isMappedLibrary).eraseDups := by
  have hlines : lines (mapText ls).toList = ls.map fun l => dropReturn l.text := by
    have hmap : ls.flatMap (·.text ++ ['\n']) = (ls.map MapLine.text).flatMap (· ++ ['\n']) := by
      rw [List.flatMap_map]
    have hunbroken : ∀ t ∈ ls.map MapLine.text, '\n' ∉ t := by
      rw [List.forall_mem_map]
      exact fun l _ => l.notMem_text
    rw [mapText, String.toList_ofList, hmap, lines_flatMap hunbroken, List.map_map]
    rfl
  rw [mappedPaths, hlines, List.filterMap_map]
  congr 2
  refine List.filterMap_congr fun l _ => ?_
  rw [Function.comp_apply, mapPath?_dropReturn, mapPath?_text]

/-! ## First occurrences -/

section

variable {α : Type} [BEq α] [LawfulBEq α]

theorem eraseDups_append_singleton (l : List α) (x : α) [Decidable (x ∈ l)] :
    (l ++ [x]).eraseDups = if x ∈ l then l.eraseDups else l.eraseDups ++ [x] := by
  rw [List.eraseDups_append]
  split
  · rename_i h
    simp [List.removeAll, h]
  · rename_i h
    simp [List.removeAll, h, List.eraseDups_cons]

theorem eraseDups_append_cons {a : List α} {x : α} (h : x ∈ a) (b : List α) :
    (a ++ x :: b).eraseDups = (a ++ b).eraseDups := by
  rw [List.eraseDups_append, List.eraseDups_append]
  simp [List.removeAll, h]

/-- What stays stands in the order in which it occurs first. -/
theorem pairwise_eraseDups_filter (p : α → Bool) (l : List α) :
    (l.filter p).eraseDups.Pairwise fun a b => l.idxOf a < l.idxOf b := by
  classical
  induction l using List.reverseRecOn with
  | nil => exact List.Pairwise.nil
  | append_singleton l x ih =>
    have hkept : ∀ a ∈ (l.filter p).eraseDups, a ∈ l := fun a ha =>
      List.mem_of_mem_filter (List.mem_eraseDups.1 ha)
    have hold : (l.filter p).eraseDups.Pairwise fun a b =>
        (l ++ [x]).idxOf a < (l ++ [x]).idxOf b := by
      refine ih.imp_of_mem fun {a b} ha hb hlt => ?_
      rwa [List.idxOf_append_of_mem (hkept a ha), List.idxOf_append_of_mem (hkept b hb)]
    rw [List.filter_append]
    cases hx : p x with
    | false => simpa [hx] using hold
    | true =>
      rw [List.filter_cons_of_pos hx, List.filter_nil, eraseDups_append_singleton]
      split
      · exact hold
      · rename_i hnot
        have hnew : x ∉ l := fun h => hnot (List.mem_filter.2 ⟨h, hx⟩)
        rw [List.pairwise_append]
        refine ⟨hold, List.pairwise_singleton _ _, fun a ha b hb => ?_⟩
        rw [List.mem_singleton.1 hb, List.idxOf_append_of_mem (hkept a ha),
          List.idxOf_append_of_notMem hnew]
        exact Nat.lt_of_lt_of_le (List.idxOf_lt_length_of_mem (hkept a ha)) (Nat.le_add_right _ _)

end

/-! ## Paths of shared libraries -/

/-- A path without a mark at its end that its file was deleted. -/
def unmarked (p : List Char) : List Char := (before? deletedMark p).getD p

/-- What stands behind the last slash of a path. -/
def baseName (p : List Char) : List Char := (p.reverse.takeWhile (· ≠ '/')).reverse

/-- A path of a memory map that belongs to a shared library. -/
def IsMapped (p : List Char) : Prop :=
  (['/'] <+: p ∨ "memfd:".toList <+: p) ∧
    isSharedName (String.ofList (baseName (unmarked p))) = true

theorem slash_notMem_baseName (p : List Char) : '/' ∉ baseName p := by
  intro h
  have := List.all_eq_true.1 List.all_takeWhile _ (List.mem_reverse.1 h)
  simp at this

/-- A path is what stands behind its last slash, or that and something in front of the slash. -/
theorem baseName_cases (p : List Char) : p = baseName p ∨ ∃ dir, p = dir ++ '/' :: baseName p := by
  have hsplit : p = (p.reverse.dropWhile (· ≠ '/')).reverse ++ baseName p := by
    rw [baseName, ← List.reverse_append, List.takeWhile_append_dropWhile, List.reverse_reverse]
  cases hdrop : p.reverse.dropWhile (· ≠ '/') with
  | nil =>
    rw [hdrop] at hsplit
    exact .inl hsplit
  | cons c r =>
    have hslash : c = '/' := by
      have := List.head?_dropWhile_not (· ≠ '/') p.reverse
      rw [hdrop] at this
      simpa using this
    rw [hdrop, hslash, List.reverse_cons, List.append_assoc, List.singleton_append] at hsplit
    exact .inr ⟨_, hsplit⟩

theorem getLast?_fields (p : List Char) : (fields '/' p).getLast? = some (baseName p) := by
  have hbase := fields_of_notMem (slash_notMem_baseName p)
  rcases baseName_cases p with h | ⟨dir, h⟩
  · conv => enter [1]; rw [h, hbase]
    rfl
  · conv => enter [1]; rw [h, fields_append, hbase]
    exact List.getLast?_concat ..

/-- One mark is all that is taken away from a path that has at most one. -/
theorem dropMarks_eq {p : List Char} (h : ∀ q, p = q ++ deletedMark → ¬ deletedMark <:+ q) :
    dropMarks p = unmarked p := by
  rw [dropMarks, unmarked]
  split
  · rename_i q hq
    have hnone : before? deletedMark q = none := by
      cases hr : before? deletedMark q with
      | none => rfl
      | some r =>
        exact absurd ⟨r, (before?_eq_some_iff.1 hr).symm⟩ (h q (before?_eq_some_iff.1 hq))
    rw [hq, Option.getD_some, dropMarks]
    split
    · rename_i hr
      cases hnone.symm.trans hr
    · rfl
  · rename_i hq
    rw [hq, Option.getD_none]

theorem isMappedLibrary_iff {p : List Char} (h : ∀ q, p = q ++ deletedMark → ¬ deletedMark <:+ q) :
    isMappedLibrary p = true ↔ IsMapped p := by
  rw [isMappedLibrary, dropMarks_eq h, getLast?_fields, Option.getD_some, Bool.and_eq_true,
    Bool.or_eq_true, startsWith_iff_isPrefix, startsWith_iff_isPrefix, IsMapped]

/-! ## The module at a path -/

theorem isName_of_isSharedName {s : List Char} (hslash : '/' ∉ s)
    (h : isSharedName (String.ofList s) = true) : Path.IsName s := by
  refine ⟨?_, ?_, ?_, hslash⟩ <;>
  · rintro rfl
    exact absurd h (by decide +kernel)

theorem ofList_unmarked (p : List Char) :
    undeleted (String.ofList p) = String.ofList (unmarked p) := by
  rw [undeleted, unmarked, String.toList_ofList]
  cases before? deletedMark p <;> rfl

/-- What is known of the module at a path of a shared library. -/
theorem describe_of_isMapped (d : Disk) {p : List Char} (h : IsMapped p) :
    let m := Module.describe d (String.ofList p)
    (m.name, m.version) = readFileName (String.ofList (baseName (unmarked p))) ∧
      m.location = some (String.ofList (unmarked p)) ∧
      (m.isTemporary = true ↔ deletedMark <:+ p ∨ "memfd:".toList <+: p ∨ "/memfd:".toList <+: p ∨
        d.holds (String.ofList (unmarked p)) = false) := by
  have hname := isName_of_isSharedName (slash_notMem_baseName _) h.2
  have hfile : Path.fileName? (undeleted (String.ofList p)) =
      some (String.ofList (baseName (unmarked p))) := by
    rw [ofList_unmarked]
    refine Path.fileName?_of_getLast? ?_ hname
    rw [String.toList_ofList, getLast?_fields]
  have hmark : (before? deletedMark p).isSome = true ↔ deletedMark <:+ p := by
    rw [Option.isSome_iff_exists]
    refine exists_congr fun q => ?_
    rw [before?_eq_some_iff]
    exact eq_comm
  refine ⟨?_, ?_, ?_⟩
  · rw [Module.describe_eq, hfile, Option.getD_some]
  · rw [Module.location_describe, ofList_unmarked]
  · rw [Module.describe_eq, ofList_unmarked]
    simp only [String.toList_ofList, Bool.or_eq_true, hmark, startsWith_iff_isPrefix, or_assoc,
      Bool.not_eq_true']

/-! ## The modules of a map -/

/-- A line that tells nothing behind others: it has fewer fields, or no path, or one in brackets, or
the path of one of the others. -/
inductive Silent (before : List MapLine) (l : MapLine) : Prop where
  | short (h : l.fields.length < 5)
  | anonymous (h : l.rest = [])
  | bracketed (h : l.rest.head? = some '[')
  | seen {p : List Char} (h : l.path? = some p) (hp : p ∈ before.filterMap MapLine.path?)

theorem MapLine.path?_eq_some_iff {l : MapLine} {p : List Char} :
    l.path? = some p ↔ l.fields.length = 5 ∧ p ≠ [] ∧ l.rest = p := by
  rw [path?]
  split
  · rename_i h
    rw [Option.some.injEq]
    exact ⟨fun hp => ⟨h.1, hp ▸ h.2, hp⟩, fun hp => hp.2.2⟩
  · rename_i h
    exact ⟨nofun, fun hp => absurd ⟨hp.1, hp.2.2 ▸ hp.2.1⟩ h⟩

theorem MapLine.isMappedLibrary_iff {l : MapLine} {p : List Char} (h : l.path? = some p) :
    isMappedLibrary p = true ↔ IsMapped p := by
  obtain ⟨-, -, hrest⟩ := path?_eq_some_iff.1 h
  exact Library.isMappedLibrary_iff (hrest ▸ l.marked_once)

/-- The path of a silent line is no shared library's or there already. -/
theorem Silent.path {before : List MapLine} {l : MapLine} (h : Silent before l) {p : List Char}
    (hp : l.path? = some p) : ¬ IsMapped p ∨ p ∈ before.filterMap MapLine.path? := by
  obtain ⟨hfive, hne, hrest⟩ := MapLine.path?_eq_some_iff.1 hp
  cases h with
  | short h => exact absurd hfive (Nat.ne_of_lt h)
  | anonymous h => exact absurd (hrest.symm.trans h) hne
  | bracketed h =>
    rw [hrest] at h
    refine .inl fun hmapped => ?_
    obtain ⟨r, hr⟩ := List.head?_eq_some_iff.1 h
    rcases hmapped.1 with ⟨t, ht⟩ | ⟨t, ht⟩
    · rw [hr] at ht
      exact absurd (List.cons.inj ht).1 (by decide)
    · rw [hr] at ht
      exact absurd (List.cons.inj ht).1 (by decide)
  | seen h hmem =>
    rw [hp, Option.some.injEq] at h
    exact .inr (h ▸ hmem)

theorem readMaps_silent (d : Disk) {before : List MapLine} {l : MapLine} (h : Silent before l)
    (after : List MapLine) :
    readMaps d (mapText (before ++ l :: after)) = readMaps d (mapText (before ++ after)) := by
  have hpaths : mappedPaths (mapText (before ++ l :: after)) =
      mappedPaths (mapText (before ++ after)) := by
    rw [mappedPaths_mapText, mappedPaths_mapText, List.filterMap_append, List.filterMap_append,
      List.filterMap_cons]
    cases hp : l.path? with
    | none => rfl
    | some p =>
      rw [List.filter_append, List.filter_append, List.filter_cons]
      split
      · rename_i hlibrary
        have hmem := (h.path hp).resolve_left fun hnot =>
          hnot ((MapLine.isMappedLibrary_iff hp).1 hlibrary)
        exact eraseDups_append_cons (List.mem_filter.2 ⟨hmem, hlibrary⟩) _
      · rfl
  rw [readMaps, readMaps, hpaths]

/-- The modules that are read from the lines of a memory map: one for each path of a shared library,
in the order in which the paths occur first. A module has the name and the version that its file's
name tells, it is located at its path without the mark that the file was deleted, and it is
temporary if it is marked so, is in memory or is not on the disk. Lines that tell nothing behind
others can stand anywhere behind them. -/
theorem modules_of_lines (d : Disk) (ls : List MapLine) :
    (∃ paths : List (List Char),
      paths.Nodup ∧
      (∀ p, p ∈ paths ↔ p ∈ ls.filterMap MapLine.path? ∧ IsMapped p) ∧
      paths.Pairwise (fun p q =>
        (ls.filterMap MapLine.path?).idxOf p < (ls.filterMap MapLine.path?).idxOf q) ∧
      readMaps d (mapText ls) = paths.map fun p => Module.describe d (String.ofList p)) ∧
    (∀ p, IsMapped p →
      let m := Module.describe d (String.ofList p)
      (m.name, m.version) = readFileName (String.ofList (baseName (unmarked p))) ∧
        m.location = some (String.ofList (unmarked p)) ∧
        (m.isTemporary = true ↔ deletedMark <:+ p ∨ "memfd:".toList <+: p ∨
          "/memfd:".toList <+: p ∨ d.holds (String.ofList (unmarked p)) = false)) ∧
    ∀ before l after, Silent before l →
      readMaps d (mapText (before ++ l :: after)) = readMaps d (mapText (before ++ after)) := by
  refine ⟨⟨mappedPaths (mapText ls), ?_, fun p => ?_, ?_, rfl⟩,
    fun p hp => describe_of_isMapped d hp, fun before l after h => readMaps_silent d h after⟩
  · rw [mappedPaths_mapText]
    refine (pairwise_eraseDups_filter _ _).imp fun {p q} hlt heq => ?_
    exact absurd hlt (heq ▸ Nat.lt_irrefl _)
  · rw [mappedPaths_mapText, List.mem_eraseDups, List.mem_filter]
    refine and_congr_right fun hmem => ?_
    obtain ⟨l, -, hp⟩ := List.mem_filterMap.1 hmem
    exact MapLine.isMappedLibrary_iff hp
  · rw [mappedPaths_mapText]
    exact pairwise_eraseDups_filter _ _

example :
    (readMaps default "7f-80 r-xp 0 08:01 5 /tmp/libt.so.2 (deleted)\n80-81 rw-p 0 00:00 0\n").map
      (·.location) = [some "/tmp/libt.so.2"] := by decide +kernel

end Sigil.Library
