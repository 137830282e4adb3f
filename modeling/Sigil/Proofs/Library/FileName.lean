import Mathlib.Algebra.Group.Nat.Defs
import Mathlib.Data.List.Basic
import Mathlib.Data.List.TakeWhile
import Sigil.Library.Reference
import Sigil.Proofs.Disk.Parent

/-!
# Names told by file names

Three ways to write a library's name into the name of its file: in front of the version, as in
`libc.so.6` (`soName`) or `libfoo-2.31.so` (`versionedName`), and in front of a hash, as in
`libfoo-1a2b.rlib` (`hashedName`). `readFileName` takes name and version out of all of them
(`file_names_tell`).
-/

namespace Sigil.Library

open Text

/-! ## Numbers between dots and hyphens -/

theorem numbers_append_dot (a b : List Char) :
    numbers (a ++ '.' :: b) = numbers a ++ numbers b := by
  rw [numbers, fields_append, List.flatMap_append, List.filterMap_append, numbers, numbers]

/-- A hyphen in front separates nothing from what follows. -/
theorem numbers_hyphen (s : List Char) : numbers ('-' :: s) = numbers s := by
  obtain ⟨f, fs, hfields⟩ := List.exists_cons_of_ne_nil (fields_ne_nil '.' s)
  have hcut : fields '.' ('-' :: s) = ('-' :: f) :: fs := by
    rw [fields, if_neg (by decide), hfields]
  have hempty : fields '-' ('-' :: f) = [] :: fields '-' f := by rw [fields, if_pos rfl]
  rw [numbers, hcut, List.flatMap_cons, hempty, numbers, hfields, List.flatMap_cons]
  rfl

theorem numbers_part {w : List Char} (hdot : '.' ∉ w) (hhyphen : '-' ∉ w) :
    numbers w =
      (if w.isEmpty || !w.all Char.isDigit then none else Decimal.natural? w).toList := by
  rw [numbers, fields_of_notMem hdot, List.flatMap_singleton, fields_of_notMem hhyphen,
    List.filterMap_cons]
  split
  · rename_i h
    rw [h]
    rfl
  · rename_i h
    rw [h]
    rfl

theorem notMem_toDigits {c : Char} (hc : c.isDigit = false) (n : Nat) : c ∉ Nat.toDigits 10 n :=
  fun h => absurd (hc.symm.trans (Nat.isDigit_of_mem_toDigits (by decide) (by decide) h)) nofun

theorem all_isDigit_toDigits (n : Nat) : (Nat.toDigits 10 n).all Char.isDigit = true := by
  rw [List.all_eq_true]
  exact fun c hc => Nat.isDigit_of_mem_toDigits (by decide) (by decide) hc

theorem natural?_toDigits {n : Nat} (h : n < 2 ^ 64) :
    Decimal.natural? (Nat.toDigits 10 n) = some n := by
  have hplus : Decimal.dropPlus (Nat.toDigits 10 n) = Nat.toDigits 10 n := by
    unfold Decimal.dropPlus
    split
    · rename_i hcons
      exact absurd (hcons ▸ List.mem_cons_self) (notMem_toDigits (c := '+') (by decide) n)
    · rfl
  have hne : (Nat.toDigits 10 n).isEmpty = false := by
    rw [List.isEmpty_eq_false_iff]
    exact Nat.toDigits_ne_nil
  have hvalue : Decimal.ofDigits (Nat.toDigits 10 n) = n := Nat.ofDigitChars_ten_toDigits
  have hbound : n < Decimal.bound64 := h
  simp only [Decimal.natural?, hplus, all_isDigit_toDigits, hne, hvalue, Bool.not_true, Bool.or_false,
    Bool.false_eq_true, if_false, if_pos hbound]

theorem numbers_toDigits {n : Nat} (h : n < 2 ^ 64) : numbers (Nat.toDigits 10 n) = [n] := by
  rw [numbers_part (notMem_toDigits (by decide) n) (notMem_toDigits (by decide) n),
    natural?_toDigits h, all_isDigit_toDigits]
  simp [Nat.toDigits_ne_nil]

/-- Numbers with a dot in front of each. -/
def dotted (v : List Nat) : List Char := v.flatMap fun n => '.' :: Nat.toDigits 10 n

theorem numbers_append_dotted {v : List Nat} (hv : ∀ n ∈ v, n < 2 ^ 64) (w : List Char) :
    numbers (w ++ dotted v) = numbers w ++ v := by
  induction v generalizing w with
  | nil => rw [dotted, List.flatMap_nil, List.append_nil, List.append_nil]
  | cons n v ih =>
    rw [List.forall_mem_cons] at hv
    have hcons : w ++ dotted (n :: v) = w ++ '.' :: (Nat.toDigits 10 n ++ dotted v) := rfl
    rw [hcons, numbers_append_dot, ih hv.2, numbers_toDigits hv.1]
    rfl

/-- Letters and digits, not digits alone. -/
structure IsHash (w : List Char) : Prop where
  alphanum : ∀ c ∈ w, c.isAlphanum = true
  letter : ∃ c ∈ w, c.isDigit = false

theorem IsHash.notMem {w : List Char} (h : IsHash w) {c : Char} (hc : c.isAlphanum = false) :
    c ∉ w := fun hmem => absurd (hc.symm.trans (h.alphanum c hmem)) nofun

theorem IsHash.numbers_eq_nil {w : List Char} (h : IsHash w) : numbers w = [] := by
  have hdigits : w.all Char.isDigit = false := by
    rw [List.all_eq_false]
    obtain ⟨c, hc, hletter⟩ := h.letter
    exact ⟨c, hc, by rw [hletter]; exact Bool.false_ne_true⟩
  rw [numbers_part (h.notMem (by decide)) (h.notMem (by decide)), hdigits, Bool.not_false,
    Bool.or_true]
  rfl

/-! ## The name in front -/

theorem lastHyphen?_of_notMem {s : List Char} (h : '-' ∉ s) : lastHyphen? s = none := by
  have hall : s.reverse.takeWhile (· ≠ '-') = s.reverse := by
    rw [List.takeWhile_eq_self_iff]
    intro c hc
    exact decide_eq_true fun heq => h (heq ▸ List.mem_reverse.1 hc)
  unfold lastHyphen?
  simp only [hall, List.reverse_reverse, if_true]

theorem lastHyphen?_append {b : List Char} (h : '-' ∉ b) (a : List Char) :
    lastHyphen? (a ++ '-' :: b) = some (a, b) := by
  have hafter : ((a ++ '-' :: b).reverse.takeWhile (· ≠ '-')).reverse = b := by
    rw [List.reverse_append, List.reverse_cons, List.append_assoc, List.singleton_append,
      List.takeWhile_append_of_pos, List.takeWhile_cons_of_neg (by simp), List.append_nil,
      List.reverse_reverse]
    intro c hc
    exact decide_eq_true fun heq => h (heq ▸ List.mem_reverse.1 hc)
  unfold lastHyphen?
  simp only [hafter]
  rw [List.length_append, List.length_cons, if_neg (by omega)]
  have hlength : a.length + (b.length + 1) - b.length - 1 = a.length := by omega
  rw [hlength, List.take_left]

theorem cutHyphen_append {a b : List Char} (ha : a ≠ []) (hb : ∀ c ∈ b, c.isAlphanum = true) :
    cutHyphen (a ++ '-' :: b) = (a, '-' :: b) := by
  have hhyphen : '-' ∉ b := fun h => absurd (hb '-' h) (by decide)
  have hall : b.all Char.isAlphanum = true := List.all_eq_true.2 hb
  rw [cutHyphen, lastHyphen?_append hhyphen]
  simp [ha, hall]

/-- What a file name with `lib` in front tells, if a dot ends what stands in front of the rest. -/
theorem readFileName_eq {f : String} {head after name rest : List Char}
    (hf : f.toList = ['l', 'i', 'b'] ++ (head ++ after)) (hhead : '.' ∉ head)
    (hafter : ∀ c ∈ after.head?, c = '.') (hcut : cutHyphen head = (name, rest)) :
    readFileName f = (String.ofList name, ⟨numbers (rest ++ after)⟩) := by
  have hstem : stem f.toList = head ++ after := by
    rw [stem, after?_eq_some_iff.2 hf, Option.getD_some]
  have htake : (head ++ after).takeWhile (· ≠ '.') = head := by
    rw [List.takeWhile_append_of_pos]
    swap
    · intro c hc
      exact decide_eq_true fun heq => hhead (heq ▸ hc)
    cases after with
    | nil => exact List.append_nil head
    | cons c after =>
      rw [List.takeWhile_cons_of_neg (by simpa using hafter c rfl), List.append_nil]
  unfold readFileName
  simp only [hstem, htake, hcut, List.drop_left]

/-! ## File names -/

structure IsLibraryName (n : String) : Prop where
  ne_empty : n ≠ ""
  noDot : '.' ∉ n.toList
  noSlash : '/' ∉ n.toList

/-- The file name of a shared library with its version behind. -/
def soName (n : String) (v : Version) : String :=
  "lib" ++ n ++ ".so" ++ String.join (v.parts.map ("." ++ toString ·))

/-- The file name of a shared library with its version behind its name. -/
def versionedName (n : String) (v : Version) : String := "lib" ++ n ++ "-" ++ v.text ++ ".so"

def hashedName (n h : String) : String := "lib" ++ n ++ "-" ++ h ++ ".rlib"

/-- A file name tells a library's name and version, and in every directory its file provides the
name. -/
def Tells (f n : String) (v : Version) : Prop :=
  readFileName f = (n, v) ∧ ∀ dir, (Reference.file (Path.append dir f)).identity? = some n

theorem tells_of_cut {f n : String} {v : Version} {head after rest : List Char}
    (hf : f.toList = ['l', 'i', 'b'] ++ (head ++ after)) (hslash : '/' ∉ head ++ after)
    (hdot : '.' ∉ head) (hafter : ∀ c ∈ after.head?, c = '.')
    (hcut : cutHyphen head = (n.toList, rest)) (hnumbers : numbers (rest ++ after) = v.parts) :
    Tells f n v := by
  have hname : Path.IsName f.toList := by
    rw [hf]
    refine ⟨nofun, nofun, nofun, ?_⟩
    rw [List.mem_append, not_or]
    exact ⟨by decide, hslash⟩
  have hread : readFileName f = (n, v) := by
    rw [readFileName_eq hf hdot hafter hcut, hnumbers, String.ofList_toList]
  refine ⟨hread, fun dir => ?_⟩
  rw [Reference.identity?, Path.fileName?_append_name hname, Option.map_some, hread]

theorem notMem_dotted {c : Char} (hdot : c ≠ '.') (hdigit : c.isDigit = false) (v : List Nat) :
    c ∉ dotted v := by
  rw [dotted, List.mem_flatMap]
  rintro ⟨n, -, hc⟩
  rw [List.mem_cons] at hc
  exact hc.elim hdot (notMem_toDigits hdigit n)

theorem toList_soName (n : String) (v : Version) :
    (soName n v).toList =
      ['l', 'i', 'b'] ++ (n.toList ++ ('.' :: (['s', 'o'] ++ dotted v.parts))) := by
  have hparts : (String.join (v.parts.map ("." ++ toString ·))).toList = dotted v.parts := by
    rw [String.toList_join, List.flatMap_map, dotted]
    refine List.flatMap_congr fun k _ => ?_
    rw [String.toList_append, Nat.toString_eq_repr, Nat.toList_repr]
    rfl
  simp only [soName, String.toList_append, hparts, List.append_assoc]
  rfl

/-- A version's text with a dot in front is its numbers with a dot in front of each. -/
theorem toList_text {v : Version} (h : v.parts ≠ []) : '.' :: v.text.toList = dotted v.parts := by
  obtain ⟨parts⟩ := v
  have hversioned : Version.isUnversioned ⟨parts⟩ = false := by
    rw [Version.isUnversioned, List.isEmpty_eq_false_iff]
    exact h
  rw [Version.text, hversioned, if_neg Bool.false_ne_true, String.toList_intercalate]
  simp only at h ⊢
  induction parts with
  | nil => exact absurd rfl h
  | cons n parts ih =>
    have hn : (toString n).toList = Nat.toDigits 10 n := by
      rw [Nat.toString_eq_repr, Nat.toList_repr]
    have hcons : dotted (n :: parts) = '.' :: (Nat.toDigits 10 n ++ dotted parts) := rfl
    cases parts with
    | nil =>
      rw [hcons]
      simp only [List.map_cons, List.map_nil, hn]
      simp [dotted]
    | cons m parts =>
      have hsep : ".".toList = ['.'] := rfl
      rw [hcons, ← ih (List.cons_ne_nil m parts) rfl]
      simp only [List.map_cons, hsep, List.intercalate_cons_cons, hn, List.append_assoc,
        List.singleton_append]

theorem slash_notMem_dotted (v : List Nat) : '/' ∉ dotted v :=
  notMem_dotted (by decide) (by decide) v

section

variable {n : String}

theorem tells_soName (hn : IsLibraryName n) (hhyphen : '-' ∉ n.toList) {v : Version}
    (hv : ∀ k ∈ v.parts, k < 2 ^ 64) : Tells (soName n v) n v := by
  have hcut : cutHyphen n.toList = (n.toList, []) := by
    rw [cutHyphen, lastHyphen?_of_notMem hhyphen]
  have hnumbers : numbers ([] ++ '.' :: (['s', 'o'] ++ dotted v.parts)) = v.parts := by
    rw [numbers_append_dot, numbers_append_dotted hv]
    rfl
  refine tells_of_cut (toList_soName n v) ?_ hn.noDot (by simp) hcut hnumbers
  simp [hn.noSlash, slash_notMem_dotted]

theorem tells_versionedName (hn : IsLibraryName n) {v : Version} (hne : v.parts ≠ [])
    (hv : ∀ k ∈ v.parts, k < 2 ^ 64) : Tells (versionedName n v) n v := by
  obtain ⟨k, parts, hparts⟩ := List.exists_cons_of_ne_nil hne
  have htext : v.text.toList = Nat.toDigits 10 k ++ dotted parts := by
    have := toList_text hne
    rw [hparts] at this
    exact (List.cons.inj this).2
  have hlist : (versionedName n v).toList = ['l', 'i', 'b'] ++
      ((n.toList ++ '-' :: Nat.toDigits 10 k) ++ (dotted parts ++ ['.', 's', 'o'])) := by
    simp only [versionedName, String.toList_append, htext, List.append_assoc]
    rfl
  have hdigits : ∀ c ∈ Nat.toDigits 10 k, c.isAlphanum = true := by
    intro c hc
    rw [Char.isAlphanum, Nat.isDigit_of_mem_toDigits (by decide) (by decide) hc, Bool.or_true]
  have hcut := cutHyphen_append (a := n.toList) (by simpa using hn.ne_empty) hdigits
  rw [hparts, List.forall_mem_cons] at hv
  have hextension : numbers ['s', 'o'] = [] := rfl
  have hnumbers : numbers ('-' :: Nat.toDigits 10 k ++ (dotted parts ++ ['.', 's', 'o'])) =
      v.parts := by
    rw [List.cons_append, numbers_hyphen, ← List.append_assoc, numbers_append_dot,
      numbers_append_dotted hv.2, numbers_toDigits hv.1, hextension, List.append_nil, hparts,
      List.singleton_append]
  refine tells_of_cut hlist ?_ ?_ ?_ hcut hnumbers
  · simp [hn.noSlash, slash_notMem_dotted, notMem_toDigits (c := '/') (by decide)]
  · simp [hn.noDot, notMem_toDigits (c := '.') (by decide)]
  · cases parts <;> simp [dotted]

theorem tells_hashedName (hn : IsLibraryName n) {h : String} (hh : IsHash h.toList) :
    Tells (hashedName n h) n ⟨[]⟩ := by
  have hlist : (hashedName n h).toList = ['l', 'i', 'b'] ++
      ((n.toList ++ '-' :: h.toList) ++ ['.', 'r', 'l', 'i', 'b']) := by
    simp only [hashedName, String.toList_append, List.append_assoc]
    rfl
  have hcut := cutHyphen_append (a := n.toList) (by simpa using hn.ne_empty) hh.alphanum
  have hnumbers : numbers ('-' :: h.toList ++ ['.', 'r', 'l', 'i', 'b']) = [] := by
    rw [List.cons_append, numbers_hyphen, numbers_append_dot, hh.numbers_eq_nil]
    rfl
  refine tells_of_cut hlist ?_ ?_ (by simp) hcut hnumbers
  · simp [hn.noSlash, hh.notMem (c := '/') (by decide)]
  · simp [hn.noDot, hh.notMem (c := '.') (by decide)]

/-- Name and version are read back from the file names that are written from them, and the name
alone in front of a hash. Only a version behind the extension needs a name without a hyphen. -/
theorem file_names_tell (hn : IsLibraryName n) {v : Version} (hv : ∀ k ∈ v.parts, k < 2 ^ 64)
    {h : String} (hh : IsHash h.toList) :
    ('-' ∉ n.toList → Tells (soName n v) n v) ∧
      (v.parts ≠ [] → Tells (versionedName n v) n v) ∧ Tells (hashedName n h) n ⟨[]⟩ :=
  ⟨fun hhyphen => tells_soName hn hhyphen hv, fun hne => tells_versionedName hn hne hv,
    tells_hashedName hn hh⟩

/-- A hyphen in the name is kept apart from the one in front of a version or a hash. -/
theorem hyphenated_names_tell :
    IsLibraryName "foo-bar" ∧ (∀ k ∈ [2, 31], k < 2 ^ 64) ∧ IsHash "1a2b".toList ∧
      Tells "libfoo-bar-2.31.so" "foo-bar" ⟨[2, 31]⟩ ∧
      Tells "libfoo-bar-1a2b.rlib" "foo-bar" ⟨[]⟩ := by
  have hn : IsLibraryName "foo-bar" := ⟨by decide, by decide, by decide⟩
  have hv : ∀ k ∈ [2, 31], k < 2 ^ 64 := by decide
  have hh : IsHash "1a2b".toList :=
    ⟨List.all_eq_true.1 (by decide), 'a', by decide, by decide⟩
  have htell := file_names_tell hn (v := ⟨[2, 31]⟩) hv hh
  exact ⟨hn, hv, hh, htell.2.1 (by decide), htell.2.2⟩

end

end Sigil.Library
