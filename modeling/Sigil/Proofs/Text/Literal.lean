import Mathlib.Tactic.SplitIfs
import Sigil.Text.Hex
import Sigil.Text.Quoted

/-!
# Reading string literals

What a string literal stands for: its characters as they are, escapes as the characters they name,
and a line that is broken behind a backslash as if it went on behind the blanks. `literal?` reads a
literal at the front of a text, and a quoted text is read as that text, whatever comes behind it
(`literal?_quoted`). It stays on its line, for all of its characters show
(`isPrintable_of_mem_quoted`).
-/

namespace Sigil.Text

/-! ## Literals -/

/-- The character that a letter behind a backslash stands for. -/
def letterEscape? (c : Char) : Option Char :=
  if c = '0' then some '\x00'
  else if c = 't' then some '\t'
  else if c = 'r' then some '\r'
  else if c = 'n' then some '\n'
  else if c = '\\' ∨ c = '"' ∨ c = '\'' then some c
  else none

/-- The character whose code is given by one to six digits, with underscores behind any of them. -/
def codeValue? (code : List Char) : Option Char :=
  let digits := code.filter (· ≠ '_')
  if code.head? = some '_' ∨ digits = [] ∨ 6 < digits.length then none else charOfHex? digits

/-- The character whose code stands between braces, from behind the opening one. -/
def codePoint? (s : List Char) : Option (Char × List Char) :=
  match s.dropWhile (· ≠ '}') with
  | [] => none
  | _ :: r => (codeValue? (s.takeWhile (· ≠ '}'))).map (·, r)

/-- The character whose ASCII code is given by two digits. -/
def asciiCode? : List Char → Option (Char × List Char)
  | h :: l :: r => ((charOfHex? [h, l]).filter (·.toNat < 128)).map (·, r)
  | _ => none

/-- The character that an escape stands for, from behind its backslash. -/
def escaped? : List Char → Option (Char × List Char)
  | 'x' :: r => asciiCode? r
  | 'u' :: '{' :: r => codePoint? r
  | c :: r => (letterEscape? c).map (·, r)
  | [] => none

/-- The blanks that a broken line leaves out. -/
def isFold (c : Char) : Bool := c = ' ' || c = '\t' || c = '\n' || c = '\r'

/-- The next character, escape or line break of a literal, and what it stands for. A carriage return
does not stand in a literal by itself. -/
def piece? : List Char → Option (List Char × List Char)
  | [] => none
  | '"' :: _ => none
  | '\r' :: _ => none
  | '\\' :: '\n' :: r => some ([], r.dropWhile isFold)
  | '\\' :: r => (escaped? r).map fun (c, r) => ([c], r)
  | c :: r => some ([c], r)

theorem length_codePoint? {s r : List Char} {c : Char} (h : codePoint? s = some (c, r)) :
    r.length < s.length := by
  unfold codePoint? at h
  split at h
  · cases h
  · rename_i d rest hrest
    obtain ⟨e, -, he⟩ := Option.map_eq_some_iff.1 h
    cases he
    have hle := (List.dropWhile_suffix (l := s) (· ≠ '}')).length_le
    rw [hrest, List.length_cons] at hle
    exact hle

theorem length_asciiCode? {s r : List Char} {c : Char} (h : asciiCode? s = some (c, r)) :
    r.length < s.length := by
  unfold asciiCode? at h
  split at h
  · obtain ⟨e, -, he⟩ := Option.map_eq_some_iff.1 h
    cases he
    simp only [List.length_cons]
    omega
  · cases h

theorem length_escaped? {s r : List Char} {c : Char} (h : escaped? s = some (c, r)) :
    r.length < s.length := by
  unfold escaped? at h
  split at h
  · exact Nat.lt_succ_of_lt (length_asciiCode? h)
  · exact Nat.lt_succ_of_lt (Nat.lt_succ_of_lt (length_codePoint? h))
  · obtain ⟨e, -, he⟩ := Option.map_eq_some_iff.1 h
    cases he
    exact Nat.lt_succ_self _
  · cases h

theorem length_piece? {s p r : List Char} (h : piece? s = some (p, r)) : r.length < s.length := by
  unfold piece? at h
  split at h
  · cases h
  · cases h
  · cases h
  · cases h
    exact Nat.lt_succ_of_le (Nat.le_succ_of_le (List.dropWhile_suffix isFold).length_le)
  · obtain ⟨e, he, h⟩ := Option.map_eq_some_iff.1 h
    cases h
    exact Nat.lt_succ_of_lt (length_escaped? he)
  · cases h
    exact Nat.lt_succ_self _

/-- What a literal stands for and what is behind it, from behind its opening quote. -/
def literalRest? : List Char → Option (List Char × List Char)
  | '"' :: r => some ([], r)
  | s =>
    match _h : piece? s with
    | none => none
    | some (p, r) => (literalRest? r).map fun (t, r) => (p ++ t, r)
  termination_by s => s.length
  decreasing_by exact length_piece? ‹_›

theorem length_literalRest? {s t r : List Char} (h : literalRest? s = some (t, r)) :
    r.length < s.length := by
  fun_induction literalRest? s generalizing t r with
  | case1 r => cases h; exact Nat.lt_succ_self _
  | case2 s hs hp => cases h
  | case3 s hs p r' hp ih =>
    obtain ⟨⟨t', r''⟩, hrest, he⟩ := Option.map_eq_some_iff.1 h
    cases he
    exact Nat.lt_trans (ih hrest) (length_piece? hp)

/-- What the literal in front stands for and what is behind it. -/
def literal? : List Char → Option (List Char × List Char)
  | '"' :: r => literalRest? r
  | _ => none

example : literal? ['"', 'a', '\\', '\n', ' ', '\\', 'x', '4', '1', '"', 'b'] =
    some (['a', 'A'], ['b']) := by cbv

/-! ## Code points -/

theorem hexValue?_digitChar {d : Nat} (h : d < 16) : hexValue? d.digitChar = some d := by
  have : ∀ d < 16, hexValue? (Nat.digitChar d) = some d := by decide
  exact this d h

theorem ofHex?_concat (ds : List Char) (d : Char) :
    ofHex? (ds ++ [d]) = (ofHex? ds).bind fun n => (hexValue? d).map fun v => 16 * n + v := by
  rw [ofHex?, ofHex?, List.mapM_append]
  cases ds.mapM hexValue? with
  | none => rfl
  | some vs =>
    cases h : hexValue? d with
    | none => simp [h]
    | some v => simp [h]

theorem toDigits_step {n : Nat} (h : ¬n < 16) :
    Nat.toDigits 16 n = Nat.toDigits 16 (n / 16) ++ [(n % 16).digitChar] := by
  rw [Nat.toDigits_eq_if (by decide), if_neg h]

theorem ofHex?_toDigits (n : Nat) : ofHex? (Nat.toDigits 16 n) = some n := by
  induction n using Nat.strongRecOn with
  | ind n ih =>
    by_cases h : n < 16
    · rw [Nat.toDigits_of_lt_base h]
      simp [ofHex?, hexValue?_digitChar h]
    · rw [toDigits_step h, ofHex?_concat, ih (n / 16) (by omega),
        hexValue?_digitChar (Nat.mod_lt n (by decide))]
      exact congrArg some (Nat.div_add_mod n 16)

theorem hexValue?_of_mem_toDigits {n : Nat} {c : Char} (hc : c ∈ Nat.toDigits 16 n) :
    ∃ v, hexValue? c = some v := by
  induction n using Nat.strongRecOn with
  | ind n ih =>
    by_cases h : n < 16
    · rw [Nat.toDigits_of_lt_base h, List.mem_singleton] at hc
      exact ⟨n, hc ▸ hexValue?_digitChar h⟩
    · rw [toDigits_step h, List.mem_append, List.mem_singleton] at hc
      rcases hc with hc | hc
      · exact ih (n / 16) (by omega) hc
      · exact ⟨n % 16, hc ▸ hexValue?_digitChar (Nat.mod_lt n (by decide))⟩

theorem charOfHex?_toDigits (c : Char) : charOfHex? (Nat.toDigits 16 c.toNat) = some c := by
  have hvalid : c.toNat.isValidChar := c.valid
  rw [charOfHex?, ofHex?_toDigits]
  simp only
  rw [if_pos hvalid, Char.ofNat_toNat]

theorem toDigits_ne {n : Nat} {c d : Char} (hd : hexValue? d = none) (hc : c ∈ Nat.toDigits 16 n) :
    c ≠ d := by
  rintro rfl
  obtain ⟨v, hv⟩ := hexValue?_of_mem_toDigits hc
  cases hd.symm.trans hv

theorem toNat_lt (c : Char) : c.toNat < 0x110000 := by
  have hvalid : c.toNat.isValidChar := c.valid
  unfold Nat.isValidChar at hvalid
  omega

theorem codeValue?_toDigits (c : Char) : codeValue? (Nat.toDigits 16 c.toNat) = some c := by
  have hfilter : (Nat.toDigits 16 c.toNat).filter (· ≠ '_') = Nat.toDigits 16 c.toNat :=
    List.filter_eq_self.2 fun d hd => decide_eq_true (toDigits_ne (by decide) hd)
  have hfew : (Nat.toDigits 16 c.toNat).length ≤ 6 :=
    (Nat.length_toDigits_le_iff (by decide) (by decide)).2
      (Nat.lt_of_lt_of_le (toNat_lt c) (by decide))
  rw [codeValue?, hfilter, if_neg, charOfHex?_toDigits]
  rintro (h | h | h)
  · exact toDigits_ne (by decide) (List.mem_of_mem_head? h) rfl
  · exact Nat.toDigits_ne_nil h
  · exact Nat.not_le_of_lt h hfew

theorem codePoint?_toDigits (c : Char) (r : List Char) :
    codePoint? (Nat.toDigits 16 c.toNat ++ '}' :: r) = some (c, r) := by
  have hclose : ∀ d ∈ Nat.toDigits 16 c.toNat, decide (d ≠ '}') = true :=
    fun d hd => decide_eq_true (toDigits_ne (by decide) hd)
  have hcode : (Nat.toDigits 16 c.toNat ++ '}' :: r).takeWhile (· ≠ '}') =
      Nat.toDigits 16 c.toNat := by
    rw [List.takeWhile_append_of_pos hclose]
    exact List.append_nil _
  have hrest : (Nat.toDigits 16 c.toNat ++ '}' :: r).dropWhile (· ≠ '}') = '}' :: r := by
    rw [List.dropWhile_append_of_pos hclose]
    rfl
  rw [codePoint?, hrest, hcode, codeValue?_toDigits]
  rfl

/-! ## Quoted texts are read back -/

theorem piece?_codePoint (c : Char) (r : List Char) :
    piece? (codePoint c ++ r) = some ([c], r) := by
  have : piece? (codePoint c ++ r) =
      (codePoint? (Nat.toDigits 16 c.toNat ++ '}' :: r)).map fun (c, r) => ([c], r) := by
    rw [codePoint, List.append_assoc]
    rfl
  rw [this, codePoint?_toDigits]
  rfl

/-- An escaped character is one piece, which stands for that character. -/
theorem piece?_escape (c : Char) (r : List Char) : piece? (escape c ++ r) = some ([c], r) := by
  unfold escape
  split_ifs with h0 ht hr hn hb hq hh
  · rw [h0]; rfl
  · rw [ht]; rfl
  · rw [hr]; rfl
  · rw [hn]; rfl
  · rw [hb]; rfl
  · rw [hq]; rfl
  · exact piece?_codePoint c r
  · rw [List.singleton_append]
    unfold piece?
    split <;> simp_all

theorem literalRest?_escape (c : Char) (s : List Char) :
    literalRest? (escape c ++ s) = (literalRest? s).map fun (t, r) => (c :: t, r) := by
  have hpiece := piece?_escape c s
  rw [literalRest?]
  · split
    · rename_i h
      cases h.symm.trans hpiece
    · rename_i h
      cases h.symm.trans hpiece
      rfl
  · intro r hr
    rw [hr] at hpiece
    cases hpiece

theorem toList_quote (s : String) : (quote s).toList = quoted s.toList := String.toList_ofList

/-- A quoted text is read as that text, whatever comes behind it. -/
theorem literal?_quoted (s r : List Char) : literal? (quoted s ++ r) = some (s, r) := by
  have hrest : literalRest? (s.flatMap escape ++ '"' :: r) = some (s, r) := by
    induction s with
    | nil => rw [List.flatMap_nil, List.nil_append, literalRest?]
    | cons c s ih => rw [List.flatMap_cons, List.append_assoc, literalRest?_escape, ih]; rfl
  rw [quoted, List.cons_append, List.cons_append, List.append_assoc]
  exact hrest

/-! ## Quoted texts show -/

/-- The characters that end a line, to any reader. -/
def lineBreaks : List Char := ['\n', '\x0B', '\x0C', '\r', '\u0085', '\u2028', '\u2029']

theorem notMem_lineBreaks {c : Char} (h : isPrintable c = true) : c ∉ lineBreaks := by
  have hbreaks : lineBreaks.all (fun d => !isPrintable d) = true := by decide +kernel
  intro hc
  have hnot := List.all_eq_true.1 hbreaks c hc
  rw [h] at hnot
  cases hnot

/-- The ASCII characters from the blank to the tilde show. -/
theorem isPrintable_of_ascii {c : Char} (hlow : 0x20 ≤ c.toNat) (hhigh : c.toNat < 0x7F) :
    isPrintable c = true :=
  (if_neg (Nat.not_lt.2 hlow)).trans (if_pos hhigh)

theorem isPrintable_of_mem_toDigits {n : Nat} {c : Char} (h : c ∈ Nat.toDigits 16 n) :
    isPrintable c = true := by
  obtain ⟨v, hv⟩ := hexValue?_of_mem_toDigits h
  have hval : c.val.toNat = c.toNat := rfl
  simp only [hexValue?, Char.isDigit, Bool.and_eq_true, decide_eq_true_eq, Char.le_def, ge_iff_le,
    UInt32.le_iff_toNat_le, hval] at hv
  exact isPrintable_of_ascii (by grind) (by grind)

theorem isPrintable_of_mem_codePoint {c d : Char} (h : d ∈ codePoint c) : isPrintable d = true := by
  simp only [codePoint, List.cons_append, List.mem_cons, List.mem_append, List.not_mem_nil,
    or_false] at h
  rcases h with rfl | rfl | rfl | h | rfl
  · decide
  · decide
  · decide
  · exact isPrintable_of_mem_toDigits h
  · decide

theorem isPrintable_of_mem_letterEscape {e d : Char} (he : isPrintable e = true)
    (h : d ∈ ['\\', e]) : isPrintable d = true := by
  rw [List.mem_cons, List.mem_singleton] at h
  rcases h with rfl | rfl
  · decide
  · exact he

/-- What stands for a character shows: a character that does not is escaped. -/
theorem isPrintable_of_mem_escape {c d : Char} (h : d ∈ escape c) : isPrintable d = true := by
  unfold escape at h
  split_ifs at h with h0 ht hr hn hb hq hh
  · exact isPrintable_of_mem_letterEscape (by decide) h
  · exact isPrintable_of_mem_letterEscape (by decide) h
  · exact isPrintable_of_mem_letterEscape (by decide) h
  · exact isPrintable_of_mem_letterEscape (by decide) h
  · exact isPrintable_of_mem_letterEscape (by decide) h
  · exact isPrintable_of_mem_letterEscape (by decide) h
  · exact isPrintable_of_mem_codePoint h
  · rw [List.mem_singleton.1 h]
    simp only [isHidden, Bool.or_eq_true, Bool.not_eq_true', not_or, Bool.not_eq_false] at hh
    exact hh.1.1

theorem isPrintable_of_mem_quoted {s : List Char} {d : Char} (h : d ∈ quoted s) :
    isPrintable d = true := by
  rw [quoted, List.cons_append, List.mem_cons, List.mem_append, List.mem_singleton,
    List.mem_flatMap] at h
  rcases h with rfl | ⟨c, -, h⟩ | rfl
  · decide
  · exact isPrintable_of_mem_escape h
  · decide

end Sigil.Text
