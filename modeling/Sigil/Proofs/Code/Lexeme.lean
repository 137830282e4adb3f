import Sigil.Proofs.Text.Literal
import Sigil.Template.Expr
import Sigil.Text.Blank

/-!
# Lexemes of generated code

A line of generated code as words, members behind a dot, string literals, and marks that stand for
themselves. `lexemes?` reads a line and refuses what generated lines do not hold: literals of
characters, comments, and string literals with a prefix or suffix or in raw form. Lexemes that do
not run together are read back as they are (`lexemes?_print`), whatever text is in the literals
among them.
-/

namespace Sigil.Code

open Text Template

/-! ## Reading -/

/-- A character of a word: a letter, digit or underscore, the sign in front of a raw name, or a
character beyond ASCII that shows. -/
def isWordChar (c : Char) : Bool :=
  isNamePart c || c = '#' || (decide (128 ≤ c.toNat) && isPrintable c)

/-- The characters that are lexemes by themselves, the blank among them. -/
def markChars : List Char := " !$%&()*+,-:;<=>?@[]^\x7b|\x7d~".toList

def isMark (c : Char) : Bool := markChars.contains c

inductive Lexeme where
  /-- A name that stands by itself, a keyword, or digits. -/
  | word (name : String)
  /-- A name behind a dot. -/
  | member (name : String)
  /-- A string literal and the text it stands for. -/
  | literal (text : String)
  | mark (c : Char)
  deriving DecidableEq, Repr

/-- The word in front, which is not empty and does not touch a literal, and what is behind it. -/
def word? (s : List Char) : Option (String × List Char) :=
  if (s.takeWhile isWordChar).isEmpty || (s.dropWhile isWordChar).head? = some '"' then none
  else some (String.ofList (s.takeWhile isWordChar), s.dropWhile isWordChar)

def lexeme? : List Char → Option (Lexeme × List Char)
  | [] => none
  | c :: r =>
    if c = '"' then
      ((literalRest? r).filter fun (_, r) => !r.head?.any isWordChar).map fun (t, r) =>
        (.literal (String.ofList t), r)
    else if c = '.' then (word? r).map fun (w, r) => (.member w, r)
    else if isMark c then some (.mark c, r)
    else (word? (c :: r)).map fun (w, r) => (.word w, r)

theorem length_word? {s r : List Char} {w : String} (h : word? s = some (w, r)) :
    r.length < s.length := by
  unfold word? at h
  split at h
  · cases h
  · rename_i hs
    cases h
    have hcut := congrArg List.length (List.takeWhile_append_dropWhile (p := isWordChar) (l := s))
    rw [List.length_append] at hcut
    have hpos : 0 < (s.takeWhile isWordChar).length := by
      rw [List.length_pos_iff]
      simp_all
    omega

theorem length_lexeme? {s r : List Char} {l : Lexeme} (h : lexeme? s = some (l, r)) :
    r.length < s.length := by
  unfold lexeme? at h
  split at h
  · cases h
  · split_ifs at h
    · obtain ⟨e, he, h⟩ := Option.map_eq_some_iff.1 h
      cases h
      exact Nat.lt_succ_of_lt (length_literalRest? (Option.filter_eq_some_iff.1 he).1)
    · obtain ⟨e, he, h⟩ := Option.map_eq_some_iff.1 h
      cases h
      exact Nat.lt_succ_of_lt (length_word? he)
    · cases h
      exact Nat.lt_succ_self _
    · obtain ⟨e, he, h⟩ := Option.map_eq_some_iff.1 h
      cases h
      exact length_word? he

def lexemes? (s : List Char) : Option (List Lexeme) :=
  if s.isEmpty then some []
  else
    match _h : lexeme? s with
    | none => none
    | some (l, r) => (lexemes? r).map (l :: ·)
  termination_by s.length
  decreasing_by exact length_lexeme? ‹_›

/-! ## Printing -/

def Lexeme.chars : Lexeme → List Char
  | word name => name.toList
  | member name => '.' :: name.toList
  | literal text => Text.quoted text.toList
  | mark c => [c]

def print (ls : List Lexeme) : List Char := ls.flatMap Lexeme.chars

/-- A name as a word of generated code. -/
def IsWord (name : String) : Prop := name.toList ≠ [] ∧ ∀ c ∈ name.toList, isWordChar c = true

instance (name : String) : Decidable (IsWord name) :=
  decidable_of_iff (name.toList ≠ [] ∧ name.toList.all isWordChar = true)
    (and_congr_right fun _ => List.all_eq_true)

/-- Lexemes that do not run together: words and literals have marks between them. -/
inductive Separated : List Lexeme → Prop where
  | nil : Separated []
  | word {w : String} (hw : IsWord w) : Separated [.word w]
  | literal (t : String) : Separated [.literal t]
  | member {a : List Lexeme} {w : String} (ha : Separated a) (hw : IsWord w) :
      Separated (a ++ [.member w])
  | mark {a b : List Lexeme} {c : Char} (ha : Separated a) (hc : isMark c = true)
      (hb : Separated b) : Separated (a ++ .mark c :: b)

theorem print_nil : print [] = [] := rfl

theorem print_append (a b : List Lexeme) : print (a ++ b) = print a ++ print b :=
  List.flatMap_append

theorem print_cons (l : Lexeme) (ls : List Lexeme) : print (l :: ls) = l.chars ++ print ls := rfl

/-- What a mark is not: part of a word or the beginning of another lexeme. -/
theorem mark_cases {c : Char} (hc : isMark c = true) :
    isWordChar c = false ∧ c ≠ '"' ∧ c ≠ '.' ∧ isPrintable c = true := by
  have hall : markChars.all (fun c => !isWordChar c && c ≠ '"' && c ≠ '.' && isPrintable c) := by
    decide
  have hmark := List.all_eq_true.1 hall c (List.contains_iff_mem.1 hc)
  simp only [Bool.and_eq_true, Bool.not_eq_true', decide_eq_true_eq] at hmark
  exact ⟨hmark.1.1.1, hmark.1.1.2, hmark.1.2, hmark.2⟩

/-- A text at which a word or a literal is over. -/
def Ends (s : List Char) : Prop := ∀ c ∈ s.head?, isWordChar c = false ∧ c ≠ '"'

theorem Ends.nil : Ends [] := nofun

theorem Ends.dot (s : List Char) : Ends ('.' :: s) := by
  rintro c ⟨⟩
  decide

theorem Ends.mark {c : Char} (hc : isMark c = true) (s : List Char) : Ends (c :: s) := by
  rintro d ⟨⟩
  exact ⟨(mark_cases hc).1, (mark_cases hc).2.1⟩

theorem lexemes?_nil : lexemes? [] = some [] := by
  rw [lexemes?]
  rfl

theorem lexemes?_cons {s r : List Char} {l : Lexeme} {ls : List Lexeme}
    (h : lexeme? s = some (l, r)) (hr : lexemes? r = some ls) : lexemes? s = some (l :: ls) := by
  have hs : s.isEmpty = false := by
    cases s with
    | nil => cases h
    | cons c s => rfl
  rw [lexemes?, if_neg (by simp [hs])]
  split
  · rename_i hn
    cases hn.symm.trans h
  · rename_i hn
    cases hn.symm.trans h
    rw [hr]
    rfl

theorem word?_append {w : String} (hw : IsWord w) {r : List Char} (hr : Ends r) :
    word? (w.toList ++ r) = some (w, r) := by
  have htake : r.takeWhile isWordChar = [] := by
    cases r with
    | nil => rfl
    | cons c r => exact List.takeWhile_cons_of_neg (by simp [hr c rfl])
  have hdrop : r.dropWhile isWordChar = r := by
    cases r with
    | nil => rfl
    | cons c r => exact List.dropWhile_cons_of_neg (by simp [hr c rfl])
  have hquote : r.head? ≠ some '"' := fun h => (hr '"' h).2 rfl
  rw [word?, List.takeWhile_append_of_pos hw.2, List.dropWhile_append_of_pos hw.2, htake, hdrop,
    List.append_nil, if_neg (by simp [hw.1, hquote]), String.ofList_toList]

theorem lexeme?_word {w : String} (hw : IsWord w) {r : List Char} (hr : Ends r) :
    lexeme? (w.toList ++ r) = some (.word w, r) := by
  have hword := word?_append hw hr
  obtain ⟨c, s, hs⟩ := List.exists_cons_of_ne_nil hw.1
  have hc : isWordChar c = true := hw.2 c (hs ▸ List.mem_cons_self)
  have hne : ∀ d, isWordChar d = false → c ≠ d := by
    rintro d hd rfl
    exact Bool.noConfusion (hd.symm.trans hc)
  have hmark : isMark c ≠ true := fun h => Bool.noConfusion ((mark_cases h).1.symm.trans hc)
  rw [hs, List.cons_append] at hword ⊢
  rw [lexeme?, if_neg (hne '"' (by decide)), if_neg (hne '.' (by decide)), if_neg hmark, hword]
  rfl

theorem lexeme?_member {w : String} (hw : IsWord w) {r : List Char} (hr : Ends r) :
    lexeme? ('.' :: (w.toList ++ r)) = some (.member w, r) := by
  rw [lexeme?, if_neg (by decide), if_pos rfl, word?_append hw hr]
  rfl

theorem lexeme?_literal (t : String) {r : List Char} (hr : Ends r) :
    lexeme? (Text.quoted t.toList ++ r) = some (.literal t, r) := by
  have hread : literalRest? ((t.toList.flatMap escape ++ ['"']) ++ r) = some (t.toList, r) :=
    literal?_quoted t.toList r
  have hend : r.head?.any isWordChar = false := by
    cases h : r.head? with
    | none => rfl
    | some c => exact (hr c h).1
  rw [Text.quoted, List.cons_append, List.cons_append, lexeme?, if_pos rfl, hread]
  simp only [Option.filter_some, hend, Bool.not_false, if_true, Option.map_some,
    String.ofList_toList]

theorem lexeme?_mark {c : Char} (hc : isMark c = true) (r : List Char) :
    lexeme? (c :: r) = some (.mark c, r) := by
  obtain ⟨-, hquote, hdot, -⟩ := mark_cases hc
  rw [lexeme?, if_neg hquote, if_neg hdot, if_pos hc]

/-- Separated lexemes are read back in front of every text at which the last of them is over. -/
theorem lexemes?_print_append {ls ms : List Lexeme} {r : List Char} (h : Separated ls)
    (hr : Ends r) (hms : lexemes? r = some ms) : lexemes? (print ls ++ r) = some (ls ++ ms) := by
  -- What comes behind the part in front of a member or mark begins with a dot or that mark, so the
  -- induction hypothesis for that part applies to it.
  induction h generalizing r ms with
  | nil => exact hms
  | @word w hw =>
    rw [print, List.flatMap_singleton]
    exact lexemes?_cons (lexeme?_word hw hr) hms
  | literal t =>
    rw [print, List.flatMap_singleton]
    exact lexemes?_cons (lexeme?_literal t hr) hms
  | @member a w ha hw ih =>
    rw [print_append, List.append_assoc, List.append_assoc]
    refine ih (.dot _) (lexemes?_cons ?_ hms)
    rw [print, List.flatMap_singleton]
    exact lexeme?_member hw hr
  | @mark a b c ha hc hb iha ihb =>
    rw [print_append, List.append_assoc, List.append_assoc]
    exact iha (.mark hc _) (lexemes?_cons (lexeme?_mark hc _) (ihb hr hms))

theorem lexemes?_print {ls : List Lexeme} (h : Separated ls) : lexemes? (print ls) = some ls := by
  have hread := lexemes?_print_append h .nil lexemes?_nil
  rwa [List.append_nil, List.append_nil] at hread

/-! ## Separated lexemes show -/

theorem isPrintable_of_isWordChar {c : Char} (h : isWordChar c = true) : isPrintable c = true := by
  simp only [isWordChar, isNamePart, Bool.or_eq_true, Bool.and_eq_true, decide_eq_true_eq,
    beq_iff_eq] at h
  rcases h with ((h | rfl) | rfl) | h
  · obtain ⟨hlow, hhigh⟩ := toNat_of_isAlphanum h
    exact isPrintable_of_ascii (Nat.le_trans (by decide) hlow)
      (Nat.lt_of_le_of_lt hhigh (by decide))
  · decide
  · decide
  · exact h.2

theorem isPrintable_of_mem_print {ls : List Lexeme} (h : Separated ls) :
    ∀ c ∈ print ls, isPrintable c = true := by
  induction h with
  | nil => exact nofun
  | word hw =>
    rw [print, List.flatMap_singleton]
    exact fun c hc => isPrintable_of_isWordChar (hw.2 c hc)
  | literal t =>
    rw [print, List.flatMap_singleton]
    exact fun c hc => isPrintable_of_mem_quoted hc
  | member _ hw ih =>
    rw [print_append, print, print, List.flatMap_singleton]
    intro c hc
    rcases List.mem_append.1 hc with hc | hc
    · exact ih c hc
    · rcases List.mem_cons.1 hc with rfl | hc
      · decide
      · exact isPrintable_of_isWordChar (hw.2 c hc)
  | mark _ hc _ iha ihb =>
    intro d hd
    rw [print_append, List.mem_append, print_cons, List.mem_append] at hd
    rcases hd with hd | hd | hd
    · exact iha d hd
    · rw [List.mem_singleton.1 hd]
      exact (mark_cases hc).2.2.2
    · exact ihb d hd

end Sigil.Code
