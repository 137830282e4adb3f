/-!
# Blank characters

Two classes of white space. `isBlank` is Unicode's White_Space property, used wherever a text is
trimmed; `isAsciiBlank` is the five ASCII characters that separate the parts of a tag.
-/

namespace Sigil.Text

/-- Unicode's White_Space property. -/
def isBlank (c : Char) : Bool :=
  let n := c.toNat
  (9 ≤ n && n ≤ 13) || n == 0x20 || n == 0x85 || n == 0xA0 || n == 0x1680 ||
    (0x2000 ≤ n && n ≤ 0x200A) || n == 0x2028 || n == 0x2029 || n == 0x202F || n == 0x205F ||
    n == 0x3000

/-- Space, tab, line feed, form feed and carriage return. -/
def isAsciiBlank (c : Char) : Bool :=
  c == ' ' || c == '\t' || c == '\n' || c == '\x0c' || c == '\r'

theorem toNat_of_isAlphanum {c : Char} (h : c.isAlphanum = true) :
    '0'.toNat ≤ c.toNat ∧ c.toNat ≤ 'z'.toNat := by
  rcases Bool.or_eq_true_iff.1 h with h | h
  · rcases Bool.or_eq_true_iff.1 h with h | h
    · have hle : 'A'.val ≤ c.val := (of_decide_eq_true h).1
      have hge : c.val ≤ 'Z'.val := (of_decide_eq_true h).2
      exact ⟨Nat.le_trans (by decide) (UInt32.le_iff_toNat_le.1 hle),
        Nat.le_trans (UInt32.le_iff_toNat_le.1 hge) (by decide)⟩
    · have hle : 'a'.val ≤ c.val := of_decide_eq_true (Bool.and_eq_true_iff.1 h).1
      have hge : c.val ≤ 'z'.val := of_decide_eq_true (Bool.and_eq_true_iff.1 h).2
      exact ⟨Nat.le_trans (by decide) (UInt32.le_iff_toNat_le.1 hle),
        UInt32.le_iff_toNat_le.1 hge⟩
  · obtain ⟨hle, hge⟩ := Char.isDigit_iff_toNat.1 h
    exact ⟨hle, Nat.le_trans hge (by decide)⟩

theorem not_blank_of_isAlphanum {c : Char} (h : c.isAlphanum = true) : isBlank c = false := by
  obtain ⟨hle, hge⟩ := toNat_of_isAlphanum h
  have h0 : '0'.toNat = 48 := rfl
  have hz : 'z'.toNat = 122 := rfl
  simp only [isBlank, Bool.or_eq_false_iff, Bool.and_eq_false_iff, decide_eq_false_iff_not,
    beq_eq_false_iff_ne]
  omega

def trimStart (s : List Char) : List Char := s.dropWhile isBlank

def dropEndWhile (p : Char → Bool) (s : List Char) : List Char :=
  (s.reverse.dropWhile p).reverse

def trimEnd (s : List Char) : List Char := dropEndWhile isBlank s

def trim (s : List Char) : List Char := trimEnd (trimStart s)

theorem head_trimStart {s r : List Char} {c : Char} (h : trimStart s = c :: r) :
    isBlank c = false := by
  have := List.head?_dropWhile_not isBlank s
  rw [trimStart] at h
  simpa [h] using this

end Sigil.Text
