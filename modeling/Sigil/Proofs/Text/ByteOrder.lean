import Mathlib.Algebra.Group.Nat.Defs
import Sigil.Proofs.Text.Utf8

/-!
# The order of bytes

A character is written as a first byte, which tells how many bytes follow, and bytes of six bits
each (`utf8EncodeChar_eq`). So of two characters the lower one has the lower byte where their bytes
differ first, and texts in the order of their code points are in the order of their bytes
(`encode_lt`).
-/

namespace Sigil.Text.Utf8

/-- How many bytes follow the first one of a code point. -/
def tailCount (n : Nat) : Nat :=
  if n ≤ 0x7F then 0 else if n ≤ 0x7FF then 1 else if n ≤ 0xFFFF then 2 else 3

/-- The lowest first byte in front of a number of bytes. -/
def leadMark : Nat → Nat
  | 0 => 0
  | 1 => 0xC0
  | 2 => 0xE0
  | 3 => 0xF0
  | _ => 0x100

/-- The first byte of a code point. -/
def lead (n : Nat) : Nat := n / 64 ^ tailCount n + leadMark (tailCount n)

/-- The bytes that hold the lowest bits of a number, six each. -/
def tailBytes (n : Nat) : Nat → List UInt8
  | 0 => []
  | k + 1 => UInt8.ofNat (n / 64 ^ k % 64 + 0x80) :: tailBytes n k

theorem utf8EncodeChar_eq (c : Char) :
    String.utf8EncodeChar c =
      UInt8.ofNat (lead c.val.toNat) :: tailBytes c.val.toNat (tailCount c.val.toNat) := by
  have hc : c.val.toNat < 0x110000 := by
    have : c.val.toNat < 0xD800 ∨ 0xDFFF < c.val.toNat ∧ c.val.toNat < 0x110000 := c.valid
    omega
  unfold String.utf8EncodeChar lead tailCount
  generalize c.val.toNat = n at hc
  simp only
  split
  · simp [leadMark, tailBytes]
  · split
    · have hlead : n / 64 % 32 = n / 64 := Nat.mod_eq_of_lt (by omega)
      simp [leadMark, tailBytes, hlead]
    · split
      · have hlead : n / 4096 % 16 = n / 4096 := Nat.mod_eq_of_lt (by omega)
        simp [leadMark, tailBytes, hlead]
      · have hlead : n / 262144 % 8 = n / 262144 := Nat.mod_eq_of_lt (by omega)
        simp [leadMark, tailBytes, hlead]

theorem ofNat_lt {m n : Nat} (hm : m < 256) (hn : n < 256) (h : m < n) :
    UInt8.ofNat m < UInt8.ofNat n := by
  rwa [UInt8.lt_iff_toNat_lt, toNat_ofNat, toNat_ofNat, Nat.mod_eq_of_lt hm, Nat.mod_eq_of_lt hn]

/-- Numbers are in the order of their quotients, or with the same quotient of their remainders. -/
theorem div_lt_or {m n : Nat} (k : Nat) (h : m < n) :
    m / k < n / k ∨ m / k = n / k ∧ m % k < n % k := by
  rcases Nat.lt_or_eq_of_le (Nat.div_le_div_right (Nat.le_of_lt h)) with hdiv | hdiv
  · exact .inl hdiv
  · refine .inr ⟨hdiv, ?_⟩
    have hm := Nat.div_add_mod m k
    have hn := Nat.div_add_mod n k
    rw [hdiv] at hm
    omega

theorem tailBytes_append_lt {m n k : Nat} (h : m % 64 ^ k < n % 64 ^ k) (x y : List UInt8) :
    tailBytes m k ++ x < tailBytes n k ++ y := by
  induction k with
  | zero => simp [Nat.mod_one] at h
  | succ k ih =>
    rw [tailBytes, tailBytes, List.cons_append, List.cons_append, List.cons_lt_cons_iff]
    have hm : m % 64 ^ (k + 1) / 64 ^ k = m / 64 ^ k % 64 := by
      rw [Nat.pow_succ, Nat.mod_mul_right_div_self]
    have hn : n % 64 ^ (k + 1) / 64 ^ k = n / 64 ^ k % 64 := by
      rw [Nat.pow_succ, Nat.mod_mul_right_div_self]
    have hdvd : 64 ^ k ∣ 64 ^ (k + 1) := Nat.pow_dvd_pow 64 (Nat.le_succ k)
    rcases div_lt_or (64 ^ k) h with hlt | ⟨heq, hlt⟩
    · rw [hm, hn] at hlt
      exact .inl (ofNat_lt (by omega) (by omega) (by omega))
    · rw [hm, hn] at heq
      rw [Nat.mod_mod_of_dvd _ hdvd, Nat.mod_mod_of_dvd _ hdvd] at hlt
      exact .inr ⟨by rw [heq], ih hlt⟩

theorem tailCount_mono {m n : Nat} (h : m ≤ n) : tailCount m ≤ tailCount n := by
  unfold tailCount
  repeat' split
  all_goals omega

theorem tailCount_le (n : Nat) : tailCount n ≤ 3 := by
  unfold tailCount
  repeat' split
  all_goals omega

/-- The number of bytes behind a first byte tells where it lies. -/
theorem lead_bounds {n : Nat} (h : n < 0x110000) :
    leadMark (tailCount n) ≤ lead n ∧ lead n < leadMark (tailCount n + 1) := by
  refine ⟨Nat.le_add_left _ _, ?_⟩
  unfold lead tailCount
  split
  · simp only [leadMark, Nat.pow_zero]
    omega
  · split
    · simp only [leadMark, Nat.pow_one]
      omega
    · split
      · simp only [leadMark, Nat.reducePow]
        omega
      · simp only [leadMark, Nat.reducePow]
        omega

theorem leadMark_mono : ∀ k ≤ 4, ∀ l ≤ 4, k ≤ l → leadMark k ≤ leadMark l := by decide

/-- The bytes of a lower character stand before those of a higher one, whatever follows. -/
theorem utf8EncodeChar_append_lt {c d : Char} (h : c < d) (x y : List UInt8) :
    String.utf8EncodeChar c ++ x < String.utf8EncodeChar d ++ y := by
  have hlt : c.val.toNat < d.val.toNat := h
  have hd : d.val.toNat < 0x110000 := by
    have : d.val.toNat < 0xD800 ∨ 0xDFFF < d.val.toNat ∧ d.val.toNat < 0x110000 := d.valid
    omega
  rw [utf8EncodeChar_eq, utf8EncodeChar_eq, List.cons_append, List.cons_append,
    List.cons_lt_cons_iff]
  generalize c.val.toNat = m at hlt
  generalize d.val.toNat = n at hlt hd
  have hm := lead_bounds (Nat.lt_trans hlt hd)
  have hn := lead_bounds hd
  have hbyte {k : Nat} (hk : k < leadMark (tailCount n + 1)) : k < 256 :=
    Nat.lt_of_lt_of_le hk
      (leadMark_mono _ (Nat.succ_le_succ (tailCount_le n)) 4 (by decide)
        (Nat.succ_le_succ (tailCount_le n)))
  rcases Nat.lt_or_eq_of_le (tailCount_mono (Nat.le_of_lt hlt)) with hcount | hcount
  · have hlead : lead m < lead n :=
      calc lead m < leadMark (tailCount m + 1) := hm.2
        _ ≤ leadMark (tailCount n) := leadMark_mono _ (by have := tailCount_le n; omega) _
              (by have := tailCount_le n; omega) hcount
        _ ≤ lead n := hn.1
    exact .inl (ofNat_lt (hbyte (Nat.lt_trans hlead hn.2)) (hbyte hn.2) hlead)
  · rw [hcount] at hm
    have hlead : lead m = m / 64 ^ tailCount n + leadMark (tailCount n) := by rw [lead, hcount]
    rcases div_lt_or (64 ^ tailCount n) hlt with hdiv | ⟨hdiv, hmod⟩
    · refine .inl (ofNat_lt (hbyte hm.2) (hbyte hn.2) ?_)
      rw [hlead, lead]
      omega
    · refine .inr ⟨?_, ?_⟩
      · rw [hlead, hdiv, lead]
      · rw [hcount]
        exact tailBytes_append_lt hmod x y

/-- The order of code points is the order of bytes. -/
theorem encode_lt {s t : String} (h : s < t) : encode s < encode t := by
  rw [encode_eq, encode_eq]
  rw [String.lt_iff] at h
  generalize s.toList = a at h
  generalize t.toList = b at h
  induction b generalizing a with
  | nil => exact absurd h (List.not_lt_nil a)
  | cons d b ih =>
    cases a with
    | nil =>
      rw [List.flatMap_nil, List.flatMap_cons, utf8EncodeChar_eq]
      exact List.nil_lt_cons _ _
    | cons c a =>
      rw [List.flatMap_cons, List.flatMap_cons]
      rcases List.cons_lt_cons_iff.1 h with hcd | ⟨rfl, hab⟩
      · exact utf8EncodeChar_append_lt hcd _ _
      · exact List.append_left_lt (ih a hab)

end Sigil.Text.Utf8
