import Sigil.Text.Utf8

/-!
# Reading encoded text back

What `decodeFrom` makes of a first byte and the bytes behind it is said once for each length
(`decodeFrom_of_two` and its like). The bytes of a character are of one of these kinds and are read as
that character, whatever follows, so the bytes of a text are read as the text (`decode_encode`).
-/

namespace Sigil.Text.Utf8

theorem toNat_ofNat (n : Nat) : (UInt8.ofNat n).toNat = n % 256 := UInt8.toNat_ofNat'

theorem inRange_iff (low b high : UInt8) :
    (low ≤ b && b ≤ high) = true ↔ low.toNat ≤ b.toNat ∧ b.toNat ≤ high.toNat := by
  simp only [Bool.and_eq_true, decide_eq_true_eq, UInt8.le_iff_toNat_le]

/-! ## First bytes -/

section

variable (index : Nat) {a b c d : UInt8} (r : List UInt8)

theorem decodeFrom_of_one (ha : a.toNat < 0x80) :
    decodeFrom index (a :: r) = (decodeFrom (index + 1) r).map (Char.ofNat a.toNat :: ·) := by
  rw [decodeFrom.eq_def]
  simp only
  rw [if_pos (UInt8.lt_iff_toNat_lt.2 ha)]

theorem decodeFrom_of_two (ha : 0xC2 ≤ a.toNat ∧ a.toNat ≤ 0xDF) (hb : isTail b = true) :
    decodeFrom index (a :: b :: r) = (decodeFrom (index + 2) r).map (char2 a b :: ·) := by
  have hone : ¬ a < 0x80 := by
    rw [UInt8.lt_iff_toNat_lt]
    show ¬ a.toNat < 0x80
    omega
  rw [decodeFrom.eq_def]
  simp only
  rw [if_neg hone, if_pos ((inRange_iff 0xC2 a 0xDF).2 ha), if_pos hb]

theorem decodeFrom_of_three (ha : 0xE0 ≤ a.toNat ∧ a.toNat ≤ 0xEF) (hb : isSecondOf3 a b = true)
    (hc : isTail c = true) :
    decodeFrom index (a :: b :: c :: r) = (decodeFrom (index + 3) r).map (char3 a b c :: ·) := by
  have hone : ¬ a < 0x80 := by
    rw [UInt8.lt_iff_toNat_lt]
    show ¬ a.toNat < 0x80
    omega
  have htwo : ¬ (0xC2 ≤ a && a ≤ 0xDF) = true := by
    rw [inRange_iff]
    show ¬ (0xC2 ≤ a.toNat ∧ a.toNat ≤ 0xDF)
    omega
  rw [decodeFrom.eq_def]
  simp only
  rw [if_neg hone, if_neg htwo, if_pos ((inRange_iff 0xE0 a 0xEF).2 ha), hb, if_pos hc]
  rfl

theorem decodeFrom_of_four (ha : 0xF0 ≤ a.toNat ∧ a.toNat ≤ 0xF4) (hb : isSecondOf4 a b = true)
    (hc : isTail c = true) (hd : isTail d = true) :
    decodeFrom index (a :: b :: c :: d :: r) =
      (decodeFrom (index + 4) r).map (char4 a b c d :: ·) := by
  have hone : ¬ a < 0x80 := by
    rw [UInt8.lt_iff_toNat_lt]
    show ¬ a.toNat < 0x80
    omega
  have htwo : ¬ (0xC2 ≤ a && a ≤ 0xDF) = true := by
    rw [inRange_iff]
    show ¬ (0xC2 ≤ a.toNat ∧ a.toNat ≤ 0xDF)
    omega
  have hthree : ¬ (0xE0 ≤ a && a ≤ 0xEF) = true := by
    rw [inRange_iff]
    show ¬ (0xE0 ≤ a.toNat ∧ a.toNat ≤ 0xEF)
    omega
  rw [decodeFrom.eq_def]
  simp only
  rw [if_neg hone, if_neg htwo, if_neg hthree, if_pos ((inRange_iff 0xF0 a 0xF4).2 ha), hb, hc,
    if_pos hd]
  rfl

end

/-! ## The bytes of a number -/

section

variable (index n : Nat) (r : List UInt8)

theorem isTail_ofNat : isTail (UInt8.ofNat (n % 64 + 0x80)) = true := by
  rw [isTail, inRange_iff, toNat_ofNat]
  show 128 ≤ (n % 64 + 128) % 256 ∧ (n % 64 + 128) % 256 ≤ 191
  omega

theorem low6_ofNat : low6 (UInt8.ofNat (n % 64 + 0x80)) = n % 64 := by
  rw [low6, toNat_ofNat]
  omega

theorem decodeFrom_one (h : n ≤ 0x7F) :
    decodeFrom index (UInt8.ofNat n :: r) =
      (decodeFrom (index + 1) r).map (Char.ofNat n :: ·) := by
  have hlead : (UInt8.ofNat n).toNat = n := by
    rw [toNat_ofNat]
    omega
  rw [decodeFrom_of_one index r (by omega), hlead]

theorem decodeFrom_two (h₁ : 0x7F < n) (h₂ : n ≤ 0x7FF) :
    decodeFrom index (UInt8.ofNat (n / 64 % 32 + 0xC0) :: UInt8.ofNat (n % 64 + 0x80) :: r) =
      (decodeFrom (index + 2) r).map (Char.ofNat n :: ·) := by
  have hlead : (UInt8.ofNat (n / 64 % 32 + 0xC0)).toNat = n / 64 + 0xC0 := by
    rw [toNat_ofNat]
    omega
  have hchar : char2 (UInt8.ofNat (n / 64 % 32 + 0xC0)) (UInt8.ofNat (n % 64 + 0x80)) =
      Char.ofNat n := by
    rw [char2, hlead, low6_ofNat]
    congr 1
    omega
  rw [decodeFrom_of_two index r (by omega) (isTail_ofNat n), hchar]

/-- The second of three bytes: no overlong forms behind `E0`, no surrogates behind `ED`. -/
theorem isSecondOf3_ofNat (h₁ : 0x7FF < n) (hs : n < 0xD800 ∨ 0xDFFF < n) {lead : UInt8}
    (hlead : lead.toNat = n / 4096 + 0xE0) :
    isSecondOf3 lead (UInt8.ofNat (n / 64 % 64 + 0x80)) = true := by
  have hsecond : (UInt8.ofNat (n / 64 % 64 + 0x80)).toNat = n / 64 % 64 + 0x80 := by
    rw [toNat_ofNat]
    omega
  unfold isSecondOf3
  split
  · rename_i he
    rw [beq_iff_eq, ← UInt8.toNat_inj, hlead] at he
    change n / 4096 + 224 = 224 at he
    rw [inRange_iff, hsecond]
    show 160 ≤ n / 64 % 64 + 128 ∧ n / 64 % 64 + 128 ≤ 191
    omega
  · split
    · rename_i he
      rw [beq_iff_eq, ← UInt8.toNat_inj, hlead] at he
      change n / 4096 + 224 = 237 at he
      rw [inRange_iff, hsecond]
      show 128 ≤ n / 64 % 64 + 128 ∧ n / 64 % 64 + 128 ≤ 159
      omega
    · exact isTail_ofNat (n / 64)

theorem decodeFrom_three (h₁ : 0x7FF < n) (h₂ : n ≤ 0xFFFF) (hs : n < 0xD800 ∨ 0xDFFF < n) :
    decodeFrom index (UInt8.ofNat (n / 4096 % 16 + 0xE0) ::
        UInt8.ofNat (n / 64 % 64 + 0x80) :: UInt8.ofNat (n % 64 + 0x80) :: r) =
      (decodeFrom (index + 3) r).map (Char.ofNat n :: ·) := by
  have hlead : (UInt8.ofNat (n / 4096 % 16 + 0xE0)).toNat = n / 4096 + 0xE0 := by
    rw [toNat_ofNat]
    omega
  have hchar : char3 (UInt8.ofNat (n / 4096 % 16 + 0xE0)) (UInt8.ofNat (n / 64 % 64 + 0x80))
      (UInt8.ofNat (n % 64 + 0x80)) = Char.ofNat n := by
    rw [char3, hlead, low6_ofNat, low6_ofNat]
    congr 1
    omega
  rw [decodeFrom_of_three index r (by omega) (isSecondOf3_ofNat n h₁ hs hlead) (isTail_ofNat n),
    hchar]

/-- The second of four bytes: no overlong forms behind `F0`, nothing too large behind `F4`. -/
theorem isSecondOf4_ofNat (h₁ : 0xFFFF < n) (h₂ : n < 0x110000) {lead : UInt8}
    (hlead : lead.toNat = n / 262144 + 0xF0) :
    isSecondOf4 lead (UInt8.ofNat (n / 4096 % 64 + 0x80)) = true := by
  have hsecond : (UInt8.ofNat (n / 4096 % 64 + 0x80)).toNat = n / 4096 % 64 + 0x80 := by
    rw [toNat_ofNat]
    omega
  unfold isSecondOf4
  split
  · rename_i he
    rw [beq_iff_eq, ← UInt8.toNat_inj, hlead] at he
    change n / 262144 + 240 = 240 at he
    rw [inRange_iff, hsecond]
    show 144 ≤ n / 4096 % 64 + 128 ∧ n / 4096 % 64 + 128 ≤ 191
    omega
  · split
    · rename_i he
      rw [beq_iff_eq, ← UInt8.toNat_inj, hlead] at he
      change n / 262144 + 240 = 244 at he
      rw [inRange_iff, hsecond]
      show 128 ≤ n / 4096 % 64 + 128 ∧ n / 4096 % 64 + 128 ≤ 143
      omega
    · exact isTail_ofNat (n / 4096)

theorem decodeFrom_four (h₁ : 0xFFFF < n) (h₂ : n < 0x110000) :
    decodeFrom index (UInt8.ofNat (n / 262144 % 8 + 0xF0) ::
        UInt8.ofNat (n / 4096 % 64 + 0x80) :: UInt8.ofNat (n / 64 % 64 + 0x80) ::
        UInt8.ofNat (n % 64 + 0x80) :: r) =
      (decodeFrom (index + 4) r).map (Char.ofNat n :: ·) := by
  have hlead : (UInt8.ofNat (n / 262144 % 8 + 0xF0)).toNat = n / 262144 + 0xF0 := by
    rw [toNat_ofNat]
    omega
  have hchar : char4 (UInt8.ofNat (n / 262144 % 8 + 0xF0)) (UInt8.ofNat (n / 4096 % 64 + 0x80))
      (UInt8.ofNat (n / 64 % 64 + 0x80)) (UInt8.ofNat (n % 64 + 0x80)) = Char.ofNat n := by
    rw [char4, hlead, low6_ofNat, low6_ofNat, low6_ofNat]
    congr 1
    omega
  rw [decodeFrom_of_four index r (by omega) (isSecondOf4_ofNat n h₁ h₂ hlead)
    (isTail_ofNat (n / 64)) (isTail_ofNat n), hchar]

end

/-- The bytes of a character are read as the character. -/
theorem decodeFrom_utf8EncodeChar (index : Nat) (c : Char) (r : List UInt8) :
    ∃ next, decodeFrom index (String.utf8EncodeChar c ++ r) =
      (decodeFrom next r).map (c :: ·) := by
  have hc : Char.ofNat c.val.toNat = c := Char.ofNat_toNat c
  have hvalid : c.val.toNat < 0xD800 ∨ 0xDFFF < c.val.toNat ∧ c.val.toNat < 0x110000 := c.valid
  unfold String.utf8EncodeChar
  simp only
  split
  · rename_i h
    exact ⟨_, by rw [List.cons_append, List.nil_append, decodeFrom_one index _ r h, hc]⟩
  · split
    · rename_i h₁ h₂
      have := decodeFrom_two index _ r (Nat.lt_of_not_le h₁) h₂
      exact ⟨_, by rw [List.cons_append, List.cons_append, List.nil_append, this, hc]⟩
    · split
      · rename_i h₁ h₂ h₃
        have := decodeFrom_three index _ r (Nat.lt_of_not_le h₂) h₃ (hvalid.imp id And.left)
        exact ⟨_, by
          rw [List.cons_append, List.cons_append, List.cons_append, List.nil_append, this, hc]⟩
      · rename_i h₁ h₂ h₃
        have := decodeFrom_four index _ r (Nat.lt_of_not_le h₃) (by omega)
        exact ⟨_, by
          rw [List.cons_append, List.cons_append, List.cons_append, List.cons_append,
            List.nil_append, this, hc]⟩

theorem decodeFrom_flatMap (index : Nat) (s : List Char) :
    decodeFrom index (s.flatMap String.utf8EncodeChar) = .ok s := by
  induction s generalizing index with
  | nil => rfl
  | cons c s ih =>
    obtain ⟨next, h⟩ := decodeFrom_utf8EncodeChar index c (s.flatMap String.utf8EncodeChar)
    rw [List.flatMap_cons, h, ih]
    rfl

theorem toList_loop_eq (bytes : ByteArray) (i : Nat) (front : List UInt8) :
    ByteArray.toList.loop bytes i front = front.reverse ++ bytes.data.toList.drop i := by
  fun_induction ByteArray.toList.loop bytes i front with
  | case1 i front h ih =>
    have hi : i < bytes.data.toList.length := h
    have hget : bytes.get! i = bytes.data.toList[i] := getElem!_pos bytes.data i h
    rw [ih, List.drop_eq_getElem_cons hi, hget, List.reverse_cons, List.append_assoc]
    rfl
  | case2 i front h =>
    have hi : bytes.data.toList.length ≤ i := Nat.le_of_not_lt h
    rw [List.drop_eq_nil_of_le hi, List.append_nil]

theorem toList_eq_data (bytes : ByteArray) : bytes.toList = bytes.data.toList :=
  toList_loop_eq bytes 0 []

theorem encode_eq (text : String) : encode text = text.toList.flatMap String.utf8EncodeChar := by
  rw [encode, String.toUTF8_eq_toByteArray, ← String.utf8Encode_toList, List.utf8Encode,
    toList_eq_data, List.toList_data_toByteArray]

theorem decode_encode (text : String) : decode (encode text) = .ok text := by
  rw [decode, encode_eq, decodeFrom_flatMap]
  exact congrArg Except.ok String.ofList_toList

end Sigil.Text.Utf8
