import Sigil.Proofs.Decimal.Range
import Sigil.Proofs.Template.Surface
import Sigil.Render.Scope

/-!
# Number literals

Groups of digits with points between them, behind a sign or not, spell a number only if they are a
JSON numeral: one group of places at most, and no digit behind a zero in front. Such a numeral with
no more than 308 digits in front of the point has a number, so it is then exactly the JSON numerals
that have one (`isSome_number?_iff`).
-/

namespace Sigil

open Text Decimal Template

/-! ## Reading groups of digits -/

/-- Groups of digits, each behind a point. -/
def points (groups : List (List Char)) : List Char := groups.flatMap ('.' :: ·)

theorem join_point (whole : List Char) (groups : List (List Char)) :
    join ['.'] (whole :: groups) = whole ++ points groups := by
  induction groups generalizing whole with
  | nil => exact (List.append_nil whole).symm
  | cons g groups ih =>
    rw [join, ih, points, points, List.flatMap_cons, List.append_assoc]
    rfl

theorem head?_points (groups : List (List Char)) :
    points groups = [] ∨ ∃ r, points groups = '.' :: r := by
  cases groups with
  | nil => exact .inl rfl
  | cons g groups => exact .inr ⟨g ++ points groups, rfl⟩

theorem points_eq_nil_iff {groups : List (List Char)} : points groups = [] ↔ groups = [] := by
  cases groups with
  | nil => exact iff_of_true rfl rfl
  | cons g groups => exact iff_of_false (List.cons_ne_nil _ _) (List.cons_ne_nil _ _)

section

variable {ds : List Char} {groups : List (List Char)}

theorem takeWhile_points (h : ∀ x ∈ ds, x.isDigit = true) (groups : List (List Char)) :
    (ds ++ points groups).takeWhile Char.isDigit = ds ∧
      (ds ++ points groups).dropWhile Char.isDigit = points groups := by
  rw [List.takeWhile_append_of_pos h, List.dropWhile_append_of_pos h]
  rcases head?_points groups with hp | ⟨r, hp⟩
  · rw [hp]
    exact ⟨List.append_nil ds, rfl⟩
  · rw [hp]
    exact ⟨List.append_nil ds, rfl⟩

theorem readPlaces_points (h : ∀ g ∈ groups, Digits g) :
    Numeral.readPlaces (points groups) = some (groups.headD [], points groups.tail) := by
  cases groups with
  | nil => rfl
  | cons g groups =>
    obtain ⟨htake, hdrop⟩ := takeWhile_points (h g List.mem_cons_self).2 groups
    have hcons : points (g :: groups) = '.' :: (g ++ points groups) := rfl
    rw [hcons, Numeral.readPlaces, htake, hdrop, if_neg]
    · rfl
    · simpa using (h g List.mem_cons_self).1

theorem readExponent_cons {c : Char} (h : c = '.' ∨ c.isDigit = true) (r : List Char) :
    Numeral.readExponent (c :: r) = some (none, c :: r) := by
  have he : ¬ (c = 'e' ∨ c = 'E') := by
    rintro (rfl | rfl) <;> rcases h with h | h <;> exact absurd h (by decide)
  exact if_neg he

theorem readExponent_points (groups : List (List Char)) :
    Numeral.readExponent (points groups) = some (none, points groups) := by
  rcases head?_points groups with hp | ⟨r, hp⟩
  · rw [hp]
    rfl
  · rw [hp]
    exact readExponent_cons (.inl rfl) r

theorem skip_cons {c : Char} (h : c = '.' ∨ c = '-' ∨ c.isDigit = true) (r : List Char) :
    Json.Written.skip (c :: r) = c :: r := by
  refine List.dropWhile_cons_of_neg ?_
  simp only [Json.Written.isSpace, Bool.or_eq_true, beq_iff_eq]
  rintro (((rfl | rfl) | rfl) | rfl) <;> rcases h with h | h | h <;> exact absurd h (by decide)

theorem skip_points (groups : List (List Char)) :
    Json.Written.skip (points groups) = points groups := by
  rcases head?_points groups with hp | ⟨r, hp⟩
  · rw [hp]
    rfl
  · rw [hp]
    exact skip_cons (.inl rfl) r

end

/-! ## Numerals -/

def groupText (negative : Bool) (whole : List Char) (groups : List (List Char)) : List Char :=
  sign negative ++ join ['.'] (whole :: groups)

/-- Groups of digits that are a JSON numeral: one group of places at most, and no zero in front of
other digits. -/
def IsNumeral (whole : List Char) (groups : List (List Char)) : Prop :=
  groups.length ≤ 1 ∧ (whole.head? = some '0' → whole = ['0'])

instance (whole : List Char) (groups : List (List Char)) : Decidable (IsNumeral whole groups) :=
  inferInstanceAs (Decidable (_ ∧ _))

section

variable {whole : List Char} {groups : List (List Char)}

theorem readUnsigned_of_nonzero (hg : ∀ g ∈ whole :: groups, Digits g)
    (hz : whole.head? ≠ some '0') (minus : Bool) :
    Numeral.readUnsigned minus (whole ++ points groups) =
      some (⟨minus, whole, groups.headD [], none⟩, points groups.tail) := by
  rw [List.forall_mem_cons] at hg
  obtain ⟨⟨hne, hd⟩, hg⟩ := hg
  obtain ⟨c, r, rfl⟩ := List.exists_cons_of_ne_nil hne
  rw [List.forall_mem_cons] at hd
  have hc : c ≠ '0' := fun h => hz (by rw [h]; rfl)
  obtain ⟨htake, hdrop⟩ := takeWhile_points hd.2 groups
  have hwhole : Numeral.readWhole (c :: r ++ points groups) = some (c :: r, points groups) := by
    rw [List.cons_append, Numeral.readWhole, if_pos hd.1, htake, hdrop]
    exact fun h => hc h
  rw [Numeral.readUnsigned, hwhole]
  simp only [Option.bind_eq_bind, Option.bind_some, readPlaces_points hg, readExponent_points,
    Option.pure_def]

theorem readUnsigned_zero (hg : ∀ g ∈ groups, Digits g) (minus : Bool) :
    Numeral.readUnsigned minus ('0' :: points groups) =
      some (⟨minus, ['0'], groups.headD [], none⟩, points groups.tail) := by
  rw [Numeral.readUnsigned, Numeral.readWhole]
  simp only [Option.bind_eq_bind, Option.bind_some, readPlaces_points hg, readExponent_points,
    Option.pure_def]

theorem readUnsigned_zeros {d : Char} (hd : d.isDigit = true) (minus : Bool) (r : List Char) :
    Numeral.readUnsigned minus ('0' :: d :: r) = some (⟨minus, ['0'], [], none⟩, d :: r) := by
  have hplaces : Numeral.readPlaces (d :: r) = some ([], d :: r) := by
    rw [Numeral.readPlaces]
    rintro s h
    cases h
    exact absurd hd (by decide)
  rw [Numeral.readUnsigned, Numeral.readWhole]
  simp only [Option.bind_eq_bind, Option.bind_some, hplaces, readExponent_cons (.inr hd),
    Option.pure_def]

/-- What is read of groups of digits leaves nothing exactly if they are a numeral. -/
theorem exists_readUnsigned (hg : ∀ g ∈ whole :: groups, Digits g) (minus : Bool) :
    ∃ x r, Numeral.readUnsigned minus (whole ++ points groups) = some (x, r) ∧
      Json.Written.skip r = r ∧ (r = [] ↔ IsNumeral whole groups) ∧
      (r = [] → x = ⟨minus, whole, groups.headD [], none⟩) := by
  have htail : points groups.tail = [] ↔ groups.length ≤ 1 := by
    rw [points_eq_nil_iff, ← List.length_eq_zero_iff, List.length_tail]
    omega
  by_cases hz : whole.head? = some '0'
  · obtain ⟨ds, rfl⟩ := List.head?_eq_some_iff.1 hz
    rw [List.forall_mem_cons] at hg
    cases ds with
    | nil =>
      refine ⟨_, _, readUnsigned_zero hg.2 minus, skip_points _, ?_, fun _ => rfl⟩
      rw [htail, IsNumeral]
      exact (and_iff_left fun _ => rfl).symm
    | cons d ds =>
      have hd : d.isDigit = true := hg.1.2 d (by simp)
      refine ⟨_, _, readUnsigned_zeros hd minus (ds ++ points groups), skip_cons (.inr (.inr hd)) _,
        ?_, nofun⟩
      refine iff_of_false (List.cons_ne_nil _ _) fun h => ?_
      cases h.2 rfl
  · refine ⟨_, _, readUnsigned_of_nonzero hg hz minus, skip_points _, ?_, fun _ => rfl⟩
    rw [htail, IsNumeral]
    exact (and_iff_left fun h => absurd h hz).symm

theorem exists_read (hg : ∀ g ∈ whole :: groups, Digits g) (negative : Bool) :
    ∃ x r, Numeral.read (Json.Written.skip (groupText negative whole groups)) = some (x, r) ∧
      Json.Written.skip r = r ∧ (r = [] ↔ IsNumeral whole groups) ∧
      (r = [] → x = ⟨negative, whole, groups.headD [], none⟩) := by
  have h := exists_readUnsigned hg negative
  rw [groupText, join_point]
  cases negative with
  | true =>
    rw [sign, if_pos rfl, List.singleton_append, skip_cons (.inr (.inl rfl)), Numeral.read]
    exact h
  | false =>
    obtain ⟨⟨hne, hd⟩, -⟩ := List.forall_mem_cons.1 hg
    obtain ⟨c, r, rfl⟩ := List.exists_cons_of_ne_nil hne
    have hc : c.isDigit = true := hd c List.mem_cons_self
    rw [sign, if_neg Bool.false_ne_true, List.nil_append, List.cons_append,
      skip_cons (.inr (.inr hc)), Numeral.read]
    · exact h
    · rintro s hs
      cases hs
      exact absurd hc (by decide)

end

/-! ## Numbers of numerals -/

namespace Numeral

theorem digitValue_le {c : Char} (h : c.isDigit = true) : digitValue c ≤ 9 := by
  have := Char.isDigit_iff_toNat.1 h
  have h₀ : '0'.toNat = 48 := rfl
  have h₉ : '9'.toNat = 57 := rfl
  unfold digitValue
  omega

theorem append_spec {ds : List Char} (hd : ∀ x ∈ ds, x.isDigit = true) {n : Nat}
    (hn : n < bound64) :
    (append n ds).1 < bound64 ∧ (append n ds).2.1 + (append n ds).2.2 = ds.length ∧
      (append n ds).1 < (n + 1) * 10 ^ (append n ds).2.1 := by
  induction ds generalizing n with
  | nil => exact ⟨hn, rfl, by simp [append]⟩
  | cons c ds ih =>
    rw [List.forall_mem_cons] at hd
    rw [append]
    split
    · rename_i hnext
      obtain ⟨hlt, hlen, hle⟩ := ih hd.2 hnext
      refine ⟨hlt, ?_, Nat.lt_of_lt_of_le hle ?_⟩
      · rw [List.length_cons, ← hlen]
        exact Nat.add_right_comm ..
      have hdigit := digitValue_le hd.1
      calc (10 * n + digitValue c + 1) * 10 ^ (append (10 * n + digitValue c) ds).2.1
          ≤ (n + 1) * 10 * 10 ^ (append (10 * n + digitValue c) ds).2.1 :=
            Nat.mul_le_mul_right _ (by omega)
        _ = (n + 1) * 10 ^ ((append (10 * n + digitValue c) ds).2.1 + 1) := by
            rw [Nat.pow_succ']
            ring
    · exact ⟨hn, by simp, by simp⟩

/-- A numeral without an exponent that has no more than 308 digits in front of the point. -/
theorem isSome_number? {x : Numeral} (hw : ∀ c ∈ x.whole, c.isDigit = true)
    (hp : ∀ c ∈ x.places, c.isDigit = true) (he : x.exponent = none)
    (hl : x.whole.length ≤ Magnitude.maxPower) : x.number?.isSome := by
  obtain ⟨hn, hlen, hlt⟩ := append_spec hw (n := 0) (by decide)
  obtain ⟨hm, -, hmlt⟩ := append_spec hp hn
  unfold number?
  generalize append 0 x.whole = a at *
  obtain ⟨n, used, left⟩ := a
  simp only at hn hlen hlt hm hmlt ⊢
  split
  · rfl
  · generalize append n x.places = b at *
    obtain ⟨m, used', left'⟩ := b
    simp only at hm hmlt ⊢
    rw [Option.isSome_map]
    refine Magnitude.isSome_ofDecimal hm fun k hk => ?_
    rw [exponentValue, he] at hk
    simp only at hk
    have hle : used + used' + k = x.whole.length := by omega
    refine ⟨by omega, ?_⟩
    calc m * pow10 k
        ≤ (n + 1) * 10 ^ used' * 10 ^ k := Nat.mul_le_mul_right _ (Nat.le_of_lt hmlt)
      _ ≤ 10 ^ used * 10 ^ used' * 10 ^ k :=
          Nat.mul_le_mul_right _ (Nat.mul_le_mul_right _ (by omega))
      _ = pow10 (used + used' + k) := by
          rw [← Nat.pow_add, ← Nat.pow_add]
          rfl
      _ ≤ pow10 Magnitude.maxPower := Magnitude.pow10_le (by omega)

end Numeral

namespace Render

theorem number?_of_read {text : String} {x : Numeral} {r : List Char}
    (h : Numeral.read (Json.Written.skip text.toList) = some (x, r))
    (hr : Json.Written.skip r = r) :
    (number? text).isSome = true ↔ r = [] ∧ x.number?.isSome = true := by
  unfold number?
  rw [h]
  simp only [Option.bind_eq_bind, Option.bind_some, hr]
  split
  · rename_i hnil
    rw [List.isEmpty_iff] at hnil
    rw [and_iff_right hnil]
    cases x.number? with
    | none => rfl
    | some v =>
      simp only [Option.bind_some]
      split
      · split <;> exact iff_of_true rfl rfl
      · exact iff_of_true rfl rfl
  · rename_i hcons
    rw [List.isEmpty_iff] at hcons
    exact iff_of_false Bool.false_ne_true fun h => hcons h.1

section

variable {whole : List Char} {groups : List (List Char)} {negative : Bool}

/-- A literal with no more than 308 digits in front of the point has a number exactly if it is a
JSON numeral. -/
theorem isSome_number?_iff (hg : ∀ g ∈ whole :: groups, Digits g)
    (hl : whole.length ≤ Magnitude.maxPower) :
    (number? (String.ofList (groupText negative whole groups))).isSome = true ↔
      IsNumeral whole groups := by
  obtain ⟨x, r, hread, hskip, hnil, hx⟩ := exists_read hg negative
  rw [← String.toList_ofList (l := groupText negative whole groups)] at hread
  rw [number?_of_read hread hskip, hnil, and_iff_left_iff_imp]
  intro h
  rw [hx (hnil.2 h)]
  rw [List.forall_mem_cons] at hg
  refine Numeral.isSome_number? hg.1.2 ?_ rfl hl
  cases groups with
  | nil => exact nofun
  | cons g groups => exact (hg.2 g List.mem_cons_self).2

theorem isNumeral_of_isSome (hg : ∀ g ∈ whole :: groups, Digits g)
    (h : (number? (String.ofList (groupText negative whole groups))).isSome = true) :
    IsNumeral whole groups := by
  obtain ⟨x, r, hread, hskip, hnil, -⟩ := exists_read hg negative
  rw [← String.toList_ofList (l := groupText negative whole groups)] at hread
  exact hnil.1 ((number?_of_read hread hskip).1 h).1

end

end Render
end Sigil
