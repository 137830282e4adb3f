import Sigil.Proofs.Template.Reading

/-!
# Texts by their bytes

A reader that keeps byte offsets instead of cursors looks at single bytes, cuts slices and goes
round in loops. Each of these can go wrong: there may be no byte at an index, an end of a slice may
stand inside a character or beyond the text, and a loop may not end. `Run` is the result of such a
reader, with a `Trap` for what went wrong. At the offsets of places in a text (`At`) bytes and slices
are there, and say what the characters say (`sees_at`, `slice_spans`); a loop that follows a
recursion over the text ends in as many rounds as the text has bytes (`loop_eq_ok`).
-/

namespace Sigil.Template.Bytewise

open Text Cursor

inductive Trap where
  /-- There is no byte at an index. -/
  | noByte (index : Nat)
  /-- Two offsets that are not in order, or one that is not between two characters. -/
  | noSlice (first last : Nat)
  /-- A count taken below zero. -/
  | underflow
  /-- A loop or a recursion that goes on for more rounds than the text has bytes. -/
  | endless
  deriving DecidableEq, Repr

/-- A result, unless the reader was stopped. -/
abbrev Run := Except Trap

@[simp] theorem ok_bind {α β : Type} (a : α) (f : α → Run β) : (Except.ok a >>= f) = f a := rfl

@[simp] theorem pure_eq_ok {α : Type} (a : α) : (pure a : Run α) = .ok a := rfl

/-- A count less one. -/
def less (n : Nat) : Run Nat := if n = 0 then .error .underflow else .ok (n - 1)

/-! ## Bytes and slices -/

def bytes (s : List Char) : List UInt8 := s.flatMap String.utf8EncodeChar

def size (s : List Char) : Nat := (bytes s).length

/-- The byte at an offset, as the character with its number. -/
def look (s : List Char) (i : Nat) : Option Char := (bytes s)[i]?.map fun b => Char.ofNat b.toNat

/-- The byte at an index, which has to be there. -/
def index (s : List Char) (i : Nat) : Run Char :=
  match look s i with
  | some x => .ok x
  | none => .error (.noByte i)

def sees (s : List Char) (p : Char → Bool) (i : Nat) : Bool := (look s i).any p

/-- Whether a letter or digit ends in front of an offset. -/
def afterWord (s : List Char) (i : Nat) : Run Bool :=
  if 0 < i then (index s (i - 1)).map Char.isAlphanum else .ok false

/-- The text in front of a byte offset and the text behind it, if it is between two characters. -/
def splitAt? : (offset : Nat) → List Char → Option (List Char × List Char)
  | n, [] => if n = 0 then some ([], []) else none
  | n, c :: r =>
    if n = 0 then some ([], c :: r)
    else if c.utf8Size ≤ n then (splitAt? (n - c.utf8Size) r).map fun (a, b) => (c :: a, b)
    else none

/-- The text between two byte offsets. -/
def slice? (s : List Char) (a b : Nat) : Option (List Char) :=
  if a ≤ b then do
    let (_, t) ← splitAt? a s
    let (u, _) ← splitAt? (b - a) t
    some u
  else none

/-- The text between two byte offsets, which has to be there. -/
def slice (s : List Char) (a b : Nat) : Run (List Char) :=
  match slice? s a b with
  | some t => .ok t
  | none => .error (.noSlice a b)

theorem splitAt?_eq_some_iff {s a b : List Char} {n : Nat} :
    splitAt? n s = some (a, b) ↔ s = a ++ b ∧ byteLength a = n := by
  induction s generalizing n a with
  | nil =>
    rw [splitAt?]
    split
    · rename_i h
      subst h
      constructor
      · intro h
        cases h
        exact ⟨rfl, rfl⟩
      · rintro ⟨h, -⟩
        rw [(List.append_eq_nil_iff.1 h.symm).1, (List.append_eq_nil_iff.1 h.symm).2]
    · rename_i h
      refine ⟨nofun, ?_⟩
      rintro ⟨hs, rfl⟩
      rw [(List.append_eq_nil_iff.1 hs.symm).1] at h
      exact absurd rfl h
  | cons c r ih =>
    have hc := Char.utf8Size_pos c
    rw [splitAt?]
    constructor
    · intro h
      split at h
      · rename_i hn
        cases h
        exact ⟨rfl, hn.symm⟩
      · split at h
        · obtain ⟨⟨u, v⟩, hu, he⟩ := Option.map_eq_some_iff.1 h
          cases he
          obtain ⟨hr, hl⟩ := ih.1 hu
          refine ⟨by rw [hr]; rfl, ?_⟩
          rw [byteLength_cons, hl]
          omega
        · cases h
    · rintro ⟨hs, hl⟩
      cases a with
      | nil =>
        rw [byteLength_nil] at hl
        rw [if_pos hl.symm, hs]
        rfl
      | cons x a =>
        rw [List.cons_append, List.cons.injEq] at hs
        obtain ⟨rfl, hr⟩ := hs
        rw [byteLength_cons] at hl
        rw [if_neg (by omega), if_pos (by omega), ih.2 ⟨hr, by omega⟩]
        rfl

/-- A slice is the text between two prefixes, by their byte lengths. -/
theorem slice_eq_ok_iff {s m : List Char} {a b : Nat} :
    slice s a b = .ok m ↔
      ∃ u v, s = u ++ (m ++ v) ∧ a = byteLength u ∧ b = byteLength u + byteLength m := by
  have hslice : slice s a b = .ok m ↔ slice? s a b = some m := by
    rw [slice]
    split <;> simp_all
  rw [hslice, slice?]
  constructor
  · intro h
    split at h
    · obtain ⟨⟨u, t⟩, hu, h⟩ := Option.bind_eq_some_iff.1 h
      obtain ⟨⟨m', v⟩, hm, h⟩ := Option.bind_eq_some_iff.1 h
      cases h
      obtain ⟨rfl, rfl⟩ := splitAt?_eq_some_iff.1 hu
      obtain ⟨rfl, hl⟩ := splitAt?_eq_some_iff.1 hm
      exact ⟨u, v, rfl, rfl, by omega⟩
    · cases h
  · rintro ⟨u, v, rfl, rfl, rfl⟩
    have hu : splitAt? (byteLength u) (u ++ (m ++ v)) = some (u, m ++ v) :=
      splitAt?_eq_some_iff.2 ⟨rfl, rfl⟩
    have hm : splitAt? (byteLength m) (m ++ v) = some (m, v) :=
      splitAt?_eq_some_iff.2 ⟨rfl, rfl⟩
    rw [if_pos (Nat.le_add_right _ _), hu, Nat.add_sub_cancel_left]
    simp only [Option.bind_eq_bind, Option.bind_some, hm]

example : slice ['a', 'é', 'b'] 1 3 = .ok ['é'] ∧
    slice ['a', 'é', 'b'] 1 2 = .error (.noSlice 1 2) := by decide

/-! ## Loops -/

/-- Where one round of a loop leads. -/
inductive Turn (σ α : Type) where
  | again (s : σ)
  | done (a : α)

/-- Goes round until a round is the last one, for at most so many rounds. -/
def loop {σ α : Type} (turn : σ → Run (Turn σ α)) : (rounds : Nat) → σ → Run α
  | 0, _ => .error .endless
  | n + 1, s =>
    match turn s with
    | .error e => .error e
    | .ok (.again s) => loop turn n s
    | .ok (.done a) => .ok a

/-- How many rounds a loop over a text may take: one for each byte and a last one. -/
def rounds (s : List Char) : Nat := size s + 1

def skip (s : List Char) (p : Char → Bool) (i : Nat) : Run Nat :=
  loop (fun i => .ok (if sees s p i then .again (i + 1) else .done i)) (rounds s) i

section

variable {σ α : Type} {turn : σ → Run (Turn σ α)}

/-- A loop passes from one state to another one in `m` rounds. -/
def Passes (turn : σ → Run (Turn σ α)) (m : Nat) (a b : σ) : Prop :=
  ∀ n, loop turn (n + m) a = loop turn n b

theorem Passes.refl (a : σ) : Passes turn 0 a a := fun _ => rfl

theorem Passes.trans {m n : Nat} {a b c : σ} (h : Passes turn m a b) (k : Passes turn n b c) :
    Passes turn (m + n) a c := by
  intro x
  rw [Nat.add_comm m n, ← Nat.add_assoc, h, k]

theorem passes_one {a b : σ} (h : turn a = .ok (.again b)) : Passes turn 1 a b := by
  intro n
  rw [loop, h]

theorem passes_run {f : Nat → σ} {m : Nat}
    (h : ∀ k < m, turn (f k) = .ok (.again (f (k + 1)))) : Passes turn m (f 0) (f m) := by
  induction m with
  | zero => exact .refl _
  | succ m ih => exact (ih fun k hk => h k (by omega)).trans (passes_one (h m (by omega)))

/-- A loop gives what a recursion gives whose every step it follows in as many rounds as the step
passes. -/
theorem loop_eq_ok {β : Type} (inv : β → Prop) (left : β → Nat) (state : β → σ) (result : β → α)
    (h : ∀ b, inv b → turn (state b) = .ok (.done (result b)) ∨
      ∃ b' m, 0 < m ∧ left b' + m ≤ left b ∧ inv b' ∧ result b' = result b ∧
        Passes turn m (state b) (state b'))
    (b : β) (hb : inv b) {n : Nat} (hn : left b < n) : loop turn n (state b) = .ok (result b) := by
  induction n using Nat.strongRecOn generalizing b with
  | ind n ih =>
    obtain ⟨k, rfl⟩ : ∃ k, n = k + 1 := ⟨n - 1, by omega⟩
    rcases h b hb with hdone | ⟨b', m, hm, hleft, hb', hresult, hpass⟩
    · rw [loop, hdone]
    · obtain ⟨j, hj⟩ : ∃ j, k + 1 = j + m := ⟨k + 1 - m, by omega⟩
      rw [hj, hpass, ← hresult]
      exact ih j (by omega) b' hb' (by omega)

end

/-! ## The bytes of a character -/

theorem utf8EncodeChar_ascii {c : Char} (h : c.toNat < 128) :
    String.utf8EncodeChar c = [UInt8.ofNat c.toNat] := by
  have hle : c.val.toNat ≤ 0x7F := Nat.le_of_lt_succ h
  unfold String.utf8EncodeChar
  simp only
  rw [if_pos hle]
  rfl

/-- A character that is not ASCII has no ASCII bytes. -/
theorem le_of_mem_utf8EncodeChar {c : Char} (h : 128 ≤ c.toNat) {b : UInt8}
    (hb : b ∈ String.utf8EncodeChar c) : 128 ≤ b.toNat := by
  have hlt : ¬ c.val.toNat ≤ 0x7F := Nat.not_le_of_lt h
  have hmax : c.val.toNat < 0x110000 := by
    have hvalid : c.val.toNat < 0xD800 ∨ 0xDFFF < c.val.toNat ∧ c.val.toNat < 0x110000 := c.valid
    omega
  unfold String.utf8EncodeChar at hb
  simp only at hb
  rw [if_neg hlt] at hb
  split at hb
  · simp only [List.mem_cons, List.not_mem_nil, or_false] at hb
    rcases hb with rfl | rfl <;> (simp only [UInt8.toNat_ofNat']; omega)
  · split at hb
    · simp only [List.mem_cons, List.not_mem_nil, or_false] at hb
      rcases hb with rfl | rfl | rfl <;> (simp only [UInt8.toNat_ofNat']; omega)
    · simp only [List.mem_cons, List.not_mem_nil, or_false] at hb
      rcases hb with rfl | rfl | rfl | rfl <;> (simp only [UInt8.toNat_ofNat']; omega)

theorem bytes_append (a b : List Char) : bytes (a ++ b) = bytes a ++ bytes b :=
  List.flatMap_append

theorem bytes_cons (c : Char) (r : List Char) :
    bytes (c :: r) = String.utf8EncodeChar c ++ bytes r := List.flatMap_cons

theorem size_eq (s : List Char) : size s = byteLength s := by
  induction s with
  | nil => rfl
  | cons c r ih =>
    rw [size, bytes_cons, List.length_append, String.length_utf8EncodeChar, byteLength_cons, ← ih,
      size]

theorem toNat_ofNat {n : Nat} (h : n < 256) : (Char.ofNat n).toNat = n := by
  have hvalid : n.isValidChar := .inl (by omega)
  unfold Char.ofNat
  rw [dif_pos hvalid]
  rfl

/-- The bytes of a character that stands in a text. -/
theorem look_append {u r : List Char} {x : Char} {k : Nat} (hk : k < x.utf8Size) :
    ∃ y, look (u ++ x :: r) (byteLength u + k) = some y ∧ (x.toNat < 128 → y = x) ∧
      (128 ≤ x.toNat → 128 ≤ y.toNat) := by
  have hlen : k < (String.utf8EncodeChar x).length := by rwa [String.length_utf8EncodeChar]
  have hget : (bytes (u ++ x :: r))[byteLength u + k]? = some (String.utf8EncodeChar x)[k] := by
    have hu : (bytes u).length = byteLength u := size_eq u
    rw [bytes_append, bytes_cons, List.getElem?_append_right (by omega), hu,
      Nat.add_sub_cancel_left, List.getElem?_append_left hlen, List.getElem?_eq_getElem hlen]
  have hmem : (String.utf8EncodeChar x)[k] ∈ String.utf8EncodeChar x := List.getElem_mem hlen
  refine ⟨_, by rw [look, hget]; rfl, fun hx => ?_, fun hx => ?_⟩
  · simp only [utf8EncodeChar_ascii hx, List.mem_singleton] at hmem
    simp only [utf8EncodeChar_ascii hx, List.getElem_singleton, UInt8.toNat_ofNat']
    rw [Nat.mod_eq_of_lt (by omega)]
    exact Char.ofNat_toNat x
  · have := le_of_mem_utf8EncodeChar hx hmem
    have hlt := UInt8.toNat_lt (String.utf8EncodeChar x)[k]
    show 128 ≤ (Char.ofNat (String.utf8EncodeChar x)[k].toNat).toNat
    rwa [toNat_ofNat hlt]

/-! ## Classes of characters -/

/-- A class that holds all characters that are not ASCII, or none of them. -/
def Uniform (p : Char → Bool) : Prop :=
  ∀ x y : Char, 128 ≤ x.toNat → 128 ≤ y.toNat → p x = p y

def Ascii (p : Char → Bool) : Prop := ∀ x : Char, p x = true → x.toNat < 128

theorem Ascii.uniform {p : Char → Bool} (h : Ascii p) : Uniform p := by
  intro x y hx hy
  have hpx : p x = false := Bool.eq_false_iff.2 fun hp => absurd (h x hp) (by omega)
  have hpy : p y = false := Bool.eq_false_iff.2 fun hp => absurd (h y hp) (by omega)
  rw [hpx, hpy]

theorem Ascii.or {p q : Char → Bool} (hp : Ascii p) (hq : Ascii q) : Ascii fun x => p x || q x :=
  fun x h => (Bool.or_eq_true_iff.1 h).elim (hp x) (hq x)

theorem Ascii.and {p : Char → Bool} (hp : Ascii p) (q : Char → Bool) : Ascii fun x => p x && q x :=
  fun x h => hp x (Bool.and_eq_true_iff.1 h).1

theorem Uniform.not {p : Char → Bool} (h : Uniform p) : Uniform (!p ·) :=
  fun x y hx hy => congrArg (!·) (h x y hx hy)

theorem ascii_eq {a : Char} (h : a.toNat < 128) : Ascii (· == a) :=
  fun x hx => by rwa [eq_of_beq hx]

/-- A class of characters with numbers up to the number of an ASCII character. -/
theorem ascii_of_le {p : Char → Bool} (b : Char) (hb : b.toNat < 128)
    (h : ∀ x, p x = true → x.val ≤ b.val) : Ascii p :=
  fun x hx => Nat.lt_of_le_of_lt (UInt32.le_iff_toNat_le.1 (h x hx)) hb

theorem ascii_isAlpha : Ascii Char.isAlpha := by
  have hupper : Ascii Char.isUpper :=
    ascii_of_le 'Z' (by decide) fun x hx => (of_decide_eq_true hx).2
  have hlower : Ascii Char.isLower :=
    ascii_of_le 'z' (by decide) fun x hx => of_decide_eq_true (Bool.and_eq_true_iff.1 hx).2
  exact hupper.or hlower

theorem ascii_isDigit : Ascii Char.isDigit :=
  ascii_of_le '9' (by decide) fun x hx => of_decide_eq_true (Bool.and_eq_true_iff.1 hx).2

theorem ascii_isAlphanum : Ascii Char.isAlphanum := ascii_isAlpha.or ascii_isDigit

theorem ascii_isAsciiBlank : Ascii isAsciiBlank := by
  intro x hx
  simp only [isAsciiBlank, Bool.or_eq_true, beq_iff_eq] at hx
  rcases hx with (((rfl | rfl) | rfl) | rfl) | rfl <;> decide

/-! ## Places -/

/-- A place in a text. -/
def At (s : List Char) (c : Cursor) : Prop := ∃ u, Spans (.start s) u c

section

variable {s : List Char} {c e : Cursor} {x : Char} {r : List Char}

theorem at_start (s : List Char) : At s (.start s) := ⟨[], .refl _⟩

theorem At.spans {t : List Char} (h : At s c) (ht : Spans c t e) : At s e :=
  h.elim fun _ hu => ⟨_, hu.trans ht⟩

theorem At.next (h : At s c) (hr : c.rest = x :: r) : At s c.next := h.spans (.next hr)

theorem At.skipWhile (h : At s c) (p : Char → Bool) : At s (c.skipWhile p) :=
  h.spans (.skipWhile p c)

theorem At.text_eq (h : At s c) : ∃ u, s = u ++ c.rest ∧ c.offset = byteLength u := by
  obtain ⟨u, hu⟩ := h
  exact ⟨u, hu.rest, hu.offset_start⟩

theorem left_of_spans {t : List Char} (h : Spans c t e) (ht : t ≠ []) :
    byteLength e.rest + 1 ≤ byteLength c.rest := by
  have := byteLength_pos ht
  rw [h.rest, byteLength_append]
  omega

theorem offset_next (hr : c.rest = x :: r) (hx : x.toNat < 128) : c.next.offset = c.offset + 1 := by
  have hone : x.utf8Size = 1 := Char.utf8Size_eq_one_iff.2 (Nat.le_of_lt_succ hx)
  have := (Spans.next hr).offset
  rwa [byteLength_cons, byteLength_nil, hone] at this

theorem At.size_eq (h : At s c) : size s = c.offset + byteLength c.rest := by
  obtain ⟨u, hs, ho⟩ := h.text_eq
  rw [Bytewise.size_eq, ho, ← byteLength_append, ← hs]

theorem At.toEnd_offset (h : At s c) : c.toEnd.offset = size s := by
  rw [h.size_eq, (Spans.toEnd c).offset]

theorem At.size_le_iff (h : At s c) : size s ≤ c.offset ↔ c.rest = [] := by
  rw [h.size_eq]
  constructor
  · intro hle
    by_contra hne
    have := byteLength_pos hne
    omega
  · intro hr
    rw [hr, byteLength_nil]
    omega

/-- There are bytes for the character at a place. -/
theorem At.not_size_le (h : At s c) (hr : c.rest = x :: r) {k : Nat} (hk : k < x.utf8Size) :
    ¬ size s ≤ c.offset + k := by
  have := h.size_eq
  rw [hr, byteLength_cons] at this
  omega

theorem At.lt_size (h : At s c) (hr : c.rest = x :: r) : c.offset < size s :=
  Nat.lt_of_not_le (h.not_size_le hr (Char.utf8Size_pos x))

theorem At.lt_rounds (h : At s c) : byteLength c.rest < rounds s := by
  have := h.size_eq
  rw [Bytewise.rounds]
  omega

theorem At.look (h : At s c) (hr : c.rest = x :: r) {k : Nat} (hk : k < x.utf8Size) :
    ∃ y, look s (c.offset + k) = some y ∧ (x.toNat < 128 → y = x) ∧
      (128 ≤ x.toNat → 128 ≤ y.toNat) := by
  obtain ⟨u, hs, ho⟩ := h.text_eq
  rw [hs, ho, hr]
  exact look_append hk

/-- A class of bytes holds those of the character at a place if it holds the character. -/
theorem sees_at_add {p : Char → Bool} (hp : Uniform p) (h : At s c) (hr : c.rest = x :: r) {k : Nat}
    (hk : k < x.utf8Size) : sees s p (c.offset + k) = p x := by
  obtain ⟨y, hy, hascii, hwide⟩ := h.look hr hk
  rw [sees, hy]
  rcases Nat.lt_or_ge x.toNat 128 with hx | hx
  · rw [hascii hx]
    rfl
  · exact hp y x (hwide hx) hx

theorem sees_cons {p : Char → Bool} (hp : Uniform p) (h : At s c) (hr : c.rest = x :: r) :
    sees s p c.offset = p x := sees_at_add hp h hr (Char.utf8Size_pos x)

theorem sees_nil {p : Char → Bool} (h : At s c) (hr : c.rest = []) : sees s p c.offset = false := by
  rw [sees, Bytewise.look, List.getElem?_eq_none (h.size_le_iff.2 hr)]
  rfl

theorem sees_at {p : Char → Bool} (hp : Uniform p) (h : At s c) :
    sees s p c.offset = c.rest.head?.any p := by
  cases hr : c.rest with
  | nil => exact sees_nil h hr
  | cons x r => exact sees_cons hp h hr

theorem sees_eq_iff {a : Char} (ha : a.toNat < 128) (h : At s c) :
    sees s (· == a) c.offset = true ↔ ∃ r, c.rest = a :: r := by
  rw [sees_at (ascii_eq ha).uniform h, ← List.head?_eq_some_iff]
  cases c.rest.head? with
  | none => simp
  | some x => simp

/-- The bytes of the character at a place are there. -/
theorem index_at (h : At s c) (hr : c.rest = x :: r) {k : Nat} (hk : k < x.utf8Size) :
    ∃ y, index s (c.offset + k) = .ok y ∧ ∀ a : Char, a.toNat < 128 → (y = a ↔ x = a) := by
  obtain ⟨y, hy, hascii, hwide⟩ := h.look hr hk
  refine ⟨y, by rw [index, hy], fun a ha => ?_⟩
  rcases Nat.lt_or_ge x.toNat 128 with hx | hx
  · rw [hascii hx]
  · have := hwide hx
    constructor
    · rintro rfl
      omega
    · rintro rfl
      omega

theorem afterWord_at (h : At s c) : afterWord s c.offset = .ok c.afterWord := by
  obtain ⟨u, hu⟩ := h
  have ho : c.offset = byteLength u := hu.offset_start
  have hlast : c.last = u.getLast? := by
    rw [hu.last]
    exact Option.or_none
  rw [afterWord, Cursor.afterWord, hlast, ho]
  rcases List.eq_nil_or_concat u with rfl | ⟨v, x, rfl⟩
  · rfl
  · have hx := Char.utf8Size_pos x
    have hs : s = v ++ x :: c.rest := by
      rw [show s = _ from hu.rest, List.concat_eq_append, List.append_assoc]
      rfl
    obtain ⟨y, hy, hascii, hwide⟩ :=
      look_append (u := v) (r := c.rest) (x := x) (k := x.utf8Size - 1) (by omega)
    have hsize : byteLength (v.concat x) = byteLength v + x.utf8Size := by
      rw [List.concat_eq_append, byteLength_append]
      rfl
    have hindex : byteLength (v.concat x) - 1 = byteLength v + (x.utf8Size - 1) := by omega
    have hclass : y.isAlphanum = x.isAlphanum := by
      rcases Nat.lt_or_ge x.toNat 128 with h | h
      · rw [hascii h]
      · exact ascii_isAlphanum.uniform y x (hwide h) h
    rw [if_pos (by omega), hindex, index, hs, hy]
    simp [Except.map, hclass]

theorem slice_spans {t : List Char} (h : At s c) (ht : Spans c t e) :
    slice s c.offset e.offset = .ok t := by
  obtain ⟨u, hs, ho⟩ := h.text_eq
  rw [slice_eq_ok_iff]
  exact ⟨u, e.rest, by rw [hs, ht.rest], ho, by rw [ht.offset, ho]⟩

theorem slice_toEnd (h : At s c) : slice s c.offset (size s) = .ok c.rest := by
  rw [← h.toEnd_offset]
  exact slice_spans h (.toEnd c)

theorem skipWhile_cons {p : Char → Bool} (hr : c.rest = x :: r) (hx : p x = true) :
    c.next.skipWhile p = c.skipWhile p :=
  skipWhile_advance (s := [x]) hr (by simpa using hx)

/-- Round by round over the bytes of one character. -/
theorem passes_next {σ α : Type} {turn : σ → Run (Turn σ α)} (f : Nat → σ) (hr : c.rest = x :: r)
    (h : ∀ k < x.utf8Size, turn (f (c.offset + k)) = .ok (.again (f (c.offset + k + 1)))) :
    Passes turn x.utf8Size (f c.offset) (f c.next.offset) := by
  have hnext : c.next.offset = c.offset + x.utf8Size := (Spans.next hr).offset
  rw [hnext]
  exact passes_run (f := fun k => f (c.offset + k)) h

/-- The bytes of a class are those of its characters. -/
theorem skip_at {p : Char → Bool} (hp : Uniform p) (h : At s c) :
    skip s p c.offset = .ok (c.skipWhile p).offset := by
  refine loop_eq_ok (At s) (fun c => byteLength c.rest) Cursor.offset
    (fun c => (c.skipWhile p).offset) (fun c h => ?_) c h h.lt_rounds
  have hsees := sees_at hp h
  cases hr : c.rest with
  | nil =>
    rw [hr] at hsees
    left
    rw [skipWhile_self (by simp [hr]), hsees]
    rfl
  | cons x r =>
    rw [hr] at hsees
    by_cases hx : p x = true
    · refine .inr ⟨c.next, x.utf8Size, Char.utf8Size_pos x, ?_, h.next hr, ?_, ?_⟩
      · rw [(Spans.next hr).behind (t := r) hr, byteLength_cons]
        omega
      · rw [skipWhile_cons hr hx]
      · refine passes_next id hr fun k hk => ?_
        rw [id, sees_at_add hp h hr hk, if_pos hx]
        rfl
    · left
      rw [skipWhile_self (by simpa [hr] using hx), hsees]
      simp [hx]

end

end Sigil.Template.Bytewise
