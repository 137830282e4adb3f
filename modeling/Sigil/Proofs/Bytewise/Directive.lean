import Sigil.Proofs.Bytewise.Text

/-!
# Directives by byte offsets

The reader of directives with byte offsets in place of cursors. At the offset behind an `@` it is
never stopped and gives what `Template.directive` gives (`directive_at`).
-/

namespace Sigil.Template.Bytewise

open Text Cursor

/-- An expression and the offset behind it, or the fault that was found. -/
abbrev Reading := Except Fault (Expr × Nat)

section

variable (s : List Char)

/-- The offset behind a closing parenthesis, blanks before it skipped. -/
def closeParen (i : Nat) : Run (Except Fault Nat) := do
  let i ← skip s isAsciiBlank i
  return if sees s (· == ')') i then .ok (i + 1) else .error ⟨.expectedCloseParen, i⟩

def name (i : Nat) : Run (List Char × Nat) := do
  let e ← skip s isNamePart i
  return (← slice s i e, e)

def pathEnd (i : Nat) : Run Nat :=
  loop (fun i => do
    if sees s (· == '.') i && sees s isNameStart (i + 1) then
      return .again (← name s (i + 1)).2
    else return .done i) (rounds s) i

def numberEnd (i : Nat) : Run Nat :=
  loop (fun i =>
    .ok (if sees s Char.isDigit i || (sees s (· == '.') i && sees s Char.isDigit (i + 1)) then
      .again (i + 1) else .done i)) (rounds s) i

/-- The expression whose first name is here; `expression` reads the argument of a helper. -/
def named (expression : Nat → Run Reading) (i : Nat) : Run Reading := do
  let (name, e) ← name s i
  match keyword? name with
  | some x => return .ok (x, e)
  | none =>
    match Helper.ofName? name, sees s (· == '(') e with
    | some f, true =>
      match ← expression (e + 1) with
      | .error fault => return .error fault
      | .ok (x, d) =>
        match ← closeParen s d with
        | .error fault => return .error fault
        | .ok d => return (f.apply (e + 1) x).map fun x => (x, d)
    | _, _ =>
      let e ← pathEnd s e
      return .ok (.path (String.ofList (← slice s i e)), e)

/-- The contents of a string up to its closing quote, and the offset behind that, if the text behind
the contents `out` starts at offset `i`. -/
def closingQuote (i : Nat) (out : List Char) : List Char → Option (List Char × Nat)
  | [] => none
  | '"' :: _ => some (out, i + 1)
  | ['\\'] => none
  | '\\' :: c :: r => closingQuote (i + 1 + c.utf8Size) (out ++ [unescaped c]) r
  | c :: r => closingQuote (i + c.utf8Size) (out ++ [c]) r

/-- The string whose opening quote is here. -/
def string (i : Nat) : Run Reading := do
  match closingQuote 0 [] (← slice s (i + 1) (size s)) with
  | some (cs, n) => return .ok (.str (String.ofList cs), i + 1 + n)
  | none => return .error ⟨.unterminatedString, i⟩

/-- The expression that starts here, blanks before it skipped; it may be `depth` helpers deep. -/
def expression : (depth i : Nat) → Run Reading
  | 0, _ => .error .endless
  | n + 1, i => do
    let i ← skip s isAsciiBlank i
    if sees s (· == '"') i then string s i
    else if sees s Char.isDigit i || (sees s (· == '-') i && sees s Char.isDigit (i + 1)) then
      let e ← numberEnd s (i + 1)
      return .ok (.number (String.ofList (← slice s i e)), e)
    else if sees s isNameStart i then named s (expression n) i
    else if size s ≤ i || sees s (· == ')') i then return .error ⟨.emptyExpression, i⟩
    else return .error ⟨.unexpectedCharacter, i⟩

def directive (i : Nat) : Run Reading := do
  if sees s (· == '(') i then
    match ← expression s (rounds s) (i + 1) with
    | .error fault => return .error fault
    | .ok (x, d) => return (← closeParen s d).map fun d => (x, d)
  else if sees s isNameStart i then named s (expression s (rounds s)) i
  else return .error ⟨.emptyExpression, ← less i⟩

end

/-- A reading with the offset of the place behind it. -/
def offsets (x : Template.Reading) : Reading := x.map fun (x, c) => (x, c.offset)

/-! ## Names, numbers and strings -/

theorem ascii_isNameStart : Ascii isNameStart := ascii_isAlpha.or (ascii_eq (by decide))

theorem ascii_isNamePart : Ascii isNamePart := ascii_isAlphanum.or (ascii_eq (by decide))

/-- A digit, or a sign that is taken where `digit` says that a digit follows. -/
theorem ascii_signed {a : Char} (ha : a.toNat < 128) (digit : Bool) :
    Ascii fun x => x.isDigit || (x == a && digit) :=
  ascii_isDigit.or ((ascii_eq ha).and fun _ => digit)

section

variable {s : List Char} {c e : Cursor} {x : Char} {r : List Char}

/-- What the byte behind an ASCII character says. -/
theorem sees_succ {p : Char → Bool} (hp : Uniform p) (h : At s c) (hr : c.rest = x :: r)
    (hx : x.toNat < 128) : sees s p (c.offset + 1) = r.head?.any p := by
  rw [← offset_next hr hx, sees_at hp (h.next hr), (Spans.next hr).behind (t := r) hr]

theorem sees_pair {a : Char} (ha : a.toNat < 128) {p : Char → Bool} (hp : Uniform p) (h : At s c)
    (hr : c.rest = x :: r) :
    (sees s (· == a) c.offset && sees s p (c.offset + 1)) = (x == a && r.head?.any p) := by
  rw [sees_cons (ascii_eq ha).uniform h hr]
  by_cases hx : x = a
  · rw [sees_succ hp h hr (hx ▸ ha)]
  · have hne : (x == a) = false := beq_false_of_ne hx
    rw [hne, Bool.false_and, Bool.false_and]

theorem closeParen_at (h : At s c) :
    closeParen s c.offset = .ok ((Template.closeParen c).map Cursor.offset) := by
  have hd := h.skipWhile isAsciiBlank
  unfold closeParen Template.closeParen
  simp only [skip_at ascii_isAsciiBlank.uniform h, ok_bind, pure_eq_ok]
  by_cases hp : ∃ r, (c.skipWhile isAsciiBlank).rest = ')' :: r
  · obtain ⟨r, hr⟩ := hp
    rw [if_pos ((sees_eq_iff (by decide) hd).2 ⟨r, hr⟩), hr, ← offset_next hr (by decide)]
    rfl
  · rw [if_neg fun hsees => hp ((sees_eq_iff (by decide) hd).1 hsees)]
    split
    · rename_i r hr
      exact absurd ⟨r, hr⟩ hp
    · rfl

theorem name_at (h : At s c) :
    name s c.offset = .ok (c.rest.takeWhile isNamePart, (nameEnd c).offset) := by
  rw [name, skip_at ascii_isNamePart.uniform h, ok_bind, slice_spans h (.skipWhile isNamePart c)]
  rfl

/-- A path is a name and what comes behind it. -/
theorem pathLength_eq (s : List Char) :
    pathLength s = (s.takeWhile isNamePart).length + pathLength (s.dropWhile isNamePart) := by
  induction s with
  | nil => rfl
  | cons y r ih =>
    by_cases hy : isNamePart y = true
    · rw [pathLength_cons r hy, ih]
      simp only [List.takeWhile_cons, List.dropWhile_cons, hy, if_true, List.length_cons]
      omega
    · simp [hy]

theorem advance_pathLength (c : Cursor) :
    c.advance (pathLength c.rest) = (nameEnd c).advance (pathLength (nameEnd c).rest) := by
  rw [nameEnd, rest_skipWhile, skipWhile, advance_advance, ← pathLength_eq]

theorem head_nameEnd (c : Cursor) : ∀ y ∈ (nameEnd c).rest.head?, isNamePart y = false := by
  intro y hy
  have := List.head?_dropWhile_not isNamePart c.rest
  rw [nameEnd, rest_skipWhile] at hy
  rw [Option.mem_def.1 hy] at this
  simpa using this

theorem pathEnd_at (h : At s c) (hc : ∀ y ∈ c.rest.head?, isNamePart y = false) :
    pathEnd s c.offset = .ok (c.advance (pathLength c.rest)).offset := by
  refine loop_eq_ok (fun c => At s c ∧ ∀ y ∈ c.rest.head?, isNamePart y = false)
    (fun c => byteLength c.rest) Cursor.offset (fun c => (c.advance (pathLength c.rest)).offset)
    ?_ c ⟨h, hc⟩ h.lt_rounds
  rintro c ⟨h, hc⟩
  by_cases hdot : ∃ x r, c.rest = '.' :: x :: r ∧ isNameStart x = true
  · obtain ⟨x, r, hr, hx⟩ := hdot
    have hnext := h.next hr
    have hrest : c.next.rest = x :: r := (Spans.next hr).behind hr
    have hpath : pathLength c.rest = pathLength c.next.rest + 1 := by
      rw [hr, hrest, pathLength_cons r (isNamePart_of_isNameStart hx), pathLength, if_pos hx]
    refine .inr ⟨nameEnd c.next, 1, Nat.one_pos, ?_, ⟨hnext.skipWhile _, head_nameEnd _⟩, ?_, ?_⟩
    · exact left_of_spans ((Spans.next hr).trans (.skipWhile isNamePart c.next)) (by simp)
    · rw [← advance_pathLength, hpath, next_advance]
    · refine passes_one ?_
      have hone : sees s (· == '.') c.offset = true := (sees_eq_iff (by decide) h).2 ⟨_, hr⟩
      have htwo : sees s isNameStart (c.offset + 1) = true := by
        rw [sees_succ ascii_isNameStart.uniform h hr (by decide)]
        exact hx
      simp only [hone, htwo, Bool.and_self, if_true]
      rw [← offset_next hr (by decide), name_at hnext]
      rfl
  · left
    have hzero : pathLength c.rest = 0 := by
      rw [pathLength.eq_def]
      split
      · rfl
      · rename_i x r hr
        rw [if_neg fun hx => hdot ⟨x, r, hr, hx⟩]
      · rename_i y r _ hr
        rw [if_neg]
        simpa using hc y (by rw [hr]; rfl)
    rw [hzero, advance_zero, if_neg]
    · rfl
    · rw [Bool.and_eq_true, sees_eq_iff (by decide) h]
      rintro ⟨⟨r, hr⟩, hx⟩
      rw [sees_succ ascii_isNameStart.uniform h hr (by decide)] at hx
      cases r with
      | nil => cases hx
      | cons x r => exact hdot ⟨x, r, hr, hx⟩

/-- Whether a digit, or a point in front of one, starts a text. -/
theorem numberTail_cons (x : Char) (r : List Char) :
    numberTail (x :: r) =
      if x.isDigit || (x == '.' && r.head?.any Char.isDigit) then numberTail r + 1 else 0 := rfl

theorem numberEnd_at (h : At s c) :
    numberEnd s c.offset = .ok (c.advance (numberTail c.rest)).offset := by
  refine loop_eq_ok (At s) (fun c => byteLength c.rest) Cursor.offset
    (fun c => (c.advance (numberTail c.rest)).offset) (fun c h => ?_) c h h.lt_rounds
  cases hr : c.rest with
  | nil =>
    left
    rw [sees_nil h hr, sees_nil h hr, numberTail, advance_zero]
    rfl
  | cons x r =>
    have hmore : (sees s Char.isDigit c.offset ||
        (sees s (· == '.') c.offset && sees s Char.isDigit (c.offset + 1))) =
        (x.isDigit || (x == '.' && r.head?.any Char.isDigit)) := by
      rw [sees_cons ascii_isDigit.uniform h hr, sees_pair (by decide) ascii_isDigit.uniform h hr]
    rw [numberTail_cons, hmore]
    split
    · rename_i hx
      have hascii : x.toNat < 128 := ascii_signed (by decide) _ x hx
      have hrest : c.next.rest = r := (Spans.next hr).behind hr
      refine .inr ⟨c.next, 1, Nat.one_pos, ?_, h.next hr, ?_, passes_one ?_⟩
      · exact hr ▸ left_of_spans (.next hr) (by simp)
      · rw [hrest, next_advance]
      · rw [hmore, if_pos hx, offset_next hr hascii]
    · rw [advance_zero]
      exact .inl rfl

/-- The contents of a string with the bytes that they take. -/
theorem closingQuote_eq (i : Nat) (out t : List Char) :
    closingQuote i out t =
      (stringBody t).map fun (cs, n) => (out ++ cs, i + byteLength (t.take n)) := by
  have hquote : '"'.utf8Size = 1 := by decide
  have hslash : '\\'.utf8Size = 1 := by decide
  fun_induction stringBody t generalizing i out with
  | case1 => rfl
  | case2 r => simp [closingQuote, hquote]
  | case3 => rfl
  | case4 y r ih =>
    rw [closingQuote, ih, Option.map_map]
    congr 1
    funext p
    simp [hslash, Nat.add_assoc]
  | case5 y r h₁ h₂ h₃ ih =>
    rw [closingQuote, ih, Option.map_map]
    · congr 1
      funext p
      simp [Nat.add_assoc]
    · exact h₁
    · exact h₂
    · exact h₃

theorem string_at (h : At s c) (hr : c.rest = '"' :: r) :
    string s c.offset = .ok (offsets (readString c)) := by
  have hnext := h.next hr
  rw [string, ← offset_next hr (by decide), slice_toEnd hnext, ok_bind, closingQuote_eq, readString]
  cases stringBody c.next.rest with
  | none => rfl
  | some p =>
    rw [Option.map_some]
    simp only [List.nil_append, Nat.zero_add]
    rfl

/-! ## Expressions -/

theorem At.readExpr {y : Expr} (h : At s c) (he : readExpr c = .ok (y, e)) : At s e := by
  obtain ⟨t, ht, -⟩ := yields_of_readExpr he
  exact h.spans ht

theorem readPath_eq (c : Cursor) :
    readPath c = (.path (String.ofList (c.rest.take (pathLength c.rest))),
      c.advance (pathLength c.rest)) := by
  rw [readPath, (Spans.advance (pathLength c.rest) c).between]

/-- A helper with its argument and the closing parenthesis is read as its places say if the argument
is. -/
theorem applied_at (g : Helper) {f : Nat → Run Reading} (h : At s c)
    (hf : f c.offset = .ok (offsets (readExpr c))) :
    (do match ← f c.offset with
        | .error fault => return .error fault
        | .ok (x, d) =>
          match ← closeParen s d with
          | .error fault => return .error fault
          | .ok d => return (g.apply c.offset x).map fun x => (x, d) : Run Reading) =
      .ok (offsets (match readExpr c with
        | .error fault => Except.error fault
        | .ok (x, d) =>
          match Template.closeParen d with
          | .error fault => Except.error fault
          | .ok d => (g.apply c.offset x).map fun x => (x, d))) := by
  rw [hf, ok_bind]
  cases hx : readExpr c with
  | error fault => rfl
  | ok y =>
    obtain ⟨y, d⟩ := y
    simp only [offsets, Except.map]
    rw [closeParen_at (h.readExpr hx), ok_bind]
    cases Template.closeParen d with
    | error fault => rfl
    | ok d' =>
      simp only [Except.map]
      cases g.apply c.offset y with
      | error fault => rfl
      | ok z => rfl

/-- A name is read as its places say if the argument of a helper is. -/
theorem named_at {f : Nat → Run Reading} (h : At s c)
    (hf : ∀ e, At s e → e.rest.length < c.rest.length → f e.offset = .ok (offsets (readExpr e))) :
    named s f c.offset = .ok (offsets (readNamed c)) := by
  have hend : At s (nameEnd c) := h.skipWhile isNamePart
  have hpath : (pathEnd s (nameEnd c).offset >>= fun e => do
      return .ok (.path (String.ofList (← slice s c.offset e)), e)) =
      .ok (offsets (.ok (readPath c))) := by
    rw [pathEnd_at hend (head_nameEnd c), ← advance_pathLength, ok_bind,
      slice_spans h (.advance _ c), readPath_eq]
    rfl
  rw [named, name_at h, ok_bind]
  simp only
  cases hk : keyword? (c.rest.takeWhile isNamePart) with
  | some y =>
    rw [readNamed_keyword hk]
    rfl
  | none =>
    simp only
    cases hhelper : Helper.ofName? (c.rest.takeWhile isNamePart) with
    | none =>
      rw [readNamed_path hk (by simp [hhelper])]
      exact hpath
    | some g =>
      by_cases hparen : ∃ r, (nameEnd c).rest = '(' :: r
      · obtain ⟨r, hr⟩ := hparen
        have hsees : sees s (· == '(') (nameEnd c).offset = true :=
          (sees_eq_iff (by decide) hend).2 ⟨r, hr⟩
        have hlt := length_next_nameEnd_lt hr
        rw [readNamed_helper hk hhelper hr, hsees, ← offset_next hr (by decide)]
        exact applied_at g (hend.next hr) (hf _ (hend.next hr) hlt)
      · have hsees : sees s (· == '(') (nameEnd c).offset = false :=
          Bool.eq_false_iff.2 fun hs => hparen ((sees_eq_iff (by decide) hend).1 hs)
        rw [readNamed_path hk (fun _ r _ hr => hparen ⟨r, hr⟩), hsees]
        exact hpath

theorem number_at (h : At s c) (hr : c.rest = x :: r) (hx : x.toNat < 128) :
    (numberEnd s (c.offset + 1) >>= fun e => do
      return .ok (.number (String.ofList (← slice s c.offset e)), e)) =
      .ok (offsets (.ok (readNumber c))) := by
  have hall := (Spans.next hr).trans (.advance (numberTail c.next.rest) c.next)
  rw [← offset_next hr hx, numberEnd_at (h.next hr), ok_bind, slice_spans h hall, readNumber,
    hall.between]
  rfl

theorem expression_at {n : Nat} (h : At s c) (hn : c.rest.length < n) :
    expression s n c.offset = .ok (offsets (readExpr c)) := by
  induction n generalizing c with
  | zero => exact absurd hn (Nat.not_lt_zero _)
  | succ n ih =>
    have hd := h.skipWhile isAsciiBlank
    have hle := Cursor.length_skipWhile isAsciiBlank c
    rw [expression, skip_at ascii_isAsciiBlank.uniform h, ok_bind, readExpr]
    generalize c.skipWhile isAsciiBlank = d at *
    cases hr : d.rest with
    | nil =>
      have hsize := hd.size_le_iff.2 hr
      simp only [sees_nil hd hr, hsize]
      rfl
    | cons x r =>
      have hsize : ¬ size s ≤ d.offset := Nat.not_le.2 (hd.lt_size hr)
      have hnumber : (sees s Char.isDigit d.offset ||
          (sees s (· == '-') d.offset && sees s Char.isDigit (d.offset + 1))) =
          startsNumber x r := by
        rw [sees_cons ascii_isDigit.uniform hd hr,
          sees_pair (by decide) ascii_isDigit.uniform hd hr, startsNumber]
      rw [hnumber, sees_cons (ascii_eq (by decide)).uniform hd hr,
        sees_cons ascii_isNameStart.uniform hd hr, sees_cons (ascii_eq (by decide)).uniform hd hr]
      simp only [beq_iff_eq, hsize, decide_false, Bool.false_or]
      split
      · rename_i hx
        exact string_at hd (hx ▸ hr)
      · split
        · rename_i hx
          exact number_at hd hr (ascii_signed (by decide) _ x hx)
        · split
          · exact named_at hd fun e he hlt => ih he (by omega)
          · split <;> rfl

theorem length_le_byteLength (t : List Char) : t.length ≤ byteLength t := by
  induction t with
  | nil => exact Nat.le_refl 0
  | cons y t ih =>
    have := Char.utf8Size_pos y
    rw [List.length_cons, byteLength_cons]
    omega

theorem At.length_lt (h : At s c) : c.rest.length < rounds s :=
  Nat.lt_of_le_of_lt (length_le_byteLength c.rest) h.lt_rounds

/-- Behind an `@` the reader of directives is not stopped, and what it gives is the directive. -/
theorem directive_at (h : At s c) (hr : c.rest = '@' :: r) :
    directive s (c.offset + 1) = .ok (offsets (Template.directive c.offset c.next)) := by
  have hn := h.next hr
  have hless : less (c.offset + 1) = .ok c.offset := rfl
  have hexpression (e : Cursor) (he : At s e) :
      expression s (rounds s) e.offset = .ok (offsets (readExpr e)) := expression_at he he.length_lt
  rw [directive, hless, Template.directive, ← offset_next hr (by decide)]
  generalize c.next = d at *
  cases hd : d.rest with
  | nil =>
    rw [sees_nil hn hd, sees_nil hn hd]
    rfl
  | cons x t =>
    rw [sees_cons (ascii_eq (by decide)).uniform hn hd, sees_cons ascii_isNameStart.uniform hn hd]
    simp only [beq_iff_eq]
    split
    · rename_i hx
      rw [← offset_next hd (hx ▸ by decide), hexpression _ (hn.next hd), ok_bind]
      cases hx : readExpr d.next with
      | error fault => rfl
      | ok y =>
        obtain ⟨y, e⟩ := y
        have he : At s e := (hn.next hd).readExpr hx
        simp only [offsets, Except.map]
        rw [closeParen_at he, ok_bind]
        cases Template.closeParen e with
        | error fault => rfl
        | ok e' => rfl
    · split
      · exact named_at hn fun e he _ => hexpression e he
      · rfl

end

end Sigil.Template.Bytewise
