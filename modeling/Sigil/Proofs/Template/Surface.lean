import Sigil.Proofs.Template.Draft

/-!
# The surface syntax of expressions

`Surface x s`: the text `s` is a way to write the expression `x`. Blanks may stand inside the
parentheses of a helper. A directive in parentheses that holds such a text is read as the
expression, in markup and in an attribute value alike (`directive_round_trip`).
-/

namespace Sigil.Template

open Text Cursor

/-! ## Words -/

def Identifier (s : List Char) : Prop :=
  ∃ x r, s = x :: r ∧ isNameStart x = true ∧ ∀ y ∈ r, isNamePart y = true

def Digits (s : List Char) : Prop := s ≠ [] ∧ ∀ x ∈ s, x.isDigit = true

/-- A string's contents with a backslash in front of each quote and backslash. -/
def quoted : List Char → List Char
  | [] => []
  | c :: r => if c = '"' ∨ c = '\\' then '\\' :: c :: quoted r else c :: quoted r

/-- The words that are not member paths. -/
def words : List (List Char) :=
  [['t', 'r', 'u', 'e'], ['f', 'a', 'l', 's', 'e'], ['n', 'u', 'l', 'l']]

def sign (negative : Bool) : List Char := if negative then ['-'] else []

/-- The ways to write an expression. -/
inductive Surface : Expr → List Char → Prop where
  | path {first : List Char} {members : List (List Char)} :
      (∀ m ∈ first :: members, Identifier m) → first ∉ words →
      Surface (.path (String.ofList (join ['.'] (first :: members))))
        (join ['.'] (first :: members))
  | str (cs : List Char) : Surface (.str (String.ofList cs)) ('"' :: (quoted cs ++ ['"']))
  | number (negative : Bool) {whole : List Char} {groups : List (List Char)} :
      (∀ g ∈ whole :: groups, Digits g) →
      Surface (.number (String.ofList (sign negative ++ join ['.'] (whole :: groups))))
        (sign negative ++ join ['.'] (whole :: groups))
  | bool (value : Bool) :
      Surface (.bool value) (if value then ['t', 'r', 'u', 'e'] else ['f', 'a', 'l', 's', 'e'])
  | null : Surface .null ['n', 'u', 'l', 'l']
  | url {a b : List Char} (cs : List Char) : Blanks a → Blanks b →
      Surface (.url (String.ofList cs))
        (['U', 'r', 'l'] ++ '(' :: (a ++ '"' :: (quoted cs ++ ['"'])) ++ b ++ [')'])
  | raw {x : Expr} {a s b : List Char} : Surface x s → Blanks a → Blanks b →
      Surface (.raw x) (['R', 'a', 'w'] ++ '(' :: (a ++ s) ++ b ++ [')'])
  | encode {x : Expr} {a s b : List Char} : Surface x s → Blanks a → Blanks b →
      Surface (.encode x) (['E', 'n', 'c', 'o', 'd', 'e'] ++ '(' :: (a ++ s) ++ b ++ [')'])

/-! ## Reading words -/

theorem pathLength_of_parts {s : List Char} (hs : ∀ y ∈ s, isNamePart y = true) (k : List Char) :
    pathLength (s ++ k) = s.length + pathLength k := by
  induction s with
  | nil => simp
  | cons x s ih =>
    rw [List.cons_append, pathLength_cons _ (hs x List.mem_cons_self),
      ih fun y hy => hs y (List.mem_cons_of_mem x hy), List.length_cons]
    omega

theorem Identifier.parts {s : List Char} (h : Identifier s) : ∀ y ∈ s, isNamePart y = true := by
  obtain ⟨x, r, rfl, hx, hr⟩ := h
  intro y hy
  rcases List.mem_cons.1 hy with rfl | hy
  · exact isNamePart_of_isNameStart hx
  · exact hr y hy

theorem pathLength_point {s : List Char} (h : Identifier s) (k : List Char) :
    pathLength ('.' :: (s ++ k)) = s.length + 1 + pathLength k := by
  obtain ⟨x, r, rfl, hx, hr⟩ := h
  rw [List.cons_append, pathLength, if_pos hx, pathLength_of_parts hr, List.length_cons]
  omega

theorem pathLength_members {s : List Char} {members : List (List Char)}
    (h : ∀ m ∈ s :: members, Identifier m) :
    pathLength ('.' :: join ['.'] (s :: members)) = (join ['.'] (s :: members)).length + 1 := by
  induction members generalizing s with
  | nil =>
    have := pathLength_point (h s (List.mem_singleton_self s)) []
    simpa [join, pathLength] using this
  | cons m members ih =>
    have hm := ih fun y hy => h y (List.mem_cons_of_mem s hy)
    rw [join, List.append_assoc, pathLength_point (h s List.mem_cons_self),
      List.singleton_append, hm]
    simp only [List.length_append, List.length_cons]
    omega

theorem pathLength_join {first : List Char} {members : List (List Char)}
    (h : ∀ m ∈ first :: members, Identifier m) :
    pathLength (join ['.'] (first :: members)) = (join ['.'] (first :: members)).length := by
  have hf := (h first List.mem_cons_self).parts
  cases members with
  | nil =>
    have := pathLength_of_parts hf []
    simpa [join, pathLength] using this
  | cons m members =>
    rw [join, List.append_assoc, pathLength_of_parts hf, List.singleton_append,
      pathLength_members fun y hy => h y (List.mem_cons_of_mem first hy)]
    simp only [List.length_append, List.length_cons]

theorem takeWhile_join {first : List Char} {members : List (List Char)} (h : Identifier first) :
    (join ['.'] (first :: members)).takeWhile isNamePart = first := by
  have hd : isNamePart '.' = false := by decide
  cases members with
  | nil => exact List.takeWhile_eq_self_iff.2 h.parts
  | cons m members =>
    rw [join, List.append_assoc, List.takeWhile_append_of_pos h.parts]
    simp [hd]

theorem numberTail_digits {s : List Char} (hs : ∀ y ∈ s, y.isDigit = true) (k : List Char) :
    numberTail (s ++ k) = s.length + numberTail k := by
  induction s with
  | nil => simp
  | cons x s ih =>
    rw [List.cons_append, numberTail, hs x List.mem_cons_self, Bool.true_or, if_pos rfl,
      ih fun y hy => hs y (List.mem_cons_of_mem x hy), List.length_cons]
    omega

theorem numberTail_join {whole : List Char} {groups : List (List Char)}
    (h : ∀ g ∈ whole :: groups, Digits g) :
    numberTail (join ['.'] (whole :: groups)) = (join ['.'] (whole :: groups)).length := by
  induction groups generalizing whole with
  | nil =>
    have := numberTail_digits (h whole List.mem_cons_self).2 []
    simpa [join, numberTail] using this
  | cons g groups ih =>
    have hg := ih fun y hy => h y (List.mem_cons_of_mem whole hy)
    obtain ⟨x, r, hx⟩ := List.exists_cons_of_ne_nil (h g (by simp)).1
    have hhead : (join ['.'] (g :: groups)).head?.any Char.isDigit = true := by
      rw [hx, join_cons_cons]
      exact (h g (by simp)).2 x (by simp [hx])
    rw [join, List.append_assoc, numberTail_digits (h whole List.mem_cons_self).2,
      List.singleton_append, numberTail, hhead, hg]
    simp only [beq_self_eq_true, Bool.and_self, Bool.or_true, if_true, List.length_append,
      List.length_cons]

theorem stringBody_quoted (cs : List Char) :
    stringBody (quoted cs ++ ['"']) = some (cs, (quoted cs ++ ['"']).length) := by
  induction cs with
  | nil => rfl
  | cons c cs ih =>
    rw [quoted]
    split
    · rename_i hc
      have hu : unescaped c = c := by rcases hc with rfl | rfl <;> rfl
      rw [List.cons_append, List.cons_append, stringBody, ih, Option.map_some, hu]
      rfl
    · rename_i hc
      rw [not_or] at hc
      rw [List.cons_append, stringBody, ih]
      · rfl
      · exact hc.1
      · exact fun h _ => hc.2 h
      · exact fun _ _ h _ => hc.2 h

/-! ## Reading surface syntax -/

theorem Yields.helper {name s a b : List Char} {f : Helper} {x y : Expr} {h : Char}
    {r : List Char} (hname : name = h :: r) (hstart : isNameStart h = true)
    (hf : Helper.ofName? name = some f) (hs : Yields readExpr s x) (ha : Blanks a) (hb : Blanks b)
    (happly : ∀ at_, f.apply at_ x = .ok y) :
    Yields readExpr (name ++ '(' :: (a ++ s) ++ b ++ [')']) y := by
  have := yields_helper hf (hs.blanks ha) hb happly
  subst hname
  exact .named hstart this

theorem Surface.yields {x : Expr} {s : List Char} (h : Surface x s) : Yields readExpr s x := by
  induction h with
  | @path first members hm hw =>
    have hk : keyword? ((join ['.'] (first :: members)).takeWhile isNamePart) = none := by
      rw [takeWhile_join (hm first List.mem_cons_self)]
      simp only [words, List.mem_cons, List.not_mem_nil, or_false, not_or] at hw
      simp [keyword?, hw]
    have hp := yields_path (pathLength_join hm) hk
    obtain ⟨y, r, rfl, hy, -⟩ := hm first List.mem_cons_self
    rw [join_cons_cons] at hp ⊢
    exact .named hy hp
  | str cs => exact .string (yields_string (stringBody_quoted cs))
  | @number negative whole groups hg =>
    have ht := numberTail_join hg
    obtain ⟨y, r, hy⟩ := List.exists_cons_of_ne_nil (hg whole List.mem_cons_self).1
    have hd : y.isDigit = true := (hg whole List.mem_cons_self).2 y (by simp [hy])
    rw [hy, join_cons_cons] at ht ⊢
    cases negative with
    | true => exact yields_number (by simp [startsNumber, hd]) ht
    | false =>
      rw [numberTail, hd, Bool.true_or, if_pos rfl, List.length_cons,
        Nat.add_right_cancel_iff] at ht
      exact yields_number (by simp [startsNumber, hd]) ht
  | bool value =>
    cases value with
    | true => exact .named (by decide) (yields_keyword (by decide))
    | false => exact .named (by decide) (yields_keyword (by decide))
  | null => exact .named (by decide) (yields_keyword (by decide))
  | url cs ha hb =>
    exact .helper rfl (by decide) (f := .url) (by decide)
      (.string (yields_string (stringBody_quoted cs))) ha hb fun _ => rfl
  | raw _ ha hb ih => exact .helper rfl (by decide) (f := .raw) (by decide) ih ha hb fun _ => rfl
  | encode _ ha hb ih =>
    exact .helper rfl (by decide) (f := .encode) (by decide) ih ha hb fun _ => rfl

/-! ## Directives in parentheses -/

/-- A text in parentheses, with blanks around it. -/
def inParens (a s b : List Char) : List Char := '(' :: (a ++ s ++ b ++ [')'])

section

variable {x : Expr} {a s b k : List Char} {c : Cursor}

theorem Surface.directive (h : Surface x s) (ha : Blanks a) (hb : Blanks b)
    (hc : c.rest = inParens a s b ++ k) (at_ : Nat) :
    directive at_ c = .ok (x, c.advance (inParens a s b).length) := by
  have hc' : c.rest = '(' :: ((a ++ s) ++ (b ++ ')' :: k)) := by
    rw [hc, inParens]
    simp
  have hl : (inParens a s b).length = (a ++ s).length + b.length + 2 := by
    simp only [inParens, List.length_cons, List.length_append, List.length_nil]
  rw [directive_parens (h.yields.blanks ha) hb hc', hl]

theorem readValue_inParens (h : Surface x s) (ha : Blanks a) (hb : Blanks b)
    (hc : c.rest = '@' :: (inParens a s b ++ '"' :: k)) (hw : c.afterWord = false) :
    ∃ e, Spans c ('@' :: inParens a s b) e ∧ e.rest = '"' :: k ∧
      readValue '"' (.start c) c =
        (⟨e, none, [.dynamic ⟨"", c.offset⟩ x c.offset], [], []⟩, some e) := by
  have hn : c.next.rest = inParens a s b ++ '"' :: k := by simp [hc]
  have hx := h.directive ha hb hn c.offset
  have hs := (Spans.next hc).trans (Spans.advance_length hn)
  have he := List.append_cancel_left ((hs.rest.symm.trans hc).trans (List.cons_append ..).symm)
  have hlead : c.placed c = ⟨"", c.offset⟩ := (Spans.refl c).placed
  refine ⟨_, hs, he, ?_⟩
  rw [readValue_directive _ hc (by decide) (by simp [inParens]) hw hx, readValue_close _ he]
  simp only [ValueDraft.express, ValueDraft.start, ValueDraft.close, hlead, List.nil_append]

theorem tagStep_close (src : Source) (d : Draft) (hc : c.rest = '>' :: k) :
    tagStep src d c = .leave d c.next := by
  have hs : c.skipWhile isAsciiBlank = c := skipWhile_self (by simp [hc, isAsciiBlank])
  unfold tagStep
  simp only [hs, hc]
  rfl

/-- The text in front of a value that is one directive, and the text behind it. -/
theorem scanned_inParens (h : Surface x s) (ha : Blanks a) (hb : Blanks b) (file : String) :
    (scanned ⟨attributeTag ('@' :: (inParens a s b ++ ['"', '>'])), file⟩).faults = [] ∧
    (scanned ⟨attributeTag ('@' :: (inParens a s b ++ ['"', '>'])), file⟩).body =
      [.literal "<p" 0, .pragma (.line 1 file),
        .attribute ⟨"a", ⟨" a=\"", 2⟩, ⟨"\"", 6 + byteLength ('@' :: inParens a s b)⟩,
          [.dynamic ⟨"", 6⟩ x 6]⟩,
        .pragma .hidden, .literal ">" (7 + byteLength ('@' :: inParens a s b))] := by
  obtain ⟨e, hs, he, hv⟩ := readValue_inParens (k := ['>']) h ha hb
    (c := ⟨6, some '"', '@' :: (inParens a s b ++ ['"', '>'])⟩) rfl rfl
  generalize '@' :: (inParens a s b ++ ['"', '>']) = t at hs hv
  have htag : VisitsTag ⟨attributeTag t, file⟩ _ _ := visitsTag_attributeTag t file
  have hhead := attributeHead_attributeTag t
  have hstep := hhead.tagStep_eq ⟨attributeTag t, file⟩ (.start (attributeTag t))
  rw [quotedStep_closed hv, Draft.attribute_dynamic rfl] at hstep
  have hclose := Spans.next he
  have hmark : e.next.rest = ['>'] := by simp [he]
  have hend := Spans.next hmark
  have hleave := fun d => tagStep_close ⟨attributeTag t, file⟩ d hmark
  rw [scanned_of_visitsTag htag, attributes_stay hstep, attributes_leave (hleave _),
    scan_end (by simp [he])]
  have hfirst : Spans (.start (attributeTag t)) ['<', 'p']
      ⟨2, some 'p', ' ' :: 'a' :: '=' :: '"' :: t⟩ := ⟨rfl, rfl, rfl⟩
  have hopening : Spans ⟨2, some 'p', ' ' :: 'a' :: '=' :: '"' :: t⟩ [' ', 'a', '=', '"']
      (Cursor.next ⟨5, some '=', '"' :: t⟩) := ⟨rfl, rfl, rfl⟩
  have hname : Spans ⟨3, some ' ', 'a' :: '=' :: '"' :: t⟩ ['a']
      ⟨4, some 'a', '=' :: '"' :: t⟩ := ⟨rfl, rfl, rfl⟩
  rw [Draft.flush_of_spans hend (by simp)]
  rw [Draft.flush_of_spans (d := { (Draft.start (attributeTag t)) with faults := _ }) hfirst
    (by simp)]
  have hline : (lineColumn (attributeTag t) 3).1 = 1 := rfl
  have hoffset : e.next.offset = 7 + byteLength ('@' :: inParens a s b) := by
    rw [hclose.offset, hs.offset]
    simp only [byteLength_cons, byteLength_nil]
    have : Char.utf8Size '"' = 1 := rfl
    omega
  refine ⟨rfl, ?_⟩
  simp only [Draft.emit, Draft.resume, hname.between, hopening.placed, hclose.placed, hline,
    hs.offset, hoffset]
  rfl

end

/-- A directive in parentheses writes the expression that stands in it, in markup and in the value
of an attribute. -/
theorem directive_round_trip {x : Expr} {a s b : List Char} (h : Surface x s) (ha : Blanks a)
    (hb : Blanks b) (file : String) (names : ClassNames) :
    let markup := (⟨'@' :: inParens a s b, file⟩ : Source).parse names
    let tag := (⟨attributeTag ('@' :: (inParens a s b ++ ['"', '>'])), file⟩ : Source).parse names
    (markup.diagnostics = [] ∧
      markup.tree.body names.execute = [.pragma (.line 1 file), .write x 0, .pragma .hidden]) ∧
    (tag.diagnostics = [] ∧
      tag.tree.body names.execute =
        [.literal "<p" 0, .pragma (.line 1 file),
          .attribute
            { name := "a"
              opening := ⟨" a=\"", 2⟩
              closing := ⟨"\"", 6 + byteLength ('@' :: inParens a s b)⟩
              fragments := [.dynamic ⟨"", 6⟩ x 6] },
          .pragma .hidden, .literal ">" (7 + byteLength ('@' :: inParens a s b))]) := by
  intro markup tag
  constructor
  · have alone : WritesAlone ('@' :: inParens a s b) x :=
      writesAlone_of_yields (.inl rfl) rfl fun at_ c k hc _ => h.directive ha hb hc at_
    exact alone file names
  · rw [diagnostics_parse_eq_nil, body_parse]
    exact scanned_inParens h ha hb file

/-- A helper in a helper, with a quote, an `@` and a parenthesis in the string. -/
theorem nested_round_trip :
    ((⟨['@', '(', ' ', 'R', 'a', 'w', '(', '\n', 'U', 'r', 'l', '(', '"', '\\', '"', '@', ')', '"',
      ')', ')', ')'], "page"⟩ : Source).parse {}).tree.body "execute" =
      [.pragma (.line 1 "page"), .write (.raw (.url "\"@)")) 0, .pragma .hidden] :=
  (directive_round_trip (.raw (a := ['\n']) (b := []) (.url (a := []) (b := []) ['"', '@', ')']
    (by simp [Blanks]) (by simp [Blanks])) (by simp [Blanks, isAsciiBlank]) (by simp [Blanks]))
    (a := [' ']) (b := []) (by simp [Blanks, isAsciiBlank]) (by simp [Blanks]) "page" {}).1.2

end Sigil.Template
