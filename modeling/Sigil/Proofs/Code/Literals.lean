import Mathlib.Data.List.Forall2
import Sigil.Proofs.Code.CallLexemes

/-!
# Literals of generated lines

Texts of a template stay inside their literals. Every line of a statement is a single line, and its
string literals stand for the texts of the statement in their order, whatever is in these
(`statementLines_literals`).
-/

namespace Sigil.Template

/-- The texts of an expression; that of a URL is not one of the call's. -/
def Expr.texts : Expr → List String
  | .path p => [p]
  | .str s => [s]
  | .number s => [s]
  | .raw e => e.texts
  | .encode e => e.texts
  | _ => []

def Fragment.texts : Fragment → List String
  | .literal lead value => [lead.text, value.text]
  | .dynamic lead e _ => lead.text :: e.texts

def Statement.texts : Statement → List String
  | .literal t _ => [t]
  | .write e _ => e.texts
  | .attribute w => w.name :: w.opening.text :: w.closing.text :: w.fragments.flatMap Fragment.texts
  | _ => []

/-- The texts of each line of a statement: the file that a pragma names; or those of the call, with
one line for each URL, between braces, if there are any. -/
def Statement.lineTexts : Statement → List (List String)
  | .pragma (.line _ file) => [[file]]
  | .pragma _ => []
  | .snippet _ => []
  | s => if s.urls = [] then [s.texts] else [] :: s.urls.map ([·]) ++ [s.texts, []]

end Sigil.Template

namespace Sigil.Code

open Text Template

/-! ## Literals -/

def Lexeme.literal? : Lexeme → Option String
  | .literal t => some t
  | _ => none

def literals (ls : List Lexeme) : List String := ls.filterMap Lexeme.literal?

@[simp]
theorem literals_nil : literals [] = [] := rfl

@[simp]
theorem literals_append (a b : List Lexeme) : literals (a ++ b) = literals a ++ literals b :=
  List.filterMap_append

@[simp]
theorem literals_word (w : String) (ls : List Lexeme) :
    literals (.word w :: ls) = literals ls := rfl

@[simp]
theorem literals_member (w : String) (ls : List Lexeme) :
    literals (.member w :: ls) = literals ls := rfl

@[simp]
theorem literals_literal (t : String) (ls : List Lexeme) :
    literals (.literal t :: ls) = t :: literals ls := rfl

@[simp]
theorem literals_mark (c : Char) (ls : List Lexeme) : literals (.mark c :: ls) = literals ls := rfl

@[simp]
theorem literals_listed (args : List (List Lexeme)) :
    literals (listed args) = args.flatMap literals :=
  flatMap_listed literals_nil literals_append rfl args

theorem literals_placed (p : Placed) : literals (placedLexemes p) = [p.text] := by
  simp [placedLexemes]

theorem literals_expr {url : String → List Lexeme} (h : ∀ u, literals (url u) = []) (e : Expr) :
    literals (exprLexemes url e) = e.texts := by
  induction e with
  | raw e ih => simpa [exprLexemes, applied, Expr.texts] using ih
  | encode e ih => simpa [exprLexemes, applied, Expr.texts] using ih
  | _ => simp [exprLexemes, applied, Expr.texts, h]

theorem literals_fragment {url : String → List Lexeme} (h : ∀ u, literals (url u) = [])
    (f : Fragment) : literals (fragmentLexemes url f) = f.texts := by
  cases f <;> simp [fragmentLexemes, applied, Fragment.texts, literals_placed, literals_expr h]

theorem literals_fragments {url : Nat → String → List Lexeme} (h : ∀ k u, literals (url k u) = [])
    (fs : List Fragment) : literals (fragmentsLexemes url fs) = fs.flatMap Fragment.texts := by
  have hmap : (fs.mapIdx fun i f => fragmentLexemes (url (urlsBefore fs i)) f).map literals =
      fs.map Fragment.texts := by
    refine List.ext_getElem? fun i => ?_
    simp only [List.getElem?_map, List.getElem?_mapIdx, Option.map_map]
    exact congrArg (Option.map · fs[i]?) (funext fun f => literals_fragment (h _) f)
  rw [fragmentsLexemes, literals_listed, List.flatMap_def, hmap, List.flatMap_def]

theorem literals_call (n : ClassNames) {url : Nat → String → List Lexeme}
    (h : ∀ k u, literals (url k u) = []) (s : Statement) :
    literals (callLexemes n url s) = s.texts := by
  match s with
  | .literal t _ => simp [callLexemes, invoked, Statement.texts]
  | .write e _ => simp [callLexemes, invoked, Statement.texts, literals_expr (h 0)]
  | .attribute w =>
    simp [callLexemes, invoked, tupled, Statement.texts, literals_placed, literals_fragments h]
  | .pragma _ => rfl
  | .snippet _ => rfl

/-! ## Lines -/

/-- What is on a line; the text of the comment if it is one. -/
def uncommented : List Char → List Char
  | '/' :: '/' :: r => r
  | s => s

def lineLiterals? (line : String) : Option (List String) :=
  (lexemes? (uncommented line.toList)).map literals

/-- A single line whose string literals stand for some texts. -/
structure Quotes (line : String) (texts : List String) : Prop where
  single : ∀ c ∈ line.toList, c ∉ lineBreaks
  literals : lineLiterals? line = some texts

/-- What is read as lexemes does not begin like a comment. -/
theorem uncommented_of_lexemes? {s : List Char} {ls : List Lexeme} (h : lexemes? s = some ls) :
    uncommented s = s := by
  unfold uncommented
  split
  · rename_i r
    have hnone : lexeme? ('/' :: '/' :: r) = none := by
      have hword : word? ('/' :: '/' :: r) = none := by
        rw [word?, List.takeWhile_cons_of_neg (by decide)]
        rfl
      rw [lexeme?, if_neg (by decide), if_neg (by decide), if_neg (by decide), hword]
      rfl
    rw [lexemes?, if_neg (by simp)] at h
    split at h
    · cases h
    · rename_i hl
      cases hnone.symm.trans hl
  · rfl

theorem Lexed.quotes {line : String} {ls : List Lexeme} (h : Lexed line ls) :
    Quotes line (literals ls) where
  single := h.notMem_lineBreaks
  literals := by rw [lineLiterals?, uncommented_of_lexemes? h.lexemes?, h.lexemes?, Option.map_some]

theorem Lexed.indented {line : String} {ls : List Lexeme} (h : Lexed line ls) :
    Lexed ("    " ++ line) (List.replicate 4 (.mark ' ') ++ ls) where
  separated :=
    have hblank {ls : List Lexeme} (h : Separated ls) : Separated (.mark ' ' :: ls) :=
      Separated.nil.mark (by decide) h
    hblank (hblank (hblank (hblank h.separated)))
  chars := by
    rw [print_append, h.chars, String.toList_append]
    rfl

/-- The line that binds a local to an expression. -/
theorem lexed_binding {name text : String} {ls : List Lexeme} (hname : IsWord name)
    (h : Lexed text ls) :
    Lexed ("let " ++ name ++ " = " ++ text ++ ";") (.word "let" :: .mark ' ' :: .word name ::
      .mark ' ' :: .mark '=' :: .mark ' ' :: (ls ++ [.mark ';'])) where
  separated :=
    have hclosed : Separated (ls ++ [.mark ';']) := h.separated.closed (by decide)
    have hright : Separated (.mark '=' :: .mark ' ' :: (ls ++ [.mark ';'])) :=
      Separated.nil.mark (by decide) (Separated.nil.mark (by decide) hclosed)
    (Separated.word (w := "let") (by decide)).mark (by decide)
      ((Separated.word hname).mark (by decide) hright)
  chars := by
    simp only [print_cons, print_append, h.chars, String.toList_append, List.append_assoc]
    rfl

/-- The lexemes of the line that binds the local number `k`. -/
def bindingLexemes (n : ClassNames) (k : Nat) (u : String) : List Lexeme :=
  .word "let" :: .mark ' ' :: .word (urlLocal k) :: .mark ' ' :: .mark '=' :: .mark ' ' ::
    (resolvingLexemes n u ++ [.mark ';'])

theorem lexed_bindingLine {n : ClassNames} (hn : MethodWords n) (k : Nat) (u : String) :
    Lexed (bindingLine (urlLocal k, resolving n u))
      (List.replicate 4 (.mark ' ') ++ bindingLexemes n k u) := by
  have hline : bindingLine (urlLocal k, resolving n u) =
      "    " ++ ("let " ++ urlLocal k ++ " = " ++ resolving n u ++ ";") := by
    apply String.toList_inj.1
    simp only [bindingLine, String.toList_append, List.append_assoc]
    rfl
  rw [hline]
  exact (lexed_binding (isWord_urlLocal k) (lexed_resolving hn u)).indented

theorem quotes_binding {n : ClassNames} (hn : MethodWords n) (k : Nat) (u : String) :
    Quotes (bindingLine (urlLocal k, resolving n u)) [u] := (lexed_bindingLine hn k u).quotes

theorem quotes_call {n : ClassNames} (hn : MethodWords n) (s : Statement) :
    Quotes (callText n (fun k _ => urlLocal k) s) s.texts ∧
      Quotes ("    " ++ callText n (fun k _ => urlLocal k) s) s.texts := by
  have hcall := lexed_call hn (fun k _ => lexed_urlLocal k) s
  have htexts : literals (callLexemes n (fun k _ => [.word (urlLocal k)]) s) = s.texts :=
    literals_call n (fun _ _ => rfl) s
  have hdeeper := hcall.indented.quotes
  rw [literals_append, htexts] at hdeeper
  exact ⟨htexts ▸ hcall.quotes, hdeeper⟩

theorem forall₂_mapIdx {α β γ : Type} {R : β → γ → Prop} {f : Nat → α → β} {g : α → γ}
    (h : ∀ k a, R (f k a) (g a)) (l : List α) : List.Forall₂ R (l.mapIdx f) (l.map g) := by
  induction l generalizing f with
  | nil => exact .nil
  | cons a l ih =>
    rw [List.mapIdx_cons]
    exact .cons (h 0 a) (ih fun k a => h (k + 1) a)

theorem quotes_boundLines {n : ClassNames} (hn : MethodWords n) (s : Statement) :
    List.Forall₂ Quotes (boundLines n s) ([] :: s.urls.map ([·]) ++ [s.texts, []]) := by
  have hopen : Quotes "\x7b" [] := Lexed.quotes ⟨Separated.nil.mark (by decide) .nil, rfl⟩
  have hclose : Quotes "\x7d" [] := Lexed.quotes ⟨Separated.nil.mark (by decide) .nil, rfl⟩
  have hbindings : List.Forall₂ Quotes ((bindings n s).map bindingLine) (s.urls.map ([·])) :=
    List.forall₂_map_left_iff.2 (forall₂_mapIdx (R := fun b => Quotes (bindingLine b))
      (quotes_binding hn) s.urls)
  exact List.rel_append (.cons hopen hbindings) (.cons (quotes_call hn s).2 (.cons hclose .nil))

theorem quotes_of_isCall {n : ClassNames} (hn : MethodWords n) {s : Statement} (h : s.IsCall) :
    List.Forall₂ Quotes (statementLines n s)
      (if s.urls = [] then [s.texts] else [] :: s.urls.map ([·]) ++ [s.texts, []]) := by
  rw [statementLines_of_isCall n h]
  split_ifs with hurls
  · exact .cons (quotes_call hn s).1 .nil
  · exact quotes_boundLines hn s

/-- The line of a pragma is a comment that quotes the name of the file. -/
theorem quotes_pragma (line : Nat) (file : String) :
    Quotes ("// line " ++ toString line ++ " " ++ quote file) [file] := by
  have hrest : Lexed (" line " ++ toString line ++ " " ++ quote file) [.mark ' ', .word "line",
      .mark ' ', .word (toString line), .mark ' ', .literal file] :=
    { separated := Separated.nil.mark (by decide) ((Separated.word (by decide)).mark (by decide)
        ((Separated.word (.toString line)).mark (by decide) (.literal file)))
      chars := by
        simp only [print_cons, print_nil, String.toList_append, toList_quote, List.append_assoc,
          List.append_nil]
        rfl }
  have hline : ("// line " ++ toString line ++ " " ++ quote file).toList =
      '/' :: '/' :: (" line " ++ toString line ++ " " ++ quote file).toList := by
    simp only [String.toList_append, List.append_assoc]
    rfl
  constructor
  · rw [hline]
    simp only [List.forall_mem_cons]
    exact ⟨by decide, by decide, hrest.notMem_lineBreaks⟩
  · rw [lineLiterals?, hline, uncommented, hrest.lexemes?]
    rfl

/-- A quoted text stays on its line, stands for that text and ends with its last character. Every
line of a statement other than a snippet is a single line whose literals stand for the statement's
texts. -/
theorem statementLines_literals :
    (∀ t : String, (∀ c ∈ (quote t).toList, c ∉ lineBreaks) ∧
      ∀ r, literal? ((quote t).toList ++ r) = some (t.toList, r)) ∧
    ∀ n, MethodWords n → ∀ s : Statement, (∀ t, s ≠ .snippet t) →
      List.Forall₂ Quotes (statementLines n s) s.lineTexts := by
  refine ⟨fun t => ⟨fun c hc => ?_, fun r => ?_⟩, fun n hn s hs => ?_⟩
  · rw [toList_quote] at hc
    exact notMem_lineBreaks (isPrintable_of_mem_quoted hc)
  · rw [toList_quote]
    exact literal?_quoted t.toList r
  · match s with
    | .pragma (.line line file) => exact .cons (quotes_pragma line file) .nil
    | .pragma .hidden => exact .nil
    | .pragma .default => exact .nil
    | .snippet t => exact absurd rfl (hs t)
    | .literal _ _ => exact quotes_of_isCall hn trivial
    | .write _ _ => exact quotes_of_isCall hn trivial
    | .attribute _ => exact quotes_of_isCall hn trivial

/-- An expression whose URL holds what would end a literal, a line and a call. -/
theorem literals_of_broken_url :
    MethodWords {} ∧
      (∀ t, Statement.write (.raw (.url "~/\");\n\u2028// \\#line hidden")) 0 ≠ .snippet t) ∧
      List.Forall₂ Quotes
        (statementLines {} (.write (.raw (.url "~/\");\n\u2028// \\#line hidden")) 0))
        [[], ["~/\");\n\u2028// \\#line hidden"], [], []] :=
  ⟨methodWords_default, nofun,
    statementLines_literals.2 {} methodWords_default (.write (.raw (.url _)) 0) nofun⟩

end Sigil.Code
