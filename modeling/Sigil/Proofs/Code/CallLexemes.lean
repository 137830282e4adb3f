import Sigil.Proofs.Code.CallText

/-!
# The lexemes of a call

The lexemes of a statement's call, whose URLs may be any lexemes. They do not run together, so they
are what is read from the text. In them words can be replaced (`inlined`): besides the URLs no word
of a call begins with an underscore, so the outcome is the call with its URLs written in another way
(`inlined_call`).
-/

namespace Sigil.Code

open Text Template

/-! ## Arguments -/

def applied (f : String) (args : List Lexeme) : List Lexeme :=
  .word f :: .mark '(' :: (args ++ [.mark ')'])

def invoked (method : String) (args : List Lexeme) : List Lexeme :=
  .word "self" :: .member method :: .mark '(' :: (args ++ [.mark ')'])

def listed (args : List (List Lexeme)) : List Lexeme := [.mark ',', .mark ' '].intercalate args

def tupled (args : List Lexeme) : List Lexeme := .mark '(' :: (args ++ [.mark ')'])

def placedLexemes (p : Placed) : List Lexeme :=
  listed [[.literal p.text], [.word (toString p.position)]]

def exprLexemes (url : String → List Lexeme) : Expr → List Lexeme
  | .path p => applied "expr_path" [.literal p]
  | .str s => applied "expr_str" [.literal s]
  | .number s => applied "expr_number" [.literal s]
  | .bool b => applied "expr_bool" [.word (toString b)]
  | .null => applied "expr_null" []
  | .raw e => applied "raw" (exprLexemes url e)
  | .encode e => applied "encode" (exprLexemes url e)
  | .url p => applied "expr_str" (.mark '&' :: url p)

def fragmentLexemes (url : String → List Lexeme) : Fragment → List Lexeme
  | .literal lead value => applied "attr_literal" (listed [placedLexemes lead, placedLexemes value])
  | .dynamic lead e position =>
    applied "attr_dynamic"
      (listed [placedLexemes lead, exprLexemes url e, [.word (toString position)]])

def fragmentsLexemes (url : Nat → String → List Lexeme) (fs : List Fragment) : List Lexeme :=
  listed (fs.mapIdx fun i f => fragmentLexemes (url (urlsBefore fs i)) f)

def callLexemes (n : ClassNames) (url : Nat → String → List Lexeme) : Statement → List Lexeme
  | .literal t _ => invoked n.writeLiteral [.literal t] ++ [.mark ';']
  | .write e _ => invoked n.write (exprLexemes (url 0) e) ++ [.mark ';']
  | .attribute w =>
    invoked n.writeAttribute (listed [[.literal w.name], tupled (placedLexemes w.opening),
      tupled (placedLexemes w.closing),
      .mark '&' :: .mark '[' :: (fragmentsLexemes url w.fragments ++ [.mark ']'])]) ++ [.mark ';']
  | _ => []

/-- What is computed lexeme by lexeme is computed argument by argument. -/
theorem map_listed {α : Type} {f : List Lexeme → List α} (hnil : f [] = [])
    (happend : ∀ a b, f (a ++ b) = f a ++ f b) (args : List (List Lexeme)) :
    f (listed args) = (f [.mark ',', .mark ' ']).intercalate (args.map f) := by
  induction args with
  | nil => exact hnil
  | cons a args ih =>
    cases args with
    | nil => rw [listed, List.intercalate_singleton, List.map_singleton, List.intercalate_singleton]
    | cons b args =>
      rw [listed, List.intercalate_cons_cons, happend, happend, ← listed, ih, List.map_cons,
        List.map_cons, List.map_cons, List.intercalate_cons_cons]

theorem flatMap_listed {α : Type} {f : List Lexeme → List α} (hnil : f [] = [])
    (happend : ∀ a b, f (a ++ b) = f a ++ f b) (hsep : f [.mark ',', .mark ' '] = [])
    (args : List (List Lexeme)) : f (listed args) = args.flatMap f := by
  rw [map_listed hnil happend, hsep, List.flatMap_def]
  induction args.map f with
  | nil => rfl
  | cons a as ih =>
    cases as with
    | nil => rw [List.intercalate_singleton, List.flatten_singleton]
    | cons b as =>
      rw [List.intercalate_cons_cons, ih, List.append_nil, List.flatten_cons, List.flatten_cons,
        List.flatten_cons]

/-! ## They do not run together -/

/-- The methods that calls are written with have words for names. -/
structure MethodWords (n : ClassNames) : Prop where
  write : IsWord n.write
  writeLiteral : IsWord n.writeLiteral
  writeAttribute : IsWord n.writeAttribute
  resolveUrl : IsWord n.resolveUrl

theorem methodWords_default : MethodWords {} :=
  ⟨by decide, by decide, by decide, by decide⟩

theorem IsWord.toString (k : Nat) : IsWord (toString k) := by
  rw [IsWord, Nat.toString_eq_repr, Nat.toList_repr]
  refine ⟨Nat.toDigits_ne_nil, fun c hc => ?_⟩
  rw [isWordChar, isNamePart, Char.isAlphanum,
    Nat.isDigit_of_mem_toDigits (by decide) (by decide) hc, Bool.or_true]
  rfl

theorem Separated.closed {args : List Lexeme} {c : Char} (h : Separated args)
    (hc : isMark c = true) : Separated (args ++ [.mark c]) := h.mark hc .nil

theorem Separated.applied {f : String} {args : List Lexeme} (hf : IsWord f) (h : Separated args) :
    Separated (applied f args) := (Separated.word hf).mark (by decide) (h.closed (by decide))

theorem Separated.invoked {m : String} {args : List Lexeme} (hm : IsWord m) (h : Separated args) :
    Separated (invoked m args) :=
  ((Separated.word (w := "self") (by decide)).member hm).mark (by decide) (h.closed (by decide))

theorem Separated.tupled {args : List Lexeme} (h : Separated args) : Separated (tupled args) :=
  Separated.nil.mark (by decide) (h.closed (by decide))

theorem Separated.listed {args : List (List Lexeme)} (h : ∀ a ∈ args, Separated a) :
    Separated (listed args) := by
  induction args with
  | nil => exact .nil
  | cons a args ih =>
    obtain ⟨ha, hargs⟩ := List.forall_mem_cons.1 h
    cases args with
    | nil => rwa [Code.listed, List.intercalate_singleton]
    | cons b args =>
      rw [Code.listed, List.intercalate_cons_cons, List.append_assoc]
      exact ha.mark (by decide) (Separated.nil.mark (by decide) (ih hargs))

theorem separated_placed (p : Placed) : Separated (placedLexemes p) := by
  refine .listed ?_
  simp only [List.forall_mem_cons]
  exact ⟨.literal p.text, .word (.toString p.position), nofun⟩

theorem separated_expr {url : String → List Lexeme} (h : ∀ u, Separated (url u)) (e : Expr) :
    Separated (exprLexemes url e) := by
  induction e with
  | path p => exact .applied (by decide) (.literal p)
  | str s => exact .applied (by decide) (.literal s)
  | number s => exact .applied (by decide) (.literal s)
  | bool b => cases b <;> exact .applied (by decide) (.word (by decide))
  | null => exact .applied (by decide) .nil
  | raw e ih => exact .applied (by decide) ih
  | encode e ih => exact .applied (by decide) ih
  | url p => exact .applied (by decide) (Separated.nil.mark (by decide) (h p))

theorem separated_fragment {url : String → List Lexeme} (h : ∀ u, Separated (url u))
    (f : Fragment) : Separated (fragmentLexemes url f) := by
  cases f with
  | literal lead value =>
    refine .applied (by decide) (.listed ?_)
    simp only [List.forall_mem_cons]
    exact ⟨separated_placed lead, separated_placed value, nofun⟩
  | dynamic lead e position =>
    refine .applied (by decide) (.listed ?_)
    simp only [List.forall_mem_cons]
    exact ⟨separated_placed lead, separated_expr h e, .word (.toString position), nofun⟩

theorem separated_fragments {url : Nat → String → List Lexeme} (h : ∀ k u, Separated (url k u))
    (fs : List Fragment) : Separated (fragmentsLexemes url fs) := by
  refine .listed fun a ha => ?_
  obtain ⟨i, hi, rfl⟩ := List.mem_mapIdx.1 ha
  exact separated_fragment (h _) fs[i]

/-- The lexemes of a call do not run together if those of its URLs do not. -/
theorem separated_call {n : ClassNames} {url : Nat → String → List Lexeme} (hn : MethodWords n)
    (h : ∀ k u, Separated (url k u)) (s : Statement) : Separated (callLexemes n url s) := by
  match s with
  | .literal t _ => exact (Separated.invoked hn.writeLiteral (.literal t)).closed (by decide)
  | .write e _ => exact (Separated.invoked hn.write (separated_expr (h 0) e)).closed (by decide)
  | .attribute w =>
    refine (Separated.invoked hn.writeAttribute (.listed ?_)).closed (by decide)
    simp only [List.forall_mem_cons]
    have hfragments := (separated_fragments h w.fragments).closed (c := ']') (by decide)
    have hlist := Separated.nil.mark (c := '&') (by decide)
      (Separated.nil.mark (c := '[') (by decide) hfragments)
    exact ⟨.literal w.name, (separated_placed w.opening).tupled,
      (separated_placed w.closing).tupled, hlist, nofun⟩
  | .pragma _ => exact .nil
  | .snippet _ => exact .nil

/-! ## Words replaced -/

/-- A lexeme, or the text that its name stands for. -/
def Lexeme.inlined (σ : String → Option String) : Lexeme → List Char
  | .word w => ((σ w).getD w).toList
  | l => l.chars

/-- The text of lexemes with words replaced. -/
def inlined (σ : String → Option String) (ls : List Lexeme) : List Char :=
  ls.flatMap (Lexeme.inlined σ)

/-- A name that begins with an underscore. -/
def isReserved (w : String) : Bool := w.toList.head? = some '_'

theorem isReserved_toString (k : Nat) : isReserved (toString k) = false := by
  refine decide_eq_false fun h => ?_
  rw [Nat.toString_eq_repr, Nat.toList_repr] at h
  have hdigit := Nat.isDigit_of_mem_toDigits (by decide) (by decide) (List.mem_of_mem_head? h)
  exact absurd hdigit (by decide)

/-- Only names that begin with an underscore are replaced. -/
def ReservedOnly (σ : String → Option String) : Prop := ∀ w, isReserved w = false → σ w = none

theorem inlined_none (ls : List Lexeme) : inlined (fun _ => none) ls = print ls := by
  refine congrArg (List.flatMap · ls) (funext fun l => ?_)
  cases l <;> rfl

section

variable {σ : String → Option String} (hσ : ReservedOnly σ)

theorem inlined_append (a b : List Lexeme) : inlined σ (a ++ b) = inlined σ a ++ inlined σ b :=
  List.flatMap_append

theorem inlined_cons (l : Lexeme) (ls : List Lexeme) :
    inlined σ (l :: ls) = l.inlined σ ++ inlined σ ls := rfl

theorem inlined_nil : inlined σ [] = [] := rfl

theorem inlined_mark (c : Char) : Lexeme.inlined σ (.mark c) = [c] := rfl

theorem inlined_member (w : String) : Lexeme.inlined σ (.member w) = '.' :: w.toList := rfl

theorem inlined_literal (t : String) : Lexeme.inlined σ (.literal t) = (quote t).toList :=
  (toList_quote t).symm

theorem inlined_quoted (t : String) : inlined σ [.literal t] = (quote t).toList := by
  rw [inlined_cons, inlined_literal, inlined_nil, List.append_nil]

theorem inlined_listed (args : List (List Lexeme)) :
    inlined σ (listed args) = [',', ' '].intercalate (args.map (inlined σ)) :=
  map_listed inlined_nil inlined_append args

include hσ

theorem inlined_word {w : String} (hw : isReserved w = false) :
    Lexeme.inlined σ (.word w) = w.toList := by
  rw [Lexeme.inlined, hσ w hw]
  rfl

theorem inlined_number (k : Nat) : Lexeme.inlined σ (.word (toString k)) = (toString k).toList :=
  inlined_word hσ (isReserved_toString k)

theorem inlined_applied {f g t : String} {args : List Lexeme} (hf : isReserved f = false)
    (hg : g.toList = f.toList ++ ['(']) (hargs : inlined σ args = t.toList) :
    inlined σ (applied f args) = (g ++ t ++ ")").toList := by
  simp only [applied, inlined_cons, inlined_append, inlined_word hσ hf, inlined_mark, hargs,
    String.toList_append, hg, List.append_assoc]
  rfl

theorem inlined_placed (p : Placed) : inlined σ (placedLexemes p) = (placedText p).toList := by
  simp only [placedLexemes, inlined_listed, List.map_cons, List.map_nil,
    List.intercalate_cons_cons, List.intercalate_singleton, inlined_cons, inlined_nil,
    inlined_literal, inlined_number hσ, List.append_nil, placedText, String.toList_append]
  rfl

theorem inlined_expr {url : String → List Lexeme} {text : String → String}
    (h : ∀ u, inlined σ (url u) = (text u).toList) (e : Expr) :
    inlined σ (exprLexemes url e) = (exprText text e).toList := by
  induction e with
  | path p => exact inlined_applied hσ (by decide) (by decide) (inlined_quoted p)
  | str s => exact inlined_applied hσ (by decide) (by decide) (inlined_quoted s)
  | number s => exact inlined_applied hσ (by decide) (by decide) (inlined_quoted s)
  | bool b =>
    refine inlined_applied hσ (by decide) (by decide) ?_
    rw [inlined_cons, inlined_nil, List.append_nil]
    cases b <;> exact inlined_word hσ (by decide)
  | null =>
    have hargs : inlined σ [] = "".toList := rfl
    rw [exprLexemes, inlined_applied (g := "expr_null(") hσ (by decide) (by decide) hargs, exprText]
    decide
  | raw e ih => exact inlined_applied hσ (by decide) (by decide) ih
  | encode e ih => exact inlined_applied hσ (by decide) (by decide) ih
  | url p =>
    have hargs : inlined σ (.mark '&' :: url p) = ("&" ++ text p).toList := by
      rw [inlined_cons, h, String.toList_append]
      rfl
    rw [exprLexemes, inlined_applied (g := "expr_str(") hσ (by decide) (by decide) hargs,
      exprText]
    simp only [String.toList_append, List.append_assoc]
    rfl

theorem inlined_fragment {url : String → List Lexeme} {text : String → String}
    (h : ∀ u, inlined σ (url u) = (text u).toList) (f : Fragment) :
    inlined σ (fragmentLexemes url f) = (fragmentText text f).toList := by
  cases f with
  | literal lead value =>
    have hargs : inlined σ (listed [placedLexemes lead, placedLexemes value]) =
        (placedText lead ++ ", " ++ placedText value).toList := by
      simp only [inlined_listed, List.map_cons, List.map_nil, List.intercalate_cons_cons,
        List.intercalate_singleton, inlined_placed hσ, String.toList_append]
      rfl
    rw [fragmentLexemes, inlined_applied (g := "attr_literal(") hσ (by decide) (by decide) hargs,
      fragmentText_literal]
    simp only [String.toList_append, List.append_assoc]
  | dynamic lead e position =>
    have hargs : inlined σ (listed [placedLexemes lead, exprLexemes url e,
        [.word (toString position)]]) =
        (placedText lead ++ ", " ++ exprText text e ++ ", " ++ toString position).toList := by
      simp only [inlined_listed, List.map_cons, List.map_nil, List.intercalate_cons_cons,
        List.intercalate_singleton, inlined_placed hσ, inlined_expr hσ h, inlined_cons, inlined_nil,
        inlined_number hσ, List.append_nil, String.toList_append, List.append_assoc]
      rfl
    rw [fragmentLexemes, inlined_applied (g := "attr_dynamic(") hσ (by decide) (by decide) hargs,
      fragmentText_dynamic]
    simp only [String.toList_append, List.append_assoc]

theorem inlined_fragments {url : Nat → String → List Lexeme} {text : Nat → String → String}
    (h : ∀ k u, inlined σ (url k u) = (text k u).toList) (fs : List Fragment) :
    inlined σ (fragmentsLexemes url fs) = (", ".intercalate
      (fs.mapIdx fun i f => fragmentText (text (urlsBefore fs i)) f)).toList := by
  rw [fragmentsLexemes, inlined_listed, String.toList_intercalate]
  refine congrArg (List.intercalate [',', ' ']) ?_
  refine List.ext_getElem? fun i => ?_
  simp only [List.getElem?_map, List.getElem?_mapIdx, Option.map_map]
  exact congrArg (Option.map · fs[i]?) (funext fun f => inlined_fragment hσ (h _) f)

theorem inlined_invoked {m t : String} {args : List Lexeme} (hargs : inlined σ args = t.toList) :
    inlined σ (invoked m args) = ("self." ++ m ++ "(" ++ t ++ ")").toList := by
  have hself : isReserved "self" = false := by decide
  simp only [invoked, inlined_cons, inlined_append, inlined_word hσ hself, inlined_member,
    inlined_mark, hargs, String.toList_append, List.append_assoc]
  rfl

/-- Replacing words in a call gives the call whose URLs are written with the words replaced. -/
theorem inlined_call (n : ClassNames) {url : Nat → String → List Lexeme}
    {text : Nat → String → String} (h : ∀ k u, inlined σ (url k u) = (text k u).toList)
    (s : Statement) : inlined σ (callLexemes n url s) = (callText n text s).toList := by
  match s with
  | .literal t _ =>
    rw [callLexemes, inlined_append, inlined_invoked hσ (inlined_quoted t), callText_literal]
    simp only [String.toList_append, List.append_assoc]
    rfl
  | .write e _ =>
    rw [callLexemes, inlined_append, inlined_invoked hσ (inlined_expr hσ (h 0) e), callText_write]
    simp only [String.toList_append, List.append_assoc]
    rfl
  | .attribute w =>
    have hargs : inlined σ (listed [[.literal w.name], tupled (placedLexemes w.opening),
        tupled (placedLexemes w.closing),
        .mark '&' :: .mark '[' :: (fragmentsLexemes url w.fragments ++ [.mark ']'])]) =
        (quote w.name ++ ", (" ++ placedText w.opening ++ "), (" ++ placedText w.closing ++
          "), &[" ++ ", ".intercalate (w.fragments.mapIdx fun i f =>
            fragmentText (text (urlsBefore w.fragments i)) f) ++ "]").toList := by
      simp only [inlined_listed, List.map_cons, List.map_nil, List.intercalate_cons_cons,
        List.intercalate_singleton, tupled, inlined_cons, inlined_append, inlined_literal,
        inlined_mark, inlined_nil, inlined_placed hσ, inlined_fragments hσ h, List.append_nil,
        String.toList_append, List.append_assoc]
      rfl
    rw [callLexemes, inlined_append, inlined_invoked hσ hargs, callText_attribute]
    simp only [String.toList_append, List.append_assoc]
    rfl
  | .pragma _ => rfl
  | .snippet _ => rfl

end

/-! ## Lines of lexemes -/

/-- A line that lexemes make up without running together. -/
structure Lexed (line : String) (ls : List Lexeme) : Prop where
  separated : Separated ls
  chars : print ls = line.toList

theorem Lexed.lexemes? {line : String} {ls : List Lexeme} (h : Lexed line ls) :
    lexemes? line.toList = some ls := h.chars ▸ lexemes?_print h.separated

theorem Lexed.notMem_lineBreaks {line : String} {ls : List Lexeme} (h : Lexed line ls) :
    ∀ c ∈ line.toList, c ∉ lineBreaks :=
  fun c hc => Text.notMem_lineBreaks (isPrintable_of_mem_print h.separated c (h.chars ▸ hc))

theorem lexed_call {n : ClassNames} (hn : MethodWords n) {url : Nat → String → List Lexeme}
    {text : Nat → String → String} (h : ∀ k u, Lexed (text k u) (url k u)) (s : Statement) :
    Lexed (callText n text s) (callLexemes n url s) where
  separated := separated_call hn (fun k u => (h k u).separated) s
  chars := by
    rw [← inlined_none, inlined_call (fun _ _ => rfl) n (fun k u => ?_) s]
    rw [inlined_none, (h k u).chars]

theorem isWord_urlLocal (k : Nat) : IsWord (urlLocal k) := by
  have hprefix : IsWord "__url" := by decide
  rw [IsWord, urlLocal, String.toList_append]
  refine ⟨fun h => hprefix.1 (List.append_eq_nil_iff.1 h).1, fun c hc => ?_⟩
  rcases List.mem_append.1 hc with hc | hc
  · exact hprefix.2 c hc
  · exact (IsWord.toString k).2 c hc

theorem lexed_urlLocal (k : Nat) : Lexed (urlLocal k) [.word (urlLocal k)] where
  separated := .word (isWord_urlLocal k)
  chars := List.append_nil _

def resolvingLexemes (n : ClassNames) (u : String) : List Lexeme :=
  invoked n.resolveUrl [.literal u]

theorem lexed_resolving {n : ClassNames} (hn : MethodWords n) (u : String) :
    Lexed (resolving n u) (resolvingLexemes n u) where
  separated := .invoked hn.resolveUrl (.literal u)
  chars := by
    rw [← inlined_none, resolvingLexemes, inlined_invoked (fun _ _ => rfl) (inlined_quoted u),
      resolving]

end Sigil.Code
