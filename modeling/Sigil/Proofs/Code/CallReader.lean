import Sigil.Code.UnitSource
import Sigil.Proofs.Code.Literals

/-!
# Calls read back

`readSteps?` reads lines of generated code as calls: each with its arguments, and with the URLs that
the block around it binds to locals. The lines of a body are read back as the calls that they were
written for (`readSteps?_lines`), whatever texts are in the body.
-/

namespace Sigil.Code

open Text Template

/-! ## The reader -/

def digits? (ds : List Char) : Option Nat :=
  if ds.all Char.isDigit then some (Nat.ofDigitChars 10 ds 0) else none

def localNumber? (name : String) : Option Nat := (after? "__url".toList name.toList).bind digits?

def readTerm? : List Lexeme → Option (Term × List Lexeme)
  | .word "expr_path" :: .mark '(' :: .literal p :: .mark ')' :: r => some (.path p, r)
  | .word "expr_str" :: .mark '(' :: .literal s :: .mark ')' :: r => some (.str s, r)
  | .word "expr_str" :: .mark '(' :: .mark '&' :: .word w :: .mark ')' :: r =>
    (localNumber? w).map (.url ·, r)
  | .word "expr_number" :: .mark '(' :: .literal s :: .mark ')' :: r => some (.number s, r)
  | .word "expr_bool" :: .mark '(' :: .word "true" :: .mark ')' :: r => some (.bool true, r)
  | .word "expr_bool" :: .mark '(' :: .word "false" :: .mark ')' :: r => some (.bool false, r)
  | .word "expr_null" :: .mark '(' :: .mark ')' :: r => some (.null, r)
  | .word "raw" :: .mark '(' :: r =>
    match readTerm? r with
    | some (t, .mark ')' :: r) => some (.raw t, r)
    | _ => none
  | .word "encode" :: .mark '(' :: r =>
    match readTerm? r with
    | some (t, .mark ')' :: r) => some (.encode t, r)
    | _ => none
  | _ => none

def readPlaced? : List Lexeme → Option (Placed × List Lexeme)
  | .literal t :: .mark ',' :: .mark ' ' :: .word w :: r => (digits? w.toList).map (⟨t, ·⟩, r)
  | _ => none

def readPart? : List Lexeme → Option (Part × List Lexeme)
  | .word "attr_literal" :: .mark '(' :: r =>
    match readPlaced? r with
    | some (lead, .mark ',' :: .mark ' ' :: r) =>
      match readPlaced? r with
      | some (value, .mark ')' :: r) => some (.literal lead value, r)
      | _ => none
    | _ => none
  | .word "attr_dynamic" :: .mark '(' :: r =>
    match readPlaced? r with
    | some (lead, .mark ',' :: .mark ' ' :: r) =>
      match readTerm? r with
      | some (t, .mark ',' :: .mark ' ' :: .word w :: .mark ')' :: r) =>
        (digits? w.toList).map (.dynamic lead t ·, r)
      | _ => none
    | _ => none
  | _ => none

/-- The parts in front of a closing bracket. -/
def readParts? (ls : List Lexeme) : Option (List Part × List Lexeme) :=
  if ls.head? = some (.mark ']') then some ([], ls.tail)
  else
    match readPart? ls with
    | some (p, .mark ']' :: r) => some ([p], r)
    | some (p, .mark ',' :: .mark ' ' :: r) =>
      if _h : r.length < ls.length then (readParts? r).map fun (ps, r) => (p :: ps, r) else none
    | _ => none
termination_by ls.length

def readCall? (n : ClassNames) : List Lexeme → Option Call
  | [.word "self", .member m, .mark '(', .literal t, .mark ')', .mark ';'] =>
    if m = n.writeLiteral then some (.literal t) else none
  | .word "self" :: .member m :: .mark '(' :: .literal name :: .mark ',' :: .mark ' ' ::
      .mark '(' :: r =>
    if m = n.writeAttribute then
      match readPlaced? r with
      | some (opening, .mark ')' :: .mark ',' :: .mark ' ' :: .mark '(' :: r) =>
        match readPlaced? r with
        | some (closing, .mark ')' :: .mark ',' :: .mark ' ' :: .mark '&' :: .mark '[' :: r) =>
          match readParts? r with
          | some (ps, [.mark ')', .mark ';']) => some (.attribute name opening closing ps)
          | _ => none
        | _ => none
      | _ => none
    else none
  | .word "self" :: .member m :: .mark '(' :: r =>
    if m = n.write then
      match readTerm? r with
      | some (t, [.mark ')', .mark ';']) => some (.write t)
      | _ => none
    else none
  | _ => none

/-- The URL that a line resolves for the local number `k`. -/
def readBinding? (n : ClassNames) (k : Nat) : List Lexeme → Option String
  | [.word "let", .mark ' ', .word w, .mark ' ', .mark '=', .mark ' ', .word "self", .member m,
      .mark '(', .literal u, .mark ')', .mark ';'] =>
    if w = urlLocal k ∧ m = n.resolveUrl then some u else none
  | _ => none

/-- Lexemes without the blanks in front. -/
def dedented (ls : List Lexeme) : List Lexeme := ls.dropWhile (· = .mark ' ')

def isComment (line : String) : Bool := startsWith line.toList ['/', '/']

/-- Where a line stands: outside of the blocks, inside of one that has bound some URLs, or behind
the call of one. -/
inductive BlockState where
  | outside
  | inside (urls : List String)
  | closing

/-- Where the next line stands, and the call that a line ends. -/
def readLine? (n : ClassNames) : BlockState → String → Option (BlockState × Option Step)
  | .outside, line =>
    if isComment line then some (.outside, none)
    else do
      let ls ← lexemes? line.toList
      if ls = [.mark '\x7b'] then return (.inside [], none)
      else return (.outside, some ⟨[], ← readCall? n ls⟩)
  | .inside urls, line => do
    let ls := dedented (← lexemes? line.toList)
    match readBinding? n urls.length ls with
    | some u => return (.inside (urls ++ [u]), none)
    | none => return (.closing, some ⟨urls, ← readCall? n ls⟩)
  | .closing, line => if line = "\x7d" then some (.outside, none) else none

/-- The calls in lines of generated code. -/
def readSteps? (n : ClassNames) : BlockState → List String → Option (List Step)
  | .outside, [] => some []
  | _, [] => none
  | z, line :: lines => do
    let (z, step) ← readLine? n z line
    return step.toList ++ (← readSteps? n z lines)

/-! ## Arguments -/

theorem digits?_toString (k : Nat) : digits? (toString k).toList = some k := by
  have hdigits : (Nat.toDigits 10 k).all Char.isDigit = true :=
    List.all_eq_true.2 fun _ hc => Nat.isDigit_of_mem_toDigits (by decide) (by decide) hc
  rw [Nat.toString_eq_repr, Nat.toList_repr, digits?, if_pos hdigits,
    Nat.ofDigitChars_toDigits (by decide) (by decide)]

theorem localNumber?_urlLocal (k : Nat) : localNumber? (urlLocal k) = some k := by
  have hlocal : after? "__url".toList (urlLocal k).toList = some (toString k).toList := by
    rw [after?_eq_some_iff, urlLocal, String.toList_append]
  rw [localNumber?, hlocal, Option.bind_some, digits?_toString]

theorem readTerm?_expr (k : Nat) (e : Expr) (r : List Lexeme) :
    readTerm? (exprLexemes (fun _ => [.word (urlLocal k)]) e ++ r) = some ((hoist k e).1, r) := by
  induction e generalizing r with
  | path p => rfl
  | str s => rfl
  | number s => rfl
  | bool b => cases b <;> rfl
  | null => rfl
  | raw e ih =>
    simp only [exprLexemes, applied, List.cons_append, List.append_assoc, readTerm?, ih]
    rfl
  | encode e ih =>
    simp only [exprLexemes, applied, List.cons_append, List.append_assoc, readTerm?, ih]
    rfl
  | url p =>
    simp only [exprLexemes, applied, List.cons_append, List.nil_append, readTerm?,
      localNumber?_urlLocal]
    rfl

theorem readPlaced?_placed (p : Placed) (r : List Lexeme) :
    readPlaced? (placedLexemes p ++ r) = some (p, r) := by
  show (digits? (toString p.position).toList).map _ = _
  rw [digits?_toString]
  rfl

/-- The part for a fragment that `k` URLs stand in front of. -/
def partOf (k : Nat) : Fragment → Part
  | .literal lead value => .literal lead value
  | .dynamic lead e position => .dynamic lead (hoist k e).1 position

theorem readPart?_fragment (k : Nat) (f : Fragment) (r : List Lexeme) :
    readPart? (fragmentLexemes (fun _ => [.word (urlLocal k)]) f ++ r) =
      some (partOf k f, r) := by
  cases f with
  | literal lead value =>
    have hargs : fragmentLexemes (fun _ => [.word (urlLocal k)]) (.literal lead value) ++ r =
        .word "attr_literal" :: .mark '(' :: (placedLexemes lead ++ .mark ',' :: .mark ' ' ::
          (placedLexemes value ++ .mark ')' :: r)) := by
      simp [fragmentLexemes, applied, listed, List.intercalate_cons_cons,
        List.intercalate_singleton]
    rw [hargs]
    simp only [readPart?, readPlaced?_placed]
    rfl
  | dynamic lead e position =>
    have hargs : fragmentLexemes (fun _ => [.word (urlLocal k)]) (.dynamic lead e position) ++ r =
        .word "attr_dynamic" :: .mark '(' :: (placedLexemes lead ++ .mark ',' :: .mark ' ' ::
          (exprLexemes (fun _ => [.word (urlLocal k)]) e ++ .mark ',' :: .mark ' ' ::
            .word (toString position) :: .mark ')' :: r)) := by
      simp [fragmentLexemes, applied, listed, List.intercalate_cons_cons,
        List.intercalate_singleton]
    rw [hargs]
    simp only [readPart?, readPlaced?_placed, readTerm?_expr, digits?_toString]
    rfl

theorem hoistAll_cons (k : Nat) (f : Fragment) (fs : List Fragment) :
    (hoistAll k (f :: fs)).1 = partOf k f :: (hoistAll (k + f.url?.toList.length) fs).1 := by
  cases f with
  | literal lead value => rfl
  | dynamic lead e position =>
    have hurl : (Fragment.dynamic lead e position).url? = e.url? := rfl
    rw [hoistAll_dynamic, urls_hoist, hurl]
    rfl

theorem head?_fragmentLexemes (url : String → List Lexeme) (f : Fragment) (r : List Lexeme) :
    (fragmentLexemes url f ++ r).head? ≠ some (.mark ']') := by
  cases f <;> simp [fragmentLexemes, applied]

theorem readParts?_fragments (k : Nat) (fs : List Fragment) (r : List Lexeme) :
    readParts? (listed (fs.mapIdx fun i f =>
      fragmentLexemes (fun _ => [.word (urlLocal (k + urlsBefore fs i))]) f) ++ .mark ']' :: r) =
        some ((hoistAll k fs).1, r) := by
  induction fs generalizing k with
  | nil =>
    rw [readParts?]
    rfl
  | cons f fs ih =>
    -- The rest is read with a number that counts the first fragment's URL.
    have hnext : ∀ i, k + urlsBefore (f :: fs) (i + 1) =
        k + f.url?.toList.length + urlsBefore fs i := fun i => by
      rw [urlsBefore_cons_succ, Nat.add_assoc]
    simp only [List.mapIdx_cons, urlsBefore_zero, Nat.add_zero, hnext, hoistAll_cons]
    have ih := ih (k + f.url?.toList.length)
    cases fs with
    | nil =>
      rw [List.mapIdx_nil, listed, List.intercalate_singleton, readParts?,
        if_neg (head?_fragmentLexemes _ f _), readPart?_fragment]
      rfl
    | cons g gs =>
      rw [List.mapIdx_cons] at ih ⊢
      rw [listed, List.intercalate_cons_cons, ← listed, List.append_assoc, List.append_assoc,
        readParts?, if_neg (head?_fragmentLexemes _ f _), readPart?_fragment]
      simp only [List.cons_append, List.nil_append, ih]
      rw [dif_pos]
      · rfl
      · simp only [List.length_append, List.length_cons]
        omega

/-! ## Calls -/

theorem exists_exprLexemes (url : String → List Lexeme) (e : Expr) :
    ∃ f args, exprLexemes url e = .word f :: args := by
  cases e <;> exact ⟨_, _, rfl⟩

theorem readCall?_write (n : ClassNames) (e : Expr) (position : Nat) :
    readCall? n (callLexemes n (fun k _ => [.word (urlLocal k)]) (.write e position)) =
      some (.write (hoist 0 e).1) := by
  obtain ⟨f, args, hargs⟩ := exists_exprLexemes (fun _ => [.word (urlLocal 0)]) e
  have hread := readTerm?_expr 0 e [.mark ')', .mark ';']
  have hcall : callLexemes n (fun k _ => [.word (urlLocal k)]) (.write e position) =
      .word "self" :: .member n.write :: .mark '(' ::
        (exprLexemes (fun _ => [.word (urlLocal 0)]) e ++ [.mark ')', .mark ';']) := by
    simp [callLexemes, invoked]
  rw [hcall]
  rw [hargs, List.cons_append] at hread ⊢
  simp only [readCall?, if_true, hread]

theorem readCall?_attribute (n : ClassNames) (w : AttributeWrite) :
    readCall? n (callLexemes n (fun k _ => [.word (urlLocal k)]) (.attribute w)) =
      some (.attribute w.name w.opening w.closing (hoistAll 0 w.fragments).1) := by
  have hparts := readParts?_fragments 0 w.fragments [.mark ')', .mark ';']
  simp only [Nat.zero_add] at hparts
  have hcall : callLexemes n (fun k _ => [.word (urlLocal k)]) (.attribute w) =
      .word "self" :: .member n.writeAttribute :: .mark '(' :: .literal w.name :: .mark ',' ::
        .mark ' ' :: .mark '(' :: (placedLexemes w.opening ++ .mark ')' :: .mark ',' :: .mark ' ' ::
          .mark '(' :: (placedLexemes w.closing ++ .mark ')' :: .mark ',' :: .mark ' ' ::
            .mark '&' :: .mark '[' :: (fragmentsLexemes (fun k _ => [.word (urlLocal k)])
              w.fragments ++ [.mark ']', .mark ')', .mark ';']))) := by
    simp [callLexemes, invoked, tupled, listed, List.intercalate_cons_cons,
      List.intercalate_singleton]
  rw [hcall]
  simp only [readCall?, if_true, readPlaced?_placed, fragmentsLexemes, hparts]

theorem readCall?_call (n : ClassNames) {s : Statement} {step : Step}
    (h : Step.ofStatement? s = some step) :
    readCall? n (callLexemes n (fun k _ => [.word (urlLocal k)]) s) = some step.call := by
  match s with
  | .literal t position =>
    cases h
    exact if_pos rfl
  | .write e position =>
    cases h
    exact readCall?_write n e position
  | .attribute w =>
    cases h
    exact readCall?_attribute n w
  | .pragma p => cases h
  | .snippet t => cases h

/-! ## Lines -/

theorem exists_callLexemes (n : ClassNames) (url : Nat → String → List Lexeme) {s : Statement}
    (hs : s.IsCall) : ∃ ls, callLexemes n url s = .word "self" :: ls := by
  cases s with
  | pragma p => exact hs.elim
  | snippet t => exact hs.elim
  | _ => exact ⟨_, rfl⟩

theorem isComment_of_lexed {line : String} {ls : List Lexeme} (h : Lexed line ls) :
    isComment line = false := by
  refine Bool.eq_false_iff.2 fun hcomment => ?_
  obtain ⟨r, hr⟩ := startsWith_iff_isPrefix.1 hcomment
  have hsame := uncommented_of_lexemes? h.lexemes?
  rw [← hr] at hsame
  have hlength : r.length = r.length + 2 := congrArg List.length hsame
  omega

theorem readSteps?_cons {n : ClassNames} {z z' : BlockState} {line : String} {step : Option Step}
    (h : readLine? n z line = some (z', step)) (lines : List String) :
    readSteps? n z (line :: lines) = (readSteps? n z' lines).map (step.toList ++ ·) := by
  rw [readSteps?, h]
  cases hrest : readSteps? n z' lines <;> simp [hrest]

section

variable {n : ClassNames} (hn : MethodWords n)

include hn

theorem readLine?_binding (urls : List String) (u : String) :
    readLine? n (.inside urls) (bindingLine (urlLocal urls.length, resolving n u)) =
      some (.inside (urls ++ [u]), none) := by
  have hbinding : readBinding? n urls.length
      (dedented (List.replicate 4 (.mark ' ') ++ bindingLexemes n urls.length u)) = some u :=
    if_pos ⟨rfl, rfl⟩
  rw [readLine?, (lexed_bindingLine hn urls.length u).lexemes?]
  simp only [Option.bind_eq_bind, Option.bind_some, hbinding]
  rfl

theorem readSteps?_bindings (urls us : List String) (lines : List String) :
    readSteps? n (.inside urls)
      ((us.mapIdx fun k u => bindingLine (urlLocal (urls.length + k), resolving n u)) ++ lines) =
      readSteps? n (.inside (urls ++ us)) lines := by
  induction us generalizing urls with
  | nil => rw [List.mapIdx_nil, List.nil_append, List.append_nil]
  | cons u us ih =>
    have ih := ih (urls ++ [u])
    simp only [List.length_append, List.length_singleton, List.append_assoc,
      List.singleton_append] at ih
    rw [List.mapIdx_cons, List.cons_append, Nat.add_zero,
      readSteps?_cons (readLine?_binding hn urls u), ← ih]
    simp only [Nat.add_assoc, Nat.add_comm 1, Option.toList_none, List.nil_append, Option.map_id']

variable {s : Statement} {step : Step} (hs : s.IsCall) (hstep : Step.ofStatement? s = some step)

include hs hstep

theorem readLine?_outside :
    readLine? n .outside (callText n (fun k _ => urlLocal k) s) =
      some (.outside, some ⟨[], step.call⟩) := by
  have hlexed := lexed_call hn (fun k _ => lexed_urlLocal k) s
  obtain ⟨ls, hls⟩ := exists_callLexemes n (fun k _ => [.word (urlLocal k)]) hs
  have hopen : callLexemes n (fun k _ => [.word (urlLocal k)]) s ≠ [.mark '\x7b'] := by
    rw [hls]
    nofun
  rw [readLine?, isComment_of_lexed hlexed, hlexed.lexemes?]
  simp only [Bool.false_eq_true, if_false, Option.bind_eq_bind, Option.bind_some, if_neg hopen,
    readCall?_call n hstep]
  rfl

theorem readLine?_inside (urls : List String) :
    readLine? n (.inside urls) ("    " ++ callText n (fun k _ => urlLocal k) s) =
      some (.closing, some ⟨urls, step.call⟩) := by
  have hlexed := lexed_call hn (fun k _ => lexed_urlLocal k) s
  have hcall := readCall?_call n hstep
  obtain ⟨ls, hls⟩ := exists_callLexemes n (fun k _ => [.word (urlLocal k)]) hs
  have hbinding : readBinding? n urls.length (.word "self" :: ls) = none := rfl
  rw [readLine?, hlexed.indented.lexemes?]
  rw [hls] at hcall ⊢
  have hdedented : dedented (List.replicate 4 (.mark ' ') ++ .word "self" :: ls) =
      .word "self" :: ls := rfl
  simp only [Option.bind_eq_bind, Option.bind_some, hdedented, hbinding, hcall]
  rfl

theorem readSteps?_call (lines : List String) :
    readSteps? n .outside (statementLines n s ++ lines) =
      (readSteps? n .outside lines).map (step :: ·) := by
  have hurls := urls_ofStatement hstep
  rw [statementLines_of_isCall n hs]
  split
  · rename_i hnil
    have hall : step = ⟨[], step.call⟩ := by
      rw [hnil] at hurls
      rw [← hurls]
    rw [List.singleton_append, readSteps?_cons (readLine?_outside hn hs hstep), ← hall]
    rfl
  · have hopen : readLine? n .outside "\x7b" = some (.inside [], none) := by
      have hlexed : Lexed "\x7b" [.mark '\x7b'] := ⟨Separated.nil.mark (by decide) .nil, rfl⟩
      rw [readLine?, isComment_of_lexed hlexed, hlexed.lexemes?]
      rfl
    have hclose : readLine? n .closing "\x7d" = some (.outside, none) := rfl
    have hbindings := readSteps?_bindings hn [] s.urls
      (("    " ++ callText n (fun k _ => urlLocal k) s) :: "\x7d" :: lines)
    simp only [List.length_nil, Nat.zero_add, List.nil_append] at hbindings
    rw [boundLines, map_bindings, List.cons_append, List.cons_append, List.append_assoc,
      readSteps?_cons hopen, List.cons_append, List.singleton_append, hbindings,
      readSteps?_cons (readLine?_inside hn hs hstep s.urls), readSteps?_cons hclose, ← hurls,
      Option.map_map, Option.map_map]
    rfl

end

/-- The lines of a body without snippets are read back as its calls. -/
theorem readSteps?_lines {n : ClassNames} (hn : MethodWords n) {body : List Statement}
    (h : ∀ x ∈ body, x.isSnippet = false) :
    readSteps? n .outside (bodyLines n body) = some (body.filterMap Step.ofStatement?) := by
  unfold bodyLines
  induction body with
  | nil => rfl
  | cons x body ih =>
    rw [List.forall_mem_cons] at h
    rw [List.flatMap_cons]
    have hcall {step : Step} (hs : x.IsCall) (hstep : Step.ofStatement? x = some step) :
        readSteps? n .outside (statementLines n x ++ body.flatMap (statementLines n)) =
          some ((x :: body).filterMap Step.ofStatement?) := by
      rw [readSteps?_call hn hs hstep, ih h.2, List.filterMap_cons_some hstep]
      rfl
    match x with
    | .literal t position => exact hcall trivial rfl
    | .write e position => exact hcall trivial rfl
    | .attribute w => exact hcall trivial rfl
    | .snippet t => cases h.1
    | .pragma .hidden => exact ih h.2
    | .pragma .default => exact ih h.2
    | .pragma (.line line file) =>
      have hcomment : readLine? n .outside ("// line " ++ toString line ++ " " ++ quote file) =
          some (.outside, none) := by
        have hline : ("// line " ++ toString line ++ " " ++ quote file).toList =
            "//".toList ++ (" line " ++ toString line ++ " " ++ quote file).toList := by
          simp only [String.toList_append, List.append_assoc]
          rfl
        have hstarts : isComment ("// line " ++ toString line ++ " " ++ quote file) = true :=
          startsWith_iff_isPrefix.2 (hline ▸ List.prefix_append _ _)
        rw [readLine?, if_pos hstarts]
      exact (readSteps?_cons hcomment _).trans (congrArg (Option.map _) (ih h.2))

end Sigil.Code
