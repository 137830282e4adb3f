import Mathlib.Data.List.Nodup
import Sigil.Proofs.Code.CallLexemes

/-!
# URLs are bound in front of their call

The locals of a call are bound in front of it, one for each URL, and each is used once and stands
for its own URL: with the locals replaced by what they are bound to, the call is the one that
resolves its URLs in place (`statementLines_hoist`).
-/

namespace Sigil.Code

open Text Template

/-! ## Bindings -/

theorem urlLocal_injective : Function.Injective urlLocal := by
  intro a b h
  have hdigits := congrArg String.toList h
  simp only [urlLocal, String.toList_append, Nat.toString_eq_repr, Nat.toList_repr,
    List.append_cancel_left_eq] at hdigits
  rw [← Nat.ofDigitChars_toDigits (b := 10) (n := a) (by decide) (by decide), hdigits,
    Nat.ofDigitChars_toDigits (by decide) (by decide)]

theorem mapIdx_range {β : Type} (g : Nat → β) (us : List String) :
    us.mapIdx (fun k _ => g k) = (List.range us.length).map g := by
  apply List.ext_getElem <;> simp

theorem locals_bindings (n : ClassNames) (s : Statement) :
    (bindings n s).map Prod.fst = (List.range s.urls.length).map urlLocal := by
  rw [map_bindings, mapIdx_range]

theorem lookup_mapIdx {g : Nat → String} (hg : Function.Injective g) (f : String → String)
    (us : List String) (k : Nat) :
    (us.mapIdx fun k u => (g k, f u)).lookup (g k) = us[k]?.map f := by
  induction us generalizing g k with
  | nil => rfl
  | cons u us ih =>
    rw [List.mapIdx_cons, List.lookup_cons]
    cases k with
    | zero => rw [beq_self_eq_true]; rfl
    | succ k =>
      have hne : (g (k + 1) == g 0) = false := beq_false_of_ne fun h => Nat.succ_ne_zero k (hg h)
      rw [hne]
      exact ih (fun a b h => Nat.succ.inj (hg h)) k

theorem isReserved_urlLocal (k : Nat) : isReserved (urlLocal k) = true := by
  rw [isReserved, urlLocal, String.toList_append]
  rfl

def bound? (n : ClassNames) (s : Statement) (name : String) : Option String :=
  (bindings n s).lookup name

/-- The number of a local finds the URL that it stands for. -/
theorem bound?_urlLocal (n : ClassNames) (s : Statement) (k : Nat) :
    bound? n s (urlLocal k) = s.urls[k]?.map (resolving n) :=
  lookup_mapIdx urlLocal_injective (resolving n) s.urls k

theorem reservedOnly_bound? (n : ClassNames) (s : Statement) : ReservedOnly (bound? n s) := by
  intro w hw
  rw [bound?, List.lookup_eq_none_iff]
  intro p hp
  obtain ⟨k, hk, rfl⟩ := List.mem_mapIdx.1 hp
  rw [bne_iff_ne]
  rintro rfl
  exact Bool.noConfusion (hw.symm.trans (isReserved_urlLocal k))

/-! ## The number of a URL -/

/-- The URL of a fragment has as many others in front of it as the fragment. -/
theorem getElem?_urlsBefore {fs : List Fragment} {i : Nat} {f : Fragment} {u : String}
    (hf : fs[i]? = some f) (hu : f.url? = some u) :
    (fs.filterMap Fragment.url?)[urlsBefore fs i]? = some u := by
  obtain ⟨hi, rfl⟩ := List.getElem?_eq_some_iff.1 hf
  have hsplit : fs.filterMap Fragment.url? =
      (fs.take i).filterMap Fragment.url? ++ u :: (fs.drop (i + 1)).filterMap Fragment.url? := by
    conv_lhs => rw [← List.take_append_drop i fs, List.drop_eq_getElem_cons hi]
    rw [List.filterMap_append, List.filterMap_cons_some hu]
  rw [hsplit, urlsBefore, List.getElem?_append_right (Nat.le_refl _), Nat.sub_self,
    List.getElem?_cons_zero]

theorem exprText_congr {f g : String → String} {e : Expr}
    (h : ∀ u, e.url? = some u → f u = g u) : exprText f e = exprText g e := by
  induction e with
  | raw e ih => exact congrArg ("raw(" ++ · ++ ")") (ih h)
  | encode e ih => exact congrArg ("encode(" ++ · ++ ")") (ih h)
  | url p => exact congrArg ("expr_str(&" ++ · ++ ")") (h p rfl)
  | _ => rfl

theorem fragmentText_congr {f g : String → String} {x : Fragment}
    (h : ∀ u, x.url? = some u → f u = g u) : fragmentText f x = fragmentText g x := by
  cases x with
  | literal lead value => rfl
  | dynamic lead e position =>
    rw [fragmentText_dynamic, fragmentText_dynamic, exprText_congr h]

/-- A call depends on what is written for the URLs of its statement only, each under its number. -/
theorem callText_congr (n : ClassNames) {f g : Nat → String → String} {s : Statement}
    (h : ∀ k u, s.urls[k]? = some u → f k u = g k u) : callText n f s = callText n g s := by
  match s with
  | .literal t _ => rfl
  | .write e position =>
    refine congrArg ("self." ++ n.write ++ "(" ++ · ++ ");") (exprText_congr fun u hu => h 0 u ?_)
    rw [urls_write, hu]
    rfl
  | .attribute w =>
    have hfragments :
        (w.fragments.mapIdx fun i x => fragmentText (f (urlsBefore w.fragments i)) x) =
          w.fragments.mapIdx fun i x => fragmentText (g (urlsBefore w.fragments i)) x := by
      refine List.ext_getElem? fun i => ?_
      rw [List.getElem?_mapIdx, List.getElem?_mapIdx]
      refine Option.map_congr fun x hx => fragmentText_congr fun u hu => h _ u ?_
      rw [urls_attribute]
      exact getElem?_urlsBefore hx hu
    rw [callText_attribute, hfragments, callText_attribute]
  | .pragma _ => rfl
  | .snippet _ => rfl

/-! ## References -/

def Lexeme.word? : Lexeme → Option String
  | .word w => some w
  | _ => none

/-- The names that stand by themselves among lexemes. -/
def words (ls : List Lexeme) : List String := ls.filterMap Lexeme.word?

/-- The reserved names among lexemes. -/
def references (ls : List Lexeme) : List String := (words ls).filter isReserved

@[simp]
theorem references_nil : references [] = [] := rfl

@[simp]
theorem references_append (a b : List Lexeme) :
    references (a ++ b) = references a ++ references b := by
  rw [references, words, List.filterMap_append, List.filter_append]
  rfl

@[simp]
theorem references_member (w : String) (ls : List Lexeme) :
    references (.member w :: ls) = references ls := rfl

@[simp]
theorem references_literal (t : String) (ls : List Lexeme) :
    references (.literal t :: ls) = references ls := rfl

@[simp]
theorem references_mark (c : Char) (ls : List Lexeme) :
    references (.mark c :: ls) = references ls := rfl

theorem references_word {w : String} (hw : isReserved w = false) (ls : List Lexeme) :
    references (.word w :: ls) = references ls := List.filter_cons_of_neg (by simp [hw])

@[simp]
theorem references_number (k : Nat) (ls : List Lexeme) :
    references (.word k.repr :: ls) = references ls := references_word (isReserved_toString k) ls

theorem references_urlLocal (k : Nat) : references [.word (urlLocal k)] = [urlLocal k] :=
  List.filter_cons_of_pos (isReserved_urlLocal k)

theorem references_applied {f : String} (hf : isReserved f = false) (args : List Lexeme) :
    references (applied f args) = references args := by
  simp [applied, references_word hf]

@[simp]
theorem references_invoked (m : String) (args : List Lexeme) :
    references (invoked m args) = references args := by
  have hself : isReserved "self" = false := by decide
  simp [invoked, references_word hself]

@[simp]
theorem references_listed (args : List (List Lexeme)) :
    references (listed args) = args.flatMap references :=
  flatMap_listed references_nil references_append rfl args

@[simp]
theorem references_placed (p : Placed) : references (placedLexemes p) = [] := by
  simp [placedLexemes]

theorem references_expr (url : String → List Lexeme) (e : Expr) :
    references (exprLexemes url e) = e.url?.toList.flatMap fun u => references (url u) := by
  induction e with
  | bool b => cases b <;> rfl
  | raw e ih => exact (references_applied (by decide) _).trans ih
  | encode e ih => exact (references_applied (by decide) _).trans ih
  | url p =>
    rw [exprLexemes, references_applied (by decide)]
    simp [Expr.url?]
  | _ => rfl

theorem references_fragment (url : String → List Lexeme) (f : Fragment) :
    references (fragmentLexemes url f) = f.url?.toList.flatMap fun u => references (url u) := by
  cases f with
  | literal lead value =>
    rw [fragmentLexemes, references_applied (by decide)]
    simp [Fragment.url?, Fragment.expr?]
  | dynamic lead e position =>
    rw [fragmentLexemes, references_applied (by decide)]
    simp [Fragment.url?, Fragment.expr?, references_expr]

theorem references_fragments (url : Nat → String → List Lexeme) (fs : List Fragment) :
    references (fragmentsLexemes url fs) =
      ((fs.filterMap Fragment.url?).mapIdx fun k u => references (url k u)).flatten := by
  rw [fragmentsLexemes, references_listed]
  induction fs generalizing url with
  | nil => rfl
  | cons f fs ih =>
    rw [List.mapIdx_cons, List.flatMap_cons, references_fragment, urlsBefore_zero]
    -- The URLs of the rest are numbered behind the first fragment's.
    simp only [urlsBefore_cons_succ]
    rw [ih fun k => url (f.url?.toList.length + k)]
    cases hf : f.url? with
    | none =>
      rw [List.filterMap_cons_none hf]
      simp
    | some u =>
      rw [List.filterMap_cons_some hf, List.mapIdx_cons, List.flatten_cons]
      simp [Nat.add_comm]

/-- The reserved names in a call are those of its URLs, from left to right. -/
theorem references_call (n : ClassNames) (url : Nat → String → List Lexeme) (s : Statement) :
    references (callLexemes n url s) = (s.urls.mapIdx fun k u => references (url k u)).flatten := by
  match s with
  | .literal t _ => simp [callLexemes, Statement.urls, Statement.exprs]
  | .write e position =>
    rw [callLexemes, urls_write, references_append, references_invoked, references_expr]
    cases e.url? <;> simp
  | .attribute w =>
    rw [callLexemes, urls_attribute, references_append, references_invoked, references_listed]
    simp [tupled, references_fragments]
  | .pragma _ => rfl
  | .snippet _ => rfl

/-! ## The law -/

theorem references_locals (n : ClassNames) (s : Statement) :
    references (callLexemes n (fun k _ => [.word (urlLocal k)]) s) =
      (List.range s.urls.length).map urlLocal := by
  rw [references_call, mapIdx_range fun k => references [.word (urlLocal k)]]
  simp only [references_urlLocal, ← List.flatMap_def]
  exact List.map_eq_flatMap.symm

/-- With every local replaced by what it is bound to, the URLs are resolved where they stand. -/
theorem inlined_locals (n : ClassNames) (s : Statement) :
    inlined (bound? n s) (callLexemes n (fun k _ => [.word (urlLocal k)]) s) =
      (callText n (fun _ u => resolving n u) s).toList := by
  -- Off the statement's own URLs a local stays as it is, which `callText_congr` never asks about.
  have hlocal : ∀ (k : Nat) (_ : String), inlined (bound? n s) [.word (urlLocal k)] =
      ((bound? n s (urlLocal k)).getD (urlLocal k)).toList := fun _ _ => List.append_nil _
  rw [inlined_call (reservedOnly_bound? n s) n hlocal]
  refine congrArg String.toList (callText_congr n fun k u hu => ?_)
  rw [bound?_urlLocal, hu]
  rfl

/-- A call stands alone if its statement has no URLs. Otherwise a block binds locals first, all of
them different, numbered from left to right, to expressions without reserved names. In the call the
locals stand once each, in their order and with no other reserved name beside them; and with what
they are bound to in their place it is the call that resolves its URLs where they stand. -/
theorem statementLines_hoist {n : ClassNames} (hn : MethodWords n) {s : Statement} (hs : s.IsCall) :
    (statementLines n s =
      if s.urls = [] then [callText n (fun k _ => urlLocal k) s]
      else "\x7b" :: (bindings n s).map (fun b => "    let " ++ b.1 ++ " = " ++ b.2 ++ ";") ++
        ["    " ++ callText n (fun k _ => urlLocal k) s, "\x7d"]) ∧
    (bindings n s).map Prod.fst = (List.range s.urls.length).map urlLocal ∧
    ((bindings n s).map Prod.fst).Nodup ∧
    (∀ b ∈ bindings n s, ∃ es, lexemes? b.2.toList = some es ∧ references es = []) ∧
    ∃ ls, lexemes? (callText n (fun k _ => urlLocal k) s).toList = some ls ∧
      references ls = (bindings n s).map Prod.fst ∧
      inlined (bound? n s) ls = (callText n (fun _ u => resolving n u) s).toList := by
  have hlexed := lexed_call hn (fun k _ => lexed_urlLocal k) s
  refine ⟨statementLines_of_isCall n hs, locals_bindings n s, ?_, ?_, _, hlexed.lexemes?, ?_,
    inlined_locals n s⟩
  · rw [locals_bindings]
    exact List.nodup_range.map urlLocal_injective
  · intro b hb
    obtain ⟨k, hk, rfl⟩ := List.mem_mapIdx.1 hb
    exact ⟨_, (lexed_resolving hn s.urls[k]).lexemes?, references_invoked _ _⟩
  · rw [references_locals, locals_bindings]

/-- An attribute with two URLs, and a text between them that looks like a local. -/
def twoUrls : Statement :=
  .attribute ⟨"href", ⟨" href=\"", 2⟩, ⟨"\"", 60⟩,
    [.dynamic ⟨"", 9⟩ (.raw (.url "~/a")) 9, .literal ⟨" ", 18⟩ ⟨"&__url0", 19⟩,
      .dynamic ⟨" ", 26⟩ (.encode (.raw (.url "~/b"))) 27]⟩

theorem statementLines_twoUrls :
    MethodWords {} ∧ twoUrls.IsCall ∧ twoUrls.urls = ["~/a", "~/b"] ∧
      ∃ ls, lexemes? (callText {} (fun k _ => urlLocal k) twoUrls).toList = some ls ∧
        references ls = ["__url0", "__url1"] ∧
        inlined (bound? {} twoUrls) ls =
          (callText {} (fun _ u => resolving {} u) twoUrls).toList := by
  obtain ⟨-, hlocals, -, -, ls, hread, hreferences, hinlined⟩ :=
    statementLines_hoist methodWords_default (s := twoUrls) trivial
  exact ⟨methodWords_default, trivial, rfl, ls, hread,
    hreferences.trans (hlocals.trans (by decide)), hinlined⟩

end Sigil.Code
