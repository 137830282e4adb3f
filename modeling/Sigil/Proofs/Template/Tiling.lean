import Mathlib
import Sigil.Proofs.Template.Draft
import Sigil.Proofs.Text.Position

/-!
# The statements of a template tile it

`Tiled src gap p ss`: the prefix `p` of the template is the texts of the statements `ss`, one
behind the other, with nothing between them but what `gap` allows. Each move of the scan tiles
the text that it passes, so the statements of a template tile the template
(`tiled_scanned`). Where spans start and end, and on which lines, is read off the tiling.
-/

namespace Sigil.Template

open Text Cursor Relation

/-! ## Spans and lines of statements -/

namespace Statement

/-- The bytes of the template that a statement takes: a literal its text, an attribute all of it,
a directive its `@`. -/
def span? : Statement → Option (Nat × Nat)
  | .literal text position => some (position, position + byteLength text.toList)
  | .write _ position => some (position, position + 1)
  | .attribute w =>
    some (w.opening.position, w.closing.position + byteLength w.closing.text.toList)
  | .pragma _ => none
  | .snippet _ => none

def line? : Statement → Option Nat
  | .pragma (.line line _) => some line
  | _ => none

end Statement

/-- A statement with the pragma for the line of an offset in front, and the closing one behind. -/
def framed (src : Source) (offset : Nat) (s : Statement) : List Statement :=
  [.pragma (.line (lineColumn src.text offset).1 src.file), s, .pragma .hidden]

/-- The statements `ss` tile the prefix `p` of the template, with gaps between them. -/
inductive Tiled (src : Source) (gap : List Char → List Char → Prop) :
    List Char → List Statement → Prop where
  | start : Tiled src gap [] []
  | literal {p t : List Char} {ss : List Statement} : Tiled src gap p ss → t ≠ [] →
      Tiled src gap (p ++ t) (ss ++ [.literal (String.ofList t) (byteLength p)])
  | write {p t : List Char} {ss : List Statement} {x : Expr} : Tiled src gap p ss →
      WritesAlone ('@' :: t) x →
      Tiled src gap (p ++ '@' :: t) (ss ++ framed src (byteLength p) (.write x (byteLength p)))
  | quoted {p t : List Char} {ss : List Statement} {w : AttributeWrite} {n : Nat} :
      Tiled src gap p ss → t ≠ [] → w.opening.position = byteLength p →
      w.closing.position + byteLength w.closing.text.toList = byteLength (p ++ t) →
      byteLength p ≤ n → n ≤ byteLength (p ++ t) →
      Tiled src gap (p ++ t) (ss ++ framed src n (.attribute w))
  /-- Text that no statement takes. -/
  | skip {p t : List Char} {ss : List Statement} : Tiled src gap p ss → gap p t →
      Tiled src gap (p ++ t) ss

/-- The first `@` of two. -/
def Escape (src : Source) (p t : List Char) : Prop :=
  t = ['@'] ∧ ∃ r, src.text = p ++ '@' :: '@' :: r

/-! ## What a tiling says -/

section

variable {src : Source} {gap : List Char → List Char → Prop} {p : List Char} {ss : List Statement}

theorem Tiled.slice (h : Tiled src gap p ss) {text : String} {position : Nat}
    (hs : .literal text position ∈ ss) :
    text ≠ "" ∧ ∃ u v, p = u ++ text.toList ++ v ∧ byteLength u = position := by
  induction h with
  | start => cases hs
  | @literal p t ss h ht ih =>
    rcases List.mem_append.1 hs with hs | hs
    · obtain ⟨hne, u, v, hp, hu⟩ := ih hs
      exact ⟨hne, u, v ++ t, by rw [hp, List.append_assoc], hu⟩
    · simp only [List.mem_singleton, Statement.literal.injEq] at hs
      obtain ⟨rfl, rfl⟩ := hs
      exact ⟨by simpa using ht, p, [], by simp, rfl⟩
  | @write p t ss x h _ ih =>
    rcases List.mem_append.1 hs with hs | hs
    · obtain ⟨hne, u, v, hp, hu⟩ := ih hs
      exact ⟨hne, u, v ++ '@' :: t, by rw [hp, List.append_assoc], hu⟩
    · simp [framed] at hs
  | @quoted p t ss w n h _ _ _ _ _ ih =>
    rcases List.mem_append.1 hs with hs | hs
    · obtain ⟨hne, u, v, hp, hu⟩ := ih hs
      exact ⟨hne, u, v ++ t, by rw [hp, List.append_assoc], hu⟩
    · simp [framed] at hs
  | @skip p t ss h _ ih =>
    obtain ⟨hne, u, v, hp, hu⟩ := ih hs
    exact ⟨hne, u, v ++ t, by rw [hp, List.append_assoc], hu⟩

/-- Spans in order, each with at least one byte and none beyond `bound`. -/
def Ordered (spans : List (Nat × Nat)) (bound : Nat) : Prop :=
  spans.Pairwise (·.2 ≤ ·.1) ∧ ∀ s ∈ spans, s.1 < s.2 ∧ s.2 ≤ bound

theorem Ordered.snoc {spans : List (Nat × Nat)} {a b c : Nat} (h : Ordered spans a) (hab : a < b)
    (hbc : b ≤ c) : Ordered (spans ++ [(a, b)]) c := by
  refine ⟨List.pairwise_append.2 ⟨h.1, List.pairwise_singleton _ _, ?_⟩, ?_⟩
  · intro s hs t ht
    rw [List.mem_singleton.1 ht]
    exact (h.2 s hs).2
  · intro s hs
    rcases List.mem_append.1 hs with hs | hs
    · have := h.2 s hs
      omega
    · rw [List.mem_singleton.1 hs]
      exact ⟨hab, hbc⟩

theorem Ordered.mono {spans : List (Nat × Nat)} {a b : Nat} (h : Ordered spans a) (hab : a ≤ b) :
    Ordered spans b :=
  ⟨h.1, fun s hs => ⟨(h.2 s hs).1, Nat.le_trans (h.2 s hs).2 hab⟩⟩

theorem Tiled.ordered (h : Tiled src gap p ss) :
    Ordered (ss.filterMap Statement.span?) (byteLength p) := by
  induction h with
  | start => exact ⟨List.Pairwise.nil, by simp⟩
  | @literal p t ss h ht ih =>
    have := byteLength_pos ht
    rw [List.filterMap_append, byteLength_append]
    exact ih.snoc (by simp only [String.toList_ofList]; omega) (by simp)
  | @write p t ss x h _ ih =>
    rw [List.filterMap_append, byteLength_append]
    exact ih.snoc (Nat.lt_succ_self _) (by simp [Char.utf8Size])
  | @quoted p t ss w n h ht ho hc _ _ ih =>
    have := byteLength_pos ht
    have hb := byteLength_append p t
    rw [List.filterMap_append, ← hc]
    have hw : (framed src n (.attribute w)).filterMap Statement.span? =
        [(byteLength p, w.closing.position + byteLength w.closing.text.toList)] := by
      rw [← ho]
      rfl
    rw [hw]
    exact ih.snoc (by omega) (Nat.le_refl _)
  | @skip p t ss h _ ih =>
    refine ih.mono ?_
    rw [byteLength_append]
    omega

/-- Lines that never decrease, none behind `bound`. -/
def Rising (lines : List Nat) (bound : Nat) : Prop :=
  lines.Pairwise (· ≤ ·) ∧ ∀ l ∈ lines, l ≤ bound

theorem Rising.mono {lines : List Nat} {a b : Nat} (h : Rising lines a) (hab : a ≤ b) :
    Rising lines b :=
  ⟨h.1, fun l hl => Nat.le_trans (h.2 l hl) hab⟩

theorem Rising.snoc {lines : List Nat} {a l b : Nat} (h : Rising lines a) (hal : a ≤ l)
    (hlb : l ≤ b) : Rising (lines ++ [l]) b := by
  refine ⟨List.pairwise_append.2 ⟨h.1, List.pairwise_singleton _ _, ?_⟩, ?_⟩
  · intro m hm n hn
    rw [List.mem_singleton.1 hn]
    exact Nat.le_trans (h.2 m hm) hal
  · intro m hm
    rcases List.mem_append.1 hm with hm | hm
    · have := h.2 m hm
      omega
    · rwa [List.mem_singleton.1 hm]

theorem lines_framed {s : Statement} (hs : s.line? = none) (n : Nat) :
    (framed src n s).filterMap Statement.line? = [(lineColumn src.text n).1] := by
  rw [framed, List.filterMap_cons_some (f := Statement.line?) rfl, List.filterMap_cons_none hs]
  rfl

theorem Tiled.rising (h : Tiled src gap p ss) :
    Rising (ss.filterMap Statement.line?) (lineColumn src.text (byteLength p)).1 := by
  have later : ∀ p t : List Char,
      (lineColumn src.text (byteLength p)).1 ≤ (lineColumn src.text (byteLength (p ++ t))).1 :=
    fun p t => line_mono (byteLength_mono (List.prefix_append p t)) src.text
  induction h with
  | start => exact ⟨List.Pairwise.nil, by simp⟩
  | @literal p t ss h ht ih =>
    rw [List.filterMap_append, List.filterMap_cons_none rfl, List.filterMap_nil, List.append_nil]
    exact ih.mono (later p t)
  | @write p t ss x h _ ih =>
    rw [List.filterMap_append, lines_framed rfl]
    exact ih.snoc (Nat.le_refl _) (later p _)
  | @quoted p t ss w n h ht ho hc h₁ h₂ ih =>
    rw [List.filterMap_append, lines_framed rfl]
    exact ih.snoc (line_mono h₁ src.text) (line_mono h₂ src.text)
  | @skip p t ss h _ ih => exact ih.mono (later p t)

end

/-! ## The moves of the scan tile the template -/

section

variable {src : Source} {gap : List Char → List Char → Prop} {d e : Draft} {c t : Cursor}

/-- The statements so far tile the template up to the literal run that is not written yet. -/
structure Tiling (src : Source) (gap : List Char → List Char → Prop) (d : Draft) (c : Cursor)
    (p s : List Char) : Prop extends Located src d c p s where
  tiled : Tiled src gap p d.body

namespace Tiling

variable {p s : List Char}

theorem start (src : Source) (gap : List Char → List Char → Prop) :
    Tiling src gap (.start src.text) (.start src.text) [] [] :=
  ⟨.start src, .start⟩

theorem flush (h : Tiling src gap d c p s) : Tiled src gap (p ++ s) (d.flush c).body := by
  rcases h.body_flush with ⟨rfl, hb⟩ | ⟨hs, hb⟩
  · rw [List.append_nil, hb]
    exact h.tiled
  · rw [hb]
    exact h.tiled.literal hs

end Tiling

/-- A directive that is read in front of something else is the same directive alone. -/
theorem writesAlone_of_directive {at_ : Nat} {x : Expr} (hu : startsWith c.rest importWord = false)
    (h : directive at_ c = .ok (x, t)) : ∃ s, Spans c s t ∧ WritesAlone ('@' :: s) x := by
  obtain ⟨y, s, hs, hy, hx⟩ := yields_of_directive h
  have hi : startsWith (y :: s) importWord = false := by
    rw [startsWith, Option.isSome_eq_false_iff, Option.isNone_iff_eq_none] at hu ⊢
    cases ha : after? importWord (y :: s) with
    | none => rfl
    | some u =>
      have := after?_eq_some_iff.1 ha
      have hc : c.rest = importWord ++ (u ++ t.rest) := by
        rw [hs.rest, this, List.append_assoc]
      rw [after?_eq_some_iff.2 hc] at hu
      cases hu
  exact ⟨y :: s, hs, writesAlone_of_yields hy hi hx⟩

/-- A move tiles what it passes, if what it leaves out is allowed as a gap. -/
theorem Tiling.move (h : ∃ p s, Tiling src gap d c p s) (hm : Move src (d, c) (e, t))
    (hgap : ∀ {p s : List Char} {fs : List Fault} {is : List String}, Omits c t fs is →
      e.faults = d.faults ++ fs → Spans (.start src.text) p c → Spans c s t → gap p s) :
    ∃ p s, Tiling src gap e t p s := by
  obtain ⟨p, s, h⟩ := h
  cases hm with
  | keep hr => exact ⟨p, _, ⟨h.before, h.run.trans (Spans.next hr)⟩, h.tiled⟩
  | omits ho =>
    obtain ⟨u, hu⟩ := ho.spans
    exact ⟨p ++ s ++ u, [], ⟨h.spans.trans hu, Spans.refl t⟩, h.flush.skip (hgap ho rfl h.spans hu)⟩
  | @write _ _ _ x r hr hw hi hx =>
    have hn : c.next.rest = r := by simp [hr]
    obtain ⟨u, hu, hx⟩ := writesAlone_of_directive (hn ▸ hi) hx
    refine ⟨p ++ s ++ '@' :: u, [], ⟨h.spans.trans ((Spans.next hr).trans hu), Spans.refl t⟩, ?_⟩
    have := h.flush.write hx
    rwa [← h.offset] at this
  | refuse hr => exact ⟨p, _, ⟨h.before, h.run.trans (Spans.next hr)⟩, h.tiled⟩
  | @dynamic _ _ name nameEnd value close quote v ha hv hdyn =>
    obtain ⟨s₁, s₂, s₃, h₁, h₂, h₃, h₄⟩ := ha.spans_closed hv
    have hlast := h.spans.trans (h₁.trans (h₂.trans h₄))
    rw [Draft.attribute_dynamic hdyn]
    refine ⟨_, [], ⟨hlast, Spans.refl close.next⟩, h.flush.quoted ?_ h.offset ?_ ?_ ?_⟩
    · simp
    · rw [(h₃.trans h₄).placed, String.toList_ofList, ← (h₃.trans h₄).offset]
      exact hlast.offset_start
    · rw [← h.offset, h₁.offset]
      omega
    · have := hlast.offset
      rw [(h₂.trans h₄).offset] at this
      have hz : (Cursor.start src.text).offset = 0 := rfl
      omega
  | abandon => exact ⟨p, _, ⟨h.before, h.run.trans (Spans.toEnd c)⟩, h.tiled⟩

/-- A run from the beginning tiles what it passes. -/
theorem Tiling.moves (hm : Moves src (.start src.text, .start src.text) (e, t))
    (hgap : ∀ {a b : Cursor} {p s : List Char} {fs : List Fault} {is : List String},
      Omits a b fs is → (e.faults = [] → fs = []) → Spans (.start src.text) p a →
      Spans a s b → gap p s) :
    ∃ p s, Tiling src gap e t p s := by
  generalize hy : (e, t) = y at hm
  induction hm generalizing e t with
  | refl =>
    cases hy
    exact ⟨[], [], .start src gap⟩
  | @tail x y _ hlast ih =>
    obtain ⟨d, c⟩ := x
    subst hy
    obtain ⟨fs', hfs'⟩ := faults_of_move hlast
    have before : ∃ p s, Tiling src gap d c p s := by
      refine ih (fun ho hf => hgap ho fun he => hf ?_) rfl
      rw [he] at hfs'
      exact (List.append_eq_nil_iff.1 hfs'.symm).1
    refine Tiling.move before hlast fun ho hf => hgap ho fun he => ?_
    rw [he] at hf
    exact (List.append_eq_nil_iff.1 hf.symm).2

theorem tiled_scanned (src : Source) (gap : List Char → List Char → Prop)
    (hgap : ∀ {a b : Cursor} {p s : List Char} {fs : List Fault} {is : List String},
      Omits a b fs is → ((scanned src).faults = [] → fs = []) → Spans (.start src.text) p a →
      Spans a s b → gap p s) :
    Tiled src gap src.text (scanned src).body := by
  obtain ⟨e, t, hm, ht, he⟩ := moves_of_start src
  rw [he] at hgap ⊢
  obtain ⟨p, s, h⟩ := Tiling.moves hm hgap
  have htext := h.text_eq
  rw [ht, List.append_nil] at htext
  rw [htext]
  exact h.flush

end

/-- What is left out without a fault is a comment, an import or the first `@` of two. -/
theorem Omits.escape_of_clean {src : Source} {a b : Cursor} {p s : List Char} {is : List String}
    (h : Omits a b [] is) (hp : Spans (.start src.text) p a) (hs : Spans a s b)
    (hcomment : ¬ (['@', '*'] <:+: src.text)) (himport : ¬ ('@' :: importWord <:+: src.text)) :
    Escape src p s := by
  have inside : ∀ {u v : List Char}, a.rest = u ++ v → u <:+: src.text := by
    intro u v huv
    have htext : src.text = p ++ a.rest := hp.rest
    exact ⟨p, v, by rw [htext, huv, List.append_assoc]⟩
  cases h with
  | @escape r hr =>
    refine ⟨hs.between.symm.trans (Spans.next hr).between, r, ?_⟩
    rw [← hr]
    exact hp.rest
  | comment h => exact absurd (inside (u := ['@', '*']) h.rest) hcomment
  | namedImport h =>
    have hr := h.rest
    rw [List.cons_append, List.append_assoc, ← List.cons_append] at hr
    exact absurd (inside hr) himport

/-- No markup is lost, written twice or moved. -/
theorem body_tiles (src : Source) (names : ClassNames) :
    (∀ text position,
      .literal text position ∈ (src.parse names).tree.body names.execute →
      text ≠ "" ∧ ∃ u v, src.text = u ++ text.toList ++ v ∧ byteLength u = position) ∧
    Ordered (((src.parse names).tree.body names.execute).filterMap Statement.span?)
      (byteLength src.text) ∧
    (((src.parse names).tree.body names.execute).filterMap Statement.line?).Pairwise (· ≤ ·) ∧
    ((src.parse names).diagnostics = [] → ¬ (['@', '*'] <:+: src.text) →
      ¬ ('@' :: importWord <:+: src.text) →
      Tiled src (Escape src) src.text ((src.parse names).tree.body names.execute)) := by
  rw [body_parse, diagnostics_parse_eq_nil]
  have h := tiled_scanned src (fun _ _ => True) fun _ _ _ _ => trivial
  refine ⟨fun text position hs => h.slice hs, h.ordered, h.rising.1, fun hd hc hi => ?_⟩
  refine tiled_scanned src (Escape src) fun ho hf hp hs => ?_
  rw [hf hd] at ho
  exact ho.escape_of_clean hp hs hc hi

/-- Markup with an escape and two directives. -/
def greeting : Source := ⟨"<p>@@ @x\n@y</p>".toList, "page"⟩

theorem scanned_greeting : (scanned greeting).faults = [] ∧ (scanned greeting).body =
    [.literal "<p>" 0, .literal "@ " 4, .pragma (.line 1 "page"), .write (.path "x") 6,
      .pragma .hidden, .literal "\n" 8, .pragma (.line 2 "page"), .write (.path "y") 9,
      .pragma .hidden, .literal "</p>" 11] :=
  ⟨by cbv, by cbv⟩

theorem directive_tiles :
    (greeting.parse {}).diagnostics = [] ∧ ¬ (['@', '*'] <:+: greeting.text) ∧
      ¬ ('@' :: importWord <:+: greeting.text) ∧
      Tiled greeting (Escape greeting) greeting.text
        [.literal "<p>" 0, .literal "@ " 4, .pragma (.line 1 "page"), .write (.path "x") 6,
          .pragma .hidden, .literal "\n" 8, .pragma (.line 2 "page"), .write (.path "y") 9,
          .pragma .hidden, .literal "</p>" 11] := by
  have hd := (diagnostics_parse_eq_nil greeting {}).2 scanned_greeting.1
  have hc : ¬ (['@', '*'] <:+: greeting.text) := by decide +kernel
  have hi : ¬ ('@' :: importWord <:+: greeting.text) := by decide +kernel
  have htiled := (body_tiles greeting {}).2.2.2 hd hc hi
  rw [body_parse, scanned_greeting.2] at htiled
  exact ⟨hd, hc, hi, htiled⟩

end Sigil.Template
