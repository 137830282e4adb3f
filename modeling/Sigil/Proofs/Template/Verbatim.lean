import Sigil.Proofs.Code.Unit
import Sigil.Proofs.Render.Literal

/-!
# Templates without an `@`

Only at an `@` does a move of the scan write something, leave something out or find a fault; in
front of other characters it makes the literal run longer (`move_of_notMem`). So a text without an
`@` is one literal, whatever tags and quotes it holds, and a unit of it renders as the text
(`parse_of_notMem`).
-/

namespace Sigil.Template

open Text Cursor Code

section

variable {src : Source} {d e : Draft} {c t : Cursor}

theorem readValue_of_notMem (quote : Char) (v : ValueDraft) (hc : '@' ∉ c.rest) :
    (readValue quote v c).1.faults = v.faults ∧
      (readValue quote v c).1.isDynamic = v.isDynamic := by
  fun_induction readValue quote v c with
  | case1 => exact ⟨rfl, rfl⟩
  | case2 => simp
  | case3 v c x r hr _ _ _ ih => simpa using ih (fun h => hc (by simp_all))
  | case8 v c x r hr _ _ _ hx ih => simpa using ih (fun h => hc (by simp_all))
  | case4 v c r _ hr => exact absurd (by simp [hr]) hc
  | case5 v c r _ _ hr => exact absurd (by simp [hr]) hc
  | case6 v c r _ _ y s hs _ hr => exact absurd (by simp [hr]) hc
  | case7 v c r _ _ f hf hr => exact absurd (by simp [hr]) hc

theorem at_mem_of_omits {fs : List Fault} {is : List String} (h : Omits c t fs is) :
    '@' ∈ c.rest := by
  cases h with
  | escape hr => simp [hr]
  | comment hs => simp [hs.rest]
  | openComment hr => simp [hr]
  | block hs => simp [hs.rest]
  | namedImport hs => simp [hs.rest]
  | emptyImport hs => simp [hs.rest]

/-- A move through text without an `@` changes nothing but the place. -/
theorem move_of_notMem (h : Move src (d, c) (e, t)) (hc : '@' ∉ c.rest) :
    e = d ∧ '@' ∉ t.rest := by
  obtain ⟨s, hs⟩ := spans_of_move h
  refine ⟨?_, fun ht => hc (hs.rest ▸ List.mem_append_right s ht)⟩
  cases h with
  | keep => rfl
  | omits ho => exact absurd (at_mem_of_omits ho) hc
  | write hr => exact absurd (by simp [hr]) hc
  | refuse hr => exact absurd (by simp [hr]) hc
  | @dynamic _ _ name nameEnd value close quote v ha hv hdyn =>
    obtain ⟨p, hp, -⟩ := ha.clear_next
    have hnot : '@' ∉ value.next.rest := fun h => hc (hp.rest ▸ List.mem_append_right p h)
    have hvalue := readValue_of_notMem quote (.start value.next) hnot
    rw [hv] at hvalue
    have hstatic : v.isDynamic = false := hvalue.2
    exact absurd (hdyn.symm.trans hstatic) (by decide)
  | @abandon _ _ quote v _ hv =>
    have hvalue := readValue_of_notMem quote (.start c) hc
    rw [hv] at hvalue
    have hnone : v.faults = [] := hvalue.1
    rw [hnone, List.append_nil]

/-- The draft of a text without an `@` is the first one, up to the end of the text. -/
theorem scanned_of_notMem (hsrc : '@' ∉ src.text) :
    ∃ t, Spans (.start src.text) src.text t ∧ scanned src = (Draft.start src.text).flush t := by
  obtain ⟨e, t, hm, ht, hscan⟩ := moves_of_start src
  have keeps := invariant_of_moves (fun d c => d = .start src.text ∧ '@' ∉ c.rest) hm
    (fun ⟨hd, hc⟩ hmove => by
      obtain ⟨he, ht⟩ := move_of_notMem hmove hc
      exact ⟨he.trans hd, ht⟩) ⟨rfl, hsrc⟩
  obtain ⟨p, s, hl⟩ := located_of_moves hm
  have hs : src.text = p ++ s := by
    have := hl.text_eq
    rwa [ht, List.append_nil] at this
  refine ⟨t, hs ▸ hl.spans, ?_⟩
  rw [hscan, keeps.1]

end

theorem scanned_verbatim {t : List Char} (ht : '@' ∉ t) (file : String) :
    (scanned ⟨t, file⟩).faults = [] ∧ (scanned ⟨t, file⟩).imports = [] ∧
      (scanned ⟨t, file⟩).body = if t = [] then [] else [.literal (String.ofList t) 0] := by
  have hsrc : '@' ∉ (⟨t, file⟩ : Source).text := ht
  obtain ⟨e, hs, he⟩ := scanned_of_notMem hsrc
  rw [he]
  refine ⟨rfl, rfl, ?_⟩
  rcases Draft.body_flush (d := .start t) hs with ⟨hnil, hb⟩ | ⟨hne, hb⟩
  · exact hb.trans (if_pos hnil).symm
  · exact hb.trans (if_neg hne).symm

theorem writesText_verbatim (t : List Char) :
    WritesText (if t = [] then [] else [.literal (String.ofList t) 0]) t := by
  split
  · rename_i ht
    exact ⟨by simp, ht ▸ rfl⟩
  · exact ⟨by simp [Statement.literal?], by simp [written, Statement.literal?]⟩

/-- A text without an `@` has no diagnostics and no imports of its own, and is one literal, or
nothing if it is empty. Its unit over any base type renders as the text in every scope. -/
theorem parse_of_notMem {t : List Char} (ht : '@' ∉ t) (file : String) (names : ClassNames) :
    let parsed := (⟨t, file⟩ : Source).parse names
    parsed.diagnostics = [] ∧ parsed.tree.imports = names.imports ∧
    parsed.tree.body names.execute =
      (if t = [] then [] else [.literal (String.ofList t) 0]) ∧
    ∀ (base : BaseType) (model : ModelType) (extra : Option String),
      base.source.mapM (renderSource names) = .ok extra →
      ∃ u, SourceUnit.of names parsed.tree base model = .ok u ∧
        ∀ s : Render.Scope, u.program.execute abiVersion s = .ok (String.ofList t) := by
  intro parsed
  obtain ⟨hfaults, himports, hscanned⟩ := scanned_verbatim ht file
  have hbody : parsed.tree.body names.execute =
      if t = [] then [] else [.literal (String.ofList t) 0] :=
    (body_parse ⟨t, file⟩ names).trans hscanned
  refine ⟨(diagnostics_parse_eq_nil ⟨t, file⟩ names).2 hfaults, ?_, hbody, ?_⟩
  · show names.imports.insertAll (scanned ⟨t, file⟩).imports = names.imports
    rw [himports]
    rfl
  · intro base model extra hextra
    have hu : SourceUnit.of names parsed.tree base model = .ok _ := of_eq hextra
    refine ⟨_, hu, fun s => ?_⟩
    rw [program_parse hu, hbody]
    exact Render.execute_literals (writesText_verbatim t) s

/-- Quotes and tags that never close are kept as they are. -/
theorem open_quotes_verbatim :
    let t := "<a b=\"x <p c='é> < & \n".toList
    let parsed := (⟨t, "page"⟩ : Source).parse {}
    '@' ∉ t ∧
    BaseType.modelFree.source.mapM (renderSource {}) = .ok none ∧
    parsed.diagnostics = [] ∧
    parsed.tree.body "execute" = [.literal "<a b=\"x <p c='é> < & \n" 0] ∧
    ∃ u, SourceUnit.of {} parsed.tree .modelFree .dynamic = .ok u ∧
      ∀ s : Render.Scope, u.program.execute abiVersion s = .ok "<a b=\"x <p c='é> < & \n" := by
  intro t parsed
  have ht : '@' ∉ t := by decide
  have hextra : BaseType.modelFree.source.mapM (renderSource {}) = .ok none := rfl
  obtain ⟨hd, -, hb, hu⟩ := parse_of_notMem ht "page" {}
  obtain ⟨u, hu, hrender⟩ := hu .modelFree .dynamic none hextra
  refine ⟨ht, hextra, hd, ?_, u, hu, ?_⟩
  · rw [hb, if_neg (by decide), String.ofList_toList]
  · intro s
    rw [hrender, String.ofList_toList]

end Sigil.Template
