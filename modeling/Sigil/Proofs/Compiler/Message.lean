import Sigil.Compiler.Message
import Sigil.Proofs.Json.Record

/-!
# Messages as they are written

Which members of an object give the text, the level, the code and the spans of a message
(`Record.read?_eq_some_iff`). The code and the spans may be missing, and a span or a code record may
be an array of its fields in their order.
-/

namespace Sigil.Compiler

open Json Written

/-- A span is written as an object, or as an array of its fields. -/
inductive WritesSpan : Written → Span → Prop where
  | object {ms : List (Option String × Written)} {n k : Numeral} {p : Span} : Spelled ms →
      Once ms "file_name" (.str (some p.file)) →
      Once ms "line_start" (.num n) → n.number? = some (.whole p.line) →
      Once ms "column_start" (.num k) → k.number? = some (.whole p.column) →
      Lacks ms "is_primary" ∧ p.primary = false ∨ Once ms "is_primary" (.bool p.primary) →
      WritesSpan (.obj ms) p
  | row {n k : Numeral} {rest : List Written} {p : Span} : n.number? = some (.whole p.line) →
      k.number? = some (.whole p.column) →
      rest = [] ∧ p.primary = false ∨ rest = [.bool p.primary] →
      WritesSpan (.arr (.str (some p.file) :: .num n :: .num k :: rest)) p

/-- What a code record says. -/
inductive WritesCode : Written → Option String → Prop where
  | null : WritesCode .null none
  | object {ms : List (Option String × Written)} {c : String} : Spelled ms →
      Once ms "code" (.str (some c)) → WritesCode (.obj ms) (some c)
  | row {c : String} : WritesCode (.arr [.str (some c)]) (some c)

/-- The members of an object write a message. -/
structure WritesRecord (ms : List (Option String × Written)) (x : Record) : Prop where
  spelled : Spelled ms
  message : Once ms "message" (.str (some x.message))
  level : Once ms "level" (.str (some x.level))
  code : Lacks ms "code" ∧ x.code = none ∨ ∃ w, Once ms "code" w ∧ WritesCode w x.code
  spans : Lacks ms "spans" ∧ x.spans = [] ∨
    ∃ ws, Once ms "spans" (.arr ws) ∧ List.Forall₂ WritesSpan ws x.spans

section

variable {ms : List (Option String × Written)} {key : String} {v : Option Written} {w : Written}

/-- A field that need not be written is the one that is, or the default. -/
theorem exists_optional_iff {α : Type} {read : Written → Option α} {otherwise a : α} :
    (∃ v, Gives ms key v ∧ optional read otherwise v = some a) ↔
      Lacks ms key ∧ a = otherwise ∨ ∃ w, Once ms key w ∧ read w = some a := by
  constructor
  · rintro ⟨_, hlacks | honce, ha⟩
    · exact .inl ⟨hlacks, (Option.some.inj ha).symm⟩
    · exact .inr ⟨_, honce, ha⟩
  · rintro (⟨hlacks, rfl⟩ | ⟨w, honce, ha⟩)
    · exact ⟨none, .missing hlacks, rfl⟩
    · exact ⟨some w, .written honce, ha⟩

/-- The bool of a span may be missing. -/
theorem exists_primary_iff {b : Bool} :
    (∃ v, Gives ms key v ∧ optional Written.bool? false v = some b) ↔
      Lacks ms key ∧ b = false ∨ Once ms key (.bool b) := by
  rw [exists_optional_iff]
  simp only [bool?_eq_some_iff, exists_eq_right]

theorem Span.read?_of_fields {p : Span} {file line column : Written} {primary : Option Written}
    (h : w.fields? ["file_name", "line_start", "column_start", "is_primary"] =
      some [some file, some line, some column, primary]) :
    Span.read? w = some p ↔ file = .str (some p.file) ∧
      (∃ n, line = .num n ∧ n.number? = some (.whole p.line)) ∧
      (∃ k, column = .num k ∧ k.number? = some (.whole p.column)) ∧
      optional Written.bool? false primary = some p.primary := by
  simp only [Span.read?, h, Option.bind_eq_bind, Option.bind_some, Option.bind_eq_some_iff,
    text?_eq_some_iff, nat?_eq_some_iff]
  constructor
  · rintro ⟨s, hfile, k, hline, l, hcolumn, b, hprimary, he⟩
    cases he
    exact ⟨hfile, hline, hcolumn, hprimary⟩
  · rintro ⟨hfile, hline, hcolumn, hprimary⟩
    exact ⟨_, hfile, _, hline, _, hcolumn, _, hprimary, rfl⟩

theorem Span.read?_obj_eq_some_iff {p : Span} :
    Span.read? (.obj ms) = some p ↔ WritesSpan (.obj ms) p := by
  constructor
  · intro h
    obtain ⟨vs, hvs, hread⟩ := Option.bind_eq_some_iff.1 h
    split at hread
    · rename_i file line column primary
      obtain ⟨hspelled, hgives⟩ := fields?_obj_eq_some_iff.1 hvs
      simp only [List.forall₂_cons, gives_some_iff, List.Forall₂.nil, and_true] at hgives
      obtain ⟨hfile, hline, hcolumn, hprimary⟩ := hgives
      obtain ⟨rfl, ⟨n, rfl, hn⟩, ⟨k, rfl, hk⟩, hb⟩ := (read?_of_fields hvs).1 h
      exact .object hspelled hfile hline hn hcolumn hk (exists_primary_iff.1 ⟨_, hprimary, hb⟩)
    · cases hread
  · rintro ⟨hspelled, hfile, hline, hn, hcolumn, hk, hprimary⟩
    obtain ⟨v, hv, hb⟩ := exists_primary_iff.2 hprimary
    have hfields := fields?_obj_eq_some_iff.2 ⟨hspelled, .cons (.written hfile)
      (.cons (.written hline) (.cons (.written hcolumn) (.cons hv .nil)))⟩
    exact (read?_of_fields hfields).2 ⟨rfl, ⟨_, rfl, hn⟩, ⟨_, rfl, hk⟩, hb⟩

theorem Span.read?_row_eq_some_iff {p : Span} {file line column : Written} {rest : List Written} :
    Span.read? (.arr (file :: line :: column :: rest)) = some p ↔
      WritesSpan (.arr (file :: line :: column :: rest)) p := by
  have hrow : WritesSpan (.arr (file :: line :: column :: rest)) p ↔
      file = .str (some p.file) ∧
      (∃ n, line = .num n ∧ n.number? = some (.whole p.line)) ∧
      (∃ k, column = .num k ∧ k.number? = some (.whole p.column)) ∧
      (rest = [] ∧ p.primary = false ∨ rest = [.bool p.primary]) := by
    constructor
    · intro h
      cases h with
      | row hn hk hrest => exact ⟨rfl, ⟨_, rfl, hn⟩, ⟨_, rfl, hk⟩, hrest⟩
    · rintro ⟨rfl, ⟨n, rfl, hn⟩, ⟨k, rfl, hk⟩, hrest⟩
      exact .row hn hk hrest
  rw [hrow]
  match rest with
  | [] =>
    have hfields : fields? ["file_name", "line_start", "column_start", "is_primary"]
        (.arr [file, line, column]) = some [some file, some line, some column, none] := rfl
    have hfalse : optional Written.bool? false none = some p.primary ↔ p.primary = false := by
      rw [optional, Option.some.injEq, eq_comm]
    rw [read?_of_fields hfields, hfalse]
    simp
  | [primary] =>
    have hfields : fields? ["file_name", "line_start", "column_start", "is_primary"]
        (.arr [file, line, column, primary]) =
          some [some file, some line, some column, some primary] := rfl
    rw [read?_of_fields hfields]
    simp [optional, bool?_eq_some_iff]
  | primary :: other :: rest =>
    have hlong : fields? ["file_name", "line_start", "column_start", "is_primary"]
        (.arr (file :: line :: column :: primary :: other :: rest)) = none := by
      rw [fields?, if_neg (by simp)]
    refine iff_of_false (fun h => ?_) (by simp)
    rw [Span.read?, hlong] at h
    cases h

theorem Span.read?_eq_some_iff {p : Span} : Span.read? w = some p ↔ WritesSpan w p := by
  cases w with
  | obj ms => exact read?_obj_eq_some_iff
  | arr xs =>
    match xs with
    | [] | [_] | [_, _] =>
      refine iff_of_false (fun h => ?_) (fun h => by cases h)
      cases h
    | file :: line :: column :: rest => exact read?_row_eq_some_iff
  | null | bool | num | str =>
    refine iff_of_false (fun h => ?_) (fun h => by cases h)
    cases h

theorem readCode?_eq_some_iff {code : Option String} :
    readCode? w = some code ↔ WritesCode w code := by
  constructor
  · intro h
    unfold readCode? at h
    split at h
    · cases h
      exact .null
    · obtain ⟨vs, hvs, h⟩ := Option.bind_eq_some_iff.1 h
      split at h
      · obtain ⟨c, hc, h⟩ := Option.bind_eq_some_iff.1 h
        cases h
        obtain rfl := text?_eq_some_iff.1 hc
        cases w with
        | obj ms =>
          obtain ⟨hspelled, hgives⟩ := fields?_obj_eq_some_iff.1 hvs
          simp only [List.forall₂_cons, gives_some_iff, List.Forall₂.nil, and_true] at hgives
          exact .object hspelled hgives
        | arr xs =>
          match xs with
          | [] => cases hvs
          | [_] =>
            cases hvs
            exact .row
          | _ :: _ :: _ =>
            rw [fields?, if_neg (by simp)] at hvs
            cases hvs
        | null | bool | num | str => cases hvs
      · cases h
  · rintro (_ | ⟨hspelled, hcode⟩ | _)
    · rfl
    · have hfields := fields?_obj_eq_some_iff.2 ⟨hspelled, .cons (.written hcode) .nil⟩
      simp only [readCode?, hfields]
      rfl
    · rfl

theorem exists_spans_iff {ps : List Span} :
    (∃ v, Gives ms key v ∧
      optional (fun w => do (← w.items?).mapM Span.read?) [] v = some ps) ↔
      Lacks ms key ∧ ps = [] ∨
        ∃ ws, Once ms key (.arr ws) ∧ List.Forall₂ WritesSpan ws ps := by
  rw [exists_optional_iff]
  refine or_congr Iff.rfl ⟨?_, ?_⟩
  · rintro ⟨w, hw, hps⟩
    obtain ⟨ws, hws, hps⟩ := Option.bind_eq_some_iff.1 hps
    obtain rfl := items?_eq_some_iff.1 hws
    exact ⟨ws, hw, (mapM_eq_some_iff fun _ _ => Span.read?_eq_some_iff).1 hps⟩
  · rintro ⟨ws, hws, hps⟩
    exact ⟨_, hws, (mapM_eq_some_iff fun _ _ => Span.read?_eq_some_iff).2 hps⟩

theorem Record.read?_eq_some_iff {x : Record} :
    Record.read? (.obj ms) = some x ↔ WritesRecord ms x := by
  constructor
  · intro h
    obtain ⟨vs, hvs, h⟩ := Option.bind_eq_some_iff.1 h
    split at h
    · obtain ⟨hspelled, hgives⟩ := fields?_obj_eq_some_iff.1 hvs
      simp only [List.forall₂_cons, gives_some_iff, List.Forall₂.nil, and_true] at hgives
      obtain ⟨hmessage, hlevel, hcode, hspans⟩ := hgives
      simp only [Option.bind_eq_bind, Option.bind_eq_some_iff, text?_eq_some_iff] at h
      obtain ⟨s, rfl, l, rfl, c, hc, ps, hps, h⟩ := h
      cases h
      have hcode := exists_optional_iff.1 ⟨_, hcode, hc⟩
      simp only [readCode?_eq_some_iff] at hcode
      exact ⟨hspelled, hmessage, hlevel, hcode, exists_spans_iff.1 ⟨_, hspans, hps⟩⟩
    · cases h
  · rintro ⟨hspelled, hmessage, hlevel, hcode, hspans⟩
    simp only [← readCode?_eq_some_iff] at hcode
    obtain ⟨code, hcode, hc⟩ := exists_optional_iff.2 hcode
    obtain ⟨spans, hspans, hps⟩ := exists_spans_iff.2 hspans
    have hfields := fields?_obj_eq_some_iff.2 ⟨hspelled, .cons (.written hmessage)
      (.cons (.written hlevel) (.cons hcode (.cons hspans .nil)))⟩
    simp only [Option.bind_eq_bind] at hps
    simp only [Record.read?, hfields, text?, hc, hps, Option.bind_eq_bind, Option.bind_some,
      Option.pure_def]

end

end Sigil.Compiler
