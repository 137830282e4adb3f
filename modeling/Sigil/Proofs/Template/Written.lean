import Sigil.Proofs.Template.Standing

/-!
# Attributes that are written

The attributes of a body, by name and by where they start. The moves of the scan only add faults,
and attributes that start at the place of the move or behind (`Later`). A quoted value that the scan
is in writes its attribute when it is closed, and only if it has a directive (`InValue.writes`).
-/

namespace Sigil.Template

open Text Cursor Relation

/-! ## Attributes of a body -/

/-- The name of an attribute that is written, and where it starts. -/
def Statement.attribute? : Statement → Option (String × Nat)
  | .attribute w => some (w.name, w.opening.position)
  | _ => none

def attributesOf (body : List Statement) : List (String × Nat) :=
  body.filterMap Statement.attribute?

theorem attributesOf_append (a b : List Statement) :
    attributesOf (a ++ b) = attributesOf a ++ attributesOf b := List.filterMap_append

theorem attributesOf_flush (d : Draft) (c : Cursor) :
    attributesOf (d.flush c).body = attributesOf d.body := by
  simp only [Draft.flush]
  split
  · rfl
  · rw [attributesOf_append]
    exact List.append_nil _

theorem attributesOf_emit (d : Draft) (src : Source) (c : Cursor) (s : Statement) :
    attributesOf (d.emit src c s).body = attributesOf d.body ++ s.attribute?.toList := by
  rw [Draft.emit, attributesOf_append]
  cases s <;> rfl

theorem attributesOf_write (d : Draft) (src : Source) (c e : Cursor) (x : Expr) :
    attributesOf (d.write src c e x).body = attributesOf d.body := by
  have := attributesOf_emit (d.flush c) src c (.write x c.offset)
  rw [attributesOf_flush] at this
  exact this.trans (List.append_nil _)

section

variable {src : Source} {d e : Draft} {c t : Cursor}

theorem attributesOf_attribute {before name nameEnd opened quote : Cursor} {v : ValueDraft}
    (hv : v.isDynamic = true) :
    attributesOf (d.attribute src before name nameEnd opened quote v).body =
      attributesOf d.body ++ [(String.ofList (name.between nameEnd), before.offset)] := by
  rw [Draft.attribute_dynamic hv]
  have := attributesOf_emit (d.flush before) src name (.attribute
    { name := String.ofList (name.between nameEnd)
      opening := before.placed opened
      closing := v.gap.placed quote.next
      fragments := v.fragments })
  rw [attributesOf_flush] at this
  exact this

theorem attributesOf_of_move (h : Move src (d, c) (e, t)) :
    ∃ more, attributesOf e.body = attributesOf d.body ++ more ∧ ∀ a ∈ more, c.offset ≤ a.2 := by
  cases h with
  | keep | refuse | abandon => exact ⟨[], (List.append_nil _).symm, by simp⟩
  | omits =>
    refine ⟨[], ?_, by simp⟩
    rw [List.append_nil]
    exact attributesOf_flush d c
  | write =>
    refine ⟨[], ?_, by simp⟩
    rw [List.append_nil, attributesOf_write]
  | dynamic _ _ hv => exact ⟨_, attributesOf_attribute hv, by simp⟩

theorem attributesOf_of_moves {x y : Draft × Cursor} (h : Moves src x y) :
    ∃ more, attributesOf y.1.body = attributesOf x.1.body ++ more ∧
      ∀ a ∈ more, x.2.offset ≤ a.2 := by
  induction h using ReflTransGen.head_induction_on with
  | refl => exact ⟨[], (List.append_nil _).symm, by simp⟩
  | @head x z hmove _ ih =>
    obtain ⟨d, c⟩ := x
    obtain ⟨e, t⟩ := z
    obtain ⟨first, hfirst, hfrom⟩ := attributesOf_of_move hmove
    obtain ⟨more, hmore, hlater⟩ := ih
    obtain ⟨s, hs⟩ := spans_of_move hmove
    refine ⟨first ++ more, by rw [hmore, hfirst, List.append_assoc], fun a ha => ?_⟩
    rcases List.mem_append.1 ha with ha | ha
    · exact hfrom a ha
    · have := hlater a ha
      have := hs.offset
      simp only at *
      omega

theorem faults_of_moves {x y : Draft × Cursor} (h : Moves src x y) :
    ∃ fs, y.1.faults = x.1.faults ++ fs := by
  induction h with
  | refl => exact ⟨[], (List.append_nil _).symm⟩
  | @tail y z _ hmove ih =>
    obtain ⟨fs, hfs⟩ := ih
    obtain ⟨gs, hgs⟩ := faults_of_move (d := y.1) (c := y.2) (e := z.1) (t := z.2) hmove
    exact ⟨fs ++ gs, by rw [hgs, hfs, List.append_assoc]⟩

/-! ## What the scan still writes -/

/-- What the scan of the template gives from a place on: faults, and attributes that start there or
behind. -/
structure Later (src : Source) (d : Draft) (c : Cursor) : Prop where
  faults : ∃ fs, (scanned src).faults = d.faults ++ fs
  attributes : ∃ more, attributesOf (scanned src).body = attributesOf d.body ++ more ∧
    ∀ a ∈ more, c.offset ≤ a.2

theorem later_of_moves (hm : Moves src (d, c) (e, t)) (he : scanned src = e.flush t) :
    Later src d c := by
  obtain ⟨more, hmore, hlater⟩ := attributesOf_of_moves hm
  rw [← attributesOf_flush e t, ← he] at hmore
  exact ⟨he ▸ faults_of_moves hm, more, hmore, hlater⟩

theorem later_of_visits (h : Visits src d c) : Later src d c := by
  obtain ⟨e, t, hm, -, he⟩ := moves_of_visits h
  exact later_of_moves hm ((scanned_of_visits h).trans he)

theorem later_of_visitsTag (h : VisitsTag src d c) : Later src d c := by
  obtain ⟨e, t, hm, -, he⟩ := moves_of_visits (visits_of_visitsTag h)
  exact later_of_moves ((moves_attributes h).trans hm) ((scanned_of_visitsTag h).trans he)

end

/-! ## Values -/

section

variable {src : Source} {quote : Char} {d : Draft} {v w : ValueDraft} {c e : Cursor}
  {s k : List Char}

theorem InValue.closes (h : InValue src quote d v c) (hover : ReadsOver quote v c s w e)
    (he : e.rest = quote :: k) :
    ∃ before name nameEnd value, before.offset < c.offset ∧
      VisitsTag src (Draft.attribute d src before name nameEnd value e (w.close e)) e.next := by
  obtain ⟨before, name, nameEnd, value, hvisits, hhead, hreads, hlt⟩ := h.head
  rw [hover.read, readValue_close w he] at hreads
  refine ⟨before, name, nameEnd, value.next, hlt, ?_⟩
  have hstep := hhead.tagStep_eq src d
  rw [quotedStep_closed hreads, ValueDraft.faults_close, hover.faults, h.faults,
    List.append_nil] at hstep
  exact hvisits.stay hstep

/-- Behind a value without a directive the scan is in the tag again. -/
theorem InValue.visitsTag (h : InValue src quote d v c) (hover : ReadsOver quote v c s w e)
    (hw : w.isDynamic = false) (he : e.rest = quote :: k) : VisitsTag src d e.next := by
  obtain ⟨before, name, nameEnd, value, -, hvisits⟩ := h.closes hover he
  rw [Draft.attribute, if_neg (by simp [hw]), ValueDraft.escapes_close, hover.escapes,
    h.escapes] at hvisits
  exact hvisits

/-- A value with a directive that ends writes an attribute that starts in front of the value. -/
theorem InValue.writes (h : InValue src quote d v c) (hover : ReadsOver quote v c s w e)
    (hw : w.isDynamic = true) (he : e.rest = quote :: k) : ∃ a more, a.2 < c.offset ∧
      attributesOf (scanned src).body = attributesOf d.body ++ a :: more := by
  obtain ⟨before, name, nameEnd, value, hlt, hvisits⟩ := h.closes hover he
  obtain ⟨more, hmore, -⟩ := (later_of_visitsTag hvisits).attributes
  rw [attributesOf_attribute (by simp [hw]), List.append_assoc] at hmore
  exact ⟨_, more, hlt, hmore⟩

theorem InValue.unclosed (h : InValue src quote d v c)
    (hw : readValue quote v c = (w, none)) :
    (scanned src).faults = d.faults ++ w.faults ∧
      attributesOf (scanned src).body = attributesOf d.body := by
  obtain ⟨before, name, nameEnd, value, hvisits, hhead, hreads, -⟩ := h.head
  rw [scanned_open hvisits hhead (hreads.trans hw)]
  exact ⟨rfl, attributesOf_flush _ _⟩

theorem faults_readValue (quote : Char) (v : ValueDraft) (c : Cursor) :
    ∃ fs, (readValue quote v c).1.faults = v.faults ++ fs := by
  fun_induction readValue quote v c with
  | case1 => exact ⟨[], (List.append_nil _).symm⟩
  | case2 => exact ⟨[], by simp⟩
  | case3 _ _ _ _ _ _ _ _ ih => simpa using ih
  | case4 v c _ _ _ _ _ _ ih => simpa [ValueDraft.escape] using ih
  | case5 _ _ _ _ _ _ _ _ _ ih => simpa using ih
  | case6 _ _ _ _ _ _ _ _ _ _ _ _ _ ih => simpa [ValueDraft.faults_express] using ih
  | case7 v _ _ _ _ f _ _ _ _ _ ih =>
    obtain ⟨fs, hfs⟩ := ih
    exact ⟨f :: fs, by simpa [ValueDraft.fault] using hfs⟩
  | case8 _ _ _ _ _ _ _ _ _ ih => simpa using ih

theorem faults_attribute {before name nameEnd opened close : Cursor} (v : ValueDraft) :
    (Draft.attribute { d with faults := d.faults ++ v.faults } src before name nameEnd opened close
      v).faults = d.faults ++ v.faults := by
  by_cases hv : v.isDynamic = true
  · rw [Draft.attribute_dynamic hv]
    rfl
  · rw [Draft.attribute, if_neg hv]
    exact faults_plain d v

/-- What the reading of a value has recorded, the scan records. -/
theorem mem_faults_of_readValue {before name nameEnd value : Cursor} {f : Fault}
    (hd : VisitsTag src d before) (ha : AttributeHead before name nameEnd value quote)
    (hf : f ∈ (readValue quote (.start value.next) value.next).1.faults) :
    f ∈ (scanned src).faults := by
  cases hread : readValue quote (.start value.next) value.next with
  | mk v close =>
    rw [hread] at hf
    cases close with
    | none =>
      rw [scanned_open hd ha hread]
      exact List.mem_append_right d.faults hf
    | some close =>
      have hstep := ha.tagStep_eq src d
      rw [quotedStep_closed hread] at hstep
      obtain ⟨fs, hfs⟩ := (later_of_visitsTag (hd.stay hstep)).faults
      rw [hfs, faults_attribute]
      exact List.mem_append_left fs (List.mem_append_right d.faults hf)

theorem InValue.faulty (h : InValue src quote d v c) {f : Fault}
    (hw : readValue quote v c = readValue quote w e) (hf : f ∈ w.faults) :
    (scanned src).faults ≠ [] := by
  obtain ⟨before, name, nameEnd, value, hvisits, hhead, hreads, -⟩ := h.head
  obtain ⟨fs, hfs⟩ := faults_readValue quote w e
  refine List.ne_nil_of_mem (mem_faults_of_readValue hvisits hhead (f := f) ?_)
  rw [hreads, hw, hfs]
  exact List.mem_append_left fs hf

end

end Sigil.Template
