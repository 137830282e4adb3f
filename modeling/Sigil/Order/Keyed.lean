/-!
# Entries in ascending key order

Finite maps as lists of entries whose keys ascend in code point order. `put` keeps the order and
replaces the entry of a key that is there; `get?` reads it. The main statements are `ascending_put`,
`get?_put_self` and `eq_of_mem_iff`.
-/

namespace Sigil.Keyed

variable {α : Type}

/-- The keys ascend, so no key occurs twice. -/
def Ascending (es : List (String × α)) : Prop := es.Pairwise (·.1 < ·.1)

def get? (k : String) : List (String × α) → Option α
  | [] => none
  | (k', v) :: r => if k = k' then some v else get? k r

def put (k : String) (v : α) : List (String × α) → List (String × α)
  | [] => [(k, v)]
  | (k', v') :: r =>
    if k < k' then (k, v) :: (k', v') :: r
    else if k = k' then (k, v) :: r
    else (k', v') :: put k v r

/-- Entries put one after the other, so that the last one for a key counts. -/
def ofList (es : List (String × α)) : List (String × α) :=
  es.foldl (fun m e => put e.1 e.2 m) []

theorem mem_put {k : String} {v : α} {es : List (String × α)} {e : String × α}
    (h : e ∈ put k v es) : e = (k, v) ∨ e ∈ es := by
  induction es with
  | nil => simpa [put] using h
  | cons e' r ih =>
    simp only [put] at h
    split at h
    · simpa using h
    · split at h
      · rcases List.mem_cons.1 h with h | h
        · exact .inl h
        · exact .inr (List.mem_cons_of_mem _ h)
      · rcases List.mem_cons.1 h with rfl | h
        · exact .inr List.mem_cons_self
        · exact (ih h).imp id (List.mem_cons_of_mem _)

theorem ascending_put {k : String} {v : α} {es : List (String × α)} (h : Ascending es) :
    Ascending (put k v es) := by
  induction es with
  | nil => simp [put, Ascending]
  | cons e r ih =>
    obtain ⟨k', v'⟩ := e
    rw [Ascending, List.pairwise_cons] at h
    simp only [put]
    split
    · rename_i hlt
      refine List.pairwise_cons.2 ⟨?_, List.pairwise_cons.2 h⟩
      intro e he
      rcases List.mem_cons.1 he with rfl | he
      · exact hlt
      · exact String.lt_trans hlt (h.1 e he)
    · rename_i hnlt
      split
      · rename_i heq
        exact List.pairwise_cons.2 ⟨fun e he => heq ▸ h.1 e he, h.2⟩
      · rename_i hne
        refine List.pairwise_cons.2 ⟨?_, ih h.2⟩
        intro e he
        rcases mem_put he with rfl | he
        · exact Std.lt_of_le_of_ne (String.not_lt.1 hnlt) (Ne.symm hne)
        · exact h.1 e he

theorem ascending_ofList (es : List (String × α)) : Ascending (ofList es) := by
  have go : ∀ (es m : List (String × α)), Ascending m →
      Ascending (es.foldl (fun m e => put e.1 e.2 m) m) := by
    intro es
    induction es with
    | nil => exact fun m h => h
    | cons e r ih => exact fun m h => ih _ (ascending_put h)
  exact go es [] List.Pairwise.nil

theorem get?_put_self (k : String) (v : α) (es : List (String × α)) :
    get? k (put k v es) = some v := by
  induction es with
  | nil => simp [put, get?]
  | cons e r ih =>
    simp only [put]
    split
    · simp [get?]
    · split
      · simp [get?]
      · rename_i hne
        simp [get?, hne, ih]

theorem get?_put_of_ne {k k' : String} (h : k' ≠ k) (v : α) (es : List (String × α)) :
    get? k' (put k v es) = get? k' es := by
  induction es with
  | nil => simp [put, get?, h]
  | cons e r ih =>
    simp only [put]
    split
    · simp [get?, h]
    · split
      · rename_i heq
        simp [get?, h, ← heq]
      · simp [get?, ih]

theorem get?_eq_some_iff {es : List (String × α)} (h : Ascending es) {k : String} {v : α} :
    get? k es = some v ↔ (k, v) ∈ es := by
  induction es with
  | nil => simp [get?]
  | cons e r ih =>
    obtain ⟨k', v'⟩ := e
    rw [Ascending, List.pairwise_cons] at h
    rw [get?, List.mem_cons, Prod.mk.injEq, ← ih h.2]
    split
    · rename_i heq
      refine ⟨fun hv => .inl ⟨heq, (Option.some.inj hv).symm⟩, ?_⟩
      rintro (⟨-, rfl⟩ | hr)
      · rfl
      · exact absurd (heq ▸ h.1 _ ((ih h.2).1 hr)) (String.lt_irrefl k)
    · rename_i hne
      exact ⟨.inr, fun hr => hr.resolve_left fun heq => hne heq.1⟩

theorem eq_of_mem_iff {es fs : List (String × α)} (he : Ascending es) (hf : Ascending fs)
    (h : ∀ e, e ∈ es ↔ e ∈ fs) : es = fs := by
  have nodup {gs : List (String × α)} (hg : Ascending gs) : gs.Nodup := by
    refine hg.imp ?_
    rintro a b hab rfl
    exact String.lt_irrefl _ hab
  have hperm : es.Perm fs := (List.perm_ext_iff_of_nodup (nodup he) (nodup hf)).2 h
  exact hperm.eq_of_pairwise (fun _ _ _ _ hab hba => absurd hba (String.lt_asymm hab)) he hf

end Sigil.Keyed
