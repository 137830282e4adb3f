/-!
# Sets of names

A finite set of names is the list of its members in ascending code point order, so that equal sets
are equal lists. The main statements are `mem_insert` and `ext`.
-/

namespace Sigil

structure NameSet where
  toList : List String
  ascending : toList.Pairwise (· < ·) := by exact List.Pairwise.nil
  deriving DecidableEq

namespace NameSet

def empty : NameSet := ⟨[], .nil⟩

instance : EmptyCollection NameSet := ⟨empty⟩

instance : Inhabited NameSet := ⟨empty⟩

instance : Membership String NameSet := ⟨fun s n => n ∈ s.toList⟩

instance (n : String) (s : NameSet) : Decidable (n ∈ s) :=
  inferInstanceAs (Decidable (n ∈ s.toList))

/-- A name put in its place; a list that holds it stays as it is. -/
def insertInto (n : String) : List String → List String
  | [] => [n]
  | m :: r => if n < m then n :: m :: r else if n = m then m :: r else m :: insertInto n r

theorem mem_insertInto {n x : String} {l : List String} :
    x ∈ insertInto n l ↔ x = n ∨ x ∈ l := by
  induction l with
  | nil => simp [insertInto]
  | cons m r ih =>
    simp only [insertInto]
    split
    · simp
    · split
      · rename_i h
        simp [h]
      · simp only [List.mem_cons, ih]
        exact or_left_comm

theorem ascending_insertInto {n : String} {l : List String} (h : l.Pairwise (· < ·)) :
    (insertInto n l).Pairwise (· < ·) := by
  induction l with
  | nil => simp [insertInto]
  | cons m r ih =>
    have hm := List.pairwise_cons.1 h
    simp only [insertInto]
    split
    · rename_i hlt
      refine List.pairwise_cons.2 ⟨fun x hx => ?_, h⟩
      rcases List.mem_cons.1 hx with rfl | hx
      · exact hlt
      · exact String.lt_trans hlt (hm.1 x hx)
    · rename_i hnlt
      split
      · exact h
      · rename_i hne
        refine List.pairwise_cons.2 ⟨fun x hx => ?_, ih hm.2⟩
        rcases mem_insertInto.1 hx with rfl | hx
        · exact Std.lt_of_le_of_ne (String.not_lt.1 hnlt) (Ne.symm hne)
        · exact hm.1 x hx

def insert (s : NameSet) (n : String) : NameSet :=
  ⟨insertInto n s.toList, ascending_insertInto s.ascending⟩

def insertAll (s : NameSet) (names : List String) : NameSet := names.foldl insert s

def union (s t : NameSet) : NameSet := s.insertAll t.toList

def ofList (names : List String) : NameSet := empty.insertAll names

theorem mem_def {n : String} {s : NameSet} : n ∈ s ↔ n ∈ s.toList := Iff.rfl

theorem nodup (s : NameSet) : s.toList.Nodup := by
  refine s.ascending.imp ?_
  rintro a b hab rfl
  exact String.lt_irrefl a hab

@[ext] theorem ext {s t : NameSet} (h : ∀ x, x ∈ s ↔ x ∈ t) : s = t := by
  have hperm : s.toList.Perm t.toList := (List.perm_ext_iff_of_nodup s.nodup t.nodup).2 h
  have heq : s.toList = t.toList :=
    hperm.eq_of_pairwise (fun _ _ _ _ hab hba => absurd hba (String.lt_asymm hab))
      s.ascending t.ascending
  cases s
  cases t
  cases heq
  rfl

@[simp] theorem notMem_empty (n : String) : n ∉ empty := List.not_mem_nil

@[simp] theorem mem_insert {n x : String} {s : NameSet} : x ∈ s.insert n ↔ x = n ∨ x ∈ s :=
  mem_insertInto

@[simp] theorem mem_insertAll {x : String} {s : NameSet} {names : List String} :
    x ∈ s.insertAll names ↔ x ∈ s ∨ x ∈ names := by
  induction names generalizing s with
  | nil => simp [insertAll]
  | cons n r ih =>
    have := ih (s := s.insert n)
    simp only [insertAll, List.foldl_cons] at this ⊢
    rw [this, mem_insert, List.mem_cons]
    constructor
    · rintro ((h | h) | h) <;> simp [h]
    · rintro (h | h | h) <;> simp [h]

@[simp] theorem mem_union {x : String} {s t : NameSet} : x ∈ s.union t ↔ x ∈ s ∨ x ∈ t :=
  mem_insertAll

@[simp] theorem mem_ofList {x : String} {names : List String} : x ∈ ofList names ↔ x ∈ names := by
  simp [ofList]

end NameSet
end Sigil
