import Mathlib.Data.List.Forall2
import Sigil.Json.Record

/-!
# Fields of written records

Which members of an object give the fields of a record: each field comes of the one member with its
key, and is missing if no member has the key (`fields?_obj_eq_some_iff`).
-/

namespace Sigil.Json.Written

theorem mapM_eq_some_iff {α β : Type} {f : α → Option β} {R : α → β → Prop} {as : List α}
    {bs : List β} (hf : ∀ a b, f a = some b ↔ R a b) :
    as.mapM f = some bs ↔ List.Forall₂ R as bs := by
  induction as generalizing bs with
  | nil =>
    rw [List.mapM_nil, List.forall₂_nil_left_iff, eq_comm (a := bs)]
    exact Option.some_inj
  | cons a as ih =>
    simp only [List.mapM_cons, Option.bind_eq_bind, Option.bind_eq_some_iff, hf, ih,
      List.forall₂_cons_left_iff]
    constructor
    · rintro ⟨b, hb, bs', hbs, he⟩
      cases he
      exact ⟨b, bs', hb, hbs, rfl⟩
    · rintro ⟨b, bs', hb, hbs, rfl⟩
      exact ⟨b, hb, bs', hbs, rfl⟩

section

variable {ms : List (Option String × Written)} {key : String} {keys : List String} {w : Written}
  {v : Option Written} {vs : List (Option Written)}

/-- No member has the key. -/
def Lacks (ms : List (Option String × Written)) (key : String) : Prop := ∀ w, (some key, w) ∉ ms

/-- One member has the key, and it has this value. -/
def Once (ms : List (Option String × Written)) (key : String) (w : Written) : Prop :=
  ∃ before after, ms = before ++ (some key, w) :: after ∧ Lacks before key ∧ Lacks after key

/-- The value of a field, if a member gives it. -/
inductive Gives (ms : List (Option String × Written)) (key : String) : Option Written → Prop where
  | missing : Lacks ms key → Gives ms key none
  | written {w : Written} : Once ms key w → Gives ms key (some w)

/-- All keys spell a text. -/
def Spelled (ms : List (Option String × Written)) : Prop := ∀ m ∈ ms, m.1 ≠ none

theorem filter_eq_nil_iff_lacks : ms.filter (·.1 == some key) = [] ↔ Lacks ms key := by
  rw [List.filter_eq_nil_iff]
  constructor
  · intro h w hw
    exact h _ hw (beq_self_eq_true _)
  · rintro h ⟨k, w⟩ hm hk
    obtain rfl : k = some key := eq_of_beq hk
    exact h w hm

theorem valuesOf_eq_singleton_iff : valuesOf key ms = [w] ↔ Once ms key w := by
  simp only [valuesOf, List.map_eq_singleton_iff, List.filter_eq_cons_iff]
  constructor
  · rintro ⟨⟨k, x⟩, ⟨before, after, rfl, hbefore, hk, hafter⟩, rfl⟩
    obtain rfl : k = some key := eq_of_beq hk
    exact ⟨before, after, rfl, filter_eq_nil_iff_lacks.1 (List.filter_eq_nil_iff.2 hbefore),
      filter_eq_nil_iff_lacks.1 hafter⟩
  · rintro ⟨before, after, rfl, hbefore, hafter⟩
    exact ⟨_, ⟨before, after, rfl, List.filter_eq_nil_iff.1 (filter_eq_nil_iff_lacks.2 hbefore),
      beq_self_eq_true _, filter_eq_nil_iff_lacks.2 hafter⟩, rfl⟩

theorem fieldIn?_eq_some_iff : fieldIn? ms key = some v ↔ Gives ms key v := by
  unfold fieldIn?
  constructor
  · intro h
    split at h
    · rename_i hnil
      cases h
      exact .missing (filter_eq_nil_iff_lacks.1 (List.map_eq_nil_iff.1 hnil))
    · rename_i hone
      cases h
      exact .written (valuesOf_eq_singleton_iff.1 hone)
    · cases h
  · rintro (hlacks | honce)
    · rw [valuesOf, filter_eq_nil_iff_lacks.2 hlacks]
      rfl
    · rw [valuesOf_eq_singleton_iff.2 honce]

theorem gives_some_iff : Gives ms key (some w) ↔ Once ms key w := by
  constructor
  · rintro ⟨⟩
    assumption
  · exact .written

/-- The fields of an object are what its members give, and there are none if a key spells no
text. -/
theorem fields?_obj_eq_some_iff :
    fields? keys (.obj ms) = some vs ↔ Spelled ms ∧ List.Forall₂ (Gives ms) keys vs := by
  have hall : ms.all (·.1.isSome) = true ↔ Spelled ms := by
    simp [Spelled, Option.isSome_iff_ne_none]
  rw [fields?, Option.ite_none_right_eq_some, hall,
    mapM_eq_some_iff fun _ _ => fieldIn?_eq_some_iff]

end

section

variable {w : Written} {s : String} {b : Bool} {k : Nat} {ws : List Written}

theorem text?_eq_some_iff : w.text? = some s ↔ w = .str (some s) := by
  cases w <;> simp [text?]

theorem bool?_eq_some_iff : w.bool? = some b ↔ w = .bool b := by
  cases w <;> simp [bool?]

theorem items?_eq_some_iff : w.items? = some ws ↔ w = .arr ws := by
  cases w <;> simp [items?]

theorem nat?_eq_some_iff : w.nat? = some k ↔ ∃ n, w = .num n ∧ n.number? = some (.whole k) := by
  constructor
  · intro h
    unfold nat? at h
    split at h
    · rename_i n
      split at h
      · cases h
        exact ⟨n, rfl, ‹_›⟩
      · cases h
    · cases h
  · rintro ⟨n, rfl, hn⟩
    rw [nat?, hn]

end

end Sigil.Json.Written
