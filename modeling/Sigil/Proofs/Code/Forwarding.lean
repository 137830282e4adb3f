import Mathlib.Data.List.Forall2
import Mathlib.Data.List.Induction
import Mathlib.Data.List.Nodup
import Sigil.Code.Preparation

/-!
# Forwarding constructors

A base type is built by naming constructors, of which the last one with a name counts
(`mem_built_iff`). A class gets one constructor for each that its base type forwards
(`Constructor.Forwards`), in front of its other members, which stay as they are.
-/

namespace Sigil.Code.BaseType

/-! ## Building a base type -/

def built (name : String) (calls : List BaseConstructor) : BaseType :=
  calls.foldl withConstructor { name := name }

/-- A constructor behind which no other one has its name. -/
def Last (c : BaseConstructor) (cs : List BaseConstructor) : Prop :=
  ∃ before after, cs = before ++ c :: after ∧ ∀ k ∈ after, k.name ≠ c.name

section

variable {c k : BaseConstructor} {cs : List BaseConstructor}

theorem last_singleton_iff : Last k [c] ↔ k = c := by
  constructor
  · rintro ⟨before, after, h, -⟩
    rw [eq_comm, List.append_eq_singleton_iff] at h
    rcases h with ⟨-, h⟩ | ⟨-, h⟩
    · exact (List.cons.inj h).1
    · cases h
  · rintro rfl
    exact ⟨[], [], rfl, List.forall_mem_nil _⟩

theorem last_concat_iff : Last k (cs ++ [c]) ↔ k = c ∨ Last k cs ∧ k.name ≠ c.name := by
  constructor
  · rintro ⟨before, after, h, hafter⟩
    rcases List.eq_nil_or_concat after with rfl | ⟨after, d, rfl⟩
    · exact .inl (List.cons.inj (List.append_inj' h rfl).2).1.symm
    · rw [List.concat_eq_append, ← List.cons_append, ← List.append_assoc] at h
      obtain ⟨hcs, hd⟩ := List.append_inj' h rfl
      cases hd
      rw [List.concat_eq_append, List.forall_mem_append] at hafter
      exact .inr ⟨⟨before, after, hcs, hafter.1⟩, (hafter.2 c (List.mem_singleton_self c)).symm⟩
  · rintro (rfl | ⟨⟨before, after, rfl, hafter⟩, hne⟩)
    · exact ⟨cs, [], rfl, List.forall_mem_nil _⟩
    · refine ⟨before, after ++ [c], by simp, ?_⟩
      rw [List.forall_mem_append]
      exact ⟨hafter, List.forall_mem_singleton.2 hne.symm⟩

theorem names_putConstructor (c : BaseConstructor) (cs : List BaseConstructor) :
    (putConstructor c cs).map (·.name) =
      if c.name ∈ cs.map (·.name) then cs.map (·.name) else cs.map (·.name) ++ [c.name] := by
  induction cs with
  | nil => rfl
  | cons d r ih =>
    rw [putConstructor]
    by_cases hd : d.name = c.name
    · rw [if_pos hd, List.map_cons, List.map_cons, ← hd, if_pos List.mem_cons_self]
    · have hmem : c.name ∈ (d :: r).map (·.name) ↔ c.name ∈ r.map (·.name) := by
        rw [List.map_cons, List.mem_cons, or_iff_right (Ne.symm hd)]
      rw [if_neg hd, List.map_cons, ih]
      simp only [hmem]
      split <;> rfl

/-- Without two constructors of one name, the one that is put takes the place of its name. -/
theorem mem_putConstructor_iff (hcs : (cs.map (·.name)).Nodup) :
    k ∈ putConstructor c cs ↔ k = c ∨ k ∈ cs ∧ k.name ≠ c.name := by
  induction cs with
  | nil => simp [putConstructor]
  | cons d r ih =>
    rw [List.map_cons, List.nodup_cons] at hcs
    rw [putConstructor]
    by_cases hd : d.name = c.name
    · have hr : ∀ k ∈ r, k.name ≠ c.name := fun k hk hname =>
        hcs.1 (hd ▸ hname ▸ List.mem_map_of_mem hk)
      rw [if_pos hd, List.mem_cons, List.mem_cons]
      refine or_congr_right ⟨fun hk => ⟨.inr hk, hr k hk⟩, ?_⟩
      rintro ⟨rfl | hk, hname⟩
      · exact absurd hd hname
      · exact hk
    · rw [if_neg hd, List.mem_cons, List.mem_cons, ih hcs.2]
      constructor
      · rintro (rfl | rfl | ⟨hk, hname⟩)
        · exact .inr ⟨.inl rfl, hd⟩
        · exact .inl rfl
        · exact .inr ⟨.inr hk, hname⟩
      · rintro (rfl | ⟨rfl | hk, hname⟩)
        · exact .inr (.inl rfl)
        · exact .inl rfl
        · exact .inr (.inr ⟨hk, hname⟩)

end

section

variable (name : String) (calls : List BaseConstructor)

theorem built_concat (c : BaseConstructor) :
    (built name (calls ++ [c])).constructors =
      putConstructor c (built name calls).constructors := by
  rw [built, List.foldl_append]
  rfl

theorem nodup_names_built : ((built name calls).constructors.map (·.name)).Nodup := by
  induction calls using List.reverseRecOn with
  | nil => exact List.nodup_singleton _
  | append_singleton calls c ih =>
    rw [built_concat, names_putConstructor]
    split
    · exact ih
    · exact List.Nodup.append ih (List.nodup_singleton _) (List.disjoint_singleton.2 ‹_›)

/-- The last constructor of each name counts. -/
theorem mem_built_iff {k : BaseConstructor} :
    k ∈ (built name calls).constructors ↔ Last k (hostConstructor :: calls) := by
  induction calls using List.reverseRecOn with
  | nil => exact List.mem_singleton.trans last_singleton_iff.symm
  | append_singleton calls c ih =>
    rw [built_concat, mem_putConstructor_iff (nodup_names_built name calls), ← List.cons_append,
      last_concat_iff, ih]

end

end Sigil.Code.BaseType

namespace Sigil.Template

open Code

/-! ## Forwarding -/

/-- A constructor of a class passes its own parameters on to one of the base type. -/
structure Constructor.Forwards (k : Constructor) (c : BaseConstructor) : Prop where
  name_eq : k.name = c.name
  visibility_eq : k.visibility = .pub
  params_eq : k.params = c.params
  baseArgs_eq : k.baseArgs = k.params.map (·.name)

theorem Constructor.forwards_forwarding (c : BaseConstructor) : (forwarding c).Forwards c :=
  ⟨rfl, rfl, rfl, rfl⟩

/-- The members of a class that are no constructors. -/
def ClassTree.others (t : ClassTree) : List Member := t.members.filter (!·.isConstructor)

section

variable {t : ClassTree} {b : BaseType}

theorem isConstructor_shown (m : Member) : m.shown.isConstructor = m.isConstructor := by
  cases m <;> rfl

theorem others_showLines (t : ClassTree) : t.showLines.others = t.others.map Member.shown := by
  rw [ClassTree.others, ClassTree.showLines, List.filter_map]
  exact congrArg (List.map _) (List.filter_congr fun m _ => by
    rw [Function.comp_apply, isConstructor_shown])

/-- The members of a class once its base type has forwarded its constructors to it. -/
def forwardedMembers (t : ClassTree) (b : BaseType) : List Member :=
  b.forwarded.map (.constructor ∘ Constructor.forwarding) ++ t.others

theorem forwardTo_of_nil (h : b.forwarded = []) (t : ClassTree) : t.forwardTo b = t := by
  rw [ClassTree.forwardTo, h]

theorem forwardTo_of_ne_nil (h : b.forwarded ≠ []) (t : ClassTree) :
    t.forwardTo b = { t with members := forwardedMembers t b } := by
  cases hf : b.forwarded with
  | nil => exact absurd hf h
  | cons c cs =>
    rw [ClassTree.forwardTo, forwardedMembers, hf]
    rfl

theorem others_forwardTo (t : ClassTree) (b : BaseType) : (t.forwardTo b).others = t.others := by
  by_cases h : b.forwarded = []
  · rw [forwardTo_of_nil h]
  · have hnone : (b.forwarded.map (Member.constructor ∘ Constructor.forwarding)).filter
        (!·.isConstructor) = [] := by
      rw [List.filter_map, List.map_eq_nil_iff]
      exact List.filter_eq_nil_iff.2 fun c _ => by simp [Member.isConstructor]
    rw [forwardTo_of_ne_nil h, ClassTree.others, forwardedMembers, List.filter_append, hnone,
      List.nil_append, ClassTree.others, List.filter_filter]
    exact List.filter_congr fun m _ => Bool.and_self _

theorem forwarded_eq_nil_iff : b.forwarded = [] ↔ ∀ c ∈ b.constructors, c.visibility = .priv := by
  simp [BaseType.forwarded, List.filter_eq_nil_iff]

/-- What a class has once it forwards depends on its other members only. -/
theorem forwardTo_forwardTo (t : ClassTree) (b : BaseType) :
    (t.forwardTo b).forwardTo b = t.forwardTo b := by
  by_cases h : b.forwarded = []
  · rw [forwardTo_of_nil h]
  · have hmembers : forwardedMembers (t.forwardTo b) b = forwardedMembers t b := by
      rw [forwardedMembers, others_forwardTo, forwardedMembers]
    rw [forwardTo_of_ne_nil h (t.forwardTo b), hmembers, forwardTo_of_ne_nil h t]

theorem showLines_forwardTo (t : ClassTree) (b : BaseType) :
    (t.forwardTo b).showLines = t.showLines.forwardTo b := by
  by_cases h : b.forwarded = []
  · rw [forwardTo_of_nil h, forwardTo_of_nil h]
  · have hshown : (b.forwarded.map (Member.constructor ∘ Constructor.forwarding)).map Member.shown =
        b.forwarded.map (.constructor ∘ Constructor.forwarding) := by
      rw [List.map_map]
      rfl
    have hmembers : (forwardedMembers t b).map Member.shown = forwardedMembers t.showLines b := by
      rw [forwardedMembers, List.map_append, hshown, forwardedMembers, others_showLines]
    rw [forwardTo_of_ne_nil h, forwardTo_of_ne_nil h, ClassTree.showLines, hmembers]
    rfl

/-- The constructors that a class gets are those that its base type forwards, in their order, and
stand in front of its other members. A base type without any leaves the class as it is. Once is
enough, and it makes no difference whether hidden lines are taken out before or after. What a base
type forwards that was built one constructor after another are the last ones of each name that are
not private. -/
theorem forwardTo_forwards (t : ClassTree) (b : BaseType) :
    ((∀ c ∈ b.constructors, c.visibility = .priv) → t.forwardTo b = t) ∧
    ((∃ c ∈ b.constructors, c.visibility ≠ .priv) → ∃ ks : List Constructor,
      t.forwardTo b =
        { t with members := ks.map .constructor ++ t.members.filter (!·.isConstructor) } ∧
      ks.Forall₂ Constructor.Forwards (b.constructors.filter (·.visibility ≠ .priv))) ∧
    (t.forwardTo b).forwardTo b = t.forwardTo b ∧
    (t.forwardTo b).showLines = t.showLines.forwardTo b ∧
    ∀ (name : String) (calls : List BaseConstructor),
      ((BaseType.built name calls).forwarded.map (·.name)).Nodup ∧
      ∀ c, c ∈ (BaseType.built name calls).forwarded ↔
        c.visibility ≠ .priv ∧ BaseType.Last c (hostConstructor :: calls) := by
  refine ⟨fun h => forwardTo_of_nil (forwarded_eq_nil_iff.2 h) t, fun ⟨c, hc, hv⟩ => ?_,
    forwardTo_forwardTo t b, showLines_forwardTo t b, fun name calls => ⟨?_, fun c => ?_⟩⟩
  · have hne : b.forwarded ≠ [] := fun h => hv (forwarded_eq_nil_iff.1 h c hc)
    refine ⟨b.forwarded.map Constructor.forwarding, ?_, ?_⟩
    · rw [forwardTo_of_ne_nil hne, forwardedMembers, List.map_map]
      rfl
    · rw [List.forall₂_map_left_iff]
      exact List.forall₂_same.2 fun c _ => Constructor.forwards_forwarding c
  · exact (BaseType.nodup_names_built name calls).sublist (List.filter_sublist.map _)
  · rw [BaseType.forwarded, List.mem_filter, BaseType.mem_built_iff, decide_eq_true_iff, and_comm]

end

end Sigil.Template
