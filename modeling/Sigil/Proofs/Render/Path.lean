import Sigil.Proofs.Disk.Path
import Sigil.Render.Scope

/-!
# The value of a path

The segments of a dotted path hold no dot, and a path that is put together from such segments falls
into them again (`segments_dotted`). So looking a path up among the side values is the walk through
the bag as an object (`lookup_eq`), also behind the bag's own root, and the value of every path
follows one rule for each root (`resolve_eq`).
-/

namespace Sigil

/-! ## Segments -/

namespace Json

theorem segments_append (a b : String) : segments (a ++ "." ++ b) = segments a ++ segments b := by
  have h : (a ++ "." ++ b).toList = a.toList ++ '.' :: b.toList := by simp [String.toList_append]
  rw [segments, h, Text.fields_append, List.map_append, segments, segments]

theorem segments_of_notMem {s : String} (h : '.' ∉ s.toList) : segments s = [s] := by
  rw [segments, Text.fields_of_notMem h, List.map_singleton, String.ofList_toList]

theorem notMem_of_mem_segments {path s : String} (h : s ∈ segments path) : '.' ∉ s.toList := by
  obtain ⟨f, hf, rfl⟩ := List.mem_map.1 h
  rw [String.toList_ofList]
  exact Text.sep_notMem_of_mem_fields hf

theorem segments_dotted {ss : List String} (hne : ss ≠ []) (h : ∀ s ∈ ss, '.' ∉ s.toList) :
    segments (dotted ss) = ss := by
  induction ss with
  | nil => exact absurd rfl hne
  | cons s r ih =>
    rw [List.forall_mem_cons] at h
    cases r with
    | nil =>
      rw [dotted, String.intercalate_singleton]
      exact segments_of_notMem h.1
    | cons t r =>
      have hcons : dotted (s :: t :: r) = s ++ "." ++ dotted (t :: r) :=
        String.intercalate_cons_cons
      rw [hcons, segments_append, segments_of_notMem h.1, ih (List.cons_ne_nil t r) h.2]
      rfl

end Json

/-! ## Side values -/

namespace Render

namespace Bag

theorem lookupBelow_eq (j : Json) (ss : List String) :
    lookupBelow j ss = (j.walk? ss).getD .null := by
  induction ss generalizing j with
  | nil => rfl
  | cons s r ih =>
    rw [lookupBelow, Json.walk?]
    cases j.member? s with
    | none => rfl
    | some k => exact ih k

/-- Looking a path up is the walk through the bag as an object, with null for what is missing. -/
theorem lookup_eq (b : Bag) (path : String) :
    b.lookup path = (b.toJson.walk? (Json.segments path)).getD .null := by
  unfold lookup
  cases h : Json.segments path with
  | nil => exact absurd h (Json.segments_ne_nil path)
  | cons s r =>
    have hget : b.toJson.member? s = b.get? s := rfl
    simp only [Json.walk?, hget]
    cases b.get? s with
    | none => rfl
    | some j => exact lookupBelow_eq j r

theorem lookup_dotted (b : Bag) {ss : List String} (h : ∀ s ∈ ss, '.' ∉ s.toList) :
    (if ss.isEmpty then b.toJson else b.lookup (Json.dotted ss)) =
      (b.toJson.walk? ss).getD .null := by
  cases ss with
  | nil => rfl
  | cons s r =>
    rw [List.isEmpty_cons, if_neg Bool.false_ne_true, lookup_eq,
      Json.segments_dotted (List.cons_ne_nil s r) h]

end Bag

/-! ## Roots -/

namespace Scope

variable (s : Scope) {p head : String} {rest : List String}

theorem resolve_model (h : Json.segments p = modelRoot :: rest) :
    s.resolve p = (s.model.walk? rest).elim (.error (.missingMember p)) .ok := by
  unfold resolve
  rw [h]
  simp only [if_true]

theorem resolve_bag (h : Json.segments p = bagRoot :: rest) :
    s.resolve p = .ok ((s.bag.toJson.walk? rest).getD .null) := by
  have hdots : ∀ x ∈ rest, '.' ∉ x.toList := fun x hx =>
    Json.notMem_of_mem_segments (h ▸ List.mem_cons_of_mem bagRoot hx)
  have hne : bagRoot ≠ modelRoot := by decide
  rw [← s.bag.lookup_dotted hdots]
  unfold resolve
  rw [h]
  simp only [hne, if_true, if_false]

theorem resolve_bare (h : Json.segments p = head :: rest) (hmodel : head ≠ modelRoot)
    (hbag : head ≠ bagRoot) :
    s.resolve p =
      if (s.model.member? head).isSome then
        (s.model.walk? (head :: rest)).elim (.error (.missingMember p)) .ok
      else if s.bag.contains head then .ok ((s.bag.toJson.walk? (head :: rest)).getD .null)
      else .error (.missingMember p) := by
  rw [← h, ← Bag.lookup_eq, h, Json.walk?]
  unfold resolve
  rw [h]
  simp only [hmodel, hbag, if_false]
  cases s.model.member? head with
  | none => rfl
  | some first => rfl

theorem segments_root {root : String} (h : '.' ∉ root.toList) (p : String) :
    Json.segments (root ++ "." ++ p) = root :: Json.segments p := by
  rw [Json.segments_append, Json.segments_of_notMem h, List.singleton_append]

/-- The value of every path by the first of its segments. Behind the name of the model it is the
walk through the model, or an error that names the path. Behind the name of the bag it is the walk
through the bag as an object, or null where that walk stops. Any other path is read as if it stood
behind the model if the model has a member of its first name, or else behind the bag if the bag has
such a value, and is missing otherwise. Looking a path up in the bag is the same walk. -/
theorem resolve_eq (p : String) :
    ∃ head rest, Json.segments p = head :: rest ∧
      s.resolve p =
        (if head = modelRoot then (s.model.walk? rest).elim (.error (.missingMember p)) .ok
        else if head = bagRoot then .ok ((s.bag.toJson.walk? rest).getD .null)
        else if (s.model.member? head).isSome then
          (s.resolve (modelRoot ++ "." ++ p)).mapError fun _ => .missingMember p
        else if s.bag.contains head then s.resolve (bagRoot ++ "." ++ p)
        else .error (.missingMember p)) ∧
      s.bag.lookup p = (s.bag.toJson.walk? (head :: rest)).getD .null := by
  obtain ⟨head, rest, h⟩ := List.exists_cons_of_ne_nil (Json.segments_ne_nil p)
  refine ⟨head, rest, h, ?_, h ▸ s.bag.lookup_eq p⟩
  by_cases hmodel : head = modelRoot
  · rw [if_pos hmodel]
    exact s.resolve_model (hmodel ▸ h)
  by_cases hbag : head = bagRoot
  · rw [if_neg hmodel, if_pos hbag]
    exact s.resolve_bag (hbag ▸ h)
  have hbehindModel := s.resolve_model (segments_root (by decide) p)
  have hbehindBag := s.resolve_bag (segments_root (by decide) p)
  rw [h] at hbehindModel hbehindBag
  rw [if_neg hmodel, if_neg hbag, s.resolve_bare h hmodel hbag, hbehindModel, hbehindBag]
  cases s.model.walk? (head :: rest) with
  | none => rfl
  | some j => rfl

/-- A member of the model hides a side value of its name, and a path that goes on beside it is
missing. -/
example :
    let s : Scope :=
      ⟨.obj [("Tags", .arr [.str "a", .str "b"])], .ofList [("Tags", .obj [("x", .null)])], .html⟩
    (s.resolve "Tags.1").toOption.map Json.text = some "\"b\"" ∧
      (s.resolve "Tags.x").toOption.map Json.text = none ∧
      (s.resolve "TemplateData.Tags.x.y").toOption.map Json.text = some "null" := by
  decide +kernel

end Scope
end Render
end Sigil
