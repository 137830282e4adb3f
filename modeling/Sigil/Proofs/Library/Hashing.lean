import Sigil.Proofs.Library.Registry

/-!
# What references are hashed by

References that are the same are hashed by the same data, so a table that looks for a reference only
among those with its hash finds what a search through all of them finds. Sameness goes by the kinds
of two references and hashing by whether one is on disk; the main statement, `hashed_of_same`, says
that the two agree, and that references which are hashed alike without being the same are modules.
-/

namespace Sigil.Library.Reference

variable {r s : Reference} {place : List Path.Component}

theorem place?_eq (r : Reference) : r.place? = r.path?.map Path.components := by
  cases r <;> rfl

theorem hashed_of_place (h : r.place? = some place) : r.hashed = [.tag 0, .path place] := by
  rw [place?_eq, Option.map_eq_some_iff] at h
  obtain ⟨path, hpath, rfl⟩ := h
  unfold hashed
  rw [hpath]

theorem hashed_module {m : Module} (h : (module m).place? = none) :
    (module m).hashed = [.tag 1, .text m.name, .version m.version] := by
  rw [place?_eq, Option.map_eq_none_iff] at h
  unfold hashed
  rw [h]

theorem hashed_stream (t : Stream) : (stream t).hashed = [.tag 2, .address t.id] := rfl

theorem hashed_bytes (b : List UInt8) : (bytes b).hashed = [.tag 3, .bytes b] := rfl

theorem hashed_eq_of_same (h : r.same s = true) : r.hashed = s.hashed := by
  have hplace := place?_eq_of_same h
  cases hr : r.place? with
  | some place => rw [hashed_of_place hr, hashed_of_place (hplace ▸ hr)]
  | none =>
    have hs : s.place? = none := hplace ▸ hr
    -- Off the disk only references of one kind are the same.
    match r, s with
    | file _, _ => cases hr
    | _, file _ => cases hs
    | module m, module n =>
      obtain ⟨hname, hversion, -, -⟩ := Module.same_iff.1 h
      rw [hashed_module hr, hashed_module hs, hname, hversion]
    | stream t, stream u => rw [hashed_stream, hashed_stream, eq_of_beq h]
    | bytes b, bytes c => rw [hashed_bytes, hashed_bytes, eq_of_beq h]
    | module _, stream _ | stream _, module _ | module _, bytes _ | bytes _, module _
    | stream _, bytes _ | bytes _, stream _ => cases h

/-- Two modules that are hashed alike: at one place, or nowhere with one name and version. -/
def Collide (m n : Module) : Prop :=
  (module m).place? = (module n).place? ∧
    ((module m).place? = none → m.name = n.name ∧ m.version = n.version)

theorem hashed_eq_of_collide {m n : Module} (h : Collide m n) :
    (module m).hashed = (module n).hashed := by
  obtain ⟨hplace, hnowhere⟩ := h
  cases hm : (module m).place? with
  | some place => rw [hashed_of_place hm, hashed_of_place (hplace ▸ hm)]
  | none =>
    obtain ⟨hname, hversion⟩ := hnowhere hm
    rw [hashed_module hm, hashed_module (hplace ▸ hm), hname, hversion]

theorem place?_eq_of_hashed (h : r.hashed = s.hashed) : r.place? = s.place? := by
  cases hr : r.place? with
  | some place =>
    rw [hashed_of_place hr] at h
    cases hs : s.place? with
    | some other =>
      rw [hashed_of_place hs] at h
      cases h
      rfl
    | none =>
      match s with
      | file _ => cases hs
      | module n => rw [hashed_module hs] at h; cases h
      | stream _ | bytes _ => cases h
  | none =>
    cases hs : s.place? with
    | none => rfl
    | some other =>
      rw [hashed_of_place hs] at h
      match r with
      | file _ => cases hr
      | module m => rw [hashed_module hr] at h; cases h
      | stream _ | bytes _ => cases h

/-- References that are hashed alike are the same, or two modules. -/
theorem same_or_collide_of_hashed (h : r.hashed = s.hashed) :
    r.same s = true ∨ ∃ m n, r = module m ∧ s = module n ∧ Collide m n := by
  have hplace := place?_eq_of_hashed h
  match r, s with
  | file _, _ => exact .inl (same_of_isFile rfl hplace)
  | _, file _ =>
    rw [same_comm]
    exact .inl (same_of_isFile rfl hplace.symm)
  | module m, module n =>
    refine .inr ⟨m, n, rfl, rfl, hplace, fun hm => ?_⟩
    rw [hashed_module hm, hashed_module (hplace ▸ hm)] at h
    simpa using h
  | stream t, stream u =>
    rw [hashed_stream, hashed_stream] at h
    exact .inl (by simpa [same] using h)
  | bytes b, bytes c =>
    rw [hashed_bytes, hashed_bytes] at h
    exact .inl (by simpa [same] using h)
  | module m, stream _ | module m, bytes _ => rw [hashed_module hplace] at h; cases h
  | stream _, module n | bytes _, module n => rw [hashed_module hplace.symm] at h; cases h
  | stream _, bytes _ | bytes _, stream _ => cases h

/-- Sameness is reflexive and symmetric, and what is the same is hashed by the same data. Only two
modules can be hashed alike and differ: at one place, or nowhere with one name and version. So
whatever hash is made of the data, a reference is found among those with its hash exactly if it is
found among all. -/
theorem hashed_of_same (r s : Reference) :
    r.same r = true ∧ (r.same s = true ↔ s.same r = true) ∧
    (r.same s = true → r.hashed = s.hashed) ∧
    (r.hashed = s.hashed ↔
      r.same s = true ∨ ∃ m n, r = module m ∧ s = module n ∧ Collide m n) ∧
    ∀ (hash : List Datum → UInt64) (rs : List Reference),
      r.isIn (rs.filter fun e => hash e.hashed == hash r.hashed) = r.isIn rs := by
  refine ⟨same_self r, by rw [same_comm], hashed_eq_of_same, ⟨same_or_collide_of_hashed, ?_⟩, ?_⟩
  · rintro (h | ⟨m, n, rfl, rfl, h⟩)
    · exact hashed_eq_of_same h
    · exact hashed_eq_of_collide h
  · intro hash rs
    rw [Bool.eq_iff_iff, isIn_iff, isIn_iff]
    constructor
    · rintro ⟨e, he, hsame⟩
      exact ⟨e, (List.mem_filter.1 he).1, hsame⟩
    · rintro ⟨e, he, hsame⟩
      exact ⟨e, List.mem_filter.2 ⟨he, by rw [hashed_eq_of_same hsame]; exact BEq.rfl⟩, hsame⟩

end Sigil.Library.Reference
