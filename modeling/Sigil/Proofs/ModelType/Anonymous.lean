import Sigil.Code.Spec
import Sigil.Proofs.ModelType.Form
import Sigil.Proofs.Text.Occurrence

/-!
# Anonymous types

A segment of a path that starts with a brace makes a type anonymous. A text is `Marked` if `::{`
stands in it in front of its first semicolon. Reading cuts a text only at characters that are none
of these three, and drops only what stands behind a semicolon, so the mark goes whole into one part
(`Marked.inner`) and in the end into a path. So no marked text names a type that can be compiled
(`hasAnonymous_parse`); a colon more would shift where the path is cut.
-/

namespace Sigil.ModelType

open Text Code

/-! ## Anonymous paths -/

def pathMark : List Char := [':', ':']

/-- The start of a segment in braces behind another segment. -/
def braceMark : List Char := [':', ':', '{']

def tripleColon : List Char := [':', ':', ':']

theorem isAnonymousPath_of_cut? {s a b : List Char} (h : cut? pathMark s = some (a, b)) :
    isAnonymousPath s = (startsWith (trimStart a) ['{'] || isAnonymousPath b) := by
  rw [isAnonymousPath, pieces_of_some (w := [':', ':']) _ h]
  rfl

theorem startsWith_brace (s : List Char) : startsWith (trimStart ('{' :: s)) ['{'] = true := by
  have : trimStart ('{' :: s) = '{' :: s := List.dropWhile_cons_of_neg (by decide)
  rw [this]
  rfl

theorem isAnonymousPath_brace (s : List Char) : isAnonymousPath ('{' :: s) = true := by
  rw [isAnonymousPath, pieces]
  split
  · rw [List.any_cons, startsWith_brace, Bool.true_or]
  · rename_i a b hab
    have hs := eq_of_cut? hab
    cases a with
    | nil => cases hs
    | cons c a =>
      obtain ⟨rfl, -⟩ := List.cons.inj hs
      rw [List.any_cons, startsWith_brace, Bool.true_or]

/-- Behind `::` a brace starts a segment, unless a third colon stands in front. -/
theorem isAnonymousPath_of_mark {s a b : List Char} (hs : s = a ++ (braceMark ++ b))
    (htriple : ¬ tripleColon <:+: s) : isAnonymousPath s = true := by
  generalize hlen : s.length = n
  induction n using Nat.strongRecOn generalizing s a with
  | ind n ih =>
    obtain ⟨x, y, hxy, k, rfl⟩ := exists_cut? pathMark a ('{' :: b)
    have hcut : cut? pathMark s = some (x, y) := hs ▸ hxy
    have hfirst : s = x ++ (pathMark ++ y) := by
      rw [eq_of_cut? hcut, List.append_assoc]
    have hrest : pathMark ++ y = k ++ (braceMark ++ b) := by
      rw [hs, List.append_assoc] at hfirst
      exact (List.append_cancel_left hfirst).symm
    rw [isAnonymousPath_of_cut? hcut, Bool.or_eq_true]
    refine .inr ?_
    match k with
    | [] =>
      cases hrest
      exact isAnonymousPath_brace b
    | [c] =>
      cases hrest
      exact absurd ⟨x, '{' :: b, by rw [List.append_assoc]; exact hfirst.symm⟩ htriple
    | c :: d :: k =>
      obtain ⟨-, -, hy⟩ : _ ∧ _ ∧ y = k ++ (braceMark ++ b) := by
        simpa [pathMark] using hrest
      have hpart : y <:+: s := ⟨x ++ pathMark, [], by rw [hfirst]; simp⟩
      refine ih y.length ?_ hy (fun h => htriple (h.trans hpart)) rfl
      rw [← hlen, hfirst]
      simp only [List.length_append, pathMark, List.length_cons]
      omega

theorem brace_mem_of_isAnonymousPath {s : List Char} (h : isAnonymousPath s = true) : '{' ∈ s := by
  obtain ⟨m, hm, hbrace⟩ := List.any_eq_true.1 h
  obtain ⟨r, hr⟩ := Option.isSome_iff_exists.1 hbrace
  have htrim : '{' ∈ trimStart m := by
    rw [after?_eq_some_iff.1 hr]
    exact List.mem_cons_self
  exact (isInfix_of_mem_pieces _ hm).subset ((List.dropWhile_sublist isBlank).subset htrim)

/-! ## Marked texts -/

/-- The first `::{` of the text stands in front of its first semicolon, if it has one. -/
def Marked (s : List Char) : Prop := ∃ a b, cut? braceMark s = some (a, b) ∧ ';' ∉ a

theorem marked_iff {s : List Char} :
    Marked s ↔ ∃ a b, s = a ++ (braceMark ++ b) ∧ ';' ∉ a := by
  constructor
  · rintro ⟨a, b, hab, ha⟩
    exact ⟨a, b, by rw [eq_of_cut? hab, List.append_assoc], ha⟩
  · rintro ⟨a, b, rfl, ha⟩
    obtain ⟨x, y, hxy, hx⟩ := exists_cut? braceMark a b
    exact ⟨x, y, hxy, fun h => ha (hx.subset h)⟩

namespace Marked

variable {s x y : List Char} {c : Char}

theorem colon_mem (h : Marked s) : ':' ∈ s := by
  obtain ⟨a, b, rfl, -⟩ := marked_iff.1 h
  simp [braceMark]

theorem not_blank (h : Marked s) : ¬ IsBlankText s := fun hb =>
  absurd (hb ':' h.colon_mem) (by decide)

/-- The mark does not reach across a character that it does not have. -/
theorem split (hc : c ∉ braceMark) (h : Marked (x ++ c :: y)) :
    Marked x ∨ c ≠ ';' ∧ Marked y := by
  obtain ⟨a, b, hab, ha⟩ := marked_iff.1 h
  rcases List.append_eq_append_iff.1 hab with ⟨k, rfl, hk⟩ | ⟨k, rfl, hk⟩
  · cases k with
    | nil =>
      cases hk
      exact absurd List.mem_cons_self hc
    | cons d k =>
      obtain ⟨rfl, rfl⟩ := List.cons.inj hk
      simp only [List.mem_append, List.mem_cons, not_or] at ha
      exact .inr ⟨Ne.symm ha.2.1, marked_iff.2 ⟨k, b, rfl, ha.2.2⟩⟩
  · rcases List.append_eq_append_iff.1 hk with ⟨e, rfl, -⟩ | ⟨e, he, hy⟩
    · exact .inl (marked_iff.2 ⟨a, e, rfl, ha⟩)
    · cases e with
      | nil =>
        rw [List.append_nil] at he
        exact .inl (marked_iff.2 ⟨a, [], by rw [he, List.append_nil], ha⟩)
      | cons d e =>
        obtain ⟨rfl, -⟩ := List.cons.inj hy
        exact absurd (he ▸ List.mem_append_right k List.mem_cons_self) hc

theorem not_nil : ¬ Marked [] := fun h => absurd h.colon_mem List.not_mem_nil

theorem behind (hx : ∀ c ∈ x, c ∉ braceMark) (h : Marked (x ++ y)) : Marked y := by
  induction x with
  | nil => exact h
  | cons c x ih =>
    rw [List.forall_mem_cons] at hx
    rcases split (x := []) hx.1 h with h | ⟨-, h⟩
    · exact absurd h not_nil
    · exact ih hx.2 h

theorem before (hy : ∀ c ∈ y, c ∉ braceMark) (h : Marked (x ++ y)) : Marked x := by
  cases y with
  | nil => rwa [List.append_nil] at h
  | cons c y =>
    rw [List.forall_mem_cons] at hy
    rcases h.split hy.1 with h | ⟨-, h⟩
    · exact h
    · rw [← List.append_nil y] at h
      exact absurd (h.behind hy.2) not_nil

end Marked

theorem notMem_braceMark_of_isBlank {c : Char} (h : isBlank c = true) : c ∉ braceMark := by
  intro hc
  have hall : braceMark.all (!isBlank ·) = true := by decide
  simpa [h] using List.all_eq_true.1 hall c hc

theorem Marked.trim {s : List Char} (h : Marked s) : Marked (trim s) := by
  obtain ⟨a, b, ha, hb, hs⟩ := exists_trim s
  rw [hs] at h
  exact (h.behind fun c hc => notMem_braceMark_of_isBlank (ha c hc)).before fun c hc =>
    notMem_braceMark_of_isBlank (hb c hc)

/-! ## Parts of a form -/

theorem isInfix_trim (s : List Char) : trim s <:+: s := by
  obtain ⟨a, b, -, -, hs⟩ := exists_trim s
  exact ⟨a, b, by rw [List.append_assoc]; exact hs.symm⟩

section

variable {s m : List Char} {ps : List (List Char)} {f : Form}

theorem Cuts.isInfix {sep : Char} (h : Cuts sep s ps) (hm : m ∈ ps) : m <:+: s := by
  induction h with
  | last => exact List.mem_singleton.1 hm ▸ List.infix_rfl
  | @cons s r ps _ _ _ ih =>
    rcases List.mem_cons.1 hm with rfl | hm
    · exact (List.prefix_append m (sep :: r)).isInfix
    · exact (ih hm).trans ⟨s ++ [sep], [], by simp⟩

theorem isInfix_of_mem_members (h : m ∈ members s) : m <:+: s :=
  (cuts_parts s).isInfix (List.mem_filter.1 h).1

/-- The texts that a form is made of stand in its text, and so does its path. -/
theorem Spelled.isInfix (hs : Spelled s f) :
    (∀ m ∈ f.inner, m <:+: s) ∧ ∀ p args, f = .path p args → p <:+: s := by
  cases hs with
  | dynamic => simp [Form.inner]
  | @mutable b u _ =>
    have hu : u <:+: '&' :: (b ++ (mutableWord ++ u)) := ⟨'&' :: (b ++ mutableWord), [], by simp⟩
    simpa [Form.inner] using hu
  | @shared b u _ _ _ =>
    have hu : u <:+: '&' :: (b ++ u) := ⟨'&' :: b, [], by simp⟩
    simpa [Form.inner] using hu
  | @array e l _ =>
    have he : e <:+: '[' :: (e ++ ';' :: l ++ [']']) := ⟨['['], ';' :: l ++ [']'], by simp⟩
    simpa [Form.inner] using he
  | @slice e _ =>
    have he : e <:+: '[' :: (e ++ [']']) := ⟨['['], [']'], by simp⟩
    simpa [Form.inner] using he
  | @tuple m =>
    have hm : m <:+: '(' :: (m ++ [')']) := ⟨['('], [')'], by simp⟩
    exact ⟨fun n hn => (isInfix_of_mem_members hn).trans hm, by simp⟩
  | @generic p a _ _ =>
    have ha : a <:+: p ++ '<' :: (a ++ ['>']) := ⟨p ++ ['<'], ['>'], by simp⟩
    refine ⟨fun n hn => (isInfix_of_mem_members hn).trans ha, ?_⟩
    rintro _ _ ⟨⟩
    exact (List.prefix_append p _).isInfix
  | path =>
    refine ⟨by simp [Form.inner], ?_⟩
    rintro _ _ ⟨⟩
    exact List.infix_rfl

theorem Cuts.marked (h : Cuts ',' s ps) (hs : Marked s) : ∃ m ∈ ps, Marked m := by
  induction h with
  | @last s _ => exact ⟨s, List.mem_cons_self, hs⟩
  | @cons s r ps _ _ _ ih =>
    rcases hs.split (by decide) with hs | ⟨-, hr⟩
    · exact ⟨s, List.mem_cons_self, hs⟩
    · obtain ⟨m, hm, hmark⟩ := ih hr
      exact ⟨m, List.mem_cons_of_mem s hm, hmark⟩

theorem Marked.members (h : Marked s) : ∃ m ∈ members s, Marked m := by
  obtain ⟨m, hm, hmark⟩ := (cuts_parts s).marked h
  have hne : Text.trim m ≠ [] := fun h => hmark.not_blank ((trim_eq_nil_iff m).1 h)
  exact ⟨m, List.mem_filter.2 ⟨hm, by simpa using hne⟩, hmark⟩

/-- The mark of a text is in one of the texts that its form is made of, or in its path. -/
theorem Marked.inner (hs : Spelled s f) (h : Marked s) :
    (∃ m ∈ f.inner, Marked m) ∨ ∃ p args, f = .path p args ∧ Marked p := by
  have hbracket : ∀ {a b : Char} {x : List Char}, a ∉ braceMark → b ∉ braceMark →
      Marked (a :: (x ++ [b])) → Marked x := fun ha hb h =>
    ((h.behind (x := [_]) (by simpa using ha)).before (by simpa using hb))
  cases hs with
  | dynamic => exact absurd h.colon_mem (by decide)
  | @mutable b u hb =>
    have hamp : Marked (b ++ (mutableWord ++ u)) := h.behind (x := ['&']) (by simp [braceMark])
    have hword : Marked (mutableWord ++ u) :=
      hamp.behind fun c hc => notMem_braceMark_of_isBlank (hb c hc)
    exact .inl ⟨u, List.mem_cons_self, hword.behind (by simp [mutableWord, braceMark])⟩
  | @shared b u hb _ _ =>
    have hamp : Marked (b ++ u) := h.behind (x := ['&']) (by simp [braceMark])
    exact .inl ⟨u, List.mem_cons_self,
      hamp.behind fun c hc => notMem_braceMark_of_isBlank (hb c hc)⟩
  | @array e l _ =>
    -- what stands behind the semicolon is dropped, and the mark is not there
    rcases (hbracket (by decide) (by decide) h).split (by decide) with he | ⟨hsep, -⟩
    · exact .inl ⟨e, List.mem_cons_self, he⟩
    · exact absurd rfl hsep
  | @slice e _ => exact .inl ⟨e, List.mem_cons_self, hbracket (by decide) (by decide) h⟩
  | @tuple m => exact .inl (hbracket (by decide) (by decide) h).members
  | @generic p a _ _ =>
    rcases h.split (by decide) with hp | ⟨-, ha⟩
    · exact .inr ⟨p, _, rfl, hp⟩
    · exact .inl (ha.before (by simp [braceMark])).members
  | path => exact .inr ⟨s, [], rfl, h⟩

end

/-! ## Types of marked texts -/

theorem anyAnonymous_iff {ts : List ModelType} :
    anyAnonymous ts = true ↔ ∃ t ∈ ts, t.hasAnonymous = true := by
  induction ts with
  | nil => simp [anyAnonymous]
  | cons t ts ih => simp [anyAnonymous, ih]

theorem anyAnonymous_map_read {ms : List (List Char)} :
    anyAnonymous (ms.map read) = true ↔ ∃ m ∈ ms, (read m).hasAnonymous = true := by
  simp [anyAnonymous_iff]

/-- A type has an anonymous part if one of its parts has or if its path is anonymous. -/
theorem hasAnonymous_type_iff (s : List Char) (f : Form) :
    (f.type s).hasAnonymous = true ↔ (∃ m ∈ f.inner, (read m).hasAnonymous = true) ∨
      ∃ p args, f = .path p args ∧ isAnonymousPath p = true := by
  cases f with
  | path p args =>
    have hpath : (∃ q as, Form.path p args = .path q as ∧ isAnonymousPath q = true) ↔
        isAnonymousPath p = true := by simp
    rw [hpath, Form.type, Form.inner]
    split
    · rename_i h
      simp [hasAnonymous, h]
    · rename_i h
      rw [hasAnonymous, anyAnonymous_map_read]
      simp [h]
  | tuple ms => simp [Form.type, Form.inner, hasAnonymous, anyAnonymous_map_read]
  | _ => simp [Form.type, Form.inner, hasAnonymous]

theorem hasAnonymous_of_marked {s : List Char} (htriple : ¬ tripleColon <:+: s) (h : Marked s) :
    (read s).hasAnonymous = true := by
  induction s using induction_on with
  | h s ih =>
    have hspelled := spelled_form (trim s)
    have hpart : ∀ {m : List Char}, m <:+: trim s → ¬ tripleColon <:+: m := fun hm ht =>
      htriple (ht.trans (hm.trans (isInfix_trim s)))
    rw [read_eq, hasAnonymous_type_iff]
    rcases h.trim.inner hspelled with ⟨m, hm, hmark⟩ | ⟨p, args, hp, hmark⟩
    · exact .inl ⟨m, hm, ih m hm (hpart (hspelled.isInfix.1 m hm)) hmark⟩
    · obtain ⟨a, b, hab, -⟩ := marked_iff.1 hmark
      exact .inr ⟨p, args, hp, isAnonymousPath_of_mark hab (hpart (hspelled.isInfix.2 p args hp))⟩

theorem brace_mem_of_hasAnonymous {s : List Char} (h : (read s).hasAnonymous = true) : '{' ∈ s := by
  induction s using induction_on with
  | h s ih =>
    have hspelled := spelled_form (trim s)
    rw [read_eq, hasAnonymous_type_iff] at h
    refine (isInfix_trim s).subset ?_
    rcases h with ⟨m, hm, hread⟩ | ⟨p, args, hp, hpath⟩
    · exact (hspelled.isInfix.1 m hm).subset (ih m hm hread)
    · exact (hspelled.isInfix.2 p args hp).subset (brace_mem_of_isAnonymousPath hpath)

/-! ## Specifications -/

/-- A specification whose model type has an anonymous part is refused, and for that reason if its
class name is in order. -/
theorem check_of_hasAnonymous {c : ClassSpec} {t : ModelType} (hmodel : c.model = some t)
    (ht : t.hasAnonymous = true) :
    ∃ e, c.check = .error e ∧
      (isIdentifier c.className.toList = true → e = .anonymousModel t.text) := by
  unfold ClassSpec.check
  split
  · rename_i hempty
    refine ⟨_, rfl, fun hname => ?_⟩
    rw [String.isEmpty_iff.1 hempty] at hname
    cases hname
  · split
    · rename_i hname
      refine ⟨_, rfl, fun h => ?_⟩
      simp [h] at hname
    · rw [hmodel]
      exact ⟨.anonymousModel t.text, if_pos ht, fun _ => rfl⟩

/-- A text without `:::` whose first `::{` stands in front of its first semicolon is read as a type
with an anonymous part, and no specification with that model type is accepted. A text without a
brace is read as a type without an anonymous part. -/
theorem hasAnonymous_parse (s : String) :
    (¬ tripleColon <:+: s.toList → Marked s.toList →
      (parse s).hasAnonymous = true ∧
      ∀ c : ClassSpec, c.model = some (parse s) → ∃ e, c.check = .error e ∧
        (isIdentifier c.className.toList = true → e = .anonymousModel (parse s).text)) ∧
    ('{' ∉ s.toList → (parse s).hasAnonymous = false) := by
  refine ⟨fun htriple hmark => ?_, fun hbrace => ?_⟩
  · have h : (parse s).hasAnonymous = true := hasAnonymous_of_marked htriple hmark
    exact ⟨h, fun c hmodel => check_of_hasAnonymous hmodel h⟩
  · rw [Bool.eq_false_iff]
    exact fun h => hbrace (brace_mem_of_hasAnonymous h)

/-- A closure in an array in a tuple, where a bracket is missing. -/
theorem closure_in_open_tuple_refused :
    let s := "(u8, &mut [Vec<app::run::\x7b\x7bclosure\x7d\x7d; 3], u8"
    let c : ClassSpec := { className := "Page", template := "", model := some (parse s) }
    ¬ tripleColon <:+: s.toList ∧ Marked s.toList ∧ '{' ∉ "[Vec<u8>; 3]".toList ∧
    (parse s).hasAnonymous = true ∧ c.check = .error (.anonymousModel (parse s).text) ∧
    (parse "[Vec<u8>; 3]").hasAnonymous = false := by
  intro s c
  have htriple : ¬ tripleColon <:+: s.toList := not_isInfix_of_cut? (by decide)
  have hmark : Marked s.toList :=
    ⟨"(u8, &mut [Vec<app::run".toList, "\x7bclosure\x7d\x7d; 3], u8".toList, by decide, by decide⟩
  have hbrace : '{' ∉ "[Vec<u8>; 3]".toList := by decide
  obtain ⟨h, hcheck⟩ := (hasAnonymous_parse s).1 htriple hmark
  obtain ⟨e, he, hname⟩ := hcheck c rfl
  refine ⟨htriple, hmark, hbrace, h, ?_, (hasAnonymous_parse _).2 hbrace⟩
  rw [he, hname (by decide)]

end Sigil.ModelType
