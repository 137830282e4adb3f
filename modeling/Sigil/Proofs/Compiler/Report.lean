import Mathlib
import Sigil.Engine.Basic
import Sigil.Proofs.Compiler.Message
import Sigil.Proofs.Compiler.Scratch

/-!
# What a compilation reports

A compilation reports the messages that stand in its log (`Told`), and one of its own if it was not
successful and no message says so. So it has errors if the compiler was not successful or wrote one,
and what else stands in the log does not count (`errors_of_compile`).
-/

namespace Sigil

open Text

/-! ## Objects in a text -/

theorem Numeral.not_blank_of_read {c : Char} {r : List Char} {x : Numeral × List Char}
    (h : read (c :: r) = some x) : isBlank c = false := by
  unfold read at h
  split at h
  · rename_i heq
    cases heq
    decide
  · simp only [readUnsigned, Option.bind_eq_bind, Option.bind_eq_some_iff] at h
    obtain ⟨y, hwhole, -⟩ := h
    unfold readWhole at hwhole
    split at hwhole
    · rename_i heq
      cases heq
      decide
    · rename_i heq
      cases heq
      split at hwhole
      · rename_i hdigit
        exact not_blank_of_isAlphanum (by rw [Char.isAlphanum, hdigit, Bool.or_true])
      · cases hwhole
    · cases hwhole

namespace Json.Written

theorem isBlank_of_isSpace {c : Char} (h : isSpace c = true) : isBlank c = true := by
  simp only [isSpace, Bool.or_eq_true, beq_iff_eq] at h
  rcases h with ((rfl | rfl) | rfl) | rfl <;> decide

theorem trimStart_skip (s : List Char) : trimStart (skip s) = trimStart s := by
  induction s with
  | nil => rfl
  | cons c s ih =>
    by_cases hc : isSpace c = true
    · rw [skip, List.dropWhile_cons_of_pos hc, ← skip, ih, trimStart, trimStart,
        List.dropWhile_cons_of_pos (isBlank_of_isSpace hc)]
    · rw [skip, List.dropWhile_cons_of_neg hc]

/-- The first character of a value tells whether it is an object, and no value starts with a
blank. -/
theorem start_of_value {s : List Char} {x : Written} {r : Rest s} (h : value s = some (x, r)) :
    ∃ c t, skip s = c :: t ∧ isBlank c = false ∧ (c = '{' ↔ ∃ ms, x = .obj ms) := by
  rw [value] at h
  split at h
  · cases h
  · rename_i c t hskip
    refine ⟨c, t, hskip, ?_⟩
    by_cases hobj : c = '{'
    · rw [if_pos hobj] at h
      refine ⟨hobj ▸ by decide, iff_of_true hobj ?_⟩
      split at h
      · cases h
        exact ⟨[], rfl⟩
      · obtain ⟨ms, -, hx⟩ := Option.map_eq_some_iff.1 h
        cases hx
        exact ⟨ms.1, rfl⟩
    · rw [if_neg hobj] at h
      suffices hother : isBlank c = false ∧ ∀ ms, x ≠ .obj ms from
        ⟨hother.1, iff_of_false hobj fun hex => hex.elim hother.2⟩
      split at h
      · subst c
        split at h
        · cases h
          exact ⟨by decide, fun ms hms => by cases hms⟩
        · obtain ⟨is, -, hx⟩ := Option.map_eq_some_iff.1 h
          cases hx
          exact ⟨by decide, fun ms hms => by cases hms⟩
      · split at h
        · subst c
          obtain ⟨text, -, hx⟩ := Option.map_eq_some_iff.1 h
          cases hx
          exact ⟨by decide, fun ms hms => by cases hms⟩
        · simp only at h
          -- the three words start with a letter each
          iterate 3
            split at h
            · subst c
              obtain ⟨t, -, hx⟩ := Option.map_eq_some_iff.1 h
              cases hx
              exact ⟨by decide, fun ms hms => by cases hms⟩
          split at h
          · cases h
            exact ⟨Numeral.not_blank_of_read ‹_›, fun ms hms => by cases hms⟩
          · cases h

theorem start_of_read {s : List Char} {x : Written} (h : read s = some x) :
    startsWith (trimStart s) ['{'] = true ↔ ∃ ms, x = .obj ms := by
  rw [read] at h
  split at h
  · rename_i x' r hr hvalue
    split at h
    · cases h
      obtain ⟨c, t, hskip, hc, hobj⟩ := start_of_value hvalue
      have htrim : trimStart s = c :: t := by
        rw [← trimStart_skip, hskip, trimStart, List.dropWhile_cons_of_neg (by simp [hc])]
      rw [← hobj, htrim, startsWith_iff_isPrefix, List.cons_prefix_cons, eq_comm]
      exact and_iff_left List.nil_prefix
    · cases h
  · cases h

end Json.Written

namespace Compiler

open Json Library

/-! ## Messages in lines -/

/-- The line is an object whose members write a message. -/
def Holds (line : List Char) (x : Record) : Prop :=
  ∃ ms, Written.read line = some (.obj ms) ∧ WritesRecord ms x

def IsErrorLevel (level : String) : Prop := "error".toList <+: level.toList

def IsWarningLevel (level : String) : Prop := "warning".toList <+: level.toList

/-- The line holds neither an error nor a warning. -/
def IsSilent (line : List Char) : Prop :=
  ∀ x, Holds line x → ¬ IsErrorLevel x.level ∧ ¬ IsWarningLevel x.level

/-- The span that counts: the first primary one, or else the first. -/
inductive Counts : List Span → Span → Prop where
  | primary {before after : List Span} {p : Span} : p.primary = true →
      (∀ q ∈ before, q.primary = false) → Counts (before ++ p :: after) p
  | first {after : List Span} {p : Span} : (∀ q ∈ p :: after, q.primary = false) →
      Counts (p :: after) p

/-- A message as it is told by the one that is written. -/
structure Record.Tells (x : Record) (m : Message) : Prop where
  message_eq : m.message = x.message
  code_eq : m.code = x.code.getD ""
  place : (∃ p, Counts x.spans p ∧ m.file = p.file ∧ m.line = p.line ∧ m.column = p.column) ∨
    x.spans = [] ∧ m.file = "" ∧ m.line = 0 ∧ m.column = 0
  level : m.warning = false ∧ IsErrorLevel x.level ∨ m.warning = true ∧ IsWarningLevel x.level

/-- The messages that lines tell, in their order. -/
inductive Told : List (List Char) → List Message → Prop where
  | nil : Told [] []
  | skip {line : List Char} {lines : List (List Char)} {ms : List Message} :
      IsSilent line → Told lines ms → Told (line :: lines) ms
  | tell {line : List Char} {lines : List (List Char)} {x : Record} {m : Message}
      {ms : List Message} :
      Holds line x → x.Tells m → Told lines ms → Told (line :: lines) (m :: ms)

section

variable {level : String} {x : Record} {m : Message} {line : List Char}

theorem IsErrorLevel.not_isWarningLevel (h : IsErrorLevel level) : ¬ IsWarningLevel level := by
  intro hw
  rcases List.prefix_or_prefix_of_prefix h hw with h | h
  · exact absurd h (by decide)
  · exact absurd h (by decide)

theorem isWarning?_eq_some_iff {w : Bool} :
    isWarning? level = some w ↔
      w = false ∧ IsErrorLevel level ∨ w = true ∧ IsWarningLevel level := by
  unfold isWarning?
  by_cases herror : IsErrorLevel level
  · rw [if_pos (startsWith_iff_isPrefix.2 herror), Option.some.injEq, eq_comm, and_iff_left herror,
      or_iff_left (not_and_of_not_right _ herror.not_isWarningLevel)]
  · rw [if_neg (mt startsWith_iff_isPrefix.1 herror),
      or_iff_right (not_and_of_not_right _ herror)]
    by_cases hwarning : IsWarningLevel level
    · rw [if_pos (startsWith_iff_isPrefix.2 hwarning), Option.some.injEq, eq_comm,
        and_iff_left hwarning]
    · rw [if_neg (mt startsWith_iff_isPrefix.1 hwarning)]
      exact iff_of_false (fun hnone => by cases hnone) (not_and_of_not_right _ hwarning)

theorem counts_iff {p : Span} : Counts x.spans p ↔ x.span? = some p := by
  rw [Record.span?, Option.or_eq_some_iff]
  generalize x.spans = spans
  constructor
  · rintro (⟨hp, hbefore⟩ | hnone)
    · exact .inl (List.find?_eq_some_iff_append.2 ⟨hp, _, _, rfl, by simpa using hbefore⟩)
    · exact .inr ⟨List.find?_eq_none.2 (by simpa using hnone), rfl⟩
  · rintro (hfind | ⟨hnone, hhead⟩)
    · obtain ⟨hp, before, after, rfl, hbefore⟩ := List.find?_eq_some_iff_append.1 hfind
      exact .primary hp (by simpa using hbefore)
    · obtain ⟨after, rfl⟩ := List.head?_eq_some_iff.1 hhead
      exact .first (by simpa using hnone)

theorem span?_eq_none_iff : x.span? = none ↔ x.spans = [] := by
  rw [Record.span?, Option.or_eq_none_iff, List.head?_eq_none_iff]
  exact and_iff_right_of_imp fun h => by rw [h, List.find?_nil]

theorem message?_eq_some_iff : x.message? = some m ↔ x.Tells m := by
  constructor
  · intro h
    obtain ⟨w, hw, h⟩ := Option.bind_eq_some_iff.1 h
    have hlevel := isWarning?_eq_some_iff.1 hw
    split at h
    · cases h
      exact ⟨rfl, rfl, .inl ⟨_, counts_iff.2 ‹_›, rfl, rfl, rfl⟩, hlevel⟩
    · cases h
      exact ⟨rfl, rfl, .inr ⟨span?_eq_none_iff.1 ‹_›, rfl, rfl, rfl⟩, hlevel⟩
  · obtain ⟨message, file, line, column, code, warning⟩ := m
    rintro ⟨hmessage, hcode, hplace, hlevel⟩
    refine Option.bind_eq_some_iff.2 ⟨warning, isWarning?_eq_some_iff.2 hlevel, ?_⟩
    simp only at hmessage hcode hplace
    subst hmessage hcode
    rcases hplace with ⟨p, hp, rfl, rfl, rfl⟩ | ⟨hnil, rfl, rfl, rfl⟩
    · rw [counts_iff.1 hp]
      rfl
    · rw [span?_eq_none_iff.2 hnil]
      rfl

theorem exists_tells {w : Bool}
    (h : w = false ∧ IsErrorLevel x.level ∨ w = true ∧ IsWarningLevel x.level) :
    ∃ m, x.Tells m ∧ m.warning = w := by
  cases hp : x.span? with
  | some p =>
    exact ⟨⟨x.message, p.file, p.line, p.column, x.code.getD "", w⟩,
      ⟨rfl, rfl, .inl ⟨p, counts_iff.2 hp, rfl, rfl, rfl⟩, h⟩, rfl⟩
  | none =>
    exact ⟨⟨x.message, "", 0, 0, x.code.getD "", w⟩,
      ⟨rfl, rfl, .inr ⟨span?_eq_none_iff.1 hp, rfl, rfl, rfl⟩, h⟩, rfl⟩

theorem readMessage?_eq_some_iff : readMessage? line = some m ↔ ∃ x, Holds line x ∧ x.Tells m := by
  unfold readMessage?
  constructor
  · intro h
    split at h
    · rename_i hstart
      obtain ⟨w, hw, h⟩ := Option.bind_eq_some_iff.1 h
      obtain ⟨x, hx, hm⟩ := Option.bind_eq_some_iff.1 h
      obtain ⟨ms, rfl⟩ := (Written.start_of_read hw).1 hstart
      exact ⟨x, ⟨ms, hw, Record.read?_eq_some_iff.1 hx⟩, message?_eq_some_iff.1 hm⟩
    · cases h
  · rintro ⟨x, ⟨ms, hw, hx⟩, hm⟩
    rw [if_pos ((Written.start_of_read hw).2 ⟨ms, rfl⟩)]
    exact Option.bind_eq_some_iff.2
      ⟨_, hw, Option.bind_eq_some_iff.2
        ⟨x, Record.read?_eq_some_iff.2 hx, message?_eq_some_iff.2 hm⟩⟩

theorem readMessage?_eq_none_iff : readMessage? line = none ↔ IsSilent line := by
  rw [Option.eq_none_iff_forall_ne_some]
  constructor
  · intro h x hx
    constructor
    · intro hlevel
      obtain ⟨m, hm, -⟩ := exists_tells (.inl ⟨rfl, hlevel⟩)
      exact h m (readMessage?_eq_some_iff.2 ⟨x, hx, hm⟩)
    · intro hlevel
      obtain ⟨m, hm, -⟩ := exists_tells (.inr ⟨rfl, hlevel⟩)
      exact h m (readMessage?_eq_some_iff.2 ⟨x, hx, hm⟩)
  · intro h m hm
    obtain ⟨x, hx, hm⟩ := readMessage?_eq_some_iff.1 hm
    rcases hm.level with ⟨-, hlevel⟩ | ⟨-, hlevel⟩
    · exact (h x hx).1 hlevel
    · exact (h x hx).2 hlevel

theorem told_filterMap (lines : List (List Char)) : Told lines (lines.filterMap readMessage?) := by
  induction lines with
  | nil => exact .nil
  | cons line lines ih =>
    cases hm : readMessage? line with
    | none =>
      rw [List.filterMap_cons_none hm]
      exact .skip (readMessage?_eq_none_iff.1 hm) ih
    | some m =>
      obtain ⟨x, hx, htells⟩ := readMessage?_eq_some_iff.1 hm
      rw [List.filterMap_cons_some hm]
      exact .tell hx htells ih

theorem filterMap_silent {noise : List (List Char)} (h : ∀ line ∈ noise, IsSilent line) :
    noise.filterMap readMessage? = [] :=
  List.filterMap_eq_nil_iff.2 fun line hline => readMessage?_eq_none_iff.2 (h line hline)

theorem exists_error_iff {log : List Char} :
    (∃ m ∈ readMessages log, m.warning = false) ↔
      ∃ line ∈ lines log, ∃ x, Holds line x ∧ IsErrorLevel x.level := by
  simp only [readMessages, List.mem_filterMap, readMessage?_eq_some_iff]
  constructor
  · rintro ⟨m, ⟨line, hline, x, hx, hm⟩, herror⟩
    refine ⟨line, hline, x, hx, ?_⟩
    rcases hm.level with ⟨-, hlevel⟩ | ⟨hwarning, -⟩
    · exact hlevel
    · rw [herror] at hwarning
      cases hwarning
  · rintro ⟨line, hline, x, hx, hlevel⟩
    obtain ⟨m, hm, herror⟩ := exists_tells (.inl ⟨rfl, hlevel⟩)
    exact ⟨m, ⟨line, hline, x, hx, hm⟩, herror⟩

end

/-! ## Compilations -/

def Status.outcome : Status → Outcome
  | .exit code => .exit code
  | .signal number => .signal number

theorem Status.isSuccess_iff {status : Status} : status.isSuccess = true ↔ status = .exit 0 :=
  decide_eq_true_iff

/-- The error for an unsuccessful status that no message explains. -/
def unexplained (status : Status) (log : String) : Message :=
  .error ("rustc exited with " ++ status.text ++ ": " ++ String.ofList (trim log.toList))

section

variable {status : Status} {log : String} {s : Settings} {g : Registry}
  {compiler : List String → Behaviour} {names : Nat → String} {r : Request} {d e : Disk}
  {o : Output}

theorem errorsOf_eq (status : Status) (log : String) :
    errorsOf status log = readMessages log.toList ++
      if status = .exit 0 ∨ ∃ m ∈ readMessages log.toList, m.warning = false then []
      else [unexplained status log] := by
  have hexplained : (status.isSuccess || (readMessages log.toList).any (!·.warning)) = true ↔
      status = .exit 0 ∨ ∃ m ∈ readMessages log.toList, m.warning = false := by
    simp only [Bool.or_eq_true, Status.isSuccess_iff, List.any_eq_true, Bool.not_eq_true']
  rw [errorsOf]
  simp only [hexplained]
  split
  · rw [List.append_nil]
  · rfl

theorem exists_error_errorsOf_iff :
    (∃ m ∈ errorsOf status log, m.warning = false) ↔
      status ≠ .exit 0 ∨ ∃ m ∈ readMessages log.toList, m.warning = false := by
  rw [errorsOf_eq]
  by_cases hread : ∃ m ∈ readMessages log.toList, m.warning = false
  · rw [if_pos (.inr hread), List.append_nil]
    exact iff_of_true hread (.inr hread)
  · by_cases hstatus : status = .exit 0
    · rw [if_pos (.inl hstatus), List.append_nil]
      exact iff_of_false hread (not_or.2 ⟨not_not_intro hstatus, hread⟩)
    · rw [if_neg (not_or.2 ⟨hstatus, hread⟩)]
      exact iff_of_true ⟨_, List.mem_append_right _ (List.mem_singleton_self _), rfl⟩
        (.inl hstatus)

/-- A process with a status has ended with it, and its log is a text. -/
theorem runProcess_eq_ok {b : Behaviour} {folder : String}
    (h : runProcess s b d folder = (e, .ok (status, log))) :
    b.outcome = status.outcome ∧ ∃ bytes, e.read? (Path.append folder logName) = some bytes ∧
      Utf8.decode bytes = .ok log := by
  unfold runProcess at h
  simp only at h
  split at h
  · cases h
  · split at h
    · split at h
      · cases h
      · cases h
      · cases h
      -- The compiler has ended: its log is read.
      all_goals
        have houtcome := ‹b.outcome = _›
        split at h
        · rename_i hlog
          cases h
          exact ⟨houtcome, Option.map_eq_some_iff.1 hlog⟩
        · cases h
    · cases h

/-- The status and the log of the process decide what the output of a compilation is. -/
theorem compileIn_eq_ok {files : List String} {folder : String}
    (h : compileIn s g compiler r files d folder = (e, .ok o)) :
    ∃ args before after status log,
      runProcess s (compiler args) before folder = (after, .ok (status, log)) ∧
      o = ⟨errorsOf status log, ⟨some r.source, some folder, false⟩,
        Path.append folder (r.assemblyName ++ ".so")⟩ := by
  unfold compileIn at h
  simp only at h
  split at h
  · cases h
  · split at h
    · cases h
    · rename_i hrun
      split at h
      · split at h
        · cases h
          exact ⟨_, _, _, _, _, hrun, rfl⟩
        · cases h
      · cases h
        exact ⟨_, _, _, _, _, hrun, rfl⟩

theorem compile_eq_ok (h : compile s g compiler names r d = (e, .ok o)) :
    ∃ folder args before after status log,
      runProcess s (compiler args) before folder = (after, .ok (status, log)) ∧
      o = ⟨errorsOf status log, ⟨some r.source, some folder, false⟩,
        Path.append folder (r.assemblyName ++ ".so")⟩ := by
  rcases compile_cases s g compiler names r d with
    ⟨y, hy⟩ | hscratch | ⟨f, folder, files, j, -, -, hends⟩
  · rw [hy compiler] at h
    cases h
  · rw [hscratch] at h
    cases h
  · exact ⟨folder, compileIn_eq_ok (ended_eq_ok_iff.1 (hends.symm.trans h))⟩

/-- The output of a compilation has errors if the compiler was not successful or a line of its log
holds one. Its messages are those of the lines, in their order, and one that quotes the log if the
compiler was not successful and no line says why; silent lines between the others change the
quotation only. A type is loaded only of an output without errors. -/
theorem errors_of_compile (h : compile s g compiler names r d = (e, .ok o)) :
    ∃ folder args before after status log bytes messages,
      runProcess s (compiler args) before folder = (after, .ok (status, log)) ∧
      (compiler args).outcome = status.outcome ∧
      after.read? (Path.append folder logName) = some bytes ∧ Utf8.decode bytes = .ok log ∧
      o = ⟨errorsOf status log, ⟨some r.source, some folder, false⟩,
        Path.append folder (r.assemblyName ++ ".so")⟩ ∧
      (o.hasErrors = true ↔
        status ≠ .exit 0 ∨ ∃ line ∈ lines log.toList, ∃ x, Holds line x ∧ IsErrorLevel x.level) ∧
      Told (lines log.toList) messages ∧
      (∀ front noise back log', lines log.toList = front ++ back →
        (∀ line ∈ noise, IsSilent line) → lines log'.toList = front ++ noise ++ back →
        errorsOf status log' = messages ++
          if status = .exit 0 ∨ ∃ m ∈ messages, m.warning = false then []
          else [.error ("rustc exited with " ++ status.text ++ ": " ++
            String.ofList (trim log'.toList))]) ∧
      ∀ copied spec library c,
        Engine.loadBuilt copied spec ⟨o, library⟩ = .ok c → o.hasErrors = false := by
  obtain ⟨folder, args, before, after, status, log, hrun, rfl⟩ := compile_eq_ok h
  obtain ⟨houtcome, bytes, hbytes, hlog⟩ := runProcess_eq_ok hrun
  refine ⟨folder, args, before, after, status, log, bytes, readMessages log.toList, hrun, houtcome,
    hbytes, hlog, rfl, ?_, told_filterMap _, ?_, ?_⟩
  · rw [← exists_error_iff, ← exists_error_errorsOf_iff, Output.hasErrors, List.any_eq_true]
    simp only [Bool.not_eq_true']
  · intro front noise back log' hlines hnoise hlines'
    have hread : readMessages log'.toList = readMessages log.toList := by
      rw [readMessages, hlines', readMessages, hlines, List.filterMap_append, List.filterMap_append,
        filterMap_silent hnoise, List.append_nil, ← List.filterMap_append]
    rw [errorsOf_eq, hread]
    rfl
  · intro copied spec library c hload
    rw [Engine.loadBuilt] at hload
    split at hload
    · cases hload
    · exact Bool.eq_false_iff.2 ‹_›

/-- A compilation of which each step is done has the output that its status and its log decide. -/
theorem compile_eq_ok_of {files : List String} {folder : String} {scratch ready : Disk}
    (hfiles : referenceFiles r.references = .ok files)
    (hscratch : d.createNamed s.tempDir names = (scratch, .ok folder))
    (hsource : scratch.write (Path.append folder (r.assemblyName ++ ".rs")) (Utf8.encode r.source) =
      .ok ready)
    (hrun : ∀ args, runProcess s (compiler args) ready folder = (e, .ok (status, log)))
    (hdebug : s.debug = false) :
    compile s g compiler names r d = (e, .ok ⟨errorsOf status log,
      ⟨some r.source, some folder, false⟩, Path.append folder (r.assemblyName ++ ".so")⟩) := by
  simp only [compile, hfiles, hscratch, compileIn, hsource, hrun, hdebug, Bool.false_eq_true,
    if_false]

end

/-! ## A compiler that is killed -/

/-- A warning with two spans, an array and an object; the second is primary. -/
def warningLine : List Char :=
  "\x7b\"message\":\"m\",\"level\":\"warning\",\"spans\":[[\"a\",1,2],".toList ++
  "\x7b\"file_name\":\"b\",\"line_start\":3,\"column_start\":4,\"is_primary\":true\x7d]\x7d".toList

def crashLog : String := String.ofList (warningLine ++ "\nkilled\n".toList)

set_option maxRecDepth 20000 in
theorem read_warningLine :
    Written.read warningLine = some (.obj [(some "message", .str "m"),
      (some "level", .str "warning"), (some "spans", .arr
        [.arr [.str "a", .num ⟨false, ['1'], [], none⟩, .num ⟨false, ['2'], [], none⟩],
        .obj [(some "file_name", .str "b"), (some "line_start", .num ⟨false, ['3'], [], none⟩),
          (some "column_start", .num ⟨false, ['4'], [], none⟩),
          (some "is_primary", .bool true)]])]) := by
  cbv

theorem readMessages_crashLog : readMessages crashLog.toList = [⟨"m", "b", 3, 4, "", true⟩] := by
  have hlines : lines crashLog.toList = [warningLine, "killed".toList] := by
    rw [crashLog, String.toList_ofList]
    decide +kernel
  have hwarning : readMessage? warningLine = some ⟨"m", "b", 3, 4, "", true⟩ := by
    rw [readMessage?, read_warningLine]
    decide +kernel
  have hsilent : readMessage? "killed".toList = none := by decide +kernel
  rw [readMessages, hlines, List.filterMap_cons_some hwarning, List.filterMap_cons_none hsilent,
    List.filterMap_nil]

theorem ok_attempt {ε : Type} {d : Disk} {r : Except ε Disk} (h : r.isOk = true) :
    r = .ok (attempt d r) := by
  cases r with
  | ok => rfl
  | error => cases h

def crashSettings : Settings := { program := "/rustc", tempDir := "/t" }

def crashDisk : Disk := ⟨[(["t"], .dir), (["rustc"], .file .program [])], []⟩

/-- The compiler is killed after it has written its log. -/
def compileCrashing : Disk × Except RunError Output :=
  compile crashSettings {} (fun _ => { log := Utf8.encode crashLog, outcome := .signal 9 })
    (fun k => toString k) ⟨"x", "T", ∅, []⟩ crashDisk

theorem compileCrashing_eq_ok :
    compileCrashing.2 = .ok ⟨errorsOf (.signal 9) crashLog, ⟨some "x", some "/t/0", false⟩,
      "/t/0/T.so"⟩ := by
  let scratch : Disk := (crashDisk.createNamed "/t" fun k => toString k).1
  have hscratch : crashDisk.createNamed "/t" (fun k => toString k) = (scratch, .ok "/t/0") :=
    Prod.ext rfl (by decide +kernel)
  have hsource := ok_attempt (d := scratch) (r := scratch.write "/t/0/T.rs" (Utf8.encode "x"))
    (by decide +kernel)
  let killed : Behaviour := { log := Utf8.encode crashLog, outcome := .signal 9 }
  have hrun : (runProcess crashSettings killed
      (attempt scratch (scratch.write "/t/0/T.rs" (Utf8.encode "x"))) "/t/0").2 =
        .ok (.signal 9, crashLog) := by
    decide +kernel
  exact congrArg Prod.snd (compile_eq_ok_of (s := crashSettings) (g := {})
    (r := ⟨"x", "T", ∅, []⟩) rfl hscratch hsource (fun _ => Prod.ext rfl hrun) rfl)

/-- A killed process has written no error, and its output has errors all the same. The warning that
it has written stands at its primary span. -/
theorem crash_reported : ∃ o, compileCrashing.2 = .ok o ∧ o.hasErrors = true ∧
    o.errors = [⟨"m", "b", 3, 4, "", true⟩,
      .error ("rustc exited with signal: 9 (SIGKILL): " ++ String.ofList (trim crashLog.toList))] := by
  obtain ⟨_, _, _, _, status, _, _, _, -, houtcome, -, -, -, herrors, -⟩ :=
    errors_of_compile (Prod.snd_eq_iff.1 compileCrashing_eq_ok)
  refine ⟨_, compileCrashing_eq_ok, herrors.2 (.inl ?_), ?_⟩
  · rintro rfl
    cases houtcome
  · rw [errorsOf_eq, readMessages_crashLog]
    rfl

end Compiler
end Sigil
