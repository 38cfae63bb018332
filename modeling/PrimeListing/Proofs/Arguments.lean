/-
What an argument does to a scan that still reads options.

Reading an argument keeps all of its text, so what a scan makes of an argument
can be told from the text again.  Few arguments let a scan go on: the end of
the options, the debug flag standing alone, and a value in the place that is
still free.  Every other one ends the scan.

* `written_read` — an argument that was read can be written out again.
* `read_of_count` — the text of a count is always a value.
* `takeDebug_eq_ok_iff` — the debug flag is taken once, and only behind a count
  that can be read.
* `foldlM_takeLetter_eq_ok` — no cluster can be taken but `-d` itself.
* `step_eq_ok_iff` — the arguments that let a scan go on, with what it has
  gathered behind them.
-/
import PrimeListing.Proofs.Reading
import PrimeListing.Proofs.SingleValue

namespace PrimeListing.Command

/-- The arguments before the end of the options. -/
def optionPart (args : List String) : List String := args.takeWhile (· ≠ "--")

theorem optionPart_cons {arg : String} (h : arg ≠ "--") (args : List String) :
    optionPart (arg :: args) = arg :: optionPart args :=
  List.takeWhile_cons_of_pos (decide_eq_true h)

theorem optionPart_append {args : List String} (h : "--" ∉ args) (more : List String) :
    optionPart (args ++ more) = args ++ optionPart more := by
  refine List.takeWhile_append_of_pos ?_
  intro arg harg
  refine decide_eq_true ?_
  rintro rfl
  exact h harg

/-- Whether an argument is the debug flag as a whole. -/
def isDebugFlag (arg : String) : Bool := arg = "-d" || arg = "--debug"

theorem Flag.letter_of_ofLetter? {c : Char} {f : Flag} (h : Flag.ofLetter? c = some f) :
    f.letter = c := by
  rw [Flag.ofLetter?] at h
  have hfound := List.find?_some h
  exact of_decide_eq_true hfound

theorem Flag.name_of_ofName? {s : String} {f : Flag} (h : Flag.ofName? s = some f) :
    f.name = s := by
  rw [Flag.ofName?] at h
  have hfound := List.find?_some h
  exact of_decide_eq_true hfound

/-! ### One argument -/

namespace Argument

/-- An argument as it is written. -/
def written : Argument → String
  | .endOfOptions => "--"
  | .long name none => "--" ++ name
  | .long name (some text) => "--" ++ name ++ "=" ++ text
  | .cluster letters => String.ofList ('-' :: letters)
  | .value text => text

theorem written_ofLong (cs : List Char) :
    (ofLong cs).written = String.ofList ('-' :: '-' :: cs) := by
  have hsplit : cs.takeWhile (· ≠ '=') ++ cs.dropWhile (· ≠ '=') = cs :=
    List.takeWhile_append_dropWhile
  have hhyphens : "--" = String.ofList ['-', '-'] := rfl
  rw [ofLong]
  cases hbehind : cs.dropWhile (· ≠ '=') with
  | nil =>
    rw [hbehind, List.append_nil] at hsplit
    simp only [written, hsplit, hhyphens, ← String.ofList_append, List.cons_append,
      List.nil_append]
  | cons sign behind =>
    -- what ends the name is the equals sign
    have hsign : sign = '=' := by
      have hne : cs.dropWhile (· ≠ '=') ≠ [] := by
        rw [hbehind]
        exact List.cons_ne_nil sign behind
      have hfirst := List.head_dropWhile_not (· ≠ '=') hne
      simp only [hbehind, List.head_cons] at hfirst
      exact Decidable.not_not.mp (of_decide_eq_false hfirst)
    have hequals : "=" = String.ofList ['='] := rfl
    rw [hbehind, hsign] at hsplit
    simp only [written, hhyphens, hequals, ← String.ofList_append, List.append_assoc,
      List.cons_append, List.nil_append, hsplit]

/-- Reading an argument loses nothing of it. -/
theorem written_read (expectsValue : Bool) (s : String) : (read expectsValue s).written = s := by
  have hlist : String.ofList s.toList = s := String.ofList_toList
  unfold read
  split
  · rfl
  · next c rest hs =>
    rw [hs] at hlist
    split
    · rfl
    · next hc =>
      obtain rfl : c = '-' := Decidable.not_not.mp hc
      split
      · rfl
      · next d more =>
        split
        · next hd =>
          subst hd
          split
          · next hempty =>
            obtain rfl := List.isEmpty_iff.mp hempty
            exact hlist
          · exact (written_ofLong more).trans hlist
        · split
          · rfl
          · exact hlist

/-- A cluster has a first letter, and that is not a hyphen. -/
theorem exists_of_read_cluster {expectsValue : Bool} {s : String} {letters : List Char}
    (h : read expectsValue s = .cluster letters) :
    ∃ c more, letters = c :: more ∧ c ≠ '-' := by
  unfold read at h
  split at h
  · cases h
  split at h
  · cases h
  split at h
  · cases h
  split at h
  · split at h
    · cases h
    · rw [ofLong] at h
      split at h <;> cases h
  · split at h
    · cases h
    · cases h
      exact ⟨_, _, rfl, by assumption⟩

/-- No text of a count begins with a hyphen, so none is taken for an option. -/
theorem read_of_count (expectsValue : Bool) {s : String} {n : Count}
    (h : Count.read s = .ok n) : read expectsValue s = .value s := by
  refine read_eq_value_of_head ?_
  intro hhead
  rw [Count.read_of_hyphen hhead] at h
  cases h

end Argument

/-! ### One step -/

namespace Scan

/-- Take the debug flag, once the count that was put aside has been read. -/
def takeDebug (s : Scan) : Except Stop Scan := s.settle.bind fun t => t.takeFlag .debug

theorem settle_eq_ok {s t : Scan} (h : s.settle = .ok t) : t = { s with slot := t.slot } := by
  unfold settle at h
  split at h
  · cases h
    rfl
  · cases h
    rfl
  · split at h
    · cases h
      rfl
    · cases h

theorem takeDebug_eq_ok_iff {s t : Scan} :
    s.takeDebug = .ok t ↔
      s.debug = false ∧ ∃ u, s.settle = .ok u ∧ t = { u with debug := true } := by
  unfold takeDebug
  cases hsettle : s.settle with
  | error stop => simp [Except.bind]
  | ok u =>
    have hdebug : u.debug = s.debug := by rw [settle_eq_ok hsettle]
    cases hs : s.debug with
    | true => simp [Except.bind, takeFlag, hdebug, hs]
    | false => simp [Except.bind, takeFlag, hdebug, hs, eq_comm]

theorem place_eq_ok_iff {s t : Scan} {text : String} :
    s.place text = .ok t ↔ s.slot = .free ∧ t = { s with slot := .pending text } := by
  cases hslot : s.slot with
  | free => simp [place, hslot, Slot.isFree, eq_comm]
  | pending _ | filled _ => simp [place, hslot, Slot.isFree]

theorem takeLetter_eq_ok {s t : Scan} {c : Char} (h : s.takeLetter c = .ok t) :
    c = 'd' ∧ s.takeDebug = .ok t := by
  unfold takeLetter at h
  split at h
  · cases h
  · next f hf =>
    have hletter := Flag.letter_of_ofLetter? hf
    cases f with
    | debug => exact ⟨hletter.symm, h⟩
    | help => cases hsettle : s.settle <;> rw [hsettle] at h <;> cases h

/-- Of a cluster only the letter of the debug flag can be taken, and nothing behind it: the flag is
on by then, and no other letter lets the scan go on. -/
theorem foldlM_takeLetter_eq_ok {s t : Scan} {c : Char} {more : List Char}
    (h : (c :: more).foldlM takeLetter s = .ok t) :
    c = 'd' ∧ more = [] ∧ s.takeDebug = .ok t := by
  induction more generalizing s c with
  | nil =>
    rw [List.foldlM_cons] at h
    cases hletter : s.takeLetter c with
    | error stop => rw [hletter] at h; cases h
    | ok u =>
      rw [hletter] at h
      cases h
      exact ⟨(takeLetter_eq_ok hletter).1, rfl, (takeLetter_eq_ok hletter).2⟩
  | cons d more ih =>
    rw [List.foldlM_cons] at h
    cases hletter : s.takeLetter c with
    | error stop => rw [hletter] at h; cases h
    | ok u =>
      rw [hletter] at h
      obtain ⟨-, w, -, rfl⟩ := takeDebug_eq_ok_iff.mp (takeLetter_eq_ok hletter).2
      obtain ⟨-, -, hagain⟩ := ih h
      cases (takeDebug_eq_ok_iff.mp hagain).1

theorem takeLong_eq_ok {s t : Scan} {name : String} {value : Option String}
    (h : s.takeLong name value = .ok t) :
    name = "debug" ∧ value = none ∧ s.takeDebug = .ok t := by
  unfold takeLong at h
  split at h
  · cases h
  · cases h
  · next f hf =>
    have hname := Flag.name_of_ofName? hf
    cases f with
    | debug => exact ⟨hname.symm, rfl, h⟩
    | help => cases hsettle : s.settle <;> rw [hsettle] at h <;> cases h

theorem step_of_isDebugFlag {s : Scan} (hopen : s.optionsEnded = false) {arg : String}
    (h : isDebugFlag arg = true) : s.step arg = s.takeDebug := by
  rw [isDebugFlag, Bool.or_eq_true, decide_eq_true_eq, decide_eq_true_eq] at h
  rcases h with rfl | rfl
  · have hread : Argument.read s.slot.isFree "-d" = .cluster ['d'] := by
      cases s.slot.isFree <;> rfl
    have hletter : s.takeLetter 'd' = s.takeDebug := rfl
    simp only [step, hopen, Bool.false_eq_true, if_false, hread, List.foldlM_cons,
      List.foldlM_nil, bind_pure, hletter]
  · have hread : Argument.read s.slot.isFree "--debug" = .long "debug" none := by
      cases s.slot.isFree <;> rfl
    rw [step, hopen, if_neg Bool.false_ne_true, hread]
    rfl

/-- While options may still come, a scan goes on behind three kinds of arguments: the end of the
options, the debug flag alone, and a value where one is expected. -/
theorem step_eq_ok_iff {s t : Scan} (hopen : s.optionsEnded = false) {arg : String} :
    s.step arg = .ok t ↔
      (arg = "--" ∧ t = { s with optionsEnded := true }) ∨
      (isDebugFlag arg = true ∧ s.takeDebug = .ok t) ∨
      (Argument.read true arg = .value arg ∧ s.slot = .free ∧
        t = { s with slot := .pending arg }) := by
  constructor
  · intro h
    have hwritten := Argument.written_read s.slot.isFree arg
    rw [step, hopen, if_neg Bool.false_ne_true] at h
    cases hread : Argument.read s.slot.isFree arg with
    | endOfOptions =>
      rw [hread] at h hwritten
      cases h
      exact .inl ⟨hwritten.symm, rfl⟩
    | long name value =>
      rw [hread] at h hwritten
      obtain ⟨rfl, rfl, htake⟩ := takeLong_eq_ok h
      subst hwritten
      exact .inr (.inl ⟨rfl, htake⟩)
    | cluster letters =>
      obtain ⟨c, more, rfl, -⟩ := Argument.exists_of_read_cluster hread
      rw [hread] at h hwritten
      obtain ⟨rfl, rfl, htake⟩ := foldlM_takeLetter_eq_ok h
      subst hwritten
      exact .inr (.inl ⟨rfl, htake⟩)
    | value text =>
      rw [hread] at h hwritten
      obtain rfl : text = arg := hwritten
      obtain ⟨hfree, rfl⟩ := place_eq_ok_iff.mp h
      rw [hfree] at hread
      exact .inr (.inr ⟨hread, hfree, rfl⟩)
  · rintro (⟨rfl, rfl⟩ | ⟨hflag, htake⟩ | ⟨hread, hslot, rfl⟩)
    · have hread : Argument.read s.slot.isFree "--" = .endOfOptions := by
        cases s.slot.isFree <;> rfl
      rw [step, hopen, if_neg Bool.false_ne_true, hread]
    · rw [step_of_isDebugFlag hopen hflag, htake]
    · have hexpected : Argument.read s.slot.isFree arg = .value arg := by
        rw [hslot]
        exact hread
      rw [step_of_value hopen hexpected]
      exact place_eq_ok_iff.mpr ⟨hslot, rfl⟩

/-! ### One argument and the rest of the line -/

theorem bind_finish_cons (s : Scan) (arg : String) (args : List String) :
    (s.scan (arg :: args)).bind finish = (s.step arg).bind fun t => (t.scan args).bind finish := by
  rw [scan, List.foldlM_cons]
  cases s.step arg with
  | error stop => rfl
  | ok t => rfl

end Scan

end PrimeListing.Command
