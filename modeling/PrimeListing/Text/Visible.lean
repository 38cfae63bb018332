/-
Visible text: what is left of a text on an output that obeys no control
sequence.

The control characters of ASCII are left out, save those that make a blank, and
so is a control sequence as a whole: an escape character with all that belongs
to it.  A blank control inside a sequence is shown at once, and what follows it
is shown up to the next control character, from which the sequence goes on.  A
character beyond ASCII that is shown ends the sequence.

* `isShown_iff`, `isShown_of_mem_visible` — what is visible holds no control
  character of ASCII but tabs, line feeds, form feeds and carriage returns.
* `visible_eq_self_iff` — the texts that are visible as a whole are those that
  hold no others themselves.
* `visible_sublist` — nothing is added or moved.
-/
namespace PrimeListing.Text

/-- Whether a character has its code point between two bounds, both included. -/
def liesBetween (low high : Nat) (c : Char) : Bool := low ≤ c.toNat && c.toNat ≤ high

/-- The control characters that make a blank. -/
def isBlankControl (c : Char) : Bool := c = '\t' || c = '\n' || c = '\x0c' || c = '\r'

/-- Whether a character shows where no sequence is under way: all but the ASCII controls do, and
of these the blank ones. -/
def isShown (c : Char) : Bool :=
  (0x20 ≤ c.toNat && c.toNat ≠ 0x7f) || isBlankControl c

/-- Which control sequence is under way. -/
inductive Sequence
  | none
  /-- An escape character has been read. -/
  | escape
  /-- An escape sequence has begun with an intermediate character. -/
  | escapeTail
  /-- A control sequence awaits its final character. -/
  | control
  /-- The head of a device string has been opened. -/
  | device
  /-- The head of a device string is among its parameters. -/
  | deviceParameters
  /-- The head of a device string is among its intermediate characters. -/
  | deviceTail
  /-- A string awaits the string terminator. -/
  | string
  /-- A system command awaits the bell. -/
  | command
  deriving DecidableEq

namespace Sequence

/-- The byte that ends a string. -/
def stringTerminator : UInt8 := 0x9c

/-- The sequence that a character behind the escape character opens or completes. -/
def opened (c : Char) : Sequence :=
  if c = '[' then .control
  else if c = ']' then .command
  else if c = 'P' then .device
  else if c = 'X' ∨ c = '^' ∨ c = '_' then .string
  else if liesBetween 0x20 0x2f c then .escapeTail
  else if liesBetween 0x30 0x7e c then .none
  else .escape

/-- The sequence under way behind a character that is not shown. -/
def next (s : Sequence) (c : Char) : Sequence :=
  if c = '\x1b' then .escape
  else if c = '\x18' ∨ c = '\x1a' then .none
  else
    match s with
    | .none => .none
    | .escape => opened c
    | .escapeTail => if liesBetween 0x30 0x7e c then .none else .escapeTail
    | .control => if liesBetween 0x40 0x7e c then .none else .control
    | .device =>
      if liesBetween 0x40 0x7e c then .string
      else if liesBetween 0x30 0x3f c then .deviceParameters
      else if liesBetween 0x20 0x2f c then .deviceTail
      else .device
    | .deviceParameters =>
      if liesBetween 0x3c 0x7e c then .string
      else if liesBetween 0x20 0x2f c then .deviceTail
      else .deviceParameters
    | .deviceTail => if liesBetween 0x30 0x7e c then .string else .deviceTail
    | .string => if (String.utf8EncodeChar c).contains stringTerminator then .none else .string
    | .command => if c = '\x07' then .none else .command

/-- Whether a character is shown while a sequence is under way. -/
def shows (s : Sequence) (c : Char) : Bool :=
  match s with
  | .none => isShown c
  | .escape | .escapeTail | .control => isBlankControl c
  | .device | .deviceParameters | .deviceTail | .string | .command => false

end Sequence

/-- The visible part of the rest of a text, behind a sequence and a character that was or was not
shown. -/
def visibleFrom (s : Sequence) (afterShown : Bool) : List Char → List Char
  | [] => []
  | c :: cs =>
    if (afterShown && isShown c) || s.shows c then
      c :: visibleFrom (if c.toNat < 0x80 then s else .none) true cs
    else visibleFrom (s.next c) false cs

/-- The visible part of a text. -/
def visible (s : String) : String := String.ofList (visibleFrom .none false s.toList)

/-! ### What is visible -/

theorem isShown_iff {c : Char} :
    isShown c = true ↔
      (c.toNat < 0x20 ∨ c.toNat = 0x7f → c = '\t' ∨ c = '\n' ∨ c = '\x0c' ∨ c = '\r') := by
  have hplain : (0x20 ≤ c.toNat ∧ c.toNat ≠ 0x7f) ↔ ¬(c.toNat < 0x20 ∨ c.toNat = 0x7f) := by omega
  simp only [isShown, isBlankControl, Bool.or_eq_true, Bool.and_eq_true, decide_eq_true_eq,
    or_assoc]
  rw [hplain, Decidable.imp_iff_not_or]

theorem isShown_of_isBlankControl {c : Char} (h : isBlankControl c = true) : isShown c = true := by
  rw [isShown, h, Bool.or_true]

theorem Sequence.isShown_of_shows {s : Sequence} {c : Char} (h : s.shows c = true) :
    isShown c = true := by
  cases s with
  | none => exact h
  | escape | escapeTail | control => exact isShown_of_isBlankControl h
  | device | deviceParameters | deviceTail | string | command => cases h

/-- All that is visible may be shown. -/
theorem isShown_of_mem_visibleFrom {s : Sequence} {afterShown : Bool} {cs : List Char} {c : Char}
    (h : c ∈ visibleFrom s afterShown cs) : isShown c = true := by
  induction cs generalizing s afterShown with
  | nil => cases h
  | cons d cs ih =>
    unfold visibleFrom at h
    split at h
    · next hd =>
      rcases List.mem_cons.mp h with rfl | hmem
      · rcases Bool.or_eq_true_iff.mp hd with hafter | hshows
        · exact (Bool.and_eq_true_iff.mp hafter).2
        · exact Sequence.isShown_of_shows hshows
      · exact ih hmem
    · exact ih h

/-- The visible part is what is left when characters are taken out. -/
theorem visibleFrom_sublist (s : Sequence) (afterShown : Bool) (cs : List Char) :
    List.Sublist (visibleFrom s afterShown cs) cs := by
  induction cs generalizing s afterShown with
  | nil => exact List.Sublist.slnil
  | cons c cs ih =>
    unfold visibleFrom
    split
    · exact (ih _ _).cons_cons c
    · exact (ih _ _).cons c

/-- Where all may be shown and no sequence is under way, all is visible. -/
theorem visibleFrom_eq_self {cs : List Char} (h : ∀ c ∈ cs, isShown c = true) (afterShown : Bool) :
    visibleFrom .none afterShown cs = cs := by
  induction cs generalizing afterShown with
  | nil => rfl
  | cons c cs ih =>
    have hc : isShown c = true := h c List.mem_cons_self
    have hcs : ∀ d ∈ cs, isShown d = true := fun d hd => h d (List.mem_cons_of_mem c hd)
    have hshown : ((afterShown && isShown c) || Sequence.none.shows c) = true := by
      rw [Sequence.shows, hc, Bool.or_true]
    rw [visibleFrom, if_pos hshown, ite_self, ih hcs]

theorem visible_eq_self {s : String} (h : ∀ c ∈ s.toList, isShown c = true) : visible s = s := by
  rw [visible, visibleFrom_eq_self h, String.ofList_toList]

/-- What is visible holds no control character but blank ones. -/
theorem isShown_of_mem_visible {s : String} {c : Char} (h : c ∈ (visible s).toList) :
    isShown c = true := by
  rw [visible, String.toList_ofList] at h
  exact isShown_of_mem_visibleFrom h

/-- Only a text with a control character loses anything. -/
theorem visible_eq_self_iff {s : String} :
    visible s = s ↔ ∀ c ∈ s.toList, isShown c = true := by
  refine ⟨fun h c hc => ?_, visible_eq_self⟩
  rw [← h] at hc
  exact isShown_of_mem_visible hc

theorem visible_sublist (s : String) : List.Sublist (visible s).toList s.toList := by
  rw [visible, String.toList_ofList]
  exact visibleFrom_sublist _ _ _

end PrimeListing.Text
