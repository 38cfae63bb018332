/-
Counts that are legible under their label.

A labelled count frames its number, and the layout applies to the number alone.
Blanks may stand around it, a plus sign and the mark of the base in front of its
digits, and zeros only between the two.  So what is left without the blanks and
without what stands in front is a numeral of the count, and no two counts look
the same in one layout.

* `Layout.trim_lead_append` — the number without the blanks that fill the width.
* `Layout.shows_numeral` — what the framed number is like, by cases on what fills it.
* `Fitting.Shows.unique` — it tells the count.
* `format_eq_frame`, `frame_inj` — the frame takes nothing of it away.
* `labelled_layouts_legible` — the layouts of labelled counts in use.
-/
import PrimeListing.Proofs.LegibleLayout

namespace PrimeListing.Count

open Text

/-- What a layout asks of the number under the label. -/
structure Fitting where
  /-- What stands in front of the digits. -/
  lead : List Char
  base : Base
  /-- The least length of the number with all that goes with it. -/
  width : Nat
  /-- Whether zeros fill the width, and not blanks. -/
  zeros : Bool
  deriving DecidableEq

/-- A text shows a number as a fitting asks.  Apart from the blanks around it, it is what stands in
front and a numeral of the number.  There are no blanks where zeros fill the width, and the numeral
has no more digits than it needs where blanks do. -/
structure Fitting.Shows (f : Fitting) (n : Nat) (body : List Char) : Prop where
  numeral : ∃ ds, trim body = f.lead ++ ds ∧ f.base.IsNumeral ds n ∧
    if f.zeros then body = f.lead ++ ds else ds.length = Nat.log f.base.radix n + 1
  length_eq : body.length = max f.width (f.lead.length + (Nat.log f.base.radix n + 1))

/-- The same text cannot show two numbers. -/
theorem Fitting.Shows.unique {f : Fitting} {m n : Nat} {body : List Char} (hm : f.Shows m body)
    (hn : f.Shows n body) : m = n := by
  obtain ⟨ds, hds, hm', -⟩ := hm.numeral
  obtain ⟨es, hes, hn', -⟩ := hn.numeral
  have hsame : ds = es := List.append_cancel_left (hds.symm.trans hes)
  rw [← hm'.value_eq, ← hn'.value_eq, hsame]

namespace Layout

def fitting (l : Layout) : Fitting :=
  { lead := l.lead, base := l.base, width := l.width, zeros := l.zeros }

/-! ### The number -/

theorem isBlank_of_mem_lead {l : Layout} : ∀ c ∈ l.lead, isBlank c = false := by
  have table : ∀ (b : Base) (plus marked : Bool),
      ((if plus then ['+'] else []) ++ (if marked then b.mark else [])).any isBlank = false := by
    intro b
    cases b <;> decide
  have hnone := List.any_eq_false.mp (table l.base l.plus l.marked)
  exact fun c hc => Bool.eq_false_iff.mpr (hnone c hc)

theorem isBlank_of_mem_alphabet {b : Base} : ∀ c ∈ b.alphabet, isBlank c = false := by
  have table : b.alphabet.any isBlank = false := by cases b <;> decide
  exact fun c hc => Bool.eq_false_iff.mpr (List.any_eq_false.mp table c hc)

theorem isBlank_of_isNumeral {b : Base} {ds : List Char} {n : Nat} (h : b.IsNumeral ds n) :
    ∀ c ∈ ds, isBlank c = false :=
  fun c hc => isBlank_of_mem_alphabet c (h.mem_alphabet c hc)

/-- Nothing of the number is blank, so it is what is left of the blanks around it. -/
theorem trim_lead_append {l : Layout} {ds : List Char} {n : Nat} (h : l.base.IsNumeral ds n)
    {before after : List Char} (hbefore : ∀ c ∈ before, isBlank c = true)
    (hafter : ∀ c ∈ after, isBlank c = true) :
    trim (before ++ (l.lead ++ ds) ++ after) = l.lead ++ ds := by
  refine trim_eq_of_not_blank hbefore ?_ hafter
  intro c hc
  rcases List.mem_append.mp hc with hlead | hdigit
  · exact isBlank_of_mem_lead c hlead
  · exact isBlank_of_isNumeral h c hdigit

theorem length_bare (l : Layout) (n : Nat) :
    (l.bare n).length = l.lead.length + (Nat.log l.base.radix n + 1) := by
  rw [bare, List.length_append, Base.length_digits]

theorem shows_numeral {l : Layout} (hfill : l.zeros = true ∨ isBlank l.fill = true) (n : Nat) :
    l.fitting.Shows n (l.numeral n) where
  numeral := by
    by_cases hzeros : l.zeros = true
    · have hnumeral := l.base.isNumeral_zeros_digits (l.missing n) n
      have hbody : l.numeral n
          = l.lead ++ (List.replicate (l.missing n) '0' ++ l.base.digits n) := by
        rw [Layout.numeral, if_pos hzeros, List.append_assoc]
      refine ⟨_, ?_, hnumeral, ?_⟩
      · have htrim := trim_lead_append (l := l) hnumeral (List.forall_mem_nil _)
          (List.forall_mem_nil _)
        rw [List.nil_append, List.append_nil] at htrim
        rw [hbody]
        exact htrim
      · show if l.zeros = true then _ else _
        rw [if_pos hzeros]
        exact hbody
    · have hnumeral := l.base.isNumeral_zeros_digits 0 n
      rw [List.replicate_zero, List.nil_append] at hnumeral
      have hblank : isBlank l.fill = true := hfill.resolve_left hzeros
      have hall : ∀ k, ∀ c ∈ List.replicate k l.fill, isBlank c = true := by
        intro k c hc
        rwa [List.eq_of_mem_replicate hc]
      refine ⟨_, ?_, hnumeral, ?_⟩
      · rw [Layout.numeral, if_neg hzeros]
        exact trim_lead_append hnumeral (hall _) (hall _)
      · show if l.zeros = true then _ else _
        rw [if_neg hzeros]
        exact l.base.length_digits n
  length_eq := by
    rw [length_numeral, length_bare]
    rfl

end Layout

/-! ### The frame -/

/-- The label around the text of a number, on one line or in block form. -/
def frame (block : Bool) (body : List Char) : String :=
  if block then "Count(\n    " ++ String.ofList body ++ ",\n)"
  else "Count(" ++ String.ofList body ++ ")"

theorem frame_inj {block : Bool} {a b : List Char} : frame block a = frame block b ↔ a = b := by
  cases block <;> simp [frame, String.ofList_inj]

theorem wrapped_eq_frame (body : List Char) :
    wrapped "Count" (String.ofList body) = frame false body := by
  have hopening : "Count(" = "Count" ++ "(" := rfl
  rw [wrapped, frame, if_neg Bool.false_ne_true, hopening]

theorem wrappedBlock_eq_frame (body : List Char) :
    wrappedBlock "Count" (String.ofList body) = frame true body := by
  have hopening : "Count(\n    " = "Count" ++ ("(\n" ++ "    ") := rfl
  have hclosing : ",\n)" = ",\n" ++ ")" := rfl
  rw [wrappedBlock, blockLine, frame, if_pos rfl, hopening, hclosing]
  simp only [String.append_assoc]

theorem format_eq_frame {l : Layout} (h : l.form ≠ .plain) (n : Count) :
    n.format l = frame l.marked (l.numeral n.val.toNat) := by
  unfold format
  split
  · next hplain => exact absurd hplain h
  · by_cases hmarked : l.marked = true
    · rw [if_pos hmarked, hmarked, wrappedBlock_eq_frame]
    · have hoff : l.marked = false := by simpa only [Bool.not_eq_true] using hmarked
      rw [if_neg hmarked, hoff, wrapped_eq_frame]

/-! ### Layouts of labelled counts -/

/-- Whether a layout frames a number in block form or not, with blanks or zeros for what it lacks,
and asks for the number what the fitting says. -/
def Layout.isFramed (l : Layout) (block : Bool) (f : Fitting) : Bool :=
  l.form ≠ .plain && l.marked = block && (l.zeros || isBlank l.fill) && l.fitting = f

/-- In such a layout a framed number is put out from which the count can be told. -/
theorem exists_shows_of_isFramed {l : Layout} {block : Bool} {f : Fitting}
    (h : l.isFramed block f = true) (n : Count) :
    ∃ body, n.format l = frame block body ∧ f.Shows n.val.toNat body ∧
      ∀ m : Count, m.format l = n.format l → m = n := by
  simp only [Layout.isFramed, Bool.and_eq_true, Bool.or_eq_true, decide_eq_true_eq] at h
  obtain ⟨⟨⟨hform, rfl⟩, hfill⟩, rfl⟩ := h
  refine ⟨l.numeral n.val.toNat, format_eq_frame hform n, Layout.shows_numeral hfill _, ?_⟩
  intro m hm
  rw [format_eq_frame hform, format_eq_frame hform, frame_inj] at hm
  have hshows := Layout.shows_numeral hfill m.val.toNat
  rw [hm] at hshows
  have hval := hshows.unique (Layout.shows_numeral hfill n.val.toNat)
  obtain ⟨v⟩ := m
  obtain ⟨w⟩ := n
  exact congrArg Count.mk (UInt64.toNat_inj.mp hval)

/-- The layouts in use that show a labelled count on one line. -/
def lineLayouts : List (String × Fitting) :=
  [("?", ⟨[], .decimal, 0, false⟩), ("5?", ⟨[], .decimal, 5, false⟩),
    ("<5?", ⟨[], .decimal, 5, false⟩), ("05?", ⟨[], .decimal, 5, true⟩),
    ("+?", ⟨['+'], .decimal, 0, false⟩), ("x?", ⟨[], .lowerHex, 0, false⟩),
    ("X?", ⟨[], .upperHex, 0, false⟩)]

/-- The layouts in use that show a labelled count in block form. -/
def blockLayouts : List (String × Fitting) :=
  [("#?", ⟨[], .decimal, 0, false⟩), ("#x?", ⟨['0', 'x'], .lowerHex, 0, false⟩),
    ("#X?", ⟨['0', 'x'], .upperHex, 0, false⟩), ("#06x?", ⟨['0', 'x'], .lowerHex, 6, true⟩)]

/-- In every layout in use a labelled count is its label around a text that shows the number.  This
text has the width of the layout, or the length of what stands in front and of the digits if that is
more, and it tells the count, so different counts look different. -/
theorem labelled_layouts_legible (n : Count) :
    (∀ entry ∈ lineLayouts, ∃ l body, Layout.ofSpec? entry.1 = some l ∧
      n.format l = "Count(" ++ String.ofList body ++ ")" ∧ entry.2.Shows n.val.toNat body ∧
      ∀ m : Count, m.format l = n.format l → m = n) ∧
    (∀ entry ∈ blockLayouts, ∃ l body, Layout.ofSpec? entry.1 = some l ∧
      n.format l = "Count(\n    " ++ String.ofList body ++ ",\n)" ∧
      entry.2.Shows n.val.toNat body ∧ ∀ m : Count, m.format l = n.format l → m = n) := by
  have line : ∀ entry ∈ lineLayouts,
      (Layout.ofSpec? entry.1).any (·.isFramed false entry.2) = true := by decide
  have block : ∀ entry ∈ blockLayouts,
      (Layout.ofSpec? entry.1).any (·.isFramed true entry.2) = true := by decide
  constructor
  · intro entry hentry
    obtain ⟨l, hl, hframed⟩ := (Option.any_eq_true _ _).mp (line entry hentry)
    obtain ⟨body, hformat, hshows⟩ := exists_shows_of_isFramed hframed n
    exact ⟨l, body, hl, hformat, hshows⟩
  · intro entry hentry
    obtain ⟨l, hl, hframed⟩ := (Option.any_eq_true _ _).mp (block entry hentry)
    obtain ⟨body, hformat, hshows⟩ := exists_shows_of_isFramed hframed n
    exact ⟨l, body, hl, hformat, hshows⟩

end PrimeListing.Count
