/-
Counts that are read back from the layout they were written in.

Blanks around a number are trimmed, and zeros in front of it do not change its
value.  So a count is read back from every layout that is filled with either.
Any other fill spoils the text, unless the number is so long that none of it
is needed.

* `decimalValue_zeros_append` — zeros in front do not matter.
* `spells_numeral` — a number that blanks or zeros fill up still spells it.
* `read_format_of_isLegible` — so it is read back.
* `read_format_of_foreign_fill` — with a fill that means nothing to the reader
  it is read back exactly if it takes up the whole width.
* `length_digits_le_iff` — how many digits a number takes.
* `layouts_read_back` — both for the layouts in use.
-/
import PrimeListing.Count.Layout
import PrimeListing.Proofs.Reading

namespace PrimeListing

theorem decimalValue_digits (n : Nat) : decimalValue (Base.decimal.digits n) = n :=
  (read?_decimal_eq_some_iff.mp (Base.decimal.read?_digits n)).2.2.symm

theorem decimalValue_zeros_append (k : Nat) (ds : List Char) :
    decimalValue (List.replicate k '0' ++ ds) = decimalValue ds :=
  ofDigits_zeros_append rfl k ds

theorem Base.length_digits_le_iff {n k : Nat} (hk : 0 < k) :
    (Base.decimal.digits n).length ≤ k ↔ n < 10 ^ k := by
  rw [Base.digits, List.length_map]
  exact Nat.length_toDigits_le_iff (by decide) hk

namespace Count

open Text

namespace Layout

/-- Whether a layout shows the number alone, with blanks or zeros for what it lacks. -/
def isLegible (l : Layout) : Bool := l.form = .plain && (l.zeros || isBlank l.fill)

/-- No part of a text that spells a number: neither blank, nor a sign, nor a digit. -/
def isForeign (c : Char) : Bool := !isBlank c && c ≠ '+' && !c.isDigit

theorem base_of_plain {l : Layout} (h : l.form = .plain) : l.base = .decimal := by
  rw [base, h]

/-- A number alone has a plus sign in front of its digits, or nothing. -/
theorem lead_of_plain {l : Layout} (h : l.form = .plain) : l.lead = [] ∨ l.lead = ['+'] := by
  rw [lead, base_of_plain h]
  cases l.plus <;> cases l.marked <;> decide

theorem isDigit_of_mem_zeros {k : Nat} : ∀ c ∈ List.replicate k '0', c.isDigit = true := by
  intro c hc
  rw [List.eq_of_mem_replicate hc]
  rfl

/-- Behind its sign, a number with zeros in front spells the same number. -/
theorem spells_of_zeros {l : Layout} (h : l.form = .plain) (k n : Nat) {before after : List Char}
    (hbefore : ∀ c ∈ before, isBlank c = true) (hafter : ∀ c ∈ after, isBlank c = true) :
    Spells (before ++ (l.lead ++ (List.replicate k '0' ++ Base.decimal.digits n)) ++ after) n := by
  refine ⟨before, l.lead, List.replicate k '0' ++ Base.decimal.digits n, after, rfl,
    fun c hc => isBlank_iff.mp (hbefore c hc), fun c hc => isBlank_iff.mp (hafter c hc),
    lead_of_plain h, ?_, ?_, ?_⟩
  · exact List.append_ne_nil_of_right_ne_nil _ (Base.decimal.digits_ne_nil n)
  · intro c hc
    rcases List.mem_append.mp hc with hzero | hdigit
    · exact isDigit_of_mem_zeros c hzero
    · exact Base.isDigit_digits n c hdigit
  · rw [decimalValue_zeros_append, decimalValue_digits]

theorem spells_bare {l : Layout} (h : l.form = .plain) (n : Nat) {before after : List Char}
    (hbefore : ∀ c ∈ before, isBlank c = true) (hafter : ∀ c ∈ after, isBlank c = true) :
    Spells (before ++ l.bare n ++ after) n := by
  have hspells := spells_of_zeros h 0 n hbefore hafter
  rwa [List.replicate_zero, List.nil_append, ← base_of_plain h] at hspells

theorem spells_numeral {l : Layout} (h : l.isLegible = true) (n : Nat) :
    Spells (l.numeral n) n := by
  obtain ⟨hplain, hfill⟩ := Bool.and_eq_true_iff.mp h
  have hform : l.form = .plain := of_decide_eq_true hplain
  unfold numeral
  split
  · have hspells := spells_of_zeros hform (l.missing n) n (List.forall_mem_nil _)
      (List.forall_mem_nil _)
    rw [List.nil_append, List.append_nil, ← List.append_assoc, ← base_of_plain hform] at hspells
    exact hspells
  · next hzeros =>
    have hblank : isBlank l.fill = true := by simpa [hzeros] using hfill
    have hall : ∀ k, ∀ c ∈ List.replicate k l.fill, isBlank c = true := by
      intro k c hc
      rwa [List.eq_of_mem_replicate hc]
    exact spells_bare hform n (hall _) (hall _)

/-- Where something is missing, the fill stands on one side at least. -/
theorem fill_mem_numeral {l : Layout} {n : Nat} (hzeros : l.zeros = false)
    (h : l.missing n ≠ 0) : l.fill ∈ l.numeral n := by
  have hshare := l.leftShare_le (l.missing n)
  rw [numeral, if_neg (by simp [hzeros])]
  simp only [List.mem_append, List.mem_replicate, and_true]
  omega

theorem numeral_of_missing_eq_zero {l : Layout} {n : Nat} (hzeros : l.zeros = false)
    (h : l.missing n = 0) : l.numeral n = l.bare n := by
  have hshare := l.leftShare_le (l.missing n)
  have hleft : l.leftShare 0 = 0 := by rwa [h, Nat.le_zero] at hshare
  rw [numeral, if_neg (by simp [hzeros]), h, hleft]
  simp

end Layout

theorem format_of_plain {l : Layout} (h : l.form = .plain) (n : Count) :
    n.format l = String.ofList (l.numeral n.val.toNat) := by
  rw [format, h]

/-- A count is read from every text that spells it. -/
theorem read_of_spells {cs : List Char} {n : Count} (h : Spells cs n.val.toNat) :
    read (String.ofList cs) = .ok n := by
  rw [read_eq_ok_iff, String.toList_ofList]
  exact number?_trim_eq_some_iff.mpr h

theorem read_format_of_isLegible {l : Layout} (h : l.isLegible = true) (n : Count) :
    read (n.format l) = .ok n := by
  have hform : l.form = .plain := of_decide_eq_true (Bool.and_eq_true_iff.mp h).1
  rw [format_of_plain hform]
  exact read_of_spells (Layout.spells_numeral h _)

theorem Spells.not_isForeign {cs : List Char} {v : Nat} (h : Spells cs v) :
    ∀ c ∈ cs, Layout.isForeign c = false := by
  obtain ⟨before, sign, ds, after, rfl, hbefore, hafter, hsign, -, hdigits, -⟩ := h
  have hblank : ∀ c : Char, c.toNat ∈ whiteSpace → Layout.isForeign c = false := by
    intro c hc
    simp [Layout.isForeign, isBlank_iff.mpr hc]
  intro c hc
  rcases List.mem_append.mp hc with hfront | hback
  · rcases List.mem_append.mp hfront with hmem | hmem
    · exact hblank c (hbefore c hmem)
    · rcases List.mem_append.mp hmem with hplus | hdigit
      · rcases hsign with rfl | rfl
        · cases hplus
        · rw [List.mem_singleton.mp hplus]
          decide
      · simp [Layout.isForeign, hdigits c hdigit]
  · exact hblank c (hafter c hback)

/-- A fill that means nothing to the reader spoils the text where any of it is needed. -/
theorem read_format_of_foreign_fill {l : Layout} (hform : l.form = .plain)
    (hzeros : l.zeros = false) (hfill : Layout.isForeign l.fill = true) (n : Count) :
    (l.missing n.val.toNat = 0 → read (n.format l) = .ok n) ∧
      (l.missing n.val.toNat ≠ 0 → read (n.format l) = .error ⟨n.format l⟩) := by
  rw [format_of_plain hform]
  constructor
  · intro h
    rw [Layout.numeral_of_missing_eq_zero hzeros h]
    have hbare := Layout.spells_bare hform n.val.toNat (List.forall_mem_nil _)
      (List.forall_mem_nil _)
    rw [List.nil_append, List.append_nil] at hbare
    exact read_of_spells hbare
  · intro h
    refine read_eq_error_iff.mpr ⟨?_, rfl⟩
    intro c hc
    have hspells := number?_trim_eq_some_iff.mp (read_eq_ok_iff.mp hc)
    rw [String.toList_ofList] at hspells
    have hknown := hspells.not_isForeign _ (Layout.fill_mem_numeral hzeros h)
    rw [hfill] at hknown
    cases hknown

/-- A fill that means nothing to the reader leaves a count without a sign legible exactly if the
count has as many digits as the layout is wide. -/
theorem read_format_of_foreign_fill_iff {l : Layout} {k : Nat} (hform : l.form = .plain)
    (hzeros : l.zeros = false) (hplus : l.plus = false)
    (hfill : Layout.isForeign l.fill = true) (hk : 0 < k) (hwidth : l.width = k + 1) (n : Count) :
    (read (n.format l) = .ok n ↔ 10 ^ k ≤ n.val.toNat) ∧
      (n.val.toNat < 10 ^ k → read (n.format l) = .error ⟨n.format l⟩) := by
  have hlead : l.lead = [] := by
    rw [Layout.lead, hplus, Layout.base_of_plain hform]
    cases l.marked <;> rfl
  have hmissing : l.missing n.val.toNat = 0 ↔ 10 ^ k ≤ n.val.toNat := by
    rw [Layout.missing, Layout.bare, hlead, List.nil_append, Layout.base_of_plain hform, hwidth,
      Nat.sub_eq_zero_iff_le, Nat.succ_le_iff, ← Nat.not_le, Base.length_digits_le_iff hk,
      Nat.not_lt]
  obtain ⟨hlong, hshort⟩ := read_format_of_foreign_fill hform hzeros hfill n
  have herror : n.val.toNat < 10 ^ k → read (n.format l) = .error ⟨n.format l⟩ :=
    fun hlt => hshort fun h => absurd (hmissing.mp h) (Nat.not_le.mpr hlt)
  refine ⟨⟨?_, fun hle => hlong (hmissing.mpr hle)⟩, herror⟩
  intro hok
  by_contra hlt
  rw [herror (Nat.lt_of_not_le hlt)] at hok
  cases hok

/-- A count is read back from every layout in use that blanks or zeros fill.  From the two that are
filled otherwise it is read back exactly if it takes up the whole width, and else the text as it
stands is refused. -/
theorem layouts_read_back (n : Count) :
    (∀ spec ∈ ["", "5", ">5", "<5", "^5", "05", "+", "+06", ".1"],
      ∃ l, Layout.ofSpec? spec = some l ∧ read (n.format l) = .ok n) ∧
      ∀ entry ∈ [("*^9", 8), ("->12", 11)],
        ∃ l, Layout.ofSpec? entry.1 = some l ∧
          (read (n.format l) = .ok n ↔ 10 ^ entry.2 ≤ n.val.toNat) ∧
          (n.val.toNat < 10 ^ entry.2 → read (n.format l) = .error ⟨n.format l⟩) := by
  have legible : ∀ spec ∈ ["", "5", ">5", "<5", "^5", "05", "+", "+06", ".1"],
      (Layout.ofSpec? spec).any Layout.isLegible = true := by decide
  constructor
  · intro spec hspec
    obtain ⟨l, hl, hlegible⟩ := (Option.any_eq_true _ _).mp (legible spec hspec)
    exact ⟨l, hl, read_format_of_isLegible hlegible n⟩
  · intro entry hentry
    simp only [List.mem_cons, List.not_mem_nil, or_false] at hentry
    rcases hentry with rfl | rfl
    · refine ⟨⟨'*', .centre, false, false, false, 9, .plain⟩, by decide, ?_⟩
      exact read_format_of_foreign_fill_iff rfl rfl rfl (by decide) (by decide) rfl n
    · refine ⟨⟨'-', .right, false, false, false, 12, .plain⟩, by decide, ?_⟩
      exact read_format_of_foreign_fill_iff rfl rfl rfl (by decide) (by decide) rfl n

end Count

end PrimeListing
