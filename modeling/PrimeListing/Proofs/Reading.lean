/-
The texts that are read as a count.

A text spells a number if it is the decimal digits of that number, leading
zeros allowed, perhaps behind a plus sign, with nothing but white space before
and after.  Reading accepts the texts that spell a number below `2 ^ 64`, and
hands every other text back unchanged.

* `exists_eq_append_trim`, `trim_eq_of_not_blank` — trimming takes away white
  space only, and all of it around a text that holds none.
* `number?_trim_eq_some_iff` — what is left after trimming stands for a number
  exactly if the text spells it.
* `read_text` — the text of a count is read as that count.
* `read_of_hyphen` — a text that begins with a hyphen is refused.
* `read_iff_spells` — the language that reading accepts.
-/
import PrimeListing.Count.Reading
import PrimeListing.Proofs.Numeral

namespace PrimeListing

namespace Text

/-- The 25 code points with the property White_Space. -/
def whiteSpace : List Nat :=
  [0x9, 0xa, 0xb, 0xc, 0xd, 0x20, 0x85, 0xa0, 0x1680, 0x2000, 0x2001, 0x2002, 0x2003, 0x2004,
    0x2005, 0x2006, 0x2007, 0x2008, 0x2009, 0x200a, 0x2028, 0x2029, 0x202f, 0x205f, 0x3000]

theorem isBlank_iff {c : Char} : isBlank c = true ↔ c.toNat ∈ whiteSpace := by
  simp only [isBlank, CodePoints.contains, blanks, whiteSpace, List.any_cons, List.any_nil,
    Bool.or_eq_true, Bool.and_eq_true, decide_eq_true_eq, List.mem_cons, List.not_mem_nil,
    Bool.or_false, or_false]
  omega

theorem isBlank_eq_false_of_isDigit {c : Char} (h : c.isDigit = true) : isBlank c = false := by
  obtain ⟨hlow, hhigh⟩ := Char.isDigit_iff_toNat.mp h
  have hzero : '0'.toNat = 48 := rfl
  have hnine : '9'.toNat = 57 := rfl
  rw [Bool.eq_false_iff, Ne, isBlank_iff, whiteSpace]
  simp only [List.mem_cons, List.not_mem_nil, or_false]
  omega

theorem exists_eq_append_trimStart (cs : List Char) :
    ∃ before, (∀ c ∈ before, isBlank c = true) ∧ cs = before ++ trimStart cs :=
  ⟨cs.takeWhile isBlank, List.all_eq_true.mp List.all_takeWhile,
    List.takeWhile_append_dropWhile.symm⟩

theorem exists_eq_append_trim (cs : List Char) :
    ∃ before after, (∀ c ∈ before, isBlank c = true) ∧ (∀ c ∈ after, isBlank c = true) ∧
      cs = before ++ trim cs ++ after := by
  obtain ⟨before, hbefore, hstart⟩ := exists_eq_append_trimStart cs
  obtain ⟨after, hafter, hend⟩ := exists_eq_append_trimStart (trimStart cs).reverse
  refine ⟨before, after.reverse, hbefore, fun c hc => hafter c (List.mem_reverse.mp hc), ?_⟩
  have htrim : trimStart cs = trim cs ++ after.reverse := by
    rw [trim, trimEnd, ← List.reverse_append, ← hend, List.reverse_reverse]
  rw [List.append_assoc, ← htrim]
  exact hstart

theorem trimStart_of_not_blank {cs : List Char} (h : ∀ c ∈ cs, isBlank c = false) :
    trimStart cs = cs := by
  cases cs with
  | nil => rfl
  | cons c cs => exact trimStart_cons (h c List.mem_cons_self) cs

theorem trim_of_not_blank {cs : List Char} (h : ∀ c ∈ cs, isBlank c = false) : trim cs = cs := by
  -- from behind the text is not blank either
  have hreverse : ∀ c ∈ cs.reverse, isBlank c = false :=
    fun c hc => h c (List.mem_reverse.mp hc)
  rw [trim, trimStart_of_not_blank h, trimEnd, trimStart_of_not_blank hreverse,
    List.reverse_reverse]

theorem trim_eq_of_not_blank {before core after : List Char}
    (hbefore : ∀ c ∈ before, isBlank c = true) (hcore : ∀ c ∈ core, isBlank c = false)
    (hafter : ∀ c ∈ after, isBlank c = true) : trim (before ++ core ++ after) = core := by
  rw [List.append_assoc, trim_blank_append hbefore]
  cases core with
  | nil =>
    rw [List.nil_append, ← List.append_nil after, trim_blank_append hafter]
    rfl
  | cons c core =>
    have hstart : trimStart (c :: core ++ after) = c :: core ++ after :=
      trimStart_cons (hcore c List.mem_cons_self) (core ++ after)
    have hself : trimEnd (c :: core) = c :: core := by
      have htrim := trim_of_not_blank hcore
      rwa [trim, trimStart_of_not_blank hcore] at htrim
    rw [trim, hstart, trimEnd_append_blank hafter, hself]

end Text

namespace Count

open Text

/-- A text spells a number: white space, perhaps a plus sign, decimal digits of that value, and
white space. -/
def Spells (cs : List Char) (v : Nat) : Prop :=
  ∃ before sign ds after : List Char,
    cs = before ++ (sign ++ ds) ++ after ∧
    (∀ c ∈ before, c.toNat ∈ whiteSpace) ∧ (∀ c ∈ after, c.toNat ∈ whiteSpace) ∧
    (sign = [] ∨ sign = ['+']) ∧ ds ≠ [] ∧ (∀ c ∈ ds, c.isDigit = true) ∧ v = decimalValue ds

theorem dropPlus_of_isDigit {ds : List Char} (h : ∀ c ∈ ds, c.isDigit = true) :
    dropPlus ds = ds := by
  cases ds with
  | nil => rfl
  | cons c ds =>
    have hplus : c ≠ '+' := by
      rintro rfl
      exact absurd (h '+' List.mem_cons_self) (by decide)
    rw [dropPlus, if_neg hplus]

theorem exists_eq_append_dropPlus (cs : List Char) :
    ∃ sign, (sign = [] ∨ sign = ['+']) ∧ cs = sign ++ dropPlus cs := by
  cases cs with
  | nil => exact ⟨[], .inl rfl, rfl⟩
  | cons c cs =>
    by_cases hc : c = '+'
    · subst hc
      exact ⟨['+'], .inr rfl, rfl⟩
    · refine ⟨[], .inl rfl, ?_⟩
      rw [dropPlus, if_neg hc, List.nil_append]

theorem number?_trim_eq_some_iff {cs : List Char} {v : Nat} :
    number? (trim cs) = some v ↔ Spells cs v := by
  rw [number?, read?_decimal_eq_some_iff]
  constructor
  · rintro ⟨hne, hdigits, hv⟩
    obtain ⟨before, after, hbefore, hafter, hcs⟩ := exists_eq_append_trim cs
    obtain ⟨sign, hsign, htrim⟩ := exists_eq_append_dropPlus (trim cs)
    refine ⟨before, sign, dropPlus (trim cs), after, ?_, ?_, ?_, hsign, hne, hdigits, hv⟩
    · rw [← htrim]
      exact hcs
    · exact fun c hc => isBlank_iff.mp (hbefore c hc)
    · exact fun c hc => isBlank_iff.mp (hafter c hc)
  · rintro ⟨before, sign, ds, after, rfl, hbefore, hafter, hsign, hne, hdigits, rfl⟩
    -- neither a sign nor a digit is white space, so trimming stops at them
    have hcore : ∀ c ∈ sign ++ ds, isBlank c = false := by
      intro c hc
      rcases List.mem_append.mp hc with hmem | hmem
      · rcases hsign with rfl | rfl
        · cases hmem
        · obtain rfl := List.mem_singleton.mp hmem
          decide
      · exact isBlank_eq_false_of_isDigit (hdigits c hmem)
    have htrim : trim (before ++ (sign ++ ds) ++ after) = sign ++ ds :=
      trim_eq_of_not_blank (fun c hc => isBlank_iff.mpr (hbefore c hc)) hcore
        (fun c hc => isBlank_iff.mpr (hafter c hc))
    have hdrop : dropPlus (sign ++ ds) = ds := by
      rcases hsign with rfl | rfl
      · exact dropPlus_of_isDigit hdigits
      · rfl
    rw [htrim, hdrop]
    exact ⟨hne, hdigits, rfl⟩

theorem Spells.unique {cs : List Char} {v w : Nat} (hv : Spells cs v) (hw : Spells cs w) :
    v = w := by
  rw [← number?_trim_eq_some_iff] at hv hw
  exact Option.some.inj (hv.symm.trans hw)

theorem number?_trim_digits (n : Nat) : number? (trim (Base.decimal.digits n)) = some n := by
  have hdigits := Base.isDigit_digits n
  have htrim : trim (Base.decimal.digits n) = Base.decimal.digits n :=
    trim_of_not_blank fun c hc => isBlank_eq_false_of_isDigit (hdigits c hc)
  rw [htrim, number?, dropPlus_of_isDigit hdigits, Base.read?_digits]

theorem read_text (n : Count) : read n.text = .ok n := by
  rw [read_eq_ok_iff, Count.text, toList_decimal, number?_trim_digits]

/-- A text that begins with a hyphen is refused, whatever follows. -/
theorem read_of_hyphen {s : String} (h : s.toList.head? = some '-') : read s = .error ⟨s⟩ := by
  refine read_eq_error_iff.mpr ⟨?_, rfl⟩
  intro c hc
  obtain ⟨before, sign, ds, after, hs, hbefore, -, hsign, hne, hdigits, -⟩ :=
    number?_trim_eq_some_iff.mp (read_eq_ok_iff.mp hc)
  rw [hs] at h
  -- what spells a number begins with white space, the sign or a digit
  cases before with
  | cons b before =>
    obtain rfl : b = '-' := Option.some.inj h
    exact absurd (hbefore '-' List.mem_cons_self) (by decide)
  | nil =>
    rcases hsign with rfl | rfl
    · obtain ⟨d, ds, rfl⟩ := List.exists_cons_of_ne_nil hne
      obtain rfl : d = '-' := Option.some.inj h
      exact absurd (hdigits '-' List.mem_cons_self) (by decide)
    · exact absurd (Option.some.inj h) (by decide)

/-- Reading accepts the texts that spell a number of at most 64 bits, which is then the count,
and refuses every other text with the whole of it.  A text spells one number at most. -/
theorem read_iff_spells (s : String) :
    (∀ v, (∃ c, read s = .ok c ∧ c.val.toNat = v) ↔ Spells s.toList v ∧ v ≤ 2 ^ 64 - 1) ∧
      ((¬ ∃ v, Spells s.toList v ∧ v ≤ 2 ^ 64 - 1) → read s = .error ⟨s⟩) ∧
      ∀ v w, Spells s.toList v → Spells s.toList w → v = w := by
  have hok : ∀ v, (∃ c, read s = .ok c ∧ c.val.toNat = v) ↔
      Spells s.toList v ∧ v ≤ 2 ^ 64 - 1 := by
    intro v
    constructor
    · rintro ⟨c, hc, rfl⟩
      have hlt := c.val.toNat_lt
      exact ⟨number?_trim_eq_some_iff.mp (read_eq_ok_iff.mp hc), by omega⟩
    · rintro ⟨hspells, hle⟩
      have hval : (UInt64.ofNat v).toNat = v :=
        UInt64.toNat_ofNat_of_lt' (by simp only [UInt64.size]; omega)
      refine ⟨⟨UInt64.ofNat v⟩, ?_, hval⟩
      rw [read_eq_ok_iff, hval]
      exact number?_trim_eq_some_iff.mpr hspells
  refine ⟨hok, ?_, fun _ _ => Spells.unique⟩
  intro hnone
  refine read_eq_error_iff.mpr ⟨?_, rfl⟩
  intro c hc
  exact hnone ⟨c.val.toNat, (hok _).mp ⟨c, hc, rfl⟩⟩

example : read "\u2003+007\n" = .ok ⟨7⟩ := by decide

example : read "18446744073709551616" = .error ⟨"18446744073709551616"⟩ := by decide

end Count

end PrimeListing
