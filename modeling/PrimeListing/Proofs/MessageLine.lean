/-
The message of an error is one clean line, and the text quoted in it is well
delimited.

Whatever was refused, the quoted form of it holds characters that messages
show as they are, and no others, so there is no control character among them.
Every quote in it stands behind a backslash that escapes it, and no escape is
left open at its end, so the quote that closes it is the first one that is not
escaped.

* `mem_encodeChar` — a written form holds the character itself, if it is not
  hidden, or printable characters of ASCII.
* `endsInEscape_encode_append` — the written form of a text leaves no escape
  open.
* `delimited_encode` — every quote in it is escaped.
* `encode_eq_self` — printable ASCII without quotes and backslashes stands for
  itself.
* `lines_recordBlock` — the block form of a record has a line for each field,
  and one before and one after them.
* `message_clean_and_delimited` — all of this for the message of an error.
-/
import PrimeListing.Count.Basic
import PrimeListing.Proofs.Numeral

namespace PrimeListing

namespace Text

/-! ### The alphabet of a written form -/

/-- The control characters. -/
def IsControl (c : Char) : Prop := c.toNat ≤ 0x1f ∨ (0x7f ≤ c.toNat ∧ c.toNat ≤ 0x9f)

/-- The printable characters of ASCII. -/
def IsPlain (c : Char) : Prop := 0x20 ≤ c.toNat ∧ c.toNat ≤ 0x7e

instance : DecidablePred IsControl := fun c =>
  inferInstanceAs (Decidable (c.toNat ≤ 0x1f ∨ (0x7f ≤ c.toNat ∧ c.toNat ≤ 0x9f)))

instance : DecidablePred IsPlain := fun c =>
  inferInstanceAs (Decidable (0x20 ≤ c.toNat ∧ c.toNat ≤ 0x7e))

theorem IsPlain.not_isControl {c : Char} (h : IsPlain c) : ¬ IsControl c := by
  unfold IsPlain at h
  unfold IsControl
  omega

theorem not_isControl_of_isHidden {c : Char} (h : isHidden c = false) : ¬ IsControl c := by
  intro hcontrol
  unfold IsControl at hcontrol
  have hunprintable : isPrintable c = false := isPrintable_of_control (by omega)
  simp [isHidden, hunprintable] at h

/-- The digits of a code point are plain, and neither quotes nor backslashes. -/
theorem isPlain_of_mem_digits {n : Nat} {c : Char} (h : c ∈ Base.lowerHex.digits n) :
    IsPlain c ∧ c ≠ '\x22' ∧ c ≠ '\x5c' := by
  have table : ∀ i : Fin Base.lowerHex.radix,
      IsPlain (Base.lowerHex.digit i.val) ∧ Base.lowerHex.digit i.val ≠ '\x22' ∧
        Base.lowerHex.digit i.val ≠ '\x5c' := by decide
  obtain ⟨d, hd, rfl⟩ := Base.exists_of_mem_digits h
  exact table ⟨d, hd⟩

theorem mem_codeEscape_iff {c d : Char} :
    d ∈ codeEscape c ↔
      (d = '\x5c' ∨ d = 'u' ∨ d = '{') ∨ d ∈ Base.lowerHex.digits c.toNat ∨ d = '}' := by
  simp only [codeEscape, List.mem_append, List.mem_cons, List.not_mem_nil, or_false, or_assoc]

theorem isPlain_of_mem_codeEscape {c d : Char} (h : d ∈ codeEscape c) :
    IsPlain d ∧ d ≠ '\x22' := by
  rcases mem_codeEscape_iff.mp h with (rfl | rfl | rfl) | hdigit | rfl
  · decide
  · decide
  · decide
  · exact ⟨(isPlain_of_mem_digits hdigit).1, (isPlain_of_mem_digits hdigit).2.1⟩
  · decide

theorem isPlain_of_escapeSign? {c sign : Char} (h : escapeSign? c = some sign) :
    IsPlain sign := by
  unfold escapeSign? at h
  split at h
  · cases h; decide
  split at h
  · cases h; decide
  split at h
  · cases h; decide
  split at h
  · cases h; decide
  split at h
  · next hc => cases h; rcases hc with rfl | rfl <;> decide
  · cases h

/-- Only an unhidden character stands for itself, and all else is written in plain characters. -/
theorem mem_encodeChar {hidden : Char → Bool} {c d : Char} (h : d ∈ encodeChar hidden c) :
    (d = c ∧ hidden c = false) ∨ IsPlain d := by
  unfold encodeChar at h
  split at h
  · next sign hsign =>
    rcases List.mem_cons.mp h with rfl | hmem
    · right; decide
    · obtain rfl := List.mem_singleton.mp hmem
      exact .inr (isPlain_of_escapeSign? hsign)
  · split at h
    · exact .inr (isPlain_of_mem_codeEscape h).1
    · next hshown =>
      exact .inl ⟨List.mem_singleton.mp h, Bool.eq_false_iff.mpr hshown⟩

theorem not_isControl_of_mem_encode {cs : List Char} {d : Char} (h : d ∈ encode isHidden cs) :
    ¬ IsControl d := by
  obtain ⟨c, -, hd⟩ := List.mem_flatMap.mp h
  rcases mem_encodeChar hd with ⟨rfl, hshown⟩ | hplain
  · exact not_isControl_of_isHidden hshown
  · exact hplain.not_isControl

/-! ### Escapes -/

/-- Whether the next character is escaped, given whether this one is. -/
def escapeStep (escaped : Bool) (c : Char) : Bool := !escaped && c == '\x5c'

/-- Whether a text ends in a backslash that escapes the character behind it. -/
def endsInEscape (cs : List Char) : Bool := cs.foldl escapeStep false

/-- Between two quotes: the one behind the text is the first that no backslash escapes. -/
structure Delimited (body : List Char) : Prop where
  quote_escaped : ∀ before after, body = before ++ '\x22' :: after → endsInEscape before = true
  closed : endsInEscape body = false

theorem foldl_escapeStep_of_not_mem {cs : List Char} (h : '\x5c' ∉ cs) :
    cs.foldl escapeStep false = false := by
  induction cs with
  | nil => rfl
  | cons c cs ih =>
    obtain ⟨hc, hcs⟩ := List.ne_and_not_mem_of_not_mem_cons h
    have hstep : escapeStep false c = false := by simp [escapeStep, hc.symm]
    rw [List.foldl_cons, hstep]
    exact ih hcs

theorem endsInEscape_append {cs : List Char} (h : endsInEscape cs = false) (ds : List Char) :
    endsInEscape (cs ++ ds) = endsInEscape ds := by
  unfold endsInEscape at h ⊢
  rw [List.foldl_append, h]

theorem endsInEscape_codeEscape (c : Char) : endsInEscape (codeEscape c) = false := by
  -- the letter behind the backslash is escaped, and no other backslash follows
  have hopening : endsInEscape ['\x5c', 'u'] = false := rfl
  have hsplit : codeEscape c =
      ['\x5c', 'u'] ++ ('{' :: Base.lowerHex.digits c.toNat ++ ['}']) := rfl
  rw [hsplit, endsInEscape_append hopening]
  apply foldl_escapeStep_of_not_mem
  intro hmem
  rcases List.mem_append.mp hmem with hfront | hlast
  · rcases List.mem_cons.mp hfront with heq | hdigit
    · exact absurd heq (by decide)
    · exact (isPlain_of_mem_digits hdigit).2.2 rfl
  · exact absurd (List.mem_singleton.mp hlast) (by decide)

theorem endsInEscape_encodeChar (hidden : Char → Bool) (c : Char) :
    endsInEscape (encodeChar hidden c) = false := by
  unfold encodeChar
  split
  · rfl
  · next hnone =>
    split
    · exact endsInEscape_codeEscape c
    · have hslash : '\x5c' ∉ [c] := by simpa using (ne_of_escapeSign?_eq_none hnone).2.symm
      exact foldl_escapeStep_of_not_mem hslash

theorem encode_cons (hidden : Char → Bool) (c : Char) (cs : List Char) :
    encode hidden (c :: cs) = encodeChar hidden c ++ encode hidden cs :=
  List.flatMap_cons

theorem endsInEscape_encode_append (hidden : Char → Bool) (cs ds : List Char) :
    endsInEscape (encode hidden cs ++ ds) = endsInEscape ds := by
  induction cs with
  | nil => rfl
  | cons c cs ih =>
    rw [encode_cons, List.append_assoc, endsInEscape_append (endsInEscape_encodeChar hidden c), ih]

/-- In the written form of a character a quote stands behind a backslash alone. -/
theorem eq_of_encodeChar_eq_append_quote {hidden : Char → Bool} {c : Char}
    {before after : List Char} (h : encodeChar hidden c = before ++ '\x22' :: after) :
    before = ['\x5c'] := by
  have hmem : '\x22' ∈ encodeChar hidden c := by simp [h]
  unfold encodeChar at h hmem
  split at h
  · cases before with
    | nil => exact absurd (List.cons.inj h).1 (by decide)
    | cons b before =>
      obtain ⟨rfl, htail⟩ := List.cons.inj h
      cases before with
      | nil => rfl
      | cons b' before => simp at htail
  · next hnone =>
    simp only [hnone] at hmem
    split at hmem
    · exact absurd rfl (isPlain_of_mem_codeEscape hmem).2
    · exact absurd (List.mem_singleton.mp hmem).symm (ne_of_escapeSign?_eq_none hnone).1

theorem endsInEscape_of_encode_eq_append_quote {hidden : Char → Bool}
    {cs before after : List Char} (h : encode hidden cs = before ++ '\x22' :: after) :
    endsInEscape before = true := by
  induction cs generalizing before with
  | nil => simp [encode] at h
  | cons c cs ih =>
    have hchar := endsInEscape_encodeChar hidden c
    rw [encode_cons, List.append_eq_append_iff] at h
    rcases h with ⟨later, rfl, hrest⟩ | ⟨part, hpart, hquote⟩
    -- the quote stands in what is written for the later characters
    · rw [endsInEscape_append hchar]
      exact ih hrest
    -- or in what is written for the first one, perhaps right behind it
    · cases part with
      | nil =>
        have hnil : endsInEscape [] = true := ih hquote.symm
        cases hnil
      | cons q part =>
        obtain ⟨rfl, -⟩ := List.cons.inj hquote
        rw [eq_of_encodeChar_eq_append_quote hpart]
        rfl

theorem delimited_encode (hidden : Char → Bool) (cs : List Char) :
    Delimited (encode hidden cs) where
  quote_escaped := fun _ _ h => endsInEscape_of_encode_eq_append_quote h
  closed := by
    have h := endsInEscape_encode_append hidden cs []
    rwa [List.append_nil] at h

/-- A quote or a backslash is written behind a backslash of its own. -/
theorem encode_append_cons {hidden : Char → Bool} {before after : List Char} {c : Char}
    (hc : c = '\x22' ∨ c = '\x5c') :
    encode hidden (before ++ c :: after) =
      encode hidden before ++ '\x5c' :: c :: encode hidden after := by
  have hchar : encodeChar hidden c = ['\x5c', c] := by
    rcases hc with rfl | rfl <;> rfl
  rw [encode, List.flatMap_append, List.flatMap_cons, hchar]
  rfl

/-! ### Plain text -/

theorem isHidden_of_isPlain {c : Char} (h : IsPlain c) : isHidden c = false := by
  obtain ⟨hfirst, hlast⟩ := h
  have hprintable : isPrintable c = true := isPrintable_of_ascii hfirst (by omega)
  have hlow : ∀ r ∈ fillers, 0x115f ≤ r.1 := by decide
  have hfiller : fillers.contains c = false :=
    CodePoints.contains_eq_false_of_lt hlow (by omega)
  have hextender : isExtender c = false := isExtender_of_lt (by omega)
  simp [isHidden, hprintable, hfiller, hextender]

theorem escapeSign?_of_isPlain {c : Char} (h : IsPlain c) (hquote : c ≠ '\x22')
    (hslash : c ≠ '\x5c') : escapeSign? c = none := by
  have hne : ∀ d, ¬ IsPlain d → c ≠ d := by
    rintro d hd rfl
    exact hd h
  rw [escapeSign?, if_neg (hne _ (by decide)), if_neg (hne _ (by decide)),
    if_neg (hne _ (by decide)), if_neg (hne _ (by decide)), if_neg (not_or.mpr ⟨hquote, hslash⟩)]

theorem encode_eq_self {cs : List Char}
    (h : ∀ c ∈ cs, IsPlain c ∧ c ≠ '\x22' ∧ c ≠ '\x5c') : encode isHidden cs = cs := by
  induction cs with
  | nil => rfl
  | cons c cs ih =>
    obtain ⟨hplain, hquote, hslash⟩ := h c List.mem_cons_self
    have hchar : encodeChar isHidden c = [c] := by
      rw [encodeChar, escapeSign?_of_isPlain hplain hquote hslash, isHidden_of_isPlain hplain]
      rfl
    rw [encode_cons, hchar, ih fun d hd => h d (List.mem_cons_of_mem c hd)]
    rfl

/-! ### Lines -/

/-- The lines of a text, which line feeds part. -/
def lines (s : String) : List String := (s.toList.splitOn '\n').map String.ofList

theorem lines_of_not_mem {s : String} (h : '\n' ∉ s.toList) : lines s = [s] := by
  rw [lines, List.splitOn_eq_singleton h, List.map_singleton, String.ofList_toList]

theorem lines_append {s t : String} (h : '\n' ∉ s.toList) :
    lines (s ++ "\n" ++ t) = s :: lines t := by
  have hlist : (s ++ "\n" ++ t).toList = s.toList ++ '\n' :: t.toList := by
    simp only [String.toList_append, List.append_assoc]
    rfl
  rw [lines, hlist, List.splitOn_append_cons_self_of_not_mem h, List.map_cons,
    String.ofList_toList, lines]

theorem blockLine_append (item rest : String) :
    blockLine item ++ rest = ("    " ++ item ++ ",") ++ "\n" ++ rest := by
  have hend : ",\n" = "," ++ "\n" := rfl
  rw [blockLine, hend, ← String.append_assoc]

/-- The block form of a record has a line for each field, and one before and one after them. -/
theorem lines_recordBlock {label : String} {fields : List (String × String)}
    (hlabel : '\n' ∉ label.toList) (hfields : ∀ f ∈ fields, '\n' ∉ (field f.1 f.2).toList) :
    lines (recordBlock label fields) =
      (label ++ " \x7b") :: (fields.map fun f => "    " ++ field f.1 f.2 ++ ",") ++ ["\x7d"] := by
  have hrest : lines (String.join (fields.map fun f => blockLine (field f.1 f.2)) ++ "\x7d") =
      (fields.map fun f => "    " ++ field f.1 f.2 ++ ",") ++ ["\x7d"] := by
    clear hlabel
    induction fields with
    | nil => exact lines_of_not_mem (by decide)
    | cons f fields ih =>
      have hline : '\n' ∉ ("    " ++ field f.1 f.2 ++ ",").toList := by
        simpa [String.toList_append] using hfields f List.mem_cons_self
      rw [List.map_cons, String.join_cons, String.append_assoc, blockLine_append,
        lines_append hline, ih fun g hg => hfields g (List.mem_cons_of_mem f hg)]
      rfl
  have hfirst : '\n' ∉ (label ++ " \x7b").toList := by
    simpa [String.toList_append] using hlabel
  have hopening : " \x7b\n" = " \x7b" ++ "\n" := rfl
  rw [recordBlock, hopening, ← String.append_assoc, String.append_assoc, lines_append hfirst,
    hrest]
  rfl

end Text

namespace InvalidCount

open Text

theorem quoted_eq (s : String) :
    quoted s = "\x22" ++ String.ofList (encode isHidden s.toList) ++ "\x22" := by
  rw [quoted, quote, String.ofList_append, String.ofList_cons]
  rfl

theorem message_eq (s : String) :
    (mk s).message =
      "invalid argument \x22" ++ String.ofList (encode isHidden s.toList) ++
        "\x22: expected a non-negative integer count" := by
  have hlead : "invalid argument \x22" = "invalid argument " ++ "\x22" := rfl
  have htail : "\x22: expected a non-negative integer count" =
      "\x22" ++ ": expected a non-negative integer count" := rfl
  unfold message
  rw [quoted_eq, hlead, htail, ← String.append_assoc, ← String.append_assoc,
    ← String.append_assoc]

theorem not_isControl_of_mem_quoted {s : String} {c : Char} (h : c ∈ (quoted s).toList) :
    ¬ IsControl c := by
  rw [quoted, String.toList_ofList, quote, List.cons_append, List.mem_cons, List.mem_append,
    List.mem_singleton] at h
  rcases h with rfl | hbody | rfl
  · decide
  · exact not_isControl_of_mem_encode hbody
  · decide

theorem not_isControl_of_mem_message {e : InvalidCount} {c : Char} (h : c ∈ e.message.toList) :
    ¬ IsControl c := by
  have hlead : ∀ d ∈ "invalid argument ".toList, ¬ IsControl d := by
    simp [IsControl]
  have htail : ∀ d ∈ ": expected a non-negative integer count".toList, ¬ IsControl d := by
    simp [IsControl]
  unfold message at h
  rw [String.toList_append, String.toList_append, List.mem_append, List.mem_append] at h
  rcases h with (h | h) | h
  · exact hlead c h
  · exact not_isControl_of_mem_quoted h
  · exact htail c h

theorem lines_labelledBlock (e : InvalidCount) :
    lines e.labelledBlock =
      ["InvalidArgument \x7b", "    input: " ++ quoted e.input ++ ",", "\x7d"] := by
  have hfields : ∀ f ∈ e.fields, '\n' ∉ (field f.1 f.2).toList := by
    intro f hf
    obtain rfl := List.mem_singleton.mp hf
    have hquoted : '\n' ∉ (quoted e.input).toList :=
      fun hmem => not_isControl_of_mem_quoted hmem (by decide)
    simpa [field, String.toList_append] using hquoted
  have hline : "    " ++ field "input" (quoted e.input) = "    input: " ++ quoted e.input := by
    rw [field, ← String.append_assoc]
    rfl
  rw [labelledBlock, lines_recordBlock (by decide) hfields, fields, List.map_singleton, hline]
  rfl

/-- The message for a refused text is a fixed beginning, the written form of the text between two
quotes, and a fixed end.  It holds no control character and so is one line.  The quote that closes
the written form is the first one that no backslash escapes, each quote and each backslash of the
refused text being written behind a backslash that escapes it.  Printable ASCII other than these
two stands for itself.  The block form of the error has three lines. -/
theorem message_clean_and_delimited (s : String) :
    (mk s).message =
        "invalid argument \x22" ++ String.ofList (encode isHidden s.toList) ++
          "\x22: expected a non-negative integer count" ∧
      (∀ c ∈ (mk s).message.toList, ¬ IsControl c) ∧
      lines (mk s).message = [(mk s).message] ∧
      Delimited (encode isHidden s.toList) ∧
      (∀ before c after, s.toList = before ++ c :: after → c = '\x22' ∨ c = '\x5c' →
        encode isHidden s.toList =
            encode isHidden before ++ '\x5c' :: c :: encode isHidden after ∧
          endsInEscape (encode isHidden before ++ ['\x5c']) = true) ∧
      ((∀ c ∈ s.toList, IsPlain c ∧ c ≠ '\x22' ∧ c ≠ '\x5c') →
        String.ofList (encode isHidden s.toList) = s) ∧
      lines (mk s).labelledBlock =
        ["InvalidArgument \x7b", "    input: " ++ quoted s ++ ",", "\x7d"] := by
  refine ⟨message_eq s, fun c => not_isControl_of_mem_message, ?_, delimited_encode _ _, ?_, ?_,
    lines_labelledBlock _⟩
  · exact lines_of_not_mem fun hmem => not_isControl_of_mem_message hmem (by decide)
  · rintro before c after hs hc
    rw [hs]
    refine ⟨encode_append_cons hc, ?_⟩
    rw [endsInEscape_encode_append]
    rfl
  · intro h
    rw [encode_eq_self h, String.ofList_toList]

end InvalidCount

end PrimeListing
