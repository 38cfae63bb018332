/-
Quoted text: how arbitrary text is shown inside a message.

The text stands between double quotes.  A character with an escape of its own
is written as a backslash and a sign, a hidden one as its code point in
hexadecimal, and all others stand for themselves.  Which characters are hidden
is a parameter of the format; `quoted` hides what is unprintable, what shows
nothing and what would join the character before it.

* `unquote_quote_append` — reading gives back the text that was quoted,
  whatever is hidden and whatever follows.
* `quote_inj` — different texts have different quoted forms.
-/
import PrimeListing.Numeral
import PrimeListing.Text.Extender
import PrimeListing.Text.Printable

namespace PrimeListing.Text

/-- The sign behind the backslash, for a character that has an escape of its own. -/
def escapeSign? (c : Char) : Option Char :=
  if c = '\x00' then some '0'
  else if c = '\t' then some 't'
  else if c = '\n' then some 'n'
  else if c = '\r' then some 'r'
  else if c = '\x22' ∨ c = '\x5c' then some c
  else none

/-- The character that a sign behind the backslash stands for. -/
def escaped? (sign : Char) : Option Char :=
  if sign = '0' then some '\x00'
  else if sign = 't' then some '\t'
  else if sign = 'n' then some '\n'
  else if sign = 'r' then some '\r'
  else if sign = '\x22' ∨ sign = '\x5c' then some sign
  else none

/-- A character by its code point. -/
def codeEscape (c : Char) : List Char :=
  ['\x5c', 'u', '{'] ++ Base.lowerHex.digits c.toNat ++ ['}']

/-- The written form of one character. -/
def encodeChar (hidden : Char → Bool) (c : Char) : List Char :=
  match escapeSign? c with
  | some sign => ['\x5c', sign]
  | none => if hidden c then codeEscape c else [c]

/-- The written form of a text, without the quotes around it. -/
def encode (hidden : Char → Bool) (cs : List Char) : List Char := cs.flatMap (encodeChar hidden)

/-- A text between double quotes. -/
def quote (hidden : Char → Bool) (cs : List Char) : List Char :=
  '\x22' :: encode hidden cs ++ ['\x22']

/-! ### Reading a quoted text -/

/-- Where a reader of quoted text stands. -/
inductive Reading
  | plain
  | escape
  /-- Before the brace that opens a code point. -/
  | brace
  /-- Inside a code point, of which the digits read so far make `value`. -/
  | code (value : Nat)

/-- Read up to the closing quote, and give the text with what follows the quote. -/
def decode : Reading → List Char → Option (List Char × List Char)
  | _, [] => none
  | .plain, c :: rest =>
    if c = '\x22' then some ([], rest)
    else if c = '\x5c' then decode .escape rest
    else (decode .plain rest).map fun r => (c :: r.1, r.2)
  | .escape, c :: rest =>
    if c = 'u' then decode .brace rest
    else (escaped? c).bind fun e => (decode .plain rest).map fun r => (e :: r.1, r.2)
  | .brace, c :: rest => if c = '{' then decode (.code 0) rest else none
  | .code value, c :: rest =>
    if c = '}' then (decode .plain rest).map fun r => (Char.ofNat value :: r.1, r.2)
    else (Base.lowerHex.digit? c).bind fun d => decode (.code (16 * value + d)) rest

/-- Read a quoted text, and give it with what follows its closing quote. -/
def unquote : List Char → Option (List Char × List Char)
  | [] => none
  | c :: rest => if c = '\x22' then decode .plain rest else none

/-! ### Reading undoes writing -/

/-- The sign of an escape stands for the character it was chosen for. -/
theorem escaped?_of_escapeSign? {c sign : Char} (h : escapeSign? c = some sign) :
    escaped? sign = some c ∧ sign ≠ 'u' := by
  unfold escapeSign? at h
  split at h
  · next hc => cases h; exact ⟨by rw [hc]; rfl, by decide⟩
  split at h
  · next hc => cases h; exact ⟨by rw [hc]; rfl, by decide⟩
  split at h
  · next hc => cases h; exact ⟨by rw [hc]; rfl, by decide⟩
  split at h
  · next hc => cases h; exact ⟨by rw [hc]; rfl, by decide⟩
  split at h
  · next hc => cases h; rcases hc with rfl | rfl <;> exact ⟨by rfl, by decide⟩
  · cases h

/-- A character without an escape of its own is neither a quote nor a backslash. -/
theorem ne_of_escapeSign?_eq_none {c : Char} (h : escapeSign? c = none) :
    c ≠ '\x22' ∧ c ≠ '\x5c' := by
  constructor <;> rintro rfl <;> exact absurd h (by decide)

theorem ne_brace_of_digit {c : Char} {d : Nat} (h : Base.lowerHex.digit? c = some d) :
    c ≠ '}' := by
  rintro rfl
  have hnone : Base.lowerHex.digit? '}' = none := by decide
  rw [hnone] at h
  cases h

/-- The digits of a code point are read up to its closing brace. -/
theorem decode_code {ds : List Char} {value n : Nat}
    (h : Base.lowerHex.readFrom? value ds = some n) (rest : List Char) :
    decode (.code value) (ds ++ '}' :: rest) =
      (decode .plain rest).map fun r => (Char.ofNat n :: r.1, r.2) := by
  induction ds generalizing value with
  | nil =>
    cases h
    simp [decode]
  | cons c ds ih =>
    obtain ⟨d, hd, hds⟩ := Option.bind_eq_some_iff.mp h
    simp only [List.cons_append, decode, if_neg (ne_brace_of_digit hd), hd, Option.bind_some]
    exact ih hds

theorem decode_encodeChar (hidden : Char → Bool) (c : Char) (rest : List Char) :
    decode .plain (encodeChar hidden c ++ rest) =
      (decode .plain rest).map fun r => (c :: r.1, r.2) := by
  unfold encodeChar
  split
  · next sign hsign =>
    obtain ⟨hc, hu⟩ := escaped?_of_escapeSign? hsign
    simp [decode, hc, hu]
  · next hnone =>
    obtain ⟨hquote, hslash⟩ := ne_of_escapeSign?_eq_none hnone
    split
    · have hcode := decode_code (Base.lowerHex.readFrom?_digits c.toNat) rest
      rw [Char.ofNat_toNat] at hcode
      simpa [codeEscape, decode] using hcode
    · simp [decode, hquote, hslash]

theorem decode_encode_append (hidden : Char → Bool) (cs rest : List Char) :
    decode .plain (encode hidden cs ++ '\x22' :: rest) = some (cs, rest) := by
  induction cs with
  | nil => simp [encode, decode]
  | cons c cs ih =>
    have hcons : encode hidden (c :: cs) = encodeChar hidden c ++ encode hidden cs := by
      simp [encode]
    rw [hcons, List.append_assoc, decode_encodeChar, ih]
    rfl

/-- A quoted text is read as that text, and what follows is left. -/
theorem unquote_quote_append (hidden : Char → Bool) (cs rest : List Char) :
    unquote (quote hidden cs ++ rest) = some (cs, rest) := by
  have h := decode_encode_append hidden cs rest
  simpa [quote, unquote] using h

theorem quote_inj {hidden : Char → Bool} {cs ds : List Char} :
    quote hidden cs = quote hidden ds ↔ cs = ds := by
  constructor
  · intro h
    have hcs := unquote_quote_append hidden cs []
    have hds := unquote_quote_append hidden ds []
    rw [h, hds] at hcs
    simpa using hcs.symm
  · rintro rfl
    rfl

/-! ### The format of messages -/

/-- The letters that show nothing: the Hangul fillers. -/
def fillers : CodePoints := [(0x115f, 0x1160), (0x3164, 0x3164), (0xffa0, 0xffa0)]

/-- The extenders that keep a place of their own: the halfwidth sound marks. -/
def soundMarks : CodePoints := [(0xff9e, 0xff9f)]

/-- What a message does not show as it is. -/
def isHidden (c : Char) : Bool :=
  !isPrintable c || fillers.contains c || (isExtender c && !soundMarks.contains c)

/-- A text as it is quoted in a message. -/
def quoted (s : String) : String := String.ofList (quote isHidden s.toList)

end PrimeListing.Text
