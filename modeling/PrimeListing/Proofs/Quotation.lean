/-
No text in which a refused input is shown loses anything of it.

What stands between the quotes can be read back to the text that was quoted, by
one reader for all of them, whichever characters the writer hides.  So the
message of an error and both of its labelled forms tell what was refused, and
the labelled outcome of reading a text tells the outcome.

* `Text.unquoted?` — the reader, over whole texts.
* `record_singleton_inj`, `recordBlock_singleton_inj`, `wrapped_inj` — a label
  around a body keeps the body.
* `Count.labelledOutcome_inj` — a labelled count and a labelled error are never
  the same text.
* `quotation_lossless` — the reader, the three texts of an error, and the
  outcomes of reading.
-/
import PrimeListing.Proofs.Reading

namespace PrimeListing

namespace Text

/-- The text that a quoted text stands for, if it is one as a whole. -/
def unquoted? (s : String) : Option String :=
  match unquote s.toList with
  | some (cs, []) => some (String.ofList cs)
  | some (_, _ :: _) | none => none

theorem unquoted?_quote (hidden : Char → Bool) (s : String) :
    unquoted? (String.ofList (quote hidden s.toList)) = some s := by
  have h := unquote_quote_append hidden s.toList []
  rw [List.append_nil] at h
  rw [unquoted?, String.toList_ofList, h]
  exact congrArg some String.ofList_toList

theorem unquoted?_quoted (s : String) : unquoted? (quoted s) = some s :=
  unquoted?_quote isHidden s

theorem quoted_inj {s t : String} : quoted s = quoted t ↔ s = t := by
  rw [quoted, quoted, String.ofList_inj, quote_inj, String.toList_inj]

/-! ### Labels -/

theorem field_inj {name v w : String} : field name v = field name w ↔ v = w := by
  rw [field, field, String.append_right_inj]

theorem record_singleton_inj {label name v w : String} :
    record label [(name, v)] = record label [(name, w)] ↔ v = w := by
  simp only [record, List.map_cons, List.map_nil, String.intercalate_singleton,
    String.append_left_inj, String.append_right_inj, field_inj]

theorem recordBlock_singleton_inj {label name v w : String} :
    recordBlock label [(name, v)] = recordBlock label [(name, w)] ↔ v = w := by
  simp only [recordBlock, blockLine, List.map_cons, List.map_nil, String.join_cons,
    String.join_nil, String.append_left_inj, String.append_right_inj, field_inj]

theorem wrapped_inj {label v w : String} : wrapped label v = wrapped label w ↔ v = w := by
  rw [wrapped, wrapped, String.append_left_inj, String.append_right_inj]

end Text

namespace InvalidCount

theorem quoted_input_inj {d e : InvalidCount} :
    Text.quoted d.input = Text.quoted e.input ↔ d = e := by
  rw [Text.quoted_inj]
  exact ⟨fun h => congrArg mk h, congrArg input⟩

theorem message_inj {d e : InvalidCount} : d.message = e.message ↔ d = e := by
  unfold message
  rw [String.append_left_inj, String.append_right_inj, quoted_input_inj]

theorem labelled_inj {d e : InvalidCount} : d.labelled = e.labelled ↔ d = e := by
  rw [labelled, labelled, fields, fields, Text.record_singleton_inj, quoted_input_inj]

theorem labelledBlock_inj {d e : InvalidCount} : d.labelledBlock = e.labelledBlock ↔ d = e := by
  rw [labelledBlock, labelledBlock, fields, fields, Text.recordBlock_singleton_inj,
    quoted_input_inj]

end InvalidCount

namespace Count

theorem text_inj {m n : Count} : m.text = n.text ↔ m = n := by
  constructor
  · intro h
    have hm := read_text m
    rw [h, read_text] at hm
    exact (Except.ok.inj hm).symm
  · rintro rfl
    rfl

theorem labelled_inj {m n : Count} : m.labelled = n.labelled ↔ m = n := by
  rw [labelled, labelled, Text.wrapped_inj, text_inj]

/-- The labels of the two outcomes differ in their first letter. -/
theorem labelledOutcome_ok_ne_error (n : Count) (e : InvalidCount) :
    labelledOutcome (.ok n) ≠ labelledOutcome (.error e) := by
  intro h
  have hhead := congrArg (fun s => s.toList.head?) h
  simp [labelledOutcome, Text.wrapped] at hhead

theorem labelledOutcome_inj {r r' : Except InvalidCount Count} :
    labelledOutcome r = labelledOutcome r' ↔ r = r' := by
  cases r with
  | ok m =>
    cases r' with
    | ok n =>
      rw [labelledOutcome, labelledOutcome, Text.wrapped_inj, labelled_inj, Except.ok.injEq]
    | error e => exact iff_of_false (labelledOutcome_ok_ne_error m e) (by simp)
  | error d =>
    cases r' with
    | ok n => exact iff_of_false (labelledOutcome_ok_ne_error n d).symm (by simp)
    | error e =>
      rw [labelledOutcome, labelledOutcome, Text.wrapped_inj, InvalidCount.labelled_inj,
        Except.error.injEq]

end Count

/-- A quoted text is read back whichever characters are hidden in it, and so is the quoted form that
messages use.  Each of the three texts of an error determines the error, and two texts are read with
the same outcome exactly if the labelled outcomes are the same. -/
theorem quotation_lossless :
    (∀ (hidden : Char → Bool) (s : String),
      Text.unquoted? (String.ofList (Text.quote hidden s.toList)) = some s) ∧
    (∀ s : String, Text.unquoted? (Text.quoted s) = some s) ∧
    (∀ a b : String, (InvalidCount.mk a).message = (InvalidCount.mk b).message ↔ a = b) ∧
    (∀ a b : String, (InvalidCount.mk a).labelled = (InvalidCount.mk b).labelled ↔ a = b) ∧
    (∀ a b : String,
      (InvalidCount.mk a).labelledBlock = (InvalidCount.mk b).labelledBlock ↔ a = b) ∧
    ∀ a b : String,
      Count.read a = Count.read b ↔
        Count.labelledOutcome (Count.read a) = Count.labelledOutcome (Count.read b) := by
  have hinput : ∀ a b : String, InvalidCount.mk a = InvalidCount.mk b ↔ a = b :=
    fun a b => ⟨congrArg InvalidCount.input, congrArg InvalidCount.mk⟩
  refine ⟨Text.unquoted?_quote, Text.unquoted?_quoted, fun a b => ?_, fun a b => ?_, fun a b => ?_,
    fun a b => ?_⟩
  · rw [InvalidCount.message_inj, hinput]
  · rw [InvalidCount.labelled_inj, hinput]
  · rw [InvalidCount.labelledBlock_inj, hinput]
  · exact Count.labelledOutcome_inj.symm

end PrimeListing
