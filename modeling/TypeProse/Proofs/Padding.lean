import TypeProse.Proofs.Joining

/-!
# Blanks around a text

Blanks in front of a text move all that is found in it, and blanks behind it move its end.
Otherwise the text is read as it is without them, whether it lists types or has a fault.
-/

namespace TypeProse

open Text

/-- A text is read as it is without the blanks at either end. It lists the same types, or it has
a fault of the same sort. A fault at the end of the text stays at the end, and any other is moved
by the blanks in front of the text. -/
def ReadsAsStripped (text source : String) : Prop :=
  (∃ types, parse (strip text) source = .ok types ∧ parse text source = .ok types) ∨
  ∃ fault fault', parse (strip text) source = .error fault ∧ parse text source = .error fault' ∧
    fault'.code = fault.code ∧
    if fault.location.offset = (strip text).length then fault'.location.offset = text.length
    else fault'.location.offset = (leadingBlanks text.toList).length + fault.location.offset

/-- The blanks in front of a text are blanks. -/
theorem areBlanks_leadingBlanks (chars : List Char) : AreBlanks (leadingBlanks chars) :=
  List.all_eq_true.1 List.all_takeWhile

/-- A text is made up of what is left when it is trimmed and the blanks around it. -/
theorem exists_trailing (chars : List Char) :
    ∃ trailing, AreBlanks trailing ∧
      chars = leadingBlanks chars ++ (trimBlanks chars ++ trailing) := by
  let inner := dropLeadingBlanks chars
  refine ⟨(leadingBlanks inner.reverse).reverse, ?_, ?_⟩
  · intro char inside
    exact areBlanks_leadingBlanks _ char (List.mem_reverse.1 inside)
  · have ends : trimBlanks chars ++ (leadingBlanks inner.reverse).reverse = inner := by
      rw [trimBlanks, dropTrailingBlanks, ← List.reverse_append, leadingBlanks_append,
        List.reverse_reverse]
    rw [ends, leadingBlanks_append]

/-- What is left of a text when it is trimmed was in it. -/
theorem mem_of_mem_trimBlanks {char : Char} {chars : List Char} (inside : char ∈ trimBlanks chars) :
    char ∈ chars := by
  obtain ⟨trailing, -, whole⟩ := exists_trailing chars
  rw [whole]
  simp [inside]

/-- Blanks may come behind a text, and names before that text are kept. -/
theorem keepsNames_append_blanks {blanks : List Char} (blank : AreBlanks blanks)
    (back : List Char) : KeepsNames back (back ++ blanks) := by
  cases blanks with
  | nil => exact keepsNames_of_isPrefix (by simp)
  | cons char blanks =>
      obtain ⟨word, colon, -⟩ := isWord_of_isBlank (blank char List.mem_cons_self)
      exact keepsNames_append_cons back word colon blanks

/-- Where no token starts, none starts when blanks come behind the text. -/
theorem lexemeAt?_append_blanks {chars blanks : List Char} (stuck : lexemeAt? chars = none)
    (blank : AreBlanks blanks) : lexemeAt? (chars ++ blanks) = none := by
  cases blanks with
  | nil => rwa [List.append_nil]
  | cons char blanks =>
      obtain ⟨word, colon, angle⟩ := isWord_of_isBlank (blank char List.mem_cons_self)
      exact lexemeAt?_append_cons stuck word colon angle blanks

namespace ReadsTo

variable {source : String} {front back blanks : List Char} {draft : Draft}

/-- Reading comes to the same draft behind blanks in front of the text. -/
theorem behind_blanks (reads : ReadsTo source front back draft) (blank : AreBlanks blanks) :
    ReadsTo source (blanks ++ front) back draft := by
  have first : ReadsTo source blanks (front ++ back) Draft.empty :=
    ⟨[], Scanner.Yields.of_blanks blank _, .none _⟩
  simpa using first.append reads

/-- Reading goes on over blanks. -/
theorem append_blanks (reads : ReadsTo source front (blanks ++ back) draft)
    (blank : AreBlanks blanks) : ReadsTo source (front ++ blanks) back draft := by
  obtain ⟨tokens, yields, takes⟩ := reads
  have passed : Scanner.Yields ⟨source, Cursor.start.past front, blanks ++ back⟩ []
      ⟨source, Cursor.start.past (front ++ blanks), back⟩ := by
    rw [Cursor.past_append]
    exact .of_blanks blank back
  exact ⟨tokens, by simpa using yields.trans passed, takes⟩

end ReadsTo

section Padded

variable {source : String} {leading front back trailing : List Char} {draft : Draft}

/-- A text that was read to its end is read to its end with blanks around it. -/
theorem ReadsTo.padded (reads : ReadsTo source front [] draft) (before : AreBlanks leading)
    (behind : AreBlanks trailing) : ReadsTo source (leading ++ front ++ trailing) [] draft := by
  have padded := (reads.exchange (keepsNames_append_blanks behind [])).behind_blanks before
  exact append_blanks (by simpa using padded) behind

/-- A text that lists types lists them with blanks around it. -/
theorem ReadsTo.parse_padded_ok {types : List TypeExpr} (reads : ReadsTo source front [] draft)
    (halts : draft.Halts ⟨source, Cursor.start.past front, []⟩ (.ok types))
    (before : AreBlanks leading) (behind : AreBlanks trailing) :
    parse (String.ofList (leading ++ front ++ trailing ++ [])) source = .ok types := by
  have ends := halts.behind_ok [] source (Cursor.start.past (leading ++ front ++ trailing))
  rw [Draft.behind_nil] at ends
  exact (reads.padded before behind).parse_eq_of_halts ends

/-- Where a text fails at its end, it fails there with blanks around it. -/
theorem ReadsTo.parse_padded_at_end {fault : Fault} (reads : ReadsTo source front [] draft)
    (halts : draft.Halts ⟨source, Cursor.start.past front, []⟩ (.error fault))
    (before : AreBlanks leading) (behind : AreBlanks trailing) :
    ∃ fault', parse (String.ofList (leading ++ front ++ trailing ++ [])) source = .error fault' ∧
      fault'.code = fault.code ∧
      fault'.location.offset = (leading ++ front ++ trailing ++ []).length := by
  obtain ⟨fault', ends, code⟩ :=
    halts.behind_error [] source (Cursor.start.past (leading ++ front ++ trailing))
  rw [Draft.behind_nil] at ends
  refine ⟨fault', (reads.padded before behind).parse_eq_of_halts ends, code, ?_⟩
  rw [ends.offset_eq, List.append_nil]

/-- Where a text fails before its end, it fails there with blanks around it. -/
theorem ReadsTo.parse_padded {fault : Fault} (reads : ReadsTo source front back draft)
    (halts : draft.Halts ⟨source, Cursor.start.past front, back⟩ (.error fault))
    (filled : back ≠ []) (before : AreBlanks leading) (behind : AreBlanks trailing) :
    ∃ fault', parse (String.ofList (leading ++ front ++ (back ++ trailing))) source =
        .error fault' ∧
      fault'.code = fault.code ∧
      fault'.location.offset = leading.length + fault.location.offset := by
  have padded := (reads.exchange (keepsNames_append_blanks behind back)).behind_blanks before
  obtain ⟨moved, halts', code⟩ :=
    halts.behind_error [] source (Cursor.start.past (leading ++ front))
  rw [Draft.behind_nil] at halts'
  obtain ⟨fault', ends, code'⟩ :=
    halts'.append filled fun stuck => lexemeAt?_append_blanks stuck behind
  refine ⟨fault', padded.parse_eq_of_halts ends, code'.trans code, ?_⟩
  rw [ends.offset_eq, halts.offset_eq, List.length_append]
  rfl

end Padded

/-- Every text is read as it is without the blanks at either end. -/
theorem readsAsStripped (text source : String) : ReadsAsStripped text source := by
  obtain ⟨trailing, behind, whole⟩ := exists_trailing text.toList
  have before := areBlanks_leadingBlanks text.toList
  unfold ReadsAsStripped
  have stripped : trimBlanks text.toList = (strip text).toList := by
    rw [strip, String.toList_ofList]
  rw [stripped] at whole
  generalize leadingBlanks text.toList = leading at whole before ⊢
  generalize strip text = inner at whole ⊢
  obtain rfl : text = String.ofList (leading ++ (inner.toList ++ trailing)) := by
    rw [← whole, String.ofList_toList]
  cases read : parse inner source with
  | ok types =>
      obtain ⟨front, back, draft, all, reads, halts⟩ := exists_readsTo read
      cases halts with
      | complete closed pending =>
          have same := reads.parse_padded_ok (.complete closed pending) before behind
          refine .inl ⟨_, rfl, ?_⟩
          simpa [all] using same
  | error fault =>
      obtain ⟨front, back, draft, all, reads, halts⟩ := exists_readsTo read
      have length : inner.length = front.length + back.length := by
        rw [← String.length_toList, all, List.length_append]
      by_cases filled : back = []
      · subst filled
        obtain ⟨fault', failed, code, place⟩ := reads.parse_padded_at_end halts before behind
        refine .inr ⟨fault, fault', rfl, by simpa [all] using failed, code, ?_⟩
        rw [if_pos (by rw [halts.offset_eq, length]; simp), place]
        simp [all]
      · have more := List.length_pos_iff.2 filled
        obtain ⟨fault', failed, code, place⟩ := reads.parse_padded halts filled before behind
        refine .inr ⟨fault, fault', rfl, by simpa [all] using failed, code, ?_⟩
        rwa [if_neg (by rw [halts.offset_eq, length]; omega)]

end TypeProse
