import FieldHint.Body.Row
import FieldHint.Proofs.Text.Cut

/-!
# Rows — reading the parts back

A row is a name, a type, and perhaps a tag and a comment, with blanks between them. The reader
looks for the first mark of a tag or comment. A text that holds none is passed as a whole
(`untilMark_append`, `fromMark_append`), and a row without a type is no field.
-/

namespace FieldHint.Row

variable {t u name pad tail tag : Text}

/-! ## The first mark -/

/-- A type that holds neither the mark of a tag nor that of a comment. -/
structure Unmarked (t : Text) : Prop where
  no_backtick : '\x60' ∉ t
  no_comment : ¬ Comment.mark <:+: t

theorem Unmarked.of_blank (ht : ∀ c ∈ t, Text.isBlank c = true) : Unmarked t where
  no_backtick := Text.not_mem_of_class ht (by decide)
  no_comment := Text.not_infix_of_not_mem (x := '/') (by decide)
    (Text.not_mem_of_class ht (by decide))

theorem Unmarked.of_isInfix (ht : Unmarked t) (hu : u <:+: t) : Unmarked u where
  no_backtick h := ht.no_backtick (hu.subset h)
  no_comment h := ht.no_comment (h.trans hu)

/-- No mark reaches across a character that none holds. -/
theorem Unmarked.append_cons {c : Char} (ht : Unmarked t) (hu : Unmarked u)
    (hTick : c ≠ '\x60') (hSlash : c ≠ '/') : Unmarked (t ++ c :: u) where
  no_backtick h := by
    rw [List.mem_append, List.mem_cons] at h
    rcases h with h | h | h
    · exact ht.no_backtick h
    · exact hTick h.symm
    · exact hu.no_backtick h
  no_comment h := by
    have hMark : c ∉ Comment.mark := by simp [Comment.mark, hSlash]
    rcases (Text.infix_append_cons_iff hMark).mp h with h | h
    · exact ht.no_comment h
    · exact hu.no_comment h

/-- No mark starts inside unmarked text, unless its last slash meets another one. -/
theorem atMark_append {c : Char} (ht : Unmarked (c :: t))
    (hSeam : ¬ ((c :: t).getLast? = some '/' ∧ u.head? = some '/')) :
    atMark (c :: t ++ u) = false := by
  have hTick : c ≠ '\x60' := by
    rintro rfl
    exact ht.no_backtick List.mem_cons_self
  have hSlash : ¬ (c = '/' ∧ (t ++ u).head? = some '/') := by
    rintro ⟨rfl, hNext⟩
    cases t with
    -- a lone slash: the second one would come from the text behind
    | nil => exact hSeam ⟨rfl, hNext⟩
    | cons d t =>
      obtain rfl : d = '/' := by simpa using hNext
      exact ht.no_comment ⟨[], t, rfl⟩
  rw [List.cons_append]
  cases hRest : t ++ u with
  | nil => simp_all [atMark]
  | cons d r =>
    rw [hRest, List.head?_cons, Option.some_inj] at hSlash
    unfold atMark
    split <;> simp_all

theorem Unmarked.of_cons {c : Char} (ht : Unmarked (c :: t)) : Unmarked t :=
  ht.of_isInfix (List.suffix_cons c t).isInfix

/-- The seam between two texts stays the same when characters before it are read. -/
theorem seam_of_cons {c : Char}
    (hSeam : ¬ ((c :: t).getLast? = some '/' ∧ u.head? = some '/')) :
    ¬ (t.getLast? = some '/' ∧ u.head? = some '/') := by
  rintro ⟨hLast, hHead⟩
  exact hSeam ⟨by rw [List.getLast?_cons, hLast]; rfl, hHead⟩

theorem untilMark_append (ht : Unmarked t)
    (hSeam : ¬ (t.getLast? = some '/' ∧ u.head? = some '/')) :
    untilMark (t ++ u) = t ++ untilMark u := by
  induction t with
  | nil => rfl
  | cons c t ih =>
    rw [List.cons_append, untilMark, ← List.cons_append, atMark_append ht hSeam,
      ih ht.of_cons (seam_of_cons hSeam)]
    rfl

theorem fromMark_append (ht : Unmarked t)
    (hSeam : ¬ (t.getLast? = some '/' ∧ u.head? = some '/')) :
    fromMark (t ++ u) = fromMark u := by
  induction t with
  | nil => rfl
  | cons c t ih =>
    rw [List.cons_append, fromMark, ← List.cons_append, atMark_append ht hSeam,
      ← ih ht.of_cons (seam_of_cons hSeam)]
    rfl

theorem untilMark_of_atMark (h : tail = [] ∨ atMark tail = true) : untilMark tail = [] := by
  cases tail with
  | nil => rfl
  | cons c t => rw [untilMark, if_pos (by simpa using h)]

theorem fromMark_of_atMark (h : tail = [] ∨ atMark tail = true) : fromMark tail = tail := by
  cases tail with
  | nil => rfl
  | cons c t => rw [fromMark, if_pos (by simpa using h)]

/-! ## The parts of a row -/

theorem getLast?_ne_slash (hPad : ∀ c ∈ pad, Text.isBlank c = true) :
    pad.getLast? ≠ some '/' := by
  intro h
  exact Bool.false_ne_true (hPad '/' (List.mem_of_getLast? h))

/-- A row that starts with a name is no comment. -/
theorem ofLine_of_name {f : Field} (hName : name ≠ []) (hWord : ∀ c ∈ name, Text.isWord c = true)
    (hField : field? (name ++ t) = some f) : ofLine (name ++ t) = .field f := by
  have hOpens : Comment.opens (name ++ t) = false := by
    obtain ⟨c, name, rfl⟩ := List.exists_cons_of_ne_nil hName
    have hSlash : c ≠ '/' := by
      rintro rfl
      exact absurd (hWord '/' List.mem_cons_self) (by decide)
    rw [Comment.opens, Comment.mark, List.cons_append, List.isPrefixOf_cons_cons]
    simp [hSlash.symm]
  rw [ofLine, hOpens, hField]
  rfl

/-! ## Rows without a type -/

/-- What follows the name must be a blank. -/
theorem field?_eq_none_of_solid {c : Char} (hName : ∀ x ∈ name, Text.isWord x = true)
    (hWord : Text.isWord c = false) (hBlank : Text.isBlank c = false) (t : Text) :
    field? (name ++ c :: t) = none := by
  have hHead : ∀ x ∈ (c :: t).head?, Text.isWord x = false := by
    rintro _ ⟨⟩
    exact hWord
  rw [field?, Text.takeWhile_run hName hHead, Text.dropWhile_run hName hHead]
  simp [hBlank]

/-- A name, blanks, and then a tag, a comment or nothing: the type is missing. -/
theorem field?_eq_none_of_untyped (hName : ∀ x ∈ name, Text.isWord x = true)
    (hPad : ∀ x ∈ pad, Text.isBlank x = true) (hMark : tail = [] ∨ atMark tail = true) :
    field? (name ++ (pad ++ tail)) = none := by
  -- the mark starts with a backtick or a slash
  have hHead : ∀ x ∈ tail.head?, Text.isWord x = false ∧ Text.isBlank x = false := by
    intro x hx
    rcases hMark with rfl | hMark
    · simp at hx
    · unfold atMark at hMark
      split at hMark
      · obtain rfl : '\x60' = x := by simpa using hx
        exact ⟨by decide, by decide⟩
      · obtain rfl : '/' = x := by simpa using hx
        exact ⟨by decide, by decide⟩
      · simp at hMark
  cases pad with
  | nil =>
    cases tail with
    | nil =>
      have hEnd : (name ++ []).dropWhile Text.isWord = [] :=
        Text.dropWhile_run hName (by simp)
      rw [List.nil_append, field?, hEnd]
    | cons c t => exact field?_eq_none_of_solid hName (hHead c rfl).1 (hHead c rfl).2 t
  | cons c pad =>
    rw [List.forall_mem_cons] at hPad
    have hGap : ∀ x ∈ (c :: pad ++ tail).head?, Text.isWord x = false := by
      rintro _ ⟨⟩
      exact Text.isWord_of_isBlank hPad.1
    have hRest : Text.stripStart (pad ++ tail) = tail :=
      Text.dropWhile_run hPad.2 fun x hx => (hHead x hx).2
    rw [field?, Text.takeWhile_run hName hGap, Text.dropWhile_run hName hGap]
    simp [hPad.1, hRest, untilMark_of_atMark hMark, Text.strip_of_blank]

/-! ## Tags and comments -/

/-- A comment is read without the blanks around it. -/
theorem comment?_mark (t : Text) : comment? ('/' :: '/' :: t) = some (Text.strip t).nonempty? := rfl

/-- A tag reads up to its closing backtick, and what follows it must be a comment. -/
theorem trailer?_tag (hTag : '\x60' ∉ tag) (t : Text) :
    trailer? ('\x60' :: (tag ++ '\x60' :: t)) =
      (comment? (Text.stripStart t)).map (some tag, ·) := by
  have hRun : ∀ c ∈ tag, decide (c ≠ '\x60') = true := Text.forall_ne_of_not_mem hTag
  have hHead : ∀ c ∈ ('\x60' :: t).head?, (decide (c ≠ '\x60')) = false := by
    rintro _ ⟨⟩
    simp
  rw [trailer?, Text.dropWhile_run hRun hHead, Text.takeWhile_run hRun hHead]

theorem trailer?_comment (t : Text) :
    trailer? ('/' :: '/' :: t) = some (none, (Text.strip t).nonempty?) := rfl

end FieldHint.Row
