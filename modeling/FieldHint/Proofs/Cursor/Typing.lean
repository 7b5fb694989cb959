import FieldHint.Proofs.Cursor.Stack

/-!
# Cursor — typing inside a literal

What is typed at the cursor does not change which literal the cursor is in, as long as the typed
text leaves its braces balanced; quotes and other brackets may stay open in it. The search for the
brace goes back over the typed text and then over the text that was there before. The count of
commas goes on from where it stood, and a count never goes down, whatever mode and depths the scan
is in.

* `commas_le_run` — the count of commas after any text is not smaller than before it;
* `exists_span` — typing makes the text longer in which commas are counted, and nothing else;
* `context?_insert` — the context before and after.
-/

namespace FieldHint.Cursor

variable {typed text : Text} {o : Nat}

/-- No character takes a comma back. -/
theorem LiteralScan.commas_le_step (scan : LiteralScan) (c : Char) :
    scan.commas ≤ (scan.step c).commas := by
  show scan.commas ≤ if c = ',' ∧ scan.betweenElements then scan.commas + 1 else scan.commas
  split <;> omega

theorem LiteralScan.commas_le_run (scan : LiteralScan) (t : Text) :
    scan.commas ≤ (scan.run t).commas := by
  induction t generalizing scan with
  | nil => exact le_rfl
  | cons c t ih => exact (scan.commas_le_step c).trans (ih (scan.step c))

theorem countCommas_le_append (t u : Text) : countCommas t ≤ countCommas (t ++ u) := by
  unfold countCommas
  rw [LiteralScan.run_append]
  exact LiteralScan.commas_le_run _ u

/-- No more commas are counted than there are characters. -/
theorem LiteralScan.commas_run_le (scan : LiteralScan) (t : Text) :
    (scan.run t).commas ≤ scan.commas + t.length := by
  induction t generalizing scan with
  | nil => exact le_rfl
  | cons c t ih =>
    have hStep : (scan.step c).commas ≤ scan.commas + 1 := by
      show (if c = ',' ∧ scan.betweenElements then scan.commas + 1 else scan.commas) ≤ _
      split <;> omega
    have hRest := ih (scan.step c)
    show ((scan.step c).run t).commas ≤ _
    rw [List.length_cons]
    omega

theorem countCommas_le_length (t : Text) : countCommas t ≤ t.length :=
  (LiteralScan.commas_run_le {} t).trans_eq (Nat.zero_add t.length)

/-- The context at the end of a text is made of a name, or none, and the span behind the open brace.
Balanced text behind it makes the span longer and leaves the name. -/
theorem exists_span (hTyped : Brace.Balanced typed) (t : Text) :
    ∃ (name? : Option (Text × Nat)) (span : Text),
      (Site.atEnd t).context? = name?.map (fun found => ⟨found.1, found.2, countCommas span⟩) ∧
      (Site.atEnd (t ++ typed)).context? =
        name?.map (fun found => ⟨found.1, found.2, countCommas (span ++ typed)⟩) := by
  -- the way back passes the typed text, so both searches stop at the same brace
  have hBack := beforeOpenBrace?_append_of_balanced hTyped 0 t.reverse
  rw [← List.reverse_append] at hBack
  unfold Site.atEnd
  rw [hBack]
  cases hOpen : beforeOpenBrace? 0 t.reverse with
  | none => exact ⟨none, [], rfl, rfl⟩
  | some r =>
    refine ⟨typeName? r, t.drop (r.length + 1), ?_, ?_⟩
    · cases hName : typeName? r <;> simp [hName, Site.context?]
    · have hLength : r.length + 1 ≤ t.length := by
        rw [beforeOpenBrace?_reverse, Option.map_eq_some_iff] at hOpen
        obtain ⟨b, hb, rfl⟩ := hOpen
        have := lt_length_of_mem_openBraces (List.mem_of_getElem? hb)
        rw [List.length_reverse, List.length_take]
        omega
      have hDrop : (t ++ typed).drop (r.length + 1) = t.drop (r.length + 1) ++ typed :=
        List.drop_append_of_le_length hLength
      cases hName : typeName? r <;> simp [hName, hDrop, Site.context?]

/-- Typing inside a literal keeps the literal. Balanced text put in at the cursor, which then stands
behind it, leaves the type name and its offset as they are, and the active field does not go back;
outside of a literal it leads into none. -/
theorem context?_insert (hTyped : Brace.Balanced typed) (ho : o ≤ text.length) :
    (context? (text.take o ++ typed ++ text.drop o) (o + typed.length : Nat) = none ↔
      context? text o = none) ∧
    ∀ old, context? text o = some old →
      ∃ new, context? (text.take o ++ typed ++ text.drop o) (o + typed.length : Nat) = some new ∧
        new.typeName = old.typeName ∧ new.typeNameOffset = old.typeNameOffset ∧
        old.activeField ≤ new.activeField := by
  obtain ⟨name?, span, hBefore, hAfter⟩ := exists_span hTyped (text.take o)
  have hLength : (text.take o ++ typed).length = o + typed.length := by
    rw [List.length_append, List.length_take, Nat.min_eq_left ho]
  have hOld : context? text o = (Site.atEnd (text.take o)).context? := rfl
  have hNew := context?_append (text.take o ++ typed) (text.drop o)
  rw [hLength] at hNew
  rw [hOld, hNew, hBefore, hAfter]
  cases name? with
  | none => simp
  | some found =>
    refine ⟨by simp, ?_⟩
    rintro _ ⟨⟩
    exact ⟨_, rfl, rfl, rfl, countCommas_le_append span typed⟩

/-- Typing `, "{}` in `P{1,2`: the quote stays open, and of three fields the last one becomes
active. -/
theorem context?_insert_open_quote :
    Brace.Balanced [',', ' ', '"', '{', '}'] ∧ 5 ≤ ['P', '{', '1', ',', '2', '}'].length ∧
    context? ['P', '{', '1', ',', '2', '}'] 5 = some ⟨['P'], 0, 1⟩ ∧
    ∃ new, context? ['P', '{', '1', ',', '2', ',', ' ', '"', '{', '}', '}'] 10 = some new ∧
      new.typeName = ['P'] ∧ new.typeNameOffset = 0 ∧ 1 ≤ new.activeField ∧
        new.activeField = 2 := by
  have hTyped : Brace.Balanced [',', ' ', '"', '{', '}'] := by decide
  have hInside : 5 ≤ ['P', '{', '1', ',', '2', '}'].length := by decide
  have hOld : context? ['P', '{', '1', ',', '2', '}'] (5 : Nat) = some ⟨['P'], 0, 1⟩ := by decide
  obtain ⟨new, hNew, hName, hOffset, hField⟩ := (context?_insert hTyped hInside).2 _ hOld
  have hCounted : context? ['P', '{', '1', ',', '2', ',', ' ', '"', '{', '}', '}'] (10 : Nat) =
      some ⟨['P'], 0, 2⟩ := by decide
  have hTwo : new.activeField = 2 :=
    congrArg Cursor.Context.activeField (Option.some.inj (hNew.symm.trans hCounted))
  exact ⟨hTyped, hInside, hOld, new, hNew, hName, hOffset, hField, hTwo⟩

end FieldHint.Cursor
