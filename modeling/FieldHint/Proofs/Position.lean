import FieldHint.Position
import FieldHint.Proofs.Text.Lines

/-!
# Positions — a place is an offset or a position

The offsets into a text and the positions in it are the same places, in the same order. Every
other pair of integers is taken for a place in the text:

* `toOffset_first`, `toOffset_nextLine` — the offset, line by line;
* `ofOffset_first`, `ofOffset_nextLine` — the position, line by line;
* `bijective_ofOffset` — the two invert each other, in order, and anything else is moved inside.

Both go line by line, the one from the front and the other from the end, so everything is proved
by `Text.lines_induction`.
-/

namespace FieldHint.Position

variable {text l t u : Text} {p q : Position} {n : Nat}

/-! ## Order -/

/-- Positions are ordered by lines, and on a line by characters. -/
instance : LinearOrder Position :=
  LinearOrder.lift' (fun p => toLex (p.line, p.character)) fun p q h => by
    cases p
    cases q
    simpa using h

theorem lt_iff : p < q ↔ p.line < q.line ∨ p.line = q.line ∧ p.character < q.character :=
  Prod.Lex.toLex_lt_toLex

/-! ## Positions in a text -/

/-- The line of a text with a number, without the line feed that ends it. -/
def lineOf (text : Text) (n : Nat) : Text := (text.splitOn '\n')[n]?.getD []

/-- A place in the text: the end of a line is one, and there is one more line than line feeds. -/
structure IsIn (text : Text) (p : Position) : Prop where
  line_le : p.line ≤ text.count '\n'
  character_le : p.character ≤ (lineOf text p.line).length

/-- The position as many characters further on the next line. -/
def nextLine (p : Position) : Position := ⟨p.line + 1, p.character⟩

theorem nextLine_lt_nextLine : p.nextLine < q.nextLine ↔ p < q := by
  simp only [lt_iff, nextLine]
  omega

theorem lineOf_of_line (hl : '\n' ∉ l) : lineOf l 0 = l := by
  rw [lineOf, List.splitOn_eq_singleton hl]
  rfl

theorem lineOf_zero (hl : '\n' ∉ l) (t : Text) : lineOf (l ++ '\n' :: t) 0 = l := by
  rw [lineOf, List.splitOn_append_cons_self_of_not_mem hl]
  rfl

theorem lineOf_succ (hl : '\n' ∉ l) (t : Text) (n : Nat) :
    lineOf (l ++ '\n' :: t) (n + 1) = lineOf t n := by
  rw [lineOf, List.splitOn_append_cons_self_of_not_mem hl, List.getElem?_cons_succ, lineOf]

theorem count_line_feed (hl : '\n' ∉ l) (t : Text) :
    (l ++ '\n' :: t).count '\n' = t.count '\n' + 1 := by
  rw [List.count_append, List.count_eq_zero_of_not_mem hl, List.count_cons_self, zero_add]

/-- A text without a line feed has one line, and its positions are the places on it. -/
theorem isIn_of_line (hl : '\n' ∉ l) : IsIn l p ↔ p.line = 0 ∧ p.character ≤ l.length := by
  constructor
  · rintro ⟨hLine, hCharacter⟩
    rw [List.count_eq_zero_of_not_mem hl, Nat.le_zero] at hLine
    rw [hLine, lineOf_of_line hl] at hCharacter
    exact ⟨hLine, hCharacter⟩
  · rintro ⟨hLine, hCharacter⟩
    refine ⟨by omega, ?_⟩
    rwa [hLine, lineOf_of_line hl]

/-- A position is on the first line, or it is one of the text behind that line. -/
theorem isIn_line_feed (hl : '\n' ∉ l) :
    IsIn (l ++ '\n' :: t) p ↔
      p.line = 0 ∧ p.character ≤ l.length ∨ ∃ q, IsIn t q ∧ p = q.nextLine := by
  obtain ⟨line, character⟩ := p
  cases line with
  | zero =>
    have hNext : ¬ ∃ q, IsIn t q ∧ (⟨0, character⟩ : Position) = q.nextLine := by
      rintro ⟨q, -, hq⟩
      exact Nat.noConfusion (congrArg line hq)
    constructor
    · rintro ⟨-, hCharacter⟩
      exact Or.inl ⟨rfl, lineOf_zero hl t ▸ hCharacter⟩
    · rintro (⟨-, hCharacter⟩ | hq)
      · exact ⟨Nat.zero_le _, (lineOf_zero hl t).symm ▸ hCharacter⟩
      · exact absurd hq hNext
  | succ line =>
    constructor
    · rintro ⟨hLine, hCharacter⟩
      rw [count_line_feed hl] at hLine
      rw [lineOf_succ hl] at hCharacter
      exact Or.inr ⟨⟨line, character⟩, ⟨Nat.le_of_succ_le_succ hLine, hCharacter⟩, rfl⟩
    · rintro (⟨hZero, -⟩ | ⟨⟨_, _⟩, ⟨hLine, hCharacter⟩, ⟨⟩⟩)
      · exact absurd hZero (Nat.succ_ne_zero line)
      · refine ⟨?_, ?_⟩
        · rw [count_line_feed hl]
          exact Nat.succ_le_succ hLine
        · rwa [lineOf_succ hl]

/-! ## From positions to offsets -/

/-- On its first line, the offset is the character, and the line end if that is passed. -/
theorem toOffset_first (hl : '\n' ∉ l) (hu : ∀ c ∈ u.head?, c = '\n') (n : Nat) :
    toOffset (l ++ u) ⟨0, n⟩ = min n l.length := by
  simp only [toOffset]
  induction l generalizing n with
  | nil =>
    cases u with
    | nil => simp [offsetIn]
    | cons c u => simp [offsetIn, hu c rfl]
  | cons c l ih =>
    rw [List.mem_cons, not_or] at hl
    rw [List.cons_append, offsetIn.eq_def]
    cases n with
    | zero => simp
    | succ n => simp [Ne.symm hl.1, ih hl.2 n, Nat.succ_min_succ]

/-- Behind its last line is the end of the text. -/
theorem toOffset_past (hl : '\n' ∉ l) (line character : Nat) :
    toOffset l ⟨line + 1, character⟩ = l.length := by
  simp only [toOffset]
  induction l with
  | nil => rfl
  | cons c l ih =>
    rw [List.mem_cons, not_or] at hl
    rw [offsetIn, if_neg (Ne.symm hl.1), ih hl.2, List.length_cons]

/-- On later lines, the offset is counted from behind the line feed. -/
theorem toOffset_nextLine (hl : '\n' ∉ l) (t : Text) (p : Position) :
    toOffset (l ++ '\n' :: t) p.nextLine = l.length + 1 + toOffset t p := by
  simp only [toOffset, nextLine]
  induction l with
  | nil =>
    rw [List.nil_append, offsetIn, if_pos rfl, List.length_nil]
    omega
  | cons c l ih =>
    rw [List.mem_cons, not_or] at hl
    rw [List.cons_append, offsetIn, if_neg (Ne.symm hl.1), ih hl.2, List.length_cons]
    omega

/-- The offset lies in the text, whatever the line and the character are. -/
theorem toOffset_le (text : Text) (p : Position) : toOffset text p ≤ text.length := by
  obtain ⟨line, character⟩ := p
  induction text using Text.lines_induction generalizing line with
  | line l hl =>
    cases line with
    | zero =>
      have hFirst := toOffset_first hl (u := []) (by simp) character
      rw [List.append_nil] at hFirst
      exact hFirst ▸ Nat.min_le_right _ _
    | succ line => exact (toOffset_past hl line character).le
  | next l t hl ih =>
    rw [List.length_append, List.length_cons]
    cases line with
    | zero =>
      rw [toOffset_first hl (by simp) character]
      omega
    | succ line =>
      have hLe := ih line
      have hNext := toOffset_nextLine hl t ⟨line, character⟩
      simp only [nextLine] at hNext
      omega

/-- A line past the last is the end of the text, a character past the end of a line is its end. -/
theorem toOffset_eq (text : Text) (line character : Nat) :
    toOffset text ⟨line, character⟩ =
      if line ≤ text.count '\n' then
        toOffset text ⟨line, min character (lineOf text line).length⟩
      else text.length := by
  induction text using Text.lines_induction generalizing line with
  | line l hl =>
    rw [List.count_eq_zero_of_not_mem hl]
    cases line with
    | zero =>
      have hFirst := toOffset_first hl (u := []) (by simp)
      simp only [List.append_nil] at hFirst
      rw [if_pos (Nat.le_refl 0), lineOf_of_line hl, hFirst, hFirst, min_assoc, min_self]
    | succ line => rw [if_neg (by omega), toOffset_past hl]
  | next l t hl ih =>
    rw [count_line_feed hl]
    cases line with
    | zero =>
      have hFirst := toOffset_first hl (u := '\n' :: t) (by simp)
      rw [if_pos (Nat.zero_le _), lineOf_zero hl, hFirst, hFirst, min_assoc, min_self]
    | succ line =>
      have hNext := fun k => toOffset_nextLine hl t ⟨line, k⟩
      simp only [nextLine] at hNext
      rw [hNext, ih line, lineOf_succ hl, hNext]
      simp only [Nat.add_le_add_iff_right, List.length_append, List.length_cons]
      split <;> omega

/-! ## From offsets to positions -/

theorem atEnd_of_line (hl : '\n' ∉ l) : atEnd l = ⟨0, l.length⟩ := by
  have hRun : l.reverse.takeWhile (· ≠ '\n') = l.reverse :=
    List.takeWhile_eq_self_iff.mpr fun c hc =>
      Text.forall_ne_of_not_mem hl c (List.mem_reverse.mp hc)
  rw [atEnd, List.count_eq_zero_of_not_mem hl, hRun, List.length_reverse]

theorem atEnd_line_feed (hl : '\n' ∉ l) (t : Text) :
    atEnd (l ++ '\n' :: t) = (atEnd t).nextLine := by
  -- from the end, the characters behind the last line feed do not go across the first one
  have hRun : (l ++ '\n' :: t).reverse.takeWhile (· ≠ '\n') =
      t.reverse.takeWhile (· ≠ '\n') := by
    rw [List.reverse_append, List.reverse_cons, List.append_assoc, List.takeWhile_append]
    split
    · next hAll =>
      rw [(List.takeWhile_prefix _).eq_of_length hAll]
      simp
    · rfl
  rw [atEnd, atEnd, nextLine, count_line_feed hl, hRun]

theorem ofOffset_first (hl : '\n' ∉ l) (u : Text) (hn : n ≤ l.length) :
    ofOffset (l ++ u) n = ⟨0, n⟩ := by
  have hTake : '\n' ∉ l.take n := fun h => hl (List.mem_of_mem_take h)
  rw [ofOffset, Int.toNat_natCast, List.take_append_of_le_length hn, atEnd_of_line hTake,
    List.length_take_of_le hn]

theorem ofOffset_nextLine (hl : '\n' ∉ l) (t : Text) (n : Nat) :
    ofOffset (l ++ '\n' :: t) (l.length + 1 + n : Nat) = (ofOffset t n).nextLine := by
  have hTake : (l ++ '\n' :: t).take (l.length + 1 + n) = l ++ '\n' :: t.take n := by
    rw [Nat.add_assoc, List.take_length_add_append, Nat.add_comm 1 n, List.take_succ_cons]
  rw [ofOffset, ofOffset, Int.toNat_natCast, Int.toNat_natCast, hTake, atEnd_line_feed hl]

/-- An offset past the end is taken for the end. -/
theorem ofOffset_eq (text : Text) (n : Int) :
    ofOffset text n = ofOffset text (min n.toNat text.length : Nat) := by
  rw [ofOffset, ofOffset, Int.toNat_natCast, ← List.take_eq_take_min]

/-! ## Back and forth -/

theorem isIn_ofOffset (hn : n ≤ text.length) : IsIn text (ofOffset text n) := by
  induction text using Text.lines_induction generalizing n with
  | line l hl =>
    have hFirst := ofOffset_first hl [] hn
    rw [List.append_nil] at hFirst
    exact hFirst ▸ (isIn_of_line hl).mpr ⟨rfl, hn⟩
  | next l t hl ih =>
    rw [isIn_line_feed hl]
    by_cases hFirst : n ≤ l.length
    · exact Or.inl (ofOffset_first hl ('\n' :: t) hFirst ▸ ⟨rfl, hFirst⟩)
    · -- behind the first line feed, the position is one of the other lines
      obtain ⟨k, rfl⟩ : ∃ k, n = l.length + 1 + k :=
        Nat.exists_eq_add_of_le (Nat.lt_of_not_le hFirst)
      rw [List.length_append, List.length_cons] at hn
      exact Or.inr ⟨ofOffset t k, ih (by omega), ofOffset_nextLine hl t k⟩

theorem toOffset_ofOffset (hn : n ≤ text.length) : toOffset text (ofOffset text n) = n := by
  induction text using Text.lines_induction generalizing n with
  | line l hl =>
    have hPosition := ofOffset_first hl [] hn
    have hOffset := toOffset_first hl (u := []) (by simp) n
    rw [List.append_nil] at hPosition hOffset
    rw [hPosition, hOffset, min_eq_left hn]
  | next l t hl ih =>
    by_cases hFirst : n ≤ l.length
    · rw [ofOffset_first hl _ hFirst, toOffset_first hl (by simp), min_eq_left hFirst]
    · obtain ⟨k, rfl⟩ : ∃ k, n = l.length + 1 + k :=
        Nat.exists_eq_add_of_le (Nat.lt_of_not_le hFirst)
      rw [List.length_append, List.length_cons] at hn
      rw [ofOffset_nextLine hl, toOffset_nextLine hl, ih (by omega)]

theorem ofOffset_toOffset (hp : IsIn text p) : ofOffset text (toOffset text p) = p := by
  induction text using Text.lines_induction generalizing p with
  | line l hl =>
    obtain ⟨_, character⟩ := p
    obtain ⟨rfl, hCharacter⟩ := (isIn_of_line hl).mp hp
    have hOffset := toOffset_first hl (u := []) (by simp) character
    have hPosition := ofOffset_first hl [] hCharacter
    rw [List.append_nil] at hOffset hPosition
    rw [hOffset, min_eq_left hCharacter, hPosition]
  | next l t hl ih =>
    rcases (isIn_line_feed hl).mp hp with ⟨hLine, hCharacter⟩ | ⟨q, hq, rfl⟩
    · obtain ⟨_, character⟩ := p
      obtain rfl := hLine
      rw [toOffset_first hl (by simp), min_eq_left hCharacter, ofOffset_first hl _ hCharacter]
    · rw [toOffset_nextLine hl, ofOffset_nextLine hl, ih hq]

/-- A later offset is a later position. -/
theorem ofOffset_lt_ofOffset {m : Nat} (hmn : m < n) (hn : n ≤ text.length) :
    ofOffset text m < ofOffset text n := by
  induction text using Text.lines_induction generalizing m n with
  | line l hl =>
    have hPosition := fun k => ofOffset_first (n := k) hl []
    rw [List.append_nil] at hPosition
    rw [hPosition m (by omega), hPosition n hn, lt_iff]
    exact Or.inr ⟨rfl, hmn⟩
  | next l t hl ih =>
    rw [List.length_append, List.length_cons] at hn
    by_cases hFirst : n ≤ l.length
    · rw [ofOffset_first hl _ (by omega), ofOffset_first hl _ hFirst, lt_iff]
      exact Or.inr ⟨rfl, hmn⟩
    · obtain ⟨k, rfl⟩ : ∃ k, n = l.length + 1 + k :=
        Nat.exists_eq_add_of_le (Nat.lt_of_not_le hFirst)
      rw [ofOffset_nextLine hl]
      by_cases hEarlier : m ≤ l.length
      · -- the line feed between them decides
        rw [ofOffset_first hl _ hEarlier, lt_iff]
        exact Or.inl (Nat.succ_pos _)
      · obtain ⟨j, rfl⟩ : ∃ j, m = l.length + 1 + j :=
          Nat.exists_eq_add_of_le (Nat.lt_of_not_le hEarlier)
        rw [ofOffset_nextLine hl, nextLine_lt_nextLine]
        exact ih (by omega) (by omega)

/-- The offsets into a text and the positions in it are the same places, in the same order. An
offset outside the text is taken for the nearer end. Of a pair of integers, negative ones count as
zero, a line past the last is the end of the text, and a character past the end of its line is
that end. -/
theorem bijective_ofOffset (text : Text) :
    StrictMonoOn (fun n : ℕ => ofOffset text n) (Set.Iic text.length) ∧
    Set.BijOn (fun n : ℕ => ofOffset text n) (Set.Iic text.length) {p | IsIn text p} ∧
    Set.InvOn (toOffset text) (fun n : ℕ => ofOffset text n) (Set.Iic text.length)
      {p | IsIn text p} ∧
    (∀ n : ℤ, (toOffset text (ofOffset text n) : ℤ) = max 0 (min n text.length)) ∧
    ∀ line character : ℤ, toOffset text (clamped line character) =
      if max 0 line ≤ text.count '\n' then
        toOffset text
          ⟨(max 0 line).toNat, min (max 0 character).toNat (lineOf text (max 0 line).toNat).length⟩
      else text.length := by
  have hInverse : Set.InvOn (toOffset text) (fun n : ℕ => ofOffset text n) (Set.Iic text.length)
      {p | IsIn text p} :=
    ⟨fun _ hn => toOffset_ofOffset hn, fun _ hp => ofOffset_toOffset hp⟩
  refine ⟨fun m _ n hn hmn => ofOffset_lt_ofOffset hmn hn, ?_, hInverse, ?_, ?_⟩
  · exact hInverse.bijOn (fun _ hn => isIn_ofOffset hn) fun p _ => toOffset_le text p
  · intro n
    rw [ofOffset_eq, toOffset_ofOffset (min_le_right _ _)]
    omega
  · intro line character
    have hLine : (max 0 line).toNat = line.toNat := by omega
    have hCharacter : (max 0 character).toNat = character.toNat := by omega
    have hLast : max 0 line ≤ text.count '\n' ↔ line.toNat ≤ text.count '\n' := by omega
    rw [clamped, toOffset_eq, hLine, hCharacter]
    simp only [hLast]

example : (List.range 6).map (fun n : ℕ => ofOffset ['a', 'b', '\n', '\n', 'c'] n) =
    [⟨0, 0⟩, ⟨0, 1⟩, ⟨0, 2⟩, ⟨1, 0⟩, ⟨2, 0⟩, ⟨2, 1⟩] := by decide

end FieldHint.Position
