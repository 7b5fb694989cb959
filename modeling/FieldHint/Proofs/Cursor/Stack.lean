import FieldHint.Proofs.Cursor.Literal

/-!
# Cursor — the stack of open braces

The search for the open brace goes backwards from the cursor and counts the closing braces that
still wait for a partner. A reader goes forwards and keeps a stack: each opening brace is put on
it, each closing one takes the last off, and closes nothing where the stack is empty. On every
text, also where the braces do not match, the two find the same brace:

* `beforeOpenBrace?_reverse` — the way back that has `closed` braces to make up for stops at the
  brace that many places down the stack;
* `atEnd_eq` — what stands at the end of a text is read off the top of its stack.
-/

namespace FieldHint.Cursor

variable {text : Text} {b : Nat}

/-- The stack after a character and its offset: where each open brace stands, innermost first. -/
def pushBrace (stack : List Nat) (entry : Char × Nat) : List Nat :=
  if entry.1 = '{' then entry.2 :: stack
  else if entry.1 = '}' then stack.tail
  else stack

/-- The stack of open braces behind a text. -/
def openBraces (t : Text) : List Nat := t.zipIdx.foldl pushBrace []

@[simp] theorem openBraces_nil : openBraces [] = [] := rfl

theorem openBraces_append_singleton (t : Text) (c : Char) :
    openBraces (t ++ [c]) = pushBrace (openBraces t) (c, t.length) := by
  unfold openBraces
  rw [List.zipIdx_append, List.foldl_append, Nat.zero_add, List.zipIdx_singleton,
    List.foldl_cons, List.foldl_nil]

theorem openBraces_append_open (t : Text) :
    openBraces (t ++ ['{']) = t.length :: openBraces t := by
  rw [openBraces_append_singleton]
  rfl

theorem openBraces_append_close (t : Text) :
    openBraces (t ++ ['}']) = (openBraces t).tail := by
  rw [openBraces_append_singleton]
  rfl

theorem openBraces_append_of_ne {c : Char} (hOpen : c ≠ '{') (hClose : c ≠ '}') (t : Text) :
    openBraces (t ++ [c]) = openBraces t := by
  rw [openBraces_append_singleton, pushBrace, if_neg hOpen, if_neg hClose]

/-- An open brace stands in the text. -/
theorem lt_length_of_mem_openBraces (hb : b ∈ openBraces text) : b < text.length := by
  induction text using List.reverseRecOn with
  | nil => simp at hb
  | append_singleton t c ih =>
    rw [List.length_append, List.length_singleton]
    by_cases hOpen : c = '{'
    · subst hOpen
      rw [openBraces_append_open, List.mem_cons] at hb
      rcases hb with rfl | hb
      · omega
      · have := ih hb
        omega
    · have hMem : b ∈ openBraces t := by
        by_cases hClose : c = '}'
        · subst hClose
          rw [openBraces_append_close] at hb
          exact List.mem_of_mem_tail hb
        · rwa [openBraces_append_of_ne hOpen hClose] at hb
      have := ih hMem
      omega

/-- Further text does not change what stands before an open brace. -/
theorem take_of_mem_openBraces (hb : b ∈ openBraces text) (u : Text) :
    (text ++ u).take b = text.take b :=
  List.take_append_of_le_length (lt_length_of_mem_openBraces hb).le

/-- The way back and the way forwards find the same brace, and with braces to make up for, the one
that many places further out. -/
theorem beforeOpenBrace?_reverse (closed : Nat) (t : Text) :
    beforeOpenBrace? closed t.reverse =
      (openBraces t)[closed]?.map fun b => (t.take b).reverse := by
  -- the way back reads the last character first
  induction t using List.reverseRecOn generalizing closed with
  | nil => rfl
  | append_singleton t c ih =>
    have hTake : ∀ k : Nat, ((openBraces t)[k]?.map fun b => ((t ++ [c]).take b).reverse) =
        (openBraces t)[k]?.map fun b => (t.take b).reverse := by
      intro k
      refine Option.map_congr fun b hb => ?_
      rw [take_of_mem_openBraces (List.mem_of_getElem? hb)]
    rw [List.reverse_append, List.reverse_singleton, List.singleton_append]
    by_cases hClose : c = '}'
    · subst hClose
      rw [beforeOpenBrace?_close, openBraces_append_close, List.getElem?_tail, hTake, ih]
    · by_cases hOpen : c = '{'
      · subst hOpen
        rw [openBraces_append_open]
        cases closed with
        | zero => simp [beforeOpenBrace?]
        | succ closed =>
          rw [beforeOpenBrace?_partner, List.getElem?_cons_succ, hTake, ih]
      · rw [beforeOpenBrace?_of_ne hOpen hClose, openBraces_append_of_ne hOpen hClose, hTake, ih]

/-- What stands at the end of a text, by the innermost brace that is open there. -/
theorem atEnd_eq (text : Text) :
    Site.atEnd text =
      match (openBraces text).head? with
      | none => .outside
      | some b =>
        match typeName? (text.take b).reverse with
        | none => .untyped b
        | some (name, start) => .inside ⟨name, start, countCommas (text.drop (b + 1))⟩ := by
  unfold Site.atEnd
  rw [beforeOpenBrace?_reverse, ← List.head?_eq_getElem?]
  cases hTop : (openBraces text).head? with
  | none => rfl
  | some b =>
    have hLength : (text.take b).reverse.length = b := by
      have := lt_length_of_mem_openBraces (List.mem_of_head? hTop)
      rw [List.length_reverse, List.length_take]
      omega
    cases hName : typeName? (text.take b).reverse with
    | none => simp [hName, hLength]
    | some found => simp [hName, hLength]

end FieldHint.Cursor
