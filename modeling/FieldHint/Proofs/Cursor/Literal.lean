import FieldHint.Proofs.Cursor.Element

/-!
# Cursor — the literal around the cursor

On a well-formed literal the context is what the text says: the name in front of the brace, where
it stands, and the number of finished elements. Two scans have to agree on this, one that goes
backwards and counts every brace, and one that goes forwards and knows strings and brackets.

* `beforeOpenBrace?_append_of_balanced` — the way back leads past balanced text to its brace;
* `typeName?_of_name` — the type name is the identifier before that brace;
* `atEnd_open` — what the site is made of, where a brace is open;
* `atEnd_literal` — text that ends inside a literal, whatever comes before;
* `context?_literal` — the context of a literal, whatever surrounds it.
-/

namespace FieldHint.Cursor

variable {before name gap after e p t r : Text} {es : List Text}

/-! ## Back to the brace -/

theorem beforeOpenBrace?_close (closed : Nat) (t : Text) :
    beforeOpenBrace? closed ('}' :: t) = beforeOpenBrace? (closed + 1) t := by
  simp [beforeOpenBrace?]

theorem beforeOpenBrace?_partner (closed : Nat) (t : Text) :
    beforeOpenBrace? (closed + 1) ('{' :: t) = beforeOpenBrace? closed t := by
  simp [beforeOpenBrace?]

theorem beforeOpenBrace?_of_ne {c : Char} (hOpen : c ≠ '{') (hClose : c ≠ '}') (closed : Nat)
    (t : Text) : beforeOpenBrace? closed (c :: t) = beforeOpenBrace? closed t := by
  cases closed <;> simp [beforeOpenBrace?, hOpen, hClose]

/-- Each closing brace met on the way back makes up for an opening one further on. -/
theorem beforeOpenBrace?_append {closed m : Nat} (hSuffix : ∀ s, s <:+ t → Brace.depth s ≤ closed)
    (hm : (m : Int) = closed - Brace.depth t) (r : Text) :
    beforeOpenBrace? closed (t.reverse ++ r) = beforeOpenBrace? m r := by
  -- the way back reads the last character first
  induction t using List.reverseRecOn generalizing closed m with
  | nil =>
    have : m = closed := by simpa using hm
    rw [this]
    rfl
  | append_singleton t c ih =>
    have hInner : ∀ s, s <:+ t → Brace.depth s + Brace.weight c ≤ closed := by
      intro s hs
      have := hSuffix (s ++ [c]) (List.suffix_concat_iff.mpr (Or.inr ⟨s, rfl, hs⟩))
      simpa using this
    rw [Brace.depth_append, Brace.depth_cons, Brace.depth_nil] at hm
    rw [List.reverse_append, List.reverse_singleton, List.singleton_append, List.cons_append]
    by_cases hClose : c = '}'
    · subst hClose
      rw [Brace.weight_close] at hm hInner
      rw [beforeOpenBrace?_close]
      refine ih (fun s hs => ?_) ?_
      · have := hInner s hs
        push_cast
        omega
      · push_cast
        omega
    · by_cases hOpen : c = '{'
      · subst hOpen
        rw [Brace.weight_open] at hm hInner
        -- the brace itself is a suffix, so some closing brace is still to make up for
        have hClosed := hInner [] List.nil_suffix
        rw [Brace.depth_nil] at hClosed
        obtain ⟨n, rfl⟩ : ∃ n, closed = n + 1 := ⟨closed - 1, by omega⟩
        rw [beforeOpenBrace?_partner]
        refine ih (fun s hs => ?_) ?_
        · have := hInner s hs
          push_cast at this
          omega
        · push_cast at hm
          omega
      · rw [Brace.weight_of_ne hOpen hClose] at hm hInner
        rw [beforeOpenBrace?_of_ne hOpen hClose]
        exact ih (fun s hs => by simpa using hInner s hs) (by omega)

/-- The way back leads past balanced text. -/
theorem beforeOpenBrace?_append_of_balanced (ht : Brace.Balanced t) (closed : Nat) (r : Text) :
    beforeOpenBrace? closed (t.reverse ++ r) = beforeOpenBrace? closed r := by
  refine beforeOpenBrace?_append (fun s hs => ?_) (by rw [ht.total, Int.sub_zero]) r
  have := ht.suffix_nonpos hs
  omega

theorem beforeOpenBrace?_open (ht : Brace.Balanced t) :
    beforeOpenBrace? 0 (r ++ '{' :: t).reverse = some r.reverse := by
  rw [List.reverse_append, List.reverse_cons, List.append_assoc,
    beforeOpenBrace?_append_of_balanced ht]
  simp [beforeOpenBrace?]

/-! ## The type name -/

/-- An identifier that can name the type of a literal: it starts with a capital letter or the
underscore, and is ASCII. -/
structure IsTypeName (t : Text) : Prop where
  initial : ∃ c ∈ t.head?, isTypeInitial c = true
  chars : ∀ c ∈ t, isIdentifierChar c = true

theorem IsTypeName.ne_nil (h : IsTypeName t) : t ≠ [] := by
  obtain ⟨c, hc, -⟩ := h.initial
  rintro rfl
  simp at hc

/-- The identifier before the blanks is the type name, unless it goes on to the left. -/
theorem typeName?_of_name (hBefore : ∀ c ∈ before.getLast?, isIdentifierChar c = false)
    (hName : IsTypeName name) (hGap : ∀ c ∈ gap, Text.isBlank c = true) :
    typeName? (before ++ name ++ gap).reverse = some (name, before.length) := by
  -- the text is read from its end: first the blanks, then the identifier
  have hRest : (before ++ name ++ gap).reverse.dropWhile Text.isBlank =
      name.reverse ++ before.reverse := by
    rw [List.reverse_append, List.reverse_append]
    refine Text.dropWhile_run (by simpa using hGap) ?_
    intro c hc
    have hMem : c ∈ name := by
      rw [← List.reverse_append, List.head?_reverse, List.getLast?_append_of_ne_nil _ hName.ne_nil]
        at hc
      exact List.mem_of_getLast? hc
    exact Text.isBlank_of_isIdentifierChar (hName.chars c hMem)
  have hRun : (name.reverse ++ before.reverse).takeWhile isIdentifierChar = name.reverse :=
    Text.takeWhile_run (by simpa using hName.chars) (by simpa using hBefore)
  -- nothing of it is cut off: it starts as a type name does
  have hInitial : name.dropWhile (fun c => !isTypeInitial c) = name := by
    refine Text.dropWhile_eq_self ?_
    obtain ⟨c, hc, hInitial⟩ := hName.initial
    intro d hd
    rw [Option.mem_unique hd hc, hInitial]
    rfl
  rw [typeName?, hRest, hRun, List.reverse_reverse, hInitial]
  simp [hName.ne_nil]

/-! ## Elements and commas -/

/-- The finished elements of a literal: a comma stands behind each. -/
def finished (es : List Text) : Text := es.flatMap (· ++ [','])

theorem Depths.nonneg_zero : Depths.Nonneg {} := ⟨le_rfl, le_rfl, le_rfl⟩

theorem run_finished (hes : ∀ e ∈ es, IsElement e) (k : Nat) :
    LiteralScan.run ⟨.code, {}, k⟩ (finished es) = ⟨.code, {}, k + es.length⟩ := by
  induction es generalizing k with
  | nil => rfl
  | cons e es ih =>
    -- the element leaves the count as it is, its comma adds one
    have hElement : LiteralScan.run ⟨.code, {}, k⟩ e = ⟨.code, {}, k⟩ :=
      LiteralScan.run_elements (hes e List.mem_cons_self) Depths.nonneg_zero (by simp)
    have hComma : LiteralScan.step ⟨.code, {}, k⟩ ',' = ⟨.code, {}, k + 1⟩ := by
      simp [LiteralScan.step, LiteralMode.next, Depths.next, LiteralScan.betweenElements]
    rw [finished, List.flatMap_cons, LiteralScan.run_append, LiteralScan.run_append, hElement,
      LiteralScan.run_cons, hComma, List.length_cons, Nat.add_comm es.length, ← Nat.add_assoc]
    exact ih (fun e he => hes e (List.mem_cons_of_mem _ he)) (k + 1)

/-- The commas counted are those behind the finished elements. -/
theorem countCommas_finished (hes : ∀ e ∈ es, IsElement e) (he : IsElement e) (hp : p <+: e) :
    countCommas (finished es ++ p) = es.length := by
  rw [countCommas, LiteralScan.run_append, run_finished hes,
    LiteralScan.commas_run_prefix he hp Depths.nonneg_zero (by simp), Nat.zero_add]

theorem balanced_finished (hes : ∀ e ∈ es, IsElement e) : Brace.Balanced (finished es) :=
  .flatMap fun e he => (hes e he).balanced.append (.of_not_mem (by decide) (by decide))

/-- A part of an element that leaves no brace open is balanced. -/
theorem Elements.balanced_prefix {g : Bool} (he : Elements g e) (hp : p <+: e)
    (hOpen : Brace.depth p = 0) : Brace.Balanced p where
  nonneg q hq := he.balanced.nonneg q (hq.trans hp)
  total := hOpen

/-! ## The context -/

/-- Behind a brace that nothing closes, the site is made of the text before the brace and of the
commas behind it. -/
theorem atEnd_open (ht : Brace.Balanced t) :
    Site.atEnd (r ++ '{' :: t) =
      match typeName? r.reverse with
      | none => .untyped r.length
      | some (name, start) => .inside ⟨name, start, countCommas t⟩ := by
  have hDrop : (r ++ '{' :: t).drop (r.length + 1) = t := by
    rw [← List.drop_drop, List.drop_left]
    rfl
  rw [Site.atEnd, beforeOpenBrace?_open ht]
  cases hName : typeName? r.reverse with
  | none => simp [hName]
  | some found => simp [hName, hDrop]

/-- Text that ends inside a literal. -/
theorem atEnd_literal (hBefore : ∀ c ∈ before.getLast?, isIdentifierChar c = false)
    (hName : IsTypeName name) (hGap : ∀ c ∈ gap, Text.isBlank c = true)
    (hes : ∀ e ∈ es, IsElement e) (he : IsElement e) (hp : p <+: e) (hOpen : Brace.depth p = 0) :
    Site.atEnd (before ++ name ++ gap ++ '{' :: (finished es ++ p)) =
      .inside ⟨name, before.length, es.length⟩ := by
  -- both scans stop at the same brace: no brace behind it is left open
  have hBalanced := (balanced_finished hes).append (he.balanced_prefix hp hOpen)
  rw [atEnd_open hBalanced, typeName?_of_name hBefore hName hGap]
  simp only [countCommas_finished hes he hp]

/-- The text behind the cursor has no say. -/
theorem context?_append (text after : Text) :
    context? (text ++ after) text.length = (Site.atEnd text).context? := by
  rw [context?, Site.around, Int.toNat_natCast, List.take_left]

/-- The context of a literal: its type name, where that stands, and how many elements are
finished. The element at the cursor may break off inside a string or a bracket that is no brace;
what follows the cursor is arbitrary, and so is what comes before the name, unless it makes the
name longer. -/
theorem context?_literal (hBefore : ∀ c ∈ before.getLast?, isIdentifierChar c = false)
    (hName : IsTypeName name) (hGap : ∀ c ∈ gap, Text.isBlank c = true)
    (hes : ∀ e ∈ es, IsElement e) (he : IsElement e) (hp : p <+: e) (hOpen : Brace.depth p = 0)
    (after : Text) :
    context? (before ++ name ++ gap ++ '{' :: (finished es ++ p) ++ after)
        (before ++ name ++ gap ++ '{' :: (finished es ++ p)).length =
      some ⟨name, before.length, es.length⟩ := by
  rw [context?_append, atEnd_literal hBefore hName hGap hes he hp hOpen]
  rfl

/-- The theorem at `&g.P {f(1,"\""),[{},` with the cursor before the closing brace. -/
theorem context?_literal_broken_off :
    context? (['&', 'g', '.'] ++ ['P'] ++ [' '] ++
        '{' :: (finished [['f', '(', '1', ',', '"', '\\', '"', '"', ')']] ++
          ['[', '{', '}', ',']) ++ ['}']) 20 =
      some ⟨['P'], 3, 1⟩ := by
  have hBefore : ∀ c ∈ (['&', 'g', '.'] : Text).getLast?, isIdentifierChar c = false := by
    rintro _ ⟨⟩
    decide
  have hName : IsTypeName ['P'] :=
    ⟨⟨'P', rfl, by decide⟩, List.forall_mem_singleton.mpr (by decide)⟩
  have hString : Interpreted ['\\', '"'] := .escape (by decide) .nil
  have hCall : IsElement ['f', '(', '1', ',', '"', '\\', '"', '"', ')'] :=
    .plain (by decide) (.group (o := '(') (c := ')') (s := ['1', ',', '"', '\\', '"', '"'])
      (t := []) (by decide)
      (.plain (by decide) (.comma (.interpreted (t := []) hString .nil))) .nil)
  have hIndex : IsElement ['[', '{', '}', ',', ']'] :=
    .group (o := '[') (c := ']') (s := ['{', '}', ',']) (t := []) (by decide)
      (.group (o := '{') (c := '}') (s := []) (t := [',']) (by decide) .nil (.comma .nil)) .nil
  exact context?_literal hBefore hName Text.isBlank_space (List.forall_mem_singleton.mpr hCall)
    hIndex ⟨[']'], rfl⟩ (by decide) ['}']

end FieldHint.Cursor
