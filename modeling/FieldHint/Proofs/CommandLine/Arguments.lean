import FieldHint.CommandLine.Request
import FieldHint.Proofs.Failure
import FieldHint.Proofs.Text.Integer

/-!
# Arguments — a cursor among the others

What arguments give does not change when a switch is put behind them. So the switches that tell the
cursor can be put among arguments that lack nothing else:

* `Given.ofArguments_append_switch` — an integer is given to its switch, and nothing else happens;
* `Request.Surrounds` — the arguments before and behind a cursor that make a request with it;
* `Surrounds.ofArguments_offset`, `Surrounds.ofArguments_position`, `Surrounds.ofArguments_line` —
  the request that they make with an offset, with a line and a character, and with a line alone;
* `Surrounds.ofArguments_of_not_legible` — with a number that is too long they make none.
-/

namespace FieldHint.CommandLine

variable {arguments behind : List Text} {g g' : Given} {s : Switch} {v : Text} {n : Int}

/-! ## Arguments one by one -/

namespace Token

theorem ofArguments_append {tokens more : List Token} (hDashes : CommandLine.dashes ∉ arguments)
    (h : ofArguments arguments = .ok tokens) (hBehind : ofArguments behind = .ok more) :
    ofArguments (arguments ++ behind) = .ok (tokens ++ more) := by
  induction arguments generalizing tokens with
  | nil =>
    obtain rfl : [] = tokens := Except.ok.inj h
    exact hBehind
  | cons a arguments ih =>
    rw [List.mem_cons, not_or] at hDashes
    rw [ofArguments, if_neg (Ne.symm hDashes.1)] at h
    obtain ⟨token, hToken, h⟩ := exists_of_bind h
    obtain ⟨rest, hRest, h⟩ := exists_of_bind h
    obtain rfl : token :: rest = tokens := Except.ok.inj h
    rw [List.cons_append, ofArguments, if_neg (Ne.symm hDashes.1), hToken, ih hDashes.2 hRest]
    rfl

/-- A switch that is called by its name, and the value behind it. -/
theorem ofArguments_switch {more : List Token} (s : Switch) (hDashes : v ≠ CommandLine.dashes)
    (hv : ofArgument v = .ok (operand v)) (hBehind : ofArguments behind = .ok more) :
    ofArguments (s.name :: v :: behind) = .ok (switch s none :: operand v :: more) := by
  have hName : s.name ≠ CommandLine.dashes ∧ ofArgument s.name = .ok (switch s none) := by
    cases s <;> decide
  rw [ofArguments, if_neg hName.1, hName.2, ofArguments, if_neg hDashes, hv, hBehind]
  rfl

/-- What does not start with a dash is an operand. -/
theorem ofArgument_of_head? (h : v.head? ≠ some '-') : ofArgument v = .ok (operand v) := by
  cases v with
  | nil => rfl
  | cons c t =>
    have hc : c ≠ '-' := by simpa using h
    unfold ofArgument
    split <;> simp_all

/-- A dash and digits are a negative number, hence an operand. -/
theorem ofArgument_minus {digits : Text} (hne : digits ≠ [])
    (h : ∀ c ∈ digits, c.isDigit = true) :
    ofArgument ('-' :: digits) = .ok (operand ('-' :: digits)) := by
  have hDecimal : ∀ c ∈ digits, Text.isDecimal c = true := by
    intro c hc
    rw [Text.isDecimal, Text.digitValue?, if_pos (h c hc)]
    rfl
  have hWhole : digits.takeWhile Text.isDecimal = digits := by
    have hRun := Text.takeWhile_run (u := []) hDecimal (by simp)
    rwa [List.append_nil] at hRun
  have hNegative : isNegativeNumber ('-' :: digits) = true := by
    rw [isNegativeNumber, List.dropWhile_eq_nil_iff.mpr hDecimal, hWhole]
    simp [hne]
  obtain ⟨d, t, rfl⟩ := List.exists_cons_of_ne_nil hne
  have hDigit : d.isDigit = true := h d List.mem_cons_self
  have hSwitch : d ≠ '-' ∧ d ≠ 'h' := by
    constructor <;> rintro rfl <;> exact absurd hDigit (by decide)
  have hUnknown : ofUnknown ('-' :: d :: t) = operand ('-' :: d :: t) := by
    rw [ofUnknown, hNegative]
    rfl
  unfold ofArgument
  split <;> simp_all

/-- No integer is taken for a switch. -/
theorem ofArgument_ofInt (n : Int) : ofArgument (Text.ofInt n) = .ok (operand (Text.ofInt n)) := by
  cases n with
  | ofNat n =>
    refine ofArgument_of_head? fun hHead => ?_
    exact absurd (Text.isDigit_of_mem_ofNat (List.mem_of_mem_head? hHead)) (by decide)
  | negSucc n =>
    exact ofArgument_minus Nat.toDigits_ne_nil fun c hc => Text.isDigit_of_mem_ofNat hc

/-- Two dashes are ambiguous, where an integer is clear. -/
theorem ofInt_ne_dashes (n : Int) : Text.ofInt n ≠ CommandLine.dashes := by
  intro h
  have hOperand := ofArgument_ofInt n
  rw [h] at hOperand
  exact absurd hOperand (by decide)

end Token

/-! ## What they give -/

namespace Given

/-- What arguments give. Nothing is returned if they ask for help. -/
def ofArguments (arguments : List Text) : Except UsageError (Option Given) := do
  take {} (← Token.ofArguments arguments)

/-- With a switch behind them, tokens do not start with another token unless they did before. -/
theorem append_switch_ne {tokens more : List Token} {token : Token} {value : Option Text}
    (hToken : token ≠ .switch s value) (h : ∀ u, tokens = token :: u → False) :
    ∀ u, tokens ++ .switch s value :: more = token :: u → False := by
  intro u hu
  cases tokens with
  | nil => exact hToken (List.cons.inj hu).1.symm
  | cons t tokens => exact h tokens (by rw [(List.cons.inj hu).1])

/-- A switch does not change how the tokens before it are taken: only an operand or two dashes would
go with one of them. -/
theorem take_append_switch {tokens more : List Token} {value : Option Text}
    (h : take g tokens = .ok (some g')) :
    take g (tokens ++ .switch s value :: more) = take g' (.switch s value :: more) := by
  induction g, tokens using take.induct with
  | case1 g =>
    obtain rfl : g = g' := Option.some_inj.mp (Except.ok.inj h)
    rfl
  -- operands, with two dashes behind them or not
  | case2 g a tokens hSource ih =>
    rw [take, if_pos hSource] at h
    rw [List.cons_append, List.cons_append, take, if_pos hSource, ih h]
  | case3 g a tokens hSource ih =>
    rw [take, if_neg hSource] at h
    rw [List.cons_append, List.cons_append, take, if_neg hSource, ih h]
  | case4 g a tokens hNot hSource ih =>
    rw [take, if_pos hSource] at h
    · rw [List.cons_append, take, if_pos hSource, ih h]
      exact append_switch_ne (by simp) hNot
    · exact hNot
  | case5 g a tokens hNot hSource ih =>
    rw [take, if_neg hSource] at h
    · rw [List.cons_append, take, if_neg hSource, ih h]
      exact append_switch_ne (by simp) hNot
    · exact hNot
  | case6 g a tokens hSource ih =>
    rw [take, if_pos hSource] at h
    rw [List.cons_append, List.cons_append, take, if_pos hSource, ih h]
  | case7 g a tokens hSource ih =>
    rw [take, if_neg hSource] at h
    rw [List.cons_append, List.cons_append, take, if_neg hSource, ih h]
  | case8 g tokens hNot ih =>
    rw [take] at h
    · rw [List.cons_append, take, ih h]
      exact fun a => append_switch_ne (by simp) (hNot a)
    · exact hNot
  | case9 g a tokens ih =>
    rw [take] at h
    rw [List.cons_append, take, ih h]
  -- help
  | case10 g tokens => simp [take] at h
  | case11 g letters tokens =>
    rw [take] at h
    cases hLetters : checkLetters letters <;> simp [hLetters, Except.map] at h
  | case12 g tokens => simp [take] at h
  -- switches
  | case13 g tokens ih =>
    rw [take] at h
    rw [List.cons_append, take, ih h]
  | case14 g s' v tokens ih =>
    rw [take] at h
    obtain ⟨g₁, hSet, h⟩ := exists_of_bind h
    rw [List.cons_append, take, hSet]
    exact ih g₁ h
  | case15 g s' v tokens hHelp hJson ih =>
    rw [take] at h
    · obtain ⟨g₁, hSet, h⟩ := exists_of_bind h
      rw [List.cons_append, List.cons_append, take, hSet]
      · exact ih g₁ h
      · exact hHelp
      · exact hJson
    · exact hHelp
    · exact hJson
  | case16 g s' tail hHelp hJson hNot =>
    rw [take] at h
    · simp at h
    · exact hHelp
    · exact hJson
    · exact hNot

/-- An integer behind other arguments is given to its switch, before what is behind it is taken. -/
theorem ofArguments_append_switch {more : List Token} (hs : s.takesValue = true)
    (hDashes : dashes ∉ arguments) (h : ofArguments arguments = .ok (some g)) (n : Int)
    (hBehind : Token.ofArguments behind = .ok more) :
    ofArguments (arguments ++ s.name :: Text.ofInt n :: behind) =
      g.setValue s (Text.ofInt n) >>= (take · more) := by
  obtain ⟨tokens, hTokens, hTake⟩ := exists_of_bind h
  have hSwitch := Token.ofArguments_switch s (Token.ofInt_ne_dashes n) (Token.ofArgument_ofInt n)
    hBehind
  have hTaken : take {} (tokens ++ .switch s none :: .operand (Text.ofInt n) :: more) =
      take g (.switch s none :: .operand (Text.ofInt n) :: more) :=
    take_append_switch hTake
  rw [ofArguments, Token.ofArguments_append hDashes hTokens hSwitch]
  refine hTaken.trans ?_
  rw [take]
  · rintro rfl
    simp [Switch.takesValue] at hs
  · rintro rfl
    simp [Switch.takesValue] at hs

/-- A legible integer is taken as itself. -/
theorem fill_ofInt (s : Switch) (hn : Text.Legible n) :
    Slot.fill (readInteger s) (Text.ofInt n) = .ok (.value n) := by
  rw [Slot.fill, if_neg (Token.ofInt_ne_dashes n), readInteger, Text.toInt?_ofInt, if_pos hn]
  rfl

/-- An integer that is too long is refused. -/
theorem fill_ofInt_of_not_legible (s : Switch) (hn : ¬ Text.Legible n) :
    Slot.fill (readInteger s) (Text.ofInt n) = .error (.notInteger s (Text.ofInt n)) := by
  rw [Slot.fill, if_neg (Token.ofInt_ne_dashes n), readInteger, Text.toInt?_ofInt, if_neg hn]
  rfl

/-- What is given, with other slots for the cursor. -/
def withCursor (g : Given) (offset line character : Slot Int) : Given :=
  { g with offset := offset, line := line, character := character }

/-- What is given says nothing about a cursor. -/
def Cursorless (g : Given) : Prop := g = g.withCursor .unset .unset .unset

theorem Cursorless.setValue_offset (h : g.Cursorless) (hn : Text.Legible n) :
    g.setValue .offset (Text.ofInt n) = .ok (g.withCursor (.value n) .unset .unset) := by
  rw [h, setValue, fill_ofInt _ hn]
  rfl

theorem Cursorless.setValue_line (h : g.Cursorless) (hn : Text.Legible n) :
    g.setValue .line (Text.ofInt n) = .ok (g.withCursor .unset (.value n) .unset) := by
  rw [h, setValue, fill_ofInt _ hn]
  rfl

theorem setValue_character {line : Slot Int} (hn : Text.Legible n) :
    (g.withCursor .unset line .unset).setValue .character (Text.ofInt n) =
      .ok (g.withCursor .unset line (.value n)) := by
  rw [setValue, fill_ofInt _ hn]
  rfl

end Given

/-! ## Requests -/

namespace Request

variable {r : Request}

/-- What arguments give that make a request but for its cursor. -/
def withoutCursor (r : Request) (source : Text) : Given where
  source := some source
  hover := r.hover
  json := r.json
  level := r.level

/-- The arguments before and behind a cursor make a request together with it. Those before it say
nothing about a cursor, and those behind it leave alone what has been said. -/
structure Surrounds (before after : List Text) (r : Request) : Prop where
  no_dashes : dashes ∉ before
  exists_given : ∃ g source more, Path.ofText source = r.source ∧
    Given.ofArguments before = .ok (some g) ∧ g.Cursorless ∧
    Token.ofArguments after = .ok more ∧
    ∀ offset line character, Given.take (g.withCursor offset line character) more =
      .ok (some ((r.withoutCursor source).withCursor offset line character))

/-- A request is made of what the arguments give. -/
theorem ofArguments_of_given (h : Given.ofArguments arguments = .ok (some g)) :
    ofArguments arguments = (ofGiven g).map some := by
  obtain ⟨tokens, hTokens, hTake⟩ := exists_of_bind h
  rw [ofArguments, hTokens]
  simp only [bind, Except.bind, hTake]
  cases ofGiven g <;> rfl

theorem ofArguments_of_error {e : UsageError} (h : Given.ofArguments arguments = .error e) :
    ofArguments arguments = .error e := by
  rw [Given.ofArguments] at h
  rw [ofArguments]
  cases hTokens : Token.ofArguments arguments with
  | error e' =>
    rw [hTokens] at h
    obtain rfl : e' = e := Except.error.inj h
    rfl
  | ok tokens =>
    rw [hTokens] at h
    simp only [bind, Except.bind] at h ⊢
    rw [h]

namespace Surrounds

variable {before after : List Text} {k : Int}

theorem ofArguments_offset (h : Surrounds before after r) (hn : Text.Legible n) :
    ofArguments (before ++ "--offset".toList :: Text.ofInt n :: after) =
      .ok (some { r with cursor := .offset n }) := by
  obtain ⟨g, source, more, hSource, hGiven, hCursor, hMore, hTake⟩ := h.exists_given
  have hAll := Given.ofArguments_append_switch (s := .offset) rfl h.no_dashes hGiven n hMore
  rw [hCursor.setValue_offset hn] at hAll
  rw [← hSource]
  exact ofArguments_of_given (hAll.trans (hTake _ _ _))

/-- A line without a character means its start. -/
theorem ofArguments_line (h : Surrounds before after r) (hn : Text.Legible n) :
    ofArguments (before ++ "--line".toList :: Text.ofInt n :: after) =
      .ok (some { r with cursor := .position n 0 }) := by
  obtain ⟨g, source, more, hSource, hGiven, hCursor, hMore, hTake⟩ := h.exists_given
  have hAll := Given.ofArguments_append_switch (s := .line) rfl h.no_dashes hGiven n hMore
  rw [hCursor.setValue_line hn] at hAll
  rw [← hSource]
  exact ofArguments_of_given (hAll.trans (hTake _ _ _))

theorem ofArguments_position (h : Surrounds before after r) (hn : Text.Legible n)
    (hk : Text.Legible k) :
    ofArguments (before ++
        "--line".toList :: Text.ofInt n :: "--character".toList :: Text.ofInt k :: after) =
      .ok (some { r with cursor := .position n k }) := by
  obtain ⟨g, source, more, hSource, hGiven, hCursor, hMore, hTake⟩ := h.exists_given
  have hCharacter := Token.ofArguments_switch .character (Token.ofInt_ne_dashes k)
    (Token.ofArgument_ofInt k) hMore
  have hAll := Given.ofArguments_append_switch (s := .line) rfl h.no_dashes hGiven n hCharacter
  rw [hCursor.setValue_line hn] at hAll
  -- the character is given to what the line has been given to
  have hTaken : Given.take (g.withCursor .unset (.value n) .unset)
      (.switch .character none :: .operand (Text.ofInt k) :: more) =
      Given.take (g.withCursor .unset (.value n) (.value k)) more := by
    rw [Given.take, Given.setValue_character hk]
    · rfl
    · simp
    · simp
  rw [← hSource]
  exact ofArguments_of_given (hAll.trans (hTaken.trans (hTake _ _ _)))

/-- An offset or a line that is too long to be read is refused, whatever is behind it. -/
theorem ofArguments_of_not_legible {behind : List Text} {more : List Token}
    (h : Surrounds before after r) (hs : s = .offset ∨ s = .line) (hn : ¬ Text.Legible n)
    (hBehind : Token.ofArguments behind = .ok more) :
    ofArguments (before ++ s.name :: Text.ofInt n :: behind) =
      .error (.notInteger s (Text.ofInt n)) := by
  obtain ⟨g, -, -, -, hGiven, -⟩ := h.exists_given
  have hTakes : s.takesValue = true := by rcases hs with rfl | rfl <;> rfl
  have hSet : g.setValue s (Text.ofInt n) = .error (.notInteger s (Text.ofInt n)) := by
    rcases hs with rfl | rfl
    · rw [Given.setValue, Given.fill_ofInt_of_not_legible _ hn]
      rfl
    · rw [Given.setValue, Given.fill_ofInt_of_not_legible _ hn]
      rfl
  have hAll := Given.ofArguments_append_switch hTakes h.no_dashes hGiven n hBehind
  rw [hSet] at hAll
  exact ofArguments_of_error hAll

end Surrounds

end Request

end FieldHint.CommandLine
