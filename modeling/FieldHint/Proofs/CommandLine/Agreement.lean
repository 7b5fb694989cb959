import FieldHint.CommandLine.Run
import FieldHint.Proofs.CommandLine.Arguments
import FieldHint.Proofs.Help.Report
import FieldHint.Proofs.Hover.Respelled
import FieldHint.Proofs.Json.Restored
import FieldHint.Proofs.Position

/-!
# Runs — what is printed is signature help

A run goes through the steps of signature help by itself, and fails in between where it must. What
it leaves behind is nevertheless decided by the help at the cursor:

* `Request.agrees_answer` — a report is printed where there is help, and it shows that help;
* `Request.run_of_showsHalf` — except that half a pair cannot be printed for people, while programs
  get it as its escape;
* `Request.run_of_outOfRange` — an offset outside of the source is refused;
* `Request.run_congr_cursor` — nothing but its offset counts of a cursor;
* `run_agrees` — so it is for arguments that spell out the cursor;
* `run_disagrees` — but a number with too many digits is refused before anything is read, and half a
  pair in the type of a field ends the run without a report.
-/

namespace FieldHint

namespace CommandLine

variable {disk : Disk} {env : Environment} {settings : Settings}
  {arguments before after : List Text} {r : Request} {language text : Text} {provider : Provider}
  {n : Int}

/-- What a run leaves behind agrees with the help at the cursor: without help it ends with status 1
and prints nothing, with help it ends with status 0 and prints a report on the help. The twin is the
help with the other stand-ins for halves of pairs. -/
def Outcome.Agrees (out : Outcome) (json : Bool) (twin : Option SignatureHelp) :
    Option SignatureHelp → Prop
  | none => out.exit = 1 ∧ out.stdout = []
  | some help =>
    out.exit = 0 ∧
      if json then Report.Carries help (twin.getD help) out.stdout
      else Report.Shows help out.stdout

namespace Request

/-- A request on a source that can be read is answered, if its level is not left empty. -/
theorem exists_run_eq (hRead : disk.read r.source = .ok text) (hLevel : r.level ≠ .empty)
    (settings : Settings) :
    ∃ level, r.run disk settings =
      .ofResult (r.messages disk settings.language text level)
        (r.answer disk settings.language text) := by
  have hSource : r.readSource disk = .ok text := by
    rw [readSource, hRead]
    rfl
  have hMessages : ∃ level, r.messageLevel settings = .ok level := by
    rw [messageLevel]
    cases hSlot : r.level with
    | unset => exact ⟨_, rfl⟩
    | empty => exact absurd hSlot hLevel
    | value level => exact ⟨level, rfl⟩
  obtain ⟨level, hMessages⟩ := hMessages
  exact ⟨level, by rw [run, hMessages, hSource]⟩

/-- A struct without halves of pairs is reported as it is, in either form. -/
theorem report_self (r : Request) (text : Text) (s : Struct) (context : Cursor.Context) :
    r.report text s s context =
      if r.json then Report.json text s context.focus else Report.text s context.focus := by
  rw [report, Json.restore_self]

/-- A report on a struct shows the help that is made of it. -/
theorem report_shows {s : Struct} (hRows : ∀ f ∈ s.fields, '\n' ∉ f.row) (other : Struct)
    (context : Cursor.Context) :
    let help := SignatureHelp.ofStruct s context.activeField
    let twin := SignatureHelp.ofStruct other context.activeField
    let report := r.report text s other context ++ ['\n']
    if r.json then Report.Carries help twin report else Report.Shows help report := by
  dsimp only
  rw [report]
  split
  · exact Report.carries_json text s other context.focus
  · exact Report.shows_text hRows context.focus

/-- A report for programs refuses no half, and one for people has none to refuse whose provider is
whole. -/
theorem showsHalf_eq_false (hWhole : r.json = false → provider.IsWhole language text)
    (context : Cursor.Context) : r.showsHalf provider language text context = false := by
  cases hJson : r.json with
  | true => simp [showsHalf, hJson]
  | false => simp [showsHalf, hWhole hJson context]

/-- The answer at a cursor inside the source: the literal is asked for first, then the struct. -/
theorem answer_eq (hOffset : r.cursor.toOffset text r.source = .ok n)
    (hProvider : r.provider disk language = .ok provider) :
    r.answer disk language text =
      match Cursor.context? text n with
      | none => .error .noLiteral
      | some context =>
        match provider.struct? language text context with
        | none => .error (.noDescription context.typeName)
        | some s =>
          if r.showsHalf provider language text context then .error .halfPair
          else .ok (r.report text s
            ((provider.respelled.struct? language text context).getD s) context) := by
  rw [answer, hOffset, hProvider]
  rfl

/-- A report is printed where there is help, and it shows the help. -/
theorem agrees_answer (hOffset : r.cursor.toOffset text r.source = .ok n)
    (hProvider : r.provider disk language = .ok provider)
    (hWhole : r.json = false → provider.IsWhole language text) (messages : Text) :
    (Outcome.ofResult messages (r.answer disk language text)).Agrees r.json
      (SignatureHelp.at? language provider.respelled text n)
      (SignatureHelp.at? language provider text n) := by
  rw [answer_eq hOffset hProvider, SignatureHelp.at?, SignatureHelp.at?]
  simp only [bind, Option.bind]
  -- the help gives up at the same two places
  cases hContext : Cursor.context? text n with
  | none => exact ⟨rfl, rfl⟩
  | some context =>
    dsimp only
    cases hStruct : provider.struct? language text context with
    | none => exact ⟨rfl, rfl⟩
    | some s =>
      have hRows : ∀ f ∈ s.fields, '\n' ∉ f.row := fun f hf =>
        Provider.newline_not_mem_row hStruct hf
      dsimp only
      rw [showsHalf_eq_false hWhole context]
      refine ⟨rfl, ?_⟩
      cases provider.respelled.struct? language text context with
      | none => exact report_shows hRows s context
      | some other => exact report_shows hRows other context

/-- A cursor inside the source is not refused, whatever comes of it. -/
theorem exit_answer_ne_two (hOffset : r.cursor.toOffset text r.source = .ok n)
    (hProvider : r.provider disk language = .ok provider) (messages : Text) :
    (Outcome.ofResult messages (r.answer disk language text)).exit ≠ 2 := by
  -- every failure behind the offset has status 1
  have hFails : ∀ failure : Failure, failure.exit = 1 →
      (Outcome.ofResult messages (.error failure)).exit ≠ 2 := by
    intro failure hExit
    show failure.exit ≠ 2
    omega
  rw [answer_eq hOffset hProvider]
  split
  · exact hFails _ rfl
  · split
    · exact hFails _ rfl
    · split
      · exact hFails _ rfl
      · show (0 : Nat) ≠ 2
        omega

/-- A report that would show half a pair is not printed, though there is help. -/
theorem run_of_showsHalf {context : Cursor.Context} {s : Struct}
    (hRead : disk.read r.source = .ok text) (hLevel : r.level ≠ .empty)
    (hOffset : r.cursor.toOffset text r.source = .ok n)
    (hProvider : r.provider disk settings.language = .ok provider)
    (hContext : Cursor.context? text n = some context)
    (hStruct : provider.struct? settings.language text context = some s)
    (hHalf : r.showsHalf provider settings.language text context = true) :
    SignatureHelp.at? settings.language provider text n =
        some (SignatureHelp.ofStruct s context.activeField) ∧
      (r.run disk settings).exit = 1 ∧ (r.run disk settings).stdout = [] := by
  obtain ⟨level, hRun⟩ := exists_run_eq hRead hLevel settings
  have hAnswer : r.answer disk settings.language text = .error .halfPair := by
    rw [answer_eq hOffset hProvider, hContext]
    dsimp only
    rw [hStruct]
    dsimp only
    rw [if_pos hHalf]
  rw [hRun, hAnswer]
  refine ⟨?_, rfl, rfl⟩
  rw [SignatureHelp.at?, hContext]
  show (provider.struct? settings.language text context).bind _ = _
  rw [hStruct]
  rfl

/-- A cursor outside the source is refused, and nothing else is said. -/
theorem run_of_outOfRange (hRead : disk.read r.source = .ok text) (hLevel : r.level ≠ .empty)
    (hRange : n < 0 ∨ text.length < n) (hCursor : r.cursor = .offset n) :
    r.run disk settings =
      ⟨2, [], (Failure.outOfRange n r.source text.length).message ++ ['\n']⟩ := by
  obtain ⟨level, hRun⟩ := exists_run_eq hRead hLevel settings
  -- without an offset there is nothing to trace, so no message comes before the failure
  have hOffset : r.cursor.toOffset text r.source =
      .error (.outOfRange n r.source text.length) := by
    rw [hCursor, CursorPlace.toOffset, if_pos hRange]
  rw [hRun, messages, events, events, answer, hOffset]
  rfl

/-- A line and a character stand for their offset, and this one is never refused. -/
theorem toOffset_position (text : Text) (source : Path) (line character : Int) :
    (CursorPlace.position line character).toOffset text source =
      (CursorPlace.offset ((Position.clamped line character).toOffset text)).toOffset text
        source := by
  have hLe := Position.toOffset_le text (Position.clamped line character)
  rw [CursorPlace.toOffset, CursorPlace.toOffset, if_neg (by omega)]

/-- Of a cursor, only its offset counts. -/
theorem run_congr_cursor {place place' : CursorPlace} (hRead : disk.read r.source = .ok text)
    (h : place.toOffset text r.source = place'.toOffset text r.source) :
    Request.run { r with cursor := place } disk settings =
      Request.run { r with cursor := place' } disk settings := by
  have hSource : ∀ place, readSource { r with cursor := place } disk = .ok text := by
    intro place
    rw [readSource, hRead]
    rfl
  have hEvents : ∀ asked, events { r with cursor := place } asked settings.language text =
      events { r with cursor := place' } asked settings.language text := by
    intro asked
    rw [events, events, h]
  have hAnswer : answer { r with cursor := place } disk settings.language text =
      answer { r with cursor := place' } disk settings.language text := by
    rw [answer, answer, h]
    rfl
  have hLevel : messageLevel { r with cursor := place } settings =
      messageLevel { r with cursor := place' } settings := rfl
  rw [run, run, hSource, hSource, hLevel]
  cases messageLevel { r with cursor := place' } settings with
  | error failure => rfl
  | ok level =>
    dsimp only
    rw [messages, messages, hEvents, hEvents, hAnswer]
    rfl

end Request

/-- Arguments that make a request: the run is that of the request. -/
theorem run_of_request (h : Request.ofArguments arguments = .ok (some r)) (disk : Disk)
    (env : Environment) : run disk env arguments = r.run disk (Settings.ofEnvironment env) := by
  rw [run, h]

/-- Arguments that are wrong: status 2, and nothing is printed but what is wrong with them. -/
theorem run_of_error {e : UsageError} (h : Request.ofArguments arguments = .error e) (disk : Disk)
    (env : Environment) : run disk env arguments = ⟨2, [], e.report⟩ := by
  rw [run, h]

/-- A run that is told a cursor inside the source is not refused, and it agrees with the help there
unless it would have to show half a pair. -/
theorem agrees_of_offset {place : CursorPlace}
    (hRequest : Request.ofArguments arguments = .ok (some { r with cursor := place }))
    (hRead : disk.read r.source = .ok text) (hLevel : r.level ≠ .empty)
    (hProvider : r.provider disk (Settings.ofEnvironment env).language = .ok provider)
    (hOffset : place.toOffset text r.source = .ok n) :
    (run disk env arguments).exit ≠ 2 ∧
      ((r.json = false → provider.IsWhole (Settings.ofEnvironment env).language text) →
        (run disk env arguments).Agrees r.json
          (SignatureHelp.at? (Settings.ofEnvironment env).language provider.respelled text n)
          (SignatureHelp.at? (Settings.ofEnvironment env).language provider text n)) := by
  obtain ⟨level, hRun⟩ := Request.exists_run_eq (r := { r with cursor := place }) hRead hLevel
    (Settings.ofEnvironment env)
  rw [run_of_request hRequest, hRun]
  refine ⟨Request.exit_answer_ne_two (r := { r with cursor := place }) hOffset hProvider _, ?_⟩
  intro hWhole
  exact Request.agrees_answer (r := { r with cursor := place }) hOffset hProvider hWhole _

/-- A source that declares a struct, and then a literal of it that breaks off behind its first
element. -/
def brokenSource : Text := ("type P struct\x7ba b;c d\x7d\n" ++ "P\x7b1,").toList

/-- A disk that has this source at every path. -/
def brokenDisk : Disk := fun _ => .ok (brokenSource.map fun c => UInt8.ofNat c.toNat)

/-- A request on this source, with a cursor at its start. -/
def brokenRequest : Request where
  source := Path.ofText ['s']
  cursor := .offset 0

theorem surrounds_brokenRequest : Request.Surrounds [] [dashes, ['s']] brokenRequest where
  no_dashes := List.not_mem_nil
  exists_given := ⟨{}, ['s'], _, rfl, rfl, rfl, rfl, fun _ _ _ => rfl⟩

/-- The least number that is too long to be read. -/
def overlong : Nat := 10 ^ Text.maxDigits

/-- A number that is too long is refused as no number, where it ought to lie outside of the source;
and as a line, where it ought to be the same as the end of the source. -/
theorem refuses_overlong :
    (run brokenDisk [] ["--offset".toList, Text.ofInt overlong, dashes, ['s']]).stderr ≠
      (Failure.outOfRange overlong brokenRequest.source brokenSource.length).message ++ ['\n'] ∧
    (run brokenDisk [] ["--line".toList, Text.ofInt overlong, "--character".toList, Text.ofInt 0,
      dashes, ['s']]).exit = 2 ∧
    (run brokenDisk [] ["--offset".toList,
      Text.ofInt ((Position.clamped overlong 0).toOffset brokenSource), dashes,
      ['s']]).exit = 0 := by
  have hLong : ¬ Text.Legible overlong := Nat.lt_irrefl _
  have hSource : Token.ofArguments [dashes, ['s']] = .ok [.dashes, .operand ['s']] := rfl
  have hCharacter := Token.ofArguments_switch .character (Token.ofInt_ne_dashes 0)
    (Token.ofArgument_ofInt 0) hSource
  have hOffset :=
    surrounds_brokenRequest.ofArguments_of_not_legible (Or.inl rfl) hLong hSource
  have hLine :=
    surrounds_brokenRequest.ofArguments_of_not_legible (Or.inr rfl) hLong hCharacter
  refine ⟨?_, ?_, ?_⟩
  · intro h
    have hReport : (UsageError.notInteger .offset (Text.ofInt overlong)).report =
        (Failure.outOfRange overlong brokenRequest.source brokenSource.length).message ++ ['\n'] :=
      (congrArg Outcome.stderr (run_of_error hOffset brokenDisk [])).symm.trans h
    -- the one starts with the usage of the program, the other with the word "error"
    exact absurd (congrArg List.head? hReport) (by decide +kernel)
  · exact congrArg Outcome.exit (run_of_error hLine brokenDisk [])
  · decide +kernel

/-- A response whose struct has a field with the first half of a pair for its type. -/
def halfResponse : Text := "\x7b\"contents\": \"type P struct \x7b a \\ud800 \x7d\"\x7d".toList

/-- A disk that has this response at one path, and the source at every other. -/
def halfDisk : Disk := fun path =>
  if path = Path.ofText ['h'] then .ok (halfResponse.map fun c => UInt8.ofNat c.toNat)
  else brokenDisk path

/-- A request on the source with this response, and with a cursor at the end. -/
def halfRequest : Request where
  source := Path.ofText ['s']
  cursor := .offset 27
  hover := .value (Path.ofText ['h'])

/-- The arguments of this request. -/
def halfArguments : List Text := ["--hover".toList, ['h'], "--offset".toList, Text.ofInt 27, ['s']]

/-- There is help from this response, but it is not printed for people. -/
theorem refuses_half :
    SignatureHelp.at? Struct.defaultLanguage
        (.hoverFile (Path.ofText ['h']) (halfDisk.read (Path.ofText ['h']))) brokenSource 27 ≠
        none ∧
      (run halfDisk [] halfArguments).exit = 1 ∧ (run halfDisk [] halfArguments).stdout = [] := by
  have hRequest : Request.ofArguments halfArguments = .ok (some halfRequest) := rfl
  have hLanguage : (Settings.ofEnvironment []).language = Struct.defaultLanguage := rfl
  have hContent : halfDisk.read (Path.ofText ['h']) = .ok halfResponse := by decide +kernel
  have hRead : halfDisk.read halfRequest.source = .ok brokenSource := by decide +kernel
  have hProvider : halfRequest.provider halfDisk (Settings.ofEnvironment []).language =
      .ok (.hoverFile (Path.ofText ['h']) (.ok halfResponse)) := by
    rw [← hContent]
    rfl
  have hContext : Cursor.context? brokenSource 27 = some ⟨['P'], 23, 1⟩ := by decide +kernel
  have hDescribed : ((Provider.hoverFile (Path.ofText ['h']) (.ok halfResponse)).struct?
      (Settings.ofEnvironment []).language brokenSource ⟨['P'], 23, 1⟩).isSome = true := by
    decide +kernel
  obtain ⟨s, hStruct⟩ := Option.isSome_iff_exists.mp hDescribed
  -- the type of the field is one stand-in here and the other there
  have hHalf : halfRequest.showsHalf (.hoverFile (Path.ofText ['h']) (.ok halfResponse))
      (Settings.ofEnvironment []).language brokenSource ⟨['P'], 23, 1⟩ = true := by
    decide +kernel
  have hHelp := Request.run_of_showsHalf hRead (by decide) rfl hProvider hContext hStruct hHalf
  rw [run_of_request hRequest]
  refine ⟨?_, hHelp.2⟩
  rw [hContent, ← hLanguage, hHelp.1]
  exact Option.some_ne_none _

/-- For programs it is printed, with the half as its escape. -/
example : "\\ud800".toList <:+: (run halfDisk [] ("--json".toList :: halfArguments)).stdout := by
  decide +kernel

end CommandLine

end FieldHint
