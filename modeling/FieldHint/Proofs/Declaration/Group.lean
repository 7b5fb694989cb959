import FieldHint.Declaration.Group
import FieldHint.Proofs.Brace.Span
import FieldHint.Proofs.Struct.Header

/-!
# Declarations — what stands in a group

The scan through a group goes from entry to entry: a line without a brace, code up to the end of a
brace pair, or a struct member. What it makes of an entry does not depend on what stands before or
behind it, so a group lists its struct members whatever else it declares:

* `groupStep_eq_member_iff`, `cases_of_skip` — what a step has read when it goes on;
* `members_eq` — the scan is a step, and the scan behind what the step has read;
* `members_line`, `members_braced`, `members_member` — so it goes over one entry;
* `Entries.outlines_append` — the struct members among some entries, in order;
* `outline_members_insert` — a specification of no struct may be put between two entries.

Behind a brace pair, the scan takes the rest of the line for a line of its own, and at a closing
parenthesis there it takes the group to be over. `hides_member` is a specification that hides the
members behind it so.
-/

namespace FieldHint.Declaration

variable {start last : Nat} {t u l lead body indent name gap gap' : Text}

/-! ## Entries -/

/-- A declaration as it is listed: its name and its text, wherever it stands. -/
def outline (d : Declaration) : Text × Text := (d.name, d.code)

/-- Whether the text starts with the parenthesis that closes a group. -/
def closesGroup (t : Text) : Bool := (Text.stripStart t).head? = some ')'

theorem closesGroup_iff : closesGroup t = true ↔ (Text.stripStart t).head? = some ')' :=
  decide_eq_true_iff

/-- A line that starts with words closes no group. -/
theorem closesGroup_of_isWordy (h : Header.IsWordy t) : closesGroup t = false := by
  by_contra hCloses
  have hHead := closesGroup_iff.mp (Bool.eq_true_of_not_eq_false hCloses)
  have hMem : ')' ∈ t := (List.dropWhile_suffix _).subset (List.mem_of_mem_head? hHead)
  exact h.not_mem (by decide) (by decide) hMem

/-- Code in front of a brace: on one line, without another brace or a comment, and no header of a
struct. -/
structure IsLead (t : Text) : Prop where
  no_newline : '\n' ∉ t
  no_brace : '{' ∉ t
  no_comment : ¬ Comment.mark <:+: t
  not_struct : Header.summary? Text.isSpacing ((t ++ ['{']).dropWhile Text.isSpacing) = none

/-- A text made of entries, with the struct members among them as they are listed. If `parens` says
so, entries may start with a closing parenthesis. -/
inductive Entries (parens : Bool) : List (Text × Text) → Text → Prop
  | nil : Entries parens [] []
  -- a line whose code holds no brace
  | line {listed : List (Text × Text)} {l t : Text} (no_newline : '\n' ∉ l)
      (no_brace : '{' ∉ Comment.cut l)
      (closes : closesGroup (Comment.cut l) = true → parens = true)
      (entries : Entries parens listed t) : Entries parens listed (l ++ '\n' :: t)
  -- code up to the end of its first brace pair; what follows on the line is an entry of its own
  | braced {listed : List (Text × Text)} {lead body t : Text} (isLead : IsLead lead)
      (isBody : Brace.IsBody body) (closes : closesGroup lead = true → parens = true)
      (entries : Entries parens listed t) :
      Entries parens listed (lead ++ '{' :: (body ++ '}' :: t))
  -- a struct, up to the brace that closes its body
  | member {listed : List (Text × Text)} {indent name gap gap' body t : Text}
      (indented : ∀ c ∈ indent, Text.isSpacing c = true)
      (words : Header.Words Text.isSpacing name gap gap') (isBody : Brace.IsBody body)
      (entries : Entries parens listed t) :
      Entries parens
        ((name, Header.typeKeyword ++ ' ' :: Header.spell name gap gap' (body ++ ['}'])) :: listed)
        (indent ++ Header.spell name gap gap' (body ++ '}' :: t))

/-! ## One step -/

/-- Code up to a brace is on the first line, and no comment. -/
theorem cut_firstLine (hNewline : '\n' ∉ lead) (hComment : ¬ Comment.mark <:+: lead) (u : Text) :
    Comment.cut (Text.firstLine (lead ++ '{' :: u)) =
      lead ++ '{' :: Comment.cut (Text.firstLine u) := by
  have hRun : ∀ c ∈ lead ++ ['{'], decide (c ≠ '\n') = true :=
    Text.forall_ne_of_not_mem (by simpa using hNewline)
  have hLine : Text.firstLine (lead ++ '{' :: u) = lead ++ '{' :: Text.firstLine u := by
    have hSplit : lead ++ '{' :: u = lead ++ ['{'] ++ u := by simp
    rw [Text.firstLine, hSplit, List.takeWhile_append_of_pos hRun]
    simp [Text.firstLine]
  rw [hLine, Comment.cut, Text.before_append_cons (by decide) (by decide) hComment]
  rfl

/-- A brace does not hide what the code in front of it starts with. -/
theorem head?_strip_append_brace (t u : Text) :
    (Text.strip (t ++ '{' :: u)).head? = some ')' ↔ closesGroup t = true := by
  rw [Text.head?_strip_eq, Text.stripStart, Text.dropWhile_append_cons (by decide), closesGroup_iff,
    Text.stripStart]
  cases t.dropWhile Text.isBlank <;> simp

/-- No header stands on a line whose code holds no brace. -/
theorem summary?_line (hl : '\n' ∉ l) (hBrace : '{' ∉ Comment.cut l) (u : Text) :
    Header.summary? Text.isSpacing ((l ++ '\n' :: u).dropWhile Text.isSpacing) = none := by
  rw [Option.eq_none_iff_forall_ne_some]
  intro h hRead
  obtain ⟨indent, gap, gap', hSplit, hIndent, hWords⟩ := Header.exists_lead_of_summary? hRead
  have hLead := Header.isWordy_lead hIndent hWords
  generalize Header.lead indent h.name gap gap' = lead at hSplit hLead
  have hNewline : '\n' ∉ lead ++ ['{'] := by simp [hLead.no_newline]
  -- the brace stands before the line feed, and no comment before it
  obtain ⟨v, rfl⟩ : lead ++ ['{'] <+: l :=
    (Text.prefix_append_cons_iff hNewline).mp ⟨h.rest, by rw [hSplit]; simp⟩
  rw [List.append_assoc, List.singleton_append, Comment.cut,
    Text.before_append_cons (by decide) (by decide) hLead.no_comment] at hBrace
  simp at hBrace

/-- Nor does one stand in front of the first brace of other code. -/
theorem IsLead.summary? (h : IsLead lead) (u : Text) :
    Header.summary? Text.isSpacing ((lead ++ '{' :: u).dropWhile Text.isSpacing) = none := by
  rw [Option.eq_none_iff_forall_ne_some]
  intro header hRead
  obtain ⟨indent, gap, gap', hSplit, hIndent, hWords⟩ := Header.exists_lead_of_summary? hRead
  have hNone := (Header.isWordy_lead hIndent hWords).no_brace
  obtain ⟨rfl, -⟩ := Text.append_cons_inj_of_not_mem h.no_brace hNone hSplit
  -- what was read is all in front of the brace
  have hStruct := h.not_struct
  rw [Header.lead_append, Header.summary?_indented hIndent hWords] at hStruct
  exact absurd hStruct (by simp)

/-- A line without a brace: it ends the group, or the scan goes on at its line feed. -/
theorem groupStep_line (start : Nat) (hl : '\n' ∉ l) (hBrace : '{' ∉ Comment.cut l) (u : Text) :
    groupStep start (l ++ '\n' :: u) =
      if closesGroup (Comment.cut l) then .stop else .skip l.length := by
  have hLine : Text.firstLine (l ++ '\n' :: u) = l :=
    Text.takeWhile_run (Text.forall_ne_of_not_mem hl) (by simp)
  have hCloses : (Text.strip (Comment.cut l)).head? = some ')' ↔
      closesGroup (Comment.cut l) = true := by
    rw [Text.head?_strip_eq, closesGroup_iff]
  simp only [groupStep, hLine, hCloses, summary?_line hl hBrace, if_neg hBrace]

/-- Code in front of a brace pair: it ends the group, or the scan goes on behind the pair. -/
theorem groupStep_braced (start : Nat) (hLead : IsLead lead) (hBody : Brace.IsBody body)
    (u : Text) :
    groupStep start (lead ++ '{' :: (body ++ '}' :: u)) =
      if closesGroup lead then .stop else .skip (lead.length + 1 + body.length) := by
  have hCut := cut_firstLine hLead.no_newline hLead.no_comment (body ++ '}' :: u)
  have hLength : ((lead ++ '{' :: Comment.cut (Text.firstLine (body ++ '}' :: u))).takeWhile
      (· ≠ '{')).length = lead.length := by
    rw [Text.takeWhile_run (Text.forall_ne_of_not_mem hLead.no_brace) (by simp)]
  have hDrop : (lead ++ '{' :: (body ++ '}' :: u)).drop (lead.length + 1) = body ++ '}' :: u := by
    rw [← List.drop_drop, List.drop_left]
    rfl
  -- neither stop nor header: the branch for other braced members is left
  have hMem : '{' ∈ lead ++ '{' :: Comment.cut (Text.firstLine (body ++ '}' :: u)) := by simp
  simp only [groupStep, hCut, head?_strip_append_brace, hLead.summary?, if_pos hMem, hLength, hDrop,
    hBody.bodyEnd?]

/-- A struct member, up to the brace that closes its body. -/
theorem groupStep_member (start : Nat) (hIndent : ∀ c ∈ indent, Text.isSpacing c = true)
    (hWords : Header.Words Text.isSpacing name gap gap') (hBody : Brace.IsBody body) (u : Text) :
    groupStep start (indent ++ Header.spell name gap gap' (body ++ '}' :: u)) =
      .member
        ⟨name, start, Header.typeKeyword ++ ' ' :: Header.spell name gap gap' (body ++ ['}']),
          start + (indent ++ Header.spell name gap gap' body).length⟩
        (indent ++ Header.spell name gap gap' body).length := by
  have hLead := Header.isWordy_lead hIndent hWords
  -- the line starts with a name, so it does not close the group
  have hOpen : ¬ (Text.strip (Comment.cut (Text.firstLine
      (indent ++ Header.spell name gap gap' (body ++ '}' :: u))))).head? = some ')' := by
    rw [← Header.lead_append, cut_firstLine hLead.no_newline hLead.no_comment,
      head?_strip_append_brace, closesGroup_of_isWordy hLead]
    exact Bool.false_ne_true
  have hRead := Header.summary?_indented hIndent hWords (body ++ '}' :: u)
  have hRun : (indent ++ Header.spell name gap gap' (body ++ '}' :: u)).takeWhile Text.isSpacing =
      indent := Text.takeWhile_run hIndent (hWords.isSpacing_head _)
  -- the offset of the closing brace, and what is cut out up to it
  have hLast : (indent ++ Header.spell name gap gap' (body ++ '}' :: u)).length -
      (body ++ '}' :: u).length + body.length =
        (indent ++ Header.spell name gap gap' body).length := by
    simp only [Header.spell, List.length_append, List.length_cons]
    omega
  have hSlice : Text.slice (indent ++ Header.spell name gap gap' (body ++ '}' :: u)) indent.length
      ((indent ++ Header.spell name gap gap' body).length + 1) =
        Header.spell name gap gap' (body ++ ['}']) := by
    rw [Text.slice, ← Header.length_spell_concat indent body '}', Header.spell_cons indent body u,
      List.take_left, List.drop_left]
  simp only [groupStep, if_neg hOpen, hRead, hBody.bodyEnd?, hRun, hLast, hSlice]

/-- What a step finds as a member: all of the text behind the indent, up to the brace that closes
the member's body. -/
theorem groupStep_eq_member_iff {d : Declaration} :
    groupStep start t = .member d last ↔
      ∃ indent name gap gap' body rest,
        t = indent ++ Header.spell name gap gap' (body ++ '}' :: rest) ∧
        (∀ c ∈ indent, Text.isSpacing c = true) ∧ Header.Words Text.isSpacing name gap gap' ∧
        Brace.IsBody body ∧ last = (indent ++ Header.spell name gap gap' body).length ∧
        d = ⟨name, start, Header.typeKeyword ++ ' ' :: Header.spell name gap gap' (body ++ ['}']),
          start + last⟩ := by
  constructor
  · intro h
    have hRead := h
    simp only [groupStep] at hRead
    -- of the six ways a step can end, one yields a member
    split at hRead
    · simp at hRead
    split at hRead
    · next header hHeader =>
      split at hRead
      · simp at hRead
      next n hEnd =>
      obtain ⟨indent, gap, gap', hSplit, hIndent, hWords⟩ := Header.exists_lead_of_summary? hHeader
      obtain ⟨body, rest, hRest, -, hBody⟩ := Brace.bodyEnd?_eq_some_iff.mp hEnd
      rw [Header.lead_append, hRest] at hSplit
      rw [hSplit, groupStep_member start hIndent hWords hBody] at h
      obtain ⟨rfl, rfl⟩ := GroupStep.member.inj h
      exact ⟨indent, header.name, gap, gap', body, rest, hSplit, hIndent, hWords, hBody, rfl, rfl⟩
    · split at hRead
      · split at hRead <;> simp at hRead
      · simp at hRead
  · rintro ⟨indent, name, gap, gap', body, rest, rfl, hIndent, hWords, hBody, rfl, rfl⟩
    exact groupStep_member start hIndent hWords hBody rest

/-- A step that finds nothing, but does not end the group, goes on with the next line, or behind the
pair of the first brace. -/
theorem cases_of_skip (h : groupStep start t = .skip last) :
    last = (Text.firstLine t).length ∨
      ∃ lead body rest, t = lead ++ '{' :: (body ++ '}' :: rest) ∧ '{' ∉ lead ∧
        Brace.IsBody body ∧ last = lead.length + 1 + body.length := by
  simp only [groupStep] at h
  split at h
  · simp at h
  split at h
  · split at h <;> simp at h
  split at h
  · next hBrace =>
    -- the first brace of the code is the first one of the text
    obtain ⟨lead, v, hCode, hLead⟩ := List.eq_append_cons_of_mem hBrace
    have hPrefix : lead ++ '{' :: v <+: t := by
      rw [← hCode]
      exact (Text.before_isPrefix _ _).trans (List.takeWhile_prefix _)
    obtain ⟨w, rfl⟩ := hPrefix
    rw [hCode, Text.takeWhile_run (Text.forall_ne_of_not_mem hLead) (by simp)] at h
    have hDrop : (lead ++ '{' :: v ++ w).drop (lead.length + 1) = v ++ w := by
      rw [List.append_assoc, ← List.drop_drop, List.drop_left]
      rfl
    rw [hDrop] at h
    split at h
    · simp at h
    next n hEnd =>
    obtain ⟨body, rest, hRest, rfl, hBody⟩ := Brace.bodyEnd?_eq_some_iff.mp hEnd
    refine Or.inr ⟨lead, body, rest, ?_, hLead, hBody, (GroupStep.skip.inj h).symm⟩
    rw [List.append_assoc, List.cons_append, hRest]
  · exact Or.inl (GroupStep.skip.inj h).symm

/-! ## A whole group -/

/-- What still belongs to the step before is passed, even if the text ends before it does. -/
theorem membersBehind_eq_members (n start : Nat) (t : Text) :
    membersBehind n start t = members (start + n) (t.drop n) := by
  induction n generalizing start t with
  | zero => rfl
  | succ n ih =>
    cases t with
    | nil => rfl
    | cons c t =>
      have hStart : start + 1 + n = start + (n + 1) := by omega
      rw [membersBehind, ih, hStart, List.drop_succ_cons]

/-- The scan takes a step, and goes on behind what the step has read. -/
theorem members_eq (start : Nat) (t : Text) :
    members start t =
      match groupStep start t with
      | .stop => []
      | .skip last => members (start + (last + 1)) (t.drop (last + 1))
      | .member d last => d :: members (start + (last + 1)) (t.drop (last + 1)) := by
  cases t with
  | nil => rfl
  | cons c t =>
    have hBehind : ∀ last, membersBehind last (start + 1) t =
        members (start + (last + 1)) ((c :: t).drop (last + 1)) := by
      intro last
      rw [membersBehind_eq_members, List.drop_succ_cons, Nat.add_assoc, Nat.add_comm 1 last]
    simp only [← hBehind]
    rfl

theorem members_of_stop (hStep : groupStep start t = .stop) : members start t = [] := by
  rw [members_eq, hStep]

/-- The scan goes on behind what it has skipped. -/
theorem members_of_skip (hLength : t.length = last + 1)
    (hStep : groupStep start (t ++ u) = .skip last) :
    members start (t ++ u) = members (start + t.length) u := by
  rw [members_eq, hStep]
  simp only
  rw [← hLength, List.drop_left]

/-- A member is found, and the scan goes on behind it. -/
theorem members_of_member {d : Declaration} (hLength : t.length = last + 1)
    (hStep : groupStep start (t ++ u) = .member d last) :
    members start (t ++ u) = d :: members (start + t.length) u := by
  rw [members_eq, hStep]
  simp only
  rw [← hLength, List.drop_left]

/-- A line without a brace is passed, unless it closes the group. -/
theorem members_line (start : Nat) (hl : '\n' ∉ l) (hBrace : '{' ∉ Comment.cut l) (u : Text) :
    members start (l ++ '\n' :: u) =
      if closesGroup (Comment.cut l) then [] else members (start + (l ++ ['\n']).length) u := by
  have hStep := groupStep_line start hl hBrace u
  split
  · next hCloses =>
    rw [if_pos hCloses] at hStep
    exact members_of_stop hStep
  · next hCloses =>
    rw [if_neg hCloses] at hStep
    have hSplit : l ++ '\n' :: u = l ++ ['\n'] ++ u := by simp
    -- the line feed belongs to what is skipped
    rw [hSplit] at hStep ⊢
    exact members_of_skip List.length_append hStep

/-- Code is passed up to the end of its brace pair, unless it closes the group. What follows the
pair is read as if it stood on a line of its own. -/
theorem members_braced (start : Nat) (hLead : IsLead lead) (hBody : Brace.IsBody body) (u : Text) :
    members start (lead ++ '{' :: (body ++ '}' :: u)) =
      if closesGroup lead then []
      else members (start + (lead ++ '{' :: (body ++ ['}'])).length) u := by
  have hStep := groupStep_braced start hLead hBody u
  split
  · next hCloses =>
    rw [if_pos hCloses] at hStep
    exact members_of_stop hStep
  · next hCloses =>
    rw [if_neg hCloses] at hStep
    have hSplit : lead ++ '{' :: (body ++ '}' :: u) = lead ++ '{' :: (body ++ ['}']) ++ u := by
      simp
    have hLength : (lead ++ '{' :: (body ++ ['}'])).length = lead.length + 1 + body.length + 1 := by
      simp only [List.length_append, List.length_cons, List.length_nil]
      omega
    rw [hSplit] at hStep ⊢
    exact members_of_skip hLength hStep

/-- A struct member is found where its line starts. -/
theorem members_member (start : Nat) (hIndent : ∀ c ∈ indent, Text.isSpacing c = true)
    (hWords : Header.Words Text.isSpacing name gap gap') (hBody : Brace.IsBody body) (u : Text) :
    members start (indent ++ Header.spell name gap gap' (body ++ '}' :: u)) =
      ⟨name, start, Header.typeKeyword ++ ' ' :: Header.spell name gap gap' (body ++ ['}']),
          start + (indent ++ Header.spell name gap gap' body).length⟩ ::
        members (start + (indent ++ Header.spell name gap gap' (body ++ ['}'])).length) u := by
  have hStep := groupStep_member start hIndent hWords hBody u
  rw [Header.spell_cons] at hStep ⊢
  exact members_of_member (Header.length_spell_concat indent body '}') hStep

/-! ## The list of a group -/

/-- Two steps that differ in the offsets only. -/
inductive SameStep : GroupStep → GroupStep → Prop
  | stop : SameStep .stop .stop
  | skip {last : Nat} : SameStep (.skip last) (.skip last)
  | member {d d' : Declaration} {last : Nat} : d.outline = d'.outline →
      SameStep (.member d last) (.member d' last)

/-- What a step does depends on the text alone. -/
theorem sameStep (start start' : Nat) (t : Text) :
    SameStep (groupStep start t) (groupStep start' t) := by
  simp only [groupStep]
  -- a closing parenthesis, a header, another brace, or none of these
  split
  · exact .stop
  split
  · split
    · exact .stop
    · exact .member rfl
  · split
    · split
      · exact .stop
      · exact .skip
    · exact .skip

/-- Where a group stands makes no difference for what is listed. -/
theorem map_outline_membersBehind (n start start' : Nat) (t : Text) :
    (membersBehind n start t).map outline = (membersBehind n start' t).map outline := by
  induction n, start, t using membersBehind.induct generalizing start' with
  | case1 n start => simp [membersBehind]
  | case2 n start c t ih => exact ih (start' + 1)
  -- at the start of a step, both scans take the same one
  | case3 start c t hStop =>
    have hSame := sameStep start start' (c :: t)
    rw [hStop] at hSame
    generalize hStep : groupStep start' (c :: t) = step at hSame
    cases hSame
    simp [membersBehind, hStop, hStep]
  | case4 start c t last hSkip ih =>
    have hSame := sameStep start start' (c :: t)
    rw [hSkip] at hSame
    generalize hStep : groupStep start' (c :: t) = step at hSame
    cases hSame
    simp only [membersBehind, hSkip, hStep]
    exact ih (start' + 1)
  | case5 start c t d last hMember ih =>
    have hSame := sameStep start start' (c :: t)
    rw [hMember] at hSame
    generalize hStep : groupStep start' (c :: t) = step at hSame
    cases hSame with
    | member hOutline =>
      simp only [membersBehind, hMember, hStep, List.map_cons, hOutline, ih (start' + 1)]

/-- The struct members of a group as they are listed. -/
def outlines (t : Text) : List (Text × Text) := (members 0 t).map outline

theorem map_outline_members (start : Nat) (t : Text) :
    (members start t).map outline = outlines t :=
  map_outline_membersBehind 0 start 0 t

theorem outlines_line (hl : '\n' ∉ l) (hBrace : '{' ∉ Comment.cut l) (u : Text) :
    outlines (l ++ '\n' :: u) = if closesGroup (Comment.cut l) then [] else outlines u := by
  unfold outlines
  rw [members_line 0 hl hBrace]
  split
  · rfl
  · exact map_outline_members _ u

theorem outlines_braced (hLead : IsLead lead) (hBody : Brace.IsBody body) (u : Text) :
    outlines (lead ++ '{' :: (body ++ '}' :: u)) =
      if closesGroup lead then [] else outlines u := by
  unfold outlines
  rw [members_braced 0 hLead hBody]
  split
  · rfl
  · exact map_outline_members _ u

theorem outlines_member (hIndent : ∀ c ∈ indent, Text.isSpacing c = true)
    (hWords : Header.Words Text.isSpacing name gap gap') (hBody : Brace.IsBody body) (u : Text) :
    outlines (indent ++ Header.spell name gap gap' (body ++ '}' :: u)) =
      (name, Header.typeKeyword ++ ' ' :: Header.spell name gap gap' (body ++ ['}'])) ::
        outlines u := by
  unfold outlines
  rw [members_member 0 hIndent hWords hBody, List.map_cons, map_outline_members]
  rfl

/-- The struct members among some entries are listed, in order, and then those behind them. -/
theorem Entries.outlines_append {listed : List (Text × Text)} (h : Entries false listed t)
    (u : Text) : outlines (t ++ u) = listed ++ outlines u := by
  induction h with
  | nil => rfl
  | line hl hBrace hCloses _ ih =>
    rw [List.append_assoc, List.cons_append, outlines_line hl hBrace,
      if_neg fun h => Bool.false_ne_true (hCloses h), ih]
  | braced hLead hBody hCloses _ ih =>
    rw [List.append_assoc, List.cons_append, List.append_assoc, List.cons_append,
      outlines_braced hLead hBody, if_neg fun h => Bool.false_ne_true (hCloses h), ih]
  | member hIndent hWords hBody _ ih =>
    rw [List.append_assoc, ← Header.spell_append, List.append_assoc, List.cons_append,
      outlines_member hIndent hWords hBody, ih]
    rfl

/-- What a group lists does not change when a specification is put in that declares no struct, if
no closing parenthesis follows a brace pair in it. -/
theorem outline_members_insert {listed : List (Text × Text)} {spec : Text}
    (h : Entries true listed t) (hSpec : Entries false [] (spec ++ ['\n'])) (start : Nat)
    (u : Text) :
    (members start (t ++ (spec ++ '\n' :: u))).map outline =
      (members start (t ++ u)).map outline := by
  -- at the place itself, the scan passes the specification
  have hPassed : outlines (spec ++ '\n' :: u) = outlines u := by
    have hAppend := hSpec.outlines_append u
    rwa [List.append_assoc] at hAppend
  rw [map_outline_members, map_outline_members]
  -- before that, each entry is passed in both groups, or ends both
  induction h with
  | nil => exact hPassed
  | line hl hBrace _ _ ih =>
    rw [List.append_assoc, List.append_assoc, List.cons_append, List.cons_append,
      outlines_line hl hBrace, outlines_line hl hBrace, ih]
  | braced hLead hBody _ _ ih =>
    simp only [List.append_assoc, List.cons_append] at ih ⊢
    rw [outlines_braced hLead hBody, outlines_braced hLead hBody, ih]
  | member hIndent hWords hBody _ ih =>
    rw [List.append_assoc, List.append_assoc, ← Header.spell_append, ← Header.spell_append,
      List.append_assoc, List.append_assoc, List.cons_append, List.cons_append,
      outlines_member hIndent hWords hBody, outlines_member hIndent hWords hBody, ih]

/-- A group up to a place between two members, -/
def upperMembers : Text := Header.spell ['A'] [' '] [] ['x', ' ', 'T', '}', '\n']

/-- and from there on. -/
def lowerMembers : Text := Header.spell ['P'] [' '] [] ['}', '\n', ')', '\n']

theorem entries_upperMembers :
    Entries true
      [(['A'], Header.typeKeyword ++ ' ' :: Header.spell ['A'] [' '] [] ['x', ' ', 'T', '}'])]
      upperMembers := by
  have hWords : Header.Words Text.isSpacing ['A'] [' '] [] := .of_name (by decide) (by simp)
  have hLine : Entries true [] ([] ++ '\n' :: []) := .line (by simp) (by decide) (by decide) .nil
  have hMember : Entries true
      [(['A'], Header.typeKeyword ++ ' ' :: Header.spell ['A'] [' '] [] (['x', ' ', 'T'] ++ ['}']))]
      ([] ++ Header.spell ['A'] [' '] [] (['x', ' ', 'T'] ++ '}' :: ['\n'])) :=
    .member (by simp) hWords rfl hLine
  exact hMember

/-- A channel type with a brace pair, and a comment with a parenthesis and a brace. -/
def chanSpec : Text :=
  ['C', ' ', 'c', 'h', 'a', 'n', ' ', 's', 't', 'r', 'u', 'c', 't', '{', '}'] ++
    [' ', '/', '/', ' ', ')', '{']

/-- The theorem at that specification. -/
theorem outline_members_insert_chan :
    Entries false [] (chanSpec ++ ['\n']) ∧
      ((members 0 (upperMembers ++ (chanSpec ++ '\n' :: lowerMembers))).map outline).map Prod.fst =
        [['A'], ['P']] := by
  have hSpec : Entries false [] (chanSpec ++ ['\n']) := by
    have hLine : Entries false [] ([' ', '/', '/', ' ', ')', '{'] ++ '\n' :: []) :=
      .line (by decide) (by decide) (by decide) .nil
    have hBraced : Entries false []
        (['C', ' ', 'c', 'h', 'a', 'n', ' ', 's', 't', 'r', 'u', 'c', 't'] ++
          '{' :: ([] ++ '}' :: ([' ', '/', '/', ' ', ')', '{'] ++ '\n' :: []))) :=
      .braced ⟨by decide, by decide, by decide, by decide⟩ rfl (by decide) hLine
    exact hBraced
  refine ⟨hSpec, ?_⟩
  rw [outline_members_insert entries_upperMembers hSpec 0 lowerMembers]
  decide

/-- A function type with a brace pair in front of its closing parenthesis. -/
def funcSpec : Text :=
  ['F', ' ', 'f', 'u', 'n', 'c', '(', 's', 't', 'r', 'u', 'c', 't', '{', '}', ')', ' ', 'T']

/-- The rest of a line behind a brace pair is taken for a line of its own, so a specification may
end the group for the scan, and hide the members behind it. -/
theorem hides_member :
    Entries true [] (funcSpec ++ ['\n']) ∧
      (members 0 (upperMembers ++ (funcSpec ++ '\n' :: lowerMembers))).map outline ≠
        (members 0 (upperMembers ++ lowerMembers)).map outline := by
  have hLine : Entries true [] ([')', ' ', 'T'] ++ '\n' :: []) :=
    .line (by decide) (by decide) (fun _ => rfl) .nil
  have hBraced : Entries true []
      (['F', ' ', 'f', 'u', 'n', 'c', '(', 's', 't', 'r', 'u', 'c', 't'] ++
        '{' :: ([] ++ '}' :: ([')', ' ', 'T'] ++ '\n' :: []))) :=
    .braced ⟨by decide, by decide, by decide, by decide⟩ rfl (fun _ => rfl) hLine
  refine ⟨hBraced, ?_⟩
  decide

end FieldHint.Declaration
