import FieldHint.Proofs.Declaration.Group

/-!
# Declarations — the scan through a group

The scan through a group goes from turn to turn: to the next line, behind a brace pair, or behind a
member. The last two lead to wherever the search for a closing brace has ended, which may be in the
middle of a line, and the first may lead past the end of a document that is not well formed. But
every turn leads on, so the scan ends, and what it finds stands apart and in order.

* `move_of_turn?` — what a turn can do;
* `exists_run` — from every offset, the scan ends after some turns;
* `Run.eq_members` — the turns find the members of the group;
* `scan_advances` — the offsets of the turns increase, and each member is cut out behind the one
  before it, up to the brace that closes its body.
-/

namespace FieldHint.Declaration

variable {document : Text} {p q nameAt braceAt : Nat} {d : Declaration} {found : Option Declaration}
  {offsets : List Nat} {ds : List Declaration} {indent lead name gap gap' body : Text}

/-! ## Turns and runs -/

/-- One turn of the scan, at an offset of the document: the member that it finds, if it finds one,
and the offset of the next turn. There is none when the scan is over. -/
def turn? (document : Text) (p : Nat) : Option (Option Declaration × Nat) :=
  if p < document.length then
    match groupStep p (document.drop p) with
    | .stop => none
    | .skip last => some (none, p + (last + 1))
    | .member d last => some (some d, p + (last + 1))
  else none

/-- A whole scan from an offset on: the offsets at which its turns start, with the one at which it
is over, and the members that it finds. -/
inductive Run (document : Text) : Nat → List Nat → List Declaration → Prop
  | ended {p : Nat} (last : turn? document p = none) : Run document p [p] []
  | turn {p q : Nat} {found : Option Declaration} {offsets : List Nat} {ds : List Declaration}
      (first : turn? document p = some (found, q)) (rest : Run document q offsets ds) :
      Run document p (p :: offsets) (found.toList ++ ds)

/-- The declaration is cut out of the document as a member, with the keyword in front: from its
name, behind an indent, up to the brace that the search finds for the one of its header. -/
structure IsMember (document : Text) (d : Declaration) (nameAt braceAt : Nat) : Prop where
  start_le : d.start ≤ nameAt
  indented : ∀ c ∈ document.slice d.start nameAt, Text.isSpacing c = true
  header : ∃ gap gap', Header.Words Text.isSpacing d.name gap gap' ∧
    document.slice nameAt (braceAt + 1) = Header.spell d.name gap gap' []
  closing : Brace.closing? document braceAt = some d.stop
  code : d.code = Header.typeKeyword ++ ' ' :: document.slice nameAt (d.stop + 1)

/-- What a turn at an offset can do. -/
inductive Move (document : Text) (p : Nat) : Option Declaration → Nat → Prop
  -- the line feed is passed, too, and so is the end of the document if there is none
  | line : Move document p none (p + (Text.firstLine (document.drop p)).length + 1)
  -- the first brace and the one that closes it
  | pair {brace close : Nat} (le : p ≤ brace) (first : '{' ∉ document.slice p brace)
      (opens : document[brace]? = some '{') (closing : Brace.closing? document brace = some close) :
      Move document p none (close + 1)
  | member {d : Declaration} {nameAt braceAt : Nat} (start : d.start = p)
      (isMember : IsMember document d nameAt braceAt) : Move document p (some d) (d.stop + 1)

/-! ## One turn -/

theorem lt_length_of_turn? (h : turn? document p = some (found, q)) : p < document.length := by
  unfold turn? at h
  split at h
  · assumption
  · simp at h

/-- The name of a member stands in front of its brace. -/
theorem IsMember.name_le (h : IsMember document d nameAt braceAt) : nameAt ≤ braceAt := by
  obtain ⟨gap, gap', hWords, hSlice⟩ := h.header
  by_contra hBehind
  -- the slice would end before it starts, and there would be no name in it
  have hEmpty : document.slice nameAt (braceAt + 1) = [] := by
    rw [Text.slice]
    refine List.drop_eq_nil_of_le ?_
    rw [List.length_take]
    omega
  rw [hEmpty] at hSlice
  exact hWords.name_ne_nil (List.append_eq_nil_iff.mp hSlice.symm).1

/-- A member has its last brace behind its start, in the document. -/
theorem IsMember.bounds (h : IsMember document d nameAt braceAt) :
    d.start < d.stop ∧ d.stop < document.length := by
  obtain ⟨hLater, hBrace⟩ := Brace.closing?_bounds h.closing
  obtain ⟨hLength, -⟩ := List.getElem?_eq_some_iff.mp hBrace
  have hStart := h.start_le
  have hName := h.name_le
  exact ⟨by omega, hLength⟩

/-- A struct is cut out of a document as a member, whatever stands in front of it and behind. -/
theorem isMember_append (hIndent : ∀ c ∈ indent, Text.isSpacing c = true)
    (hWords : Header.Words Text.isSpacing name gap gap') (hBody : Brace.IsBody body)
    (before rest : Text) :
    IsMember (before ++ (indent ++ Header.spell name gap gap' (body ++ '}' :: rest)))
      ⟨name, before.length, Header.typeKeyword ++ ' ' :: Header.spell name gap gap' (body ++ ['}']),
        before.length + (indent ++ Header.spell name gap gap' body).length⟩
      (before ++ indent).length (before ++ Header.lead indent name gap gap').length := by
  generalize hDocument : before ++ (indent ++ Header.spell name gap gap' (body ++ '}' :: rest)) =
    document
  -- the same document, cut in front of what each of the fields speaks of
  have hAtHeader : document =
      (before ++ indent) ++ (Header.spell name gap gap' [] ++ (body ++ '}' :: rest)) := by
    rw [← hDocument, ← Header.spell_append, List.nil_append, List.append_assoc]
  have hAtCode : document =
      (before ++ indent) ++ (Header.spell name gap gap' (body ++ ['}']) ++ rest) := by
    rw [← hDocument, Header.spell_cons, List.append_assoc, List.append_assoc]
  have hAtOpen : document =
      (before ++ Header.lead indent name gap gap') ++ '{' :: (body ++ '}' :: rest) := by
    rw [← hDocument, List.append_assoc, Header.lead_append]
  -- the brace stands at the end of the lead, and behind the brace what the header is spelled with
  have hLength : ∀ t : Text, (before ++ Header.lead indent name gap gap').length + 1 + t.length =
      (before ++ indent).length + (Header.spell name gap gap' t).length := by
    intro t
    simp only [Header.lead, Header.spell, List.length_append, List.length_cons]
    omega
  have hStop : before.length + (indent ++ Header.spell name gap gap' body).length =
      (before ++ Header.lead indent name gap gap').length + 1 + body.length := by
    rw [hLength, List.length_append, List.length_append, Nat.add_assoc]
  exact {
    start_le := (List.prefix_append before indent).length_le
    indented := by
      rw [Text.slice_of_append hDocument.symm rfl List.length_append]
      exact hIndent
    header := ⟨gap, gap', hWords, Text.slice_of_append hAtHeader rfl (hLength [])⟩
    closing := by
      have hClosing := hBody.closing? (before ++ Header.lead indent name gap gap') rest
      rw [← hAtOpen] at hClosing
      rw [hClosing, hStop]
    code := by
      rw [Text.slice_of_append hAtCode rfl]
      show before.length + (indent ++ Header.spell name gap gap' body).length + 1 = _
      rw [Nat.add_assoc, ← Header.length_spell_concat, List.length_append, List.length_append,
        Nat.add_assoc] }

/-- Where a brace pair comes first, the next turn starts behind it. -/
theorem Move.pair_append (hFirst : '{' ∉ lead) (hBody : Brace.IsBody body) (before rest : Text) :
    Move (before ++ (lead ++ '{' :: (body ++ '}' :: rest))) before.length none
      (before.length + (lead.length + 1 + body.length + 1)) := by
  have hAtOpen : before ++ (lead ++ '{' :: (body ++ '}' :: rest)) =
      (before ++ lead) ++ '{' :: (body ++ '}' :: rest) := (List.append_assoc _ _ _).symm
  have hNext : before.length + (lead.length + 1 + body.length + 1) =
      (before ++ lead).length + 1 + body.length + 1 := by
    rw [List.length_append]
    omega
  rw [hNext]
  refine .pair (List.prefix_append before lead).length_le ?_
    (Text.getElem?_of_append hAtOpen rfl) ?_
  · rw [List.length_append, Text.slice_append]
    exact hFirst
  · rw [hAtOpen]
    exact hBody.closing? (before ++ lead) rest

/-- What a turn does. -/
theorem move_of_turn? (h : turn? document p = some (found, q)) : Move document p found q := by
  have hp := lt_length_of_turn? h
  obtain ⟨before, t, rfl, rfl⟩ : ∃ before t, document = before ++ t ∧ before.length = p :=
    ⟨document.take p, document.drop p, (List.take_append_drop p document).symm,
      List.length_take_of_le hp.le⟩
  rw [turn?, if_pos hp, List.drop_left] at h
  split at h
  · simp at h
  · next last hStep =>
    obtain ⟨rfl, rfl⟩ := Prod.mk.inj (Option.some.inj h)
    -- nothing found: the rest of the line is passed, or a brace pair
    rcases cases_of_skip hStep with rfl | ⟨lead, body, rest, rfl, hFirst, hBody, rfl⟩
    · have hLine : Move (before ++ t) before.length none _ := .line
      rwa [List.drop_left] at hLine
    · exact .pair_append hFirst hBody before rest
  · next e last hStep =>
    obtain ⟨rfl, rfl⟩ := Prod.mk.inj (Option.some.inj h)
    obtain ⟨indent, name, gap, gap', body, rest, rfl, hIndent, hWords, hBody, rfl, rfl⟩ :=
      groupStep_eq_member_iff.mp hStep
    exact .member rfl (isMember_append hIndent hWords hBody before rest)

/-- Every turn leads on. -/
theorem Move.lt (h : Move document p found q) : p < q := by
  cases h with
  | line => omega
  | pair hLe _ _ hClosing =>
    obtain ⟨hLater, -⟩ := Brace.closing?_bounds hClosing
    omega
  | member hStart hMember =>
    obtain ⟨hLater, -⟩ := hMember.bounds
    omega

/-- The members from an offset on are what a turn there finds, and those from the next turn on. -/
theorem members_eq_turn? (document : Text) (p : Nat) :
    members p (document.drop p) =
      match turn? document p with
      | none => []
      | some (found, q) => found.toList ++ members q (document.drop q) := by
  by_cases hp : p < document.length
  · rw [members_eq, turn?, if_pos hp]
    cases groupStep p (document.drop p) <;> simp [List.drop_drop]
  · -- behind the end of the document there is neither a turn nor a member
    rw [turn?, if_neg hp, List.drop_eq_nil_of_le (Nat.le_of_not_lt hp)]
    rfl

/-! ## The whole scan -/

/-- The scan ends, for each turn leaves less of the document. -/
theorem exists_run (document : Text) (p : Nat) : ∃ offsets ds, Run document p offsets ds := by
  -- a turn may lead past the end, where nothing is left, so the measure is cut off at zero
  induction hn : document.length - p using Nat.strong_induction_on generalizing p with
  | _ n ih =>
    cases hTurn : turn? document p with
    | none => exact ⟨[p], [], .ended hTurn⟩
    | some next =>
      obtain ⟨found, q⟩ := next
      have hLength := lt_length_of_turn? hTurn
      have hLater := (move_of_turn? hTurn).lt
      obtain ⟨offsets, ds, hRest⟩ := ih (document.length - q) (by omega) q rfl
      exact ⟨p :: offsets, found.toList ++ ds, .turn hTurn hRest⟩

namespace Run

theorem eq_members (h : Run document p offsets ds) : ds = members p (document.drop p) := by
  induction h with
  | ended hLast => rw [members_eq_turn?, hLast]
  | turn hFirst _ ih => rw [members_eq_turn?, hFirst, ih]

theorem le_of_mem (h : Run document p offsets ds) : ∀ q ∈ offsets, p ≤ q := by
  induction h with
  | ended => simp
  | turn hFirst _ ih =>
    have hLater := (move_of_turn? hFirst).lt
    rw [List.forall_mem_cons]
    refine ⟨le_rfl, ?_⟩
    intro q hq
    have hRest := ih q hq
    omega

theorem increasing (h : Run document p offsets ds) : offsets.Pairwise (· < ·) := by
  induction h with
  | ended => exact List.pairwise_singleton _ _
  | turn hFirst hRest ih =>
    have hLater := (move_of_turn? hFirst).lt
    refine List.pairwise_cons.mpr ⟨?_, ih⟩
    intro q hq
    exact hLater.trans_le (hRest.le_of_mem q hq)

/-- Every member is cut out at the offset of its turn, or behind. -/
theorem isMember_of_mem (h : Run document p offsets ds) :
    ∀ d ∈ ds, p ≤ d.start ∧ ∃ nameAt braceAt, IsMember document d nameAt braceAt := by
  induction h with
  | ended => simp
  | turn hFirst _ ih =>
    have hMove := move_of_turn? hFirst
    have hLater := hMove.lt
    intro d hd
    rcases List.mem_append.mp hd with hd | hd
    · -- the member that the turn itself finds
      rw [Option.mem_toList] at hd
      obtain rfl := hd
      cases hMove with
      | member hStart hMember => exact ⟨hStart.ge, _, _, hMember⟩
    · obtain ⟨hStart, hMember⟩ := ih d hd
      exact ⟨by omega, hMember⟩

/-- Each member ends before the next one starts. -/
theorem apart (h : Run document p offsets ds) : ds.Pairwise fun d e => d.stop < e.start := by
  induction h with
  | ended => exact .nil
  | turn hFirst hRest ih =>
    cases move_of_turn? hFirst with
    -- a turn that finds nothing adds nothing
    | line => exact ih
    | pair => exact ih
    | member =>
      -- the next turn is behind its brace, and so is all that is found from there on
      refine List.pairwise_cons.mpr ⟨?_, ih⟩
      intro e he
      obtain ⟨hStart, -⟩ := hRest.isMember_of_mem e he
      omega

end Run

/-- The scan through a group ends, from whatever offset of whatever document. The offsets of its
turns increase, and its members lie in the document from the start on, apart and in order: each of
them is cut out up to the brace that the search finds for its own. -/
theorem scan_advances (document : Text) (start : Nat) :
    (∃ offsets ds, Run document start offsets ds) ∧
      ∀ offsets ds, Run document start offsets ds →
        ds = members start (document.drop start) ∧ offsets.Pairwise (· < ·) ∧
          ds.Pairwise (fun d e => d.stop < e.start) ∧
          ∀ d ∈ ds, start ≤ d.start ∧ d.start < d.stop ∧ d.stop < document.length ∧
            ∃ nameAt braceAt, IsMember document d nameAt braceAt := by
  refine ⟨exists_run document start, ?_⟩
  intro offsets ds hRun
  refine ⟨hRun.eq_members, hRun.increasing, hRun.apart, ?_⟩
  intro d hd
  obtain ⟨hStart, nameAt, braceAt, hMember⟩ := hRun.isMember_of_mem d hd
  obtain ⟨hLater, hLength⟩ := hMember.bounds
  exact ⟨hStart, hLater, hLength, nameAt, braceAt, hMember⟩

/-- A comment, an interface and two members that share a line, and a line that the document ends
in: no line feed, and no parenthesis that closes the group. -/
def crowdedGroup : Text :=
  ['/', '/', ' ', '{', '\n', 'I', '{', '}'] ++
    Header.spell ['A'] [' '] [] ['"', '}', '"', '}'] ++ Header.spell ['B'] [' '] [] ['}'] ++
    ['\t', 'x']

def firstCrowded : Declaration :=
  ⟨['A'], 8, Header.typeKeyword ++ ' ' :: Header.spell ['A'] [' '] [] ['"', '}', '"', '}'], 20⟩

def secondCrowded : Declaration :=
  ⟨['B'], 21, Header.typeKeyword ++ ' ' :: Header.spell ['B'] [' '] [] ['}'], 30⟩

/-- The theorem at that group. The last turn leads past the end of the document. -/
theorem scan_advances_crowded :
    Run crowdedGroup 0 [0, 5, 8, 21, 31, 34] [firstCrowded, secondCrowded] ∧
      members 0 crowdedGroup = [firstCrowded, secondCrowded] ∧
      firstCrowded.stop < secondCrowded.start ∧
      ∃ nameAt braceAt, IsMember crowdedGroup secondCrowded nameAt braceAt := by
  have hComment : turn? crowdedGroup 0 = some (none, 5) := by decide
  have hPair : turn? crowdedGroup 5 = some (none, 8) := by decide
  have hFirst : turn? crowdedGroup 8 = some (some firstCrowded, 21) := by decide
  have hSecond : turn? crowdedGroup 21 = some (some secondCrowded, 31) := by decide
  have hLine : turn? crowdedGroup 31 = some (none, 34) := by decide
  have hOver : turn? crowdedGroup 34 = none := by decide
  have hRun : Run crowdedGroup 0 [0, 5, 8, 21, 31, 34] [firstCrowded, secondCrowded] :=
    .turn hComment (.turn hPair (.turn hFirst (.turn hSecond (.turn hLine (.ended hOver)))))
  obtain ⟨hMembers, -, hApart, hEach⟩ := (scan_advances crowdedGroup 0).2 _ _ hRun
  obtain ⟨-, -, -, hMember⟩ := hEach secondCrowded (by simp)
  exact ⟨hRun, hMembers.symm, (List.pairwise_cons.mp hApart).1 secondCrowded (by simp), hMember⟩

end FieldHint.Declaration
