import FieldHint.Proofs.Body.Remark
import FieldHint.Proofs.Brace.Code
import FieldHint.Proofs.Declaration.Comment
import FieldHint.Proofs.Declaration.Group

/-!
# Declarations — the members of a group

A group holds blank lines, comments, specifications on one line, and specifications with a brace
pair, over several lines or on one. Its struct members are found in order, each with its name, the
offset where its line starts and its text, and what documents it are the comment lines right above
it. The scan goes line by line, but jumps over brace pairs and goes on in the middle of a line; the
comment is looked up in the lines above the offset that the scan has got to, so both have to agree
where the items start.

* `Item.members_append` — the scan over one item;
* `Item.commented` — the comment lines above the item behind it;
* `documented_members_append` — so it goes on over any items;
* `documented_members_group` — the members of a group and their documentation.

Comments in a body are line comments. A block comment is read as code: `members_block_comment` has a
brace in one that ends the body.
-/

namespace FieldHint

/-! ## Lines that are no comments -/

namespace Comment

variable {t u : Text} {c : Char}

/-- Whether a line is a comment is settled in front of any solid character but a slash. -/
theorem opens_strip_append_cons (hSolid : Text.isBlank c = false) (hSlash : c ≠ '/') (t u : Text) :
    opens (Text.strip (t ++ c :: u)) = opens (Text.stripStart t) := by
  rw [Text.strip, Text.stripStart, Text.dropWhile_append_cons hSolid,
    Text.stripEnd_append_cons hSolid, opens, opens, Bool.eq_iff_iff, List.isPrefixOf_iff_prefix,
    List.isPrefixOf_iff_prefix, Text.prefix_append_cons_iff (by simp [mark, hSlash]),
    Text.stripStart]

theorem opens_of_not_infix (h : ¬ mark <:+: t) : opens (Text.stripStart t) = false := by
  by_contra hOpens
  have hPrefix := List.isPrefixOf_iff_prefix.mp (Bool.eq_true_of_not_eq_false hOpens)
  exact h (hPrefix.isInfix.trans (List.dropWhile_suffix _).isInfix)

end Comment

namespace Declaration

variable {code front body t u : Text} {block : List Text} {r : Remark}

/-- The last line of a brace pair is no comment, on whichever line the pair starts. -/
theorem not_opens_last_line (hNewline : '\n' ∉ front) (hMark : ¬ Comment.mark <:+: front)
    (hBody : Brace.Code false false body) (hEnd : '\n' ∉ t)
    (hFeeds : Text.BreaksAtFeeds (front ++ '{' :: (body ++ '}' :: (t ++ ['\n'])))) :
    ∀ line ∈ (Text.lines (front ++ '{' :: (body ++ '}' :: (t ++ ['\n'])))).getLast?,
      Comment.opens (Text.strip line) = false := by
  by_cases hLines : '\n' ∈ body
  · -- of several lines, the last one starts in the body
    obtain ⟨a, b, rfl, hb⟩ := Text.exists_last_line hLines
    have hSplit : front ++ '{' :: (a ++ '\n' :: b ++ '}' :: (t ++ ['\n'])) =
        front ++ '{' :: a ++ '\n' :: (b ++ '}' :: t ++ '\n' :: []) := by simp
    have hOne : ∀ c ∈ b ++ '}' :: t, Text.isBreak c = false := by
      refine hFeeds.one_line ?_ (by simp [hb, hEnd])
      rw [hSplit]
      exact List.IsInfix.subset ⟨front ++ '{' :: a ++ ['\n'], ['\n'], by simp⟩
    intro line hLine
    rw [hSplit, Text.lines_append_newline, Text.lines_of_line hOne, Text.lines,
      List.getLast?_concat, Option.mem_some_iff] at hLine
    rw [← hLine, Comment.opens_strip_append_cons (by decide) (by decide)]
    exact hBody.not_opens_last_line hb
  · -- a single line starts with the code in front of the brace
    have hSplit : front ++ '{' :: (body ++ '}' :: (t ++ ['\n'])) =
        front ++ '{' :: (body ++ '}' :: t) ++ '\n' :: [] := by simp
    have hOne : ∀ c ∈ front ++ '{' :: (body ++ '}' :: t), Text.isBreak c = false := by
      refine hFeeds.one_line ?_ (by simp [hNewline, hLines, hEnd])
      rw [hSplit]
      exact List.subset_append_left _ _
    intro line hLine
    rw [hSplit, Text.lines_of_line hOne, Text.lines, List.getLast?_singleton,
      Option.mem_some_iff] at hLine
    rw [← hLine, Comment.opens_strip_append_cons (by decide) (by decide)]
    exact Comment.opens_of_not_infix hMark

/-! ## Lines that close no group -/

theorem closesGroup_of_prefix (h : t <+: u) (ht : closesGroup t = true) : closesGroup u = true := by
  obtain ⟨v, rfl⟩ := h
  rw [closesGroup_iff] at ht ⊢
  have hNe : t.dropWhile Text.isBlank ≠ [] := by
    intro hEmpty
    rw [Text.stripStart, hEmpty] at ht
    simp at ht
  rw [Text.stripStart, List.dropWhile_append, if_neg (by simpa using hNe),
    List.head?_append_of_ne_nil _ hNe]
  exact ht

/-- What is left of a line when its comment is cut off reaches no further than the comment mark. -/
theorem cut_remark_isPrefix (code : Text) (r : Remark) :
    Comment.cut (code ++ r.text) <+: code ++ (r.pad ++ Comment.mark) := by
  obtain ⟨pad, comment⟩ := r
  cases comment with
  | none =>
    have hWhole : Comment.cut (code ++ (pad ++ [])) <+: code ++ (pad ++ []) :=
      Text.before_isPrefix Comment.mark _
    refine hWhole.trans ?_
    rw [List.append_nil, ← List.append_assoc]
    exact List.prefix_append _ _
  | some said =>
    have hSplit : code ++ (pad ++ '/' :: '/' :: said) = code ++ (pad ++ Comment.mark) ++ said := by
      simp [Comment.mark]
    show Comment.cut (code ++ (pad ++ '/' :: '/' :: said)) <+: _
    rw [hSplit, Comment.cut, Text.before_append_of_found ⟨code ++ pad, [], by simp⟩]
    exact Text.before_isPrefix Comment.mark _

/-- A remark does not close a group. -/
theorem closesGroup_remark (hr : r.WellFormed) (hCode : closesGroup code = false) :
    closesGroup (code ++ (r.pad ++ Comment.mark)) = false := by
  rw [Bool.eq_false_iff, Ne, closesGroup_iff] at hCode ⊢
  rw [Text.stripStart] at hCode ⊢
  rw [List.dropWhile_append]
  -- the line starts with the mark, or with the code
  split
  · rw [Text.dropWhile_run hr.pad.isBlank (by rintro _ ⟨⟩; decide)]
    simp [Comment.mark]
  · next hNe =>
    rw [List.head?_append_of_ne_nil _ (by simpa using hNe)]
    exact hCode

/-- Code without a brace is passed with the remark behind it. -/
theorem members_remark (start : Nat) (hLine : '\n' ∉ code) (hBrace : '{' ∉ code)
    (hCode : closesGroup code = false) (hr : r.WellFormed) (u : Text) :
    members start (code ++ r.text ++ '\n' :: u) =
      members (start + (code ++ r.text ++ ['\n']).length) u := by
  -- what the scan looks at goes no further than the comment mark
  have hCut := cut_remark_isPrefix code r
  have hNoLine : '\n' ∉ code ++ r.text := by simp [hLine, hr.no_newline]
  have hNoBrace : '{' ∉ Comment.cut (code ++ r.text) := by
    intro hMem
    have hPad : '{' ∉ r.pad := hr.pad.not_mem (by decide)
    simpa [hBrace, hPad, Comment.mark] using hCut.subset hMem
  have hOpen : ¬ closesGroup (Comment.cut (code ++ r.text)) = true := by
    intro hCloses
    have hAll := closesGroup_of_prefix hCut hCloses
    rw [closesGroup_remark hr hCode] at hAll
    exact Bool.false_ne_true hAll
  rw [members_line start hNoLine hNoBrace, if_neg hOpen]

/-- So is what follows a brace pair on its line. -/
theorem members_rest_of_line (start : Nat) (hr : r.WellFormed) (u : Text) :
    members start (r.text ++ '\n' :: u) = members (start + (r.text ++ ['\n']).length) u := by
  have hEmpty : closesGroup [] = false := rfl
  exact members_remark start List.not_mem_nil List.not_mem_nil hEmpty hr u

/-! ## Items -/

/-- What stands in a group. -/
inductive Item
  -- a blank line, a comment, or a specification without a brace
  | line (code : Text) (remark : Remark)
  -- a specification with a brace pair that is no struct, such as an interface
  | braced (lead body : Text) (remark : Remark)
  | struct (indent name gap gap' body : Text) (remark : Remark)

namespace Item

/-- The item as it is written. -/
def text : Item → Text
  | line code remark => code ++ remark.text ++ ['\n']
  | braced lead body remark => lead ++ '{' :: (body ++ '}' :: (remark.text ++ ['\n']))
  | struct indent name gap gap' body remark =>
    indent ++ Header.spell name gap gap' (body ++ '}' :: (remark.text ++ ['\n']))

/-- The struct that the item at an offset declares. -/
def found? (start : Nat) : Item → Option Declaration
  | struct indent name gap gap' body _ =>
    some ⟨name, start, Header.typeKeyword ++ ' ' :: Header.spell name gap gap' (body ++ ['}']),
      start + (indent ++ Header.spell name gap gap' body).length⟩
  | _ => none

/-- The block of comment lines behind the item, given the one before it: a comment line goes on with
it, anything else ends it. -/
def blockBehind (block : List Text) : Item → List Text
  | line code remark =>
    if Comment.opens (Text.strip (code ++ remark.text)) then block ++ [code ++ remark.text] else []
  | _ => []

/-- The parts of the item are what they are meant to be. Bodies are code with balanced braces, in
which no raw string spans lines; block comments are comments in them if `blocks` says so. -/
def Parts (blocks : Bool) : Item → Prop
  | line code remark =>
    ('\n' ∉ code ∧ '{' ∉ code) ∧ closesGroup code = false ∧ remark.WellFormed
  | braced lead body remark =>
    IsLead lead ∧ closesGroup lead = false ∧ Brace.Code false blocks body ∧ remark.WellFormed
  | struct indent name gap gap' body remark =>
    (∀ c ∈ indent, Text.isSpacing c = true) ∧ Header.Words Text.isSpacing name gap gap' ∧
      Brace.Code false blocks body ∧ remark.WellFormed

/-- The item is made of its parts, and its lines end with line feeds only. -/
structure WellFormed (blocks : Bool) (i : Item) : Prop where
  parts : i.Parts blocks
  feeds : i.text.BreaksAtFeeds

variable {i : Item}

/-- A struct stands at the offset of its item. -/
theorem start_of_found? {start : Nat} {d : Declaration} (h : i.found? start = some d) :
    d.start = start := by
  cases i with
  | line => simp [found?] at h
  | braced => simp [found?] at h
  | struct =>
    rw [found?, Option.some_inj] at h
    rw [← h]

/-- The scan over an item finds its struct, if it is one, and goes on behind the item. -/
theorem members_append (hi : i.WellFormed false) (start : Nat) (u : Text) :
    members start (i.text ++ u) =
      (i.found? start).toList ++ members (start + i.text.length) u := by
  obtain ⟨hParts, -⟩ := hi
  cases i with
  | line code remark =>
    obtain ⟨⟨hLine, hBrace⟩, hCode, hr⟩ := hParts
    show members start (code ++ remark.text ++ ['\n'] ++ u) = _
    rw [List.append_assoc, List.singleton_append, members_remark start hLine hBrace hCode hr]
    rfl
  | braced lead body remark =>
    obtain ⟨hLead, hCloses, hBody, hr⟩ := hParts
    have hSplit : text (.braced lead body remark) ++ u =
        lead ++ '{' :: (body ++ '}' :: (remark.text ++ '\n' :: u)) := by simp [text]
    have hLength : (lead ++ '{' :: (body ++ ['}'])).length + (remark.text ++ ['\n']).length =
        (text (.braced lead body remark)).length := by
      simp only [text, List.length_append, List.length_cons, List.length_nil]
      omega
    -- the pair, and then the rest of its last line
    rw [hSplit, members_braced start hLead hBody.isBody, if_neg (by simp [hCloses]),
      members_rest_of_line _ hr, Nat.add_assoc, hLength]
    rfl
  | struct indent name gap gap' body remark =>
    obtain ⟨hIndent, hWords, hBody, hr⟩ := hParts
    have hSplit : text (.struct indent name gap gap' body remark) ++ u =
        indent ++ Header.spell name gap gap' (body ++ '}' :: (remark.text ++ '\n' :: u)) := by
      simp [text, Header.spell]
    have hLength : (indent ++ Header.spell name gap gap' (body ++ ['}'])).length +
        (remark.text ++ ['\n']).length =
          (text (.struct indent name gap gap' body remark)).length := by
      simp only [text, Header.spell, List.length_append, List.length_cons, List.length_nil]
      omega
    rw [hSplit, members_member start hIndent hWords hBody.isBody, members_rest_of_line _ hr,
      Nat.add_assoc, hLength]
    rfl

/-- Behind an item, the block of comment lines is what the item makes of the one before it. -/
theorem commented (hi : i.WellFormed false) (h : Commented t block) :
    Commented (t ++ i.text) (i.blockBehind block) := by
  obtain ⟨hParts, hFeeds⟩ := hi
  cases i with
  | line code remark =>
    obtain ⟨⟨hLine, -⟩, -, hr⟩ := hParts
    have hOne : ∀ c ∈ code ++ remark.text, Text.isBreak c = false :=
      hFeeds.one_line (List.subset_append_left _ _) (by simp [hLine, hr.no_newline])
    show Commented (t ++ (code ++ remark.text ++ ['\n'])) (blockBehind block (.line code remark))
    -- a comment line, or any other line without a brace
    rw [blockBehind]
    split
    · next hOpens => exact h.append_comment ⟨hOne, hOpens⟩
    · next hOpens =>
      refine .append_other h.endsLine List.getLast?_concat fun line hMem => ?_
      rw [Text.lines_of_line hOne, Text.lines, List.getLast?_singleton, Option.mem_some_iff] at hMem
      rw [← hMem]
      exact Bool.eq_false_of_not_eq_true hOpens
  | braced lead body remark =>
    obtain ⟨hLead, -, hBody, hr⟩ := hParts
    have hEnd : (text (.braced lead body remark)).getLast? = some '\n' := by
      simp [text, List.getLast?_append, List.getLast?_cons]
    refine .append_other h.endsLine hEnd ?_
    exact not_opens_last_line hLead.no_newline hLead.no_comment hBody hr.no_newline hFeeds
  | struct indent name gap gap' body remark =>
    obtain ⟨hIndent, hWords, hBody, hr⟩ := hParts
    have hLead := Header.isWordy_lead hIndent hWords
    rw [text, ← Header.lead_append] at hFeeds ⊢
    refine .append_other h.endsLine (by simp [List.getLast?_append, List.getLast?_cons]) ?_
    exact not_opens_last_line hLead.no_newline hLead.no_comment hBody hr.no_newline hFeeds

end Item

/-! ## Interfaces -/

/-- The keyword of interface types. -/
def interfaceKeyword : Text := ['i', 'n', 't', 'e', 'r', 'f', 'a', 'c', 'e']

section
variable {indent name gap gap' : Text}

/-- Behind an indent, a name and a gap stands the word that makes the type. -/
theorem dropWhile_words (hIndent : ∀ c ∈ indent, Text.isSpacing c = true) (hName : Text.IsName name)
    (hGap : ∀ c ∈ gap, Text.isSpacing c = true) (hNe : gap ≠ [])
    (ht : ∀ c ∈ t.head?, Text.isSpacing c = false) :
    (((indent ++ (name ++ (gap ++ t))).dropWhile Text.isSpacing).dropWhile
      Text.isWord).dropWhile Text.isSpacing = t := by
  have hSolid : ∀ c ∈ (name ++ (gap ++ t)).head?, Text.isSpacing c = false := by
    intro c hc
    rw [List.head?_append_of_ne_nil _ hName.ne_nil] at hc
    exact Header.blank_of_isBlank (fun _ => Text.isBlank_of_isSpacing) (hName.head_solid c hc)
  have hEnd : ∀ c ∈ (gap ++ t).head?, Text.isWord c = false := by
    intro c hc
    rw [List.head?_append_of_ne_nil _ hNe] at hc
    exact Text.isWord_of_isBlank (Text.isBlank_of_isSpacing (hGap c (List.mem_of_mem_head? hc)))
  rw [Text.dropWhile_run hIndent hSolid, Text.dropWhile_run hName.chars hEnd,
    Text.dropWhile_run hGap ht]

/-- A name and the keyword make the lead of an interface, which closes no group. -/
theorem isLead_interface (hIndent : ∀ c ∈ indent, Text.isSpacing c = true)
    (hName : Text.IsName name) (hGap : ∀ c ∈ gap, Text.isSpacing c = true) (hNe : gap ≠ [])
    (hGap' : ∀ c ∈ gap', Text.isSpacing c = true) :
    IsLead (indent ++ (name ++ (gap ++ (interfaceKeyword ++ gap')))) ∧
      closesGroup (indent ++ (name ++ (gap ++ (interfaceKeyword ++ gap')))) = false := by
  have hWordy : Header.IsWordy (indent ++ (name ++ (gap ++ (interfaceKeyword ++ gap')))) :=
    .words hIndent hName.chars hGap (by decide) hGap'
  refine ⟨⟨hWordy.no_newline, hWordy.no_brace, hWordy.no_comment, ?_⟩,
    closesGroup_of_isWordy hWordy⟩
  rw [Option.eq_none_iff_forall_ne_some]
  intro h hRead
  obtain ⟨indent', blank, blank', hSplit, hIndent', hWords⟩ := Header.exists_lead_of_summary? hRead
  have hNone := (Header.isWordy_lead hIndent' hWords).no_brace
  obtain ⟨hLead, -⟩ := Text.append_cons_inj_of_not_mem hWordy.no_brace hNone hSplit
  -- the word behind the name would be both keywords
  have hKeywords := congrArg (fun t => ((List.dropWhile Text.isSpacing t).dropWhile
    Text.isWord).dropWhile Text.isSpacing) hLead
  simp only [Header.lead] at hKeywords
  rw [dropWhile_words hIndent hName hGap hNe (by rintro _ ⟨⟩; decide),
    dropWhile_words hIndent' ⟨hWords.name_ne_nil, hWords.isWord_name⟩ hWords.blank_gap
      hWords.gap_ne_nil (by rintro _ ⟨⟩; decide)] at hKeywords
  simp [interfaceKeyword, Header.structKeyword] at hKeywords

end

/-! ## A whole group -/

/-- The struct members among some items, the first of which stands at an offset and behind some
comment lines: each with its documentation. -/
def listed (start : Nat) (block : List Text) : List Item → List (Declaration × Option Text)
  | [] => []
  | i :: items =>
    (i.found? start).toList.map (fun d => (d, Comment.textOf block)) ++
      listed (start + i.text.length) (i.blockBehind block) items

/-- Declarations with the documentation that a document has for them. -/
def documented (document : Text) (ds : List Declaration) : List (Declaration × Option Text) :=
  ds.map fun d => (d, d.doc? document)

variable {items : List Item}

/-- The scan over any items lists their structs and goes on behind the items. -/
theorem documented_members_append (h : Commented t block) (hItems : ∀ i ∈ items, i.WellFormed false)
    (u : Text) :
    documented (t ++ (items.flatMap Item.text ++ u))
        (members t.length (items.flatMap Item.text ++ u)) =
      listed t.length block items ++
        documented (t ++ (items.flatMap Item.text ++ u))
          (members (t ++ items.flatMap Item.text).length u) := by
  -- an item moves the offset and changes the comment block for those behind it
  induction items generalizing t block with
  | nil => simp [listed]
  | cons i items ih =>
    rw [List.forall_mem_cons] at hItems
    obtain ⟨hi, hItems⟩ := hItems
    have hRest := ih (Item.commented hi h) hItems
    have hFound : documented (t ++ (i.text ++ (items.flatMap Item.text ++ u)))
        (i.found? t.length).toList =
          (i.found? t.length).toList.map fun d => (d, Comment.textOf block) := by
      refine List.map_congr_left fun d hd => ?_
      rw [doc?, Item.start_of_found? (Option.mem_toList.mp hd), h.commentAbove_eq]
    have hMap : ∀ (document : Text) (ds ds' : List Declaration),
        documented document (ds ++ ds') = documented document ds ++ documented document ds' :=
      fun _ _ _ => List.map_append
    rw [List.append_assoc t, List.append_assoc t, List.length_append] at hRest
    rw [List.flatMap_cons, List.append_assoc i.text, Item.members_append hi, hMap, hFound, hRest,
      listed, List.append_assoc]

/-- The line that opens a group. -/
def opening : Text := Header.typeKeyword ++ [' ', '(', '\n']

/-- A group, from that line to the one that closes it. -/
def groupText (items : List Item) : Text := opening ++ (items.flatMap Item.text ++ [')', '\n'])

theorem commented_opening (hP : Text.EndsLine t) : Commented (t ++ opening) [] := by
  refine .append_other hP rfl ?_
  have hLines : Text.lines opening = [Header.typeKeyword ++ [' ', '(']] := by decide
  rw [hLines]
  rintro line ⟨⟩
  decide

/-- The members of a group that starts a line, wherever in a document. -/
theorem documented_members_group (hEnds : Text.EndsLine t)
    (hItems : ∀ i ∈ items, i.WellFormed false) (u : Text) :
    documented (t ++ (groupText items ++ u))
        (members (t ++ opening).length ((t ++ (groupText items ++ u)).drop (t ++ opening).length)) =
      listed (t ++ opening).length [] items := by
  have hSplit : t ++ (groupText items ++ u) =
      t ++ opening ++ (items.flatMap Item.text ++ ([')'] ++ '\n' :: u)) := by
    simp [groupText]
  -- the scan ends at the line behind the items
  have hEnd : ∀ start, members start ([')'] ++ '\n' :: u) = [] := by
    intro start
    rw [members_line start (by decide) (by decide), if_pos (by decide)]
  rw [hSplit, List.drop_left, documented_members_append (commented_opening hEnds) hItems, hEnd]
  exact List.append_nil _

/-- An interface, a comment above it that is not that of the struct, braces in comments and in a
string, and code behind the group. -/
def thornyItems : List Item :=
  [.line [] ⟨[], some [' ', 'a', ' ', '{']⟩,
    .braced (['\t'] ++ (['I'] ++ ([' '] ++ (interfaceKeyword ++ [' ']))))
      (['\n', 'F', '(', ')', ' '] ++ '/' :: '/' :: [' ', '}'] ++ '\n' :: []) ⟨[' '], some ['e']⟩,
    .line ['\t'] ⟨[], some [' ', 's']⟩,
    .struct ['\t'] ['P'] [' '] [' ']
      (['\n', 'x', ' ', 'T', ' '] ++ '"' :: ['}'] ++ '"' :: ['\n']) ⟨['\t'], none⟩]

/-- The theorem at a group of them, behind an unfinished one. -/
theorem documented_members_group_thorny :
    Text.EndsLine opening ∧ (∀ i ∈ thornyItems, i.WellFormed false) ∧
      documented (opening ++ (groupText thornyItems ++ ['}']))
          (members (opening ++ opening).length
            ((opening ++ (groupText thornyItems ++ ['}'])).drop (opening ++ opening).length)) =
        [(⟨['P'], 57, "type P struct \x7b\nx T \"\x7d\"\n\x7d".toList, 77⟩, some ['s'])] := by
  have hEnds : Text.EndsLine opening := Or.inr rfl
  have hWords : Header.Words Text.isSpacing ['P'] [' '] [' '] :=
    .of_name (by decide) Text.isSpacing_space
  have hTab : ∀ c ∈ (['\t'] : Text), Text.isSpacing c = true :=
    List.forall_mem_singleton.mpr (by decide)
  have hMethod : Brace.Code false false (['\n', 'F', '(', ')', ' '] ++ ('/' :: '/' :: [' ', '}'] ++
      '\n' :: [])) := .append_plain (by simp) (.comment (by simp) .nil)
  have hField : Brace.Code false false (['\n', 'x', ' ', 'T', ' '] ++ ('"' :: ['}'] ++
      '"' :: (['\n'] ++ []))) :=
    .append_plain (by simp) (.interpreted (.char (by decide) (by decide) .nil) (by simp)
      (.append_plain (by simp) .nil))
  have hItems : ∀ i ∈ thornyItems, i.WellFormed false := by
    simp only [thornyItems, List.forall_mem_cons]
    refine ⟨⟨?_, by decide⟩, ⟨?_, by decide⟩, ⟨?_, by decide⟩, ⟨?_, by decide⟩, by simp⟩
    · exact ⟨by simp, rfl, by decide⟩
    · obtain ⟨hLead, hOpen⟩ := isLead_interface hTab (by decide : Text.IsName ['I'])
        Text.isSpacing_space (by simp) Text.isSpacing_space
      exact ⟨hLead, hOpen, hMethod, by decide⟩
    · exact ⟨by simp, by decide, by decide⟩
    · exact ⟨hTab, hWords, hField, by decide⟩
  refine ⟨hEnds, hItems, ?_⟩
  rw [documented_members_group hEnds hItems]
  decide

/-- A struct with a brace in a block comment. -/
def blockComment : Item := .struct [] ['P'] [' '] [' '] ('/' :: '*' :: ['}'] ++ '*' :: '/' :: []) {}

/-- A brace in a block comment ends the body that it stands in. -/
theorem members_block_comment :
    blockComment.WellFormed true ∧
      documented (groupText [blockComment])
          (members opening.length ((groupText [blockComment]).drop opening.length)) ≠
        listed opening.length [] [blockComment] := by
  have hWords : Header.Words Text.isSpacing ['P'] [' '] [' '] :=
    .of_name (by decide) Text.isSpacing_space
  have hBody : Brace.Code false true ('/' :: '*' :: ['}'] ++ '*' :: '/' :: []) :=
    .block rfl (by decide) .nil
  refine ⟨⟨⟨by simp, hWords, hBody, by decide⟩, by decide⟩, ?_⟩
  decide

end Declaration

end FieldHint
