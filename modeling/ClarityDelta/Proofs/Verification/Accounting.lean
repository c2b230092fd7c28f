import ClarityDelta.Proofs.Text.Run
import ClarityDelta.Proofs.Verification.Sites

/-!
# Every record has a block of its own

A reader is given texts one after the other. Their lines fall into blocks, one for each record: the
lines since the block before, with a marker among them, the violated property, and the lines that are
taken while its title and its code are looked for. Behind the last block come the lines since then.

`Account` says how the reader stands to the lines read so far: whether a marker is among the lines since
the last block, which state line it knows, and what each record has from its block. One line more keeps
the account, `Account.pass` and `Account.violation`, and so do all lines of a text and all texts.
-/

namespace ClarityDelta.Verification

open Text

/-! ## Texts -/

/-- The lines of texts, one text after the other. -/
def linesOf (texts : List String) : List (List Char) :=
  texts.flatMap fun text => lines text.toList

/-- The lines of texts end with those of the last one. -/
theorem linesOf_concat (texts : List String) (text : String) :
    linesOf (texts ++ [text]) = linesOf texts ++ lines text.toList := by
  rw [linesOf, List.flatMap_append, List.flatMap_singleton, linesOf]

namespace CounterexampleReader

/-- The reader after texts that are given one after the other, and the line number that was too long to
read, if one stopped it. -/
def readTexts (reader : CounterexampleReader) :
    List String → CounterexampleReader × Option LongNumeral
  | [] => (reader, none)
  | text :: texts => match reader.readText text with
    | (after, none) => after.readTexts texts
    | stopped => stopped

/-- Texts that are all read are read one after the other. -/
theorem readTexts_cons_eq_ok {reader after : CounterexampleReader} {text : String}
    {texts : List String} (h : reader.readTexts (text :: texts) = (after, none)) :
    ∃ next, reader.readText text = (next, none) ∧ next.readTexts texts = (after, none) := by
  rw [readTexts] at h
  rcases hread : reader.readText text with ⟨next, _ | long⟩
  · rw [hread] at h
    exact ⟨next, rfl, h⟩
  · rw [hread] at h
    exact absurd (Prod.mk.inj h).2 (Option.some_ne_none long)

/-- Texts that are all read are read in two parts as well. -/
theorem readTexts_append_eq_ok {reader after : CounterexampleReader} {earlier later : List String}
    (h : reader.readTexts (earlier ++ later) = (after, none)) :
    ∃ next, reader.readTexts earlier = (next, none) ∧ next.readTexts later = (after, none) := by
  induction earlier generalizing reader with
  | nil => exact ⟨reader, rfl, h⟩
  | cons text earlier ih =>
    obtain ⟨middle, htext, hrest⟩ := readTexts_cons_eq_ok h
    obtain ⟨next, hearlier, hlater⟩ := ih hrest
    refine ⟨next, ?_, hlater⟩
    rw [readTexts, htext]
    exact hearlier

/-- Records are only added, at the end. -/
theorem records_prefix_readTexts {reader after : CounterexampleReader} {texts : List String}
    (h : reader.readTexts texts = (after, none)) : reader.records <+: after.records := by
  induction texts generalizing reader with
  | nil =>
    obtain ⟨rfl, -⟩ := Prod.mk.inj h
    exact List.prefix_refl _
  | cons text texts ih =>
    obtain ⟨next, htext, hrest⟩ := readTexts_cons_eq_ok h
    have hprefix := records_prefix_read reader (lines text.toList)
    rw [← readText, htext] at hprefix
    exact hprefix.trans (ih hrest)

end CounterexampleReader

/-! ## Blocks -/

/-- The lines from the first marker on. -/
def inside (ls : List (List Char)) : List (List Char) :=
  ls.dropWhile (¬IsMarker ·)

/-- The state lines from the first marker on. -/
def statesIn (ls : List (List Char)) : List StateLine :=
  (inside ls).filterMap fun l => StateLine.find? (trim l)

/-- Without a marker no line is inside. -/
theorem inside_eq_nil {ls : List (List Char)} (h : ¬∃ l ∈ ls, IsMarker l) : inside ls = [] :=
  List.dropWhile_eq_nil_iff.2 fun l hl => decide_eq_true fun hmarker => h ⟨l, hl, hmarker⟩

/-- Behind a marker all further lines are inside. -/
theorem inside_append {ls : List (List Char)} (h : ∃ l ∈ ls, IsMarker l)
    (more : List (List Char)) : inside (ls ++ more) = inside ls ++ more := by
  have hne : ¬(inside ls).isEmpty = true := by
    rw [List.isEmpty_iff, inside, List.dropWhile_eq_nil_iff]
    obtain ⟨l, hl, hmarker⟩ := h
    exact fun hall => of_decide_eq_true (hall l hl) hmarker
  rw [inside, List.dropWhile_append, ← inside, if_neg hne]

/-- One more line inside a block counts when it is a state line. -/
theorem statesIn_concat {ls : List (List Char)} (h : ∃ l ∈ ls, IsMarker l) (l : List Char) :
    statesIn (ls ++ [l]) = statesIn ls ++ (StateLine.find? (trim l)).toList := by
  have hone : [l].filterMap (fun l => StateLine.find? (trim l)) =
      (StateLine.find? (trim l)).toList := by
    cases hstate : StateLine.find? (trim l) with
    | none => exact List.filterMap_cons_none hstate
    | some state => exact List.filterMap_cons_some hstate
  rw [statesIn, inside_append h, List.filterMap_append, hone, ← statesIn]

/-- A marker is no state line. -/
theorem find?_of_isMarker {l : List Char} (h : IsMarker l) : StateLine.find? (trim l) = none := by
  rw [h]
  decide

/-- Neither a line outside of blocks nor the first marker counts as a state line, and inside a block only
state lines do. -/
theorem statesIn_concat_of_no_state {ls : List (List Char)} {l : List Char}
    (h : (∃ l ∈ ls, IsMarker l) → StateLine.find? (trim l) = none) :
    statesIn (ls ++ [l]) = statesIn ls := by
  by_cases hopened : ∃ l ∈ ls, IsMarker l
  · rw [statesIn_concat hopened, h hopened, Option.toList_none, List.append_nil]
  · have hinside : inside (ls ++ [l]) = inside [l] := by
      rw [inside, List.dropWhile_append, ← inside, inside_eq_nil hopened, if_pos (by rfl), ← inside]
    rw [statesIn, statesIn, hinside, inside_eq_nil hopened]
    by_cases hmarker : IsMarker l
    · rw [inside, List.dropWhile_cons_of_neg (by simp [hmarker])]
      exact List.filterMap_cons_none (find?_of_isMarker hmarker)
    · rw [inside_eq_nil (by simpa using hmarker)]

/-- A line that is no marker brings none. -/
theorem exists_isMarker_concat_iff {ls : List (List Char)} {l : List Char} (h : ¬IsMarker l) :
    (∃ l' ∈ ls ++ [l], IsMarker l') ↔ ∃ l' ∈ ls, IsMarker l' := by
  simp [h]

/-- The lines that belong to one record: those since the record before, with a marker among them, the
violated property, and those taken while title and code are looked for. -/
structure Block where
  ahead : List (List Char)
  violation : List Char
  taken : List (List Char)
  opened : ∃ l ∈ ahead, IsMarker l
  isViolation : IsViolation violation

/-- What is told by a text for which a placeholder may stand: the placeholder, or a line without the
blanks at its ends. It is not empty, and nothing can be trimmed from it. -/
structure IsTold (ls : List (List Char)) (placeholder told : String) : Prop where
  ne_empty : told ≠ ""
  trimmed_eq : trimmed told = told
  source : told = placeholder ∨ ∃ l ∈ ls, told = String.ofList (trim l)

namespace Block

/-- All lines of a block. -/
def lines (block : Block) : List (List Char) :=
  block.ahead ++ block.violation :: block.taken

/-- The state lines of a block, which come after its first marker. -/
def states (block : Block) : List StateLine :=
  statesIn block.ahead

/-- The block stands in texts, with the given lines before it: its violated property and the lines taken
are lines of one text, and when the text has no title or no code they reach to its end. -/
def StandsIn (texts : List String) (before : List (List Char)) (block : Block) : Prop :=
  ∃ earlier text later front behind, texts = earlier ++ text :: later ∧
    Text.lines text.toList = front ++ block.violation :: (block.taken ++ behind) ∧
    linesOf earlier ++ front = before ++ block.ahead ∧
    ((contents block.taken).length < 2 → behind = [])

/-- The record of a block: title and code are the first contents of the lines taken, line and function
are those of the last state line. -/
structure Tells (block : Block) (states : List StateLine) (record : FailureRecord) : Prop where
  title_eq : record.title = ((contents block.taken)[0]?.map String.ofList).getD "unknown-property"
  failingCode_eq : record.failingCode =
    ((contents block.taken)[1]?.map String.ofList).getD "unknown-failing-code"
  title_told : IsTold block.taken "unknown-property" record.title
  failingCode_told : IsTold block.taken "unknown-failing-code" record.failingCode
  place : (states = [] ∧ record.lineNumber = -1 ∧ record.functionName = "unknown_function") ∨
    ∃ state n, states.getLast? = some state ∧ numeral state.digits = .ok n ∧
      record.lineNumber = n ∧ record.functionName = String.ofList state.function

end Block

/-- A content line, or the placeholder where there is none, tells what is to be told. -/
theorem isTold_contents (ls : List (List Char)) (i : Nat) {placeholder : String}
    (hne : placeholder ≠ "") (htrimmed : trimmed placeholder = placeholder) :
    IsTold ls placeholder (((contents ls)[i]?.map String.ofList).getD placeholder) := by
  cases h : (contents ls)[i]? with
  | none => exact ⟨hne, htrimmed, Or.inl rfl⟩
  | some content =>
    obtain ⟨l, hl, rfl⟩ := List.mem_map.1 (List.mem_of_getElem? h)
    obtain ⟨hl, hcontent⟩ := List.mem_filter.1 hl
    have hblank : isBlankText l = false := by simpa using hcontent
    refine ⟨?_, ?_, Or.inr ⟨l, hl, rfl⟩⟩
    · intro hempty
      exact trim_ne_nil hblank (by simpa using hempty)
    · show String.ofList (trim (String.ofList (trim l)).toList) = String.ofList (trim l)
      rw [String.toList_ofList, trim_trim]

/-- Each block has a marker of its own. -/
theorem length_le_countP_isMarker (blocks : List Block) :
    blocks.length ≤ (blocks.flatMap Block.lines).countP (IsMarker ·) := by
  induction blocks with
  | nil => exact Nat.zero_le _
  | cons block blocks ih =>
    have hopened : 0 < block.ahead.countP (IsMarker ·) :=
      List.countP_pos_iff.2 (by simpa using block.opened)
    rw [List.flatMap_cons, List.countP_append, Block.lines, List.countP_append, List.length_cons]
    omega

namespace CounterexampleReader

/-- The lines taken for a title and a code reach up to the code, and over all lines when there is
none. -/
theorem exists_taken (ls : List (List Char)) :
    ∃ taken, ls = taken ++ (splitContent (splitContent ls).2).2 ∧
      (splitContent ls).1 = (contents taken)[0]? ∧
      (splitContent (splitContent ls).2).1 = (contents taken)[1]? ∧
      ((contents taken).length < 2 → (splitContent (splitContent ls).2).2 = []) := by
  by_cases hcontents : 2 ≤ (contents ls).length
  · obtain ⟨taken, hls, hsplit⟩ := exists_splitContent_twice_append hcontents
    obtain ⟨htitle, hcode⟩ := hsplit []
    rw [List.append_nil] at htitle hcode
    obtain ⟨htaken, htaken'⟩ := splitContent_twice taken
    have hcode' : (splitContent (splitContent ls).2).1 = (contents taken)[1]? := by
      rw [← htaken', hcode]
    refine ⟨taken, hls, htitle.symm.trans htaken, hcode', fun hfew => ?_⟩
    rw [(splitContent_twice ls).2, List.getElem?_eq_getElem (by omega),
      List.getElem?_eq_none (by omega)] at hcode'
    cases hcode'
  · have hnil := splitContent_twice_snd_of_length_lt (Nat.not_le.1 hcontents)
    rw [hnil]
    exact ⟨ls, (List.append_nil ls).symm, (splitContent_twice ls).1, (splitContent_twice ls).2,
      fun _ => rfl⟩

/-- The reader knows the last of the given state lines. -/
def Knows (reader : CounterexampleReader) (states : List StateLine) : Prop :=
  (states = [] ∧ reader.line = none ∧ reader.function = none) ∨
    ∃ state n, states.getLast? = some state ∧ numeral state.digits = .ok n ∧
      reader.line = some n ∧ reader.function = some (String.ofList state.function)

/-- A failure that a reader makes of a block is told by the block. -/
theorem tells_failure {reader : CounterexampleReader} {block : Block} {states : List StateLine}
    (h : reader.Knows states) :
    block.Tells states (reader.failure (contents block.taken)[0]? (contents block.taken)[1]?) where
  title_eq := rfl
  failingCode_eq := rfl
  title_told := isTold_contents _ 0 (by decide) (by decide)
  failingCode_told := isTold_contents _ 1 (by decide) (by decide)
  place := by
    rcases h with ⟨hstates, hline, hfunction⟩ | ⟨state, n, hlast, hn, hline, hfunction⟩
    · refine Or.inl ⟨hstates, ?_, ?_⟩
      · rw [failure, hline]; rfl
      · rw [failure, hfunction]; rfl
    · refine Or.inr ⟨state, n, hlast, hn, ?_, ?_⟩
      · rw [failure, hline]; rfl
      · rw [failure, hfunction]; rfl

/-- How a reader stands to the lines of texts that it has read so far: they fall into the blocks of its
records and the lines since then. -/
structure Account (texts : List String) (past : List (List Char)) (blocks : List Block)
    (since : List (List Char)) (reader : CounterexampleReader) : Prop where
  past_eq : past = blocks.flatMap Block.lines ++ since
  opened_iff : reader.phase ≠ .scanning ↔ ∃ l ∈ since, IsMarker l
  knows : reader.Knows (blocks.flatMap Block.states ++ statesIn since)
  length_eq : blocks.length = reader.records.length
  told : ∀ (i : Nat) record, reader.records[i]? = some record → ∃ earlier block later,
    blocks = earlier ++ block :: later ∧ earlier.length = i ∧
      block.StandsIn texts (earlier.flatMap Block.lines) ∧
      block.Tells ((earlier ++ [block]).flatMap Block.states) record

namespace Account

variable {texts : List String} {past since : List (List Char)} {blocks : List Block}
  {reader next : CounterexampleReader} {l : List Char}

/-- Nothing read so far needs no account. -/
theorem start : Account [] [] [] [] start where
  past_eq := rfl
  opened_iff := by simp [CounterexampleReader.start]
  knows := Or.inl ⟨rfl, rfl, rfl⟩
  length_eq := rfl
  told := nofun

/-- More texts to come do not matter. -/
theorem mono (h : Account texts past blocks since reader) (more : List String) :
    Account (texts ++ more) past blocks since reader where
  past_eq := h.past_eq
  opened_iff := h.opened_iff
  knows := h.knows
  length_eq := h.length_eq
  told := by
    intro i record hrecord
    obtain ⟨earlier, block, later, hblocks, hi, hstands, htells⟩ := h.told i record hrecord
    obtain ⟨before, text, after, front, behind, rfl, hstands⟩ := hstands
    refine ⟨earlier, block, later, hblocks, hi, ?_, htells⟩
    exact ⟨before, text, after ++ more, front, behind, List.append_assoc _ _ _, hstands⟩

/-- A line that makes no record is one of the lines since the last one. -/
theorem concat (h : Account texts past blocks since reader) (l : List Char)
    (hrecords : next.records = reader.records)
    (hopened : next.phase ≠ .scanning ↔ ∃ l' ∈ since ++ [l], IsMarker l')
    (hknows : next.Knows (blocks.flatMap Block.states ++ statesIn (since ++ [l]))) :
    Account texts (past ++ [l]) blocks (since ++ [l]) next where
  past_eq := by rw [h.past_eq, List.append_assoc]
  opened_iff := hopened
  knows := hknows
  length_eq := by rw [hrecords, h.length_eq]
  told := by rw [hrecords]; exact h.told

/-- A line that is passed over while a counterexample is open is no state line. -/
theorem pass (h : Account texts past blocks since reader) (l : List Char) (phase : Phase)
    (hopened : phase ≠ .scanning ↔ ∃ l' ∈ since ++ [l], IsMarker l')
    (hstate : reader.phase ≠ .scanning → StateLine.find? (trim l) = none) :
    Account texts (past ++ [l]) blocks (since ++ [l]) { reader with phase := phase } := by
  refine h.concat l rfl hopened ?_
  rw [statesIn_concat_of_no_state fun hmarker => hstate (h.opened_iff.2 hmarker)]
  exact h.knows

/-- A state line of an open counterexample is the one that is known from then on. -/
theorem state (h : Account texts past blocks since reader) (hopen : reader.phase ≠ .scanning)
    {state : StateLine} {n : Nat} (hstate : StateLine.find? (trim l) = some state)
    (hn : numeral state.digits = .ok n) :
    Account texts (past ++ [l]) blocks (since ++ [l])
      { reader with line := some n, function := some (String.ofList state.function) } := by
  have hmarker := h.opened_iff.1 hopen
  refine h.concat l rfl ?_ (Or.inr ⟨state, n, ?_, hn, rfl, rfl⟩)
  · obtain ⟨l', hl', hmarker⟩ := hmarker
    exact iff_of_true hopen ⟨l', List.mem_append_left [l] hl', hmarker⟩
  · rw [statesIn_concat hmarker, hstate, Option.toList_some, ← List.append_assoc,
      List.getLast?_concat]

/-- A violated property of an open counterexample ends a block, with the lines that are taken for its
title and its code. -/
theorem violation (h : Account texts past blocks since reader) (block : Block)
    (hahead : block.ahead = since)
    (hstands : block.StandsIn texts (blocks.flatMap Block.lines)) :
    Account texts (past ++ block.violation :: block.taken) (blocks ++ [block]) []
      (reader.violated (contents block.taken)[0]? (contents block.taken)[1]?) where
  past_eq := by
    rw [List.flatMap_append, List.flatMap_singleton, Block.lines, h.past_eq, hahead,
      List.append_nil, List.append_assoc]
  opened_iff := by simp [violated]
  knows := by
    have hknows := h.knows
    rw [← hahead] at hknows
    rw [List.flatMap_append, List.flatMap_singleton, statesIn, inside, List.dropWhile_nil,
      List.filterMap_nil, List.append_nil]
    exact hknows
  length_eq := by
    rw [violated, List.length_append, List.length_append, h.length_eq]
    rfl
  told := by
    intro i record hrecord
    rcases Nat.lt_or_ge i reader.records.length with hlt | hge
    · rw [violated, List.getElem?_append_left hlt] at hrecord
      obtain ⟨earlier, block', later, hblocks, htold⟩ := h.told i record hrecord
      refine ⟨earlier, block', later ++ [block], ?_, htold⟩
      rw [hblocks, List.append_assoc, List.cons_append]
    · -- the new block is the one of the last record
      rw [violated, List.getElem?_append_right hge, List.getElem?_singleton] at hrecord
      have hi : i - reader.records.length = 0 := by
        by_contra hne
        rw [if_neg hne] at hrecord
        cases hrecord
      rw [if_pos hi] at hrecord
      obtain rfl := Option.some.inj hrecord
      refine ⟨blocks, block, [], rfl, by rw [h.length_eq]; omega, hstands, ?_⟩
      have hknows := h.knows
      rw [← hahead] at hknows
      rw [List.flatMap_append, List.flatMap_singleton]
      exact tells_failure hknows

/-- The rest of a text keeps the account. -/
theorem read {before : List String} {text : String} {ls : List (List Char)}
    {after : CounterexampleReader} (hread : reader.read ls = (after, none)) :
    ∀ (front since : List (List Char)) (blocks : List Block), lines text.toList = front ++ ls →
      Account (before ++ [text]) (linesOf before ++ front) blocks since reader →
      ∃ blocks' since',
        Account (before ++ [text]) (linesOf (before ++ [text])) blocks' since' after := by
  -- the lines before those that are left to be read are in the account
  fun_induction CounterexampleReader.read reader ls with
  | case1 reader =>
    intro front since blocks hlines h
    obtain ⟨rfl, -⟩ := Prod.mk.inj hread
    rw [List.append_nil] at hlines
    rw [linesOf_concat, hlines]
    exact ⟨blocks, since, h⟩
  | case2 reader l ls line hmarker ih =>
    intro front since blocks hlines h
    rw [List.append_cons] at hlines
    refine ih hread _ (since ++ [l]) blocks hlines ?_
    rw [← List.append_assoc]
    refine h.pass l .inCounterexample ?_ fun _ => find?_of_isMarker hmarker
    exact iff_of_true Phase.noConfusion ⟨l, by simp, hmarker⟩
  | case3 reader l ls line hmarker hscanning ih =>
    intro front since blocks hlines h
    rw [List.append_cons] at hlines
    refine ih hread _ (since ++ [l]) blocks hlines ?_
    rw [← List.append_assoc]
    exact h.pass l reader.phase (h.opened_iff.trans (exists_isMarker_concat_iff hmarker).symm)
      fun hopen => absurd hscanning hopen
  | case4 reader l ls line hmarker hopen state hstate long hlong =>
    exact absurd (Prod.mk.inj hread).2 (Option.some_ne_none long)
  | case5 reader l ls line hmarker hopen state hstate n hn ih =>
    intro front since blocks hlines h
    rw [List.append_cons] at hlines
    refine ih hread _ (since ++ [l]) blocks hlines ?_
    rw [← List.append_assoc]
    exact h.state hopen hstate hn
  | case6 reader l ls line hmarker hopen hstate hviolation title code ih =>
    intro front since blocks hlines h
    obtain ⟨taken, hls, htitle, hcode, hfew⟩ := exists_taken ls
    -- the lines taken belong to the block, so what is left to be read comes behind them
    let block : Block := ⟨since, l, taken, h.opened_iff.1 hopen, startsWith_iff.1 hviolation⟩
    rw [hls] at hlines
    have hstands : block.StandsIn (before ++ [text]) (blocks.flatMap Block.lines) :=
      ⟨before, text, [], front, _, rfl, hlines, h.past_eq, hfew⟩
    have hnext := h.violation block rfl hstands
    rw [← htitle, ← hcode, List.append_assoc] at hnext
    refine ih hread (front ++ l :: taken) [] (blocks ++ [block]) ?_ hnext
    rw [hlines, List.append_assoc]
    rfl
  | case7 reader l ls line hmarker hopen hstate hviolation ih =>
    intro front since blocks hlines h
    rw [List.append_cons] at hlines
    refine ih hread _ (since ++ [l]) blocks hlines ?_
    rw [← List.append_assoc]
    exact h.pass l reader.phase (h.opened_iff.trans (exists_isMarker_concat_iff hmarker).symm)
      fun _ => hstate

/-- More texts keep the account. -/
theorem readTexts {before later : List String} {after : CounterexampleReader}
    (h : Account before (linesOf before) blocks since reader)
    (hread : reader.readTexts later = (after, none)) :
    ∃ blocks' since',
      Account (before ++ later) (linesOf (before ++ later)) blocks' since' after := by
  induction later generalizing before blocks since reader with
  | nil =>
    obtain ⟨rfl, -⟩ := Prod.mk.inj hread
    rw [List.append_nil]
    exact ⟨blocks, since, h⟩
  | cons text later ih =>
    obtain ⟨next, htext, hlater⟩ := readTexts_cons_eq_ok hread
    have hstart : Account (before ++ [text]) (linesOf before ++ []) blocks since reader := by
      rw [List.append_nil]
      exact h.mono [text]
    obtain ⟨blocks', since', hnext⟩ := read htext [] since blocks rfl hstart
    rw [List.append_cons]
    exact ih hnext hlater

/-- There are no more records than markers. -/
theorem length_records_le (h : Account texts past blocks since reader) :
    reader.records.length ≤ past.countP (IsMarker ·) := by
  rw [← h.length_eq, h.past_eq, List.countP_append]
  exact (length_le_countP_isMarker blocks).trans (Nat.le_add_right _ _)

end Account

/-- What is true of a reader that has been given texts one after the other: records were only added at
the end, there are no more of them than markers, and each has a block of its own. -/
structure Accounted (texts : List String) (reader : CounterexampleReader) : Prop where
  extended : ∀ earlier later, texts = earlier ++ later →
    ∃ next, start.readTexts earlier = (next, none) ∧ next.records <+: reader.records
  length_le : reader.records.length ≤ (linesOf texts).countP (IsMarker ·)
  blocks : ∃ blocks since, Account texts (linesOf texts) blocks since reader

/-- No record is made without a block of its own, whatever the texts are and wherever they begin and
end, as long as no line number is too long to be read. -/
theorem readTexts_accounted {texts : List String} {reader : CounterexampleReader}
    (h : start.readTexts texts = (reader, none)) : Accounted texts reader := by
  obtain ⟨blocks, since, haccount⟩ := Account.start.readTexts h
  rw [List.nil_append] at haccount
  refine ⟨?_, haccount.length_records_le, blocks, since, haccount⟩
  rintro earlier later rfl
  obtain ⟨next, hearlier, hlater⟩ := readTexts_append_eq_ok h
  exact ⟨next, hearlier, records_prefix_readTexts hlater⟩

/-- The first text breaks off behind a violated property. In the second one a marker is taken for the
code, so that the violated property behind it makes no record. The third one goes on in the block that
the second one has opened. -/
theorem readTexts_accounted_threeTexts :
    let texts := [
      "[Counterexample]\nState 1 file a.clar line 3 function f thread 0\nViolated property:\n",
      "Violated property:\nx\n[Counterexample]\nViolated property:\n  assertion \n" ++
        "[Counterexample]\nViolated property:\ny\n[Counterexample]\n" ++
        "State 2 file b.clar line 9 function g thread 0",
      "Violated property:\ndivision by zero\n\n(/ u1 u0)"]
    let reader : CounterexampleReader := ⟨.scanning, some 9, some "g",
      [⟨"f", 3, "unknown-property", "unknown-failing-code"⟩,
        ⟨"f", 3, "assertion", "[Counterexample]"⟩, ⟨"g", 9, "division by zero", "(/ u1 u0)"⟩]⟩
    start.readTexts texts = (reader, none) ∧ Accounted texts reader ∧
      (linesOf texts).countP (IsMarker ·) = 4 := by
  intro texts reader
  have hread : start.readTexts texts = (reader, none) := by decide +kernel
  exact ⟨hread, readTexts_accounted hread, by decide +kernel⟩

end CounterexampleReader

end ClarityDelta.Verification
