import ClarityDelta.Config.ItemList
import ClarityDelta.Proofs.Text.Lines
import ClarityDelta.Proofs.Text.Run

/-!
# Written items

However a list of items is written, with whatever commas, line feeds and blanks around them, it is read
as it is, as long as there is a comma or a line feed between two items. What is read of any text can in
turn be written with commas and read again: `itemList_written`. The proof reads a text from left to
right: padding in front of it counts for nothing, `itemsOf_padding`, and an item ends at the first comma
or line feed behind it, `itemsOf_open_append`.
-/

namespace ClarityDelta.Config

open Text

/-! ## What is written -/

/-- A character that ends an item. -/
def endsItem (c : Char) : Bool :=
  c = ',' || c = '\n'

/-- A character that may stand around items. -/
def isPadding (c : Char) : Bool :=
  endsItem c || isBlank c

/-- An item that is read as it is: not empty, without blanks at its ends, and without the characters
that end an item. -/
def IsItem (item : String) : Prop :=
  item ≠ "" ∧ trimmed item = item ∧ ∀ c ∈ item.toList, endsItem c = false

instance (item : String) : Decidable (IsItem item) :=
  have : Decidable (∀ c ∈ item.toList, endsItem c = false) := List.decidableBAll _ _
  inferInstanceAs (Decidable (item ≠ "" ∧ trimmed item = item ∧ ∀ c ∈ item.toList, endsItem c = false))

/-- Items written one after another, each with a gap behind it, and a gap in front of them all. -/
def written (front : List Char) : List (String × List Char) → List Char
  | [] => front
  | (item, gap) :: rest => front ++ (item.toList ++ written gap rest)

/-- The gaps are padding, and something ends an item in each one between two items. -/
structure Spaced (front : List Char) (entries : List (String × List Char)) : Prop where
  padding : ∀ gap ∈ front :: entries.map Prod.snd, ∀ c ∈ gap, isPadding c = true
  ended : ∀ gap ∈ (entries.map Prod.snd).dropLast, ∃ c ∈ gap, endsItem c = true

/-- Padding that ends no item is blank. -/
theorem isBlank_of_padding {c : Char} (h : isPadding c = true) (hends : endsItem c = false) :
    isBlank c = true := by
  rwa [isPadding, hends, Bool.false_or] at h

/-! ## One piece -/

/-- The item that a piece of a text is, none when it is blank. -/
def pieceItem? (piece : List Char) : Option String :=
  if isBlankText piece then none else some (String.ofList (trim piece))

/-- A blank in front of a piece does not change its item. -/
theorem pieceItem?_blank_cons {c : Char} (hc : isBlank c = true) (piece : List Char) :
    pieceItem? (c :: piece) = pieceItem? piece := by
  have htrim : trim (c :: piece) = trim piece := by
    rw [trim, trimStart, List.dropWhile_cons_of_pos hc, ← trimStart, ← trim]
  rw [pieceItem?, pieceItem?, htrim, isBlankText, List.all_cons, hc, Bool.true_and, ← isBlankText]

/-- A blank behind a piece does not change its item. -/
theorem pieceItem?_append_blank {c : Char} (hc : isBlank c = true) (piece : List Char) :
    pieceItem? (piece ++ [c]) = pieceItem? piece := by
  have hblank : isBlankText (piece ++ [c]) = isBlankText piece := by
    simp [isBlankText, hc]
  rw [pieceItem?, pieceItem?, hblank]
  split
  · rfl
  · next hsome =>
    -- what is left in front is not empty, so the blank stands behind it and is trimmed
    have hstart : trimStart (piece ++ [c]) = trimStart piece ++ [c] := by
      rw [trimStart, List.dropWhile_append, if_neg, ← trimStart]
      rw [List.isEmpty_iff, List.dropWhile_eq_nil_iff]
      exact fun hall => hsome (List.all_eq_true.mpr hall)
    rw [trim, hstart, trimEnd, List.reverse_append, List.reverse_singleton, List.singleton_append,
      List.dropWhile_cons_of_pos hc, ← trimEnd, ← trim]

/-- Blanks behind a piece do not change its item. -/
theorem pieceItem?_append_blanks {gap : List Char} (hgap : ∀ c ∈ gap, isBlank c = true)
    (piece : List Char) : pieceItem? (piece ++ gap) = pieceItem? piece := by
  induction gap generalizing piece with
  | nil => rw [List.append_nil]
  | cons c gap ih =>
    obtain ⟨hc, hgap⟩ := List.forall_mem_cons.mp hgap
    rw [List.append_cons, ih hgap, pieceItem?_append_blank hc]

/-- An item that stands alone is the item of its piece. -/
theorem pieceItem?_item {item : String} (h : IsItem item) : pieceItem? item.toList = some item := by
  obtain ⟨hne, htrimmed, -⟩ := h
  have hsome : isBlankText item.toList ≠ true := by
    intro hblank
    have hnil : item.toList.dropWhile isBlank = [] :=
      List.dropWhile_eq_nil_iff.mpr (List.all_eq_true.mp hblank)
    rw [trimmed, trim, trimStart, hnil] at htrimmed
    exact hne htrimmed.symm
  rw [pieceItem?, if_neg hsome]
  exact congrArg some htrimmed

/-! ## A text from left to right -/

/-- A line feed as a comma. -/
def asComma (c : Char) : Char :=
  if c = '\n' then ',' else c

/-- Just the characters that end an item are taken for commas. -/
theorem asComma_eq_iff {c : Char} : asComma c = ',' ↔ endsItem c = true := by
  rw [asComma, endsItem]
  split <;> simp_all

/-- A character that ends no item is taken as it is. -/
theorem asComma_of_endsItem {c : Char} (h : endsItem c = false) : asComma c = c := by
  rw [asComma, if_neg]
  rintro rfl
  cases h

/-- The items of a text. -/
def itemsOf (cs : List Char) : List String :=
  (splitAt ',' (cs.map asComma)).filterMap pieceItem?

/-- The items of a text are those of its characters. -/
theorem itemList_eq (s : String) : itemList s = itemsOf s.toList := rfl

/-- Without characters there are no items. -/
theorem itemsOf_nil : itemsOf [] = [] := rfl

/-- Items behind a comma or a line feed are items of their own. -/
theorem itemsOf_append_ends {c : Char} (hc : endsItem c = true) (cs ds : List Char) :
    itemsOf (cs ++ c :: ds) = itemsOf cs ++ itemsOf ds := by
  rw [itemsOf, List.map_append, List.map_cons, asComma_eq_iff.mpr hc, splitAt_append_separator,
    List.filterMap_append, ← itemsOf, ← itemsOf]

/-- A text without commas and line feeds is one item at most. -/
theorem itemsOf_of_open {cs : List Char} (h : ∀ c ∈ cs, endsItem c = false) :
    itemsOf cs = (pieceItem? cs).toList := by
  have hmap : cs.map asComma = cs :=
    (List.map_congr_left fun c hc => asComma_of_endsItem (h c hc)).trans (List.map_id cs)
  have hcomma : ',' ∉ cs := fun hmem => absurd (h ',' hmem) (by decide)
  rw [itemsOf, hmap, splitAt_of_not_mem hcomma]
  cases hpiece : pieceItem? cs <;> simp [hpiece]

/-- Padding in front of a text counts for nothing. -/
theorem itemsOf_padding {gap : List Char} (hgap : ∀ c ∈ gap, isPadding c = true) (cs : List Char) :
    itemsOf (gap ++ cs) = itemsOf cs := by
  induction gap with
  | nil => rfl
  | cons c gap ih =>
    obtain ⟨hc, hgap⟩ := List.forall_mem_cons.mp hgap
    rw [List.cons_append]
    refine Eq.trans ?_ (ih hgap)
    cases hends : endsItem c with
    | true => exact itemsOf_append_ends hends [] (gap ++ cs)
    | false =>
      have hblank := isBlank_of_padding hc hends
      have hne : asComma c ≠ ',' := fun heq => by
        rw [asComma_eq_iff.mp heq] at hends
        cases hends
      -- the blank belongs to the first piece, which is the same item without it
      obtain ⟨piece, rest, hpieces⟩ :=
        List.exists_cons_of_ne_nil (splitAt_ne_nil ',' ((gap ++ cs).map asComma))
      rw [itemsOf, List.map_cons, splitAt_cons hne hpieces, itemsOf, hpieces, List.filterMap_cons,
        List.filterMap_cons, asComma_of_endsItem hends, pieceItem?_blank_cons hblank]

/-- Behind what may still go on as an item, padding with a comma or a line feed ends it. -/
theorem itemsOf_open_append {gap : List Char} (hgap : ∀ c ∈ gap, isPadding c = true)
    (hends : ∃ c ∈ gap, endsItem c = true) {cs : List Char} (hcs : ∀ c ∈ cs, endsItem c = false)
    (ds : List Char) :
    itemsOf (cs ++ (gap ++ ds)) = (pieceItem? cs).toList ++ itemsOf ds := by
  induction gap generalizing cs with
  | nil =>
    obtain ⟨c, hc, -⟩ := hends
    cases hc
  | cons c gap ih =>
    obtain ⟨hc, hgap⟩ := List.forall_mem_cons.mp hgap
    cases hend : endsItem c with
    | true =>
      rw [List.cons_append, itemsOf_append_ends hend, itemsOf_of_open hcs, itemsOf_padding hgap]
    | false =>
      have hlater : ∃ d ∈ gap, endsItem d = true := by
        obtain ⟨d, hd, hdend⟩ := hends
        rcases List.mem_cons.mp hd with rfl | hd
        · rw [hend] at hdend
          cases hdend
        · exact ⟨d, hd, hdend⟩
      have hopen : ∀ d ∈ cs ++ [c], endsItem d = false :=
        List.forall_mem_append.mpr ⟨hcs, List.forall_mem_singleton.mpr hend⟩
      rw [List.cons_append, List.append_cons, ih hgap hlater hopen,
        pieceItem?_append_blank (isBlank_of_padding hc hend)]

/-- Padding at the end of a text, behind what may still go on as an item. -/
theorem itemsOf_open_padding {gap : List Char} (hgap : ∀ c ∈ gap, isPadding c = true)
    {cs : List Char} (hcs : ∀ c ∈ cs, endsItem c = false) :
    itemsOf (cs ++ gap) = (pieceItem? cs).toList := by
  by_cases hends : ∃ c ∈ gap, endsItem c = true
  · have hrest := itemsOf_open_append hgap hends hcs []
    rwa [List.append_nil, itemsOf_nil, List.append_nil] at hrest
  · have hopen : ∀ c ∈ gap, endsItem c = false := fun c hc =>
      Bool.eq_false_iff.mpr fun hend => hends ⟨c, hc, hend⟩
    have hblank : ∀ c ∈ gap, isBlank c = true := fun c hc => isBlank_of_padding (hgap c hc) (hopen c hc)
    rw [itemsOf_of_open (List.forall_mem_append.mpr ⟨hcs, hopen⟩), pieceItem?_append_blanks hblank]

/-! ## Written and read -/

/-- What stands in front of the first item stands in front of all. -/
theorem written_eq_append (front : List Char) (entries : List (String × List Char)) :
    written front entries = front ++ written [] entries := by
  cases entries with
  | nil => exact (List.append_nil front).symm
  | cons entry rest => rfl

/-- Items that are written are read. -/
theorem itemsOf_written {front : List Char} {entries : List (String × List Char)}
    (hitems : ∀ entry ∈ entries, IsItem entry.1) (hspaced : Spaced front entries) :
    itemsOf (written front entries) = entries.map Prod.fst := by
  induction entries generalizing front with
  | nil =>
    have hfront := hspaced.padding front List.mem_cons_self
    rw [written, ← List.append_nil front, itemsOf_padding hfront]
    rfl
  | cons entry rest ih =>
    obtain ⟨item, gap⟩ := entry
    obtain ⟨hitem, hrest⟩ := List.forall_mem_cons.mp hitems
    obtain ⟨hfront, hgaps⟩ := List.forall_mem_cons.mp hspaced.padding
    have hgap := hgaps gap List.mem_cons_self
    have hpiece : pieceItem? item.toList = some item := pieceItem?_item hitem
    rw [written, itemsOf_padding hfront, List.map_cons]
    cases rest with
    | nil =>
      rw [written, itemsOf_open_padding hgap hitem.2.2, hpiece]
      rfl
    | cons next rest =>
      have hends := hspaced.ended gap List.mem_cons_self
      have hbehind : Spaced [] (next :: rest) := by
        refine ⟨List.forall_mem_cons.mpr ⟨List.forall_mem_nil _, ?_⟩, ?_⟩
        · exact fun g hg => hgaps g (List.mem_cons_of_mem gap hg)
        · exact fun g hg => hspaced.ended g (List.mem_cons_of_mem gap hg)
      rw [written_eq_append, itemsOf_open_append hgap hends hitem.2.2, hpiece, ih hrest hbehind]
      rfl

/-- What is read of a text are items. -/
theorem isItem_of_mem_itemList {s item : String} (h : item ∈ itemList s) : IsItem item := by
  obtain ⟨piece, hpiece, hsome⟩ := List.mem_filterMap.mp (itemList_eq s ▸ h)
  rw [pieceItem?] at hsome
  split at hsome
  · cases hsome
  · next hcontent =>
    obtain rfl := Option.some.inj hsome
    refine ⟨?_, ?_, fun c hc => ?_⟩
    · rw [Ne, ← String.toList_inj, String.toList_ofList]
      exact trim_ne_nil (Bool.eq_false_iff.mpr hcontent)
    · rw [trimmed, String.toList_ofList, trim_trim]
    · rw [String.toList_ofList] at hc
      have hmem : c ∈ piece := by
        obtain ⟨front, back, hcut, -⟩ := exists_eq_trim piece
        rw [hcut]
        exact List.mem_append_right _ (List.mem_append_left _ hc)
      obtain ⟨d, -, rfl⟩ := List.mem_map.mp (mem_of_mem_splitAt hpiece hmem)
      have hcomma : asComma d ≠ ',' := fun heq => not_mem_of_mem_splitAt hpiece (heq ▸ hmem)
      have hend : endsItem d = false := Bool.eq_false_iff.mpr fun hd => hcomma (asComma_eq_iff.mpr hd)
      rwa [asComma_of_endsItem hend]

/-- Items joined by commas are read as they are. -/
theorem itemsOf_intercalate {items : List String} (h : ∀ item ∈ items, IsItem item) :
    itemsOf (",".intercalate items).toList = items := by
  induction items with
  | nil => rfl
  | cons item rest ih =>
    obtain ⟨hitem, hrest⟩ := List.forall_mem_cons.mp h
    have hone : itemsOf item.toList = [item] := by
      rw [itemsOf_of_open hitem.2.2, pieceItem?_item hitem]
      rfl
    cases rest with
    | nil => rw [String.intercalate_singleton, hone]
    | cons next rest =>
      have hjoin : (",".intercalate (item :: next :: rest)).toList =
          item.toList ++ ',' :: (",".intercalate (next :: rest)).toList := by
        rw [String.intercalate_cons_cons, String.toList_append, String.toList_append,
          List.append_assoc]
        rfl
      rw [hjoin, itemsOf_append_ends (by decide), hone, ih hrest]
      rfl

/-- Items are read as they are, however they are written with something that ends an item between them.
What is read of any text is read again of its items joined by commas. -/
theorem itemList_written :
    (∀ front entries, (∀ entry ∈ entries, IsItem entry.1) → Spaced front entries →
      itemList (String.ofList (written front entries)) = entries.map Prod.fst) ∧
    ∀ s, itemList (",".intercalate (itemList s)) = itemList s := by
  refine ⟨fun front entries hitems hspaced => ?_, fun s => ?_⟩
  · rw [itemList_eq, String.toList_ofList, itemsOf_written hitems hspaced]
  · rw [itemList_eq (",".intercalate _), itemsOf_intercalate fun item => isItem_of_mem_itemList]

/-- Three items with all kinds of gaps. -/
def threeDirectories : List (String × List Char) :=
  [("contracts", "\u00A0,, \n".toList), ("lib dir", "\t\n".toList), ("extra", ",\r\n ".toList)]

/-- Three directories, written with commas, line ends and blanks around them, are read back as three
items. -/
theorem itemList_written_threeDirectories :
    (∀ entry ∈ threeDirectories, IsItem entry.1) ∧ Spaced " ,".toList threeDirectories ∧
      itemList " ,contracts\u00A0,, \nlib dir\t\nextra,\r\n " = ["contracts", "lib dir", "extra"] ∧
      itemList "contracts,lib dir,extra" = ["contracts", "lib dir", "extra"] := by
  have hitems : ∀ entry ∈ threeDirectories, IsItem entry.1 := by decide +kernel
  have hpadding : (" ,".toList :: threeDirectories.map Prod.snd).all (·.all isPadding) = true := by
    decide +kernel
  have hended : ((threeDirectories.map Prod.snd).dropLast).all (·.any endsItem) = true := by
    decide +kernel
  have hspaced : Spaced " ,".toList threeDirectories := by
    simp only [List.all_eq_true, List.any_eq_true] at hpadding hended
    exact ⟨hpadding, hended⟩
  have htext : String.ofList (written " ,".toList threeDirectories) =
      " ,contracts\u00A0,, \nlib dir\t\nextra,\r\n " := by decide +kernel
  have hread : itemList " ,contracts\u00A0,, \nlib dir\t\nextra,\r\n " =
      ["contracts", "lib dir", "extra"] := by
    rw [← htext]
    exact itemList_written.1 _ _ hitems hspaced
  have hjoined := itemList_written.2 " ,contracts\u00A0,, \nlib dir\t\nextra,\r\n "
  rw [hread] at hjoined
  exact ⟨hitems, hspaced, hread, hjoined⟩

end ClarityDelta.Config
