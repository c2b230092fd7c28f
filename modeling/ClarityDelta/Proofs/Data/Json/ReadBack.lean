import Mathlib.Data.List.Induction
import ClarityDelta.Data.Json.Print
import ClarityDelta.Data.Json.Read
import ClarityDelta.Proofs.Text.Numeral
import ClarityDelta.Proofs.Text.Run

/-!
# Laid out values read back

What the printer lays out, the reader reads back: `readWithin?_pretty`. The reader is followed over
the printed text with anything behind it that may follow a value, from numbers and strings to lists
and objects; the length of the text is always enough to bound its steps. Whole numbers have to be
within the reader's limit, and the names of an object's fields have to differ.
-/

namespace ClarityDelta.Data

open Text

/-- A value that JSON text can hold: no fractions and no scalars without a spelling, whole numbers
within the limit on their digits, and fields with different names. -/
inductive Value.Plain (limit : Option Nat) : Value → Prop
  | null : Plain limit .null
  | bool (b : Bool) : Plain limit (.bool b)
  | integer {n : Int} (h : limit.all ((Text.decimal n.natAbs).length ≤ ·) = true) :
    Plain limit (.integer n)
  | text (s : String) : Plain limit (.text s)
  | list {items : List Value} (h : ∀ item ∈ items, Plain limit item) : Plain limit (.list items)
  | object {fields : Fields} (hnames : (fields.map (·.1)).Nodup)
    (h : ∀ field ∈ fields, Plain limit field.2) : Plain limit (.object fields)

/-- A new name is set behind all others. -/
theorem Fields.set_of_notMem {name : String} {fields : Fields} (value : Value)
    (h : name ∉ fields.map (·.1)) : fields.set name value = fields ++ [(name, value)] := by
  induction fields with
  | nil => rfl
  | cons field fields ih =>
    obtain ⟨key, old⟩ := field
    rw [List.map_cons, List.mem_cons, not_or] at h
    rw [Fields.set, if_neg (Ne.symm h.1), ih h.2, List.cons_append]

/-- Fields with different names are all kept. -/
theorem Fields.ofList_eq_self {fields : Fields} (h : (fields.map (·.1)).Nodup) :
    Fields.ofList fields = fields := by
  induction fields using List.reverseRecOn with
  | nil => rfl
  | append_singleton fields field ih =>
    rw [List.map_append, List.map_singleton, List.nodup_append] at h
    obtain ⟨hfields, -, hfield⟩ := h
    rw [Fields.ofList, List.foldl_append, ← Fields.ofList, ih hfields]
    exact Fields.set_of_notMem field.2 fun hmem =>
      hfield _ hmem _ (List.mem_singleton.mpr rfl) rfl

namespace Json

variable {limit : Option Nat}

/-! ## Numbers -/

/-- The digits below ten are ASCII digits. -/
theorem isAsciiDigit_hexChar : ∀ n < 10, isAsciiDigit (hexChar n) = true := by
  decide

/-- A decimal number is made of ASCII digits. -/
theorem isAsciiDigit_of_mem_decimal {n : Nat} {c : Char} (h : c ∈ decimal n) :
    isAsciiDigit c = true := by
  obtain ⟨digit, hlt, rfl⟩ := exists_hexChar_of_mem_decimal h
  exact isAsciiDigit_hexChar digit hlt

/-- What may follow a value in a laid out text. -/
def IsEnd (rest : List Char) : Prop :=
  ∀ c ∈ rest.head?, c = ',' ∨ c = '\n'

/-- The digits of a number are read up to its end. -/
theorem wholeDigits?_decimal (n : Nat) {rest : List Char} (hrest : IsEnd rest) :
    wholeDigits? (decimal n ++ rest) = some (decimal n, rest) := by
  rcases Nat.eq_zero_or_pos n with rfl | hn
  · rw [decimal]
    rfl
  · obtain ⟨c, cs, hcons, hc⟩ := exists_decimal_eq_cons hn
    have hdigit : isAsciiDigit c = true :=
      isAsciiDigit_of_mem_decimal (n := n) (hcons ▸ List.mem_cons_self)
    have hcut : (decimal n ++ rest).takeWhile isAsciiDigit = decimal n ∧
        (decimal n ++ rest).dropWhile isAsciiDigit = rest := by
      refine takeWhile_dropWhile_iff.mpr ⟨rfl, fun c hc => isAsciiDigit_of_mem_decimal hc, ?_⟩
      intro c hc
      rcases hrest c hc with rfl | rfl <;> decide
    rw [hcons, List.cons_append] at hcut ⊢
    rw [wholeDigits?]
    · rw [if_pos hdigit, digitRun, hcut.1, hcut.2]
    · exact hc

/-- At the end of a word there is no fraction. -/
theorem fraction_of_isEnd {rest : List Char} (hrest : IsEnd rest) : fraction rest = ([], rest) := by
  rw [fraction.eq_def]
  split
  · rcases hrest '.' rfl with h | h <;> exact absurd h (by decide)
  · rfl

/-- At the end of a word there is no exponent. -/
theorem exponent?_of_isEnd {rest : List Char} (hrest : IsEnd rest) :
    exponent? rest = (none, rest) := by
  have hne : ∀ {c : Char} {cs : List Char}, rest = c :: cs → c = ',' ∨ c = '\n' :=
    fun heq => hrest _ (heq ▸ rfl)
  rw [exponent?.eq_def]
  split <;> first | rfl | exact absurd (hne rfl) (by decide)

/-- A number with few enough digits is read back, with its sign. -/
theorem number?_decimal {n : Nat} (hn : limit.all ((decimal n).length ≤ ·) = true) (negative : Bool)
    {rest : List Char} (hrest : IsEnd rest) :
    number? limit negative (decimal n ++ rest) =
      some (.integer (if negative then -(n : Int) else n), rest) := by
  simp only [number?, wholeDigits?_decimal n hrest, Option.bind_eq_bind, Option.bind_some,
    fraction_of_isEnd hrest, exponent?_of_isEnd hrest, List.append_nil, natOfDigits_decimal, hn,
    if_true]

/-! ## Words -/

/-- A text that begins with a digit, or with a minus sign and a digit, begins with no word. -/
theorem word?_of_isAsciiDigit {c : Char} (hc : isAsciiDigit c = true) (cs : List Char) :
    word? limit (c :: cs) = number? limit false (c :: cs) ∧
      word? limit ('-' :: c :: cs) = number? limit true (c :: cs) := by
  have hne : ∀ d, isAsciiDigit d = false → d ≠ c := by
    rintro d hd rfl
    rw [hd] at hc
    cases hc
  have hn := hne 'n' (by decide)
  have ht := hne 't' (by decide)
  have hf := hne 'f' (by decide)
  have hN := hne 'N' (by decide)
  have hI := hne 'I' (by decide)
  have hminus := hne '-' (by decide)
  constructor
  · rw [word?]
    · simp [after?, hn, ht, hf, hN, hI, hminus]
    · intro _ heq
      exact hminus (List.cons.inj heq).1.symm
  · rw [word?]
    simp [after?, hI]

/-- An integer with few enough digits is read back. -/
theorem word?_signedDecimal {n : Int} (hn : limit.all ((Text.decimal n.natAbs).length ≤ ·) = true)
    {rest : List Char} (hrest : IsEnd rest) :
    word? limit (signedDecimal n ++ rest) = some (.integer n, rest) := by
  have hword : ∀ k, ∃ c cs, Text.decimal k ++ rest = c :: cs ∧ isAsciiDigit c = true := by
    intro k
    obtain ⟨c, cs, hcons⟩ := List.exists_cons_of_ne_nil (decimal_ne_nil k)
    exact ⟨c, cs ++ rest, by rw [hcons, List.cons_append],
      isAsciiDigit_of_mem_decimal (n := k) (hcons ▸ List.mem_cons_self)⟩
  cases n with
  | ofNat k =>
    have hnumber : number? limit false (Text.decimal k ++ rest) = _ :=
      number?_decimal hn false hrest
    obtain ⟨c, cs, hcons, hc⟩ := hword k
    rw [hcons] at hnumber
    rw [signedDecimal, hcons, (word?_of_isAsciiDigit hc cs).1, hnumber]
    rfl
  | negSucc k =>
    have hnumber : number? limit true (Text.decimal (k + 1) ++ rest) = _ :=
      number?_decimal hn true hrest
    obtain ⟨c, cs, hcons, hc⟩ := hword (k + 1)
    rw [hcons] at hnumber
    rw [signedDecimal, List.cons_append, hcons, (word?_of_isAsciiDigit hc cs).2, hnumber]
    rfl

/-! ## Strings -/

/-- A hexadecimal digit has its value. -/
theorem hexDigit?_hexChar : ∀ n < 16, hexDigit? (hexChar n) = some n := by
  decide

/-- The code of a control character is read back from its four digits. -/
theorem unit?_hex {n : Nat} (h : n < 32) :
    unit? (hexChar (n / 16 / 16 / 16 % 16)) (hexChar (n / 16 / 16 % 16)) (hexChar (n / 16 % 16))
      (hexChar (n % 16)) = some n := by
  have hdigit : ∀ k, hexDigit? (hexChar (k % 16)) = some (k % 16) := fun k =>
    hexDigit?_hexChar _ (Nat.mod_lt k (by decide))
  simp only [unit?, hdigit, Option.bind_eq_bind, Option.bind_some, Option.pure_def,
    Option.some.injEq]
  omega

/-- The reader of a string takes back what the printer made of one character. -/
theorem codes?_escapeChar (c : Char) (cs : List Char) :
    codes? (escapeChar c ++ cs) =
      (codes? cs).map fun (codes, rest) => (c.toNat :: codes, rest) := by
  have hbind : ∀ code : Nat,
      (do
        let (codes, rest) ← codes? cs
        return (code :: codes, rest)) =
      (codes? cs).map fun (codes, rest) => (code :: codes, rest) := by
    intro code
    cases codes? cs <;> rfl
  have hletter : ∀ {e : Char} {code : Nat}, escapedCode? e = some code →
      codes? ('\\' :: e :: cs) = (codes? cs).map fun (codes, rest) => (code :: codes, rest) := by
    intro e code he
    rw [codes?]
    · simp only [he, Option.bind_eq_bind, Option.bind_some]
      exact hbind code
    · rintro _ _ _ _ _ rfl
      cases he
  fun_cases escapeChar c with
  | case1 => exact hletter rfl
  | case2 => exact hletter rfl
  | case3 => exact hletter rfl
  | case4 => exact hletter rfl
  | case5 => exact hletter rfl
  | case6 c _ _ _ _ _ h =>
    rw [h]
    exact hletter rfl
  | case7 c _ _ _ _ _ _ h =>
    rw [h]
    exact hletter rfl
  | case8 c _ _ _ _ _ _ _ h =>
    show codes? ('\\' :: 'u' :: hexChar (c.toNat / 16 / 16 / 16 % 16) ::
      hexChar (c.toNat / 16 / 16 % 16) :: hexChar (c.toNat / 16 % 16) :: hexChar (c.toNat % 16) ::
        cs) = _
    rw [codes?, unit?_hex h]
    exact hbind _
  | case9 c hquote hslash _ _ _ _ _ h =>
    rw [List.singleton_append, codes?]
    · rw [if_neg h]
      exact hbind _
    · exact hquote
    · intro _ _ _ _ _ heq _
      exact hslash heq
    · intro _ _ heq _
      exact hslash heq

/-- Escaped characters are read back as their codes, up to the closing quote. -/
theorem codes?_flatMap_escapeChar (cs rest : List Char) :
    codes? (cs.flatMap escapeChar ++ '"' :: rest) = some (cs.map Char.toNat, rest) := by
  induction cs with
  | nil => rfl
  | cons c cs ih =>
    rw [List.flatMap_cons, List.append_assoc, codes?_escapeChar, ih]
    rfl

/-- No character is a surrogate, so every code stands for itself. -/
theorem ofCodes_map_toNat (cs : List Char) : ofCodes (cs.map Char.toNat) = cs := by
  have hvalid : ∀ c : Char, c.toNat.isValidChar := fun c => c.valid
  induction cs with
  | nil => rfl
  | cons c cs ih =>
    cases cs with
    | nil =>
      show [if c.toNat.isValidChar then Char.ofNat c.toNat else Char.ofNat 0xFFFD] = [c]
      rw [if_pos (hvalid c), Char.ofNat_toNat]
    | cons d cs =>
      have hsurrogate : ¬ (0xD800 ≤ c.toNat ∧ c.toNat < 0xDC00 ∧ 0xDC00 ≤ d.toNat ∧
          d.toNat < 0xE000) := by
        rcases hvalid c with h | h
        · omega
        · omega
      rw [List.map_cons, List.map_cons, ofCodes, if_neg hsurrogate, if_pos (hvalid c),
        Char.ofNat_toNat]
      exact congrArg (c :: ·) ih

/-- A string is read back from behind its opening quote. -/
theorem string?_quoted (s : String) (rest : List Char) :
    string? (s.toList.flatMap escapeChar ++ '"' :: rest) = some (s, rest) := by
  simp only [string?, codes?_flatMap_escapeChar, Option.map_some, ofCodes_map_toNat,
    String.ofList_toList]

/-! ## Layout -/

/-- A character that a value may begin with in JSON text: none that is skipped, and none that ends a
list or an object. -/
def Opens (c : Char) : Prop :=
  c ≠ ' ' ∧ c ≠ '\t' ∧ c ≠ '\n' ∧ c ≠ '\r' ∧ c ≠ ']' ∧ c ≠ '}'

instance (c : Char) : Decidable (Opens c) :=
  inferInstanceAs (Decidable (_ ∧ _))

/-- Nothing is skipped before a character that opens a value. -/
theorem skipBlanks_of_opens {c : Char} (h : Opens c) (cs : List Char) :
    skipBlanks (c :: cs) = c :: cs := by
  obtain ⟨h₁, h₂, h₃, h₄, -⟩ := h
  simp [skipBlanks, h₁, h₂, h₃, h₄]

/-- The beginning of a laid out line is skipped. -/
theorem skipBlanks_newLine (level : Nat) (cs : List Char) :
    skipBlanks (newLine level ++ cs) = skipBlanks cs := by
  have hblanks : ∀ c ∈ newLine level,
      (c == ' ' || c == '\t' || c == '\n' || c == '\r') = true := by
    intro c hc
    rcases List.mem_cons.mp hc with rfl | hc
    · rfl
    · rw [List.eq_of_mem_replicate hc]
      rfl
  exact List.dropWhile_append_of_pos hblanks

/-- A digit opens a value. -/
theorem opens_of_isAsciiDigit {c : Char} (h : isAsciiDigit c = true) : Opens c := by
  refine ⟨?_, ?_, ?_, ?_, ?_, ?_⟩ <;> (rintro rfl; revert h; decide)

/-- Whole numbers begin with a sign or a digit. -/
theorem exists_signedDecimal_eq_cons (n : Int) :
    ∃ c cs, signedDecimal n = c :: cs ∧ (c = '-' ∨ isAsciiDigit c = true) := by
  cases n with
  | negSucc k => exact ⟨'-', _, rfl, Or.inl rfl⟩
  | ofNat k =>
    obtain ⟨c, cs, hcons⟩ := List.exists_cons_of_ne_nil (decimal_ne_nil k)
    exact ⟨c, cs, hcons, Or.inr
      (isAsciiDigit_of_mem_decimal (n := k) (hcons ▸ List.mem_cons_self))⟩

/-- The text of a plain value begins with a character that a value may begin with. -/
theorem exists_pretty_eq_cons {v : Value} (hv : v.Plain limit) (level : Nat) :
    ∃ c cs, pretty level v = c :: cs ∧ Opens c := by
  cases hv with
  | null => exact ⟨'n', _, rfl, by decide⟩
  | bool b =>
    cases b with
    | false => exact ⟨'f', _, rfl, by decide⟩
    | true => exact ⟨'t', _, rfl, by decide⟩
  | @integer n _ =>
    obtain ⟨c, cs, hcons, rfl | hc⟩ := exists_signedDecimal_eq_cons n
    · exact ⟨'-', cs, hcons, by decide⟩
    · exact ⟨c, cs, hcons, opens_of_isAsciiDigit hc⟩
  | text s => exact ⟨'"', _, rfl, by decide⟩
  | @list items _ =>
    cases items with
    | nil => exact ⟨'[', _, rfl, by decide⟩
    | cons item items => exact ⟨'[', _, rfl, by decide⟩
  | @object fields _ _ =>
    cases fields with
    | nil => exact ⟨'{', _, rfl, by decide⟩
    | cons field fields => exact ⟨'{', _, rfl, by decide⟩

/-! ## Values -/

/-- The reader reads a laid out value back, whatever may follow it. -/
def ReadBack (limit : Option Nat) (v : Value) : Prop :=
  ∀ level fuel rest, IsEnd rest → (pretty level v).length ≤ fuel →
    value? limit fuel (pretty level v ++ rest) = some (v, rest)

/-- A word ends before the next line. -/
theorem isEnd_newLine (level : Nat) (rest : List Char) : IsEnd (newLine level ++ rest) := by
  rintro c hc
  obtain rfl := Option.some.inj hc
  exact Or.inr rfl

/-- A word ends before a comma. -/
theorem isEnd_comma (rest : List Char) : IsEnd (',' :: rest) := by
  rintro c hc
  obtain rfl := Option.some.inj hc
  exact Or.inl rfl

/-- What begins with no quote and no bracket is read as a word. -/
theorem value?_scalar (fuel : Nat) {cs rest : List Char} {c : Char}
    (hcs : cs = c :: rest) (hquote : c ≠ '"') (hlist : c ≠ '[') (hobject : c ≠ '{') :
    value? limit (fuel + 1) cs = word? limit cs := by
  subst hcs
  rw [value?]
  · rintro _ heq
    exact hquote (List.cons.inj heq).1
  · rintro _ heq
    exact hlist (List.cons.inj heq).1
  · rintro _ heq
    exact hobject (List.cons.inj heq).1

/-- A value on a new line is come to by skipping blanks. -/
theorem skipBlanks_newLine_pretty {v : Value} (hv : v.Plain limit) (above level : Nat)
    (rest : List Char) :
    skipBlanks (newLine above ++ (pretty level v ++ rest)) = pretty level v ++ rest := by
  obtain ⟨c, cs, hcons, hopens⟩ := exists_pretty_eq_cons hv level
  rw [skipBlanks_newLine, hcons, List.cons_append, skipBlanks_of_opens hopens]

/-- The items of a list are read back one by one: a comma goes on to the next item, and the bracket
behind the last one ends the list. -/
theorem items?_prettyItems {item : Value} {items : List Value}
    (h : ∀ v ∈ item :: items, v.Plain limit ∧ ReadBack limit v) (level above fuel : Nat)
    (rest : List Char)
    (hfuel : (pretty level item).length + (prettyItems level items).length < fuel) :
    items? limit fuel (pretty level item ++
      (prettyItems level items ++ (newLine above ++ ']' :: rest))) =
        some (item :: items, rest) := by
  induction items generalizing item fuel with
  | nil =>
    obtain ⟨fuel, rfl⟩ : ∃ k, fuel = k + 1 := ⟨fuel - 1, by omega⟩
    have hitem := (h item List.mem_cons_self).2 level fuel (newLine above ++ ']' :: rest)
      (isEnd_newLine _ _) (by omega)
    have hend : skipBlanks (newLine above ++ ']' :: rest) = ']' :: rest := by
      rw [skipBlanks_newLine]
      rfl
    rw [prettyItems, List.nil_append]
    simp only [items?, hitem, Option.bind_eq_bind, Option.bind_some, hend, Option.pure_def]
  | cons next items ih =>
    obtain ⟨fuel, rfl⟩ : ∃ k, fuel = k + 1 := ⟨fuel - 1, by omega⟩
    have hnext := h next (List.mem_cons_of_mem item List.mem_cons_self)
    rw [prettyItems, List.length_cons, List.length_append, List.length_append] at hfuel
    have hrest := ih (fun v hv => h v (List.mem_cons_of_mem item hv)) fuel (by omega)
    have hitem := (h item List.mem_cons_self).2 level fuel _
      (isEnd_comma (newLine level ++ (pretty level next ++
        (prettyItems level items ++ (newLine above ++ ']' :: rest))))) (by omega)
    have hcomma : ∀ cs, skipBlanks (',' :: cs) = ',' :: cs := fun cs => rfl
    rw [prettyItems, List.cons_append, List.append_assoc, List.append_assoc]
    simp only [items?, hitem, Option.bind_eq_bind, Option.bind_some, hcomma,
      skipBlanks_newLine_pretty hnext.1, hrest, Option.pure_def]

/-- A name on a new line is come to by skipping blanks. -/
theorem skipBlanks_quoted (level : Nat) (name : String) (rest : List Char) :
    skipBlanks (newLine level ++ (quoted name ++ rest)) = quoted name ++ rest := by
  rw [skipBlanks_newLine, quoted, List.cons_append, skipBlanks_of_opens (by decide)]

/-- The fields of an object are read back one by one, as the items of a list are. -/
theorem fields?_prettyFields {name : String} {value : Value} {fields : Fields}
    (h : ∀ field ∈ (name, value) :: fields, field.2.Plain limit ∧ ReadBack limit field.2)
    (level above fuel : Nat) (rest : List Char)
    (hfuel : (pretty level value).length + (prettyFields level fields).length < fuel) :
    fields? limit fuel (quoted name ++ ':' :: ' ' :: (pretty level value ++
      (prettyFields level fields ++ (newLine above ++ '}' :: rest)))) =
        some ((name, value) :: fields, rest) := by
  have hblank : ∀ {v : Value}, v.Plain limit → ∀ rest,
      skipBlanks (' ' :: (pretty level v ++ rest)) = pretty level v ++ rest := by
    intro v hv rest
    obtain ⟨c, cs, hcons, hopens⟩ := exists_pretty_eq_cons hv level
    rw [hcons, List.cons_append]
    exact skipBlanks_of_opens hopens _
  have hcolon : ∀ cs, skipBlanks (':' :: cs) = ':' :: cs := fun cs => rfl
  have hcomma : ∀ cs, skipBlanks (',' :: cs) = ',' :: cs := fun cs => rfl
  induction fields generalizing name value fuel with
  | nil =>
    obtain ⟨fuel, rfl⟩ : ∃ k, fuel = k + 1 := ⟨fuel - 1, by omega⟩
    obtain ⟨hplain, hread⟩ := h (name, value) List.mem_cons_self
    have hvalue := hread level fuel (newLine above ++ '}' :: rest) (isEnd_newLine _ _)
      (by dsimp only; omega)
    have hend : skipBlanks (newLine above ++ '}' :: rest) = '}' :: rest := by
      rw [skipBlanks_newLine]
      rfl
    rw [prettyFields, List.nil_append, quoted, List.cons_append, List.append_assoc,
      List.singleton_append]
    simp only [fields?, string?_quoted, hblank hplain, hvalue, Option.bind_eq_bind,
      Option.bind_some, hcolon, hend, Option.pure_def]
  | cons next fields ih =>
    obtain ⟨fuel, rfl⟩ : ∃ k, fuel = k + 1 := ⟨fuel - 1, by omega⟩
    obtain ⟨hplain, hread⟩ := h (name, value) List.mem_cons_self
    obtain ⟨nextName, nextValue⟩ := next
    rw [prettyFields, List.length_cons, List.length_append, List.length_append, List.length_cons,
      List.length_cons, List.length_append] at hfuel
    have hrest := ih (fun field hfield => h field (List.mem_cons_of_mem _ hfield)) fuel (by omega)
    have hvalue := hread level fuel _ (isEnd_comma (newLine level ++ (quoted nextName ++
      ':' :: ' ' :: (pretty level nextValue ++ (prettyFields level fields ++
        (newLine above ++ '}' :: rest)))))) (by dsimp only; omega)
    rw [prettyFields, quoted, List.cons_append, List.append_assoc, List.singleton_append]
    simp only [List.cons_append, List.append_assoc] at hvalue hrest ⊢
    simp only [fields?, string?_quoted, hblank hplain, hvalue, Option.bind_eq_bind,
      Option.bind_some, hcolon, hcomma, skipBlanks_quoted, hrest, Option.pure_def]

/-- A list that is not empty is read item by item. -/
theorem value?_list {rest tail : List Char} {c : Char} (fuel : Nat)
    (hskip : skipBlanks rest = c :: tail) (hc : c ≠ ']') :
    value? limit (fuel + 1) ('[' :: rest) =
      (items? limit fuel (c :: tail)).map fun (items, rest) => (.list items, rest) := by
  rw [value?, hskip]
  split
  · rename_i heq
    exact absurd (List.cons.inj heq).1 hc
  · rfl

/-- An object that is not empty is read field by field. -/
theorem value?_object {rest tail : List Char} {c : Char} (fuel : Nat)
    (hskip : skipBlanks rest = c :: tail) (hc : c ≠ '}') :
    value? limit (fuel + 1) ('{' :: rest) =
      (fields? limit fuel (c :: tail)).map fun (fields, rest) =>
        (.object (Fields.ofList fields), rest) := by
  rw [value?, hskip]
  split
  · rename_i heq
    exact absurd (List.cons.inj heq).1 hc
  · rfl

/-- Every plain value is read back from its laid out text. -/
theorem readBack {v : Value} (hv : v.Plain limit) : ReadBack limit v := by
  -- on what makes the value plain; each bracket takes one step of the reader, so its text is enough
  induction hv with
  | null =>
    rintro level (_ | fuel) rest hrest hfuel
    · cases hfuel
    · rfl
  | bool b =>
    rintro level (_ | fuel) rest hrest hfuel
    · cases b <;> cases hfuel
    · cases b <;> rfl
  | @integer n hn =>
    intro level fuel rest hrest hfuel
    obtain ⟨c, cs, hcons, hc⟩ := exists_signedDecimal_eq_cons n
    have hne : c ≠ '"' ∧ c ≠ '[' ∧ c ≠ '{' := by
      refine ⟨?_, ?_, ?_⟩ <;> (rintro rfl; revert hc; decide)
    have hpretty : pretty level (.integer n) = signedDecimal n := rfl
    rw [hpretty] at hfuel ⊢
    obtain ⟨fuel, rfl⟩ : ∃ k, fuel = k + 1 :=
      ⟨fuel - 1, by rw [hcons, List.length_cons] at hfuel; omega⟩
    rw [value?_scalar fuel (by rw [hcons, List.cons_append]) hne.1 hne.2.1 hne.2.2]
    exact word?_signedDecimal hn hrest
  | text s =>
    rintro level (_ | fuel) rest hrest hfuel
    · cases hfuel
    · show (string? (s.toList.flatMap escapeChar ++ ['"'] ++ rest)).map _ = _
      rw [List.append_assoc, List.singleton_append, string?_quoted]
      rfl
  | @list items hitems ih =>
    rintro level (_ | fuel) rest hrest hfuel
    · cases items <;> cases hfuel
    cases items with
    | nil => rfl
    | cons item items =>
      have hall : ∀ v ∈ item :: items, v.Plain limit ∧ ReadBack limit v :=
        fun v hv => ⟨hitems v hv, ih v hv⟩
      have hitem := (hall item List.mem_cons_self).1
      obtain ⟨c, cs, hcons, hopens⟩ := exists_pretty_eq_cons hitem (level + 1)
      rw [pretty] at hfuel ⊢
      have hread := items?_prettyItems hall (level + 1) level fuel rest (by
        simp only [List.length_cons, List.length_append, newLine] at hfuel
        omega)
      have hskip := skipBlanks_newLine_pretty hitem (level + 1) (level + 1)
        (prettyItems (level + 1) items ++ (newLine level ++ ']' :: rest))
      simp only [List.cons_append, List.append_assoc, List.nil_append]
      rw [hcons, List.cons_append] at hskip hread
      rw [hcons, List.cons_append, value?_list fuel hskip hopens.2.2.2.2.1, hread]
      rfl
  | @object fields hnames hfields ih =>
    rintro level (_ | fuel) rest hrest hfuel
    · cases fields <;> cases hfuel
    cases fields with
    | nil => rfl
    | cons field fields =>
      obtain ⟨name, value⟩ := field
      have hall : ∀ field ∈ (name, value) :: fields, field.2.Plain limit ∧ ReadBack limit field.2 :=
        fun field hfield => ⟨hfields field hfield, ih field hfield⟩
      rw [pretty] at hfuel ⊢
      have hread := fields?_prettyFields hall (level + 1) level fuel rest (by
        simp only [List.length_cons, List.length_append, newLine] at hfuel
        omega)
      have hskip := skipBlanks_quoted (level + 1) name (':' :: ' ' :: (pretty (level + 1) value ++
        (prettyFields (level + 1) fields ++ (newLine level ++ '}' :: rest))))
      simp only [List.cons_append, List.append_assoc, List.nil_append]
      rw [quoted, List.cons_append] at hskip hread
      rw [quoted, List.cons_append, value?_object fuel hskip (by decide), hread, Option.map_some]
      dsimp only
      rw [Fields.ofList_eq_self hnames]

/-- What is laid out of a plain value holds that value. -/
theorem readWithin?_pretty {v : Value} (hv : v.Plain limit) :
    readWithin? limit (String.ofList (pretty 0 v)) = some v := by
  obtain ⟨c, cs, hcons, hopens⟩ := exists_pretty_eq_cons hv 0
  have hskip : skipBlanks (pretty 0 v) = pretty 0 v := by
    rw [hcons, skipBlanks_of_opens hopens]
  have hread := readBack hv 0 (2 * (pretty 0 v).length + 2) [] (fun c hc => by cases hc) (by omega)
  rw [List.append_nil] at hread
  simp only [readWithin?, String.toList_ofList, hskip, hread, Option.bind_eq_bind,
    Option.bind_some]
  rfl

/-! ## Documents -/

/-- The numbers of items can be printed when those of each item can. -/
theorem checkItems_eq_ok_iff {items : List Value} :
    checkItems items = .ok () ↔ ∀ item ∈ items, checkNumbers item = .ok () := by
  induction items with
  | nil => simp [checkItems]
  | cons item items ih =>
    rw [checkItems, List.forall_mem_cons, ← ih]
    cases checkNumbers item with
    | error long => exact ⟨fun h => (by cases h), fun h => (by cases h.1)⟩
    | ok => exact ⟨fun h => ⟨rfl, h⟩, fun h => h.2⟩

/-- The numbers of fields can be printed when those of each field can. -/
theorem checkFields_eq_ok_iff {fields : Fields} :
    checkFields fields = .ok () ↔ ∀ field ∈ fields, checkNumbers field.2 = .ok () := by
  induction fields with
  | nil => simp [checkFields]
  | cons field fields ih =>
    obtain ⟨name, value⟩ := field
    rw [checkFields, List.forall_mem_cons, ← ih]
    cases checkNumbers value with
    | error long => exact ⟨fun h => (by cases h), fun h => (by cases h.1)⟩
    | ok => exact ⟨fun h => ⟨rfl, h⟩, fun h => h.2⟩

/-- A value is printed as a document exactly if all its numbers can be printed, and then it is laid
out. -/
theorem document_eq_ok_iff {v : Value} {s : String} :
    document v = .ok s ↔ checkNumbers v = .ok () ∧ s = String.ofList (pretty 0 v) := by
  rw [document]
  cases checkNumbers v with
  | error long => exact ⟨fun h => (by cases h), fun h => (by cases h.1)⟩
  | ok => exact ⟨fun h => ⟨rfl, (Except.ok.inj h).symm⟩, fun h => congrArg Except.ok h.2.symm⟩

end Json

end ClarityDelta.Data
