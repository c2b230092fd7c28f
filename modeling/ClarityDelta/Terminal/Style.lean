import ClarityDelta.Text.Blank
import ClarityDelta.Text.Lines
import ClarityDelta.Text.Numeral

/-!
# Console styles

A style is written as words: attributes such as `bold`, each of which `not` may turn off, a colour,
`on` with a background colour, `link` with an address. Tags that name the same style in different
words belong together, so a style is brought into one form. A text that is no style stays as it is,
in lower case.
-/

namespace ClarityDelta.Terminal.Style

open Text

/-- The attributes of a style in the order of its form, with all their names. -/
def attributes : List (List String) :=
  [["bold", "b"], ["dim", "d"], ["italic", "i"], ["underline", "u"], ["blink"], ["blink2"],
    ["reverse", "r"], ["conceal", "c"], ["strike", "s"], ["underline2", "uu"], ["frame"],
    ["encircle"], ["overline", "o"]]

/-- The colours with a name of their own. -/
def namedColors : List String :=
  let base := ["black", "red", "green", "yellow", "blue", "magenta", "cyan", "white"]
  "default" :: base ++ base.map ("bright_" ++ ·) ++ ["grey0", "gray0", "navy_blue", "dark_blue",
    "blue3", "blue1", "dark_green", "deep_sky_blue4", "dodger_blue3", "dodger_blue2", "green4",
    "spring_green4", "turquoise4", "deep_sky_blue3", "dodger_blue1", "green3", "spring_green3",
    "dark_cyan", "light_sea_green", "deep_sky_blue2", "deep_sky_blue1", "spring_green2", "cyan3",
    "dark_turquoise", "turquoise2", "green1", "spring_green1", "medium_spring_green", "cyan2",
    "cyan1", "purple4", "purple3", "blue_violet", "grey37", "gray37", "medium_purple4",
    "slate_blue3", "royal_blue1", "chartreuse4", "pale_turquoise4", "steel_blue", "steel_blue3",
    "cornflower_blue", "dark_sea_green4", "cadet_blue", "sky_blue3", "chartreuse3", "sea_green3",
    "aquamarine3", "medium_turquoise", "steel_blue1", "sea_green2", "sea_green1",
    "dark_slate_gray2", "dark_red", "dark_magenta", "orange4", "light_pink4", "plum4",
    "medium_purple3", "slate_blue1", "wheat4", "grey53", "gray53", "light_slate_grey",
    "light_slate_gray", "medium_purple", "light_slate_blue", "yellow4", "dark_sea_green",
    "light_sky_blue3", "sky_blue2", "chartreuse2", "pale_green3", "dark_slate_gray3", "sky_blue1",
    "chartreuse1", "light_green", "aquamarine1", "dark_slate_gray1", "deep_pink4",
    "medium_violet_red", "dark_violet", "purple", "medium_orchid3", "medium_orchid",
    "dark_goldenrod", "rosy_brown", "grey63", "gray63", "medium_purple2", "medium_purple1",
    "dark_khaki", "navajo_white3", "grey69", "gray69", "light_steel_blue3", "light_steel_blue",
    "dark_olive_green3", "dark_sea_green3", "light_cyan3", "light_sky_blue1", "green_yellow",
    "dark_olive_green2", "pale_green1", "dark_sea_green2", "pale_turquoise1", "red3", "deep_pink3",
    "magenta3", "dark_orange3", "indian_red", "hot_pink3", "hot_pink2", "orchid", "orange3",
    "light_salmon3", "light_pink3", "pink3", "plum3", "violet", "gold3", "light_goldenrod3", "tan",
    "misty_rose3", "thistle3", "plum2", "yellow3", "khaki3", "light_yellow3", "grey84", "gray84",
    "light_steel_blue1", "yellow2", "dark_olive_green1", "dark_sea_green1", "honeydew2",
    "light_cyan1", "red1", "deep_pink2", "deep_pink1", "magenta2", "magenta1", "orange_red1",
    "indian_red1", "hot_pink", "medium_orchid1", "dark_orange", "salmon1", "light_coral",
    "pale_violet_red1", "orchid2", "orchid1", "orange1", "sandy_brown", "light_salmon1",
    "light_pink1", "pink1", "plum1", "gold1", "light_goldenrod2", "navajo_white1", "misty_rose1",
    "thistle1", "yellow1", "light_goldenrod1", "khaki1", "wheat1", "cornsilk1", "grey100",
    "gray100", "grey3", "gray3", "grey7", "gray7", "grey11", "gray11", "grey15", "gray15",
    "grey19", "gray19", "grey23", "gray23", "grey27", "gray27", "grey30", "gray30", "grey35",
    "gray35", "grey39", "gray39", "grey42", "gray42", "grey46", "gray46", "grey50", "gray50",
    "grey54", "gray54", "grey58", "gray58", "grey62", "gray62", "grey66", "gray66", "grey70",
    "gray70", "grey74", "gray74", "grey78", "gray78", "grey82", "gray82", "grey85", "gray85",
    "grey89", "gray89", "grey93", "gray93"]

/-- The number that a short run of digits writes, if it fits a byte. -/
def isByteText (cs : List Char) : Bool :=
  !cs.isEmpty && cs.length ≤ 3 && cs.all Char.isDigit && natOfDigits cs < 256

/-- Whether a word is a colour: a name, `#` with six hexadecimal digits, or a number or three of
them in the brackets of `color` or `rgb`. -/
def isColor (word : List Char) : Bool :=
  namedColors.contains (String.ofList word) ||
  match word with
  | '#' :: digits => digits.length = 6 && digits.all fun c => (hexDigit? c).isSome
  | 'c' :: 'o' :: 'l' :: 'o' :: 'r' :: '(' :: rest =>
    rest.getLast? = some ')' && isByteText rest.dropLast
  | 'r' :: 'g' :: 'b' :: '(' :: rest =>
    let parts := splitAt ',' rest.dropLast
    rest.getLast? = some ')' && parts.length = 3 && parts.all fun part => isByteText (trim part)
  | _ => false

/-- A style as it is read word by word. -/
structure Form where
  set : List (String × Bool)
  color : Option (List Char)
  background : Option (List Char)
  link : Option (List Char)

/-- The attribute that a word names. -/
def attribute? (word : List Char) : Option String :=
  (attributes.find? (·.contains (String.ofList word))).bind List.head?

/-- The form of a style's words, none when they are no style. -/
def read? (form : Form) : List (List Char) → Option Form
  | [] => some form
  | word :: rest =>
    let lower := word.map Char.toLower
    if lower = "on".toList then
      match rest with
      | [] => none
      | color :: rest =>
        if isColor (color.map Char.toLower) then read? { form with background := some color } rest
        else none
    else if lower = "not".toList then
      match rest with
      | [] => none
      | name :: rest =>
        match attribute? name with
        | some name => read? { form with set := (name, false) :: form.set } rest
        | none => none
    else if lower = "link".toList then
      match rest with
      | [] => none
      | link :: rest => read? { form with link := some link } rest
    else
      match attribute? lower with
      | some name => read? { form with set := (name, true) :: form.set } rest
      | none => if isColor lower then read? { form with color := some lower } rest else none

/-- The words of a form, `none` for the empty one. -/
def Form.text (form : Form) : String :=
  let switches := attributes.filterMap fun names =>
    names.head?.bind fun name =>
      (form.set.lookup name).map fun on => if on then name else "not " ++ name
  let words := switches ++ (form.color.map String.ofList).toList
    ++ (form.background.map fun c => "on " ++ String.ofList (c.map Char.toLower)).toList
    ++ (form.link.map fun l => "link " ++ String.ofList l).toList
  if words.isEmpty then "none" else " ".intercalate words

/-- The one form of a style's text. -/
def normalized (cs : List Char) : String :=
  if trim cs = "none".toList then "none"
  else
    match read? ⟨[], none, none, none⟩ (words cs) with
    | some form => form.text
    | none => String.ofList ((trim cs).map Char.toLower)

end ClarityDelta.Terminal.Style
