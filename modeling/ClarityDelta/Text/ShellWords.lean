/-!
# Shell words

A command line is cut into words at blanks. Single quotes keep everything, double quotes keep
everything but a backslash before a quote or a backslash, and a backslash outside quotes keeps the
next character.
-/

namespace ClarityDelta.Text.ShellWords

/-- Why a command line has no words. -/
inductive ShellFault where
  | unclosedQuotation
  | unfinishedEscape
  deriving DecidableEq, Repr

/-- The fault in words. -/
def ShellFault.message : ShellFault → String
  | unclosedQuotation => "No closing quotation"
  | unfinishedEscape => "No escaped character"

/-- Where the reading of a command line stands. -/
inductive Mode where
  | between
  | bare
  | single
  | double
  | escaped
  | doubleEscaped
  deriving DecidableEq, Repr

/-- The blanks between words. -/
def isSeparator (c : Char) : Bool :=
  c = ' ' || c = '\t' || c = '\r' || c = '\n'

/-- The words of the rest of a command line. Outside the mode `between` a word has begun, of which
the given characters are read. -/
def wordsFrom : Mode → List Char → List Char → Except ShellFault (List String)
  | .between, _, [] => .ok []
  | .bare, word, [] => .ok [String.ofList word]
  | .single, _, [] => .error .unclosedQuotation
  | .double, _, [] => .error .unclosedQuotation
  | .escaped, _, [] => .error .unfinishedEscape
  | .doubleEscaped, _, [] => .error .unfinishedEscape
  | .single, word, c :: cs =>
    if c = '\'' then wordsFrom .bare word cs else wordsFrom .single (word ++ [c]) cs
  | .double, word, c :: cs =>
    if c = '"' then wordsFrom .bare word cs
    else if c = '\\' then wordsFrom .doubleEscaped word cs
    else wordsFrom .double (word ++ [c]) cs
  | .escaped, word, c :: cs => wordsFrom .bare (word ++ [c]) cs
  | .doubleEscaped, word, c :: cs =>
    if c = '"' || c = '\\' then wordsFrom .double (word ++ [c]) cs
    else wordsFrom .double (word ++ ['\\', c]) cs
  | .between, word, c :: cs =>
    if isSeparator c then wordsFrom .between word cs
    else if c = '\'' then wordsFrom .single [] cs
    else if c = '"' then wordsFrom .double [] cs
    else if c = '\\' then wordsFrom .escaped [] cs
    else wordsFrom .bare [c] cs
  | .bare, word, c :: cs =>
    if isSeparator c then (wordsFrom .between [] cs).map (String.ofList word :: ·)
    else if c = '\'' then wordsFrom .single word cs
    else if c = '"' then wordsFrom .double word cs
    else if c = '\\' then wordsFrom .escaped word cs
    else wordsFrom .bare (word ++ [c]) cs

/-- The words of a command line. -/
def split (s : String) : Except ShellFault (List String) :=
  wordsFrom .between [] s.toList

end ClarityDelta.Text.ShellWords
