/-!
# Tokens

Splitting a line at blanks, and a token at its first equals sign.
-/
namespace HeapBridge.Text

/-- The blanks between tokens: space, tab, line feed, form feed and carriage return. -/
def isBlank (c : Char) : Bool :=
  c == ' ' || c == '\t' || c == '\n' || c == '\x0c' || c == '\r'

/-- The open token, in reverse, as a list of tokens. -/
def closeToken (opened : List Char) : List (List Char) :=
  if opened.isEmpty then [] else [opened.reverse]

/-- The tokens of a line whose current token has been read up to here. -/
def tokensFrom (opened : List Char) : List Char → List (List Char)
  | [] => closeToken opened
  | c :: cs =>
    if isBlank c then closeToken opened ++ tokensFrom [] cs else tokensFrom (c :: opened) cs

/-- The maximal runs of characters that are not blank. -/
def tokens (s : String) : List String := (tokensFrom [] s.toList).map String.ofList

/-- The parts before and after the first equals sign. -/
def splitPair? (token : String) : Option (String × String) :=
  let cs := token.toList
  match cs.dropWhile (· != '=') with
  | [] => none
  | _ :: value => some (String.ofList (cs.takeWhile (· != '=')), String.ofList value)

end HeapBridge.Text
