import FileServer.Pattern.Escape
import FileServer.Text.Alphanumeric

/-!
# How groups begin

Behind its parenthesis a group can have a name or flags.  Flags that end with a parenthesis
of their own are no group; they hold from there to the end of the group around them.
-/

namespace FileServer.Pattern

/-- What a parenthesis opens. -/
inductive Opening where
  /-- Flags that hold for what follows. -/
  | flags (signs : List FlagSign)
  | group (name : Option Text) (signs : List FlagSign)
  deriving Repr

/-- The flag of a letter. -/
def flag? : Char → Option PatternFlag
  | 'i' => some .anyCase
  | 'm' => some .multiLine
  | 's' => some .dotMatchesLineEnd
  | 'U' => some .swapGreed
  | 'u' => some .allScripts
  | 'R' => some .crlf
  | 'x' => some .spaced
  | _ => none

/-- One sign of a list of flags. -/
def flagSign? (char : Char) : Option FlagSign :=
  if char = '-' then some .negation else (flag? char).map .flag

/-- Reads a list of flags: no sign is repeated, and the negation has something behind it. -/
def flags? (text : Text) : Option (List FlagSign) := do
  let signs ← text.mapM flagSign?
  if decide signs.Nodup && signs.getLast? != some .negation then some signs else none

/-- What a list of flags does to a flag. -/
def setting? (flag : PatternFlag) (signs : List FlagSign) : Option Bool :=
  if signs.contains (.flag flag) then
    some (!(signs.takeWhile (· != .flag flag)).contains .negation)
  else
    none

/-- Whether a text can be the name of a group. -/
def isName : Text → Bool
  | [] => false
  | first :: rest =>
      (first == '_' || Text.isAlphabetic first) &&
        rest.all fun char => ['_', '.', '[', ']'].contains char || Text.isAlphanumeric char

/-- Reads the name of a group, up to the angle that ends it. -/
def name? (text : Text) : Option (Opening × Text) :=
  match Text.cut? '>' text with
  | some (name, rest) => if isName name then some (.group (some name) [], rest) else none
  | none => none

/-- Reads flags, up to the colon before a group or the parenthesis that ends them.  No flags
at all are not enough without a group. -/
def flagged? (text : Text) : Option (Opening × Text) :=
  let isEnd (char : Char) : Bool := char == ':' || char == ')'
  match flags? (text.takeWhile fun char => !isEnd char),
      text.dropWhile fun char => !isEnd char with
  | some signs, ':' :: rest => some (.group none signs, rest)
  | some signs, ')' :: rest => if signs.isEmpty then none else some (.flags signs, rest)
  | _, _ => none

/-- Reads what is behind an opening parenthesis.  A group cannot look ahead or behind. -/
def opening? (spaced : Bool) (text : Text) : Option (Opening × Text) :=
  match skip spaced text with
  | '?' :: '=' :: _ | '?' :: '!' :: _ | '?' :: '<' :: '=' :: _ | '?' :: '<' :: '!' :: _ => none
  | '?' :: 'P' :: '<' :: rest => name? rest
  | '?' :: '<' :: rest => name? rest
  | '?' :: rest => flagged? rest
  | rest => some (.group none [], rest)

end FileServer.Pattern
