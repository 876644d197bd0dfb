namespace Cadence.Text

def closesTag : List Char → Bool
  | [] => false
  | c :: rest => c = ']' || (c ≠ '[' && closesTag rest)

def startsTagName (c : Char) : Bool :=
  ('a' ≤ c && c ≤ 'z') || c = '#' || c = '/' || c = '@'

def startsTag : List Char → Bool
  | '[' :: c :: rest => startsTagName c && closesTag rest
  | _ => false

/-- Puts a backslash before each tag and doubles the backslashes that stand in front of it, of
which `slashes` have been read. -/
def escapeTags (slashes : Nat) : List Char → List Char
  | [] => List.replicate slashes '\\'
  | c :: rest =>
      if c = '\\' then escapeTags (slashes + 1) rest
      else
        let written := if startsTag (c :: rest) then 2 * slashes + 1 else slashes
        List.replicate written '\\' ++ c :: escapeTags 0 rest

/-- A single backslash at the end would escape whatever the console prints next. -/
def guardEnd (text : List Char) : List Char :=
  match text.reverse with
  | '\\' :: '\\' :: _ => text
  | '\\' :: _ => text ++ ['\\']
  | _ => text

def escapeMarkup (text : String) : String :=
  String.ofList (guardEnd (escapeTags 0 text.toList))

end Cadence.Text
