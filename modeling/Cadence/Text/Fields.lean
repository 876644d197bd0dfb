namespace Cadence.Text

def fields (separator : Char) : List Char → List (List Char)
  | [] => [[]]
  | c :: rest =>
      match fields separator rest with
      | [] => [[c]]
      | first :: others =>
          if c = separator then [] :: first :: others else (c :: first) :: others

def extendFirst (c : Char) : List (List Char) → List (List Char)
  | [] => [[c]]
  | first :: others => (c :: first) :: others

def nestedNames : List Char → List (List Char)
  | [] => [[]]
  | '_' :: '_' :: rest => [] :: nestedNames rest
  | c :: rest => extendFirst c (nestedNames rest)

def fileSteps (text : String) : List String :=
  ((fields '/' text.toList).filter fun step => !step.isEmpty && step ≠ ['.']).map String.ofList

/-- A file name in its plain form. Two slashes in front are kept as they are, more of them count as
one. -/
def fileName (text : String) : String :=
  let slashes := (text.toList.takeWhile (· = '/')).length
  let root := if slashes = 2 then "//" else if slashes = 0 then "" else "/"
  let name := root ++ "/".intercalate (fileSteps text)
  if name.isEmpty then "." else name

end Cadence.Text
