namespace Cadence.Text

def commonStart : List Char → List Char → Nat
  | c :: a, d :: b => if c = d then commonStart a b + 1 else 0
  | _, _ => 0

structure Block where
  inFirst : Nat
  inSecond : Nat
  length : Nat
deriving DecidableEq, Repr

def Block.longer (best block : Block) : Block :=
  if best.length < block.length then block else best

def longestBlock (a b : List Char) : Block :=
  (List.range a.length).foldl
    (fun best i =>
      (List.range b.length).foldl
        (fun best j => best.longer ⟨i, j, commonStart (a.drop i) (b.drop j)⟩) best)
    ⟨0, 0, 0⟩

def matchedWithin : Nat → List Char → List Char → Nat
  | 0, _, _ => 0
  | rounds + 1, a, b =>
      let block := longestBlock a b
      if block.length = 0 then 0
      else
        matchedWithin rounds (a.take block.inFirst) (b.take block.inSecond) + block.length +
          matchedWithin rounds (a.drop (block.inFirst + block.length))
            (b.drop (block.inSecond + block.length))

structure Candidate where
  text : String
  matched : Nat
  total : Nat
deriving DecidableEq, Repr

def Candidate.of (word text : String) : Candidate :=
  let a := text.toList
  let b := word.toList
  ⟨text, matchedWithin a.length a b, a.length + b.length⟩

def Candidate.isClose (candidate : Candidate) : Bool :=
  3 * candidate.total ≤ 10 * candidate.matched

/-- The likelier candidate comes first, and of two that are as likely the later text. -/
def Candidate.before (a b : Candidate) : Bool :=
  b.matched * a.total < a.matched * b.total ||
    (a.matched * b.total = b.matched * a.total && decide (b.text ≤ a.text))

def closeTo (word : String) (texts : List String) : List String :=
  let close := (texts.map (Candidate.of word)).filter Candidate.isClose
  ((close.mergeSort Candidate.before).take 3).map (·.text)

end Cadence.Text
