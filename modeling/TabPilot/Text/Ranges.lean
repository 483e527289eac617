set_option autoImplicit false

/-! # Tables of characters

`Ranges` is a set of code points given by ascending ranges, `Shifts` a map from code points to
code points given by runs that are all moved by one distance. A range is given by the gap before
it and its length, a run by the distance from the start of the run before it, its length, its
stride and its shift. Most tables are texts of numbers to the base 36; those that something is
proved of are lists.
-/

namespace TabPilot.Text

def digit36 (c : Char) : Nat := if c.isDigit then c.toNat - 48 else c.toNat - 87

def number36 (word : List Char) : Nat := word.foldl (fun n c => 36 * n + digit36 c) 0

def partsAt (separator : Char) : List Char → List (List Char)
  | [] => [[]]
  | c :: rest =>
      if c = separator then [] :: partsAt separator rest
      else
        match partsAt separator rest with
        | [] => [[c]]
        | part :: parts => (c :: part) :: parts

/-- The words of a table, which stand between blanks or in lines of their own. -/
def words (text : String) : List (List Char) :=
  let line := text.toList.map fun c => if c = '\n' then ' ' else c
  (partsAt ' ' line).filter fun word => !word.isEmpty

structure Ranges where
  bounds : List (Nat × Nat)

def Ranges.contains (r : Ranges) (n : Nat) : Bool :=
  r.bounds.any fun range => range.1 ≤ n && n ≤ range.2

/-- Ranges from gaps and lengths, the first gap counted from `start`. -/
def boundsFrom (start : Nat) : List Nat → List (Nat × Nat)
  | gap :: length :: rest =>
      (start + gap, start + gap + length - 1) :: boundsFrom (start + gap + length) rest
  | _ => []

def Ranges.ofGaps (gaps : List Nat) : Ranges := ⟨boundsFrom 0 gaps⟩

def Ranges.ofText (text : String) : Ranges := .ofGaps ((words text).map number36)

/-- `count` code points from `start` on, `stride` apart, all moved by `shift`. -/
structure Run where
  start : Nat
  count : Nat
  stride : Nat
  shift : Int

/-- Whether a run starts at a code point or passes through it. -/
def Run.covers (r : Run) (n : Nat) : Bool :=
  r.start ≤ n && n < r.start + r.count * r.stride && (n - r.start) % r.stride = 0

structure Shifts where
  runs : List Run

/-- The code point that the map gives; code points in no run stay. -/
def Shifts.apply (s : Shifts) (n : Nat) : Nat :=
  match s.runs.find? (·.covers n) with
  | some r => ((n : Int) + r.shift).toNat
  | none => n

/-- The code points that the map moves to `target`. -/
def Shifts.sources (s : Shifts) (target : Nat) : List Nat :=
  s.runs.filterMap fun r =>
    let n := ((target : Int) - r.shift).toNat
    if r.covers n then some n else none

def signed36 : List Char → Int
  | '-' :: word => -(number36 word : Int)
  | word => number36 word

/-- Runs from their words, the first start counted from `start`. -/
def runsFrom (start : Nat) : List (List Char) → List Run
  | [] => []
  | word :: rest =>
      match partsAt '.' word with
      | [gap, count, stride, shift] =>
          let run : Run :=
            ⟨start + number36 gap, number36 count, number36 stride, signed36 shift⟩
          run :: runsFrom run.start rest
      | _ => []

def Shifts.ofText (text : String) : Shifts := ⟨runsFrom 0 (words text)⟩

/-- Reads a list of code points, each with the ones it turns into. -/
def sequencesOfText (text : String) : List (Nat × List Nat) :=
  (words text).filterMap fun word =>
    match (partsAt '.' word).map number36 with
    | code :: image => some (code, image)
    | [] => none

end TabPilot.Text
