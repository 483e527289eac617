import TabPilot.Text.Category
import TabPilot.Text.Letter
import TabPilot.Text.LetterCase
import TabPilot.Text.Blank

set_option autoImplicit false

/-! # Sets of characters

The sets that a regular expression can name, built from ranges of code points.
-/

namespace TabPilot

inductive CharSet
  | ranges (bounds : List (Nat × Nat))
  | complement (s : CharSet)
  | union (a b : CharSet)
  | intersection (a b : CharSet)
  | difference (a b : CharSet)
  | symmetricDifference (a b : CharSet)
  /-- The characters that are in the set in some letter case. -/
  | anyCase (s : CharSet)

namespace CharSet

def contains : CharSet → Char → Bool
  | .ranges bounds, c => bounds.any fun range => range.1 ≤ c.toNat && c.toNat ≤ range.2
  | .complement s, c => !s.contains c
  | .union a b, c => a.contains c || b.contains c
  | .intersection a b, c => a.contains c && b.contains c
  | .difference a b, c => a.contains c && !b.contains c
  | .symmetricDifference a b, c => a.contains c != b.contains c
  | .anyCase s, c => (Text.alike c).any s.contains

def none : CharSet := .ranges []

def all : CharSet := .ranges [(0, 0x10FFFF)]

def ofTable (table : Text.Ranges) : CharSet := .ranges table.bounds

def between (low high : Char) : CharSet := .ranges [(low.toNat, high.toNat)]

def single (c : Char) : CharSet := between c c

/-- How many ranges a set is given by. -/
def weight : CharSet → Nat
  | .ranges bounds => bounds.length
  | .complement s => s.weight + 1
  | .union a b => a.weight + b.weight
  | .intersection a b => a.weight + b.weight
  | .difference a b => a.weight + b.weight
  | .symmetricDifference a b => a.weight + b.weight
  | .anyCase s => 2 * s.weight

/-! ## Named sets -/

def category (name : String) : CharSet :=
  match Text.categories.lookup name with
  | some table => ofTable table
  | _ => none

def categoriesOf (names : List String) : CharSet :=
  names.foldl (fun s name => .union s (category name)) none

def digits : CharSet := category "nd"

def blanks : CharSet :=
  .ranges [(9, 13), (0x20, 0x20), (0x85, 0x85), (0xA0, 0xA0), (0x1680, 0x1680), (0x2000, 0x200A),
    (0x2028, 0x2029), (0x202F, 0x202F), (0x205F, 0x205F), (0x3000, 0x3000)]

/-- Letters, marks, decimal digits, connectors and the two joiners: what words are made of. -/
def wordChars : CharSet :=
  .union (ofTable Text.alphabeticRanges)
    (.union (categoriesOf ["mn", "mc", "me", "nd", "pc"]) (.ranges [(0x200C, 0x200D)]))

def asciiDigits : CharSet := .ranges [(48, 57)]

def asciiBlanks : CharSet := .ranges [(9, 13), (32, 32)]

def asciiWordChars : CharSet := .ranges [(48, 57), (65, 90), (95, 95), (97, 122)]

/-- The classes of ASCII characters that are written `[:name:]`. -/
def asciiClass? : String → Option CharSet
  | "alnum" => some (.ranges [(48, 57), (65, 90), (97, 122)])
  | "alpha" => some (.ranges [(65, 90), (97, 122)])
  | "ascii" => some (.ranges [(0, 127)])
  | "blank" => some (.ranges [(9, 9), (32, 32)])
  | "cntrl" => some (.ranges [(0, 31), (127, 127)])
  | "digit" => some asciiDigits
  | "graph" => some (.ranges [(33, 126)])
  | "lower" => some (.ranges [(97, 122)])
  | "print" => some (.ranges [(32, 126)])
  | "punct" => some (.ranges [(33, 47), (58, 64), (91, 96), (123, 126)])
  | "space" => some asciiBlanks
  | "upper" => some (.ranges [(65, 90)])
  | "word" => some asciiWordChars
  | "xdigit" => some (.ranges [(48, 57), (65, 70), (97, 102)])
  | _ => .none

/-- The short names of the general categories that a name stands for. -/
def categoryNames? : String → Option (List String)
  | "l" | "letter" => some ["lu", "ll", "lt", "lm", "lo"]
  | "lc" | "casedletter" => some ["lu", "ll", "lt"]
  | "m" | "mark" | "combiningmark" => some ["mn", "mc", "me"]
  | "n" | "number" => some ["nd", "nl", "no"]
  | "p" | "punctuation" | "punct" => some ["pc", "pd", "ps", "pe", "pi", "pf", "po"]
  | "s" | "symbol" => some ["sm", "sc", "sk", "so"]
  | "z" | "separator" => some ["zs", "zl", "zp"]
  | "uppercaseletter" => some ["lu"]
  | "lowercaseletter" => some ["ll"]
  | "titlecaseletter" => some ["lt"]
  | "modifierletter" => some ["lm"]
  | "otherletter" => some ["lo"]
  | "nonspacingmark" => some ["mn"]
  | "spacingmark" => some ["mc"]
  | "enclosingmark" => some ["me"]
  | "decimalnumber" | "digit" => some ["nd"]
  | "letternumber" => some ["nl"]
  | "othernumber" => some ["no"]
  | "connectorpunctuation" => some ["pc"]
  | "dashpunctuation" => some ["pd"]
  | "openpunctuation" => some ["ps"]
  | "closepunctuation" => some ["pe"]
  | "initialpunctuation" => some ["pi"]
  | "finalpunctuation" => some ["pf"]
  | "otherpunctuation" => some ["po"]
  | "mathsymbol" => some ["sm"]
  | "currencysymbol" => some ["sc"]
  | "modifiersymbol" => some ["sk"]
  | "othersymbol" => some ["so"]
  | "spaceseparator" => some ["zs"]
  | "lineseparator" => some ["zl"]
  | "paragraphseparator" => some ["zp"]
  | "control" | "cntrl" => some ["cc"]
  | "format" => some ["cf"]
  | "privateuse" => some ["co"]
  | name => if (Text.categories.lookup name).isSome then some [name] else .none

def assigned : CharSet := categoriesOf (Text.categories.map Prod.fst)

def categorySet? : String → Option CharSet
  | "any" => some all
  | "assigned" => some assigned
  | "ascii" => some (.ranges [(0, 127)])
  | "cn" | "unassigned" => some (.complement assigned)
  | "c" | "other" => some (.union (categoriesOf ["cc", "cf", "co"]) (.complement assigned))
  | name => (categoryNames? name).map categoriesOf

/-- The long name of a script that is given by its usual short one. -/
def scriptName : String → String
  | "latn" => "latin"
  | "grek" => "greek"
  | "cyrl" => "cyrillic"
  | "arab" => "arabic"
  | "hebr" => "hebrew"
  | "hani" => "han"
  | "hira" => "hiragana"
  | "kana" => "katakana"
  | "hang" => "hangul"
  | "deva" => "devanagari"
  | "armn" => "armenian"
  | "geor" => "georgian"
  | "beng" => "bengali"
  | "taml" => "tamil"
  | "telu" => "telugu"
  | "mong" => "mongolian"
  | "tibt" => "tibetan"
  | "khmr" => "khmer"
  | "ethi" => "ethiopic"
  | "copt" | "qaac" => "coptic"
  | "zyyy" => "common"
  | "zinh" | "qaai" => "inherited"
  | name => name

def scriptSet? (name : String) : Option CharSet :=
  (Text.scripts.lookup (scriptName name)).map ofTable

def propertySet? : String → Option CharSet
  | "alphabetic" | "alpha" => some (ofTable Text.alphabeticRanges)
  | "whitespace" | "wspace" | "space" => some blanks
  | "joincontrol" | "joinc" => some (.ranges [(0x200C, 0x200D)])
  | "asciihexdigit" | "ahex" => some (.ranges [(48, 57), (65, 70), (97, 102)])
  | "lower" => (Text.properties.lookup "lowercase").map ofTable
  | "upper" => (Text.properties.lookup "uppercase").map ofTable
  | "hex" => (Text.properties.lookup "hexdigit").map ofTable
  | "ideo" => (Text.properties.lookup "ideographic").map ofTable
  | "xids" => (Text.properties.lookup "xidstart").map ofTable
  | "xidc" => (Text.properties.lookup "xidcontinue").map ofTable
  | "extpict" => (Text.properties.lookup "extendedpictographic").map ofTable
  | "epres" => (Text.properties.lookup "emojipresentation").map ofTable
  | name => (Text.properties.lookup name).map ofTable

/-- A name as it is compared: in lower case, without blanks, hyphens and underscores, and without
a leading `is`. -/
def plainName (name : List Char) : String :=
  let letters := (name.filter fun c =>
    c.toNat < 128 && c ≠ ' ' && c ≠ '_' && c ≠ '-' && !c.isWhitespace).map Char.toLower
  match letters with
  | 'i' :: 's' :: rest => if rest.isEmpty then "is" else String.ofList rest
  | letters => String.ofList letters

def named? (name : List Char) : Option CharSet :=
  let word := plainName name
  let property := if ["cf", "sc", "lc"].contains word then .none else propertySet? word
  (property.or (categorySet? word)).or (scriptSet? word)

def valued? (property value : List Char) : Option CharSet :=
  match plainName property with
  | "generalcategory" | "gc" => categorySet? (plainName value)
  | "script" | "sc" | "scriptextensions" | "scx" => scriptSet? (plainName value)
  | _ => .none

end CharSet

end TabPilot
