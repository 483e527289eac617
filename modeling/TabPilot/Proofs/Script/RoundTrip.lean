import Mathlib
import TabPilot.Proofs.Script.Parsed

set_option autoImplicit false

/-! # Reading undoes writing

A script that was read and is plain is written as a text that is read as the same script, up to
positions: the tree is well formed because it was read, so its pieces fit, the text is scanned
into the tokens of the pieces, and the grammar reads the tree back from them.
-/

namespace TabPilot.Script

open Piece

/-- The text of a script is scanned into the tokens of its pieces. -/
theorem scan_write {s : Script} (wf : s.WellFormed) (plain : s.Plain) :
    ∃ place last, Token.scan s.write.toList =
      .ok (tokens place s.pieces ++ [⟨.endOfInput, last, true⟩]) := by
  have hscan := Token.scanFrom_textAfter s.pieces .newline [] true ⟨1, 1⟩ (fits_pieces wf plain)
    ⟨rfl, rfl⟩ (.inr rfl)
  rw [write, String.toList_ofList]
  exact hscan

/-- **Reading undoes writing.** For every script that is read from a text, unless it has what
cannot be written, the text that is written for it is read as the same script up to positions. -/
theorem parse_write {source : String} {s : Script} (h : parse source = .ok s) (plain : s.Plain) :
    ∃ t, parse s.write = .ok t ∧ t.SameBlocks s := by
  have wf : s.WellFormed := wellFormed_of_parse h
  obtain ⟨place, last, hscan⟩ := scan_write wf plain
  obtain ⟨statements, handlers, hread, hstatements, hhandlers⟩ :=
    Grammar.recovers_script wf plain place last
  refine ⟨⟨statements, handlers, s.write, none⟩, ?_, hstatements, hhandlers⟩
  have hscript : read s.write = .ok ⟨statements, handlers, s.write, none⟩ := by
    rw [read, hscan]
    simp only [hread]
    rfl
  rw [parse, hscript]

def sampleSource : String :=
  "$a.b[0] += 1 + 2\nif not $a =~ /x/i \x7b go 1 -> $r; f::g \x7d\non 'e' \x7b break \x7d"

def sample : Script where
  statements :=
    [.assign ⟨[.variable ⟨"a", [.field "b", .index (.literal (.int 0))]⟩], .add,
        [.binary .add (.literal (.int 1)) (.literal (.int 2))], ⟨1, 1⟩⟩,
      .choice (.mk
        (.comparison true ⟨2, 4⟩ (.variable "a" []) (some (.matches, .pattern ⟨"x", "i"⟩)))
        [.commands
          [⟨"go", some (.literal (.int 1)), none, .variable ⟨"r", []⟩, ⟨2, 21⟩⟩,
            ⟨"f::g", none, none, .default, ⟨2, 33⟩⟩] ⟨2, 21⟩]) [] none ⟨2, 1⟩]
  handlers := [⟨"e", false, [.jump .break 1 ⟨3, 10⟩], ⟨3, 1⟩⟩]
  source := sampleSource
  filename := none

/-- The sample is read from its source, and back from what is written for it. -/
theorem parse_write_sample : parse sampleSource = .ok sample ∧ sample.Plain ∧
    ∃ t, parse sample.write = .ok t ∧ t.SameBlocks sample := by
  have hparse : parse sampleSource = .ok sample := by cbv
  have hplain : sample.Plain := by
    simp [sample, Script.Plain, statementsPlain, Statement.Plain, Assignment.Plain, Target.Plain,
      Variable.Plain, accessorsPlain, Expr.Plain, Branch.Plain, Condition.Plain,
      Comparator.PlainRhs, Command.Plain, Destination.Plain, branchesPlain, otherwisePlain,
      nameParts]
  exact ⟨hparse, hplain, parse_write hparse hplain⟩

/-- How the sample is written. -/
example : sample.write = "$a.b[0] += ((1) + (2))\n" ++
    "if not ($a) =~ /x/i \x7b\ngo (1) -> $r; f::g\n\x7d\n" ++
      "on 'e' \x7b\nbreak 1\n\x7d\n" := by cbv

end TabPilot.Script
