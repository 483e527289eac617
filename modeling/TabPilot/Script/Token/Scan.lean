import TabPilot.Script.Token.Lexeme

set_option autoImplicit false

/-! # From text to tokens

`Token.scan` takes one token after the other off the front of a text. Blanks, comments and
escaped line ends stand between tokens.
-/

namespace TabPilot

def Position.afterAll (p : Position) (cs : List Char) : Position := cs.foldl Position.after p

namespace Token

/-- How many characters at the front of `c :: rest` belong to no token: a blank, a comment up to
its line end, or an escaped line end. -/
def gap (c : Char) (rest : List Char) : Nat :=
  if Lexeme.isGap c then 1
  else if c = '#' then 1 + (rest.takeWhile (· ≠ '\n')).length
  else if c = '\\' && rest.head? = some '\n' then 2
  else 0

/-- Scans on from `p`, with the tokens so far in reverse order; `spaced` says whether the next
token is spaced. -/
def scanFrom (done : List Token) (spaced : Bool) (p : Position) (cs : List Char) :
    Except Misread (List Token) :=
  match cs with
  | [] => .ok ((⟨.endOfInput, p, true⟩ :: done).reverse)
  | c :: rest =>
      let skipped := gap c rest
      if skipped ≠ 0 then
        scanFrom done true (p.afterAll ((c :: rest).take skipped)) (rest.drop (skipped - 1))
      else if c = '\n' then scanFrom (⟨.newline, p, spaced⟩ :: done) true (p.after c) rest
      else
        match Lexeme.leading (done.head?.map Token.kind) c rest with
        | .ok l =>
            scanFrom (⟨l.kind, p, spaced⟩ :: done) false (p.afterAll ((c :: rest).take l.width))
              (rest.drop (l.width - 1))
        | .error e => .error ⟨e.cause, p.afterAll ((c :: rest).take e.offset)⟩
  termination_by cs.length
  decreasing_by all_goals simp_all; try omega

def scan (cs : List Char) : Except Misread (List Token) := scanFrom [] true ⟨1, 1⟩ cs

end Token

end TabPilot
