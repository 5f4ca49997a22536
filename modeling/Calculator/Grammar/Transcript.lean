import Calculator.Grammar.Descent

/-!
# Transcripts of a reading

A transcript lists the constructs of a reading in the order of their completion. Its values are
places in the list, so an operand says which construct it is. Without a stop, a transcript depends
on the tokens alone; with one, it ends in front of a chosen binary operation as if that had failed.
-/

namespace Calculator.Grammar

/-- The constructs completed so far. The value of each is its place, from zero up. -/
abbrev Transcript := Array (Construct Nat)

namespace Transcript

/-- Why a recorded reading ends early. -/
inductive Halt where
  /-- The tokens do not match the grammar. -/
  | malformed (cause : SyntaxError)
  /-- The chosen binary operation was reached. -/
  | stopped (operation : Nat)
  deriving DecidableEq, Repr

/-- The number of binary operations in a transcript. -/
def operations (transcript : Transcript) : Nat :=
  transcript.countP fun construct => construct.operator?.isSome

/-- Whether a construct is the binary operation with the chosen number, counted from zero. -/
def stopsAt (transcript : Transcript) (construct : Construct Nat) : Option Nat → Bool
  | none => false
  | some stop => construct.operator?.isSome && transcript.operations == stop

/-- The interpretation that records every construct, up to the chosen binary operation if there
is one. -/
def recorder (stop : Option Nat) : Interpretation Transcript Halt Nat where
  perform construct := do
    let transcript ← get
    if transcript.stopsAt construct stop then throw (.stopped transcript.operations)
    set (transcript.push construct)
    return transcript.size
  malformed := .malformed

end Transcript

end Calculator.Grammar
