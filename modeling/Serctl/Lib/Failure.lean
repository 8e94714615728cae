import Serctl.Lib.Text

/-!
# Errors with context

An error is a chain of messages, the outermost first, together with the error types that a
caller can recognise it by.
-/

namespace Serctl.Lib

/-- The types an error is recognised as, and its messages, outermost first. -/
structure Failure (Mark : Type) where
  marks : List Mark
  chain : List String
  deriving DecidableEq, Repr

namespace Failure

variable {Mark : Type}

/-- An error that is only a message. -/
def msg (message : String) : Failure Mark := ⟨[], [message]⟩

/-- An error of a type that callers recognise. -/
def typed (mark : Mark) (message : String) : Failure Mark := ⟨[mark], [message]⟩

/-- A message in front. -/
def context (e : Failure Mark) (message : String) : Failure Mark := ⟨e.marks, message :: e.chain⟩

/-- The error has this type. -/
def is [DecidableEq Mark] (e : Failure Mark) (mark : Mark) : Bool := e.marks.contains mark

/-- The outermost message. -/
def toString (e : Failure Mark) : String := e.chain.headD ""

/-- All messages, outermost first. -/
def alternate (e : Failure Mark) : String := Text.join ": " e.chain

end Failure

end Serctl.Lib
