import Mathlib.Data.Int.Notation

/-!
# The exceptions the program throws

C++ exceptions by type, with the text `what()` returns.  Handlers match on
the type: `catch (exception &)` sees everything derived from
`std::exception`, `catch (std::runtime_error &)` only part of it.  A call
that runs for ever, or whose behaviour is undefined, ends like an exception
that nothing catches.
-/

namespace Rc2Compute

/-- The exception types that occur.  `never` is none of them: the call does
not end, or its behaviour is undefined. -/
inductive ExceptionType where
  | runtimeError
  | dbException
  | statException
  | filesystemError
  | formattedException
  | outOfRange
  | badAlloc
  | domainError
  | rcppException
  | foreign
  | never
deriving DecidableEq, Repr

/-- Derived from `std::runtime_error`. -/
def ExceptionType.isRuntimeError : ExceptionType → Bool
  | .runtimeError | .dbException | .statException | .filesystemError => true
  | _ => false

/-- Derived from `std::exception`. -/
def ExceptionType.isStdException : ExceptionType → Bool
  | .foreign | .never => false
  | _ => true

structure CxxException where
  type : ExceptionType
  what : String
deriving DecidableEq, Repr

/-- `FormattedException` keeps at most `MAX_ERROR_LEN - 1` characters. -/
def FormattedException (text : String) : CxxException where
  type := .formattedException
  what := String.ofList (text.toList.take 255)

end Rc2Compute
