/-
  Why a Dockerfile is not read. An error has the line on which the faulty step begins. It is reported
  with that line, but for an integer in an array that is too long to be converted: nobody expects the
  error of this conversion, and it ends the process.
-/
import Drydock.Number.Limit
import Drydock.Text.Quoted
import Drydock.Text.Utf8

namespace Drydock

/-- What is wrong with a Dockerfile. -/
inductive ParseCause where
  | notUtf8 (cause : Text.Utf8.Cause)
  | invalidEscape (value : Text)
  | unterminatedContinuation
  | invalidKeyword (keyword : Text)
  | missingBaseImage
  | missingUser
  | unterminatedHeredoc (name : Text)
  | tooManyDigits (count : Nat)
deriving DecidableEq, Repr

namespace ParseCause

/-- The wording of a cause. -/
def reason : ParseCause → Text
  | notUtf8 cause => Text.concat ["file is not valid UTF-8 (", cause.reason, ")"]
  | invalidEscape value => "invalid escape directive value " ++ Text.quoted value
  | unterminatedContinuation => "unterminated line continuation"
  | invalidKeyword keyword => "invalid instruction keyword " ++ Text.quoted keyword
  | missingBaseImage => "FROM requires a base image"
  | missingUser => "USER requires an argument"
  | unterminatedHeredoc name => "unterminated heredoc " ++ Text.quoted name
  | tooManyDigits count => Number.tooManyDigitsMessage count

/-- Whether the cause is reported as what is wrong with a Dockerfile. -/
def isReported : ParseCause → Bool
  | tooManyDigits _ => false
  | _ => true

end ParseCause

/-- A fault of a Dockerfile and the line it begins on. -/
structure ParseError where
  line : Nat
  cause : ParseCause
deriving DecidableEq, Repr

/-- A fault with its line, as it is reported; one that is not reported speaks of no line. -/
def ParseError.message (e : ParseError) : Text :=
  if e.cause.isReported then Text.concat ["line ", Text.ofNat e.line, ": ", e.cause.reason]
  else e.cause.reason

end Drydock
