import SqlRenewal.Text.Integer
import SqlRenewal.Text.Quoted

/-!
# Reasons to leave a statement alone

A legacy statement is changed only if its bounds are certain and its arguments
have a modern counterpart. Everything else is left as it is and reported with
one of these reasons.
-/
namespace SqlRenewal

/-- Why a legacy statement stays as it is. -/
inductive Reason where
  /-- The opening parenthesis is never closed. -/
  | unclosed
  /-- Another legacy keyword stands inside the statement. -/
  | nested
  /-- The line ends right after the error code. -/
  | noGap
  /-- Nothing but a terminator follows the error code. -/
  | noMessage
  /-- The keyword is followed by neither a parenthesis nor a code. -/
  | unrecognized
  /-- The argument list has an empty first argument. -/
  | emptyArgument
  /-- The error code is not an integer literal. -/
  | notANumber (code : Text)
  /-- A number has more digits than are converted to a value. -/
  | digitOverflow (overflow : DigitOverflow)
deriving DecidableEq, Repr

/-- The wording of a reason. -/
def Reason.message : Reason → String
  | .unclosed => "no matching close parenthesis"
  | .nested => "nested RAISERROR inside statement"
  | .noGap => "no whitespace between error code and message"
  | .noMessage => "missing message expression"
  | .unrecognized => "unrecognized RAISERROR form"
  | .emptyArgument => "empty first parameter in legacy error statement"
  | .notANumber code => "non-numeric error code " ++ String.ofList (Quoted.encode code)
  | .digitOverflow overflow => overflow.message

end SqlRenewal
