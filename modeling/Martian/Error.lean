import Mathlib.Data.List.Infix

/-!
# Errors and `MultiError`

Go `error` values as the proxy engine and the modifier groups tell them apart: the sentinel
errors the engine compares against (`io.EOF`, `io.ErrClosedPipe`, `io.ErrUnexpectedEOF` and the
engine's own `errClose`), timeouts, the traffic-shaping force-close error, `*MultiError`, and any
other error by its `Error()` text.

`martian.MultiError` is not among the sources; it is modelled from the spec's multi-error
container ("empty → success, otherwise a container whose rendering joins member errors"), with
`Add` splicing in the members of an added `*MultiError`, so that a container never holds
another one.
-/

namespace Martian

/-- A Go `error` value. -/
inductive Error where
  /-- `io.EOF`. -/
  | eof
  /-- `io.ErrClosedPipe`. -/
  | closedPipe
  /-- `io.ErrUnexpectedEOF`. -/
  | unexpectedEOF
  /-- `errClose` (`errors.New("closing connection")`). -/
  | close
  /-- A `net.Error` whose `Timeout()` is true. -/
  | timeout (text : String)
  /-- A `*trafficshape.ErrForceClose`. -/
  | forceClose (text : String)
  /-- Any other error, by its `Error()` text. -/
  | other (text : String)
  /-- A `*MultiError` holding `errs`. -/
  | multi (errs : List Error)
  deriving Repr, Inhabited

namespace Error

mutual
/-- `err.Error()`; a `*MultiError` joins its members' texts with newlines. -/
def message : Error → String
  | .eof => "EOF"
  | .closedPipe => "io: read/write on closed pipe"
  | .unexpectedEOF => "unexpected EOF"
  | .close => "closing connection"
  | .timeout text | .forceClose text | .other text => text
  | .multi errs => "\n".intercalate (messages errs)
/-- The texts of a list of errors, in order. -/
def messages : List Error → List String
  | [] => []
  | e :: es => message e :: messages es
end

/-- The errors `MultiError.Add` appends for `err`: the members of a `*MultiError`, otherwise
`err` itself. -/
def members : Error → List Error
  | .multi errs => errs
  | err => [err]

@[simp] theorem members_multi (errs : List Error) : members (.multi errs) = errs := rfl

end Error

/-- Modelled from the spec: `martian.MultiError`, the multi-error container, by its members. -/
structure MultiError where
  errs : List Error
  deriving Repr

namespace MultiError

/-- `NewMultiError()`. -/
def new : MultiError := ⟨[]⟩

/-- Modelled from the spec: `merr.Add(err)` collects `err` into the container; an added
`*MultiError` contributes its members. -/
def add (merr : MultiError) (err : Error) : MultiError := ⟨merr.errs ++ err.members⟩

/-- Modelled from the spec: `merr.Empty()`. -/
def empty (merr : MultiError) : Bool := merr.errs.isEmpty

@[simp] theorem new_errs : new.errs = [] := rfl
@[simp] theorem add_errs (merr : MultiError) (err : Error) :
    (merr.add err).errs = merr.errs ++ err.members := rfl
@[simp] theorem empty_iff (merr : MultiError) : merr.empty = true ↔ merr.errs = [] := by
  simp [empty]

end MultiError

end Martian
