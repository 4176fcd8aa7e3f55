import Mathlib.Algebra.Order.Ring.Nat
import Martian.Error

/-!
# Instrumented connections

`connmetric.InstrumentedConn` wraps a `net.Conn`. `Read` and `Write` delegate to it, add the
byte count to an atomic counter and keep the first non-nil error in an
`atomic.Pointer[error]`; `Close` runs `close` once, which closes the inner connection and
sends a `StatsEntry` to the tracker.

The model follows one connection through a sequence of calls. What the inner connection
returns for each call is part of the call; the tracker is the list of entries it received.
`NewInstrumentedConn` leaves the error cell at its zero value, the nil pointer, so the cell is
an optional pointer to an error value, and dereferencing the nil pointer is a fault that ends
the run (a panic in the connection's goroutine).
-/

namespace Martian
namespace Connmetric

/-- `connmetric.StatsEntry`. -/
structure StatsEntry where
  address : String
  duration : Nat
  bytesIn : UInt64
  bytesOut : UInt64
  error : Option Error

/-- What stops a run: dereferencing a nil pointer. -/
inductive Fault where
  | nilDereference
  deriving DecidableEq, Repr

/-- `connmetric.InstrumentedConn`, with the entries its tracker received. -/
structure InstrumentedConn where
  address : String
  start : Nat
  bytesIn : UInt64
  bytesOut : UInt64
  /-- The `error` cell: `none` is the nil pointer, `some e` a pointer to the error value `e`. -/
  error : Option (Option Error)
  /-- Whether `closeOnce` has run `close`. -/
  closed : Bool
  closeError : Option Error
  /-- The entries `tracker.RecordStats` received. -/
  recorded : List StatsEntry

/-- One call on the connection, with what the inner connection returned for it. -/
inductive Call where
  /-- `Read`, the inner `Read` returning `n` and `err`. -/
  | read (n : Nat) (err : Option Error)
  /-- `Write`, the inner `Write` returning `n` and `err`. -/
  | write (n : Nat) (err : Option Error)
  /-- `Close` at time `now`, the inner `Close` returning `err` if it is called. -/
  | close (now : Nat) (err : Option Error)

/-- A call other than `Close`. -/
def Call.isReadWrite : Call → Bool
  | .close _ _ => false
  | _ => true

namespace InstrumentedConn

/-- `NewInstrumentedConn(conn, tracker)` at time `now`. -/
def new (address : String) (now : Nat) : InstrumentedConn :=
  ⟨address, now, 0, 0, none, false, none, []⟩

/-- `*ic.error.Load()`. -/
def loadError (ic : InstrumentedConn) : Except Fault (Option Error) :=
  match ic.error with
  | none => .error .nilDereference
  | some err => .ok err

/-- `if err != nil && *ic.error.Load() == nil { ic.error.Store(&err) }`, shared by `Read` and
`Write`. -/
def noteError (ic : InstrumentedConn) : Option Error → Except Fault InstrumentedConn
  | none => .ok ic
  | some err => do
    match ← ic.loadError with
    | none => pure { ic with error := some (some err) }
    | some _ => pure ic

/-- `ic.Read(b)`, the inner `Read` returning `n` and `err`. -/
def read (ic : InstrumentedConn) (n : Nat) (err : Option Error) :
    Except Fault (InstrumentedConn × Nat × Option Error) := do
  let ic ← ic.noteError err
  pure ({ ic with bytesIn := ic.bytesIn + n.toUInt64 }, n, err)

/-- `ic.Write(b)`, the inner `Write` returning `n` and `err`. -/
def write (ic : InstrumentedConn) (n : Nat) (err : Option Error) :
    Except Fault (InstrumentedConn × Nat × Option Error) := do
  let ic ← ic.noteError err
  pure ({ ic with bytesOut := ic.bytesOut + n.toUInt64 }, n, err)

/-- `ic.close()` at time `now`, the inner `Close` returning `err`. -/
def closeOnce (ic : InstrumentedConn) (now : Nat) (err : Option Error) :
    Except Fault InstrumentedConn := do
  let ic := { ic with closed := true, closeError := err }
  let stored ← ic.loadError
  pure { ic with
    recorded := ic.recorded ++ [⟨ic.address, now - ic.start, ic.bytesIn, ic.bytesOut, stored⟩] }

/-- `ic.Close()`: `closeOnce.Do(ic.close)`, then `closeError`. -/
def close (ic : InstrumentedConn) (now : Nat) (err : Option Error) :
    Except Fault (InstrumentedConn × Option Error) :=
  if ic.closed then pure (ic, ic.closeError)
  else do
    let ic ← ic.closeOnce now err
    pure (ic, ic.closeError)

/-- One call, its results dropped. -/
def step (ic : InstrumentedConn) : Call → Except Fault InstrumentedConn
  | .read n err => (·.1) <$> ic.read n err
  | .write n err => (·.1) <$> ic.write n err
  | .close now err => (·.1) <$> ic.close now err

/-- A sequence of calls, stopping at the first fault. -/
def run (ic : InstrumentedConn) : List Call → Except Fault InstrumentedConn
  | [] => .ok ic
  | c :: cs => ic.step c >>= (run · cs)

theorem run_append (ic : InstrumentedConn) (xs ys : List Call) :
    run ic (xs ++ ys) = run ic xs >>= (run · ys) := by
  induction xs generalizing ic with
  | nil => rfl
  | cons c cs ih =>
    show (ic.step c >>= (run · (cs ++ ys))) = (ic.step c >>= (run · cs)) >>= (run · ys)
    cases ic.step c with
    | error f => rfl
    | ok ic₁ => exact ih ic₁

/-- While the error cell is the nil pointer, a `Read` or `Write` either faults or leaves the
cell nil and the connection open. -/
theorem step_nil_cell {ic ic' : InstrumentedConn} {c : Call} (hrw : c.isReadWrite = true)
    (hnil : ic.error = none) (hopen : ic.closed = false) (h : ic.step c = .ok ic') :
    ic'.error = none ∧ ic'.closed = false := by
  cases c with
  | close => simp [Call.isReadWrite] at hrw
  | read n err | write n err =>
    cases err with
    | none =>
      simp only [step, read, write, noteError, bind, Except.bind, pure, Except.pure,
        Functor.map, Except.map, Except.ok.injEq] at h
      subst h; exact ⟨hnil, hopen⟩
    | some e => simp [step, read, write, noteError, loadError, hnil, bind, Except.bind] at h

/-- Any sequence of `Read` and `Write` calls from a nil cell faults or leaves the cell nil. -/
theorem run_nil_cell {ic ic' : InstrumentedConn} {cs : List Call}
    (hrw : ∀ c ∈ cs, c.isReadWrite = true) (hnil : ic.error = none) (hopen : ic.closed = false)
    (h : run ic cs = .ok ic') : ic'.error = none ∧ ic'.closed = false := by
  induction cs generalizing ic with
  | nil => cases h; exact ⟨hnil, hopen⟩
  | cons c cs ih =>
    simp only [run] at h
    cases hs : ic.step c with
    | error f => simp [hs, bind, Except.bind] at h
    | ok ic₁ =>
      obtain ⟨h1, h2⟩ := step_nil_cell (hrw c (List.mem_cons_self _ _)) hnil hopen hs
      simp only [hs, bind, Except.bind] at h
      exact ih (fun c hc => hrw c (List.mem_cons_of_mem _ hc)) h1 h2 h

/-- Every connection made by `NewInstrumentedConn` faults on any sequence of `Read` and `Write`
calls followed by a `Close`: `close` dereferences the nil error cell before `RecordStats`. -/
theorem run_close_faults (address : String) (t₀ : Nat) (cs : List Call)
    (hrw : ∀ c ∈ cs, c.isReadWrite = true) (now : Nat) (err : Option Error) (rest : List Call) :
    run (new address t₀) (cs ++ .close now err :: rest) = .error .nilDereference := by
  rw [run_append]
  cases h : run (new address t₀) cs with
  | error f => cases f; rfl
  | ok ic =>
    obtain ⟨hnil, hopen⟩ := run_nil_cell hrw rfl rfl h
    simp [run, step, close, closeOnce, loadError, hnil, hopen, bind, Except.bind]

theorem run_close_faults_after_io :
    run (new "client" 0) ([.read 5 none, .write 3 none] ++ [.close 9 none]) =
      .error .nilDereference :=
  run_close_faults "client" 0 [.read 5 none, .write 3 none] (by decide) 9 none []

/-- A fresh connection closed at once. -/
example : (new "client" 0).close 1 none = .error .nilDereference := rfl

/-! ## The byte counters

`atomic.AddUint64` adds the count of every `Read` to `bytesIn` and of every `Write` to
`bytesOut`, wrapping at `2^64`; nothing else moves them. -/

end InstrumentedConn

end Connmetric
end Martian
