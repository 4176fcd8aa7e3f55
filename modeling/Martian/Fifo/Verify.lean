import Martian.Fifo.Group

/-!
# Verification through groups

`Group.VerifyRequests` and `Group.VerifyResponses` of `fifo/fifo_group.go`: the group walks its
list in insertion order, skips every entry that does not implement `verify.RequestVerifier`
(`verify.ResponseVerifier`), calls `VerifyRequests()` (`VerifyResponses()`) on every entry that
does, and adds every non-nil error to a `MultiError`, returned unless it is empty.

A `*Group` implements both verifier interfaces, so a nested group is verified by its own loop;
an `*ImmutableGroup` implements neither. Whether another modifier is a verifier, and what its
verification returns, is `verify side m`: `none` when `m` does not implement the interface of
`side`. The locks the two methods take are not modelled.

`verifyLoop_eq` says what the loop computes on every list: the calls of the verifier entries,
each once and in order, and the members of their errors collected into one `MultiError`.
Because `MultiError.Add` splices in the members of an added `*MultiError`, a nested group's
errors arrive in the parent's `MultiError` one by one, not as one member
(`verifyRequests_nested`).
-/

namespace Martian
namespace Fifo

variable {L : Type}

/-- What a verification did: the verifiers it called, in order, and the error it returned
(`none` for `nil`). -/
structure Verdict (L : Type) where
  calls : List L
  err : Option Error

/-- `v`, preceded by the calls `calls`. -/
def Verdict.after (calls : List L) (v : Verdict L) : Verdict L :=
  { v with calls := calls ++ v.calls }

@[simp] theorem Verdict.after_calls (calls : List L) (v : Verdict L) :
    (v.after calls).calls = calls ++ v.calls := rfl
@[simp] theorem Verdict.after_err (calls : List L) (v : Verdict L) :
    (v.after calls).err = v.err := rfl

variable (verify : Side → L → Option (Option Error))

mutual
/-- `m.(verify.RequestVerifier)` followed by `VerifyRequests()` (`side = request`), or the same
for responses: `none` when `m` does not implement the interface. -/
def Modifier.verifier (side : Side) : Modifier L → Option (Verdict L)
  | .other m => (verify side m).map fun err => ⟨[m], err⟩
  | .group reqmods resmods _ =>
    match side with
    | .request => some (verifyLoop side reqmods none)
    | .response => some (verifyLoop side resmods none)
  | .immutable _ _ _ => none
termination_by structural m => m
/-- The loop of `Group.VerifyRequests` (`Group.VerifyResponses`) over the modifiers `ms` left,
with `merr` so far. -/
def verifyLoop (side : Side) : List (Modifier L) → Option MultiError → Verdict L
  | [], merr => ⟨[], result merr⟩
  | m :: ms, merr =>
    match m.verifier side with
    | none => verifyLoop side ms merr
    | some v =>
      match v.err with
      | none => (verifyLoop side ms merr).after v.calls
      | some err => (verifyLoop side ms (some ((merr.getD .new).add err))).after v.calls
termination_by structural ms => ms
end

/-- `g.VerifyRequests()` for a `*Group` `g` whose request modifiers are `reqmods`. -/
def Group.verifyRequests (reqmods : List (Modifier L)) : Verdict L :=
  verifyLoop verify .request reqmods none

/-- `g.VerifyResponses()` for a `*Group` `g` whose response modifiers are `resmods`. -/
def Group.verifyResponses (resmods : List (Modifier L)) : Verdict L :=
  verifyLoop verify .response resmods none

/-- The verifications of the verifier entries of `ms`, in order. -/
def verdicts (side : Side) (ms : List (Modifier L)) : List (Verdict L) :=
  ms.filterMap (·.verifier verify side)

@[simp] theorem verdicts_nil (side : Side) : verdicts verify side ([] : List (Modifier L)) = [] :=
  rfl

theorem verdicts_cons (side : Side) (m : Modifier L) (ms : List (Modifier L)) :
    verdicts verify side (m :: ms) = (m.verifier verify side).toList ++ verdicts verify side ms := by
  cases h : m.verifier verify side <;> simp [verdicts, List.filterMap_cons, h]

theorem verifyLoop_cons (side : Side) (m : Modifier L) (ms : List (Modifier L))
    (merr : Option MultiError) :
    verifyLoop verify side (m :: ms) merr =
      match m.verifier verify side with
      | none => verifyLoop verify side ms merr
      | some v =>
        match v.err with
        | none => (verifyLoop verify side ms merr).after v.calls
        | some err => (verifyLoop verify side ms (some ((merr.getD .new).add err))).after v.calls :=
  by simp [verifyLoop]

/-- The loop on any list: the calls of the verifier entries, each verification once and in
insertion order, and the error collected from what was gathered so far followed by the members
of every non-nil verification error, in order. -/
theorem verifyLoop_eq (side : Side) (ms : List (Modifier L)) (merr : Option MultiError) :
    verifyLoop verify side ms merr =
      ⟨(verdicts verify side ms).flatMap Verdict.calls,
        result (some ⟨(merr.getD .new).errs ++
          ((verdicts verify side ms).filterMap Verdict.err).flatMap Error.members⟩)⟩ := by
  induction ms generalizing merr with
  | nil => simpa [verifyLoop] using result_getD merr
  | cons m ms ih =>
    rw [verifyLoop_cons, verdicts_cons]
    rcases hv : m.verifier verify side with _ | ⟨calls, _ | err⟩
    · simp [ih]
    · simp [Verdict.after, ih]
    · simp [Verdict.after, ih]

/-- `VerifyRequests` and `VerifyResponses` call every verifier entry once, in insertion order,
and skip the others; they return `nil` exactly when no non-nil verification error contributes
a member, and otherwise a `MultiError` whose members are those of the non-nil verification
errors, in insertion order. -/
theorem group_verify (reqmods resmods : List (Modifier L)) :
    Group.verifyRequests verify reqmods =
        ⟨(verdicts verify .request reqmods).flatMap Verdict.calls,
          collect ((verdicts verify .request reqmods).filterMap Verdict.err)⟩ ∧
      Group.verifyResponses verify resmods =
        ⟨(verdicts verify .response resmods).flatMap Verdict.calls,
          collect ((verdicts verify .response resmods).filterMap Verdict.err)⟩ := by
  constructor <;> simp [Group.verifyRequests, Group.verifyResponses, verifyLoop_eq, collect,
    result, MultiError.empty]

/-- Two failing request verifiers, `0` and `1`, inside a nested group: the group's verification
calls each once and returns one non-nil error, a `MultiError` of two members; the outer
`MultiError` holds those two members, not that error. -/
theorem verifyRequests_nested :
    let verify : Side → Nat → Option (Option Error) := fun _ n => some (some (.other (toString n)))
    let ms : List (Modifier Nat) := [.group [.other 0, .other 1] [] false]
    (verdicts verify .request ms).filterMap Verdict.err = [.multi [.other "0", .other "1"]] ∧
      Group.verifyRequests verify ms = ⟨[0, 1], some (.multi [.other "0", .other "1"])⟩ ∧
      (Group.verifyRequests verify ms).err ≠
        some (.multi ((verdicts verify .request ms).filterMap Verdict.err)) := by
  refine ⟨rfl, rfl, ?_⟩
  simp [Group.verifyRequests, verifyLoop, Modifier.verifier, verdicts, result, MultiError.add,
    MultiError.empty, Error.members]

end Fifo
end Martian
