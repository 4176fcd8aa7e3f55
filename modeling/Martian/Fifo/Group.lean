import Martian.Error

/-!
# First-in, first-out modifier groups

`fifo/fifo_group.go`: a group keeps a list of request modifiers and a list of response
modifiers and runs each list in insertion order. With `aggregateErrors` false the first error
stops the list and is returned; with it true every modifier runs and the errors are collected
into a `MultiError`, returned unless it is empty.

A modifier is kept as the package tells modifiers apart: a `*Group`, an `*ImmutableGroup`, or
any other modifier, which the package only calls. Other modifiers are named by a type `L`, and
`call l x` is what calling `l` on the message `x` does: the message it leaves and the error it
returns. A run records the other modifiers it invoked, in order, so that two runs can be
compared call by call. The read locks of `Group.ModifyRequest` only order it against
concurrent `Add*` calls and are not modelled.
-/

namespace Martian
namespace Fifo

/-- A modifier as the fifo package tells modifiers apart. -/
inductive Modifier (L : Type) where
  /-- Any modifier that is not a group of this package. -/
  | other (m : L)
  /-- A `*Group` with its `reqmods`, `resmods` and `aggregateErrors`. -/
  | group (reqmods resmods : List (Modifier L)) (aggregateErrors : Bool)
  /-- An `*ImmutableGroup`, by the fields of its embedded `group`. -/
  | immutable (reqmods resmods : List (Modifier L)) (aggregateErrors : Bool)

/-- Which list a call runs: `ModifyRequest` runs `reqmods`, `ModifyResponse` runs `resmods`. -/
inductive Side where
  | request
  | response
  deriving DecidableEq, Repr

/-- The list of a group that `side` runs. -/
def Side.pick {α : Type} : Side → α → α → α
  | .request, reqmods, _ => reqmods
  | .response, _, resmods => resmods

/-- What a run did: the other modifiers it invoked, in order, the message it left, and the
error it returned (`none` for `nil`). -/
structure Outcome (L σ : Type) where
  calls : List L
  msg : σ
  err : Option Error

/-- `r`, preceded by the invocations `calls`. -/
def Outcome.after {L σ : Type} (calls : List L) (r : Outcome L σ) : Outcome L σ :=
  { r with calls := calls ++ r.calls }

/-- The end of the loop: `nil` when `merr` is `nil` or empty, otherwise `merr`. -/
def result : Option MultiError → Option Error
  | some merr => if merr.empty then none else some (.multi merr.errs)
  | none => none

variable {L σ : Type} (call : L → σ → σ × Option Error)

mutual
/-- `m.ModifyRequest(req)` (`side = request`) or `m.ModifyResponse(res)`. -/
def Modifier.modify (side : Side) : Modifier L → σ → Outcome L σ
  | .other m, x => ⟨[m], (call m x).1, (call m x).2⟩
  | .group reqmods resmods agg, x | .immutable reqmods resmods agg, x =>
    match side with
    | .request => loop side agg reqmods x none
    | .response => loop side agg resmods x none
termination_by structural m => m
/-- The loop of `group.ModifyRequest` over the modifiers `ms` left, with `merr` so far. -/
def loop (side : Side) (agg : Bool) :
    List (Modifier L) → σ → Option MultiError → Outcome L σ
  | [], x, merr => ⟨[], x, result merr⟩
  | m :: ms, x, merr =>
    let r := m.modify side x
    match r.err with
    | none => (loop side agg ms r.msg merr).after r.calls
    | some err =>
      if agg then (loop side agg ms r.msg (some ((merr.getD .new).add err))).after r.calls
      else ⟨r.calls, r.msg, some err⟩
termination_by structural ms => ms
end

/-- `group.ModifyRequest`. -/
def Modifier.modifyRequest (m : Modifier L) (req : σ) : Outcome L σ := m.modify call .request req

/-- `group.ModifyResponse`. -/
def Modifier.modifyResponse (m : Modifier L) (res : σ) : Outcome L σ :=
  m.modify call .response res

@[simp] theorem Outcome.after_calls (calls : List L) (r : Outcome L σ) :
    (r.after calls).calls = calls ++ r.calls := rfl
@[simp] theorem Outcome.after_msg (calls : List L) (r : Outcome L σ) :
    (r.after calls).msg = r.msg := rfl
@[simp] theorem Outcome.after_err (calls : List L) (r : Outcome L σ) :
    (r.after calls).err = r.err := rfl
@[simp] theorem Outcome.after_after (calls calls' : List L) (r : Outcome L σ) :
    (r.after calls').after calls = r.after (calls ++ calls') := by
  simp [Outcome.after]
@[simp] theorem Outcome.after_nil (r : Outcome L σ) : r.after [] = r := rfl
@[simp] theorem Outcome.after_mk (calls cs : List L) (x : σ) (e : Option Error) :
    (Outcome.mk cs x e).after calls = ⟨calls ++ cs, x, e⟩ := rfl

@[simp] theorem result_none : result none = none := rfl

theorem result_some (merr : MultiError) :
    result (some merr) = if merr.errs.isEmpty then none else some (.multi merr.errs) := rfl

theorem Modifier.modify_group (side : Side) (reqmods resmods : List (Modifier L)) (agg : Bool)
    (x : σ) :
    (Modifier.group reqmods resmods agg).modify call side x =
      loop call side agg (side.pick reqmods resmods) x none := by
  cases side <;> simp [Modifier.modify, Side.pick]

theorem Modifier.modify_immutable (side : Side) (reqmods resmods : List (Modifier L))
    (agg : Bool) (x : σ) :
    (Modifier.immutable reqmods resmods agg).modify call side x =
      loop call side agg (side.pick reqmods resmods) x none := by
  cases side <;> simp [Modifier.modify, Side.pick]

@[simp] theorem loop_nil (side : Side) (agg : Bool) (x : σ) (merr : Option MultiError) :
    loop call side agg [] x merr = ⟨[], x, result merr⟩ := by
  simp [loop]

theorem loop_cons_ok {side : Side} {agg : Bool} {m : Modifier L} {x : σ}
    (h : (m.modify call side x).err = none) (ms : List (Modifier L)) (merr : Option MultiError) :
    loop call side agg (m :: ms) x merr =
      (loop call side agg ms (m.modify call side x).msg merr).after
        (m.modify call side x).calls := by
  simp [loop, h]

theorem loop_cons_err {side : Side} {agg : Bool} {m : Modifier L} {x : σ} {e : Error}
    (h : (m.modify call side x).err = some e) (ms : List (Modifier L)) (merr : Option MultiError) :
    loop call side agg (m :: ms) x merr =
      if agg then
        (loop call side agg ms (m.modify call side x).msg (some ((merr.getD .new).add e))).after
          (m.modify call side x).calls
      else ⟨(m.modify call side x).calls, (m.modify call side x).msg, some e⟩ := by
  simp [loop, h]

/-! ## Every modifier in turn -/

/-- A pass over a list: the modifiers invoked, the message left, and the non-nil errors
returned, in order. -/
structure Pass (L σ : Type) where
  calls : List L
  msg : σ
  errs : List Error

/-- Every modifier of the list run once, in order, on the message the one before left,
whatever errors they return. -/
def runAll (side : Side) : List (Modifier L) → σ → Pass L σ
  | [], x => ⟨[], x, []⟩
  | m :: ms, x =>
    let r := m.modify call side x
    let rest := runAll side ms r.msg
    ⟨r.calls ++ rest.calls, rest.msg, r.err.toList ++ rest.errs⟩

/-- An aggregated report of `errs`: `nil` when no error contributes a member, otherwise a
`MultiError` whose members are those of the errors, in order. -/
def collect (errs : List Error) : Option Error :=
  if (errs.flatMap Error.members).isEmpty then none else some (.multi (errs.flatMap Error.members))

@[simp] theorem runAll_nil (side : Side) (x : σ) : runAll call side [] x = ⟨[], x, []⟩ := rfl

theorem runAll_cons (side : Side) (m : Modifier L) (ms : List (Modifier L)) (x : σ) :
    runAll call side (m :: ms) x =
      ⟨(m.modify call side x).calls ++ (runAll call side ms (m.modify call side x).msg).calls,
        (runAll call side ms (m.modify call side x).msg).msg,
        (m.modify call side x).err.toList ++
          (runAll call side ms (m.modify call side x).msg).errs⟩ :=
  rfl

theorem result_getD (merr : Option MultiError) : result merr = result (some (merr.getD .new)) := by
  cases merr <;> rfl

/-- With `aggregateErrors`, the loop runs every modifier and ends with the errors it had
collected followed by the members of every error returned. -/
theorem loop_aggregate (side : Side) (ms : List (Modifier L)) (x : σ) (merr : Option MultiError) :
    loop call side true ms x merr =
      ⟨(runAll call side ms x).calls, (runAll call side ms x).msg,
        result (some ⟨(merr.getD .new).errs ++
          (runAll call side ms x).errs.flatMap Error.members⟩)⟩ := by
  induction ms generalizing x merr with
  | nil => simpa using result_getD merr
  | cons m ms ih =>
    cases h : (m.modify call side x).err with
    | none => simp [loop_cons_ok call h, ih, runAll_cons, h]
    | some e => simp [loop_cons_err call h, ih, runAll_cons, h]

/-- When no modifier errs, the loop runs each of them once and ends as it began. -/
theorem loop_of_no_error {side : Side} {agg : Bool} {ms : List (Modifier L)} {x : σ}
    (h : (runAll call side ms x).errs = []) (merr : Option MultiError) :
    loop call side agg ms x merr =
      ⟨(runAll call side ms x).calls, (runAll call side ms x).msg, result merr⟩ := by
  induction ms generalizing x with
  | nil => simp
  | cons m ms ih =>
    cases hm : (m.modify call side x).err with
    | some e => simp [runAll_cons, hm] at h
    | none =>
      simp only [runAll_cons, hm, Option.toList_none, List.nil_append] at h
      simp [loop_cons_ok call hm, ih h, runAll_cons]

/-- Without `aggregateErrors`, the loop stops at the first modifier that errs, after the ones
before it, and returns that error. -/
theorem loop_first_error {side : Side} {pre : List (Modifier L)} {m : Modifier L} {x : σ}
    {e : Error} (hpre : (runAll call side pre x).errs = [])
    (hm : (m.modify call side (runAll call side pre x).msg).err = some e)
    (post : List (Modifier L)) (merr : Option MultiError) :
    loop call side false (pre ++ m :: post) x merr =
      ⟨(runAll call side pre x).calls ++ (m.modify call side (runAll call side pre x).msg).calls,
        (m.modify call side (runAll call side pre x).msg).msg, some e⟩ := by
  induction pre generalizing x with
  | nil => simpa using loop_cons_err call hm post merr
  | cons p pre ih =>
    cases hp : (p.modify call side x).err with
    | some e => simp [runAll_cons, hp] at hpre
    | none =>
      simp only [runAll_cons, hp, Option.toList_none, List.nil_append] at hpre hm ⊢
      simp [List.cons_append, loop_cons_ok call hp, ih hpre hm]

/-- The error policy of a group, for both lists and both settings of `aggregateErrors`. -/
theorem group_errorPolicy (side : Side) (reqmods resmods : List (Modifier L)) (x : σ) :
    let ms := side.pick reqmods resmods
    (∀ pre m post e, ms = pre ++ m :: post → (runAll call side pre x).errs = [] →
        (m.modify call side (runAll call side pre x).msg).err = some e →
        (Modifier.group reqmods resmods false).modify call side x =
          ⟨(runAll call side pre x).calls ++ (m.modify call side (runAll call side pre x).msg).calls,
            (m.modify call side (runAll call side pre x).msg).msg, some e⟩) ∧
    ((runAll call side ms x).errs = [] →
        (Modifier.group reqmods resmods false).modify call side x =
          ⟨(runAll call side ms x).calls, (runAll call side ms x).msg, none⟩) ∧
    (Modifier.group reqmods resmods true).modify call side x =
      ⟨(runAll call side ms x).calls, (runAll call side ms x).msg,
        collect (runAll call side ms x).errs⟩ := by
  refine ⟨fun pre m post e hms hpre hm => ?_, fun h => ?_, ?_⟩
  · rw [Modifier.modify_group, hms, loop_first_error call hpre hm]
  · rw [Modifier.modify_group, loop_of_no_error call h]; rfl
  · rw [Modifier.modify_group, loop_aggregate]
    simp [collect, result, MultiError.empty]

end Fifo
end Martian
