import Martian.Fifo.Snapshot
import Mathlib.Logic.Relation
import Mathlib.Order.WellFoundedSet

/-!
# The locks of groups, over every interleaving

`Group` guards `reqmods` with `reqmu` and `resmods` with `resmu`, two `sync.RWMutex`.
`ModifyRequest` and `ModifyResponse` take the lock of their list for reading; the `Add*`, `Verify*`
and `Reset*` methods take it for writing, and `ToImmutable` takes `reqmu`, then `resmu`, for
writing. A call on a group calls the groups in its list while it holds its own locks, so a
goroutine holds the locks of a chain of nested groups at once. `SetAggregateErrors` takes no lock,
and neither does `ImmutableGroup`, which embeds the unguarded `group`.

This module runs any number of goroutines inside these calls, one step at a time in any order,
over the heap of groups of `Martian.Fifo.Snapshot`. A goroutine is a stack of frames, one per call,
the callee on top; a frame is at a stage of its call: taking its locks, ranging over a list, or
running its deferred unlocks. The state of each `RWMutex` is read off the goroutines: its readers
are the frames in through `RLock`, its writer the frame whose `Lock` has begun. As in
`sync.RWMutex`, a `Lock` that has begun keeps new readers out while it waits for the readers in to
leave. What the calls compute is in `Martian.Fifo.Group`, `Martian.Fifo.Verify` and
`Martian.Fifo.Snapshot`; here a call keeps what decides which locks it takes and when: the list it
ranges over, and for `ModifyRequest` the errors that end it early and `aggregateErrors`, read anew
at each error since `SetAggregateErrors` may change it meanwhile. Other modifiers return any error
and take no lock of the package.

`range_stable` says that the locks do what they are for: no step of any goroutine changes a list
while a call ranges over it. `deadlock_free` says that, as long as no group holds itself (through
other groups or `ImmutableGroup`s), some goroutine inside a call can always go on. Its proof rests
on the order of the locks: a call takes the locks of a group before those of the groups in its
lists, and `reqmu` before `resmu` (`Mu.Before`), so a goroutine only waits for a lock above every
lock it holds (`Nested.held_before`).
-/

namespace Martian
namespace Fifo

variable {L : Type}

/-! ## Locks, calls and goroutines -/

/-- `reqmu` (`side = request`) or `resmu` of the `*Group` at `g`. -/
structure Mu where
  g : Nat
  side : Side
  deriving DecidableEq, Repr

/-- How a call takes a lock: `RLock` or `Lock`. -/
inductive Mode where
  | read
  | write
  deriving DecidableEq, Repr

/-- A method of the package, by what it does with the locks. -/
inductive Method (L : Type) where
  /-- `ModifyRequest` (`side = request`) or `ModifyResponse`. -/
  | modify (side : Side)
  /-- `VerifyRequests` or `VerifyResponses`. -/
  | verify (side : Side)
  /-- `ResetRequestVerifications` or `ResetResponseVerifications`. -/
  | reset (side : Side)
  /-- `ToImmutable`. -/
  | toImmutable
  /-- `AddRequestModifier(m)` or `AddResponseModifier(m)`. -/
  | add (side : Side) (m : Entry L)

/-- The receiver of a call: a `*Group` by its address, or an `*ImmutableGroup` by its fields. -/
inductive Recv (L : Type) where
  | group (g : Nat)
  | immutable (reqmods resmods : List (Entry L)) (aggregateErrors : Bool)

/-- The receiver as a modifier in a list. -/
def Recv.entry : Recv L → Entry L
  | .group g => .group g
  | .immutable reqmods resmods agg => .immutable reqmods resmods agg

/-- The locks a call takes, in order, and how: the `*Group` methods lock as above, and the
`group` methods that `ImmutableGroup` embeds take none. -/
def Recv.locks : Recv L → Method L → List (Mu × Mode)
  | .immutable .., _ => []
  | .group g, .modify side => [(⟨g, side⟩, .read)]
  | .group g, .verify side | .group g, .reset side | .group g, .add side _ => [(⟨g, side⟩, .write)]
  | .group g, .toImmutable => [(⟨g, .request⟩, .write), (⟨g, .response⟩, .write)]

/-- The lists a method ranges over, in order. -/
def Method.lists : Method L → List Side
  | .modify side | .verify side | .reset side => [side]
  | .toImmutable => [.request, .response]
  | .add _ _ => []

/-- The receiver's list `side`, read from the heap for a `*Group`. -/
def Recv.mods (h : Heap L) (side : Side) : Recv L → List (Entry L)
  | .group g => (h g).mods side
  | .immutable reqmods resmods _ => side.pick reqmods resmods

/-- The receiver's `aggregateErrors`, read from the heap for a `*Group`. -/
def Recv.aggregateErrors (h : Heap L) : Recv L → Bool
  | .group g => (h g).aggregateErrors
  | .immutable _ _ agg => agg

/-- Where a call is. -/
inductive Stage (L : Type) where
  /-- The first `n` locks are held; the next one is to be taken. -/
  | lock (n : Nat)
  /-- The first `n` locks are held, and the `Lock` of the next one has the writer's turn and
  waits for the readers in to leave. -/
  | wait (n : Nat)
  /-- `for _, m := range` over the `k`-th list, with `ms` left and the errors `merr` so far. -/
  | loop (k : Nat) (ms : List (Entry L)) (merr : Option MultiError)
  /-- The deferred unlocks, with `n` locks still held, released last first; the call returns
  `res`. -/
  | unlock (n : Nat) (res : Option Error)

/-- A call of `m` on `recv`, at `stage`. -/
structure Frame (L : Type) where
  recv : Recv L
  m : Method L
  stage : Stage L

/-- The locks a frame holds. -/
def Frame.held (f : Frame L) : List (Mu × Mode) :=
  match f.stage with
  | .lock n | .wait n | .unlock n _ => (f.recv.locks f.m).take n
  | .loop .. => f.recv.locks f.m

/-- The lock whose `Lock` the frame has begun. -/
def Frame.turn (f : Frame L) : Option Mu :=
  match f.stage with
  | .wait n => ((f.recv.locks f.m)[n]?).map Prod.fst
  | _ => none

/-- The lock the frame is to take next. -/
def Frame.want (f : Frame L) : Option Mu :=
  match f.stage with
  | .lock n | .wait n => ((f.recv.locks f.m)[n]?).map Prod.fst
  | _ => none

/-- What a call does with the next entry of its list. -/
inductive Visit (L : Type) where
  /-- Calls it, an other modifier, and gets its error. -/
  | call
  /-- Goes past it: `ToImmutable` appends it, a reset calls it with no result, and an
  `*ImmutableGroup` is no verifier. -/
  | skip
  /-- Calls a method of the package on it. -/
  | push (f : Frame L)

/-- What `m` does with the entry `e` of its list: the same method on a nested `*Group`, and
`ModifyRequest` (or Response) on a nested `*ImmutableGroup`. -/
def Method.visit (m : Method L) : Entry L → Visit L
  | .other _ =>
    match m with
    | .modify _ | .verify _ => .call
    | _ => .skip
  | .group g => .push ⟨.group g, m, .lock 0⟩
  | .immutable reqmods resmods agg =>
    match m with
    | .modify side => .push ⟨.immutable reqmods resmods agg, .modify side, .lock 0⟩
    | _ => .skip

/-- The loop after an entry of the `k`-th list returned `r`, with `ms` left: `ModifyRequest`
returns the error unless `aggregateErrors` is set now, and `VerifyRequests` collects it. -/
def Frame.absorb (h : Heap L) (f : Frame L) (k : Nat) (ms : List (Entry L))
    (merr : Option MultiError) : Option Error → Stage L
  | none => .loop k ms merr
  | some err =>
    match f.m with
    | .modify _ =>
      if f.recv.aggregateErrors h then .loop k ms (some ((merr.getD .new).add err))
      else .unlock (f.recv.locks f.m).length (some err)
    | .verify _ => .loop k ms (some ((merr.getD .new).add err))
    | _ => .loop k ms merr

/-- The end of the `k`-th list: the next list, read now, or the deferred unlocks. -/
def Frame.next (h : Heap L) (f : Frame L) (k : Nat) (merr : Option MultiError) : Stage L :=
  match f.m.lists[k + 1]? with
  | some side => .loop (k + 1) (f.recv.mods h side) merr
  | none => .unlock (f.recv.locks f.m).length (result merr)

/-- A caller once its callee returned `r`. -/
def Frame.resume (h : Heap L) (f : Frame L) (r : Option Error) : Frame L :=
  match f.stage with
  | .loop k ms merr => { f with stage := f.absorb h k ms merr r }
  | _ => f

/-- The body of a call once its locks are held: `Add*` appends, the others range over their first
list, read now. -/
def Frame.begin (h : Heap L) (f : Frame L) : Heap L × Frame L :=
  match f.recv, f.m with
  | .group g, .add side e => (Group.addModifier side h g e, { f with stage := .unlock 1 none })
  | recv, m => (h, { f with stage :=
      match m.lists with
      | side :: _ => .loop 0 (recv.mods h side) none
      | [] => .unlock (recv.locks m).length none })

/-- What replaces the top frame of a goroutine after its step. -/
inductive Next (L : Type) where
  /-- The frame goes on. -/
  | stay (f : Frame L)
  /-- The frame `f` calls `g`. -/
  | call (g f : Frame L)
  /-- The call returns `res` to its caller. -/
  | ret (res : Option Error)

/-- The stack after a step of its top frame. -/
def Next.apply (h : Heap L) : Next L → List (Frame L) → List (Frame L)
  | .stay f, rest => f :: rest
  | .call g f, rest => g :: f :: rest
  | .ret _, [] => []
  | .ret res, p :: rest => p.resume h res :: rest

/-- The locks a goroutine holds, and how. -/
def held (t : List (Frame L)) : List (Mu × Mode) := t.flatMap Frame.held

/-- The locks whose `Lock` a goroutine has begun. -/
def turns (t : List (Frame L)) : List Mu := t.filterMap Frame.turn

/-- The goroutines inside calls of the package, and the groups. -/
structure Calls (L : Type) where
  heap : Heap L
  /-- The stacks of the goroutines, top first; `[]` once the call returned. -/
  tasks : List (List (Frame L))

/-- Some goroutine has the writer's turn of `mu`: its `Lock` has begun. -/
def Calls.writerTurn (s : Calls L) (mu : Mu) : Bool :=
  s.tasks.any fun t => decide ((mu, Mode.write) ∈ held t ∨ mu ∈ turns t)

/-- Some goroutine holds `mu` through `RLock`. -/
def Calls.readers (s : Calls L) (mu : Mu) : Bool :=
  s.tasks.any fun t => decide ((mu, Mode.read) ∈ held t)

/-- The next step of the frame `f` on top of a goroutine, if it can take one: the heap it
leaves and what replaces it. `r` is the error an other modifier it calls returns. A lock is
taken when no goroutine has the writer's turn; a `Lock` with the turn goes in when no reader is
in. -/
def Calls.stepTop (s : Calls L) (r : Option Error) (f : Frame L) : Option (Heap L × Next L) :=
  match f.stage with
  | .lock n =>
    match (f.recv.locks f.m)[n]? with
    | none => some ((f.begin s.heap).1, .stay (f.begin s.heap).2)
    | some (mu, mode) =>
      if s.writerTurn mu then none
      else some (s.heap, .stay { f with stage :=
        match mode with
        | .read => .lock (n + 1)
        | .write => .wait n })
  | .wait n =>
    if ((f.recv.locks f.m)[n]?).any fun l => s.readers l.1 then none
    else some (s.heap, .stay { f with stage := .lock (n + 1) })
  | .loop k [] merr => some (s.heap, .stay { f with stage := f.next s.heap k merr })
  | .loop k (e :: ms) merr =>
    some (s.heap,
      match f.m.visit e with
      | .call => .stay { f with stage := f.absorb s.heap k ms merr r }
      | .skip => .stay { f with stage := .loop k ms merr }
      | .push g => .call g { f with stage := .loop k ms merr })
  | .unlock (n + 1) res => some (s.heap, .stay { f with stage := .unlock n res })
  | .unlock 0 res => some (s.heap, .ret res)

/-- The next step of a goroutine with the stack `t`. -/
def Calls.stepTask (s : Calls L) (r : Option Error) : List (Frame L) → Option (Heap L × List (Frame L))
  | [] => none
  | f :: rest => (s.stepTop r f).map fun x => (x.1, x.2.apply s.heap rest)

/-- What can happen next. -/
inductive Act (L : Type) where
  /-- A goroutine calls `m` on the `*Group` at `g`. -/
  | call (g : Nat) (m : Method L)
  /-- A goroutine calls `ModifyRequest` (or Response) on an `*ImmutableGroup`. -/
  | callImmutable (side : Side) (reqmods resmods : List (Entry L)) (agg : Bool)
  /-- `g.SetAggregateErrors(aggerr)`. -/
  | setAggregateErrors (g : Nat) (aggerr : Bool)
  /-- The goroutine `i` takes its next step; an other modifier it calls returns `r`. -/
  | run (i : Nat) (r : Option Error)

/-- The state after `a`, if it can happen. -/
def Calls.step (s : Calls L) : Act L → Option (Calls L)
  | .call g m => some { s with tasks := s.tasks ++ [[⟨.group g, m, .lock 0⟩]] }
  | .callImmutable side reqmods resmods agg =>
    some { s with tasks := s.tasks ++ [[⟨.immutable reqmods resmods agg, .modify side, .lock 0⟩]] }
  | .setAggregateErrors g aggerr => some { s with heap := Group.setAggregateErrors s.heap g aggerr }
  | .run i r =>
    s.tasks[i]?.bind fun t => (s.stepTask r t).map fun x => ⟨x.1, s.tasks.set i x.2⟩

/-- The states reached from the groups `h0`, before any goroutine is inside a call. -/
inductive Calls.Reachable (h0 : Heap L) : Calls L → Prop
  | init : Calls.Reachable h0 ⟨h0, []⟩
  | step {s s' : Calls L} {a : Act L} : Calls.Reachable h0 s → s.step a = some s' →
      Calls.Reachable h0 s'


/-! ## Small facts -/

@[simp] theorem Frame.held_lock (r : Recv L) (m : Method L) (n : Nat) :
    (Frame.mk r m (.lock n)).held = (r.locks m).take n := rfl
@[simp] theorem Frame.held_wait (r : Recv L) (m : Method L) (n : Nat) :
    (Frame.mk r m (.wait n)).held = (r.locks m).take n := rfl
@[simp] theorem Frame.held_loop (r : Recv L) (m : Method L) (k : Nat) (ms : List (Entry L))
    (merr : Option MultiError) : (Frame.mk r m (.loop k ms merr)).held = r.locks m := rfl
@[simp] theorem Frame.held_unlock (r : Recv L) (m : Method L) (n : Nat) (res : Option Error) :
    (Frame.mk r m (.unlock n res)).held = (r.locks m).take n := rfl
@[simp] theorem Frame.turn_wait (r : Recv L) (m : Method L) (n : Nat) :
    (Frame.mk r m (.wait n)).turn = ((r.locks m)[n]?).map Prod.fst := rfl
@[simp] theorem Frame.turn_lock (r : Recv L) (m : Method L) (n : Nat) :
    (Frame.mk r m (.lock n)).turn = none := rfl
@[simp] theorem Frame.turn_loop (r : Recv L) (m : Method L) (k : Nat) (ms : List (Entry L))
    (merr : Option MultiError) : (Frame.mk r m (.loop k ms merr)).turn = none := rfl
@[simp] theorem Frame.turn_unlock (r : Recv L) (m : Method L) (n : Nat) (res : Option Error) :
    (Frame.mk r m (.unlock n res)).turn = none := rfl

@[simp] theorem held_nil : held ([] : List (Frame L)) = [] := rfl
@[simp] theorem held_cons (f : Frame L) (t : List (Frame L)) : held (f :: t) = f.held ++ held t :=
  List.flatMap_cons _ _ _
@[simp] theorem turns_nil : turns ([] : List (Frame L)) = [] := rfl
@[simp] theorem turns_cons (f : Frame L) (t : List (Frame L)) :
    turns (f :: t) = (f.turn.toList ++ turns t) := by
  cases h : f.turn <;> simp [turns, List.filterMap_cons, h]

theorem Calls.writerTurn_iff (s : Calls L) (mu : Mu) :
    s.writerTurn mu = true ↔ ∃ t ∈ s.tasks, (mu, Mode.write) ∈ held t ∨ mu ∈ turns t := by
  simp [Calls.writerTurn]
theorem Calls.readers_iff (s : Calls L) (mu : Mu) :
    s.readers mu = true ↔ ∃ t ∈ s.tasks, (mu, Mode.read) ∈ held t := by
  simp [Calls.readers]

theorem Group.mods_addModifier (side : Side) (h : Heap L) (g : Nat) (e : Entry L) (g' : Nat)
    (side' : Side) :
    (Group.addModifier side h g e g').mods side' =
      if g' = g ∧ side' = side then (h g).mods side ++ [e] else (h g').mods side' := by
  by_cases hg : g' = g
  · subst hg
    cases side <;> cases side' <;> simp [Group.addModifier, Heap.set, GroupFields.mods, Side.pick]
  · cases side <;> simp [Group.addModifier, Heap.set, hg]

@[simp] theorem Group.mods_setAggregateErrors (h : Heap L) (g : Nat) (aggerr : Bool) (g' : Nat)
    (side : Side) : (Group.setAggregateErrors h g aggerr g').mods side = (h g').mods side := by
  by_cases hg : g' = g
  · subst hg
    cases side <;> simp [Group.setAggregateErrors, Heap.set, GroupFields.mods, Side.pick]
  · simp [Group.setAggregateErrors, Heap.set, hg]


/-! ## The order of the locks -/

/-- The `*Group` at `g` is the entry, or inside it when it is an `*ImmutableGroup`. -/
inductive Entry.Names : Entry L → Nat → Prop
  | group (g : Nat) : Entry.Names (.group g) g
  | inner {reqmods resmods : List (Entry L)} {agg : Bool} {e : Entry L} {g : Nat} (side : Side) :
      e ∈ side.pick reqmods resmods → Entry.Names e g →
      Entry.Names (.immutable reqmods resmods agg) g

/-- The `*Group` at `c` is in a list of the `*Group` at `g`, or inside an `*ImmutableGroup`
there: a call on `g` may call `c`. -/
def Group.Sub (h : Heap L) (g c : Nat) : Prop := ∃ side, ∃ e ∈ (h g).mods side, e.Names c

/-- No group holds itself, through any number of others. -/
def Heap.Acyclic (h : Heap L) : Prop := ∀ g, ¬Relation.TransGen (Group.Sub h) g g

/-- The order in which calls take locks: `reqmu` before `resmu` of a group, and the locks of a
group before those of the groups it holds. -/
def Mu.Before (h : Heap L) (a b : Mu) : Prop :=
  (a.g = b.g ∧ a.side = .request ∧ b.side = .response) ∨ Relation.TransGen (Group.Sub h) a.g b.g

theorem Mu.Before.trans {h : Heap L} {a b c : Mu} (hab : a.Before h b) (hbc : b.Before h c) :
    a.Before h c := by
  rcases hab with ⟨hg, -, hb⟩ | hab <;> rcases hbc with ⟨hg', hb', -⟩ | hbc
  · rw [hb] at hb'
    cases hb'
  · exact .inr (hg ▸ hbc)
  · exact .inr (hg' ▸ hab)
  · exact .inr (hab.trans hbc)

theorem Mu.Before.irrefl {h : Heap L} (ha : h.Acyclic) (a : Mu) : ¬a.Before h a := by
  rintro (⟨-, h1, h2⟩ | hc)
  · rw [h1] at h2
    cases h2
  · exact ha _ hc

/-- Among finitely many locks, one is below none of the others. -/
theorem Mu.exists_top {h : Heap L} (ha : h.Acyclic) {W : List Mu} (hW : W ≠ []) :
    ∃ w ∈ W, ∀ w' ∈ W, ¬w.Before h w' := by
  haveI : IsStrictOrder Mu (fun a b => b.Before h a) :=
    { irrefl := Mu.Before.irrefl ha, trans := fun _ _ _ hab hbc => hbc.trans hab }
  obtain ⟨w, hw⟩ := List.exists_mem_of_ne_nil W hW
  obtain ⟨⟨m, hm⟩, -, hmin⟩ :=
    WellFounded.has_min ((List.finite_toSet W).wellFoundedOn (r := fun a b => b.Before h a))
      Set.univ ⟨⟨w, hw⟩, trivial⟩
  exact ⟨m, hm, fun w' hw' hb => hmin ⟨w', hw'⟩ trivial hb⟩


/-! ## The invariant -/

/-- The `*Group` of the nearest frame on a `*Group`. -/
def anchor : List (Frame L) → Option Nat
  | [] => none
  | f :: rest =>
    match f.recv with
    | .group g => some g
    | .immutable .. => anchor rest

/-- Every `*Group` the receiver names is held by the `*Group` at `a`. -/
def Frame.Inside (h : Heap L) (a : Nat) (f : Frame L) : Prop :=
  ∀ c, f.recv.entry.Names c → Group.Sub h a c

/-- A frame ranging over a list ranges over what is left of its receiver's list in `h`. -/
def Frame.Ranges (h : Heap L) (f : Frame L) : Prop :=
  ∀ k ms merr, f.stage = .loop k ms merr →
    ∃ side, f.m.lists[k]? = some side ∧ ms <:+ f.recv.mods h side

/-- The frame ranges over a list. -/
def Frame.Looping (f : Frame L) : Prop := ∃ k ms merr, f.stage = .loop k ms merr

/-- A goroutine's stack is a chain of calls: each frame ranges over what is left of its
receiver's list, each callee is held by the nearest `*Group` below it, each caller ranges over a
list, and no callee is an `Add*`. -/
def Nested (h : Heap L) : List (Frame L) → Prop
  | [] => True
  | f :: rest => f.Ranges h ∧ (∀ a, anchor rest = some a → f.Inside h a) ∧
      (∀ p ∈ rest.head?, p.Looping ∧ f.m.lists ≠ []) ∧ Nested h rest

/-- The goroutine has the writer's turn of `mu`. -/
def Writes (t : List (Frame L)) (mu : Mu) : Prop := (mu, .write) ∈ held t ∨ mu ∈ turns t

/-- What `sync.RWMutex` keeps: one goroutine at a time has the writer's turn of a lock, and no
goroutine is in through `RLock` while another is in through `Lock`. -/
structure Calls.Excl (s : Calls L) : Prop where
  writer : ∀ {i j : Nat} {t u : List (Frame L)} {mu : Mu}, s.tasks[i]? = some t → s.tasks[j]? = some u →
    Writes t mu → Writes u mu → i = j
  reader : ∀ {i j : Nat} {t u : List (Frame L)} {mu : Mu}, s.tasks[i]? = some t → s.tasks[j]? = some u →
    (mu, .write) ∈ held t → (mu, .read) ∈ held u → i = j

/-- The invariant of every reachable state. -/
structure Calls.Inv (s : Calls L) : Prop where
  nested : ∀ {i : Nat} {t : List (Frame L)}, s.tasks[i]? = some t → Nested s.heap t
  excl : s.Excl

theorem Frame.ranges_of_stage {h : Heap L} {f : Frame L} (hf : ∀ k ms merr, f.stage ≠ .loop k ms merr) :
    f.Ranges h := fun k ms merr he => absurd he (hf k ms merr)

theorem Nested.single {h : Heap L} {f : Frame L} (hR : f.Ranges h) : Nested h [f] :=
  ⟨hR, fun _ ha => Option.noConfusion ha, fun _ hp => (Option.not_mem_none _ hp).elim, trivial⟩

theorem Nested.stay {h : Heap L} {f f' : Frame L} {rest : List (Frame L)} (hn : Nested h (f :: rest))
    (hr : f'.recv = f.recv) (hm : f'.m = f.m) (hR : f'.Ranges h) : Nested h (f' :: rest) :=
  ⟨hR, fun a ha => by simpa [Frame.Inside, hr] using hn.2.1 a ha, fun p hp => by
    simpa [hm] using hn.2.2.1 p hp, hn.2.2.2⟩

/-- The locks a frame holds are its receiver's. -/
theorem Frame.held_sub (f : Frame L) : f.held ⊆ f.recv.locks f.m := by
  unfold Frame.held
  split <;> first | exact List.take_subset _ _ | exact List.Subset.refl _

/-- A `*Group` method takes the lock of the one list it ranges over, or both for writing in
`ToImmutable`. -/
theorem Recv.locks_group (g : Nat) (m : Method L) :
    (∃ side mode, (Recv.group g).locks m = [(⟨g, side⟩, mode)] ∧ ∀ s ∈ m.lists, s = side) ∨
      (Recv.group g).locks m = [(⟨g, .request⟩, .write), (⟨g, .response⟩, .write)] := by
  cases m with
  | modify side | verify side | reset side =>
    exact .inl ⟨side, _, rfl, fun _ hs => List.mem_singleton.mp hs⟩
  | add side => exact .inl ⟨side, _, rfl, fun _ hs => absurd hs (List.not_mem_nil _)⟩
  | toImmutable => exact .inr rfl

theorem Recv.locks_g {g : Nat} {m : Method L} {mu : Mu} {mode : Mode}
    (hl : (mu, mode) ∈ (Recv.group g).locks m) : mu.g = g := by
  rcases Recv.locks_group g m with ⟨side, mode', he, -⟩ | he <;> rw [he] at hl
  · obtain ⟨rfl, -⟩ := Prod.mk.inj (List.mem_singleton.mp hl)
    rfl
  · rcases List.mem_pair.mp hl with h | h <;> obtain ⟨rfl, -⟩ := Prod.mk.inj h <;> rfl

/-- A call ranging over its receiver's list `side` holds its lock. -/
theorem Recv.locks_of_lists {g k : Nat} {m : Method L} {side : Side} (hk : m.lists[k]? = some side) :
    ∃ mode, (⟨g, side⟩, mode) ∈ (Recv.group g).locks m := by
  rcases Recv.locks_group g m with ⟨side', mode, he, hs⟩ | he <;> rw [he]
  · exact ⟨mode, by rw [hs side (List.getElem?_mem hk)]; exact List.mem_singleton_self _⟩
  · exact ⟨.write, by cases side <;> simp⟩

/-- The nearest `*Group` below a frame is reached from every `*Group` further down. -/
theorem Nested.anchor_reaches {h : Heap L} :
    ∀ {t : List (Frame L)}, Nested h t → ∀ p ∈ t, ∀ {g}, p.recv = .group g →
      ∃ a, anchor t = some a ∧ Relation.ReflTransGen (Group.Sub h) g a
  | [], _, _, hp, _, _ => absurd hp (List.not_mem_nil _)
  | f :: rest, hn, p, hp, g, hg => by
    have htop : ∀ c, f.recv = .group c → ∀ a, anchor rest = some a → Group.Sub h a c :=
      fun c hc a ha => hn.2.1 a ha c (by rw [hc]; exact .group c)
    rcases List.mem_cons.mp hp with rfl | hp
    · exact ⟨g, by simp [anchor, hg], .refl⟩
    · obtain ⟨a, ha, hga⟩ := Nested.anchor_reaches hn.2.2.2 p hp hg
      cases hf : f.recv with
      | group c => exact ⟨c, by simp [anchor, hf], hga.tail (htop c hf a ha)⟩
      | immutable => exact ⟨a, by simp [anchor, hf, ha], hga⟩


/-- The lock a goroutine is to take next. -/
def want : List (Frame L) → Option Mu
  | [] => none
  | f :: _ => f.want

/-- A call takes its own locks in the order of `Mu.Before`. -/
theorem Recv.locks_before (h : Heap L) (r : Recv L) (m : Method L) {n : Nat} {w : Mu}
    {mode : Mode} (hw : (r.locks m)[n]? = some (w, mode)) {l : Mu × Mode}
    (hl : l ∈ (r.locks m).take n) : l.1.Before h w := by
  cases r with
  | immutable => cases hw
  | group g =>
    rcases Recv.locks_group g m with ⟨side, mode', he, -⟩ | he <;> rw [he] at hw hl <;>
      rcases n with _ | _ | n <;> try { cases hl } <;> try { cases hw }
    obtain ⟨rfl, -⟩ := Prod.mk.inj (Option.some.inj hw)
    obtain rfl := List.mem_singleton.mp hl
    exact .inl ⟨rfl, rfl, rfl⟩

/-- What a frame waiting for `w` holds: the locks of its call before `w`. -/
theorem Frame.want_eq_some {f : Frame L} {w : Mu} (hw : f.want = some w) :
    ∃ n mode, f.held = (f.recv.locks f.m).take n ∧ (f.recv.locks f.m)[n]? = some (w, mode) := by
  obtain ⟨r, m, n | n | _ | _⟩ := f <;> try cases hw
  all_goals
    obtain ⟨⟨w', mode⟩, hm, rfl⟩ := Option.map_eq_some'.mp hw
    exact ⟨n, mode, rfl, hm⟩

/-- A goroutine waits only for a lock above every lock it holds. -/
theorem Nested.held_before {h : Heap L} {f : Frame L} {rest : List (Frame L)}
    (hn : Nested h (f :: rest)) {w : Mu} (hw : f.want = some w) {l : Mu × Mode}
    (hl : l ∈ held (f :: rest)) : l.1.Before h w := by
  obtain ⟨n, mode, hheld, hlw⟩ := Frame.want_eq_some hw
  rw [held_cons, List.mem_append] at hl
  rcases hl with hl | hl
  · exact Recv.locks_before h _ _ hlw (hheld ▸ hl)
  · obtain ⟨p, hp, hlp⟩ := List.mem_flatMap.mp hl
    have hpl := p.held_sub hlp
    cases hr : p.recv with
    | immutable => simp [hr, Recv.locks] at hpl
    | group gp =>
      cases hf : f.recv with
      | immutable => simp [hf, Recv.locks] at hlw
      | group c =>
        obtain ⟨a, ha, hga⟩ := hn.2.2.2.anchor_reaches p hp hr
        have hac : Group.Sub h a c := hn.2.1 a ha c (by rw [hf]; exact .group c)
        have hlg : l.1.g = gp := Recv.locks_g (hr ▸ hpl)
        have hwg : w.g = c := Recv.locks_g (hf ▸ List.getElem?_mem hlw)
        exact .inr (hlg ▸ hwg ▸ Relation.TransGen.tail' hga hac)

/-- A frame that cannot step waits for a lock. -/
theorem Calls.stepTop_none {s : Calls L} {r : Option Error} {f : Frame L}
    (hs : s.stepTop r f = none) :
    ∃ n mu mode, (f.recv.locks f.m)[n]? = some (mu, mode) ∧
      ((f.stage = .lock n ∧ s.writerTurn mu = true) ∨ (f.stage = .wait n ∧ s.readers mu = true)) := by
  unfold Calls.stepTop at hs
  split at hs
  · split at hs
    · cases hs
    · split at hs
      · exact ⟨_, _, _, ‹_›, .inl ⟨‹_›, ‹_›⟩⟩
      · cases hs
  · split at hs
    · rename_i n hst hany
      cases hl : (f.recv.locks f.m)[n]? with
      | none => simp [hl] at hany
      | some l => exact ⟨n, l.1, l.2, hl, .inr ⟨hst, by simpa [hl] using hany⟩⟩
    · cases hs
  all_goals cases hs


/-! ## What one step does to the locks -/

theorem Frame.absorb_cases (h : Heap L) (f : Frame L) (k : Nat) (ms : List (Entry L))
    (merr : Option MultiError) (r : Option Error) :
    (∃ merr', f.absorb h k ms merr r = .loop k ms merr') ∨
      ∃ res, f.absorb h k ms merr r = .unlock (f.recv.locks f.m).length res := by
  unfold Frame.absorb
  split
  · exact .inl ⟨_, rfl⟩
  · split
    · split
      · exact .inl ⟨_, rfl⟩
      · exact .inr ⟨_, rfl⟩
    · exact .inl ⟨_, rfl⟩
    · exact .inl ⟨_, rfl⟩

theorem Frame.next_cases (h : Heap L) (f : Frame L) (k : Nat) (merr : Option MultiError) :
    (∃ side, f.m.lists[k + 1]? = some side ∧ f.next h k merr = .loop (k + 1) (f.recv.mods h side) merr) ∨
      ∃ res, f.next h k merr = .unlock (f.recv.locks f.m).length res := by
  unfold Frame.next
  split
  · exact .inl ⟨_, ‹_›, rfl⟩
  · exact .inr ⟨_, rfl⟩

/-- A frame ranging over a list, or returning from it, holds all its locks. -/
theorem Frame.held_all {r : Recv L} {m : Method L} {st : Stage L}
    (hst : (∃ k ms merr, st = .loop k ms merr) ∨ ∃ res, st = .unlock (r.locks m).length res) :
    (Frame.mk r m st).held = r.locks m := by
  rcases hst with ⟨k, ms, merr, rfl⟩ | ⟨res, rfl⟩
  · rfl
  · exact List.take_of_length_le le_rfl

@[simp] theorem Frame.resume_recv (h : Heap L) (p : Frame L) (r : Option Error) :
    (p.resume h r).recv = p.recv := by
  unfold Frame.resume; split <;> rfl
@[simp] theorem Frame.resume_m (h : Heap L) (p : Frame L) (r : Option Error) :
    (p.resume h r).m = p.m := by
  unfold Frame.resume; split <;> rfl

@[simp] theorem Frame.held_resume (h : Heap L) (p : Frame L) (r : Option Error) :
    (p.resume h r).held = p.held := by
  unfold Frame.resume
  split
  · rename_i k ms merr hst
    rw [show p.held = p.recv.locks p.m by simp [Frame.held, hst]]
    exact Frame.held_all ((p.absorb_cases h k ms merr r).imp (fun ⟨_, he⟩ => ⟨_, _, _, he⟩) id)
  · rfl

@[simp] theorem Frame.turn_resume (h : Heap L) (p : Frame L) (r : Option Error) :
    (p.resume h r).turn = p.turn := by
  unfold Frame.resume
  split
  · rename_i k ms merr hst
    simp only [Frame.turn, hst]
    rcases p.absorb_cases h k ms merr r with ⟨_, he⟩ | ⟨_, he⟩ <;> simp [he]
  · rfl

theorem held_apply (h : Heap L) (x : Next L) (rest : List (Frame L)) :
    held (x.apply h rest) = held (x.apply h []) ++ held rest := by
  cases x <;> cases rest <;> simp [Next.apply]

theorem turns_apply (h : Heap L) (x : Next L) (rest : List (Frame L)) :
    turns (x.apply h rest) = turns (x.apply h []) ++ turns rest := by
  cases x <;> cases rest <;> simp [Next.apply]


@[simp] theorem Frame.begin_recv (h : Heap L) (f : Frame L) : (f.begin h).2.recv = f.recv := by
  unfold Frame.begin; split <;> rfl
@[simp] theorem Frame.begin_m (h : Heap L) (f : Frame L) : (f.begin h).2.m = f.m := by
  unfold Frame.begin; split <;> rfl
@[simp] theorem Frame.begin_turn (h : Heap L) (f : Frame L) : (f.begin h).2.turn = none := by
  unfold Frame.begin; split
  · rfl
  · split <;> rfl

/-- A call of the package on an entry is a call on that entry, at its start, and ranges over a
list when its caller does. -/
theorem Method.visit_push {m : Method L} {e : Entry L} {g : Frame L} (hv : m.visit e = .push g) :
    g.recv.entry = e ∧ g.stage = .lock 0 ∧ (m.lists ≠ [] → g.m.lists ≠ []) := by
  cases e <;> cases m <;> simp [Method.visit] at hv <;> subst hv <;> simp [Recv.entry, Method.lists]

/-- A call at its start holds no lock and has no turn. -/
theorem held_start {f : Frame L} (hf : f.stage = .lock 0) : held [f] = [] ∧ turns [f] = [] := by
  simp [Frame.held, Frame.turn, hf]

/-- Everything the top frame of a goroutine can do in one step. -/
theorem Calls.stepTop_cases {s : Calls L} {r : Option Error} {f : Frame L} {h' : Heap L}
    {x : Next L} (hs : s.stepTop r f = some (h', x)) :
    -- `RLock`, or the first half of `Lock`, when no goroutine has the writer's turn
    (∃ n mu mode, f.stage = .lock n ∧ (f.recv.locks f.m)[n]? = some (mu, mode) ∧
      s.writerTurn mu = false ∧ h' = s.heap ∧
      x = .stay { f with stage := match mode with | .read => .lock (n + 1) | .write => .wait n }) ∨
    -- the second half of `Lock`, when no reader is in
    (∃ n, f.stage = .wait n ∧ ((f.recv.locks f.m)[n]?.any fun l => s.readers l.1) = false ∧
      h' = s.heap ∧ x = .stay { f with stage := .lock (n + 1) }) ∨
    -- the body, once every lock is held
    (∃ n, f.stage = .lock n ∧ (f.recv.locks f.m)[n]? = none ∧ h' = (f.begin s.heap).1 ∧
      x = .stay (f.begin s.heap).2) ∨
    -- the end of a list
    (∃ k merr, f.stage = .loop k [] merr ∧ h' = s.heap ∧
      x = .stay { f with stage := f.next s.heap k merr }) ∨
    -- the next entry: an other modifier called, an entry passed over, or a call of the package
    (∃ k e ms merr, f.stage = .loop k (e :: ms) merr ∧ h' = s.heap ∧
      (x = .stay { f with stage := f.absorb s.heap k ms merr r } ∨
        x = .stay { f with stage := .loop k ms merr } ∨
        ∃ g, f.m.visit e = .push g ∧ x = .call g { f with stage := .loop k ms merr })) ∨
    -- a deferred unlock, or the return
    (∃ n res, f.stage = .unlock (n + 1) res ∧ h' = s.heap ∧
      x = .stay { f with stage := .unlock n res }) ∨
    (∃ res, f.stage = .unlock 0 res ∧ h' = s.heap ∧ x = .ret res) := by
  unfold Calls.stepTop at hs
  split at hs
  · split at hs
    · cases hs
      exact .inr (.inr (.inl ⟨_, ‹_›, ‹_›, rfl, rfl⟩))
    · split at hs
      · cases hs
      · cases hs
        exact .inl ⟨_, _, _, ‹_›, ‹_›, Bool.eq_false_iff.mpr ‹_›, rfl, rfl⟩
  · split at hs
    · cases hs
    · cases hs
      exact .inr (.inl ⟨_, ‹_›, Bool.eq_false_iff.mpr ‹_›, rfl, rfl⟩)
  · cases hs
    exact .inr (.inr (.inr (.inl ⟨_, _, ‹_›, rfl, rfl⟩)))
  · cases hs
    refine .inr (.inr (.inr (.inr (.inl ⟨_, _, _, _, ‹_›, rfl, ?_⟩))))
    split
    · exact .inl rfl
    · exact .inr (.inl rfl)
    · exact .inr (.inr ⟨_, ‹_›, rfl⟩)
  · cases hs
    exact .inr (.inr (.inr (.inr (.inr (.inl ⟨_, _, ‹_›, rfl, rfl⟩)))))
  · cases hs
    exact .inr (.inr (.inr (.inr (.inr (.inr ⟨_, ‹_›, rfl, rfl⟩)))))

/-- The locks the frames that replace `f` hold: those `f` held, one taken through `RLock` when no
goroutine had the writer's turn, or one taken through a `Lock` that had the turn, when no reader
was in. They have the turn of a lock only when they took it, when no goroutine had it. -/
theorem Calls.stepTop_locks {s : Calls L} {r : Option Error} {f : Frame L} {h' : Heap L}
    {x : Next L} (hs : s.stepTop r f = some (h', x)) :
    (∀ l ∈ held (x.apply s.heap []), l ∈ f.held ∨ (s.writerTurn l.1 = false ∧ l.2 = .read) ∨
      (f.turn = some l.1 ∧ s.readers l.1 = false)) ∧
    (∀ mu ∈ turns (x.apply s.heap []), s.writerTurn mu = false) := by
  -- a step of the body: the frame holds no more than the call held, and has no turn
  have body : ∀ (f' : Frame L) (rest : List (Frame L)), f'.recv = f.recv → f'.m = f.m →
      f'.turn = none → f.held = f.recv.locks f.m → held rest = [] → turns rest = [] →
      (∀ l ∈ held (f' :: rest), l ∈ f.held ∨ (s.writerTurn l.1 = false ∧ l.2 = .read) ∨
        (f.turn = some l.1 ∧ s.readers l.1 = false)) ∧
      ∀ mu ∈ turns (f' :: rest), s.writerTurn mu = false := by
    intro f' rest hr hm ht hall hh htr
    refine ⟨fun l hl => .inl ?_, fun mu h => by simp [ht, htr] at h⟩
    rw [held_cons, hh, List.append_nil] at hl
    rw [hall, ← hr, ← hm]
    exact f'.held_sub hl
  have hloop : ∀ {k ms merr}, f.stage = .loop k ms merr → f.held = f.recv.locks f.m :=
    fun hst => by simp [Frame.held, hst]
  rcases Calls.stepTop_cases hs with
    ⟨n, mu, mode, hst, hl, hw, -, rfl⟩ | ⟨n, hst, hrd, -, rfl⟩ | ⟨n, hst, hnone, -, rfl⟩ |
    ⟨k, merr, hst, -, rfl⟩ | ⟨k, e, ms, merr, hst, -, rfl | rfl | ⟨g, hv, rfl⟩⟩ |
    ⟨n, res, hst, -, rfl⟩ | ⟨res, hst, -, rfl⟩
  · have hheld : f.held = (f.recv.locks f.m).take n := by simp [Frame.held, hst]
    cases mode
    · refine ⟨fun l hl' => ?_, fun _ h => by simp [Next.apply] at h⟩
      simp only [Next.apply, held_cons, held_nil, List.append_nil, Frame.held_lock, List.take_succ,
        hl, Option.toList_some, List.mem_append, List.mem_singleton] at hl'
      rcases hl' with hl' | rfl
      · exact .inl (hheld ▸ hl')
      · exact .inr (.inl ⟨hw, rfl⟩)
    · refine ⟨fun l hl' => .inl (hheld ▸ by simpa [Next.apply] using hl'), fun _ h => ?_⟩
      simp [Next.apply, hl] at h
      exact h ▸ hw
  · refine ⟨fun l hl' => ?_, fun _ h => by simp [Next.apply] at h⟩
    simp only [Next.apply, held_cons, held_nil, List.append_nil, Frame.held_lock, List.take_succ,
      List.mem_append] at hl'
    rcases hl' with hl' | hl'
    · exact .inl (by simpa [Frame.held, hst] using hl')
    · cases hln : (f.recv.locks f.m)[n]? with
      | none => simp [hln] at hl'
      | some l' =>
        obtain rfl : l = l' := by simpa [hln] using hl'
        exact .inr (.inr ⟨by simp [Frame.turn, hst, hln], by simpa [hln] using hrd⟩)
  · refine body _ [] (by simp) (by simp) (by simp) ?_ rfl rfl
    simp [Frame.held, hst, List.take_of_length_le (List.getElem?_eq_none_iff.mp hnone)]
  · refine body { f with stage := f.next s.heap k merr } [] rfl rfl ?_ (hloop hst) rfl rfl
    rcases f.next_cases s.heap k merr with ⟨_, _, he⟩ | ⟨_, he⟩ <;> simp [he]
  · refine body { f with stage := f.absorb s.heap k ms merr r } [] rfl rfl ?_ (hloop hst) rfl rfl
    rcases f.absorb_cases s.heap k ms merr r with ⟨_, he⟩ | ⟨_, he⟩ <;> simp [he]
  · exact body { f with stage := .loop k ms merr } [] rfl rfl rfl (hloop hst) rfl rfl
  · obtain ⟨-, hg, -⟩ := Method.visit_push hv
    refine (body { f with stage := .loop k ms merr } [] rfl rfl rfl (hloop hst) rfl rfl).imp
      (fun h l hl => h l ?_) (fun h mu hmu => h mu ?_)
    · simpa [Next.apply, Frame.held, hg] using hl
    · simp [Next.apply, Frame.turn, hg] at hmu
  · refine ⟨fun l hl => .inl ?_, fun _ h => by simp [Next.apply] at h⟩
    simpa [Frame.held, hst, Next.apply] using
      List.take_subset_take_left _ (Nat.le_succ n) (by simpa [Next.apply] using hl)
  · simp [Next.apply]

/-- What a step leaves a goroutine holding: the locks it held, or one it took under the guard of
`sync.RWMutex`. -/
theorem Calls.stepTask_locks {s : Calls L} {r : Option Error} {t t' : List (Frame L)}
    {h' : Heap L} (hs : s.stepTask r t = some (h', t')) :
    (∀ l ∈ held t', l ∈ held t ∨ (s.writerTurn l.1 = false ∧ l.2 = .read) ∨
      (l.1 ∈ turns t ∧ s.readers l.1 = false)) ∧
    (∀ mu ∈ turns t', mu ∈ turns t ∨ s.writerTurn mu = false) := by
  obtain _ | ⟨f, rest⟩ := t
  · cases hs
  simp only [Calls.stepTask, Option.map_eq_some'] at hs
  obtain ⟨⟨h'', x⟩, hx, he⟩ := hs
  cases he
  obtain ⟨hl, ht⟩ := Calls.stepTop_locks hx
  rw [held_apply, turns_apply]
  refine ⟨fun l hl' => ?_, fun mu hmu => ?_⟩
  · rcases List.mem_append.mp hl' with hl' | hl'
    · rcases hl l hl' with h1 | h1 | ⟨h1, h2⟩
      · exact .inl (by simp [h1])
      · exact .inr (.inl h1)
      · exact .inr (.inr ⟨by simp [h1], h2⟩)
    · exact .inl (by simp [hl'])
  · rcases List.mem_append.mp hmu with hmu | hmu
    · exact .inr (ht mu hmu)
    · exact .inl (by simp [hmu])

/-- Only the body of an `Add*` changes the groups: it appends to the list whose lock it holds. -/
theorem Calls.stepTop_heap {s : Calls L} {r : Option Error} {f : Frame L} {h' : Heap L}
    {x : Next L} (hs : s.stepTop r f = some (h', x)) :
    h' = s.heap ∨ ∃ g side e n, f = ⟨.group g, .add side e, .lock n⟩ ∧ 1 ≤ n ∧
      h' = Group.addModifier side s.heap g e := by
  rcases Calls.stepTop_cases hs with
    ⟨-, -, -, -, -, -, rfl, -⟩ | ⟨-, -, -, rfl, -⟩ | ⟨n, hst, hnone, rfl, -⟩ | ⟨-, -, -, rfl, -⟩ |
    ⟨-, -, -, -, -, rfl, -⟩ | ⟨-, -, -, rfl, -⟩ | ⟨-, -, rfl, -⟩
  · exact .inl rfl
  · exact .inl rfl
  · unfold Frame.begin
    split
    · rename_i g side e hr hm
      refine .inr ⟨g, side, e, n, ?_, ?_, rfl⟩
      · cases f
        simp_all
      · simp [hr, hm, Recv.locks] at hnone
        omega
    · exact .inl rfl
  all_goals exact .inl rfl


/-! ## The chain of calls over a step -/

theorem Frame.ranges_loop {h : Heap L} {r : Recv L} {m : Method L} {k : Nat}
    {ms : List (Entry L)} {merr : Option MultiError}
    (hk : ∃ side, m.lists[k]? = some side ∧ ms <:+ r.mods h side) :
    (Frame.mk r m (.loop k ms merr)).Ranges h := by
  rintro k' ms' merr' he
  cases he
  exact hk

/-- A call that takes a step within its list still ranges over what is left of it. -/
theorem Frame.ranges_absorb {h h' : Heap L} {f : Frame L} {k : Nat} {ms : List (Entry L)}
    {merr : Option MultiError} (r : Option Error)
    (hk : ∃ side, f.m.lists[k]? = some side ∧ ms <:+ f.recv.mods h side) :
    ({ f with stage := f.absorb h' k ms merr r } : Frame L).Ranges h := by
  rcases f.absorb_cases h' k ms merr r with ⟨_, he⟩ | ⟨_, he⟩ <;> rw [he]
  · exact Frame.ranges_loop hk
  · exact Frame.ranges_of_stage nofun

theorem Nested.call {h : Heap L} {f g : Frame L} {rest : List (Frame L)} {k : Nat} {e : Entry L}
    {ms : List (Entry L)} {merr : Option MultiError} (hn : Nested h (f :: rest))
    (hst : f.stage = .loop k (e :: ms) merr) (hv : f.m.visit e = .push g) :
    Nested h (g :: { f with stage := .loop k ms merr } :: rest) := by
  obtain ⟨side, hside, hsuf⟩ := hn.1 k (e :: ms) merr hst
  obtain ⟨hge, hgs, hgl⟩ := Method.visit_push hv
  have he : e ∈ f.recv.mods h side := hsuf.subset (List.mem_cons_self e ms)
  refine ⟨Frame.ranges_of_stage (by simp [hgs]), fun a ha c hc => ?_,
    fun p hp => ?_, hn.stay rfl rfl (Frame.ranges_loop ⟨side, hside, (List.suffix_cons e ms).trans hsuf⟩)⟩
  · rw [hge] at hc
    cases hr : f.recv with
    | group a' =>
      simp only [anchor, hr, Option.some.injEq] at ha
      subst ha
      exact ⟨side, e, by simpa [Recv.mods, hr] using he, hc⟩
    | immutable reqmods resmods agg =>
      simp only [anchor, hr] at ha
      exact hn.2.1 a ha c (by rw [hr]; exact .inner side (by simpa [Recv.mods, hr] using he) hc)
  · simp only [List.head?_cons, Option.mem_def, Option.some.injEq] at hp
    subst hp
    exact ⟨⟨k, ms, merr, rfl⟩, hgl fun h0 => by simp [h0] at hside⟩

theorem Nested.resume {h : Heap L} {p : Frame L} {rest : List (Frame L)} (r : Option Error)
    (hn : Nested h (p :: rest)) : Nested h (p.resume h r :: rest) := by
  refine hn.stay (by simp) (by simp) ?_
  unfold Frame.resume
  split
  · rename_i k ms merr hst
    exact Frame.ranges_absorb r (hn.1 k ms merr hst)
  · exact hn.1

/-- A step keeps a goroutine's stack a chain of calls. -/
theorem Calls.stepTask_nested {s : Calls L} {r : Option Error} {t t' : List (Frame L)}
    {h' : Heap L} (hn : Nested s.heap t) (hs : s.stepTask r t = some (h', t')) : Nested h' t' := by
  obtain _ | ⟨f, rest⟩ := t
  · cases hs
  simp only [Calls.stepTask, Option.map_eq_some'] at hs
  obtain ⟨⟨h'', x⟩, hx, he⟩ := hs
  cases he
  rcases Calls.stepTop_cases hx with
    ⟨n, mu, mode, hst, -, -, rfl, rfl⟩ | ⟨n, hst, -, rfl, rfl⟩ | ⟨n, hst, hnone, rfl, rfl⟩ |
    ⟨k, merr, hst, rfl, rfl⟩ | ⟨k, e, ms, merr, hst, rfl, hvisit⟩ | ⟨n, res, hst, rfl, rfl⟩ |
    ⟨res, hst, rfl, rfl⟩
  · cases mode <;> exact hn.stay rfl rfl (Frame.ranges_of_stage nofun)
  · exact hn.stay rfl rfl (Frame.ranges_of_stage nofun)
  · unfold Frame.begin
    split
    · rename_i g side e hr hm
      cases rest with
      | nil => exact Nested.single (Frame.ranges_of_stage nofun)
      | cons p rest => exact absurd (hn.2.2.1 p rfl).2 (by simp [hm, Method.lists])
    · refine hn.stay rfl rfl ?_
      split
      · exact Frame.ranges_loop ⟨_, by simp [*], List.suffix_refl _⟩
      · exact Frame.ranges_of_stage nofun
  · refine hn.stay rfl rfl ?_
    rcases f.next_cases s.heap k merr with ⟨side, hside, he⟩ | ⟨_, he⟩ <;> rw [he]
    · exact Frame.ranges_loop ⟨side, hside, List.suffix_refl _⟩
    · exact Frame.ranges_of_stage nofun
  · obtain ⟨side, hside, hsuf⟩ := hn.1 k (e :: ms) merr hst
    have hk : ∃ side, f.m.lists[k]? = some side ∧ ms <:+ f.recv.mods s.heap side :=
      ⟨side, hside, (List.suffix_cons e ms).trans hsuf⟩
    rcases hvisit with rfl | rfl | ⟨g, hv, rfl⟩
    · exact hn.stay rfl rfl (Frame.ranges_absorb r hk)
    · exact hn.stay rfl rfl (Frame.ranges_loop hk)
    · exact hn.call hst hv
  · exact hn.stay rfl rfl (Frame.ranges_of_stage nofun)
  · cases rest with
    | nil => trivial
    | cons p rest => exact hn.2.2.2.resume _


/-! ## The invariant holds in every reachable state -/

theorem Nested.mono {h h' : Heap L} (hsub : ∀ a c, Group.Sub h a c → Group.Sub h' a c) :
    ∀ {t : List (Frame L)}, Nested h t → (∀ f ∈ t, f.Ranges h → f.Ranges h') → Nested h' t
  | [], _, _ => trivial
  | _ :: _, hn, hR =>
    ⟨hR _ (List.mem_cons_self _ _) hn.1, fun a ha c hc => hsub a c (hn.2.1 a ha c hc), hn.2.2.1,
      Nested.mono hsub hn.2.2.2 fun p hp => hR p (List.mem_cons_of_mem _ hp)⟩

theorem Group.Sub.addModifier {h : Heap L} {a c : Nat} (hs : Group.Sub h a c) (side : Side)
    (g : Nat) (e : Entry L) : Group.Sub (Group.addModifier side h g e) a c := by
  obtain ⟨side', e', he', hn⟩ := hs
  refine ⟨side', e', ?_, hn⟩
  rw [Group.mods_addModifier]
  split_ifs with hc
  · obtain ⟨rfl, rfl⟩ := hc
    exact List.mem_append_left _ he'
  · exact he'

/-- An append leaves every call ranging over another list ranging over what is left of it. -/
theorem Frame.Ranges.addModifier {h : Heap L} {f : Frame L} (hR : f.Ranges h) {side : Side}
    {g : Nat} (e : Entry L) (hno : ∀ mode, (⟨g, side⟩, mode) ∉ f.held) :
    f.Ranges (Group.addModifier side h g e) := by
  intro k ms merr hst
  obtain ⟨side', hside', hsuf⟩ := hR k ms merr hst
  refine ⟨side', hside', ?_⟩
  cases hr : f.recv with
  | immutable => simpa [Recv.mods, hr] using hsuf
  | group g' =>
    have hne : ¬(g' = g ∧ side' = side) := by
      rintro ⟨rfl, rfl⟩
      obtain ⟨mode, hm⟩ := Recv.locks_of_lists (g := g') hside'
      exact hno mode (by simpa [Frame.held, hst, hr] using hm)
    simpa [Recv.mods, hr, Group.mods_addModifier, hne] using hsuf

theorem Recv.mods_setAggregateErrors (h : Heap L) (g : Nat) (aggerr : Bool) (side : Side)
    (r : Recv L) : r.mods (Group.setAggregateErrors h g aggerr) side = r.mods h side := by
  cases r <;> simp [Recv.mods]

theorem Group.Sub.setAggregateErrors {h : Heap L} {a c : Nat} (hs : Group.Sub h a c) (g : Nat)
    (aggerr : Bool) : Group.Sub (Group.setAggregateErrors h g aggerr) a c := by
  obtain ⟨side, e, he, hn⟩ := hs
  exact ⟨side, e, by rwa [Group.mods_setAggregateErrors], hn⟩

theorem Frame.Ranges.setAggregateErrors {h : Heap L} {f : Frame L} (hR : f.Ranges h) (g : Nat)
    (aggerr : Bool) : f.Ranges (Group.setAggregateErrors h g aggerr) := fun k ms merr hst => by
  obtain ⟨side, hside, hsuf⟩ := hR k ms merr hst
  exact ⟨side, hside, by rwa [Recv.mods_setAggregateErrors]⟩

theorem Calls.not_writes {s : Calls L} {mu : Mu} (hw : s.writerTurn mu = false) {j : Nat}
    {u : List (Frame L)} (hu : s.tasks[j]? = some u) : ¬Writes u mu := fun h => by
  simpa [hw] using (s.writerTurn_iff mu).mpr ⟨u, List.getElem?_mem hu, h⟩

theorem Calls.not_reads {s : Calls L} {mu : Mu} (hr : s.readers mu = false) {j : Nat}
    {u : List (Frame L)} (hu : s.tasks[j]? = some u) : (mu, Mode.read) ∉ held u := fun h => by
  simpa [hr] using (s.readers_iff mu).mpr ⟨u, List.getElem?_mem hu, h⟩

theorem getElem?_set_some {α : Type} {l : List α} {i j : Nat} {a b : α}
    (h : (l.set i a)[j]? = some b) : (j = i ∧ b = a) ∨ (j ≠ i ∧ l[j]? = some b) := by
  rw [List.getElem?_set] at h
  split_ifs at h with h1
  · exact .inl ⟨h1.symm, (Option.some.inj h).symm⟩
  · exact .inr ⟨Ne.symm h1, h⟩

theorem getElem?_concat_some {α : Type} {l : List α} {j : Nat} {a b : α}
    (h : (l ++ [a])[j]? = some b) : l[j]? = some b ∨ b = a := by
  rcases Nat.lt_or_ge j l.length with hj | hj
  · exact .inl (by rwa [List.getElem?_append_left hj] at h)
  · rw [List.getElem?_append_right hj] at h
    exact .inr (List.mem_singleton.mp (List.getElem?_mem h))

/-- A step of one goroutine keeps what `sync.RWMutex` guarantees. -/
theorem Calls.Excl.run {s : Calls L} {i : Nat} {t t' : List (Frame L)} {h' : Heap L}
    {r : Option Error} (he : s.Excl) (ht : s.tasks[i]? = some t)
    (hs : s.stepTask r t = some (h', t')) : Calls.Excl ⟨h', s.tasks.set i t'⟩ := by
  obtain ⟨hl, htu⟩ := Calls.stepTask_locks hs
  have hW : ∀ {mu}, Writes t' mu → Writes t mu ∨ s.writerTurn mu = false := by
    rintro mu (hm | hm)
    · rcases hl _ hm with hm | ⟨-, hm⟩ | ⟨hm, -⟩
      · exact .inl (.inl hm)
      · cases hm
      · exact .inl (.inr hm)
    · exact (htu mu hm).imp .inr id
  refine ⟨fun {i1 j1 t1 u1 mu} h1 h2 hw1 hw2 => ?_, fun {i1 j1 t1 u1 mu} h1 h2 hw1 hr2 => ?_⟩
  · rcases getElem?_set_some h1 with ⟨rfl, rfl⟩ | ⟨-, h1'⟩ <;>
      rcases getElem?_set_some h2 with ⟨rfl, rfl⟩ | ⟨-, h2'⟩
    · rfl
    · rcases hW hw1 with hw1 | hw1
      · exact he.writer ht h2' hw1 hw2
      · exact absurd hw2 (Calls.not_writes hw1 h2')
    · rcases hW hw2 with hw2 | hw2
      · exact he.writer h1' ht hw1 hw2
      · exact absurd hw1 (Calls.not_writes hw2 h1')
    · exact he.writer h1' h2' hw1 hw2
  · rcases getElem?_set_some h1 with ⟨rfl, rfl⟩ | ⟨-, h1'⟩ <;>
      rcases getElem?_set_some h2 with ⟨rfl, rfl⟩ | ⟨-, h2'⟩
    · rfl
    · rcases hl _ hw1 with hw1 | ⟨-, hm⟩ | ⟨-, hr⟩
      · exact he.reader ht h2' hw1 hr2
      · cases hm
      · exact absurd hr2 (Calls.not_reads hr h2')
    · rcases hl _ hr2 with hr2 | ⟨hw, -⟩ | ⟨hm, -⟩
      · exact he.reader h1' ht hw1 hr2
      · exact absurd (.inl hw1) (Calls.not_writes hw h1')
      · exact he.writer h1' ht (.inl hw1) (.inr hm)
    · exact he.reader h1' h2' hw1 hr2

/-- The groups a step leaves: those before, or those after the append of an `Add*` on top of the
goroutine. -/
theorem Calls.stepTask_heap {s : Calls L} {r : Option Error} {t t' : List (Frame L)}
    {h' : Heap L} (hs : s.stepTask r t = some (h', t')) :
    h' = s.heap ∨ ∃ g side e n rest, t = ⟨.group g, .add side e, .lock (n + 1)⟩ :: rest ∧
      h' = Group.addModifier side s.heap g e := by
  obtain _ | ⟨f, rest⟩ := t
  · cases hs
  simp only [Calls.stepTask, Option.map_eq_some'] at hs
  obtain ⟨⟨h'', x⟩, hx, he⟩ := hs
  cases he
  rcases Calls.stepTop_heap hx with rfl | ⟨g, side, e, _ | n, rfl, hn, rfl⟩
  · exact .inl rfl
  · exact absurd hn (Nat.not_succ_le_zero 0)
  · exact .inr ⟨g, side, e, n, rest, rfl, rfl⟩

/-- A goroutine that begins a call holds no lock. -/
theorem Calls.Inv.spawn {s : Calls L} (hi : s.Inv) {f : Frame L} (hf : f.stage = .lock 0) :
    Calls.Inv ⟨s.heap, s.tasks ++ [[f]]⟩ := by
  have hno : ∀ {j t}, (s.tasks ++ [[f]])[j]? = some t →
      s.tasks[j]? = some t ∨ (held t = [] ∧ turns t = []) := fun h =>
    (getElem?_concat_some h).imp id fun (ht : _ = [f]) => by subst ht; exact held_start hf
  refine ⟨fun {j t} ht => ?_, ⟨fun {i j t u mu} h1 h2 hw1 hw2 => ?_, fun {i j t u mu} h1 h2 hw hr => ?_⟩⟩
  · rcases getElem?_concat_some ht with ht | rfl
    · exact hi.nested ht
    · exact Nested.single (Frame.ranges_of_stage (by simp [hf]))
  · rcases hno h1 with h1 | ⟨e1, e2⟩
    · rcases hno h2 with h2 | ⟨e3, e4⟩
      · exact hi.excl.writer h1 h2 hw1 hw2
      · simp [Writes, e3, e4] at hw2
    · simp [Writes, e1, e2] at hw1
  · rcases hno h1 with h1 | ⟨e1, -⟩
    · rcases hno h2 with h2 | ⟨e3, -⟩
      · exact hi.excl.reader h1 h2 hw hr
      · simp [e3] at hr
    · simp [e1] at hw

/-- Every step keeps the invariant. -/
theorem Calls.Inv.step {s s' : Calls L} {a : Act L} (hi : s.Inv) (hs : s.step a = some s') :
    s'.Inv := by
  cases a with
  | call g m =>
    cases hs
    exact hi.spawn rfl
  | callImmutable side reqmods resmods agg =>
    cases hs
    exact hi.spawn rfl
  | setAggregateErrors g aggerr =>
    cases hs
    exact ⟨fun ht => (hi.nested ht).mono (fun a c hs => hs.setAggregateErrors g aggerr)
      (fun f _ hR => hR.setAggregateErrors g aggerr), ⟨hi.excl.1, hi.excl.2⟩⟩
  | run i r =>
    simp only [Calls.step, Option.bind_eq_some, Option.map_eq_some'] at hs
    obtain ⟨t, ht, ⟨h', t'⟩, hst, rfl⟩ := hs
    refine ⟨fun {j u} hu => ?_, hi.excl.run ht hst⟩
    rcases getElem?_set_some hu with ⟨rfl, rfl⟩ | ⟨hj, hu'⟩
    · exact Calls.stepTask_nested (hi.nested ht) hst
    · rcases Calls.stepTask_heap hst with rfl | ⟨g, side, e, n, rest, rfl, rfl⟩
      · exact hi.nested hu'
      · have hw : (⟨g, side⟩, Mode.write) ∈ held (⟨.group g, .add side e, .lock (n + 1)⟩ :: rest) := by
          simp [Recv.locks]
        refine (hi.nested hu').mono (fun a c hs => hs.addModifier side g e) fun p hp hR =>
          hR.addModifier e fun mode hm => ?_
        have hm' : (⟨g, side⟩, mode) ∈ held u := List.mem_flatMap.mpr ⟨p, hp, hm⟩
        cases mode
        · exact hj (hi.excl.reader ht hu' hw hm').symm
        · exact hj (hi.excl.writer ht hu' (.inl hw) (.inl hm')).symm

theorem Calls.Reachable.inv {h0 : Heap L} {s : Calls L} (hr : s.Reachable h0) : s.Inv := by
  induction hr with
  | init => exact ⟨fun ht => by simp at ht, ⟨fun h => by simp at h, fun h => by simp at h⟩⟩
  | step _ hs ih => exact ih.step hs


/-! ## The lists stay put, and the calls never all wait -/

/-- The call ranges over the list `side` of the `*Group` at `g`. -/
def Frame.RangesOver (g : Nat) (side : Side) (f : Frame L) : Prop :=
  f.recv = .group g ∧ ∃ k ms merr, f.stage = .loop k ms merr ∧ f.m.lists[k]? = some side

/-- A call ranging over a list holds its lock. -/
theorem Frame.RangesOver.holds {f : Frame L} {g : Nat} {side : Side} (hf : f.RangesOver g side) :
    ∃ mode, (⟨g, side⟩, mode) ∈ f.held := by
  obtain ⟨hr, k, ms, merr, hst, hk⟩ := hf
  obtain ⟨mode, hm⟩ := Recv.locks_of_lists (g := g) hk
  exact ⟨mode, by simpa [Frame.held, hst, hr] using hm⟩

/-- A frame below the top of a goroutine ranges over a list. -/
theorem Nested.looping {h : Heap L} :
    ∀ {f : Frame L} {rest : List (Frame L)}, Nested h (f :: rest) → ∀ p ∈ rest, p.Looping
  | _, [], _, _, hp => absurd hp (List.not_mem_nil _)
  | _, q :: rest, hn, p, hp => by
    rcases List.mem_cons.mp hp with rfl | hp
    · exact (hn.2.2.1 p rfl).1
    · exact Nested.looping hn.2.2.2 p hp

/-- A `ModifyRequest` ranging over the one modifier of group `0`, while an `AddRequestModifier`
on it has the writer's turn and waits for the reader to leave. -/
def addWaiting : Calls Nat :=
  ⟨fun _ => ⟨[.other 0], [], false⟩,
    [[⟨.group 0, .modify .request, .loop 0 [.other 0] none⟩],
      [⟨.group 0, .add .request (.other 1), .wait 0⟩]]⟩

theorem addWaiting_reachable : addWaiting.Reachable addWaiting.heap :=
  .step (a := .run 1 none) (.step (a := .call 0 (.add .request (.other 1)))
    (.step (a := .run 0 none) (.step (a := .run 0 none)
      (.step (a := .call 0 (.modify .request)) .init rfl) rfl) rfl) rfl) rfl

example : addWaiting.step (.run 1 none) = none := rfl

/-- While a call ranges over a list of a group, no step of any goroutine changes that list:
`AddRequestModifier` and `AddResponseModifier` wait for it. -/
theorem Calls.range_stable {h0 : Heap L} {s s' : Calls L} {a : Act L} (hr : s.Reachable h0)
    (hs : s.step a = some s') {t : List (Frame L)} (ht : t ∈ s.tasks) {f : Frame L} (hf : f ∈ t)
    {g : Nat} {side : Side} (hover : f.RangesOver g side) :
    (s'.heap g).mods side = (s.heap g).mods side := by
  have hi := hr.inv
  obtain ⟨j, hj⟩ := List.mem_iff_getElem?.mp ht
  obtain ⟨mode, hm⟩ := hover.holds
  have hmj : (⟨g, side⟩, mode) ∈ held t := List.mem_flatMap.mpr ⟨f, hf, hm⟩
  cases a with
  | call | callImmutable =>
    cases hs
    rfl
  | setAggregateErrors =>
    cases hs
    simp
  | run i r =>
    simp only [Calls.step, Option.bind_eq_some, Option.map_eq_some'] at hs
    obtain ⟨u, hu, ⟨h', u'⟩, hst, rfl⟩ := hs
    rcases Calls.stepTask_heap hst with rfl | ⟨g', side', e, n, rest, rfl, rfl⟩
    · rfl
    · rw [Group.mods_addModifier, if_neg]
      rintro ⟨rfl, rfl⟩
      have hw : (⟨g, side⟩, Mode.write) ∈ held (⟨.group g, .add side e, .lock (n + 1)⟩ :: rest) := by
        simp [Recv.locks]
      have hij : i = j := by
        cases mode
        · exact hi.excl.reader hu hj hw hmj
        · exact hi.excl.writer hu hj (.inl hw) (.inl hmj)
      subst hij
      obtain rfl := Option.some.inj (hu.symm.trans hj)
      have hrest : rest = [] := by
        cases rest with
        | nil => rfl
        | cons p rest => exact absurd ((hi.nested hu).2.2.1 p rfl).2 (by simp [Method.lists])
      subst hrest
      rcases List.mem_singleton.mp hf with rfl
      obtain ⟨-, k, ms, merr, hloop, -⟩ := hover
      cases hloop

theorem range_stable_addWaiting :
    addWaiting.Reachable addWaiting.heap ∧ ∃ s', addWaiting.step (.run 0 none) = some s' ∧
      (s'.heap 0).mods .request = (addWaiting.heap 0).mods .request :=
  ⟨addWaiting_reachable, _, rfl, Calls.range_stable (a := .run 0 none) addWaiting_reachable rfl
    (List.mem_cons_self _ _) (List.mem_cons_self _ _) ⟨rfl, 0, _, _, rfl, rfl⟩⟩


theorem Frame.want_of {f : Frame L} {n : Nat} {mu : Mu} {mode : Mode}
    (hst : f.stage = .lock n ∨ f.stage = .wait n) (hl : (f.recv.locks f.m)[n]? = some (mu, mode)) :
    f.want = some mu := by
  rcases hst with h | h <;> simp [Frame.want, h, hl]

/-- When no goroutine can step, every goroutine waits for a lock, and it waits for a goroutine
that waits for a lock above it: a reader in, a writer in, or a `Lock` with the turn that waits
for a reader in. -/
theorem Calls.Inv.waits_above {s : Calls L} (hi : s.Inv)
    (hstuck : ∀ (j : Nat) (u : List (Frame L)), s.tasks[j]? = some u → s.stepTask none u = none)
    {t : List (Frame L)} (ht : t ∈ s.tasks) {w : Mu} (hw : want t = some w) :
    ∃ w' ∈ s.tasks.filterMap want, w.Before s.heap w' := by
  have top : ∀ {f rest}, f :: rest ∈ s.tasks → ∃ n mu mode, (f.recv.locks f.m)[n]? = some (mu, mode) ∧
      ((f.stage = .lock n ∧ s.writerTurn mu = true) ∨ (f.stage = .wait n ∧ s.readers mu = true)) :=
    fun {f rest} hu => by
      obtain ⟨j, hj⟩ := List.mem_iff_getElem?.mp hu
      have hn := hstuck j _ hj
      simp only [Calls.stepTask, Option.map_eq_none'] at hn
      exact Calls.stepTop_none hn
  have above : ∀ {u l}, u ∈ s.tasks → l ∈ held u → ∃ w' ∈ s.tasks.filterMap want,
      l.1.Before s.heap w' := fun {u l} hu hl => by
    obtain _ | ⟨f, rest⟩ := u
    · simp at hl
    obtain ⟨n, mu, mode, hl', hst⟩ := top hu
    have hwant := Frame.want_of (hst.imp And.left And.left) hl'
    obtain ⟨j, hj⟩ := List.mem_iff_getElem?.mp hu
    exact ⟨mu, List.mem_filterMap.mpr ⟨_, hu, hwant⟩, (hi.nested hj).held_before hwant hl⟩
  obtain _ | ⟨f, rest⟩ := t
  · cases hw
  obtain ⟨n, mu, mode, hl, hst⟩ := top ht
  obtain rfl : mu = w := Option.some.inj ((Frame.want_of (hst.imp And.left And.left) hl).symm.trans hw)
  rcases hst with ⟨-, hwt⟩ | ⟨-, hrd⟩
  · obtain ⟨u, hu, hwu | hwu⟩ := (s.writerTurn_iff mu).mp hwt
    · exact above hu hwu
    · obtain _ | ⟨f', rest'⟩ := u
      · simp at hwu
      obtain ⟨j, hj⟩ := List.mem_iff_getElem?.mp hu
      have hrest : turns rest' = [] := List.filterMap_eq_nil_iff.mpr fun p hp => by
        obtain ⟨k, ms, merr, hk⟩ := (hi.nested hj).looping p hp
        simp [Frame.turn, hk]
      simp only [turns_cons, hrest, List.append_nil, Option.mem_toList] at hwu
      obtain ⟨n', mu', mode', hl', hst'⟩ := top hu
      rcases hst' with ⟨hst', -⟩ | ⟨hst', hrd⟩
      · simp [Frame.turn, hst'] at hwu
      · obtain rfl : mu' = mu := by simpa [Frame.turn, hst', hl'] using hwu
        obtain ⟨v, hv, hvr⟩ := (s.readers_iff mu').mp hrd
        exact above hv hvr
  · obtain ⟨v, hv, hvr⟩ := (s.readers_iff mu).mp hrd
    exact above hv hvr

/-- As long as no group holds itself, directly or through other groups and `ImmutableGroup`s,
some goroutine inside a call of the package can always take its next step: the locks never
deadlock. -/
theorem Calls.deadlock_free {h0 : Heap L} {s : Calls L} (hr : s.Reachable h0)
    (ha : s.heap.Acyclic) (hu : ∃ t ∈ s.tasks, t ≠ []) : ∃ i, (s.step (.run i none)).isSome := by
  by_contra hno
  have hstuck : ∀ (j : Nat) (u : List (Frame L)), s.tasks[j]? = some u →
      s.stepTask none u = none := fun j u hj => by
    have := not_exists.mp hno j
    simp only [Calls.step, hj, Option.some_bind, Option.isSome_map', Option.not_isSome_iff_eq_none,
      Option.isNone_iff_eq_none] at this
    exact this
  obtain ⟨t, ht, hne⟩ := hu
  obtain ⟨f, rest, rfl⟩ := List.exists_cons_of_ne_nil hne
  have hW : s.tasks.filterMap want ≠ [] := by
    obtain ⟨j, hj⟩ := List.mem_iff_getElem?.mp ht
    have hn := hstuck j _ hj
    simp only [Calls.stepTask, Option.map_eq_none'] at hn
    obtain ⟨n, mu, mode, hl, hst⟩ := Calls.stepTop_none hn
    exact List.ne_nil_of_mem (List.mem_filterMap.mpr
      ⟨_, ht, Frame.want_of (hst.imp And.left And.left) hl⟩)
  obtain ⟨w, hwW, hmax⟩ := Mu.exists_top ha hW
  obtain ⟨t', ht', hw'⟩ := List.mem_filterMap.mp hwW
  obtain ⟨w', hw'W, hb⟩ := hr.inv.waits_above hstuck ht' hw'
  exact hmax w' hw'W hb

theorem deadlock_free_addWaiting :
    addWaiting.Reachable addWaiting.heap ∧ addWaiting.heap.Acyclic ∧
      (∃ t ∈ addWaiting.tasks, t ≠ []) ∧ ∃ i, (addWaiting.step (.run i none)).isSome := by
  have ha : addWaiting.heap.Acyclic := fun g hg => by
    obtain ⟨c, ⟨side, e, he, hn⟩, -⟩ := Relation.TransGen.head'_iff.mp hg
    cases side <;> simp [addWaiting, GroupFields.mods, Side.pick] at he
    subst he
    cases hn
  have hu : ∃ t ∈ addWaiting.tasks, t ≠ [] := ⟨_, List.mem_cons_self _ _, List.cons_ne_nil _ _⟩
  exact ⟨addWaiting_reachable, ha, hu, Calls.deadlock_free addWaiting_reachable ha hu⟩

/-- A group that holds itself can deadlock: a `ModifyRequest` on it calls it again and waits
behind an `AddRequestModifier` that has the writer's turn and waits for the first `RLock` to be
released. So `deadlock_free` needs its hypothesis. -/
theorem Calls.cycle_deadlocks :
    ∃ s : Calls Nat, s.Reachable (fun _ => ⟨[.group 0], [], false⟩) ∧ (∃ t ∈ s.tasks, t ≠ []) ∧
      ∀ i r, s.step (.run i r) = none := by
  refine ⟨⟨fun _ => ⟨[.group 0], [], false⟩,
      [[⟨.group 0, .modify .request, .lock 0⟩, ⟨.group 0, .modify .request, .loop 0 [] none⟩],
        [⟨.group 0, .add .request (.other 1), .wait 0⟩]]⟩,
    .step (a := .run 0 none) (.step (a := .run 1 none)
      (.step (a := .call 0 (.add .request (.other 1))) (.step (a := .run 0 none)
        (.step (a := .run 0 none) (.step (a := .call 0 (.modify .request)) .init rfl) rfl) rfl)
      rfl) rfl) rfl,
    ⟨_, List.mem_cons_self _ _, List.cons_ne_nil _ _⟩, fun i r => ?_⟩
  rcases i with _ | _ | i <;> rfl

end Fifo
end Martian
