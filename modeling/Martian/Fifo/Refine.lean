import Martian.Fifo.Locks
import Martian.Fifo.Verify

/-!
# The calls of the lock model compute what the value model computes

`Martian.Fifo.Locks` runs the methods of the package as goroutines over the heap of groups, lock
by lock and entry by entry; `Martian.Fifo.Group` and `Martian.Fifo.Verify` give `ModifyRequest`
and `VerifyRequests` as functions of a tree of modifiers held by value. This module connects the
two levels.

While no goroutine holds a lock of a group for writing or has the writer's turn of one (every call
in flight is a `ModifyRequest` or a `ModifyResponse`, so `ReadOnly` holds of every stack), a
goroutine that begins `ModifyRequest` or `ModifyResponse` runs the call on its own, step after
step, none of them blocked, to its return (`Calls.modify_refines`). It returns to its caller the
error `Modifier.modify` gives for the tree `Group.resolve` reads at the receiver, when each other
modifier `l` returns `err l`. The other goroutines do not move meanwhile; the heap does not change.

`VerifyRequests` takes its locks for writing. While no other goroutine holds a lock, a goroutine
whose callers hold no lock of the tree below the receiver runs it alone to its return, taking the
writer's turn and going in at every group of the tree, and returns the error of the value model's
verification (`Calls.verify_refines`). The locks of the tree are all different because a tree
that `Group.resolve` reads has no cycle.

`SetAggregateErrors` takes no lock, and a call that it overlaps can return what no setting of the
flag gives (`Calls.aggregate_race`).

The proofs are the functional correspondence of an evaluator and its abstract machine: by
structural recursion on the tree of modifiers, the recursion of `Modifier.modify` and `loop` (of
`Modifier.verifier` and `verifyLoop`), uniformly in the stack of callers below the call.
-/

namespace Martian
namespace Fifo

variable {L : Type}

/-! ## Goroutines inside `ModifyRequest` calls only -/

/-- The error the goroutine with the stack `t` is given at its next step when each other modifier
`l` returns `err l`: `err l` when it is about to call `l`. -/
def nextErr (err : L → Option Error) : List (Frame L) → Option Error
  | ⟨_, _, .loop _ (.other l :: _) _⟩ :: _ => err l
  | _ => none

/-- A step of the goroutine `i`, each other modifier `l` it calls returning `err l`. -/
def Calls.Runs (err : L → Option Error) (i : Nat) (s s' : Calls L) : Prop :=
  ∃ t, s.tasks[i]? = some t ∧ s.step (.run i (nextErr err t)) = some s'

/-- A goroutine that holds locks only through `RLock` and has no writer's turn, as one inside
`ModifyRequest` and `ModifyResponse` calls only does. -/
def ReadOnly (t : List (Frame L)) : Prop := (∀ l ∈ held t, l.2 = .read) ∧ turns t = []

instance (t : List (Frame L)) : Decidable (ReadOnly t) :=
  inferInstanceAs (Decidable ((∀ l ∈ held t, l.2 = .read) ∧ turns t = []))

/-- The other modifier `l` in the value model, on messages that carry nothing: it returns
`err l`. -/
def errCall (err : L → Option Error) (l : L) (_ : Unit) : Unit × Option Error := ((), err l)

theorem Calls.writerTurn_of_readOnly {s : Calls L} (hro : ∀ t ∈ s.tasks, ReadOnly t) (mu : Mu) :
    s.writerTurn mu = false := by
  refine Bool.eq_false_iff.mpr fun hw => ?_
  obtain ⟨t, ht, hwr | hturn⟩ := (s.writerTurn_iff mu).mp hw
  · exact Mode.noConfusion ((hro t ht).1 _ hwr)
  · simp [(hro t ht).2] at hturn

/-- A `ModifyRequest` frame, before or after its lock, holds its lock only for reading. -/
theorem ReadOnly.modify {rest : List (Frame L)} (hr : ReadOnly rest) (recv : Recv L) (side : Side)
    (st : Stage L) (hst : ∀ n, st ≠ .wait n) : ReadOnly (⟨recv, .modify side, st⟩ :: rest) := by
  have hread : ∀ l ∈ recv.locks (.modify side), l.2 = .read := by
    cases recv <;> simp [Recv.locks]
  refine ⟨fun l hl => ?_, ?_⟩
  · rcases List.mem_append.mp (by simpa using hl) with hl | hl
    · exact hread l (Frame.held_sub _ hl)
    · exact hr.1 l hl
  · cases st with
    | wait n => exact absurd rfl (hst n)
    | _ => simpa using hr.2

theorem readOnly_set {ts : List (List (Frame L))} (hro : ∀ t ∈ ts, ReadOnly t) {t : List (Frame L)}
    (ht : ReadOnly t) (i : Nat) : ∀ t' ∈ ts.set i t, ReadOnly t' := fun _ h' =>
  (List.mem_or_eq_of_mem_set h').elim (hro _) fun he => he ▸ ht

/-! ## What the entries of a list stand for -/

theorem resolveListWith_eq_nil {sub : Nat → Option (Modifier L)} {es : List (Entry L)}
    (h : resolveListWith sub es = some []) : es = [] := by
  cases es with
  | nil => rfl
  | cons e es =>
    simp only [resolveListWith, Option.bind_eq_some, Option.map_eq_some'] at h
    obtain ⟨_, _, _, _, h⟩ := h
    exact List.noConfusion h

theorem resolveListWith_eq_cons {sub : Nat → Option (Modifier L)} {es : List (Entry L)}
    {m : Modifier L} {ms : List (Modifier L)} (h : resolveListWith sub es = some (m :: ms)) :
    ∃ e es', es = e :: es' ∧ e.resolveWith sub = some m ∧ resolveListWith sub es' = some ms := by
  cases es with
  | nil => simp [resolveListWith] at h
  | cons e es =>
    simp only [resolveListWith, Option.bind_eq_some, Option.map_eq_some', List.cons.injEq] at h
    obtain ⟨m, hm, ms, hms, rfl, rfl⟩ := h
    exact ⟨e, es, rfl, hm, hms⟩

/-- The receiver of a call that stands for a `*Group`: a group whose lists resolve, and whose
flag the tree carries. -/
theorem Recv.resolve_group {h : Heap L} {n : Nat} {recv : Recv L} {rs ss : List (Modifier L)}
    {agg : Bool} (hm : recv.entry.resolveWith (Group.resolve h n) = some (.group rs ss agg)) :
    ∃ g n', recv = .group g ∧ resolveListWith (Group.resolve h n') (h g).reqmods = some rs ∧
      resolveListWith (Group.resolve h n') (h g).resmods = some ss ∧ agg = (h g).aggregateErrors := by
  cases recv with
  | group g =>
    cases n with
    | zero => simp [Recv.entry, Entry.resolveWith, Group.resolve] at hm
    | succ n =>
      obtain ⟨rs', hrs, ss', hss, he⟩ := (Group.resolve_succ h n g _).mp hm
      cases he
      exact ⟨g, n, rfl, hrs, hss, rfl⟩
  | immutable reqmods resmods a =>
    simp [Recv.entry, Entry.resolveWith, Option.bind_eq_some, Option.map_eq_some'] at hm

/-- The receiver of a call that stands for an `*ImmutableGroup`: one whose lists resolve. -/
theorem Recv.resolve_immutable {h : Heap L} {n : Nat} {recv : Recv L} {rs ss : List (Modifier L)}
    {agg : Bool} (hm : recv.entry.resolveWith (Group.resolve h n) = some (.immutable rs ss agg)) :
    ∃ reqmods resmods, recv = .immutable reqmods resmods agg ∧
      resolveListWith (Group.resolve h n) reqmods = some rs ∧
      resolveListWith (Group.resolve h n) resmods = some ss := by
  cases recv with
  | group g =>
    cases n with
    | zero => simp [Recv.entry, Entry.resolveWith, Group.resolve] at hm
    | succ n =>
      obtain ⟨_, _, _, _, he⟩ := (Group.resolve_succ h n g _).mp hm
      exact Modifier.noConfusion he
  | immutable reqmods resmods a =>
    obtain ⟨hrs, hss, rfl⟩ :=
      (GroupFields.resolveWith_immutable (c := ⟨reqmods, resmods, a⟩)).mp hm
    exact ⟨reqmods, resmods, rfl, hrs, hss⟩

theorem Recv.resolve_ne_other {h : Heap L} {n : Nat} (recv : Recv L) (l : L) :
    recv.entry.resolveWith (Group.resolve h n) ≠ some (.other l) := by
  cases recv with
  | group g =>
    cases n with
    | zero => simp [Recv.entry, Entry.resolveWith, Group.resolve]
    | succ n =>
      intro hm
      obtain ⟨_, _, _, _, he⟩ := (Group.resolve_succ h n g _).mp hm
      exact Modifier.noConfusion he
  | immutable reqmods resmods a =>
    simp [Recv.entry, Entry.resolveWith, Option.bind_eq_some, Option.map_eq_some']

/-- An entry of a list is an other modifier, which `ModifyRequest` calls, or the receiver of the
`ModifyRequest` call it makes. -/
theorem Entry.visit_modify (side : Side) (e : Entry L) :
    (∃ l, e = .other l ∧ (Method.modify side).visit e = .call) ∨
      ∃ recv : Recv L, recv.entry = e ∧
        (Method.modify side).visit e = .push ⟨recv, .modify side, .lock 0⟩ := by
  cases e with
  | other l => exact .inl ⟨l, rfl, rfl⟩
  | group g => exact .inr ⟨.group g, rfl, rfl⟩
  | immutable reqmods resmods agg => exact .inr ⟨.immutable reqmods resmods agg, rfl, rfl⟩

/-! ## The run of a call -/

section Run

variable {err : L → Option Error} {h : Heap L} {ts : List (List (Frame L))} {i : Nat}

/-- A step of the top frame of the goroutine `i` is a step of the goroutine. -/
theorem Calls.runs_of_stepTop (hi : i < ts.length) {rest t' : List (Frame L)} (f : Frame L)
    (x : Next L)
    (hs : (Calls.mk h (ts.set i (f :: rest))).stepTop (nextErr err (f :: rest)) f = some (h, x))
    (ht : x.apply h rest = t') :
    Calls.Runs err i ⟨h, ts.set i (f :: rest)⟩ ⟨h, ts.set i t'⟩ :=
  ⟨_, List.getElem?_set_self hi, by
    simp [Calls.step, List.getElem?_set_self hi, Calls.stepTask, hs, ht]⟩

/-- The deferred unlocks of a call, and its return of `res` to its caller. -/
theorem Calls.unlock_runs (hi : i < ts.length) (recv : Recv L) (m : Method L) (res : Option Error)
    (rest : List (Frame L)) : ∀ n, Relation.ReflTransGen (Calls.Runs err i)
      ⟨h, ts.set i (⟨recv, m, .unlock n res⟩ :: rest)⟩ ⟨h, ts.set i (Next.apply h (.ret res) rest)⟩
  | 0 => .single (Calls.runs_of_stepTop hi _ (.ret res) rfl rfl)
  | n + 1 => .head (Calls.runs_of_stepTop hi _ (.stay ⟨recv, m, .unlock n res⟩) rfl rfl)
      (Calls.unlock_runs hi recv m res rest n)

/-- A `ModifyRequest` call once its first entry `m` returned `r`: the rest of the list, unless `r`
ends the call. -/
theorem Calls.absorb_runs {recv : Recv L} {side : Side} {es : List (Entry L)}
    {m : Modifier L} {ms : List (Modifier L)} {rest : List (Frame L)}
    (ih : ∀ merr, Relation.ReflTransGen (Calls.Runs err i)
      ⟨h, ts.set i (⟨recv, .modify side, .loop 0 es merr⟩ :: rest)⟩
      ⟨h, ts.set i (⟨recv, .modify side, .unlock (recv.locks (.modify side)).length
        (loop (errCall err) side (recv.aggregateErrors h) ms () merr).err⟩ :: rest)⟩)
    (merr : Option MultiError) {r : Option Error} (hr : (m.modify (errCall err) side ()).err = r) :
    Relation.ReflTransGen (Calls.Runs err i)
      ⟨h, ts.set i (⟨recv, .modify side,
        (⟨recv, .modify side, .loop 0 es merr⟩ : Frame L).absorb h 0 es merr r⟩ :: rest)⟩
      ⟨h, ts.set i (⟨recv, .modify side, .unlock (recv.locks (.modify side)).length
        (loop (errCall err) side (recv.aggregateErrors h) (m :: ms) () merr).err⟩ :: rest)⟩ := by
  cases r with
  | none =>
    rw [loop_cons_ok _ hr]
    exact ih merr
  | some e =>
    rw [loop_cons_err _ hr]
    by_cases hagg : recv.aggregateErrors h = true
    · simp only [Frame.absorb, if_pos hagg, Outcome.after_err]
      exact ih _
    · simp only [Frame.absorb, if_neg hagg]
      exact .refl

mutual

/-- A `ModifyRequest` (or `ModifyResponse`) call on `recv` on top of the goroutine `i` runs to its
return, and returns to its caller what `Modifier.modify` gives for the tree `recv` stands for. -/
theorem Calls.modify_runs (hi : i < ts.length) (hro : ∀ t ∈ ts, ReadOnly t) (side : Side) :
    ∀ (m : Modifier L) {n : Nat} {recv : Recv L} {rest : List (Frame L)},
      recv.entry.resolveWith (Group.resolve h n) = some m → ReadOnly rest →
      Relation.ReflTransGen (Calls.Runs err i)
        ⟨h, ts.set i (⟨recv, .modify side, .lock 0⟩ :: rest)⟩
        ⟨h, ts.set i (Next.apply h (.ret (m.modify (errCall err) side ()).err) rest)⟩
  | .other l, _, recv, _, hm, _ => absurd hm (recv.resolve_ne_other l)
  | .group rs ss agg, _, _, rest, hm, hr => by
    obtain ⟨g, n, rfl, hrs, hss, rfl⟩ := Recv.resolve_group hm
    have hw := Calls.writerTurn_of_readOnly (s := ⟨h, ts.set i (_ :: rest)⟩)
      (readOnly_set hro (hr.modify (.group g) side (.lock 0) nofun) i) ⟨g, side⟩
    have hbody : Relation.ReflTransGen (Calls.Runs err i)
        ⟨h, ts.set i (⟨.group g, .modify side, .loop 0 ((h g).mods side) none⟩ :: rest)⟩
        ⟨h, ts.set i (⟨.group g, .modify side, .unlock 1
          (loop (errCall err) side (h g).aggregateErrors (side.pick rs ss) () none).err⟩ :: rest)⟩ := by
      cases side
      · exact Calls.loop_runs hi hro .request rs hrs hr
      · exact Calls.loop_runs hi hro .response ss hss hr
    rw [Modifier.modify_group]
    -- `RLock`, the body, the deferred `RUnlock` and the return
    exact .head (Calls.runs_of_stepTop hi _ (.stay ⟨.group g, .modify side, .lock 1⟩)
      (by simp [Calls.stepTop, Recv.locks, hw]) rfl)
      (.head (Calls.runs_of_stepTop hi _ (.stay ⟨.group g, .modify side,
        .loop 0 ((h g).mods side) none⟩) rfl rfl)
        (hbody.trans (Calls.unlock_runs hi _ _ _ rest 1)))
  | .immutable rs ss agg, _, _, rest, hm, hr => by
    obtain ⟨reqmods, resmods, rfl, hrs, hss⟩ := Recv.resolve_immutable hm
    have hbody : Relation.ReflTransGen (Calls.Runs err i)
        ⟨h, ts.set i (⟨.immutable reqmods resmods agg, .modify side,
          .loop 0 (side.pick reqmods resmods) none⟩ :: rest)⟩
        ⟨h, ts.set i (⟨.immutable reqmods resmods agg, .modify side, .unlock 0
          (loop (errCall err) side agg (side.pick rs ss) () none).err⟩ :: rest)⟩ := by
      cases side
      · exact Calls.loop_runs hi hro .request rs hrs hr
      · exact Calls.loop_runs hi hro .response ss hss hr
    rw [Modifier.modify_immutable]
    -- no lock to take, the body and the return
    exact .head (Calls.runs_of_stepTop hi _ (.stay ⟨.immutable reqmods resmods agg, .modify side,
      .loop 0 (side.pick reqmods resmods) none⟩) rfl rfl)
      (hbody.trans (Calls.unlock_runs hi _ _ _ rest 0))
termination_by structural m => m

/-- The loop of a `ModifyRequest` call over the entries `es` left runs to the deferred unlocks,
with the error the value model's `loop` returns over what `es` stands for. -/
theorem Calls.loop_runs (hi : i < ts.length) (hro : ∀ t ∈ ts, ReadOnly t) (side : Side) :
    ∀ (ms : List (Modifier L)) {n : Nat} {es : List (Entry L)} {recv : Recv L}
      {merr : Option MultiError} {rest : List (Frame L)},
      resolveListWith (Group.resolve h n) es = some ms → ReadOnly rest →
      Relation.ReflTransGen (Calls.Runs err i)
        ⟨h, ts.set i (⟨recv, .modify side, .loop 0 es merr⟩ :: rest)⟩
        ⟨h, ts.set i (⟨recv, .modify side, .unlock (recv.locks (.modify side)).length
          (loop (errCall err) side (recv.aggregateErrors h) ms () merr).err⟩ :: rest)⟩
  | [], _, _, _, _, _, hes, _ => by
    cases resolveListWith_eq_nil hes
    exact .single (Calls.runs_of_stepTop hi _ (.stay _) rfl rfl)
  | m :: ms, _, _, recv, merr, rest, hes, hr => by
    obtain ⟨e, es, rfl, he, hes⟩ := resolveListWith_eq_cons hes
    refine .trans ?first (Calls.absorb_runs
      (fun merr => Calls.loop_runs hi hro side ms hes hr) merr rfl)
    rcases Entry.visit_modify side e with ⟨l, rfl, -⟩ | ⟨recv', rfl, hv⟩
    · -- an other modifier, called
      cases he
      exact .single (Calls.runs_of_stepTop hi _ (.stay _) rfl rfl)
    · -- a `ModifyRequest` call on the entry, which returns to the loop
      refine .head (Calls.runs_of_stepTop hi _ (.call ⟨recv', .modify side, .lock 0⟩
        ⟨recv, .modify side, .loop 0 es merr⟩) (by simp [Calls.stepTop, hv]) rfl) ?_
      exact Calls.modify_runs hi hro side m he (hr.modify recv side _ nofun)
termination_by structural ms => ms

end

end Run

/-! ## `VerifyRequests` alone

`VerifyRequests` takes the lock of its list for writing, and calls `VerifyRequests` on the groups
in the list while it holds it. A goroutine can run it alone when no other goroutine holds a lock
or has a writer's turn, and the goroutine's own callers hold no lock of a group in the tree below
the receiver (`Group.Below`). Within the tree the locks are all different, since a tree that
`Group.resolve` reads has no cycle (`Group.resolve_not_below`). -/

/-- The `*Group` `b` is an entry of the list `side` of the group at `a`. -/
def Group.Child (h : Heap L) (side : Side) (a b : Nat) : Prop := Entry.group b ∈ (h a).mods side

/-- The group at `c` is the group at `g` or a group nested in its lists `side`, through groups. -/
def Group.Below (h : Heap L) (side : Side) (g c : Nat) : Prop :=
  Relation.ReflTransGen (Group.Child h side) g c

theorem resolveListWith_group {sub : Nat → Option (Modifier L)} :
    ∀ {es : List (Entry L)} {ms : List (Modifier L)}, resolveListWith sub es = some ms →
      ∀ {b : Nat}, Entry.group b ∈ es → ∃ m, sub b = some m
  | [], _, _, _, hb => absurd hb (List.not_mem_nil _)
  | e :: es, _, hes, _, hb => by
    simp only [resolveListWith, Option.bind_eq_some, Option.map_eq_some'] at hes
    obtain ⟨m, hm, ms, hms, -⟩ := hes
    rcases List.mem_cons.mp hb with rfl | hb
    · exact ⟨m, hm⟩
    · exact resolveListWith_group hms hb

/-- A group nested in a resolved group resolves, one level less deep. -/
theorem Group.resolve_child {h : Heap L} {n g : Nat} {m : Modifier L}
    (hm : Group.resolve h n g = some m) {side : Side} {b : Nat} (hb : Group.Child h side g b) :
    ∃ n' m', n = n' + 1 ∧ Group.resolve h n' b = some m' := by
  cases n with
  | zero => simp [Group.resolve] at hm
  | succ n =>
    obtain ⟨rs, hrs, ss, hss, -⟩ := (Group.resolve_succ h n g m).mp hm
    have hes : resolveListWith (Group.resolve h n) ((h g).mods side) = some (side.pick rs ss) := by
      cases side; exacts [hrs, hss]
    obtain ⟨m', h'⟩ := resolveListWith_group hes hb
    exact ⟨n, m', rfl, h'⟩

theorem Group.resolve_transGen {h : Heap L} {side : Side} {g b : Nat}
    (hb : Relation.TransGen (Group.Child h side) g b) :
    ∀ {n : Nat} {m : Modifier L}, Group.resolve h n g = some m →
      ∃ n' m', n' < n ∧ Group.resolve h n' b = some m' := by
  induction hb with
  | single hb =>
    intro n m hm
    obtain ⟨n', m', rfl, h'⟩ := Group.resolve_child hm hb
    exact ⟨n', m', Nat.lt_succ_self n', h'⟩
  | tail _ hbc ih =>
    intro n m hm
    obtain ⟨n', m', hlt, h'⟩ := ih hm
    obtain ⟨n'', m'', rfl, h''⟩ := Group.resolve_child h' hbc
    exact ⟨n'', m'', by omega, h''⟩

/-- A group on a cycle of groups resolves at no depth. -/
theorem Group.resolve_of_cycle {h : Heap L} {side : Side} {g : Nat}
    (hc : Relation.TransGen (Group.Child h side) g g) (n : Nat) (m : Modifier L) :
    Group.resolve h n g ≠ some m := by
  induction n using Nat.strong_induction_on generalizing m with
  | _ n ih =>
    intro hm
    obtain ⟨n', m', hlt, h'⟩ := Group.resolve_transGen hc hm
    exact ih n' hlt m' h'

/-- A resolved group is below none of its entries. -/
theorem Group.resolve_not_below {h : Heap L} {n g : Nat} {m : Modifier L}
    (hm : Group.resolve h n g = some m) {side : Side} {b : Nat} (hb : Group.Child h side g b) :
    ¬Group.Below h side b g :=
  fun hbg => Group.resolve_of_cycle (Relation.TransGen.head' hb hbg) n m hm

section Verify

variable {h : Heap L} {ts : List (List (Frame L))} {i : Nat}

theorem Calls.readersFree (hfree : ∀ t ∈ ts, held t = [] ∧ turns t = []) {t : List (Frame L)}
    {mu : Mu} (hheld : ∀ l ∈ held t, l.1 ≠ mu) : (Calls.mk h (ts.set i t)).readers mu = false := by
  refine Bool.eq_false_iff.mpr fun hr => ?_
  obtain ⟨t', ht', hrd⟩ := (Calls.readers_iff _ mu).mp hr
  rcases List.mem_or_eq_of_mem_set ht' with ht' | rfl
  · simp [(hfree t' ht').1] at hrd
  · exact hheld _ hrd rfl

theorem Calls.writerFree (hfree : ∀ t ∈ ts, held t = [] ∧ turns t = []) {t : List (Frame L)}
    {mu : Mu} (hheld : ∀ l ∈ held t, l.1 ≠ mu) (hturns : turns t = []) :
    (Calls.mk h (ts.set i t)).writerTurn mu = false := by
  refine Bool.eq_false_iff.mpr fun hw => ?_
  obtain ⟨t', ht', hwr | hturn⟩ := (Calls.writerTurn_iff _ mu).mp hw
  · rcases List.mem_or_eq_of_mem_set ht' with ht' | rfl
    · simp [(hfree t' ht').1] at hwr
    · exact hheld _ hwr rfl
  · rcases List.mem_or_eq_of_mem_set ht' with ht' | rfl
    · simp [(hfree t' ht').2] at hturn
    · simp [hturns] at hturn

theorem Modifier.verifier_other_err (verify : Side → L → Option (Option Error)) (side : Side)
    (l : L) : ((Modifier.other l).verifier verify side).bind Verdict.err = (verify side l).join := by
  show ((verify side l).map _).bind _ = _
  cases verify side l <;> rfl

theorem Modifier.verifier_group (verify : Side → L → Option (Option Error)) (side : Side)
    (rs ss : List (Modifier L)) (agg : Bool) :
    (Modifier.group rs ss agg).verifier verify side = some (verifyLoop verify side (side.pick rs ss) none) := by
  cases side <;> rfl

/-- A `VerifyRequests` call once its first entry `m` returned `r`: the rest of the list. -/
theorem Calls.absorbVerify_runs (verify : Side → L → Option (Option Error)) {g : Nat} {side : Side}
    {es : List (Entry L)} {m : Modifier L} {ms : List (Modifier L)} {rest : List (Frame L)}
    (ih : ∀ merr, Relation.ReflTransGen (Calls.Runs (fun l => (verify side l).join) i)
      ⟨h, ts.set i (⟨.group g, .verify side, .loop 0 es merr⟩ :: rest)⟩
      ⟨h, ts.set i (⟨.group g, .verify side, .unlock 1 (verifyLoop verify side ms merr).err⟩ :: rest)⟩)
    (merr : Option MultiError) {r : Option Error} (hr : (m.verifier verify side).bind Verdict.err = r) :
    Relation.ReflTransGen (Calls.Runs (fun l => (verify side l).join) i)
      ⟨h, ts.set i (⟨.group g, .verify side,
        (⟨.group g, .verify side, .loop 0 es merr⟩ : Frame L).absorb h 0 es merr r⟩ :: rest)⟩
      ⟨h, ts.set i (⟨.group g, .verify side, .unlock 1
        (verifyLoop verify side (m :: ms) merr).err⟩ :: rest)⟩ := by
  rw [verifyLoop_cons]
  subst hr
  cases m.verifier verify side with
  | none => exact ih merr
  | some v =>
    cases he : v.err with
    | none => simpa [Frame.absorb, he] using ih merr
    | some e => simpa [Frame.absorb, he] using ih _

mutual

/-- A `VerifyRequests` (or `VerifyResponses`) call on the `*Group` at `g` on top of the goroutine
`i` runs to its return, and returns to its caller the error the value model's verification gives
for the tree the group stands for, each other modifier `l` verifying to `verify side l`. -/
theorem Calls.verify_runs (verify : Side → L → Option (Option Error)) (hi : i < ts.length)
    (hfree : ∀ t ∈ ts, held t = [] ∧ turns t = []) (side : Side) :
    ∀ (m : Modifier L) {n g : Nat} {rest : List (Frame L)},
      Group.resolve h n g = some m → turns rest = [] →
      (∀ l ∈ held rest, ¬Group.Below h side g l.1.g) →
      Relation.ReflTransGen (Calls.Runs (fun l => (verify side l).join) i)
        ⟨h, ts.set i (⟨.group g, .verify side, .lock 0⟩ :: rest)⟩
        ⟨h, ts.set i (Next.apply h (.ret ((m.verifier verify side).bind Verdict.err)) rest)⟩
  | .other l, n, g, _, hm, _, _ => absurd hm (Recv.resolve_ne_other (.group g) l)
  | .immutable _ _ _, n, g, _, hm, _, _ => by
    obtain ⟨_, _, he, -⟩ := Recv.resolve_immutable
      (show (Recv.group g).entry.resolveWith (Group.resolve h n) = _ from hm)
    exact Recv.noConfusion he
  | .group rs ss agg, n, g, rest, hm, hturns, hbelow => by
    obtain ⟨_, n', hg, hrs, hss, -⟩ := Recv.resolve_group
      (show (Recv.group g).entry.resolveWith (Group.resolve h n) = _ from hm)
    cases hg
    have hacyc : ∀ b, Group.Child h side g b → ¬Group.Below h side b g :=
      fun _ hb => Group.resolve_not_below hm hb
    have hnot : ∀ l ∈ held rest, l.1 ≠ ⟨g, side⟩ := fun l hl he =>
      hbelow l hl (by rw [he]; exact .refl)
    have hw : (Calls.mk h (ts.set i (⟨.group g, .verify side, .lock 0⟩ :: rest))).writerTurn
        ⟨g, side⟩ = false := Calls.writerFree hfree hnot hturns
    have hrd : (Calls.mk h (ts.set i (⟨.group g, .verify side, .wait 0⟩ :: rest))).readers
        ⟨g, side⟩ = false := Calls.readersFree hfree hnot
    have hbody : Relation.ReflTransGen (Calls.Runs (fun l => (verify side l).join) i)
        ⟨h, ts.set i (⟨.group g, .verify side, .loop 0 ((h g).mods side) none⟩ :: rest)⟩
        ⟨h, ts.set i (⟨.group g, .verify side, .unlock 1
          (verifyLoop verify side (side.pick rs ss) none).err⟩ :: rest)⟩ := by
      cases side
      · exact Calls.verifyLoop_runs verify hi hfree .request rs none hrs (List.suffix_refl _) hacyc
          hturns hbelow
      · exact Calls.verifyLoop_runs verify hi hfree .response ss none hss (List.suffix_refl _)
          hacyc hturns hbelow
    rw [Modifier.verifier_group]
    -- `Lock`: the writer's turn, then in once no reader is; the body, `Unlock` and the return
    exact .head (Calls.runs_of_stepTop hi _ (.stay ⟨.group g, .verify side, .wait 0⟩)
        (by simp [Calls.stepTop, Recv.locks, hw]) rfl)
      (.head (Calls.runs_of_stepTop hi _ (.stay ⟨.group g, .verify side, .lock 1⟩)
        (by simp [Calls.stepTop, Recv.locks, hrd]) rfl)
      (.head (Calls.runs_of_stepTop hi _ (.stay ⟨.group g, .verify side,
        .loop 0 ((h g).mods side) none⟩) rfl rfl)
      (hbody.trans (Calls.unlock_runs hi _ _ _ rest 1))))
termination_by structural m => m

theorem Calls.verifyLoop_runs (verify : Side → L → Option (Option Error)) (hi : i < ts.length)
    (hfree : ∀ t ∈ ts, held t = [] ∧ turns t = []) (side : Side) :
    ∀ (ms : List (Modifier L)) {n g : Nat} {es : List (Entry L)} (merr : Option MultiError)
      {rest : List (Frame L)},
      resolveListWith (Group.resolve h n) es = some ms → es <:+ (h g).mods side →
      (∀ b, Group.Child h side g b → ¬Group.Below h side b g) → turns rest = [] →
      (∀ l ∈ held rest, ¬Group.Below h side g l.1.g) →
      Relation.ReflTransGen (Calls.Runs (fun l => (verify side l).join) i)
        ⟨h, ts.set i (⟨.group g, .verify side, .loop 0 es merr⟩ :: rest)⟩
        ⟨h, ts.set i (⟨.group g, .verify side, .unlock 1
          (verifyLoop verify side ms merr).err⟩ :: rest)⟩
  | [], _, _, _, _, _, hes, _, _, _, _ => by
    cases resolveListWith_eq_nil hes
    exact .single (Calls.runs_of_stepTop hi _ (.stay _) rfl rfl)
  | m :: ms, n, g, _, merr, rest, hes, hsuf, hacyc, hturns, hbelow => by
    obtain ⟨e, es, rfl, he, hes⟩ := resolveListWith_eq_cons hes
    have hsuf' : es <:+ (h g).mods side := (List.suffix_cons e es).trans hsuf
    have ih := fun merr => Calls.verifyLoop_runs verify hi hfree side ms merr hes hsuf' hacyc hturns
      hbelow
    cases e with
    | other l =>
      -- an other modifier, verified if it is a verifier
      cases he
      exact .head (Calls.runs_of_stepTop hi _ (.stay _) rfl rfl)
        (Calls.absorbVerify_runs verify ih merr (Modifier.verifier_other_err verify side l))
    | group b =>
      -- a nested group, verified by its own call, which returns to the loop
      have hb : Group.Child h side g b := hsuf.subset (List.mem_cons_self _ _)
      have hbelow' : ∀ l ∈ held (⟨.group g, .verify side, .loop 0 es merr⟩ :: rest),
          ¬Group.Below h side b l.1.g := by
        intro l hl
        rcases List.mem_append.mp (by simpa using hl) with hl | hl
        · obtain rfl : l = (⟨g, side⟩, .write) := by simpa [Recv.locks] using hl
          exact hacyc b hb
        · exact fun hbl => hbelow l hl (.head hb hbl)
      exact .head (Calls.runs_of_stepTop hi _ (.call ⟨.group b, .verify side, .lock 0⟩
          ⟨.group g, .verify side, .loop 0 es merr⟩) rfl rfl)
        ((Calls.verify_runs verify hi hfree side m he
          (show turns (⟨.group g, .verify side, .loop 0 es merr⟩ :: rest) = [] from hturns)
          hbelow').trans
          (Calls.absorbVerify_runs verify ih merr rfl))
    | immutable reqmods resmods agg =>
      -- an `ImmutableGroup`, which is no verifier
      obtain ⟨rs, ss, rfl⟩ : ∃ rs ss, m = .immutable rs ss agg := by
        simp only [Entry.resolveWith, Option.bind_eq_some, Option.map_eq_some'] at he
        obtain ⟨rs, -, ss, -, rfl⟩ := he
        exact ⟨rs, ss, rfl⟩
      rw [verifyLoop_cons]
      exact .head (Calls.runs_of_stepTop hi _ (.stay _) rfl rfl) (ih merr)
termination_by structural ms => ms

end

end Verify

theorem set_self_of_getElem? {α : Type} {l : List α} {i : Nat} {a : α} (h : l[i]? = some a) :
    l.set i a = l :=
  List.ext_getElem? fun j => by
    by_cases hij : i = j
    · subst hij
      rw [List.getElem?_set_self (List.getElem?_eq_some_iff.mp h).1, h]
    · rw [List.getElem?_set_ne hij]

/-- While every goroutine holds locks only for reading, a goroutine at the start of a
`ModifyRequest` (or `ModifyResponse`) call on `recv` runs it on its own to its return, and
returns to its caller the error `Modifier.modify` gives for the tree of modifiers `recv` stands
for in the heap, each other modifier `l` returning `err l`. -/
theorem Calls.modify_refines (err : L → Option Error) {s : Calls L} {i : Nat} {recv : Recv L}
    {side : Side} {rest : List (Frame L)}
    (hi : s.tasks[i]? = some (⟨recv, .modify side, .lock 0⟩ :: rest))
    (hro : ∀ t ∈ s.tasks, ReadOnly t) {n : Nat} {m : Modifier L}
    (hm : recv.entry.resolveWith (Group.resolve s.heap n) = some m) :
    Relation.ReflTransGen (Calls.Runs err i) s
      ⟨s.heap, s.tasks.set i (Next.apply s.heap (.ret (m.modify (errCall err) side ()).err) rest)⟩ := by
  have hr : ReadOnly rest := by
    obtain ⟨hheld, hturns⟩ := hro _ (List.getElem?_mem hi)
    refine ⟨fun l hl => hheld l (by simp [hl]), ?_⟩
    simpa [Frame.turn] using hturns
  have hrun : Relation.ReflTransGen (Calls.Runs err i) _ _ :=
    Calls.modify_runs (List.getElem?_eq_some_iff.mp hi).1 hro side m hm hr
  rw [set_self_of_getElem? hi] at hrun
  exact hrun

/-- Two goroutines inside `ModifyRequest` calls. The group at `0` aggregates its errors and holds
an other modifier and the group at `1`, which does not. The first goroutine is inside the call on
`1`; the second begins the call on `0`, made by an `ImmutableGroup` that holds `0`. -/
def twoReaders : Calls Nat :=
  ⟨fun g => if g = 0 then ⟨[.other 0, .group 1], [], true⟩ else ⟨[.other 1], [], false⟩,
    [[⟨.group 1, .modify .request, .loop 0 [.other 1] none⟩],
      [⟨.group 0, .modify .request, .lock 0⟩,
        ⟨.immutable [.group 0] [] false, .modify .request, .loop 0 [] none⟩]]⟩

/-- Every other modifier fails: the call on `0` gathers the error of its own other modifier and
the one the call on `1` stops at, and hands both to the `ImmutableGroup`. -/
theorem modify_refines_twoReaders :
    twoReaders.tasks[1]? = some [⟨.group 0, .modify .request, .lock 0⟩,
        ⟨.immutable [.group 0] [] false, .modify .request, .loop 0 [] none⟩] ∧
      (∀ t ∈ twoReaders.tasks, ReadOnly t) ∧
      (Recv.group 0).entry.resolveWith (Group.resolve twoReaders.heap 2) =
        some (.group [.other 0, .group [.other 1] [] false] [] true) ∧
      Relation.ReflTransGen (Calls.Runs (fun _ => some (.other "failed")) 1) twoReaders
        ⟨twoReaders.heap, twoReaders.tasks.set 1 [⟨.immutable [.group 0] [] false, .modify .request,
          .unlock 0 (some (.multi [.other "failed", .other "failed"]))⟩]⟩ :=
  ⟨rfl, by decide, rfl, @Calls.modify_refines Nat (fun _ => some (.other "failed")) twoReaders 1
    (.group 0) .request [⟨.immutable [.group 0] [] false, .modify .request, .loop 0 [] none⟩] rfl
    (by decide) 2 (.group [.other 0, .group [.other 1] [] false] [] true) rfl⟩

/-- The other modifier `0` fails with `first`, every other one with `second`. -/
def failFirst (l : Nat) : Option Error :=
  if l = 0 then some (.other "first") else some (.other "second")

/-- `modify_refines` runs the call on its own, and needs to: `SetAggregateErrors` takes no lock,
so it can change the flag while a `ModifyRequest` call ranges over the group's list, and the
call reads the flag anew at each error. An `ImmutableGroup` holds a group of two other
modifiers, with `aggregateErrors` set. A `ModifyRequest` on it calls the group; after the first
error the flag is cleared, and the call stops at the second error and returns it alone. With the
flag either set or clear throughout, `Modifier.modify` gives both errors or the first one. -/
theorem Calls.aggregate_race :
    ∃ s : Calls Nat, s.Reachable (fun _ => ⟨[.other 0, .other 1], [], true⟩) ∧
      s.tasks = [[⟨.immutable [.group 0] [] false, .modify .request,
        .unlock 0 (some (.other "second"))⟩]] ∧
      ∀ agg, ((Modifier.immutable [.group [.other 0, .other 1] [] agg] [] false).modify
        (errCall failFirst) .request ()).err ≠ some (.other "second") := by
  refine ⟨_, .step (a := .run 0 none) (.step (a := .run 0 none)
    (.step (a := .run 0 (some (.other "second"))) (.step (a := .setAggregateErrors 0 false)
      (.step (a := .run 0 (some (.other "first"))) (.step (a := .run 0 none)
        (.step (a := .run 0 none) (.step (a := .run 0 none) (.step (a := .run 0 none)
          (.step (a := .callImmutable .request [.group 0] [] false) .init rfl) rfl) rfl) rfl) rfl)
        rfl) rfl) rfl) rfl) rfl, rfl, ?_⟩
  intro agg h
  cases agg <;> simp [Modifier.modify, loop, errCall, failFirst, result, MultiError.add,
    MultiError.new, MultiError.empty, Error.members] at h

/-- While no other goroutine holds a lock or has a writer's turn, a goroutine at the start of a
`VerifyRequests` (or `VerifyResponses`) call on the `*Group` at `g`, whose callers hold no lock of
a group in the tree below `g` and have no turn, runs it on its own to its return. At each group
of the tree it takes the writer's turn and goes in, and it hands its caller the error the value
model's verification gives for the tree `g` stands for, each other modifier `l` verifying to
`verify side l`. -/
theorem Calls.verify_refines (verify : Side → L → Option (Option Error)) {s : Calls L} {i g : Nat}
    {side : Side} {rest : List (Frame L)}
    (hi : s.tasks[i]? = some (⟨.group g, .verify side, .lock 0⟩ :: rest))
    (hfree : ∀ j t, j ≠ i → s.tasks[j]? = some t → held t = [] ∧ turns t = [])
    (hturns : turns rest = []) (hbelow : ∀ l ∈ held rest, ¬Group.Below s.heap side g l.1.g)
    {n : Nat} {m : Modifier L} (hm : Group.resolve s.heap n g = some m) :
    Relation.ReflTransGen (Calls.Runs (fun l => (verify side l).join) i) s
      ⟨s.heap, s.tasks.set i
        (Next.apply s.heap (.ret ((m.verifier verify side).bind Verdict.err)) rest)⟩ := by
  have hlt := (List.getElem?_eq_some_iff.mp hi).1
  have hfree' : ∀ t ∈ s.tasks.set i [], held t = [] ∧ turns t = [] := fun t ht => by
    obtain ⟨j, hj⟩ := List.mem_iff_getElem?.mp ht
    rcases getElem?_set_some hj with ⟨-, rfl⟩ | ⟨hji, hj⟩
    · exact ⟨rfl, rfl⟩
    · exact hfree j t hji hj
  have hrun : Relation.ReflTransGen (Calls.Runs (fun l => (verify side l).join) i) _ _ :=
    Calls.verify_runs verify (by simpa using hlt) hfree' side m hm hturns hbelow
  rw [List.set_set, List.set_set, set_self_of_getElem? hi] at hrun
  exact hrun

/-- `VerifyRequests` on the group at `2`, inside its loop, has called `VerifyRequests` on the group
at `0`, which holds an other modifier, the group at `1` and an `ImmutableGroup`. -/
def nestedVerify : Calls Nat :=
  ⟨fun g => if g = 0 then ⟨[.other 0, .group 1, .immutable [.other 2] [] false], [], false⟩
      else if g = 1 then ⟨[.other 1], [], false⟩ else ⟨[.group 0], [], false⟩,
    [[], [⟨.group 0, .verify .request, .lock 0⟩, ⟨.group 2, .verify .request, .loop 0 [] none⟩]]⟩

/-- Every other modifier is a verifier that fails with its own name. The call on `0` gathers the
errors of its other modifier and of the group at `1`, passes over the `ImmutableGroup`, and hands
both errors to the call on `2`. -/
theorem verify_refines_nestedVerify :
    nestedVerify.tasks[1]? = some [⟨.group 0, .verify .request, .lock 0⟩,
        ⟨.group 2, .verify .request, .loop 0 [] none⟩] ∧
      (∀ j t, j ≠ 1 → nestedVerify.tasks[j]? = some t → held t = [] ∧ turns t = []) ∧
      turns [(⟨.group 2, .verify .request, .loop 0 [] none⟩ : Frame Nat)] = [] ∧
      (∀ l ∈ held [(⟨.group 2, .verify .request, .loop 0 [] none⟩ : Frame Nat)],
        ¬Group.Below nestedVerify.heap .request 0 l.1.g) ∧
      Group.resolve nestedVerify.heap 3 0 =
        some (.group [.other 0, .group [.other 1] [] false, .immutable [.other 2] [] false] [] false) ∧
      Relation.ReflTransGen
        (Calls.Runs (fun l => ((fun (_ : Side) (l : Nat) => some (some (Error.other (toString l))))
          .request l).join) 1) nestedVerify
        ⟨nestedVerify.heap, [[], [⟨.group 2, .verify .request,
          .loop 0 [] (some ⟨[.other "0", .other "1"]⟩)⟩]]⟩ := by
  have hfree : ∀ j t, j ≠ 1 → nestedVerify.tasks[j]? = some t → held t = [] ∧ turns t = [] := by
    intro j t hj ht
    rcases j with _ | _ | j
    · cases ht
      exact ⟨rfl, rfl⟩
    · exact absurd rfl hj
    · cases ht
  have hbelow : ∀ l ∈ held [(⟨.group 2, .verify .request, .loop 0 [] none⟩ : Frame Nat)],
      ¬Group.Below nestedVerify.heap .request 0 l.1.g := fun l hl => by
    obtain rfl : l = (⟨2, .request⟩, .write) := by simpa [Recv.locks] using hl
    exact Group.resolve_not_below (show Group.resolve nestedVerify.heap 4 2 = some _ from rfl)
      (List.mem_singleton.mpr rfl)
  exact ⟨rfl, hfree, rfl, hbelow, rfl, @Calls.verify_refines Nat
    (fun _ l => some (some (Error.other (toString l)))) nestedVerify 1 0 .request
    [⟨.group 2, .verify .request, .loop 0 [] none⟩] rfl hfree rfl hbelow 3
    (.group [.other 0, .group [.other 1] [] false, .immutable [.other 2] [] false] [] false) rfl⟩

end Fifo
end Martian
