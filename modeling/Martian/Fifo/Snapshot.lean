import Martian.Fifo.Immutable

/-!
# Snapshots of groups in the heap

`Martian.Fifo.Group` holds a nested `*Group` by value. The running program holds it by pointer,
and `AddRequestModifier`, `AddResponseModifier` and `SetAggregateErrors` change a group in place,
so every holder of the pointer sees the change. This module models that: an `Entry` names a
`*Group` by its address in a `Heap` of group fields, and `Group.toImmutable` is
`Group.ToImmutable` reading the groups through the heap.

`Group.resolve` reads the tree of groups at an address back into a `Modifier`; it is the
abstraction function to the value model, and `none` when the groups nest deeper than its fuel,
so a tree is acyclic exactly when some fuel resolves it. `toImmutable_resolve` says that the
heap snapshot stands for `Modifier.toImmutable` of the resolved tree and holds no pointer at any
depth (`Entry.frozen`). A frozen entry means the same in every heap (`resolveWith_frozen`), so no
later mutation reaches the snapshot.
-/

namespace Martian
namespace Fifo

/-- A modifier as the running program holds it: a `*Group` by its address. -/
inductive Entry (L : Type) where
  /-- Any modifier that is not a group of this package. -/
  | other (m : L)
  /-- A `*Group`, by its address in the heap. -/
  | group (g : Nat)
  /-- An `*ImmutableGroup`, by the fields of its embedded `group`, which nothing changes. -/
  | immutable (reqmods resmods : List (Entry L)) (aggregateErrors : Bool)

/-- The fields of `group`, which `Group` and `ImmutableGroup` embed. -/
structure GroupFields (L : Type) where
  reqmods : List (Entry L)
  resmods : List (Entry L)
  aggregateErrors : Bool

/-- The fields of every `*Group` of a run, by address. -/
abbrev Heap (L : Type) := Nat → GroupFields L

variable {L σ : Type}

/-- The list of `c` that `side` runs. -/
def GroupFields.mods (side : Side) (c : GroupFields L) : List (Entry L) :=
  side.pick c.reqmods c.resmods

/-- The `*ImmutableGroup` with the fields `c`, as an entry. -/
def GroupFields.immutable (c : GroupFields L) : Entry L :=
  .immutable c.reqmods c.resmods c.aggregateErrors

/-! ## Later calls on groups -/

/-- `h` with the `*Group` at `g` holding `c`. -/
def Heap.set (h : Heap L) (g : Nat) (c : GroupFields L) : Heap L := Function.update h g c

/-- `g.SetAggregateErrors(aggerr)`. -/
def Group.setAggregateErrors (h : Heap L) (g : Nat) (aggerr : Bool) : Heap L :=
  h.set g { h g with aggregateErrors := aggerr }

/-- `g.AddRequestModifier(m)` (`side = request`) or `g.AddResponseModifier(m)`: `m` appended
to the list. -/
def Group.addModifier (side : Side) (h : Heap L) (g : Nat) (m : Entry L) : Heap L :=
  match side with
  | .request => h.set g { h g with reqmods := (h g).reqmods ++ [m] }
  | .response => h.set g { h g with resmods := (h g).resmods ++ [m] }

/-- `g.AddRequestModifier(reqmod)`. -/
def Group.addRequestModifier (h : Heap L) (g : Nat) (reqmod : Entry L) : Heap L :=
  Group.addModifier .request h g reqmod

/-- `g.AddResponseModifier(resmod)`. -/
def Group.addResponseModifier (h : Heap L) (g : Nat) (resmod : Entry L) : Heap L :=
  Group.addModifier .response h g resmod

/-- A call that changes a group in place. -/
inductive Mutation (L : Type) where
  | setAggregateErrors (g : Nat) (aggerr : Bool)
  | addRequestModifier (g : Nat) (reqmod : Entry L)
  | addResponseModifier (g : Nat) (resmod : Entry L)

/-- The heap after the call. -/
def Mutation.apply (h : Heap L) : Mutation L → Heap L
  | .setAggregateErrors g aggerr => Group.setAggregateErrors h g aggerr
  | .addRequestModifier g reqmod => Group.addRequestModifier h g reqmod
  | .addResponseModifier g resmod => Group.addResponseModifier h g resmod

/-- The heap after the calls, in order. -/
def Heap.run (h : Heap L) (ops : List (Mutation L)) : Heap L := ops.foldl Mutation.apply h

/-! ## What an entry stands for -/

mutual
/-- The modifier `e` stands for, with the `*Group` at `g` standing for `sub g`. -/
def Entry.resolveWith (sub : Nat → Option (Modifier L)) : Entry L → Option (Modifier L)
  | .other m => some (.other m)
  | .group g => sub g
  | .immutable reqmods resmods agg =>
    (resolveListWith sub reqmods).bind fun rs =>
      (resolveListWith sub resmods).map fun ss => .immutable rs ss agg
/-- The modifiers the entries stand for, in order. -/
def resolveListWith (sub : Nat → Option (Modifier L)) : List (Entry L) → Option (List (Modifier L))
  | [] => some []
  | e :: es => (e.resolveWith sub).bind fun m => (resolveListWith sub es).map (m :: ·)
end

/-- The tree of groups at address `g` in `h`; `none` when the groups nest more than `n` deep,
as they do without end when the tree has a cycle. -/
def Group.resolve (h : Heap L) : Nat → Nat → Option (Modifier L)
  | 0, _ => none
  | n + 1, g =>
    (resolveListWith (Group.resolve h n) (h g).reqmods).bind fun rs =>
      (resolveListWith (Group.resolve h n) (h g).resmods).map fun ss =>
        .group rs ss (h g).aggregateErrors

/-- `e.ModifyRequest(req)` (`side = request`) or `e.ModifyResponse(res)` in the heap `h`, with
groups read `n` deep. -/
def Entry.modifyAt (call : L → σ → σ × Option Error) (h : Heap L) (n : Nat) (e : Entry L)
    (side : Side) (x : σ) : Option (Outcome L σ) :=
  (e.resolveWith (Group.resolve h n)).map fun m => m.modify call side x

mutual
/-- Whether no `*Group` is reachable from `e`. -/
def Entry.frozen : Entry L → Bool
  | .other _ => true
  | .group _ => false
  | .immutable reqmods resmods _ => frozenList reqmods && frozenList resmods
/-- Whether no `*Group` is reachable from the entries. -/
def frozenList : List (Entry L) → Bool
  | [] => true
  | e :: es => e.frozen && frozenList es
end

/-! ## `ToImmutable` over the heap -/

/-- One loop of `g.ToImmutable()` over the list `side` runs, under `g`'s flag `agg`; `sub r`
is `ToImmutable()` of the `*Group` at `r`. -/
def snapshotWith (sub : Nat → Option (GroupFields L)) (side : Side) (agg : Bool) :
    List (Entry L) → Option (List (Entry L))
  | [] => some []
  | .group r :: ms =>
    (sub r).bind fun im => (snapshotWith sub side agg ms).map fun rest =>
      (if agg == im.aggregateErrors then im.mods side else [im.immutable]) ++ rest
  | m :: ms => (snapshotWith sub side agg ms).map (m :: ·)

/-- `g.ToImmutable()` for the `*Group` at address `g`, as the fields of the `ImmutableGroup` it
returns; `none` when the groups nest more than `n` deep. -/
def Group.toImmutable (h : Heap L) : Nat → Nat → Option (GroupFields L)
  | 0, _ => none
  | n + 1, g =>
    (snapshotWith (Group.toImmutable h n) .request (h g).aggregateErrors (h g).reqmods).bind
      fun reqmods =>
        (snapshotWith (Group.toImmutable h n) .response (h g).aggregateErrors (h g).resmods).map
          fun resmods => ⟨reqmods, resmods, (h g).aggregateErrors⟩

/-! ## Frozen entries -/

theorem frozenList_append (xs ys : List (Entry L)) :
    frozenList (xs ++ ys) = (frozenList xs && frozenList ys) := by
  induction xs with
  | nil => simp [frozenList]
  | cons x xs ih => simp [frozenList, ih, Bool.and_assoc]

theorem resolveListWith_append {s : Nat → Option (Modifier L)} {xs ys : List (Entry L)}
    {ms ns : List (Modifier L)} (hx : resolveListWith s xs = some ms)
    (hy : resolveListWith s ys = some ns) : resolveListWith s (xs ++ ys) = some (ms ++ ns) := by
  induction xs generalizing ms with
  | nil =>
    simp only [resolveListWith, Option.some.injEq] at hx
    simpa [← hx] using hy
  | cons x xs ih =>
    simp only [resolveListWith, Option.bind_eq_some, Option.map_eq_some'] at hx
    obtain ⟨m, hm, ms', hms', rfl⟩ := hx
    simp [resolveListWith, hm, ih hms']

/-- An `ImmutableGroup` entry stands for an `ImmutableGroup` with the same flag whose lists are
what its lists stand for. -/
theorem GroupFields.resolveWith_immutable {c : GroupFields L} {s : Nat → Option (Modifier L)}
    {rs ss : List (Modifier L)} {agg : Bool} :
    c.immutable.resolveWith s = some (.immutable rs ss agg) ↔
      resolveListWith s c.reqmods = some rs ∧ resolveListWith s c.resmods = some ss ∧
        c.aggregateErrors = agg := by
  simp only [GroupFields.immutable, Entry.resolveWith, Option.bind_eq_some, Option.map_eq_some',
    Modifier.immutable.injEq]
  constructor
  · rintro ⟨rs, hrs, ss, hss, rfl, rfl, rfl⟩
    exact ⟨hrs, hss, rfl⟩
  · rintro ⟨hrs, hss, rfl⟩
    exact ⟨rs, hrs, ss, hss, rfl, rfl, rfl⟩

/-- A frozen entry stands for the same modifier in every heap. -/
theorem resolveWith_frozen (sub sub' : Nat → Option (Modifier L)) (e : Entry L)
    (h : e.frozen = true) : e.resolveWith sub = e.resolveWith sub' := by
  revert h
  refine Entry.resolveWith.induct sub
    (motive_1 := fun e => e.frozen = true → e.resolveWith sub = e.resolveWith sub')
    (motive_2 := fun es => frozenList es = true →
      resolveListWith sub es = resolveListWith sub' es)
    ?other ?group ?immutable ?nil ?cons e
  case other => intro _ _; rfl
  case group => intro _ h; simp [Entry.frozen] at h
  case immutable =>
    intro rs ss _ hrs hss h
    simp only [Entry.frozen, Bool.and_eq_true] at h
    simp [Entry.resolveWith, hrs h.1, hss h.2]
  case nil => intro _; rfl
  case cons =>
    intro e es he hes h
    simp only [frozenList, Bool.and_eq_true] at h
    simp [resolveListWith, he h.1, hes h.2]

/-! ## The heap snapshot refines `Modifier.toImmutable` -/

/-- A resolved `*Group` is a group with the fields of the heap. -/
theorem Group.resolve_succ (h : Heap L) (n g : Nat) (c : Modifier L) :
    Group.resolve h (n + 1) g = some c ↔
      ∃ rs, resolveListWith (Group.resolve h n) (h g).reqmods = some rs ∧
        ∃ ss, resolveListWith (Group.resolve h n) (h g).resmods = some ss ∧
          c = .group rs ss (h g).aggregateErrors := by
  simp only [Group.resolve, Option.bind_eq_some, Option.map_eq_some']
  constructor <;> rintro ⟨rs, hrs, ss, hss, h⟩ <;> exact ⟨rs, hrs, ss, hss, h.symm⟩

/-- One loop of the heap `ToImmutable` stands for the value-level loop `snapshot`, and leaves
no pointer, given that each nested group's snapshot does. -/
theorem snapshotWith_resolve {h : Heap L} {n : Nat}
    (ih : ∀ g c, Group.resolve h n g = some c → c.groupTree = true →
      ∃ im, Group.toImmutable h n g = some im ∧ im.immutable.frozen = true ∧
        ∀ s, im.immutable.resolveWith s = some c.toImmutable)
    (side : Side) (agg : Bool) (es : List (Entry L)) (ms : List (Modifier L))
    (hes : resolveListWith (Group.resolve h n) es = some ms) (ht : groupTreeList ms = true) :
    ∃ es', snapshotWith (Group.toImmutable h n) side agg es = some es' ∧
      frozenList es' = true ∧ ∀ s, resolveListWith s es' = some (snapshot side agg ms) := by
  induction es generalizing ms with
  | nil =>
    simp only [resolveListWith, Option.some.injEq] at hes
    subst hes
    exact ⟨[], rfl, rfl, fun _ => by simp [resolveListWith, snapshot]⟩
  | cons e es ihs =>
    simp only [resolveListWith, Option.bind_eq_some, Option.map_eq_some'] at hes
    obtain ⟨m, hm, ms', hms', rfl⟩ := hes
    simp only [groupTreeList, Bool.and_eq_true] at ht
    obtain ⟨es', hes', hfr, hres⟩ := ihs ms' hms' ht.2
    cases e with
    | other l =>
      cases hm
      refine ⟨.other l :: es', by simp [snapshotWith, hes'], by simp [frozenList, Entry.frozen, hfr],
        fun s => ?_⟩
      simp [resolveListWith, Entry.resolveWith, hres s, snapshot]
    | immutable _ _ _ =>
      simp only [Entry.resolveWith, Option.bind_eq_some, Option.map_eq_some'] at hm
      obtain ⟨_, _, _, _, rfl⟩ := hm
      simp [Modifier.groupTree] at ht
    | group r =>
      obtain ⟨k, hk⟩ : ∃ k, n = k + 1 := by
        cases n with
        | zero => simp [Entry.resolveWith, Group.resolve] at hm
        | succ k => exact ⟨k, rfl⟩
      subst hk
      obtain ⟨rs, -, ss, -, rfl⟩ := (Group.resolve_succ h k r m).mp hm
      obtain ⟨im, him, himf, himr⟩ := ih r _ hm ht.1
      obtain ⟨hreq, hres', hagg⟩ := GroupFields.resolveWith_immutable.mp (himr fun _ => none)
      have hfields : ∀ s, resolveListWith s im.reqmods = some (snapshot .request (h r).aggregateErrors rs) ∧
          resolveListWith s im.resmods = some (snapshot .response (h r).aggregateErrors ss) :=
        fun s => (GroupFields.resolveWith_immutable.mp (himr s)).imp id And.left
      simp only [GroupFields.immutable, Entry.frozen, Bool.and_eq_true] at himf
      by_cases hflag : agg = (h r).aggregateErrors
      · subst hflag
        have hmods : ∀ s, resolveListWith s (im.mods side) =
            some (side.pick (snapshot .request (h r).aggregateErrors rs)
              (snapshot .response (h r).aggregateErrors ss)) := fun s => by
          cases side <;> simp [GroupFields.mods, Side.pick, hfields s]
        refine ⟨im.mods side ++ es', by simp [snapshotWith, him, hes', hagg], ?_, fun s => ?_⟩
        · cases side <;> simp [GroupFields.mods, Side.pick, frozenList_append, himf, hfr]
        · rw [resolveListWith_append (hmods s) (hres s)]
          simp [snapshot, Modifier.toImmutable, Modifier.aggregateErrors, Modifier.mods]
      · refine ⟨im.immutable :: es', by simp [snapshotWith, him, hes', hagg, hflag], ?_, fun s => ?_⟩
        · simp [frozenList, GroupFields.immutable, Entry.frozen, himf, hfr]
        · simp [resolveListWith, himr s, hres s, snapshot, Modifier.toImmutable,
            Modifier.aggregateErrors, hflag]

/-- The heap `ToImmutable` of an acyclic tree of groups without `ImmutableGroup` leaves returns,
holds no pointer to a `*Group` at any depth, and stands, in every heap, for the value-level
snapshot of the tree. -/
theorem toImmutable_resolve (h : Heap L) :
    ∀ (n g : Nat) (c : Modifier L), Group.resolve h n g = some c → c.groupTree = true →
      ∃ im, Group.toImmutable h n g = some im ∧ im.immutable.frozen = true ∧
        ∀ s, im.immutable.resolveWith s = some c.toImmutable
  | 0, _, _, hc, _ => by simp [Group.resolve] at hc
  | n + 1, g, c, hc, ht => by
    obtain ⟨rs, hrs, ss, hss, rfl⟩ := (Group.resolve_succ h n g c).mp hc
    simp only [Modifier.groupTree, Bool.and_eq_true] at ht
    obtain ⟨rs', hrs', hrf, hr⟩ :=
      snapshotWith_resolve (toImmutable_resolve h n) .request (h g).aggregateErrors _ _ hrs ht.1
    obtain ⟨ss', hss', hsf, hs⟩ :=
      snapshotWith_resolve (toImmutable_resolve h n) .response (h g).aggregateErrors _ _ hss ht.2
    refine ⟨⟨rs', ss', (h g).aggregateErrors⟩, by simp [Group.toImmutable, hrs', hss'],
      by simp [GroupFields.immutable, Entry.frozen, hrf, hsf], fun s => ?_⟩
    simp [GroupFields.immutable, Entry.resolveWith, hr s, hs s, Modifier.toImmutable]

/-! ## The isolated normal form -/

/-- `ToImmutable` of an acyclic tree of `*Group`s whose leaves are not `*ImmutableGroup`s
returns an `ImmutableGroup` that holds no `*Group` at any depth. It stands for the tree's lists
with each child group's snapshot inlined exactly when its flag is the parent's and kept as one
entry otherwise; at every depth a nested `ImmutableGroup` has the other flag than its parent.
No later `SetAggregateErrors`, `AddRequestModifier` or `AddResponseModifier`, on any group,
changes what its `ModifyRequest` and `ModifyResponse` do. -/
theorem Group.toImmutable_normalForm (call : L → σ → σ × Option Error) (h : Heap L) (n g : Nat)
    (reqmods resmods : List (Modifier L)) (agg : Bool)
    (hg : Group.resolve h n g = some (.group reqmods resmods agg))
    (ht : (Modifier.group reqmods resmods agg).groupTree = true) :
    ∃ im, Group.toImmutable h n g = some im ∧ im.immutable.frozen = true ∧
      (∀ s, im.immutable.resolveWith s =
        some (.immutable (reqmods.flatMap (Modifier.inlined .request agg))
          (resmods.flatMap (Modifier.inlined .response agg)) agg)) ∧
      normalList agg (reqmods.flatMap (Modifier.inlined .request agg)) = true ∧
      normalList agg (resmods.flatMap (Modifier.inlined .response agg)) = true ∧
      ∀ (ops : List (Mutation L)) (k : Nat) (side : Side) (x : σ),
        im.immutable.modifyAt call (h.run ops) k side x = im.immutable.modifyAt call h k side x := by
  obtain ⟨im, him, hfr, hres⟩ := toImmutable_resolve h n g _ hg ht
  simp only [Modifier.groupTree, Bool.and_eq_true] at ht
  refine ⟨im, him, hfr, fun s => ?_, ?_, ?_, fun ops k side x => ?_⟩
  · simp [hres s, Modifier.toImmutable, snapshot_eq_flatMap]
  · simpa [snapshot_eq_flatMap] using normalList_snapshot .request agg reqmods ht.1
  · simpa [snapshot_eq_flatMap] using normalList_snapshot .response agg resmods ht.2
  · simp only [Entry.modifyAt, resolveWith_frozen (Group.resolve (h.run ops) k)
      (Group.resolve h k) _ hfr]

/-- A group with flag `true` at `0` whose request list holds the group at `1`, of flag `false`,
and the modifier `7`: its snapshot keeps the child as one `ImmutableGroup`. -/
theorem toImmutable_normalForm_nested :
    let h : Heap Nat := fun g => if g = 0 then ⟨[.group 1, .other 7], [], true⟩
      else ⟨[.other 8], [], false⟩
    Group.resolve h 2 0 = some (.group [.group [.other 8] [] false, .other 7] [] true) ∧
      (Modifier.group [.group [.other 8] [] false, .other 7] [] true).groupTree = true ∧
      ∃ im, Group.toImmutable h 2 0 = some im ∧ im.immutable.frozen = true ∧
        (∀ s, im.immutable.resolveWith s =
          some (.immutable ([Modifier.group [.other 8] [] false, .other 7].flatMap
              (Modifier.inlined .request true))
            (([] : List (Modifier Nat)).flatMap (Modifier.inlined .response true)) true)) ∧
        normalList true ([Modifier.group [.other 8] [] false, .other 7].flatMap
          (Modifier.inlined .request true)) = true ∧
        normalList true (([] : List (Modifier Nat)).flatMap (Modifier.inlined .response true)) = true ∧
        ∀ (ops : List (Mutation Nat)) (k : Nat) (side : Side) (x : Nat),
          im.immutable.modifyAt (fun l x => (x + l, none)) (h.run ops) k side x =
            im.immutable.modifyAt (fun l x => (x + l, none)) h k side x :=
  ⟨rfl, rfl, Group.toImmutable_normalForm (fun l x => (x + l, none)) _ 2 0 _ _ _ rfl rfl⟩

/-! ## When `ToImmutable` returns -/

/-- The `*Group` at `r` is an entry of a list of the `*Group` at `g`, so that `g.ToImmutable()`
calls `r.ToImmutable()`. -/
def Group.Nested (h : Heap L) (r g : Nat) : Prop :=
  Entry.group r ∈ (h g).reqmods ∨ Entry.group r ∈ (h g).resmods

/-- A loop of `ToImmutable` that returns has had every nested group's snapshot return. -/
theorem snapshotWith_sub {sub : Nat → Option (GroupFields L)} {side : Side} {agg : Bool}
    {es es' : List (Entry L)} (hs : snapshotWith sub side agg es = some es') {r : Nat}
    (hr : Entry.group r ∈ es) : ∃ im, sub r = some im := by
  induction es generalizing es' with
  | nil => simp at hr
  | cons e es ih =>
    cases e with
    | group r' =>
      simp only [snapshotWith, Option.bind_eq_some, Option.map_eq_some'] at hs
      obtain ⟨im, him, rest, hrest, -⟩ := hs
      rcases List.mem_cons.mp hr with hr | hr
      · cases hr
        exact ⟨im, him⟩
      · exact ih hrest hr
    | other m =>
      simp only [snapshotWith, Option.map_eq_some'] at hs
      obtain ⟨rest, hrest, -⟩ := hs
      exact ih hrest (by simpa using hr)
    | immutable rs ss a =>
      simp only [snapshotWith, Option.map_eq_some'] at hs
      obtain ⟨rest, hrest, -⟩ := hs
      exact ih hrest (by simpa using hr)

/-- A loop of `ToImmutable` returns the same list when every nested snapshot that returned
still returns the same. -/
theorem snapshotWith_mono {sub sub' : Nat → Option (GroupFields L)}
    (hsub : ∀ r im, sub r = some im → sub' r = some im) (side : Side) (agg : Bool)
    {es es' : List (Entry L)} (hs : snapshotWith sub side agg es = some es') :
    snapshotWith sub' side agg es = some es' := by
  induction es generalizing es' with
  | nil => exact hs
  | cons e es ih =>
    cases e with
    | group r =>
      simp only [snapshotWith, Option.bind_eq_some, Option.map_eq_some'] at hs ⊢
      obtain ⟨im, him, rest, hrest, rfl⟩ := hs
      exact ⟨im, hsub r im him, rest, ih hrest, rfl⟩
    | other m =>
      simp only [snapshotWith, Option.map_eq_some'] at hs ⊢
      obtain ⟨rest, hrest, rfl⟩ := hs
      exact ⟨rest, ih hrest, rfl⟩
    | immutable rs ss a =>
      simp only [snapshotWith, Option.map_eq_some'] at hs ⊢
      obtain ⟨rest, hrest, rfl⟩ := hs
      exact ⟨rest, ih hrest, rfl⟩

/-- Once `ToImmutable` returns within a depth, it returns the same with any larger one. -/
theorem Group.toImmutable_mono {h : Heap L} {n m g : Nat} {im : GroupFields L}
    (hn : Group.toImmutable h n g = some im) (hm : n ≤ m) : Group.toImmutable h m g = some im := by
  induction n generalizing m g im with
  | zero => simp [Group.toImmutable] at hn
  | succ n ih =>
    obtain ⟨m, rfl⟩ : ∃ k, m = k + 1 := ⟨m - 1, by omega⟩
    have hsub : ∀ r im, Group.toImmutable h n r = some im → Group.toImmutable h m r = some im :=
      fun r im hr => ih hr (by omega)
    simp only [Group.toImmutable, Option.bind_eq_some, Option.map_eq_some'] at hn ⊢
    obtain ⟨rs, hrs, ss, hss, rfl⟩ := hn
    exact ⟨rs, snapshotWith_mono hsub _ _ hrs, ss, snapshotWith_mono hsub _ _ hss, rfl⟩

/-- A loop of `ToImmutable` returns once every nested group's snapshot does, from some depth
on. -/
theorem snapshotWith_some {h : Heap L} (side : Side) (agg : Bool) (es : List (Entry L))
    (hes : ∀ r, Entry.group r ∈ es → ∃ n im, Group.toImmutable h n r = some im) :
    ∃ N, ∀ M, N ≤ M → ∃ es', snapshotWith (Group.toImmutable h M) side agg es = some es' := by
  induction es with
  | nil => exact ⟨0, fun _ _ => ⟨[], rfl⟩⟩
  | cons e es ih =>
    obtain ⟨N, hN⟩ := ih fun r hr => hes r (List.mem_cons_of_mem _ hr)
    cases e with
    | group r =>
      obtain ⟨n, im, him⟩ := hes r (List.mem_cons_self _ _)
      refine ⟨max n N, fun M hM => ?_⟩
      obtain ⟨rest, hrest⟩ := hN M (by omega)
      simp [snapshotWith, Group.toImmutable_mono him ((le_max_left _ _).trans hM), hrest]
    | other m =>
      refine ⟨N, fun M hM => ?_⟩
      obtain ⟨rest, hrest⟩ := hN M hM
      simp [snapshotWith, hrest]
    | immutable rs ss a =>
      refine ⟨N, fun M hM => ?_⟩
      obtain ⟨rest, hrest⟩ := hN M hM
      simp [snapshotWith, hrest]

/-- A `ToImmutable` that returns starts no endless chain of nested groups. -/
theorem Group.acc_of_toImmutable {h : Heap L} {n g : Nat} {im : GroupFields L}
    (him : Group.toImmutable h n g = some im) : Acc (Group.Nested h) g := by
  induction n generalizing g im with
  | zero => simp [Group.toImmutable] at him
  | succ n ih =>
    simp only [Group.toImmutable, Option.bind_eq_some, Option.map_eq_some'] at him
    obtain ⟨rs, hrs, ss, hss, -⟩ := him
    refine ⟨g, fun r hr => ?_⟩
    obtain ⟨im', him'⟩ := hr.elim (snapshotWith_sub hrs) (snapshotWith_sub hss)
    exact ih him'

/-- Without an endless chain of nested groups, `ToImmutable` returns within some depth. -/
theorem Group.toImmutable_of_acc {h : Heap L} {g : Nat} (hacc : Acc (Group.Nested h) g) :
    ∃ n im, Group.toImmutable h n g = some im := by
  induction hacc with
  | intro g _ ih =>
    obtain ⟨N₁, h₁⟩ := snapshotWith_some .request (h g).aggregateErrors (h g).reqmods
      fun r hr => ih r (.inl hr)
    obtain ⟨N₂, h₂⟩ := snapshotWith_some .response (h g).aggregateErrors (h g).resmods
      fun r hr => ih r (.inr hr)
    obtain ⟨rs, hrs⟩ := h₁ (max N₁ N₂) (le_max_left _ _)
    obtain ⟨ss, hss⟩ := h₂ (max N₁ N₂) (le_max_right _ _)
    exact ⟨max N₁ N₂ + 1, ⟨rs, ss, (h g).aggregateErrors⟩, by simp [Group.toImmutable, hrs, hss]⟩

/-- A group nested in itself starts an endless chain. -/
theorem Group.not_acc_of_cycle {h : Heap L} {g : Nat}
    (hc : Relation.TransGen (Group.Nested h) g g) : ¬Acc (Group.Nested h) g := by
  have hirrefl : ∀ x, Acc (Relation.TransGen (Group.Nested h)) x →
      ¬Relation.TransGen (Group.Nested h) x x := by
    intro x hx
    induction hx with
    | intro x _ ih => exact fun hxx => ih x hxx hxx
  exact fun hacc => hirrefl g hacc.transGen hc

/-- `ToImmutable` of the `*Group` at `g` returns exactly when no endless chain of nested
`*Group`s starts at `g`, and never when `g` is nested in itself, directly or through other
groups. -/
theorem Group.toImmutable_returns (h : Heap L) (g : Nat) :
    ((∃ n im, Group.toImmutable h n g = some im) ↔ Acc (Group.Nested h) g) ∧
      (Relation.TransGen (Group.Nested h) g g → ∀ n, Group.toImmutable h n g = none) := by
  refine ⟨⟨fun ⟨_, _, him⟩ => Group.acc_of_toImmutable him, Group.toImmutable_of_acc⟩,
    fun hc n => ?_⟩
  cases hn : Group.toImmutable h n g with
  | none => rfl
  | some im => exact absurd (Group.acc_of_toImmutable hn) (Group.not_acc_of_cycle hc)

example : Group.toImmutable (fun _ => ⟨[.group 0], [], false⟩ : Heap Nat) 3 0 = none := rfl

end Fifo
end Martian
