import Martian.Fifo.Group

/-!
# Immutable snapshots of groups

`Group.ToImmutable` copies both lists of a group into an `ImmutableGroup`. A nested `*Group`
is snapshotted in turn; when its `aggregateErrors` equals the parent's, its list is inlined
into the parent's, otherwise the snapshot stays one nested entry. Modifiers of any other kind,
`*ImmutableGroup`s among them, are copied as they are.

The main result, `toImmutable_modify`, says that the snapshot runs exactly as the group does:
the same modifiers on the same messages, in the same order, and the same error. It rests on one
fact about the loop, `loop_append`: a list spliced into a parent's list runs as a group with
the parent's setting standing in its place would.
-/

namespace Martian
namespace Fifo

variable {L σ : Type}

/-- The list of a group that `side` runs; other modifiers have none. -/
def Modifier.mods (side : Side) : Modifier L → List (Modifier L)
  | .group reqmods resmods _ | .immutable reqmods resmods _ => side.pick reqmods resmods
  | .other _ => []

/-- The `aggregateErrors` field of a group. -/
def Modifier.aggregateErrors : Modifier L → Bool
  | .group _ _ agg | .immutable _ _ agg => agg
  | .other _ => false

mutual
/-- `g.ToImmutable()` for a `*Group`; modifiers of other kinds are not snapshotted. -/
def Modifier.toImmutable : Modifier L → Modifier L
  | .group reqmods resmods agg =>
    .immutable (snapshot .request agg reqmods) (snapshot .response agg resmods) agg
  | m => m
termination_by structural m => m
/-- One loop of `ToImmutable` over the list `side` runs, under the parent's flag `agg`. -/
def snapshot (side : Side) (agg : Bool) : List (Modifier L) → List (Modifier L)
  | [] => []
  | m :: ms =>
    match m with
    | .group _ _ _ =>
      let im := m.toImmutable
      (if agg == im.aggregateErrors then im.mods side else [im]) ++ snapshot side agg ms
    | _ => m :: snapshot side agg ms
termination_by structural ms => ms
end

/-- An `ImmutableGroup` of three levels whose middle level is inlined. -/
example : (Modifier.group [.group [.other 1, .group [.other 2] [] false] [] true, .other 3] [] true
    ).toImmutable = .immutable [.other 1, .immutable [.other 2] [] false, .other 3] [] true := rfl

variable (call : L → σ → σ × Option Error)

theorem runAll_append (side : Side) (xs ys : List (Modifier L)) (x : σ) :
    runAll call side (xs ++ ys) x =
      ⟨(runAll call side xs x).calls ++ (runAll call side ys (runAll call side xs x).msg).calls,
        (runAll call side ys (runAll call side xs x).msg).msg,
        (runAll call side xs x).errs ++
          (runAll call side ys (runAll call side xs x).msg).errs⟩ := by
  induction xs generalizing x with
  | nil => rfl
  | cons m ms ih => simp [runAll_cons, ih]

/-- Two loops that agree on their first modifier and on the rest agree. -/
theorem loop_cons_congr {side : Side} {agg : Bool} {c c' : Modifier L} {ys ys' : List (Modifier L)}
    (hc : ∀ x, c.modify call side x = c'.modify call side x)
    (hys : ∀ x merr, loop call side agg ys x merr = loop call side agg ys' x merr)
    (x : σ) (merr : Option MultiError) :
    loop call side agg (c :: ys) x merr = loop call side agg (c' :: ys') x merr := by
  simp only [loop, hc, hys]

/-- Without `aggregateErrors`, a loop over `xs ++ ys` goes on with `ys` only when `xs` returned
no error. -/
theorem loop_append_of_first (side : Side) (xs ys : List (Modifier L)) (x : σ)
    (merr : Option MultiError) :
    loop call side false (xs ++ ys) x merr =
      match (loop call side false xs x none).err with
      | none => (loop call side false ys (loop call side false xs x none).msg merr).after
          (loop call side false xs x none).calls
      | some _ => loop call side false xs x none := by
  induction xs generalizing x with
  | nil => simp
  | cons z zs ih =>
    cases hz : (z.modify call side x).err with
    | none => simp only [List.cons_append, loop_cons_ok call hz, ih]; split <;> simp [*]
    | some e => simp [loop_cons_err call hz]

/-- Without `aggregateErrors`, a spliced list runs as a group standing in its place. -/
theorem loop_append_first {side : Side} {c : Modifier L} {xs : List (Modifier L)}
    (hc : ∀ x, c.modify call side x = loop call side false xs x none)
    (ys : List (Modifier L)) (x : σ) (merr : Option MultiError) :
    loop call side false (xs ++ ys) x merr = loop call side false (c :: ys) x merr := by
  rw [loop_append_of_first, ← hc]
  cases hr : (c.modify call side x).err with
  | none => simp [loop_cons_ok call hr]
  | some e => simp only [loop_cons_err call hr, hr]; rw [← hr]; rfl

/-- With `aggregateErrors`, a spliced list runs as a group standing in its place. -/
theorem loop_append_aggregate {side : Side} {c : Modifier L} {xs : List (Modifier L)}
    (hc : ∀ x, c.modify call side x = loop call side true xs x none)
    (ys : List (Modifier L)) (x : σ) (merr : Option MultiError) :
    loop call side true (xs ++ ys) x merr = loop call side true (c :: ys) x merr := by
  have hcx := hc x
  simp only [loop_aggregate, Option.getD_none, MultiError.new_errs, List.nil_append] at hcx
  rw [loop_aggregate, runAll_append]
  by_cases hA : (runAll call side xs x).errs.flatMap Error.members = []
  · have hr : (c.modify call side x).err = none := by simp [hcx, result_some, hA]
    simp [loop_cons_ok call hr, loop_aggregate, hcx, hA]
  · have hr : (c.modify call side x).err =
        some (.multi ((runAll call side xs x).errs.flatMap Error.members)) := by
      simp [hcx, result_some, hA]
    simp [loop_cons_err call hr, loop_aggregate, hcx]

/-- A list spliced into a parent's loop runs as a group with the parent's setting standing in
its place. -/
theorem loop_append {side : Side} {agg : Bool} {c : Modifier L} {xs : List (Modifier L)}
    (hc : ∀ x, c.modify call side x = loop call side agg xs x none)
    (ys : List (Modifier L)) (x : σ) (merr : Option MultiError) :
    loop call side agg (xs ++ ys) x merr = loop call side agg (c :: ys) x merr := by
  cases agg
  · exact loop_append_first call hc ys x merr
  · exact loop_append_aggregate call hc ys x merr

/-- The snapshot of a group runs exactly as the group: the same modifiers on the same
messages, in the same order, leaving the same message and returning the same error. -/
theorem Modifier.toImmutable_modify (side : Side) (reqmods resmods : List (Modifier L))
    (agg : Bool) (x : σ) :
    ((Modifier.group reqmods resmods agg).toImmutable).modify call side x =
      (Modifier.group reqmods resmods agg).modify call side x := by
  revert side x
  refine Modifier.toImmutable.induct
    (motive_1 := fun m => ∀ side x, m.toImmutable.modify call side x = m.modify call side x)
    (motive_2 := fun side agg ms => ∀ x merr,
      loop call side agg (snapshot side agg ms) x merr = loop call side agg ms x merr)
    ?group ?other ?nil ?consGroup ?consOther _
  case group =>
    intro reqmods resmods agg hreq hres side x
    cases side
    · exact hreq x none
    · exact hres x none
  case other =>
    intro m hm side x
    cases m with
    | group reqmods resmods agg => exact absurd rfl (hm reqmods resmods agg)
    | _ => rfl
  case nil => intro side agg x merr; rfl
  case consGroup =>
    intro side agg ms reqmods resmods a hm hms x merr
    simp only [snapshot]
    split
    · rename_i heq
      have ha : agg = a := by simpa [Modifier.toImmutable, Modifier.aggregateErrors] using heq
      subst ha
      rw [loop_append call (c := (Modifier.group reqmods resmods agg).toImmutable)
          (fun y => by simp [Modifier.toImmutable, Modifier.modify_immutable, Modifier.mods])]
      exact loop_cons_congr call (hm side) hms x merr
    · exact loop_cons_congr call (hm side) hms x merr
  case consOther =>
    intro side agg ms m hm hms x merr
    cases m with
    | group reqmods resmods a => exact absurd rfl (hm reqmods resmods a)
    | _ => exact loop_cons_congr call (fun _ => rfl) hms x merr

/-! ## The normal form of a snapshot -/

/-- What one entry of a list contributes to its snapshot under the parent's flag `agg`: a
`*Group`'s snapshot, its list inlined when its flag is `agg` and kept as one entry otherwise;
any other modifier as it is. -/
def Modifier.inlined (side : Side) (agg : Bool) (m : Modifier L) : List (Modifier L) :=
  match m with
  | .group _ _ _ =>
    if agg == m.toImmutable.aggregateErrors then m.toImmutable.mods side else [m.toImmutable]
  | _ => [m]

/-- The loop of `ToImmutable` takes the entries one by one. -/
theorem snapshot_eq_flatMap (side : Side) (agg : Bool) (ms : List (Modifier L)) :
    snapshot side agg ms = ms.flatMap (Modifier.inlined side agg) := by
  induction ms with
  | nil => simp [snapshot]
  | cons m ms ih => cases m <;> simp [snapshot, Modifier.inlined, ih]

mutual
/-- Whether `m` is a tree of `*Group`s whose leaves are not `*ImmutableGroup`s. -/
def Modifier.groupTree : Modifier L → Bool
  | .other _ => true
  | .group reqmods resmods _ => groupTreeList reqmods && groupTreeList resmods
  | .immutable _ _ _ => false
/-- Whether every modifier of the list is a tree of `*Group`s without `*ImmutableGroup`s. -/
def groupTreeList : List (Modifier L) → Bool
  | [] => true
  | m :: ms => m.groupTree && groupTreeList ms
end

mutual
/-- Whether `m`, an entry of an `ImmutableGroup` whose flag is `agg`, is in normal form: no
`*Group`, and an `ImmutableGroup` only with the other flag and entries in normal form under
its own. -/
def Modifier.normal (agg : Bool) : Modifier L → Bool
  | .other _ => true
  | .group _ _ _ => false
  | .immutable reqmods resmods a => a != agg && normalList a reqmods && normalList a resmods
/-- Whether every entry of the list is in normal form under the flag `agg`. -/
def normalList (agg : Bool) : List (Modifier L) → Bool
  | [] => true
  | m :: ms => m.normal agg && normalList agg ms
end

@[simp] theorem normalList_append (agg : Bool) (xs ys : List (Modifier L)) :
    normalList agg (xs ++ ys) = (normalList agg xs && normalList agg ys) := by
  induction xs with
  | nil => simp [normalList]
  | cons x xs ih => simp [normalList, ih, Bool.and_assoc]

/-- The snapshot of a tree of `*Group`s without `*ImmutableGroup`s is in normal form: at every
depth no entry is a `*Group`, and a nested `ImmutableGroup` has the other flag than the one it
sits in. -/
theorem normalList_snapshot (side : Side) (agg : Bool) (ms : List (Modifier L))
    (h : groupTreeList ms = true) : normalList agg (snapshot side agg ms) = true := by
  revert h
  refine snapshot.induct
    (motive_1 := fun m => m.groupTree = true →
      ∀ side, normalList m.aggregateErrors (m.toImmutable.mods side) = true)
    (motive_2 := fun side agg ms => groupTreeList ms = true →
      normalList agg (snapshot side agg ms) = true)
    ?group ?other ?nil ?consGroup ?consOther side agg ms
  case group =>
    intro reqmods resmods agg hreq hres ht side
    simp only [Modifier.groupTree, Bool.and_eq_true] at ht
    cases side
    · exact hreq ht.1
    · exact hres ht.2
  case other =>
    intro m hm ht side
    cases m with
    | group reqmods resmods agg => exact absurd rfl (hm reqmods resmods agg)
    | other _ => rfl
    | immutable _ _ _ => simp [Modifier.groupTree] at ht
  case nil => intro _ _ _; rfl
  case consGroup =>
    intro side agg ms reqmods resmods a hm hms ht
    simp only [groupTreeList, Bool.and_eq_true] at ht
    have hn := hm ht.1
    simp only [Modifier.aggregateErrors, Modifier.toImmutable, Modifier.mods] at hn
    simp only [snapshot, Modifier.toImmutable, Modifier.aggregateErrors, normalList_append,
      hms ht.2, Bool.and_true]
    split
    · rename_i heq
      rw [beq_iff_eq.mp heq]
      exact hn side
    · rename_i hne
      simpa [normalList, Modifier.normal, Ne.symm (by simpa using hne)] using
        And.intro (hn .request) (hn .response)
  case consOther =>
    intro side agg ms m hm hms ht
    simp only [groupTreeList, Bool.and_eq_true] at ht
    cases m with
    | group reqmods resmods a => exact absurd rfl (hm reqmods resmods a)
    | other l => simp [snapshot, normalList, Modifier.normal, hms ht.2]
    | immutable _ _ _ => simp [Modifier.groupTree] at ht

end Fifo
end Martian
