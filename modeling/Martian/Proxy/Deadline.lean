import Martian.Proxy.Invariant

/-!
# Fresh write deadlines for ordinary replies

When `WriteTimeout > 0`, `handle` sets the write deadline `now + WriteTimeout` before it writes
its reply to an ordinary request. `WriteClock` follows the deadline along the trace: reading a
request leaves in force the deadline inherited from before, `SetWriteDeadline` makes the deadline
current, and an ordinary reply written under an inherited deadline, or under another deadline
than the current one, makes the clock stale.

* `inForce_invariant`: with `WriteTimeout > 0`, every effect of the engine keeps the clock from
  going stale and the current deadline in force;
* `handleLoop_ordinary_deadline`: in every run of `handleLoop`, an ordinary reply is written under
  the deadline set after its request was read, and the last one set.

The other writes (the reply to a `CONNECT`, the MITM `200`, the head of a tunnel and the tunnel's
copies) are not covered: they run under whatever deadline is in force.
-/

namespace Martian

open Eng

/-- Where the write deadline stands for the request being answered. -/
inductive WriteClock where
  /-- No deadline set since the last request was read. -/
  | inherited
  /-- The deadline `d` set since the last request was read. -/
  | current (d : Int)
  /-- An ordinary reply was written under a deadline not set for its request. -/
  | stale
  deriving DecidableEq, Repr

/-- Whether an ordinary reply written under `d` is under the current deadline. -/
def WriteClock.admits : WriteClock → Option Int → Bool
  | .current t, some d => t = d
  | _, _ => false

/-- One move of the clock. -/
def WriteClock.step : WriteClock → Event → WriteClock
  | .stale, _ => .stale
  | _, .readRequest .. => .inherited
  | _, .setWriteDeadline _ d => d.elim .inherited .current
  | x, .writeResponse _ kind _ d _ => if kind = .ordinary ∧ !x.admits d then .stale else x
  | x, _ => x

/-- The clock after a trace. -/
def writeClock (tr : List Event) : WriteClock := tr.foldl WriteClock.step .inherited

@[simp] theorem writeClock_append (tr es : List Event) :
    writeClock (tr ++ es) = es.foldl WriteClock.step (writeClock tr) :=
  List.foldl_append ..

/-- The events that move the clock: reading a request and setting the write deadline. -/
def Event.movesClock : Event → Bool
  | .readRequest .. | .setWriteDeadline .. => true
  | _ => false

namespace WriteClock

@[simp] theorem step_stale (e : Event) : step .stale e = .stale := by
  cases e <;> rfl

theorem foldl_step_stale (es : List Event) : es.foldl step .stale = .stale := by
  induction es with
  | nil => rfl
  | cons e es ih => simpa using ih

theorem step_bare {x : WriteClock} {e : Event} (he : e.isBare) : x.step e = x := by
  cases x <;> cases e <;> first | rfl | simp [Event.isBare] at he

/-- An event of a read leaves a clock that is not stale where it was, or makes it inherited. -/
theorem step_read {x : WriteClock} {e : Event} (he : e.isRead) (hx : x ≠ .stale) :
    x.step e = x ∨ x.step e = .inherited := by
  cases x <;> cases e <;> simp_all [step, Event.isRead]

/-- A write other than an ordinary reply leaves the clock alone. -/
theorem step_writeResponse {x : WriteClock} {kind : Reply} (hk : kind ≠ .ordinary) (c : Conn)
    (res : Response) (d : Option Int) (err : Option Error) :
    x.step (.writeResponse c kind res d err) = x := by
  cases x <;> simp [step, hk]

theorem step_setWriteDeadline {x : WriteClock} (hx : x ≠ .stale) (c : Conn) (t : Int) :
    x.step (.setWriteDeadline c (some t)) = .current t := by
  cases x <;> simp_all [step]

/-- An ordinary reply leaves the clock not stale only under the current deadline. -/
theorem current_of_ordinary {x : WriteClock} {c : Conn} {res : Response} {d : Option Int}
    {err : Option Error} (h : x.step (.writeResponse c .ordinary res d err) ≠ .stale) :
    ∃ t, x = .current t ∧ d = some t := by
  cases x <;> cases d <;> simp_all [step, admits]

/-- How a clock becomes current: the deadline is set, or it was current and the event does not
move it. -/
theorem step_eq_current {x : WriteClock} {e : Event} {t : Int} (h : x.step e = .current t) :
    (∃ c, e = .setWriteDeadline c (some t)) ∨ (x = .current t ∧ e.movesClock = false) := by
  cases x <;> cases e <;> simp only [step, Event.movesClock] at h ⊢ <;>
    first | (split at h <;> simp_all) | (cases ‹Option Int› <;> simp_all) | simp_all

end WriteClock

/-! ## The invariant -/

/-- The clock is not stale, and a current deadline is the one in force. -/
def InForce (s : St) : Prop :=
  writeClock s.trace ≠ .stale ∧ ∀ d, writeClock s.trace = .current d → s.writeDeadline = some d

variable {p : Proxy} {w : World}

/-- Recording an event that keeps the clock where it was keeps it in force. -/
theorem InForce.record {s : St} (hs : InForce s) (e : Event)
    (he : (writeClock s.trace).step e = writeClock s.trace) :
    InForce { s with trace := s.trace ++ [e] } := by
  simpa [InForce, he] using hs

/-- With `WriteTimeout > 0`, every effect of the engine keeps the deadline in force: the one
effect that writes an ordinary reply, `writeReply`, sets the deadline first. -/
theorem inForce_invariant (hw : 0 < p.writeTimeout) : Invariant p w InForce where
  tick _ _ hs := hs
  record e he _ hs := hs.record e (WriteClock.step_bare he)
  recordRead e he s hs := by
    rcases WriteClock.step_read he hs.1 with h | h
    · exact hs.record e h
    · simp [InForce, h]
  hijack s hs := by simpa [wp_bind] using hs.record .hijack (by cases writeClock s.trace <;> rfl)
  markSecure _ hs := hs
  resetReader r s hs := by
    simpa [wp_bind] using hs.record (.resetReader r) (by cases writeClock s.trace <;> rfl)
  resetWriter c s hs := by
    simpa [wp_bind] using hs.record (.resetWriter c) (by cases writeClock s.trace <;> rfl)
  writeResponse kind res hk s hs := by
    simpa [World.writeResponse, wp_bind] using
      hs.record _ (WriteClock.step_writeResponse hk s.writer res s.writeDeadline _)
  flush s hs := by
    simpa [World.flush, wp_bind] using hs.record (.flush s.writer s.writeDeadline _)
      (by cases writeClock s.trace <;> rfl)
  writeReply conn res closing s hs := by
    simp only [Proxy.writeReply, Proxy.refreshWriteDeadline, hw, if_true, World.writeResponse,
      World.flush, deadline, wp_bind, World.wp_ask, cont_some, wp_setWriteDeadline, wp_get,
      wp_emit, wp_pure, InForce, writeClock_append, List.foldl_cons, List.foldl_nil,
      WriteClock.step_setWriteDeadline hs.1]
    simp [WriteClock.step, WriteClock.admits]
  close c s hs := hs.record (.close c) (by cases writeClock s.trace <;> rfl)
  start _ _ hs := hs

/-- With `WriteTimeout > 0`, no run of `handleLoop` writes an ordinary reply under a stale
deadline. -/
theorem handleLoop_inForce (p : Proxy) (w : World) (hw : 0 < p.writeTimeout) (conn : Conn)
    (fuel : Nat) :
    InForce (p.handleLoop w conn fuel St.init).2 :=
  (inForce_invariant hw).handleLoop conn fuel St.init ⟨nofun, nofun⟩

/-! ## What the clock says about a trace -/

/-- A current deadline was set, and nothing has moved the clock since. -/
theorem writeClock_current {tr : List Event} {t : Int} (h : writeClock tr = .current t) :
    ∃ pre c mid, tr = pre ++ .setWriteDeadline c (some t) :: mid ∧
      ∀ e ∈ mid, e.movesClock = false := by
  induction tr using List.reverseRecOn with
  | nil => exact absurd h nofun
  | append_singleton tr e ih =>
    rw [writeClock_append, List.foldl_cons, List.foldl_nil] at h
    rcases WriteClock.step_eq_current h with ⟨c, rfl⟩ | ⟨hx, he⟩
    · exact ⟨tr, c, [], by simp, by simp⟩
    · obtain ⟨pre, c, mid, rfl, hmid⟩ := ih hx
      exact ⟨pre, c, mid ++ [e], by simp, by simpa [or_imp, forall_and] using ⟨hmid, he⟩⟩

/-- With `WriteTimeout > 0`, every ordinary reply in a run of `handleLoop` is written under the
deadline last set, after its request was read. -/
theorem handleLoop_ordinary_deadline (p : Proxy) (w : World) (hw : 0 < p.writeTimeout)
    (conn : Conn) (fuel : Nat)
    {pre post : List Event} {c : Conn} {res : Response} {d : Option Int} {err : Option Error}
    (h : (p.handleLoop w conn fuel St.init).2.trace =
      pre ++ .writeResponse c .ordinary res d err :: post) :
    ∃ pre₁ c' t mid, pre = pre₁ ++ .setWriteDeadline c' (some t) :: mid ∧ d = some t ∧
      ∀ e ∈ mid, e.movesClock = false := by
  have hne : (writeClock pre).step (.writeResponse c .ordinary res d err) ≠ .stale := fun hs =>
    (handleLoop_inForce p w hw conn fuel).1 <| by
      rw [h, writeClock_append, List.foldl_cons, hs, WriteClock.foldl_step_stale]
  obtain ⟨t, hx, rfl⟩ := WriteClock.current_of_ordinary hne
  obtain ⟨pre₁, c', mid, rfl, hmid⟩ := writeClock_current hx
  exact ⟨pre₁, c', t, mid, rfl, rfl, hmid⟩

set_option smartUnfolding false in
theorem handleLoop_ordinary_deadline_getThenConnect :
    0 < ({ Proxy.plain with writeTimeout := 10 } : Proxy).writeTimeout ∧
      ({ Proxy.plain with writeTimeout := 10 }.handleLoop World.getThenConnect .socket 4
        St.init).2.trace =
        [.setReadDeadline .socket none, .readRequest (.conn .socket) 1 (.parsed .get),
          .setWriteDeadline .socket (some 18)] ++
        .writeResponse .socket .ordinary ⟨200, false, "", false, []⟩ (some 18) none ::
        [.flush .socket (some 18) none, .closeBody,
          .setReadDeadline .socket none, .readRequest (.conn .socket) 11 (.parsed .connect),
          .writeResponse .socket .head ⟨200, false, "", false, []⟩ (some 18) none,
          .flush .socket (some 18) none, .drain (.conn .socket), .splice .socket (some 18),
          .closeBody, .close .socket] ∧
      ∃ pre₁ c' t mid, [Event.setReadDeadline .socket none,
          .readRequest (.conn .socket) 1 (.parsed .get), .setWriteDeadline .socket (some 18)] =
        pre₁ ++ .setWriteDeadline c' (some t) :: mid ∧ some 18 = some t ∧
        ∀ e ∈ mid, e.movesClock = false :=
  (fun h => ⟨by decide, h, handleLoop_ordinary_deadline _ _ (by decide) .socket 4 h⟩) rfl

end Martian
