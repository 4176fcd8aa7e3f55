import Martian.Proxy.Handle
import Mathlib.Algebra.Order.Ring.Nat
import Mathlib.Algebra.Group.Int

/-!
# Serving and shutting down

`Serve`, `Close` and `Closing` of `proxy.go`, and the start of `handleLoop`, as goroutines over
the state the proxy shares between them: the `closing` channel, `connsMu`, and the `conns` wait
group.

`Serve` accepts connections and starts a `handleLoop` goroutine for each. After a temporary
accept error it sleeps for a delay that starts at `5ms`, doubles and stops at `time.Second`; a
successful accept sets it back to `0`. `serveLoop` is the loop over what the listener returns
while `Closing()` is false, and `serve_backoff` gives every sleep in closed form.

A `handleLoop` goroutine registers in `conns` under `connsMu`, returns at once when the proxy is
closing, and otherwise serves its connection; `handleLoop_closing` shows that the engine of
`Martian.Proxy.Handle` then reads no request. `Close` closes the `closing` channel and waits,
holding `connsMu`, until `conns` is zero. The goroutines interleave one statement at a time in
`Sys.step`.

A handler's request loop is one step, `finish`, that the model lets it take at any time. In the
code the loop ends when the client hangs up, a read times out, `handle` returns a closeable
error or the fifth error in a row, or the session is hijacked. So `Close`, which waits for the
registered handlers' loops to end, makes progress only as the clients or the read timeouts end
them: that is the sense in which `Sys.close_completes` says `Close` can always finish.

Durations are `time.Duration` nanoseconds, an `int64` whose arithmetic wraps (`int64`). The
listener, the keep-alive settings and the log lines are not modelled.
-/

namespace Martian
namespace Proxy

/-! ## The accept loop -/

/-- `time.Millisecond`, in nanoseconds. -/
def millisecond : Int := 1000000

/-- `time.Second`, in nanoseconds. -/
def second : Int := 1000000000

/-- Go's `int64` arithmetic: `x` wrapped into `[-2^63, 2^63)`. -/
def int64 (x : Int) : Int :=
  (x + 9223372036854775808) % 18446744073709551616 - 9223372036854775808

/-- What `l.Accept()` returns. -/
inductive AcceptResult where
  /-- A connection. -/
  | conn
  /-- An error, `temporary` when it is a `net.Error` whose `Temporary()` is true. -/
  | error (err : Error) (temporary : Bool)
  deriving Repr

/-- What `Serve` does after `l.Accept()`. -/
inductive Accepted where
  /-- `go p.handleLoop(conn)`. -/
  | handle
  /-- `time.Sleep(delay)`. -/
  | sleep (delay : Int)
  /-- `return err`. -/
  | fail (err : Error)
  deriving Repr

/-- The new `delay` after a temporary accept error: `5ms` after `0`, otherwise twice the old one
(`delay *= 2`), and at most `time.Second`. -/
def backoff (delay : Int) : Int :=
  let delay := if delay = 0 then 5 * millisecond else int64 (delay * 2)
  if delay > second then second else delay

/-- The body of `Serve`'s loop after `l.Accept()` returned `r`, from `delay`: what it does, and
the `delay` after. -/
def serveAccept (delay : Int) : AcceptResult → Accepted × Int
  | .conn => (.handle, 0)
  | .error _ true => (.sleep (backoff delay), backoff delay)
  | .error err false => (.fail err, delay)

/-- `Serve`'s loop over what the listener returns, from `delay`, while `p.Closing()` is false:
what it does after each accept, up to the `return`. -/
def serveLoop (delay : Int) : List AcceptResult → List Accepted
  | [] => []
  | r :: rs =>
    match serveAccept delay r with
    | (.fail err, _) => [.fail err]
    | (a, d) => a :: serveLoop d rs

/-- The `delay` of `Serve` after the accepts `rs`. -/
def delayAfter (delay : Int) (rs : List AcceptResult) : Int :=
  rs.foldl (fun d r => (serveAccept d r).2) delay

/-- The back-off as the spec states it, with `k` the temporary errors since the last successful
accept: the sleep after the next one is `min (5ms·2^k) 1s`. -/
def serveSpec (k : Nat) : List AcceptResult → List Accepted
  | [] => []
  | .conn :: rs => .handle :: serveSpec 0 rs
  | .error _ true :: rs => .sleep (min (5 * millisecond * 2 ^ k) second) :: serveSpec (k + 1) rs
  | .error err false :: _ => [.fail err]

/-- The `delay` after `k` temporary errors since the last successful accept. -/
def delayOf (k : Nat) : Int := if k = 0 then 0 else min (5 * millisecond * 2 ^ (k - 1)) second

@[simp] theorem delayOf_succ (k : Nat) :
    delayOf (k + 1) = min (5 * millisecond * 2 ^ k) second := rfl

/-- Doubling a delay of at most a second does not overflow. -/
theorem int64_double {d : Int} (h0 : 0 ≤ d) (h1 : d ≤ second) : int64 (d * 2) = d * 2 := by
  simp only [int64, second] at *
  omega

theorem delayOf_mem (k : Nat) : 0 ≤ delayOf k ∧ delayOf k ≤ second := by
  unfold delayOf
  split
  · simp [second]
  · have hp : (0 : Int) < 2 ^ (k - 1) := by
      exact_mod_cast Nat.pos_pow_of_pos (k - 1) (show 0 < 2 by decide)
    simp only [millisecond, second]
    omega

theorem backoff_delayOf (k : Nat) : backoff (delayOf k) = delayOf (k + 1) := by
  cases k with
  | zero => decide
  | succ k =>
    have hp : (0 : Int) < 2 ^ k := by exact_mod_cast Nat.pos_pow_of_pos k (show 0 < 2 by decide)
    have hpos : delayOf (k + 1) ≠ 0 := by simp only [delayOf_succ, millisecond, second]; omega
    obtain ⟨h0, h1⟩ := delayOf_mem (k + 1)
    rw [backoff, if_neg hpos, int64_double h0 h1]
    simp only [delayOf_succ, Int.pow_succ, millisecond, second]
    split <;> omega

theorem serveAccept_delayOf (k : Nat) (r : AcceptResult) :
    ∃ k', (serveAccept (delayOf k) r).2 = delayOf k' := by
  rcases r with _ | ⟨_, _ | _⟩
  · exact ⟨0, rfl⟩
  · exact ⟨k, rfl⟩
  · exact ⟨k + 1, backoff_delayOf k⟩

theorem serveLoop_delayOf (k : Nat) (rs : List AcceptResult) :
    serveLoop (delayOf k) rs = serveSpec k rs := by
  induction rs generalizing k with
  | nil => rfl
  | cons r rs ih =>
    rcases r with _ | ⟨err, _ | _⟩
    · simpa [serveLoop, serveSpec, serveAccept] using ih 0
    · rfl
    · show .sleep (backoff (delayOf k)) :: serveLoop (backoff (delayOf k)) rs = _
      rw [backoff_delayOf, ih]
      rfl

/-- The accept back-off of `Serve`: over any results of `l.Accept()`, the sleep after the `k`-th
temporary error since the last successful accept is `min (5ms·2^(k-1)) 1s`, a successful accept
starts the count again, and after any accepts the delay is between `0` and a second, where
`delay *= 2` does not overflow. -/
theorem serve_backoff (rs : List AcceptResult) :
    serveLoop 0 rs = serveSpec 0 rs ∧
      0 ≤ delayAfter 0 rs ∧ delayAfter 0 rs ≤ second ∧
      int64 (delayAfter 0 rs * 2) = delayAfter 0 rs * 2 := by
  have hd : ∀ k, ∃ k', delayAfter (delayOf k) rs = delayOf k' := by
    induction rs with
    | nil => exact fun k => ⟨k, rfl⟩
    | cons r rs ih =>
      intro k
      obtain ⟨k', hk'⟩ := serveAccept_delayOf k r
      simpa [delayAfter, List.foldl_cons, hk'] using ih k'
  obtain ⟨k, hk⟩ := hd 0
  have hm := delayOf_mem k
  rw [show (0 : Int) = delayOf 0 from rfl, hk]
  exact ⟨serveLoop_delayOf 0 rs, hm.1, hm.2, int64_double hm.1 hm.2⟩

/-- `p.handleLoop(conn)` when `p.Closing()` is true at its check: the connection is closed and
no request is read. -/
theorem handleLoop_closing (p : Proxy) (w : World) (conn : Conn) (fuel : Nat) (s : St)
    (h : w.closing s.tick = true) :
    p.handleLoop w conn fuel s =
      (some (), { s with tick := s.tick + 1, trace := s.trace ++ [.close conn] }) := by
  simp [Proxy.handleLoop, Eng.bind_apply, h, Eng.emit]

/-! ## The goroutines -/

/-- Where `Serve` is: at the check of `p.Closing()` that starts its loop, in `l.Accept()`, or
returned with its error. -/
inductive ServeStage where
  | check
  | accept
  | returned (err : Option Error)
  deriving Repr

/-- `Serve`'s goroutine: where it is and its `delay`. -/
structure ServeState where
  stage : ServeStage
  delay : Int

/-- Where a `handleLoop` goroutine is. -/
inductive HandlerStage where
  /-- Before `p.connsMu.Lock()`. -/
  | start
  /-- Holding `connsMu`, before `p.conns.Add(1)`. -/
  | add
  /-- Holding `connsMu`, before `p.connsMu.Unlock()`. -/
  | unlock
  /-- Registered, before `if p.Closing()`. -/
  | check
  /-- In the loop over the connection's requests. -/
  | serving
  /-- Returned; the deferred `conn.Close()` and `p.conns.Done()` ran. -/
  | returned
  deriving DecidableEq, Repr

/-- A `handleLoop` goroutine: where it is and how many requests it read. -/
structure Handler where
  stage : HandlerStage
  reads : Nat
  deriving DecidableEq, Repr

/-- Where a `Close` call is. -/
inductive CloseStage where
  /-- Before `close(p.closing)`. -/
  | start
  /-- Before `p.connsMu.Lock()`. -/
  | lock
  /-- Holding `connsMu`, in `p.conns.Wait()`. -/
  | wait
  /-- Holding `connsMu`, before `p.connsMu.Unlock()`. -/
  | unlock
  /-- Returned. -/
  | returned
  /-- Panicked: `close` of a closed channel. -/
  | panicked
  deriving DecidableEq, Repr

/-- The proxy's shared state and its goroutines: `Serve`, the `handleLoop`s it started and the
`Close` calls, each numbered in the order it started. -/
structure Sys where
  /-- Whether `p.closing` is closed. -/
  closing : Bool
  /-- Whether `p.connsMu` is locked. -/
  connsMu : Bool
  /-- The counter of `p.conns`. -/
  conns : Nat
  serve : ServeState
  handlers : List Handler
  closes : List CloseStage

/-- `NewProxy()` with `Serve` started. -/
def Sys.init : Sys := ⟨false, false, 0, ⟨.check, 0⟩, [], []⟩

/-- One statement of one goroutine. -/
inductive Act where
  /-- `Serve` checks `p.Closing()`. -/
  | serveCheck
  /-- `l.Accept()` returns `r` to `Serve`, and `Serve` acts on it. -/
  | accept (r : AcceptResult)
  /-- The next statement of handler `i` before its request loop. -/
  | handler (i : Nat)
  /-- Handler `i` reads a request. -/
  | read (i : Nat)
  /-- Handler `i`'s request loop ends: the client hung up, a read timed out, or `handle` returned
  an error that ends it. -/
  | finish (i : Nat)
  /-- A new call of `p.Close()`. -/
  | callClose
  /-- The next statement of `Close` call `i`. -/
  | close (i : Nat)

/-- `s` with handler `i` now `h`. -/
def Sys.setHandler (s : Sys) (i : Nat) (h : Handler) : Sys :=
  { s with handlers := s.handlers.set i h }

/-- `s` with `Close` call `i` now at `c`. -/
def Sys.setClose (s : Sys) (i : Nat) (c : CloseStage) : Sys :=
  { s with closes := s.closes.set i c }

/-- The next statement of handler `i`, now `h`, before its request loop; `none` while it
blocks. -/
def Sys.stepHandler (s : Sys) (i : Nat) (h : Handler) : Option Sys :=
  match h.stage with
  | .start => if s.connsMu then none else some { s.setHandler i ⟨.add, h.reads⟩ with connsMu := true }
  | .add => some { s.setHandler i ⟨.unlock, h.reads⟩ with conns := s.conns + 1 }
  | .unlock => some { s.setHandler i ⟨.check, h.reads⟩ with connsMu := false }
  | .check =>
    if s.closing then some { s.setHandler i ⟨.returned, h.reads⟩ with conns := s.conns - 1 }
    else some (s.setHandler i ⟨.serving, h.reads⟩)
  | .serving | .returned => none

/-- The next statement of `Close` call `i`, now at `c`; `none` while it blocks. -/
def Sys.stepClose (s : Sys) (i : Nat) : CloseStage → Option Sys
  | .start =>
    if s.closing then some (s.setClose i .panicked)
    else some { s.setClose i .lock with closing := true }
  | .lock => if s.connsMu then none else some { s.setClose i .wait with connsMu := true }
  | .wait => if s.conns = 0 then some (s.setClose i .unlock) else none
  | .unlock => some { s.setClose i .returned with connsMu := false }
  | .returned | .panicked => none

@[simp] theorem Sys.setHandler_closing (s : Sys) (i : Nat) (h : Handler) :
    (s.setHandler i h).closing = s.closing := rfl
@[simp] theorem Sys.setHandler_connsMu (s : Sys) (i : Nat) (h : Handler) :
    (s.setHandler i h).connsMu = s.connsMu := rfl
@[simp] theorem Sys.setHandler_conns (s : Sys) (i : Nat) (h : Handler) :
    (s.setHandler i h).conns = s.conns := rfl
@[simp] theorem Sys.setHandler_handlers (s : Sys) (i : Nat) (h : Handler) :
    (s.setHandler i h).handlers = s.handlers.set i h := rfl
@[simp] theorem Sys.setHandler_closes (s : Sys) (i : Nat) (h : Handler) :
    (s.setHandler i h).closes = s.closes := rfl
@[simp] theorem Sys.setHandler_serve (s : Sys) (i : Nat) (h : Handler) :
    (s.setHandler i h).serve = s.serve := rfl
@[simp] theorem Sys.setClose_closing (s : Sys) (i : Nat) (c : CloseStage) :
    (s.setClose i c).closing = s.closing := rfl
@[simp] theorem Sys.setClose_connsMu (s : Sys) (i : Nat) (c : CloseStage) :
    (s.setClose i c).connsMu = s.connsMu := rfl
@[simp] theorem Sys.setClose_conns (s : Sys) (i : Nat) (c : CloseStage) :
    (s.setClose i c).conns = s.conns := rfl
@[simp] theorem Sys.setClose_handlers (s : Sys) (i : Nat) (c : CloseStage) :
    (s.setClose i c).handlers = s.handlers := rfl
@[simp] theorem Sys.setClose_closes (s : Sys) (i : Nat) (c : CloseStage) :
    (s.setClose i c).closes = s.closes.set i c := rfl
@[simp] theorem Sys.setClose_serve (s : Sys) (i : Nat) (c : CloseStage) :
    (s.setClose i c).serve = s.serve := rfl

/-- One step of the system; `none` when the goroutine cannot take it. -/
def Sys.step (s : Sys) : Act → Option Sys
  | .serveCheck =>
    match s.serve.stage with
    | .check =>
      some { s with serve := ⟨if s.closing then .returned none else .accept, s.serve.delay⟩ }
    | _ => none
  | .accept r =>
    match s.serve.stage with
    | .accept =>
      match serveAccept s.serve.delay r with
      | (.handle, d) => some { s with serve := ⟨.check, d⟩, handlers := s.handlers ++ [⟨.start, 0⟩] }
      | (.sleep _, d) => some { s with serve := ⟨.check, d⟩ }
      | (.fail err, d) => some { s with serve := ⟨.returned (some err), d⟩ }
    | _ => none
  | .handler i => s.handlers[i]?.bind (s.stepHandler i)
  | .read i =>
    match s.handlers[i]? with
    | some ⟨.serving, n⟩ => some (s.setHandler i ⟨.serving, n + 1⟩)
    | _ => none
  | .finish i =>
    match s.handlers[i]? with
    | some ⟨.serving, n⟩ => some { s.setHandler i ⟨.returned, n⟩ with conns := s.conns - 1 }
    | _ => none
  | .callClose => some { s with closes := s.closes ++ [.start] }
  | .close i => s.closes[i]?.bind (s.stepClose i)

/-- The steps `acts`, in order, from `s`; `none` when one of them cannot be taken. -/
def Sys.run (s : Sys) : List Act → Option Sys
  | [] => some s
  | a :: acts => (s.step a).bind (·.run acts)

/-- The states some interleaving reaches from `Sys.init`. -/
inductive Reachable : Sys → Prop where
  | init : Reachable Sys.init
  | step {s s' : Sys} {a : Act} : Reachable s → s.step a = some s' → Reachable s'

/-! ## The invariant -/

/-- Whether a handler at this stage holds `connsMu`. -/
def HandlerStage.holdsLock : HandlerStage → Bool
  | .add | .unlock => true
  | _ => false

/-- Whether a handler at this stage is counted in `conns`. -/
def HandlerStage.registered : HandlerStage → Bool
  | .unlock | .check | .serving => true
  | _ => false

/-- Whether a handler at this stage has not yet checked `p.Closing()`. -/
def HandlerStage.beforeCheck : HandlerStage → Bool
  | .start | .add | .unlock | .check => true
  | _ => false

/-- Whether a `Close` call at this stage holds `connsMu`. -/
def CloseStage.holdsLock : CloseStage → Bool
  | .wait | .unlock => true
  | _ => false

/-- What every reachable state satisfies. -/
structure Sys.Inv (s : Sys) : Prop where
  /-- `connsMu` is held by one goroutine when it is locked, and by none otherwise. -/
  mutex : s.handlers.countP (·.stage.holdsLock) + s.closes.countP (·.holdsLock) =
    if s.connsMu then 1 else 0
  /-- `conns` counts the handlers that registered and have not returned. -/
  conns : s.conns = s.handlers.countP (·.stage.registered)
  /-- `p.closing` is closed once a `Close` call got past its first statement. -/
  closing : s.closing = true ↔ 0 < s.closes.countP (· != .start)
  /-- A `Close` call past its `Wait` holds `connsMu` with no handler registered. -/
  drained : .unlock ∈ s.closes → s.conns = 0
  /-- A handler reads only in its request loop. -/
  fresh : ∀ h ∈ s.handlers, h.stage.beforeCheck = true → h.reads = 0

theorem countP_set_add {α : Type} (p : α → Bool) {l : List α} {i : Nat} {a : α}
    (h : l[i]? = some a) (b : α) :
    (l.set i b).countP p + (if p a then 1 else 0) = l.countP p + (if p b then 1 else 0) := by
  obtain ⟨hi, rfl⟩ := List.getElem?_eq_some_iff.mp h
  have := List.boole_getElem_le_countP p l i hi
  rw [List.countP_set p l i b hi]
  omega

theorem Sys.init_inv : Sys.init.Inv :=
  ⟨rfl, rfl, by simp [Sys.init], nofun, nofun⟩

/-- Handler `i` moves from `h` to `h'` while `connsMu` becomes `m` and `conns` becomes `c`:
the invariant still holds when the lock and the counter move with the handler. -/
theorem Sys.Inv.setHandler {s : Sys} {i : Nat} {h h' : Handler} {m : Bool} {c : Nat}
    (hi : s.Inv) (hh : s.handlers[i]? = some h)
    (hmu : (if h'.stage.holdsLock then 1 else 0) + (if s.connsMu then 1 else 0) =
      (if h.stage.holdsLock then 1 else 0) + (if m then 1 else 0))
    (hc : c + (if h.stage.registered then 1 else 0) =
      s.conns + (if h'.stage.registered then 1 else 0))
    (hd : .unlock ∈ s.closes → c = 0) (hf : h'.stage.beforeCheck = true → h'.reads = 0) :
    { s.setHandler i h' with connsMu := m, conns := c }.Inv := by
  obtain ⟨hmut, hconns, hclosing, -, hfresh⟩ := hi
  have hm := countP_set_add (·.stage.holdsLock) hh h'
  have hr := countP_set_add (·.stage.registered) hh h'
  refine ⟨?_, ?_, hclosing, hd, fun x hx hb => ?_⟩
  · simp only [Sys.setHandler] at hm ⊢
    omega
  · simp only [Sys.setHandler] at hr ⊢
    omega
  · rcases List.mem_or_eq_of_mem_set hx with hx | rfl
    · exact hfresh x hx hb
    · exact hf hb

/-- A handler that holds `connsMu` is the only goroutine that does. -/
theorem Sys.Inv.handler_holds {s : Sys} {i : Nat} {h : Handler} (hi : s.Inv)
    (hh : s.handlers[i]? = some h) (hl : h.stage.holdsLock = true) :
    s.connsMu = true ∧ ∀ c ∈ s.closes, c.holdsLock = false := by
  have hpos : 0 < s.handlers.countP (·.stage.holdsLock) :=
    List.countP_pos_iff.mpr ⟨h, List.getElem?_mem hh, hl⟩
  have hmut := hi.mutex
  refine ⟨?_, fun c hc => ?_⟩
  · cases hmu : s.connsMu
    · rw [hmu, if_neg Bool.false_ne_true] at hmut; omega
    · rfl
  · by_contra hne
    have : 0 < s.closes.countP (·.holdsLock) := List.countP_pos_iff.mpr ⟨c, hc, by simpa using hne⟩
    split_ifs at hmut <;> omega

/-- A registered handler is counted in `conns`. -/
theorem Sys.Inv.conns_pos {s : Sys} {i : Nat} {h : Handler} (hi : s.Inv)
    (hh : s.handlers[i]? = some h) (hr : h.stage.registered = true) : 0 < s.conns :=
  hi.conns ▸ List.countP_pos_iff.mpr ⟨h, List.getElem?_mem hh, hr⟩

theorem Sys.Inv.stepHandler {s s' : Sys} {i : Nat} {h : Handler} (hi : s.Inv)
    (hh : s.handlers[i]? = some h) (hs : s.stepHandler i h = some s') : s'.Inv := by
  have hf := hi.fresh h (List.getElem?_mem hh)
  rcases h with ⟨st, n⟩
  cases st with
  | start =>
    simp only [Sys.stepHandler] at hs
    split at hs
    · cases hs
    · cases hs
      exact hi.setHandler hh (by simp [*, HandlerStage.holdsLock]) rfl hi.drained
        fun _ => hf rfl
  | add =>
    simp only [Sys.stepHandler] at hs
    cases hs
    have hl := hi.handler_holds hh rfl
    refine hi.setHandler (m := s.connsMu) hh (by simp [HandlerStage.holdsLock]) rfl
      (fun hu => absurd (hl.2 _ hu) (by simp [CloseStage.holdsLock])) fun _ => hf rfl
  | unlock =>
    simp only [Sys.stepHandler] at hs
    cases hs
    have hl := hi.handler_holds hh rfl
    exact hi.setHandler hh (by simp [hl.1, HandlerStage.holdsLock])
      (by simp [HandlerStage.registered]) hi.drained fun _ => hf rfl
  | check =>
    have hpos := hi.conns_pos hh rfl
    simp only [Sys.stepHandler] at hs
    split at hs <;> cases hs
    · exact hi.setHandler (m := s.connsMu) hh (by simp [HandlerStage.holdsLock])
        (by simp [HandlerStage.registered]; omega) (fun hu => by simp [hi.drained hu]) nofun
    · exact hi.setHandler (m := s.connsMu) hh (by simp [HandlerStage.holdsLock])
        (by simp [HandlerStage.registered]) hi.drained nofun
  | serving | returned => simp [Sys.stepHandler] at hs

/-- `Close` call `i` moves from `c` to `d`, a stage past its first statement: the invariant
still holds when the lock moves with the call, the channel is closed, and the call gets past its
`Wait` only with `conns` zero. -/
theorem Sys.Inv.setClose {s s' : Sys} {i : Nat} {c d : CloseStage} (hi : s.Inv)
    (hc : s.closes[i]? = some c) (hd : d ≠ .start) (hcl : s'.closing = true)
    (hcs : s'.closes = s.closes.set i d) (hh : s'.handlers = s.handlers)
    (hn : s'.conns = s.conns)
    (hm : (if d.holdsLock then 1 else 0) + (if s.connsMu then 1 else 0) =
      (if c.holdsLock then 1 else 0) + (if s'.connsMu then 1 else 0))
    (hw : d = .unlock → s.conns = 0) : s'.Inv := by
  obtain ⟨hmut, hconns, -, hdrained, hfresh⟩ := hi
  have hset := countP_set_add (·.holdsLock) hc d
  have hlen : i < s.closes.length := (List.getElem?_eq_some_iff.mp hc).1
  refine ⟨?_, hn ▸ hh ▸ hconns, ?_, fun hu => ?_, hh ▸ hfresh⟩
  · rw [hh, hcs]
    simp only at hset
    omega
  · have : 0 < (s.closes.set i d).countP (· != .start) :=
      List.countP_pos_iff.mpr ⟨d, List.mem_set s.closes i hlen d, by simpa using hd⟩
    simpa [hcl, hcs] using this
  · rw [hcs] at hu
    rcases List.mem_or_eq_of_mem_set hu with hu | hu
    · exact hn ▸ hdrained hu
    · exact hn ▸ hw hu.symm

/-- A `Close` call that holds `connsMu` is the only goroutine that does. -/
theorem Sys.Inv.close_holds {s : Sys} {i : Nat} {c : CloseStage} (hi : s.Inv)
    (hc : s.closes[i]? = some c) (hl : c.holdsLock = true) :
    s.connsMu = true := by
  have hpos : 0 < s.closes.countP (·.holdsLock) :=
    List.countP_pos_iff.mpr ⟨c, List.getElem?_mem hc, hl⟩
  have hmut := hi.mutex
  cases hmu : s.connsMu
  · rw [hmu, if_neg Bool.false_ne_true] at hmut; omega
  · rfl

/-- While a `Close` call is past its first statement, `p.closing` is closed. -/
theorem Sys.Inv.closing_of_close {s : Sys} {i : Nat} {c : CloseStage} (hi : s.Inv)
    (hc : s.closes[i]? = some c) (hs : c ≠ .start) : s.closing = true :=
  hi.closing.mpr (List.countP_pos_iff.mpr ⟨c, List.getElem?_mem hc, by simpa using hs⟩)

theorem Sys.Inv.stepClose {s s' : Sys} {i : Nat} {c : CloseStage} (hi : s.Inv)
    (hc : s.closes[i]? = some c) (hs : s.stepClose i c = some s') : s'.Inv := by
  cases c with
  | start =>
    simp only [Sys.stepClose] at hs
    split at hs <;> cases hs
    · exact hi.setClose (d := .panicked) hc nofun (by assumption) rfl rfl rfl
        (by simp [CloseStage.holdsLock]) nofun
    · exact hi.setClose (d := .lock) hc nofun rfl rfl rfl rfl (by simp [CloseStage.holdsLock])
        nofun
  | lock =>
    simp only [Sys.stepClose] at hs
    split at hs <;> cases hs
    exact hi.setClose (d := .wait) hc nofun (hi.closing_of_close hc nofun) rfl rfl rfl
      (by simp [*, CloseStage.holdsLock]) nofun
  | wait =>
    simp only [Sys.stepClose] at hs
    split at hs <;> cases hs
    exact hi.setClose (d := .unlock) hc nofun (hi.closing_of_close hc nofun) rfl rfl rfl
      (by simp [CloseStage.holdsLock]) fun _ => by assumption
  | unlock =>
    simp only [Sys.stepClose] at hs
    cases hs
    exact hi.setClose (d := .returned) hc nofun (hi.closing_of_close hc nofun) rfl rfl rfl
      (by simp [hi.close_holds hc rfl, CloseStage.holdsLock]) nofun
  | returned | panicked => simp [Sys.stepClose] at hs

/-- `Serve`'s own steps change no shared state and no `Close` call; an accepted connection
starts one handler, at its first statement. -/
theorem Sys.step_serve {s s' : Sys} {a : Act} (ha : a = .serveCheck ∨ ∃ r, a = .accept r)
    (hs : s.step a = some s') :
    s'.closing = s.closing ∧ s'.connsMu = s.connsMu ∧ s'.conns = s.conns ∧
      s'.closes = s.closes ∧ ∃ new, s'.handlers = s.handlers ++ new ∧ ∀ h ∈ new, h = ⟨.start, 0⟩ := by
  rcases ha with rfl | ⟨r, rfl⟩ <;> simp only [Sys.step] at hs <;> repeat' split at hs
  all_goals cases hs
  all_goals first
    | exact ⟨rfl, rfl, rfl, rfl, _, rfl, fun _ => List.mem_singleton.mp⟩
    | exact ⟨rfl, rfl, rfl, rfl, [], (List.append_nil _).symm, nofun⟩

/-- Every step keeps the invariant. -/
theorem Sys.Inv.step {s s' : Sys} {a : Act} (hi : s.Inv) (hs : s.step a = some s') : s'.Inv := by
  cases a with
  | serveCheck | accept _ =>
    obtain ⟨hcl, hm, hc, hcs, new, hh, hnew⟩ := Sys.step_serve (by simp) hs
    have hl : new.countP (·.stage.holdsLock) = 0 :=
      List.countP_eq_zero.mpr fun h hm => by simp [hnew h hm, HandlerStage.holdsLock]
    have hr : new.countP (·.stage.registered) = 0 :=
      List.countP_eq_zero.mpr fun h hm => by simp [hnew h hm, HandlerStage.registered]
    refine ⟨?_, ?_, hcl ▸ hcs ▸ hi.closing, hc ▸ hcs ▸ hi.drained, fun h hmem hb => ?_⟩
    · rw [hh, hcs, hm, List.countP_append, hl]
      exact hi.mutex
    · rw [hh, hc, List.countP_append, hr]
      exact hi.conns
    · rcases List.mem_append.mp (hh ▸ hmem) with hmem | hmem
      · exact hi.fresh h hmem hb
      · rw [hnew h hmem]
  | handler i =>
    obtain ⟨h, hh, hs⟩ := Option.bind_eq_some.mp hs
    exact hi.stepHandler hh hs
  | read i =>
    simp only [Sys.step] at hs
    split at hs <;> cases hs
    rename_i heq
    exact hi.setHandler (m := s.connsMu) (c := s.conns) heq
      (by simp [HandlerStage.holdsLock]) rfl hi.drained nofun
  | finish i =>
    simp only [Sys.step] at hs
    split at hs <;> cases hs
    rename_i heq
    have hpos := hi.conns_pos heq rfl
    exact hi.setHandler (m := s.connsMu) heq (by simp [HandlerStage.holdsLock])
      (by simp [HandlerStage.registered]; omega) (fun hu => by simp [hi.drained hu]) nofun
  | callClose =>
    cases hs
    refine ⟨by simpa [List.countP_append, CloseStage.holdsLock] using hi.mutex, hi.conns,
      by simpa [List.countP_append] using hi.closing, fun hu => hi.drained ?_, hi.fresh⟩
    simpa using hu
  | close i =>
    obtain ⟨c, hc, hs⟩ := Option.bind_eq_some.mp hs
    exact hi.stepClose hc hs

theorem Reachable.inv {s : Sys} (h : Reachable s) : s.Inv := by
  induction h with
  | init => exact Sys.init_inv
  | step _ hs ih => exact ih.step hs

/-- No step opens `p.closing` again. -/
theorem Sys.step_closing {s s' : Sys} {a : Act} (hs : s.step a = some s')
    (hc : s.closing = true) : s'.closing = true := by
  cases a with
  | serveCheck | accept _ => exact (Sys.step_serve (by simp) hs).1 ▸ hc
  | read _ | finish _ =>
    simp only [Sys.step] at hs
    split at hs <;> cases hs
    exact hc
  | callClose => cases hs; exact hc
  | handler i =>
    obtain ⟨⟨st, n⟩, -, hs⟩ := Option.bind_eq_some.mp hs
    cases st <;> simp only [Sys.stepHandler] at hs <;> (try split at hs) <;> cases hs <;> exact hc
  | close i =>
    obtain ⟨c, -, hs⟩ := Option.bind_eq_some.mp hs
    cases c <;> simp only [Sys.stepClose] at hs <;> (try split at hs) <;> cases hs <;> exact hc

/-! ## Shutdown -/

/-- Whether a handler has read no request and is not in its request loop. -/
def Handler.quiet (h : Handler) : Prop :=
  (h.stage.beforeCheck = true ∨ h.stage = .returned) ∧ h.reads = 0

/-- Whether handler `j`, if it has started, is quiet. -/
def Sys.QuietAt (s : Sys) (j : Nat) : Prop := ∀ h, s.handlers[j]? = some h → h.quiet

/-- Handler `i` moves from `h` to `h'`: a handler `j` stays quiet when `h'` is quiet whenever `h`
is. -/
theorem Sys.QuietAt.set {s : Sys} {i j : Nat} {h h' : Handler} (hq : s.QuietAt j)
    (hh : s.handlers[i]? = some h) (hq' : h.quiet → h'.quiet) :
    ∀ h'', (s.handlers.set i h')[j]? = some h'' → h''.quiet := by
  intro h'' hj
  rw [List.getElem?_set] at hj
  split at hj
  · subst i
    rw [if_pos (List.getElem?_eq_some_iff.mp hh).1, Option.some.injEq] at hj
    exact hj ▸ hq' (hq h hh)
  · exact hq h'' hj

/-- While `p.closing` is closed, a quiet handler stays quiet and a handler that starts is. -/
theorem Sys.QuietAt.step {s s' : Sys} {a : Act} {j : Nat} (hc : s.closing = true)
    (hq : s.QuietAt j) (hs : s.step a = some s') : s'.QuietAt j := by
  cases a with
  | serveCheck | accept _ =>
    obtain ⟨-, -, -, -, new, hh, hnew⟩ := Sys.step_serve (by simp) hs
    intro h hj
    rw [hh, List.getElem?_append] at hj
    split at hj
    · exact hq h hj
    · rw [hnew h (List.getElem?_mem hj)]
      exact ⟨.inl rfl, rfl⟩
  | callClose => cases hs; exact hq
  | close _ =>
    obtain ⟨c, -, hs⟩ := Option.bind_eq_some.mp hs
    have : s'.handlers = s.handlers := by
      cases c <;> simp only [Sys.stepClose] at hs <;> (try split at hs) <;> cases hs <;> rfl
    intro h hj
    rw [this] at hj
    exact hq h hj
  | handler i =>
    obtain ⟨⟨st, n⟩, hh, hs⟩ := Option.bind_eq_some.mp hs
    cases st <;> simp only [Sys.stepHandler] at hs <;> (try split at hs) <;> cases hs <;>
      exact hq.set hh fun ⟨_, h0⟩ => ⟨by simp [HandlerStage.beforeCheck], h0⟩
  | read i | finish i =>
    simp only [Sys.step] at hs
    split at hs <;> cases hs
    rename_i heq
    exact hq.set heq fun ⟨h, _⟩ => by simp [HandlerStage.beforeCheck] at h

/-- While `p.closing` is closed, a quiet handler stays quiet through any run. -/
theorem Sys.QuietAt.run {s s' : Sys} {acts : List Act} {j : Nat} (hc : s.closing = true)
    (hq : s.QuietAt j) (hr : s.run acts = some s') : s'.QuietAt j := by
  induction acts generalizing s with
  | nil => cases hr; exact hq
  | cons a acts ih =>
    obtain ⟨t, ht, hr⟩ := Option.bind_eq_some.mp hr
    exact ih (Sys.step_closing ht hc) (hq.step hc ht) hr

/-- `close(p.closing)` of a `Close` call panics exactly when an earlier call got past it. -/
theorem Sys.Inv.close_panics {s s' : Sys} {i : Nat} (hi : s.Inv)
    (hc : s.closes[i]? = some .start) (hs : s.step (.close i) = some s') :
    s'.closes[i]? = some .panicked ↔ ∃ c ∈ s.closes, c ≠ .start := by
  have hlen := (List.getElem?_eq_some_iff.mp hc).1
  have hcl : (∃ c ∈ s.closes, c ≠ .start) ↔ s.closing = true := by
    rw [hi.closing, List.countP_pos_iff]
    simp
  rw [hcl]
  simp only [Sys.step, hc, Option.bind_some, Sys.stepClose] at hs
  split at hs <;> cases hs <;> simp [*]

/-- When a `Close` call returns, every handler that registered has returned: the others have
not yet taken `connsMu`. -/
theorem Sys.Inv.close_returns {s s' : Sys} {i : Nat} (hi : s.Inv)
    (hc : s.closes[i]? = some .unlock) (hs : s.step (.close i) = some s') :
    s'.closes[i]? = some .returned ∧
      ∀ h ∈ s'.handlers, h.stage = .start ∨ h.stage = .returned := by
  have hlen := (List.getElem?_eq_some_iff.mp hc).1
  simp only [Sys.step, hc, Option.bind_some, Sys.stepClose] at hs
  cases hs
  refine ⟨by simp [hlen], fun h hm => ?_⟩
  have hreg : h.stage.registered = false := by
    have h0 := hi.conns ▸ hi.drained (List.getElem?_mem hc)
    simpa using List.countP_eq_zero.mp h0 h hm
  have hlock : h.stage.holdsLock = false := by
    have hmut := hi.mutex
    have hpos : 0 < s.closes.countP (·.holdsLock) :=
      List.countP_pos_iff.mpr ⟨_, List.getElem?_mem hc, rfl⟩
    rw [hi.close_holds hc rfl, if_pos rfl] at hmut
    have h0 : s.handlers.countP (·.stage.holdsLock) = 0 := by omega
    simpa using List.countP_eq_zero.mp h0 h hm
  rcases h with ⟨_ | _ | _ | _ | _ | _, _⟩ <;>
    simp_all [HandlerStage.registered, HandlerStage.holdsLock]

/-- Shutdown over every interleaving of `Serve`, the handlers and any number of `Close` calls.
The first `Close` call to reach `close(p.closing)` closes the channel and every later one panics
there. `Closing()` is true exactly once some `Close` call got past that statement, and no step
makes it false again. A `Close` call returns only when every handler that registered has
returned. A handler that starts after the channel is closed, or that had not reached its check
of `p.Closing()` by then, returns without reading a request. -/
theorem close_shutdown :
    (∀ (s s' : Sys) (i : Nat), Reachable s → s.closes[i]? = some .start →
      s.step (.close i) = some s' →
        (s'.closes[i]? = some .panicked ↔ ∃ c ∈ s.closes, c ≠ .start)) ∧
    (∀ s : Sys, Reachable s → (s.closing = true ↔ ∃ c ∈ s.closes, c ≠ .start)) ∧
    (∀ (s s' : Sys) (a : Act), s.step a = some s' → s.closing = true → s'.closing = true) ∧
    (∀ (s s' : Sys) (i : Nat), Reachable s → s.closes[i]? = some .unlock →
      s.step (.close i) = some s' → s'.closes[i]? = some .returned ∧
        ∀ h ∈ s'.handlers, h.stage = .start ∨ h.stage = .returned) ∧
    (∀ (s s' : Sys) (acts : List Act) (j : Nat) (h : Handler), Reachable s → s.closing = true →
      s.run acts = some s' →
      (s.handlers.length ≤ j ∨ ∃ h₀, s.handlers[j]? = some h₀ ∧ h₀.stage.beforeCheck = true) →
      s'.handlers[j]? = some h → h.reads = 0 ∧ h.stage ≠ .serving) := by
  refine ⟨fun s s' i hr => hr.inv.close_panics, fun s hr => ?_,
    fun s s' a hs => Sys.step_closing hs, fun s s' i hr => hr.inv.close_returns,
    fun s s' acts j h hr hc hrun hj hh => ?_⟩
  · rw [hr.inv.closing, List.countP_pos_iff]
    simp
  · have hq : s.QuietAt j := by
      intro h₀ h₀j
      rcases hj with hj | ⟨h₁, h₁j, hb⟩
      · simp [List.getElem?_eq_none hj] at h₀j
      · rw [h₁j, Option.some.injEq] at h₀j
        subst h₀j
        exact ⟨.inl hb, hr.inv.fresh _ (List.getElem?_mem h₁j) hb⟩
    obtain ⟨hstage, hreads⟩ := hq.run hc hrun h hh
    refine ⟨hreads, fun hs => ?_⟩
    rcases hstage with hb | hb <;> simp [hs, HandlerStage.beforeCheck] at hb

/-- `p.Close()` called twice: the first call returns and the second panics at
`close(p.closing)`. -/
theorem close_twice_panics :
    (Sys.init.run [.callClose, .close 0, .close 0, .close 0, .close 0, .callClose, .close 1]).map
      (·.closes) = some [.returned, .panicked] := rfl


/-! ## `Serve` after `Close` -/

/-- How many handlers `Serve` at this stage can start before it checks `p.Closing()` again: one
for an `l.Accept()` under way. -/
def ServeStage.pending : ServeStage → Nat
  | .accept => 1
  | _ => 0

/-- A handler's step moves no other goroutine and starts none. -/
theorem Sys.stepHandler_frame {s s' : Sys} {i : Nat} {h : Handler}
    (hs : s.stepHandler i h = some s') :
    s'.serve = s.serve ∧ s'.handlers.length = s.handlers.length := by
  rcases h with ⟨_ | _ | _ | _ | _ | _, n⟩ <;> simp only [Sys.stepHandler] at hs <;>
    (try split at hs) <;> cases hs <;> simp

theorem Sys.stepHandler_handlers {s s' : Sys} {i : Nat} {h : Handler}
    (hs : s.stepHandler i h = some s') : ∃ h', s'.handlers = s.handlers.set i h' := by
  rcases h with ⟨_ | _ | _ | _ | _ | _, n⟩ <;> simp only [Sys.stepHandler] at hs <;>
    (try split at hs) <;> cases hs <;> exact ⟨_, rfl⟩

/-- A `Close` call's step moves no other goroutine. -/
theorem Sys.stepClose_frame {s s' : Sys} {i : Nat} {c : CloseStage}
    (hs : s.stepClose i c = some s') : s'.serve = s.serve ∧ s'.handlers = s.handlers := by
  cases c <;> simp only [Sys.stepClose] at hs <;> (try split at hs) <;> cases hs <;> simp

/-- While `p.closing` is closed, no step adds to the handlers `Serve` started and the ones it can
still start. -/
theorem Sys.step_pending {s s' : Sys} {a : Act} (hc : s.closing = true)
    (hs : s.step a = some s') :
    s'.handlers.length + s'.serve.stage.pending ≤ s.handlers.length + s.serve.stage.pending := by
  cases a with
  | serveCheck | accept _ =>
    simp only [Sys.step] at hs
    repeat' split at hs
    all_goals cases hs
    all_goals simp_all [ServeStage.pending]
  | handler i =>
    obtain ⟨h, -, hs⟩ := Option.bind_eq_some.mp hs
    obtain ⟨h1, h2⟩ := Sys.stepHandler_frame hs
    rw [h1, h2]
  | read i | finish i =>
    simp only [Sys.step] at hs
    split at hs <;> cases hs
    simp
  | callClose => cases hs; simp
  | close i =>
    obtain ⟨c, -, hs⟩ := Option.bind_eq_some.mp hs
    obtain ⟨h1, h2⟩ := Sys.stepClose_frame hs
    rw [h1, h2]

/-- `Serve` stops accepting: once `p.closing` is closed, over any steps of any goroutines, it
starts at most one more handler, for an `l.Accept()` already under way, and none when it is not
in `l.Accept()` at that point. -/
theorem Sys.serve_stops {s s' : Sys} {acts : List Act} (hc : s.closing = true)
    (hr : s.run acts = some s') :
    s'.handlers.length ≤ s.handlers.length + s.serve.stage.pending := by
  suffices h : s'.handlers.length + s'.serve.stage.pending ≤
      s.handlers.length + s.serve.stage.pending by omega
  induction acts generalizing s with
  | nil => cases hr; exact le_refl _
  | cons a acts ih =>
    obtain ⟨t, ht, hr⟩ := Option.bind_eq_some.mp hr
    exact (ih (Sys.step_closing ht hc) hr).trans (Sys.step_pending hc ht)

/-- `Serve` in `l.Accept()` as the first `Close` call waits: it starts the accepted handler,
then returns at its check. -/
theorem serve_stops_inAccept :
    let s : Sys := ⟨true, true, 0, ⟨.accept, 0⟩, [], [.wait]⟩
    s.closing = true ∧
      s.run [.accept .conn, .serveCheck] =
        some ⟨true, true, 0, ⟨.returned none, 0⟩, [⟨.start, 0⟩], [.wait]⟩ ∧
      [(⟨.start, 0⟩ : Handler)].length ≤ s.handlers.length + s.serve.stage.pending := by
  refine ⟨rfl, ?h, Sys.serve_stops rfl ?h⟩
  rfl

/-! ## No deadlock, and `Close` can always finish

`toGo` counts the statements a handler that registered, or a `Close` call, has left. Every step
of such a goroutine lowers it, and a handler at its first statement counts for nothing, so a
schedule that never starts one ends. -/

/-- How many statements a handler that registered has left before it returns; none at its
first statement. -/
def HandlerStage.toGo : HandlerStage → Nat
  | .add => 4
  | .unlock => 3
  | .check => 2
  | .serving => 1
  | .start | .returned => 0

/-- How many statements a `Close` call has left. -/
def CloseStage.toGo : CloseStage → Nat
  | .start => 4
  | .lock => 3
  | .wait => 2
  | .unlock => 1
  | .returned | .panicked => 0

/-- The statements left to the registered handlers and the `Close` calls. -/
def Sys.toGo (s : Sys) : Nat :=
  (s.handlers.map (·.stage.toGo)).sum + (s.closes.map CloseStage.toGo).sum

theorem sum_map_set_add {α : Type} (f : α → Nat) {l : List α} {i : Nat} {a : α}
    (h : l[i]? = some a) (b : α) :
    ((l.set i b).map f).sum + f a = (l.map f).sum + f b := by
  induction l generalizing i with
  | nil => simp at h
  | cons x xs ih =>
    cases i with
    | zero =>
      simp only [List.getElem?_cons_zero, Option.some.injEq] at h
      subst h
      simp only [List.set_cons_zero, List.map_cons, List.sum_cons]
      omega
    | succ i =>
      have := ih (by simpa using h)
      simp only [List.set_cons_succ, List.map_cons, List.sum_cons]
      omega

theorem Sys.toGo_setHandler {s s' : Sys} {i : Nat} {h h' : Handler}
    (hh : s.handlers[i]? = some h) (hhs : s'.handlers = s.handlers.set i h')
    (hcs : s'.closes = s.closes) (hlt : h'.stage.toGo < h.stage.toGo) : s'.toGo < s.toGo := by
  have := sum_map_set_add (·.stage.toGo) hh h'
  simp only [Sys.toGo, hhs, hcs] at this ⊢
  omega

theorem Sys.toGo_setClose {s s' : Sys} {i : Nat} {c d : CloseStage}
    (hc : s.closes[i]? = some c) (hhs : s'.handlers = s.handlers)
    (hcs : s'.closes = s.closes.set i d) (hlt : d.toGo < c.toGo) : s'.toGo < s.toGo := by
  have := sum_map_set_add CloseStage.toGo hc d
  simp only [Sys.toGo, hhs, hcs] at this ⊢
  omega

/-- A handler that registered and has not returned can move, and gets closer to returning. -/
theorem Sys.handler_moves {s : Sys} {i : Nat} {h : Handler} (hh : s.handlers[i]? = some h)
    (hs : h.stage ≠ .start) (hr : h.stage ≠ .returned) :
    ∃ a s', (a = .handler i ∨ a = .finish i) ∧ s.step a = some s' ∧ s'.toGo < s.toGo := by
  rcases h with ⟨_ | _ | _ | _ | _ | _, n⟩
  · exact absurd rfl hs
  · exact ⟨_, { s.setHandler i ⟨.unlock, n⟩ with conns := s.conns + 1 }, .inl rfl,
      by simp [Sys.step, hh, Sys.stepHandler], Sys.toGo_setHandler hh rfl rfl (by simp [HandlerStage.toGo])⟩
  · exact ⟨_, { s.setHandler i ⟨.check, n⟩ with connsMu := false }, .inl rfl,
      by simp [Sys.step, hh, Sys.stepHandler], Sys.toGo_setHandler hh rfl rfl (by simp [HandlerStage.toGo])⟩
  · cases hc : s.closing
    · exact ⟨_, s.setHandler i ⟨.serving, n⟩, .inl rfl,
        by simp [Sys.step, hh, Sys.stepHandler, hc], Sys.toGo_setHandler hh rfl rfl (by simp [HandlerStage.toGo])⟩
    · exact ⟨_, { s.setHandler i ⟨.returned, n⟩ with conns := s.conns - 1 }, .inl rfl,
        by simp [Sys.step, hh, Sys.stepHandler, hc], Sys.toGo_setHandler hh rfl rfl (by simp [HandlerStage.toGo])⟩
  · exact ⟨_, { s.setHandler i ⟨.returned, n⟩ with conns := s.conns - 1 }, .inr rfl,
      by simp [Sys.step, hh], Sys.toGo_setHandler hh rfl rfl (by simp [HandlerStage.toGo])⟩
  · exact absurd rfl hr

/-- A handler at its first statement can move while `connsMu` is free. -/
theorem Sys.handler_starts {s : Sys} {i : Nat} {n : Nat}
    (hh : s.handlers[i]? = some ⟨.start, n⟩) (hl : s.connsMu = false) :
    (s.step (.handler i)).isSome := by
  simp [Sys.step, hh, Sys.stepHandler, hl]

/-- A `Close` call that has not finished can move, and gets closer to the end, unless it waits
for `connsMu` or, in `p.conns.Wait()`, for `conns` to drain. -/
theorem Sys.close_moves {s : Sys} {i : Nat} {c : CloseStage} (hc : s.closes[i]? = some c)
    (hd : c ≠ .returned ∧ c ≠ .panicked) (hl : c = .lock → s.connsMu = false)
    (hw : c = .wait → s.conns = 0) : ∃ s', s.step (.close i) = some s' ∧ s'.toGo < s.toGo := by
  cases c with
  | start =>
    cases hcl : s.closing
    · exact ⟨{ s.setClose i .lock with closing := true },
        by simp [Sys.step, hc, Sys.stepClose, hcl], Sys.toGo_setClose hc rfl rfl (by decide)⟩
    · exact ⟨s.setClose i .panicked, by simp [Sys.step, hc, Sys.stepClose, hcl],
        Sys.toGo_setClose hc rfl rfl (by decide)⟩
  | lock =>
    exact ⟨{ s.setClose i .wait with connsMu := true },
      by simp [Sys.step, hc, Sys.stepClose, hl rfl], Sys.toGo_setClose hc rfl rfl (by decide)⟩
  | wait =>
    exact ⟨s.setClose i .unlock, by simp [Sys.step, hc, Sys.stepClose, hw rfl],
      Sys.toGo_setClose hc rfl rfl (by decide)⟩
  | unlock =>
    exact ⟨{ s.setClose i .returned with connsMu := false },
      by simp [Sys.step, hc, Sys.stepClose], Sys.toGo_setClose hc rfl rfl (by decide)⟩
  | returned | panicked => simp at hd

/-- When every handler is at its first statement or has returned, none is registered, and
`connsMu` is held by a `Close` call if by anyone. -/
theorem Sys.Inv.idle {s : Sys} (hi : s.Inv)
    (hb : ∀ h ∈ s.handlers, h.stage ≠ .start → h.stage = .returned) :
    s.conns = 0 ∧ (s.connsMu = true → ∃ c ∈ s.closes, c.holdsLock = true) := by
  have hidle : ∀ h ∈ s.handlers, h.stage.registered = false ∧ h.stage.holdsLock = false := by
    intro h hm
    by_cases h0 : h.stage = .start
    · simp [h0, HandlerStage.registered, HandlerStage.holdsLock]
    · simp [hb h hm h0, HandlerStage.registered, HandlerStage.holdsLock]
  refine ⟨?_, fun hmu => ?_⟩
  · rw [hi.conns, List.countP_eq_zero]
    exact fun h hm => by simp [(hidle h hm).1]
  · have hl : s.handlers.countP (·.stage.holdsLock) = 0 :=
      List.countP_eq_zero.mpr fun h hm => by simp [(hidle h hm).2]
    have hmut := hi.mutex
    rw [hl, hmu, if_pos rfl] at hmut
    have hpos : 0 < s.closes.countP (·.holdsLock) := by omega
    exact List.countP_pos_iff.mp hpos

/-- A `Close` call that holds `connsMu` is in `p.conns.Wait()` or past it. -/
theorem CloseStage.holdsLock_cases {c : CloseStage} (h : c.holdsLock = true) :
    c ≠ .returned ∧ c ≠ .panicked ∧ c ≠ .lock := by
  cases c <;> simp_all [CloseStage.holdsLock]

/-- No deadlock: in every reachable state in which a handler or a `Close` call has not
finished, some handler or `Close` call can take a step. A goroutine waits only for `connsMu`,
whose holder can always move, or, in `Close`'s `p.conns.Wait()`, for the registered handlers,
each of which can move. -/
theorem Sys.no_deadlock {s : Sys} (hr : Reachable s)
    (hu : (∃ h ∈ s.handlers, h.stage ≠ .returned) ∨
      ∃ c ∈ s.closes, c ≠ .returned ∧ c ≠ .panicked) :
    ∃ i, (s.step (.handler i)).isSome ∨ (s.step (.finish i)).isSome ∨
      (s.step (.close i)).isSome := by
  by_cases hb : ∃ h ∈ s.handlers, h.stage ≠ .start ∧ h.stage ≠ .returned
  · obtain ⟨h, hm, hs, hret⟩ := hb
    obtain ⟨i, hh⟩ := List.getElem?_of_mem hm
    obtain ⟨a, s', ha | ha, hst, -⟩ := Sys.handler_moves hh hs hret <;> subst ha
    · exact ⟨i, .inl (by simp [hst])⟩
    · exact ⟨i, .inr (.inl (by simp [hst]))⟩
  push_neg at hb
  obtain ⟨hconns, hholder⟩ := hr.inv.idle hb
  -- the holder of `connsMu`, a `Close` call, can move
  cases hmu : s.connsMu
  · rcases hu with ⟨h, hm, hret⟩ | ⟨c, hm, hd⟩
    · obtain ⟨i, hh⟩ := List.getElem?_of_mem hm
      have hstart : h.stage = .start := by_contra fun h0 => hret (hb h hm h0)
      rcases h with ⟨st, n⟩
      subst hstart
      exact ⟨i, .inl (Sys.handler_starts hh hmu)⟩
    · obtain ⟨i, hci⟩ := List.getElem?_of_mem hm
      obtain ⟨s', hst, -⟩ := Sys.close_moves hci hd (fun _ => hmu) fun _ => hconns
      exact ⟨i, .inr (.inr (by simp [hst]))⟩
  · obtain ⟨c, hm, hl⟩ := hholder hmu
    obtain ⟨i, hci⟩ := List.getElem?_of_mem hm
    obtain ⟨h1, h2, h3⟩ := CloseStage.holdsLock_cases hl
    obtain ⟨s', hst, -⟩ := Sys.close_moves hci ⟨h1, h2⟩ (absurd · h3) fun _ => hconns
    exact ⟨i, .inr (.inr (by simp [hst]))⟩

/-- Right after `p.Close()` is called, the call can move. -/
theorem no_deadlock_closeCalled :
    let s : Sys := { Sys.init with closes := [.start] }
    Reachable s ∧ (∃ c ∈ s.closes, c ≠ .returned ∧ c ≠ .panicked) ∧
      ∃ i, (s.step (.handler i)).isSome ∨ (s.step (.finish i)).isSome ∨
        (s.step (.close i)).isSome :=
  ⟨.step (a := .callClose) .init rfl, ⟨.start, by simp, by decide, by decide⟩,
    Sys.no_deadlock (.step (a := .callClose) .init rfl)
      (.inr ⟨.start, by simp, by decide, by decide⟩)⟩

/-- The steps `Close` can wait on: of a `Close` call, or of a handler past its first statement. -/
def Sys.Waited (s : Sys) (a : Act) : Prop :=
  ∃ i, (a = .handler i ∧ ∀ h ∈ s.handlers[i]?, h.stage ≠ .start) ∨ a = .finish i ∨ a = .close i

/-- Such a step leaves a handler at its first statement where it is. -/
theorem Sys.step_keeps_start {s t : Sys} {a : Act} (ha : s.Waited a) (hs : s.step a = some t)
    {j : Nat} {h : Handler} (hj : s.handlers[j]? = some h) (hst : h.stage = .start) :
    t.handlers[j]? = some h := by
  obtain ⟨i, ⟨rfl, hi⟩ | rfl | rfl⟩ := ha
  · obtain ⟨_, -, hs⟩ := Option.bind_eq_some.mp hs
    obtain ⟨h', ht⟩ := Sys.stepHandler_handlers hs
    have hij : i ≠ j := fun hij => hi h (hij ▸ hj) hst
    rw [ht, List.getElem?_set_ne hij, hj]
  · simp only [Sys.step] at hs
    split at hs
    · rename_i n hi
      cases hs
      have hij : i ≠ j := by
        rintro rfl
        rw [hi] at hj
        cases hj
        cases hst
      simp [List.getElem?_set_ne hij, hj]
    · cases hs
  · obtain ⟨c, -, hs⟩ := Option.bind_eq_some.mp hs
    rw [(Sys.stepClose_frame hs).2, hj]

/-- While a `Close` call has not finished, a step of a handler that registered, or of a `Close`
call, brings the goroutines closer to the end. -/
theorem Sys.progress {s : Sys} (hr : Reachable s)
    (hu : ∃ c ∈ s.closes, c ≠ .returned ∧ c ≠ .panicked) :
    ∃ a s', s.Waited a ∧ s.step a = some s' ∧ s'.toGo < s.toGo := by
  by_cases hb : ∃ h ∈ s.handlers, h.stage ≠ .start ∧ h.stage ≠ .returned
  · obtain ⟨h, hm, hs, hret⟩ := hb
    obtain ⟨i, hh⟩ := List.getElem?_of_mem hm
    obtain ⟨a, s', ha, hst, hlt⟩ := Sys.handler_moves hh hs hret
    refine ⟨a, s', ⟨i, ha.imp (fun ha => ⟨ha, fun h' hh' => ?_⟩) .inl⟩, hst, hlt⟩
    obtain rfl : h = h' := Option.some.inj (hh.symm.trans hh')
    exact hs
  push_neg at hb
  obtain ⟨hconns, hholder⟩ := hr.inv.idle hb
  obtain ⟨c, hm, hd⟩ := hu
  obtain ⟨i, hc⟩ := List.getElem?_of_mem hm
  by_cases hlock : c = .lock ∧ s.connsMu = true
  · -- `Close` call `i` waits for `connsMu`: its holder, another `Close` call, moves
    obtain ⟨d, hdm, hdl⟩ := hholder hlock.2
    obtain ⟨j, hdj⟩ := List.getElem?_of_mem hdm
    obtain ⟨h1, h2, h3⟩ := CloseStage.holdsLock_cases hdl
    obtain ⟨s', hst, hlt⟩ := Sys.close_moves hdj ⟨h1, h2⟩ (absurd · h3) fun _ => hconns
    exact ⟨.close j, s', ⟨j, .inr (.inr rfl)⟩, hst, hlt⟩
  · obtain ⟨s', hst, hlt⟩ := Sys.close_moves hc hd (fun hl => by simpa [hl] using hlock)
      fun _ => hconns
    exact ⟨.close i, s', ⟨i, .inr (.inr rfl)⟩, hst, hlt⟩

/-- `Close` can always finish once the registered handlers' request loops end: from every
reachable state, steps of the `Close` calls and of the handlers that had registered, as many as
those goroutines have statements left, bring every `Close` call to return or to panic. No step
is of `Serve`, of a new `Close` call, or of a handler at its first statement, which stays there. -/
theorem Sys.close_completes {s : Sys} (hr : Reachable s) :
    ∃ acts s', (∀ a ∈ acts, ∃ i, (a = .handler i ∧ ∀ h ∈ s.handlers[i]?, h.stage ≠ .start) ∨
        a = .finish i ∨ a = .close i) ∧ acts.length ≤ s.toGo ∧
      s.run acts = some s' ∧ ∀ c ∈ s'.closes, c = .returned ∨ c = .panicked := by
  obtain ⟨n, hn⟩ : ∃ n, s.toGo = n := ⟨_, rfl⟩
  induction n using Nat.strong_induction_on generalizing s with
  | _ n ih =>
    by_cases hu : ∃ c ∈ s.closes, c ≠ .returned ∧ c ≠ .panicked
    · obtain ⟨a, t, ha, hst, hlt⟩ := Sys.progress hr hu
      obtain ⟨acts, s', hacts, hlen, hrun, hdone⟩ := ih t.toGo (hn ▸ hlt) (.step hr hst) rfl
      -- a handler past its first statement after the step was past it before
      have hback : ∀ i : Nat, (∀ h ∈ t.handlers[i]?, h.stage ≠ .start) →
          ∀ h ∈ s.handlers[i]?, h.stage ≠ .start :=
        fun i hi h hh hs => hi h (Sys.step_keeps_start ha hst hh hs) hs
      refine ⟨a :: acts, s', fun b hb => ?_, by simp only [List.length_cons]; omega,
        by simp [Sys.run, hst, hrun], hdone⟩
      rcases List.mem_cons.mp hb with rfl | hb
      · exact ha
      · obtain ⟨i, hi⟩ := hacts b hb
        exact ⟨i, hi.imp_left fun ⟨he, hi⟩ => ⟨he, hback i hi⟩⟩
    · push_neg at hu
      refine ⟨[], s, by simp, Nat.zero_le _, rfl, fun c hc => ?_⟩
      by_cases h : c = .returned
      · exact .inl h
      · exact .inr (hu c hc h)

/-- Right after `p.Close()` is called, the call can finish. -/
theorem close_completes_closeCalled :
    let s : Sys := { Sys.init with closes := [.start] }
    Reachable s ∧ ∃ acts s', (∀ a ∈ acts, ∃ i, (a = .handler i ∧
        ∀ h ∈ s.handlers[i]?, h.stage ≠ .start) ∨ a = .finish i ∨ a = .close i) ∧
      acts.length ≤ s.toGo ∧
      s.run acts = some s' ∧ ∀ c ∈ s'.closes, c = .returned ∨ c = .panicked :=
  ⟨.step (a := .callClose) .init rfl, Sys.close_completes (.step (a := .callClose) .init rfl)⟩

end Proxy
end Martian
