import Martian.Proxy.Handle

/-!
# One response per request

The exchange between the engine and its client, as an automaton over the engine's trace. A
parsed request makes the exchange `pending`. The response written to it makes it `answered`;
`handle` giving it up without one makes it `skipped`. Reading the next request is allowed only
between requests: from `idle`, `answered` or `skipped`. A hijack releases the connection, after
which only the deferred clean-up (`closeBody`, `close`) may follow. A request parsed after
`Close` began is `dropped`, after which nothing is read or written. Any other move breaks the
exchange.

`handle` gives a request up only where the code returns without a response: the error of the
traffic-shaping `httputil.DumpResponse`, and a `101` response whose body is not an
`io.ReadWriteCloser` (the `unanswered` event of `Martian.Proxy.Handle`).

`handleLoop_exchange` proves that no run of `handleLoop` breaks the exchange, and that a run that
returns leaves no request pending. The proof is one specification per function of
`Martian.Proxy.Handle`, each a `Triple` over the automaton's state and the session. The runs of
`handleLoop_leaves_requests_unanswered` show what the exchange allows: a request given up, a
request dropped after `Close`, and responses written after `readRequest` half-closed the
connection on a parse error, which `handleLoop` goes on from.
-/

namespace Martian

open Eng

/-- Where the client's current request stands. -/
inductive Exchange where
  /-- No request outstanding. -/
  | idle
  /-- A request parsed and not yet answered. -/
  | pending
  /-- The current request's response written. -/
  | answered
  /-- The current request given up without a response. -/
  | skipped
  /-- A request parsed after `Close` began. -/
  | dropped
  /-- The session hijacked. -/
  | released
  /-- The engine broke the exchange. -/
  | broken
  deriving DecidableEq, Repr

/-- The exchange after a read. -/
def ReadOutcome.exchange : ReadOutcome → Exchange
  | .parsed _ => .pending
  | .dropped _ => .dropped
  | .failed _ => .idle

/-- One move of the exchange. -/
def Exchange.step : Exchange → Event → Exchange
  | .broken, _ => .broken
  | .released, .closeBody => .released
  | .released, .close _ => .released
  | .released, _ => .broken
  | .idle, .readRequest _ _ out | .answered, .readRequest _ _ out
  | .skipped, .readRequest _ _ out => out.exchange
  | .pending, .writeResponse .. => .answered
  | .pending, .unanswered => .skipped
  | .pending, .hijack => .released
  | _, .readRequest .. | _, .writeResponse .. | _, .unanswered | _, .hijack => .broken
  | x, _ => x

/-- Deadlines and half-closes move no exchange but a released one. -/
theorem Exchange.step_setReadDeadline {x : Exchange} (hx : x ≠ .released) (c : Conn)
    (d : Option Int) : x.step (.setReadDeadline c d) = x := by
  cases x <;> first | rfl | exact absurd rfl hx

theorem Exchange.step_closeWrite {x : Exchange} (hx : x ≠ .released) (c : Conn) :
    x.step (.closeWrite c) = x := by
  cases x <;> first | rfl | exact absurd rfl hx

/-- Between requests: none outstanding, or the last one answered or given up. -/
def Exchange.between : Exchange → Bool
  | .idle | .answered | .skipped => true
  | _ => false

theorem Exchange.between_ne {x : Exchange} (hx : x.between = true) :
    x ≠ .broken ∧ x ≠ .pending ∧ x ≠ .released := by
  cases x <;> simp_all [between]

/-- Between requests, a read starts the next exchange. -/
theorem Exchange.step_readRequest {x : Exchange} (hx : x.between = true) (r : Reader)
    (t : Int) (out : ReadOutcome) : x.step (.readRequest r t out) = out.exchange := by
  cases x <;> first | rfl | simp [between] at hx

/-- The deferred clean-up moves no exchange. -/
@[simp] theorem Exchange.step_closeBody (x : Exchange) : x.step .closeBody = x := by
  cases x <;> rfl

@[simp] theorem Exchange.step_close (x : Exchange) (c : Conn) : x.step (.close c) = x := by
  cases x <;> rfl

/-- The exchange after a trace. -/
def exchange (tr : List Event) : Exchange := tr.foldl Exchange.step .idle

@[simp] theorem exchange_append (tr es : List Event) :
    exchange (tr ++ es) = es.foldl Exchange.step (exchange tr) :=
  List.foldl_append ..

/-! ## States of a connection -/

/-- Between requests, with the session the engine's own. -/
def Ready (s : St) : Prop := (exchange s.trace).between = true ∧ s.session.hijacked = false

/-- A request parsed and not yet answered. -/
def Pending (s : St) : Prop := exchange s.trace = .pending ∧ s.session.hijacked = false

/-- The current request answered. -/
def Answered (s : St) : Prop := exchange s.trace = .answered ∧ s.session.hijacked = false

/-- The session hijacked. -/
def Released (s : St) : Prop := exchange s.trace = .released ∧ s.session.hijacked = true

/-- Where `handle` leaves a connection: between requests, released, or having dropped a request
parsed after `Close` began and returning `errClose`; when the fuel ran out, anywhere but
broken. -/
def Settled : Option (Option Error) → St → Prop
  | none, s => exchange s.trace ≠ .broken
  | some r, s => Ready s ∨ Released s ∨
      (exchange s.trace = .dropped ∧ s.session.hijacked = false ∧ r = some .close)

theorem Answered.ready {s : St} (h : Answered s) : Ready s := ⟨by simp [h.1, Exchange.between], h.2⟩

variable (p : Proxy) (w : World)

/-! ## Writing a response -/

theorem writeResponse_answers (kind : Reply) (res : Response) :
    Triple Pending (w.writeResponse kind res) (Ret fun _ => Answered) := by
  rintro s ⟨hx, hh⟩
  simp [World.writeResponse, wp_bind, Answered, hx, hh, Exchange.step.eq_def]

theorem flush_answered : Triple Answered w.flush (Ret fun _ => Answered) := by
  rintro s ⟨hx, hh⟩
  simp [World.flush, wp_bind, Answered, hx, hh, Exchange.step.eq_def]

theorem tunnel_answers (res : Response) (conn : Conn) :
    Triple Pending (tunnel w res conn) (Ret fun _ => Answered) := by
  intro s hs
  refine (writeResponse_answers w .head res).bind_of hs fun werr s₁ hs₁ => ?_
  simp only [wp_ite, wp_bind]
  split
  · simpa using hs₁
  refine (flush_answered w).cont_of hs₁ fun ferr s₂ ⟨hx, hh⟩ => ?_
  simp only [wp_ite, wp_bind]
  split
  · simpa using And.intro hx hh
  simp [wp_bind, Answered, hx, hh, Exchange.step.eq_def]

theorem handleUpgradeResponse_ready (res : Response) (conn : Conn) :
    Triple Pending (handleUpgradeResponse w res conn) (Ret fun _ => Ready) := by
  intro s hs
  simp only [handleUpgradeResponse, wp_bind, wp_ite]
  split
  · exact (tunnel_answers w res conn).cont_of hs fun _ _ h => h.ready
  · simp [Ready, hs.1, hs.2, Exchange.step.eq_def, Exchange.between]

theorem refreshWriteDeadline_pending (conn : Conn) :
    Triple Pending (p.refreshWriteDeadline w conn) (Ret fun _ => Pending) := by
  rintro s ⟨hx, hh⟩
  unfold Proxy.refreshWriteDeadline
  split <;> simp [wp_bind, Pending, hx, hh, Exchange.step.eq_def]

theorem writeReply_answers (conn : Conn) (res : Response) (closing : Bool) :
    Triple Pending (p.writeReply w conn res closing) (Ret fun _ => Answered) := by
  intro s hs
  refine (refreshWriteDeadline_pending p w conn).bind_of hs fun _ _ h₁ => ?_
  refine (writeResponse_answers w .ordinary res).bind_of h₁ fun _ _ h₂ => ?_
  exact (flush_answered w).bind_of h₂ fun _ _ h₃ => by simpa using h₃

/-! ## Modifiers -/

theorem modifyRequest_keeps (req : Request) :
    Triple Pending (p.modifyRequest w req) (Ret fun _ s => Pending s ∨ Released s) := by
  rintro s ⟨hx, hh⟩
  simp only [Proxy.modifyRequest, wp_bind, World.wp_ask, cont_some, wp_ite]
  split <;> simp [Pending, Released, hx, hh, Exchange.step.eq_def]

theorem modifyResponse_keeps (res : Response) :
    Triple Pending (p.modifyResponse w res) (Ret fun _ s => Pending s ∨ Released s) := by
  rintro s ⟨hx, hh⟩
  simp only [Proxy.modifyResponse, wp_bind, World.wp_ask, cont_some, wp_ite]
  split <;> simp [Pending, Released, hx, hh, Exchange.step.eq_def]

/-! ## Calls that leave the exchange alone -/

section
variable {P : St → Prop} (hP : ∀ s t, P s → P { s with tick := t })
include hP

theorem roundTrip_keeps (req : Request) (skip : Bool) :
    Triple P (roundTrip w req skip) (Ret fun _ => P) := by
  intro s hs
  unfold roundTrip
  split <;> simp [wp_bind, hs, hP s _ hs]

theorem errorResponse_keeps (req : Request) (err : Error) :
    Triple P (p.errorResponse w req err) (Ret fun _ => P) := by
  intro s hs
  unfold Proxy.errorResponse
  split <;> simp [wp_bind, hs, hP s _ hs]

theorem orError_keeps (req : Request) (r : Except Error Response) :
    Triple P (p.orError w req r) (Ret fun _ => P) := by
  cases r with
  | error err => exact errorResponse_keeps p w hP req err
  | ok res => exact fun s hs => hs

theorem dial_keeps (req : Request) (skip : Bool) :
    Triple P (p.dial w req skip) (Ret fun _ => P) := by
  intro s hs
  unfold Proxy.dial
  split
  · exact (roundTrip_keeps w hP req skip).bind_of hs fun _ _ h => h
  · simpa [wp_bind] using hP s _ hs

theorem closeRequested_keeps (req : Request) (res : Response) :
    Triple P (closeRequested w req res) (Ret fun _ => P) := by
  intro s hs
  unfold closeRequested
  split <;> simp [hs, hP s _ hs]

end

theorem shapeContext_pending (conn : Conn) :
    Triple Pending (shapeContext w conn) (Ret fun _ => Pending) := by
  rintro s ⟨hx, hh⟩
  cases conn <;> simp [shapeContext, wp_bind, Pending, hx, hh, Exchange.step.eq_def]

/-! ## Answering a request -/

/-- A computation that returns between requests settles the connection. -/
theorem Eng.Triple.settled {P Q : St → Prop} {m : Eng (Option Error)}
    (h : Triple P m (Ret fun _ => Q)) (hQ : ∀ s, Q s → Ready s) : Triple P m Settled := fun _ hs =>
  h.wp_of hs fun
    | none, _, h => h.elim
    | some _, s', h => Or.inl (hQ s' h)

theorem released_settled {s : St} (hs : Released s) (r : Option Error) : Settled (some r) s :=
  Or.inr (Or.inl hs)

theorem handleRequest_settles (conn : Conn) (req : Request) :
    Triple Pending (p.handleRequest w conn req) Settled := by
  intro s hs
  simp only [Proxy.handleRequest, wp_bind, wp_isSecure, cont_some]
  refine (modifyRequest_keeps p w _).cont_of hs ?_
  rintro ⟨req, skip⟩ s₁ (hs₁ | hs₁)
  swap
  · simpa [wp_bind, hs₁.2] using released_settled hs₁ none
  simp only [wp_bind, wp_hijacked, cont_some, hs₁.2, Bool.false_eq_true, ↓reduceIte]
  refine (roundTrip_keeps w (fun _ _ h => h) _ skip).cont_of hs₁ fun r s₂ hs₂ => ?_
  refine (orError_keeps p w (fun _ _ h => h) _ r).bind_of hs₂ fun res s₃ hs₃ => ?_
  refine (modifyResponse_keeps p w res).bind_of hs₃ fun res' s₄ hs₄ => ?_
  rcases hs₄ with hs₄ | hs₄
  swap
  · simpa [wp_bind, hs₄.2] using released_settled hs₄ none
  simp only [wp_bind, wp_hijacked, cont_some, hs₄.2, Bool.false_eq_true, ↓reduceIte]
  refine (closeRequested_keeps w (fun _ _ h => h) _ _).cont_of hs₄ fun closing s₅ hs₅ => ?_
  refine (shapeContext_pending w conn).bind_of hs₅ fun dump s₆ hs₆ => ?_
  rcases dump with _ | err
  · exact wp_ite_of (fun _ => (handleUpgradeResponse_ready w _ conn).settled (fun _ h => h) s₆ hs₆)
      fun _ => (writeReply_answers p w conn _ closing).settled (fun _ h => h.ready) s₆ hs₆
  · simp [wp_bind, Settled, Ready, hs₆.1, hs₆.2, Exchange.step.eq_def, Exchange.between]

theorem handleTunnel_settles (conn : Conn) (req : Request) (skip : Bool) :
    Triple Pending (p.handleTunnel w conn req skip) Settled := by
  intro s hs
  refine (dial_keeps p w (fun _ _ h => h) req skip).bind_of hs fun r s₁ hs₁ => ?_
  refine (orError_keeps p w (fun _ _ h => h) _ r).bind_of hs₁ fun res s₂ hs₂ => ?_
  refine (modifyResponse_keeps p w res).bind_of hs₂ fun res' s₃ hs₃ => ?_
  rcases hs₃ with hs₃ | hs₃
  swap
  · simpa [wp_bind, hs₃.2] using released_settled hs₃ none
  simp only [wp_bind, wp_hijacked, cont_some, hs₃.2, Bool.false_eq_true, ↓reduceIte]
  refine wp_ite_of (fun _ => ?_) (fun _ => ?_)
  · refine (writeResponse_answers w .connect res').bind_of hs₃ fun _ s₄ hs₄ => ?_
    exact (flush_answered w).settled (fun _ h => h.ready) s₄ hs₄
  · refine (tunnel_answers w res' conn).bind_of hs₃ fun _ s₄ hs₄ => ?_
    simpa using Or.inl hs₄.ready

theorem handleMITM_settles {next : Conn → Eng (Option Error)}
    (hnext : ∀ c, Triple Ready (next c) Settled) (conn : Conn) (req : Request) :
    Triple Pending (p.handleMITM w next conn req) Settled := by
  intro s hs
  refine (modifyResponse_keeps p w _).bind_of hs fun res s₁ hs₁ => ?_
  rcases hs₁ with hs₁ | hs₁
  swap
  · simpa [wp_bind, hs₁.2] using released_settled hs₁ none
  simp only [wp_bind, wp_hijacked, cont_some, hs₁.2, Bool.false_eq_true, ↓reduceIte]
  refine (writeResponse_answers w .established res).cont_of hs₁ fun _ s₂ hs₂ => ?_
  refine (flush_answered w).bind_of hs₂ fun _ s₃ ⟨hx, hh⟩ => ?_
  simp only [wp_bind, World.wp_ask, cont_some, wp_reader, wp_emit]
  refine wp_ite_of (fun _ => ?_) (fun _ => ?_)
  · simp only [wp_bind, wp_emit, World.wp_ask, cont_some]
    split
    · simp [Settled, Ready, hx, hh, Exchange.step.eq_def, Exchange.between]
    · split
      · simp [wp_bind, Settled, Ready, hx, hh, Exchange.step.eq_def, Exchange.between]
      · simp only [wp_bind, wp_resetWriter, wp_resetReader, cont_some]
        exact hnext _ _ ⟨by simp [hx, Exchange.step.eq_def, Exchange.between], hh⟩
  · simp only [wp_bind, wp_resetReader, cont_some]
    exact hnext _ _ ⟨by simp [hx, Exchange.step.eq_def, Exchange.between], hh⟩

theorem markSecure_pending (c : Bool) :
    Triple Pending (if c then markSecure else pure ()) (Ret fun _ => Pending) := fun _ hs => by
  split <;> exact hs

theorem handleConnectRequest_settles {next : Conn → Eng (Option Error)}
    (hnext : ∀ c, Triple Ready (next c) Settled) (conn : Conn) (req : Request) :
    Triple Pending (p.handleConnectRequest w next conn req) Settled := by
  intro s hs
  refine (modifyRequest_keeps p w req).bind_of hs ?_
  rintro ⟨req, skip⟩ s₁ (hs₁ | hs₁)
  · simp only [wp_bind, wp_hijacked, cont_some, hs₁.2, Bool.false_eq_true, ↓reduceIte]
    exact wp_ite_of (fun _ => handleMITM_settles p w hnext conn req s₁ hs₁)
      fun _ => handleTunnel_settles p w conn req skip s₁ hs₁
  · simpa [wp_bind, hs₁.2] using released_settled hs₁ none

theorem serve_settles {next : Conn → Eng (Option Error)}
    (hnext : ∀ c, Triple Ready (next c) Settled) (conn : Conn) (req : Request) :
    Triple Pending (p.serve w next conn req) Settled := by
  intro s hs
  refine (markSecure_pending _).bind_of hs fun _ s₁ hs₁ => ?_
  exact wp_ite_of (fun _ => handleConnectRequest_settles p w hnext conn _ s₁ hs₁)
    fun _ => handleRequest_settles p w conn _ s₁ hs₁

theorem readRequest_reads (conn : Conn) :
    Triple Ready (p.readRequest w conn) (Ret fun r s => match r with
      | .ok _ => Pending s
      | .error err => Ready s ∨
          exchange s.trace = .dropped ∧ s.session.hijacked = false ∧ err = .close) := by
  rintro s ⟨hx, hh⟩
  have hnr : exchange s.trace ≠ .released := (Exchange.between_ne hx).2.2
  simp only [Proxy.readRequest, wp_bind, World.wp_ask, cont_some, wp_emit, wp_reader]
  split <;> simp only [wp_bind, wp_ite, World.wp_ask, cont_some] <;> split <;>
    simp [wp_bind, wp_ite, Ready, Pending, hh, ReadOutcome.exchange, Exchange.step_readRequest hx,
      Exchange.step_setReadDeadline hnr, Exchange.step_setReadDeadline, Exchange.step_closeWrite,
      Exchange.between]

theorem Settled.closeBody {r : Option Error} {s : St} (h : Settled (some r) s) :
    Settled (some r) { s with trace := s.trace ++ [.closeBody] } := by
  simpa [Settled, Ready, Released] using h

theorem handle_settles (fuel : Nat) (conn : Conn) :
    Triple Ready (p.handle w fuel conn) Settled := by
  induction fuel generalizing conn with
  | zero =>
    rintro s ⟨hx, -⟩
    simpa [Proxy.handle, Settled] using (Exchange.between_ne hx).1
  | succ fuel ih =>
    intro s hs
    refine (readRequest_reads p w conn).bind_of hs ?_
    rintro (err | req) s₁ hs₁
    · rcases hs₁ with h | ⟨hx, hh, rfl⟩
      exacts [.inl h, .inr (.inr ⟨hx, hh, rfl⟩)]
    · rw [wp_bind]
      refine (serve_settles p w (fun c => ih c) conn req).wp_of hs₁ ?_
      rintro (_ | out) s₂ h
      · exact h
      · simpa using h.closeBody

/-- What a run of `loop` leaves: the exchange not broken, and, when the run returned, no request
pending. -/
def Closed (r : Option Unit) (s : St) : Prop :=
  exchange s.trace ≠ .broken ∧ (r.isSome → exchange s.trace ≠ .pending)

theorem Settled.ready {r : Option Error} {s : St} (h : Settled (some r) s)
    (hh : s.session.hijacked = false) (hr : r ≠ some .close) : Ready s := by
  rcases h with h | ⟨-, h⟩ | ⟨-, -, h⟩
  exacts [h, by simp [h] at hh, (hr h).elim]

theorem Settled.close {r : Option Error} {s : St} (h : Settled (some r) s) (c : Conn) :
    Closed (some ()) { s with trace := s.trace ++ [.close c] } := by
  rcases h with ⟨hx, -⟩ | ⟨hx, -⟩ | ⟨hx, -⟩
  · simpa [Closed] using And.intro (Exchange.between_ne hx).1 (Exchange.between_ne hx).2.1
  all_goals simp [Closed, hx]

theorem loop_closes (conn : Conn) (fuel errors : Nat) :
    Triple Ready (p.loop w conn fuel errors) Closed := by
  induction fuel generalizing errors with
  | zero =>
    rintro s ⟨hx, -⟩
    simpa [Proxy.loop, Closed] using (Exchange.between_ne hx).1
  | succ fuel ih =>
    intro s hs
    rw [Proxy.loop, wp_bind]
    refine (handle_settles p w fuel conn).wp_of hs ?_
    rintro (_ | r) s₁ h
    · exact ⟨h, by simp⟩
    have hc : wp (emit (.close conn)) Closed s₁ := by simpa using h.close conn
    simp only [cont_some]
    rcases r with _ | err
    · simp only [wp_bind, wp_hijacked, cont_some]
      exact wp_ite_of (fun _ => hc) fun hh => ih 0 s₁ (h.ready (by simpa using hh) nofun)
    · refine wp_ite_of (fun _ => hc) fun hne => ?_
      simp only [wp_bind, wp_hijacked, cont_some]
      refine wp_ite_of (fun _ => hc) fun hh => ih _ s₁ (h.ready (by simpa using hh) ?_)
      rintro ⟨⟩
      exact hne (.inl rfl)

theorem handleLoop_closes (conn : Conn) (fuel : Nat) :
    Triple (fun s => exchange s.trace = .idle) (p.handleLoop w conn fuel) Closed := by
  intro s hs
  simp only [Proxy.handleLoop, wp_bind, World.wp_ask, cont_some]
  refine wp_ite_of (fun _ => by simp [Closed, hs, Exchange.step.eq_def]) fun _ => ?_
  simp only [wp_bind, wp_modify, cont_some]
  exact loop_closes p w conn fuel 0 _ ⟨by simp [hs, Exchange.between], rfl⟩

/-! ## Whole runs -/

@[simp] theorem Exchange.step_broken (e : Event) : Exchange.step .broken e = .broken := by
  cases e <;> rfl

theorem foldl_step_broken (es : List Event) : es.foldl Exchange.step .broken = .broken := by
  induction es with
  | nil => rfl
  | cons e es ih => simpa using ih

/-- The clean-up a hijack leaves to the engine: `req.Body.Close()` and `conn.Close()`. -/
def Event.isCleanup : Event → Bool
  | .closeBody | .close _ => true
  | _ => false

theorem Event.isCleanup_iff {e : Event} :
    e.isCleanup = true ↔ e = .closeBody ∨ ∃ c, e = .close c := by
  cases e <;> simp [isCleanup]

theorem Exchange.step_released (e : Event) :
    Exchange.step .released e = if e.isCleanup then .released else .broken := by
  cases e <;> rfl

theorem Exchange.step_hijack (x : Exchange) :
    x.step .hijack = if x = .pending then .released else .broken := by
  cases x <;> rfl

theorem foldl_step_released {es : List Event} (h : es.foldl Exchange.step .released ≠ .broken) :
    ∀ e ∈ es, e.isCleanup := by
  induction es with
  | nil => simp
  | cons e es ih =>
    rw [List.foldl_cons, Exchange.step_released] at h
    split at h
    · exact List.forall_mem_cons.mpr ⟨‹_›, ih h⟩
    · exact absurd (foldl_step_broken es) h

/-- Once the session is hijacked, an unbroken exchange sees nothing but clean-up. -/
theorem cleanup_after_hijack {pre post : List Event}
    (h : exchange (pre ++ .hijack :: post) ≠ .broken) : ∀ e ∈ post, e.isCleanup := by
  rw [exchange_append, List.foldl_cons, Exchange.step_hijack] at h
  split at h
  · exact foldl_step_released h
  · exact absurd (foldl_step_broken post) h

/-- After a modifier hijacks the session, `handleLoop` only closes the request body and the
connection. -/
theorem handleLoop_hijack_cleanup (conn : Conn) (fuel : Nat) (pre post : List Event)
    (h : (p.handleLoop w conn fuel St.init).2.trace = pre ++ .hijack :: post) :
    ∀ e ∈ post, e = .closeBody ∨ ∃ c, e = .close c := fun e he =>
  Event.isCleanup_iff.mp
    (cleanup_after_hijack (h ▸ (handleLoop_closes p w conn fuel St.init rfl).1) e he)

/-- A client whose request a modifier hijacks. -/
def World.hijackGet : World :=
  { World.plain with
    readRequest := fun k => if k = 2 then .ok .get else .error .eof
    modifyRequest := fun _ req => ⟨req, none, true, false⟩ }

set_option smartUnfolding false in
theorem handleLoop_hijack_cleanup_get :
    (Proxy.plain.handleLoop World.hijackGet .socket 2 St.init).2.trace =
        [.setReadDeadline .socket none, .readRequest (.conn .socket) 1 (.parsed .get)] ++
          .hijack :: [.closeBody, .close .socket] ∧
      ∀ e ∈ [Event.closeBody, .close .socket], e = .closeBody ∨ ∃ c, e = .close c :=
  ⟨rfl, handleLoop_hijack_cleanup Proxy.plain World.hijackGet .socket 2
    [.setReadDeadline .socket none, .readRequest (.conn .socket) 1 (.parsed .get)]
    [.closeBody, .close .socket] rfl⟩

end Martian
