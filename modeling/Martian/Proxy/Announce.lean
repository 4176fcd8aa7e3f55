import Martian.Proxy.Invariant

/-!
# Announced closes

After its reply to an ordinary request, `handle` closes the connection when the request is older
than HTTP/1.1, either side sent `Connection: close`, the proxy is shutting down, the write or the
flush failed, or `CloseAfterReply` is set. In the first three cases it sets `res.Close` before the
write, so that the reply carries `Connection: close`. Two monitors follow this along the trace.
`Announce`: an ordinary reply written and flushed without error and without `Connection: close`
leaves the connection `keepAlive`, and a close from there is `unannounced`. `Honour`: a reply
with `Connection: close` makes the connection `closing`, and a read from there breaks it.

Both are proved through `Martian.Proxy.Invariant`: each monitor's resting state is kept by every
effect of serving a request, and the reply ends in a post-condition that ties the monitor to what
`handle` returns.

* `handleLoop_announces`: without `CloseAfterReply`, no run of `handleLoop` closes the connection
  unannounced;
* `handleLoop_close_announced`: the same on the trace: the complete reply before a close carried
  `Connection: close`;
* `handleLoop_no_read_after_close`: conversely, after a reply with `Connection: close`, no run of
  `handleLoop` reads another request.
-/

namespace Martian

open Eng

/-- What the client was told about the connection by the last reply. -/
inductive Announce where
  /-- No reply completed since the last request was read, or the last one did not keep the
  connection alive. -/
  | quiet
  /-- An ordinary reply written without error, with `Connection: close` when `close`, and not
  yet flushed. -/
  | written (close : Bool)
  /-- An ordinary reply written and flushed without error and without `Connection: close`. -/
  | keepAlive
  /-- The connection closed after a keep-alive reply. -/
  | unannounced
  deriving DecidableEq, Repr

/-- One move of `Announce`. -/
def Announce.step : Announce → Event → Announce
  | .unannounced, _ => .unannounced
  | _, .readRequest .. => .quiet
  | _, .writeResponse _ kind res _ err =>
    if kind = .ordinary ∧ err.isNone then .written res.close else .quiet
  | .written close, .flush _ _ err => if !close ∧ err.isNone then .keepAlive else .quiet
  | .keepAlive, .close _ => .unannounced
  | x, _ => x

/-- `Announce` after a trace. -/
def announce (tr : List Event) : Announce := tr.foldl Announce.step .quiet

@[simp] theorem announce_append (tr es : List Event) :
    announce (tr ++ es) = es.foldl Announce.step (announce tr) :=
  List.foldl_append ..

/-- The events `Announce` follows: reads, writes, flushes and closes. -/
def Event.movesAnnounce : Event → Bool
  | .readRequest .. | .writeResponse .. | .flush .. | .close _ => true
  | _ => false

namespace Announce

@[simp] theorem step_unannounced (e : Event) : step .unannounced e = .unannounced := by
  cases e <;> rfl

theorem foldl_step_unannounced (es : List Event) :
    es.foldl step .unannounced = .unannounced := by
  induction es with
  | nil => rfl
  | cons e es ih => simpa using ih

@[simp] theorem step_of_movesAnnounce {x : Announce} {e : Event} (he : e.movesAnnounce = false) :
    x.step e = x := by
  cases x <;> cases e <;> first | rfl | simp [Event.movesAnnounce] at he

@[simp] theorem step_readRequest {x : Announce} (hx : x ≠ .unannounced) (r : Reader) (t : Int)
    (out : ReadOutcome) : x.step (.readRequest r t out) = .quiet := by
  cases x <;> simp_all [step]

@[simp] theorem step_writeResponse {x : Announce} (hx : x ≠ .unannounced) (c : Conn)
    (kind : Reply) (res : Response) (d : Option Int) (err : Option Error) :
    x.step (.writeResponse c kind res d err) =
      if kind = .ordinary ∧ err.isNone then .written res.close else .quiet := by
  cases x <;> simp_all [step]

@[simp] theorem step_quiet_flush (c : Conn) (d : Option Int) (err : Option Error) :
    step .quiet (.flush c d err) = .quiet := rfl

theorem step_close {x : Announce} (hx : x ≠ .keepAlive) (c : Conn) : x.step (.close c) = x := by
  cases x <;> simp_all [step]

/-- Events `Announce` does not follow leave it where it is. -/
theorem foldl_step_of_movesAnnounce {es : List Event} (h : ∀ e ∈ es, e.movesAnnounce = false)
    (x : Announce) : es.foldl step x = x := by
  induction es with
  | nil => rfl
  | cons e es ih =>
    rw [List.forall_mem_cons] at h
    rw [List.foldl_cons, step_of_movesAnnounce h.1, ih h.2]

end Announce

/-! ## States of a connection -/

/-- Not closed unannounced, and a keep-alive reply only in the engine's own session. -/
def Open (s : St) : Prop :=
  announce s.trace ≠ .unannounced ∧ (announce s.trace = .keepAlive → s.session.hijacked = false)

/-- No keep-alive reply since the last request was read. -/
def Quiet (s : St) : Prop := announce s.trace = .quiet

/-- Where `handle` leaves a connection: open, and after a keep-alive reply, returning no
error. -/
def Kept : Option (Option Error) → St → Prop
  | none, s => Open s
  | some r, s => Open s ∧ (announce s.trace = .keepAlive → r = none)

theorem Quiet.kept {s : St} (h : Quiet s) (r : Option (Option Error)) : Kept r s := by
  cases r <;> simp_all [Kept, Open, Quiet]

theorem Quiet.open {s : St} (h : Quiet s) : Open s := h.kept none

theorem Quiet.ne_unannounced {s : St} (h : Quiet s) : announce s.trace ≠ .unannounced :=
  h.open.1

/-- Closing the connection keeps it open unless a keep-alive reply came last. -/
theorem Open.close {s : St} (hs : Open s) (hk : announce s.trace ≠ .keepAlive) (c : Conn) :
    wp (emit (.close c)) (fun _ => Open) s := by
  simpa [Open, Announce.step_close hk] using hs

theorem Kept.closeBody {r : Option (Option Error)} {s : St} (h : Kept r s) :
    Kept r { s with trace := s.trace ++ [.closeBody] } := by
  cases r <;> simpa [Kept, Open, Event.movesAnnounce] using h

variable (p : Proxy) (w : World)

/-! ## Before the reply -/

theorem readRequest_quiets (conn : Conn) :
    Triple (fun s => announce s.trace ≠ .unannounced) (p.readRequest w conn)
      (Ret fun _ => Quiet) := by
  intro s hx
  simp only [Proxy.readRequest, wp_bind, World.wp_ask, cont_some, wp_emit, wp_reader]
  split <;> simp only [wp_bind, wp_ite, World.wp_ask, cont_some] <;>
    split <;> simp [wp_bind, wp_ite, Quiet, hx, Event.movesAnnounce]

/-- Every effect of serving a request before the reply keeps the connection quiet. -/
theorem quiet_serveEffects : ServeEffects w Quiet where
  tick _ _ hs := hs
  record e he _ hs := by
    simpa [Quiet, Announce.step_of_movesAnnounce (by cases e <;> simp_all [Event.isBare,
      Event.movesAnnounce] : e.movesAnnounce = false)] using hs
  hijack _ hs := by simpa [Quiet, Event.movesAnnounce] using hs
  markSecure _ hs := hs
  resetReader _ _ hs := by simpa [Quiet, Event.movesAnnounce] using hs
  resetWriter _ _ hs := by simpa [Quiet, Event.movesAnnounce] using hs
  writeResponse _ _ hk _ hs := by simp_all [World.writeResponse, wp_bind, Quiet]
  flush _ hs := by simp_all [World.flush, wp_bind, Quiet]

/-! ## The reply -/

theorem refreshWriteDeadline_open (conn : Conn) :
    Triple (fun s => announce s.trace ≠ .unannounced ∧ s.session.hijacked = false)
      (p.refreshWriteDeadline w conn)
      (Ret fun _ s => announce s.trace ≠ .unannounced ∧ s.session.hijacked = false) := by
  rintro s ⟨hx, hh⟩
  unfold Proxy.refreshWriteDeadline
  split <;> simp [wp_bind, hx, hh, Event.movesAnnounce]

/-- Without `CloseAfterReply`, a reply that keeps the connection alive is followed by no error:
the close decision is `res.Close` itself unless the write or the flush failed. -/
theorem writeReply_kept (hc : p.closeAfterReply = false) (conn : Conn) {res : Response}
    {closing : Bool} (hres : res.close = closing) :
    Triple (fun s => announce s.trace ≠ .unannounced ∧ s.session.hijacked = false)
      (p.writeReply w conn res closing) Kept := by
  intro s hs
  refine (refreshWriteDeadline_open p w conn).bind_of hs fun _ s₁ ⟨hx, hh⟩ => ?_
  simp only [World.writeResponse, World.flush, wp_bind, World.wp_ask, cont_some, wp_get, wp_emit,
    wp_pure]
  generalize w.writeError s₁.tick = werr
  generalize w.flushError (s₁.tick + 1) = ferr
  subst hres
  cases werr <;> cases ferr <;> cases hcl : res.close <;>
    simp [Kept, Open, hx, hh, hc, hcl, Announce.step]

/-! ## Whole runs -/

section
variable (hc : p.closeAfterReply = false)
include hc

theorem handle_kept (fuel : Nat) (conn : Conn) : Triple Open (p.handle w fuel conn) Kept := by
  induction fuel generalizing conn with
  | zero => exact fun _ hs => hs
  | succ fuel ih =>
    intro s hs
    refine (readRequest_quiets p w conn).bind_of hs.1 ?_
    rintro (err | req) s₁ hs₁
    · exact hs₁.kept _
    · rw [wp_bind]
      refine ((quiet_serveEffects w).serve_post (fun r _ h => h.kept r)
        (fun conn _ _ hres s h => writeReply_kept p w hc conn hres s ⟨h.1.ne_unannounced, h.2⟩)
        (fun c s h => ih c s h.open) conn req).wp_of hs₁ ?_
      rintro (_ | out) s₂ h
      · exact h
      · simpa using h.closeBody

theorem loop_open (conn : Conn) (fuel errors : Nat) :
    Triple Open (p.loop w conn fuel errors) fun _ => Open := by
  induction fuel generalizing errors with
  | zero => exact fun _ hs => hs
  | succ fuel ih =>
    intro s hs
    rw [Proxy.loop, wp_bind]
    refine (handle_kept p w hc fuel conn).wp_of hs ?_
    rintro (_ | r) s₁ h
    · exact h
    simp only [cont_some]
    rcases r with _ | err
    · simp only [wp_bind, wp_hijacked, cont_some]
      exact wp_ite_of (fun hh => h.1.close (fun hk => by simp [h.1.2 hk] at hh) conn)
        fun _ => ih 0 s₁ h.1
    · have hk : announce s₁.trace ≠ .keepAlive := fun hk => nomatch h.2 hk
      refine wp_ite_of (fun _ => h.1.close hk conn) fun _ => ?_
      simp only [wp_bind, wp_hijacked, cont_some]
      exact wp_ite_of (fun _ => h.1.close hk conn) fun _ => ih _ s₁ h.1

theorem handleLoop_open (conn : Conn) (fuel : Nat) :
    Triple Quiet (p.handleLoop w conn fuel) fun _ => Open := by
  intro s hs
  simp only [Proxy.handleLoop, wp_bind, World.wp_ask, cont_some]
  refine wp_ite_of (fun _ => hs.open.close (by simp_all [Quiet]) conn) fun _ => ?_
  simp only [wp_bind, wp_modify, cont_some]
  exact loop_open p w hc conn fuel 0 _ (by simpa [Open] using hs.open.1)

/-- Without `CloseAfterReply`, no run of `handleLoop` closes the connection after a keep-alive
reply. -/
theorem handleLoop_announces (conn : Conn) (fuel : Nat) :
    announce (p.handleLoop w conn fuel St.init).2.trace ≠ .unannounced :=
  (handleLoop_open p w hc conn fuel St.init rfl).1

end

/-- Without `CloseAfterReply`, when a run of `handleLoop` closes the connection after an ordinary
reply that was written and flushed without error, with nothing read or written in between, the
reply carried `Connection: close`. -/
theorem handleLoop_close_announced (hc : p.closeAfterReply = false) (conn : Conn) (fuel : Nat)
    {pre mid post : List Event} {c c' c'' : Conn} {res : Response} {d d' : Option Int}
    (h : (p.handleLoop w conn fuel St.init).2.trace =
      pre ++ .writeResponse c .ordinary res d none :: .flush c' d' none :: mid ++
        .close c'' :: post)
    (hmid : ∀ e ∈ mid, e.movesAnnounce = false) : res.close = true := by
  have hne := handleLoop_announces p w hc conn fuel
  rw [h] at hne
  by_contra hres
  rw [Bool.not_eq_true] at hres
  apply hne
  by_cases hx : announce pre = .unannounced
  · simp [hx, Announce.foldl_step_unannounced]
  · simp [hx, hres, Announce.step, Announce.foldl_step_of_movesAnnounce hmid,
      Announce.foldl_step_unannounced]

/-- A client that sends one `GET` with `Connection: close`. -/
def World.getClose : World :=
  { World.plain with
    readRequest := fun k => if k = 2 then .ok { Request.get with close := true } else .error .eof }

set_option smartUnfolding false in
theorem handleLoop_close_announced_getClose :
    Proxy.plain.closeAfterReply = false ∧
      (Proxy.plain.handleLoop World.getClose .socket 3 St.init).2.trace =
        [.setReadDeadline .socket none,
          .readRequest (.conn .socket) 1 (.parsed { Request.get with close := true })] ++
          .writeResponse .socket .ordinary ⟨200, true, "", false, []⟩ none none ::
          .flush .socket none none :: [.closeBody] ++ .close .socket :: [] ∧
      (∀ e ∈ [Event.closeBody], e.movesAnnounce = false) ∧
      (⟨200, true, "", false, []⟩ : Response).close = true :=
  by
  refine ⟨rfl, ?h, by decide, handleLoop_close_announced _ _ rfl .socket 3 ?h (by decide)⟩
  rfl

/-! ## Announced closes are honoured -/

/-- Whether the client was told that the connection closes, and whether a request was read
after that. -/
inductive Honour where
  /-- No reply with `Connection: close` written. -/
  | serving
  /-- A reply to an ordinary request written with `Connection: close`. -/
  | closing
  /-- A request read after it. -/
  | broken
  deriving DecidableEq, Repr

/-- One move of `Honour`. -/
def Honour.step : Honour → Event → Honour
  | .serving, .writeResponse _ kind res _ _ =>
    if kind = .ordinary ∧ res.close then .closing else .serving
  | .closing, .readRequest .. => .broken
  | x, _ => x

/-- `Honour` after a trace. -/
def honour (tr : List Event) : Honour := tr.foldl Honour.step .serving

@[simp] theorem honour_append (tr es : List Event) :
    honour (tr ++ es) = es.foldl Honour.step (honour tr) :=
  List.foldl_append ..

namespace Honour

@[simp] theorem step_broken (e : Event) : step .broken e = .broken := by
  cases e <;> rfl

theorem foldl_step_broken (es : List Event) : es.foldl step .broken = .broken := by
  induction es with
  | nil => rfl
  | cons e es ih => simpa using ih

theorem step_of_isBare {x : Honour} {e : Event} (he : e.isBare) : x.step e = x := by
  cases x <;> cases e <;> first | rfl | simp [Event.isBare] at he

/-- From `closing`, any read breaks the connection's promise. -/
theorem foldl_step_closing {es : List Event} {r : Reader} {t : Int} {out : ReadOutcome}
    (h : .readRequest r t out ∈ es) : es.foldl step .closing = .broken := by
  induction es with
  | nil => cases h
  | cons e es ih =>
    rw [List.foldl_cons]
    by_cases he : e = .readRequest r t out
    · subst he
      exact foldl_step_broken es
    · have hs : step .closing e = .closing ∨ step .closing e = .broken := by
        cases e <;> simp [step]
      rcases hs with hs | hs <;> rw [hs]
      · exact ih ((List.mem_cons.mp h).resolve_left (Ne.symm he))
      · exact foldl_step_broken es

end Honour

/-- No reply with `Connection: close` written yet. -/
def Serving (s : St) : Prop := honour s.trace = .serving

/-- Where `handle` leaves the connection: still serving, or told that it closes and returning
`errClose`. -/
def Honoured : Option (Option Error) → St → Prop
  | none, s => Serving s
  | some r, s => Serving s ∨ (honour s.trace = .closing ∧ r = some .close)

theorem Serving.honoured {s : St} (h : Serving s) (r : Option (Option Error)) : Honoured r s := by
  cases r <;> simp [Honoured, h]

theorem Honoured.closeBody {r : Option (Option Error)} {s : St} (h : Honoured r s) :
    Honoured r { s with trace := s.trace ++ [.closeBody] } := by
  have hb : (Event.closeBody).isBare := rfl
  cases r <;> simpa [Honoured, Serving, Honour.step_of_isBare hb] using h

/-- Every effect of serving a request before the reply keeps the connection serving. -/
theorem serving_serveEffects : ServeEffects w Serving where
  tick _ _ hs := hs
  record e he _ hs := by simpa [Serving, Honour.step_of_isBare he] using hs
  hijack _ hs := by simp_all [Serving, Honour.step]
  markSecure _ hs := hs
  resetReader _ _ hs := by simp_all [Serving, Honour.step]
  resetWriter _ _ hs := by simp_all [Serving, Honour.step]
  writeResponse _ _ hk _ hs := by simp_all [World.writeResponse, wp_bind, Serving, Honour.step]
  flush _ hs := by simp_all [World.flush, wp_bind, Serving, Honour.step]

/-- The reply carries `Connection: close` exactly when `handle` decided to close, and then
`handle` returns `errClose`. -/
theorem writeReply_honoured (conn : Conn) {res : Response} {closing : Bool}
    (hres : res.close = closing) :
    Triple (fun s => Serving s ∧ s.session.hijacked = false) (p.writeReply w conn res closing)
      Honoured := by
  rintro s ⟨hs, -⟩
  subst hres
  unfold Proxy.writeReply Proxy.refreshWriteDeadline
  simp only [Serving] at hs
  split <;> cases hcl : res.close <;>
    simp [wp_bind, World.writeResponse, World.flush, Honoured, Serving, Honour.step, hs, hcl]

theorem handle_honoured (fuel : Nat) (conn : Conn) :
    Triple Serving (p.handle w fuel conn) Honoured := by
  induction fuel generalizing conn with
  | zero => exact fun _ hs => hs
  | succ fuel ih =>
    have hread (e : Event) (he : e.isRead) (s : St) (hs : Serving s) :
        Serving { s with trace := s.trace ++ [e] } := by
      cases e <;> simp_all [Event.isRead, Serving, Honour.step]
    refine ((serving_serveEffects w).readRequest hread conn).bind_triple (fun _ hs => hs) fun
      | .error _ => (Keeps.pure _).triple fun r _ h => h.honoured r
      | .ok req => fun s hs => ?_
    rw [wp_bind]
    refine ((serving_serveEffects w).serve_post (fun r _ h => h.honoured r)
      (fun conn _ _ hres => writeReply_honoured p w conn hres) ih conn req).wp_of hs ?_
    rintro (_ | out) s₂ h
    · exact h
    · simpa using h.closeBody

theorem loop_honours (conn : Conn) (fuel errors : Nat) :
    Triple Serving (p.loop w conn fuel errors) fun _ s => honour s.trace ≠ .broken := by
  induction fuel generalizing errors with
  | zero => exact fun _ hs => by simp_all [Proxy.loop, Serving]
  | succ fuel ih =>
    intro s hs
    rw [Proxy.loop, wp_bind]
    refine (handle_honoured p w fuel conn).wp_of hs ?_
    rintro (_ | r) s₁ h
    · simp_all [Honoured, Serving]
    rcases h with h | ⟨hcl, rfl⟩
    · have hc : wp (emit (.close conn)) (fun _ s => honour s.trace ≠ .broken) s₁ := by
        simp_all [Serving, Honour.step]
      simp only [cont_some]
      rcases r with _ | err
      · simp only [wp_bind, wp_hijacked, cont_some]
        exact wp_ite_of (fun _ => hc) fun _ => ih 0 s₁ h
      · refine wp_ite_of (fun _ => hc) fun _ => ?_
        simp only [wp_bind, wp_hijacked, cont_some]
        exact wp_ite_of (fun _ => hc) fun _ => ih _ s₁ h
    · simp [isCloseable, hcl, Honour.step]

/-- No run of `handleLoop` reads a request after a reply with `Connection: close`. -/
theorem handleLoop_honours (conn : Conn) (fuel : Nat) :
    honour (p.handleLoop w conn fuel St.init).2.trace ≠ .broken := by
  have h : Triple Serving (p.handleLoop w conn fuel) fun _ s => honour s.trace ≠ .broken := by
    intro s hs
    simp only [Proxy.handleLoop, wp_bind, World.wp_ask, cont_some]
    refine wp_ite_of (fun _ => by simp_all [Serving, Honour.step]) fun _ => ?_
    simp only [wp_bind, wp_modify, cont_some]
    exact loop_honours p w conn fuel 0 _ hs
  exact h St.init rfl

/-- Once a run of `handleLoop` has written an ordinary reply with `Connection: close`, it reads
no further request from the connection. -/
theorem handleLoop_no_read_after_close (conn : Conn) (fuel : Nat) {pre post : List Event}
    {c : Conn} {res : Response} {d : Option Int} {err : Option Error}
    (h : (p.handleLoop w conn fuel St.init).2.trace =
      pre ++ .writeResponse c .ordinary res d err :: post)
    (hres : res.close = true) (r : Reader) (t : Int) (out : ReadOutcome) :
    .readRequest r t out ∉ post := fun hmem => by
  apply handleLoop_honours p w conn fuel
  rw [h, honour_append, List.foldl_cons]
  cases honour pre <;>
    simp [Honour.step, hres, Honour.foldl_step_closing hmem, Honour.foldl_step_broken]

set_option smartUnfolding false in
theorem handleLoop_no_read_after_close_getClose :
    (Proxy.plain.handleLoop World.getClose .socket 3 St.init).2.trace =
        [.setReadDeadline .socket none,
          .readRequest (.conn .socket) 1 (.parsed { Request.get with close := true })] ++
          .writeResponse .socket .ordinary ⟨200, true, "", false, []⟩ none none ::
          [.flush .socket none none, .closeBody, .close .socket] ∧
      (⟨200, true, "", false, []⟩ : Response).close = true ∧
      Event.readRequest (.conn .socket) 1 (.parsed { Request.get with close := true }) ∉
        [Event.flush .socket none none, .closeBody, .close .socket] := by
  refine ⟨?h, rfl, handleLoop_no_read_after_close _ _ .socket 3 ?h rfl _ _ _⟩
  rfl

end Martian
