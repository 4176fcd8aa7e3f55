import Martian.Proxy.Exchange

/-!
# Invariants of the whole engine

A property of a connection's state that each effect of the engine keeps is kept by every run of
`handleLoop`. The effects are listed once, as the fields of layered structures:

* `ServeEffects`: the effects of serving a parsed request up to the reply: the calls out, the
  events the engine records and nothing else, the modifier's hijack, `MarkSecure`, the resets of
  `brw`, and the writes and flushes of `brw` other than the reply to an ordinary request;
* `ServeInvariant`: those, and the reply;
* `HandleInvariant`: those, and the events of reading a request;
* `Invariant`: those, the close of the connection, and the fresh session `handleLoop` starts
  with.

From them, one lemma per function of `Martian.Proxy.Handle`, each built the way the function is,
and by induction on the fuel `HandleInvariant.handle`, `Invariant.loop` and the engine-wide
`Invariant.handleLoop`. Properties that relate what `handle` returns to the state it leaves use
`ServeEffects.serve_post`: the effects keep `P`, the reply ends in a post-condition `Q` from the
engine's own session, and `handle` re-entered as `next` meets `Q`.

A new invariant is then checked on the effects alone; `Martian.Proxy.Deadline` is one, and
`Martian.Proxy.Announce` checks two relations to what `handle` returns. The last part of this
file is another: `handleLoop_closes_on_return`, the client connection is closed only when
`handleLoop` returns, and then exactly once, last (its `defer conn.Close()`). With the exchange
of `Martian.Proxy.Exchange` it gives `handleLoop_after_hijack`: after a modifier hijacks the
session, only request-body closes follow, and then that close of the connection the modifier
now owns.
-/

namespace Martian

open Eng

/-- The events of reading a request: the read deadlines, the read, and the half-close after a
failed parse. -/
def Event.isRead : Event → Bool
  | .setReadDeadline .. | .readRequest .. | .closeWrite _ => true
  | _ => false

/-- The other events the engine records and changes nothing else: all but the reads, the
modifier's hijack, the write deadline, the writes and flushes of `brw`, its resets, and the close
of the connection. -/
def Event.isBare : Event → Bool
  | .setReadDeadline .. | .readRequest .. | .closeWrite _ | .hijack | .setWriteDeadline ..
  | .writeResponse .. | .flush .. | .resetWriter _ | .resetReader _ | .close _ => false
  | _ => true

/-- What a property `P` asks of the effects of serving a parsed request, up to the reply to an
ordinary request. -/
structure ServeEffects (w : World) (P : St → Prop) : Prop where
  /-- A call out moves only the count of calls. -/
  tick : ∀ s t, P s → P { s with tick := t }
  record : ∀ e, e.isBare → ∀ s, P s → P { s with trace := s.trace ++ [e] }
  hijack : Keeps P hijack
  markSecure : Keeps P markSecure
  resetReader : ∀ r, Keeps P (resetReader r)
  resetWriter : ∀ c, Keeps P (resetWriter c)
  /-- Every write of a response but the reply to an ordinary request. -/
  writeResponse : ∀ kind res, kind ≠ .ordinary → Keeps P (w.writeResponse kind res)
  flush : Keeps P w.flush

/-- What an invariant `P` asks of the effects of serving a parsed request. -/
structure ServeInvariant (p : Proxy) (w : World) (P : St → Prop) extends ServeEffects w P :
    Prop where
  writeReply : ∀ conn res closing, Keeps P (p.writeReply w conn res closing)

/-- What an invariant `P` asks of the effects of `handle`. -/
structure HandleInvariant (p : Proxy) (w : World) (P : St → Prop) extends ServeInvariant p w P :
    Prop where
  recordRead : ∀ e, e.isRead → ∀ s, P s → P { s with trace := s.trace ++ [e] }

/-- What an invariant `P` of the engine asks of each of its effects. -/
structure Invariant (p : Proxy) (w : World) (P : St → Prop) extends HandleInvariant p w P :
    Prop where
  close : ∀ conn s, P s → P { s with trace := s.trace ++ [.close conn] }
  start : ∀ conn s, P s →
    P { s with session := ⟨false, false⟩, reader := .conn conn, writer := conn }

section
variable {P R : St → Prop}

theorem Eng.Keeps.hijacked : Keeps P hijacked := fun _ hs => hs
theorem Eng.Keeps.isSecure : Keeps P isSecure := fun _ hs => hs
theorem Eng.Keeps.reader : Keeps P reader := fun _ hs => hs

/-- `m` keeps two properties, and so their conjunction. -/
theorem Eng.Keeps.and {α : Type} {m : Eng α} (hP : Keeps P m) (hR : Keeps R m) :
    Keeps (fun s => P s ∧ R s) m := fun s hs => by
  have h₁ := hP s hs.1
  have h₂ := hR s hs.2
  exact ⟨h₁, h₂⟩

theorem Eng.Triple.pre_fst {α : Type} {m : Eng α} {Q : Option α → St → Prop}
    (h : Triple P m Q) : Triple (fun s => P s ∧ R s) m Q := fun s hs => h s hs.1

theorem Eng.Triple.pre_prop {α : Type} {m : Eng α} {Q : Option α → St → Prop} {φ : Prop}
    (h : φ → Triple P m Q) : Triple (fun s => P s ∧ φ) m Q := fun s hs => h hs.2 s hs.1

/-- A computation returning in `R` then, for each result, one from `R` of it to `Q`. -/
theorem Eng.Triple.bind {α β : Type} {x : Eng α} {f : α → Eng β} {R' : α → St → Prop}
    {Q : Option β → St → Prop} (hx : Triple P x (Ret R')) (hf : ∀ a, Triple (R' a) (f a) Q) :
    Triple P (x >>= f) Q :=
  fun _ hs => hx.bind_of hs fun a s' h => hf a s' h

/-- `if ← hijacked then a else b`: `b` runs in the engine's own session. -/
theorem Eng.Triple.hijacked_ite {α : Type} {a b : Eng α} {Q : Option α → St → Prop}
    (ha : Triple P a Q) (hb : Triple (fun s => P s ∧ s.session.hijacked = false) b Q) :
    Triple P (hijacked >>= fun h => if h = true then a else b) Q := fun s hs => by
  simp only [wp_bind, wp_hijacked, cont_some]
  cases hh : s.session.hijacked
  · exact hb s ⟨hs, hh⟩
  · exact ha s hs

/-- `closeRequested` asks for the close whenever the response does. -/
theorem closeRequested_of_close (w : World) (hP : ∀ s t, P s → P { s with tick := t })
    (req : Request) (res : Response) :
    Triple P (closeRequested w req res) (Ret fun c s => P s ∧ (res.close = true → c = true)) := by
  intro s hs
  unfold closeRequested
  split
  · simpa using hs
  · simp_all [hP s _ hs]

end

/-! ## Serving a request -/

namespace ServeEffects

variable {p : Proxy} {w : World} {P : St → Prop} (h : ServeEffects w P)
include h

theorem ask {α : Type} (f : World → Nat → α) : Keeps P (w.ask f) := fun s hs => h.tick s _ hs

theorem emit {e : Event} (he : e.isBare) : Keeps P (emit e) := h.record e he

theorem modifyRequest (req : Request) : Keeps P (p.modifyRequest w req) :=
  (h.ask _).bind fun _ => (Keeps.ite h.hijack (.pure _)).bind fun _ => .pure _

theorem modifyResponse (res : Response) : Keeps P (p.modifyResponse w res) :=
  (h.ask _).bind fun _ => (Keeps.ite h.hijack (.pure _)).bind fun _ => .pure _

theorem roundTrip (req : Request) (skip : Bool) : Keeps P (roundTrip w req skip) :=
  (roundTrip_keeps w h.tick req skip).keeps

theorem orError (req : Request) (r : Except Error Response) : Keeps P (p.orError w req r) :=
  (orError_keeps p w h.tick req r).keeps

theorem dial (req : Request) (skip : Bool) : Keeps P (p.dial w req skip) :=
  (dial_keeps p w h.tick req skip).keeps

theorem shapeContext (conn : Conn) : Keeps P (shapeContext w conn) := by
  unfold Martian.shapeContext
  split
  · exact (h.emit (by rfl)).bind fun _ => h.ask _
  · exact .pure _

theorem tunnel (res : Response) (conn : Conn) : Keeps P (tunnel w res conn) :=
  (h.writeResponse .head res nofun).bind fun _ => .ite (.pure _) <|
    h.flush.bind fun _ => .ite (.pure _) <|
    Keeps.reader.bind fun _ => (h.emit (by rfl)).bind fun _ =>
    Keeps.get.bind fun _ => h.emit (by rfl)

theorem handleUpgradeResponse (res : Response) (conn : Conn) :
    Keeps P (handleUpgradeResponse w res conn) :=
  (Keeps.ite (h.tunnel res conn) (h.emit (by rfl))).bind fun _ => .pure _

theorem handleTunnel (conn : Conn) (req : Request) (skip : Bool) :
    Keeps P (p.handleTunnel w conn req skip) :=
  (h.dial req skip).bind fun _ => (h.orError _ _).bind fun _ => (h.modifyResponse _).bind
    fun _ => Keeps.hijacked.bind fun _ => .ite (.pure _) <|
    .ite ((h.writeResponse .connect _ nofun).bind fun _ => h.flush)
      ((h.tunnel _ conn).bind fun _ => .pure _)

/-- Reading a request, for a property that its read events keep. -/
theorem readRequest (hread : ∀ e, e.isRead → ∀ s, P s → P { s with trace := s.trace ++ [e] })
    (conn : Conn) : Keeps P (p.readRequest w conn) :=
  have hread {e : Event} (he : e.isRead) : Keeps P (Eng.emit e) := hread e he
  (h.ask _).bind fun _ => (hread (by rfl)).bind fun _ => Keeps.reader.bind fun _ =>
    Keeps.bind ((h.ask _).bind fun
      | .error _ => (hread (by rfl)).bind fun _ => (Keeps.ite (hread (by rfl)) (.pure _)).bind
          fun _ => .pure _
      | .ok _ => (h.ask _).bind fun _ => (hread (by rfl)).bind fun _ => .pure _) fun _ =>
    (Keeps.ite (hread (by rfl)) (.pure _)).bind fun _ => .pure _

/-- The engine's own session, once checked, lasts through the traffic-shaping context. -/
theorem shapeContext_own (conn : Conn) :
    Keeps (fun s => P s ∧ s.session.hijacked = false) (Martian.shapeContext w conn) :=
  (h.shapeContext conn).and fun s hs => by cases conn <;> simp [Martian.shapeContext, wp_bind, hs]

/-! The functions that end in the reply to an ordinary request, and those that re-enter
`handle` as `next`, for any post-condition `Q` that `P` implies, that every reply meets from
the engine's own session, and that `next` meets. -/

section
variable {Q : Option (Option Error) → St → Prop} (hQ : ∀ r s, P s → Q r s)
  (hreply : ∀ conn res closing, res.close = closing →
    Triple (fun s => P s ∧ s.session.hijacked = false) (p.writeReply w conn res closing) Q)
  {next : Conn → Eng (Option Error)} (hnext : ∀ c, Triple P (next c) Q)
include hQ

include hreply in
theorem handleRequest_post (conn : Conn) (req : Request) :
    Triple P (p.handleRequest w conn req) Q :=
  have hn : ∀ s, P s → Q none s := hQ none
  have hown (r : Option (Option Error)) (s : St) (hs : P s ∧ s.session.hijacked = false) :
      Q r s := hQ r s hs.1
  Keeps.isSecure.bind_triple hn fun _ => (h.modifyRequest _).bind_triple hn fun ⟨_, skip⟩ =>
    Triple.hijacked_ite ((Keeps.pure _).triple hQ) <| Triple.pre_fst <|
    (h.roundTrip _ skip).bind_triple hn fun _ => (h.orError _ _).bind_triple hn fun _ =>
    (h.modifyResponse _).bind_triple hn fun res =>
    Triple.hijacked_ite ((Keeps.pure _).triple hQ) <|
    (closeRequested_of_close w (fun s t hs => ⟨h.tick s t hs.1, hs.2⟩) _ _).bind fun closing =>
    Triple.pre_prop fun hcl => (h.shapeContext_own conn).bind_triple (hown none) fun
      | some _ => (((h.emit (by rfl)).and fun _ hs => hs).bind fun _ => .pure _).triple hown
      | none => .ite ((h.handleUpgradeResponse _ conn).triple hQ).pre_fst <|
          hreply conn _ closing (by cases closing <;> simp_all)

include hnext in
theorem handleMITM_post (conn : Conn) (req : Request) :
    Triple P (p.handleMITM w next conn req) Q :=
  have hn : ∀ s, P s → Q none s := hQ none
  (h.modifyResponse _).bind_triple hn fun _ => Keeps.hijacked.bind_triple hn fun _ =>
    .ite ((Keeps.pure _).triple hQ) <|
    (h.writeResponse .established _ nofun).bind_triple hn fun _ => h.flush.bind_triple hn fun _ =>
    (h.ask _).bind_triple hn fun ⟨_, _⟩ => Keeps.reader.bind_triple hn fun _ =>
    (h.emit (by rfl)).bind_triple hn fun _ =>
    .ite ((h.emit (by rfl)).bind_triple hn fun _ => (h.ask _).bind_triple hn fun
      | .error _ => (Keeps.pure _).triple hQ
      | .ok _ => .ite (((h.emit (by rfl)).bind fun _ => h.ask _).triple hQ)
          ((h.resetWriter _).bind_triple hn fun _ => (h.resetReader _).bind_triple hn
            fun _ => hnext _))
      ((h.resetReader _).bind_triple hn fun _ => hnext _)

include hnext in
theorem handleConnectRequest_post (conn : Conn) (req : Request) :
    Triple P (p.handleConnectRequest w next conn req) Q :=
  have hn : ∀ s, P s → Q none s := hQ none
  (h.modifyRequest req).bind_triple hn fun ⟨_, skip⟩ => Keeps.hijacked.bind_triple hn fun _ =>
    .ite ((Keeps.pure _).triple hQ) <|
    .ite (h.handleMITM_post hQ hnext conn _) ((h.handleTunnel conn _ skip).triple hQ)

include hreply hnext in
theorem serve_post (conn : Conn) (req : Request) : Triple P (p.serve w next conn req) Q :=
  (Keeps.ite h.markSecure (.pure _)).bind_triple (hQ none) fun _ =>
    .ite (h.handleConnectRequest_post hQ hnext conn _) (h.handleRequest_post hQ hreply conn _)

end

end ServeEffects

namespace ServeInvariant

variable {p : Proxy} {w : World} {P : St → Prop} (h : ServeInvariant p w P)
include h

/-- `serve`, re-entering `handle` as `next`, for any post-condition `Q` that `P` implies and
that `next` meets. -/
theorem serve_post {Q : Option (Option Error) → St → Prop} (hQ : ∀ r s, P s → Q r s)
    {next : Conn → Eng (Option Error)} (hnext : ∀ c, Triple P (next c) Q) (conn : Conn)
    (req : Request) : Triple P (p.serve w next conn req) Q :=
  h.toServeEffects.serve_post hQ
    (fun conn res closing _ => ((h.writeReply conn res closing).triple hQ).pre_fst) hnext conn req

theorem serve {next : Conn → Eng (Option Error)} (hnext : ∀ c, Keeps P (next c)) (conn : Conn)
    (req : Request) : Keeps P (p.serve w next conn req) :=
  h.serve_post (fun _ _ hs => hs) hnext conn req

end ServeInvariant

/-! ## Whole runs -/

namespace HandleInvariant

variable {p : Proxy} {w : World} {P : St → Prop} (h : HandleInvariant p w P)
include h

theorem handle (fuel : Nat) (conn : Conn) : Keeps P (p.handle w fuel conn) := by
  induction fuel generalizing conn with
  | zero => exact .stop
  | succ fuel ih =>
    exact (h.readRequest h.recordRead conn).bind fun
      | .error _ => .pure _
      | .ok _ => (h.serve ih conn _).bind fun _ => (h.emit (by rfl)).bind fun _ => .pure _

end HandleInvariant

namespace Invariant

variable {p : Proxy} {w : World} {P : St → Prop} (h : Invariant p w P)
include h

theorem loop (conn : Conn) (fuel errors : Nat) : Keeps P (p.loop w conn fuel errors) := by
  induction fuel generalizing errors with
  | zero => exact .stop
  | succ fuel ih =>
    exact (h.handle fuel conn).bind fun
      | some _ =>
        .ite (h.close conn) (Keeps.hijacked.bind fun _ => .ite (h.close conn) (ih _))
      | none => Keeps.hijacked.bind fun _ => .ite (h.close conn) (ih _)

/-- Every run of `handleLoop` keeps an invariant of the engine's effects. -/
theorem handleLoop (conn : Conn) (fuel : Nat) : Keeps P (p.handleLoop w conn fuel) :=
  (h.ask _).bind fun _ => .ite (h.close conn) <|
    (Keeps.modify (h.start conn)).bind fun _ => h.loop conn fuel 0

end Invariant

/-! ## The client connection is closed on return -/

/-- The close of a connection. -/
def Event.isClose : Event → Bool
  | .close _ => true
  | _ => false

theorem Event.isClose_of_isBare {e : Event} (he : e.isBare) : e.isClose = false := by
  cases e <;> simp_all [Event.isBare, Event.isClose]

theorem Event.isClose_of_isRead {e : Event} (he : e.isRead) : e.isClose = false := by
  cases e <;> simp_all [Event.isRead, Event.isClose]

/-- No connection closed so far. -/
def Unclosed (s : St) : Prop := ∀ e ∈ s.trace, e.isClose = false

theorem Unclosed.record {s : St} (hs : Unclosed s) (e : Event) (he : e.isClose = false) :
    Unclosed { s with trace := s.trace ++ [e] } := by
  simpa [Unclosed, or_imp, forall_and, he] using hs

/-- Where the loop leaves the connection: closed, once and last, if it returned; not closed if
the fuel ran out. -/
def ClosedOnReturn (conn : Conn) : Option Unit → St → Prop
  | some _, s => ∃ pre, s.trace = pre ++ [.close conn] ∧ ∀ e ∈ pre, e.isClose = false
  | none, s => Unclosed s

variable (p : Proxy) (w : World)

theorem unclosed_writeResponse (kind : Reply) (res : Response) :
    Keeps Unclosed (w.writeResponse kind res) :=
  fun _ hs => hs.record _ rfl

/-- `handle` closes no connection. -/
theorem unclosed_handleInvariant : HandleInvariant p w Unclosed where
  tick _ _ hs := hs
  record e he _ hs := hs.record e (Event.isClose_of_isBare he)
  hijack _ hs := hs.record .hijack rfl
  markSecure _ hs := hs
  resetReader r _ hs := hs.record (.resetReader r) rfl
  resetWriter c _ hs := hs.record (.resetWriter c) rfl
  writeResponse kind res _ := unclosed_writeResponse w kind res
  flush _ hs := hs.record _ rfl
  writeReply _ res _ :=
    (Keeps.ite (Keeps.bind (fun _ hs => hs) fun _ _ hs => hs.record _ rfl) (.pure _)).bind fun _ =>
      (unclosed_writeResponse w .ordinary res).bind fun _ =>
      Keeps.bind (fun _ hs => hs.record _ rfl) fun _ => .pure _
  recordRead e he _ hs := hs.record e (Event.isClose_of_isRead he)

theorem loop_closedOnReturn (conn : Conn) (fuel errors : Nat) :
    Triple Unclosed (p.loop w conn fuel errors) (ClosedOnReturn conn) := by
  have hclose : Triple Unclosed (emit (.close conn)) (ClosedOnReturn conn) :=
    fun s hs => ⟨s.trace, rfl, hs⟩
  have hout (s : St) (hs : Unclosed s) : ClosedOnReturn conn none s := hs
  induction fuel generalizing errors with
  | zero => exact hout
  | succ fuel ih =>
    exact ((unclosed_handleInvariant p w).handle fuel conn).bind_triple hout fun
      | some _ => .ite hclose (Keeps.hijacked.bind_triple hout fun _ => .ite hclose (ih _))
      | none => Keeps.hijacked.bind_triple hout fun _ => .ite hclose (ih _)

theorem handleLoop_closedOnReturn (conn : Conn) (fuel : Nat) :
    Triple Unclosed (p.handleLoop w conn fuel) (ClosedOnReturn conn) := by
  refine ((unclosed_handleInvariant p w).ask _).bind_triple (fun _ hs => hs) fun _ =>
    .ite (fun s hs => ⟨s.trace, rfl, hs⟩) <|
    (Keeps.modify ?_).bind_triple (fun _ hs => hs) fun _ => loop_closedOnReturn p w conn fuel 0
  exact fun _ hs => hs

/-- `defer conn.Close()`: a run of `handleLoop` closes nothing before it returns, and a run that
returned has closed its client connection, once and last. -/
theorem handleLoop_closes_on_return (conn : Conn) (fuel : Nat) :
    ∃ pre, (∀ e ∈ pre, e.isClose = false) ∧
      ((p.handleLoop w conn fuel St.init).1.isSome →
        (p.handleLoop w conn fuel St.init).2.trace = pre ++ [.close conn]) ∧
      ((p.handleLoop w conn fuel St.init).1 = none →
        (p.handleLoop w conn fuel St.init).2.trace = pre) := by
  have h := handleLoop_closedOnReturn p w conn fuel St.init fun _ => nofun
  revert h
  unfold wp
  generalize p.handleLoop w conn fuel St.init = r
  rcases r with ⟨_ | _, s⟩
  · exact fun hs => ⟨s.trace, hs, nofun, fun _ => rfl⟩
  · exact fun ⟨pre, htr, hpre⟩ => ⟨pre, hpre, fun _ => htr, nofun⟩

/-- Once a modifier hijacks the session, the run closes request bodies and nothing else, and,
when `handleLoop` returns, then closes the connection the modifier now owns, last: no read,
write, flush, deadline or half-close follows the hijack. -/
theorem handleLoop_after_hijack (conn : Conn) (fuel : Nat) (pre post : List Event)
    (h : (p.handleLoop w conn fuel St.init).2.trace = pre ++ .hijack :: post) :
    ((p.handleLoop w conn fuel St.init).1.isSome →
        ∃ k, post = List.replicate k .closeBody ++ [.close conn]) ∧
      ((p.handleLoop w conn fuel St.init).1 = none → ∃ k, post = List.replicate k .closeBody) := by
  have hclean := cleanup_after_hijack (h ▸ (handleLoop_closes p w conn fuel St.init rfl).1)
  -- the clean-up events that close no connection close request bodies
  have hbody : ∀ e ∈ post, e.isClose = false → e = .closeBody := fun e he hc => by
    rcases Event.isCleanup_iff.mp (hclean e he) with rfl | ⟨c, rfl⟩
    · rfl
    · simp [Event.isClose] at hc
  have hret := handleLoop_closedOnReturn p w conn fuel St.init fun _ => nofun
  revert h hret
  unfold wp
  generalize p.handleLoop w conn fuel St.init = r
  rcases r with ⟨_ | _, s⟩ <;> intro h hret <;> dsimp only at h hret
  · -- the fuel ran out, and nothing was closed
    exact ⟨nofun, fun _ => ⟨post.length, List.eq_replicate_iff.mpr
      ⟨rfl, fun e he => hbody e he (hret e (by simp [h, he]))⟩⟩⟩
  · obtain ⟨pre', htr, hpre'⟩ := hret
    refine ⟨fun _ => ?_, nofun⟩
    rcases List.eq_nil_or_concat' post with rfl | ⟨mid, x, rfl⟩
    · -- the last event is the close, not the hijack
      exact absurd (List.append_inj' (htr.symm.trans h) rfl).2 (by simp)
    · have h' : s.trace = (pre ++ .hijack :: mid) ++ [x] := by simp [h]
      obtain ⟨hpre, hx⟩ := List.append_inj' (htr.symm.trans h') rfl
      refine ⟨mid.length, ?_⟩
      rw [← hx, ← List.eq_replicate_iff.mpr ⟨rfl, fun e he =>
        hbody e (List.mem_append_left _ he) (hpre' e (by simp [hpre, he]))⟩]

set_option smartUnfolding false in
theorem handleLoop_after_hijack_get :
    (Proxy.plain.handleLoop World.hijackGet .socket 2 St.init).2.trace =
        [.setReadDeadline .socket none, .readRequest (.conn .socket) 1 (.parsed .get)] ++
          .hijack :: [.closeBody, .close .socket] ∧
      ((Proxy.plain.handleLoop World.hijackGet .socket 2 St.init).1.isSome →
        ∃ k, [Event.closeBody, .close .socket] = List.replicate k .closeBody ++ [.close .socket]) ∧
      ((Proxy.plain.handleLoop World.hijackGet .socket 2 St.init).1 = none →
        ∃ k, [Event.closeBody, .close .socket] = List.replicate k .closeBody) :=
  ⟨rfl, handleLoop_after_hijack Proxy.plain World.hijackGet .socket 2
    [.setReadDeadline .socket none, .readRequest (.conn .socket) 1 (.parsed .get)]
    [.closeBody, .close .socket] rfl⟩

set_option smartUnfolding false in
/-- The run of `handleLoop` when the request modifier hijacks a `GET`: the request body is
closed, and the connection the modifier now owns is closed by the deferred `conn.Close()`. -/
theorem handleLoop_closes_hijacked :
    (Proxy.plain.handleLoop World.hijackGet .socket 2 St.init).2.trace =
      [.setReadDeadline .socket none, .readRequest (.conn .socket) 1 (.parsed .get), .hijack,
        .closeBody, .close .socket] := rfl

end Martian
