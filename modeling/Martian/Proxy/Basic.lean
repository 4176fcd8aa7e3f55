import Martian.Error

/-!
# The proxy engine: connections, messages and the world

`proxy.go` serves each accepted connection in `handleLoop`, one request at a time. The engine
reads through a buffered reader/writer `brw`, calls the request and response modifiers, the
round tripper and the dialer, and writes responses back.

The model runs one connection. Its state (`St`) holds what the engine keeps for it: the session,
what `brw`'s reader and writer are bound to, the socket's write deadline, and the trace of what
the engine did on the client connection. Everything the engine asks the outside (the clock, the
parser, the modifiers, the round tripper, the dialer, the socket's writes, the TLS handshake) is
answered by a `World`: its answer to the engine's `k`-th call out. A theorem over every world is a
theorem over every client, upstream and modifier behaviour.

Non-goals:
- bytes are not modelled here: a request or response is its fields that the engine reads;
- the upstream side of a tunnel and the response bodies are not traced;
- `Proxy.Close`, `Serve` and the wait group are not part of a single connection's run.
-/

namespace Martian

/-- A connection the engine holds for one accepted socket. -/
inductive Conn where
  /-- The accepted `net.Conn`. -/
  | socket
  /-- A `*tls.Conn` over `c`. -/
  | tls (c : Conn)
  /-- A `*trafficshape.Conn` wrapping `c`. -/
  | shaped (c : Conn)
  /-- A `*peekedConn` over `c`, whose reads come from the peeked bytes first. -/
  | peeked (c : Conn)
  deriving DecidableEq, Repr

/-- Whether `handle` takes `conn` for a TLS connection: a `*tls.Conn`, or a
`*trafficshape.Conn` wrapping one. -/
def Conn.isTLS : Conn → Bool
  | .tls _ | .shaped (.tls _) => true
  | _ => false

/-- What `brw.Reader` reads from. -/
inductive Reader where
  /-- `bufio.NewReader(c)`, or `brw.Reader.Reset(c)`. -/
  | conn (c : Conn)
  /-- `brw.Reader.Reset(io.MultiReader(bytes.NewReader(b), bytes.NewReader(buf), c))`: the
  bytes `pre`, then `c`. -/
  | prefixed (pre : List UInt8) (c : Conn)
  deriving DecidableEq, Repr

/-- The connection whose bytes a reader yields. -/
def Reader.stream : Reader → Conn
  | .conn c | .prefixed _ c => c

/-- The per-connection `Session`. -/
structure Session where
  secure : Bool
  hijacked : Bool
  deriving DecidableEq, Repr

/-- An `*http.Request`, by the fields the engine reads or sets. -/
structure Request where
  method : String
  protoMajor : Nat
  protoMinor : Nat
  close : Bool
  /-- `upgradeType(req.Header)`: `""` unless the request asks for a protocol upgrade. -/
  upgrade : String
  /-- `req.URL.Scheme`. -/
  scheme : String
  /-- Whether `req.TLS` is set. -/
  tls : Bool
  /-- The errors `Warning` headers were added for. -/
  warnings : List Error
  deriving Repr

/-- `req.ProtoAtLeast(major, minor)`. -/
def Request.protoAtLeast (req : Request) (major minor : Nat) : Bool :=
  req.protoMajor > major || (req.protoMajor == major && req.protoMinor ≥ minor)

/-- An `*http.Response`, by the fields the engine reads or sets. -/
structure Response where
  statusCode : Nat
  close : Bool
  /-- `upgradeType(res.Header)`. -/
  upgrade : String
  /-- Whether `res.Body` is an `io.ReadWriteCloser`. -/
  readWriteBody : Bool
  /-- The errors `Warning` headers were added for. -/
  warnings : List Error
  deriving Repr

/-- Modelled from the spec: `proxyutil.NewResponse(code, nil, req)`, a bare response with status
`code` for `req`. -/
def newResponse (code : Nat) (_req : Request) : Response := ⟨code, false, "", false, []⟩

/-- What a modifier call did: the message it left, its error, whether it hijacked the session,
and whether it asked the context to skip the round trip. -/
structure Modified (α : Type) where
  msg : α
  err : Option Error
  hijack : Bool
  skipRoundTrip : Bool

/-- The answers of everything outside the engine, to the engine's `k`-th call out. -/
structure World where
  /-- `time.Now()`. -/
  now : Nat → Int
  /-- Whether `p.closing` is closed (`p.Closing()`, and the select in `readRequest`). -/
  closing : Nat → Bool
  /-- `http.ReadRequest(brw.Reader)`. -/
  readRequest : Nat → Except Error Request
  /-- `p.reqmod.ModifyRequest(req)`. -/
  modifyRequest : Nat → Request → Modified Request
  /-- `p.resmod.ModifyResponse(res)`. -/
  modifyResponse : Nat → Response → Modified Response
  /-- `p.roundTripper.RoundTrip(req)`. -/
  roundTrip : Nat → Request → Except Error Response
  /-- `p.ErrorResponse(req, err)`, when the hook is set. -/
  errorResponse : Nat → Request → Error → Response
  /-- `p.connect(req)`: the response and the upstream connection, or the error. -/
  connect : Nat → Request → Except Error Response
  /-- `res.Write` of a response to `brw`: its error. -/
  writeError : Nat → Option Error
  /-- `brw.Flush()`: its error. -/
  flushError : Nat → Option Error
  /-- The traffic-shaping setup's `httputil.DumpResponse` error, `none` when no shape matched or
  the dump succeeded. -/
  dumpResponse : Nat → Option Error
  /-- The MITM peek: the byte `brw.Read(b)` left in `b`, and the buffered bytes drained after it. -/
  peek : Nat → UInt8 × List UInt8
  /-- `tlsconn.Handshake()`, and the negotiated protocol when it succeeds. -/
  handshake : Nat → Except Error String
  /-- `p.mitm.H2Config().Proxy(...)`. -/
  h2 : Nat → Option Error
  /-- `asCloseWriter(conn)` succeeds. -/
  closeWriter : Conn → Bool

/-- Which response a write carries. -/
inductive Reply where
  /-- The MITM `200` to a `CONNECT`. -/
  | established
  /-- The reply to a `CONNECT` that opens no tunnel. -/
  | connect
  /-- The head `tunnel` writes before splicing. -/
  | head
  /-- `handle`'s reply to any other request. -/
  | ordinary
  deriving DecidableEq, Repr

/-- What `readRequest` made of a request. -/
inductive ReadOutcome where
  /-- Parsed and returned. -/
  | parsed (req : Request)
  /-- Parsed after `Close` began: `readRequest` returns `errClose`. -/
  | dropped (req : Request)
  /-- `http.ReadRequest` failed. -/
  | failed (err : Error)
  deriving Repr

/-- What the engine does on the client connection, in order. -/
inductive Event where
  /-- `conn.SetReadDeadline(d)`; `none` is the zero time. -/
  | setReadDeadline (c : Conn) (d : Option Int)
  /-- `http.ReadRequest(brw.Reader)` from `r`, started at time `t`. -/
  | readRequest (r : Reader) (t : Int) (out : ReadOutcome)
  /-- `CloseWrite()` on `c`. -/
  | closeWrite (c : Conn)
  /-- A modifier hijacked the session. -/
  | hijack
  /-- `conn.SetWriteDeadline(d)`. -/
  | setWriteDeadline (c : Conn) (d : Option Int)
  /-- `res.Write` into `brw.Writer` bound to `c`, under the write deadline `d`, and its error. -/
  | writeResponse (c : Conn) (kind : Reply) (res : Response) (d : Option Int) (err : Option Error)
  /-- `brw.Flush()` to `c` under the write deadline `d`, and its error. -/
  | flush (c : Conn) (d : Option Int) (err : Option Error)
  /-- The traffic-shaping context of `c` is set. -/
  | shape (c : Conn)
  /-- The MITM peek reads from `r`. -/
  | peek (r : Reader)
  /-- `tlsconn.Handshake()` on `c`. -/
  | handshake (c : Conn)
  /-- The HTTP/2 proxy takes `c`. -/
  | h2 (c : Conn)
  /-- `brw.Writer.Reset(c)`. -/
  | resetWriter (c : Conn)
  /-- `brw.Reader.Reset(r)`. -/
  | resetReader (r : Reader)
  /-- `drainBuffer` reads what `brw.Reader` (from `r`) has buffered. -/
  | drain (r : Reader)
  /-- The tunnel's two copies read from and write to `c`, under the write deadline `d`. -/
  | splice (c : Conn) (d : Option Int)
  /-- `handle` gives up a parsed request without writing a response. -/
  | unanswered
  /-- `req.Body.Close()`, which may read the rest of the body from `brw.Reader`. -/
  | closeBody
  /-- `conn.Close()`. -/
  | close (c : Conn)
  deriving Repr

/-- The engine's state for one connection. -/
structure St where
  /-- The calls out made so far: the index of the next one. -/
  tick : Nat
  session : Session
  /-- What `brw.Reader` reads from. -/
  reader : Reader
  /-- What `brw.Writer` writes to. -/
  writer : Conn
  /-- The socket's write deadline; `none` is the zero time. -/
  writeDeadline : Option Int
  trace : List Event

/-- The engine's computations: from a state, a result (`none` when the fuel ran out) and the
state after. -/
def Eng (α : Type) : Type := St → Option α × St

namespace Eng

instance : Monad Eng where
  pure a := fun s => (some a, s)
  bind x f := fun s =>
    match x s with
    | (some a, s') => f a s'
    | (none, s') => (none, s')

/-- Stop: the fuel ran out. -/
def stop {α : Type} : Eng α := fun s => (none, s)

/-- The state. -/
def get : Eng St := fun s => (some s, s)

/-- Change the state. -/
def modify (f : St → St) : Eng Unit := fun s => (some (), f s)

/-- Record `e` in the trace. -/
def emit (e : Event) : Eng Unit := modify fun s => { s with trace := s.trace ++ [e] }

@[simp] theorem pure_apply {α : Type} (a : α) (s : St) : (pure a : Eng α) s = (some a, s) := rfl

theorem bind_apply {α β : Type} (x : Eng α) (f : α → Eng β) (s : St) :
    (x >>= f) s = match x s with
      | (some a, s') => f a s'
      | (none, s') => (none, s') := rfl

@[simp] theorem stop_apply {α : Type} (s : St) : (stop : Eng α) s = (none, s) := rfl
@[simp] theorem get_apply (s : St) : get s = (some s, s) := rfl
@[simp] theorem modify_apply (f : St → St) (s : St) : modify f s = (some (), f s) := rfl
@[simp] theorem emit_apply (e : Event) (s : St) :
    emit e s = (some (), { s with trace := s.trace ++ [e] }) := rfl

/-! ## Weakest preconditions -/

/-- `m` run from `s` ends in a state satisfying `Q` of its result. -/
def wp {α : Type} (m : Eng α) (Q : Option α → St → Prop) (s : St) : Prop := Q (m s).1 (m s).2

/-- Every run of `m` from a state in `P` ends in a state in `Q` of its result, `none` when the
fuel ran out. -/
def Triple {α : Type} (P : St → Prop) (m : Eng α) (Q : Option α → St → Prop) : Prop :=
  ∀ s, P s → wp m Q s

/-- What `x >>= f` asks of the result of `x`: that `f` of it meets `Q`, or, when the fuel ran
out, `Q` of the cut. -/
def cont {α β : Type} (f : α → Eng β) (Q : Option β → St → Prop) : Option α → St → Prop
  | some a, s => wp (f a) Q s
  | none, s => Q none s

@[simp] theorem cont_some {α β : Type} (f : α → Eng β) (Q : Option β → St → Prop) (a : α)
    (s : St) : cont f Q (some a) s = wp (f a) Q s := rfl
@[simp] theorem cont_none {α β : Type} (f : α → Eng β) (Q : Option β → St → Prop) (s : St) :
    cont f Q none s = Q none s := rfl

theorem wp_bind {α β : Type} (x : Eng α) (f : α → Eng β) (Q : Option β → St → Prop) (s : St) :
    wp (x >>= f) Q s = wp x (cont f Q) s := by
  simp only [wp, bind_apply]
  rcases x s with ⟨_ | a, s'⟩ <;> rfl

@[simp] theorem wp_pure {α : Type} (a : α) (Q : Option α → St → Prop) (s : St) :
    wp (pure a) Q s = Q (some a) s := rfl
@[simp] theorem wp_stop {α : Type} (Q : Option α → St → Prop) (s : St) :
    wp stop Q s = Q none s := rfl
@[simp] theorem wp_get (Q : Option St → St → Prop) (s : St) : wp get Q s = Q (some s) s := rfl
@[simp] theorem wp_modify (f : St → St) (Q : Option Unit → St → Prop) (s : St) :
    wp (modify f) Q s = Q (some ()) (f s) := rfl
@[simp] theorem wp_emit (e : Event) (Q : Option Unit → St → Prop) (s : St) :
    wp (emit e) Q s = Q (some ()) { s with trace := s.trace ++ [e] } := rfl

theorem wp_ite {α : Type} {c : Prop} [Decidable c] (a b : Eng α) (Q : Option α → St → Prop)
    (s : St) : wp (if c then a else b) Q s = if c then wp a Q s else wp b Q s := by
  split <;> rfl

theorem wp_ite_of {α : Type} {c : Prop} [Decidable c] {a b : Eng α} {Q : Option α → St → Prop}
    {s : St} (ha : c → wp a Q s) (hb : ¬c → wp b Q s) : wp (if c then a else b) Q s := by
  split
  exacts [ha ‹_›, hb ‹_›]

/-- A run of `m` from a state in `P` meets any consequence of `Q`. -/
theorem Triple.wp_of {α : Type} {P : St → Prop} {m : Eng α} {Q Q' : Option α → St → Prop}
    (h : Triple P m Q) {s : St} (hs : P s) (hQ : ∀ r s', Q r s' → Q' r s') : wp m Q' s :=
  hQ _ _ (h s hs)

/-- The post-condition of a computation that returns: `Q` of its result. -/
def Ret {α : Type} (Q : α → St → Prop) : Option α → St → Prop
  | some a, s => Q a s
  | none, _ => False

@[simp] theorem ret_some {α : Type} (Q : α → St → Prop) (a : α) (s : St) :
    Ret Q (some a) s = Q a s := rfl
@[simp] theorem ret_none {α : Type} (Q : α → St → Prop) (s : St) : Ret Q none s = False := rfl

/-- Sequencing: a computation that returns in `Q`, then a continuation that meets `R` from
`Q`. -/
theorem Triple.cont_of {α β : Type} {P : St → Prop} {x : Eng α} {Q : α → St → Prop}
    {f : α → Eng β} {R : Option β → St → Prop} (h : Triple P x (Ret Q)) {s : St} (hs : P s)
    (hf : ∀ a s', Q a s' → wp (f a) R s') : wp x (cont f R) s := by
  refine h.wp_of hs ?_
  rintro (_ | a) s' hq
  exacts [hq.elim, hf a s' hq]

theorem Triple.bind_of {α β : Type} {P : St → Prop} {x : Eng α} {Q : α → St → Prop}
    {f : α → Eng β} {R : Option β → St → Prop} (h : Triple P x (Ret Q)) {s : St} (hs : P s)
    (hf : ∀ a s', Q a s' → wp (f a) R s') : wp (x >>= f) R s := by
  rw [wp_bind]
  exact h.cont_of hs hf

/-! ## Invariants

`Keeps P m`: `P` holds after every run of `m` from a state in `P`, also where the fuel runs out.
One lemma per way of building a computation, so that an invariant is checked on the effects
alone. -/

/-- `m` keeps `P`. -/
def Keeps {α : Type} (P : St → Prop) (m : Eng α) : Prop := Triple P m fun _ => P

section
variable {P : St → Prop}

theorem Keeps.pure {α : Type} (a : α) : Keeps P (pure a) := fun _ hs => hs

theorem Keeps.stop {α : Type} : Keeps P (stop : Eng α) := fun _ hs => hs

theorem Keeps.get : Keeps P get := fun _ hs => hs

theorem Keeps.modify {f : St → St} (h : ∀ s, P s → P (f s)) : Keeps P (modify f) := h

theorem Keeps.bind {α β : Type} {x : Eng α} {f : α → Eng β} (hx : Keeps P x)
    (hf : ∀ a, Keeps P (f a)) : Keeps P (x >>= f) := fun s hs => by
  rw [wp_bind]
  exact hx.wp_of hs fun
    | none, _, h => h
    | some a, s', h => hf a s' h

theorem Keeps.ite {α : Type} {c : Prop} [Decidable c] {a b : Eng α} (ha : Keeps P a)
    (hb : Keeps P b) : Keeps P (if c then a else b) := by
  split <;> assumption

/-- A computation that keeps `P` meets every `Q` that `P` implies. -/
theorem Keeps.triple {α : Type} {m : Eng α} {Q : Option α → St → Prop} (h : Keeps P m)
    (hQ : ∀ r s, P s → Q r s) : Triple P m Q :=
  fun _ hs => h.wp_of hs fun r s' h => hQ r s' h

/-- A computation that keeps `P`, then one that meets `Q`; `P` implies `Q` where the fuel ran
out. -/
theorem Keeps.bind_triple {α β : Type} {x : Eng α} {f : α → Eng β} {Q : Option β → St → Prop}
    (hx : Keeps P x) (hQ : ∀ s, P s → Q none s) (hf : ∀ a, Triple P (f a) Q) :
    Triple P (x >>= f) Q := fun s hs => by
  rw [wp_bind]
  exact hx.wp_of hs fun
    | none, s', h => hQ s' h
    | some a, s', h => hf a s' h

theorem Triple.ite {α : Type} {c : Prop} [Decidable c] {a b : Eng α} {Q : Option α → St → Prop}
    (ha : Triple P a Q) (hb : Triple P b Q) : Triple P (if c then a else b) Q := by
  split <;> assumption

/-- A computation that returns in `P` keeps it. -/
theorem Triple.keeps {α : Type} {m : Eng α} (h : Triple P m (Ret fun _ => P)) : Keeps P m :=
  fun _ hs => h.wp_of hs fun
    | none, _, h => h.elim
    | some _, _, h => h

end

end Eng

/-- The world's answer to the next call out. -/
def World.ask {α : Type} (w : World) (f : World → Nat → α) : Eng α :=
  fun s => (some (f w s.tick), { s with tick := s.tick + 1 })

@[simp] theorem World.ask_apply {α : Type} (w : World) (f : World → Nat → α) (s : St) :
    w.ask f s = (some (f w s.tick), { s with tick := s.tick + 1 }) := rfl

@[simp] theorem World.wp_ask {α : Type} (w : World) (f : World → Nat → α)
    (Q : Option α → St → Prop) (s : St) :
    Eng.wp (w.ask f) Q s = Q (some (f w s.tick)) { s with tick := s.tick + 1 } := rfl

end Martian
