import Martian.Proxy.Basic

/-!
# The per-connection engine

`handleLoop`, `readRequest`, `handle`, `handleConnectRequest`, `handleUpgradeResponse` and
`tunnel` of `proxy.go`, over the state and world of `Martian.Proxy.Basic`.

Go's `defer`s are written out where the function returns. `handle` and `handleConnectRequest`
call each other on a MITM'd connection; `handleConnectRequest` takes the `handle` it re-enters
as an argument, and `handle` counts down a fuel, as `loop` does for the iterations of
`handleLoop`. When the fuel runs out the run stops, so a run with fuel `n` is the first part of
the connection's run.
-/

namespace Martian

/-- `Proxy`'s configuration. -/
structure Proxy where
  allowHTTP : Bool
  connectPassthrough : Bool
  withoutWarning : Bool
  readTimeout : Int
  readHeaderTimeout : Int
  writeTimeout : Int
  closeAfterReply : Bool
  /-- Whether `p.mitm` is set. -/
  mitm : Bool
  /-- Whether `p.ErrorResponse` is set. -/
  hasErrorResponse : Bool

/-- `isCloseable(err)`. -/
def isCloseable : Error → Bool
  | .timeout _ | .eof | .closedPipe | .close => true
  | err => decide ("tls:".toList <:+: err.message.toList)

/-- `t.Add(d)` when `d > 0`, otherwise the zero time. -/
def deadline (t d : Int) : Option Int := if d > 0 then some (t + d) else none

/-- Whether a write error makes `handle` close: `*trafficshape.ErrForceClose`, or, for
`res.Write`, `io.ErrUnexpectedEOF`. -/
def Error.closesOnWrite (unexpectedEOF : Bool) : Error → Bool
  | .forceClose _ => true
  | .unexpectedEOF => unexpectedEOF
  | _ => false

namespace Eng

/-- `session.Hijacked()`. -/
def hijacked : Eng Bool := fun s => (some s.session.hijacked, s)

/-- A modifier's `session.Hijack()`. -/
def hijack : Eng Unit := do
  modify fun s => { s with session := { s.session with hijacked := true } }
  emit .hijack

/-- `session.IsSecure()`. -/
def isSecure : Eng Bool := fun s => (some s.session.secure, s)

/-- `session.MarkSecure()`. -/
def markSecure : Eng Unit := modify fun s => { s with session := { s.session with secure := true } }

/-- What `brw.Reader` reads from. -/
def reader : Eng Reader := fun s => (some s.reader, s)

/-- `brw.Reader.Reset(r)`. -/
def resetReader (r : Reader) : Eng Unit := do
  modify fun s => { s with reader := r }
  emit (.resetReader r)

/-- `brw.Writer.Reset(c)`. -/
def resetWriter (c : Conn) : Eng Unit := do
  modify fun s => { s with writer := c }
  emit (.resetWriter c)

/-- `conn.SetWriteDeadline(d)`. -/
def setWriteDeadline (c : Conn) (d : Option Int) : Eng Unit := do
  modify fun s => { s with writeDeadline := d }
  emit (.setWriteDeadline c d)

@[simp] theorem wp_hijacked (Q : Option Bool → St → Prop) (s : St) :
    wp hijacked Q s = Q (some s.session.hijacked) s := rfl
@[simp] theorem wp_hijack (Q : Option Unit → St → Prop) (s : St) :
    wp hijack Q s = Q (some ())
      { s with session := { s.session with hijacked := true }, trace := s.trace ++ [.hijack] } :=
  rfl
@[simp] theorem wp_isSecure (Q : Option Bool → St → Prop) (s : St) :
    wp isSecure Q s = Q (some s.session.secure) s := rfl
@[simp] theorem wp_markSecure (Q : Option Unit → St → Prop) (s : St) :
    wp markSecure Q s = Q (some ()) { s with session := { s.session with secure := true } } := rfl
@[simp] theorem wp_reader (Q : Option Reader → St → Prop) (s : St) :
    wp reader Q s = Q (some s.reader) s := rfl
@[simp] theorem wp_resetReader (r : Reader) (Q : Option Unit → St → Prop) (s : St) :
    wp (resetReader r) Q s =
      Q (some ()) { s with reader := r, trace := s.trace ++ [.resetReader r] } :=
  rfl
@[simp] theorem wp_resetWriter (c : Conn) (Q : Option Unit → St → Prop) (s : St) :
    wp (resetWriter c) Q s =
      Q (some ()) { s with writer := c, trace := s.trace ++ [.resetWriter c] } :=
  rfl
@[simp] theorem wp_setWriteDeadline (c : Conn) (d : Option Int) (Q : Option Unit → St → Prop)
    (s : St) : wp (setWriteDeadline c d) Q s =
      Q (some ()) { s with writeDeadline := d, trace := s.trace ++ [.setWriteDeadline c d] } := rfl

end Eng

open Eng

section
variable (p : Proxy) (w : World)

/-- `res.Write(brw)`: the response goes to `brw.Writer`, under the write deadline in force. -/
def World.writeResponse (kind : Reply) (res : Response) : Eng (Option Error) := do
  let err ← w.ask (·.writeError)
  let s ← get
  emit (.writeResponse s.writer kind res s.writeDeadline err)
  pure err

/-- `brw.Flush()`. -/
def World.flush : Eng (Option Error) := do
  let err ← w.ask (·.flushError)
  let s ← get
  emit (.flush s.writer s.writeDeadline err)
  pure err

/-- `p.readHeaderTimeout()`. -/
def Proxy.headerTimeout : Int :=
  if p.readHeaderTimeout > 0 then p.readHeaderTimeout else p.readTimeout

/-- `p.warning(h, err)`: the `Warning` headers after it. -/
def Proxy.warning (h : List Error) (err : Error) : List Error :=
  if p.withoutWarning then h else h ++ [err]

/-- The scheme `handle` gives a request: `http`, or `https` in a secure session unless
`AllowHTTP` keeps an explicit `http`. -/
def Proxy.scheme (secure : Bool) (scheme : String) : String :=
  if scheme = "" then (if secure then "https" else "http")
  else if scheme = "http" ∧ secure ∧ !p.allowHTTP then "https" else scheme

/-- `p.readRequest(ctx, conn, brw)`; a request parsed after `Close` began comes back as
`errClose`. -/
def Proxy.readRequest (conn : Conn) : Eng (Except Error Request) := do
  let t0 ← w.ask (·.now)
  let hdr := deadline t0 p.headerTimeout
  let whole := deadline t0 p.readTimeout
  emit (.setReadDeadline conn hdr)
  let src ← reader
  let out ← (do
    match ← w.ask (·.readRequest) with
    | .error err => do
      emit (.readRequest src t0 (.failed err))
      (if w.closeWriter conn then emit (.closeWrite conn) else pure ())
      pure (.error err)
    | .ok req => do
      let closing ← w.ask (·.closing)
      emit (.readRequest src t0 (if closing then .dropped req else .parsed req))
      pure (if closing then .error .close else .ok req))
  (if hdr ≠ whole then emit (.setReadDeadline conn whole) else pure ())
  pure out

/-- `p.reqmod.ModifyRequest(req)` with its warning: the request it leaves, and whether the
round trip is to be skipped. -/
def Proxy.modifyRequest (req : Request) : Eng (Request × Bool) := do
  let r := (← w.ask (·.modifyRequest)) req
  (if r.hijack then hijack else pure ())
  let req := match r.err with
    | some err => { r.msg with warnings := p.warning r.msg.warnings err }
    | none => r.msg
  pure (req, r.skipRoundTrip)

/-- `p.resmod.ModifyResponse(res)` with its warning. -/
def Proxy.modifyResponse (res : Response) : Eng Response := do
  let r := (← w.ask (·.modifyResponse)) res
  (if r.hijack then hijack else pure ())
  pure <| match r.err with
    | some err => { r.msg with warnings := p.warning r.msg.warnings err }
    | none => r.msg

/-- `p.roundTrip(ctx, req)`. -/
def roundTrip (req : Request) (skip : Bool) : Eng (Except Error Response) :=
  if skip then pure (.ok (newResponse 200 req)) else do pure ((← w.ask (·.roundTrip)) req)

/-- `p.errorResponse(req, err)`, with the warning `handle` adds to it. -/
def Proxy.errorResponse (req : Request) (err : Error) : Eng Response := do
  let res ← (if p.hasErrorResponse then do pure ((← w.ask (·.errorResponse)) req err)
    else pure (newResponse 502 req))
  pure { res with warnings := p.warning res.warnings err }

/-- The response `handle` goes on with: the upstream's, or `p.errorResponse` for its error. -/
def Proxy.orError (req : Request) : Except Error Response → Eng Response
  | .ok res => pure res
  | .error err => p.errorResponse w req err

/-- The CONNECT tunnel's upstream: `p.roundTrip` over a pipe when `ConnectPassthrough` is set,
with a `2xx` replaced by a fresh `200`, and `p.connect` otherwise. -/
def Proxy.dial (req : Request) (skip : Bool) : Eng (Except Error Response) :=
  if p.connectPassthrough then do
    pure <| (← roundTrip w req skip).map fun res =>
      if res.statusCode / 100 = 2 then newResponse 200 req else res
  else do pure ((← w.ask (·.connect)) req)

/-- `p.tunnel(name, res, brw, conn, cw, cr)`: the head and the flush, then `drainBuffer`, then
the two copies, which it waits for. Its error is only logged. -/
def tunnel (res : Response) (conn : Conn) : Eng Unit := do
  if (← w.writeResponse .head res).isSome then pure () else
  if (← w.flush).isSome then pure () else do
  emit (.drain (← reader))
  emit (.splice conn (← get).writeDeadline)

/-- `p.handleUpgradeResponse(res, brw, conn)`. -/
def handleUpgradeResponse (res : Response) (conn : Conn) : Eng (Option Error) := do
  (if res.readWriteBody then tunnel w res conn else emit .unanswered)
  pure (some .close)

/-- The MITM branch of `handleConnectRequest`, after the request modifier: the `200`, the peek,
and the re-entry into `handle` over TLS or over the prepended plaintext. -/
def Proxy.handleMITM (next : Conn → Eng (Option Error)) (conn : Conn) (req : Request) :
    Eng (Option Error) := do
  let res ← p.modifyResponse w (newResponse 200 req)
  if ← hijacked then pure none else do
  let _ ← w.writeResponse .established res
  let _ ← w.flush
  let (b, buf) ← w.ask (·.peek)
  emit (.peek (← reader))
  if b = 22 then do
    let tlsconn := Conn.tls (.peeked conn)
    emit (.handshake tlsconn)
    match ← w.ask (·.handshake) with
    | .error err => pure (some err)
    | .ok proto =>
      if proto = "h2" then do
        emit (.h2 tlsconn)
        w.ask (·.h2)
      else do
        let nconn := match conn with
          | .shaped _ => Conn.shaped tlsconn
          | _ => tlsconn
        resetWriter nconn
        resetReader (.conn nconn)
        next nconn
  else do
    resetReader (.prefixed (b :: buf) conn)
    next conn

/-- The tunnel branch of `handleConnectRequest`, after the request modifier. -/
def Proxy.handleTunnel (conn : Conn) (req : Request) (skip : Bool) : Eng (Option Error) := do
  let res ← p.orError w req (← p.dial w req skip)
  let res ← p.modifyResponse w res
  if ← hijacked then pure none else
  if res.statusCode ≠ 200 then do
    let _ ← w.writeResponse .connect res
    w.flush
  else do
    tunnel w res conn
    pure (some .close)

/-- `p.handleConnectRequest(ctx, req, session, brw, conn)`, re-entering `handle` as `next`. -/
def Proxy.handleConnectRequest (next : Conn → Eng (Option Error)) (conn : Conn)
    (req : Request) : Eng (Option Error) := do
  let (req, skip) ← p.modifyRequest w req
  if ← hijacked then pure none
  else if p.mitm then p.handleMITM w next conn req
  else p.handleTunnel w conn req skip

/-- The close decision `handle` makes before the write:
`!req.ProtoAtLeast(1, 1) || req.Close || res.Close || p.Closing()`. -/
def closeRequested (req : Request) (res : Response) : Eng Bool :=
  if !req.protoAtLeast 1 1 || req.close || res.close then pure true else w.ask (·.closing)

/-- The traffic-shaping context `handle` sets on a shaped connection, and the error of its
`httputil.DumpResponse`. -/
def shapeContext (conn : Conn) : Eng (Option Error) :=
  match conn with
  | .shaped _ => do emit (.shape conn); w.ask (·.dumpResponse)
  | _ => pure none

/-- `conn.SetWriteDeadline(time.Now().Add(p.WriteTimeout))` when `WriteTimeout > 0`. -/
def Proxy.refreshWriteDeadline (conn : Conn) : Eng Unit :=
  if p.writeTimeout > 0 then do setWriteDeadline conn (deadline (← w.ask (·.now)) p.writeTimeout)
  else pure ()

/-- The end of `handle` for a response that is not `101`: the write deadline, the write, the
flush, and the decision to close. -/
def Proxy.writeReply (conn : Conn) (res : Response) (closing : Bool) : Eng (Option Error) := do
  p.refreshWriteDeadline w conn
  let werr ← w.writeResponse .ordinary res
  let ferr ← w.flush
  let closing := closing || werr.any (Error.closesOnWrite true) ||
    ferr.any (Error.closesOnWrite false) || p.closeAfterReply
  pure (if closing then some .close else none)

/-- `handle` for a request that is not `CONNECT`, from the request modifier on. -/
def Proxy.handleRequest (conn : Conn) (req : Request) : Eng (Option Error) := do
  let req := { req with scheme := p.scheme (← isSecure) req.scheme }
  let reqUpType := req.upgrade
  let (req, skip) ← p.modifyRequest w req
  if ← hijacked then pure none else do
  let req := if reqUpType ≠ "" then { req with upgrade := reqUpType } else req
  let res ← p.orError w req (← roundTrip w req skip)
  let resUpType := res.upgrade
  let res ← p.modifyResponse w res
  if ← hijacked then pure none else do
  let res := if resUpType ≠ "" then { res with upgrade := resUpType } else res
  let closing ← closeRequested w req res
  let res := if closing then { res with close := true } else res
  match ← shapeContext w conn with
  | some err => do emit .unanswered; pure (some err)
  | none =>
    if res.statusCode = 101 then handleUpgradeResponse w res conn
    else p.writeReply w conn res closing

/-- `handle` after `readRequest` and before its deferred `req.Body.Close()`. -/
def Proxy.serve (next : Conn → Eng (Option Error)) (conn : Conn) (req : Request) :
    Eng (Option Error) := do
  (if conn.isTLS then markSecure else pure ())
  let req := if conn.isTLS then { req with tls := true } else req
  if req.method = "CONNECT" then p.handleConnectRequest w next conn req
  else p.handleRequest w conn req

/-- `p.handle(ctx, conn, brw)`, with `fuel` for its MITM re-entries. -/
def Proxy.handle : Nat → Conn → Eng (Option Error)
  | 0, _ => stop
  | fuel + 1, conn => do
    match ← p.readRequest w conn with
    | .error err => pure (some err)
    | .ok req => do
      let out ← p.serve w (Proxy.handle fuel) conn req
      emit .closeBody
      pure out

/-- `maxConsecutiveErrors` of `handleLoop`. -/
def maxConsecutiveErrors : Nat := 5

/-- The loop of `handleLoop`, with `errors` consecutive errors so far; its fuel bounds both the
iterations and the MITM re-entries of each. -/
def Proxy.loop (conn : Conn) : Nat → Nat → Eng Unit
  | 0, _ => stop
  | fuel + 1, errors => do
    match ← p.handle w fuel conn with
    | some err =>
      if isCloseable err ∨ errors + 1 ≥ maxConsecutiveErrors then emit (.close conn)
      else if ← hijacked then emit (.close conn)
      else Proxy.loop conn fuel (errors + 1)
    | none => if ← hijacked then emit (.close conn) else Proxy.loop conn fuel 0

/-- `p.handleLoop(conn)`: unless the proxy is closing, a fresh `brw` and session over `conn`
and the loop; the connection is closed when it returns. -/
def Proxy.handleLoop (conn : Conn) (fuel : Nat) : Eng Unit := do
  if ← w.ask (·.closing) then emit (.close conn)
  else do
    modify fun s => { s with session := ⟨false, false⟩, reader := .conn conn, writer := conn }
    p.loop w conn fuel 0

end

/-- The state a connection starts from. -/
def St.init : St := ⟨0, ⟨false, false⟩, .conn .socket, .socket, none, []⟩

/-! ## A plain world

The runs replayed on fixed inputs start from these and change the answers they need. -/

/-- A `GET` over HTTP/1.1. -/
def Request.get : Request := ⟨"GET", 1, 1, false, "", "", false, []⟩

/-- A world where every call out succeeds: no shutdown, modifiers that change nothing, an
upstream that answers `200`, and a client that hangs up at the first read. -/
def World.plain : World where
  now k := k
  closing _ := false
  readRequest _ := .error .eof
  modifyRequest _ req := ⟨req, none, false, false⟩
  modifyResponse _ res := ⟨res, none, false, false⟩
  roundTrip _ _ := .ok ⟨200, false, "", false, []⟩
  errorResponse _ _ _ := ⟨502, false, "", false, []⟩
  connect _ _ := .ok ⟨200, false, "", false, []⟩
  writeError _ := none
  flushError _ := none
  dumpResponse _ := none
  peek _ := (22, [])
  handshake _ := .ok "http/1.1"
  h2 _ := none
  closeWriter _ := true

/-- A proxy with every option off. -/
def Proxy.plain : Proxy where
  allowHTTP := false
  connectPassthrough := false
  withoutWarning := false
  readTimeout := 0
  readHeaderTimeout := 0
  writeTimeout := 0
  closeAfterReply := false
  mitm := false
  hasErrorResponse := false

/-- A `CONNECT` over HTTP/1.1. -/
def Request.connect : Request := ⟨"CONNECT", 1, 1, false, "", "", false, []⟩

/-- A client that sends one `GET` and hangs up. -/
def World.getOnce : World :=
  { World.plain with readRequest := fun k => if k = 2 then .ok .get else .error .eof }

set_option smartUnfolding false in
/-- With `CloseAfterReply`, a keep-alive `GET` is answered without `Connection: close`, the write
and the flush succeed, `handle` returns `errClose`, and `handleLoop` closes the connection. -/
theorem handleLoop_closes_unannounced :
    ({ Proxy.plain with closeAfterReply := true }.handle World.getOnce 1 .socket
        { St.init with tick := 1 }).1 = some (some .close) ∧
      ({ Proxy.plain with closeAfterReply := true }.handleLoop World.getOnce .socket 3
        St.init).2.trace =
        [.setReadDeadline .socket none, .readRequest (.conn .socket) 1 (.parsed .get),
          .writeResponse .socket .ordinary ⟨200, false, "", false, []⟩ none none,
          .flush .socket none none, .closeBody, .close .socket] :=
  ⟨rfl, rfl⟩

/-- A client that sends a `GET`, then a `CONNECT` once the `GET` is answered. -/
def World.getThenConnect : World :=
  { World.plain with
    readRequest := fun k =>
      if k = 2 then .ok .get else if k = 12 then .ok .connect else .error .eof }

set_option smartUnfolding false in
/-- With `WriteTimeout` 10, the `CONNECT` read at time 11 is answered, and its tunnel run, under
the deadline 18 set for the `GET` before it: earlier than 11 + 10. -/
theorem handleLoop_tunnel_stale_deadline :
    ({ Proxy.plain with writeTimeout := 10 }.handleLoop World.getThenConnect .socket 4
        St.init).2.trace =
      [.setReadDeadline .socket none, .readRequest (.conn .socket) 1 (.parsed .get),
        .setWriteDeadline .socket (some 18),
        .writeResponse .socket .ordinary ⟨200, false, "", false, []⟩ (some 18) none,
        .flush .socket (some 18) none, .closeBody,
        .setReadDeadline .socket none, .readRequest (.conn .socket) 11 (.parsed .connect),
        .writeResponse .socket .head ⟨200, false, "", false, []⟩ (some 18) none,
        .flush .socket (some 18) none, .drain (.conn .socket), .splice .socket (some 18),
        .closeBody, .close .socket] := rfl

/-- A client that sends a `CONNECT`, then two `GET`s over the TLS session the MITM sets up. -/
def World.mitmTwoGets : World :=
  { World.plain with
    readRequest := fun k =>
      if k = 2 then .ok .connect else if k = 11 ∨ k = 20 then .ok .get else .error .eof }

set_option smartUnfolding false in
/-- After the MITM, the first `GET` is handled with the TLS connection; the second, read by
`handleLoop`'s next `handle`, with the raw socket, while `brw` reads from and writes to the TLS
connection. -/
theorem handleLoop_second_request_raw_socket :
    ({ Proxy.plain with mitm := true }.handleLoop World.mitmTwoGets .socket 6 St.init).2.trace =
      [.setReadDeadline .socket none, .readRequest (.conn .socket) 1 (.parsed .connect),
        .writeResponse .socket .established ⟨200, false, "", false, []⟩ none none,
        .flush .socket none none, .peek (.conn .socket), .handshake (.tls (.peeked .socket)),
        .resetWriter (.tls (.peeked .socket)), .resetReader (.conn (.tls (.peeked .socket))),
        .setReadDeadline (.tls (.peeked .socket)) none,
        .readRequest (.conn (.tls (.peeked .socket))) 10 (.parsed .get),
        .writeResponse (.tls (.peeked .socket)) .ordinary ⟨200, false, "", false, []⟩ none none,
        .flush (.tls (.peeked .socket)) none none, .closeBody, .closeBody,
        .setReadDeadline .socket none,
        .readRequest (.conn (.tls (.peeked .socket))) 19 (.parsed .get),
        .writeResponse (.tls (.peeked .socket)) .ordinary ⟨200, false, "", false, []⟩ none none,
        .flush (.tls (.peeked .socket)) none none, .closeBody,
        .setReadDeadline .socket none,
        .readRequest (.conn (.tls (.peeked .socket))) 28 (.failed .eof),
        .closeWrite .socket, .close .socket] := rfl

/-- A client that sends a `CONNECT`, a `GET` over the TLS session the MITM sets up, then a
WebSocket upgrade, which the upstream accepts with a `101` whose body reads and writes. -/
def World.mitmThenUpgrade : World :=
  { World.plain with
    readRequest := fun k =>
      if k = 2 then .ok .connect else if k = 11 then .ok .get
      else if k = 20 then .ok { Request.get with upgrade := "websocket" } else .error .eof
    roundTrip := fun _ req =>
      .ok (if req.upgrade = "" then ⟨200, false, "", false, []⟩
        else ⟨101, false, req.upgrade, true, []⟩) }

set_option smartUnfolding false in
/-- The upgrade on the MITM'd connection is handled with the raw socket: `tunnel` drains the
buffered plaintext of the TLS connection, then copies the raw socket, so the upstream receives
the client's TLS records and the client receives the upstream's bytes outside TLS. -/
theorem handleLoop_upgrade_splices_raw_socket :
    ({ Proxy.plain with mitm := true }.handleLoop World.mitmThenUpgrade .socket 6 St.init).2.trace =
      [.setReadDeadline .socket none, .readRequest (.conn .socket) 1 (.parsed .connect),
        .writeResponse .socket .established ⟨200, false, "", false, []⟩ none none,
        .flush .socket none none, .peek (.conn .socket), .handshake (.tls (.peeked .socket)),
        .resetWriter (.tls (.peeked .socket)), .resetReader (.conn (.tls (.peeked .socket))),
        .setReadDeadline (.tls (.peeked .socket)) none,
        .readRequest (.conn (.tls (.peeked .socket))) 10 (.parsed .get),
        .writeResponse (.tls (.peeked .socket)) .ordinary ⟨200, false, "", false, []⟩ none none,
        .flush (.tls (.peeked .socket)) none none, .closeBody, .closeBody,
        .setReadDeadline .socket none,
        .readRequest (.conn (.tls (.peeked .socket))) 19
          (.parsed { Request.get with upgrade := "websocket" }),
        .writeResponse (.tls (.peeked .socket)) .head ⟨101, false, "websocket", true, []⟩
          none none,
        .flush (.tls (.peeked .socket)) none none, .drain (.conn (.tls (.peeked .socket))),
        .splice .socket none, .closeBody, .close .socket] := rfl

end Martian
